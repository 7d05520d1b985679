import Klein.State.DueTimers
import Klein.State.RecoveredKeys

/-! Timers of a run (`MemoryStateBackend.register_timer`, `delete_timer` and
`pop_due_timers`) against the timers that are registered, where equal keys and
namespaces count as one. A timer is found again by the encoding of the key that was
read back, so its texts must be shared alike. -/
namespace Klein.State
open Bytes Dict Fallible List Option PyObject

def objectCodec (pickle : KeyPickle) (sha256 : Bytes → Bytes) (blake2b : Bytes → Nat) : KeyCodec PyObject where
  encodeKey key := .ok (PyObject.encodeKey pickle .highest key)
  decodeKey encoded := .ok (PyObject.decodeKey pickle encoded)
  encodePair key space := .ok (PyObject.encodeKey pickle .highest (pair key space))
  dumpsPair key space := .ok (pickle.dumps .highest (pair key space))
  loadsPair encoded :=
    match pickle.loads encoded with
    | .node .tuple [key,space] => .ok (key,space)
    | _ => .error "cannot unpack a key and a namespace"
  sha256 := sha256
  keyHash key := blake2b (PyObject.encodeKey pickle .four key)

theorem objectCodec_readable (pickle : KeyPickle) (lawful : pickle.Lawful) (sha256 : Bytes → Bytes) (blake2b : Bytes → Nat) :
    (objectCodec pickle sha256 blake2b).Readable where
  decode_encode _ _ _ := ⟨_,rfl⟩
  loads_dumps key space encoded ok := by
    obtain rfl := Except.ok.inj ok
    obtain ⟨change,-,restored⟩ := lawful.restores .highest (pair key space)
    unfold objectCodec
    dsimp only
    generalize pickle.loads (pickle.dumps .highest (pair key space)) = read at restored
    cases read with
    | atom _ => cases restored
    | node kind items =>
      obtain ⟨rfl,arranged,-,fixed,each⟩ := (corresponds_node _ _ _ _ _ _ _).mp restored
      obtain rfl := fixed rfl
      cases each with
      | cons _ each =>
        cases each with
        | cons _ each =>
          cases each
          exact ⟨_,rfl⟩

abbrev Timer := TimerEvent PyObject

namespace Timer

def pair (timer : Timer) : PyObject := PyObject.pair timer.key timer.space

def same (timer other : Timer) : Bool :=
  decide (timer.timestamp = other.timestamp) && decide (timer.domain = other.domain) && timer.key.equal other.key && timer.space.equal other.space

end Timer

inductive TimerCall where
  | register (key : PyObject) (timestamp : Int) (space : PyObject) (domain : TimerDomain)
  | delete (key : PyObject) (timestamp : Int) (space : PyObject) (domain : TimerDomain)
  | pop (timestamp : Int) (domain : TimerDomain) (limit : Option Int)

namespace TimerCall

def pairs : TimerCall → List PyObject
  | .register key _ space _ | .delete key _ space _ => [pair key space]
  | .pop _ _ _ => []

def Small : TimerCall → Prop
  | .register _ timestamp _ _ | .delete _ timestamp _ _ => timestamp < 2 ^ 64
  | .pop _ _ _ => True

def Roomy : TimerCall → Prop
  | .pop _ _ limit => ∀ bound, limit = some bound → 1 ≤ bound
  | _ => True

end TimerCall

inductive Serves (registered : List Timer) : TimerCall → Except String (List Timer) → List Timer → Prop
  | refusedRegister (key : PyObject) (timestamp : Int) (space : PyObject) (domain : TimerDomain) (raised : String) (negative : timestamp < 0) :
    Serves registered (.register key timestamp space domain) (.error raised) registered
  | refusedDelete (key : PyObject) (timestamp : Int) (space : PyObject) (domain : TimerDomain) (raised : String) (negative : timestamp < 0) :
    Serves registered (.delete key timestamp space domain) (.error raised) registered
  | register (timer : Timer) : Serves registered (.register timer.key timer.timestamp timer.space timer.domain) (.ok [])
    (registered.filter (fun other => !timer.same other) ++ [timer])
  | delete (timer : Timer) : Serves registered (.delete timer.key timer.timestamp timer.space timer.domain) (.ok [])
    (registered.filter (fun other => !timer.same other))
  | pop (timestamp : Int) (domain : TimerDomain) (limit : Option Int) (taken rest events : List Timer)
    (parts : (taken ++ rest).Perm registered)
    (returned : List.Forall₂ (fun timer event => timer.same event) taken events)
    (once : events.Pairwise (fun event other => ¬ event.same other))
    (ascending : events.Pairwise (fun event other => event.timestamp ≤ other.timestamp))
    (due : ∀ timer ∈ taken, timer.domain = domain ∧ (timer.timestamp : Int) ≤ timestamp)
    (limited : ∀ bound, limit = some bound → (taken.length : Int) ≤ bound)
    (all : ∀ timer ∈ rest, timer.domain = domain → (timer.timestamp : Int) ≤ timestamp →
      limit = some (taken.length : Int) ∧ ∀ other ∈ taken, other.timestamp ≤ timer.timestamp) :
    Serves registered (.pop timestamp domain limit) (.ok events) rest

namespace MemoryStateBackend
variable (codec : KeyCodec PyObject)

def call (b : MemoryStateBackend PyObject) : TimerCall → Except String (List Timer) × MemoryStateBackend PyObject
  | .register key timestamp space domain =>
    let (done,next) := {b with currentKey := some key}.registerTimer codec timestamp space domain
    (done.map (fun _ => []),next)
  | .delete key timestamp space domain =>
    let (done,next) := {b with currentKey := some key}.deleteTimer codec timestamp space domain
    (done.map (fun _ => []),next)
  | .pop timestamp domain limit => b.popDueTimers codec timestamp domain limit

def ServesAll (b : MemoryStateBackend PyObject) (registered : List Timer) : List TimerCall → Prop
  | [] => True
  | call::calls => ∃ registered', Serves registered call (b.call codec call).1 registered' ∧
    ServesAll (b.call codec call).2 registered' calls

end MemoryStateBackend

/-- One key is the other with other objects in place of its texts, one for one, and none
of them names a class. -/
def SharesAlike (key other : PyObject) : Prop := ∃ change, Matches change key other ∧ Steady change key

/-- What is assumed of the keys and namespaces of a run: they are keys, equal ones share
their texts alike, and no two digests collide. -/
structure Regular (pickle : KeyPickle) (sha256 : Bytes → Bytes) (pairs : List PyObject) : Prop where
  valid : ∀ pair ∈ pairs, pair.Valid
  shared : ∀ pair ∈ pairs, ∀ other ∈ pairs, pair.equal other → SharesAlike pair other
  collisionFree : ∀ pair ∈ pairs, ∀ other ∈ pairs,
    sha256 (PyObject.encodeKey pickle .highest pair) = sha256 (PyObject.encodeKey pickle .highest other) →
      PyObject.encodeKey pickle .highest pair = PyObject.encodeKey pickle .highest other

section keys
variable (pickle : KeyPickle) (lawful : pickle.Lawful) (sha256 : Bytes → Bytes) (blake2b : Bytes → Nat)

def timerKey (timer : Timer) : Bytes :=
  timerPrefix timer.domain ++ Bytes.ofNat 8 timer.timestamp ++ sha256 (PyObject.encodeKey pickle .highest timer.pair)

def timerValue (timer : Timer) : Bytes := pickle.dumps .highest timer.pair

theorem encodeTimerKey_eq (timer : Timer) (small : timer.timestamp < 256 ^ 8) :
    encodeTimerKey (objectCodec pickle sha256 blake2b) timer.timestamp timer.key timer.space timer.domain =
      .ok (timerKey pickle sha256 timer) := by
  have packed : packUnsigned 8 (timer.timestamp : Int) = .ok (Bytes.ofNat 8 timer.timestamp) := by
    unfold packUnsigned
    rw [if_pos ⟨by omega,by exact_mod_cast small⟩,Int.toNat_natCast]
  unfold encodeTimerKey
  rw [packed]
  rfl

theorem encodeTimerValue_eq (timer : Timer) :
    encodeTimerValue (objectCodec pickle sha256 blake2b) timer.key timer.space = .ok (timerValue pickle timer) := rfl

variable (pairs : List PyObject) (regular : Regular pickle sha256 pairs)

structure Known (timer : Timer) : Prop where
  listed : timer.pair ∈ pairs
  small : timer.timestamp < 256 ^ 8

include regular

theorem Known.parts (timer : Timer) (known : Known pairs timer) : timer.key.Valid ∧ timer.space.Valid := by
  have valid := regular.valid timer.pair known.listed
  cases valid with
  | node _ _ each _ => exact ⟨each timer.key mem_cons_self,each timer.space (mem_cons_of_mem _ mem_cons_self)⟩

theorem Known.same_symm (timer other : Timer) (known : Known pairs timer) (same : timer.same other) : other.same timer := by
  obtain ⟨key,space⟩ := known.parts pickle sha256 pairs regular
  unfold Timer.same at same ⊢
  simp only [Bool.and_eq_true,decide_eq_true_eq] at same ⊢
  exact ⟨⟨⟨same.1.1.1.symm,same.1.1.2.symm⟩,equal_symm _ _ key same.1.2⟩,equal_symm _ _ space same.2⟩

omit regular in
theorem Timer.same_trans (timer other third : Timer) (first : timer.same other) (second : other.same third) : timer.same third := by
  unfold Timer.same at first second ⊢
  simp only [Bool.and_eq_true,decide_eq_true_eq] at first second ⊢
  exact ⟨⟨⟨first.1.1.1.trans second.1.1.1,first.1.1.2.trans second.1.1.2⟩,equal_trans _ _ _ first.1.2 second.1.2⟩,
    equal_trans _ _ _ first.2 second.2⟩

include lawful

theorem timerKey_eq_iff (timer other : Timer) (known : Known pairs timer) (known' : Known pairs other) :
    timerKey pickle sha256 timer = timerKey pickle sha256 other ↔ timer.same other := by
  unfold Timer.same
  simp only [Bool.and_eq_true,decide_eq_true_eq,and_assoc,← equal_pair]
  constructor
  · intro same
    unfold timerKey at same
    have first : (timerPrefix timer.domain).length = (timerPrefix other.domain).length := by
      cases timer.domain <;> cases other.domain <;> rfl
    obtain ⟨front,digests⟩ := append_inj same (by simp [first])
    obtain ⟨prefixes,stamps⟩ := append_inj front first
    refine ⟨?_,?_,?_⟩
    · rw [← toNat_ofNat 8 _ known.small,← toNat_ofNat 8 _ known'.small,stamps]
    · revert prefixes
      cases timer.domain <;> cases other.domain <;> decide
    · exact encodeKey_injective pickle lawful .highest _ _ (regular.valid _ known.listed) (regular.valid _ known'.listed)
        (regular.collisionFree _ known.listed _ known'.listed digests)
  · intro same
    obtain ⟨change,matched,steady⟩ := regular.shared timer.pair known.listed other.pair known'.listed same.2.2
    unfold timerKey
    rw [same.1,same.2.1,encodeKey_matches pickle lawful change .highest _ _ (regular.valid _ known.listed) matched steady]

omit regular in
theorem timer_decoded (timer : Timer) (small : timer.timestamp < 256 ^ 8) (valid : timer.pair.Valid) : ∃ change key space,
    Fresh change timer.pair ∧ Matches change timer.pair (PyObject.pair key space) ∧
      decodeTimer (objectCodec pickle sha256 blake2b) (timerKey pickle sha256 timer) (timerValue pickle timer) =
        .ok (timer.timestamp,key,space) := by
  obtain ⟨change,fresh,restored⟩ := lawful.restores .highest timer.pair
  have matched := matches_restored change _ _ valid restored
  obtain ⟨key,space,loaded,-,-⟩ := matches_pair change _ _ _ matched
  rw [loaded] at matched
  have spans : 8 < (timerKey pickle sha256 timer).length ∧
      ((timerKey pickle sha256 timer).drop 1).take 8 = Bytes.ofNat 8 timer.timestamp := by
    unfold timerKey
    constructor
    · cases timer.domain <;> simp only [timerPrefix,length_append,length_singleton,length_ofNat] <;> omega
    · cases timer.domain <;> simp [timerPrefix,length_ofNat]
  refine ⟨change,key,space,fresh,matched,?_⟩
  unfold decodeTimer objectCodec timerValue
  dsimp only
  rw [if_neg (by omega),loaded,spans.2,toNat_ofNat 8 _ small]
  rfl

theorem timer_read (timer : Timer) (known : Known pairs timer) : ∃ event : Timer,
    ReadAs (objectCodec pickle sha256 blake2b) (timerKey pickle sha256 timer,timerValue pickle timer) event ∧
      timer.same event ∧ event.domain = timer.domain ∧ event.timestamp = timer.timestamp := by
  have valid := regular.valid _ known.listed
  obtain ⟨change,key,space,fresh,matched,decoded⟩ := timer_decoded pickle lawful sha256 blake2b timer known.small valid
  obtain ⟨_,-,own⟩ := regular.shared _ known.listed _ known.listed (equal_refl _)
  have steady : Steady change timer.pair := ⟨fresh.distinct,own.unnamed,fun leaf found named =>
    fresh.unnamed leaf found (names_reserved _ _ named)⟩
  have encoded := encodeKey_matches pickle lawful change .highest _ _ valid matched steady
  refine ⟨⟨timer.timestamp,key,space,timer.domain⟩,⟨decoded,?_⟩,?_,rfl,rfl⟩
  · rw [encodeTimerKey_eq pickle sha256 blake2b ⟨timer.timestamp,key,space,timer.domain⟩ known.small]
    unfold timerKey Timer.pair
    dsimp only
    rw [encoded]
    rfl
  · unfold Timer.same
    simp only [Bool.and_eq_true,decide_eq_true_eq,and_assoc,← equal_pair]
    exact ⟨trivial,trivial,matches_equal change _ _ matched⟩

end keys

section scan
variable (codec : KeyCodec PyObject) (timestamp : Int) (domain : TimerDomain)

def upToLimit {α : Type} (limit : Option Int) (count : Nat) (events : List α) : List α :=
  match limit with
  | none => events
  | some bound => events.take (bound - count).toNat

theorem upToLimit_map {α β : Type} (limit : Option Int) (count : Nat) (change : α → β) (events : List α) :
    upToLimit limit count (events.map change) = (upToLimit limit count events).map change := by
  cases limit with
  | none => rfl
  | some bound => exact map_take.symm

theorem upToLimit_sublist {α : Type} (limit : Option Int) (count : Nat) (events : List α) :
    (upToLimit limit count events).Sublist events := by
  cases limit with
  | none => exact List.Sublist.refl _
  | some bound => exact take_sublist _ _

theorem length_upToLimit {α : Type} (bound : Int) (events : List α) (positive : 1 ≤ bound) :
    ((upToLimit (some bound) 0 events).length : Int) ≤ bound := by
  unfold upToLimit
  dsimp only
  rw [length_take]
  omega

theorem left_over {α : Type} (limit : Option Int) (events : List α) (before : α → α → Prop) (ordered : events.Pairwise before)
    (room : ∀ bound, limit = some bound → 1 ≤ bound) (event : α) (inside : event ∈ events) (left : event ∉ upToLimit limit 0 events) :
    limit = some ((upToLimit limit 0 events).length : Int) ∧ ∀ other ∈ upToLimit limit 0 events, before other event := by
  cases limit with
  | none => exact absurd inside left
  | some bound =>
    have positive := room bound rfl
    unfold upToLimit at left ⊢
    dsimp only at left ⊢
    rw [← take_append_drop (bound - (0 : Nat)).toNat events] at inside ordered
    have later := (mem_append.mp inside).resolve_left left
    have full : (events.take (bound - (0 : Nat)).toNat).length = (bound - (0 : Nat)).toNat := by
      have more := length_pos_of_mem later
      rw [length_drop] at more
      rw [length_take]
      omega
    refine ⟨?_,fun other among => (pairwise_append.mp ordered).2.2 other among event later⟩
    rw [full,Option.some.injEq]
    omega

theorem dueTimers_read (limit : Option Int) (count : Nat) (items : List (Bytes × Bytes)) (events : List Timer)
    (room : ∀ bound, limit = some bound → (count : Int) < bound)
    (read : List.Forall₂ (fun item event => ReadAs codec item event ∧ event.domain = domain) items events)
    (ascending : events.Pairwise (fun event other => event.timestamp ≤ other.timestamp)) :
    dueTimers codec timestamp domain limit count items =
      .ok (upToLimit limit count (events.filter (fun event => (event.timestamp : Int) ≤ timestamp))) := by
  induction read generalizing count with
  | nil => cases limit <;> simp [upToLimit,dueTimers]
  | @cons item event items events first _ ih =>
    obtain ⟨below,ascending⟩ := pairwise_cons.mp ascending
    obtain ⟨reads,own⟩ := first
    unfold dueTimers
    rw [ok_bind reads.decoded]
    dsimp only
    have rebuilt : (⟨event.timestamp,event.key,event.space,domain⟩ : Timer) = event := by rw [← own]
    rw [rebuilt]
    by_cases late : timestamp < event.timestamp
    · have none : (event::events).filter (fun event => (event.timestamp : Int) ≤ timestamp) = [] := by
        rw [filter_eq_nil_iff]
        intro other inside
        rcases mem_cons.mp inside with rfl | inside
        · simpa using late
        · have above := below other inside
          simp only [decide_eq_true_eq]
          omega
      rw [if_pos late,none]
      cases limit <;> simp [upToLimit] <;> rfl
    · rw [if_neg late,filter_cons_of_pos (by simpa using late)]
      by_cases reached : limitReached limit (count + 1) = true
      · cases limit with
        | none => cases reached
        | some bound =>
          have far := room bound rfl
          have near : bound ≤ count + 1 := by simpa [limitReached] using reached
          obtain rfl : bound = count + 1 := by omega
          rw [if_pos reached]
          have single : ((count : Int) + 1 - count).toNat = 1 := by omega
          unfold upToLimit
          dsimp only
          rw [single]
          rfl
      · rw [if_neg reached,ok_bind (ih (count + 1) ?_ ascending)]
        · cases limit with
          | none => rfl
          | some bound =>
            have far := room bound rfl
            unfold upToLimit
            dsimp only
            have next : (bound - count).toNat = (bound - (count + 1 : Nat)).toNat + 1 := by omega
            rw [next,take_succ_cons]
            rfl
        · rintro bound rfl
          have far := room bound rfl
          have near : ¬ bound ≤ count + 1 := by simpa [limitReached] using reached
          omega

end scan
section runs
variable (pickle : KeyPickle) (lawful : pickle.Lawful) (sha256 : Bytes → Bytes) (blake2b : Bytes → Nat)
  (pairs : List PyObject)
variable (regular : Regular pickle sha256 pairs)

structure Tracks (b : MemoryStateBackend PyObject) (registered : List Timer) : Prop where
  stored : ∀ encodedKey encodedValue, b.timers.get? encodedKey = some encodedValue ↔
    ∃ timer ∈ registered, timerKey pickle sha256 timer = encodedKey ∧ timerValue pickle timer = encodedValue
  known : ∀ timer ∈ registered, Known pairs timer
  apart : registered.Pairwise (fun timer other => timerKey pickle sha256 timer ≠ timerKey pickle sha256 other)

variable (b : MemoryStateBackend PyObject) (registered : List Timer)

theorem currentKey_set (key : PyObject) : MemoryStateBackend.requireCurrentKey {b with currentKey := some key} = .ok key := rfl

theorem timerEntry_eq (pickle : KeyPickle) (sha256 : Bytes → Bytes) (blake2b : Bytes → Nat) (timer : Timer)
    (small : timer.timestamp < 256 ^ 8) :
    timerEntry (objectCodec pickle sha256 blake2b) (MemoryStateBackend.requireCurrentKey {b with currentKey := some timer.key}) timer.timestamp
      timer.space timer.domain = .ok (timerKey pickle sha256 timer,timerValue pickle timer) := by
  unfold timerEntry
  rw [currentKey_set,@ok_bind _ _ _ _ _ timer.key rfl,encodeTimerValue_eq,@ok_bind _ _ _ _ _ (timerValue pickle timer) rfl,
    ok_bind (encodeTimerKey_eq pickle sha256 blake2b timer small)]
  rfl

section
variable (codec : KeyCodec PyObject)
include codec

theorem deleteTimer_found (timestamp : Int) (space : PyObject) (domain : TimerDomain) (encodedKey : Bytes)
    (found : (b.requireCurrentKey >>= fun key => encodeTimerKey codec timestamp key space domain) = .ok encodedKey) :
    b.deleteTimer codec timestamp space domain = (.ok (),{b with timers := b.timers.erase encodedKey}) := by
  unfold MemoryStateBackend.deleteTimer
  rw [found]

theorem registerTimer_entry (timestamp : Int) (space : PyObject) (domain : TimerDomain)
    (encodedKey encodedValue : Bytes) (reached : 0 ≤ timestamp)
    (entry : timerEntry codec b.requireCurrentKey timestamp space domain = .ok (encodedKey,encodedValue)) :
    b.registerTimer codec timestamp space domain = (.ok (),{b with timers := b.timers.set encodedKey encodedValue}) := by
  unfold MemoryStateBackend.registerTimer
  rw [if_neg (by omega),entry]

theorem call_delete (key : PyObject) (timestamp : Int) (space : PyObject) (domain : TimerDomain) :
    b.call codec (.delete key timestamp space domain) =
      (({b with currentKey := some key}.deleteTimer codec timestamp space domain).1.map (fun _ => []),
        ({b with currentKey := some key}.deleteTimer codec timestamp space domain).2) := rfl

theorem call_register (key : PyObject) (timestamp : Int) (space : PyObject) (domain : TimerDomain) :
    b.call codec (.register key timestamp space domain) =
      (({b with currentKey := some key}.registerTimer codec timestamp space domain).1.map (fun _ => []),
        ({b with currentKey := some key}.registerTimer codec timestamp space domain).2) := rfl

end

theorem Tracks.init : Tracks pickle sha256 pairs MemoryStateBackend.init [] where
  stored := fun encodedKey encodedValue => by simp [MemoryStateBackend.init]
  known := nofun
  apart := .nil

theorem Tracks.filter (tracks : Tracks pickle sha256 pairs b registered) (keep : Bytes → Bool) :
    Tracks pickle sha256 pairs {b with timers := b.timers.filter (fun encodedKey _ => keep encodedKey)}
      (registered.filter (fun timer => keep (timerKey pickle sha256 timer))) where
  stored := fun encodedKey encodedValue => by
    dsimp only
    rw [Dict.get?_filter,filter_eq_some_iff,tracks.stored]
    constructor
    · intro found
      obtain ⟨⟨timer,inside,rfl,rfl⟩,kept⟩ := found
      exact ⟨timer,mem_filter.mpr ⟨inside,kept⟩,rfl,rfl⟩
    · intro found
      obtain ⟨timer,inside,rfl,rfl⟩ := found
      obtain ⟨inside,kept⟩ := mem_filter.mp inside
      exact ⟨⟨timer,inside,rfl,rfl⟩,kept⟩
  known := fun timer inside => tracks.known timer (mem_filter.mp inside).1
  apart := tracks.apart.filter _

include regular lawful

section
variable (tracks : Tracks pickle sha256 pairs b registered) (timer : Timer) (known : Known pairs timer)
include tracks known

theorem Tracks.others :
    registered.filter (fun other => !timer.same other) =
      registered.filter (fun other => timerKey pickle sha256 other ≠ timerKey pickle sha256 timer) := by
  refine List.filter_congr (fun other inside => ?_)
  have told := timerKey_eq_iff pickle lawful sha256 pairs regular timer other known (tracks.known other inside)
  rw [Bool.eq_iff_iff,Bool.not_eq_true',← Bool.not_eq_true,← told,decide_eq_true_eq,eq_comm]

theorem Tracks.delete :
    (b.call (objectCodec pickle sha256 blake2b) (.delete timer.key timer.timestamp timer.space timer.domain)).1 = .ok [] ∧
      Tracks pickle sha256 pairs (b.call (objectCodec pickle sha256 blake2b)
        (.delete timer.key timer.timestamp timer.space timer.domain)).2 (registered.filter (fun other => !timer.same other)) := by
  have taken := tracks.filter pickle sha256 pairs b registered (fun encodedKey => encodedKey ≠ timerKey pickle sha256 timer)
  have encoded : ({b with currentKey := some timer.key}.requireCurrentKey >>= fun key =>
      encodeTimerKey (objectCodec pickle sha256 blake2b) timer.timestamp key timer.space timer.domain) = .ok (timerKey pickle sha256 timer) := by
    rw [currentKey_set,@ok_bind _ _ _ _ _ timer.key rfl]
    exact encodeTimerKey_eq pickle sha256 blake2b timer known.small
  rw [call_delete,deleteTimer_found _ _ _ _ _ _ encoded,tracks.others pickle lawful sha256 pairs regular b registered timer known]
  exact ⟨rfl,taken.stored,taken.known,taken.apart⟩

theorem Tracks.register :
    (b.call (objectCodec pickle sha256 blake2b) (.register timer.key timer.timestamp timer.space timer.domain)).1 = .ok [] ∧
      Tracks pickle sha256 pairs (b.call (objectCodec pickle sha256 blake2b)
        (.register timer.key timer.timestamp timer.space timer.domain)).2
        (registered.filter (fun other => !timer.same other) ++ [timer]) := by
  have entry := timerEntry_eq b pickle sha256 blake2b timer known.small
  rw [call_register,registerTimer_entry _ _ _ _ _ _ _ (by omega) entry,tracks.others pickle lawful sha256 pairs regular b registered timer known]
  refine ⟨rfl,fun encodedKey encodedValue => ?_,fun other inside => ?_,?_⟩
  · change (b.timers.set (timerKey pickle sha256 timer) (timerValue pickle timer)).get? encodedKey = some encodedValue ↔ _
    rw [Dict.get?_set]
    by_cases own : encodedKey = timerKey pickle sha256 timer
    · rw [if_pos own]
      constructor
      · intro same
        exact ⟨timer,mem_append_right _ mem_cons_self,own.symm,some.inj same⟩
      · intro found
        obtain ⟨other,inside,keyed,rfl⟩ := found
        rcases mem_append.mp inside with inside | inside
        · exact absurd (keyed.trans own) (of_decide_eq_true (mem_filter.mp inside).2)
        · rw [mem_singleton.mp inside]
    · rw [if_neg own,tracks.stored]
      constructor
      · intro found
        obtain ⟨other,inside,rfl,rfl⟩ := found
        exact ⟨other,mem_append_left _ (mem_filter.mpr ⟨inside,decide_eq_true own⟩),rfl,rfl⟩
      · intro found
        obtain ⟨other,inside,rfl,rfl⟩ := found
        rcases mem_append.mp inside with inside | inside
        · exact ⟨other,(mem_filter.mp inside).1,rfl,rfl⟩
        · rw [mem_singleton.mp inside] at own
          exact absurd rfl own
  · rcases mem_append.mp inside with inside | inside
    · exact tracks.known other (mem_filter.mp inside).1
    · exact mem_singleton.mp inside ▸ known
  · refine pairwise_append.mpr ⟨tracks.apart.filter _,pairwise_singleton _ _,fun other inside last among => ?_⟩
    rw [mem_singleton.mp among]
    exact of_decide_eq_true (mem_filter.mp inside).2

end

structure Row (domain : TimerDomain) (item : Bytes × Bytes) (row : Timer × Timer) : Prop where
  listed : row.1 ∈ registered
  keyed : timerKey pickle sha256 row.1 = item.1
  read : ReadAs (objectCodec pickle sha256 blake2b) item row.2
  same : row.1.same row.2
  own : row.1.domain = domain
  domain : row.2.domain = domain
  stamp : row.2.timestamp = row.1.timestamp

omit lawful regular in
theorem mem_domainItems (domain : TimerDomain) (item : Bytes × Bytes) :
    item ∈ b.domainItems domain ↔ b.timers.get? item.1 = some item.2 ∧ (timerPrefix domain).isPrefixOf item.1 = true := by
  unfold MemoryStateBackend.domainItems
  rw [mem_filter,← OrderedMap.get?_eq_some,get?_sorted]

omit lawful regular in
theorem timerPrefix_timerKey (domain : TimerDomain) (timer : Timer) :
    (timerPrefix domain).isPrefixOf (timerKey pickle sha256 timer) = true ↔ timer.domain = domain := by
  unfold timerKey
  cases timer.domain <;> cases domain <;> simp [timerPrefix,List.isPrefixOf]

theorem Tracks.rows (tracks : Tracks pickle sha256 pairs b registered) (domain : TimerDomain) :
    ∃ rows, List.Forall₂ (Row pickle sha256 blake2b registered domain) (b.domainItems domain) rows := by
  refine exists_beside _ _ (fun item inside => ?_)
  obtain ⟨stored,ahead⟩ := (mem_domainItems b domain item).mp inside
  obtain ⟨timer,listed,keyed,valued⟩ := (tracks.stored _ _).mp stored
  obtain ⟨event,read,same,domains,stamp⟩ := timer_read pickle lawful sha256 blake2b pairs regular timer (tracks.known timer listed)
  rw [keyed,valued] at read
  rw [← keyed,timerPrefix_timerKey] at ahead
  exact ⟨(timer,event),listed,keyed,read,same,ahead,domains.trans ahead,stamp⟩

omit lawful regular in
theorem stamps_of_keys (timer other : Timer) (small : timer.timestamp < 256 ^ 8) (domains : timer.domain = other.domain)
    (le : timerKey pickle sha256 timer ≤ timerKey pickle sha256 other) :
    timer.timestamp ≤ other.timestamp := by
  unfold timerKey at le
  rw [← domains,append_assoc,append_assoc] at le
  obtain ⟨digit,single⟩ : ∃ digit, timerPrefix timer.domain = [digit] := by cases timer.domain <;> exact ⟨_,rfl⟩
  rw [single] at le
  have rest := ((Bytes.cons_le_cons_iff _ _ _ _).mp le).elim (fun less => absurd less (lt_irrefl _)) And.right
  exact ofNat_le_of_le 8 _ _ small _ _ rest

omit lawful regular in
theorem rows_ordered (tracks : Tracks pickle sha256 pairs b registered) (domain : TimerDomain) (rows : List (Timer × Timer))
    (beside : List.Forall₂ (Row pickle sha256 blake2b registered domain) (b.domainItems domain) rows) :
    rows.Pairwise (fun row other => timerKey pickle sha256 row.1 ≠ timerKey pickle sha256 other.1 ∧
      row.1.timestamp ≤ other.1.timestamp) := by
  have ordered : (b.domainItems domain).Pairwise (fun item other => item.1 < other.1) :=
    (pairwise_map.mp b.timers.sorted.ordered).sublist filter_sublist
  refine pairwise_beside _ _ _ _ rows beside ordered (fun item _ later _ row other made made' less => ⟨?_,?_⟩)
  · rw [made.keyed,made'.keyed]
    exact ne_of_lt less
  · apply stamps_of_keys pickle sha256 row.1 other.1 (tracks.known _ made.listed).small (made.own.trans made'.own.symm)
    rw [made.keyed,made'.keyed]
    exact le_of_lt less

omit lawful regular in
theorem timerKeys_rows (rows : List (Timer × Timer)) (each : ∀ row ∈ rows,
      encodeTimerKey (objectCodec pickle sha256 blake2b) row.2.timestamp row.2.key row.2.space row.2.domain = .ok (timerKey pickle sha256 row.1)) :
    timerKeys (objectCodec pickle sha256 blake2b) (rows.map Prod.snd) = (rows.map (fun row => timerKey pickle sha256 row.1),.ok ()) := by
  induction rows with
  | nil => rfl
  | cons row rest ih =>
    rw [map_cons,map_cons,timerKeys,each row mem_cons_self,ih (fun other inside => each other (mem_cons_of_mem _ inside))]

section
variable (tracks : Tracks pickle sha256 pairs b registered) (timestamp : Int) (domain : TimerDomain)
  (limit : Option Int) (room : ∀ bound, limit = some bound → 1 ≤ bound)
include tracks timestamp domain room

omit lawful regular in
theorem Tracks.popped (rows : List (Timer × Timer))
    (beside : List.Forall₂ (Row pickle sha256 blake2b registered domain) (b.domainItems domain) rows) (front : List (Timer × Timer))
    (taken : front = upToLimit limit 0 (rows.filter (fun row => (row.2.timestamp : Int) ≤ timestamp))) :
    b.popDueTimers (objectCodec pickle sha256 blake2b) timestamp domain limit = (.ok (front.map Prod.snd),
      {b with timers := b.timers.filter (fun encodedKey _ => decide (encodedKey ∉ front.map (fun row => timerKey pickle sha256 row.1)))}) := by
  have ordered := rows_ordered pickle sha256 blake2b pairs b registered tracks domain rows beside
  have made (row : Timer × Timer) (inside : row ∈ rows) := exists_left _ _ rows beside row inside
  have read := dueTimers_read (objectCodec pickle sha256 blake2b) timestamp domain limit 0 (b.domainItems domain) (rows.map Prod.snd)
    (fun bound limited => by have := room bound limited; omega)
    (by
      rw [forall₂_map_right_iff]
      exact beside_imp _ _ _ rows (fun item _ row _ made => ⟨made.read,made.domain⟩) beside)
    (by
      refine pairwise_map.mpr (ordered.imp_of_mem (fun {row other} inside among le => ?_))
      obtain ⟨_,-,first⟩ := made row inside
      obtain ⟨_,-,second⟩ := made other among
      rw [first.stamp,second.stamp]
      exact le.2)
  have events : upToLimit limit 0 ((rows.map Prod.snd).filter (fun event => (event.timestamp : Int) ≤ timestamp)) = front.map Prod.snd := by
    rw [List.filter_map,upToLimit_map,taken]
    rfl
  have keys : timerKeys (objectCodec pickle sha256 blake2b) (front.map Prod.snd) =
      (front.map (fun row => timerKey pickle sha256 row.1),.ok ()) := by
    refine timerKeys_rows pickle sha256 blake2b front (fun row inside => ?_)
    rw [taken] at inside
    obtain ⟨item,-,first⟩ := made row (mem_filter.mp ((upToLimit_sublist _ _ _).subset inside)).1
    rw [first.read.encoded,first.keyed]
  rw [events] at read
  unfold MemoryStateBackend.domainItems at read
  unfold MemoryStateBackend.popDueTimers
  rw [read]
  dsimp only
  have kept : (front.map (fun row => timerKey pickle sha256 row.1)).foldl Dict.erase b.timers =
      b.timers.filter (fun encodedKey _ => decide (encodedKey ∉ front.map (fun row => timerKey pickle sha256 row.1))) := by
    rw [foldl_erase]
    exact Dict.filter_congr _ _ b.timers (fun item _ => by simp)
  rw [keys,kept]
  rfl

theorem Tracks.pop :
    ∃ rest, Serves registered (.pop timestamp domain limit) (b.call (objectCodec pickle sha256 blake2b) (.pop timestamp domain limit)).1 rest ∧
      Tracks pickle sha256 pairs (b.call (objectCodec pickle sha256 blake2b) (.pop timestamp domain limit)).2 rest := by
  obtain ⟨rows,beside⟩ := tracks.rows pickle lawful sha256 blake2b pairs regular b registered domain
  have ordered := rows_ordered pickle sha256 blake2b pairs b registered tracks domain rows beside
  have made (row : Timer × Timer) (inside : row ∈ rows) := exists_left _ _ rows beside row inside
  obtain ⟨front,taken⟩ : ∃ front, front = upToLimit limit 0 (rows.filter (fun row => (row.2.timestamp : Int) ≤ timestamp)) := ⟨_,rfl⟩
  have popped := tracks.popped pickle sha256 blake2b pairs b registered timestamp domain limit room rows beside front taken
  have chosen : front.Sublist rows := taken ▸ (upToLimit_sublist _ _ _).trans filter_sublist
  change ∃ rest, Serves registered _ (b.popDueTimers _ timestamp domain limit).1 rest ∧ Tracks _ _ _ (b.popDueTimers _ timestamp domain limit).2 rest
  rw [popped]
  refine ⟨registered.filter (fun timer => decide (timerKey pickle sha256 timer ∉ front.map (fun row => timerKey pickle sha256 row.1))),?_,
    tracks.filter pickle sha256 pairs b registered (fun encodedKey => decide (encodedKey ∉ front.map (fun row => timerKey pickle sha256 row.1)))⟩
  have known (row : Timer × Timer) (inside : row ∈ front) : row.1 ∈ registered ∧ row.1.same row.2 ∧ row.1.domain = domain ∧
      row.2.timestamp = row.1.timestamp ∧ (row.1.timestamp : Int) ≤ timestamp := by
    obtain ⟨_,-,first⟩ := made row (chosen.subset inside)
    rw [taken] at inside
    have due := of_decide_eq_true (mem_filter.mp ((upToLimit_sublist _ _ _).subset inside)).2
    rw [first.stamp] at due
    exact ⟨first.listed,first.same,first.own,first.stamp,due⟩
  have one (timer other : Timer) (inside : timer ∈ registered) (among : other ∈ registered)
      (same : timerKey pickle sha256 timer = timerKey pickle sha256 other) : timer = other :=
    eq_of_apart (fun timer other => timerKey pickle sha256 timer = timerKey pickle sha256 other) registered
      (tracks.apart.imp (fun differs => ⟨differs,differs.symm⟩)) timer other inside among same
  have keys := (ordered.sublist chosen).imp And.left
  refine .pop timestamp domain limit (front.map Prod.fst) _ _ ?_ ?_ ?_ ?_ ?_ ?_ ?_
  · have picked : (front.map Prod.fst).Perm
        (registered.filter (fun timer => decide (timerKey pickle sha256 timer ∈ front.map (fun row => timerKey pickle sha256 row.1)))) := by
      rw [perm_ext_iff_of_nodup]
      · intro timer
        rw [mem_filter,decide_eq_true_eq,List.mem_map,List.mem_map]
        constructor
        · intro found
          obtain ⟨row,inside,rfl⟩ := found
          exact ⟨(known row inside).1,row,inside,rfl⟩
        · intro found
          obtain ⟨listed,row,inside,same⟩ := found
          exact ⟨row,inside,one row.1 timer (known row inside).1 listed same⟩
      · exact pairwise_map.mpr (keys.imp (fun differs same => differs (congrArg _ same)))
      · exact (tracks.apart.imp (fun differs same => differs (congrArg _ same))).filter _
    have parts := filter_append_perm
      (fun timer => decide (timerKey pickle sha256 timer ∈ front.map (fun row => timerKey pickle sha256 row.1))) registered
    refine (picked.append_right _).trans ?_
    simp only [decide_not]
    exact parts
  · rw [forall₂_map_left_iff,forall₂_map_right_iff]
    exact forall₂_same.mpr (fun row inside => (known row inside).2.1)
  · refine pairwise_map.mpr (keys.imp_of_mem (fun {row other} inside among differs same => differs ?_))
    have first := known row inside
    have second := known other among
    have back := Known.same_symm pickle sha256 pairs regular other.1 other.2 (tracks.known _ second.1) second.2.1
    exact (timerKey_eq_iff pickle lawful sha256 pairs regular row.1 other.1 (tracks.known _ first.1) (tracks.known _ second.1)).mpr
      (Timer.same_trans _ _ _ first.2.1 (Timer.same_trans _ _ _ same back))
  · refine pairwise_map.mpr ((ordered.sublist chosen).imp_of_mem (fun {row other} inside among le => ?_))
    rw [(known row inside).2.2.2.1,(known other among).2.2.2.1]
    exact le.2
  · intro timer inside
    obtain ⟨row,among,rfl⟩ := List.mem_map.mp inside
    exact ⟨(known row among).2.2.1,(known row among).2.2.2.2⟩
  · rintro bound rfl
    rw [length_map,taken]
    exact length_upToLimit bound _ (room bound rfl)
  · intro timer inside own early
    obtain ⟨listed,absent⟩ := mem_filter.mp inside
    have stored := (tracks.stored _ _).mpr ⟨timer,listed,rfl,rfl⟩
    have among := (mem_domainItems b domain (timerKey pickle sha256 timer,timerValue pickle timer)).mpr
      ⟨stored,(timerPrefix_timerKey pickle sha256 domain timer).mpr own⟩
    obtain ⟨row,placed,first⟩ := exists_right _ _ rows beside _ among
    obtain rfl := one row.1 timer first.listed listed first.keyed
    have due : row ∈ rows.filter (fun row => (row.2.timestamp : Int) ≤ timestamp) :=
      mem_filter.mpr ⟨placed,decide_eq_true (first.stamp ▸ early)⟩
    have left : row ∉ front := fun inside => of_decide_eq_true absent (List.mem_map_of_mem inside)
    have over' := left_over limit _ (fun row other => row.1.timestamp ≤ other.1.timestamp)
      ((ordered.imp And.right).filter (fun row : Timer × Timer => decide ((row.2.timestamp : Int) ≤ timestamp))) room row due (taken ▸ left)
    rw [← taken] at over'
    refine ⟨by rw [length_map]; exact over'.1,fun other inside => ?_⟩
    obtain ⟨later,among,rfl⟩ := List.mem_map.mp inside
    exact over'.2 later among

end

omit lawful regular in
theorem refused (key space : PyObject) (timestamp : Int) (domain : TimerDomain) (negative : timestamp < 0) :
    (∃ raised, (b.call (objectCodec pickle sha256 blake2b) (.register key timestamp space domain)).1 = .error raised) ∧
      (b.call (objectCodec pickle sha256 blake2b) (.register key timestamp space domain)).2.timers = b.timers ∧
      (∃ raised, (b.call (objectCodec pickle sha256 blake2b) (.delete key timestamp space domain)).1 = .error raised) ∧
      (b.call (objectCodec pickle sha256 blake2b) (.delete key timestamp space domain)).2.timers = b.timers := by
  have unpacked : (MemoryStateBackend.requireCurrentKey {b with currentKey := some key} >>= fun key =>
      encodeTimerKey (objectCodec pickle sha256 blake2b) timestamp key space domain) = .error structError := by
    have packed : packUnsigned 8 timestamp = .error structError := by
      unfold packUnsigned
      rw [if_neg (by omega)]
    rw [currentKey_set,@ok_bind _ _ _ _ _ key rfl]
    unfold encodeTimerKey
    rw [packed]
    rfl
  rw [call_register,call_delete]
  unfold MemoryStateBackend.registerTimer MemoryStateBackend.deleteTimer
  rw [if_pos negative,unpacked]
  exact ⟨⟨_,rfl⟩,rfl,⟨_,rfl⟩,rfl⟩

omit lawful regular in
theorem Tracks.timers (tracks : Tracks pickle sha256 pairs b registered) (next : MemoryStateBackend PyObject) (same : next.timers = b.timers) :
    Tracks pickle sha256 pairs next registered := ⟨same ▸ tracks.stored,tracks.known,tracks.apart⟩

theorem Tracks.serves (calls : List TimerCall) (tracks : Tracks pickle sha256 pairs b registered)
    (listed : ∀ call ∈ calls, ∀ pair ∈ call.pairs, pair ∈ pairs) (small : ∀ call ∈ calls, call.Small)
    (roomy : ∀ call ∈ calls, call.Roomy) : b.ServesAll (objectCodec pickle sha256 blake2b) registered calls := by
  induction calls generalizing b registered with
  | nil => trivial
  | cons call calls ih =>
    have next (registered' : List Timer) (still : Tracks pickle sha256 pairs (b.call (objectCodec pickle sha256 blake2b) call).2 registered') :=
      ih _ registered' still (fun call inside => listed call (mem_cons_of_mem _ inside))
        (fun call inside => small call (mem_cons_of_mem _ inside)) (fun call inside => roomy call (mem_cons_of_mem _ inside))
    have fits := small call mem_cons_self
    cases call with
    | pop timestamp domain limit =>
      obtain ⟨rest,serves,still⟩ := tracks.pop pickle lawful sha256 blake2b pairs regular b registered timestamp domain limit
        (roomy _ mem_cons_self)
      exact ⟨rest,serves,next rest still⟩
    | register key timestamp space domain =>
      by_cases negative : timestamp < 0
      · obtain ⟨⟨raised,failed⟩,same,-,-⟩ := refused pickle sha256 blake2b b key space timestamp domain negative
        refine ⟨registered,?_,next registered (tracks.timers pickle sha256 pairs b registered _ same)⟩
        rw [failed]
        exact .refusedRegister key timestamp space domain raised negative
      · obtain ⟨stamp,rfl⟩ := Int.eq_ofNat_of_zero_le (show 0 ≤ timestamp by omega)
        have below : stamp < 256 ^ 8 := by
          unfold TimerCall.Small at fits
          omega
        have known : Known pairs ⟨stamp,key,space,domain⟩ := ⟨listed _ mem_cons_self _ mem_cons_self,below⟩
        obtain ⟨done,still⟩ := tracks.register pickle lawful sha256 blake2b pairs regular b registered ⟨stamp,key,space,domain⟩ known
        refine ⟨_,?_,next _ still⟩
        rw [done]
        exact .register ⟨stamp,key,space,domain⟩
    | delete key timestamp space domain =>
      by_cases negative : timestamp < 0
      · obtain ⟨-,-,⟨raised,failed⟩,same⟩ := refused pickle sha256 blake2b b key space timestamp domain negative
        refine ⟨registered,?_,next registered (tracks.timers pickle sha256 pairs b registered _ same)⟩
        rw [failed]
        exact .refusedDelete key timestamp space domain raised negative
      · obtain ⟨stamp,rfl⟩ := Int.eq_ofNat_of_zero_le (show 0 ≤ timestamp by omega)
        have below : stamp < 256 ^ 8 := by
          unfold TimerCall.Small at fits
          omega
        have known : Known pairs ⟨stamp,key,space,domain⟩ := ⟨listed _ mem_cons_self _ mem_cons_self,below⟩
        obtain ⟨done,still⟩ := tracks.delete pickle lawful sha256 blake2b pairs regular b registered ⟨stamp,key,space,domain⟩ known
        refine ⟨_,?_,next _ still⟩
        rw [done]
        exact .delete ⟨stamp,key,space,domain⟩

end runs

/-- In every run in which limits leave room and equal keys share their texts alike, timers
fire in order, once each, up to equality. -/
theorem timers_fire_once (pickle : KeyPickle) (lawful : pickle.Lawful) (sha256 : Bytes → Bytes) (blake2b : Bytes → Nat)
    (calls : List TimerCall) (regular : Regular pickle sha256 (calls.flatMap TimerCall.pairs))
    (small : ∀ call ∈ calls, call.Small) (roomy : ∀ call ∈ calls, call.Roomy) :
    MemoryStateBackend.init.ServesAll (objectCodec pickle sha256 blake2b) [] calls :=
  (Tracks.init pickle sha256 _).serves pickle lawful sha256 blake2b _ regular _ _ calls
    (fun call inside _ listed => mem_flatMap.mpr ⟨call,inside,listed⟩) small roomy

section sharing

structure Single (key : PyObject) : Prop where
  own : ∀ leaf ∈ key.leaves, ∀ other ∈ key.leaves, leaf.content = other.content → leaf = other
  unnamed : key.Unnamed

def holderOf (leaves : List Leaf) (leaf : Leaf) : Option Nat :=
  ((leaves.find? (fun other => other.content = leaf.content)).getD leaf).label

theorem holderOf_eq (key : PyObject) (single : Single key) (leaf own : Leaf) (inside : own ∈ key.leaves)
    (same : leaf.content = own.content) : (⟨leaf.content,holderOf key.leaves leaf⟩ : Leaf) = own := by
  unfold holderOf
  cases found : key.leaves.find? (fun other => other.content = leaf.content) with
  | none =>
    have absent := find?_eq_none.mp found own inside
    simp [same] at absent
  | some other =>
    have holds := find?_some found
    rw [decide_eq_true_eq] at holds
    rw [single.own own inside other (mem_of_find?_eq_some found) (same.symm.trans holds.symm)]
    exact Leaf.ext holds.symm rfl

theorem matches_of_equal (whole : PyObject) (single : Single whole) (key other : PyObject) (valid : key.Valid) (same : key.equal other)
    (part : ∀ leaf ∈ other.leaves, leaf ∈ whole.leaves) : Matches (holderOf whole.leaves) key other := by
  induction valid generalizing other with
  | atom value =>
    cases other with
    | node _ _ => cases same
    | atom other =>
      have meanings := of_decide_eq_true same
      refine ⟨meanings,?_⟩
      cases value with
      | leaf value =>
        cases other with
        | leaf other =>
          have contents := Meaning.content.inj meanings
          exact congrArg (fun leaf => [leaf]) (holderOf_eq whole single value other (part other mem_cons_self) contents).symm
        | _ => cases meanings
      | _ =>
        refine (PyAtom.leaves_eq_nil other).mpr (fun content text => ?_)
        rw [← meanings] at text
        cases text
  | node kind items each formed ih =>
    cases other with
    | atom _ => cases same
    | node kind' others =>
      have inner (partner : PyObject) (among : partner ∈ others) (leaf : Leaf) (found : leaf ∈ partner.leaves) : leaf ∈ whole.leaves := by
        apply part
        rw [leaves_node]
        exact mem_flatMap.mpr ⟨partner,among,found⟩
      refine (corresponds_node _ _ _ _ _ _ _).mpr ⟨comparable_of_equal _ _ _ _ same,?_⟩
      cases ordered : kind.ordered with
      | true =>
        have beside := ((equal_ordered _ _ _ _ ordered).mp same).2
        exact ⟨others,List.Perm.refl _,fun _ => rfl,beside_imp _ _ items others (fun item inside partner among fits =>
          ih item inside partner fits (inner partner among)) beside⟩
      | false =>
        obtain ⟨arranged,reordered,beside⟩ := arranged_of_equal kind kind' items others ordered formed
          (fun item inside other => equal_symm item other (each item inside)) same
        exact ⟨arranged,reordered,nofun,beside_imp _ _ items arranged (fun item inside partner among fits =>
          ih item inside partner fits (inner partner (reordered.mem_iff.mp among))) beside⟩

theorem sharesAlike_of_single (key other : PyObject) (valid : key.Valid) (single : Single key) (single' : Single other)
    (same : key.equal other) : SharesAlike key other := by
  have matched := matches_of_equal other single' key other valid same (fun _ => id)
  refine ⟨holderOf other.leaves,matched,fun leaf found partner known content _ => single.own leaf found partner known content,
    single.unnamed,fun leaf found named => ?_⟩
  have held := (leaves_matches _ key other matched _).mpr ⟨leaf,found,rfl⟩
  exact single'.unnamed _ held ((names_matches _ key other matched _).mpr named)

end sharing

section examples

def oneInt : PyObject := .atom (.int 1)
def oneFloat : PyObject := .atom (.float (.finite 1 (by decide) (by decide +kernel)))
def noSpace : PyObject := .atom .none

def oneTwice : List TimerCall :=
  [.register oneInt 5 noSpace .eventTime,.register oneFloat 5 noSpace .eventTime,.register oneInt 7 noSpace .eventTime,
    .pop 6 .eventTime (some 2),.delete oneFloat 7 noSpace .eventTime,.pop 9 .eventTime none]

theorem oneTwice_regular : Regular treePickle id (oneTwice.flatMap TimerCall.pairs) := by
  have kinds (pair : PyObject) (inside : pair ∈ oneTwice.flatMap TimerCall.pairs) : pair.Valid ∧ Single pair := by
    have listed : pair = PyObject.pair oneInt noSpace ∨ pair = PyObject.pair oneFloat noSpace := by
      simp only [oneTwice,flatMap_cons,flatMap_nil,TimerCall.pairs,mem_append,mem_cons,not_mem_nil,or_false,false_or] at inside
      rcases inside with same | same | same | same
      · exact .inl same
      · exact .inr same
      · exact .inl same
      · exact .inr same
    have parts (value : PyAtom) : (PyObject.pair (.atom value) noSpace).Valid := by
      refine .node .tuple _ (fun item inside => ?_) trivial
      simp only [mem_cons,not_mem_nil,or_false] at inside
      rcases inside with rfl | rfl
      · exact .atom _
      · exact .atom _
    rcases listed with rfl | rfl
    · exact ⟨parts _,nofun,nofun⟩
    · exact ⟨parts _,nofun,nofun⟩
  refine ⟨fun pair inside => (kinds pair inside).1,fun pair inside other among same => ?_,fun _ _ _ _ same => same⟩
  exact sharesAlike_of_single pair other (kinds pair inside).1 (kinds pair inside).2 (kinds other among).2 same

/-- A timer that is registered for equal keys fires once. -/
theorem one_fires_once : MemoryStateBackend.init.ServesAll (objectCodec treePickle id Bytes.toNat) [] oneTwice := by
  refine timers_fire_once treePickle treePickle_lawful id Bytes.toNat oneTwice oneTwice_regular ?_ ?_
  · simp [oneTwice,TimerCall.Small]
  · simp [oneTwice,TimerCall.Roomy]

theorem popDueTimers_single (codec : KeyCodec PyObject) (b : MemoryStateBackend PyObject) (timestamp : Int) (limit : Option Int)
    (encodedKey encodedValue : Bytes) (event : Timer) (read : Bytes) (timers : b.timers.entries = [(encodedKey,encodedValue)])
    (ahead : (timerPrefix event.domain).isPrefixOf encodedKey = true)
    (decoded : decodeTimer codec encodedKey encodedValue = .ok (event.timestamp,event.key,event.space))
    (encoded : encodeTimerKey codec event.timestamp event.key event.space event.domain = .ok read) (due : (event.timestamp : Int) ≤ timestamp) :
    b.popDueTimers codec timestamp event.domain limit = (.ok [event],{b with timers := b.timers.erase read}) := by
  have items : b.timers.sorted.entries.filter (fun item => (timerPrefix event.domain).isPrefixOf item.1) = [(encodedKey,encodedValue)] := by
    unfold Dict.sorted
    dsimp only
    rw [timers]
    simp [ahead]
  have scanned : dueTimers codec timestamp event.domain limit 0 [(encodedKey,encodedValue)] = .ok [event] := by
    unfold dueTimers
    rw [ok_bind decoded]
    dsimp only
    rw [if_neg (by omega)]
    split
    · rfl
    · rfl
  unfold MemoryStateBackend.popDueTimers
  rw [items,scanned]
  dsimp only
  unfold timerKeys
  rw [encoded]
  rfl

theorem Serves.length_le (registered registered' : List Timer) (call : TimerCall) (reply : Except String (List Timer))
    (serves : Serves registered call reply registered') : registered'.length ≤ registered.length + 1 := by
  cases serves with
  | refusedRegister => omega
  | refusedDelete => omega
  | register timer =>
    have kept := length_filter_le (fun other => !timer.same other) registered
    rw [length_append,length_singleton]
    omega
  | delete timer =>
    have kept := length_filter_le (fun other => !timer.same other) registered
    omega
  | pop _ _ _ taken _ _ parts _ _ _ _ _ _ =>
    have whole := parts.length_eq
    rw [length_append] at whole
    omega

theorem Serves.pop_length (registered rest events : List Timer) (timestamp : Int) (domain : TimerDomain) (limit : Option Int)
    (serves : Serves registered (.pop timestamp domain limit) (.ok events) rest) :
    events.length + rest.length = registered.length ∧ ∀ bound, limit = some bound → (events.length : Int) ≤ bound := by
  cases serves with
  | pop _ _ _ taken _ _ parts returned _ _ _ limited _ =>
    have whole := parts.length_eq
    rw [length_append,returned.length_eq] at whole
    exact ⟨whole,fun bound same => returned.length_eq ▸ limited bound same⟩

def alone (pickle : KeyPickle) (timer : Timer) : MemoryStateBackend PyObject where
  currentKey := some timer.key
  state := ∅
  expiry := ∅
  timers := (∅ : Dict Bytes Bytes).set (timerKey pickle id timer) (timerValue pickle timer)

section single
variable (pickle : KeyPickle) (lawful : pickle.Lawful) (timer : Timer) (small : timer.timestamp < 256 ^ 8)
  (valid : timer.pair.Valid)
include lawful small valid

theorem popped_alone : ∃ (next : MemoryStateBackend PyObject) (event : Timer),
    MemoryStateBackend.init.call (objectCodec pickle id Bytes.toNat) (.register timer.key timer.timestamp timer.space timer.domain) =
      (.ok [],alone pickle timer) ∧
    (∀ limit, (alone pickle timer).call (objectCodec pickle id Bytes.toNat) (.pop timer.timestamp timer.domain limit) = (.ok [event],next)) ∧
    (¬ timer.pair.Unnamed → next = alone pickle timer) := by
  obtain ⟨change,key,space,fresh,matched,decoded⟩ := timer_decoded pickle lawful id Bytes.toNat timer small valid
  have encoded := encodeTimerKey_eq pickle id Bytes.toNat ⟨timer.timestamp,key,space,timer.domain⟩ small
  have entry := timerEntry_eq MemoryStateBackend.init pickle id Bytes.toNat timer small
  refine ⟨{alone pickle timer with
    timers := (alone pickle timer).timers.erase (timerKey pickle id ⟨timer.timestamp,key,space,timer.domain⟩)},
    ⟨timer.timestamp,key,space,timer.domain⟩,?_,?_,?_⟩
  · rw [call_register,registerTimer_entry _ _ _ _ _ _ _ (by omega) entry]
    rfl
  · intro limit
    exact popDueTimers_single (objectCodec pickle id Bytes.toNat) _ timer.timestamp limit _ _ ⟨timer.timestamp,key,space,timer.domain⟩ _ rfl
      ((timerPrefix_timerKey pickle id timer.domain timer).mpr rfl) decoded encoded le_rfl
  · intro named
    have differs := encodeKey_differs pickle lawful timer.pair valid change _ matched
      (fun leaf found known => fresh.unnamed leaf found (names_reserved _ _ known)) named .highest
    have absent : timerKey pickle id ⟨timer.timestamp,key,space,timer.domain⟩ ≠ timerKey pickle id timer :=
      fun same => differs (append_cancel_left same)
    have kept : ((∅ : Dict Bytes Bytes).set (timerKey pickle id timer) (timerValue pickle timer)).erase
        (timerKey pickle id ⟨timer.timestamp,key,space,timer.domain⟩) =
          (∅ : Dict Bytes Bytes).set (timerKey pickle id timer) (timerValue pickle timer) :=
      Dict.filter_eq_self _ _ (fun item inside => by
        rw [mem_singleton.mp (show item ∈ [(timerKey pickle id timer,timerValue pickle timer)] from inside)]
        exact decide_eq_true absent.symm)
    unfold alone
    rw [kept]

end single

/-- A limit of zero takes a timer all the same, and a key with the name of a class fires
again and again. -/
theorem timers_fire_wrongly :
    ¬ MemoryStateBackend.init.ServesAll (objectCodec treePickle id Bytes.toNat) []
      [.register oneInt 5 noSpace .eventTime,.pop 5 .eventTime (some 0)] ∧
    ¬ MemoryStateBackend.init.ServesAll (objectCodec treePickle id Bytes.toNat) []
      [.register (third "fractions" none) 5 noSpace .eventTime,.pop 5 .eventTime none,.pop 5 .eventTime none] := by
  have valid (key : PyObject) (key' : key.Valid) : (PyObject.pair key noSpace).Valid := by
    refine .node .tuple _ (fun item inside => ?_) trivial
    simp only [mem_cons,not_mem_nil,or_false] at inside
    rcases inside with rfl | rfl
    · exact key'
    · exact .atom _
  constructor
  · intro serves
    obtain ⟨next,event,done,popped,-⟩ := popped_alone treePickle treePickle_lawful ⟨5,oneInt,noSpace,.eventTime⟩ (by decide)
      (valid oneInt (.atom _))
    obtain ⟨registered,-,rest,second,-⟩ := serves
    have shown := popped (some 0)
    dsimp only at done shown
    rw [Nat.cast_ofNat] at done shown
    rw [done,shown] at second
    have short := (Serves.pop_length _ _ _ _ _ _ second).2 0 rfl
    simp at short
  · intro serves
    obtain ⟨next,event,done,popped,stays⟩ := popped_alone treePickle treePickle_lawful
      ⟨5,third "fractions" none,noSpace,.eventTime⟩ (by decide) (valid _ (third_valid _ _))
    have same := stays (by decide +kernel)
    subst same
    obtain ⟨registered,first,rest,second,rest',last,-⟩ := serves
    have shown := popped none
    dsimp only at done shown
    rw [Nat.cast_ofNat] at done shown
    rw [done] at first second last
    rw [shown] at second last
    rw [shown] at last
    have one := first.length_le
    have two := (Serves.pop_length _ _ _ _ _ _ second).1
    have three := (Serves.pop_length _ _ _ _ _ _ last).1
    simp at one two three
    omega

end examples
end Klein.State
