import Klein.Runs
import Klein.State.KeyGroupSnapshots

/-! The two backends answer alike. Both index the expiry of a value under its state
key; a read that hides an expired value takes it out of the memory backend but
leaves its index entry, and a limited cleanup counts such leftovers. -/
namespace Klein.State
open Dict Fallible List Option

section index

theorem expiryKey_injective (first second : Bytes) (expiresAt expiresAt' : Option Int) (entry : Bytes)
    (one : expiryKey first expiresAt = .ok (some entry)) (other : expiryKey second expiresAt' = .ok (some entry)) :
    first = second ∧ expiresAt = expiresAt' := by
  cases expiresAt with
  | none => cases one
  | some expiresAt =>
    cases expiresAt' with
    | none => cases other
    | some expiresAt' =>
      obtain ⟨encoded,one,same⟩ := map_ok one
      obtain ⟨encoded',other,same'⟩ := map_ok other
      obtain rfl : encoded = encoded' := some.inj (same.trans same'.symm)
      obtain ⟨stamp,stamped,read⟩ := decodeExpiryKey_encode _ _ _ one
      obtain ⟨stamp',stamped',read'⟩ := decodeExpiryKey_encode _ _ _ other
      obtain ⟨rfl,rfl⟩ := Prod.mk.inj (Except.ok.inj (read.symm.trans read'))
      exact ⟨rfl,congrArg some (stamped.symm.trans stamped')⟩

theorem indexKey_some (stateKey : Bytes) (stored : Option Bytes) (entry : Bytes)
    (indexed : indexKey stateKey stored = .ok (some entry)) :
    ∃ encoded expiresAt payload, stored = some encoded ∧ decodeStateValue encoded = .ok (expiresAt,payload) ∧
      expiryKey stateKey expiresAt = .ok (some entry) := by
  cases stored with
  | none => cases indexed
  | some encoded =>
    obtain ⟨⟨expiresAt,payload⟩,decoded,indexed⟩ := bind_ok indexed
    exact ⟨encoded,expiresAt,payload,rfl,decoded,indexed⟩

def Live (state : Dict Bytes Bytes) (entry : Bytes) : Prop :=
  ∃ stateKey, indexKey stateKey (state.get? stateKey) = .ok (some entry)

variable (state : Dict Bytes Bytes) (stateKey entry : Bytes)

theorem indexKey_injective (other : Bytes) (stored stored' : Option Bytes)
    (one : indexKey stateKey stored = .ok (some entry)) (two : indexKey other stored' = .ok (some entry)) :
    stateKey = other := by
  obtain ⟨_,_,_,-,-,first⟩ := indexKey_some _ _ _ one
  obtain ⟨_,_,_,-,-,second⟩ := indexKey_some _ _ _ two
  exact (expiryKey_injective _ _ _ _ _ first second).1

theorem live_change (next : Dict Bytes Bytes) (kept : ∀ other, other ≠ stateKey → next.get? other = state.get? other) :
    Live next entry ↔ indexKey stateKey (next.get? stateKey) = .ok (some entry) ∨
      Live state entry ∧ indexKey stateKey (state.get? stateKey) ≠ .ok (some entry) := by
  constructor
  · rintro ⟨other,indexed⟩
    by_cases same : other = stateKey
    · exact .inl (same ▸ indexed)
    · have before := kept other same ▸ indexed
      exact .inr ⟨⟨other,before⟩,fun own => same (indexKey_injective _ _ _ _ _ before own)⟩
  · rintro (own | ⟨⟨other,indexed⟩,different⟩)
    · exact ⟨stateKey,own⟩
    · by_cases same : other = stateKey
      · exact absurd (same ▸ indexed) different
      · exact ⟨other,(kept other same).symm ▸ indexed⟩

theorem live_erase : Live (state.erase stateKey) entry ↔
    Live state entry ∧ indexKey stateKey (state.get? stateKey) ≠ .ok (some entry) := by
  have gone : (state.erase stateKey).get? stateKey = none := by simp
  rw [live_change state stateKey entry _ (fun other different => by simp [different]),gone]
  exact or_iff_right (fun impossible => by cases impossible)

end index

section agreement
variable {Key Value : Type} (codec : KeyCodec Key)

/-- A state entry that `put` can have written. -/
structure Stored (stateKey encoded : Bytes) : Prop where
  readable : ∃ name key space, decodeStateKey codec stateKey = .ok (name,key,space)
  indexable : ∃ entry, indexKey stateKey (some encoded) = .ok entry

def Indexes (entry : Bytes) : Prop :=
  ∃ stateKey expiresAt, expiryKey stateKey expiresAt = .ok (some entry) ∧
    ∃ name key space, decodeStateKey codec stateKey = .ok (name,key,space)

/-- A timer entry that `register_timer` can have written. -/
def Registered (encodedKey encodedValue : Bytes) : Prop :=
  ∃ (timestamp : Int) (key space : Key) (domain : TimerDomain),
    encodeTimerKey codec timestamp key space domain = .ok encodedKey ∧ encodeTimerValue codec key space = .ok encodedValue

/-- The key and namespace that are read back from a timer have its encoding. -/
def Reencodes (encodedKey encodedValue : Bytes) : Prop :=
  ∃ (timestamp : Nat) (key space : Key) (domain : TimerDomain),
    decodeTimer codec encodedKey encodedValue = .ok (timestamp,key,space) ∧
      encodeTimerKey codec timestamp key space domain = .ok encodedKey

def Written : ColumnFamily → Bytes → Bytes → Prop
  | .state,stateKey,encoded => Stored codec stateKey encoded
  | .expiry,entry,value => value = [] ∧ Indexes codec entry
  | .timers,encodedKey,encodedValue => Registered codec encodedKey encodedValue

structure Agree (m : MemoryStateBackend Key) (r : RocksDBStateBackend Key) : Prop where
  currentKey : m.currentKey = r.currentKey
  state : m.state.sorted = r.state
  timers : m.timers.sorted = r.timers
  stored : ∀ stateKey encoded, m.state.get? stateKey = some encoded → Stored codec stateKey encoded
  registered : ∀ encodedKey encodedValue, m.timers.get? encodedKey = some encodedValue →
    Registered codec encodedKey encodedValue
  indexed : ∀ entry value, r.expiry.get? entry = some value ↔ value = [] ∧ Live m.state entry
  kept : ∀ entry, Live m.state entry → m.expiry.get? entry = some []
  leftover : ∀ entry value, m.expiry.get? entry = some value → value = [] ∧ Indexes codec entry

theorem Agree.init : Agree codec (MemoryStateBackend.init : MemoryStateBackend Key) RocksDBStateBackend.init := by
  have nothing (entry : Bytes) : ¬ Live ∅ entry := fun ⟨_,indexed⟩ => by cases indexed
  constructor
  case currentKey => rfl
  case state => rfl
  case timers => rfl
  case stored => exact fun _ _ impossible => by cases impossible
  case registered => exact fun _ _ impossible => by cases impossible
  case indexed =>
    intro entry value
    exact iff_of_false (by simp [RocksDBStateBackend.init]) (fun live => nothing entry live.2)
  case kept => exact fun entry live => absurd live (nothing entry)
  case leftover => exact fun _ _ impossible => by cases impossible

variable {codec} {m : MemoryStateBackend Key} {r : RocksDBStateBackend Key} (agree : Agree codec m r)

include agree

theorem Agree.lookup (stateKey : Bytes) : r.state.get? stateKey = m.state.get? stateKey := by
  rw [← agree.state,get?_sorted]

theorem Agree.previous (stateKey : Bytes) : ∃ previous, indexKey stateKey (m.state.get? stateKey) = .ok previous := by
  cases found : m.state.get? stateKey with
  | none => exact ⟨none,rfl⟩
  | some encoded => exact (agree.stored stateKey encoded found).indexable

theorem Agree.requireCurrentKey : m.requireCurrentKey = r.requireCurrentKey := by
  unfold MemoryStateBackend.requireCurrentKey RocksDBStateBackend.requireCurrentKey
  rw [agree.currentKey]

theorem Agree.stateKey_eq (descriptor : StateDescriptor Value) (space : Key) :
    r.stateKey codec descriptor space = m.stateKey codec descriptor space := by
  unfold RocksDBStateBackend.stateKey MemoryStateBackend.stateKey
  rw [agree.requireCurrentKey]

theorem Agree.change (stateKey : Bytes) (state expiry : Dict Bytes Bytes) (expiry' : OrderedMap Bytes Bytes)
    (previous fresh : Option Bytes) (was : indexKey stateKey (m.state.get? stateKey) = .ok previous)
    (is : indexKey stateKey (state.get? stateKey) = .ok fresh)
    (others : ∀ other, other ≠ stateKey → state.get? other = m.state.get? other)
    (readable : ∀ encoded, state.get? stateKey = some encoded →
      ∃ name key space, decodeStateKey codec stateKey = .ok (name,key,space))
    (dropped : ∀ entry, expiry'.get? entry =
      if fresh = some entry then some [] else if previous = some entry then none else r.expiry.get? entry)
    (may : ∀ entry, expiry.get? entry = (if fresh = some entry then some [] else m.expiry.get? entry) ∨
      fresh ≠ some entry ∧ previous = some entry ∧ expiry.get? entry = none) :
    Agree codec {m with state,expiry} {r with state := state.sorted,expiry := expiry'} := by
  have live (entry : Bytes) : Live state entry ↔ fresh = some entry ∨ Live m.state entry ∧ previous ≠ some entry := by
    rw [live_change m.state stateKey entry state others,was,is]
    simp
  constructor
  case currentKey => exact agree.currentKey
  case state => rfl
  case timers => exact agree.timers
  case stored =>
    intro other encoded found
    by_cases same : other = stateKey
    · subst same
      refine ⟨readable encoded found,fresh,?_⟩
      rw [← found]
      exact is
    · exact agree.stored other encoded ((others other same).symm.trans found)
  case registered => exact agree.registered
  case indexed =>
    intro entry value
    rw [live,dropped]
    by_cases new : fresh = some entry
    · simp [new,eq_comm]
    by_cases old : previous = some entry
    · simp [new,old]
    · simp [new,old,agree.indexed]
  case kept =>
    intro entry alive
    rcases may entry with same | ⟨new,old,-⟩
    · dsimp only
      rw [same]
      split
      · rfl
      next new => exact agree.kept entry (((live entry).mp alive).resolve_left new).1
    · exact absurd old ((((live entry).mp alive).resolve_left new).2)
  case leftover =>
    intro entry value found
    dsimp only at found
    rcases may entry with same | ⟨-,-,gone⟩
    · rw [same] at found
      split at found
      next new =>
        have empty := some.inj found
        subst new
        obtain ⟨encoded,expiresAt,payload,now,-,indexed⟩ := indexKey_some _ _ _ is
        exact ⟨empty.symm,stateKey,expiresAt,indexed,readable encoded now⟩
      next => exact agree.leftover entry value found
    · rw [gone] at found
      contradiction

omit agree

section write
variable {descriptor : StateDescriptor Value} {value : Value} {space : Key} {now : Int}

variable (codec m descriptor value space now) in
/-- A write stores its value at an expiry that is not negative, or it raises over a
value that is not indexed. -/
def Writes : Prop := ∀ stateKey, m.stateKey codec descriptor space = .ok stateKey →
  (∃ encoded, encodeValue descriptor value (expiryFor descriptor now) = .ok encoded ∧
    ∀ expiresAt, expiryFor descriptor now = some expiresAt → 0 ≤ expiresAt) ∨
  (∃ raised, encodeValue descriptor value (expiryFor descriptor now) = .error raised) ∧
    indexKey stateKey (m.state.get? stateKey) = .ok none

theorem encodeValue_indexed (stateKey encoded : Bytes) (expiresAt : Option Int)
    (valid : ∀ expiry, expiresAt = some expiry → 0 ≤ expiry) (ok : encodeValue descriptor value expiresAt = .ok encoded) :
    ∃ entry, expiryKey stateKey expiresAt = .ok entry ∧ indexKey stateKey (some encoded) = .ok entry := by
  obtain ⟨payload,-,ok⟩ := bind_ok ok
  have decoded := decodeStateValue_encode payload encoded expiresAt ok
  have set : ¬ expiresAt = some (-1) := fun unset => by
    have negative := valid _ unset
    omega
  rw [if_neg set] at decoded
  have same : indexKey stateKey (some encoded) = expiryKey stateKey expiresAt := ok_bind decoded
  rw [same]
  cases expiresAt with
  | none => exact ⟨none,rfl,rfl⟩
  | some expiry =>
    have positive := valid expiry rfl
    obtain ⟨packed,ok,-⟩ := map_ok ok
    have small : expiry < 2 ^ 63 := by
      unfold packSigned at ok
      split at ok
      next fits => exact fits.2
      next => contradiction
    have fits : packUnsigned 8 expiry = .ok (Bytes.ofNat 8 expiry.toNat) := if_pos ⟨positive,by omega⟩
    have entry : expiryKey stateKey (some expiry) = .ok (some (Bytes.ofNat 8 expiry.toNat ++ stateKey)) := by
      change ((packUnsigned 8 expiry).map (· ++ stateKey)).map some = _
      rw [fits]
      rfl
    exact ⟨_,entry,entry⟩

include agree

theorem Agree.put (readable : codec.Readable) (writes : Writes codec m descriptor value space now) :
    (m.put codec descriptor value space now).1 = (r.put codec descriptor value space now).1 ∧
      Agree codec (m.put codec descriptor value space now).2 (r.put codec descriptor value space now).2 := by
  unfold MemoryStateBackend.put RocksDBStateBackend.put
  rw [agree.stateKey_eq descriptor space]
  cases keyed : m.stateKey codec descriptor space with
  | error raised => exact ⟨rfl,agree⟩
  | ok stateKey =>
    obtain ⟨previous,was⟩ := agree.previous stateKey
    dsimp only
    rw [agree.lookup stateKey,was]
    rcases writes stateKey keyed with ⟨encoded,ok,valid⟩ | ⟨⟨raised,failed⟩,unindexed⟩
    · obtain ⟨entry,fresh,is⟩ := encodeValue_indexed stateKey encoded _ valid ok
      rw [ok]
      dsimp only
      rw [fresh]
      have decodes : ∃ name key space', decodeStateKey codec stateKey = .ok (name,key,space') := by
        obtain ⟨key,-,encodes⟩ := bind_ok keyed
        exact ⟨_,decodeStateKey_copy codec readable descriptor key space stateKey encodes⟩
      have own : indexKey stateKey ((m.state.set stateKey encoded).get? stateKey) = .ok entry := by simpa using is
      have others (other : Bytes) (different : other ≠ stateKey) :
          (m.state.set stateKey encoded).get? other = m.state.get? other := by simp [different]
      have change (expiry : Dict Bytes Bytes) (expiry' : OrderedMap Bytes Bytes)
          (same : ∀ lookup, expiry.get? lookup = if entry = some lookup then some [] else
            if previous = some lookup then none else m.expiry.get? lookup)
          (same' : ∀ lookup, expiry'.get? lookup = if entry = some lookup then some [] else
            if previous = some lookup then none else r.expiry.get? lookup) :
          Agree codec {m with state := m.state.set stateKey encoded,expiry}
            {r with state := r.state.set stateKey encoded,expiry := expiry'} := by
        rw [← agree.state,← sorted_set]
        refine agree.change stateKey _ expiry expiry' previous entry was own others (fun _ _ => decodes) same'
          (fun lookup => ?_)
        rw [same]
        by_cases new : entry = some lookup
        · simp [new]
        by_cases old : previous = some lookup
        · simp [new,old]
        · simp [new,old]
      cases previous <;> cases entry
      all_goals
        refine ⟨rfl,change _ _ (fun lookup => ?_) (fun lookup => ?_)⟩
        · simp [MemoryStateBackend.popExpiry,eq_comm]
        · simp [RocksDBStateBackend.deleteExpiry,OrderedMap.get?_set,OrderedMap.get?_erase,eq_comm]
    · obtain rfl : previous = none := Except.ok.inj (was.symm.trans unindexed)
      rw [failed]
      exact ⟨rfl,agree⟩

end write

section read
variable (descriptor : StateDescriptor Value) (space : Key)

include agree

theorem Agree.erase (stateKey : Bytes) (previous : Option Bytes)
    (was : indexKey stateKey (m.state.get? stateKey) = .ok previous) :
    Agree codec {m with state := m.state.erase stateKey}
      ({r with state := r.state.erase stateKey}.deleteExpiry previous) ∧
    Agree codec ({m with state := m.state.erase stateKey}.popExpiry previous)
      ({r with state := r.state.erase stateKey}.deleteExpiry previous) := by
  have gone : (m.state.erase stateKey).get? stateKey = none := by simp
  have others (other : Bytes) (different : other ≠ stateKey) :
      (m.state.erase stateKey).get? other = m.state.get? other := by simp [different]
  have change (expiry : Dict Bytes Bytes) (expiry' : OrderedMap Bytes Bytes)
      (same : ∀ lookup, expiry.get? lookup = m.expiry.get? lookup ∨ previous = some lookup ∧ expiry.get? lookup = none)
      (same' : ∀ lookup, expiry'.get? lookup = if previous = some lookup then none else r.expiry.get? lookup) :
      Agree codec {m with state := m.state.erase stateKey,expiry}
        {r with state := r.state.erase stateKey,expiry := expiry'} := by
    rw [← agree.state,← sorted_erase]
    refine agree.change stateKey _ expiry expiry' previous none was (by rw [gone]; rfl) others
      (fun encoded impossible => ?_) same' (fun lookup => ?_)
    · rw [gone] at impossible
      contradiction
    · rcases same lookup with same | ⟨old,gone⟩
      · exact .inl same
      · exact .inr ⟨by simp,old,gone⟩
  cases previous with
  | none => exact ⟨change _ _ (fun _ => .inl rfl) (fun _ => rfl),change _ _ (fun _ => .inl rfl) (fun _ => rfl)⟩
  | some entry =>
    have dropped (lookup : Bytes) : (r.expiry.erase entry).get? lookup =
        if some entry = some lookup then none else r.expiry.get? lookup := by
      simp [OrderedMap.get?_erase,eq_comm]
    refine ⟨change _ _ (fun _ => .inl rfl) dropped,change _ _ (fun lookup => ?_) dropped⟩
    by_cases own : lookup = entry
    · exact .inr ⟨congrArg some own.symm,by simp [own]⟩
    · exact .inl (by simp [own])

theorem Agree.delete : (m.delete codec descriptor space).1 = (r.delete codec descriptor space).1 ∧
    Agree codec (m.delete codec descriptor space).2 (r.delete codec descriptor space).2 := by
  unfold MemoryStateBackend.delete RocksDBStateBackend.delete RocksDBStateBackend.deleteStateKey
  rw [agree.stateKey_eq descriptor space]
  cases keyed : m.stateKey codec descriptor space with
  | error raised => exact ⟨rfl,agree⟩
  | ok stateKey =>
    obtain ⟨previous,was⟩ := agree.previous stateKey
    dsimp only
    rw [agree.lookup stateKey,was]
    exact ⟨rfl,(agree.erase stateKey previous was).2⟩

variable (codec m) in
/-- A read that refreshes a value writes it, as `Writes` says. -/
def Reads (now later : Int) : Prop := ∀ stateKey encoded expiresAt payload value,
  m.stateKey codec descriptor space = .ok stateKey → m.state.get? stateKey = some encoded →
  decodeStateValue encoded = .ok (expiresAt,payload) → hides descriptor expiresAt now = false →
  descriptor.loads payload = .ok value → refreshes descriptor = true → Writes codec m descriptor value space later

theorem Agree.get (readable : codec.Readable) (now later : Int) (reads : Reads codec m descriptor space now later) :
    (m.get codec descriptor space now later).1 = (r.get codec descriptor space now later).1 ∧
      Agree codec (m.get codec descriptor space now later).2 (r.get codec descriptor space now later).2 := by
  unfold MemoryStateBackend.get RocksDBStateBackend.get RocksDBStateBackend.deleteStateKey
  rw [agree.stateKey_eq descriptor space]
  cases keyed : m.stateKey codec descriptor space with
  | error raised => exact ⟨rfl,agree⟩
  | ok stateKey =>
    obtain ⟨previous,was⟩ := agree.previous stateKey
    dsimp only
    rw [agree.lookup stateKey,was]
    cases found : m.state.get? stateKey with
    | none => exact ⟨rfl,agree⟩
    | some encoded =>
      dsimp only
      cases decoded : decodeStateValue encoded with
      | error raised => exact ⟨rfl,agree⟩
      | ok value =>
        obtain ⟨expiresAt,payload⟩ := value
        dsimp only
        cases hidden : hides descriptor expiresAt now with
        | true => exact ⟨rfl,(agree.erase stateKey previous was).1⟩
        | false =>
          rw [if_neg Bool.false_ne_true,if_neg Bool.false_ne_true]
          cases loaded : descriptor.loads payload with
          | error raised => exact ⟨rfl,agree⟩
          | ok value =>
            cases refresh : refreshes descriptor with
            | false => exact ⟨rfl,agree⟩
            | true =>
              obtain ⟨same,next⟩ := agree.put readable
                (reads stateKey encoded expiresAt payload value keyed found decoded hidden loaded refresh)
              exact ⟨congrArg (Except.map (fun _ => some value)) same,next⟩

end read

section scan

theorem scan_between (map : OrderedMap Bytes Bytes) (start : Bytes) :
    (map.itemsFrom start).takeWhile (fun item => start.isPrefixOf item.1) =
      map.entries.filter (fun item => start.isPrefixOf item.1) := by
  refine map.itemsFrom_takeWhile start (fun key => start.isPrefixOf key) (fun key found => ?_)
    (fun middle last after before found => ?_)
  · obtain ⟨tail,rfl⟩ := isPrefixOf_iff_prefix.mp found
    exact Bytes.le_append start tail
  · exact isPrefixOf_iff_prefix.mpr
      (Bytes.prefix_of_between start middle last after before ( isPrefixOf_iff_prefix.mp found))

include agree

theorem Agree.namespaces (descriptor : StateDescriptor Value) :
    m.namespaces codec descriptor = r.namespaces codec descriptor := by
  unfold MemoryStateBackend.namespaces RocksDBStateBackend.namespaces
  rw [agree.requireCurrentKey]
  refine congrArg _ (funext fun key => congrArg _ (funext fun start => ?_))
  rw [takeWhile_map,Function.comp_def,scan_between,← agree.state]
  unfold OrderedMap.keys
  rw [List.filter_map]
  rfl

theorem Agree.withTimers (timers : Dict Bytes Bytes)
    (registered : ∀ encodedKey encodedValue, timers.get? encodedKey = some encodedValue →
      Registered codec encodedKey encodedValue) : Agree codec {m with timers} {r with timers := timers.sorted} :=
  {agree with timers := rfl,registered}

theorem Agree.erased (keys : List Bytes) : (keys.foldl Dict.erase m.timers).sorted = keys.foldl OrderedMap.erase r.timers ∧
    ∀ encodedKey encodedValue, (keys.foldl Dict.erase m.timers).get? encodedKey = some encodedValue →
      Registered codec encodedKey encodedValue := by
  rw [← agree.timers]
  have registered := agree.registered
  generalize m.timers = timers at registered
  induction keys generalizing timers with
  | nil => exact ⟨rfl,registered⟩
  | cons key rest ih =>
    rw [foldl_cons,foldl_cons,← sorted_erase]
    refine ih (timers.erase key) (fun encodedKey encodedValue found => registered encodedKey encodedValue ?_)
    rw [Dict.get?_erase] at found
    exact (ite_none_left_eq_some.mp found).2

theorem Agree.registerTimer (timestamp : Int) (space : Key) (domain : TimerDomain) :
    (m.registerTimer codec timestamp space domain).1 = (r.registerTimer codec timestamp space domain).1 ∧
      Agree codec (m.registerTimer codec timestamp space domain).2 (r.registerTimer codec timestamp space domain).2 := by
  unfold MemoryStateBackend.registerTimer RocksDBStateBackend.registerTimer
  rw [agree.requireCurrentKey]
  split
  · exact ⟨rfl,agree⟩
  cases encoded : timerEntry codec r.requireCurrentKey timestamp space domain with
  | error raised => exact ⟨rfl,agree⟩
  | ok entry =>
    obtain ⟨encodedKey,encodedValue⟩ := entry
    dsimp only
    obtain ⟨key,-,encoded⟩ := bind_ok encoded
    obtain ⟨value,valued,encoded⟩ := bind_ok encoded
    obtain ⟨key',keyed,encoded⟩ := bind_ok encoded
    obtain ⟨rfl,rfl⟩ := Prod.mk.inj (Except.ok.inj encoded)
    rw [← agree.timers,← sorted_set]
    refine ⟨rfl,agree.withTimers _ (fun other value' found => ?_)⟩
    rw [Dict.get?_set] at found
    split at found
    next same =>
      obtain rfl := some.inj found
      exact ⟨timestamp,key,space,domain,same ▸ keyed,valued⟩
    next => exact agree.registered other value' found

theorem Agree.deleteTimer (timestamp : Int) (space : Key) (domain : TimerDomain) :
    (m.deleteTimer codec timestamp space domain).1 = (r.deleteTimer codec timestamp space domain).1 ∧
      Agree codec (m.deleteTimer codec timestamp space domain).2 (r.deleteTimer codec timestamp space domain).2 := by
  unfold MemoryStateBackend.deleteTimer RocksDBStateBackend.deleteTimer
  rw [agree.requireCurrentKey]
  cases r.requireCurrentKey >>= fun key => encodeTimerKey codec timestamp key space domain with
  | error raised => exact ⟨rfl,agree⟩
  | ok encodedKey =>
    obtain ⟨same,registered⟩ := agree.erased [encodedKey]
    refine ⟨rfl,?_⟩
    dsimp only
    rw [show r.timers.erase encodedKey = (m.timers.erase encodedKey).sorted from same.symm]
    exact agree.withTimers _ registered

theorem Agree.popDueTimers (timestamp : Int) (domain : TimerDomain) (limit : Option Int) :
    (m.popDueTimers codec timestamp domain limit).1 = (r.popDueTimers codec timestamp domain limit).1 ∧
      Agree codec (m.popDueTimers codec timestamp domain limit).2 (r.popDueTimers codec timestamp domain limit).2 := by
  unfold MemoryStateBackend.popDueTimers RocksDBStateBackend.popDueTimers
  rw [scan_between,agree.timers]
  cases dueTimers codec timestamp domain limit 0
      (r.timers.entries.filter (fun item => (timerPrefix domain).isPrefixOf item.1)) with
  | error raised => exact ⟨rfl,agree⟩
  | ok events =>
    obtain ⟨same,registered⟩ := agree.erased (timerKeys codec events).1
    refine ⟨rfl,?_⟩
    dsimp only
    rw [← same]
    exact agree.withTimers _ registered

end scan

section cleanup

def expiryOf (entry : Bytes) : Nat := Bytes.toNat (entry.take 8)
def stateKeyOf (entry : Bytes) : Bytes := entry.drop 8

theorem Indexes.read (entry : Bytes) (indexes : Indexes codec entry) :
    decodeExpiryKey entry = .ok (expiryOf entry,stateKeyOf entry) ∧
      expiryKey (stateKeyOf entry) (some (expiryOf entry)) = .ok (some entry) ∧
      entry = Bytes.ofNat 8 (expiryOf entry) ++ stateKeyOf entry ∧ expiryOf entry < 256 ^ 8 := by
  obtain ⟨stateKey,expiresAt,indexed,-⟩ := indexes
  cases expiresAt with
  | none => cases indexed
  | some expiresAt =>
    obtain ⟨encoded,ok,same⟩ := map_ok indexed
    obtain rfl := some.inj same
    obtain ⟨packed,fits,rfl⟩ := map_ok ok
    obtain ⟨positive,small,length,number⟩ := packUnsigned_ok 8 _ packed fits
    have taken : (packed ++ stateKey).take 8 = packed := by
      rw [← length]
      exact take_left
    have dropped : (packed ++ stateKey).drop 8 = stateKey := by
      rw [← length]
      exact drop_left
    have exact' : Bytes.ofNat 8 (Bytes.toNat packed) = packed := by
      rw [packUnsigned,if_pos ⟨positive,small⟩] at fits
      rw [show Bytes.toNat packed = expiresAt.toNat by omega]
      exact Except.ok.inj fits
    unfold expiryOf stateKeyOf decodeExpiryKey
    rw [taken,dropped,if_neg (by simp [length]),number,exact']
    exact ⟨rfl,indexed,rfl,by omega⟩

def isLive (state : Dict Bytes Bytes) (entry : Bytes) : Bool :=
  indexKey (stateKeyOf entry) (state.get? (stateKeyOf entry)) = .ok (some entry)

theorem isLive_iff (state : Dict Bytes Bytes) (entry : Bytes) (indexes : Indexes codec entry) :
    isLive state entry = true ↔ Live state entry := by
  obtain ⟨-,own,-,-⟩ := indexes.read entry
  unfold isLive
  rw [decide_eq_true_iff]
  constructor
  · exact fun indexed => ⟨_,indexed⟩
  · rintro ⟨stateKey,indexed⟩
    obtain ⟨_,_,_,-,-,other⟩ := indexKey_some _ _ _ indexed
    obtain ⟨rfl,-⟩ := expiryKey_injective _ _ _ _ _ own other
    exact indexed

def sweepOne (progress : MemoryStateBackend Key × Nat) (entry : Bytes) : MemoryStateBackend Key × Nat :=
  if isLive progress.1.state entry then
    ({progress.1 with
      state := progress.1.state.erase (stateKeyOf entry)
      expiry := progress.1.expiry.erase entry},progress.2 + 1)
  else ({progress.1 with expiry := progress.1.expiry.erase entry},progress.2)

def swept (now : Int) (limit : Option Int) : Nat → List Bytes → List Bytes
  | _,[] => []
  | processed,entry::rest =>
    if now < expiryOf entry ∨ limitReached limit processed then [] else entry::swept now limit (processed + 1) rest

theorem isCurrent_eq (entry : Bytes) (indexes : Indexes codec entry) (state : Dict Bytes Bytes)
    (indexable : ∃ previous, indexKey (stateKeyOf entry) (state.get? (stateKeyOf entry)) = .ok previous) :
    isCurrent (expiryOf entry) (state.get? (stateKeyOf entry)) = .ok (isLive state entry) := by
  obtain ⟨-,own,-,-⟩ := indexes.read entry
  obtain ⟨previous,indexable⟩ := indexable
  unfold isLive
  rw [indexable]
  generalize state.get? (stateKeyOf entry) = stored at indexable
  cases stored with
  | none =>
    obtain rfl := Except.ok.inj indexable
    rfl
  | some encoded =>
    obtain ⟨⟨expiresAt,payload⟩,decoded,indexed⟩ := bind_ok indexable
    refine (ok_bind decoded).trans (congrArg Except.ok (decide_eq_decide.mpr ?_))
    constructor
    · rintro rfl
      rw [← own,← indexed]
    · intro same
      rw [same] at indexed
      exact (expiryKey_injective _ _ _ _ _ own indexed).2.symm

include agree

theorem Agree.sweepOne (removed : Nat) (entry : Bytes) (indexes : Indexes codec entry) :
    Agree codec (Klein.State.sweepOne (m,removed) entry).1 (if isLive m.state entry then
      {r with state := r.state.erase (stateKeyOf entry),expiry := r.expiry.erase entry} else r) := by
  unfold Klein.State.sweepOne
  dsimp only
  cases alive : isLive m.state entry with
  | true =>
    have was := of_decide_eq_true alive
    exact (agree.erase _ _ was).2
  | false =>
    have dead : ¬ Live m.state entry := fun live => by
      rw [(isLive_iff m.state entry indexes).mpr live] at alive
      contradiction
    refine {agree with kept := ?_,leftover := ?_}
    · intro other live
      have different : other ≠ entry := fun same => dead (same ▸ live)
      exact ((Dict.get?_erase _ _ _).trans (if_neg different)).trans (agree.kept other live)
    · intro other value found
      exact agree.leftover other value (ite_none_left_eq_some.mp ((Dict.get?_erase _ _ _).symm.trans found)).2

theorem Agree.cleanupLoop (now : Int) (limit : Option Int) (entries : List Bytes)
    (indexes : ∀ entry ∈ entries, Indexes codec entry) (processed removed : Nat) :
    MemoryStateBackend.cleanupLoop now limit m processed removed entries =
      (.ok ((swept now limit processed entries).foldl Klein.State.sweepOne (m,removed)).2,
        ((swept now limit processed entries).foldl Klein.State.sweepOne (m,removed)).1) := by
  induction entries generalizing m r processed removed with
  | nil => rfl
  | cons entry rest ih =>
    obtain ⟨here,later⟩ := forall_mem_cons.mp indexes
    obtain ⟨read,-,-,-⟩ := here.read entry
    rw [MemoryStateBackend.cleanupLoop,read,swept]
    dsimp only
    split
    · rfl
    rw [isCurrent_eq entry here m.state (agree.previous _),foldl_cons]
    have next := agree.sweepOne removed entry here
    unfold Klein.State.sweepOne at next ⊢
    cases alive : isLive m.state entry with
    | true =>
      rw [alive] at next
      exact ih next later (processed + 1) (removed + 1)
    | false =>
      rw [alive] at next
      exact ih next later (processed + 1) removed

theorem Agree.sweep (entries : List Bytes) (distinct : entries.Nodup) (indexes : ∀ entry ∈ entries, Indexes codec entry)
    (removed : Nat) : (entries.foldl Klein.State.sweepOne (m,removed)).2 = removed + (entries.filter (isLive m.state)).length ∧
      Agree codec (entries.foldl Klein.State.sweepOne (m,removed)).1 {r with
        state := ((entries.filter (isLive m.state)).map stateKeyOf).foldl OrderedMap.erase r.state
        expiry := (entries.filter (isLive m.state)).foldl OrderedMap.erase r.expiry} := by
  induction entries generalizing m r removed with
  | nil => exact ⟨rfl,agree⟩
  | cons entry rest ih =>
    obtain ⟨here,later⟩ := forall_mem_cons.mp indexes
    obtain ⟨absent,distinct⟩ := nodup_cons.mp distinct
    have next := agree.sweepOne removed entry here
    have unchanged (other : Bytes) (inside : other ∈ rest) :
        isLive (Klein.State.sweepOne (m,removed) entry).1.state other = isLive m.state other := by
      unfold Klein.State.sweepOne
      dsimp only
      cases alive : isLive m.state entry with
      | false => rfl
      | true =>
        have was := of_decide_eq_true alive
        rw [if_pos rfl,Bool.eq_iff_iff,isLive_iff _ other (later other inside),
          isLive_iff _ other (later other inside),live_erase,was]
        exact and_iff_left (fun same => absent (some.inj (Except.ok.inj same) ▸ inside))
    obtain ⟨count,last⟩ := ih next distinct later (Klein.State.sweepOne (m,removed) entry).2
    rw [List.filter_congr unchanged] at count last
    rw [foldl_cons]
    cases alive : isLive m.state entry with
    | true =>
      rw [alive] at last
      rw [filter_cons_of_pos alive]
      refine ⟨count.trans ?_,last⟩
      unfold Klein.State.sweepOne
      rw [if_pos alive,length_cons]
      dsimp only
      omega
    | false =>
      rw [alive] at last
      rw [filter_cons_of_neg (by simp [alive])]
      refine ⟨count.trans ?_,last⟩
      unfold Klein.State.sweepOne
      rw [if_neg (by simp [alive])]

omit agree

def due (now : Int) (entries : List Bytes) : List Bytes := entries.filter (fun entry => (expiryOf entry : Int) ≤ now)

def upTo (limit : Option Int) (processed : Nat) (entries : List Bytes) : List Bytes :=
  limit.elim entries (fun limit => entries.take (limit - processed).toNat)

theorem swept_eq (now : Int) (limit : Option Int) (entries : List Bytes)
    (ordered : entries.Pairwise (fun first second => expiryOf first ≤ expiryOf second)) (processed : Nat) :
    swept now limit processed entries = upTo limit processed (due now entries) := by
  induction entries generalizing processed with
  | nil => cases limit <;> simp [swept,due,upTo]
  | cons entry rest ih =>
    obtain ⟨first,ordered⟩ := pairwise_cons.mp ordered
    rw [swept]
    by_cases future : now < expiryOf entry
    · have nothing : due now (entry::rest) = [] := by
        refine filter_eq_nil_iff.mpr (fun other inside past => ?_)
        have past' : (expiryOf other : Int) ≤ now := by simpa using past
        rcases mem_cons.mp inside with rfl | later
        · omega
        · have between := first other later
          omega
      rw [if_pos (.inl future),nothing]
      cases limit <;> simp [upTo]
    · have cons : due now (entry::rest) = entry::due now rest := filter_cons_of_pos (by simp; omega)
      rw [cons]
      cases limit with
      | none =>
        rw [if_neg (by simp [limitReached,future]),ih ordered]
        rfl
      | some limit =>
        by_cases reached : limit ≤ (processed : Int)
        · have zero : (limit - processed).toNat = 0 := by omega
          rw [if_pos (.inr (by simpa [limitReached] using reached))]
          dsimp only [upTo,Option.elim]
          rw [zero,take_zero]
        · have more : (limit - processed).toNat = (limit - (processed + 1 : Nat)).toNat + 1 := by omega
          rw [if_neg (by simpa [limitReached,future] using reached),ih ordered]
          dsimp only [upTo,Option.elim]
          rw [more,take_succ_cons]

variable (m) in
def Sweeps (now : Int) (limit : Option Int) : Prop := ∀ bound, limit = some bound →
  (∀ entry ∈ (due now m.expiry.sorted.keys).take bound.toNat, isLive m.state entry = true) ∨
    ∀ entry ∈ (due now m.expiry.sorted.keys).drop bound.toNat, isLive m.state entry = false

theorem upTo_filter (limit : Option Int) (entries : List Bytes) (test : Bytes → Bool)
    (clear : ∀ bound, limit = some bound → (∀ entry ∈ entries.take bound.toNat, test entry = true) ∨
      ∀ entry ∈ entries.drop bound.toNat, test entry = false) :
    upTo limit 0 (entries.filter test) = (upTo limit 0 entries).filter test := by
  cases limit with
  | none => rfl
  | some bound =>
    have same : (bound - (0 : Nat)).toNat = bound.toNat := by simp
    dsimp only [upTo,Option.elim]
    rw [same]
    have parts : entries.filter test =
        (entries.take bound.toNat).filter test ++ (entries.drop bound.toNat).filter test := by
      rw [← filter_append,take_append_drop]
    rcases clear bound rfl with all | none
    · rw [parts,List.filter_eq_self.mpr all]
      by_cases short : entries.length ≤ bound.toNat
      · rw [drop_eq_nil_of_le short,filter_nil,append_nil,take_take,Nat.min_self]
      · exact take_left' (length_take_of_le (by omega))
    · have nothing : (entries.drop bound.toNat).filter test = [] :=
        filter_eq_nil_iff.mpr (fun entry inside found => by
          rw [none entry inside] at found
          contradiction)
      rw [parts,nothing,append_nil]
      exact take_of_length_le ((length_filter_le _ _).trans (length_take_le _ _))

include agree

theorem Agree.liveKeys : r.expiry.keys = m.expiry.sorted.keys.filter (isLive m.state) := by
  have whole : r.expiry = m.expiry.sorted.filter (fun entry _ => isLive m.state entry) := by
    ext1 entry
    apply Option.ext
    intro value
    rw [agree.indexed,OrderedMap.get?_filter,get?_sorted]
    simp only [filter_eq_some_iff]
    constructor
    · rintro ⟨rfl,live⟩
      have found := agree.kept entry live
      exact ⟨found,(isLive_iff m.state entry (agree.leftover entry [] found).2).mpr live⟩
    · rintro ⟨found,live⟩
      obtain ⟨empty,indexes⟩ := agree.leftover entry value found
      exact ⟨empty,(isLive_iff m.state entry indexes).mp live⟩
  rw [whole]
  unfold OrderedMap.keys OrderedMap.filter
  dsimp only
  rw [List.filter_map]
  rfl

theorem Agree.indexes (entry : Bytes) (inside : entry ∈ m.expiry.sorted.keys) : Indexes codec entry := by
  obtain ⟨item,member,rfl⟩ := List.mem_map.mp inside
  have found := (OrderedMap.get?_eq_some m.expiry.sorted item.1 item.2).mpr member
  rw [get?_sorted] at found
  exact (agree.leftover item.1 item.2 found).2

theorem Agree.ordered : m.expiry.sorted.keys.Pairwise (fun first second => expiryOf first ≤ expiryOf second) := by
  refine m.expiry.sorted.ordered.imp_of_mem (fun {first second} inside inside' less => ?_)
  obtain ⟨-,-,shape,small⟩ := (agree.indexes first inside).read first
  obtain ⟨-,-,shape',-⟩ := (agree.indexes second inside').read second
  refine Bytes.ofNat_le_of_le 8 _ _ small (stateKeyOf first) (stateKeyOf second) ?_
  rw [← shape,← shape']
  exact le_of_lt less

theorem Agree.cleanupLoop' (now : Int) (limit : Option Int) (entries : List Bytes)
    (indexes : ∀ entry ∈ entries, Indexes codec entry) (live : ∀ entry ∈ entries, isLive m.state entry = true)
    (processed : Nat) : r.cleanupLoop now limit processed entries =
      .ok ((swept now limit processed entries).map stateKeyOf,swept now limit processed entries) := by
  induction entries generalizing processed with
  | nil => rfl
  | cons entry rest ih =>
    obtain ⟨here,later⟩ := forall_mem_cons.mp indexes
    obtain ⟨alive,live⟩ := forall_mem_cons.mp live
    obtain ⟨read,-,-,-⟩ := here.read entry
    have current := isCurrent_eq entry here m.state (agree.previous _)
    rw [alive,← agree.lookup] at current
    rw [RocksDBStateBackend.cleanupLoop,ok_bind read,swept]
    dsimp only
    split
    · rfl
    rw [ok_bind current,ok_bind (ih later live (processed + 1))]
    rfl

theorem Agree.cleanupExpired (nowMs limit : Option Int) (now : Int) (sweeps : Sweeps m (nowMs.getD now) limit) :
    (m.cleanupExpired nowMs limit now).1 = (r.cleanupExpired nowMs limit now).1 ∧
      Agree codec (m.cleanupExpired nowMs limit now).2 (r.cleanupExpired nowMs limit now).2 := by
  have indexes := agree.indexes
  have ordered := agree.ordered
  have keys := agree.liveKeys
  have indexes' (entry : Bytes) (inside : entry ∈ r.expiry.keys) : Indexes codec entry :=
    indexes entry (mem_of_mem_filter (keys ▸ inside))
  have live (entry : Bytes) (inside : entry ∈ r.expiry.keys) : isLive m.state entry = true :=
    (mem_filter.mp (keys ▸ inside)).2
  unfold MemoryStateBackend.cleanupExpired RocksDBStateBackend.cleanupExpired
  rw [agree.cleanupLoop _ _ _ indexes,agree.cleanupLoop' _ _ _ indexes' live]
  have limited : swept (nowMs.getD now) limit 0 r.expiry.keys =
      (swept (nowMs.getD now) limit 0 m.expiry.sorted.keys).filter (isLive m.state) := by
    rw [swept_eq _ _ _ ordered,keys,swept_eq _ _ _ (ordered.sublist filter_sublist),← upTo_filter limit _ _ sweeps]
    unfold due
    rw [List.filter_filter,List.filter_filter]
    simp only [Bool.and_comm]
  have inside (entry : Bytes) (member : entry ∈ swept (nowMs.getD now) limit 0 m.expiry.sorted.keys) :
      entry ∈ m.expiry.sorted.keys := by
    rw [swept_eq _ _ _ ordered] at member
    have within : entry ∈ due (nowMs.getD now) m.expiry.sorted.keys := by
      cases limit with
      | none => exact member
      | some bound => exact mem_of_mem_take member
    exact mem_of_mem_filter within
  have distinct : (swept (nowMs.getD now) limit 0 m.expiry.sorted.keys).Nodup := by
    rw [swept_eq _ _ _ ordered]
    have within : (due (nowMs.getD now) m.expiry.sorted.keys).Nodup := m.expiry.sorted.distinct.filter _
    cases limit with
    | none => exact within
    | some bound => exact within.sublist (take_sublist _ _)
  obtain ⟨count,last⟩ := agree.sweep _ distinct (fun entry member => indexes entry (inside entry member)) 0
  rw [← limited] at count last
  dsimp only
  rw [count,length_map,Nat.zero_add]
  exact ⟨rfl,last⟩

end cleanup

section keyGroups
variable {maxParallelism : Nat} (positive : 0 < maxParallelism)

omit agree

include positive in
theorem stateGroup_ok (entry : Bytes × Bytes)
    (readable : ∃ name key space, decodeStateKey codec entry.1 = .ok (name,key,space)) :
    ∃ group, stateGroup codec maxParallelism entry = .ok group := by
  obtain ⟨name,key,space,decoded⟩ := readable
  exact ⟨_,(ok_bind decoded).trans (if_neg (by omega))⟩

theorem expiryGroup_eq (stateKey entry value encoded : Bytes) (expiresAt : Option Int)
    (indexed : expiryKey stateKey expiresAt = .ok (some entry)) :
    expiryGroup codec maxParallelism (entry,value) = stateGroup codec maxParallelism (stateKey,encoded) := by
  cases expiresAt with
  | none => cases indexed
  | some expiresAt =>
    obtain ⟨_,ok,same⟩ := map_ok indexed
    obtain rfl := some.inj same
    obtain ⟨stamp,-,decoded⟩ := decodeExpiryKey_encode _ _ _ ok
    exact ok_bind decoded

theorem domainOf_encodeTimerKey (timestamp : Int) (key space : Key) (domain : TimerDomain) (encodedKey : Bytes)
    (ok : encodeTimerKey codec timestamp key space domain = .ok encodedKey) :
    RocksDBStateBackend.domainOf encodedKey = .ok domain := by
  obtain ⟨payload,-,ok⟩ := bind_ok ok
  obtain ⟨stamp,-,ok⟩ := bind_ok ok
  obtain rfl := Except.ok.inj ok
  cases domain <;> rfl

theorem Registered.read (readable : codec.Readable) (encodedKey encodedValue : Bytes)
    (registered : Registered codec encodedKey encodedValue) : ∃ (timestamp : Nat) (key space : Key),
      decodeTimer codec encodedKey encodedValue = .ok (timestamp,key,space) ∧
        timestamp = Bytes.toNat ((encodedKey.drop 1).take 8) := by
  obtain ⟨timestamp,key,space,domain,keyed,valued⟩ := registered
  obtain ⟨payload,paired,keyed⟩ := bind_ok keyed
  obtain ⟨stamp,packed,keyed⟩ := bind_ok keyed
  obtain rfl := Except.ok.inj keyed
  obtain ⟨-,-,length,-⟩ := packUnsigned_ok 8 _ stamp packed
  obtain ⟨⟨key',space'⟩,loaded⟩ := readable.loads_dumps _ _ _ valued
  have long : ¬ (timerPrefix domain ++ stamp ++ codec.sha256 payload).length < 9 := by
    cases domain <;> simp [timerPrefix,length]
  refine ⟨_,key',space',?_,rfl⟩
  unfold decodeTimer
  rw [if_neg long,ok_bind loaded]
  rfl

section
variable {family : ColumnFamily} {key value : Bytes} (written : Written codec family key value)
include written

include positive in
theorem Written.group (readable : codec.Readable) :
    ∃ group, familyGroup codec maxParallelism family (key,value) = .ok group := by
  cases family with
  | state => exact stateGroup_ok positive (key,value) written.readable
  | expiry =>
    obtain ⟨-,stateKey,expiresAt,indexed,readable⟩ := written
    obtain ⟨group,ok⟩ := stateGroup_ok positive (stateKey,[]) readable
    exact ⟨group,(expiryGroup_eq stateKey key value [] expiresAt indexed).trans ok⟩
  | timers =>
    obtain ⟨timestamp,key',space,decoded,-⟩ := Registered.read readable key value written
    exact ⟨_,(ok_bind decoded).trans (if_neg (by omega))⟩

theorem Written.valid (again : family = .timers → Reencodes codec key value) :
    RocksDBStateBackend.validateKeyGroupEntry codec family (key,value) = .ok () := by
  have checked : RocksDBStateBackend.checkEntry codec (key,value) family = .ok () := by
    cases family with
    | state =>
      obtain ⟨⟨name,key',space,readable⟩,entry,indexable⟩ := written
      obtain ⟨⟨expiresAt,payload⟩,decoded,-⟩ := bind_ok indexable
      exact (ok_bind readable).trans (ok_bind decoded)
    | expiry =>
      obtain ⟨empty,indexes⟩ := written
      obtain ⟨read,own,-,-⟩ := indexes.read key
      obtain ⟨stateKey,expiresAt,indexed,name,key',space,readable⟩ := indexes
      obtain ⟨same,-⟩ := expiryKey_injective _ _ _ _ _ indexed own
      rw [same] at readable
      exact (ok_bind read).trans ((ok_bind readable).trans (if_pos empty))
    | timers =>
      obtain ⟨timestamp,key',space,domain,decoded,encoded⟩ := again rfl
      have own := domainOf_encodeTimerKey timestamp key' space domain key encoded
      exact (ok_bind own).trans ((ok_bind decoded).trans
        ((ok_bind encoded).trans (if_pos rfl)))
  unfold RocksDBStateBackend.validateKeyGroupEntry
  rw [checked]

omit written in
theorem reencodes_of_valid (valid : RocksDBStateBackend.validateKeyGroupEntry codec .timers (key,value) = .ok ()) :
    Reencodes codec key value := by
  unfold RocksDBStateBackend.validateKeyGroupEntry at valid
  split at valid
  next done =>
    obtain ⟨domain,-,done⟩ := bind_ok done
    obtain ⟨⟨timestamp,key',space⟩,decoded,done⟩ := bind_ok done
    obtain ⟨encoded,again,done⟩ := bind_ok done
    dsimp only at done
    split at done
    next same => exact ⟨timestamp,key',space,domain,decoded,same ▸ again⟩
    next => cases done
  next => cases valid

end

include agree

theorem Agree.tables {family : ColumnFamily} {key value : Bytes} (inside : (r.table family).get? key = some value) :
    (m.table family).get? key = some value := by
  cases family with
  | state => exact (agree.lookup key).symm.trans inside
  | expiry =>
    obtain ⟨rfl,live⟩ := (agree.indexed key value).mp inside
    exact agree.kept key live
  | timers =>
    have same : r.timers.get? key = m.timers.get? key := by rw [← agree.timers,get?_sorted]
    exact same.symm.trans inside

theorem Agree.written {family : ColumnFamily} {key value : Bytes} (inside : (m.table family).get? key = some value) :
    Written codec family key value := by
  cases family with
  | state => exact agree.stored key value inside
  | expiry => exact agree.leftover key value inside
  | timers => exact agree.registered key value inside

variable {Blob Blob' : Type} (pickle : Pickle (KeyGroupPayload (Dict Bytes Bytes)) Blob)
variable (pickle' : Pickle (KeyGroupPayload (List (Bytes × Bytes))) Blob')

include positive in
theorem Agree.restore (readable : codec.Readable) (requested : List Nat)
    (again : ∀ encodedKey encodedValue, m.timers.get? encodedKey = some encodedValue → ∀ group ∈ requested,
      timerGroup codec maxParallelism (encodedKey,encodedValue) = .ok group → Reencodes codec encodedKey encodedValue) :
    ∃ snapshots snapshots' next next',
    m.snapshotKeyGroups codec pickle maxParallelism requested = .ok snapshots ∧
      r.snapshotKeyGroups codec pickle' maxParallelism requested = .ok snapshots' ∧
      m.restoreKeyGroups pickle snapshots = (.ok (),next) ∧
      r.restoreKeyGroups codec pickle' snapshots' = (.ok (),next') ∧ Agree codec next next' := by
  have groups (family : ColumnFamily) (entry : Bytes × Bytes) (inside : (m.table family).get? entry.1 = some entry.2) :=
    (agree.written inside).group positive readable
  -- the group of an entry, where it has one
  let group (family : ColumnFamily) (entry : Bytes × Bytes) : Nat :=
    (familyGroup codec maxParallelism family entry).toOption.getD 0
  have grouped (family : ColumnFamily) (entry : Bytes × Bytes) (inside : (m.table family).get? entry.1 = some entry.2) :
      familyGroup codec maxParallelism family entry = .ok (group family entry) := by
    obtain ⟨own,ok⟩ := groups family entry inside
    change _ = Except.ok ((familyGroup codec maxParallelism family entry).toOption.getD 0)
    rw [ok]
    rfl
  obtain ⟨snapshots,next,done,restored,currentKey,spec⟩ := m.snapshot_restore codec pickle maxParallelism requested group
    (fun family entry inside => grouped family entry ((Dict.get?_eq_some _ _ _).mpr inside))
  obtain ⟨snapshots',next',done',restored',currentKey',spec'⟩ := r.snapshot_restore codec pickle' maxParallelism requested
    group (fun family entry inside => grouped family entry
      (agree.tables ((OrderedMap.get?_eq_some _ _ _).mpr inside)))
    (fun family key value inside wanted => by
      have held := agree.tables inside
      refine Written.valid (agree.written held) (fun timers => ?_)
      subst timers
      exact again key value held _ wanted (grouped .timers (key,value) held))
  have live (entry : Bytes) : Live next.state entry ↔ Live m.state entry ∧ group .expiry (entry,[]) ∈ requested := by
    have same (stateKey encoded : Bytes) (indexed : indexKey stateKey (some encoded) = .ok (some entry)) :
        group .expiry (entry,[]) = group .state (stateKey,encoded) := by
      obtain ⟨_,expiresAt,_,-,-,own⟩ := indexKey_some _ _ _ indexed
      exact congrArg (fun group => group.toOption.getD 0)
        (expiryGroup_eq stateKey entry [] encoded expiresAt own)
    constructor
    · rintro ⟨stateKey,indexed⟩
      obtain ⟨encoded,_,_,found,-,-⟩ := indexKey_some _ _ _ indexed
      obtain ⟨before,wanted⟩ := (spec .state stateKey encoded).mp found
      rw [found] at indexed
      refine ⟨⟨stateKey,?_⟩,same stateKey encoded indexed ▸ wanted⟩
      rw [show m.state.get? stateKey = some encoded from before]
      exact indexed
    · rintro ⟨⟨stateKey,indexed⟩,wanted⟩
      obtain ⟨encoded,_,_,found,-,-⟩ := indexKey_some _ _ _ indexed
      rw [found] at indexed
      refine ⟨stateKey,?_⟩
      rw [show next.state.get? stateKey = some encoded from
        (spec .state stateKey encoded).mpr ⟨found,same stateKey encoded indexed ▸ wanted⟩]
      exact indexed
  refine ⟨snapshots,snapshots',next,next',done,done',restored,restored',?_⟩
  constructor
  case currentKey => rw [currentKey,currentKey',agree.currentKey]
  case state =>
    ext1 key
    apply Option.ext
    intro value
    rw [get?_sorted]
    refine ((spec .state key value).trans ?_).trans (spec' .state key value).symm
    change m.state.get? key = some value ∧ _ ↔ r.state.get? key = some value ∧ _
    rw [agree.lookup]
  case timers =>
    ext1 key
    apply Option.ext
    intro value
    rw [get?_sorted]
    refine ((spec .timers key value).trans ?_).trans (spec' .timers key value).symm
    change m.timers.get? key = some value ∧ _ ↔ r.timers.get? key = some value ∧ _
    rw [← agree.timers,get?_sorted]
  case stored => exact fun key value found => agree.stored key value ((spec .state key value).mp found).1
  case registered => exact fun key value found => agree.registered key value ((spec .timers key value).mp found).1
  case indexed =>
    intro entry value
    refine (spec' .expiry entry value).trans ?_
    change r.expiry.get? entry = some value ∧ _ ↔ _
    rw [agree.indexed,live]
    constructor
    · rintro ⟨⟨rfl,alive⟩,wanted⟩
      exact ⟨rfl,alive,wanted⟩
    · rintro ⟨rfl,alive,wanted⟩
      exact ⟨⟨rfl,alive⟩,wanted⟩
  case kept =>
    intro entry alive
    obtain ⟨before,wanted⟩ := (live entry).mp alive
    exact (spec .expiry entry []).mpr ⟨agree.kept entry before,wanted⟩
  case leftover => exact fun key value found => agree.leftover key value ((spec .expiry key value).mp found).1

end keyGroups

section runs
variable {Blob Blob' : Type} (pickle : Pickle (KeyGroupPayload (Dict Bytes Bytes)) Blob)
variable (pickle' : Pickle (KeyGroupPayload (List (Bytes × Bytes))) Blob')

omit agree

variable (codec m) in
def Alike : Operation Key Value → Prop
  | .put descriptor value space now => Writes codec m descriptor value space now
  | .get descriptor space now later => Reads codec m descriptor space now later
  | .cleanupExpired nowMs limit now => Sweeps m (nowMs.getD now) limit
  | .snapshotAndRestore maxParallelism _ keyGroups => ∀ encodedKey encodedValue,
    m.timers.get? encodedKey = some encodedValue → ∀ group ∈ keyGroups,
      timerGroup codec maxParallelism (encodedKey,encodedValue) = .ok group → Reencodes codec encodedKey encodedValue
  | _ => True

include agree in
theorem Agree.apply (readable : codec.Readable) (operation : Operation Key Value) (alike : Alike codec m operation) :
    (m.apply codec pickle operation).1 = (r.apply codec pickle' operation).1 ∧
      Agree codec (m.apply codec pickle operation).2 (r.apply codec pickle' operation).2 := by
  cases operation with
  | setCurrentKey key =>
    exact ⟨rfl,{agree with currentKey := rfl}⟩
  | currentKey => exact ⟨congrArg (Except.map Result.key) (agree.requireCurrentKey),agree⟩
  | get descriptor space now later =>
    obtain ⟨same,next⟩ := agree.get descriptor space readable now later alike
    exact ⟨congrArg (Except.map Result.value) same,next⟩
  | put descriptor value space now =>
    obtain ⟨same,next⟩ := agree.put readable alike
    exact ⟨congrArg (Except.map (fun _ => Result.nothing)) same,next⟩
  | delete descriptor space =>
    obtain ⟨same,next⟩ := agree.delete descriptor space
    exact ⟨congrArg (Except.map (fun _ => Result.nothing)) same,next⟩
  | namespaces descriptor => exact ⟨congrArg (Except.map Result.namespaces) (agree.namespaces descriptor),agree⟩
  | registerTimer timestamp space domain =>
    obtain ⟨same,next⟩ := agree.registerTimer timestamp space domain
    exact ⟨congrArg (Except.map (fun _ => Result.nothing)) same,next⟩
  | deleteTimer timestamp space domain =>
    obtain ⟨same,next⟩ := agree.deleteTimer timestamp space domain
    exact ⟨congrArg (Except.map (fun _ => Result.nothing)) same,next⟩
  | popDueTimers timestamp domain limit =>
    obtain ⟨same,next⟩ := agree.popDueTimers timestamp domain limit
    exact ⟨congrArg (Except.map Result.timers) same,next⟩
  | cleanupExpired nowMs limit now =>
    obtain ⟨same,next⟩ := agree.cleanupExpired nowMs limit now alike
    exact ⟨congrArg (Except.map Result.removed) same,next⟩
  | snapshotAndRestore maxParallelism positive keyGroups =>
    obtain ⟨snapshots,snapshots',next,next',done,done',restored,restored',agree'⟩ :=
      agree.restore positive pickle pickle' readable keyGroups alike
    dsimp only [MemoryStateBackend.apply,RocksDBStateBackend.apply]
    rw [done,done']
    dsimp only
    rw [restored,restored']
    exact ⟨rfl,agree'⟩

variable (codec) in
def MemoryStateBackend.replies (b : MemoryStateBackend Key) :
    List (Operation Key Value) → List (Except String (Result Key Value))
  | [] => []
  | operation::rest => (b.apply codec pickle operation).1::(b.apply codec pickle operation).2.replies rest

variable (codec) in
def RocksDBStateBackend.replies (b : RocksDBStateBackend Key) :
    List (Operation Key Value) → List (Except String (Result Key Value))
  | [] => []
  | operation::rest => (b.apply codec pickle' operation).1::(b.apply codec pickle' operation).2.replies rest

variable (codec) in
/-- Both backends return the same in every run of such operations. -/
theorem backends_agree (readable : codec.Readable) (operations : List (Operation Key Value))
    (alike : Runs.Along (fun (b : MemoryStateBackend Key) operation => some (b.apply codec pickle operation).2)
      (Alike codec) MemoryStateBackend.init operations) :
    MemoryStateBackend.init.replies codec pickle operations = RocksDBStateBackend.init.replies codec pickle' operations := by
  have general (rest : List (Operation Key Value)) (m : MemoryStateBackend Key) (r : RocksDBStateBackend Key)
      (agree : Agree codec m r)
      (alike : Runs.Along (fun (b : MemoryStateBackend Key) operation => some (b.apply codec pickle operation).2)
        (Alike codec) m rest) : m.replies codec pickle rest = r.replies codec pickle' rest := by
    induction rest generalizing m r with
    | nil => rfl
    | cons operation rest ih =>
      obtain ⟨same,next⟩ := agree.apply pickle pickle' readable operation alike.1
      rw [MemoryStateBackend.replies,RocksDBStateBackend.replies,same,ih _ _ next (alike.2 _ rfl)]
  exact general operations _ _ (Agree.init codec) alike

end runs

end agreement

section examples

/-- Pickle of `None` and of the integers below 256. -/
def smallItem : Option (Fin 256) → Bytes
  | none => [78]
  | some number => [75,number]

def readSmallItem : Bytes → Option (Option (Fin 256) × Bytes)
  | 78::rest => some (none,rest)
  | 75::number::rest => some (some number,rest)
  | _ => none

def smallPair (key space : Option (Fin 256)) : Bytes :=
  let frame := smallItem key ++ smallItem space ++ [134,148,46]
  [128,5,149,⟨frame.length % 256,Nat.mod_lt _ (by decide)⟩,0,0,0,0,0,0,0] ++ frame

/-- Keys that are `None` or small integers; no digest is taken of them here. -/
def smallKeys : KeyCodec (Option (Fin 256)) where
  encodeKey := fun key => .ok ([128,5] ++ smallItem key ++ [46])
  decodeKey := fun encoded => match readSmallItem (encoded.drop 2) with
    | some (key,[46]) => .ok key
    | _ => .error "UnpicklingError"
  encodePair := fun key space => .ok (smallPair key space)
  dumpsPair := fun key space => .ok (smallPair key space)
  loadsPair := fun encoded => match readSmallItem (encoded.drop 11) with
    | some (key,rest) => match readSmallItem rest with
      | some (space,_) => .ok (key,space)
      | none => .error "UnpicklingError"
    | none => .error "UnpicklingError"
  sha256 := id
  keyHash := fun _ => 0

theorem smallKeys_lawful : smallKeys.Lawful where
  decode_encode := by
    rintro (_ | number) encoded ok <;> cases ok <;> rfl
  loads_dumps := by
    rintro (_ | number) (_ | number') encoded ok <;> cases ok <;> rfl

def samePickle {α : Type} : Pickle α α := ⟨id,.ok,fun _ => rfl⟩

def session : StateDescriptor (Option (Fin 256)) where
  name := [115]
  dumps := smallKeys.encodeKey
  loads := smallKeys.decodeKey
  ttlConfig := some ⟨5,.onCreateAndWrite,.neverReturnExpired⟩

def sessionCalls : List (Operation (Option (Fin 256)) (Option (Fin 256))) :=
  [.setCurrentKey (some 1),.put session (some 3) none 0,.get session none 4 4,.registerTimer 7 none .eventTime,
    .snapshotAndRestore 128 (by decide) [0,1],.cleanupExpired none (some 1) 10,.popDueTimers 9 .eventTime none]

/-- A value and a timer are restored; the value expires and is cleaned up, the timer fires. -/
theorem expired_value_alike :
    MemoryStateBackend.init.replies smallKeys samePickle sessionCalls =
      RocksDBStateBackend.init.replies smallKeys samePickle sessionCalls := by
  refine backends_agree smallKeys samePickle samePickle smallKeys_lawful.readable _ ⟨trivial,?_⟩
  rintro _ ⟨⟩
  refine ⟨fun stateKey _ => .inl ⟨_,rfl,fun expiresAt set => ?_⟩,?_⟩
  · cases set
    decide
  rintro _ ⟨⟩
  refine ⟨fun _ _ _ _ _ _ _ _ _ _ refreshed => (by cases refreshed),?_⟩
  rintro _ ⟨⟩
  refine ⟨trivial,?_⟩
  rintro _ ⟨⟩
  refine ⟨fun encodedKey encodedValue found _ _ _ => ?_,?_⟩
  · have listed := (Dict.get?_eq_some _ _ _).mp found
    obtain ⟨rfl,rfl⟩ := Prod.mk.inj (mem_singleton.mp listed)
    exact ⟨7,some 1,none,.eventTime,by decide +kernel,by decide +kernel⟩
  rintro _ ⟨⟩
  refine ⟨fun bound limited => ?_,?_⟩
  · cases limited
    exact .inl (by decide +kernel)
  rintro _ ⟨⟩
  exact ⟨trivial,fun _ _ => trivial⟩

/-- A read that hides an expired value leaves an index entry, which uses up the limit
of the next cleanup. -/
theorem leftover_counted :
    ¬ ∀ operations : List (Operation (Option (Fin 256)) (Option (Fin 256))),
      MemoryStateBackend.init.replies smallKeys samePickle operations =
        RocksDBStateBackend.init.replies smallKeys samePickle operations := by
  intro alike
  exact absurd (alike [.setCurrentKey (some 1),.put session (some 3) none 0,.setCurrentKey (some 2),
    .put session (some 4) none 1,.setCurrentKey (some 1),.get session none 10 10,.cleanupExpired none (some 1) 10])
    (by decide +kernel)

end examples
end Klein.State
