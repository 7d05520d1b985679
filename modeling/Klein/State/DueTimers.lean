import Klein.State.KeyedOperator

/-! The timers that are due (`MemoryStateBackend.pop_due_timers`). Among registered
timers of one domain the order of the keys is the order of the timestamps, so a
scan finds exactly those that are due, the earliest first. -/
namespace Klein.State
open Dict Fallible List Option

def stampOf (encodedKey : Bytes) : Nat := Bytes.toNat ((encodedKey.drop 1).take 8)

def isDue (timestamp : Int) (domain : TimerDomain) (encodedKey : Bytes) : Bool :=
  (timerPrefix domain).isPrefixOf encodedKey && decide ((stampOf encodedKey : Int) ≤ timestamp)

def dueItems (timestamp : Int) (domain : TimerDomain) (timers : Dict Bytes Bytes) : List (Bytes × Bytes) :=
  (timers.filter (fun encodedKey _ => isDue timestamp domain encodedKey)).sorted.entries

def keepLater (timestamp : Int) (domain : TimerDomain) (timers : Dict Bytes Bytes) : Dict Bytes Bytes :=
  timers.filter (fun encodedKey _ => !isDue timestamp domain encodedKey)

section due
variable (timestamp : Int) (domain : TimerDomain) (timers : Dict Bytes Bytes)

theorem mem_dueItems (item : Bytes × Bytes) :
    item ∈ dueItems timestamp domain timers ↔ timers.get? item.1 = some item.2 ∧ isDue timestamp domain item.1 = true := by
  unfold dueItems
  rw [← OrderedMap.get?_eq_some,get?_sorted,Dict.get?_filter,filter_eq_some_iff]

theorem dueItems_nil : dueItems timestamp domain timers = [] ↔ keepLater timestamp domain timers = timers := by
  rw [eq_nil_iff_forall_not_mem]
  constructor
  · intro none
    refine Dict.filter_eq_self _ timers (fun item inside => ?_)
    have kept := (mem_dueItems timestamp domain timers item).not.mp (none item)
    simpa [(Dict.get?_eq_some timers item.1 item.2).mpr inside] using kept
  · intro same item inside
    obtain ⟨stored,due⟩ := (mem_dueItems timestamp domain timers item).mp inside
    rw [← same,keepLater,Dict.get?_filter,filter_eq_some_iff,due] at stored
    exact absurd stored.2 (by decide)

theorem dueItems_set (encodedKey encodedValue : Bytes) (later : isDue timestamp domain encodedKey = false) :
    dueItems timestamp domain (timers.set encodedKey encodedValue) = dueItems timestamp domain timers := by
  unfold dueItems
  rw [filter_set_of_neg _ timers encodedKey encodedValue later]

theorem keepLater_set (encodedKey encodedValue : Bytes) (later : isDue timestamp domain encodedKey = false) :
    keepLater timestamp domain (timers.set encodedKey encodedValue) =
      (keepLater timestamp domain timers).set encodedKey encodedValue :=
  filter_set_of_pos (fun other => !isDue timestamp domain other) timers encodedKey encodedValue (by rw [later]; rfl)

theorem dueItems_erase (encodedKey : Bytes) (absent : ∀ item ∈ dueItems timestamp domain timers, item.1 ≠ encodedKey) :
    dueItems timestamp domain (timers.erase encodedKey) = dueItems timestamp domain timers := by
  have missing : (timers.filter (fun other _ => isDue timestamp domain other)).contains encodedKey = false := by
    rw [contains_eq_isSome]
    cases found : (timers.filter (fun other _ => isDue timestamp domain other)).get? encodedKey with
    | none => rfl
    | some value =>
      rw [Dict.get?_filter,filter_eq_some_iff] at found
      exact absurd rfl (absent (encodedKey,value) ((mem_dueItems timestamp domain timers _).mpr found))
  unfold dueItems
  rw [filter_erase,erase_of_absent _ encodedKey missing]

theorem keepLater_erase (encodedKey : Bytes) :
    keepLater timestamp domain (timers.erase encodedKey) = (keepLater timestamp domain timers).erase encodedKey :=
  filter_erase _ timers encodedKey

theorem keepLater_erase_due (encodedKey : Bytes) (due : isDue timestamp domain encodedKey = true) :
    keepLater timestamp domain (timers.erase encodedKey) = keepLater timestamp domain timers := by
  unfold keepLater Dict.erase
  rw [Dict.filter_filter]
  refine Dict.filter_congr _ _ timers (fun item _ => ?_)
  by_cases same : item.1 = encodedKey
  · simp [same,due]
  · simp [same]

theorem dueItems_tail (item : Bytes × Bytes) (rest : List (Bytes × Bytes))
    (due : dueItems timestamp domain timers = item::rest) : dueItems timestamp domain (timers.erase item.1) = rest := by
  have ordered := (timers.filter (fun other _ => isDue timestamp domain other)).sorted.ordered
  unfold dueItems at due ⊢
  rw [filter_erase,sorted_erase]
  unfold OrderedMap.erase OrderedMap.filter
  dsimp only
  rw [due] at ordered ⊢
  rw [filter_cons_of_neg (by simp),List.filter_eq_self]
  intro other inside
  have later := (pairwise_cons.mp ordered).1 other.1 (List.mem_map_of_mem inside)
  simp [later.ne']

end due

section read
variable {Key : Type} (codec : KeyCodec Key)

structure ReadAs (item : Bytes × Bytes) (event : TimerEvent Key) : Prop where
  decoded : decodeTimer codec item.1 item.2 = .ok (event.timestamp,event.key,event.space)
  encoded : encodeTimerKey codec event.timestamp event.key event.space event.domain = .ok item.1

variable {codec} {timestamp : Int} {key space : Key} {domain own : TimerDomain} {encodedKey : Bytes}
  {item : Bytes × Bytes} {rest : List (Bytes × Bytes)}

theorem encodeTimerKey_ok (ok : encodeTimerKey codec timestamp key space domain = .ok encodedKey) :
    ∃ (stamp : Nat) (digest : Bytes), (stamp : Int) = timestamp ∧ stamp < 256 ^ 8 ∧ stampOf encodedKey = stamp ∧
      encodedKey = timerPrefix domain ++ (Bytes.ofNat 8 stamp ++ digest) := by
  obtain ⟨payload,-,ok⟩ := bind_ok ok
  obtain ⟨stamp,packed,ok⟩ := bind_ok ok
  obtain rfl := Except.ok.inj ok
  unfold packUnsigned at packed
  split at packed
  next fits =>
    cases packed
    have small : timestamp.toNat < 256 ^ 8 := by omega
    refine ⟨timestamp.toNat,codec.sha256 payload,by omega,small,?_,by rw [append_assoc]⟩
    have digits : ((timerPrefix domain ++ Bytes.ofNat 8 timestamp.toNat ++ codec.sha256 payload).drop 1).take 8 =
        Bytes.ofNat 8 timestamp.toNat := by
      cases domain <;> rfl
    unfold stampOf
    rw [digits,Bytes.toNat_ofNat 8 _ small]
  next => contradiction

theorem isDue_encodeTimerKey (bound : Int) (other : TimerDomain) (ok : encodeTimerKey codec timestamp key space domain = .ok encodedKey) :
    isDue bound other encodedKey = (decide (domain = other) && decide (timestamp ≤ bound)) := by
  obtain ⟨stamp,digest,same,-,stamped,shape⟩ := encodeTimerKey_ok ok
  unfold isDue
  rw [stamped,same,shape]
  cases domain <;> cases other <;> simp [timerPrefix,List.isPrefixOf]

theorem ReadAs.unique {first second : TimerEvent Key} (one : ReadAs codec item first)
    (other : ReadAs codec item second) : first = second := by
  have same := Except.ok.inj (one.decoded.symm.trans other.decoded)
  have domain : first.domain = second.domain := by
    obtain ⟨_,_,-,-,-,shape⟩ := encodeTimerKey_ok one.encoded
    obtain ⟨_,_,-,-,-,shape'⟩ := encodeTimerKey_ok other.encoded
    have heads := congrArg List.head? (shape.symm.trans shape')
    cases left : first.domain <;> cases right : second.domain <;> simp [left,right,timerPrefix] at heads ⊢
  cases first
  cases second
  simp only [Prod.mk.injEq] at same
  obtain ⟨rfl,rfl,rfl⟩ := same
  obtain rfl := domain
  rfl

variable (codec domain) in
structure Scanned (items : List (Bytes × Bytes)) : Prop where
  inside : ∀ item ∈ items, (timerPrefix domain).isPrefixOf item.1 = true
  registered : ∀ item ∈ items, Registered codec item.1 item.2
  ordered : items.Pairwise (fun first second => first.1 < second.1)

theorem Scanned.tail (scanned : Scanned codec domain (item::rest)) :
    Scanned codec domain rest where
  inside := fun other inside => scanned.inside other (mem_cons_of_mem _ inside)
  registered := fun other inside => scanned.registered other (mem_cons_of_mem _ inside)
  ordered := (pairwise_cons.mp scanned.ordered).2

theorem domain_of_inside (ok : encodeTimerKey codec timestamp key space own = .ok encodedKey)
    (inside : (timerPrefix domain).isPrefixOf encodedKey = true) : own = domain := by
  obtain ⟨stamp',-,same,-,stamped,-⟩ := encodeTimerKey_ok ok
  have due := isDue_encodeTimerKey timestamp domain ok
  by_contra other
  rw [isDue,inside,stamped,same,decide_eq_false other] at due
  simp at due

theorem reads_of_reencodes (inside : (timerPrefix domain).isPrefixOf item.1 = true) (again : Reencodes codec item.1 item.2) :
    ∃ event : TimerEvent Key, ReadAs codec item event ∧ event.domain = domain ∧ event.timestamp = stampOf item.1 := by
  obtain ⟨stamp,key,space,own,decoded,encoded⟩ := again
  obtain ⟨stamp',-,same,-,stamped,-⟩ := encodeTimerKey_ok encoded
  exact ⟨⟨stamp,key,space,own⟩,⟨decoded,encoded⟩,domain_of_inside encoded inside,
    by rw [stamped]; exact_mod_cast same.symm⟩

section
variable (scanned : Scanned codec domain (item::rest))
  (late : timestamp < stampOf item.1)
include scanned late

theorem Scanned.later (other : Bytes × Bytes) (inside : other ∈ rest) :
    timestamp < stampOf other.1 := by
  have shape (entry : Bytes × Bytes) (listed : entry ∈ item::rest) :
      stampOf entry.1 < 256 ^ 8 ∧ ∃ digest, entry.1 = timerPrefix domain ++ (Bytes.ofNat 8 (stampOf entry.1) ++ digest) := by
    obtain ⟨stamp,key,space,own,keyed,-⟩ := scanned.registered entry listed
    have same := domain_of_inside keyed (scanned.inside entry listed)
    obtain ⟨stamp,digest,-,small,stamped,whole⟩ := encodeTimerKey_ok keyed
    rw [stamped]
    exact ⟨small,digest,same ▸ whole⟩
  obtain ⟨small,digest,whole⟩ := shape item mem_cons_self
  obtain ⟨-,digest',whole'⟩ := shape other (mem_cons_of_mem _ inside)
  have less := le_of_lt ((pairwise_cons.mp scanned.ordered).1 other inside)
  obtain ⟨digit,single⟩ : ∃ digit, timerPrefix domain = [digit] := by cases domain <;> exact ⟨_,rfl⟩
  rw [whole,whole',single] at less
  have rest' := ((Bytes.cons_le_cons_iff _ _ _ _).mp less).elim (fun less => absurd less (lt_irrefl _)) And.right
  have ordered := Bytes.ofNat_le_of_le 8 _ _ small digest digest' rest'
  omega

theorem Scanned.none_due :
    (item::rest).filter (fun item => decide ((stampOf item.1 : Int) ≤ timestamp)) = [] := by
  refine filter_eq_nil_iff.mpr (fun other inside => ?_)
  have above : timestamp < stampOf other.1 := by
    rcases mem_cons.mp inside with rfl | inside
    · exact late
    · exact scanned.later late other inside
  simpa using above

end

section
variable (readable : codec.Readable) {items : List (Bytes × Bytes)} (scanned : Scanned codec domain items)
  (again : ∀ item ∈ items, (stampOf item.1 : Int) ≤ timestamp → Reencodes codec item.1 item.2)
include readable scanned again

theorem dueTimers_all (count : Nat) : ∃ events, dueTimers codec timestamp domain none count items = .ok events ∧
      List.Forall₂ (ReadAs codec) (items.filter (fun item => decide ((stampOf item.1 : Int) ≤ timestamp))) events := by
  induction items generalizing count with
  | nil => exact ⟨[],rfl,List.Forall₂.nil⟩
  | cons item rest ih =>
    obtain ⟨here,later⟩ := forall_mem_cons.mp again
    obtain ⟨stamp,key,space,decoded,stamped⟩ := (scanned.registered item mem_cons_self).read readable
    change stamp = stampOf item.1 at stamped
    obtain ⟨events,done,read⟩ := ih (scanned.tail) later (count + 1)
    unfold dueTimers
    rw [ok_bind decoded]
    dsimp only
    by_cases late : timestamp < stamp
    · rw [if_pos late,scanned.none_due (stamped ▸ late)]
      exact ⟨[],rfl,List.Forall₂.nil⟩
    · have reached : (stampOf item.1 : Int) ≤ timestamp := stamped ▸ not_lt.mp late
      obtain ⟨event,reads,own,-⟩ := reads_of_reencodes (scanned.inside item mem_cons_self) (here reached)
      obtain ⟨rfl,same⟩ := Prod.mk.inj (Except.ok.inj (decoded.symm.trans reads.decoded))
      obtain ⟨rfl,rfl⟩ := Prod.mk.inj same
      rw [if_neg late,ok_bind done,filter_cons_of_pos (by simpa using reached)]
      exact ⟨_,rfl,List.Forall₂.cons ⟨reads.decoded,own ▸ reads.encoded⟩ read⟩

theorem dueTimers_one :
    ∃ events, dueTimers codec timestamp domain (some 1) 0 items = .ok events ∧
      List.Forall₂ (ReadAs codec) ((items.filter (fun item => decide ((stampOf item.1 : Int) ≤ timestamp))).take 1) events := by
  cases items with
  | nil => exact ⟨[],rfl,List.Forall₂.nil⟩
  | cons item rest =>
    obtain ⟨stamp,key,space,decoded,stamped⟩ := (scanned.registered item mem_cons_self).read readable
    change stamp = stampOf item.1 at stamped
    unfold dueTimers
    rw [ok_bind decoded]
    dsimp only
    by_cases late : timestamp < stamp
    · rw [if_pos late,scanned.none_due (stamped ▸ late)]
      exact ⟨[],rfl,List.Forall₂.nil⟩
    · have reached : (stampOf item.1 : Int) ≤ timestamp := stamped ▸ not_lt.mp late
      obtain ⟨event,reads,own,-⟩ := reads_of_reencodes (scanned.inside item mem_cons_self)
        (again item mem_cons_self reached)
      obtain ⟨rfl,same⟩ := Prod.mk.inj (Except.ok.inj (decoded.symm.trans reads.decoded))
      obtain ⟨rfl,rfl⟩ := Prod.mk.inj same
      rw [if_neg late,if_pos (by decide),filter_cons_of_pos (by simpa using reached)]
      exact ⟨_,rfl,List.Forall₂.cons ⟨reads.decoded,own ▸ reads.encoded⟩ List.Forall₂.nil⟩

end

theorem timerKeys_of_read {items : List (Bytes × Bytes)} {events : List (TimerEvent Key)}
    (read : List.Forall₂ (ReadAs codec) items events) : timerKeys codec events = (items.map Prod.fst,.ok ()) := by
  induction read with
  | nil => rfl
  | cons first _ ih =>
    unfold timerKeys
    rw [first.encoded,ih]
    rfl

end read

namespace MemoryStateBackend
variable {Key : Type} (codec : KeyCodec Key) (b : MemoryStateBackend Key) (timestamp : Int) (domain : TimerDomain)

/-- Every entry of the timers was written by `register_timer`. -/
def TimersRegistered : Prop := ∀ encodedKey encodedValue, b.timers.get? encodedKey = some encodedValue →
  Registered codec encodedKey encodedValue

def domainItems : List (Bytes × Bytes) := b.timers.sorted.entries.filter (fun item => (timerPrefix domain).isPrefixOf item.1)

theorem domainItems_scanned (registered : b.TimersRegistered codec) : Scanned codec domain (b.domainItems domain) where
  inside := fun item listed => (mem_filter.mp listed).2
  registered := fun item listed => by
    have stored := (OrderedMap.get?_eq_some b.timers.sorted item.1 item.2).mpr (mem_filter.mp listed).1
    rw [get?_sorted] at stored
    exact registered item.1 item.2 stored
  ordered := (pairwise_map.mp b.timers.sorted.ordered).sublist filter_sublist

theorem domainItems_due : (b.domainItems domain).filter (fun item => decide ((stampOf item.1 : Int) ≤ timestamp)) =
    dueItems timestamp domain b.timers := by
  unfold domainItems dueItems
  rw [sorted_filter,List.filter_filter]
  exact List.filter_congr (fun item _ => Bool.and_comm _ _)

theorem popDueTimers_kept (limit : Option Int) (encodedKey encodedValue : Bytes)
    (found : (b.popDueTimers codec timestamp domain limit).2.timers.get? encodedKey = some encodedValue) :
    b.timers.get? encodedKey = some encodedValue := by
  unfold popDueTimers at found
  split at found
  next => exact found
  next events _ =>
    change ((timerKeys codec events).1.foldl Dict.erase b.timers).get? encodedKey = some encodedValue at found
    rw [foldl_erase,Dict.get?_filter,filter_eq_some_iff] at found
    exact found.1

section
variable (readable : codec.Readable) (registered : b.TimersRegistered codec)
  (again : ∀ item ∈ dueItems timestamp domain b.timers, Reencodes codec item.1 item.2)
include readable registered again

omit readable registered in
theorem domainItems_again (item : Bytes × Bytes) (listed : item ∈ b.domainItems domain)
    (reached : (stampOf item.1 : Int) ≤ timestamp) : Reencodes codec item.1 item.2 :=
  again item (b.domainItems_due timestamp domain ▸ mem_filter.mpr ⟨listed,by simpa using reached⟩)

theorem popDueTimers_all :
    ∃ events, b.popDueTimers codec timestamp domain none =
        (.ok events,{b with timers := keepLater timestamp domain b.timers}) ∧
      List.Forall₂ (ReadAs codec) (dueItems timestamp domain b.timers) events := by
  obtain ⟨events,done,read⟩ := dueTimers_all readable (b.domainItems_scanned codec domain registered)
    (b.domainItems_again codec timestamp domain again) 0
  rw [b.domainItems_due] at read
  refine ⟨events,?_,read⟩
  have kept : ((dueItems timestamp domain b.timers).map Prod.fst).foldl Dict.erase b.timers =
      keepLater timestamp domain b.timers := by
    rw [foldl_erase]
    refine Dict.filter_congr _ _ b.timers (fun item inside => ?_)
    have stored := (Dict.get?_eq_some b.timers item.1 item.2).mpr inside
    cases due : isDue timestamp domain item.1 with
    | true =>
      have listed := (mem_dueItems timestamp domain b.timers item).mpr ⟨stored,due⟩
      simpa using ⟨item.2,listed⟩
    | false =>
      have missing : item.1 ∉ (dueItems timestamp domain b.timers).map Prod.fst := by
        intro listed
        obtain ⟨other,found,same⟩ := List.mem_map.mp listed
        have reached := ((mem_dueItems timestamp domain b.timers other).mp found).2
        rw [same,due] at reached
        contradiction
      simpa using missing
  unfold popDueTimers
  rw [← domainItems,done]
  dsimp only
  rw [timerKeys_of_read read,kept]
  rfl

theorem popDueTimers_one :
    (dueItems timestamp domain b.timers = [] → b.popDueTimers codec timestamp domain (some 1) = (.ok [],b)) ∧
    ∀ item rest, dueItems timestamp domain b.timers = item::rest → ∃ event, ReadAs codec item event ∧
      b.popDueTimers codec timestamp domain (some 1) = (.ok [event],{b with timers := b.timers.erase item.1}) := by
  obtain ⟨events,done,read⟩ := dueTimers_one readable (b.domainItems_scanned codec domain registered)
    (b.domainItems_again codec timestamp domain again)
  rw [b.domainItems_due] at read
  have result : b.popDueTimers codec timestamp domain (some 1) = (.ok events,
      {b with timers := (((dueItems timestamp domain b.timers).take 1).map Prod.fst).foldl Dict.erase b.timers}) := by
    unfold popDueTimers
    rw [← domainItems,done]
    dsimp only
    rw [timerKeys_of_read read]
    rfl
  rw [result]
  constructor
  · intro nothing
    rw [nothing] at read ⊢
    cases read
    rfl
  · intro item rest due
    rw [due] at read ⊢
    cases read with
    | cons first nothing =>
      cases nothing
      exact ⟨_,first,rfl⟩

end
end MemoryStateBackend
end Klein.State
