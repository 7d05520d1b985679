import Klein.Dict
import Klein.WeightedQueue

/-! The calls of a weighted queue (`runtime/worker/weighted_queue.py`) under any schedule.
A call only suspends in the wait of the condition, where it has released the lock, so
what it does between two waits is one step. Every admission gets a number. -/
namespace Klein
open List

/-- What the consumer of a queue retains besides it; `ε` is all that is not the queue. -/
structure ByteReservation (ε α : Type) where
  externalBytes : ε → Nat
  onTake : α → Nat → ε → Except String ε

structure QueueMeasures (α : Type) where
  weigh : α → Int
  sizeBytes : Option (α → Int)

/-- `_measure` -/
def QueueMeasures.measure {α : Type} (measures : QueueMeasures α) (item : α) : Except String (Nat × Nat) := do
  let weight := measures.weigh item
  if weight ≤ 0 then throw ("queue item weight must be greater than zero, got " ++ toString weight)
  let sizeBytes := match measures.sizeBytes with
    | none => 0
    | some sizeBytes => sizeBytes item
  if sizeBytes < 0 then throw ("queue item size must not be negative, got " ++ toString sizeBytes)
  return (weight.toNat,sizeBytes.toNat)

inductive InboxRequest (ε α : Type) where
  | put (item : α) (weight size : Nat)
  | get
  | getMatching (predicate : ε → α → Bool)

/-- A call in the wait of the condition; `seen` are the bytes that were retained outside
the queue when it last looked. -/
structure InboxWaiter (ε α : Type) where
  call : Nat
  request : InboxRequest ε α
  seen : Nat
  notified : Bool

/-- `admitted` and `returned` are histories; a returned item stands with its call. -/
structure WeightedInbox (ε α : Type) where
  queue : WeightedQueue (α × Nat)
  bound : Bool
  outside : ε
  waiting : List (InboxWaiter ε α)
  calls : Nat
  admitted : List α
  returned : List (Nat × α × Nat)

inductive InboxAnswer (α : Type) where
  | raised (text : String)
  | waits
  | admitted
  | refused
  | returned (item : α)
  | done

/-- A cancelled waiter may pass a notification on; `outside` is any change that is made
outside the queue. -/
inductive InboxStep (ε α : Type) where
  | bindExternalByteReservation
  | put (item : α)
  | tryPut (item : α)
  | putControl (item : α)
  | get
  | getMatching (predicate : ε → α → Bool)
  | wakeWaiters
  | resume (index : Nat)
  | cancel (index : Nat) (passed : Nat → Bool)
  | outside (changed : ε)

namespace WeightedInbox
variable {ε α : Type}

def create (maxWeight : Nat) (maxBytes : Option Nat) (outside : ε) : WeightedInbox ε α where
  queue := .empty maxWeight maxBytes
  bound := false
  outside := outside
  waiting := []
  calls := 0
  admitted := []
  returned := []

variable (reservation : ByteReservation ε α) (measures : QueueMeasures α) (inbox : WeightedInbox ε α)

/-- `_external_byte_size` -/
def externalByteSize : Nat := if inbox.bound then reservation.externalBytes inbox.outside else 0

/-- `notify_all` -/
def notifyAll : WeightedInbox ε α :=
  {inbox with waiting := inbox.waiting.map (fun waiter => {waiter with notified := true})}

def canAdmit (weight size : Nat) : Bool := inbox.queue.canAdmit (inbox.externalByteSize reservation) weight size

/-- `_admit` -/
def admitItem (item : α) (weight size : Nat) : WeightedInbox ε α :=
  notifyAll {inbox with
    queue := inbox.queue.admitted (item,inbox.admitted.length) weight size
    admitted := inbox.admitted ++ [item]}

/-- `_take`; nothing is taken when the callback raises. -/
def take (call index : Nat) : InboxAnswer α × WeightedInbox ε α :=
  match inbox.queue.take index with
  | none => (.raised "deque index out of range",inbox)
  | some ((ticket,size),queue) =>
    match if inbox.bound then reservation.onTake ticket.1 size inbox.outside else .ok inbox.outside with
    | .error text => (.raised text,inbox)
    | .ok outside => (.returned ticket.1,notifyAll {inbox with
        queue := queue
        outside := outside
        returned := inbox.returned ++ [(call,ticket)]})

def wait (call : Nat) (request : InboxRequest ε α) : InboxAnswer α × WeightedInbox ε α :=
  (.waits,{inbox with
    waiting := inbox.waiting ++ [⟨call,request,inbox.externalByteSize reservation,false⟩]})

def look (call : Nat) (request : InboxRequest ε α) : InboxAnswer α × WeightedInbox ε α :=
  match request with
  | .put item weight size =>
    if inbox.canAdmit reservation weight size then (.admitted,inbox.admitItem item weight size)
    else inbox.wait reservation call request
  | .get => if inbox.queue.items = [] then inbox.wait reservation call request else inbox.take reservation call 0
  | .getMatching predicate =>
    match inbox.queue.items.findIdx? (fun entry => predicate inbox.outside entry.1.1) with
    | some index => inbox.take reservation call index
    | none => inbox.wait reservation call request

def begin (request : InboxRequest ε α) : InboxAnswer α × WeightedInbox ε α :=
  look reservation {inbox with calls := inbox.calls + 1} inbox.calls request

def perform : InboxStep ε α → InboxAnswer α × WeightedInbox ε α
  | .bindExternalByteReservation =>
    if inbox.queue.maxBytes = none then (.done,inbox)
    else if inbox.bound then (.raised "weighted queue byte reservation is already bound",inbox)
    else (.done,{inbox with bound := true})
  | .put item =>
    match measures.measure item with
    | .error text => (.raised text,inbox)
    | .ok (weight,size) => inbox.begin reservation (.put item weight size)
  | .tryPut item =>
    match measures.measure item with
    | .error text => (.raised text,inbox)
    | .ok (weight,size) =>
      if inbox.canAdmit reservation weight size then (.admitted,inbox.admitItem item weight size) else (.refused,inbox)
  | .putControl item =>
    match measures.measure item with
    | .error text => (.raised text,inbox)
    | .ok (weight,size) => (.admitted,inbox.admitItem item weight size)
  | .get => inbox.begin reservation .get
  | .getMatching predicate => inbox.begin reservation (.getMatching predicate)
  | .wakeWaiters => (.done,inbox.notifyAll)
  | .resume index =>
    match inbox.waiting[index]? with
    | none => (.done,inbox)
    | some waiter =>
      if waiter.notified then
        look reservation {inbox with waiting := inbox.waiting.eraseIdx index} waiter.call waiter.request
      else (.done,inbox)
  | .cancel index passed => (.done,{inbox with
      waiting := (inbox.waiting.eraseIdx index).map (fun waiter => {waiter with
        notified := waiter.notified || passed waiter.call})})
  | .outside changed => (.done,{inbox with outside := changed})

def performAll (steps : List (InboxStep ε α)) (inbox : WeightedInbox ε α) : WeightedInbox ε α :=
  steps.foldl (fun inbox step => (perform reservation measures inbox step).2) inbox

end WeightedInbox

def InboxRequest.selects {ε α : Type} (outside : ε) (item : α) : InboxRequest ε α → Bool
  | .put _ _ _ => false
  | .get => true
  | .getMatching predicate => predicate outside item

def InboxStep.request {ε α : Type} (inbox : WeightedInbox ε α) : InboxStep ε α → Option (Nat × InboxRequest ε α)
  | .get => some (inbox.calls,.get)
  | .getMatching predicate => some (inbox.calls,.getMatching predicate)
  | .resume index => inbox.waiting[index]?.map (fun waiter => (waiter.call,waiter.request))
  | _ => none

def InboxStep.isControl {ε α : Type} : InboxStep ε α → Bool
  | .putControl _ => true
  | _ => false

namespace WeightedInbox
variable {ε α : Type} (reservation : ByteReservation ε α) (measures : QueueMeasures α) (inbox : WeightedInbox ε α)

section guarantees

/-- Nothing is lost or returned twice, the counters are sums, and a put that could be
admitted is notified unless bytes were given back outside the queue after it looked. -/
structure Kept : Prop where
  conserved : (inbox.returned.map Prod.snd ++ inbox.queue.items.map Prod.fst).Perm inbox.admitted.zipIdx
  weight : inbox.queue.weight = (inbox.queue.items.map (fun entry => entry.2.1)).sum
  bytes : inbox.queue.bytes = (inbox.queue.items.map (fun entry => entry.2.2)).sum
  woken : ∀ waiter ∈ inbox.waiting, ∀ item weight size, waiter.request = .put item weight size →
    inbox.canAdmit reservation weight size = true → waiter.notified = true ∨ inbox.externalByteSize reservation < waiter.seen

/-- A return takes the earliest item that the call wants, an admission other than of a
control keeps to the limits or finds nothing retained, and `wake_waiters` notifies all. -/
structure Stepped (step : InboxStep ε α) (before after : WeightedInbox ε α) : Prop where
  returns : after.returned = before.returned ∨ ∃ call request earlier entry later,
    step.request before = some (call,request) ∧ after.returned = before.returned ++ [(call,entry.1)] ∧
      before.queue.items = earlier ++ entry::later ∧ after.queue.items = earlier ++ later ∧
        request.selects before.outside entry.1.1 = true ∧ ∀ other ∈ earlier, request.selects before.outside other.1.1 = false
  bounded : step.isControl = false → after.admitted ≠ before.admitted →
    (before.queue.items = [] ∧ before.externalByteSize reservation = 0) ∨ (after.queue.weight ≤ after.queue.maxWeight ∧
      ∀ limit, after.queue.maxBytes = some limit → after.queue.bytes + after.externalByteSize reservation ≤ limit)
  wakes : step = .wakeWaiters → ∀ waiter ∈ after.waiting, waiter.notified = true

def LaneWise {κ : Type} (lane : α → κ) (predicate : ε → α → Bool) : Prop :=
  ∀ outside first second, lane first = lane second → predicate outside first = predicate outside second

/-- The items of a lane leave in the order of their admission, and the earlier ones first. -/
def InLaneOrder {κ : Type} (lane : α → κ) : Prop :=
  (inbox.returned.map Prod.snd ++ inbox.queue.items.map Prod.fst).Pairwise
    (fun first second => lane first.1 = lane second.1 → first.2 < second.2)

end guarantees

section looking
variable {reservation inbox}

inductive Looked (reservation : ByteReservation ε α) (inbox : WeightedInbox ε α) (call : Nat) (request : InboxRequest ε α) :
    WeightedInbox ε α → Prop
  | admits (item : α) (weight size : Nat) (asked : request = .put item weight size)
      (fits : inbox.canAdmit reservation weight size = true) : Looked reservation inbox call request (inbox.admitItem item weight size)
  | waits (unfit : ∀ item weight size, request = .put item weight size → inbox.canAdmit reservation weight size = false) :
      Looked reservation inbox call request (inbox.wait reservation call request).2
  | takes (earlier later : List ((α × Nat) × Nat × Nat)) (entry : (α × Nat) × Nat × Nat) (queue : WeightedQueue (α × Nat))
      (changed : ε) (items : inbox.queue.items = earlier ++ entry::later) (rest : queue.items = earlier ++ later)
      (wanted : request.selects inbox.outside entry.1.1 = true)
      (skipped : ∀ other ∈ earlier, request.selects inbox.outside other.1.1 = false) :
      Looked reservation inbox call request (notifyAll {inbox with
        queue := queue
        outside := changed
        returned := inbox.returned ++ [(call,entry.1)]})
  | raises : Looked reservation inbox call request inbox

theorem take_looked (call : Nat) (request : InboxRequest ε α) (earlier later : List ((α × Nat) × Nat × Nat))
    (entry : (α × Nat) × Nat × Nat) (items : inbox.queue.items = earlier ++ entry::later)
    (wanted : request.selects inbox.outside entry.1.1 = true)
    (skipped : ∀ other ∈ earlier, request.selects inbox.outside other.1.1 = false) :
    Looked reservation inbox call request (inbox.take reservation call earlier.length).2 := by
  obtain ⟨ticket,weight,size⟩ := entry
  have found : inbox.queue.items[earlier.length]? = some (ticket,weight,size) := by
    rw [items,getElem?_append_right (Nat.le_refl _),Nat.sub_self]
    rfl
  obtain ⟨queue,took,rest,-,-⟩ := inbox.queue.take_found earlier.length ticket weight size found
  rw [items,eraseIdx_append_of_length_le (Nat.le_refl _),Nat.sub_self] at rest
  unfold take
  rw [took]
  dsimp only
  split
  · exact .raises
  next changed _ => exact .takes earlier later (ticket,weight,size) queue changed items rest wanted skipped

theorem look_looked (call : Nat) (request : InboxRequest ε α) :
    Looked reservation inbox call request (inbox.look reservation call request).2 := by
  cases request with
  | put item weight size =>
    rw [look]
    split
    next fits => exact .admits item weight size rfl fits
    next unfit =>
      apply Looked.waits
      rintro item' weight' size' same
      cases same
      simpa using unfit
  | get =>
    rw [look]
    cases items : inbox.queue.items with
    | nil =>
      rw [if_pos rfl]
      exact .waits (fun _ _ _ same => by cases same)
    | cons entry later =>
      rw [if_neg (by simp)]
      exact take_looked call .get [] later entry items rfl (by simp)
  | getMatching predicate =>
    rw [look]
    split
    next index found =>
      obtain ⟨less,wanted,skipped⟩ := findIdx?_eq_some_iff_getElem.mp found
      have split : inbox.queue.items = inbox.queue.items.take index ++ inbox.queue.items[index]::inbox.queue.items.drop (index + 1) := by
        rw [← drop_eq_getElem_cons less,take_append_drop]
      have length : (inbox.queue.items.take index).length = index := by
        rw [length_take]
        omega
      have looked := @take_looked _ _ reservation _ call (.getMatching predicate) _ _ _ split wanted (by
        intro other inside
        obtain ⟨place,early,same⟩ := getElem_of_mem inside
        rw [getElem_take] at same
        rw [← same]
        rw [length] at early
        have other := skipped place early
        rw [Bool.not_eq_true] at other
        exact other)
      rw [length] at looked
      exact looked
    · exact .waits (fun _ _ _ same => by cases same)

end looking

section invariant
variable {reservation inbox}

structure Held (inbox : WeightedInbox ε α) : Prop where
  conserved : (inbox.returned.map Prod.snd ++ inbox.queue.items.map Prod.fst).Perm inbox.admitted.zipIdx
  unfit : ∀ waiter ∈ inbox.waiting, ∀ item weight size, waiter.request = .put item weight size → waiter.notified = false →
    inbox.queue.canAdmit waiter.seen weight size = false

theorem Held.kept (held : Held inbox) : Kept reservation inbox where
  conserved := held.conserved
  weight := inbox.queue.weighed
  bytes := inbox.queue.sized
  woken := by
    intro waiter inside item weight size asked fits
    by_contra asleep
    obtain ⟨unnotified,less⟩ := not_or.mp asleep
    have unfit := held.unfit waiter inside item weight size asked (by simpa using unnotified)
    have still := inbox.queue.canAdmit_more _ (inbox.externalByteSize reservation) weight size (by omega) unfit
    unfold canAdmit at fits
    rw [still] at fits
    cases fits

theorem notified_of_notifyAll (inbox : WeightedInbox ε α) : ∀ waiter ∈ inbox.notifyAll.waiting, waiter.notified = true := by
  intro waiter inside
  obtain ⟨asleep,_,same⟩ := List.mem_map.mp inside
  rw [← same]

theorem Held.notifyAll (conserved : (inbox.returned.map Prod.snd ++ inbox.queue.items.map Prod.fst).Perm inbox.admitted.zipIdx) :
    Held inbox.notifyAll := by
  refine ⟨conserved,?_⟩
  intro waiter inside _ _ _ _ asleep
  rw [notified_of_notifyAll inbox waiter inside] at asleep
  cases asleep

theorem Held.admitItem (held : Held inbox) (item : α) (weight size : Nat) : Held (inbox.admitItem item weight size) := by
  apply Held.notifyAll
  change (inbox.returned.map Prod.snd ++ (inbox.queue.items ++ [((item,inbox.admitted.length),weight,size)]).map Prod.fst).Perm _
  rw [map_append,← append_assoc,zipIdx_append]
  simpa using held.conserved.append_right [(item,inbox.admitted.length)]

theorem Held.fewer (held : Held inbox) (waiting : List (InboxWaiter ε α)) (calls : Nat)
    (inside : ∀ waiter ∈ waiting, waiter ∈ inbox.waiting) : Held {inbox with
      waiting := waiting
      calls := calls} := ⟨held.conserved,fun waiter here => held.unfit waiter (inside waiter here)⟩

theorem Looked.held (call : Nat) (request : InboxRequest ε α) (after : WeightedInbox ε α) (held : Held inbox)
    (looked : Looked reservation inbox call request after) : Held after := by
  cases looked with
  | admits item weight size asked fits => exact held.admitItem item weight size
  | waits unfit =>
    refine ⟨held.conserved,?_⟩
    intro waiter inside item weight size asked asleep
    rcases mem_append.mp inside with before | new
    · exact held.unfit waiter before item weight size asked asleep
    · rw [mem_singleton.mp new] at asked ⊢
      exact unfit item weight size asked
  | takes earlier later entry queue changed items rest wanted skipped =>
    apply Held.notifyAll
    have conserved := held.conserved
    rw [items] at conserved
    dsimp only
    rw [rest]
    refine List.Perm.trans ?_ conserved
    simp only [map_append,map_cons,map_nil,append_assoc]
    apply List.Perm.append_left
    exact (@List.perm_middle _ entry.1 (earlier.map Prod.fst) _).symm
  | raises => exact held

theorem perform_held (step : InboxStep ε α) (held : Held inbox) : Held (perform reservation measures inbox step).2 := by
  cases step with
  | bindExternalByteReservation =>
    rw [perform]
    split
    · exact held
    · split
      · exact held
      · exact ⟨held.conserved,held.unfit⟩
  | put item =>
    rw [perform]
    split
    · exact held
    · exact (look_looked _ _).held _ _ _ (held.fewer _ _ (fun _ inside => inside))
  | tryPut item =>
    rw [perform]
    split
    · exact held
    · split
      · exact held.admitItem ..
      · exact held
  | putControl item =>
    rw [perform]
    split
    · exact held
    · exact held.admitItem ..
  | get => exact (look_looked _ _).held _ _ _ (held.fewer _ _ (fun _ inside => inside))
  | getMatching predicate => exact (look_looked _ _).held _ _ _ (held.fewer _ _ (fun _ inside => inside))
  | wakeWaiters => exact Held.notifyAll held.conserved
  | resume index =>
    rw [perform]
    split
    · exact held
    · split
      · exact (look_looked _ _).held _ _ _ (held.fewer _ _ (fun _ inside => mem_of_mem_eraseIdx inside))
      · exact held
  | cancel index passed =>
    refine ⟨held.conserved,?_⟩
    intro waiter inside item weight size asked asleep
    obtain ⟨before,here,same⟩ := List.mem_map.mp inside
    rw [← same] at asked asleep ⊢
    exact held.unfit before (mem_of_mem_eraseIdx here) item weight size asked (Bool.or_eq_false_iff.mp asleep).1
  | outside changed => exact ⟨held.conserved,held.unfit⟩

theorem performAll_held (steps : List (InboxStep ε α)) (inbox : WeightedInbox ε α) (held : Held inbox) :
    Held (performAll reservation measures steps inbox) := by
  induction steps generalizing inbox with
  | nil => exact held
  | cons step rest ih => exact ih _ (perform_held measures step held)

theorem create_held (maxWeight : Nat) (maxBytes : Option Nat) (outside : ε) :
    Held (create maxWeight maxBytes outside : WeightedInbox ε α) := ⟨List.Perm.nil,fun _ inside => by cases inside⟩

end invariant

section steps
variable {reservation inbox}

theorem admit_bounded (item : α) (weight size : Nat) (fits : inbox.canAdmit reservation weight size = true) :
    (inbox.queue.items = [] ∧ inbox.externalByteSize reservation = 0) ∨
      ((inbox.admitItem item weight size).queue.weight ≤ (inbox.admitItem item weight size).queue.maxWeight ∧
        ∀ limit, (inbox.admitItem item weight size).queue.maxBytes = some limit →
          (inbox.admitItem item weight size).queue.bytes + (inbox.admitItem item weight size).externalByteSize reservation ≤ limit) := by
  rcases inbox.queue.canAdmit_bounds _ weight size fits with alone | bounded
  · exact .inl alone
  · refine .inr ⟨bounded.1,fun limit limited => ?_⟩
    have below := bounded.2 limit limited
    change inbox.queue.bytes + size + inbox.externalByteSize reservation ≤ limit
    omega

theorem Looked.stepped (looking : WeightedInbox ε α) (step : InboxStep ε α) (call : Nat) (request : InboxRequest ε α)
    (after : WeightedInbox ε α) (looked : Looked reservation looking call request after)
    (queue : looking.queue = inbox.queue) (outside : looking.outside = inbox.outside) (bound : looking.bound = inbox.bound)
    (admitted : looking.admitted = inbox.admitted) (returned : looking.returned = inbox.returned)
    (asks : (∃ item, request.selects inbox.outside item = true) → step.request inbox = some (call,request))
    (other : step ≠ .wakeWaiters) : Stepped reservation step inbox after := by
  have external : looking.externalByteSize reservation = inbox.externalByteSize reservation := by
    unfold externalByteSize
    rw [bound,outside]
  cases looked with
  | admits item weight size asked fits =>
    have bounded := admit_bounded item weight size fits
    rw [queue,external] at bounded
    exact ⟨.inl returned,fun _ _ => bounded,fun wakes => absurd wakes other⟩
  | waits unfit => exact ⟨.inl returned,fun _ more => absurd admitted more,fun wakes => absurd wakes other⟩
  | takes earlier later entry next changed items rest wanted skipped =>
    rw [queue] at items
    rw [outside] at wanted skipped
    refine ⟨.inr ⟨call,request,earlier,entry,later,asks ⟨_,wanted⟩,?_,items,rest,wanted,skipped⟩,?_,?_⟩
    · change looking.returned ++ _ = _
      rw [returned]
    · exact fun _ more => absurd admitted more
    · exact fun wakes => absurd wakes other
  | raises => exact ⟨.inl returned,fun _ more => absurd admitted more,fun wakes => absurd wakes other⟩

theorem Stepped.still (step : InboxStep ε α) (after : WeightedInbox ε α) (returned : after.returned = inbox.returned)
    (admitted : after.admitted = inbox.admitted) (other : step ≠ .wakeWaiters) : Stepped reservation step inbox after :=
  ⟨.inl returned,fun _ more => absurd admitted more,fun wakes => absurd wakes other⟩

theorem perform_stepped (step : InboxStep ε α) : Stepped reservation step inbox (perform reservation measures inbox step).2 := by
  cases step with
  | bindExternalByteReservation =>
    rw [perform]
    split
    · exact .still _ _ rfl rfl (by simp)
    · split
      · exact .still _ _ rfl rfl (by simp)
      · exact .still _ _ rfl rfl (by simp)
  | put item =>
    rw [perform]
    split
    · exact .still _ _ rfl rfl (by simp)
    · exact (look_looked _ _).stepped _ _ _ _ _ rfl rfl rfl rfl rfl (fun wants => by simp [InboxRequest.selects] at wants) (by simp)
  | tryPut item =>
    rw [perform]
    split
    · exact .still _ _ rfl rfl (by simp)
    next weight size _ =>
      split
      next fits => exact ⟨.inl rfl,fun _ _ => admit_bounded item weight size fits,fun wakes => by cases wakes⟩
      · exact .still _ _ rfl rfl (by simp)
  | putControl item =>
    rw [perform]
    split
    · exact .still _ _ rfl rfl (by simp)
    · exact ⟨.inl rfl,fun data _ => (by cases data),fun wakes => (by cases wakes)⟩
  | get => exact (look_looked _ _).stepped _ _ _ _ _ rfl rfl rfl rfl rfl (fun _ => rfl) (by simp)
  | getMatching predicate => exact (look_looked _ _).stepped _ _ _ _ _ rfl rfl rfl rfl rfl (fun _ => rfl) (by simp)
  | wakeWaiters => exact ⟨.inl rfl,fun _ more => absurd rfl more,fun _ => notified_of_notifyAll inbox⟩
  | resume index =>
    rw [perform]
    split
    · exact .still _ _ rfl rfl (by simp)
    next waiter found =>
      split
      · refine (look_looked _ _).stepped _ _ _ _ _ rfl rfl rfl rfl rfl (fun _ => ?_) (by simp)
        rw [InboxStep.request,found]
        rfl
      · exact .still _ _ rfl rfl (by simp)
  | cancel index passed => exact .still _ _ rfl rfl (by simp)
  | outside changed => exact .still _ _ rfl rfl (by simp)

end steps

section lanes
variable {reservation inbox} {κ : Type} (lane : α → κ)

def InboxStep.LaneWise : InboxStep ε α → Prop
  | .getMatching predicate => WeightedInbox.LaneWise lane predicate
  | _ => True

def RequestLaneWise (request : InboxRequest ε α) : Prop :=
  ∀ outside first second, lane first = lane second → request.selects outside first = request.selects outside second

structure Lanes (inbox : WeightedInbox ε α) : Prop where
  ordered : InLaneOrder inbox lane
  waiting : ∀ waiter ∈ inbox.waiting, RequestLaneWise lane waiter.request

variable {lane}

theorem Lanes.admitItem (lanes : Lanes lane inbox) (held : Held inbox) (item : α) (weight size : Nat) :
    Lanes lane (inbox.admitItem item weight size) := by
  constructor
  · change (inbox.returned.map Prod.snd ++ (inbox.queue.items ++ [((item,inbox.admitted.length),weight,size)]).map Prod.fst).Pairwise _
    rw [map_append,← append_assoc]
    refine pairwise_append.mpr ⟨lanes.ordered,pairwise_singleton _ _,?_⟩
    intro before inside new here _
    obtain ⟨_,less⟩ := mem_zipIdx (held.conserved.subset inside)
    rw [map_singleton,mem_singleton] at here
    rw [here]
    simpa using less.1
  · intro waiter inside
    obtain ⟨asleep,here,same⟩ := List.mem_map.mp inside
    rw [← same]
    exact lanes.waiting asleep here

theorem Lanes.fewer (lanes : Lanes lane inbox) (waiting : List (InboxWaiter ε α)) (calls : Nat)
    (inside : ∀ waiter ∈ waiting, waiter ∈ inbox.waiting) : Lanes lane {inbox with
      waiting := waiting
      calls := calls} := ⟨lanes.ordered,fun waiter here => lanes.waiting waiter (inside waiter here)⟩

theorem Looked.laned (call : Nat) (request : InboxRequest ε α) (after : WeightedInbox ε α) (held : Held inbox)
    (lanes : Lanes lane inbox) (wise : RequestLaneWise lane request) (looked : Looked reservation inbox call request after) :
    Lanes lane after := by
  cases looked with
  | admits item weight size asked fits => exact lanes.admitItem held item weight size
  | waits unfit =>
    refine ⟨lanes.ordered,?_⟩
    intro waiter inside
    rcases mem_append.mp inside with before | new
    · exact lanes.waiting waiter before
    · rw [mem_singleton.mp new]
      exact wise
  | takes earlier later entry queue changed items rest wanted skipped =>
    refine ⟨?_,?_⟩
    · have ordered := lanes.ordered
      unfold InLaneOrder at ordered
      rw [items] at ordered
      change ((inbox.returned ++ [(call,entry.1)]).map Prod.snd ++ queue.items.map Prod.fst).Pairwise _
      rw [rest]
      simp only [map_append,map_cons,map_nil,append_assoc,cons_append,nil_append] at ordered ⊢
      obtain ⟨before,after,across⟩ := pairwise_append.mp ordered
      obtain ⟨front,back,between⟩ := pairwise_append.mp after
      obtain ⟨first,back⟩ := pairwise_cons.mp back
      refine pairwise_append.mpr ⟨before,pairwise_cons.mpr ⟨?_,pairwise_append.mpr ⟨front,back,?_⟩⟩,?_⟩
      · intro other inside same
        rcases mem_append.mp inside with passed | last
        -- a passed item is one that the call did not want, so it is of another lane
        · obtain ⟨left,here,rfl⟩ := List.mem_map.mp passed
          have unwanted := skipped left here
          rw [wise inbox.outside left.1.1 entry.1.1 same.symm,wanted] at unwanted
          cases unwanted
        · exact first other last same
      · exact fun one inside other here => between one inside other (mem_cons_of_mem _ here)
      · intro one inside other here
        apply across one inside other
        rcases mem_cons.mp here with same | rest
        · rw [same]
          exact mem_append_right _ (mem_cons_self ..)
        · rcases mem_append.mp rest with passed | last
          · exact mem_append_left _ passed
          · exact mem_append_right _ (mem_cons_of_mem _ last)
    · intro waiter inside
      obtain ⟨asleep,here,same⟩ := List.mem_map.mp inside
      rw [← same]
      exact lanes.waiting asleep here
  | raises => exact lanes

theorem perform_lanes (step : InboxStep ε α) (wise : InboxStep.LaneWise lane step) (held : Held inbox) (lanes : Lanes lane inbox) :
    Lanes lane (perform reservation measures inbox step).2 := by
  have alone : ∀ item weight size, RequestLaneWise (ε := ε) lane (.put item weight size) := fun _ _ _ _ _ _ _ => rfl
  cases step with
  | bindExternalByteReservation =>
    rw [perform]
    split
    · exact lanes
    · split
      · exact lanes
      · exact ⟨lanes.ordered,lanes.waiting⟩
  | put item =>
    rw [perform]
    split
    · exact lanes
    · exact (look_looked _ _).laned _ _ _ (held.fewer _ _ (fun _ inside => inside)) (lanes.fewer _ _ (fun _ inside => inside))
        (alone _ _ _)
  | tryPut item =>
    rw [perform]
    split
    · exact lanes
    · split
      · exact lanes.admitItem held ..
      · exact lanes
  | putControl item =>
    rw [perform]
    split
    · exact lanes
    · exact lanes.admitItem held ..
  | get =>
    exact (look_looked _ _).laned _ _ _ (held.fewer _ _ (fun _ inside => inside)) (lanes.fewer _ _ (fun _ inside => inside))
      (fun _ _ _ _ => rfl)
  | getMatching predicate =>
    have asked : RequestLaneWise lane (.getMatching predicate) := wise
    exact (look_looked _ _).laned _ _ _ (held.fewer _ _ (fun _ inside => inside)) (lanes.fewer _ _ (fun _ inside => inside)) asked
  | wakeWaiters =>
    refine ⟨lanes.ordered,?_⟩
    intro waiter inside
    obtain ⟨asleep,here,same⟩ := List.mem_map.mp inside
    rw [← same]
    exact lanes.waiting asleep here
  | resume index =>
    rw [perform]
    split
    · exact lanes
    next waiter found =>
      split
      · have fewer : ∀ other ∈ inbox.waiting.eraseIdx index, other ∈ inbox.waiting := fun _ inside => mem_of_mem_eraseIdx inside
        exact (look_looked _ _).laned _ _ _ (held.fewer _ _ fewer) (lanes.fewer _ _ fewer)
          (lanes.waiting waiter (mem_of_getElem? found))
      · exact lanes
  | cancel index passed =>
    refine ⟨lanes.ordered,?_⟩
    intro waiter inside
    obtain ⟨before,here,same⟩ := List.mem_map.mp inside
    rw [← same]
    exact lanes.waiting before (mem_of_mem_eraseIdx here)
  | outside changed => exact ⟨lanes.ordered,lanes.waiting⟩

theorem performAll_lanes (steps : List (InboxStep ε α)) (inbox : WeightedInbox ε α)
    (wise : ∀ step ∈ steps, InboxStep.LaneWise lane step) (held : Held inbox) (lanes : Lanes lane inbox) :
    Lanes lane (performAll reservation measures steps inbox) := by
  induction steps generalizing inbox with
  | nil => exact lanes
  | cons step rest ih =>
    obtain ⟨here,later⟩ := forall_mem_cons.mp wise
    exact ih _ later (perform_held measures step held) (perform_lanes measures step here held lanes)

end lanes

section runs
variable {reservation}

/-- In every run the queue conserves its items, serves each call the earliest item that
it wants and keeps its limits; a lane keeps its order. -/
theorem runs_are_sound (maxWeight : Nat) (maxBytes : Option Nat) (outside : ε) (steps : List (InboxStep ε α)) (step : InboxStep ε α) :
    Kept reservation (perform reservation measures (performAll reservation measures steps (create maxWeight maxBytes outside)) step).2 ∧
    Stepped reservation step (performAll reservation measures steps (create maxWeight maxBytes outside))
      (perform reservation measures (performAll reservation measures steps (create maxWeight maxBytes outside)) step).2 ∧
    ∀ (κ : Type) (lane : α → κ), (∀ other ∈ steps ++ [step], InboxStep.LaneWise lane other) →
      InLaneOrder (perform reservation measures (performAll reservation measures steps (create maxWeight maxBytes outside)) step).2 lane := by
  have held := @performAll_held _ _ reservation measures steps _ (create_held maxWeight maxBytes outside)
  refine ⟨(perform_held measures step held).kept,perform_stepped measures step,?_⟩
  intro κ lane wise
  obtain ⟨before,here⟩ := forall_mem_append.mp wise
  have lanes : Lanes lane (create maxWeight maxBytes outside : WeightedInbox ε α) :=
    ⟨List.Pairwise.nil,fun _ inside => by cases inside⟩
  have laned := @performAll_lanes _ _ reservation measures _ _ steps _ before (create_held maxWeight maxBytes outside) lanes
  exact (perform_lanes measures step (forall_mem_singleton.mp here) held laned).ordered

end runs
end WeightedInbox

/-- The byte reservations of a pump (`InboxPump`): the envelopes in process, the
accumulator as it was when the envelope was taken, and as it is now. -/
structure PumpBytes where
  inflightInputBytes : Nat
  inflightEnvelopes : Dict Nat Nat
  processingAccumulatorBytes : Nat
  accumulatorBufferedBytes : Nat

namespace PumpBytes
variable {α : Type} (bytes : PumpBytes)

def reservedInputBytes : Nat := bytes.inflightInputBytes + bytes.processingAccumulatorBytes + bytes.accumulatorBufferedBytes

def reserveInputEnvelope (identity sizeBytes : Nat) : Except String PumpBytes :=
  if bytes.inflightEnvelopes.contains identity then .error "input envelope already owns an in-flight byte reservation"
  else .ok {bytes with
    inflightEnvelopes := bytes.inflightEnvelopes.set identity sizeBytes
    inflightInputBytes := bytes.inflightInputBytes + sizeBytes}

def reservation (identity : α → Nat) : ByteReservation PumpBytes α where
  externalBytes := reservedInputBytes
  onTake := fun item sizeBytes bytes => bytes.reserveInputEnvelope (identity item) sizeBytes

section schedules

def envelopeMeasures : QueueMeasures (Nat × Nat) := ⟨fun _ => 1,some (fun envelope => (envelope.2 : Int))⟩

def schedule (steps : List (InboxStep PumpBytes (Nat × Nat))) : WeightedInbox PumpBytes (Nat × Nat) :=
  .performAll (reservation Prod.fst) envelopeMeasures steps (.create 10 (some 100) ⟨0,∅,0,0⟩)

/-- An envelope is in process and its records have been accumulated when two puts begin to
wait. The accumulator is drained, one of them is cancelled, and the other could now be
admitted but sleeps until the pump wakes it. A call may also ask for the later of two items. -/
theorem put_sleeps_and_lane_turns :
    (∃ waiter ∈ (schedule [.bindExternalByteReservation,.put (0,60),.get,.outside ⟨60,Dict.empty.set 0 60,0,60⟩,
        .put (1,30),.put (2,30),.outside ⟨60,Dict.empty.set 0 60,0,0⟩,.cancel 1 (fun _ => false)]).waiting,
      waiter.request = .put (1,30) 1 30 ∧ waiter.notified = false ∧
        (schedule [.bindExternalByteReservation,.put (0,60),.get,.outside ⟨60,Dict.empty.set 0 60,0,60⟩,
          .put (1,30),.put (2,30),.outside ⟨60,Dict.empty.set 0 60,0,0⟩,.cancel 1 (fun _ => false)]).canAdmit
          (reservation Prod.fst) 1 30 = true) ∧
    ¬ WeightedInbox.InLaneOrder (schedule [.put (0,10),.put (1,10),.getMatching (fun _ item => item.1 == 1),.get]) (fun _ => 0) := by
  constructor
  · exact ⟨⟨2,.put (1,30) 1 30,120,false⟩,mem_singleton.mpr rfl,rfl,rfl,by decide⟩
  · intro ordered
    have turned := pairwise_cons.mp (show List.Pairwise _ [(((1,10),1) : (Nat × Nat) × Nat),((0,10),0)] from ordered)
    exact absurd (turned.1 ((0,10),0) (by simp) rfl) (by decide)

/-- Calls that only ask for a lane keep it in order. -/
theorem lane_keeps_order : WeightedInbox.InLaneOrder (WeightedInbox.perform (reservation Prod.fst) envelopeMeasures
    (WeightedInbox.performAll (reservation Prod.fst) envelopeMeasures [.put (0,10),.put (1,10)] (.create 10 (some 100) ⟨0,∅,0,0⟩))
      (.getMatching (fun _ item => item.2 == 10))).2 Prod.snd := by
  have sound := @WeightedInbox.runs_are_sound _ _ (reservation Prod.fst) envelopeMeasures 10 (some 100) ⟨0,∅,0,0⟩
    [.put (0,10),.put (1,10)] (.getMatching (fun _ item => item.2 == 10))
  apply sound.2.2 Nat Prod.snd
  intro step inside
  simp only [cons_append,nil_append,mem_cons,not_mem_nil,or_false] at inside
  rcases inside with rfl | rfl | rfl
  · trivial
  · trivial
  · intro _ first second same
    change (first.2 == 10) = (second.2 == 10)
    rw [same]

end schedules
end PumpBytes
end Klein
