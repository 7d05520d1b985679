import Klein.RescaleFence
import Mathlib.Data.List.Dedup
import Mathlib.Data.List.Perm.Basic
import Mathlib.Data.List.TakeWhile

/-! When the fence of a rescale is a consistent cut. A target counts the senders whose
fence it took, so a second lane of one sender is not waited for. -/
namespace Klein.RescaleFence
open Bool Dict List Option
variable {β : Type}

def beforeFence (edge : OutputEdge) (arrivals : List (InboxEnvelope β)) : List β :=
  ((arrivals.filter (fun envelope => envelope.edge = edge)).takeWhile (fun envelope => envelope.payload.isSome)).filterMap
    InboxEnvelope.payload

def processedFrom (edge : OutputEdge) (processed : List (OutputEdge × β)) : List β :=
  (processed.filter (fun item => item.1 = edge)).map Prod.snd

/-- A target that reports ready has processed, of each lane, what came before the fence and nothing else, and the old
inboxes hold no data when they are replaced. -/
structure Cut (state : State β) : Prop where
  processed : ∀ target task, state.targets.get? target = some task → task.ready = true → ∀ edge,
    (processedFrom edge task.processed).Perm (beforeFence edge task.arrivals)
  discarded : state.committed = true → ∀ envelope ∈ state.discarded, envelope.payload = none

def completes (task : TargetTask β) (envelope : InboxEnvelope β) : Prop :=
  envelope.payload = none ∧ envelope.edge.sender ∉ task.seenSenders ∧
    ∀ expected ∈ task.expectedSenders, expected ∈ task.seenSenders ++ [envelope.edge.sender]

def mayReach (target : Nat) : EdgeCommand β → Bool
  | .data _ retryRing _ => target ∈ retryRing
  | .fence _ => false

/-- The lane has no data ahead of its fence any more: none in the inbox, none that the edge still has to send. -/
def Drained (state : State β) (target : Nat) (task : TargetTask β) (lane : OutputEdge) : Prop :=
  (∀ envelope ∈ task.inbox, envelope.edge = lane → envelope.payload = none) ∧
    ∀ output ∈ state.edges.get? lane, ∀ command ∈ output.pending, mayReach target command = false

def EveryLane (state : State β) : Label β → Prop
  | .pump target position => ∀ task ∈ state.targets.get? target, ∀ envelope ∈ task.inbox[position]?,
    completes task envelope → ∀ other ∈ task.inputChannels,
      other = envelope.edge ∨ ⟨other,none⟩ ∈ task.taken ∨ Drained state target task other
  | _ => True

instance [DecidableEq β] (task : TargetTask β) (envelope : InboxEnvelope β) : Decidable (completes task envelope) :=
  inferInstanceAs (Decidable (_ ∧ _ ∧ _))

instance [DecidableEq β] (state : State β) (target : Nat) (task : TargetTask β) (lane : OutputEdge) :
    Decidable (Drained state target task lane) := inferInstanceAs (Decidable (_ ∧ _))

instance [DecidableEq β] (state : State β) : (label : Label β) → Decidable (EveryLane state label)
  | .pump target position => inferInstanceAs (Decidable (∀ task ∈ state.targets.get? target, ∀ envelope ∈ task.inbox[position]?,
    completes task envelope → ∀ other ∈ task.inputChannels,
      other = envelope.edge ∨ ⟨other,none⟩ ∈ task.taken ∨ Drained state target task other))
  | .collect .. => .isTrue trivial
  | .originate _ => .isTrue trivial
  | .deliver .. => .isTrue trivial
  | .deliverFence .. => .isTrue trivial
  | .process .. => .isTrue trivial
  | .commit => .isTrue trivial

section ordered

def onLane (edge : OutputEdge) (envelopes : List (InboxEnvelope β)) : List (InboxEnvelope β) :=
  envelopes.filter (fun envelope => envelope.edge = edge)

def item (envelope : InboxEnvelope β) : Option (OutputEdge × β) := envelope.payload.map (fun batch => (envelope.edge,batch))

structure Ordered (task : TargetTask β) : Prop where
  order : ∀ edge, onLane edge task.arrivals = onLane edge task.taken ++ onLane edge task.inbox
  shape : ∀ edge, ∃ data : List (InboxEnvelope β), (∀ envelope ∈ data, envelope.payload ≠ none) ∧
    (onLane edge task.arrivals = data ∨ onLane edge task.arrivals = data ++ [⟨edge,none⟩])
  known : ∀ envelope ∈ task.arrivals, envelope.edge ∈ task.inputChannels
  contents : (task.batched ++ task.processed).Perm (task.taken.filterMap item)
  expected : ∀ edge ∈ task.inputChannels, edge.sender ∈ task.expectedSenders
  seen : ∀ sender ∈ task.seenSenders, ∃ edge ∈ task.inputChannels, edge.sender = sender ∧ ⟨edge,none⟩ ∈ task.taken
  complete : task.ready = true → ∀ sender ∈ task.expectedSenders, sender ∈ task.seenSenders
  ready : task.ready = true → task.batched = [] ∧ ∀ envelope ∈ task.inbox, envelope.payload = none

theorem mem_onLane (edge : OutputEdge) (envelopes : List (InboxEnvelope β)) (envelope : InboxEnvelope β) :
    envelope ∈ onLane edge envelopes ↔ envelope ∈ envelopes ∧ envelope.edge = edge := by simp [onLane]

theorem onLane_append (edge : OutputEdge) (first second : List (InboxEnvelope β)) :
    onLane edge (first ++ second) = onLane edge first ++ onLane edge second := filter_append ..

theorem onLane_same (envelope : InboxEnvelope β) : onLane envelope.edge [envelope] = [envelope] := by simp [onLane]

theorem onLane_other (edge : OutputEdge) (envelope : InboxEnvelope β) (different : envelope.edge ≠ edge) :
    onLane edge [envelope] = [] := by simp [onLane,different]

theorem items_onLane (edge : OutputEdge) (envelopes : List (InboxEnvelope β)) :
    ((envelopes.filterMap item).filter (fun item => item.1 = edge)).map Prod.snd =
      (onLane edge envelopes).filterMap InboxEnvelope.payload := by
  induction envelopes with
  | nil => rfl
  | cons envelope rest ih =>
    obtain ⟨other,payload⟩ := envelope
    cases payload with
    | none =>
      rw [filterMap_cons_none rfl]
      by_cases same : other = edge <;> simpa [onLane,same] using ih
    | some batch =>
      rw [show (InboxEnvelope.mk other (some batch)::rest).filterMap item = (other,batch)::rest.filterMap item from rfl]
      by_cases same : other = edge <;> simpa [onLane,same] using ih

namespace Ordered

theorem prepared (inputChannels : List OutputEdge) : Ordered (TargetTask.prepared inputChannels : TargetTask β) := by
  refine ⟨fun _ => rfl,fun _ => ⟨[],by simp,.inl rfl⟩,by simp [TargetTask.prepared],List.Perm.refl _,?_,
    by simp [TargetTask.prepared],by simp [TargetTask.prepared],by simp [TargetTask.prepared]⟩
  intro edge inside
  exact mem_dedup.mpr (List.mem_map.mpr ⟨edge,inside,rfl⟩)

variable (task : TargetTask β)

section
variable (ordered : Ordered task)
include ordered

theorem admitted (envelope : InboxEnvelope β) (lane : envelope.edge ∈ task.inputChannels)
    (open_ : ⟨envelope.edge,none⟩ ∉ task.arrivals) (late : task.ready = true → envelope.payload = none) :
    Ordered (task.admitted envelope) := by
  refine { ordered with order := ?_, shape := ?_, known := ?_, ready := ?_ }
  · intro edge
    simp only [TargetTask.admitted,onLane_append,ordered.order edge,append_assoc]
  · intro edge
    obtain ⟨data,batches,shape⟩ := ordered.shape edge
    simp only [TargetTask.admitted,onLane_append]
    by_cases same : envelope.edge = edge
    · subst same
      have unfenced : onLane envelope.edge task.arrivals = data := by
        refine shape.resolve_right (fun fenced => ?_)
        have last : (⟨envelope.edge,none⟩ : InboxEnvelope β) ∈ onLane envelope.edge task.arrivals := by simp [fenced]
        exact open_ ((mem_onLane _ _ _).mp last).1
      rw [unfenced,onLane_same]
      cases payload : envelope.payload with
      | none =>
        refine ⟨data,batches,.inr ?_⟩
        cases envelope
        cases payload
        rfl
      | some batch =>
        refine ⟨data ++ [envelope],fun other inside => ?_,.inl rfl⟩
        rcases mem_append.mp inside with old | new
        · exact batches other old
        · rw [mem_singleton.mp new,payload]
          exact some_ne_none batch
    · rw [onLane_other edge envelope same,append_nil]
      exact ⟨data,batches,shape⟩
  · intro other inside
    rcases mem_append.mp inside with old | new
    · exact ordered.known other old
    · rw [mem_singleton.mp new]
      exact lane
  · intro ready
    refine ⟨(ordered.ready ready).1,fun other inside => ?_⟩
    rcases mem_append.mp inside with old | new
    · exact (ordered.ready ready).2 other old
    · rw [mem_singleton.mp new]
      exact late ready

theorem fence_last (edge : OutputEdge) (taken : ⟨edge,none⟩ ∈ task.taken) :
    onLane edge task.inbox = [] := by
  have inside : (⟨edge,none⟩ : InboxEnvelope β) ∈ onLane edge task.taken := (mem_onLane _ _ _).mpr ⟨taken,rfl⟩
  obtain ⟨data,batches,shape⟩ := ordered.shape edge
  have order := ordered.order edge
  rcases shape with open_ | fenced
  · have listed : (⟨edge,none⟩ : InboxEnvelope β) ∈ data := by
      rw [← open_,order]
      exact mem_append_left _ inside
    exact absurd rfl (batches _ listed)
  · rw [fenced] at order
    rcases eq_nil_or_concat (onLane edge task.inbox) with none | ⟨init,last,held⟩
    · exact none
    · rw [held,concat_eq_append,← append_assoc] at order
      have start := (append_inj' order rfl).1
      have listed : (⟨edge,none⟩ : InboxEnvelope β) ∈ data := by
        rw [start]
        exact mem_append_left _ inside
      exact absurd rfl (batches _ listed)

theorem arrived (envelope : InboxEnvelope β) (held : envelope ∈ task.inbox ∨ envelope ∈ task.taken) :
    envelope ∈ task.arrivals := by
  have listed : envelope ∈ onLane envelope.edge task.arrivals := by
    rw [ordered.order,mem_append,mem_onLane,mem_onLane]
    exact held.symm.imp (fun inside => ⟨inside,rfl⟩) (fun inside => ⟨inside,rfl⟩)
  exact ((mem_onLane _ _ _).mp listed).1

theorem take (position : Nat) (envelope : InboxEnvelope β)
    (found : task.inbox[position]? = some envelope)
    (first : ∀ earlier ∈ task.inbox.take position, earlier.edge ≠ envelope.edge) (edge : OutputEdge) :
    onLane edge task.arrivals = onLane edge (task.taken ++ [envelope]) ++ onLane edge (task.inbox.eraseIdx position) := by
  obtain ⟨bound,here⟩ := List.getElem?_eq_some_iff.mp found
  have split : task.inbox = task.inbox.take position ++ envelope::task.inbox.drop (position + 1) := by
    rw [← here,getElem_cons_drop,take_append_drop]
  have order := ordered.order edge
  rw [split] at order
  rw [order,eraseIdx_eq_take_drop_succ]
  by_cases same : envelope.edge = edge
  · subst same
    have none : onLane envelope.edge (task.inbox.take position) = [] :=
      filter_eq_nil_iff.mpr (fun earlier inside => by simpa using first earlier inside)
    rw [onLane_append,onLane_append,onLane_append,none,onLane_same,append_assoc]
    simp [onLane]
  · rw [onLane_append,onLane_append,onLane_append,onLane_other edge envelope same,append_nil]
    simp [onLane,same]

theorem process (position : Nat) (next : TargetTask β)
    (taken : task.process position = some next) : Ordered next := by
  obtain ⟨batch,found,rfl⟩ := map_eq_some_iff.mp taken
  refine { ordered with contents := ?_, ready := ?_ }
  · have moved : task.batched.Perm (batch::task.batched.eraseIdx position) := by
      obtain ⟨bound,here⟩ := List.getElem?_eq_some_iff.mp found
      rw [← here]
      exact (getElem_cons_eraseIdx_perm bound).symm
    refine List.Perm.trans ?_ ordered.contents
    change (task.batched.eraseIdx position ++ (task.processed ++ [batch])).Perm (task.batched ++ task.processed)
    refine List.Perm.trans ?_ (moved.symm.append_right task.processed)
    rw [← append_assoc]
    exact perm_append_singleton batch _
  · intro ready
    rw [(ordered.ready ready).1] at found
    cases found

theorem takeData (position : Nat) (edge : OutputEdge) (batch : β)
    (found : task.inbox[position]? = some ⟨edge,some batch⟩)
    (first : ∀ earlier ∈ task.inbox.take position, earlier.edge ≠ edge) (busy : task.ready = false) :
    Ordered {task with
      inbox := task.inbox.eraseIdx position
      taken := task.taken ++ [⟨edge,some batch⟩]
      batched := task.batched ++ [(edge,batch)]} := by
  have early : ¬ task.ready = true := eq_false_iff.mp busy
  refine { ordered with
    order := ordered.take task position _ found first, contents := ?_, seen := ?_, ready := fun ready => absurd ready early }
  · change (task.batched ++ [(edge,batch)] ++ task.processed).Perm ((task.taken ++ [InboxEnvelope.mk edge (some batch)]).filterMap item)
    rw [filterMap_append]
    refine List.Perm.trans ?_ (ordered.contents.append_right [(edge,batch)])
    rw [append_assoc,append_assoc]
    exact perm_append_comm.append_left task.batched
  · intro sender inside
    obtain ⟨other,lane,same,fence⟩ := ordered.seen sender inside
    exact ⟨other,lane,same,mem_append_left _ fence⟩

theorem takeFence (position : Nat) (edge : OutputEdge)
    (found : task.inbox[position]? = some ⟨edge,none⟩)
    (first : ∀ earlier ∈ task.inbox.take position, earlier.edge ≠ edge) (busy : task.ready = false) :
    Ordered (TargetTask.drainRescaleBoundary
      {task with inbox := task.inbox.eraseIdx position, taken := task.taken ++ [⟨edge,none⟩]}) := by
  have early : ¬ task.ready = true := eq_false_iff.mp busy
  refine { ordered with
    order := ordered.take task position _ found first, contents := ?_, seen := ?_, ready := fun ready => absurd ready early }
  · change (task.processed ++ task.batched).Perm ((task.taken ++ [InboxEnvelope.mk edge none]).filterMap item)
    rw [filterMap_append]
    change (task.processed ++ task.batched).Perm (task.taken.filterMap item ++ [])
    rw [append_nil]
    exact perm_append_comm.trans ordered.contents
  · intro sender inside
    obtain ⟨other,lane,same,fence⟩ := ordered.seen sender inside
    exact ⟨other,lane,same,mem_append_left _ fence⟩

theorem receive (edge : OutputEdge) (next : TargetTask β) (lane : edge ∈ task.inputChannels)
    (taken : ⟨edge,none⟩ ∈ task.taken) (drained : task.batched = [])
    (received : task.receiveRescaleBarrier edge.sender = .ok next)
    (everyLane : edge.sender ∉ task.seenSenders →
      (∀ expected ∈ task.expectedSenders, expected ∈ task.seenSenders ++ [edge.sender]) →
      ∀ envelope ∈ task.inbox, envelope.payload = none) (busy : task.ready = false) : Ordered next := by
  unfold TargetTask.receiveRescaleBarrier at received
  split at received
  next => cases received
  next =>
    split at received
    next =>
      cases received
      exact ordered
    next unseen =>
      have seen : ∀ sender ∈ task.seenSenders ++ [edge.sender], ∃ other ∈ task.inputChannels, other.sender = sender ∧
          ⟨other,none⟩ ∈ task.taken := by
        intro sender inside
        rcases mem_append.mp inside with old | new
        · exact ordered.seen sender old
        · exact ⟨edge,lane,(mem_singleton.mp new).symm,taken⟩
      dsimp only at received
      split at received
      next complete =>
        cases received
        exact { ordered with
          seen := seen, complete := fun _ => complete, ready := fun _ => ⟨drained,everyLane unseen complete⟩ }
      next =>
        cases received
        have early : ¬ task.ready = true := eq_false_iff.mp busy
        exact { ordered with seen := seen, complete := fun ready => absurd ready early }

theorem runOnce (position : Nat) (next : TargetTask β) (taken : task.runOnce position = some next)
    (everyLane : ∀ envelope, task.inbox[position]? = some envelope → completes task envelope →
      ∀ other ∈ task.inputChannels, other = envelope.edge ∨ ⟨other,none⟩ ∈ task.taken ∨
        ∀ held ∈ task.inbox, held.edge = other → held.payload = none) : Ordered next := by
  obtain ⟨envelope,found,taken⟩ := bind_eq_some_iff.mp taken
  obtain ⟨⟨first,busy⟩,taken⟩ := ite_none_right_eq_some.mp taken
  obtain ⟨edge,payload⟩ := envelope
  cases payload with
  | some batch =>
    cases taken
    exact ordered.takeData task position edge batch found first busy
  | none =>
    have drained := ordered.takeFence task position edge found first busy
    have lane := ordered.known _ (ordered.arrived task _ (.inl (mem_of_getElem? found)))
    dsimp only at taken
    cases received : (TargetTask.drainRescaleBoundary
        {task with inbox := task.inbox.eraseIdx position, taken := task.taken ++ [⟨edge,none⟩]}).receiveRescaleBarrier
        edge.sender with
    | error text =>
      rw [received] at taken
      cases taken
    | ok later =>
      rw [received] at taken
      cases taken
      have fenced : (⟨edge,none⟩ : InboxEnvelope β) ∈ task.taken ++ [⟨edge,none⟩] :=
        mem_append_right _ (mem_singleton.mpr rfl)
      refine drained.receive _ edge next lane fenced rfl received ?_ busy
      intro unseen complete held inside
      have before : held ∈ task.inbox := mem_of_mem_eraseIdx inside
      have nothing : ∀ other, ⟨other,none⟩ ∈ task.taken ++ [InboxEnvelope.mk edge none] → held.edge = other →
          held.payload = none := by
        intro other fence same
        have last := drained.fence_last _ other fence
        have listed : held ∈ onLane other (task.inbox.eraseIdx position) := (mem_onLane _ _ _).mpr ⟨inside,same⟩
        rw [show onLane other (task.inbox.eraseIdx position) = [] from last] at listed
        cases listed
      have channel := ordered.known held (ordered.arrived task held (.inl before))
      rcases everyLane _ found ⟨rfl,unseen,complete⟩ held.edge channel with same | fence | empty
      · exact nothing edge fenced same
      · exact nothing held.edge (mem_append_left _ fence) rfl
      · exact empty held before rfl

end

end Ordered
end ordered

section consistent

structure Sends (state : State β) (edge : OutputEdge) (output : EdgeOutput β) : Prop where
  rings : ∀ target retryRing batch, EdgeCommand.data target retryRing batch ∈ output.pending →
    ∀ other ∈ retryRing, other ∈ output.controlTargets
  unfenced : edge.sender ∉ state.originated → ∀ remaining, EdgeCommand.fence remaining ∉ output.pending
  fenced : edge.sender ∈ state.originated → output.pending = [] ∨ ∃ data remaining,
    output.pending = data ++ [.fence remaining] ∧ (∀ other, EdgeCommand.fence other ∉ data) ∧
    ∀ target ∈ remaining, target ∈ output.controlTargets

def Closed (output : EdgeOutput β) (target : Nat) : Prop :=
  output.pending = [] ∨ ∃ remaining, output.pending = [.fence remaining] ∧ target ∉ remaining

structure Consistent (state : State β) : Prop where
  lanes : ∀ edge output target task, state.edges.get? edge = some output → state.targets.get? target = some task →
    target ∈ output.controlTargets → edge ∈ task.inputChannels
  sends : ∀ edge output, state.edges.get? edge = some output → Sends state edge output
  ordered : ∀ target task, state.targets.get? target = some task → Ordered task
  originated : ∀ target task, state.targets.get? target = some task → ∀ edge, ⟨edge,none⟩ ∈ task.arrivals →
    edge.sender ∈ state.originated
  closed : ∀ edge output target task, state.edges.get? edge = some output → state.targets.get? target = some task →
    ⟨edge,none⟩ ∈ task.arrivals → Closed output target
  settled : ∀ target task, state.targets.get? target = some task → task.ready = true →
    ∀ edge output, state.edges.get? edge = some output → ∀ command ∈ output.pending, mayReach target command = false
  discarded : state.committed = true → ∀ envelope ∈ state.discarded, envelope.payload = none

namespace Consistent

theorem start (topology : Dict OutputEdge (List Nat)) (parallelism : Nat) (initial : State β)
    (started : start topology parallelism = .ok initial) : Consistent initial := by
  unfold RescaleFence.start at started
  split at started
  next => cases started
  next =>
    cases started
    have output : ∀ edge output, (topology.mapValues (fun _ controlTargets => (⟨controlTargets,[]⟩ : EdgeOutput β))).get? edge =
        some output → topology.get? edge = some output.controlTargets ∧ output.pending = [] := by
      intro edge output found
      rw [get?_mapValues] at found
      obtain ⟨controlTargets,listed,rfl⟩ := map_eq_some_iff.mp found
      exact ⟨listed,rfl⟩
    have prepared : ∀ target task, (Dict.ofList ((List.range parallelism).map (fun target =>
        (target,(TargetTask.prepared (inputChannels topology target) : TargetTask β))))).get? target = some task →
        task = TargetTask.prepared (inputChannels topology target) := by
      intro target task found
      obtain ⟨index,_,same⟩ := List.mem_map.mp (get?_ofList _ _ _ found)
      cases same
      rfl
    refine ⟨?_,?_,?_,?_,?_,?_,by simp⟩
    · intro edge known target task found listed control
      rw [prepared target task listed]
      obtain ⟨entry,_⟩ := output edge known found
      refine (Dict.mem_keys _ _).mpr ⟨known.controlTargets,?_⟩
      rw [Dict.get?_filter,entry]
      simp [control]
    · intro edge known found
      obtain ⟨_,nothing⟩ := output edge known found
      exact ⟨by simp [nothing],by simp [nothing],fun _ => .inl nothing⟩
    · intro target task listed
      rw [prepared target task listed]
      exact Ordered.prepared _
    · intro target task listed edge arrived
      rw [prepared target task listed] at arrived
      cases arrived
    · intro edge known target task _ listed arrived
      rw [prepared target task listed] at arrived
      cases arrived
    · intro target task listed ready
      rw [prepared target task listed] at ready
      cases ready

variable (state : State β)

theorem fenced (consistent : Consistent state) (target : Nat) (task : TargetTask β)
    (present : state.targets.get? target = some task) (ready : task.ready = true) (edge : OutputEdge)
    (lane : edge ∈ task.inputChannels) : edge.sender ∈ state.originated := by
  have ordered := consistent.ordered target task present
  obtain ⟨other,_,same,fence⟩ := ordered.seen edge.sender (ordered.complete ready edge.sender (ordered.expected edge lane))
  rw [← same]
  exact consistent.originated target task present other (ordered.arrived task _ (.inr fence))

theorem collect (consistent : Consistent state) (edge : OutputEdge) (target : Nat) (retryRing : List Nat) (batch : β)
    (next : State β) (taken : collect state edge target retryRing batch = some next) : Consistent next := by
  obtain ⟨output,found,taken⟩ := bind_eq_some_iff.mp taken
  obtain ⟨⟨unfenced,_,ring⟩,taken⟩ := ite_none_right_eq_some.mp taken
  cases taken
  refine { consistent with lanes := ?_, sends := ?_, closed := ?_, settled := ?_ }
  · intro other known index task listed present control
    rw [Dict.get?_set] at listed
    split at listed
    next same =>
      cases listed
      exact consistent.lanes other output index task (same ▸ found) present control
    next => exact consistent.lanes other known index task listed present control
  · intro other known listed
    rw [Dict.get?_set] at listed
    split at listed
    next same =>
      cases listed
      subst same
      have sends := consistent.sends other output found
      refine ⟨?_,?_,fun fenced => absurd fenced unfenced⟩
      · intro initial rings payload inside
        rcases mem_append.mp inside with old | new
        · exact sends.rings initial rings payload old
        · cases mem_singleton.mp new
          exact ring
      · intro _ remaining inside
        rcases mem_append.mp inside with old | new
        · exact sends.unfenced unfenced remaining old
        · cases mem_singleton.mp new
    next =>
      have sends := consistent.sends other known listed
      exact {sends with}
  · intro other known index task listed present arrived
    rw [Dict.get?_set] at listed
    split at listed
    next same =>
      subst same
      exact absurd (consistent.originated index task present other arrived) unfenced
    next => exact consistent.closed other known index task listed present arrived
  · intro index task present ready other known listed command inside
    rw [Dict.get?_set] at listed
    split at listed
    next same =>
      cases listed
      subst same
      rcases mem_append.mp inside with old | new
      · exact consistent.settled index task present ready other output found command old
      · cases mem_singleton.mp new
        refine decide_eq_false (fun member => ?_)
        have lane := consistent.lanes other output index task found present (ring index member)
        exact unfenced (consistent.fenced state index task present ready other lane)
    next => exact consistent.settled index task present ready other known listed command inside

theorem originate (consistent : Consistent state) (sender : ExecutionVertexId) (next : State β)
    (taken : originateRescaleBarrier state sender = some next) : Consistent next := by
  obtain ⟨⟨fresh,_⟩,taken⟩ := ite_none_right_eq_some.mp taken
  cases taken
  have before : ∀ edge output, (collectToEdges state.edges sender).get? edge = some output →
      ∃ old, state.edges.get? edge = some old ∧ output.controlTargets = old.controlTargets ∧
        (edge.sender = sender → output.pending = old.pending ++ [.fence old.controlTargets]) ∧
        (edge.sender ≠ sender → output = old) := by
    intro edge output found
    unfold collectToEdges at found
    rw [get?_mapValues] at found
    obtain ⟨old,listed,rfl⟩ := map_eq_some_iff.mp found
    by_cases same : edge.sender = sender
    · exact ⟨old,listed,by simp [same],by simp [same],by simp [same]⟩
    · exact ⟨old,listed,by simp [same],by simp [same],by simp [same]⟩
  refine { consistent with lanes := ?_, sends := ?_, originated := ?_, closed := ?_, settled := ?_ }
  · intro edge output target task found present control
    obtain ⟨old,listed,controls,_⟩ := before edge output found
    exact consistent.lanes edge old target task listed present (controls ▸ control)
  · intro edge output found
    obtain ⟨old,listed,controls,appended,kept⟩ := before edge output found
    have sends := consistent.sends edge old listed
    by_cases same : edge.sender = sender
    · have open_ := sends.unfenced (same ▸ fresh)
      refine ⟨?_,?_,?_⟩
      · intro target retryRing batch inside other member
        rw [controls]
        rw [appended same] at inside
        rcases mem_append.mp inside with earlier | new
        · exact sends.rings target retryRing batch earlier other member
        · cases mem_singleton.mp new
      · intro absent
        exact absurd (mem_append_right _ (mem_singleton.mpr same)) absent
      · exact fun _ => .inr ⟨old.pending,old.controlTargets,appended same,open_,fun target inside => controls ▸ inside⟩
    · have equal := kept same
      subst equal
      have member : edge.sender ∈ state.originated ++ [sender] ↔ edge.sender ∈ state.originated := by simp [same]
      exact ⟨sends.rings,fun absent => sends.unfenced (fun inside => absent (member.mpr inside)),
        fun inside => sends.fenced (member.mp inside)⟩
  · intro target task present edge arrived
    exact mem_append_left _ (consistent.originated target task present edge arrived)
  · intro edge output target task found present arrived
    obtain ⟨old,listed,_,_,kept⟩ := before edge output found
    have different : edge.sender ≠ sender := by
      rintro rfl
      exact fresh (consistent.originated target task present edge arrived)
    rw [kept different]
    exact consistent.closed edge old target task listed present arrived
  · intro target task present ready edge output found command inside
    obtain ⟨old,listed,_,appended,kept⟩ := before edge output found
    by_cases same : edge.sender = sender
    · rw [appended same] at inside
      rcases mem_append.mp inside with earlier | new
      · exact consistent.settled target task present ready edge old listed command earlier
      · rw [mem_singleton.mp new]
        rfl
    · rw [kept same] at inside
      exact consistent.settled target task present ready edge old listed command inside

theorem unclosed (consistent : Consistent state) (edge : OutputEdge) (output : EdgeOutput β) (target : Nat)
    (task : TargetTask β) (found : state.edges.get? edge = some output) (present : state.targets.get? target = some task)
    (waiting : ∀ remaining, output.pending = [.fence remaining] → target ∈ remaining) (some_ : output.pending ≠ []) :
    ⟨edge,none⟩ ∉ task.arrivals := by
  intro arrived
  rcases consistent.closed edge output target task found present arrived with none | ⟨remaining,pending,gone⟩
  · exact some_ none
  · exact gone (waiting remaining pending)

theorem admitted (consistent : Consistent state) (edge : OutputEdge) (output : EdgeOutput β) (target : Nat)
    (task : TargetTask β) (found : state.edges.get? edge = some output) (present : state.targets.get? target = some task)
    (payload : Option β) (pending : List (EdgeCommand β)) (control : target ∈ output.controlTargets)
    (open_ : ⟨edge,none⟩ ∉ task.arrivals) (sends : Sends state edge {output with pending := pending})
    (fenced : payload = none → edge.sender ∈ state.originated) (late : task.ready = true → payload = none)
    (closes : payload = none → Closed {output with pending := pending} target)
    (others : ∀ other, Closed output other → Closed {output with pending := pending} other)
    (fewer : ∀ command ∈ pending, command ∈ output.pending ∨ ∀ other, mayReach other command = false) :
    Consistent {state with
      edges := state.edges.set edge {output with pending := pending}
      targets := state.targets.set target (task.admitted ⟨edge,payload⟩)} := by
  have oldEdge : ∀ other known, (state.edges.set edge {output with pending := pending}).get? other = some known →
      (other = edge ∧ known = {output with pending := pending}) ∨ (other ≠ edge ∧ state.edges.get? other = some known) := by
    intro other known listed
    rw [Dict.get?_set] at listed
    split at listed
    next same => exact .inl ⟨same,(some.inj listed).symm⟩
    next different => exact .inr ⟨different,listed⟩
  have oldTask : ∀ index known, (state.targets.set target (task.admitted ⟨edge,payload⟩)).get? index = some known →
      (index = target ∧ known = task.admitted ⟨edge,payload⟩) ∨ (index ≠ target ∧ state.targets.get? index = some known) := by
    intro index known listed
    rw [Dict.get?_set] at listed
    split at listed
    next same => exact .inl ⟨same,(some.inj listed).symm⟩
    next different => exact .inr ⟨different,listed⟩
  refine { consistent with lanes := ?_, sends := ?_, ordered := ?_, originated := ?_, closed := ?_, settled := ?_ }
  · intro other known index held listed stored within
    rcases oldEdge other known listed with ⟨rfl,rfl⟩ | ⟨_,kept⟩ <;> rcases oldTask index held stored with ⟨rfl,rfl⟩ | ⟨_,old⟩
    · exact consistent.lanes other output index task found present within
    · exact consistent.lanes other output index held found old within
    · exact consistent.lanes other known index task kept present within
    · exact consistent.lanes other known index held kept old within
  · intro other known listed
    rcases oldEdge other known listed with ⟨rfl,rfl⟩ | ⟨_,listed⟩
    · exact {sends with}
    · have kept := consistent.sends other known listed
      exact {kept with}
  · intro index held stored
    rcases oldTask index held stored with ⟨rfl,rfl⟩ | ⟨_,stored⟩
    · exact (consistent.ordered index task present).admitted task ⟨edge,payload⟩
        (consistent.lanes edge output index task found present control) open_ late
    · exact consistent.ordered index held stored
  · intro index held stored other arrived
    rcases oldTask index held stored with ⟨rfl,rfl⟩ | ⟨_,before⟩
    · rcases mem_append.mp arrived with old | new
      · exact consistent.originated index task present other old
      · obtain ⟨rfl,fence⟩ := (InboxEnvelope.mk.injEq _ _ _ _).mp (mem_singleton.mp new)
        exact fenced fence.symm
    · exact consistent.originated index held before other arrived
  · intro other known index held listed stored arrived
    have earlier : ∀ old, state.targets.get? index = some old → ⟨other,none⟩ ∈ old.arrivals →
        Closed known index := by
      intro old before fence
      rcases oldEdge other known listed with ⟨rfl,rfl⟩ | ⟨_,kept⟩
      · exact others index (consistent.closed other output index old found before fence)
      · exact consistent.closed other known index old kept before fence
    rcases oldTask index held stored with ⟨rfl,rfl⟩ | ⟨_,before⟩
    · rcases mem_append.mp arrived with old | new
      · exact earlier task present old
      · obtain ⟨rfl,fence⟩ := (InboxEnvelope.mk.injEq _ _ _ _).mp (mem_singleton.mp new)
        rcases oldEdge other known listed with ⟨_,rfl⟩ | ⟨different,_⟩
        · exact closes fence.symm
        · exact absurd rfl different
    · exact earlier held before arrived
  · intro index held stored ready other known listed command inside
    have earlier : ∀ old, state.targets.get? index = some old → old.ready = true → mayReach index command = false := by
      intro old before done
      rcases oldEdge other known listed with ⟨rfl,rfl⟩ | ⟨_,kept⟩
      · rcases fewer command inside with waiting | fence
        · exact consistent.settled index old before done other output found command waiting
        · exact fence index
      · exact consistent.settled index old before done other known kept command inside
    rcases oldTask index held stored with ⟨rfl,rfl⟩ | ⟨_,before⟩
    · exact earlier task present ready
    · exact earlier held before ready

theorem deliver (consistent : Consistent state) (edge : OutputEdge) (position target : Nat) (next : State β)
    (taken : deliver state edge position target = some next) : Consistent next := by
  obtain ⟨output,found,taken⟩ := bind_eq_some_iff.mp taken
  obtain ⟨task,present,taken⟩ := bind_eq_some_iff.mp taken
  split at taken
  next initial retryRing batch command =>
    obtain ⟨⟨_,member,_⟩,taken⟩ := ite_none_right_eq_some.mp taken
    cases taken
    have inside := mem_of_getElem? command
    have sends := consistent.sends edge output found
    have noFence : ∀ remaining, output.pending ≠ [.fence remaining] := by
      intro remaining pending
      rw [pending] at inside
      cases mem_singleton.mp inside
    have nonempty : output.pending ≠ [] := ne_nil_of_mem inside
    refine consistent.admitted state edge output target task found present (some batch) _
      (sends.rings initial retryRing batch inside target member)
      (consistent.unclosed state edge output target task found present (fun remaining pending => absurd pending (noFence remaining))
        nonempty) ?_ (fun none => nomatch none) ?_ (fun none => nomatch none) ?_
      (fun command listed => .inl (mem_of_mem_eraseIdx listed))
    · refine ⟨fun index ring payload listed => sends.rings index ring payload (mem_of_mem_eraseIdx listed),
        fun absent remaining listed => sends.unfenced absent remaining (mem_of_mem_eraseIdx listed),fun originated => ?_⟩
      rcases sends.fenced originated with none | ⟨data,remaining,pending,batches,controls⟩
      · exact absurd none nonempty
      · rw [pending] at command
        have early : position < data.length := by
          obtain ⟨bound,here⟩ := List.getElem?_eq_some_iff.mp command
          rw [length_append,length_singleton] at bound
          by_contra late
          rw [getElem_append_right (by omega)] at here
          simp at here
        refine .inr ⟨data.eraseIdx position,remaining,?_,fun other listed => batches other (mem_of_mem_eraseIdx listed),
          controls⟩
        change output.pending.eraseIdx position = _
        rw [pending,eraseIdx_append_of_lt_length early]
    · intro ready
      have unreached := consistent.settled target task present ready edge output found _ inside
      exact absurd member (of_decide_eq_false unreached)
    · rintro other (none | ⟨remaining,pending,_⟩)
      · exact absurd none nonempty
      · exact absurd pending (noFence remaining)
  next => cases taken

theorem deliverFence (consistent : Consistent state) (edge : OutputEdge) (target : Nat) (next : State β)
    (taken : deliverFence state edge target = some next) : Consistent next := by
  obtain ⟨output,found,taken⟩ := bind_eq_some_iff.mp taken
  obtain ⟨task,present,taken⟩ := bind_eq_some_iff.mp taken
  split at taken
  next remaining rest pending =>
    obtain ⟨⟨member,_⟩,taken⟩ := ite_none_right_eq_some.mp taken
    cases taken
    have sends := consistent.sends edge output found
    have originated : edge.sender ∈ state.originated := by
      by_contra absent
      exact sends.unfenced absent remaining (by simp [pending])
    have alone : rest = [] ∧ ∀ other ∈ remaining, other ∈ output.controlTargets := by
      rcases sends.fenced originated with none | ⟨data,others,split,batches,controls⟩
      · rw [none] at pending
        cases pending
      · rw [split] at pending
        cases data with
        | nil =>
          cases pending
          exact ⟨rfl,controls⟩
        | cons first more =>
          cases pending
          exact absurd mem_cons_self (batches remaining)
    obtain ⟨rfl,controls⟩ := alone
    have closed : ∀ other, other = target ∨ other ∉ remaining → Closed
        ({output with pending := if remaining.filter (· ≠ target) = [] then [] else [.fence (remaining.filter (· ≠ target))]} :
          EdgeOutput β) other := by
      intro other gone
      unfold Closed
      dsimp only
      split
      next => exact .inl rfl
      next =>
        refine .inr ⟨_,rfl,fun inside => ?_⟩
        have listed := mem_filter.mp inside
        rcases gone with same | absent
        · simp [same] at listed
        · exact absent listed.1
    refine consistent.admitted state edge output target task found present none _ (controls target member)
      (consistent.unclosed state edge output target task found present ?_ (by simp [pending])) ?_ (fun _ => originated)
      (fun _ => rfl) (fun _ => closed target (.inl rfl)) ?_ ?_
    · intro others same
      rw [pending] at same
      cases same
      exact member
    · refine ⟨?_,fun absent => absurd originated absent,fun _ => ?_⟩
      · intro index ring batch listed
        dsimp only at listed
        split at listed <;> simp at listed
      · dsimp only
        split
        next => exact .inl rfl
        next => exact .inr ⟨[],_,rfl,by simp,fun other inside => controls other (mem_filter.mp inside).1⟩
    · rintro other (none | ⟨others,same,gone⟩)
      · rw [none] at pending
        cases pending
      · rw [pending] at same
        cases same
        exact closed other (.inr gone)
    · intro command listed
      split at listed
      next => cases listed
      next =>
        rw [mem_singleton.mp listed]
        exact .inr (fun _ => rfl)
  next => cases taken

theorem proceeds (consistent : Consistent state) (target : Nat) (task next : TargetTask β)
    (present : state.targets.get? target = some task) (ordered : Ordered next) (channels : next.inputChannels = task.inputChannels)
    (arrivals : next.arrivals = task.arrivals)
    (settled : next.ready = true → ∀ edge output, state.edges.get? edge = some output →
      ∀ command ∈ output.pending, mayReach target command = false) :
    Consistent {state with targets := state.targets.set target next} := by
  have oldTask : ∀ index known, (state.targets.set target next).get? index = some known →
      ∃ old, state.targets.get? index = some old ∧ known.inputChannels = old.inputChannels ∧ known.arrivals = old.arrivals := by
    intro index known listed
    rw [Dict.get?_set] at listed
    split at listed
    next same =>
      cases listed
      exact ⟨task,same ▸ present,channels,arrivals⟩
    next => exact ⟨known,listed,rfl,rfl⟩
  refine { consistent with lanes := ?_, sends := ?_, ordered := ?_, originated := ?_, closed := ?_, settled := ?_ }
  · intro edge output index known found listed control
    obtain ⟨old,stored,lanes,_⟩ := oldTask index known listed
    rw [lanes]
    exact consistent.lanes edge output index old found stored control
  · intro edge output found
    have sends := consistent.sends edge output found
    exact {sends with}
  · intro index known listed
    rw [Dict.get?_set] at listed
    split at listed
    next =>
      cases listed
      exact ordered
    next => exact consistent.ordered index known listed
  · intro index known listed edge arrived
    obtain ⟨old,stored,_,same⟩ := oldTask index known listed
    exact consistent.originated index old stored edge (same ▸ arrived)
  · intro edge output index known found listed arrived
    obtain ⟨old,stored,_,same⟩ := oldTask index known listed
    exact consistent.closed edge output index old found stored (same ▸ arrived)
  · intro index known listed ready
    rw [Dict.get?_set] at listed
    split at listed
    next same =>
      cases listed
      subst same
      exact settled ready
    next => exact consistent.settled index known listed ready

theorem receive_frame (task next : TargetTask β) (sender : ExecutionVertexId)
    (received : task.receiveRescaleBarrier sender = .ok next) :
    next.inputChannels = task.inputChannels ∧ next.arrivals = task.arrivals := by
  unfold TargetTask.receiveRescaleBarrier at received
  split at received
  next => cases received
  next =>
    split at received
    next =>
      cases received
      exact ⟨rfl,rfl⟩
    next =>
      dsimp only at received
      split at received <;> cases received <;> exact ⟨rfl,rfl⟩

theorem runOnce_frame (task next : TargetTask β) (position : Nat) (taken : task.runOnce position = some next) :
    next.inputChannels = task.inputChannels ∧ next.arrivals = task.arrivals := by
  obtain ⟨envelope,_,taken⟩ := bind_eq_some_iff.mp taken
  obtain ⟨_,taken⟩ := ite_none_right_eq_some.mp taken
  dsimp only at taken
  split at taken
  next =>
    cases taken
    exact ⟨rfl,rfl⟩
  next =>
    cases received : (TargetTask.drainRescaleBoundary
        {task with inbox := task.inbox.eraseIdx position, taken := task.taken ++ [envelope]}).receiveRescaleBarrier
        envelope.edge.sender with
    | error text =>
      rw [received] at taken
      cases taken
    | ok later =>
      rw [received] at taken
      cases taken
      obtain ⟨channels,arrivals⟩ := receive_frame _ next _ received
      exact ⟨channels,arrivals⟩

theorem runOnce_ready (task next : TargetTask β) (position : Nat) (taken : task.runOnce position = some next)
    (ready : next.ready = true) : ∃ envelope, task.inbox[position]? = some envelope ∧ completes task envelope := by
  obtain ⟨envelope,found,taken⟩ := bind_eq_some_iff.mp taken
  obtain ⟨⟨_,busy⟩,taken⟩ := ite_none_right_eq_some.mp taken
  refine ⟨envelope,found,?_⟩
  obtain ⟨edge,payload⟩ := envelope
  cases payload with
  | some batch =>
    cases taken
    exact absurd ready (eq_false_iff.mp busy)
  | none =>
    dsimp only at taken
    cases received : (TargetTask.drainRescaleBoundary
        {task with inbox := task.inbox.eraseIdx position, taken := task.taken ++ [⟨edge,none⟩]}).receiveRescaleBarrier
        edge.sender with
    | error text =>
      rw [received] at taken
      cases taken
    | ok later =>
      rw [received] at taken
      cases taken
      unfold TargetTask.receiveRescaleBarrier at received
      split at received
      next => cases received
      next =>
        split at received
        next =>
          cases received
          exact absurd ready (eq_false_iff.mp busy)
        next unseen =>
          dsimp only at received
          split at received
          next complete => exact ⟨rfl,unseen,complete⟩
          next =>
            cases received
            exact absurd ready (eq_false_iff.mp busy)

theorem pump (consistent : Consistent state) (target position : Nat) (next : State β)
    (everyLane : EveryLane state (.pump target position)) (taken : pump state target position = some next) :
    Consistent next := by
  obtain ⟨_,taken⟩ := ite_none_left_eq_some.mp taken
  obtain ⟨task,present,taken⟩ := bind_eq_some_iff.mp taken
  obtain ⟨after,ran,rfl⟩ := map_eq_some_iff.mp taken
  obtain ⟨channels,arrivals⟩ := runOnce_frame task after position ran
  have ordered := consistent.ordered target task present
  have stays := ordered.runOnce task position after ran (fun envelope found complete other lane =>
    (everyLane task present envelope found complete other lane).imp_right (fun rest => rest.imp_right And.left))
  refine consistent.proceeds state target task after present stays channels arrivals (fun ready edge output found command inside => ?_)
  obtain ⟨envelope,here,complete⟩ := runOnce_ready task after position ran ready
  cases reach : mayReach target command with
  | false => rfl
  | true =>
    have control : target ∈ output.controlTargets := by
      cases command with
      | data initial retryRing batch =>
        exact (consistent.sends edge output found).rings initial retryRing batch inside target (of_decide_eq_true reach)
      | fence remaining => cases reach
    have closes : (⟨edge,none⟩ : InboxEnvelope β) ∉ task.arrivals := by
      intro fence
      rcases consistent.closed edge output target task found present fence with none | ⟨remaining,pending,_⟩
      · rw [none] at inside
        cases inside
      · rw [pending] at inside
        rw [mem_singleton.mp inside] at reach
        cases reach
    have lane := consistent.lanes edge output target task found present control
    rcases everyLane task present envelope here complete edge lane with same | fence | ⟨_,drained⟩
    · obtain ⟨other,payload⟩ := envelope
      obtain ⟨rfl,_⟩ := complete
      have same : edge = other := same
      subst same
      exact absurd (ordered.arrived task _ (.inl (mem_of_getElem? here))) closes
    · exact absurd (ordered.arrived task _ (.inr fence)) closes
    · rw [drained output found command inside] at reach
      cases reach

theorem process (consistent : Consistent state) (target position : Nat) (next : State β)
    (taken : process state target position = some next) : Consistent next := by
  obtain ⟨_,taken⟩ := ite_none_left_eq_some.mp taken
  obtain ⟨task,present,taken⟩ := bind_eq_some_iff.mp taken
  obtain ⟨after,ran,rfl⟩ := map_eq_some_iff.mp taken
  have ordered := (consistent.ordered target task present).process task position after ran
  obtain ⟨batch,_,rfl⟩ := map_eq_some_iff.mp ran
  exact consistent.proceeds state target task _ present ordered rfl rfl (consistent.settled target task present)

theorem commit (consistent : Consistent state) (next : State β) (taken : commitRuntimeRescale state = some next) :
    Consistent next := by
  obtain ⟨⟨complete,_⟩,taken⟩ := ite_none_right_eq_some.mp taken
  cases taken
  refine { consistent with sends := ?_, discarded := ?_ }
  · intro edge output found
    have sends := consistent.sends edge output found
    exact {sends with}
  · intro _ envelope inside
    obtain ⟨task,listed,held⟩ := mem_flatMap.mp inside
    have ready := List.all_eq_true.mp (and_eq_true_iff.mp complete).2 task listed
    obtain ⟨target,present⟩ := (mem_values _ _).mp listed
    exact ((consistent.ordered target task present).ready ready).2 envelope held

theorem step (consistent : Consistent state) (label : Label β) (next : State β) (everyLane : EveryLane state label)
    (taken : step state label = some next) : Consistent next := by
  cases label with
  | collect edge target retryRing batch => exact consistent.collect state edge target retryRing batch next taken
  | originate sender => exact consistent.originate state sender next taken
  | deliver edge position target => exact consistent.deliver state edge position target next taken
  | deliverFence edge target => exact consistent.deliverFence state edge target next taken
  | pump target position => exact consistent.pump state target position next everyLane taken
  | process target position => exact consistent.process state target position next taken
  | commit => exact consistent.commit state next taken

theorem cut (consistent : Consistent state) : Cut state := by
  refine ⟨fun target task present ready edge => ?_,consistent.discarded⟩
  have ordered := consistent.ordered target task present
  obtain ⟨data,batches,shape⟩ := ordered.shape edge
  have contents := ordered.contents
  rw [(ordered.ready ready).1,nil_append] at contents
  have lane := (contents.filter (fun item => item.1 = edge)).map Prod.snd
  rw [items_onLane] at lane
  refine lane.trans (List.Perm.of_eq ?_)
  have held : (onLane edge task.inbox).filterMap InboxEnvelope.payload = [] := by
    refine filterMap_eq_nil_iff.mpr (fun envelope inside => ?_)
    exact (ordered.ready ready).2 envelope ((mem_onLane _ _ _).mp inside).1
  have admitted : (onLane edge task.taken).filterMap InboxEnvelope.payload =
      (onLane edge task.arrivals).filterMap InboxEnvelope.payload := by
    rw [ordered.order,filterMap_append,held,append_nil]
  have whole : data.takeWhile (fun envelope => envelope.payload.isSome) = data :=
    takeWhile_eq_self_iff.mpr (fun envelope inside => isSome_iff_ne_none.mpr (batches envelope inside))
  rw [admitted]
  change (onLane edge task.arrivals).filterMap _ = ((onLane edge task.arrivals).takeWhile _).filterMap _
  rcases shape with open_ | fenced
  · rw [open_,whole]
  · rw [fenced,takeWhile_append_of_pos (fun envelope inside =>
      isSome_iff_ne_none.mpr (batches envelope inside)),filterMap_append]
    simp

end Consistent
end consistent

/-- A rescale in which no target counts its last sender while a lane is still to be fenced cuts all lanes consistently. -/
theorem rescale_fence_cuts (topology : Dict OutputEdge (List Nat)) (parallelism : Nat) (initial final : State β)
    (labels : List (Label β)) (started : start topology parallelism = .ok initial)
    (everyLane : Runs.Along step EveryLane initial labels) (run : Runs.exec step initial labels = some final) : Cut final := by
  have consistent := Runs.exec_invariant step EveryLane Consistent
    (fun state label next consistent lane taken => consistent.step state label next lane taken)
    labels initial final (Consistent.start topology parallelism initial started) everyLane run
  exact consistent.cut final

section selfUnion

/-- Two edges of one upstream subtask to one target, as for the union of a stream with itself. -/
def twoLanes : Dict OutputEdge (List Nat) := Dict.ofList [(⟨⟨1,0⟩,0⟩,[0]),(⟨⟨1,0⟩,1⟩,[0])]

def twoLanesStart : State Nat where
  edges := Dict.ofList [(⟨⟨1,0⟩,0⟩,⟨[0],[]⟩),(⟨⟨1,0⟩,1⟩,⟨[0],[]⟩)]
  originated := []
  targets := Dict.ofList [(0,TargetTask.prepared [⟨⟨1,0⟩,0⟩,⟨⟨1,0⟩,1⟩])]
  committed := false
  discarded := []

theorem twoLanes_start : start twoLanes 1 = .ok twoLanesStart := rfl

def batchFirst : List (Label Nat) :=
  [.collect ⟨⟨1,0⟩,1⟩ 0 [0] 7,.originate ⟨1,0⟩,.deliver ⟨⟨1,0⟩,1⟩ 0 0,.deliverFence ⟨⟨1,0⟩,0⟩ 0,.pump 0 0,
    .deliverFence ⟨⟨1,0⟩,1⟩ 0,.pump 0 0,.commit]

/-- The edges send concurrently: the fence of the first one is taken, then the second one delivers its batch. -/
def fenceFirst : List (Label Nat) :=
  [.collect ⟨⟨1,0⟩,1⟩ 0 [0] 7,.originate ⟨1,0⟩,.deliverFence ⟨⟨1,0⟩,0⟩ 0,.pump 0 0,.deliver ⟨⟨1,0⟩,1⟩ 0 0,
    .deliverFence ⟨⟨1,0⟩,1⟩ 0,.commit]

theorem rescale_fence_cuts_batchFirst :
    ∃ final, Runs.exec step twoLanesStart batchFirst = some final ∧ final.committed = true ∧ Cut final := by
  obtain ⟨final,run,committed⟩ := Runs.exec_check step twoLanesStart batchFirst (fun final => final.committed = true)
    (by decide +kernel)
  exact ⟨final,run,committed,
    rescale_fence_cuts twoLanes 1 twoLanesStart final batchFirst twoLanes_start (by decide +kernel) run⟩

/-- The target reports ready, and the batch behind is dropped with the old inbox. -/
theorem second_lane_loses_batch : start twoLanes 1 = .ok twoLanesStart ∧
    ∃ final, Runs.exec step twoLanesStart fenceFirst = some final ∧ ¬ Cut final := by
  obtain ⟨final,run,committed,envelope,inside,batch⟩ := Runs.exec_check step twoLanesStart fenceFirst
    (fun final => final.committed = true ∧ ∃ envelope ∈ final.discarded, envelope.payload ≠ none) (by decide +kernel)
  exact ⟨twoLanes_start,final,run,fun cut => batch (cut.discarded committed envelope inside)⟩

end selfUnion
end Klein.RescaleFence
