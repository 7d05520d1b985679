import Klein.TaskOutput

/-! Acknowledgements pushed back to a task whose output edges are swapped
(`WatermarkController._push_ack`, `StreamTask.acknowledge_delivery`). A pushed
acknowledgement carries an edge index, a target index and a sequence, and reaches
whatever edge object stands at that index when it arrives. Which object its batch
left over is a ghost. -/
namespace Klein.EdgeIncarnations
open List Runs

structure Batch where
  incarnation : Nat
  targetIndex : Nat
  sequence : Int
deriving DecidableEq, Repr

/-- `sent` has the channels stamped on the batches, `recorded` are the batches
committed while replay was enabled, and `answered` the acknowledgements that reached
the object their batch had left over. -/
structure State (ρ : Type) where
  edges : OutputEdges ρ
  sent : List (Batch × Option DeliveryChannel)
  acknowledgements : List (Batch × DeliveryChannel)
  recorded : List Batch
  answered : List Batch

inductive Answer where
  | accepted (forwarded : Int)
  | refused (next : Nat)
  | unavailable
deriving DecidableEq, Repr

inductive Action (ρ : Type) where
  | collect (edgeIndex targetIndex : Nat) (records : List ρ)
  | replay (edgeIndex targetIndex : Nat)
  | take (edge : Nat)
  | request (edge position : Nat)
  | answer (edge position : Nat) (answer : Answer)
  | push (position : Nat)
  | deliver (position : Nat)
  | lose (position : Nat)
  | configure (config : ReplayConfig)
  | prepare (operationId : String) (targetCounts : List (Option Nat))
  | activate (operationId : String)
  | rollback (operationId : String)
  | commit (operationId : String)

section steps
variable {ρ : Type} (measure : RecordMeasure ρ) (s : State ρ)

def initial (ρ : Type) (targetCounts : List Nat) : State ρ where
  edges := ⟨fun edge => EdgeOutput.new ρ ((targetCounts[edge]?).getD 0),targetCounts.length,
    ⟨List.range targetCounts.length,none⟩⟩
  sent := []
  acknowledgements := []
  recorded := []
  answered := []

def enqueue (edgeIndex : Nat) (commands : EdgeOutput ρ → List (EdgeCommand ρ)) : Option (State ρ) := do
  let edge ← s.edges.output.edges[edgeIndex]?
  let object := s.edges.objects edge
  return {s with edges := s.edges.store edge {object with pending := object.pending ++ commands object}}

/-- `replay_commands_for`, of one target -/
def replayCommands (targetIndex : Nat) (object : EdgeOutput ρ) : List (EdgeCommand ρ) :=
  if inside : targetIndex < object.targetCount then
    (object.journal.pendingFor ⟨targetIndex,inside⟩).map (fun entry => .replay targetIndex entry.1 entry.2)
  else []

def take (edge : Nat) : State ρ :=
  let object := s.edges.objects edge
  {s with edges := s.edges.store edge {object with
    pending := []
    delivering := object.delivering ++ object.pending.map (fun command => ⟨command,command.target,none⟩)}}

/-- `replay_sequence if is_replay else journal.next_sequence(actual_target)` -/
def sequenceFor (object : EdgeOutput ρ) (delivering : Delivering ρ) : Int :=
  match delivering.command with
  | .data _ _ => object.sequence delivering.target + 1
  | .replay _ sequence _ => sequence

/-- Send the request of a command: commands of one lane keep their order, and one
request is in flight for a target. -/
def request (edge position : Nat) : Option (State ρ) := do
  let object := s.edges.objects edge
  let delivering ← object.delivering[position]?
  guard (delivering.request.isNone ∧ delivering.target < object.targetCount ∧
    (∀ earlier ∈ object.delivering.take position, earlier.command.target ≠ delivering.command.target) ∧
    ∀ other ∈ object.delivering, other.target = delivering.target → other.request = none)
  let sequence := sequenceFor object delivering
  let channel := if inside : delivering.target < object.targetCount then
    object.journal.deliveryChannel ⟨delivering.target,inside⟩ else none
  return {s with
    edges := s.edges.store edge {object with
      delivering := object.delivering.set position {delivering with request := some sequence}}
    sent := s.sent ++ [(⟨edge,delivering.target,sequence⟩,channel)]}

/-- `_on_success`: a replay is not recorded again. -/
def land (object : EdgeOutput ρ) (delivering : Delivering ρ) (sequence : Int) : Option (EdgeOutput ρ) :=
  match delivering.command with
  | .data _ records => object.recordDelivery measure delivering.target records sequence
  | .replay _ _ _ => some object

def committed (object : EdgeOutput ρ) (edge : Nat) (delivering : Delivering ρ) (sequence : Int) : List Batch :=
  match delivering.command with
  | .data _ _ => if object.journal.enabled then [⟨edge,delivering.target,sequence⟩] else []
  | .replay _ _ _ => []

def answer (edge position : Nat) (reply : Answer) : Option (State ρ) := do
  let object := s.edges.objects edge
  let delivering ← object.delivering[position]?
  let sequence ← delivering.request
  let waiting := object.delivering.set position {delivering with request := none}
  match reply with
  | .unavailable => return {s with edges := s.edges.store edge {object with delivering := waiting}}
  | .refused next =>
    guard (delivering.command matches .data _ _)
    return {s with edges := s.edges.store edge {object with
      delivering := object.delivering.set position {delivering with request := none,target := next}}}
  | .accepted forwarded =>
    guard (forwarded = -1 ∨ ⟨edge,delivering.target,forwarded⟩ ∈ s.sent.map Prod.fst)
    let acknowledged ← (object.acknowledge delivering.target forwarded).toOption
    let landed ← land measure acknowledged delivering sequence
    return {s with
      edges := s.edges.store edge {landed with delivering := object.delivering.eraseIdx position}
      answered := s.answered ++ [⟨edge,delivering.target,forwarded⟩]
      recorded := s.recorded ++ committed object edge delivering sequence}

def deliver (position : Nat) : Option (State ρ) := do
  let (batch,channel) ← s.acknowledgements[position]?
  let arrived := {s with acknowledgements := s.acknowledgements.eraseIdx position}
  match s.edges.acknowledgeDelivery channel.edgeIndex channel.targetIndex batch.sequence with
  | .error _ => return arrived
  | .ok edges => return {arrived with
      edges
      answered := s.answered ++
        (if s.edges.output.edges[channel.edgeIndex]? = some batch.incarnation then [batch] else [])}

def swapped (output : Except OutputError TaskOutput) : State ρ :=
  match output with
  | .error _ => s
  | .ok output => {s with edges := {s.edges with output}}

def step (s : State ρ) : Action ρ → Option (State ρ)
  | .collect edgeIndex targetIndex records => enqueue s edgeIndex (fun _ => [.data targetIndex records])
  | .replay edgeIndex targetIndex => enqueue s edgeIndex (replayCommands targetIndex)
  | .take edge => if edge < s.edges.built then some (take s edge) else none
  | .request edge position => if edge < s.edges.built then request s edge position else none
  | .answer edge position reply => if edge < s.edges.built then answer measure s edge position reply else none
  | .push position => do
    let (batch,stamped) ← s.sent[position]?
    let channel ← stamped
    return {s with acknowledgements := s.acknowledgements ++ [(batch,channel)]}
  | .deliver position => deliver s position
  | .lose position => some {s with acknowledgements := s.acknowledgements.eraseIdx position}
  | .configure config =>
    match s.edges.configureReplay config with
    | .error _ => some s
    | .ok edges => some {s with edges}
  | .prepare operationId targetCounts =>
    let made := s.edges.build targetCounts
    some (swapped {s with edges := made.1}
      (made.1.output.prepareEdgeSwap (fun edge => (made.1.objects edge).quiescent) operationId made.2))
  | .activate operationId => some (swapped s (s.edges.output.activateEdgeSwap operationId))
  | .rollback operationId => some (swapped s ((s.edges.output.rollbackEdgeSwap operationId).map Prod.fst))
  | .commit operationId => some (swapped s ((s.edges.output.commitEdgeSwap operationId).map Prod.fst))

end steps

variable {ρ : Type} (measure : RecordMeasure ρ)

def Uncovered (answered : List Batch) (batch : Batch) : Prop :=
  ∀ answer ∈ answered, answer.incarnation = batch.incarnation → answer.targetIndex = batch.targetIndex →
    answer.sequence < batch.sequence

/-- No entry was dropped, and no delivery left unrecorded, but for acknowledgements of
the same incarnation. -/
def Retained (s : State ρ) : Prop :=
  ∀ batch ∈ s.recorded, Uncovered s.answered batch →
    batch.sequence ∈ (s.edges.objects batch.incarnation).pendingSequences batch.targetIndex

/-- An acknowledgement that arrives at an object its batch did not leave over finds
replay disabled there, or says nothing new. -/
def Stale (s : State ρ) : Action ρ → Prop
  | .deliver position => ∀ arrived ∈ s.acknowledgements[position]?,
      ∀ edge ∈ s.edges.output.edges[arrived.2.edgeIndex]?, edge ≠ arrived.1.incarnation →
        (s.edges.objects edge).journal.enabled = true →
          arrived.1.sequence ≤ (s.edges.objects edge).forwarded arrived.2.targetIndex
  | _ => True

structure Kept (recorded answered : List Batch) (edge : Nat) (object : EdgeOutput ρ) : Prop where
  committed : ∀ target, 0 ≤ object.sequence target
  requested : ∀ delivering ∈ object.delivering, ∀ target records, delivering.command = .data target records →
    ∀ sequence ∈ delivering.request, 0 < sequence
  marked : ∀ target, object.forwarded target ≤ -1 ∨ ∃ answer ∈ answered, answer.incarnation = edge ∧
    answer.targetIndex = target ∧ object.forwarded target ≤ answer.sequence
  retained : ∀ batch ∈ recorded, batch.incarnation = edge → Uncovered answered batch →
    batch.sequence ∈ object.pendingSequences batch.targetIndex

section kept
variable (recorded answered : List Batch) (edge : Nat) (object next : EdgeOutput ρ)

theorem Uncovered.fewer (more : List Batch) (batch : Batch) (uncovered : Uncovered (answered ++ more) batch) :
    Uncovered answered batch :=
  fun answer inside => uncovered answer (mem_append_left _ inside)

variable (kept : Kept recorded answered edge object)

include kept in
theorem Kept.grows (moreRecorded moreAnswered : List Batch) (others : ∀ batch ∈ moreRecorded, batch.incarnation ≠ edge) :
    Kept (recorded ++ moreRecorded) (answered ++ moreAnswered) edge object where
  committed := kept.committed
  requested := kept.requested
  marked target := (kept.marked target).imp_right
    (fun ⟨answer,inside,rest⟩ => ⟨answer,mem_append_left _ inside,rest⟩)
  retained batch inside own uncovered := by
    rcases mem_append.mp inside with old | new
    · exact kept.retained batch old own (uncovered.fewer answered moreAnswered batch)
    · exact absurd own (others batch new)

include kept in
theorem Kept.commands (pending : List (EdgeCommand ρ)) (delivering : List (Delivering ρ))
    (requested : ∀ one ∈ delivering, ∀ target records, one.command = .data target records →
      ∀ sequence ∈ one.request, 0 < sequence) :
    Kept recorded answered edge {object with pending,delivering} :=
  {kept with requested}

include kept in
theorem Kept.configured (config : ReplayConfig) (edgeIndex : Nat) (topologyEpoch : Option String)
    (configured : object.configureReplay config edgeIndex topologyEpoch = .ok next) : Kept recorded answered edge next := by
  obtain ⟨-,delivering,sequences,marks,pending⟩ := EdgeOutput.configureReplay_ok object next config edgeIndex topologyEpoch
    configured
  refine ⟨?_,?_,?_,?_⟩
  · rw [sequences]
    exact kept.committed
  · rw [delivering]
    exact kept.requested
  · rw [marks]
    exact kept.marked
  · rw [pending]
    exact kept.retained

include kept in
theorem Kept.acknowledged (target : Nat) (watermark : Int) (answered' : object.acknowledge target watermark = .ok next) :
    Kept recorded (answered ++ [⟨edge,target,watermark⟩]) edge next := by
  obtain ⟨-,delivering,sequences,-,marks,pending⟩ := EdgeOutput.acknowledge_ok object next target watermark answered'
  refine ⟨?_,?_,fun other => ?_,fun batch inside own uncovered => ?_⟩
  · rw [sequences]
    exact kept.committed
  · rw [delivering]
    exact kept.requested
  · rcases marks other with same | ⟨rfl,raised⟩
    · rw [same]
      exact (kept.marked other).imp_right (fun ⟨answer,inside,rest⟩ => ⟨answer,mem_append_left _ inside,rest⟩)
    · exact .inr ⟨⟨edge,other,watermark⟩,by simp,rfl,rfl,raised.le⟩
  · have before := kept.retained batch inside own (uncovered.fewer answered _ batch)
    exact pending _ _ before (fun same => uncovered ⟨edge,target,watermark⟩ (by simp) own.symm same.symm)

include kept in
theorem Kept.landed (measure : RecordMeasure ρ) (target : Nat) (records : List ρ) (sequence : Int)
    (positive : 0 < sequence) (landed : object.recordDelivery measure target records sequence = some next) :
    Kept (recorded ++ if object.journal.enabled then [⟨edge,target,sequence⟩] else []) answered edge next := by
  obtain ⟨-,delivering,marks,sequences,pending,fresh⟩ :=
    EdgeOutput.recordDelivery_ok object next target measure records sequence landed
  refine ⟨fun other => ?_,?_,?_,fun batch inside own uncovered => ?_⟩
  · rw [sequences]
    split
    · exact positive.le
    · exact kept.committed other
  · rw [delivering]
    exact kept.requested
  · rw [marks]
    exact kept.marked
  · rcases mem_append.mp inside with old | new
    · exact pending _ _ (kept.retained batch old own uncovered)
    · split at new
      next on =>
        obtain rfl := mem_singleton.mp new
        refine fresh on ?_
        rcases kept.marked target with unmarked | ⟨answer,known,mine,here,covers⟩
        · omega
        · have below : answer.sequence < sequence := uncovered answer known mine here
          omega
      next => contradiction

end kept

theorem Kept.new (recorded answered : List Batch) (edge targetCount : Nat)
    (unused : ∀ batch ∈ recorded, batch.incarnation ≠ edge) :
    Kept recorded answered edge (EdgeOutput.new ρ targetCount) where
  committed target := by
    unfold EdgeOutput.sequence
    split <;> simp [EdgeOutput.new,DeliveryJournal.init]
  requested := fun _ inside => by contradiction
  marked target := by
    refine .inl ?_
    unfold EdgeOutput.forwarded
    split <;> simp [EdgeOutput.new,DeliveryJournal.init]
  retained batch inside own := absurd own (unused batch inside)

structure Invariant (s : State ρ) : Prop where
  kept : ∀ edge, Kept s.recorded s.answered edge (s.edges.objects edge)
  built : ∀ batch ∈ s.recorded, batch.incarnation < s.edges.built
  sent : ∀ item ∈ s.sent, ∀ channel ∈ item.2, channel.targetIndex = item.1.targetIndex
  pushed : ∀ item ∈ s.acknowledgements, item.2.targetIndex = item.1.targetIndex

section invariant
variable (s next : State ρ) (invariant : Invariant s)

include invariant in
theorem Invariant.stored (edge : Nat) (object : EdgeOutput ρ) (moreRecorded moreAnswered : List Batch)
    (exists' : edge < s.edges.built ∨ moreRecorded = []) (own : ∀ batch ∈ moreRecorded, batch.incarnation = edge)
    (kept : Kept (s.recorded ++ moreRecorded) (s.answered ++ moreAnswered) edge object) :
    Invariant {s with edges := s.edges.store edge object,recorded := s.recorded ++ moreRecorded,
                      answered := s.answered ++ moreAnswered} where
  kept other := by
    by_cases same : other = edge
    · subst same
      simpa [OutputEdges.store] using kept
    · simp only [OutputEdges.store,Function.update_of_ne same]
      exact (invariant.kept other).grows _ _ _ _ _ _ (fun batch inside mine => same (mine.symm.trans (own batch inside)))
  built batch inside := by
    rcases mem_append.mp inside with old | new
    · exact invariant.built batch old
    · rcases exists' with known | none'
      · rw [own batch new]
        exact known
      · subst none'
        contradiction
  sent := invariant.sent
  pushed := invariant.pushed

include invariant in
theorem Invariant.replaced (edge : Nat) (object : EdgeOutput ρ) (kept : Kept s.recorded s.answered edge object) :
    Invariant {s with edges := s.edges.store edge object} := by
  simpa using invariant.stored s edge object [] [] (.inr rfl) (by simp) (by simpa using kept)

theorem Invariant.frame (same : next.edges.objects = s.edges.objects) (built : next.edges.built = s.edges.built)
    (recorded : next.recorded = s.recorded) (answered : next.answered = s.answered)
    (sent : ∀ item ∈ next.sent, ∀ channel ∈ item.2, channel.targetIndex = item.1.targetIndex)
    (pushed : ∀ item ∈ next.acknowledgements, item.2.targetIndex = item.1.targetIndex)
    (invariant : Invariant s) : Invariant next where
  kept edge := by
    rw [same,recorded,answered]
    exact invariant.kept edge
  built batch inside := by
    rw [built]
    exact invariant.built batch (recorded ▸ inside)
  sent := sent
  pushed := pushed

include invariant in
theorem Invariant.enqueue (edgeIndex : Nat) (commands : EdgeOutput ρ → List (EdgeCommand ρ))
    (taken : enqueue s edgeIndex commands = some next) : Invariant next := by
  obtain ⟨edge,-,done⟩ := Option.bind_eq_some_iff.mp taken
  cases done
  have kept := invariant.kept edge
  exact invariant.replaced s edge _ (kept.commands _ _ _ _ _ _ kept.requested)

include invariant in
theorem Invariant.take (edge : Nat) : Invariant (take s edge) := by
  have kept := invariant.kept edge
  refine invariant.replaced s edge _ (kept.commands _ _ _ _ _ _ ?_)
  intro delivering inside target records data sequence sent
  rcases mem_append.mp inside with old | new
  · exact kept.requested delivering old target records data sequence sent
  · obtain ⟨command,-,rfl⟩ := mem_map.mp new
    contradiction

theorem requested_set (object : EdgeOutput ρ) (position : Nat) (changed : Delivering ρ)
    (before : ∀ one ∈ object.delivering, ∀ target records, one.command = .data target records →
      ∀ sequence ∈ one.request, 0 < sequence)
    (positive : ∀ target records, changed.command = .data target records → ∀ sequence ∈ changed.request, 0 < sequence)
    (one : Delivering ρ) (inside : one ∈ object.delivering.set position changed) (target : Nat) (records : List ρ)
    (data : one.command = .data target records) (sequence : Int) (sent : sequence ∈ one.request) : 0 < sequence := by
  rcases mem_or_eq_of_mem_set inside with old | rfl
  · exact before one old target records data sequence sent
  · exact positive target records data sequence sent

include invariant in
theorem Invariant.request (edge position : Nat) (taken : request s edge position = some next) : Invariant next := by
  obtain ⟨delivering,found,rest⟩ := Option.bind_eq_some_iff.mp taken
  obtain ⟨-,-,done⟩ := Option.bind_eq_some_iff.mp rest
  cases done
  have kept := invariant.kept edge
  refine Invariant.frame {s with edges := s.edges.store edge _} _ rfl rfl rfl rfl ?_ invariant.pushed
    (invariant.replaced s edge _ (kept.commands _ _ _ _ _ _ ?_))
  · intro item inside channel stamped
    rcases mem_append.mp inside with old | new
    · exact invariant.sent item old channel stamped
    · obtain rfl := mem_singleton.mp new
      simp only [Option.mem_def] at stamped
      split at stamped
      next inside =>
        exact DeliveryJournal.deliveryChannel_target _ _ _ stamped
      next => contradiction
  refine requested_set _ position _ kept.requested ?_
  intro target records data sequence sent
  cases sent
  have committed := kept.committed delivering.target
  change 0 < sequenceFor (s.edges.objects edge) delivering
  have command : delivering.command = .data target records := data
  simp only [sequenceFor,command]
  omega

include invariant in
theorem Invariant.answer (measure : RecordMeasure ρ) (edge position : Nat) (reply : Answer) (known : edge < s.edges.built)
    (taken : answer measure s edge position reply = some next) : Invariant next := by
  obtain ⟨delivering,found,rest⟩ := Option.bind_eq_some_iff.mp taken
  obtain ⟨sequence,sent,replied⟩ := Option.bind_eq_some_iff.mp rest
  have kept := invariant.kept edge
  cases reply with
  | unavailable =>
    cases replied
    refine invariant.replaced s edge _ (kept.commands _ _ _ _ _ _ ?_)
    exact requested_set _ position _ kept.requested (fun _ _ _ _ impossible => by contradiction)
  | refused other =>
    obtain ⟨-,-,done⟩ := Option.bind_eq_some_iff.mp replied
    cases done
    refine invariant.replaced s edge _ (kept.commands _ _ _ _ _ _ ?_)
    exact requested_set _ position _ kept.requested (fun _ _ _ _ impossible => by contradiction)
  | accepted forwarded =>
    obtain ⟨-,-,more⟩ := Option.bind_eq_some_iff.mp replied
    obtain ⟨acknowledged,answered,more⟩ := Option.bind_eq_some_iff.mp more
    obtain ⟨landed,recorded,done⟩ := Option.bind_eq_some_iff.mp more
    have acknowledgement : (s.edges.objects edge).acknowledge delivering.target forwarded = .ok acknowledged := by
      cases result : (s.edges.objects edge).acknowledge delivering.target forwarded with
      | error error => simp [result,Except.toOption] at answered
      | ok object => simpa [result,Except.toOption] using answered
    have noted := kept.acknowledged _ _ _ _ acknowledged delivering.target forwarded acknowledgement
    obtain ⟨-,same,-,enabled,-⟩ := EdgeOutput.acknowledge_ok _ acknowledged _ _ acknowledgement
    have remaining : ∀ one ∈ (s.edges.objects edge).delivering.eraseIdx position, ∀ target records,
        one.command = .data target records → ∀ sequence ∈ one.request, 0 < sequence :=
      fun one inside => kept.requested one (mem_of_mem_eraseIdx inside)
    cases done
    cases kind : delivering.command with
    | data target records =>
      simp only [land,committed,kind] at recorded ⊢
      have positive := kept.requested delivering (mem_of_getElem? found) target records kind sequence sent
      have stored := noted.landed _ _ _ _ landed measure delivering.target records sequence positive recorded
      rw [enabled] at stored
      refine invariant.stored s edge _ _ _ (.inl known) ?_ (stored.commands _ _ _ _ _ _ remaining)
      intro batch inside
      split at inside
      next =>
        rw [mem_singleton.mp inside]
      next => contradiction
    | replay target number records =>
      simp only [land,committed,kind,Option.some.injEq] at recorded ⊢
      subst recorded
      exact invariant.stored s edge _ [] _ (.inr rfl) (by simp)
        (by simpa using noted.commands _ _ _ _ _ _ remaining)

include invariant in
theorem Invariant.deliver (position : Nat) (stale : Stale s (.deliver position))
    (taken : deliver s position = some next) : Invariant next := by
  obtain ⟨⟨batch,channel⟩,arrived,rest⟩ := Option.bind_eq_some_iff.mp taken
  have remaining : ∀ item ∈ s.acknowledgements.eraseIdx position, item.2.targetIndex = item.1.targetIndex :=
    fun item inside => invariant.pushed item (mem_of_mem_eraseIdx inside)
  dsimp only at rest
  unfold OutputEdges.acknowledgeDelivery at rest
  cases standing : s.edges.output.edges[channel.edgeIndex]? with
  | none =>
    simp only [standing] at rest
    cases rest
    exact Invariant.frame s _ rfl rfl rfl rfl invariant.sent remaining invariant
  | some edge =>
    simp only [standing] at rest
    cases result : (s.edges.objects edge).acknowledge channel.targetIndex batch.sequence with
    | error error =>
      simp only [result,Except.map] at rest
      cases rest
      exact Invariant.frame s _ rfl rfl rfl rfl invariant.sent remaining invariant
    | ok object =>
      simp only [result,Except.map,Option.some.injEq] at rest
      cases rest
      by_cases own : edge = batch.incarnation
      · have target := invariant.pushed _ (mem_of_getElem? arrived)
        have kept := (invariant.kept edge).acknowledged _ _ _ _ object channel.targetIndex batch.sequence result
        have stored := invariant.stored s edge object [] _ (.inr rfl) (by simp) (by simpa using kept)
        refine Invariant.frame {s with edges := s.edges.store edge object,recorded := s.recorded ++ [],
                                       answered := s.answered ++ [⟨edge,channel.targetIndex,batch.sequence⟩]}
          _ rfl rfl (by simp) ?_ invariant.sent remaining stored
        have same : batch = ⟨edge,channel.targetIndex,batch.sequence⟩ := by
          rw [own,target]
        rw [if_pos own,← same]
      · have unchanged := EdgeOutput.acknowledge_stale _ object _ _ result
          (stale _ arrived edge standing own)
        subst unchanged
        have restored : s.edges.store edge (s.edges.objects edge) = s.edges := by
          simp [OutputEdges.store]
        rw [restored,if_neg own,append_nil]
        exact Invariant.frame s _ rfl rfl rfl rfl invariant.sent remaining invariant

include invariant in
theorem Invariant.configureEdges (config : ReplayConfig) (chosen : List (Nat × Option String)) (edgeIndex : Nat)
    (edges : OutputEdges ρ) (configured : s.edges.configureEdges config chosen edgeIndex = .ok edges) :
    Invariant {s with edges} := by
  induction chosen generalizing s edgeIndex with
  | nil =>
    cases configured
    exact invariant
  | cons first rest ih =>
    unfold OutputEdges.configureEdges at configured
    split at configured
    next => contradiction
    next object done =>
      have kept := (invariant.kept first.1).configured _ _ _ _ object config edgeIndex first.2 done
      exact ih {s with edges := s.edges.store first.1 object} (invariant.replaced s first.1 object kept) _ configured

include invariant in
theorem Invariant.configure (config : ReplayConfig) (edges : OutputEdges ρ)
    (configured : s.edges.configureReplay config = .ok edges) : Invariant {s with edges} := by
  unfold OutputEdges.configureReplay at configured
  dsimp only at configured
  split at configured
  next => contradiction
  next => exact invariant.configureEdges s config _ 0 edges configured

include invariant in
theorem Invariant.build (targetCounts : List (Option Nat)) : Invariant {s with edges := (s.edges.build targetCounts).1} := by
  induction targetCounts generalizing s with
  | nil => exact invariant
  | cons first rest ih =>
    cases first with
    | none => exact ih s invariant
    | some targetCount =>
      refine ih {s with edges := {s.edges with
        objects := Function.update s.edges.objects s.edges.built (EdgeOutput.new ρ targetCount)
        built := s.edges.built + 1}} ⟨fun edge => ?_,fun batch inside => ?_,invariant.sent,invariant.pushed⟩
      · by_cases same : edge = s.edges.built
        · subst same
          simp only [Function.update_self]
          refine Kept.new _ _ _ _ (fun batch inside equal => ?_)
          have below := invariant.built batch inside
          omega
        · simp only [Function.update_of_ne same]
          exact invariant.kept edge
      · have below := invariant.built batch inside
        exact Nat.lt_succ_of_lt below

include invariant in
theorem Invariant.swapped (output : Except OutputError TaskOutput) : Invariant (swapped s output) := by
  unfold EdgeIncarnations.swapped
  split
  · exact invariant
  · exact Invariant.frame s _ rfl rfl rfl rfl invariant.sent invariant.pushed invariant

theorem step_invariant (measure : RecordMeasure ρ) (s : State ρ) (action : Action ρ) (next : State ρ)
    (invariant : Invariant s) (stale : Stale s action) (taken : step measure s action = some next) : Invariant next := by
  cases action with
  | collect edgeIndex targetIndex records =>
    exact invariant.enqueue s next edgeIndex (fun _ => [.data targetIndex records]) taken
  | replay edgeIndex targetIndex => exact invariant.enqueue s next edgeIndex (replayCommands targetIndex) taken
  | take edge =>
    obtain ⟨-,done⟩ := Option.ite_none_right_eq_some.mp taken
    cases done
    exact invariant.take s edge
  | request edge position => exact invariant.request s next edge position (Option.ite_none_right_eq_some.mp taken).2
  | answer edge position reply =>
    obtain ⟨known,done⟩ := Option.ite_none_right_eq_some.mp taken
    exact invariant.answer s next measure edge position reply known done
  | push position =>
    obtain ⟨⟨batch,stamped⟩,found,rest⟩ := Option.bind_eq_some_iff.mp taken
    obtain ⟨channel,stamp,done⟩ := Option.bind_eq_some_iff.mp rest
    cases done
    refine Invariant.frame s _ rfl rfl rfl rfl invariant.sent (fun item inside => ?_) invariant
    rcases mem_append.mp inside with old | new
    · exact invariant.pushed item old
    · obtain rfl := mem_singleton.mp new
      exact invariant.sent _ (mem_of_getElem? found) channel stamp
  | deliver position => exact invariant.deliver s next position stale taken
  | lose position =>
    cases taken
    exact Invariant.frame s _ rfl rfl rfl rfl invariant.sent
      (fun item inside => invariant.pushed item (mem_of_mem_eraseIdx inside)) invariant
  | configure config =>
    simp only [step] at taken
    split at taken
    next =>
      cases taken
      exact invariant
    next edges done =>
      cases taken
      exact invariant.configure s config edges done
  | prepare operationId targetCounts =>
    cases taken
    exact (invariant.build s targetCounts).swapped _ _
  | activate operationId =>
    cases taken
    exact invariant.swapped s _
  | rollback operationId =>
    cases taken
    exact invariant.swapped s _
  | commit operationId =>
    cases taken
    exact invariant.swapped s _

end invariant

theorem initial_invariant (targetCounts : List Nat) : Invariant (initial ρ targetCounts) where
  kept edge := Kept.new [] [] edge _ (by simp)
  built := fun _ inside => by contradiction
  sent := fun _ inside => by contradiction
  pushed := fun _ inside => by contradiction

/-- Acknowledgements stay inside the incarnation of their batch in every run in which
those that reach another one are stale there. -/
theorem acknowledgements_stay_inside (targetCounts : List Nat) (labels : List (Action ρ)) (s : State ρ)
    (stale : Along (step measure) Stale (initial ρ targetCounts) labels)
    (run : exec (step measure) (initial ρ targetCounts) labels = some s) : Retained s := by
  have invariant := exec_invariant (step measure) Stale Invariant (step_invariant measure) labels _ s
    (initial_invariant targetCounts) stale run
  exact fun batch inside uncovered => (invariant.kept batch.incarnation).retained batch inside rfl uncovered

section decidable

instance (answered : List Batch) (batch : Batch) : Decidable (Uncovered answered batch) :=
  inferInstanceAs (Decidable (∀ answer ∈ answered, _))

instance (s : State ρ) : Decidable (Retained s) := inferInstanceAs (Decidable (∀ batch ∈ s.recorded, _))

instance (s : State ρ) (action : Action ρ) : Decidable (Stale s action) := by
  cases action
  case deliver position =>
    exact inferInstanceAs (Decidable (∀ arrived ∈ s.acknowledgements[position]?, _))
  all_goals exact .isTrue trivial

end decidable

def bySize : RecordMeasure Nat := ⟨fun _ => none,List.length⟩

def replaying (topologyEpoch : String) : ReplayConfig := ⟨true,some ⟨1,0⟩,1024,some "source",some [some topologyEpoch]⟩

def swappedOnce : List (Action Nat) :=
  [.configure (replaying "e1"),.collect 0 0 [7],.take 0,.request 0 0,.answer 0 0 (.accepted (-1)),.push 0,.push 0,
    .deliver 0,.prepare "resize" [some 1],.activate "resize",.configure (replaying "e2"),.commit "resize",
    .collect 0 0 [8],.take 1,.request 1 0,.answer 1 0 (.accepted (-1))]

/-- A repeated acknowledgement of the first batch arrives after one of the second. -/
theorem acknowledgements_stay_inside_repeated : ∃ s : State Nat,
    exec (step bySize) (initial Nat [1]) (swappedOnce ++ [.push 1,.deliver 1,.deliver 0]) = some s ∧ Retained s := by
  obtain ⟨s,run,-⟩ := exec_check (step bySize) (initial Nat [1]) (swappedOnce ++ [.push 1,.deliver 1,.deliver 0])
    (fun _ => True) (by decide +kernel)
  exact ⟨s,run,acknowledgements_stay_inside bySize [1] _ s (by decide +kernel) run⟩

/-- A late acknowledgement of the first batch drops the entry of the second, which the
receiver has not acknowledged. -/
theorem late_acknowledgement_drops_entry : ∃ s : State Nat,
    exec (step bySize) (initial Nat [1]) (swappedOnce ++ [.deliver 0]) = some s ∧ ¬ Retained s :=
  exec_check (step bySize) (initial Nat [1]) (swappedOnce ++ [.deliver 0]) (fun s => ¬ Retained s) (by decide +kernel)

end Klein.EdgeIncarnations
