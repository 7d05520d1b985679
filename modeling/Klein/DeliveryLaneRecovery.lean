import Klein.DeliveryLaneSafety

/-! Single-task recovery on one lane: what survives a rebuild of the receiver,
and what survives a rebuild of the sender. -/
namespace Klein.DeliveryLane
open List Option Runs

variable {ρ : Type} (c : Config ρ) (s next final : State ρ c.targetCount)

/-- A recorded batch can still reach the output: the journal or an extracted
replay command holds it, it has been forwarded, or the receiver holds it. -/
def Retained (batch : Batch) : Prop :=
  batch.sequence ∈ s.sender.journal.pendingSequences c.target ∨ batch.sequence ∈ unsent c s.sender ∨
    batch ∈ s.forwarded ∨
    ∃ down ∈ s.downstream, batch ∈ down.inbox.map Envelope.batch ∨ batch ∈ down.accumulator.map Envelope.batch

instance (batch : Batch) : Decidable (Retained c s batch) := by
  unfold Retained
  infer_instance

def Action.rebuildsSender : Action ρ → Bool
  | .rebuildSender => true
  | _ => false

def Action.crashes : Action ρ → Bool
  | .crash => true
  | _ => false

theorem Sound.pending_or_forwarded (sound : Sound c s) (batch : Batch) (member : batch ∈ s.recorded)
    (current : batch.incarnation = s.sender.incarnation) :
    batch.sequence ∈ s.sender.journal.pendingSequences c.target ∨ batch ∈ s.forwarded := by
  obtain ⟨first,last⟩ := (sound.ledger.known batch member).2 current
  rcases sound.ledger.complete batch.sequence first last with pending | released
  · exact .inl pending
  · have forwarded := sound.ledger.released batch.sequence first released
    rw [← current] at forwarded
    exact .inr forwarded

structure Single : Prop where
  first : s.sender.incarnation = 0
  recorded : ∀ batch ∈ s.recorded, batch.incarnation = 0

theorem step_single (label : Action ρ) (kept : label.rebuildsSender = false) (single : Single c s)
    (taken : step c s label = some next) : Single c next := by
  cases label <;> simp only [step,enqueue,send,retry,accept,reply,process,drain,advance,emit,deliverAck,loseAck,
    crash,bootstrap,extract,finishReplay,acceptStray] at taken
  case rebuildSender => simp [Action.rebuildsSender] at kept
  case reply =>
    split at taken
    · split at taken
      · cases taken
        exact ⟨single.first,single.recorded⟩
      · split at taken
        · contradiction
        · cases taken
          refine ⟨single.first,fun batch member => ?_⟩
          rcases mem_append.mp member with old | added
          · exact single.recorded batch old
          · obtain rfl : batch = ⟨s.sender.incarnation,_⟩ := by simpa using added
            exact single.first
    · contradiction
  all_goals
    repeat' split at taken
    all_goals first
      | contradiction
      | (cases taken; exact ⟨single.first,single.recorded⟩)

/-- In every run in which only the receiver crashes and every live batch is
handed over after the batches that the journal holds, each recorded batch stays
within reach and the journal releases forwarded batches only. -/
theorem recorded_retained (labels : List (Action ρ)) (only : ∀ label ∈ labels, label.rebuildsSender = false)
    (handed : Along (step c) (HandedOver c) (initial c) labels)
    (run : exec (step c) (initial c) labels = some final) :
    (∀ batch ∈ final.recorded, Retained c final batch) ∧
      ∀ batch ∈ final.recorded, batch.sequence ∉ final.sender.journal.pendingSequences c.target →
        batch ∈ final.forwarded := by
  have quiet : Along (step c) (fun _ label => label.rebuildsSender = false) (initial c) labels :=
    Along.of_forall _ _ labels (fun _ label member => only label member) _
  have kept : ∀ state label next, Sound c state ∧ Single c state →
      HandedOver c state label ∧ label.rebuildsSender = false → step c state label = some next →
      Sound c next ∧ Single c next := by
    intro state label next holds meets taken
    have unknown : RebuiltUnknown c state label := by
      cases label <;> first | trivial | simp [Action.rebuildsSender] at meets
    exact ⟨step_sound c state next label holds.1 meets.1 unknown taken,
      step_single c state next label meets.2 holds.2 taken⟩
  obtain ⟨sound,single⟩ := exec_invariant (step c) _ _ kept labels _ final
    ⟨initial_sound c,rfl,by simp [initial]⟩ (handed.and _ _ _ _ _ quiet) run
  have current (batch : Batch) (member : batch ∈ final.recorded) : batch.incarnation = final.sender.incarnation :=
    (single.recorded batch member).trans single.first.symm
  constructor
  · intro batch member
    rcases sound.pending_or_forwarded c final batch member (current batch member) with pending | forwarded
    · exact .inl pending
    · exact .inr (.inr (.inl forwarded))
  · intro batch member dropped
    exact (sound.pending_or_forwarded c final batch member (current batch member)).resolve_left dropped

def sample : Config Unit where
  targetCount := 1
  target := 0
  measure := ⟨fun _ => none,List.length⟩
  senderVertexId := ⟨1,0⟩
  senderTaskName := "map-0"
  edgeIndex := 0
  topologyEpoch := none
  maxBytes := 1024
  maxBytesPositive := by decide
  mode := .pipelined
  flushIntervalBatches := 1
  flushPositive := Nat.one_pos

def delivery : List (Action Unit) := [.enqueue [()],.send,.accept,.reply]

def acknowledgement : List (Action Unit) := [.process,.advance,.emit,.emit,.deliverAck 0]

def replayRun : List (Action Unit) :=
  delivery ++ [.crash,.bootstrap,.extract,.send,.accept,.reply,.finishReplay] ++ delivery ++ acknowledgement

def overtakingRun : List (Action Unit) :=
  delivery ++ [.crash,.bootstrap] ++ delivery ++ acknowledgement ++ [.extract]

theorem recorded_retained_replayRun :
    let run := exec (step sample) (initial sample) replayRun
    (∀ batch ∈ (run.get (by decide)).recorded, Retained sample (run.get (by decide)) batch) ∧
      ∀ batch ∈ (run.get (by decide)).recorded,
        batch.sequence ∉ (run.get (by decide)).sender.journal.pendingSequences sample.target →
          batch ∈ (run.get (by decide)).forwarded :=
  recorded_retained sample _ replayRun (by decide) (by decide) (some_get _).symm

theorem overtaken_batch_lost : ¬ ∀ (labels : List (Action Unit)) (final : State Unit sample.targetCount),
    (∀ label ∈ labels, label.rebuildsSender = false) → exec (step sample) (initial sample) labels = some final →
      ∀ batch ∈ final.recorded, Retained sample final batch := by
  intro claim
  have retained := claim overtakingRun ((exec (step sample) (initial sample) overtakingRun).get (by decide))
    (by decide) (some_get _).symm ⟨0,1⟩ (by decide)
  exact absurd retained (by decide)

structure Delivered (incarnation : Nat) (journal : DeliveryJournal ρ c.targetCount) (request : Option (Request ρ))
    (accepted : List Batch) : Prop where
  journal : ∀ sequence ∈ journal.pendingSequences c.target, ⟨incarnation,sequence⟩ ∈ accepted
  answered : ∀ put ∈ request, put.reply.isSome → ⟨incarnation,put.sequence⟩ ∈ accepted

theorem step_delivered (label : Action ρ) (alive : label.crashes = false) (sound : Sound c s)
    (before : Delivered c s.sender.incarnation s.sender.journal s.sender.request s.accepted)
    (taken : step c s label = some next) :
    Delivered c next.sender.incarnation next.sender.journal next.sender.request next.accepted := by
  cases label <;> simp only [step,enqueue,send,retry,accept,reply,process,drain,advance,emit,deliverAck,loseAck,
    bootstrap,extract,finishReplay,rebuildSender,acceptStray] at taken
  case crash => simp [Action.crashes] at alive
  case send | retry =>
    split at taken
    · cases taken
      exact ⟨before.journal,by simp⟩
    · contradiction
  case accept =>
    split at taken
    · cases taken
      refine ⟨fun sequence member => mem_append_left _ (before.journal sequence member),?_⟩
      rintro put found -
      obtain rfl := some.inj found
      exact mem_append_right _ (by simp)
    · contradiction
  case reply =>
    split at taken
    next command sequence watermark pending =>
      have held (other : Int) (member : other ∈
          (s.sender.journal.acknowledge c.target watermark).pendingSequences c.target) :
          ⟨s.sender.incarnation,other⟩ ∈ s.accepted :=
        before.journal other ((DeliveryJournal.acknowledge_sublist _ _ _).subset member)
      split at taken
      · cases taken
        exact ⟨held,by simp⟩
      · split at taken
        · contradiction
        next records journal landed =>
          cases taken
          obtain ⟨-,-,-,longer⟩ := DeliveryJournal.recordDelivery_ok c.measure _ journal c.target _ sequence
            (by simp [sound.ledger.enabled]) landed
          refine ⟨fun other member => ?_,by simp⟩
          rw [longer] at member
          rcases mem_append.mp member with old | added
          · exact held other old
          · have same : other = sequence := by
              split at added <;> simp_all
            rw [same]
            exact before.answered _ pending rfl
    · contradiction
  case deliverAck i =>
    split at taken
    · cases taken
      exact ⟨fun sequence member => before.journal sequence ((DeliveryJournal.acknowledge_sublist _ _ _).subset member),
        before.answered⟩
    · contradiction
  case rebuildSender =>
    split at taken
    · cases taken
      exact ⟨by simp [freshSender,freshJournal,DeliveryJournal.init,DeliveryJournal.pendingSequences,
        DeliveryJournal.pendingFor],by simp [freshSender]⟩
    · contradiction
  case acceptStray i => simp [sound.strays] at taken
  all_goals
    repeat' split at taken
    all_goals first
      | contradiction
      | (cases taken; exact ⟨before.journal,before.answered⟩)

/-- In every run without a crash of the receiver in which the sender is rebuilt
only while the receiver knows nothing of the lane, a batch that the running
sender recorded is in its journal until that very batch was forwarded. -/
theorem rebuilt_sender_retains (labels : List (Action ρ)) (alive : ∀ label ∈ labels, label.crashes = false)
    (unknown : Along (step c) (RebuiltUnknown c) (initial c) labels)
    (run : exec (step c) (initial c) labels = some final) :
    ∀ batch ∈ final.recorded, batch.incarnation = final.sender.incarnation →
      batch.sequence ∈ final.sender.journal.pendingSequences c.target ∨ batch ∈ final.forwarded := by
  have steady : Along (step c) (fun _ label => label.crashes = false) (initial c) labels :=
    Along.of_forall _ _ labels (fun _ label member => alive label member) _
  have kept : ∀ state label next, Sound c state ∧ Delivered c state.sender.incarnation state.sender.journal
        state.sender.request state.accepted →
      RebuiltUnknown c state label ∧ label.crashes = false → step c state label = some next →
      Sound c next ∧ Delivered c next.sender.incarnation next.sender.journal next.sender.request next.accepted := by
    intro state label next holds meets taken
    have handed : HandedOver c state label := by
      cases label <;> first | trivial | exact fun _ _ _ => holds.2.journal
    exact ⟨step_sound c state next label holds.1 handed meets.1 taken,
      step_delivered c state next label meets.2 holds.1 holds.2 taken⟩
  obtain ⟨sound,-⟩ := exec_invariant (step c) _ _ kept labels _ final
    ⟨initial_sound c,by simp [initial,freshSender,freshJournal,DeliveryJournal.init,
      DeliveryJournal.pendingSequences,DeliveryJournal.pendingFor],by simp [initial,freshSender]⟩
    (unknown.and _ _ _ _ _ steady) run
  exact fun batch member current => sound.pending_or_forwarded c final batch member current

def freshRebuildRun : List (Action Unit) :=
  [.enqueue [()],.rebuildSender] ++ delivery ++ acknowledgement ++ delivery

def staleRebuildRun : List (Action Unit) := delivery ++ acknowledgement ++ [.rebuildSender] ++ delivery

theorem rebuilt_sender_retains_freshRebuildRun :
    let run := exec (step sample) (initial sample) freshRebuildRun
    ∀ batch ∈ (run.get (by decide)).recorded, batch.incarnation = (run.get (by decide)).sender.incarnation →
      batch.sequence ∈ (run.get (by decide)).sender.journal.pendingSequences sample.target ∨
        batch ∈ (run.get (by decide)).forwarded :=
  rebuilt_sender_retains sample _ freshRebuildRun (by decide) (by decide) (some_get _).symm

theorem stale_watermark_suppresses :
    ¬ ∀ (labels : List (Action Unit)) (final : State Unit sample.targetCount),
      (∀ label ∈ labels, label.crashes = false) → exec (step sample) (initial sample) labels = some final →
        ∀ batch ∈ final.recorded, batch.incarnation = final.sender.incarnation →
          batch.sequence ∈ final.sender.journal.pendingSequences sample.target ∨ batch ∈ final.forwarded := by
  intro claim
  have kept := claim staleRebuildRun ((exec (step sample) (initial sample) staleRebuildRun).get (by decide))
    (by decide) (some_get _).symm ⟨1,1⟩ (by decide) (by decide)
  exact absurd kept (by decide)

end Klein.DeliveryLane
