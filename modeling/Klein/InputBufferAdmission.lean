import Klein.InputBuffer

/-! When an idle task admits every envelope. An unforced flush drains full batches
only, and there is never one in the accumulator, so that an idle iteration empties it
only by way of the replay watermark. -/
namespace Klein.InputBuffer
open Fallible Option Runs
variable {β : Type} (ops : BufferOps β) (buffer : InputBuffer β)

def Empties : Prop := buffer.accumulator.bufferedBytes = 0 ∨ buffer.watermark.due ≠ []

/-- An idle iteration empties the accumulator. Where the operator is asynchronous its
control does that, and no older one stands for it unless nothing is buffered. -/
def Drains : Label β → Prop
  | .idleDone _ _ => if buffer.isAsync then buffer.idleFlushPending = false ∨ buffer.accumulator.bufferedBytes = 0 else
    buffer.Empties
  | .control _ _ => buffer.runner.head? = some .idle → buffer.Empties
  | _ => True

instance : Decidable buffer.Empties := inferInstanceAs (Decidable (_ ∨ _))

instance (label : Label β) : Decidable (buffer.Drains label) :=
  match label with
  | .idleDone _ _ => inferInstanceAs (Decidable
    (if buffer.isAsync then buffer.idleFlushPending = false ∨ buffer.accumulator.bufferedBytes = 0 else buffer.Empties))
  | .control _ _ => inferInstanceAs (Decidable (buffer.runner.head? = some .idle → buffer.Empties))
  | .put _ | .putControl _ | .take _ | .work _ _ | .finish _ _ | .idle _ _ => isTrue trivial

def Reserved : PumpPhase β → Prop
  | .waiting => (∀ other, buffer.inflightEnvelopes.get? other = none) ∧ buffer.inflightBytes = 0 ∧
      buffer.processingBytes = 0
  | .processing identity _ _ => (∀ other, other ≠ identity → buffer.inflightEnvelopes.get? other = none) ∧
      buffer.inflightBytes = (buffer.inflightEnvelopes.get? identity).getD 0 ∧ buffer.idled = false
  | .idling => (∀ other, buffer.inflightEnvelopes.get? other = none) ∧ buffer.inflightBytes = 0

structure Sound : Prop where
  steady : buffer.accumulator.Steady
  reserved : buffer.Reserved buffer.phase
  drained : buffer.idled = true → buffer.accumulator.bufferedBytes = 0 ∨ RunnerControl.idle ∈ buffer.runner

section advance
variable (steady : buffer.accumulator.Steady)
include steady

theorem advance_spec (now later : Int) (next : InputBuffer β) (done : buffer.advance ops now later = some next) :
    ∃ accumulator watermark, next = {buffer with
        accumulator := accumulator
        watermark := watermark} ∧
      accumulator.Steady ∧ (buffer.Empties → accumulator.bufferedBytes = 0) := by
  unfold advance at done
  split at done
  next nothing =>
    obtain rfl := some.inj done
    exact ⟨buffer.accumulator,_,rfl,steady,fun empties => empties.elim id (fun some' => absurd nothing some')⟩
  next mark marks due =>
    split at done
    · contradiction
    next emitted accumulator flushed =>
      obtain rfl := some.inj done
      obtain ⟨steady',-,empty⟩ := buffer.accumulator.flush_forced ops.toBlockOps now later steady _ flushed
      exact ⟨accumulator,_,rfl,steady',fun _ => (steady'.counted.empty accumulator empty).2⟩

theorem note_spec (isData : Bool) (channel : Option InputChannel) (sequence : Option Int) (now later : Int)
    (next : InputBuffer β) (done : buffer.note ops isData channel sequence now later = some next) :
    ∃ accumulator watermark, next = {buffer with
        accumulator := accumulator
        watermark := watermark} ∧
      accumulator.Steady ∧ (buffer.accumulator.bufferedBytes = 0 → accumulator.bufferedBytes = 0) := by
  unfold note at done
  split at done
  · dsimp only at done
    split at done
    · obtain ⟨accumulator,watermark,rfl,steady',empties⟩ := advance_spec ops
        {buffer with watermark := (buffer.watermark.noteProcessed channel sequence).1} steady now later next done
      exact ⟨accumulator,watermark,rfl,steady',fun none => empties (.inl none)⟩
    · obtain rfl := some.inj done
      exact ⟨buffer.accumulator,_,rfl,steady,id⟩
  · obtain rfl := some.inj done
    exact ⟨buffer.accumulator,buffer.watermark,rfl,steady,id⟩

end advance

theorem create_sound (runtimeInfo : RuntimeInfo) (isAsync : Bool) (maxWeight maxBytes : Nat)
    (watermark : WatermarkController) (created : create runtimeInfo isAsync maxWeight maxBytes watermark = .ok buffer) :
    buffer.Sound := by
  obtain ⟨accumulator,made,created⟩ := bind_ok created
  obtain ⟨queue,-,created⟩ := bind_ok created
  cases created
  exact ⟨accumulator.create_steady runtimeInfo (some maxBytes) made,⟨fun _ => rfl,rfl,rfl⟩,fun idled => by cases idled⟩

section steps
variable (sound : buffer.Sound)
include sound

section
variable (now later : Int) (next : InputBuffer β)
include now later next

theorem control_sound (drains : buffer.Drains (.control now later))
    (done : buffer.control ops now later = some next) : next.Sound := by
  unfold control at done
  split at done
  · contradiction
  next isData channel sequence rest queued =>
    obtain ⟨accumulator,watermark,rfl,steady,kept⟩ := note_spec ops {buffer with runner := rest} sound.steady _ _ _ _ _ _ done
    refine ⟨steady,sound.reserved,fun idled => ?_⟩
    have before := sound.drained idled
    rw [queued] at before
    exact before.imp kept (fun waits => (List.mem_cons.mp waits).resolve_left (by simp))
  next rest queued =>
    obtain ⟨accumulator,watermark,rfl,steady,empties⟩ := advance_spec ops {buffer with
      runner := rest
      idleFlushPending := false} sound.steady now later next done
    exact ⟨steady,sound.reserved,fun _ => .inl (empties (drains (by rw [queued]; rfl)))⟩

theorem idleDone_sound (drains : buffer.Drains (.idleDone now later))
    (done : buffer.idleDone ops now later = some next) : next.Sound := by
  unfold idleDone at done
  split at done
  next idling =>
    have reserved := sound.reserved
    rw [idling] at reserved
    unfold Drains at drains
    dsimp only at done
    split at done
    next async =>
      rw [if_pos async] at drains
      split at done
      next pending =>
        obtain rfl := some.inj done
        have nothing := drains.resolve_left (by rw [pending]; decide)
        exact ⟨sound.steady,⟨reserved.1,reserved.2,rfl⟩,fun _ => .inl nothing⟩
      next =>
        obtain rfl := some.inj done
        exact ⟨sound.steady,⟨reserved.1,reserved.2,rfl⟩,fun _ => .inr (by simp)⟩
    next sync =>
      rw [if_neg sync] at drains
      obtain ⟨accumulator,watermark,rfl,steady,empties⟩ := advance_spec ops {buffer with
        processingBytes := 0
        phase := .waiting
        idled := true} sound.steady now later next done
      exact ⟨steady,⟨reserved.1,reserved.2,rfl⟩,fun _ => .inl (empties drains)⟩
  · contradiction

theorem idle_sound (done : buffer.idle ops now later = some next) : next.Sound := by
  unfold idle at done
  split at done
  next emitted accumulator waiting flushed =>
    obtain rfl := some.inj done
    obtain ⟨steady,-⟩ := buffer.accumulator.flush_steady ops.toBlockOps false now later sound.steady _ flushed
    obtain ⟨other,same,-,-,bytes,-⟩ := buffer.accumulator.flush_unforced ops.toBlockOps now later sound.steady
    cases same.symm.trans flushed
    have reserved := sound.reserved
    rw [waiting] at reserved
    exact ⟨steady,⟨reserved.1,reserved.2.1⟩,fun idled => (sound.drained idled).imp_left bytes.trans⟩
  · contradiction

end

theorem take_sound (index : Nat) (next : InputBuffer β) (done : buffer.take index = some next) : next.Sound := by
  unfold take at done
  split at done
  next identity envelope size queue waiting taken =>
    have reserved := sound.reserved
    rw [waiting] at reserved
    dsimp only at done
    split at done
    · contradiction
    · obtain rfl := some.inj done
      refine ⟨sound.steady,⟨fun other different => ?_,?_,rfl⟩,fun idled => by cases idled⟩
      · dsimp only
        split
        · rw [Dict.get?_set,if_neg different]
          exact reserved.1 other
        · exact reserved.1 other
      · dsimp only
        split
        · rw [Dict.get?_set,if_pos rfl,reserved.2.1,Nat.zero_add]
          rfl
        · rw [reserved.1,reserved.2.1]
          rfl
  · contradiction

theorem work_sound (now later : Int) (next : InputBuffer β) (done : buffer.work ops now later = some next) : next.Sound := by
  have reserved := sound.reserved
  unfold work at done
  split at done
  next identity envelope input todo processing =>
    rw [processing] at reserved
    split at done
    next emitted accumulator accepted =>
      obtain rfl := some.inj done
      obtain ⟨steady,-⟩ := buffer.accumulator.accept_steady ops.toBlockOps input now later sound.steady _ accepted
      exact ⟨steady,reserved,fun idled => absurd (reserved.2.2.symm.trans idled) (by decide)⟩
    · contradiction
  next identity envelope todo processing =>
    rw [processing] at reserved
    split at done
    next emitted accumulator flushed =>
      obtain rfl := some.inj done
      obtain ⟨steady,-⟩ := buffer.accumulator.flush_steady ops.toBlockOps true now later sound.steady _ flushed
      exact ⟨steady,reserved,fun idled => absurd (reserved.2.2.symm.trans idled) (by decide)⟩
    · contradiction
  · contradiction

omit sound in
theorem release_sound (identity : Nat) (steady : buffer.accumulator.Steady)
    (others : ∀ other, other ≠ identity → buffer.inflightEnvelopes.get? other = none)
    (own : buffer.inflightBytes = (buffer.inflightEnvelopes.get? identity).getD 0) (busy : buffer.idled = false) :
    (buffer.release identity).Sound := by
  refine ⟨steady,⟨fun other => ?_,?_,rfl⟩,fun idled => absurd (busy.symm.trans idled) (by decide)⟩
  · change (buffer.inflightEnvelopes.erase identity).get? other = none
    rw [Dict.get?_erase]
    split
    · rfl
    next different => exact others other different
  · change buffer.inflightBytes - (buffer.inflightEnvelopes.get? identity).getD 0 = 0
    omega

theorem finish_sound (now later : Int) (next : InputBuffer β) (done : buffer.finish ops now later = some next) :
    next.Sound := by
  have reserved := sound.reserved
  unfold finish at done
  split at done
  next identity envelope processing =>
    rw [processing] at reserved
    obtain ⟨others,own,busy⟩ := reserved
    split at done
    · obtain rfl := some.inj done
      exact buffer.release_sound identity sound.steady others own busy
    · split at done
      · obtain rfl := some.inj done
        exact release_sound _ identity sound.steady others own busy
      · obtain ⟨noted,ok,rfl⟩ := map_eq_some_iff.mp done
        obtain ⟨accumulator,watermark,rfl,steady,-⟩ := buffer.note_spec ops sound.steady _ _ _ _ _ _ ok
        exact release_sound _ identity steady others own busy
  · contradiction

theorem admitted_sound (envelope : TaskEnvelope β) : (buffer.admitted ops envelope).Sound := by
  refine ⟨sound.steady,?_,fun idled => by cases idled⟩
  have reserved := sound.reserved
  change (buffer.admitted ops envelope).Reserved buffer.phase
  cases phase : buffer.phase with
  | waiting => rw [phase] at reserved; exact reserved
  | processing => rw [phase] at reserved; exact ⟨reserved.1,reserved.2.1,rfl⟩
  | idling => rw [phase] at reserved; exact reserved

theorem step_sound (label : Label β) (next : InputBuffer β) (drains : buffer.Drains label)
    (done : buffer.step ops label = some next) : next.Sound := by
  cases label with
  | put envelope =>
    change buffer.put ops envelope = some next at done
    unfold put at done
    split at done
    · obtain rfl := some.inj done
      exact buffer.admitted_sound ops sound envelope
    · contradiction
  | putControl envelope =>
    obtain rfl := some.inj done
    exact buffer.admitted_sound ops sound envelope
  | take index => exact buffer.take_sound sound index next done
  | work now later => exact buffer.work_sound ops sound now later next done
  | finish now later => exact buffer.finish_sound ops sound now later next done
  | idle now later => exact buffer.idle_sound ops sound now later next done
  | idleDone now later => exact buffer.idleDone_sound ops sound now later next drains done
  | control now later => exact buffer.control_sound ops sound now later next drains done

end steps

theorem Sound.unreserved (sound : buffer.Sound) (resting : buffer.Resting) (idled : buffer.idled = true) :
    buffer.reservedInputBytes = 0 := by
  have reserved := sound.reserved
  rw [resting.phase] at reserved
  have bytes : buffer.accumulator.bufferedBytes = 0 := by
    rcases sound.drained idled with empty | waits
    · exact empty
    · rw [resting.runner] at waits
      contradiction
  unfold reservedInputBytes
  rw [reserved.2.1,reserved.2.2,bytes]
  simp

/-- Where idle iterations drain, an idle task admits every envelope. -/
theorem idle_task_admits (runtimeInfo : RuntimeInfo) (isAsync : Bool) (maxWeight maxBytes : Nat)
    (watermark : WatermarkController) (start final : InputBuffer β) (labels : List (Label β))
    (created : create runtimeInfo isAsync maxWeight maxBytes watermark = .ok start)
    (drains : Along (step ops) Drains start labels) (reached : exec (step ops) start labels = some final)
    (resting : final.Resting) (idled : final.idled = true) (envelope : TaskEnvelope β) :
    final.put ops envelope = some (final.admitted ops envelope) ∧
      final.tryPut ops envelope = (true,final.admitted ops envelope) := by
  have sound : final.Sound := exec_invariant (step ops) Drains Sound
    (fun state label next sound drains done => state.step_sound ops sound label next drains done) labels start final
    (create_sound start runtimeInfo isAsync maxWeight maxBytes watermark created) drains reached
  have admitted : final.canAdmit ops envelope = true := by
    unfold canAdmit
    rw [sound.unreserved final resting idled]
    exact final.queue.canAdmit_empty _ _ resting.queue
  exact ⟨if_pos admitted,if_pos admitted⟩

section examples

def sized : BufferOps Nat where
  retainedSize := fun record => record.block
  sliceRows := fun block _ _ => block
  rowBlock := fun block _ _ => block
  merge := fun batch => match batch with
    | first::_ => .ok first
    | [] => .error "IndexError: list index out of range"
  envelopeSize := fun payload => match payload with
    | .records listed => (listed.map (fun record => record.block)).sum
    | _ => 16

def tens : RuntimeInfo where
  batchSize := some 10
  batchTimeout := some 30
  sizePositive := by rintro size ⟨⟩; decide
  timeoutPositive := by rintro timeout ⟨⟩; decide
  timed := fun _ _ _ => by decide

def sizedEnvelope (bytes : Nat) : TaskEnvelope Nat :=
  ⟨.records [⟨bytes,none,none,none,none,none⟩],some (.vertex ⟨1,0⟩),some 0⟩

def idlesLater : List (Label Nat) :=
  [.put (sizedEnvelope 40),.take 0,.work 0 0,.finish 0 0,.idle 1000 1000,.idleDone 1000 1000]

def bufferOf (mode : WatermarkMode) : Option (InputBuffer Nat) :=
  (create tens false 10 100 (WatermarkController.init mode 5 (by decide))).toOption

theorem created_of_toOption (mode : WatermarkMode) (start : InputBuffer Nat) (made : bufferOf mode = some start) :
    create tens false 10 100 (WatermarkController.init mode 5 (by decide)) = .ok start := by
  unfold bufferOf at made
  cases result : create tens false 10 100 (WatermarkController.init mode 5 (by decide)) with
  | error raised => rw [result] at made; cases made
  | ok built => rw [result] at made; cases made; rfl

/-- A sink that replays flushes the row and admits a larger envelope. -/
theorem idle_sink_admits : ∃ start final, bufferOf .sink = some start ∧ exec (step sized) start idlesLater = some final ∧
    final.put sized (sizedEnvelope 150) = some (final.admitted sized (sizedEnvelope 150)) := by
  obtain ⟨start,final,made,run,drains,resting,idled⟩ := Runs.exec_check_built (step sized) (bufferOf .sink) idlesLater
    (fun start final => Along (step sized) Drains start idlesLater ∧ final.Resting ∧ final.idled = true) (by decide +kernel)
  exact ⟨start,final,made,run,(idle_task_admits sized tens false 10 100 _ start final idlesLater
    (created_of_toOption .sink start made) drains run resting idled (sizedEnvelope 150)).1⟩

/-- Without replay the row stays, though its batch has timed out. -/
theorem timed_out_batch_refuses : ¬ ∀ (labels : List (Label Nat)) (start final : InputBuffer Nat),
    bufferOf .disabled = some start → exec (step sized) start labels = some final → final.Resting →
      final.idled = true → ∀ envelope, final.put sized envelope = some (final.admitted sized envelope) := by
  intro admits
  obtain ⟨start,final,made,run,resting,idled,refused⟩ := Runs.exec_check_built (step sized) (bufferOf .disabled) idlesLater
    (fun _ final => final.Resting ∧ final.idled = true ∧ final.canAdmit sized (sizedEnvelope 150) = false) (by decide +kernel)
  have admitted := admits idlesLater start final made run resting idled (sizedEnvelope 150)
  unfold put at admitted
  rw [refused] at admitted
  cases admitted

end examples
end Klein.InputBuffer
