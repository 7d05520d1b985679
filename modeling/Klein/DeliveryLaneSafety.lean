import Klein.DeliveryLane
import Klein.MarkStream

/-! What a lane keeps for replay. Every watermark of the protocol, wherever it
is, is a mark in a first-in first-out stream: the journal's mark, the pushed and
piggybacked acknowledgements and the receiver's table are behind the forwarded
output, a queued marker is behind the queued output, and the pending mark is
behind the processed input. -/
namespace Klein.DeliveryLane
open List MarkStream

variable {ρ : Type} (c : Config ρ)

def Covers (incarnation : Nat) (seen : Set Batch) (level : Int) : Prop :=
  ∀ sequence, 1 ≤ sequence → sequence ≤ level → ⟨incarnation,sequence⟩ ∈ seen

theorem covers_monotone (incarnation : Nat) : MarkStream.Monotone (Covers incarnation) :=
  fun _ _ _ within covered sequence first last => within (covered sequence first last)

theorem covers_max (incarnation : Nat) (seen : Set Batch) (left right : Int)
    (first : Covers incarnation seen left) (second : Covers incarnation seen right) :
    Covers incarnation seen (max left right) := by
  intro sequence positive last
  by_cases below : sequence ≤ left
  · exact first sequence positive below
  · exact second sequence positive (by omega)

theorem covers_none (incarnation : Nat) (seen : Set Batch) : Covers incarnation seen (-1) := by
  intro sequence positive last
  omega

theorem covers_next (incarnation : Nat) (seen : Set Batch) (sequence : Int)
    (below : Covers incarnation seen (sequence - 1)) :
    Covers incarnation (insert ⟨incarnation,sequence⟩ seen) sequence := by
  intro other positive last
  by_cases same : other = sequence
  · exact .inl (by rw [same])
  · exact .inr (below other positive (by omega))

abbrev Stream := List (Entry Batch Int)

def EmitItem.entries : EmitItem → Stream
  | .output batch => [.item batch]
  | .marker sender sequence => if sender = c.channel then [.mark sequence] else []

def Envelope.entries (envelope : Envelope ρ) : Stream :=
  [.mark (envelope.batch.sequence - 1),.item envelope.batch]

def Command.entries (incarnation : Nat) : Command ρ → Stream
  | .data _ => []
  | .replay sequence _ => [.mark (sequence - 1),.item ⟨incarnation,sequence⟩]

def Downstream.processed (down : Downstream ρ) : Stream :=
  down.emitQueue.flatMap (EmitItem.entries c) ++ down.accumulator.map (fun envelope => .item envelope.batch)

def Downstream.stream (down : Downstream ρ) : Stream :=
  down.processed c ++ ((down.watermark.pendingBySender.get? c.channel).toList.map .mark ++
    down.inbox.flatMap Envelope.entries)

def Sender.commands (sender : Sender ρ c.targetCount) : List (Command ρ) :=
  sender.request.toList.map Request.command ++ sender.queue

def among (batches : List Batch) : Set Batch := {batch | batch ∈ batches}

structure Ledger (incarnation : Nat) (journal : DeliveryJournal ρ c.targetCount) (recorded : List Batch)
    (left : Set Batch) : Prop where
  enabled : journal.enabled = true
  started : 0 ≤ journal.sequence c.target
  sorted : (journal.pendingSequences c.target).Pairwise (· < ·)
  within : ∀ sequence ∈ journal.pendingSequences c.target, sequence ≤ journal.sequence c.target
  complete : ∀ sequence, 1 ≤ sequence → sequence ≤ journal.sequence c.target →
    sequence ∈ journal.pendingSequences c.target ∨ sequence ≤ journal.forwarded c.target
  known : ∀ batch ∈ recorded, batch.incarnation ≤ incarnation ∧ (batch.incarnation = incarnation →
    1 ≤ batch.sequence ∧ batch.sequence ≤ journal.sequence c.target)
  released : Covers incarnation left (journal.forwarded c.target)

structure Outgoing (incarnation : Nat) (journal : DeliveryJournal ρ c.targetCount) (left received : Set Batch)
    (request : Request ρ) : Prop where
  answered : ∀ watermark ∈ request.reply, Covers incarnation left watermark
  live : request.command.isReplay = false → request.sequence = journal.sequence c.target + 1
  resent : ∀ sequence records, request.command = .replay sequence records →
    request.sequence = sequence ∧ (request.reply.isSome → ⟨incarnation,sequence⟩ ∈ received)

structure Incoming (incarnation : Nat) (left received : Set Batch) (down : Downstream ρ) : Prop where
  table : Covers incarnation left (down.watermark.forwardedSequenceFor (some c.channel))
  met : Met (Covers incarnation) left (down.stream c)
  held : received ⊆ left ∪ items (down.stream c)
  current : ∀ envelope ∈ down.inbox, envelope.batch.incarnation = incarnation
  direct : down.watermark.mode = .sink → down.emitQueue = []

structure Sound (s : State ρ c.targetCount) : Prop where
  ledger : Ledger c s.sender.incarnation s.sender.journal s.recorded (among s.forwarded)
  acknowledged : ∀ watermark ∈ s.acknowledgements, Covers s.sender.incarnation (among s.forwarded) watermark
  outgoing : ∀ request ∈ s.sender.request,
    Outgoing c s.sender.incarnation s.sender.journal (among s.forwarded) (among s.accepted) request
  ordered : Met (Covers s.sender.incarnation) (among s.forwarded ∪ among s.accepted)
    ((s.sender.commands c).flatMap (Command.entries s.sender.incarnation))
  incoming : ∀ down ∈ s.downstream, Incoming c s.sender.incarnation (among s.forwarded) (among s.accepted) down
  absent : s.downstream = none → s.accepted = []
  crashed : s.phase = .crashed → s.downstream = none
  idle : s.phase ≠ .replaying → unsent c s.sender = []
  strays : s.strays = []

theorem Ledger.acknowledge (incarnation : Nat) (journal : DeliveryJournal ρ c.targetCount) (recorded : List Batch)
    (left : Set Batch) (watermark : Int) (sound : Ledger c incarnation journal recorded left)
    (covered : Covers incarnation left watermark) :
    Ledger c incarnation (journal.acknowledge c.target watermark) recorded left where
  enabled := by simp [sound.enabled]
  started := by simpa using sound.started
  sorted := sound.sorted.sublist (journal.acknowledge_sublist c.target watermark)
  within := by
    intro sequence member
    rw [DeliveryJournal.acknowledge_sequence]
    exact sound.within sequence ((journal.acknowledge_sublist c.target watermark).subset member)
  complete := by
    intro sequence first last
    rw [DeliveryJournal.acknowledge_sequence] at last
    rw [journal.acknowledge_forwarded c.target watermark sound.enabled]
    rcases sound.complete sequence first last with pending | released
    · by_cases above : watermark < sequence
      · exact .inl (journal.acknowledge_keeps c.target watermark sequence pending above)
      · exact .inr (by omega)
    · exact .inr (by omega)
  known := by simpa using sound.known
  released := by
    rw [journal.acknowledge_forwarded c.target watermark sound.enabled]
    exact covers_max incarnation left _ _ sound.released covered

theorem Ledger.record (incarnation : Nat) (journal next : DeliveryJournal ρ c.targetCount) (recorded : List Batch)
    (left : Set Batch) (records : List ρ) (sequence : Int) (sound : Ledger c incarnation journal recorded left)
    (following : sequence = journal.sequence c.target + 1)
    (landed : journal.recordDelivery c.measure c.target records sequence = .ok next) :
    Ledger c incarnation next (recorded ++ [⟨incarnation,sequence⟩]) left := by
  obtain ⟨enabled,committed,forwarded,pending⟩ :=
    DeliveryJournal.recordDelivery_ok c.measure journal next c.target records sequence sound.enabled landed
  have started := sound.started
  refine ⟨enabled,by omega,?_,?_,?_,?_,by rw [forwarded]; exact sound.released⟩
  · rw [pending]
    refine pairwise_append.mpr ⟨sound.sorted,by split <;> simp,?_⟩
    intro old inside other added
    have latest : other = sequence := by
      split at added <;> simp_all
    have below := sound.within old inside
    omega
  · intro other member
    rw [pending] at member
    rcases mem_append.mp member with inside | added
    · have below := sound.within other inside
      omega
    · have latest : other = sequence := by
        split at added <;> simp_all
      omega
  · intro other first last
    rw [pending,forwarded]
    by_cases latest : other = sequence
    · by_cases retained : journal.forwarded c.target < sequence
      · exact .inl (by simp [retained,latest])
      · exact .inr (by omega)
    · rcases sound.complete other first (by omega) with inside | released
      · exact .inl (mem_append_left _ inside)
      · exact .inr released
  · intro batch member
    rcases mem_append.mp member with inside | added
    · obtain ⟨older,bounds⟩ := sound.known batch inside
      refine ⟨older,fun same => ?_⟩
      have range := bounds same
      omega
    · obtain rfl : batch = ⟨incarnation,sequence⟩ := by simpa using added
      exact ⟨le_refl incarnation,fun _ => ⟨by dsimp only; omega,by dsimp only; omega⟩⟩

theorem Ledger.mono (incarnation : Nat) (journal : DeliveryJournal ρ c.targetCount) (recorded : List Batch)
    (small large : Set Batch) (within : small ⊆ large) (sound : Ledger c incarnation journal recorded small) :
    Ledger c incarnation journal recorded large :=
  {sound with released := covers_monotone incarnation _ _ _ within sound.released}

variable (s next : State ρ c.targetCount)

theorem initial_sound : Sound c (initial c) where
  ledger := ⟨rfl,le_refl _,List.Pairwise.nil,by simp [initial,freshSender,freshJournal,DeliveryJournal.init,
    DeliveryJournal.pendingSequences,DeliveryJournal.pendingFor],by
      intro sequence first last
      change sequence ≤ 0 at last
      omega,by simp [initial],covers_none _ _⟩
  acknowledged := by simp [initial]
  outgoing := by simp [initial,freshSender]
  ordered := trivial
  incoming := by
    intro down found
    obtain rfl : freshDownstream c = down := by simpa [initial] using found
    exact ⟨covers_none _ _,trivial,by simp [among,initial],by simp [freshDownstream],fun _ => rfl⟩
  absent := by simp [initial]
  crashed := by simp [initial]
  idle := by simp [initial,unsent,freshSender]
  strays := rfl

theorem enqueue_sound (records : List ρ) (sound : Sound c s) (taken : enqueue c s records = some next) :
    Sound c next := by
  cases taken
  refine {sound with ordered := ?_,idle := ?_}
  · have same := sound.ordered
    simpa [Sender.commands,flatMap_append,Command.entries] using same
  · intro phase
    simpa [unsent] using sound.idle phase

theorem send_sound (sound : Sound c s) (taken : send c s = some next) : Sound c next := by
  unfold send at taken
  split at taken
  next command rest vacant queued =>
    cases taken
    refine {sound with outgoing := ?_,ordered := ?_,idle := ?_}
    · intro request found
      obtain rfl : ⟨command,sequenceFor c s.sender command,none⟩ = request := by simpa using found
      refine ⟨by simp,?_,?_⟩
      · intro live
        cases command with
        | data records => rfl
        | replay sequence records => simp [Command.isReplay] at live
      · rintro sequence records rfl
        exact ⟨rfl,by simp⟩
    · simpa [Sender.commands,vacant,queued] using sound.ordered
    · intro phase
      simpa [unsent,vacant,queued] using sound.idle phase
  next => contradiction

theorem retry_sound (sound : Sound c s) (taken : retry c s = some next) : Sound c next := by
  unfold retry at taken
  split at taken
  next request pending =>
    cases taken
    have before := sound.outgoing request (by simp [pending])
    refine {sound with outgoing := ?_,ordered := ?_,idle := ?_}
    · intro again found
      obtain rfl : ⟨request.command,sequenceFor c s.sender request.command,none⟩ = again := by simpa using found
      refine ⟨by simp,?_,?_⟩
      · intro live
        rw [← before.live live]
        cases command : request.command with
        | data records => rw [before.live live]; rfl
        | replay sequence records => simp [Command.isReplay,command] at live
      · intro sequence records same
        dsimp only at same
        simp [same,sequenceFor]
    · simpa [Sender.commands,pending] using sound.ordered
    · intro phase
      simpa [unsent,pending] using sound.idle phase
  next => contradiction

/-- A live batch is handed to the receiver only after every batch that the
journal still holds has been handed to that same receiver. -/
def HandedOver : Action ρ → Prop
  | .accept => ∀ request ∈ s.sender.request, request.command.isReplay = false →
      ∀ sequence ∈ s.sender.journal.pendingSequences c.target, ⟨s.sender.incarnation,sequence⟩ ∈ s.accepted
  | _ => True

instance (label : Action ρ) : Decidable (HandedOver c s label) := by
  cases label <;> unfold HandedOver <;> infer_instance

theorem handed_below (sound : Sound c s) (handed : HandedOver c s .accept) (request : Request ρ)
    (pending : s.sender.request = some request) :
    Covers s.sender.incarnation (among s.forwarded ∪ among s.accepted) (request.sequence - 1) := by
  have outgoing := sound.outgoing request (by simp [pending])
  cases command : request.command with
  | data records =>
    have live : request.command.isReplay = false := by rw [command]; rfl
    intro sequence first last
    have numbered := outgoing.live live
    rcases sound.ledger.complete sequence first (by omega) with inside | released
    · exact .inr (handed request (by simp [pending]) live sequence inside)
    · exact .inl (sound.ledger.released sequence first released)
  | replay sequence records =>
    have ordered := sound.ordered
    simp only [Sender.commands,pending,Option.toList_some,map_cons,map_nil,cons_append,
      nil_append,flatMap_cons,command,Command.entries,Met] at ordered
    rw [(outgoing.resent sequence records command).1]
    exact ordered.1

theorem Incoming.admitted (incarnation : Nat) (left : Set Batch) (accepted : List Batch) (down : Downstream ρ)
    (envelope : Envelope ρ) (incoming : Incoming c incarnation left (among accepted) down)
    (current : envelope.batch.incarnation = incarnation)
    (below : Covers incarnation (left ∪ among accepted) (envelope.batch.sequence - 1)) :
    Incoming c incarnation left (among (accepted ++ [envelope.batch]))
      {down with inbox := down.inbox ++ [envelope]} := by
  have longer : Downstream.stream c {down with inbox := down.inbox ++ [envelope]} =
      down.stream c ++ envelope.entries := by
    simp [Downstream.stream,Downstream.processed]
  have inside : left ∪ among accepted ⊆ left ∪ items (down.stream c) :=
    Set.union_subset Set.subset_union_left incoming.held
  refine ⟨incoming.table,?_,?_,?_,incoming.direct⟩
  · rw [longer,met_append]
    exact ⟨incoming.met,covers_monotone incarnation _ _ _ inside below,trivial⟩
  · rw [longer,items_append]
    intro batch member
    rcases mem_append.mp member with old | added
    · rcases incoming.held old with forwarded | held
      · exact .inl forwarded
      · exact .inr (.inl held)
    · obtain rfl : batch = envelope.batch := by simpa using added
      exact .inr (.inr (by simp [Envelope.entries,items]))
  · intro other member
    rcases mem_append.mp member with old | added
    · exact incoming.current other old
    · obtain rfl : other = envelope := by simpa using added
      exact current

theorem accept_sound (sound : Sound c s) (handed : HandedOver c s .accept) (taken : accept c s = some next) :
    Sound c next := by
  unfold accept at taken
  split at taken
  next command sequence down pending present =>
    cases taken
    have below := handed_below c s sound handed _ pending
    have outgoing := sound.outgoing _ pending
    have incoming := sound.incoming down present
    have grown : among s.accepted ⊆ among (s.accepted ++ [⟨s.sender.incarnation,sequence⟩]) :=
      fun batch inside => mem_append_left _ inside
    refine {sound with outgoing := ?_,ordered := ?_,incoming := ?_,absent := by simp,crashed := ?_,idle := ?_}
    · intro request found
      obtain rfl := Option.some.inj found
      refine ⟨?_,outgoing.live,?_⟩
      · intro watermark carried
        obtain rfl := Option.some.inj carried
        exact incoming.table
      · intro replayed records same
        have numbered := (outgoing.resent replayed records same).1
        exact ⟨numbered,fun _ => mem_append_right _ (by rw [← numbered]; simp)⟩
    · refine Met.mono _ (covers_monotone _) _ _ _ (Set.union_subset_union_right _ grown) ?_
      simpa [Sender.commands,pending] using sound.ordered
    · intro down' found
      obtain rfl := Option.some.inj found
      exact Incoming.admitted c _ _ _ _ ⟨⟨s.sender.incarnation,sequence⟩,command.records⟩ incoming rfl below
    · intro crashed
      simp [sound.crashed crashed] at present
    · intro phase
      simpa [unsent,pending] using sound.idle phase
  next => contradiction

theorem reply_sound (sound : Sound c s) (taken : reply c s = some next) : Sound c next := by
  unfold reply at taken
  split at taken
  next command sequence watermark pending =>
    have outgoing := sound.outgoing _ pending
    have ordered := sound.ordered
    have ledger := sound.ledger.acknowledge c _ _ _ _ watermark (outgoing.answered watermark rfl)
    simp only [Sender.commands,pending,Option.toList_some,map_cons,map_nil,cons_append,
      nil_append,flatMap_cons] at ordered
    dsimp only at taken
    split at taken
    next replayed records =>
      cases taken
      obtain ⟨-,delivered⟩ := outgoing.resent replayed records rfl
      refine {sound with ledger,outgoing := by simp,ordered := ?_,idle := ?_}
      · refine Met.mono _ (covers_monotone _) _ _ _ ?_ ordered.2
        exact Set.insert_subset (.inr (delivered rfl)) subset_rfl
      · intro phase
        have idle := sound.idle phase
        simp [unsent,pending] at idle
    next records =>
      split at taken
      next => contradiction
      next journal landed =>
        cases taken
        refine {sound with ledger := ?_,outgoing := by simp,ordered,idle := ?_}
        · exact ledger.record c _ _ _ _ _ _ _ (by simpa using outgoing.live rfl) landed
        · intro phase
          simpa [unsent,pending] using sound.idle phase
  next => contradiction

theorem Sound.receive (down after : Downstream ρ) (forwarded : List Batch) (acknowledgements : List Int)
    (sound : Sound c s) (present : s.downstream = some down)
    (grown : ∀ batch ∈ s.forwarded, batch ∈ forwarded)
    (covered : ∀ watermark ∈ acknowledgements, Covers s.sender.incarnation (among forwarded) watermark)
    (incoming : Incoming c s.sender.incarnation (among forwarded) (among s.accepted) after) :
    Sound c {s with downstream := some after,forwarded,acknowledgements} where
  ledger := sound.ledger.mono c _ _ _ _ _ grown
  acknowledged := covered
  outgoing := by
    intro request found
    have before := sound.outgoing request found
    refine ⟨fun watermark carried => ?_,before.live,before.resent⟩
    exact covers_monotone _ _ _ _ grown (before.answered watermark carried)
  ordered := Met.mono _ (covers_monotone _) _ _ _ (Set.union_subset_union_left _ grown) sound.ordered
  incoming := by
    intro other found
    obtain rfl := Option.some.inj found
    exact incoming
  absent := by simp
  crashed := by
    intro crashed
    simp [sound.crashed crashed] at present
  idle := sound.idle
  strays := sound.strays

theorem Incoming.process (incarnation : Nat) (left received : Set Batch) (down : Downstream ρ)
    (envelope : Envelope ρ) (rest : List (Envelope ρ)) (incoming : Incoming c incarnation left received down)
    (waiting : down.inbox = envelope::rest) :
    Incoming c incarnation left received {down with
      inbox := rest
      accumulator := down.accumulator ++ [envelope]
      watermark := (down.watermark.noteProcessed (some c.channel) (some envelope.batch.sequence)).1} := by
  have current := incoming.current envelope (by simp [waiting])
  have met := incoming.met
  have held := incoming.held
  simp only [Downstream.stream,waiting,flatMap_cons] at met held
  simp only [met_append,Envelope.entries,cons_append,nil_append,Met,items_marks,Set.union_empty] at met
  obtain ⟨processed,marked,below,later⟩ := met
  have longer : Downstream.stream c {down with
      inbox := rest
      accumulator := down.accumulator ++ [envelope]
      watermark := (down.watermark.noteProcessed (some c.channel) (some envelope.batch.sequence)).1} =
      down.processed c ++ (.item envelope.batch::
        .mark (max ((down.watermark.pendingBySender.get? c.channel).getD (-1)) envelope.batch.sequence)::
        rest.flatMap Envelope.entries) := by
    simp [Downstream.stream,Downstream.processed,WatermarkController.noteProcessed]
  have raised : Covers incarnation (insert envelope.batch (left ∪ items (down.processed c)))
      (max ((down.watermark.pendingBySender.get? c.channel).getD (-1)) envelope.batch.sequence) := by
    apply covers_max
    · refine covers_monotone incarnation _ _ _ (Set.subset_insert _ _) ?_
      cases mark : down.watermark.pendingBySender.get? c.channel with
      | none => exact covers_none incarnation _
      | some level =>
        rw [mark] at marked
        exact marked.1
    · have same : envelope.batch = ⟨incarnation,envelope.batch.sequence⟩ := by rw [← current]
      rw [same]
      exact covers_next incarnation _ _ below
  refine ⟨incoming.table,?_,?_,fun other member => incoming.current other (by simp [waiting,member]),
    incoming.direct⟩
  · rw [longer,met_append]
    exact ⟨processed,raised,later⟩
  · rw [longer]
    intro batch member
    simpa [items_append,items_marks,Envelope.entries,items] using held member

theorem process_sound (sound : Sound c s) (taken : process c s = some next) : Sound c next := by
  unfold process at taken
  split at taken
  next down present =>
    split at taken
    next envelope rest waiting =>
      cases taken
      have incoming := sound.incoming down present
      refine sound.receive c s down _ s.forwarded s.acknowledgements present (fun _ inside => inside)
        sound.acknowledged ?_
      exact incoming.process c _ _ _ _ _ _ waiting
    next => contradiction
  next => contradiction

theorem drain_sound (sound : Sound c s) (taken : drain c s = some next) : Sound c next := by
  unfold drain at taken
  split at taken
  next down present =>
    split at taken
    next envelope rest accumulated =>
      split at taken
      next => contradiction
      next pipelined =>
        cases taken
        have incoming := sound.incoming down present
        have same : Downstream.stream c {down with
            accumulator := rest
            emitQueue := down.emitQueue ++ [.output envelope.batch]} = down.stream c := by
          simp [Downstream.stream,Downstream.processed,accumulated,EmitItem.entries]
        refine sound.receive c s down _ s.forwarded s.acknowledgements present (fun _ inside => inside)
          sound.acknowledged ⟨incoming.table,?_,?_,incoming.current,fun sink => absurd sink pipelined⟩
        · rw [same]
          exact incoming.met
        · rw [same]
          exact incoming.held
    next => contradiction
  next => contradiction

theorem mem_pushed (marks : List (InputChannel × Int)) (watermark : Int) :
    watermark ∈ pushed c marks ↔ (c.channel,watermark) ∈ marks := by
  simp [pushed]

theorem marker_entries (marks : List (InputChannel × Int)) :
    (marks.map (fun mark => EmitItem.marker mark.1 mark.2)).flatMap (EmitItem.entries c) =
      (pushed c marks).map .mark := by
  induction marks with
  | nil => rfl
  | cons mark rest ih =>
    by_cases same : mark.1 = c.channel
    · simpa [pushed,EmitItem.entries,same] using ih
    · simpa [pushed,EmitItem.entries,same] using ih

theorem output_entries (envelopes : List (Envelope ρ)) :
    (envelopes.map (fun envelope => EmitItem.output envelope.batch)).flatMap (EmitItem.entries c) =
      envelopes.map (fun envelope => .item envelope.batch) := by
  induction envelopes with
  | nil => rfl
  | cons envelope rest ih => simpa [EmitItem.entries] using ih

theorem table_published (incarnation : Nat) (left : Set Batch) (marks : List (InputChannel × Int))
    (watermark : WatermarkController)
    (table : Covers incarnation left (watermark.forwardedSequenceFor (some c.channel)))
    (covered : ∀ level ∈ pushed c marks, Covers incarnation left level) :
    Covers incarnation left
      ((marks.foldl (fun watermark mark => watermark.applyForwarded mark.1 mark.2) watermark).forwardedSequenceFor
        (some c.channel)) := by
  induction marks generalizing watermark with
  | nil => exact table
  | cons mark rest ih =>
    refine ih (watermark.applyForwarded mark.1 mark.2) ?_ ?_
    · rw [WatermarkController.forwarded_applyForwarded]
      split
      next same =>
        refine covers_max incarnation left _ _ table (covered mark.2 ?_)
        simp [mem_pushed,same]
      next => exact table
    · intro level member
      exact covered level (by simpa [mem_pushed] using .inr ((mem_pushed c rest level).mp member))

theorem Incoming.due (incarnation : Nat) (left received : Set Batch) (down : Downstream ρ)
    (incoming : Incoming c incarnation left received down) :
    (∀ level ∈ pushed c down.watermark.due, Covers incarnation (left ∪ items (down.processed c)) level) ∧
      Met (Covers incarnation) (left ∪ items (down.processed c))
        (((down.watermark.settle down.watermark.due).pendingBySender.get? c.channel).toList.map .mark ++
          down.inbox.flatMap Envelope.entries) := by
  have met := incoming.met
  simp only [Downstream.stream,met_append _ _ (down.processed c),met_marks] at met
  obtain ⟨-,pending,waiting⟩ := met
  constructor
  · intro level member
    have inside := (mem_pushed c _ level).mp member
    unfold WatermarkController.due at inside
    split at inside
    · exact pending level (by simp [(Dict.get?_eq_some _ _ _).mpr inside])
    · simp at inside
  · rw [met_marks]
    refine ⟨fun level member => pending level ?_,waiting⟩
    have found : (down.watermark.settle down.watermark.due).pendingBySender.get? c.channel = some level := by
      simpa using member
    simp [down.watermark.settle_pending _ _ _ found]

theorem advance_sound (sound : Sound c s) (taken : advance c s = some next) : Sound c next := by
  unfold advance at taken
  split at taken
  next => contradiction
  next down present =>
    have incoming := sound.incoming down present
    obtain ⟨covered,settled⟩ := incoming.due c
    dsimp only at taken
    split at taken
    next =>
      cases taken
      exact sound.receive c s down _ s.forwarded s.acknowledgements present (fun _ inside => inside)
        sound.acknowledged {incoming with}
    next =>
      split at taken
      next sink =>
        cases taken
        have left : among (s.forwarded ++ down.accumulator.map Envelope.batch) =
            among s.forwarded ∪ items (down.processed c) := by
          ext batch
          have member := mem_items_map (μ := Int) (down.accumulator.map Envelope.batch) batch
          rw [map_map] at member
          simp only [Downstream.processed,incoming.direct sink,flatMap_nil,nil_append]
          exact mem_append.trans (or_congr Iff.rfl member.symm)
        refine sound.receive c s down _ _ _ present (fun _ inside => mem_append_left _ inside) ?_
          ⟨?_,?_,?_,incoming.current,fun _ => incoming.direct sink⟩
        · intro watermark member
          rcases mem_append.mp member with old | added
          · exact covers_monotone _ _ _ _ (fun _ inside => mem_append_left _ inside)
              (sound.acknowledged watermark old)
          · rw [left]
            exact covered watermark added
        · rw [left]
          exact table_published c _ _ _ _ (covers_monotone _ _ _ _ Set.subset_union_left incoming.table) covered
        · rw [left]
          simpa [Downstream.stream,Downstream.processed,incoming.direct sink,WatermarkController.settle] using settled
        · rw [left]
          intro batch member
          have inside := incoming.held member
          simpa [Downstream.stream,items_append,items_marks,Downstream.processed,incoming.direct sink,or_assoc]
            using inside
      next pipelined =>
        cases taken
        have longer : Downstream.stream c {down with
            accumulator := []
            emitQueue := down.emitQueue ++ down.accumulator.map (fun envelope => .output envelope.batch) ++
              down.watermark.due.map (fun mark => .marker mark.1 mark.2)
            watermark := down.watermark.settle down.watermark.due} =
            down.processed c ++ ((pushed c down.watermark.due).map .mark ++
              (((down.watermark.settle down.watermark.due).pendingBySender.get? c.channel).toList.map .mark ++
                down.inbox.flatMap Envelope.entries)) := by
          simp only [Downstream.stream,Downstream.processed,flatMap_append,output_entries,marker_entries,
            map_nil,append_nil,append_assoc]
        have met := incoming.met
        rw [Downstream.stream,met_append] at met
        refine sound.receive c s down _ s.forwarded s.acknowledgements present (fun _ inside => inside)
          sound.acknowledged ⟨incoming.table,?_,?_,incoming.current,fun sink => absurd sink pipelined⟩
        · rw [longer,met_append,met_marks]
          exact ⟨met.1,covered,settled⟩
        · rw [longer]
          intro batch member
          simpa [Downstream.stream,items_append,items_marks] using incoming.held member

theorem emit_sound (sound : Sound c s) (taken : emit c s = some next) : Sound c next := by
  unfold emit at taken
  split at taken
  next down present =>
    have incoming := sound.incoming down present
    have met := incoming.met
    have held := incoming.held
    split at taken
    next batch rest queued =>
      cases taken
      have shorter : down.stream c = .item batch::Downstream.stream c {down with emitQueue := rest} := by
        simp [Downstream.stream,Downstream.processed,queued,EmitItem.entries]
      have left : among (s.forwarded ++ [batch]) = insert batch (among s.forwarded) := by
        ext other
        simp [among,or_comm]
      rw [shorter] at met held
      have grown : among s.forwarded ⊆ among (s.forwarded ++ [batch]) :=
        fun _ inside => mem_append_left _ inside
      refine sound.receive c s down _ _ s.acknowledgements present grown (fun watermark member =>
        covers_monotone _ _ _ _ grown (sound.acknowledged watermark member))
        ⟨covers_monotone _ _ _ _ grown incoming.table,?_,?_,incoming.current,?_⟩
      · rw [left]
        exact met
      · rw [left,Set.insert_union,← Set.union_insert]
        exact held
      · intro sink
        simp [incoming.direct sink] at queued
    next sender sequence rest queued =>
      cases taken
      have shorter : down.stream c = (pushed c [(sender,sequence)]).map .mark ++
          Downstream.stream c {down with
            emitQueue := rest
            watermark := down.watermark.applyForwarded sender sequence} := by
        have entries := marker_entries c [(sender,sequence)]
        simp only [map_cons,map_nil,flatMap_cons,flatMap_nil,append_nil] at entries
        simp [Downstream.stream,Downstream.processed,queued,entries]
      rw [shorter,met_marks] at met
      rw [shorter,items_append,items_marks,Set.empty_union] at held
      refine sound.receive c s down _ s.forwarded _ present (fun _ inside => inside) ?_
        ⟨table_published c _ _ [(sender,sequence)] _ incoming.table met.1,met.2,held,incoming.current,?_⟩
      · intro watermark member
        rcases mem_append.mp member with old | added
        · exact sound.acknowledged watermark old
        · exact met.1 watermark added
      · intro sink
        simp [incoming.direct sink] at queued
    next => contradiction
  next => contradiction

theorem deliverAck_sound (i : Nat) (sound : Sound c s) (taken : deliverAck c s i = some next) : Sound c next := by
  unfold deliverAck at taken
  split at taken
  next watermark found =>
    cases taken
    have covered := sound.acknowledged watermark (mem_of_getElem? found)
    refine {sound with
      ledger := sound.ledger.acknowledge c _ _ _ _ watermark covered
      acknowledged := fun other member => sound.acknowledged other (mem_of_mem_eraseIdx member)
      outgoing := ?_}
    intro request pending
    have before := sound.outgoing request pending
    exact ⟨before.answered,by simpa using before.live,before.resent⟩
  next => contradiction

theorem loseAck_sound (i : Nat) (sound : Sound c s) (taken : loseAck c s i = some next) : Sound c next := by
  cases taken
  exact {sound with
    acknowledged := fun other member => sound.acknowledged other (mem_of_mem_eraseIdx member)}

theorem unsent_eq_nil (sender : Sender ρ c.targetCount) (incarnation : Nat) (idle : unsent c sender = []) :
    (sender.commands c).flatMap (Command.entries incarnation) = [] := by
  rw [flatMap_eq_nil_iff]
  intro command member
  unfold unsent at idle
  rw [filterMap_eq_nil_iff] at idle
  have silent := idle command member
  cases command with
  | data records => rfl
  | replay sequence records => simp at silent

theorem crash_sound (sound : Sound c s) (taken : crash c s = some next) : Sound c next := by
  unfold crash at taken
  split at taken
  next running =>
    cases taken
    have idle := sound.idle (by simp [running])
    refine {sound with
      outgoing := ?_
      ordered := ?_
      incoming := by simp
      absent := fun _ => rfl
      crashed := fun _ => rfl
      idle := fun _ => idle}
    · intro request pending
      have before := sound.outgoing request pending
      refine ⟨before.answered,before.live,fun sequence records same => ?_⟩
      have waiting : request.command ∈ s.sender.commands c :=
        mem_append_left _ (mem_map.mpr ⟨request,by simpa using pending,rfl⟩)
      have silent := flatMap_eq_nil_iff.mp (unsent_eq_nil c s.sender 0 idle) _ waiting
      simp [same,Command.entries] at silent
    · simp only [unsent_eq_nil c s.sender _ idle,Met]
  next => contradiction

theorem bootstrap_sound (sound : Sound c s) (taken : bootstrap c s = some next) : Sound c next := by
  unfold bootstrap at taken
  split at taken
  next crashed =>
    cases taken
    have empty := sound.absent (sound.crashed crashed)
    refine {sound with
      incoming := ?_
      absent := by simp
      crashed := by simp
      idle := fun _ => sound.idle (by simp [crashed])}
    intro down found
    obtain rfl := Option.some.inj found
    exact ⟨covers_none _ _,trivial,by simp [among,empty],by simp [freshDownstream],fun _ => rfl⟩
  next => contradiction

theorem finishReplay_sound (sound : Sound c s) (taken : finishReplay c s = some next) : Sound c next := by
  unfold finishReplay at taken
  split at taken
  next finished =>
    cases taken
    exact {sound with
      crashed := by simp
      idle := fun _ => finished.2}
  next => contradiction

theorem acceptStray_sound (i : Nat) (sound : Sound c s) (taken : acceptStray c s i = some next) : Sound c next := by
  simp [acceptStray,sound.strays] at taken

theorem replay_met (incarnation : Nat) (bound : Int) (pending : List (Int × List ρ)) (seen : Set Batch)
    (sorted : (pending.map Prod.fst).Pairwise (· < ·))
    (within : ∀ sequence ∈ pending.map Prod.fst, sequence ≤ bound)
    (complete : ∀ sequence, 1 ≤ sequence → sequence ≤ bound →
      sequence ∈ pending.map Prod.fst ∨ ⟨incarnation,sequence⟩ ∈ seen) :
    Met (Covers incarnation) seen
      ((pending.map (fun entry => Command.replay entry.1 entry.2)).flatMap (Command.entries incarnation)) := by
  induction pending generalizing seen with
  | nil => trivial
  | cons entry rest ih =>
    simp only [map_cons,pairwise_cons] at sorted
    have last := within entry.1 (by simp)
    refine ⟨?_,ih _ sorted.2 (fun sequence member => within sequence (by simp [member])) ?_⟩
    · intro sequence first below
      rcases complete sequence first (by omega) with later | known
      · rcases mem_cons.mp later with same | member
        · omega
        · have above := sorted.1 sequence member
          omega
      · exact known
    · intro sequence first below
      rcases complete sequence first below with later | known
      · rcases mem_cons.mp later with same | member
        · exact .inr (.inl (by rw [same]))
        · exact .inl member
      · exact .inr (.inr known)

theorem extract_sound (sound : Sound c s) (taken : extract c s = some next) : Sound c next := by
  unfold extract at taken
  split at taken
  next rebuilt =>
    cases taken
    have idle := sound.idle (by simp [rebuilt])
    refine {sound with ordered := ?_,crashed := ?_,idle := ?_}
    · have longer : Sender.commands c {s.sender with queue := s.sender.queue ++ replayCommands c s} =
          s.sender.commands c ++ replayCommands c s := by
        simp [Sender.commands]
      rw [longer,flatMap_append,unsent_eq_nil c s.sender _ idle,nil_append]
      refine replay_met _ (s.sender.journal.sequence c.target) _ _ sound.ledger.sorted sound.ledger.within ?_
      intro sequence first last
      rcases sound.ledger.complete sequence first last with pending | released
      · exact .inl pending
      · exact .inr (.inl (sound.ledger.released sequence first released))
    · intro crashed
      dsimp only at crashed
      split at crashed <;> contradiction
    · intro phase
      dsimp only at phase ⊢
      split at phase
      next empty =>
        have nothing : replayCommands c s = [] := by simpa using empty
        simpa [unsent,nothing] using idle
      next => contradiction
  next => contradiction

def LaneUnknown : Prop :=
  s.acknowledgements = [] ∧ (∀ request ∈ s.sender.request, request.reply.isSome) ∧
    ∀ down ∈ s.downstream, down.inbox.isEmpty ∧ down.accumulator.isEmpty ∧ down.emitQueue.isEmpty ∧
      down.watermark.pendingBySender.get? c.channel = none ∧
      down.watermark.forwardedSequenceFor (some c.channel) = -1

instance : Decidable (LaneUnknown c s) := by
  unfold LaneUnknown
  infer_instance

def RebuiltUnknown : Action ρ → Prop
  | .rebuildSender => LaneUnknown c s
  | _ => True

instance (label : Action ρ) : Decidable (RebuiltUnknown c s label) := by
  cases label <;> unfold RebuiltUnknown <;> infer_instance

theorem rebuildSender_sound (sound : Sound c s) (unknown : LaneUnknown c s)
    (taken : rebuildSender c s = some next) : Sound c next := by
  unfold rebuildSender at taken
  obtain ⟨quiet,answered,empty⟩ := unknown
  split at taken
  next running =>
    cases taken
    refine ⟨⟨rfl,le_refl _,List.Pairwise.nil,?_,?_,?_,covers_none _ _⟩,?_,by simp [freshSender],trivial,?_,
      sound.absent,sound.crashed,fun _ => rfl,?_⟩
    · simp [freshSender,freshJournal,DeliveryJournal.init,DeliveryJournal.pendingSequences,
        DeliveryJournal.pendingFor]
    · intro sequence first last
      change sequence ≤ 0 at last
      omega
    · intro batch member
      have older := (sound.ledger.known batch member).1
      refine ⟨by dsimp only [freshSender]; omega,fun same => ?_⟩
      dsimp only [freshSender] at same
      omega
    · simp [quiet]
    · intro down present
      obtain ⟨inbox,accumulator,emitQueue,pending,table⟩ := empty down present
      have held := (sound.incoming down present).held
      rw [List.isEmpty_iff] at inbox accumulator emitQueue
      have nothing : down.stream c = [] := by
        simp [Downstream.stream,Downstream.processed,inbox,accumulator,emitQueue,pending]
      refine ⟨by rw [table]; exact covers_none _ _,by rw [nothing]; trivial,?_,by simp [inbox],fun _ => emitQueue⟩
      rw [nothing] at held ⊢
      exact held
    · have none : s.sender.request.toList.filterMap (fun request => if request.reply = none then
          some (⟨⟨s.sender.incarnation,request.sequence⟩,request.command.records⟩ : Envelope ρ) else none) = [] := by
        rw [filterMap_eq_nil_iff]
        intro request member
        have replied := answered request (by simpa using member)
        simp [Option.isSome_iff_ne_none.mp replied]
      simp [sound.strays,none]
  next => contradiction

theorem step_sound (label : Action ρ) (sound : Sound c s) (handed : HandedOver c s label)
    (unknown : RebuiltUnknown c s label) (taken : step c s label = some next) : Sound c next := by
  cases label with
  | enqueue records => exact enqueue_sound c s next records sound taken
  | send => exact send_sound c s next sound taken
  | retry => exact retry_sound c s next sound taken
  | accept => exact accept_sound c s next sound handed taken
  | reply => exact reply_sound c s next sound taken
  | process => exact process_sound c s next sound taken
  | drain => exact drain_sound c s next sound taken
  | advance => exact advance_sound c s next sound taken
  | emit => exact emit_sound c s next sound taken
  | deliverAck i => exact deliverAck_sound c s next i sound taken
  | loseAck i => exact loseAck_sound c s next i sound taken
  | crash => exact crash_sound c s next sound taken
  | bootstrap => exact bootstrap_sound c s next sound taken
  | extract => exact extract_sound c s next sound taken
  | finishReplay => exact finishReplay_sound c s next sound taken
  | rebuildSender => exact rebuildSender_sound c s next sound unknown taken
  | acceptStray i => exact acceptStray_sound c s next i sound taken

end Klein.DeliveryLane
