import Klein.Kafka.CanalJsonSource

/-! Checkpoints of a Kafka source that reads canal-json: what every run keeps of its
positions and cursors, and the rows that a restart from a snapshot emits. -/
namespace Klein.Kafka
open Dict List Option Runs

namespace SourceRun
variable {ρ : Type} (config : SourceConfig) (log : Log ρ)

structure Cursors (positions : Positions) (inflight : Inflight) : Prop where
  offsets : ∀ key position, positions.get? key = some position → 0 ≤ position
  matched : Matched positions inflight
  inside : ∀ key cursor, inflight.get? key = some cursor →
    ∃ rows, (cursor.1,rows) ∈ log.messages key ∧ cursor.2.toNat < rows.length

structure Consistent (run : SourceRun ρ) : Prop where
  cursors : Cursors log run.source.positions run.source.formatInflight
  read : ∀ key position, run.source.positions.get? key = some position →
    ∃ reading, run.readings.get? key = some reading ∧ reading.point = run.source.point key
  left : ∀ key reading, run.readings.get? key = some reading → reading.point.2 = (run.source.point key).2
  exact : ∀ key reading, run.readings.get? key = some reading →
    reading.emitted ++ rest (log.messages key) reading.point = rest (log.messages key) reading.start
  fetched : run.source.pending = false → run.source.current = none →
    ∀ key position, run.source.fetch.get? key = some position → run.source.positions.get? key = some position
  collecting : ∀ emission, run.source.current = some emission → run.source.pending = false ∧
    (emission.offset,emission.rows) ∈ log.messages emission.key ∧ emission.index < emission.rows.length ∧
    (∃ position, run.source.positions.get? emission.key = some position) ∧
    run.source.fetch.get? emission.key = some (emission.offset + 1) ∧
    rest (log.messages emission.key) (run.source.point emission.key) =
      emission.rows.drop emission.index ++ rest (log.messages emission.key) (emission.offset + 1,0) ∧
    ∀ key position, key ≠ emission.key → run.source.fetch.get? key = some position → run.source.positions.get? key = some position
  snapshots : ∀ state ∈ run.snapshots, ∃ decoded, restoredState .canalJson (some state) = .ok decoded ∧ Cursors log decoded.1 decoded.2

namespace Consistent
variable {config log} {run next : SourceRun ρ}

theorem initial : Consistent log (initial : SourceRun ρ) := by
  refine ⟨⟨?_,?_,?_⟩,?_,?_,?_,?_,?_,?_⟩
  · intro key position found
    cases found
  · intro key cursor found
    cases found
  · intro key cursor found
    cases found
  · intro key position found
    cases found
  · intro key reading found
    cases found
  · intro key reading found
    cases found
  · intro pending
    cases pending
  · intro emission collecting
    cases collecting
  · intro state inside
    cases inside

theorem point_congr (source other : KafkaSource ρ) (key : PartitionKey)
    (positions : source.positions.get? key = other.positions.get? key)
    (inflight : source.formatInflight.get? key = other.formatInflight.get? key) : source.point key = other.point key := by
  unfold KafkaSource.point
  rw [positions,inflight]

section
variable (consistent : Consistent log run)
include consistent

theorem advance (source : KafkaSource ρ) (key : PartitionKey) (rows : List ρ) (position offset : Int)
    (held : run.source.positions.get? key = some position) (counted : 0 ≤ offset)
    (positions : ∀ other, source.positions.get? other = if other = key then some offset else run.source.positions.get? other)
    (others : ∀ other, other ≠ key → source.formatInflight.get? other = run.source.formatInflight.get? other)
    (cursor : ∀ cursor, source.formatInflight.get? key = some cursor → offset = cursor.1 ∧ 0 < cursor.2 ∧
      ∃ rows, (cursor.1,rows) ∈ log.messages key ∧ cursor.2.toNat < rows.length)
    (moved : rest (log.messages key) (run.source.point key) = rows ++ rest (log.messages key) (source.point key))
    (fetched : source.pending = false → source.current = none →
      ∀ key position, source.fetch.get? key = some position → source.positions.get? key = some position)
    (collecting : ∀ emission, source.current = some emission → source.pending = false ∧
      (emission.offset,emission.rows) ∈ log.messages emission.key ∧ emission.index < emission.rows.length ∧
      (∃ position, source.positions.get? emission.key = some position) ∧
      source.fetch.get? emission.key = some (emission.offset + 1) ∧
      rest (log.messages emission.key) (source.point emission.key) =
        emission.rows.drop emission.index ++ rest (log.messages emission.key) (emission.offset + 1,0) ∧
      ∀ key position, key ≠ emission.key → source.fetch.get? key = some position → source.positions.get? key = some position) :
    Consistent log (run.advance source key rows) := by
  obtain ⟨reading,known,at'⟩ := consistent.read key position held
  have same (other : PartitionKey) (different : other ≠ key) : source.point other = run.source.point other :=
    point_congr source run.source other (by rw [positions,if_neg different]) (others other different)
  have advanced : run.advance source key rows =
      ⟨source,run.readings.set key ⟨reading.start,reading.emitted ++ rows,source.point key⟩,run.snapshots⟩ := by
    unfold SourceRun.advance
    rw [known]
  rw [advanced]
  refine ⟨⟨fun other position' found => ?_,fun other cursor' found => ?_,fun other cursor' found => ?_⟩,fun other position' found => ?_,
    fun other reading' found => ?_,fun other reading' found => ?_,fetched,collecting,consistent.snapshots⟩
  · dsimp only at found
    rw [positions] at found
    split at found
    next =>
      obtain rfl := some.inj found
      exact counted
    next => exact consistent.cursors.offsets other position' found
  · dsimp only at found ⊢
    rw [positions]
    by_cases here : other = key
    · rw [here] at found
      obtain ⟨equal,index,-⟩ := cursor cursor' found
      rw [if_pos here,equal]
      exact ⟨rfl,equal ▸ counted,index⟩
    · rw [if_neg here]
      rw [others other here] at found
      exact consistent.cursors.matched other cursor' found
  · by_cases here : other = key
    · subst here
      exact (cursor cursor' found).2.2
    · dsimp only at found
      rw [others other here] at found
      exact consistent.cursors.inside other cursor' found
  · dsimp only at found ⊢
    rw [Dict.get?_set]
    by_cases here : other = key
    · rw [if_pos here]
      exact ⟨_,rfl,by rw [here]⟩
    · rw [if_neg here,same other here]
      rw [positions,if_neg here] at found
      exact consistent.read other position' found
  · dsimp only at found ⊢
    rw [Dict.get?_set] at found
    split at found
    next here =>
      obtain rfl := some.inj found
      rw [here]
    next here =>
      rw [same other here]
      exact consistent.left other reading' found
  · dsimp only at found
    rw [Dict.get?_set] at found
    split at found
    next here =>
      obtain rfl := some.inj found
      dsimp only
      rw [here,append_assoc,← moved,← at']
      exact consistent.exact key reading known
    next => exact consistent.exact other reading' found

theorem collect (emission : Emission ρ) (current : run.source.current = some emission) (row : ρ)
    (collected : emission.rows[emission.index]? = some row) :
    Consistent log (run.advance (run.source.collect emission) emission.key [row]) := by
  obtain ⟨pending,inside,-,⟨position,held⟩,fetch,point,others⟩ := consistent.collecting emission current
  have counted := log.counted emission.key _ inside
  have drop : emission.rows.drop emission.index = row::emission.rows.drop (emission.index + 1) := by
    obtain ⟨within,same⟩ := List.getElem?_eq_some_iff.mp collected
    rw [drop_eq_getElem_cons within,same]
  have within : emission.index < emission.rows.length := (List.getElem?_eq_some_iff.mp collected).1
  have after : rest (log.messages emission.key) (emission.offset,emission.index + 1) =
      emission.rows.drop (emission.index + 1) ++ rest (log.messages emission.key) (emission.offset + 1,0) :=
    rest_message (log.ordered emission.key) emission.offset emission.rows inside (emission.index + 1)
  rw [drop] at point
  unfold KafkaSource.collect KafkaSource.prepareFormattedCollect
  by_cases last : emission.index + 1 = emission.rows.length
  · rw [if_pos last]
    have done : emission.rows.drop (emission.index + 1) = [] := by rw [last]; exact drop_length
    have next : ({run.source with
        positions := run.source.positions.set emission.key (emission.offset + 1)
        formatInflight := run.source.formatInflight.erase emission.key} : KafkaSource ρ).point emission.key =
        (emission.offset + 1,0) := by
      unfold KafkaSource.point
      simp
    dsimp only
    rw [if_neg (by omega)]
    refine consistent.advance _ emission.key [row] position (emission.offset + 1) held (by omega) (fun other => ?_) (fun other different => ?_)
      (fun cursor found => ?_) ?_ (fun _ _ key position found => ?_) (fun other collecting => ?_)
    · exact Dict.get?_set _ _ _ _
    · dsimp only
      rw [Dict.get?_erase,if_neg different]
    · dsimp only at found
      rw [Dict.get?_erase,if_pos rfl] at found
      cases found
    · rw [point,done]
      exact congrArg (fun point => [row] ++ rest (log.messages emission.key) point) next.symm
    · dsimp only at found ⊢
      rw [Dict.get?_set]
      by_cases here : key = emission.key
      · rw [here,fetch] at found
        rw [if_pos here]
        exact found
      · rw [if_neg here]
        exact others key position here found
    · cases collecting
  · rw [if_neg last]
    have next : ({run.source with
        positions := run.source.positions.set emission.key emission.offset
        formatInflight := run.source.formatInflight.set emission.key (emission.offset,emission.index + 1)} : KafkaSource ρ).point
        emission.key = (emission.offset,emission.index + 1) := by
      unfold KafkaSource.point
      simp
    dsimp only
    rw [if_pos (by omega)]
    refine consistent.advance _ emission.key [row] position emission.offset held counted (fun other => ?_) (fun other different => ?_)
      (fun cursor found => ?_) ?_ (fun _ none' => by cases none') (fun other collecting => ?_)
    · exact Dict.get?_set _ _ _ _
    · dsimp only
      rw [Dict.get?_set,if_neg different]
    · dsimp only at found
      rw [Dict.get?_set,if_pos rfl] at found
      obtain rfl := some.inj found
      refine ⟨rfl,by dsimp only; omega,emission.rows,inside,?_⟩
      dsimp only
      omega
    · rw [point,cons_append,← after]
      exact congrArg (fun point => [row] ++ rest (log.messages emission.key) point) next.symm
    · obtain rfl := some.inj collecting
      refine ⟨pending,inside,by dsimp only; omega,⟨emission.offset,?_⟩,fetch,?_,fun key position different found => ?_⟩
      · dsimp only
        rw [Dict.get?_set,if_pos rfl]
      · rw [← after]
        exact congrArg (rest (log.messages emission.key)) next
      · dsimp only
        rw [Dict.get?_set,if_neg different]
        exact others key position different found

theorem resume (key : PartitionKey) (position offset : Int) (rows : List ρ)
    (held : run.source.positions.get? key = some position)
    (found : (log.messages key).find? (fun message => position ≤ message.1) = some (offset,rows)) :
    ∃ index, run.source.resumeFormatIndex key offset rows.length = .ok index ∧ (rows ≠ [] → index < rows.length) ∧
      rest (log.messages key) (run.source.point key) = rows.drop index ++ rest (log.messages key) (offset + 1,0) := by
  unfold KafkaSource.resumeFormatIndex KafkaSource.point
  rw [held,getD_some]
  cases cursor : run.source.formatInflight.get? key with
  | none =>
    refine ⟨0,rfl,length_pos_iff.mpr,?_⟩
    exact rest_next (log.ordered key) position offset rows found
  | some cursor' =>
    obtain ⟨same,-,index⟩ := consistent.cursors.matched key cursor' cursor
    obtain ⟨rows',inside,within⟩ := consistent.cursors.inside key cursor' cursor
    obtain rfl := some.inj (held.symm.trans same)
    obtain ⟨rfl,rfl⟩ := Prod.mk.inj (some.inj (found.symm.trans (find_message (log.ordered key) cursor'.1 rows' inside)))
    refine ⟨cursor'.2.toNat,?_,fun _ => within,?_⟩
    · dsimp only
      rw [if_neg (by simp),if_neg (by omega)]
    · exact rest_message (log.ordered key) cursor'.1 rows inside cursor'.2.toNat

theorem poll (key : PartitionKey) (position offset : Int) (rows : List ρ)
    (pending : run.source.pending = false) (current : run.source.current = none)
    (fetch : run.source.fetch.get? key = some position)
    (found : (log.messages key).find? (fun message => position ≤ message.1) = some (offset,rows)) :
    ∃ source, run.source.receive key offset rows = .ok source ∧ Consistent log (run.advance source key []) := by
  have held := consistent.fetched pending current key position fetch
  have inside : (offset,rows) ∈ log.messages key := mem_of_find?_eq_some found
  have counted := log.counted key _ inside
  have others (other : PartitionKey) (position : Int) (different : other ≠ key)
      (found : (run.source.fetch.set key (offset + 1)).get? other = some position) :
      run.source.positions.get? other = some position := by
    rw [Dict.get?_set,if_neg different] at found
    exact consistent.fetched pending current other position found
  obtain ⟨index,resumed,within,point⟩ := consistent.resume key position offset rows held found
  have resumed : KafkaSource.resumeFormatIndex {run.source with fetch := run.source.fetch.set key (offset + 1)} key offset rows.length =
      .ok index := resumed
  unfold KafkaSource.receive
  dsimp only
  rw [Fallible.ok_bind resumed]
  by_cases nothing : rows = []
  · rw [if_pos nothing]
    refine ⟨_,rfl,consistent.advance _ key [] position (offset + 1) held (by omega) (fun other => ?_) (fun other different => ?_)
      (fun cursor found => ?_) ?_ (fun _ _ other position found => ?_) (fun other collecting => ?_)⟩
    · exact Dict.get?_set _ _ _ _
    · dsimp only [KafkaSource.finishFormattedMessage]
      rw [Dict.get?_erase,if_neg different]
    · dsimp only [KafkaSource.finishFormattedMessage] at found
      rw [Dict.get?_erase,if_pos rfl] at found
      cases found
    · rw [point,nothing,drop_nil]
      unfold KafkaSource.finishFormattedMessage KafkaSource.point
      simp
    · dsimp only [KafkaSource.finishFormattedMessage] at found ⊢
      rw [Dict.get?_set]
      by_cases here : other = key
      · rw [here,Dict.get?_set,if_pos rfl] at found
        rw [if_pos here]
        exact found
      · rw [if_neg here]
        exact others other position here found
    · cases current.symm.trans collecting
  · rw [if_neg nothing]
    refine ⟨_,rfl,consistent.advance _ key [] position position held (consistent.cursors.offsets key position held) (fun other => ?_)
      (fun other different => rfl) (fun cursor found => ?_) rfl (fun _ none' => by cases none') (fun other collecting => ?_)⟩
    · split
      next here => rw [here]; exact held
      next => rfl
    · obtain ⟨same,-,started⟩ := consistent.cursors.matched key cursor found
      exact ⟨some.inj (held.symm.trans same),started,consistent.cursors.inside key cursor found⟩
    · obtain rfl := some.inj collecting
      exact ⟨pending,inside,within nothing,⟨position,held⟩,by simp,point,fun other position different found =>
        others other position different found⟩

end

theorem clampOffset_nonneg (answer : Answer) (offset : Int) : 0 ≤ clampOffset offset answer.low answer.high := by
  have bounds := answer.bounds
  unfold clampOffset
  split
  · exact bounds.1
  · omega

private theorem configured_nonneg (config : SourceConfig) (key : PartitionKey) (answer : Answer) :
    0 ≤ (match config.startOffset key with
      | .earliest => answer.low
      | .latest => answer.high
      | .offset value => clampOffset value answer.low answer.high
      | .datetime => match answer.forTime with
        | some offset => clampOffset (if 0 ≤ offset then offset else answer.high) answer.low answer.high
        | none => clampOffset answer.high answer.low answer.high) := by
  have bounds := answer.bounds
  have clamp := clampOffset_nonneg answer
  split
  · exact bounds.1
  · omega
  · exact clamp _
  · split <;> exact clamp _

theorem resolveAssignmentOffset_nonneg (config : SourceConfig) (source : KafkaSource ρ) (key : PartitionKey) (answer : Answer) :
    0 ≤ source.resolveAssignmentOffset config key answer := by
  have clamp := clampOffset_nonneg answer
  have configured := configured_nonneg config key answer
  unfold KafkaSource.resolveAssignmentOffset
  dsimp only
  split
  · exact clamp _
  · split
    · exact clamp _
    · split
      · split
        · exact clamp _
        · exact configured
      · exact configured

theorem begun_get? (source : KafkaSource ρ) (positions : Positions) (key : PartitionKey) :
    (begun source positions).get? key = (positions.get? key).map (fun _ => ⟨source.point key,[],source.point key⟩) :=
  get?_mapValues _ _ _

variable (config) in
theorem refresh (consistent : Consistent log run) (force : Bool) (partitions : List PartitionKey) (answers : PartitionKey → Answer)
    (current : run.source.current = none) (sound : Sound config run (.refresh force partitions answers)) :
    Consistent log {
      run with
      source := run.source.refreshAssignment config force partitions answers
      readings := (begun (run.source.refreshAssignment config force partitions answers)
        (run.source.refreshAssignment config force partitions answers).positions).update run.readings.entries} := by
  have readings (source : KafkaSource ρ) (key : PartitionKey) : ((begun source source.positions).update run.readings.entries).get? key =
      (run.readings.get? key).or ((source.positions.get? key).map (fun _ => ⟨source.point key,[],source.point key⟩)) := by
    rw [get?_update,begun_get?]
  unfold KafkaSource.refreshAssignment
  dsimp only
  by_cases idle : ¬ force ∧ KafkaSource.select config partitions = run.source.assigned
  · rw [if_pos idle]
    have same (key : PartitionKey) : ((begun run.source run.source.positions).update run.readings.entries).get? key =
        run.readings.get? key := by
      rw [readings]
      cases found : run.source.positions.get? key with
      | none => simp
      | some position =>
        obtain ⟨reading,known,-⟩ := consistent.read key position found
        rw [known]
        rfl
    refine {consistent with
      read := fun key position found => ?_
      left := fun key reading found => ?_
      exact := fun key reading found => ?_}
    · dsimp only
      rw [same]
      exact consistent.read key position found
    · dsimp only at found
      rw [same] at found
      exact consistent.left key reading found
    · dsimp only at found
      rw [same] at found
      exact consistent.exact key reading found
  · rw [if_neg idle]
    obtain ⟨assigned,resumed⟩ := (Or.resolve_left sound (by simpa using idle) :
      (∀ key cursor, run.source.formatInflight.get? key = some cursor → key ∈ KafkaSource.select config partitions) ∧
        ∀ key ∈ KafkaSource.select config partitions, ∀ reading, run.readings.get? key = some reading →
          run.source.resolveAssignmentOffset config key (answers key) = reading.point.1)
    generalize selection : KafkaSource.select config partitions = selected at *
    have positions (key : PartitionKey) : (Dict.ofList (selected.map
        (fun key => (key,run.source.resolveAssignmentOffset config key (answers key))))).get? key =
        if key ∈ selected then some (run.source.resolveAssignmentOffset config key (answers key)) else none := by
      rw [get?_ofKeys]
      by_cases inside : key ∈ selected <;> simp [inside]
    generalize moved : Dict.ofList (selected.map
      (fun key => (key,run.source.resolveAssignmentOffset config key (answers key)))) = nextPositions at *
    -- the offset that a partition was left at is its new position, and its cursor stays
    have known (key : PartitionKey) (position : Int) (found : nextPositions.get? key = some position) (reading : Reading ρ)
        (held : run.readings.get? key = some reading) : reading.point = (position,(run.source.point key).2) := by
      rw [positions] at found
      split at found
      next inside =>
        rw [resumed key inside reading held] at found
        exact Prod.ext (some.inj found) (consistent.left key reading held)
      next => cases found
    refine ⟨⟨fun key position found => ?_,fun key cursor found => ?_,consistent.cursors.inside⟩,fun key position found => ?_,
      fun key reading found => ?_,fun key reading found => ?_,fun _ _ key position found => found,fun emission collecting => ?_,
      consistent.snapshots⟩
    · dsimp only at found
      rw [positions] at found
      split at found
      next =>
        obtain rfl := some.inj found
        exact resolveAssignmentOffset_nonneg config run.source key (answers key)
      next => cases found
    · dsimp only at found ⊢
      obtain ⟨position,offset,index⟩ := consistent.cursors.matched key cursor found
      obtain ⟨reading,held,same⟩ := consistent.read key cursor.1 position
      refine ⟨?_,offset,index⟩
      have inside := assigned key cursor found
      rw [positions,if_pos inside,resumed key inside reading held,same]
      unfold KafkaSource.point
      rw [position]
      rfl
    · dsimp only at found ⊢
      rw [readings]
      cases held : run.readings.get? key with
      | some reading =>
        refine ⟨reading,rfl,(known key position found reading held).trans (Eq.symm ?_)⟩
        unfold KafkaSource.point
        dsimp only
        rw [found]
        rfl
      | none =>
        rw [none_or]
        dsimp only
        rw [found]
        exact ⟨_,rfl,rfl⟩
    iterate 2
      dsimp only at found
      rw [readings] at found
      cases held : run.readings.get? key with
      | some reading' =>
        rw [held] at found
        obtain rfl := some.inj found
        first | exact consistent.left key reading' held | exact consistent.exact key reading' held
      | none =>
        rw [held,none_or] at found
        obtain ⟨position,-,rfl⟩ := map_eq_some_iff.mp found
        rfl
    · cases current.symm.trans collecting

theorem cursors_congr (positions positions' : Positions) (inflight inflight' : Inflight) (cursors : Cursors log positions inflight)
    (same : ∀ key, positions'.get? key = positions.get? key) (same' : ∀ key, inflight'.get? key = inflight.get? key) :
    Cursors log positions' inflight' := by
  refine ⟨fun key position found => ?_,fun key cursor found => ?_,fun key cursor found => ?_⟩
  · exact cursors.offsets key position ((same key).symm.trans found)
  · rw [same key]
    exact cursors.matched key cursor ((same' key).symm.trans found)
  · exact cursors.inside key cursor ((same' key).symm.trans found)

section
variable (consistent : Consistent log run)
include consistent

theorem snapshot_restores : ∃ decoded, restoredState .canalJson (some run.source.snapshot) = .ok decoded ∧
    (∀ key, decoded.1.get? key = run.source.positions.get? key) ∧ (∀ key, decoded.2.get? key = run.source.formatInflight.get? key) ∧
    Cursors log decoded.1 decoded.2 := by
  obtain ⟨decoded,done,same,same'⟩ := Kafka.snapshot_restores .canalJson (by decide) consistent.cursors.offsets consistent.cursors.matched
  exact ⟨decoded,done,same,same',cursors_congr _ _ _ _ consistent.cursors same same'⟩

theorem restore (positions : Positions) (inflight : Inflight) (cursors : Cursors log positions inflight)
    (current : run.source.current = none) (none' : ∀ key, run.source.formatInflight.get? key = none) :
    Consistent log {
      run with
      source := run.source.restore positions inflight
      readings := run.readings.update (begun (run.source.restore positions inflight) positions).entries} := by
  have readings (key : PartitionKey) :
      (run.readings.update (begun (run.source.restore positions inflight) positions).entries).get? key =
        ((positions.get? key).map (fun _ => (⟨(run.source.restore positions inflight).point key,[],
          (run.source.restore positions inflight).point key⟩ : Reading ρ))).or (run.readings.get? key) := by
    rw [get?_update,begun_get?]
  have recorded (key : PartitionKey) : (run.source.restore positions inflight).positions.get? key =
      (positions.get? key).or (run.source.positions.get? key) := get?_update _ _ _
  -- a partition that the state does not name has no cursor, before and after
  have unnamed (key : PartitionKey) (absent : positions.get? key = none) : (run.source.restore positions inflight).point key = run.source.point key := by
    apply point_congr
    · rw [recorded,absent,none_or]
    · rw [none' key]
      cases held : inflight.get? key with
      | none => exact held
      | some cursor =>
        rw [(cursors.matched key cursor held).1] at absent
        cases absent
  refine ⟨⟨fun key position found => ?_,fun key cursor found => ?_,cursors.inside⟩,fun key position found => ?_,
    fun key reading found => ?_,fun key reading found => ?_,(nomatch ·),fun emission collecting => ?_,
    consistent.snapshots⟩
  · dsimp only at found
    rw [recorded] at found
    cases held : positions.get? key with
    | some position' =>
      rw [held] at found
      obtain rfl := some.inj found
      exact cursors.offsets key position' held
    | none =>
      rw [held,none_or] at found
      exact consistent.cursors.offsets key position found
  · obtain ⟨position,rest⟩ := cursors.matched key cursor found
    refine ⟨?_,rest⟩
    dsimp only
    rw [recorded,position]
    rfl
  · dsimp only at found ⊢
    rw [readings]
    cases held : positions.get? key with
    | some position' => exact ⟨_,rfl,rfl⟩
    | none =>
      rw [recorded,held,none_or] at found
      obtain ⟨reading,known,same⟩ := consistent.read key position found
      exact ⟨reading,known,same.trans (unnamed key held).symm⟩
  · dsimp only at found ⊢
    rw [readings] at found
    cases held : positions.get? key with
    | some position' =>
      rw [held] at found
      obtain rfl := some.inj found
      rfl
    | none =>
      rw [held] at found
      rw [unnamed key held]
      exact consistent.left key reading found
  · dsimp only at found ⊢
    rw [readings] at found
    cases held : positions.get? key with
    | some position' =>
      rw [held] at found
      obtain rfl := some.inj found
      rfl
    | none =>
      rw [held] at found
      exact consistent.exact key reading found
  · cases current.symm.trans collecting

theorem step (action : Action) (sound : Sound config run action)
    (taken : SourceRun.step config log run action = some next) : Consistent log next := by
  cases action with
  | refresh force partitions answers =>
    unfold SourceRun.step at taken
    dsimp only at taken
    split at taken
    next => cases taken
    next enabled =>
      obtain rfl := some.inj taken
      have current : run.source.current = none := by
        cases held : run.source.current with
        | none => rfl
        | some emission => exact absurd (.inr (.inl (by rw [held]; rfl))) enabled
      exact consistent.refresh config force partitions answers current sound
  | poll key =>
    unfold SourceRun.step at taken
    dsimp only at taken
    split at taken
    next => cases taken
    next enabled =>
      have current : run.source.current = none := by
        cases held : run.source.current with
        | none => rfl
        | some emission => exact absurd (.inr (.inl (by rw [held]; rfl))) enabled
      have pending : run.source.pending = false := by
        by_contra waiting
        exact enabled (.inr (.inr (by simpa using waiting)))
      split at taken
      next => cases taken
      next position fetch =>
        split at taken
        next => cases taken
        next offset rows found =>
          obtain ⟨source,received,kept⟩ := consistent.poll key position offset rows pending current fetch found
          rw [received] at taken
          obtain rfl := some.inj taken
          exact kept
  | collect =>
    unfold SourceRun.step at taken
    dsimp only at taken
    split at taken
    next => cases taken
    next emission current =>
      split at taken
      next => cases taken
      next row collected =>
        obtain rfl := some.inj taken
        exact consistent.collect emission current row collected
  | stop =>
    obtain rfl := some.inj taken
    exact {consistent with}
  | snapshot =>
    obtain rfl := some.inj taken
    refine {consistent with snapshots := fun state inside => ?_}
    rcases mem_append.mp inside with old | fresh
    · exact consistent.snapshots state old
    · obtain rfl := mem_singleton.mp fresh
      obtain ⟨decoded,done,-,-,cursors⟩ := consistent.snapshot_restores
      exact ⟨decoded,done,cursors⟩
  | restart =>
    obtain rfl := some.inj taken
    have fresh : Consistent log SourceRun.initial := Consistent.initial
    exact {fresh with snapshots := consistent.snapshots}
  | restore index =>
    unfold SourceRun.step at taken
    dsimp only at taken
    split at taken
    next => cases taken
    next enabled =>
      split at taken
      next => cases taken
      next state listed =>
        obtain ⟨decoded,done,cursors⟩ := consistent.snapshots state (mem_of_getElem? listed)
        rw [done] at taken
        obtain rfl := some.inj taken
        exact consistent.restore decoded.1 decoded.2 cursors (by simpa using enabled) sound

end

end Consistent

section starts
variable {config log} {run next : SourceRun ρ}

theorem advance_start (source : KafkaSource ρ) (own : PartitionKey) (rows : List ρ) (key : PartitionKey) (start : Int × Nat)
    (held : ∃ reading, run.readings.get? key = some reading ∧ reading.start = start) :
    ∃ reading, (run.advance source own rows).readings.get? key = some reading ∧ reading.start = start := by
  obtain ⟨reading,known,same⟩ := held
  unfold advance
  cases found : run.readings.get? own with
  | none => exact ⟨reading,known,same⟩
  | some other =>
    dsimp only
    rw [Dict.get?_set]
    by_cases here : key = own
    · rw [if_pos here]
      rw [← here,known] at found
      obtain rfl := some.inj found
      exact ⟨_,rfl,same⟩
    · rw [if_neg here]
      exact ⟨reading,known,same⟩

theorem step_start (action : Action) (reads : action.Reads) (key : PartitionKey) (start : Int × Nat)
    (held : ∃ reading, run.readings.get? key = some reading ∧ reading.start = start)
    (taken : step config log run action = some next) :
    ∃ reading, next.readings.get? key = some reading ∧ reading.start = start := by
  unfold step at taken
  cases action with
  | refresh force partitions answers =>
    dsimp only at taken
    split at taken
    next => cases taken
    next =>
      obtain rfl := some.inj taken
      obtain ⟨reading,known,same⟩ := held
      refine ⟨reading,?_,same⟩
      dsimp only
      rw [get?_update,known]
      rfl
  | poll own =>
    dsimp only at taken
    split at taken
    next => cases taken
    next =>
      split at taken
      next => cases taken
      next =>
        split at taken
        next => cases taken
        next =>
          split at taken
          next => cases taken
          next source received =>
            obtain rfl := some.inj taken
            exact advance_start source own [] key start held
  | collect =>
    dsimp only at taken
    split at taken
    next => cases taken
    next emission current =>
      split at taken
      next => cases taken
      next row collected =>
        obtain rfl := some.inj taken
        exact advance_start _ emission.key [row] key start held
  | stop =>
    obtain rfl := some.inj taken
    exact held
  | snapshot =>
    obtain rfl := some.inj taken
    exact held
  | restart => exact reads.elim
  | restore index => exact reads.elim

theorem refresh_snapshots (action : Action) (refreshes : action.Refreshes) (taken : step config log run action = some next) :
    next.snapshots = run.snapshots := by
  cases action with
  | refresh force partitions answers =>
    unfold step at taken
    dsimp only at taken
    split at taken
    next => cases taken
    next =>
      obtain rfl := some.inj taken
      rfl
  | _ => exact refreshes.elim

theorem restore_start (index : Nat) (state : SourceState) (decoded : Positions × Inflight) (listed : run.snapshots[index]? = some state)
    (restored : restoredState .canalJson (some state) = .ok decoded) (taken : step config log run (.restore index) = some next)
    (key : PartitionKey) (position : Int) (recorded : decoded.1.get? key = some position) :
    ∃ reading, next.readings.get? key = some reading ∧
      reading.start = (position,((decoded.2.get? key).map (fun cursor => cursor.2.toNat)).getD 0) := by
  unfold step at taken
  dsimp only at taken
  split at taken
  next => cases taken
  next =>
    rw [listed] at taken
    dsimp only at taken
    rw [restored] at taken
    obtain rfl := some.inj taken
    refine ⟨⟨(run.source.restore decoded.1 decoded.2).point key,[],(run.source.restore decoded.1 decoded.2).point key⟩,?_,?_⟩
    · dsimp only
      rw [get?_update,Consistent.begun_get?,recorded]
      rfl
    · unfold KafkaSource.point KafkaSource.restore
      dsimp only
      rw [get?_update,recorded]
      rfl

end starts

/-- In a sound run every snapshot is restorable and names where its cursors stand, no poll
raises, and a restart from the snapshot emits the rows after those that were emitted. -/
theorem snapshots_resume (labels : List Action) (run : SourceRun ρ) (sound : Along (step config log) (Sound config) initial labels)
    (reached : exec (step config log) initial labels = some run) :
    (∃ decoded, restoredState .canalJson (some run.source.snapshot) = .ok decoded ∧
      (∀ key, decoded.1.get? key = run.source.positions.get? key) ∧ ∀ key, decoded.2.get? key = run.source.formatInflight.get? key) ∧
    Matched run.source.positions run.source.formatInflight ∧
    (∀ key position offset rows, run.source.pending = false → run.source.current = none → run.source.fetch.get? key = some position →
      (log.messages key).find? (fun message => position ≤ message.1) = some (offset,rows) →
      ∃ source, run.source.receive key offset rows = .ok source) ∧
    ∀ early later final, (∀ action ∈ early, action.Refreshes) → (∀ action ∈ later, action.Reads) →
      Along (step config log) (Sound config) run (.snapshot::.restart::(early ++ .restore run.snapshots.length::later)) →
      exec (step config log) run (.snapshot::.restart::(early ++ .restore run.snapshots.length::later)) = some final →
      ∀ key position, run.source.positions.get? key = some position →
        ∃ before after, run.readings.get? key = some before ∧ final.readings.get? key = some after ∧
          after.emitted ++ rest (log.messages key) after.point = rest (log.messages key) (run.source.point key) ∧
          before.emitted ++ (after.emitted ++ rest (log.messages key) after.point) = rest (log.messages key) before.start := by
  have kept (run : SourceRun ρ) (action : Action) (next : SourceRun ρ) (consistent : Consistent log run) (sound : Sound config run action)
      (taken : step config log run action = some next) : Consistent log next := consistent.step action sound taken
  have consistent := exec_invariant _ _ (Consistent log) kept labels initial run Consistent.initial sound reached
  obtain ⟨decoded,done,same,same',-⟩ := consistent.snapshot_restores
  refine ⟨⟨decoded,done,same,same'⟩,consistent.cursors.matched,fun key position offset rows pending current fetch found => ?_,
    fun early later final refreshes reads sound' reached' key position recorded => ?_⟩
  · obtain ⟨source,received,-⟩ := consistent.poll key position offset rows pending current fetch found
    exact ⟨source,received⟩
  · have ending := exec_invariant _ _ (Consistent log) kept _ run final consistent sound' reached'
    obtain ⟨before,held,at'⟩ := consistent.read key position recorded
    -- the run up to the restore keeps the snapshot at its place
    rw [exec_cons,show step config log run .snapshot = some {run with snapshots := run.snapshots ++ [run.source.snapshot]} from rfl,
      bind_some,exec_cons,
      show step config log {run with snapshots := run.snapshots ++ [run.source.snapshot]} .restart =
        some ⟨.opened,∅,run.snapshots ++ [run.source.snapshot]⟩ from rfl,bind_some,exec_append] at reached'
    obtain ⟨middle,refreshed,reached'⟩ := bind_eq_some_iff.mp reached'
    rw [exec_cons] at reached'
    obtain ⟨restored,taken,reached'⟩ := bind_eq_some_iff.mp reached'
    have snapshots : middle.snapshots = run.snapshots ++ [run.source.snapshot] :=
      exec_invariant _ (fun _ action => action.Refreshes) (fun state => state.snapshots = run.snapshots ++ [run.source.snapshot])
        (fun _ action _ listed refreshes taken => (refresh_snapshots action refreshes taken).trans listed) early _ middle rfl
        (Along.of_forall _ _ early (fun _ action inside => refreshes action inside) _) refreshed
    obtain ⟨reading,begun,start⟩ := restore_start run.snapshots.length run.source.snapshot decoded (by rw [snapshots]; simp) done taken
      key position ((same key).trans recorded)
    obtain ⟨after,found,start'⟩ := exec_invariant _ (fun _ action => action.Reads)
      (fun state => ∃ reading : Reading ρ, state.readings.get? key = some reading ∧ reading.start = run.source.point key)
      (fun _ action _ held reads taken => step_start action reads key _ held taken) later restored final
      ⟨reading,begun,by rw [start,same']; unfold KafkaSource.point; rw [recorded]; rfl⟩
      (Along.of_forall _ _ later (fun _ action inside => reads action inside) _) reached'
    have exact' := ending.exact key after found
    rw [start'] at exact'
    refine ⟨before,after,held,found,exact',?_⟩
    rw [exact',← at']
    exact consistent.exact key before held

section runs

/-- `Sound`, so that it can be computed. -/
def Checked {ρ : Type} (config : SourceConfig) (run : SourceRun ρ) : Action → Prop
  | .refresh _ partitions answers =>
    (∀ entry ∈ run.source.formatInflight.entries, entry.1 ∈ KafkaSource.select config partitions) ∧
      ∀ key ∈ KafkaSource.select config partitions, ∀ reading ∈ run.readings.get? key,
        run.source.resolveAssignmentOffset config key (answers key) = reading.point.1
  | .restore _ => run.source.formatInflight.entries.isEmpty = true
  | _ => True

instance {ρ : Type} (config : SourceConfig) (run : SourceRun ρ) (action : Action) : Decidable (Checked config run action) :=
  match action with
  | .refresh _ _ _ => inferInstanceAs (Decidable (_ ∧ _))
  | .restore _ => inferInstanceAs (Decidable (_ = _))
  | .poll _ | .collect | .stop | .snapshot | .restart => inferInstanceAs (Decidable True)

theorem checked_sound {ρ : Type} (config : SourceConfig) (run : SourceRun ρ) (action : Action) (checked : Checked config run action) :
    Sound config run action := by
  cases action with
  | refresh force partitions answers =>
    refine .inr ⟨fun key cursor found => ?_,checked.2⟩
    exact checked.1 (key,cursor) ((Dict.get?_eq_some _ key cursor).mp found)
  | restore index => exact (Dict.isEmpty_iff _).mp checked
  | _ => trivial

def twoRows : Log Nat where
  messages key := if key = ("t",0) then [(0,[1,2]),(1,[]),(2,[3])] else []
  ordered key := by
    split
    · decide
    · exact List.Pairwise.nil
  counted key := by
    split
    · decide
    · simp

def second : SourceConfig := ⟨1,2,fun _ => .earliest⟩

def answers (_ : PartitionKey) : Answer := ⟨0,3,none,none,by decide⟩

def assign (partitions : List PartitionKey) : Action := .refresh true partitions answers

def opening : List Action := [assign [("s",0),("t",0)],.poll ("t",0),.collect]

def rereading : List Action :=
  [assign [("s",0),("t",0)],.poll ("t",0),.collect,.poll ("t",0),.poll ("t",0),.collect]

/-- A snapshot between the two rows of a message resumes at the second one. -/
theorem second_row_resumed : ∃ run final, exec (step second twoRows) initial opening = some run ∧
    exec (step second twoRows) run (.snapshot::.restart::([assign [("s",0),("t",0)]] ++ .restore run.snapshots.length::rereading)) =
      some final ∧
    ∃ before after, run.readings.get? ("t",0) = some before ∧ final.readings.get? ("t",0) = some after ∧
      after.emitted ++ rest (twoRows.messages ("t",0)) after.point = rest (twoRows.messages ("t",0)) (run.source.point ("t",0)) ∧
      before.emitted ++ (after.emitted ++ rest (twoRows.messages ("t",0)) after.point) =
        rest (twoRows.messages ("t",0)) before.start := by
  have sound : Along (step second twoRows) (Checked second) initial opening := by decide +kernel
  have sound := sound.imp _ (Sound second) _ _ _ (checked_sound second)
  obtain ⟨run,reached,check⟩ := exec_check (step second twoRows) initial opening
    (fun run => run.source.positions.get? ("t",0) = some 0 ∧
      Along (step second twoRows) (Checked second) run
        (.snapshot::.restart::([assign [("s",0),("t",0)]] ++ .restore run.snapshots.length::rereading)) ∧
      (exec (step second twoRows) run
        (.snapshot::.restart::([assign [("s",0),("t",0)]] ++ .restore run.snapshots.length::rereading))).isSome = true) (by decide +kernel)
  obtain ⟨final,reached'⟩ := isSome_iff_exists.mp check.2.2
  have sound' := check.2.1.imp _ (Sound second) _ _ _ (checked_sound second)
  refine ⟨run,final,reached,reached',?_⟩
  refine (snapshots_resume second twoRows opening run sound reached).2.2.2 _ rereading final ?_ ?_ sound' reached' ("t",0) 0 check.1
  · intro action inside
    rw [mem_singleton.mp inside]
    trivial
  · intro action inside
    simp only [rereading,mem_cons,not_mem_nil,or_false] at inside
    rcases inside with rfl | rfl | rfl | rfl | rfl | rfl <;> trivial

/-- After a restart with a new partition the cursor stays behind where the position goes. -/
theorem cursor_left_behind : ∃ run, exec (step second twoRows) initial (opening ++
      [.snapshot,.restart,assign [("s",0),("s",1),("t",0)],.restore 0,assign [("s",0),("s",1),("t",0)]]) = some run ∧
    ∀ decoded, restoredState .canalJson (some run.source.snapshot) ≠ .ok decoded := by
  obtain ⟨run,reached,check⟩ := exec_check (step second twoRows) initial (opening ++
      [.snapshot,.restart,assign [("s",0),("s",1),("t",0)],.restore 0,assign [("s",0),("s",1),("t",0)]])
    (fun run => (restoredState .canalJson (some run.source.snapshot)).toOption.isNone = true) (by decide +kernel)
  refine ⟨run,reached,fun decoded done => ?_⟩
  rw [done] at check
  cases check

end runs

end SourceRun
end Klein.Kafka
