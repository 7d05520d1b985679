import Klein.EventTime.LateRecords
import Klein.EventTime.WindowAssignment
import Klein.EventTime.WindowInputs

/-! Session windows: the live windows of a key never overlap, and each one has its timer.
Without records at or below the watermark, what is emitted are the maximal groups of
records whose timestamps are less than the gap apart. -/
namespace Klein.EventTime
open List Option
namespace TimeWindow

theorem apart_merge (window first second : TimeWindow) (overlap : first.overlaps second = true)
    (apart : window.overlaps first = false) (apart' : window.overlaps second = false) : window.overlaps (first.merge second) = false := by
  have own := window.ordered
  have left := first.ordered
  have right := second.ordered
  simp only [overlaps,decide_eq_true_eq,decide_eq_false_iff_not] at overlap apart apart'
  apply decide_eq_false
  dsimp only [merge]
  omega

theorem overlaps_comm (window other : TimeWindow) : window.overlaps other = other.overlaps window := by
  unfold overlaps
  exact decide_eq_decide.mpr and_comm

theorem overlaps_self (window : TimeWindow) : window.overlaps window = true := by
  have ordered := window.ordered
  simp only [overlaps,decide_eq_true_eq]
  omega

theorem overlaps_merge (window first second : TimeWindow) (overlap : window.overlaps first = true) :
    window.overlaps (first.merge second) = true := by
  simp only [overlaps,decide_eq_true_eq] at overlap
  apply decide_eq_true
  dsimp only [merge]
  omega

theorem apart_hull (window candidate : TimeWindow) (overlapping : List TimeWindow)
    (overlap : ∀ other ∈ overlapping, other.overlaps candidate = true) (apart : window.overlaps candidate = false)
    (apart' : ∀ other ∈ overlapping, window.overlaps other = false) : window.overlaps (overlapping.foldl merge candidate) = false := by
  induction overlapping generalizing candidate with
  | nil => exact apart
  | cons other rest ih =>
    have meets := overlap other mem_cons_self
    refine ih (candidate.merge other) (fun later inside => ?_) ?_ (fun later inside => apart' later (mem_cons_of_mem _ inside))
    · exact overlaps_merge later candidate other (overlap later (mem_cons_of_mem _ inside))
    · exact apart_merge window candidate other (overlaps_comm other candidate ▸ meets) apart (apart' other mem_cons_self)

end TimeWindow

namespace WindowOperator
variable {κ β : Type} [DecidableEq κ] (c : WindowConfig κ β)

def Apart (o : WindowOperator κ β) : Prop :=
  ∀ key first second value value', o.state.get? (key,first) = some value → o.state.get? (key,second) = some value' →
    first ≠ second → first.overlaps second = false

section apart
variable (o next : WindowOperator κ β) (merging : c.assigner.isMerging = true)

include merging in
theorem sessionMergePlan_eq (key : κ) (candidate : TimeWindow) : o.sessionMergePlan c key candidate =
    (((o.namespaces c key).filter (fun window => window.overlaps candidate)).foldl TimeWindow.merge candidate,
      (o.namespaces c key).filter (fun window => window.overlaps candidate)) := by
  unfold sessionMergePlan
  rw [if_pos merging]

include merging in
theorem Apart.touches (apart : Apart o) (key : κ) (block : β) (candidate : TimeWindow)
    (touches : Touches c o key block (o.sessionMergePlan c key candidate).1 (o.sessionMergePlan c key candidate).2 next) : Apart next := by
  rw [sessionMergePlan_eq c o merging] at touches
  dsimp only at touches
  have listed (window : TimeWindow) : window ∈ (o.namespaces c key).filter (fun window => window.overlaps candidate) ↔
      (∃ value, o.state.get? (key,window) = some value) ∧ window.overlaps candidate = true := by
    rw [mem_filter,mem_namespaces]
  generalize hull : ((o.namespaces c key).filter (fun window => window.overlaps candidate)).foldl TimeWindow.merge candidate = target at touches
  -- A window of the key that stays is apart from the hull of those that went.
  have clear (window : TimeWindow) (value : β) (held : o.state.get? (key,window) = some value)
      (stays : window ∉ (o.namespaces c key).filter (fun window => window.overlaps candidate)) : window.overlaps target = false := by
    rw [← hull]
    have off : window.overlaps candidate = false := by
      cases meets : window.overlaps candidate with
      | false => rfl
      | true => exact absurd ((listed window).mpr ⟨⟨value,held⟩,meets⟩) stays
    refine TimeWindow.apart_hull window candidate _ (fun other inside => ((listed other).mp inside).2) off (fun other inside => ?_)
    obtain ⟨⟨value',held'⟩,-⟩ := (listed other).mp inside
    exact apart key window other value value' held held' (fun same => stays (same ▸ inside))
  intro own first second value value' held held' different
  rw [touches.state] at held held'
  by_cases one : (own,first) = (key,target)
  · obtain ⟨rfl,rfl⟩ := Prod.mk.inj one
    rw [if_neg (fun same => different (Prod.mk.inj same).2.symm)] at held'
    obtain ⟨stays,old⟩ := ite_none_left_eq_some.mp held'
    rw [TimeWindow.overlaps_comm]
    exact clear second value' old (fun inside => stays ⟨rfl,inside⟩)
  · rw [if_neg one] at held
    obtain ⟨stays,old⟩ := ite_none_left_eq_some.mp held
    by_cases other : (own,second) = (key,target)
    · obtain ⟨rfl,rfl⟩ := Prod.mk.inj other
      exact clear first value old (fun inside => stays ⟨rfl,inside⟩)
    · rw [if_neg other] at held'
      exact apart own first second value value' old (ite_none_left_eq_some.mp held').2 different

end apart

section steps
variable (gap : Int) (positive : 0 < gap) (session : c.assigner = .session gap positive)

def candidate (timestamp : Int) : TimeWindow := ⟨timestamp,timestamp + gap,by omega⟩

include session in
theorem session_record (o : WindowOperator κ β) (block : β) (timestamp : Int) :
    let plan := o.sessionMergePlan c (c.keySelector block) (candidate gap positive timestamp)
    (cleanupTimestamp c plan.1 ≤ o.currentWatermark ∧
        o.processManagedElement c block timestamp = {o with lateDrops := o.lateDrops + 1}) ∨
      o.currentWatermark < cleanupTimestamp c plan.1 ∧
        Touches c o (c.keySelector block) block plan.1 plan.2 (o.processManagedElement c block timestamp) := by
  dsimp only
  have windows : c.assigner.assignWindows timestamp = [candidate gap positive timestamp] := by
    rw [session]
    rfl
  unfold processManagedElement
  rw [windows]
  by_cases late : cleanupTimestamp c (o.sessionMergePlan c (c.keySelector block) (candidate gap positive timestamp)).1 ≤ o.currentWatermark
  · have dropped : o.processWindow c (c.keySelector block) block (candidate gap positive timestamp) = (o,true) := by
      unfold processWindow
      dsimp only
      rw [if_pos late]
    refine .inl ⟨late,?_⟩
    simp only [foldl_cons,foldl_nil,dropped]
    rfl
  · obtain ⟨kept,touches⟩ := processWindow_touches c o (c.keySelector block) block (candidate gap positive timestamp) (Int.not_le.mp late)
    refine .inr ⟨Int.not_le.mp late,?_⟩
    simp only [foldl_cons,foldl_nil,kept]
    exact touches

include session in
theorem session_step (o next : WindowOperator κ β) (scheduled : Scheduled c o) (apart : Apart o) (input : WindowInput β)
    (taken : o.step c input = some next) : Scheduled c next ∧ Apart next := by
  have merging : c.assigner.isMerging = true := by
    rw [session]
    rfl
  cases input with
  | record block timestamp =>
    obtain ⟨-,rfl⟩ := step_record c o next block timestamp taken
    rcases session_record c gap positive session o block timestamp with ⟨-,same⟩ | ⟨-,touches⟩
    · rw [same]
      exact ⟨⟨scheduled.distinct,scheduled.exact⟩,apart⟩
    · exact ⟨touches.scheduled c o _ _ _ _ _ scheduled,apart.touches c o _ merging _ block _ touches⟩
  | watermark timestamp =>
    obtain rfl := some.inj taken
    by_cases later : o.currentWatermark < timestamp
    · have fires := onEventTimeWatermark_fires c o scheduled timestamp later
      refine ⟨fires.scheduled,fun key first second value value' held held' different => ?_⟩
      rw [fires.state] at held held'
      exact apart key first second value value' (ite_none_left_eq_some.mp held).2 (ite_none_left_eq_some.mp held').2 different
    · have same : o.onEventTimeWatermark c timestamp = o := if_pos (Int.not_lt.mp later)
      rw [same]
      exact ⟨scheduled,apart⟩

end steps

section members
variable (gap : Int)

structure Spans (window : TimeWindow) (members : List (β × Int)) : Prop where
  inside : ∀ member ∈ members, window.start ≤ member.2 ∧ member.2 + gap ≤ window.stop
  first : ∃ member ∈ members, member.2 = window.start
  last : ∃ member ∈ members, member.2 + gap = window.stop
  linked : ∀ moment, window.start ≤ moment → moment + 1 < window.stop → ∃ member ∈ members, member.2 ≤ moment ∧ moment + 1 < member.2 + gap

omit [DecidableEq κ]

theorem Spans.single (positive : 0 < gap) (block : β) (timestamp : Int) : Spans gap (candidate gap positive timestamp) [(block,timestamp)] where
  inside := by simp [candidate]
  first := by simp [candidate]
  last := by simp [candidate]
  linked moment after before := ⟨(block,timestamp),mem_cons_self,after,before⟩

theorem Spans.merge (window window' : TimeWindow) (members members' : List (β × Int)) (spans : Spans gap window members)
    (spans' : Spans gap window' members') (overlap : window.overlaps window' = true) :
    Spans gap (window.merge window') (members ++ members') where
  inside member among := by
    rcases mem_append.mp among with mine | theirs
    · have bounds := spans.inside member mine
      dsimp only [TimeWindow.merge]
      omega
    · have bounds := spans'.inside member theirs
      dsimp only [TimeWindow.merge]
      omega
  first := by
    obtain ⟨member,mine,start⟩ := spans.first
    obtain ⟨member',theirs,start'⟩ := spans'.first
    rcases Int.le_total window.start window'.start with before | before
    · exact ⟨member,mem_append_left _ mine,start.trans (min_eq_left before).symm⟩
    · exact ⟨member',mem_append_right _ theirs,start'.trans (min_eq_right before).symm⟩
  last := by
    obtain ⟨member,mine,stop⟩ := spans.last
    obtain ⟨member',theirs,stop'⟩ := spans'.last
    rcases Int.le_total window.stop window'.stop with before | before
    · exact ⟨member',mem_append_right _ theirs,stop'.trans (max_eq_right before).symm⟩
    · exact ⟨member,mem_append_left _ mine,stop.trans (max_eq_left before).symm⟩
  linked moment after before := by
    dsimp only [TimeWindow.merge] at after before
    simp only [TimeWindow.overlaps,decide_eq_true_eq] at overlap
    have one : window.start ≤ moment ∧ moment + 1 < window.stop ∨ window'.start ≤ moment ∧ moment + 1 < window'.stop := by omega
    rcases one with own | own
    · obtain ⟨member,mine,covers⟩ := spans.linked moment own.1 own.2
      exact ⟨member,mem_append_left _ mine,covers⟩
    · obtain ⟨member,theirs,covers⟩ := spans'.linked moment own.1 own.2
      exact ⟨member,mem_append_right _ theirs,covers⟩

theorem Spans.hull (groups : List (TimeWindow × List (β × Int))) (window : TimeWindow) (members : List (β × Int))
    (spans : Spans gap window members) (each : ∀ group ∈ groups, Spans gap group.1 group.2)
    (overlap : ∀ group ∈ groups, group.1.overlaps window = true) :
    Spans gap ((groups.map Prod.fst).foldl TimeWindow.merge window) (members ++ groups.flatMap Prod.snd) := by
  induction groups generalizing window members with
  | nil => simpa using spans
  | cons group rest ih =>
    have meets := overlap group mem_cons_self
    have first := spans.merge gap window group.1 members group.2 (each group mem_cons_self)
      ((TimeWindow.overlaps_comm _ _).trans meets)
    have all := ih _ _ first (fun other inside => each other (mem_cons_of_mem _ inside)) (fun other inside =>
      TimeWindow.overlaps_merge other.1 window group.1 (overlap other (mem_cons_of_mem _ inside)))
    rw [flatMap_cons,← append_assoc]
    exact all

end members

section folds
variable (commutative : ∀ first second, c.reduceFunction first second = c.reduceFunction second first)
variable (associative : ∀ first second third,
  c.reduceFunction (c.reduceFunction first second) third = c.reduceFunction first (c.reduceFunction second third))

omit [DecidableEq κ]

def total (members : List (β × Int)) : Option β := reduced c (members.map Prod.fst)

include associative in
theorem foldl_join (accumulated : Option β) (blocks : List β) :
    blocks.foldl (join c) accumulated = ((reduced c blocks).map (fun value => join c accumulated value)).getD accumulated := by
  induction blocks using List.reverseRecOn with
  | nil => rfl
  | append_singleton blocks block ih =>
    rw [foldl_append,foldl_cons,foldl_nil,ih,reduced_append]
    cases reduced c blocks with
    | none => rfl
    | some value =>
      cases accumulated with
      | none => rfl
      | some before => exact congrArg some (associative before value block)

include associative in
theorem foldl_totals (groups : List (List (β × Int))) (accumulated : Option β) :
    (groups.filterMap (total c)).foldl (join c) accumulated = (groups.flatten.map Prod.fst).foldl (join c) accumulated := by
  induction groups generalizing accumulated with
  | nil => rfl
  | cons group rest ih =>
    rw [flatten_cons,map_append,foldl_append,foldl_join c associative accumulated (group.map Prod.fst)]
    change _ = (rest.flatten.map Prod.fst).foldl (join c) (((total c group).map (fun value => join c accumulated value)).getD accumulated)
    cases known : total c group with
    | none =>
      rw [filterMap_cons_none known]
      exact ih accumulated
    | some value =>
      rw [filterMap_cons_some known]
      exact ih (join c accumulated value)

include commutative associative in
theorem total_perm (members members' : List (β × Int)) (perm : members.Perm members') : total c members = total c members' := by
  have commutes := join_rightCommutative c commutative associative
  exact (perm.map Prod.fst).foldl_eq none

end folds

section groups
variable (gap : Int) (positive : 0 < gap)

structure Grouped (key : κ) (o : WindowOperator κ β) (records : List (β × Int)) (groups : List (TimeWindow × List (β × Int))) : Prop where
  held : ∀ window value, o.state.get? (key,window) = some value ↔ ∃ members, (window,members) ∈ groups ∧ total c members = some value
  spans : ∀ group ∈ groups, Spans gap group.1 group.2
  apart : groups.Pairwise (fun group other => group.1.overlaps other.1 = false)
  all : (groups.flatMap Prod.snd).Perm records

variable (o next : WindowOperator κ β) (key : κ) (records : List (β × Int))
  (groups : List (TimeWindow × List (β × Int)))
  (grouped : Grouped c gap key o records groups)

theorem Grouped.other (grouped : Grouped c gap key o records groups) (own : κ) (different : own ≠ key) (block : β) (target : TimeWindow)
    (overlapping : List TimeWindow) (touches : Touches c o own block target overlapping next) : Grouped c gap key next records groups where
  held window value := by
    rw [touches.state,if_neg (fun same => different (Prod.mk.inj same).1.symm),if_neg (fun same => different same.1.symm)]
    exact grouped.held window value
  spans := grouped.spans
  apart := grouped.apart
  all := grouped.all

omit [DecidableEq κ] in
theorem Spans.filled (window : TimeWindow) (members : List (β × Int)) (spans : Spans gap window members) : ∃ value, total c members = some value := by
  obtain ⟨member,inside,-⟩ := spans.first
  refine ne_none_iff_exists'.mp (fun absent => ?_)
  have empty := (reduced_eq_none c _).mp absent
  rw [map_eq_nil_iff] at empty
  subst empty
  cases inside

include grouped in
theorem Grouped.distinct : (groups.map Prod.fst).Nodup := by
  refine pairwise_map.mpr (grouped.apart.imp (fun {group other} off same => ?_))
  rw [same,TimeWindow.overlaps_self] at off
  cases off

include grouped in
theorem Grouped.overlapping (merging : c.assigner.isMerging = true) (window : TimeWindow) :
    ((o.sessionMergePlan c key window).2).Perm ((groups.filter (fun group => group.1.overlaps window)).map Prod.fst) := by
  rw [sessionMergePlan_eq c o merging]
  have sublist : ((groups.filter (fun group => group.1.overlaps window)).map Prod.fst).Nodup :=
    (grouped.distinct c gap o key records groups).sublist (filter_sublist.map Prod.fst)
  refine (perm_ext_iff_of_nodup ((nodup_namespaces c o key).filter _) sublist).mpr (fun other => ?_)
  simp only [mem_filter,mem_namespaces,List.mem_map,grouped.held]
  constructor
  · intro live
    obtain ⟨⟨value,members,inside,known⟩,meets⟩ := live
    exact ⟨(other,members),⟨inside,meets⟩,rfl⟩
  · intro listed
    obtain ⟨⟨own,members⟩,⟨inside,meets⟩,rfl⟩ := listed
    obtain ⟨value,known⟩ := (grouped.spans _ inside).filled c gap own members
    exact ⟨⟨value,members,inside,known⟩,meets⟩

variable (commutative : ∀ first second, c.reduceFunction first second = c.reduceFunction second first)
variable (associative : ∀ first second third,
  c.reduceFunction (c.reduceFunction first second) third = c.reduceFunction first (c.reduceFunction second third))

include grouped in
theorem Grouped.clear (window : TimeWindow) (group : TimeWindow × List (β × Int))
    (rest : group ∈ groups.filter (fun group => !group.1.overlaps window)) :
    group.1.overlaps (((groups.filter (fun group => group.1.overlaps window)).map Prod.fst).foldl TimeWindow.merge window) = false := by
  obtain ⟨inside,off⟩ := mem_filter.mp rest
  have symmetric : Std.Symm (fun group other : TimeWindow × List (β × Int) => group.1.overlaps other.1 = false) :=
    ⟨fun group other off => (TimeWindow.overlaps_comm _ _).trans off⟩
  refine TimeWindow.apart_hull group.1 window _ (fun other listed => ?_) (by simpa using off) (fun other listed => ?_)
  · obtain ⟨joined,among,rfl⟩ := List.mem_map.mp listed
    exact (mem_filter.mp among).2
  · obtain ⟨joined,among,rfl⟩ := List.mem_map.mp listed
    obtain ⟨inside',meets⟩ := mem_filter.mp among
    refine grouped.apart.forall inside inside' (fun same => ?_)
    rw [same,meets] at off
    cases off

include grouped commutative associative in
theorem Grouped.joined (merging : c.assigner.isMerging = true) (block : β) (timestamp : Int) (window : TimeWindow)
    (plan : o.sessionMergePlan c key window = (((o.namespaces c key).filter (fun other => other.overlaps window)).foldl TimeWindow.merge window,
      (o.namespaces c key).filter (fun other => other.overlaps window))) :
    some (((prior c o key (o.sessionMergePlan c key window).1 (o.sessionMergePlan c key window).2).map
      (fun current => c.reduceFunction current block)).getD block) =
    total c ((block,timestamp) :: (groups.filter (fun group => group.1.overlaps window)).flatMap Prod.snd) := by
  have listed := grouped.overlapping c gap o key records groups merging window
  have commutes := join_rightCommutative c commutative associative
  have each : ((groups.filter (fun group => group.1.overlaps window)).map Prod.fst).filterMap (fun other => o.state.get? (key,other)) =
      ((groups.filter (fun group => group.1.overlaps window)).map Prod.snd).filterMap (total c) := by
    rw [filterMap_map,filterMap_map]
    refine filterMap_congr (fun group among => ?_)
    obtain ⟨inside,-⟩ := mem_filter.mp among
    obtain ⟨value,known⟩ := (grouped.spans group inside).filled c gap _ _
    exact ((grouped.held group.1 value).mpr ⟨group.2,inside,known⟩).trans known.symm
  have folded : ((o.sessionMergePlan c key window).2.filterMap (fun other => o.state.get? (key,other))).foldl (join c) none =
      total c ((groups.filter (fun group => group.1.overlaps window)).flatMap Prod.snd) := by
    rw [(listed.filterMap _).foldl_eq none,each,foldl_totals c associative]
    rfl
  have last : total c ((block,timestamp) :: (groups.filter (fun group => group.1.overlaps window)).flatMap Prod.snd) =
      join c (total c ((groups.filter (fun group => group.1.overlaps window)).flatMap Prod.snd)) block := by
    rw [total_perm c commutative associative _ _ (perm_append_singleton (block,timestamp) _).symm]
    unfold total
    rw [map_append]
    exact reduced_append c _ block
  have before : prior c o key (o.sessionMergePlan c key window).1 (o.sessionMergePlan c key window).2 =
      total c ((groups.filter (fun group => group.1.overlaps window)).flatMap Prod.snd) := by
    unfold prior
    rw [folded]
    cases known : total c ((groups.filter (fun group => group.1.overlaps window)).flatMap Prod.snd) with
    | some value => rfl
    | none =>
      -- No group is joined, so that the window itself is not live.
      have empty : groups.filter (fun group => group.1.overlaps window) = [] := by
        refine eq_nil_iff_forall_not_mem.mpr (fun group among => ?_)
        obtain ⟨member,inside,-⟩ := (grouped.spans group (mem_of_mem_filter among)).first
        have nothing := (reduced_eq_none c _).mp known
        rw [map_eq_nil_iff] at nothing
        have member_ : member ∈ (groups.filter (fun group => group.1.overlaps window)).flatMap Prod.snd :=
          mem_flatMap.mpr ⟨group,among,inside⟩
        rw [nothing] at member_
        cases member_
      rw [empty] at listed
      have alone : (o.sessionMergePlan c key window).2 = [] := perm_nil.mp listed
      rw [plan] at alone ⊢
      dsimp only at alone ⊢
      rw [alone,none_or,if_neg not_mem_nil,foldl_nil]
      cases live : o.state.get? (key,window) with
      | none => rfl
      | some value =>
        obtain ⟨members,inside,-⟩ := (grouped.held window value).mp live
        have among : (window,members) ∈ groups.filter (fun group => group.1.overlaps window) :=
          mem_filter.mpr ⟨inside,TimeWindow.overlaps_self window⟩
        rw [empty] at among
        cases among
  rw [before,last]
  rfl

include grouped commutative associative in
theorem Grouped.record (merging : c.assigner.isMerging = true) (block : β) (timestamp : Int)
    (touches : Touches c o key block (o.sessionMergePlan c key (candidate gap positive timestamp)).1
      (o.sessionMergePlan c key (candidate gap positive timestamp)).2 next) :
    ∃ groups, Grouped c gap key next (records ++ [(block,timestamp)]) groups := by
  have plan := sessionMergePlan_eq c o merging key (candidate gap positive timestamp)
  have listed := grouped.overlapping c gap o key records groups merging (candidate gap positive timestamp)
  have value := grouped.joined c gap o key records groups commutative associative merging block timestamp _ plan
  have clear := grouped.clear c gap o key records groups (candidate gap positive timestamp)
  have spans := (Spans.single gap positive block timestamp).hull gap
    (groups.filter (fun group => group.1.overlaps (candidate gap positive timestamp))) _ _
    (fun group inside => grouped.spans group (mem_of_mem_filter inside)) (fun group inside => (mem_filter.mp inside).2)
  have commutes : RightCommutative TimeWindow.merge := ⟨fun first second third => by
    ext1 <;> simp only [TimeWindow.merge] <;> omega⟩
  have hull : (o.sessionMergePlan c key (candidate gap positive timestamp)).1 =
      ((groups.filter (fun group => group.1.overlaps (candidate gap positive timestamp))).map Prod.fst).foldl TimeWindow.merge
        (candidate gap positive timestamp) := by
    rw [← listed.foldl_eq (candidate gap positive timestamp),plan]
  rw [← hull] at spans
  simp only [← hull] at clear
  have meets (window : TimeWindow) : window ∈ (o.sessionMergePlan c key (candidate gap positive timestamp)).2 ↔
      ∃ members, (window,members) ∈ groups ∧ window.overlaps (candidate gap positive timestamp) = true := by
    rw [listed.mem_iff,List.mem_map]
    constructor
    · intro found
      obtain ⟨⟨own,members⟩,among,rfl⟩ := found
      exact ⟨members,mem_filter.mp among⟩
    · intro found
      obtain ⟨members,both⟩ := found
      exact ⟨(window,members),mem_filter.mpr both,rfl⟩
  refine ⟨((o.sessionMergePlan c key (candidate gap positive timestamp)).1,
    (block,timestamp) :: (groups.filter (fun group => group.1.overlaps (candidate gap positive timestamp))).flatMap Prod.snd) ::
      groups.filter (fun group => !group.1.overlaps (candidate gap positive timestamp)),?_⟩
  constructor
  case held =>
    intro window result
    rw [touches.state]
    by_cases own : window = (o.sessionMergePlan c key (candidate gap positive timestamp)).1
    · subst own
      rw [if_pos rfl,value]
      constructor
      · exact fun known => ⟨_,mem_cons_self,known⟩
      · intro found
        obtain ⟨members,inside,known⟩ := found
        rcases mem_cons.mp inside with same | rest
        · obtain ⟨-,rfl⟩ := Prod.mk.inj same
          exact known
        · have off := clear _ rest
          rw [TimeWindow.overlaps_self] at off
          cases off
    · rw [if_neg (fun same => own (Prod.mk.inj same).2)]
      by_cases gone : window ∈ (o.sessionMergePlan c key (candidate gap positive timestamp)).2
      · rw [if_pos ⟨rfl,gone⟩]
        refine iff_of_false (fun none => by cases none) (fun found => ?_)
        obtain ⟨members,inside,-⟩ := found
        obtain ⟨-,-,overlap⟩ := (meets window).mp gone
        rcases mem_cons.mp inside with same | rest
        · exact own (Prod.mk.inj same).1
        · have off := (mem_filter.mp rest).2
          dsimp only at off
          rw [overlap] at off
          cases off
      · rw [if_neg (fun both => gone both.2),grouped.held]
        refine exists_congr (fun members => and_congr_left (fun _ => ?_))
        rw [mem_cons,or_iff_right (fun same => own (Prod.mk.inj same).1),mem_filter,iff_self_and]
        intro inside
        cases overlap : window.overlaps (candidate gap positive timestamp) with
        | false => rfl
        | true => exact absurd ((meets window).mpr ⟨members,inside,overlap⟩) gone
  case spans =>
    intro group inside
    rcases mem_cons.mp inside with rfl | rest
    · exact spans
    · exact grouped.spans group (mem_of_mem_filter rest)
  case apart =>
    refine pairwise_cons.mpr ⟨fun group rest => ?_,grouped.apart.filter _⟩
    exact (TimeWindow.overlaps_comm _ _).trans (clear group rest)
  case all =>
    have parts := (filter_append_perm (fun group : TimeWindow × List (β × Int) => group.1.overlaps (candidate gap positive timestamp)) groups).flatMap_right
      Prod.snd
    rw [flatMap_append] at parts
    rw [flatMap_cons]
    exact ((parts.trans grouped.all).cons (block,timestamp)).trans (perm_append_singleton (block,timestamp) records).symm

end groups

end WindowOperator

/-- The groups of records whose timestamps, in their order, are less than a gap apart, and
that are at least the gap apart from each other. -/
structure MaximalSessions {β : Type} (gap : Int) (records : List (β × Int)) (sessions : List (List (β × Int))) : Prop where
  all : sessions.flatten.Perm records
  filled : ∀ session ∈ sessions, session ≠ []
  close : ∀ session ∈ sessions, session.IsChain (fun record later => record.2 ≤ later.2 ∧ 1000 * (later.2 - record.2) < gap)
  far : sessions.Pairwise (fun session later => ∀ record ∈ session, ∀ record' ∈ later, gap ≤ 1000 * (record'.2 - record.2))

namespace WindowOperator

section sorting
variable {β : Type} (gap : Int) (positive : 0 < gap)

def byTime (members : List (β × Int)) : List (β × Int) := members.mergeSort (fun member later => member.2 ≤ later.2)

theorem byTime_sorted (members : List (β × Int)) : (byTime members).Pairwise (fun member later => member.2 ≤ later.2) := by
  have sorted : (byTime members).Pairwise (fun member later => decide (member.2 ≤ later.2)) := by
    apply pairwise_mergeSort
    · intro first second third one two
      simp only [decide_eq_true_eq] at one two ⊢
      omega
    · intro first second
      simp only [Bool.or_eq_true,decide_eq_true_eq]
      omega
  exact sorted.imp (fun le => of_decide_eq_true le)

include positive in
theorem Spans.close (window : TimeWindow) (members : List (β × Int)) (spans : Spans gap window members) :
    (byTime members).IsChain (fun record later => record.2 ≤ later.2 ∧ later.2 - record.2 < gap) := by
  refine isChain_iff_forall_rel_of_append_cons_cons.mpr (fun record later before after whole => ?_)
  have sorted := byTime_sorted members
  have listed (member : β × Int) : member ∈ byTime members ↔ member ∈ members := mem_mergeSort
  rw [whole] at sorted listed
  obtain ⟨-,tail,cross⟩ := pairwise_append.mp sorted
  obtain ⟨least,tail⟩ := pairwise_cons.mp tail
  obtain ⟨next,-⟩ := pairwise_cons.mp tail
  have order := least later mem_cons_self
  refine ⟨order,?_⟩
  by_contra wide
  have inside := spans.inside record ((listed record).mp (mem_append_right _ mem_cons_self))
  have inside' := spans.inside later ((listed later).mp (mem_append_right _ (mem_cons_of_mem _ mem_cons_self)))
  -- The moment before the first record's window ends is linked to the next one by no record.
  obtain ⟨member,among,early,covers⟩ := spans.linked (record.2 + gap - 1) (by omega) (by omega)
  rcases mem_append.mp ((listed member).mpr among) with old | new
  · have ordered := cross member old record mem_cons_self
    omega
  · rcases mem_cons.mp new with rfl | new
    · omega
    · rcases mem_cons.mp new with rfl | new
      · omega
      · have ordered := next member new
        omega

variable {κ : Type} [DecidableEq κ] (c : WindowConfig κ β) (key : κ) (o : WindowOperator κ β) (records : List (β × Int))
  (groups : List (TimeWindow × List (β × Int))) (grouped : Grouped c gap key o records groups)

include positive grouped in
theorem Grouped.maximal (commutative : ∀ first second, c.reduceFunction first second = c.reduceFunction second first)
    (associative : ∀ first second third,
      c.reduceFunction (c.reduceFunction first second) third = c.reduceFunction first (c.reduceFunction second third)) :
    ∃ sessions, MaximalSessions (1000 * gap) records sessions ∧ (groups.map (fun group => total c group.2)).Perm (sessions.map (total c)) := by
  have reordered := mergeSort_perm groups (fun group later => group.1.start ≤ later.1.start)
  have sorted : (groups.mergeSort (fun group later => group.1.start ≤ later.1.start)).Pairwise
      (fun group later => decide (group.1.start ≤ later.1.start)) := by
    apply pairwise_mergeSort
    · intro first second third one two
      simp only [decide_eq_true_eq] at one two ⊢
      omega
    · intro first second
      simp only [Bool.or_eq_true,decide_eq_true_eq]
      omega
  have apart := (reordered.pairwise_iff (fun {group other} off => (TimeWindow.overlaps_comm _ _).trans off)).mpr grouped.apart
  generalize groups.mergeSort (fun group later => group.1.start ≤ later.1.start) = ordered at reordered sorted apart
  have spans (group : TimeWindow × List (β × Int)) (inside : group ∈ ordered) := grouped.spans group (reordered.mem_iff.mp inside)
  refine ⟨ordered.map (fun group => byTime group.2),⟨?_,?_,?_,?_⟩,?_⟩
  · have same : (ordered.flatMap (fun group => byTime group.2)).Perm (ordered.flatMap Prod.snd) :=
      List.Perm.flatMap_left ordered (fun group _ => mergeSort_perm group.2 _)
    exact (same.trans (reordered.flatMap_right Prod.snd)).trans grouped.all
  · intro session listed
    obtain ⟨group,inside,rfl⟩ := List.mem_map.mp listed
    obtain ⟨member,among,-⟩ := (spans group inside).first
    exact ne_nil_of_mem (mem_mergeSort.mpr among)
  · intro session listed
    obtain ⟨group,inside,rfl⟩ := List.mem_map.mp listed
    exact ((spans group inside).close gap positive).imp (fun record later near => ⟨near.1,by omega⟩)
  · refine pairwise_map.mpr ((sorted.and apart).imp_of_mem (fun {group later} inside inside' both record among record' among' => ?_))
    have bounds := (spans group inside).inside record (mem_mergeSort.mp among)
    have bounds' := (spans later inside').inside record' (mem_mergeSort.mp among')
    have order := of_decide_eq_true both.1
    have own := later.1.ordered
    have off := of_decide_eq_false both.2
    omega
  · rw [List.map_map]
    refine (reordered.symm.map _).trans (List.Perm.of_eq (map_congr_left (fun group _ => ?_)))
    exact total_perm c commutative associative _ _ (mergeSort_perm group.2 _).symm

end sorting

section runs
variable {κ β : Type} [DecidableEq κ] (c : WindowConfig κ β) (gap : Int) (positive : 0 < gap)
  (session : c.assigner = .session gap positive)

def recordsOf (inputs : List (WindowInput β)) : List (β × Int) := inputs.filterMap (fun input => match input with
  | .record block timestamp => some (block,timestamp)
  | .watermark _ => none)

def replay (o : WindowOperator κ β) (records : List (β × Int)) : WindowOperator κ β :=
  records.foldl (fun o record => o.processManagedElement c record.1 record.2) o

def Ahead (o : WindowOperator κ β) : WindowInput β → Prop
  | .record _ timestamp => o.currentWatermark < timestamp
  | .watermark _ => True

instance (o : WindowOperator κ β) (input : WindowInput β) : Decidable (Ahead o input) := by
  cases input <;> unfold Ahead <;> infer_instance

variable (commutative : ∀ first second, c.reduceFunction first second = c.reduceFunction second first)
variable (associative : ∀ first second third,
  c.reduceFunction (c.reduceFunction first second) third = c.reduceFunction first (c.reduceFunction second third))

include session commutative associative in
theorem replay_grouped (records : List (β × Int)) (valid : ∀ record ∈ records, 0 ≤ record.2) :
    (replay c init records).currentWatermark = -1 ∧
      ∀ key, ∃ groups, Grouped c gap key (replay c init records) (records.filter (fun record => c.keySelector record.1 = key)) groups := by
  have merging : c.assigner.isMerging = true := by
    rw [session]
    rfl
  induction records using List.reverseRecOn with
  | nil =>
    refine ⟨rfl,fun key => ⟨[],fun window value => ?_,by simp,List.Pairwise.nil,List.Perm.refl _⟩⟩
    exact iff_of_false nofun (fun found => by simp at found)
  | append_singleton records record ih =>
    obtain ⟨watermark,grouped⟩ := ih (fun other inside => valid other (mem_append_left _ inside))
    have early := valid record (mem_append_right _ mem_cons_self)
    have next : replay c init (records ++ [record]) = (replay c init records).processManagedElement c record.1 record.2 := by
      unfold replay
      rw [foldl_append]
      rfl
    rw [next]
    rcases session_record c gap positive session (replay c init records) record.1 record.2 with ⟨late,-⟩ | ⟨-,touches⟩
    · have grows := plan_stop c (replay c init records) (c.keySelector record.1) (candidate gap positive record.2)
      unfold cleanupTimestamp at late
      unfold candidate at grows late
      dsimp only at grows
      omega
    · refine ⟨touches.currentWatermark.trans watermark,fun key => ?_⟩
      obtain ⟨groups,known⟩ := grouped key
      rw [filter_append]
      by_cases own : c.keySelector record.1 = key
      · subst own
        have taken : [record].filter (fun other => c.keySelector other.1 = c.keySelector record.1) = [record] := by simp
        rw [taken]
        exact known.record c gap positive _ _ _ _ groups commutative associative merging record.1 record.2 touches
      · have left : [record].filter (fun other => c.keySelector other.1 = key) = [] := by simp [own]
        rw [left,append_nil]
        exact ⟨groups,known.other c gap _ _ key _ groups _ own record.1 _ _ touches⟩

include commutative associative in
theorem mirrors_run (inputs : List (WindowInput β)) (o reference final : WindowOperator κ β) (mirrors : Mirrors c o reference)
    (ahead : Runs.Along (WindowOperator.step c) (Ahead) o inputs) (run : Runs.exec (WindowOperator.step c) o inputs = some final) :
    Mirrors c final (replay c reference (recordsOf inputs)) := by
  induction inputs generalizing o reference with
  | nil =>
    obtain rfl := some.inj run
    exact mirrors
  | cons input rest ih =>
    obtain ⟨next,taken,remaining⟩ := bind_eq_some_iff.mp run
    cases input with
    | record block timestamp =>
      obtain ⟨valid,rfl⟩ := step_record c o next block timestamp taken
      have before : o.currentWatermark < timestamp := ahead.1
      have off : ¬ Collides c o block timestamp := fun collides => absurd collides.2.1 (Int.ne_of_gt before)
      have after := (mirrors.record c o reference block timestamp before.le valid off commutative associative).2
      exact ih _ _ after (ahead.2 _ taken) remaining
    | watermark timestamp =>
      obtain rfl := some.inj taken
      exact ih _ _ (mirrors.watermark c o reference timestamp) (ahead.2 _ rfl) remaining

theorem finish_mirrors (o reference : WindowOperator κ β) (mirrors : Mirrors c o reference)
    (bounded : ∀ entry value, reference.state.get? entry = some value → cleanupTimestamp c entry.2 ≤ lastTimestamp) :
    ((o.finish c).results.map Prod.fst).Nodup ∧
      ∀ entry value, (entry,value) ∈ (o.finish c).results ↔ reference.state.get? entry = some value := by
  obtain ⟨fired,results,distinct,exact'⟩ := (finish_fires c o mirrors.scheduled).results
  change (o.finish c).results = o.results ++ fired at results
  rw [results]
  constructor
  · rw [map_append]
    refine mirrors.once.append distinct (fun entry mine theirs => ?_)
    obtain ⟨result,inside,rfl⟩ := List.mem_map.mp mine
    obtain ⟨other,inside',same⟩ := List.mem_map.mp theirs
    have held := ((exact' other.1 other.2).mp inside').1
    rw [same,mirrors.gone result inside] at held
    cases held
  · intro entry value
    rw [mem_append,exact',mirrors.mirrored]
    constructor
    · exact fun either => either.elim .inr (fun live => .inl live.1)
    · intro either
      rcases either with live | emitted
      · exact .inr ⟨live,bounded entry value ((mirrors.mirrored entry value).mpr (.inl live))⟩
      · exact .inl emitted

theorem hull_stop (bound : Int) (overlapping : List TimeWindow) (window : TimeWindow) (own : window.stop ≤ bound)
    (each : ∀ other ∈ overlapping, other.stop ≤ bound) : (overlapping.foldl TimeWindow.merge window).stop ≤ bound := by
  induction overlapping generalizing window with
  | nil => exact own
  | cons other rest ih =>
    refine ih _ ?_ (fun later inside => each later (mem_cons_of_mem _ inside))
    exact max_le own (each other mem_cons_self)

include session in
theorem bounded_step (bound : Int) (o next : WindowOperator κ β)
    (bounded : ∀ entry value, o.state.get? entry = some value → entry.2.stop ≤ bound) (block : β) (timestamp : Int)
    (own : timestamp + gap ≤ bound) (taken : o.processManagedElement c block timestamp = next) :
    ∀ entry value, next.state.get? entry = some value → entry.2.stop ≤ bound := by
  have merging : c.assigner.isMerging = true := by
    rw [session]
    rfl
  subst taken
  intro entry value held
  rcases session_record c gap positive session o block timestamp with ⟨-,same⟩ | ⟨-,touches⟩
  · rw [same] at held
    exact bounded entry value held
  · rw [touches.state] at held
    split at held
    next target =>
      rw [target,sessionMergePlan_eq c o merging]
      refine hull_stop bound _ _ own (fun other inside => ?_)
      obtain ⟨live,-⟩ := mem_filter.mp inside
      obtain ⟨current,found⟩ := (mem_namespaces c o _ other).mp live
      exact bounded _ current found
    next => exact bounded entry value (ite_none_left_eq_some.mp held).2

include session in
theorem session_run_exists (inputs : List (WindowInput β)) (o : WindowOperator κ β) (scheduled : Scheduled c o) (apart : Apart o)
    (bounded : ∀ entry value, o.state.get? entry = some value → entry.2.stop ≤ 2 ^ 64 - c.allowedLatenessMs)
    (fits : ∀ record ∈ recordsOf inputs, 0 ≤ record.2 ∧ record.2 + gap ≤ 2 ^ 64 - c.allowedLatenessMs) :
    ∃ final, Runs.exec (WindowOperator.step c) o inputs = some final := by
  induction inputs generalizing o with
  | nil => exact ⟨o,rfl⟩
  | cons input rest ih =>
    have done : ∃ next, o.step c input = some next ∧
        ∀ entry value, next.state.get? entry = some value → entry.2.stop ≤ 2 ^ 64 - c.allowedLatenessMs := by
      cases input with
      | record block timestamp =>
        obtain ⟨valid,ends⟩ := fits (block,timestamp) mem_cons_self
        have after := bounded_step c gap positive session _ o _ bounded block timestamp ends rfl
        refine ⟨_,?_,after⟩
        have timers : Scheduled c (o.processManagedElement c block timestamp) := by
          rcases session_record c gap positive session o block timestamp with ⟨-,same⟩ | ⟨-,touches⟩
          · rw [same]
            exact ⟨scheduled.distinct,scheduled.exact⟩
          · exact touches.scheduled c o _ _ _ _ _ scheduled
        rw [WindowOperator.step,if_neg (Int.not_lt.mpr valid)]
        refine if_pos (List.all_eq_true.mpr (fun timer inside => decide_eq_true ?_))
        obtain ⟨key,window,value,held,rfl⟩ := (timers.exact timer).mp inside
        have small := after _ value held
        dsimp only [timerOf]
        unfold cleanupTimestamp
        dsimp only at small
        omega
      | watermark timestamp =>
        refine ⟨_,rfl,fun entry value held => ?_⟩
        by_cases later : o.currentWatermark < timestamp
        · rw [(onEventTimeWatermark_fires c o scheduled timestamp later).state] at held
          exact bounded entry value (ite_none_left_eq_some.mp held).2
        · have same : o.onEventTimeWatermark c timestamp = o := if_pos (Int.not_lt.mp later)
          rw [same] at held
          exact bounded entry value held
    obtain ⟨next,taken,after⟩ := done
    obtain ⟨scheduled',apart'⟩ := session_step c gap positive session o next scheduled apart input taken
    have later : ∀ record ∈ recordsOf rest, 0 ≤ record.2 ∧ record.2 + gap ≤ 2 ^ 64 - c.allowedLatenessMs := by
      intro record inside
      apply fits record
      cases input with
      | record => exact mem_cons_of_mem _ inside
      | watermark => exact inside
    obtain ⟨final,run⟩ := ih next scheduled' apart' after later
    refine ⟨final,?_⟩
    rw [Runs.exec_cons,taken]
    exact run

theorem emitted_groups (results : List ((κ × TimeWindow) × β)) (once : (results.map Prod.fst).Nodup) (o : WindowOperator κ β)
    (emitted : ∀ entry value, (entry,value) ∈ results ↔ o.state.get? entry = some value) (key : κ) (records : List (β × Int))
    (groups : List (TimeWindow × List (β × Int))) (grouped : Grouped c gap key o records groups) :
    ((results.filter (fun result => result.1.1 = key)).map (fun result => some result.2)).Perm
      (groups.map (fun group => total c group.2)) := by
  have named : ((results.filter (fun result => result.1.1 = key)).map (fun result => (result.1.2,some result.2))).Perm
      (groups.map (fun group => (group.1,total c group.2))) := by
    have first : ((results.filter (fun result => result.1.1 = key)).map (fun result => (result.1.2,some result.2))).Nodup := by
      have distinct : results.Nodup := once.of_map
      refine (distinct.filter _).map_on (fun result inside other inside' same => ?_)
      obtain ⟨mine,own⟩ := mem_filter.mp inside
      obtain ⟨theirs,own'⟩ := mem_filter.mp inside'
      obtain ⟨window,value⟩ := Prod.mk.inj same
      have keys : result.1.1 = other.1.1 := (of_decide_eq_true own).trans (of_decide_eq_true own').symm
      exact Prod.ext (Prod.ext keys window) (some.inj value)
    have second : (groups.map (fun group => (group.1,total c group.2))).Nodup := by
      have windows := grouped.distinct c gap o key records groups
      refine List.Nodup.of_map Prod.fst ?_
      rw [List.map_map]
      exact windows
    refine (perm_ext_iff_of_nodup first second).mpr (fun pair => ?_)
    obtain ⟨window,value⟩ := pair
    simp only [List.mem_map,mem_filter,Prod.mk.injEq,decide_eq_true_eq]
    constructor
    · intro found
      obtain ⟨⟨⟨own,window'⟩,value'⟩,⟨inside,rfl⟩,rfl,rfl⟩ := found
      obtain ⟨members,among,known⟩ := (grouped.held _ _).mp ((emitted _ _).mp inside)
      exact ⟨_,among,rfl,known⟩
    · intro found
      obtain ⟨⟨window',members⟩,among,rfl,rfl⟩ := found
      obtain ⟨value,known⟩ := (grouped.spans _ among).filled c gap _ _
      exact ⟨((key,window'),value),⟨(emitted _ _).mpr ((grouped.held _ _).mpr ⟨members,among,known⟩),rfl⟩,rfl,known.symm⟩
  have values := named.map Prod.snd
  rw [List.map_map,List.map_map] at values
  exact values

end runs

/-- A session assigner of durations that the conversion keeps: in every state the live
windows of a key do not overlap and each has its timer; and if every record is above the
watermark, `finish` leaves one result for each maximal session, its fold. -/
theorem session_windows_maximal {κ β : Type} [DecidableEq κ] (base c : WindowConfig κ β) (gap allowedLateness : Int)
    (assigner : WindowAssigner) (made : sessionWindow gap = .ok assigner) (ok : base.build assigner allowedLateness = .ok c)
    (whole : Whole gap ∧ Whole allowedLateness) (inputs : List (WindowInput β)) :
    (∀ reached, Runs.exec (WindowOperator.step c) init inputs = some reached → Apart reached ∧ reached.timers.Nodup ∧
      ∀ timer, timer ∈ reached.timers ↔ ∃ value, reached.state.get? (timer.key,timer.window) = some value ∧
        1000 * timer.timestamp = 1000 * (timer.window.stop - 1) + allowedLateness) ∧
    ((∀ first second, c.reduceFunction first second = c.reduceFunction second first) →
      (∀ first second third, c.reduceFunction (c.reduceFunction first second) third = c.reduceFunction first (c.reduceFunction second third)) →
      (∀ record ∈ recordsOf inputs, 0 ≤ record.2 ∧ 1000 * (record.2 - 1) + gap + allowedLateness ≤ 1000 * lastTimestamp) →
      Runs.Along (WindowOperator.step c) (Ahead) init inputs →
      ∃ final, Runs.exec (WindowOperator.step c) init inputs = some final ∧ ∀ key, ∃ sessions,
        MaximalSessions gap ((recordsOf inputs).filter (fun record => c.keySelector record.1 = key)) sessions ∧
        (((final.finish c).results.filter (fun result => result.1.1 = key)).map (fun result => some result.2)).Perm
          (sessions.map (total c))) := by
  obtain ⟨allowedLatenessMs,computed,valid,rfl⟩ := WindowConfig.build_ok base c assigner allowedLateness ok
  have lateness := whole.2.eq _ _ computed
  obtain ⟨gapMs,first,made⟩ := Fallible.bind_ok made
  obtain rfl := Except.ok.inj made
  have gap' := whole.1.eq _ _ (positiveMilliseconds_ok _ _ _ first)
  generalize built : ({base with
    assigner := .session gapMs.1 gapMs.2
    allowedLatenessMs := allowedLatenessMs.toNat} : WindowConfig κ β) = c
  have session : c.assigner = .session gapMs.1 gapMs.2 := by
    rw [← built]
  have latenessMs : (c.allowedLatenessMs : Int) = allowedLatenessMs := by
    rw [← built]
    dsimp only
    omega
  have scheduled : Scheduled c (init : WindowOperator κ β) := ⟨nodup_nil,by simp [init]⟩
  have apart : Apart (init : WindowOperator κ β) := fun _ _ _ _ _ held => by cases held
  refine ⟨fun reached run => ?_,fun commutative associative fits ahead => ?_⟩
  · have kept := Runs.exec_invariant (WindowOperator.step c) (fun _ _ => True) (fun o => Scheduled c o ∧ Apart o)
      (fun o input next invariant _ taken => session_step c gapMs.1 gapMs.2 session o next invariant.1 invariant.2 input taken)
      inputs init reached ⟨scheduled,apart⟩ (Runs.Along.of_forall _ _ _ (fun _ _ _ => trivial) _) run
    refine ⟨kept.2,kept.1.distinct,fun timer => ?_⟩
    rw [kept.1.exact]
    constructor
    · intro live
      obtain ⟨key,window,value,held,rfl⟩ := live
      refine ⟨value,held,?_⟩
      dsimp only [timerOf]
      unfold cleanupTimestamp
      omega
    · intro live
      obtain ⟨value,held,stamp⟩ := live
      refine ⟨timer.key,timer.window,value,held,?_⟩
      obtain ⟨timestamp,key,window⟩ := timer
      dsimp only [timerOf] at stamp ⊢
      unfold cleanupTimestamp
      rw [WindowTimer.mk.injEq]
      exact ⟨by omega,rfl,rfl⟩
  · have small : ∀ record ∈ recordsOf inputs, 0 ≤ record.2 ∧ record.2 + gapMs.1 ≤ 2 ^ 64 - c.allowedLatenessMs := by
      intro record inside
      have bounds := fits record inside
      unfold lastTimestamp at bounds
      omega
    obtain ⟨final,run⟩ := session_run_exists c gapMs.1 gapMs.2 session inputs init scheduled apart (fun _ _ held => by cases held) small
    have mirrors := mirrors_run c commutative associative inputs init init final (.init c) ahead run
    obtain ⟨-,grouped⟩ := replay_grouped c gapMs.1 gapMs.2 session commutative associative (recordsOf inputs) (fun record inside => (fits record inside).1)
    have emitted := finish_mirrors c final _ mirrors (fun entry value held => ?_)
    · refine ⟨final,run,fun key => ?_⟩
      obtain ⟨groups,known⟩ := grouped key
      obtain ⟨sessions,maximal,values⟩ := known.maximal gapMs.1 gapMs.2 c key _ _ groups commutative associative
      rw [gap'] at maximal
      exact ⟨sessions,maximal,(emitted_groups c gapMs.1 _ emitted.1 _ emitted.2 key _ groups known).trans values⟩
    · obtain ⟨groups,known⟩ := grouped entry.1
      obtain ⟨members,among,-⟩ := (known.held entry.2 value).mp held
      obtain ⟨member,inside,stop⟩ := (known.spans _ among).last
      have listed := known.all.mem_iff.mp (mem_flatMap.mpr ⟨_,among,inside⟩)
      have bounds := (fits member (mem_of_mem_filter listed)).2
      unfold cleanupTimestamp
      dsimp only at stop
      omega

section sums

def sessionSums (assigner : WindowAssigner) : WindowConfig Unit Nat where
  keySelector _ := ()
  assigner := assigner
  reduceFunction := (· + ·)
  allowedLatenessMs := 0
  rank window := window.start.toNat
  digest _ window := window.start.toNat

theorem sessionSums_built (base assigner : WindowAssigner) : (sessionSums base).build assigner 0 = .ok (sessionSums assigner) := by
  unfold WindowConfig.build
  rw [milliseconds_zero]
  rfl

/-- Records around a watermark are emitted by their sessions. -/
theorem fives_emitted : ∃ final, Runs.exec (WindowOperator.step (sessionSums (.session 5 (by decide)))) init
      [.record 1 3,.watermark 4,.record 2 6,.record 4 20] = some final ∧ ∀ key : Unit, ∃ sessions,
    MaximalSessions 5000 ((recordsOf [WindowInput.record 1 3,.watermark 4,.record 2 6,.record 4 20]).filter (fun _ => () = key)) sessions ∧
      (((final.finish (sessionSums (.session 5 (by decide)))).results.filter (fun result => result.1.1 = key)).map
        (fun result => some result.2)).Perm (sessions.map (total (sessionSums (.session 5 (by decide))))) := by
  have gap : milliseconds 5000 = .ok 5 := by decide +kernel
  have made : sessionWindow 5000 = .ok (.session 5 (by decide)) := by
    unfold sessionWindow positiveMilliseconds
    rw [gap]
    rfl
  have whole : Whole 5000 ∧ Whole 0 := by
    refine ⟨⟨5,gap,rfl⟩,⟨0,?_,rfl⟩⟩
    decide +kernel
  exact (session_windows_maximal (sessionSums (.session 5 (by decide))) (sessionSums (.session 5 (by decide))) 5000 0 _ made
    (sessionSums_built _ _) whole _).2 Nat.add_comm Nat.add_assoc (by decide) (by decide +kernel)

/-- A gap of 1001 milliseconds becomes 1000, and one session is emitted as two. -/
theorem session_split : sessionWindow 1001000 = .ok (.session 1000 (by decide)) ∧
    MaximalSessions 1001000 [(1,0),(2,1000)] [[(1,0),(2,1000)]] ∧
    (Runs.exec (WindowOperator.step (sessionSums (.session 1000 (by decide)))) init [.record 1 0,.watermark 999,.record 2 1000]).map
      (fun final => (final.finish (sessionSums (.session 1000 (by decide)))).results.map Prod.snd) = some [1,2] := by
  refine ⟨?_,⟨?_,?_,?_,?_⟩,?_⟩
  · have gap : milliseconds 1001000 = .ok 1000 := by decide +kernel
    unfold sessionWindow positiveMilliseconds
    rw [gap]
    rfl
  · exact List.Perm.refl _
  · simp
  · simp
  · simp
  · decide +kernel

end sums

end WindowOperator
end Klein.EventTime
