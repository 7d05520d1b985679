import Mathlib
import Klein.DictBag
import Klein.EventTime.WindowOperator

/-! What one step of the window operator does to its windows and timers, and that an
operator that saw watermarks holds, with what it has emitted, what one that saw
none holds. -/
namespace Klein.EventTime.WindowOperator
open List Option

variable {κ β : Type} [DecidableEq κ] (c : WindowConfig κ β)

structure Scheduled (o : WindowOperator κ β) : Prop where
  distinct : o.timers.Nodup
  exact : ∀ timer, timer ∈ o.timers ↔ ∃ key window value, o.state.get? (key,window) = some value ∧
    timer = timerOf c key window

def join (accumulated : Option β) (value : β) : Option β :=
  some ((accumulated.map (fun before => c.reduceFunction before value)).getD value)

section merging
variable (o : WindowOperator κ β) (key : κ)

def without (windows : List TimeWindow) : WindowOperator κ β := {o with
  state := o.state.filter (fun entry _ => ¬ (entry.1 = key ∧ entry.2 ∈ windows))
  timers := o.timers.diff (windows.map (timerOf c key))}

theorem absorb_all (windows : List TimeWindow) (distinct : windows.Nodup) (accumulated : Option β) :
    windows.foldl (absorb c key) (o,accumulated) =
      (o.without c key windows,(windows.filterMap (fun window => o.state.get? (key,window))).foldl (join c) accumulated) := by
  induction windows generalizing o accumulated with
  | nil =>
    have whole : o.state.filter (fun entry _ => ¬ (entry.1 = key ∧ entry.2 ∈ ([] : List TimeWindow))) = o.state :=
      Dict.filter_eq_self _ _ (by simp)
    simp only [without,foldl_nil,filterMap_nil,map_nil,diff_nil,whole]
  | cons window rest ih =>
    obtain ⟨absent,remaining⟩ := nodup_cons.mp distinct
    have others : rest.filterMap (fun other => (o.state.erase (key,window)).get? (key,other)) =
        rest.filterMap (fun other => o.state.get? (key,other)) := by
      refine filterMap_congr (fun other inside => ?_)
      have different : other ≠ window := fun same => absent (same ▸ inside)
      simp [different]
    have kept : (o.state.erase (key,window)).filter (fun entry _ => ¬ (entry.1 = key ∧ entry.2 ∈ rest)) =
        o.state.filter (fun entry _ => ¬ (entry.1 = key ∧ entry.2 ∈ window::rest)) := by
      ext1
      simp only [Dict.erase,Dict.filter,List.filter_filter]
      refine List.filter_congr (fun item _ => ?_)
      obtain ⟨⟨own,other⟩,value⟩ := item
      by_cases same : own = key <;> by_cases first : other = window <;> simp [same,first]
    have first : absorb c key (o,accumulated) window = ({o with
        state := o.state.erase (key,window)
        timers := o.timers.erase (timerOf c key window)},
      (o.state.get? (key,window)).elim accumulated (join c accumulated)) := by
      unfold absorb
      dsimp only
      cases o.state.get? (key,window) <;> rfl
    rw [foldl_cons,first,ih _ remaining,others]
    simp only [without,kept,map_cons,diff_cons]
    cases found : o.state.get? (key,window) with
    | none => simp [found]
    | some value => simp [found]

theorem without_get? (windows : List TimeWindow) (entry : κ × TimeWindow) :
    (o.without c key windows).state.get? entry =
      if entry.1 = key ∧ entry.2 ∈ windows then none else o.state.get? entry := by
  simp only [without,Dict.get?_filter]
  by_cases own : entry.1 = key ∧ entry.2 ∈ windows
  · rw [if_pos own]
    cases o.state.get? entry <;> simp [own]
  · rw [if_neg own]
    cases o.state.get? entry <;> simp [own]

end merging

section
variable (o : WindowOperator κ β) (key : κ)
include o key

theorem mem_namespaces (window : TimeWindow) :
    window ∈ o.namespaces c key ↔ ∃ value, o.state.get? (key,window) = some value := by
  simp only [namespaces,mem_mergeSort,List.mem_map,mem_filter,decide_eq_true_eq,Dict.mem_keys]
  constructor
  · rintro ⟨⟨own,other⟩,⟨found,rfl⟩,rfl⟩
    exact found
  · exact fun found => ⟨(key,window),⟨found,rfl⟩,rfl⟩

theorem nodup_namespaces : (o.namespaces c key).Nodup := by
  refine ((mergeSort_perm _ _).nodup_iff).mpr ?_
  refine List.Nodup.map_on ?_ (o.state.distinct.filter _)
  rintro ⟨first,window⟩ inside ⟨second,other⟩ inside' rfl
  have own : first = key := by simpa using (mem_filter.mp inside).2
  have own' : second = key := by simpa using (mem_filter.mp inside').2
  rw [own,own']

theorem nodup_plan (candidate : TimeWindow) :
    (o.sessionMergePlan c key candidate).2.Nodup := by
  unfold sessionMergePlan
  split
  · exact (nodup_namespaces c o key).filter _
  · exact nodup_nil

end

def prior (o : WindowOperator κ β) (key : κ) (target : TimeWindow) (overlapping : List TimeWindow) : Option β :=
  ((overlapping.filterMap (fun window => o.state.get? (key,window))).foldl (join c) none).or
    (if target ∈ overlapping then none else o.state.get? (key,target))

theorem mergeSessionWindows_spec (o : WindowOperator κ β) (key : κ) (target : TimeWindow)
    (overlapping : List TimeWindow) (distinct : overlapping.Nodup) :
    ∃ state, o.mergeSessionWindows c key target overlapping = {o.without c key overlapping with state := state} ∧
      state.get? (key,target) = prior c o key target overlapping ∧
      ∀ entry, entry ≠ (key,target) → state.get? entry = (o.without c key overlapping).state.get? entry := by
  unfold mergeSessionWindows prior
  rw [absorb_all c o key overlapping distinct none]
  dsimp only
  cases (overlapping.filterMap (fun window => o.state.get? (key,window))).foldl (join c) none with
  | none => exact ⟨(o.without c key overlapping).state,rfl,by rw [none_or,without_get?]; simp,fun _ _ => rfl⟩
  | some value => exact ⟨_,rfl,by simp,fun entry different => by simp [different]⟩

structure Touches (o : WindowOperator κ β) (key : κ) (block : β) (target : TimeWindow) (overlapping : List TimeWindow)
    (next : WindowOperator κ β) : Prop where
  state : ∀ entry, next.state.get? entry = if entry = (key,target) then
    some (((prior c o key target overlapping).map (fun current => c.reduceFunction current block)).getD block)
    else if entry.1 = key ∧ entry.2 ∈ overlapping then none else o.state.get? entry
  timers : next.timers = (o.timers.diff (overlapping.map (timerOf c key))).insert (timerOf c key target)
  currentWatermark : next.currentWatermark = o.currentWatermark
  lateDrops : next.lateDrops = o.lateDrops
  results : next.results = o.results

theorem processWindow_touches (o : WindowOperator κ β) (key : κ) (block : β) (window : TimeWindow)
    (timely : o.currentWatermark < cleanupTimestamp c (o.sessionMergePlan c key window).1) :
    (o.processWindow c key block window).2 = false ∧
      Touches c o key block (o.sessionMergePlan c key window).1 (o.sessionMergePlan c key window).2
        (o.processWindow c key block window).1 := by
  have distinct := nodup_plan c o key window
  unfold processWindow
  generalize o.sessionMergePlan c key window = plan at distinct timely ⊢
  obtain ⟨target,overlapping⟩ := plan
  obtain ⟨state,merged,own,others⟩ := mergeSessionWindows_spec c o key target overlapping distinct
  dsimp only at timely ⊢
  rw [if_neg (by omega),merged]
  refine ⟨rfl,?_,rfl,rfl,rfl,rfl⟩
  intro entry
  dsimp only
  rw [Dict.get?_set,own]
  split
  · cases prior c o key target overlapping <;> rfl
  next different => rw [others entry different,without_get?]

theorem Touches.scheduled (o next : WindowOperator κ β) (key : κ) (block : β) (target : TimeWindow)
    (overlapping : List TimeWindow) (touches : Touches c o key block target overlapping next)
    (scheduled : Scheduled c o) : Scheduled c next where
  distinct := by
    rw [touches.timers]
    exact scheduled.distinct.diff.insert
  exact timer := by
    rw [touches.timers,mem_insert_iff,scheduled.distinct.mem_sdiff_iff,scheduled.exact]
    constructor
    · rintro (rfl | ⟨⟨own,window,value,found,rfl⟩,kept⟩)
      · exact ⟨key,target,_,by rw [touches.state,if_pos rfl],rfl⟩
      · by_cases same : (own,window) = (key,target)
        · exact ⟨own,window,_,by rw [touches.state,if_pos same],rfl⟩
        · refine ⟨own,window,value,?_,rfl⟩
          rw [touches.state,if_neg same,if_neg,found]
          rintro ⟨rfl,inside⟩
          exact kept (List.mem_map.mpr ⟨window,inside,rfl⟩)
    · rintro ⟨own,window,value,found,rfl⟩
      rw [touches.state] at found
      split at found
      next same =>
        obtain ⟨rfl,rfl⟩ := Prod.mk.inj same
        exact .inl rfl
      next =>
        obtain ⟨kept,held⟩ := ite_none_left_eq_some.mp found
        refine .inr ⟨⟨own,window,value,held,rfl⟩,?_⟩
        intro inside
        obtain ⟨other,member,same⟩ := List.mem_map.mp inside
        simp only [timerOf,WindowTimer.mk.injEq] at same
        obtain ⟨-,rfl,rfl⟩ := same
        exact kept ⟨rfl,member⟩

section firing

theorem fire_all (due : List (WindowTimer κ)) (distinct : (due.map (fun timer => (timer.key,timer.window))).Nodup)
    (o : WindowOperator κ β) : due.foldl onTimer o = {o with
      state := o.state.filter (fun entry _ => entry ∉ due.map (fun timer => (timer.key,timer.window)))
      results := o.results ++ due.filterMap (fun timer =>
        (o.state.get? (timer.key,timer.window)).map (fun value => ((timer.key,timer.window),value)))} := by
  induction due generalizing o with
  | nil =>
    have whole : o.state.filter (fun entry _ => entry ∉ ([] : List (κ × TimeWindow))) = o.state :=
      Dict.filter_eq_self _ _ (by simp)
    simp only [foldl_nil,map_nil,filterMap_nil,append_nil]
    rw [whole]
  | cons timer rest ih =>
    obtain ⟨absent,remaining⟩ := nodup_cons.mp distinct
    rw [foldl_cons,ih remaining]
    have others : rest.filterMap (fun other => ((o.onTimer timer).state.get? (other.key,other.window)).map
        (fun value => ((other.key,other.window),value))) =
        rest.filterMap (fun other => (o.state.get? (other.key,other.window)).map
          (fun value => ((other.key,other.window),value))) := by
      refine filterMap_congr (fun other inside => ?_)
      have different : (other.key,other.window) ≠ (timer.key,timer.window) := fun same =>
        absent (List.mem_map.mpr ⟨other,inside,same⟩)
      unfold onTimer
      split
      · rfl
      · rw [Dict.get?_erase,if_neg different]
    rw [others]
    unfold onTimer
    cases found : o.state.get? (timer.key,timer.window) with
    | none =>
      have kept : o.state.filter (fun entry _ => entry ∉ rest.map (fun timer => (timer.key,timer.window))) =
          o.state.filter (fun entry _ => entry ∉ (timer::rest).map (fun timer => (timer.key,timer.window))) := by
        ext1
        refine List.filter_congr (fun item inside => ?_)
        have different : item.1 ≠ (timer.key,timer.window) := by
          intro same
          rw [← same,(Dict.get?_eq_some _ _ _).mpr inside] at found
          contradiction
        simp [different]
      rw [← kept]
      simp only [filterMap_cons,found,map_none]
    | some value =>
      have kept : (o.state.erase (timer.key,timer.window)).filter
          (fun entry _ => entry ∉ rest.map (fun timer => (timer.key,timer.window))) =
          o.state.filter (fun entry _ => entry ∉ (timer::rest).map (fun timer => (timer.key,timer.window))) := by
        ext1
        simp only [Dict.erase,Dict.filter,List.filter_filter]
        refine List.filter_congr (fun item _ => ?_)
        by_cases same : item.1 = (timer.key,timer.window) <;> simp [same]
      rw [← kept]
      simp only [filterMap_cons,found,map_some,append_assoc,singleton_append]

theorem filterMap_fst_sublist {α γ δ : Type} (items : List α) (name : α → γ) (value : α → Option δ) :
    ((items.filterMap (fun item => (value item).map (fun found => (name item,found)))).map Prod.fst).Sublist
      (items.map name) := by
  induction items with
  | nil => exact List.Sublist.refl _
  | cons item rest ih =>
    cases found : value item with
    | none => simpa [found] using ih.cons (name item)
    | some other => simpa [found] using ih

structure Fires (o : WindowOperator κ β) (timestamp : Int) (next : WindowOperator κ β) : Prop where
  state : ∀ entry, next.state.get? entry =
    if cleanupTimestamp c entry.2 ≤ timestamp then none else o.state.get? entry
  results : ∃ fired : List ((κ × TimeWindow) × β), next.results = o.results ++ fired ∧
    (fired.map Prod.fst).Nodup ∧ ∀ entry value, (entry,value) ∈ fired ↔
      o.state.get? entry = some value ∧ cleanupTimestamp c entry.2 ≤ timestamp
  scheduled : Scheduled c next
  currentWatermark : next.currentWatermark = timestamp
  lateDrops : next.lateDrops = o.lateDrops

theorem onEventTimeWatermark_fires (o : WindowOperator κ β) (scheduled : Scheduled c o) (timestamp : Int)
    (later : o.currentWatermark < timestamp) : Fires c o timestamp (o.onEventTimeWatermark c timestamp) := by
  have due (timer : WindowTimer κ) : timer ∈ o.dueTimers c timestamp ↔ timer ∈ o.timers ∧ timer.timestamp ≤ timestamp := by
    simp [dueTimers]
  have listed (entry : κ × TimeWindow) (value : β) (found : o.state.get? entry = some value) :
      entry ∈ (o.dueTimers c timestamp).map (fun timer => (timer.key,timer.window)) ↔
        cleanupTimestamp c entry.2 ≤ timestamp := by
    simp only [List.mem_map,due,scheduled.exact]
    constructor
    · rintro ⟨timer,⟨⟨key,window,other,-,rfl⟩,past⟩,rfl⟩
      exact past
    · exact fun past => ⟨timerOf c entry.1 entry.2,⟨⟨entry.1,entry.2,value,found,rfl⟩,past⟩,rfl⟩
  have distinct : ((o.dueTimers c timestamp).map (fun timer => (timer.key,timer.window))).Nodup := by
    have nodup : (o.dueTimers c timestamp).Nodup := ((mergeSort_perm _ _).nodup_iff).mpr (scheduled.distinct.filter _)
    refine nodup.map_on (fun first inside second inside' same => ?_)
    obtain ⟨key,window,-,-,rfl⟩ := (scheduled.exact first).mp ((due first).mp inside).1
    obtain ⟨key',window',-,-,rfl⟩ := (scheduled.exact second).mp ((due second).mp inside').1
    obtain ⟨rfl,rfl⟩ := Prod.mk.inj same
    rfl
  unfold onEventTimeWatermark
  rw [if_neg (by omega),fire_all _ distinct]
  have state (entry : κ × TimeWindow) : (o.state.filter (fun entry _ =>
      entry ∉ (o.dueTimers c timestamp).map (fun timer => (timer.key,timer.window)))).get? entry =
      if cleanupTimestamp c entry.2 ≤ timestamp then none else o.state.get? entry := by
    rw [Dict.get?_filter]
    cases found : o.state.get? entry with
    | none => simp
    | some value =>
      have iff := listed entry value found
      by_cases past : cleanupTimestamp c entry.2 ≤ timestamp
      · rw [if_pos past,filter_some,if_neg (by simpa using iff.mpr past)]
      · rw [if_neg past,filter_some,if_pos (by simpa using fun inside => past (iff.mp inside))]
  constructor
  case state => exact state
  case results =>
    refine ⟨_,rfl,distinct.sublist (filterMap_fst_sublist _ _ _),fun entry value => ?_⟩
    simp only [mem_filterMap,map_eq_some_iff,Prod.mk.injEq]
    constructor
    · rintro ⟨timer,inside,_,found,rfl,rfl⟩
      exact ⟨found,(listed _ _ found).mp (List.mem_map.mpr ⟨timer,inside,rfl⟩)⟩
    · rintro ⟨found,past⟩
      obtain ⟨timer,inside,rfl⟩ := List.mem_map.mp ((listed entry value found).mpr past)
      exact ⟨timer,inside,value,found,rfl,rfl⟩
  case scheduled =>
    refine ⟨scheduled.distinct.filter _,fun timer => ?_⟩
    simp only [mem_filter,scheduled.exact,state,decide_eq_true_eq,ite_none_left_eq_some]
    constructor
    · rintro ⟨⟨key,window,value,found,rfl⟩,future⟩
      exact ⟨key,window,value,⟨future,found⟩,rfl⟩
    · rintro ⟨key,window,value,⟨future,found⟩,rfl⟩
      exact ⟨⟨key,window,value,found,rfl⟩,future⟩
  case currentWatermark => rfl
  case lateDrops => rfl

end firing

end Klein.EventTime.WindowOperator
