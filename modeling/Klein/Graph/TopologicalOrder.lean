import Mathlib.Data.List.Perm.Subperm
import Mathlib.Data.List.Induction
import Klein.Dict

/-! Kahn's algorithm over a list of vertices and a list of edges, with a queue of the
vertices whose predecessors have all been taken; where a vertex enters the queue is
left open. What it returns is a topological order when it is as long as the list of
vertices, and it is that long whenever there is a topological order at all. -/
namespace Klein.Graph
open List Option
variable {κ : Type} [DecidableEq κ] (push : List κ → κ → List κ) (vertices : List κ) (edges : List (κ × κ))

/-- The queue of a `deque`. -/
def enqueue (ready : List κ) (vertex : κ) : List κ := ready ++ [vertex]

def Pushes : Prop := ∀ ready vertex, (push ready vertex).Perm (ready ++ [vertex])

omit [DecidableEq κ] in
theorem pushes_enqueue : Pushes (enqueue : List κ → κ → List κ) := fun _ _ => List.Perm.refl _

def targetsOf (vertex : κ) : List κ := (edges.filter (fun edge => edge.1 = vertex)).map Prod.snd

def openEdges (taken : List κ) (vertex : κ) : Nat := edges.countP (fun edge => edge.2 = vertex ∧ edge.1 ∉ taken)

def relax (progress : Dict κ Int × List κ) (target : κ) : Dict κ Int × List κ :=
  let left := (progress.1.get? target).getD 0 - 1
  (progress.1.set target left,if left = 0 then push progress.2 target else progress.2)

/-- `fuel` bounds the number of vertices taken from the queue. -/
def topologicalLoop : Nat → Dict κ Int → List κ → List κ → Option (List κ)
  | _,_,[],ordered => some ordered
  | 0,_,_::_,_ => none
  | fuel + 1,remaining,vertex::ready,ordered =>
    let (remaining,ready) := (targetsOf edges vertex).foldl (relax push) (remaining,ready)
    topologicalLoop fuel remaining ready (ordered ++ [vertex])

def inDegrees : Dict κ Int := Dict.ofList (vertices.map (fun vertex => (vertex,((openEdges edges [] vertex : Nat) : Int))))

def topologicalOrder : Option (List κ) :=
  topologicalLoop push edges vertices.length (inDegrees vertices edges)
    ((vertices.filter (fun vertex => openEdges edges [] vertex = 0)).foldl push []) []

def Ordered (ordered : List κ) : Prop :=
  ∀ before vertex after, ordered = before ++ vertex::after → ∀ edge ∈ edges, edge.2 = vertex → edge.1 ∈ before

structure Progress (remaining : Dict κ Int) (ready ordered : List κ) : Prop where
  distinct : (ordered ++ ready).Nodup
  inside : ∀ vertex ∈ ordered ++ ready, vertex ∈ vertices
  left : ∀ vertex ∈ vertices, remaining.get? vertex = some ((openEdges edges ordered vertex : Nat) : Int)
  reached : ∀ vertex ∈ vertices, vertex ∈ ordered ++ ready ↔ openEdges edges ordered vertex = 0
  closed : Ordered edges ordered

section relax
variable (pushes : Pushes push)

include pushes in
omit [DecidableEq κ] in
theorem Pushes.foldl (targets ready : List κ) : (targets.foldl push ready).Perm (ready ++ targets) := by
  induction targets generalizing ready with
  | nil => simp
  | cons target rest ih =>
    refine (ih (push ready target)).trans (((pushes ready target).append_right rest).trans ?_)
    rw [append_assoc]
    rfl

section
variable (targets : List κ) (distinct : targets.Nodup) (remaining : Dict κ Int) (ready : List κ)
include distinct remaining ready

theorem relax_foldl_left (vertex : κ) :
    (targets.foldl (relax push) (remaining,ready)).1.get? vertex =
      if vertex ∈ targets then some ((remaining.get? vertex).getD 0 - 1) else remaining.get? vertex := by
  induction targets generalizing remaining ready with
  | nil => simp
  | cons target rest ih =>
    obtain ⟨absent,distinct⟩ := nodup_cons.mp distinct
    rw [foldl_cons]
    refine (ih distinct (relax push (remaining,ready) target).1 (relax push (remaining,ready) target).2).trans ?_
    unfold relax
    dsimp only
    rw [Dict.get?_set]
    by_cases same : vertex = target
    · subst same
      rw [if_neg absent,if_pos rfl,if_pos mem_cons_self]
    · simp [same]

theorem relax_foldl_ready :
    (targets.foldl (relax push) (remaining,ready)).2 =
      (targets.filter (fun target => (remaining.get? target).getD 0 = 1)).foldl push ready := by
  induction targets generalizing remaining ready with
  | nil => rfl
  | cons target rest ih =>
    obtain ⟨absent,distinct⟩ := nodup_cons.mp distinct
    rw [foldl_cons]
    refine (ih distinct (relax push (remaining,ready) target).1 (relax push (remaining,ready) target).2).trans ?_
    have later : rest.filter (fun vertex => ((relax push (remaining,ready) target).1.get? vertex).getD 0 = 1) =
        rest.filter (fun vertex => (remaining.get? vertex).getD 0 = 1) := by
      refine List.filter_congr (fun vertex listed => ?_)
      unfold relax
      rw [Dict.get?_set,if_neg (ne_of_mem_of_not_mem listed absent)]
    rw [later]
    unfold relax
    dsimp only
    by_cases last : (remaining.get? target).getD 0 = 1
    · rw [if_pos (by omega),filter_cons_of_pos (by simpa using last),foldl_cons]
    · rw [if_neg (by omega),filter_cons_of_neg (by simpa using last)]

end

end relax

theorem mem_targetsOf (vertex target : κ) : target ∈ targetsOf edges vertex ↔ (vertex,target) ∈ edges := by
  unfold targetsOf
  simp

theorem openEdges_take_count (ordered : List κ) (taken vertex : κ) (new : taken ∉ ordered) :
    openEdges edges (ordered ++ [taken]) vertex + edges.count (taken,vertex) = openEdges edges ordered vertex := by
  unfold openEdges
  induction edges with
  | nil => rfl
  | cons edge rest ih =>
    rw [countP_cons,countP_cons,count_cons]
    obtain ⟨tail,head⟩ := edge
    by_cases target : head = vertex
    · by_cases source : tail = taken
      · subst source
        simp [target,new] at ih ⊢
        omega
      · simp [target,source] at ih ⊢
        omega
    · simp [target] at ih ⊢
      omega

section step
variable (distinctEdges : edges.Nodup)

include distinctEdges in

theorem targetsOf_nodup (vertex : κ) : (targetsOf edges vertex).Nodup := by
  refine (nodup_map_iff_inj_on (distinctEdges.filter _)).mpr (fun first one second other same => ?_)
  have head := of_decide_eq_true (mem_filter.mp one).2
  have head' := of_decide_eq_true (mem_filter.mp other).2
  exact Prod.ext (head.trans head'.symm) same

include distinctEdges in
theorem openEdges_take (ordered : List κ) (taken vertex : κ) (new : taken ∉ ordered) :
    openEdges edges (ordered ++ [taken]) vertex + (if vertex ∈ targetsOf edges taken then 1 else 0) =
      openEdges edges ordered vertex := by
  rw [← openEdges_take_count edges ordered taken vertex new,distinctEdges.count]
  simp only [mem_targetsOf]

include distinctEdges in
theorem Progress.take (pushes : Pushes push) (inside : ∀ edge ∈ edges, edge.2 ∈ vertices) (remaining : Dict κ Int) (vertex : κ)
    (ready ordered : List κ) (progress : Progress vertices edges remaining (vertex::ready) ordered) :
    Progress vertices edges ((targetsOf edges vertex).foldl (relax push) (remaining,ready)).1
      ((targetsOf edges vertex).foldl (relax push) (remaining,ready)).2 (ordered ++ [vertex]) := by
  have once := targetsOf_nodup edges distinctEdges vertex
  have counts := relax_foldl_left push (targetsOf edges vertex) once remaining ready
  have pushed := relax_foldl_ready push (targetsOf edges vertex) once remaining ready
  have queued : (ordered ++ [vertex] ++ ((targetsOf edges vertex).foldl (relax push) (remaining,ready)).2).Perm
      (ordered ++ vertex::ready ++ (targetsOf edges vertex).filter (fun target => (remaining.get? target).getD 0 = 1)) := by
    rw [pushed,append_assoc,append_assoc]
    exact ((pushes.foldl push _ _).append_left [vertex]).append_left ordered
  obtain ⟨-,apart,separate⟩ := nodup_append.mp progress.distinct
  have new : vertex ∉ ordered := fun listed => separate vertex listed vertex mem_cons_self rfl
  have target (other : κ) (listed : other ∈ targetsOf edges vertex) : other ∈ vertices :=
    inside (vertex,other) ((mem_targetsOf edges vertex other).mp listed)
  have none : openEdges edges ordered vertex = 0 :=
    (progress.reached vertex (progress.inside vertex (by simp))).mp (by simp)
  -- a target whose last open edge is this one is new to the queue
  have last (other : κ) (listed : other ∈ targetsOf edges vertex) :
      ((remaining.get? other).getD 0 = 1) ↔ openEdges edges (ordered ++ [vertex]) other = 0 := by
    have step := openEdges_take edges distinctEdges ordered vertex other new
    rw [if_pos listed] at step
    rw [progress.left other (target other listed)]
    dsimp only [getD_some]
    omega
  have fresh (other : κ) (listed : other ∈ targetsOf edges vertex) : other ∉ ordered ++ vertex::ready := by
    intro before
    have step := openEdges_take edges distinctEdges ordered vertex other new
    rw [if_pos listed,(progress.reached other (target other listed)).mp before] at step
    omega
  constructor
  · refine queued.nodup_iff.mpr (progress.distinct.append (once.filter _) (fun other before after => ?_))
    exact fresh other (mem_filter.mp after).1 before
  · intro other listed
    rcases mem_append.mp (queued.mem_iff.mp listed) with before | after
    · exact progress.inside other before
    · exact target other (mem_filter.mp after).1
  · intro other known
    have step := openEdges_take edges distinctEdges ordered vertex other new
    rw [counts,progress.left other known]
    split
    next listed =>
      rw [if_pos listed] at step
      dsimp only [getD_some]
      congr 1
      omega
    next absent =>
      rw [if_neg absent] at step
      congr 2
      omega
  · intro other known
    have step := openEdges_take edges distinctEdges ordered vertex other new
    rw [queued.mem_iff,mem_append,progress.reached other known]
    by_cases listed : other ∈ targetsOf edges vertex
    · rw [if_pos listed] at step
      simp only [mem_filter,listed,true_and,decide_eq_true_eq]
      rw [last other listed]
      omega
    · rw [if_neg listed] at step
      simp only [mem_filter,listed,false_and,or_false]
      omega
  · intro before other after split edge own head
    rcases eq_nil_or_concat after with rfl | ⟨rest,final,rfl⟩
    · obtain ⟨rfl,same⟩ := append_inj' split rfl
      obtain rfl := (List.cons.inj same).1
      have closed := countP_eq_zero.mp none edge own
      simpa [head] using closed
    · rw [concat_eq_append,← cons_append,← append_assoc] at split
      exact progress.closed before other rest (append_inj' split rfl).1 edge own head

end step

section result
variable (pushes : Pushes push) (distinct : vertices.Nodup) (distinctEdges : edges.Nodup)
  (inside : ∀ edge ∈ edges, edge.2 ∈ vertices)
include pushes distinctEdges inside

theorem topologicalLoop_spec (fuel : Nat) (remaining : Dict κ Int) (ready ordered : List κ)
    (progress : Progress vertices edges remaining ready ordered) (enough : vertices.length ≤ fuel + ordered.length) :
    ∃ result remaining', topologicalLoop push edges fuel remaining ready ordered = some result ∧
      Progress vertices edges remaining' [] result := by
  induction fuel generalizing remaining ready ordered with
  | zero =>
    cases ready with
    | nil => exact ⟨ordered,remaining,rfl,progress⟩
    | cons vertex ready =>
      have short := (progress.distinct.subperm (fun other listed => progress.inside other listed)).length_le
      rw [length_append,length_cons] at short
      omega
  | succ fuel ih =>
    cases ready with
    | nil => exact ⟨ordered,remaining,rfl,progress⟩
    | cons vertex ready =>
      have next := progress.take push vertices edges distinctEdges pushes inside remaining vertex ready ordered
      refine ih _ _ _ next ?_
      rw [length_append,length_singleton]
      omega

include distinct

theorem topologicalOrder_spec : ∃ ordered, topologicalOrder push vertices edges = some ordered ∧ ordered.Nodup ∧
    (∀ vertex ∈ ordered, vertex ∈ vertices) ∧ Ordered edges ordered ∧
    ∀ vertex ∈ vertices, vertex ∈ ordered ↔ ∀ edge ∈ edges, edge.2 = vertex → edge.1 ∈ ordered := by
  have start : Progress vertices edges (inDegrees vertices edges)
      ((vertices.filter (fun vertex => openEdges edges [] vertex = 0)).foldl push []) [] := by
    have queued := pushes.foldl push (vertices.filter (fun vertex => openEdges edges [] vertex = 0)) []
    rw [nil_append] at queued
    constructor
    · exact queued.nodup_iff.mpr (distinct.filter _)
    · exact fun vertex listed => (mem_filter.mp (queued.mem_iff.mp listed)).1
    · intro vertex known
      exact (Dict.get?_ofKeys vertices _ vertex).trans (if_pos known)
    · intro vertex known
      rw [nil_append,queued.mem_iff]
      simp [known]
    · intro before vertex after split
      exact absurd split (by simp)
  obtain ⟨ordered,remaining,done,progress⟩ := topologicalLoop_spec push vertices edges pushes distinctEdges inside vertices.length _ _ _
    start (by simp)
  have same := progress.reached
  rw [append_nil] at same
  refine ⟨ordered,done,?_,?_,progress.closed,fun vertex known => ?_⟩
  · exact append_nil ordered ▸ progress.distinct
  · exact append_nil ordered ▸ progress.inside
  · rw [same vertex known,openEdges,countP_eq_zero]
    simp

theorem mem_of_complete (ordered : List κ) (found : topologicalOrder push vertices edges = some ordered)
    (complete : ordered.length = vertices.length) (vertex : κ) (known : vertex ∈ vertices) : vertex ∈ ordered := by
  obtain ⟨_,done,apart,within,-⟩ := topologicalOrder_spec push vertices edges pushes distinct distinctEdges inside
  cases found.symm.trans done
  exact ((apart.subperm within).perm_of_length_le (Nat.le_of_eq complete.symm)).mem_iff.mpr known

theorem complete_of_ordered (tails : ∀ edge ∈ edges, edge.1 ∈ vertices) (other : List κ) (whole : ∀ vertex ∈ vertices, vertex ∈ other)
    (sorted : Ordered edges other) (ordered : List κ) (found : topologicalOrder push vertices edges = some ordered) :
    ordered.length = vertices.length := by
  obtain ⟨_,done,apart,within,-,reached⟩ := topologicalOrder_spec push vertices edges pushes distinct distinctEdges inside
  cases found.symm.trans done
  -- along the other order, every vertex is taken because its predecessors are
  have taken (before after : List κ) (split : other = before ++ after) : ∀ vertex ∈ before, vertex ∈ vertices → vertex ∈ ordered := by
    induction before using List.reverseRecOn generalizing after with
    | nil => simp
    | append_singleton before last ih =>
      intro vertex listed known
      have earlier := ih (last::after) (by rw [split,append_assoc]; rfl)
      rcases mem_append.mp listed with first | final
      · exact earlier vertex first known
      · obtain rfl := mem_singleton.mp final
        refine (reached vertex known).mpr (fun edge own head => ?_)
        refine earlier edge.1 (sorted before vertex after ?_ edge own head) (tails edge own)
        rw [split,append_assoc]
        rfl
  have all (vertex : κ) (known : vertex ∈ vertices) : vertex ∈ ordered :=
    taken other [] (append_nil other).symm vertex (whole vertex known) known
  exact Nat.le_antisymm (apart.subperm within).length_le (distinct.subperm all).length_le

end result

end Klein.Graph
