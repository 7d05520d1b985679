import Mathlib.Logic.Relation
import Klein.Dict

/-! Connected components of an undirected graph by depth-first search with a stack.
The adjacency lists are a dictionary; a vertex that it does not have raises. -/
namespace Klein.Graph
open List
variable {κ : Type} [DecidableEq κ] (adjacency : Dict κ (List κ))

def missingVertex : String := "KeyError"

def unseen (seen : List κ) : List κ := adjacency.keys.filter (fun vertex => vertex ∉ seen)

theorem unseen_lt (seen : List κ) (node : κ) (neighbors : List κ) (new : node ∉ seen)
    (found : adjacency.get? node = some neighbors) : (unseen adjacency (node::seen)).length < (unseen adjacency seen).length := by
  have known := (adjacency.mem_keys node).mpr ⟨neighbors,found⟩
  have listed : node ∈ unseen adjacency seen := mem_filter.mpr ⟨known,by simpa using new⟩
  have fewer : unseen adjacency (node::seen) = (unseen adjacency seen).filter (fun vertex => vertex ≠ node) := by
    unfold unseen
    rw [List.filter_filter]
    exact List.filter_congr (fun vertex _ => by simp)
  rw [fewer]
  exact length_filter_lt_length_iff_exists.mpr ⟨node,listed,by simp⟩

def explore (seen component : List κ) : List κ → Except String (List κ × List κ)
  | [] => .ok (seen,component)
  | node::stack =>
    if _old : node ∈ seen then explore seen component stack
    else
      match _found : adjacency.get? node with
      | none => .error missingVertex
      | some neighbors => explore (node::seen) (component ++ [node])
          ((neighbors.filter (fun neighbor => neighbor ∉ node::seen)).reverse ++ stack)
termination_by stack => ((unseen adjacency seen).length,stack.length)
decreasing_by
  · exact Prod.Lex.right _ (Nat.lt_succ_self _)
  · exact Prod.Lex.left _ _ (unseen_lt adjacency seen node neighbors _old _found)

def componentsFrom : List κ → List κ → Except String (List (List κ))
  | _,[] => .ok []
  | seen,vertex::rest =>
    if vertex ∈ seen then componentsFrom seen rest
    else do
      let (seen,component) ← explore adjacency seen [] [vertex]
      return component::(← componentsFrom seen rest)

/-- `_connected_components` -/
def connectedComponents : Except String (List (List κ)) := componentsFrom adjacency [] adjacency.keys

def Adjacent (first second : κ) : Prop := ∃ neighbors, adjacency.get? first = some neighbors ∧ second ∈ neighbors

def Connected : κ → κ → Prop := Relation.ReflTransGen (Adjacent adjacency)

section search
variable (symmetric : ∀ first second, Adjacent adjacency first second → Adjacent adjacency second first)

def Closed (vertices : List κ) : Prop := ∀ vertex ∈ vertices, ∀ neighbor, Adjacent adjacency vertex neighbor → neighbor ∈ vertices

theorem Closed.connected (vertices : List κ) (closed : Closed adjacency vertices) (first second : κ) (inside : first ∈ vertices)
    (path : Connected adjacency first second) : second ∈ vertices := by
  induction path with
  | refl => exact inside
  | tail _ step ih => exact closed _ ih _ step

/-- The state of a search from `start` when `before` had been seen. -/
structure Searching (before : List κ) (start : κ) (seen component stack : List κ) : Prop where
  known : ∀ vertex, vertex ∈ seen ↔ vertex ∈ before ∨ vertex ∈ component
  distinct : component.Nodup
  apart : ∀ vertex ∈ component, vertex ∉ before
  connected : ∀ vertex, vertex ∈ component ∨ vertex ∈ stack → Connected adjacency start vertex
  pending : ∀ vertex ∈ component, ∀ neighbor, Adjacent adjacency vertex neighbor → neighbor ∈ seen ∨ neighbor ∈ stack

theorem Searching.pop (before : List κ) (start : κ) (seen component : List κ) (node : κ) (stack : List κ)
    (searching : Searching adjacency before start seen component (node::stack)) (old : node ∈ seen) :
    Searching adjacency before start seen component stack where
  known := searching.known
  distinct := searching.distinct
  apart := searching.apart
  connected := fun vertex listed => searching.connected vertex (listed.imp_right (mem_cons_of_mem _))
  pending := fun vertex listed neighbor step => by
    rcases searching.pending vertex listed neighbor step with known | waiting
    · exact .inl known
    · rcases mem_cons.mp waiting with rfl | later
      · exact .inl old
      · exact .inr later

theorem Searching.visit (before : List κ) (start : κ) (seen component : List κ) (node : κ) (stack neighbors : List κ)
    (searching : Searching adjacency before start seen component (node::stack)) (new : node ∉ seen)
    (found : adjacency.get? node = some neighbors) :
    Searching adjacency before start (node::seen) (component ++ [node])
      ((neighbors.filter (fun neighbor => neighbor ∉ node::seen)).reverse ++ stack) := by
  have here := searching.connected node (.inr mem_cons_self)
  constructor
  · intro vertex
    rw [mem_cons,searching.known,mem_append,mem_singleton]
    tauto
  · refine searching.distinct.append (nodup_singleton node) (fun vertex inside last => new ?_)
    rw [← mem_singleton.mp last]
    exact (searching.known vertex).mpr (.inr inside)
  · intro vertex listed
    rcases mem_append.mp listed with inside | last
    · exact searching.apart vertex inside
    · obtain rfl := mem_singleton.mp last
      exact fun early => new ((searching.known vertex).mpr (.inl early))
  · intro vertex listed
    rcases listed with listed | listed
    · rcases mem_append.mp listed with inside | last
      · exact searching.connected vertex (.inl inside)
      · obtain rfl := mem_singleton.mp last
        exact here
    · rcases mem_append.mp listed with pushed | waiting
      · have own := (mem_filter.mp (mem_reverse.mp pushed)).1
        exact here.tail ⟨neighbors,found,own⟩
      · exact searching.connected vertex (.inr (mem_cons_of_mem _ waiting))
  · intro vertex listed neighbor step
    rcases mem_append.mp listed with inside | last
    · rcases searching.pending vertex inside neighbor step with known | waiting
      · exact .inl (mem_cons_of_mem _ known)
      · rcases mem_cons.mp waiting with rfl | later
        · exact .inl mem_cons_self
        · exact .inr (mem_append_right _ later)
    · obtain rfl := mem_singleton.mp last
      obtain ⟨_,found',own⟩ := step
      cases found.symm.trans found'
      by_cases known : neighbor ∈ vertex::seen
      · exact .inl known
      · exact .inr (mem_append_left _ (mem_reverse.mpr (mem_filter.mpr ⟨own,by simpa using known⟩)))

def Whole : Prop := ∀ first second, Adjacent adjacency first second → second ∈ adjacency.keys

theorem Whole.connected (whole : Whole adjacency) (first second : κ) (inside : first ∈ adjacency.keys)
    (path : Connected adjacency first second) : second ∈ adjacency.keys := by
  induction path with
  | refl => exact inside
  | tail _ step _ => exact whole _ _ step

include symmetric in
theorem explore_spec (whole : Whole adjacency) (before : List κ) (closed : Closed adjacency before) (start : κ)
    (vertex : start ∈ adjacency.keys) (new : start ∉ before)
    (seen component stack : List κ) (searching : Searching adjacency before start seen component stack)
    (inside : start ∈ component ∨ start ∈ stack) :
    ∃ seen' component', explore adjacency seen component stack = .ok (seen',component') ∧ component'.Nodup ∧
      (∀ vertex, vertex ∈ seen' ↔ vertex ∈ before ∨ vertex ∈ component') ∧ Closed adjacency seen' ∧
      (∀ vertex ∈ component', vertex ∉ before) ∧ ∀ vertex, vertex ∈ component' ↔ Connected adjacency start vertex := by
  fun_induction explore adjacency seen component stack with
  | case1 seen component =>
    have own := inside.resolve_right (by simp)
    -- a neighbor that had been seen before would have led to the vertex itself
    have shut : Closed adjacency component := by
      intro node listed neighbor step
      have reached := (searching.pending node listed neighbor step).resolve_right (by simp)
      rcases (searching.known neighbor).mp reached with early | late
      · exact absurd (closed neighbor early node (symmetric node neighbor step)) (searching.apart node listed)
      · exact late
    refine ⟨seen,component,rfl,searching.distinct,searching.known,?_,searching.apart,fun node => ?_⟩
    · intro node listed neighbor step
      rw [searching.known] at listed ⊢
      exact listed.imp (fun early => closed node early neighbor step) (fun late => shut node late neighbor step)
    · exact ⟨fun listed => searching.connected node (.inl listed),shut.connected adjacency component start node own⟩
  | case2 seen component node stack old ih =>
    refine ih (searching.pop adjacency before start seen component node stack old) ?_
    rcases inside with listed | waiting
    · exact .inl listed
    · rcases mem_cons.mp waiting with rfl | later
      · exact .inl (((searching.known start).mp old).resolve_left new)
      · exact .inr later
  | case3 seen component node stack old missing =>
    have reached := whole.connected adjacency start node vertex (searching.connected node (.inr mem_cons_self))
    obtain ⟨neighbors,found⟩ := (adjacency.mem_keys node).mp reached
    rw [missing] at found
    contradiction
  | case4 seen component node stack old neighbors found ih =>
    refine ih (searching.visit adjacency before start seen component node stack neighbors old found) ?_
    rcases inside with listed | waiting
    · exact .inl (mem_append_left _ listed)
    · rcases mem_cons.mp waiting with rfl | later
      · exact .inl (by simp)
      · exact .inr (mem_append_right _ later)

structure Found (component : List κ) : Prop where
  distinct : component.Nodup
  component : ∃ start ∈ component, start ∈ adjacency.keys ∧ ∀ vertex, vertex ∈ component ↔ Connected adjacency start vertex

include symmetric in
theorem componentsFrom_spec (whole : Whole adjacency) (seen rest : List κ) (closed : Closed adjacency seen)
    (known : ∀ vertex ∈ rest, vertex ∈ adjacency.keys) :
    ∃ components, componentsFrom adjacency seen rest = .ok components ∧
      (∀ component ∈ components, Found adjacency component ∧ ∀ vertex ∈ component, vertex ∉ seen) ∧
      components.Pairwise (fun first second => ∀ vertex ∈ first, vertex ∉ second) ∧
      ∀ vertex ∈ rest, vertex ∈ seen ∨ ∃ component ∈ components, vertex ∈ component := by
  induction rest generalizing seen with
  | nil => exact ⟨[],rfl,by simp,List.Pairwise.nil,by simp⟩
  | cons start rest ih =>
    obtain ⟨here,later⟩ := forall_mem_cons.mp known
    unfold componentsFrom
    split
    next old =>
      obtain ⟨components,done,found,apart,cover⟩ := ih seen closed later
      exact ⟨components,done,found,apart,forall_mem_cons.mpr ⟨.inl old,cover⟩⟩
    next new =>
      have begins : Searching adjacency seen start seen [] [start] := by
        constructor
        · simp
        · exact nodup_nil
        · simp
        · rintro vertex (absent | same)
          · simp at absent
          · obtain rfl := mem_singleton.mp same
            exact Relation.ReflTransGen.refl
        · simp
      obtain ⟨seen',component,explored,distinct,together,shut,fresh,whole'⟩ := explore_spec adjacency symmetric whole seen closed
        start here new seen [] [start] begins (.inr mem_cons_self)
      have own : start ∈ component := (whole' start).mpr Relation.ReflTransGen.refl
      obtain ⟨components,done,found,apart,cover⟩ := ih seen' shut later
      rw [explored]
      refine ⟨component::components,?_,?_,?_,?_⟩
      · change (componentsFrom adjacency seen' rest >>= fun components => .ok (component::components)) = _
        rw [done]
        rfl
      · refine forall_mem_cons.mpr ⟨⟨⟨distinct,start,own,here,whole'⟩,fresh⟩,fun other listed => ?_⟩
        refine ⟨(found other listed).1,fun vertex inside early => ?_⟩
        exact (found other listed).2 vertex inside ((together vertex).mpr (.inl early))
      · refine pairwise_cons.mpr ⟨fun other listed vertex first second => ?_,apart⟩
        exact (found other listed).2 vertex second ((together vertex).mpr (.inr first))
      · refine forall_mem_cons.mpr ⟨.inr ⟨component,mem_cons_self,own⟩,fun vertex listed => ?_⟩
        rcases cover vertex listed with reached | ⟨other,found',inside⟩
        · rcases (together vertex).mp reached with early | mine
          · exact .inl early
          · exact .inr ⟨component,mem_cons_self,mine⟩
        · exact .inr ⟨other,mem_cons_of_mem _ found',inside⟩

include symmetric in
theorem connectedComponents_spec (whole : Whole adjacency) : ∃ components, connectedComponents adjacency = .ok components ∧
    (∀ component ∈ components, Found adjacency component) ∧
    components.Pairwise (fun first second => ∀ vertex ∈ first, vertex ∉ second) ∧
    ∀ vertex ∈ adjacency.keys, ∃ component ∈ components, vertex ∈ component := by
  obtain ⟨components,done,found,apart,cover⟩ := componentsFrom_spec adjacency symmetric whole [] adjacency.keys
    (fun _ absent => absurd absent (by simp)) (fun _ listed => listed)
  exact ⟨components,done,fun component listed => (found component listed).1,apart,
    fun vertex listed => (cover vertex listed).resolve_left (by simp)⟩

end search
end Klein.Graph
