import Mathlib

/-! `runtime/worker/weighted_queue.py`: a queue whose capacity is measured by the
weight of its items. The bytes that its consumer keeps are an argument of admission. -/
namespace Klein
open List

structure WeightedQueue (α : Type) where
  maxWeight : Nat
  maxBytes : Option Nat
  items : List (α × Nat × Nat)
  weight : Nat
  bytes : Nat
  weighed : weight = (items.map (fun entry => entry.2.1)).sum
  sized : bytes = (items.map (fun entry => entry.2.2)).sum

namespace WeightedQueue
variable {α : Type}

def empty (maxWeight : Nat) (maxBytes : Option Nat) : WeightedQueue α := ⟨maxWeight,maxBytes,[],0,0,rfl,rfl⟩

def create (maxWeight : Nat) (maxBytes : Option Nat) : Except String (WeightedQueue α) :=
  if maxWeight = 0 then .error "weighted queue capacity must be greater than zero"
  else if maxBytes = some 0 then .error "weighted queue byte capacity must be greater than zero"
  else .ok ⟨maxWeight,maxBytes,[],0,0,rfl,rfl⟩

variable (queue : WeightedQueue α)

def canAdmit (externalBytes weight size : Nat) : Bool :=
  if queue.items = [] ∧ externalBytes = 0 then true
  else if queue.maxWeight < queue.weight + weight then false
  else queue.maxBytes.all (fun limit => queue.bytes + externalBytes + size ≤ limit)

def admitted (item : α) (weight size : Nat) : WeightedQueue α where
  maxWeight := queue.maxWeight
  maxBytes := queue.maxBytes
  items := queue.items ++ [(item,weight,size)]
  weight := queue.weight + weight
  bytes := queue.bytes + size
  weighed := by simp [queue.weighed]
  sized := by simp [queue.sized]

theorem sum_eraseIdx (measure : α × Nat × Nat → Nat) (items : List (α × Nat × Nat)) (index : Nat) (entry : α × Nat × Nat)
    (found : items[index]? = some entry) :
    (items.map measure).sum = ((items.eraseIdx index).map measure).sum + measure entry := by
  induction items generalizing index with
  | nil => simp at found
  | cons first rest ih =>
    cases index with
    | zero =>
      obtain rfl : first = entry := by simpa using found
      simp [Nat.add_comm]
    | succ index =>
      have later := ih index (by simpa using found)
      simp only [eraseIdx_cons_succ,map_cons,sum_cons]
      omega

def take (index : Nat) : Option ((α × Nat) × WeightedQueue α) :=
  match found : queue.items[index]? with
  | none => none
  | some (item,weight,size) => some ((item,size),{
    maxWeight := queue.maxWeight
    maxBytes := queue.maxBytes
    items := queue.items.eraseIdx index
    weight := queue.weight - weight
    bytes := queue.bytes - size
    weighed := by
      have total := sum_eraseIdx (fun entry => entry.2.1) queue.items index _ found
      rw [queue.weighed,total]
      exact Nat.add_sub_cancel ..
    sized := by
      have total := sum_eraseIdx (fun entry => entry.2.2) queue.items index _ found
      rw [queue.sized,total]
      exact Nat.add_sub_cancel ..})

theorem take_found (index : Nat) (item : α) (weight size : Nat) (found : queue.items[index]? = some (item,weight,size)) :
    ∃ next, queue.take index = some ((item,size),next) ∧ next.items = queue.items.eraseIdx index ∧
      next.maxWeight = queue.maxWeight ∧ next.maxBytes = queue.maxBytes := by
  unfold take
  split
  next missing =>
    rw [found] at missing
    cases missing
  next item' weight' size' here =>
    rw [found] at here
    cases here
    exact ⟨_,rfl,rfl,rfl,rfl⟩

theorem canAdmit_more (fewer more weight size : Nat) (less : fewer ≤ more) (waits : queue.canAdmit fewer weight size = false) :
    queue.canAdmit more weight size = false := by
  unfold canAdmit at waits ⊢
  split at waits
  · cases waits
  next some =>
    rw [if_neg (fun alone => some ⟨alone.1,by omega⟩)]
    split at waits
    next heavy => rw [if_pos heavy]
    next light =>
      rw [if_neg light]
      cases limited : queue.maxBytes with
      | none =>
        rw [limited] at waits
        cases waits
      | some limit =>
        rw [limited] at waits
        simp only [Option.all_some,decide_eq_false_iff_not] at waits ⊢
        omega

theorem canAdmit_bounds (externalBytes weight size : Nat) (admits : queue.canAdmit externalBytes weight size = true) :
    (queue.items = [] ∧ externalBytes = 0) ∨ (queue.weight + weight ≤ queue.maxWeight ∧
      ∀ limit, queue.maxBytes = some limit → queue.bytes + externalBytes + size ≤ limit) := by
  unfold canAdmit at admits
  split at admits
  next alone => exact .inl alone
  · right
    split at admits
    · cases admits
    next light =>
      refine ⟨by omega,fun limit limited => ?_⟩
      rw [limited] at admits
      simpa using admits

theorem canAdmit_empty (weight size : Nat) (empty : queue.items = []) : queue.canAdmit 0 weight size = true :=
  if_pos ⟨empty,rfl⟩

end WeightedQueue
end Klein
