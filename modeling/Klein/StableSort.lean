import Klein.Fallible
import Mathlib.Data.List.Sort
import Mathlib.Data.List.TakeWhile

/-! Sorted lists under a three-way comparison that may raise: the comparison by one key
after another, the insertion by bisection behind what is equal, and the stable sort of
a list that gains a last item or loses one of its items. Orders are asked for on the
items at hand only. -/
namespace Klein.StableSort
open Fallible List
variable {α ε : Type}

section order
variable (le : α → α → Prop)

structure Preorders (items : List α) : Prop where
  total : ∀ left ∈ items, ∀ right ∈ items, le left right ∨ le right left
  trans : ∀ left ∈ items, ∀ middle ∈ items, ∀ right ∈ items, le left middle → le middle right → le left right

variable {le}

theorem Preorders.of_subset {items fewer : List α} (order : Preorders le items) (within : fewer ⊆ items) : Preorders le fewer :=
  ⟨fun left inside right inside' => order.total left (within inside) right (within inside'),
    fun left one middle two right three => order.trans left (within one) middle (within two) right (within three)⟩

variable {items : List α} {item : α}

theorem Preorders.flip (order : Preorders le (item::items)) (other : α) (inside : other ∈ items) (above : ¬ le item other) :
    le other item :=
  (order.total item mem_cons_self other (mem_cons_of_mem _ inside)).resolve_left above

variable [DecidableRel le]

theorem pairwise_insertionSort (order : Preorders le items) : (items.insertionSort le).Pairwise le := by
  induction items with
  | nil => exact List.Pairwise.nil
  | cons item rest ih =>
    have sorted := ih (order.of_subset (subset_cons_self _ _))
    have general (others : List α) (within : others ⊆ rest) (sorted : others.Pairwise le) :
        (others.orderedInsert le item).Pairwise le := by
      induction others with
      | nil => exact pairwise_singleton _ _
      | cons other others insertion =>
        obtain ⟨before,later⟩ := pairwise_cons.mp sorted
        have inside : other ∈ rest := within mem_cons_self
        by_cases first : le item other
        · rw [orderedInsert_cons_of_le le others first]
          refine pairwise_cons.mpr ⟨fun next member => ?_,sorted⟩
          obtain rfl | member := mem_cons.mp member
          · exact first
          · exact order.trans item mem_cons_self other (mem_cons_of_mem _ inside) next
              (mem_cons_of_mem _ (within (mem_cons_of_mem _ member))) first (before next member)
        · rw [orderedInsert_of_not_le le others first]
          refine pairwise_cons.mpr ⟨fun next member => ?_,
            insertion (fun next member => within (mem_cons_of_mem _ member)) later⟩
          obtain rfl | member := (mem_orderedInsert le).mp member
          · exact order.flip other inside first
          · exact before next member
    exact general _ (fun other inside => (mem_insertionSort le).mp inside) sorted

variable (le) in
def insertAfter (item : α) : List α → List α
  | [] => [item]
  | first::rest => if le first item then first::insertAfter item rest else item::first::rest

theorem length_insertAfter (item : α) (items : List α) : (insertAfter le item items).length = items.length + 1 := by
  induction items with
  | nil => rfl
  | cons first rest ih =>
    unfold insertAfter
    split
    · exact congrArg Nat.succ ih
    · rfl

theorem insertAfter_split (before after : List α) (upTo : ∀ other ∈ before, le other item)
    (beyond : ∀ other ∈ after, ¬ le other item) : insertAfter le item (before ++ after) = before ++ item::after := by
  induction before with
  | nil =>
    cases after with
    | nil => rfl
    | cons first rest => exact if_neg (beyond first mem_cons_self)
  | cons first before ih =>
    rw [cons_append,insertAfter,if_pos (upTo first mem_cons_self),
      ih (fun other inside => upTo other (mem_cons_of_mem _ inside))]
    rfl

theorem take_insertAfter (item : α) (items : List α) (limit : Nat) :
    (insertAfter le item (items.take limit)).take limit = (insertAfter le item items).take limit := by
  induction items generalizing limit with
  | nil => rw [take_nil]
  | cons first rest ih =>
    cases limit with
    | zero => rfl
    | succ limit =>
      rw [take_succ_cons]
      unfold insertAfter
      by_cases behind : le first item
      · rw [if_pos behind,if_pos behind,take_succ_cons,take_succ_cons,ih]
      · rw [if_neg behind,if_neg behind,take_succ_cons,take_succ_cons]
        cases limit with
        | zero => rfl
        | succ limit => rw [take_succ_cons,take_succ_cons,take_take,Nat.min_eq_left (Nat.le_succ limit)]

theorem orderedInsert_insertAfter (other : α) (items : List α) (order : Preorders le (other::item::items)) :
    (insertAfter le item items).orderedInsert le other = insertAfter le item (items.orderedInsert le other) := by
  have here : other ∈ other::item::items := mem_cons_self
  have last : item ∈ other::item::items := mem_cons_of_mem _ mem_cons_self
  induction items with
  | nil =>
    unfold insertAfter
    by_cases first : le other item
    · rw [orderedInsert_cons_of_le le [] first,orderedInsert_nil]
      exact (if_pos first).symm
    · rw [orderedInsert_of_not_le le [] first,orderedInsert_nil]
      exact (if_neg first).symm
  | cons head rest ih =>
    have inside : head ∈ other::item::head::rest := by simp
    have smaller : other::item::rest ⊆ other::item::head::rest := by
      intro member
      simp only [mem_cons]
      tauto
    by_cases first : le other head
    · by_cases behind : le head item
      · have through := order.trans other here head inside item last first behind
        rw [orderedInsert_cons_of_le le rest first,insertAfter,if_pos behind,orderedInsert_cons_of_le le _ first,
          insertAfter,if_pos through,insertAfter,if_pos behind]
      · rw [orderedInsert_cons_of_le le rest first,insertAfter,if_neg behind]
        by_cases before : le other item
        · rw [orderedInsert_cons_of_le le _ before,insertAfter,if_pos before,insertAfter,if_neg behind]
        · rw [orderedInsert_of_not_le le _ before,orderedInsert_cons_of_le le _ first,insertAfter,if_neg before]
    · rw [orderedInsert_of_not_le le rest first]
      by_cases behind : le head item
      · rw [insertAfter,if_pos behind,orderedInsert_of_not_le le _ first,
          ih (order.of_subset smaller) mem_cons_self (by simp),insertAfter,if_pos behind]
      · have beyond : ¬ le other item := by
          intro below
          have above := (order.total other here head inside).resolve_left first
          exact behind (order.trans head inside other here item last above below)
        rw [insertAfter,if_neg behind,orderedInsert_of_not_le le _ beyond,orderedInsert_of_not_le le _ first,
          insertAfter,if_neg behind]

theorem insertionSort_append (items : List α) (item : α) (order : Preorders le (items ++ [item])) :
    (items ++ [item]).insertionSort le = insertAfter le item (items.insertionSort le) := by
  induction items with
  | nil => rfl
  | cons first rest ih =>
    rw [cons_append,insertionSort_cons,insertionSort_cons,
      ih (order.of_subset (by rw [cons_append]; exact subset_cons_self _ _))]
    apply orderedInsert_insertAfter
    apply order.of_subset
    intro member
    simp only [mem_cons,mem_insertionSort,mem_append,cons_append]
    tauto

theorem orderedInsert_left (first : α) (lower rest : List α) (other : α) (inside : other ∈ lower) (below : le first other) :
    (lower ++ rest).orderedInsert le first = lower.orderedInsert le first ++ rest := by
  induction lower with
  | nil => exact absurd inside not_mem_nil
  | cons head lower ih =>
    rw [cons_append]
    by_cases here : le first head
    · rw [orderedInsert_cons_of_le le _ here,orderedInsert_cons_of_le le _ here]
      rfl
    · rw [orderedInsert_of_not_le le _ here,orderedInsert_of_not_le le _ here]
      obtain rfl | inside := mem_cons.mp inside
      · contradiction
      · rw [ih inside]
        rfl

theorem orderedInsert_right (first : α) (lower rest : List α) (above : ∀ other ∈ lower, ¬ le first other) :
    (lower ++ rest).orderedInsert le first = lower ++ rest.orderedInsert le first := by
  induction lower with
  | nil => rfl
  | cons head lower ih =>
    obtain ⟨here,later⟩ := forall_mem_cons.mp above
    rw [cons_append,orderedInsert_of_not_le le _ here,ih later]
    rfl

theorem insertionSort_split (before after : List α) (item : α) (order : Preorders le (before ++ item::after)) :
    ∃ lower upper, (before ++ item::after).insertionSort le = lower ++ item::upper ∧
      (before ++ after).insertionSort le = lower ++ upper ∧ ∀ other ∈ lower, other ∈ before ∨ ¬ le item other := by
  induction before with
  | nil =>
    refine ⟨_,_,orderedInsert_eq_take_drop le item (after.insertionSort le),takeWhile_append_dropWhile.symm,
      fun other inside => .inr ?_⟩
    have passed := mem_takeWhile_imp inside
    simpa using passed
  | cons first before ih =>
    have smaller : Preorders le (before ++ item::after) := order.of_subset (subset_cons_self first _)
    obtain ⟨lower,upper,whole,without,earlier⟩ := ih smaller
    have sorted := pairwise_insertionSort smaller
    rw [cons_append,insertionSort_cons,cons_append,insertionSort_cons,without,whole]
    rw [whole] at sorted
    by_cases within : ∃ other ∈ lower, le first other
    · obtain ⟨other,inside,below⟩ := within
      refine ⟨lower.orderedInsert le first,upper,orderedInsert_left first lower _ other inside below,
        orderedInsert_left first lower _ other inside below,fun other inside => ?_⟩
      obtain rfl | member := (mem_orderedInsert le).mp inside
      · exact .inl mem_cons_self
      · exact (earlier other member).imp_left (mem_cons_of_mem _)
    · have above : ∀ other ∈ lower, ¬ le first other := fun other inside below => within ⟨other,inside,below⟩
      rw [orderedInsert_right first lower _ above,orderedInsert_right first lower _ above]
      by_cases here : le first item
      · refine ⟨lower ++ [first],upper,?_,?_,fun other inside => ?_⟩
        · rw [orderedInsert_cons_of_le le _ here,append_assoc]
          rfl
        · have least : ∀ other ∈ upper, le first other := by
            intro other inside
            have member : other ∈ before ++ item::after := by
              rw [← mem_insertionSort le,whole]
              simp [inside]
            have next := (pairwise_cons.mp (pairwise_append.mp sorted).2.1).1 other inside
            exact order.trans first mem_cons_self item (by simp) other (mem_cons_of_mem _ member) here next
          rw [append_assoc]
          cases upper with
          | nil => rfl
          | cons head upper =>
            rw [orderedInsert_cons_of_le le _ (least head mem_cons_self)]
            rfl
        · obtain member | member := mem_append.mp inside
          · exact (earlier other member).imp_left (mem_cons_of_mem _)
          · obtain rfl := mem_singleton.mp member
            exact .inl mem_cons_self
      · refine ⟨lower,upper.orderedInsert le first,?_,rfl,fun other inside =>
          (earlier other inside).imp_left (mem_cons_of_mem _)⟩
        rw [orderedInsert_of_not_le le _ here]

/-- The first item that `shown` tells leaves the list and the first that `found` tells
leaves the stable sort: it is one item when `found` tells it too and tells nothing that is less. -/
theorem eraseP_insertionSort (items : List α) (item : α) (shown found : α → Bool) (order : Preorders le items)
    (first : items.find? shown = some item) (tells : found item = true)
    (narrow : ∀ other ∈ items, found other = true → shown other = true)
    (least : ∀ other ∈ items, found other = true → le item other) :
    (items.insertionSort le).eraseP found = (items.eraseP shown).insertionSort le ∧
      ∃ other ∈ items.insertionSort le, found other = true := by
  obtain ⟨fits,before,after,rfl,earlier⟩ := find?_eq_some_iff_append.mp first
  obtain ⟨lower,upper,whole,without,split⟩ := insertionSort_split before after item order
  have passed : ∀ other ∈ lower, ¬ found other = true := by
    intro other inside told
    have member : other ∈ before ++ item::after := by
      rw [← mem_insertionSort le,whole]
      simp [inside]
    obtain early | greater := split other inside
    · have hidden := earlier other early
      rw [narrow other member told] at hidden
      cases hidden
    · exact greater (least other member told)
  have unseen : ∀ other ∈ before, ¬ shown other = true := fun other inside => by simpa using earlier other inside
  constructor
  · rw [whole,eraseP_append_right _ passed,eraseP_cons_of_pos tells,eraseP_append_right _ unseen,
      eraseP_cons_of_pos fits,without]
  · exact ⟨item,by simp,tells⟩

end order

section comparison

def NotGreater (compare : α → α → Except ε Int) (left right : α) : Prop :=
  match compare left right with
  | .ok sign => sign ≤ 0
  | .error _ => False

instance (compare : α → α → Except ε Int) : DecidableRel (NotGreater compare) := fun left right => by
  unfold NotGreater
  split
  · exact inferInstance
  · exact inferInstance

def ties (compare : α → α → Except ε Int) (left right : α) : Bool :=
  match compare left right with
  | .ok sign => sign = 0
  | .error _ => false

structure Compares (compare : α → α → Except ε Int) (items : List α) : Prop where
  opposite : ∀ left ∈ items, ∀ right ∈ items, ∃ sign, compare left right = .ok sign ∧ compare right left = .ok (-sign)
  trans : ∀ left ∈ items, ∀ middle ∈ items, ∀ right ∈ items,
    NotGreater compare left middle → NotGreater compare middle right → NotGreater compare left right

def andThen (first second : α → α → Except ε Int) (left right : α) : Except ε Int := do
  let sign ← first left right
  if sign ≠ 0 then return sign else second left right

variable {compare first second : α → α → Except ε Int} {items : List α}

theorem notGreater_iff {left right : α} {sign : Int} (compared : compare left right = .ok sign) :
    NotGreater compare left right ↔ sign ≤ 0 := by
  unfold NotGreater
  rw [compared]

theorem ties_iff (left right : α) : ties compare left right = true ↔ compare left right = .ok 0 := by
  unfold ties
  cases compare left right with
  | ok sign => simp
  | error raised => simp

theorem Compares.of_subset {fewer : List α} (order : Compares compare items) (within : fewer ⊆ items) : Compares compare fewer :=
  ⟨fun left inside right inside' => order.opposite left (within inside) right (within inside'),
    fun left one middle two right three => order.trans left (within one) middle (within two) right (within three)⟩

theorem Compares.preorders (order : Compares compare items) : Preorders (NotGreater compare) items := by
  refine ⟨fun left inside right inside' => ?_,order.trans⟩
  obtain ⟨sign,one,other⟩ := order.opposite left inside right inside'
  rw [notGreater_iff one,notGreater_iff other]
  omega

theorem Compares.andThen (order : Compares first items)
    (later : ∀ item ∈ items, Compares second (items.filter (ties first item))) : Compares (andThen first second) items := by
  have self (item : α) (inside : item ∈ items) : first item item = .ok 0 := by
    obtain ⟨sign,one,other⟩ := order.opposite item inside item inside
    have zero : sign = -sign := Except.ok.inj (one.symm.trans other)
    rw [one]
    congr 1
    omega
  have member (item other : α) (inside : other ∈ items) (tied : first item other = .ok 0) :
      other ∈ items.filter (ties first item) := mem_filter.mpr ⟨inside,(ties_iff _ _).mpr tied⟩
  have strict (left right : α) (sign : Int) (compared : first left right = .ok sign) (differ : sign ≠ 0) :
      StableSort.andThen first second left right = .ok sign := by
    unfold StableSort.andThen
    rw [ok_bind compared,if_pos differ]
    rfl
  have tied (left right : α) (compared : first left right = .ok 0) :
      StableSort.andThen first second left right = second left right := by
    unfold StableSort.andThen
    rw [ok_bind compared,if_neg (by decide)]
  constructor
  · intro left inside right inside'
    obtain ⟨sign,one,other⟩ := order.opposite left inside right inside'
    by_cases zero : sign = 0
    · subst zero
      rw [tied left right one,tied right left other]
      exact (later left inside).opposite left (member left left inside (self left inside)) right
        (member left right inside' one)
    · exact ⟨sign,strict left right sign one zero,strict right left _ other (by omega)⟩
  · intro left inside middle inside' right inside'' lower upper
    obtain ⟨sign,one,back⟩ := order.opposite left inside middle inside'
    obtain ⟨sign',two,back'⟩ := order.opposite middle inside' right inside''
    obtain ⟨sign'',three,back''⟩ := order.opposite left inside right inside''
    have below : sign ≤ 0 := by
      by_cases zero : sign = 0
      · omega
      · exact (notGreater_iff (strict left middle sign one zero)).mp lower
    have below' : sign' ≤ 0 := by
      by_cases zero : sign' = 0
      · omega
      · exact (notGreater_iff (strict middle right sign' two zero)).mp upper
    have through := order.trans left inside middle inside' right inside'' ((notGreater_iff one).mpr below)
      ((notGreater_iff two).mpr below')
    rw [notGreater_iff three] at through
    by_cases zero : sign'' = 0
    · subst zero
      have down := order.trans right inside'' left inside middle inside' ((notGreater_iff back'').mpr (by decide))
        ((notGreater_iff one).mpr below)
      have down' := order.trans middle inside' right inside'' left inside ((notGreater_iff two).mpr below')
        ((notGreater_iff back'').mpr (by decide))
      rw [notGreater_iff back'] at down
      rw [notGreater_iff back] at down'
      obtain rfl : sign = 0 := by omega
      obtain rfl : sign' = 0 := by omega
      unfold NotGreater at lower upper ⊢
      rw [tied left middle one] at lower
      rw [tied middle right two] at upper
      rw [tied left right three]
      exact (later left inside).trans left (member left left inside (self left inside)) middle
        (member left middle inside' one) right (member left right inside'' three) lower upper
    · exact (notGreater_iff (strict left right sign'' three zero)).mpr through

def bisect (before : Nat → Except ε Bool) (low high : Nat) : Except ε Nat :=
  if low < high then do
    if ← before ((low + high) / 2) then bisect before low ((low + high) / 2)
    else bisect before ((low + high) / 2 + 1) high
  else .ok low
termination_by high - low

theorem bisect_split (before : Nat → Except ε Bool) (low high place : Nat) (least : low ≤ place) (most : place ≤ high)
    (behind : ∀ index < place, before index = .ok false)
    (ahead : ∀ index < high, place ≤ index → before index = .ok true) : bisect before low high = .ok place := by
  fun_induction bisect before low high with
  | case1 low high wide left right =>
    by_cases beyond : place ≤ (low + high) / 2
    · rw [ok_bind (ahead _ (by omega) beyond),if_pos rfl]
      exact left least beyond (fun index short => ahead index (by omega))
    · rw [ok_bind (behind _ (by omega)),if_neg (by decide)]
      exact right (by omega) most ahead
  | case2 low high narrow =>
    congr 1
    omega

def lessAt (compare : α → α → Except ε Int) (missing : ε) (items : List α) (item : α) (index : Nat) : Except ε Bool :=
  match items[index]? with
  | some other => (compare item other).map (fun sign => sign < 0)
  | none => .error missing

theorem sorted_split (items : List α) (item : α) (order : Compares compare (item::items))
    (sorted : items.Pairwise (NotGreater compare)) : ∃ before after, items = before ++ after ∧
      (∀ other ∈ before, NotGreater compare other item) ∧ ∀ other ∈ after, ¬ NotGreater compare other item := by
  refine ⟨_,_,(takeWhile_append_dropWhile (p := fun other => NotGreater compare other item)).symm,fun other inside => ?_,?_⟩
  · have passed := mem_takeWhile_imp inside
    simpa using passed
  · have within : ∀ other ∈ items.dropWhile (fun other => NotGreater compare other item), other ∈ item::items :=
      fun other inside => mem_cons_of_mem _ ((dropWhile_sublist _).mem inside)
    have kept := sorted.sublist (dropWhile_sublist (fun other => decide (NotGreater compare other item)))
    have stops := head?_dropWhile_not (fun other => decide (NotGreater compare other item)) items
    cases rest : items.dropWhile (fun other => NotGreater compare other item) with
    | nil => exact fun other inside => absurd inside not_mem_nil
    | cons first others =>
      rw [rest] at within kept stops
      have greater : ¬ NotGreater compare first item := by simpa using stops
      intro other inside below
      obtain rfl | inside := mem_cons.mp inside
      · exact greater below
      · have next := (pairwise_cons.mp kept).1 other inside
        exact greater (order.trans first (within first mem_cons_self) other
          (within other (mem_cons_of_mem _ inside)) item mem_cons_self next below)

theorem insert_bisected (missing : ε) (items : List α) (item : α) (order : Compares compare (item::items))
    (sorted : items.Pairwise (NotGreater compare)) :
    ∃ place, bisect (lessAt compare missing items item) 0 items.length = .ok place ∧
      items.insertIdx place item = insertAfter (NotGreater compare) item items := by
  obtain ⟨before,after,whole,upTo,beyond⟩ := sorted_split items item order sorted
  have less (index : Nat) (other : α) (found : items[index]? = some other) :
      ∃ sign : Int, lessAt compare missing items item index = .ok (decide (sign < 0)) ∧
        (NotGreater compare other item ↔ 0 ≤ sign) := by
    obtain ⟨sign,one,back⟩ := order.opposite item mem_cons_self other
      (mem_cons_of_mem _ (mem_of_getElem? found))
    refine ⟨sign,?_,?_⟩
    · unfold lessAt
      rw [found]
      dsimp only
      rw [one]
      rfl
    · rw [notGreater_iff back]
      omega
  refine ⟨before.length,bisect_split _ _ _ _ (Nat.zero_le _) ?_ (fun index small => ?_) (fun index short large => ?_),?_⟩
  · rw [whole,length_append]
    omega
  · have found : items[index]? = some before[index] := by
      rw [whole,getElem?_append_left small]
      exact getElem?_eq_getElem small
    obtain ⟨sign,asked,meaning⟩ := less index _ found
    have upper := meaning.mp (upTo _ (getElem_mem small))
    rw [asked,decide_eq_false (by omega)]
  · have bound : index - before.length < after.length := by
      rw [whole,length_append] at short
      omega
    have found : items[index]? = some after[index - before.length] := by
      rw [whole,getElem?_append_right large]
      exact getElem?_eq_getElem bound
    obtain ⟨sign,asked,meaning⟩ := less index _ found
    have lower : ¬ 0 ≤ sign := fun upper => beyond _ (getElem_mem bound) (meaning.mpr upper)
    rw [asked,decide_eq_true (by omega)]
  · rw [whole,insertAfter_split before after upTo beyond]
    clear upTo whole
    induction before with
    | nil => rfl
    | cons first before ih => exact congrArg (List.cons first) ih

end comparison
end Klein.StableSort
