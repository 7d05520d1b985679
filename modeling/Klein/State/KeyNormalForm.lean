import Klein.State.KeyEncoding

/-! Canonical forms are normal forms: they say which keys are equal, and they come
back from pickle as they were, unless a text of the key is the very object that
names a class pickle writes. -/
namespace Klein.State
open List

namespace PyAtom

theorem meaning_canonicalRatio (value : ℚ) : (canonicalRatio value).meaning = .number (.finite value) (.finite 0) := by
  unfold canonicalRatio
  split
  next whole => exact congrArg (fun value => Meaning.number (.finite value) (.finite 0)) (Rat.coe_int_num_of_den_eq_one whole)
  next =>
    split
    next =>
      split
      next => rfl
      next => rfl
    next => rfl

theorem meaning_canonicalValue (value : Extended) : (canonicalValue value).meaning = .number value (.finite 0) := by
  cases value with
  | finite value => exact meaning_canonicalRatio value
  | infinite negative => rfl

theorem value_unsigned (value : PyFloat) : (unsigned value).value = value.value := by
  cases value <;> rfl

theorem meaning_canonicalComplex (real imag : PyFloat) : (canonicalComplex real imag).meaning = .number real.value imag.value := by
  unfold canonicalComplex
  rw [value_unsigned]
  split
  next zero =>
    unfold canonicalReal
    rw [meaning_canonicalValue,value_unsigned,zero]
  next => exact congrArg₂ Meaning.number (value_unsigned real) (value_unsigned imag)

theorem size_nonneg (range : PyRange) : 0 ≤ range.size := by
  unfold PyRange.size
  have moves := range.moves
  split
  next up =>
    split
    · omega
    · have := Int.ediv_nonneg (a := range.stop - range.start - 1) (b := range.step) (by omega) (by omega)
      omega
  next down =>
    split
    · omega
    · have := Int.ediv_nonneg (a := range.start - range.stop - 1) (b := -range.step) (by omega) (by omega)
      omega

theorem size_steps (start step count : Int) (moves : step ≠ 0) (many : 0 < count) :
    PyRange.size ⟨start,start + step * count,step,moves⟩ = count := by
  unfold PyRange.size
  dsimp only
  by_cases up : 0 < step
  · have far := Int.mul_pos up many
    rw [if_pos up,if_neg (by omega)]
    have shape : start + step * count - start - 1 = (step - 1) + step * (count - 1) := by
      rw [Int.mul_sub]
      omega
    rw [shape,Int.add_mul_ediv_left _ _ (by omega),Int.ediv_eq_zero_of_lt (by omega) (by omega)]
    omega
  · have far := Int.mul_pos (show 0 < -step by omega) many
    rw [Int.neg_mul] at far
    rw [if_neg up,if_neg (by omega)]
    have shape : start - (start + step * count) - 1 = (-step - 1) + -step * (count - 1) := by
      rw [Int.mul_sub,Int.neg_mul]
      omega
    rw [shape,Int.add_mul_ediv_left _ _ (by omega),Int.ediv_eq_zero_of_lt (by omega) (by omega)]
    omega

theorem meaning_canonicalRange (range : PyRange) : (PyAtom.range (canonicalRange range)).meaning = (PyAtom.range range).meaning := by
  have counted := size_nonneg range
  unfold canonicalRange
  split
  next empty =>
    simp only [meaning,empty]
    rfl
  next =>
    split
    next single =>
      have size := size_steps range.start 1 1 (by decide) (by decide)
      rw [Int.mul_one] at size
      simp only [meaning,single,size]
      rfl
    next =>
      have size := size_steps range.start range.step range.size range.moves (by omega)
      simp only [meaning,size]

theorem meaning_canonical (atom : PyAtom) : atom.canonical.meaning = atom.meaning := by
  cases atom with
  | none => rfl
  | bool value => cases value <;> rfl
  | int value => rfl
  | float value => exact meaning_canonicalValue value.value
  | decimal value => exact meaning_canonicalValue value.value
  | fraction value => exact meaning_canonicalRatio value
  | complex real imag => exact meaning_canonicalComplex real imag
  | leaf value => rfl
  | range value => exact meaning_canonicalRange value

def floatOf : Extended → PyFloat
  | .finite value =>
    if zero : value = 0 then .zero false
    else if exact : Binary64.nearest value = some value then .finite value zero exact else .zero false
  | .infinite negative => .infinite negative

theorem unsigned_eq (value : PyFloat) : unsigned value = floatOf value.value := by
  cases value with
  | zero negative => rfl
  | finite value nonzero exact =>
    unfold floatOf PyFloat.value unsigned
    dsimp only
    rw [dif_neg nonzero,dif_pos exact]
  | infinite negative => rfl

def ofMeaning : Meaning → PyAtom
  | .none => .none
  | .number real imag => if imag = .finite 0 then canonicalValue real else .complex (floatOf real) (floatOf imag)
  | .content value => .leaf ⟨value,Option.none⟩
  | .range size first step =>
    if size = 0 then .range ⟨0,0,1,Int.one_ne_zero⟩
    else if size = 1 then .range ⟨first,first + 1,1,Int.one_ne_zero⟩
    else if moves : step ≠ 0 then .range ⟨first,first + step * size,step,moves⟩ else .none

theorem canonical_eq (atom : PyAtom) (shared : atom.leaves = []) : atom.canonical = ofMeaning atom.meaning := by
  cases atom with
  | none => rfl
  | bool value => cases value <;> rfl
  | int value =>
    change _ = canonicalRatio value
    unfold canonicalRatio
    rw [dif_pos (Rat.den_intCast value)]
    rfl
  | float value => rfl
  | decimal value => rfl
  | fraction value => rfl
  | complex real imag =>
    unfold canonical canonicalComplex ofMeaning meaning
    dsimp only
    rw [value_unsigned,unsigned_eq,unsigned_eq]
    split
    next zero =>
      unfold canonicalReal
      rw [← unsigned_eq,value_unsigned]
    next => rfl
  | leaf value => cases shared
  | range value =>
    have counted := size_nonneg value
    unfold canonical canonicalRange ofMeaning meaning
    dsimp only
    split
    next => rfl
    next some =>
      split
      next => rw [if_pos (by omega)]
      next =>
        rw [dif_pos (by rw [if_pos (by omega)]; exact value.moves),PyAtom.range.injEq,PyRange.mk.injEq]
        rw [if_pos (by omega),if_pos (by omega)]
        exact ⟨rfl,rfl,rfl⟩

theorem leaves_eq_nil (atom : PyAtom) : atom.leaves = [] ↔ ∀ content, atom.meaning ≠ .content content := by
  cases atom <;> simp [leaves,meaning]

theorem canonical_same (atom other : PyAtom) (same : atom.meaning = other.meaning) (shared : atom.leaves = []) :
    atom.canonical = other.canonical := by
  have apart : other.leaves = [] := by
    rw [leaves_eq_nil,← same]
    exact (leaves_eq_nil atom).mp shared
  rw [canonical_eq atom shared,canonical_eq other apart,same]

theorem leaves_canonical (atom : PyAtom) : atom.canonical.leaves = atom.leaves := by
  by_cases shared : atom.leaves = []
  · rw [shared,leaves_eq_nil,meaning_canonical]
    exact (leaves_eq_nil atom).mp shared
  · cases atom with
    | leaf value => rfl
    | _ => exact absurd rfl shared

theorem canonical_canonical (atom : PyAtom) : atom.canonical.canonical = atom.canonical := by
  cases atom with
  | leaf value => rfl
  | _ => exact canonical_same _ _ (meaning_canonical _) (leaves_canonical _)

section
variable (change : Leaf → Option Nat) (atom : PyAtom)
include change atom

theorem relabel_shared (shared : atom.leaves = []) : atom.relabel change = atom := by
  cases atom with
  | leaf value => cases shared
  | _ => rfl

theorem meaning_relabel : (atom.relabel change).meaning = atom.meaning := by
  cases atom <;> rfl

theorem canonical_relabel :
    (atom.relabel change).canonical = atom.canonical.relabel change := by
  by_cases shared : atom.leaves = []
  · rw [relabel_shared change atom shared,relabel_shared change _ ((leaves_canonical atom).trans shared)]
  · cases atom with
    | leaf value => rfl
    | _ => exact absurd rfl shared

end

end PyAtom

namespace PyObject

section canonical
variable (pickle : KeyPickle)

theorem canonicalizeAll_eq (items : List PyObject) : canonicalizeAll pickle items = items.map (canonicalize pickle) := by
  induction items with
  | nil => rfl
  | cons item rest ih => exact congrArg (canonicalize pickle item::·) ih

theorem canonicalize_node (kind : Kind) (items : List PyObject) (known : kind ≠ .canonicalSet) :
    canonicalize pickle (.node kind items) = gather pickle (items.map (canonicalize pickle)) kind := by
  rw [canonicalize,if_neg known,canonicalizeAll_eq]

theorem canonicalize_pair (key item : PyObject) :
    canonicalize pickle (pair key item) = pair (canonicalize pickle key) (canonicalize pickle item) :=
  canonicalize_node pickle .tuple [key,item] (by decide)

def canonicalKind : Kind → Kind
  | .set | .frozenset => .canonicalSet
  | kind => kind

def sortKey (kind : Kind) (item : PyObject) : Bytes :=
  if kind = .dict then pickle.dumps .four item.keyOf else pickle.dumps .four item

def KeysApart (item other : PyObject) : Prop := ¬ item.keyOf.equal other.keyOf ∧ ¬ other.keyOf.equal item.keyOf

theorem dictOf_append (before items : List PyObject) (apart : (before ++ items).Pairwise KeysApart) :
    items.foldl setItem before = before ++ items := by
  induction items generalizing before with
  | nil => rw [append_nil]; rfl
  | cons item rest ih =>
    have next : before ++ item::rest = (before ++ [item]) ++ rest := by rw [append_assoc]; rfl
    have absent : before.any (fun other => other.keyOf.equal item.keyOf) = false := by
      rw [List.any_eq_false]
      intro other inside
      exact ((pairwise_append.mp apart).2.2 other inside item mem_cons_self).1
    rw [foldl_cons,setItem,absent,if_neg Bool.false_ne_true,ih _ (next ▸ apart),next]

structure Gathered (kind : Kind) (items gathered : List PyObject) : Prop where
  made : gather pickle items kind = .node (canonicalKind kind) gathered
  reordered : gathered.Perm items
  same : kind.ordered = true → gathered = items
  sorted : kind.ordered = false → gathered.Pairwise (fun item other => sortKey pickle kind item ≤ sortKey pickle kind other)

theorem sortedBy_perm (key : PyObject → Bytes) (items : List PyObject) : (sortedBy key items).Perm items :=
  perm_insertionSort _ items

theorem sortedBy_sorted (key : PyObject → Bytes) (items : List PyObject) :
    (sortedBy key items).Pairwise (fun item other => key item ≤ key other) := by
  have total : Std.Total (fun item other : PyObject => key item ≤ key other) := ⟨fun item other => le_total _ _⟩
  have trans : IsTrans PyObject (fun item other : PyObject => key item ≤ key other) := ⟨fun _ _ _ => le_trans⟩
  exact List.pairwise_insertionSort _ items

theorem exists_gathered (kind : Kind) (items : List PyObject) (apart : kind = .dict → items.Pairwise KeysApart) :
    ∃ gathered, Gathered pickle kind items gathered := by
  cases kind with
  | tuple => exact ⟨items,rfl,List.Perm.refl _,fun _ => rfl,nofun⟩
  | list => exact ⟨items,rfl,List.Perm.refl _,fun _ => rfl,nofun⟩
  | canonicalSet => exact ⟨items,rfl,List.Perm.refl _,fun _ => rfl,nofun⟩
  | set => exact ⟨_,rfl,sortedBy_perm _ items,nofun,fun _ => sortedBy_sorted _ items⟩
  | frozenset => exact ⟨_,rfl,sortedBy_perm _ items,nofun,fun _ => sortedBy_sorted _ items⟩
  | dict =>
    have reordered := sortedBy_perm (fun item => pickle.dumps .four item.keyOf) items
    refine ⟨_,?_,reordered,nofun,fun _ => sortedBy_sorted (fun item => pickle.dumps .four item.keyOf) items⟩
    have still := (reordered.pairwise_iff (fun {item other} off => And.symm off)).mpr (apart rfl)
    exact congrArg (node .dict) (dictOf_append [] _ still)

end canonical

section faithful
variable (pickle : KeyPickle)

theorem comparable_of_canonical (kind other : Kind) (known : kind ≠ .canonicalSet) (known' : other ≠ .canonicalSet)
    (same : (canonicalKind kind).comparable (canonicalKind other) = true) : kind.comparable other = true := by
  revert known known' same
  cases kind <;> cases other <;> decide

section
variable (kind other : Kind) (items others : List PyObject) (same : (node kind items).equal (node other others))
include same

theorem comparable_of_equal :
    kind.comparable other = true := by
  rw [equal,Bool.and_eq_true] at same
  exact same.1

theorem partners_of_equal :
    items.length = others.length ∧ ∀ item ∈ items, ∃ partner ∈ others, item.equal partner := by
  cases ordered : kind.ordered with
  | true =>
    have beside := ((equal_ordered _ _ _ _ ordered).mp same).2
    exact ⟨beside.length_eq,fun item inside => exists_right _ items others beside item inside⟩
  | false => exact ((equal_unordered _ _ _ _ ordered).mp same).2

end

theorem Formed.known (kind : Kind) (items : List PyObject) (formed : Formed kind items) : kind ≠ .canonicalSet := by
  rintro rfl
  exact formed

theorem Formed.keysApart (items : List PyObject) (each : ∀ item ∈ items, Valid item) (formed : Formed .dict items)
    (faithful : ∀ item ∈ items, ∀ other ∈ items, (canonicalize pickle item.keyOf).equal (canonicalize pickle other.keyOf) →
      item.keyOf.equal other.keyOf) : (items.map (canonicalize pickle)).Pairwise KeysApart := by
  refine pairwise_map.mpr (formed.2.imp_of_mem (fun {item other} inside among different => ?_))
  have valid := each other among
  have towards := faithful item inside other among
  have back := faithful other among item inside
  obtain ⟨key,value,rfl⟩ := formed.1 item inside
  obtain ⟨key',value',rfl⟩ := formed.1 other among
  unfold KeysApart
  rw [canonicalize_pair,canonicalize_pair]
  refine ⟨fun same => different (towards same),fun same => different (equal_symm _ _ ?_ (back same))⟩
  cases valid with
  | node _ _ parts _ => exact parts key' mem_cons_self

theorem equal_of_canonical_below (bound : Nat) (key other : PyObject) (small : sizeOf key < bound) (small' : sizeOf other < bound)
    (valid : key.Valid) (valid' : other.Valid) (same : (canonicalize pickle key).equal (canonicalize pickle other)) :
    key.equal other := by
  induction bound generalizing key other with
  | zero => omega
  | succ bound ih =>
    have gathers (kind : Kind) (items : List PyObject) (below : sizeOf (node kind items) < bound + 1)
        (each : ∀ item ∈ items, Valid item) (formed : Formed kind items) :
        ∃ gathered, Gathered pickle kind (items.map (canonicalize pickle)) gathered := by
      apply exists_gathered
      rintro rfl
      refine formed.keysApart pickle items each (fun item inside partner among fits => ?_)
      have smaller := sizeOf_lt_of_mem inside
      have smaller' := sizeOf_lt_of_mem among
      have valid := each item inside
      have valid' := each partner among
      obtain ⟨key,value,rfl⟩ := formed.1 item inside
      obtain ⟨key',value',rfl⟩ := formed.1 partner among
      cases valid with
      | node _ _ parts _ =>
        cases valid' with
        | node _ _ parts' _ =>
          refine ih _ _ ?_ ?_ (parts key mem_cons_self) (parts' key' mem_cons_self) fits
          · simp [pair,keyOf] at smaller below ⊢
            omega
          · simp [pair,keyOf] at smaller' below ⊢
            omega
    cases valid with
    | atom value =>
      cases valid' with
      | atom value' =>
        have meanings := of_decide_eq_true same
        rw [PyAtom.meaning_canonical,PyAtom.meaning_canonical] at meanings
        exact decide_eq_true meanings
      | node kind items each formed =>
        obtain ⟨gathered,made⟩ := gathers kind items small' each formed
        rw [canonicalize_node pickle kind items (formed.known),made.made] at same
        cases same
    | node kind items each formed =>
      obtain ⟨gathered,made⟩ := gathers kind items small each formed
      rw [canonicalize_node pickle kind items (formed.known),made.made] at same
      cases valid' with
      | atom value' => cases same
      | node kind' items' each' formed' =>
        obtain ⟨gathered',made'⟩ := gathers kind' items' small' each' formed'
        rw [canonicalize_node pickle kind' items' (formed'.known),made'.made] at same
        have alike := comparable_of_canonical kind kind' formed.known formed'.known (comparable_of_equal _ _ _ _ same)
        have fits (item : PyObject) (inside : item ∈ items) (partner : PyObject) (among : partner ∈ items')
            (fits : (canonicalize pickle item).equal (canonicalize pickle partner)) : item.equal partner := by
          have smaller := sizeOf_lt_of_mem inside
          have smaller' := sizeOf_lt_of_mem among
          refine ih item partner ?_ ?_ (each item inside) (each' partner among) fits
          · simp at small
            omega
          · simp at small'
            omega
        cases ordered : kind.ordered with
        | true =>
          have ordered' := (Kind.comparable_ordered _ _ alike).trans ordered
          rw [made.same ordered,made'.same ordered'] at same
          rw [equal_ordered _ _ _ _ (by revert ordered; cases kind <;> decide),forall₂_map_left_iff,forall₂_map_right_iff] at same
          rw [equal_ordered _ _ _ _ ordered]
          exact ⟨alike,beside_imp _ _ items items' fits same.2⟩
        | false =>
          obtain ⟨length,partners⟩ := partners_of_equal _ _ _ _ same
          rw [equal_unordered _ _ _ _ ordered]
          refine ⟨alike,?_,fun item inside => ?_⟩
          · rw [made.reordered.length_eq,made'.reordered.length_eq,length_map,length_map] at length
            exact length
          · obtain ⟨partner,among,close⟩ := partners _ (made.reordered.mem_iff.mpr (List.mem_map_of_mem inside))
            obtain ⟨source,origin,rfl⟩ := List.mem_map.mp (made'.reordered.mem_iff.mp among)
            exact ⟨source,origin,fits item inside source origin close⟩

theorem equal_of_canonical (key other : PyObject) (valid : key.Valid) (valid' : other.Valid)
    (same : (canonicalize pickle key).equal (canonicalize pickle other)) : key.equal other :=
  equal_of_canonical_below pickle (sizeOf key + sizeOf other + 1) key other (by omega) (by omega) valid valid' same

theorem Valid.key (item : PyObject) (valid : item.Valid) : item.keyOf.Valid := by
  cases valid with
  | atom value => exact .atom value
  | node kind items each formed =>
    cases items with
    | nil => exact .node kind [] each formed
    | cons key rest => exact each key mem_cons_self

theorem Valid.gathered (kind : Kind) (items : List PyObject) (each : ∀ item ∈ items, Valid item) (formed : Formed kind items) :
    ∃ gathered, Gathered pickle kind (items.map (canonicalize pickle)) gathered := by
  apply exists_gathered
  rintro rfl
  exact formed.keysApart pickle items each (fun item inside other among =>
    equal_of_canonical pickle _ _ (each item inside).key (each other among).key)

end faithful

def Matches (change : Leaf → Option Nat) : PyObject → PyObject → Prop :=
  Corresponds (fun value other => value.meaning = other.meaning ∧ other.leaves = value.leaves.map (fun leaf => ⟨leaf.content,change leaf⟩))
    (fun kind other => kind.comparable other) Kind.ordered

section matched
variable (pickle : KeyPickle) (change : Leaf → Option Nat)

theorem matches_relabel (value : PyAtom) : value.meaning = (value.relabel change).meaning ∧
    (value.relabel change).leaves = value.leaves.map (fun leaf => ⟨leaf.content,change leaf⟩) := by
  cases value <;> exact ⟨rfl,rfl⟩

theorem matches_restored (key other : PyObject) (valid : key.Valid) (restored : Restored change key other) : Matches change key other := by
  induction valid generalizing other with
  | atom value =>
    cases other with
    | atom _ => exact restored ▸ matches_relabel change value
    | node _ _ => exact restored.elim
  | node kind items each formed ih =>
    cases other with
    | atom _ => exact restored.elim
    | node kind' others =>
      obtain ⟨rfl,arranged,reordered,fixed,beside⟩ := (corresponds_node _ _ _ _ _ _ _).mp restored
      refine (corresponds_node _ _ _ _ _ _ _).mpr ⟨?_,arranged,reordered,fun ordered => fixed ?_,?_⟩
      · have known := formed.known
        revert known
        cases kind <;> decide
      · have known := formed.known
        revert known ordered
        cases kind <;> decide
      · exact beside_imp _ _ items arranged (fun item inside partner _ => ih item inside partner) beside

theorem matches_canonical (key other : PyObject) (valid : key.Valid) (restored : Restored change (canonicalize pickle key) other) :
    Matches change key other := by
  induction valid generalizing other with
  | atom value =>
    cases other with
    | atom other =>
      obtain rfl : other = value.canonical.relabel change := restored
      have known := matches_relabel change value.canonical
      rw [PyAtom.meaning_canonical,PyAtom.leaves_canonical] at known
      exact known
    | node _ _ => exact restored.elim
  | node kind items each formed ih =>
    obtain ⟨gathered,made⟩ := Valid.gathered pickle kind items each formed
    rw [canonicalize_node pickle kind items formed.known,made.made] at restored
    cases other with
    | atom _ => exact restored.elim
    | node kind' others =>
      obtain ⟨rfl,arranged,reordered,fixed,beside⟩ := (corresponds_node _ _ _ _ _ _ _).mp restored
      have alike : kind.comparable (canonicalKind kind).restored = true := by
        have known := formed.known
        revert known
        cases kind <;> decide
      refine (corresponds_node _ _ _ _ _ _ _).mpr ⟨alike,?_⟩
      cases ordered : kind.ordered with
      | true =>
        have listed : (canonicalKind kind).listed = true := by
          have known := formed.known
          revert known ordered
          cases kind <;> decide
        rw [made.same ordered,forall₂_map_left_iff,fixed listed] at beside
        exact ⟨others,List.Perm.refl _,fun _ => rfl,beside_imp _ _ items others (fun item inside partner _ => ih item inside partner) beside⟩
      | false =>
        obtain ⟨sources,placed,moved⟩ := perm_comp_forall₂ made.reordered.symm beside
        rw [forall₂_map_left_iff] at placed
        exact ⟨sources,moved.trans reordered,nofun,beside_imp _ _ items sources (fun item inside partner _ => ih item inside partner) placed⟩

theorem matches_pair (key item other : PyObject) (matched : Matches change (pair key item) other) :
    ∃ key' item', other = pair key' item' ∧ Matches change key key' ∧ Matches change item item' := by
  cases other with
  | atom _ => exact matched.elim
  | node kind others =>
    obtain ⟨alike,arranged,-,fixed,beside⟩ := (corresponds_node _ _ _ _ _ _ _).mp matched
    obtain rfl : kind = .tuple := by
      revert alike
      cases kind <;> decide
    obtain rfl := fixed rfl
    cases beside with
    | cons first rest =>
      cases rest with
      | cons second rest =>
        cases rest
        exact ⟨_,_,rfl,first,second⟩

theorem matches_equal (key other : PyObject) (matched : Matches change key other) : key.equal other := by
  induction key generalizing other with
  | atom value =>
    cases other with
    | atom other => exact decide_eq_true matched.1
    | node _ _ => exact matched.elim
  | node kind items ih =>
    cases other with
    | atom _ => exact matched.elim
    | node kind' others =>
      obtain ⟨alike,arranged,reordered,fixed,beside⟩ := (corresponds_node _ _ _ _ _ _ _).mp matched
      have equal := beside_imp _ (fun item other => item.equal other) items arranged (fun item inside partner _ => ih item inside partner) beside
      cases ordered : kind.ordered with
      | true => exact (equal_ordered _ _ _ _ ordered).mpr ⟨alike,fixed ordered ▸ equal⟩
      | false =>
        refine (equal_unordered _ _ _ _ ordered).mpr ⟨alike,equal.length_eq.trans reordered.length_eq,fun item inside => ?_⟩
        obtain ⟨partner,among,same⟩ := exists_right _ items arranged equal item inside
        exact ⟨partner,reordered.mem_iff.mp among,same⟩

theorem matches_apart (key key' other other' : PyObject) (valid : key'.Valid) (validOther : other'.Valid) (matched : Matches change key other) (matched' : Matches change key' other')
    (apart : ¬ key.equal key') : ¬ other.equal other' ∧ ¬ other'.equal other := by
  have first := matches_equal change key other matched
  have second := matches_equal change key' other' matched'
  constructor
  · intro same
    exact apart (equal_trans _ _ _ first (equal_trans _ _ _ same (equal_symm _ _ valid second)))
  · intro same
    exact apart (equal_trans _ _ _ first (equal_trans _ _ _ (equal_symm _ _ validOther same) (equal_symm _ _ valid second)))

theorem matches_valid (key other : PyObject) (valid : key.Valid) (matched : Matches change key other) : other.Valid := by
  induction valid generalizing other with
  | atom value =>
    cases other with
    | atom other => exact .atom other
    | node _ _ => exact matched.elim
  | node kind items each formed ih =>
    cases other with
    | atom _ => exact matched.elim
    | node kind' others =>
      obtain ⟨alike,arranged,reordered,fixed,beside⟩ := (corresponds_node _ _ _ _ _ _ _).mp matched
      have valid : ∀ partner ∈ others, Valid partner := by
        intro partner among
        obtain ⟨item,inside,fits⟩ := exists_left _ items arranged beside partner (reordered.mem_iff.mpr among)
        exact ih item inside partner fits
      refine .node kind' others valid ?_
      have sets (off : items.Pairwise (fun item other => ¬ item.equal other)) : others.Pairwise (fun item other => ¬ item.equal other) := by
        have apart := pairwise_beside _ _ (fun item other => ¬ item.equal other ∧ ¬ other.equal item) items arranged beside off
          (fun item inside later among partner partner' fits fits' off => matches_apart change item later partner partner'
            (each later among) (ih later among _ fits') fits fits' off)
        exact ((reordered.pairwise_iff (fun {item other} off => And.symm off)).mp apart).imp And.left
      cases kind with
      | tuple =>
        obtain rfl : kind' = .tuple := by
          revert alike
          cases kind' <;> decide
        trivial
      | list =>
        obtain rfl : kind' = .list := by
          revert alike
          cases kind' <;> decide
        trivial
      | canonicalSet => exact formed.elim
      | set =>
        cases kind' <;> first | exact sets formed | cases alike
      | frozenset =>
        cases kind' <;> first | exact sets formed | cases alike
      | dict =>
        obtain rfl : kind' = .dict := by
          revert alike
          cases kind' <;> decide
        have keys (item : PyObject) (inside : item ∈ items) (partner : PyObject) (fits : Matches change item partner) :
            (∃ key value, partner = pair key value) ∧ Matches change item.keyOf partner.keyOf := by
          obtain ⟨key,value,rfl⟩ := formed.1 item inside
          obtain ⟨key',value',rfl,first,-⟩ := matches_pair change key value partner fits
          exact ⟨⟨key',value',rfl⟩,first⟩
        have apart := pairwise_beside _ _ KeysApart items arranged beside formed.2
          (fun item inside later among partner partner' fits fits' off => matches_apart change item.keyOf later.keyOf _ _
            (each later among).key (ih later among _ fits').key (keys item inside _ fits).2 (keys later among _ fits').2 off)
        refine ⟨fun partner among => ?_,((reordered.pairwise_iff (fun {item other} off => And.symm off)).mp apart).imp And.left⟩
        obtain ⟨item,inside,fits⟩ := exists_left _ items arranged beside partner (reordered.mem_iff.mpr among)
        exact (keys item inside partner fits).1

theorem leaves_matches (key other : PyObject) (matched : Matches change key other) (leaf : Leaf) :
    leaf ∈ other.leaves ↔ ∃ own ∈ key.leaves, (⟨own.content,change own⟩ : Leaf) = leaf := by
  induction key generalizing other with
  | atom value =>
    cases other with
    | atom other =>
      change leaf ∈ other.leaves ↔ ∃ own ∈ value.leaves,_
      rw [matched.2,List.mem_map]
    | node _ _ => exact matched.elim
  | node kind items ih =>
    cases other with
    | atom _ => exact matched.elim
    | node kind' others =>
      obtain ⟨-,arranged,reordered,-,beside⟩ := (corresponds_node _ _ _ _ _ _ _).mp matched
      rw [leaves_node,leaves_node,mem_flatMap]
      constructor
      · intro found
        obtain ⟨partner,among,found⟩ := found
        obtain ⟨item,inside,fits⟩ := exists_left _ items arranged beside partner (reordered.mem_iff.mpr among)
        obtain ⟨own,known,same⟩ := (ih item inside partner fits).mp found
        exact ⟨own,mem_flatMap.mpr ⟨item,inside,known⟩,same⟩
      · intro found
        obtain ⟨own,known,same⟩ := found
        obtain ⟨item,inside,known⟩ := mem_flatMap.mp known
        obtain ⟨partner,among,fits⟩ := exists_right _ items arranged beside item inside
        exact ⟨partner,reordered.mem_iff.mp among,(ih item inside partner fits).mpr ⟨own,known,same⟩⟩

theorem namesOf_eq (items : List PyObject) : namesOf items = items.flatMap names := by
  induction items with
  | nil => rfl
  | cons item rest ih => exact congrArg (names item ++ ·) ih

theorem names_node (kind : Kind) (items : List PyObject) : (node kind items).names = setNames kind ++ items.flatMap names :=
  congrArg (setNames kind ++ ·) (namesOf_eq items)

theorem names_matches (key other : PyObject) (matched : Matches change key other) (leaf : Leaf) :
    leaf ∈ other.names ↔ leaf ∈ key.names := by
  induction key generalizing other with
  | atom value =>
    cases other with
    | atom other =>
      change leaf ∈ other.meaning.names ↔ leaf ∈ value.meaning.names
      rw [matched.1]
    | node _ _ => exact matched.elim
  | node kind items ih =>
    cases other with
    | atom _ => exact matched.elim
    | node kind' others =>
      obtain ⟨alike,arranged,reordered,-,beside⟩ := (corresponds_node _ _ _ _ _ _ _).mp matched
      have sets : setNames kind' = setNames kind := by
        revert alike
        cases kind <;> cases kind' <;> decide
      rw [names_node,names_node,sets,mem_append,mem_append,mem_flatMap,mem_flatMap]
      refine or_congr_right ⟨fun found => ?_,fun found => ?_⟩
      · obtain ⟨partner,among,found⟩ := found
        obtain ⟨item,inside,fits⟩ := exists_left _ items arranged beside partner (reordered.mem_iff.mpr among)
        exact ⟨item,inside,(ih item inside partner fits).mp found⟩
      · obtain ⟨item,inside,found⟩ := found
        obtain ⟨partner,among,fits⟩ := exists_right _ items arranged beside item inside
        exact ⟨partner,reordered.mem_iff.mp among,(ih item inside partner fits).mpr found⟩

end matched

section canonical
variable (pickle : KeyPickle) (key : PyObject) (valid : key.Valid)
include valid

theorem leaves_canonicalize (leaf : Leaf) : leaf ∈ (canonicalize pickle key).leaves ↔ leaf ∈ key.leaves := by
  induction valid with
  | atom value => exact iff_of_eq (congrArg (leaf ∈ ·) (PyAtom.leaves_canonical value))
  | node kind items each formed ih =>
    obtain ⟨gathered,made⟩ := Valid.gathered pickle kind items each formed
    rw [canonicalize_node pickle kind items formed.known,made.made,leaves_node,leaves_node,
      (made.reordered.flatMap_right leaves).mem_iff,mem_flatMap,mem_flatMap]
    simp only [List.mem_map,exists_exists_and_eq_and]
    exact exists_congr (fun item => and_congr_right (ih item))

theorem names_canonicalize (leaf : Leaf) : leaf ∈ (canonicalize pickle key).names ↔ leaf ∈ key.names := by
  induction valid with
  | atom value => exact iff_of_eq (congrArg (fun meaning => leaf ∈ Meaning.names meaning) (PyAtom.meaning_canonical value))
  | node kind items each formed ih =>
    obtain ⟨gathered,made⟩ := Valid.gathered pickle kind items each formed
    have sets : setNames (canonicalKind kind) = setNames kind := by cases kind <;> rfl
    rw [canonicalize_node pickle kind items formed.known,made.made,names_node,names_node,sets,mem_append,mem_append,
      (made.reordered.flatMap_right names).mem_iff,mem_flatMap,mem_flatMap]
    simp only [List.mem_map,exists_exists_and_eq_and]
    exact or_congr_right (exists_congr (fun item => and_congr_right (ih item)))

theorem plain_canonicalize : Plain (canonicalize pickle key) := by
  induction valid with
  | atom value => exact .atom _ (PyAtom.canonical_canonical value)
  | node kind items each formed ih =>
    obtain ⟨gathered,made⟩ := Valid.gathered pickle kind items each formed
    rw [canonicalize_node pickle kind items formed.known,made.made]
    refine .node _ _ (by cases kind <;> decide) (fun item inside => ?_)
    obtain ⟨source,origin,rfl⟩ := List.mem_map.mp (made.reordered.mem_iff.mp inside)
    exact ih source origin

end canonical

section relabelled
variable (change : Leaf → Option Nat)

theorem relabel_congr (other : Leaf → Option Nat) (object : PyObject) (same : ∀ leaf ∈ object.leaves, change leaf = other leaf) :
    object.relabel change = object.relabel other := by
  induction object with
  | atom value =>
    cases value with
    | leaf value => exact congrArg (fun label => atom (.leaf ⟨value.content,label⟩)) (same value mem_cons_self)
    | _ => rfl
  | node kind items ih =>
    rw [relabel_node,relabel_node]
    refine congrArg (node kind) (map_congr_left (fun item inside => ih item inside (fun leaf found => same leaf ?_)))
    rw [leaves_node]
    exact mem_flatMap.mpr ⟨item,inside,found⟩

theorem relabel_relabel (other : Leaf → Option Nat) (object : PyObject) :
    (object.relabel change).relabel other = object.relabel (fun leaf => other ⟨leaf.content,change leaf⟩) := by
  induction object with
  | atom value => cases value <;> rfl
  | node kind items ih =>
    rw [relabel_node,relabel_node,relabel_node,List.map_map]
    exact congrArg (node kind) (map_congr_left ih)

theorem leaves_relabel (object : PyObject) :
    (object.relabel change).leaves = object.leaves.map (fun leaf => ⟨leaf.content,change leaf⟩) := by
  induction object with
  | atom value => cases value <;> rfl
  | node kind items ih =>
    rw [relabel_node,leaves_node,leaves_node,map_flatMap,flatMap_map]
    exact flatMap_congr ih

theorem names_relabel (object : PyObject) : (object.relabel change).names = object.names := by
  induction object with
  | atom value => exact congrArg Meaning.names (PyAtom.meaning_relabel change value)
  | node kind items ih =>
    rw [relabel_node,names_node,names_node,flatMap_map]
    exact congrArg (setNames kind ++ ·) (flatMap_congr ih)

theorem plain_relabel (object : PyObject) (plain : object.Plain) : (object.relabel change).Plain := by
  induction plain with
  | atom value fixed => exact .atom _ ((PyAtom.canonical_relabel change value).trans (congrArg _ fixed))
  | node kind items written _ ih =>
    rw [relabel_node]
    refine .node kind _ written (fun item inside => ?_)
    obtain ⟨source,origin,rfl⟩ := List.mem_map.mp inside
    exact ih source origin

structure Steady (object : PyObject) : Prop where
  distinct : ∀ leaf ∈ object.leaves, ∀ other ∈ object.leaves, leaf.content = other.content → change leaf = change other → leaf = other
  unnamed : ∀ leaf ∈ object.leaves, leaf ∉ object.names
  still : ∀ leaf ∈ object.leaves, (⟨leaf.content,change leaf⟩ : Leaf) ∉ object.names

theorem Steady.within (first second : PyObject) (steady : Steady change second) (leaves : ∀ leaf ∈ first.leaves, leaf ∈ second.leaves)
    (names : ∀ leaf ∈ first.names, leaf ∈ second.names) : Steady change first where
  distinct := fun leaf found other known => steady.distinct leaf (leaves leaf found) other (leaves other known)
  unnamed := fun leaf found named => steady.unnamed leaf (leaves leaf found) (names leaf named)
  still := fun leaf found named => steady.still leaf (leaves leaf found) (names _ named)

theorem Steady.item (kind : Kind) (items : List PyObject) (steady : Steady change (.node kind items)) (item : PyObject)
    (inside : item ∈ items) : Steady change item := by
  apply Steady.within change item (.node kind items) steady
  · intro leaf found
    rw [leaves_node]
    exact mem_flatMap.mpr ⟨item,inside,found⟩
  · intro leaf named
    rw [names_node]
    exact mem_append_right _ (mem_flatMap.mpr ⟨item,inside,named⟩)

theorem idxOf_map {α β : Type} [DecidableEq α] [DecidableEq β] (change : α → β) (items : List α) (item : α)
    (distinct : ∀ other ∈ items, change item = change other → item = other) : (items.map change).idxOf (change item) = items.idxOf item := by
  induction items with
  | nil => rfl
  | cons first rest ih =>
    rw [map_cons,idxOf_cons,idxOf_cons,ih (fun other among => distinct other (mem_cons_of_mem _ among))]
    by_cases same : first = item
    · rw [same]
      simp
    · have apart : change first ≠ change item := fun equal => same (distinct first mem_cons_self equal.symm).symm
      rw [beq_false_of_ne apart,beq_false_of_ne same]

theorem memoized_relabel (object : PyObject) (steady : Steady change object) : (object.relabel change).memoized = object.memoized := by
  unfold memoized
  rw [relabel_relabel,names_relabel,leaves_relabel]
  apply relabel_congr
  intro leaf found
  rw [if_neg (steady.unnamed leaf found),if_neg (steady.still leaf found)]
  apply congrArg some
  refine idxOf_map (fun leaf => (⟨leaf.content,change leaf⟩ : Leaf)) object.leaves leaf (fun other known same => ?_)
  rw [Leaf.mk.injEq] at same
  exact steady.distinct leaf found other known same.1 same.2

theorem dumps_relabel (pickle : KeyPickle) (lawful : pickle.Lawful) (protocol : Protocol) (object : PyObject) (plain : object.Plain)
    (steady : Steady change object) : pickle.dumps protocol (object.relabel change) = pickle.dumps protocol object :=
  (lawful.dumps_iff protocol _ _ (plain_relabel change object plain) plain).mpr (memoized_relabel change object steady)

theorem Steady.canonicalize (pickle : KeyPickle) (key : PyObject) (valid : key.Valid) (steady : Steady change key) :
    Steady change (canonicalize pickle key) :=
  Steady.within change _ key steady (fun leaf => (leaves_canonicalize pickle key valid leaf).mp)
    (fun leaf => (names_canonicalize pickle key valid leaf).mp)

theorem canonical_matches (value other : PyAtom) (same : value.meaning = other.meaning)
    (leaves : other.leaves = value.leaves.map (fun leaf => ⟨leaf.content,change leaf⟩)) :
    other.canonical = value.canonical.relabel change := by
  by_cases shared : value.leaves = []
  · rw [PyAtom.relabel_shared change _ ((PyAtom.leaves_canonical value).trans shared)]
    rw [shared] at leaves
    exact PyAtom.canonical_same other value same.symm leaves
  · cases value with
    | leaf value =>
      cases other with
      | leaf other => exact congrArg PyAtom.leaf (List.cons.inj leaves).1
      | _ => cases leaves
    | _ => exact absurd rfl shared

end relabelled

section encoded
variable (pickle : KeyPickle) (lawful : pickle.Lawful)
include lawful

theorem encodeKey_injective (protocol : Protocol) (key other : PyObject) (valid : key.Valid) (valid' : other.Valid)
    (same : encodeKey pickle protocol key = encodeKey pickle protocol other) : key.equal other := by
  obtain ⟨change,-,restored⟩ := lawful.restores protocol (canonicalize pickle key)
  obtain ⟨change',-,restored'⟩ := lawful.restores protocol (canonicalize pickle other)
  unfold encodeKey at same
  rw [← same] at restored'
  have first := matches_equal change key _ (matches_canonical pickle change key _ valid restored)
  have second := matches_equal change' other _ (matches_canonical pickle change' other _ valid' restored')
  exact equal_trans _ _ _ first (equal_symm _ _ valid' second)

theorem sortKey_injective (kind : Kind) (items : List PyObject) (each : ∀ item ∈ items, Valid item) (formed : Formed kind items)
    (unordered : kind.ordered = false) (item other : PyObject) (inside : item ∈ items) (among : other ∈ items)
    (same : sortKey pickle kind (canonicalize pickle item) = sortKey pickle kind (canonicalize pickle other)) : item = other := by
  have sets (off : items.Pairwise (fun item other => ¬ item.equal other)) (single : kind ≠ .dict) : item = other := by
    refine eq_of_apart (fun item other => item.equal other) items (off.imp_of_mem (fun {item other} _ among different => ?_)) item other
      inside among ?_
    · exact ⟨different,fun back => different (equal_symm _ _ (each other among) back)⟩
    · unfold sortKey at same
      rw [if_neg single,if_neg single] at same
      exact encodeKey_injective pickle lawful .four item other (each item inside) (each other among) same
  cases kind with
  | tuple => cases unordered
  | list => cases unordered
  | canonicalSet => exact formed.elim
  | set => exact sets formed (by decide)
  | frozenset => exact sets formed (by decide)
  | dict =>
    refine eq_of_apart (fun item other => item.keyOf.equal other.keyOf) items
      (formed.2.imp_of_mem (fun {item other} _ among different => ?_)) item other inside among ?_
    · exact ⟨different,fun back => different (equal_symm _ _ (each other among).key back)⟩
    · unfold sortKey at same
      rw [if_pos rfl,if_pos rfl] at same
      have valid := (each item inside).key
      have valid' := (each other among).key
      obtain ⟨key,value,rfl⟩ := formed.1 item inside
      obtain ⟨key',value',rfl⟩ := formed.1 other among
      rw [canonicalize_pair,canonicalize_pair] at same
      exact encodeKey_injective pickle lawful .four key key' valid valid' same

variable (change : Leaf → Option Nat)

theorem sortKey_relabel (kind : Kind) (items : List PyObject) (each : ∀ item ∈ items, Valid item) (formed : Formed kind items)
    (steady : ∀ item ∈ items, Steady change item) (item : PyObject) (inside : item ∈ items) :
    sortKey pickle kind ((PyObject.canonicalize pickle item).relabel change) = sortKey pickle kind (PyObject.canonicalize pickle item) := by
  unfold sortKey
  by_cases keyed : kind = .dict
  · subst keyed
    rw [if_pos rfl,if_pos rfl]
    have valid := (each item inside).key
    have calm := steady item inside
    obtain ⟨key,value,rfl⟩ := formed.1 item inside
    unfold pair at calm
    rw [canonicalize_pair]
    unfold pair
    rw [relabel_node]
    exact dumps_relabel change pickle lawful .four _ (plain_canonicalize pickle key valid)
      (Steady.canonicalize change pickle key valid (Steady.item change _ _ calm key mem_cons_self))
  · rw [if_neg keyed,if_neg keyed]
    exact dumps_relabel change pickle lawful .four _ (plain_canonicalize pickle item (each item inside))
      (Steady.canonicalize change pickle item (each item inside) (steady item inside))

theorem canonicalize_matches (key other : PyObject) (valid : key.Valid) (matched : Matches change key other)
    (steady : Steady change key) :
    PyObject.canonicalize pickle other = (PyObject.canonicalize pickle key).relabel change := by
  induction valid generalizing other with
  | atom value =>
    cases other with
    | atom other => exact congrArg atom (canonical_matches change value other matched.1 matched.2)
    | node _ _ => exact matched.elim
  | node kind items each formed ih =>
    have valid' := matches_valid change _ other (.node kind items each formed) matched
    cases valid' with
    | atom _ => exact matched.elim
    | node kind' others each' formed' =>
      obtain ⟨alike,arranged,reordered,fixed,beside⟩ := (corresponds_node _ _ _ _ _ _ _).mp matched
      obtain ⟨gathered,made⟩ := Valid.gathered pickle kind items each formed
      obtain ⟨gathered',made'⟩ := Valid.gathered pickle kind' others each' formed'
      have calm := fun item inside => Steady.item change kind items steady item inside
      have mapped : arranged.map (PyObject.canonicalize pickle) =
          (items.map (PyObject.canonicalize pickle)).map (relabel change) := by
        rw [← forall₂_eq_eq_eq,List.map_map,forall₂_map_left_iff,forall₂_map_right_iff]
        exact (beside_imp _ (fun item other => PyObject.canonicalize pickle other = (PyObject.canonicalize pickle item).relabel change)
          items arranged (fun item inside partner _ fits => ih item inside partner fits (calm item inside)) beside).flip
      rw [canonicalize_node pickle kind items formed.known,canonicalize_node pickle kind' others formed'.known,made.made,made'.made,
        relabel_node]
      have kinds : canonicalKind kind' = canonicalKind kind := by
        revert alike
        cases kind <;> cases kind' <;> decide
      rw [kinds]
      apply congrArg
      cases ordered : kind.ordered with
      | true =>
        rw [made.same ordered,made'.same ((Kind.comparable_ordered _ _ alike).trans ordered),← mapped,fixed ordered]
      | false =>
        have moved : gathered'.Perm (gathered.map (relabel change)) := by
          refine made'.reordered.trans ((reordered.map _).symm.trans ?_)
          rw [mapped]
          exact made.reordered.symm.map _
        have dicts : kind' = .dict ↔ kind = .dict := by
          revert alike
          cases kind <;> cases kind' <;> decide
        have keyed : sortKey pickle kind' = sortKey pickle kind := by
          ext item : 1
          unfold sortKey
          simp only [dicts]
        have stays (item : PyObject) (inside : item ∈ gathered) : sortKey pickle kind (item.relabel change) = sortKey pickle kind item := by
          obtain ⟨source,origin,rfl⟩ := List.mem_map.mp (made.reordered.mem_iff.mp inside)
          exact sortKey_relabel pickle lawful change kind items each formed calm source origin
        have order := made'.sorted ((Kind.comparable_ordered _ _ alike).trans ordered)
        rw [keyed] at order
        refine moved.eq_of_pairwise ?_ order ?_
        · intro item other inside among below above
          obtain ⟨first,known,rfl⟩ := List.mem_map.mp (moved.mem_iff.mp inside)
          obtain ⟨second,known',rfl⟩ := List.mem_map.mp among
          have same := le_antisymm below above
          rw [stays first known,stays second known'] at same
          obtain ⟨source,origin,rfl⟩ := List.mem_map.mp (made.reordered.mem_iff.mp known)
          obtain ⟨source',origin',rfl⟩ := List.mem_map.mp (made.reordered.mem_iff.mp known')
          rw [sortKey_injective pickle lawful kind items each formed ordered source source' origin origin' same]
        · refine pairwise_map.mpr ((made.sorted ordered).imp_of_mem (fun {item other} inside among below => ?_))
          rw [stays item inside,stays other among]
          exact below

theorem encodeKey_matches (protocol : Protocol) (key other : PyObject) (valid : key.Valid) (matched : Matches change key other)
    (steady : Steady change key) : encodeKey pickle protocol other = encodeKey pickle protocol key := by
  unfold encodeKey
  rw [canonicalize_matches pickle lawful change key other valid matched steady]
  exact dumps_relabel change pickle lawful protocol _ (plain_canonicalize pickle key valid) (steady.canonicalize change pickle key valid)

end encoded
end PyObject
end Klein.State
