import Mathlib.Data.List.Basic
import Mathlib.Tactic.Common

/-! `_evaluate_like` (`_internal/sql/expression.py`): the pattern as a regular expression
without DOTALL, whose wildcards stop at a newline and whose end is also before a final
one, and SQL's LIKE. -/
namespace Klein.Sql
open List

inductive RegexItem where
  | anyRun
  | anyOne
  | quoted (character : Char)

def RegexItem.ofCharacter (character : Char) : RegexItem :=
  if character = '%' then .anyRun
  else if character = '_' then .anyOne
  else .quoted character

/-- `.*` and what follows it, at some split of the text. -/
def anyRunMatches (rest : List Char → Bool) : List Char → Bool
  | [] => rest []
  | character :: text => rest (character :: text) || (character ≠ '\n' && anyRunMatches rest text)

/-- `re.match(...) is not None`, with the equality of characters that the flags ask for. -/
def regexMatches (equal : Char → Char → Bool) : List RegexItem → List Char → Bool
  | [],text => text = [] ∨ text = ['\n']
  | .anyRun :: items,text => anyRunMatches (regexMatches equal items) text
  | .anyOne :: items,character :: text => character ≠ '\n' && regexMatches equal items text
  | .quoted expected :: items,character :: text => equal expected character && regexMatches equal items text
  | .anyOne :: _,[] | .quoted _ :: _,[] => false

/-- `_evaluate_like` of texts, for ILIKE with the equality of `re.IGNORECASE`. -/
def evaluateLike (ignoringCase : Option (Char → Char → Bool)) (value pattern : Option String) : Option Bool :=
  match value,pattern with
  | some value,some pattern =>
    let equal := ignoringCase.getD (fun expected character => expected = character)
    some (regexMatches equal (pattern.toList.map RegexItem.ofCharacter) value.toList)
  | _,_ => none

def Part (character : Char) (part : List Char) : Prop :=
  if character = '%' then True
  else if character = '_' then part.length = 1
  else part = [character]

def Like : List Char → List Char → Prop
  | [],value => value = []
  | character :: pattern,value => ∃ part rest, value = part ++ rest ∧ Part character part ∧ Like pattern rest

def newlines (text : List Char) : Nat := text.count '\n'

section newlines

theorem newlines_append (first second : List Char) : newlines (first ++ second) = newlines first + newlines second := count_append

theorem newlines_cons (character : Char) (text : List Char) : newlines (character :: text) = newlines [character] + newlines text :=
  newlines_append [character] text

theorem newlines_part (character : Char) (part : List Char) (stands : Part character part) : newlines [character] ≤ newlines part := by
  unfold Part at stands
  split at stands
  next run =>
    subst run
    exact Nat.zero_le _
  next =>
    split at stands
    next one =>
      subst one
      exact Nat.zero_le _
    next =>
      subst stands
      exact Nat.le_refl _

theorem newlines_like (pattern value : List Char) (split : Like pattern value) : newlines pattern ≤ newlines value := by
  induction pattern generalizing value with
  | nil => exact Nat.zero_le _
  | cons character pattern ih =>
    obtain ⟨part,rest,rfl,stands,split⟩ := split
    have first := newlines_part character part stands
    have later := ih rest split
    rw [newlines_cons,newlines_append]
    omega

end newlines

def PlainLike (pattern value : List Char) : Prop := Like pattern value ∧ newlines value = newlines pattern

def PlainPart (character : Char) (part : List Char) : Prop := Part character part ∧ newlines part = newlines [character]

section plain

theorem plainLike_nil (value : List Char) : PlainLike [] value ↔ value = [] := by
  constructor
  · exact fun plain => plain.1
  · intro empty
    subst empty
    exact ⟨rfl,rfl⟩

theorem plainLike_cons (character : Char) (pattern value : List Char) :
    PlainLike (character :: pattern) value ↔ ∃ part rest, value = part ++ rest ∧ PlainPart character part ∧ PlainLike pattern rest := by
  constructor
  · intro plain
    obtain ⟨⟨part,rest,rfl,stands,split⟩,total⟩ := plain
    have first := newlines_part character part stands
    have later := newlines_like pattern rest split
    rw [newlines_cons,newlines_append] at total
    exact ⟨part,rest,rfl,⟨stands,by omega⟩,split,by omega⟩
  · intro parts
    obtain ⟨part,rest,rfl,⟨stands,own⟩,split,later⟩ := parts
    refine ⟨⟨part,rest,rfl,stands,split⟩,?_⟩
    rw [newlines_cons,newlines_append]
    omega

def Ends (holds : List Char → Prop) (text : List Char) : Prop := holds text ∨ ∃ body, text = body ++ ['\n'] ∧ holds body

theorem ends_cons (character : Char) (pattern text : List Char) :
    Ends (PlainLike (character :: pattern)) text ↔
      ∃ part rest, text = part ++ rest ∧ PlainPart character part ∧ Ends (PlainLike pattern) rest := by
  constructor
  · intro ends
    rcases ends with plain | ⟨body,rfl,plain⟩
    · obtain ⟨part,rest,rfl,stands,plain⟩ := (plainLike_cons character pattern text).mp plain
      exact ⟨part,rest,rfl,stands,.inl plain⟩
    · obtain ⟨part,rest,rfl,stands,plain⟩ := (plainLike_cons character pattern body).mp plain
      exact ⟨part,rest ++ ['\n'],append_assoc part rest _,stands,.inr ⟨rest,rfl,plain⟩⟩
  · intro parts
    obtain ⟨part,rest,rfl,stands,plain | ⟨body,rfl,plain⟩⟩ := parts
    · exact .inl ((plainLike_cons character pattern _).mpr ⟨part,rest,rfl,stands,plain⟩)
    · refine .inr ⟨part ++ body,(append_assoc part body _).symm,?_⟩
      exact (plainLike_cons character pattern _).mpr ⟨part,body,rfl,stands,plain⟩

end plain

section matching

def same (expected character : Char) : Bool := expected = character

theorem anyRunMatches_iff (rest : List Char → Bool) (text : List Char) :
    anyRunMatches rest text = true ↔ ∃ part body, text = part ++ body ∧ newlines part = 0 ∧ rest body = true := by
  induction text with
  | nil =>
    constructor
    · exact fun found => ⟨[],[],rfl,rfl,found⟩
    · intro parts
      obtain ⟨part,body,whole,-,found⟩ := parts
      obtain ⟨rfl,rfl⟩ := append_eq_nil_iff.mp whole.symm
      exact found
  | cons character text ih =>
    rw [anyRunMatches,Bool.or_eq_true,Bool.and_eq_true,ih]
    constructor
    · intro found
      rcases found with found | ⟨printed,part,body,rfl,clear,found⟩
      · exact ⟨[],character :: text,rfl,rfl,found⟩
      · refine ⟨character :: part,body,rfl,?_,found⟩
        rw [newlines_cons,clear]
        simpa [newlines,count_cons] using of_decide_eq_true printed
    · intro parts
      obtain ⟨part,body,whole,clear,found⟩ := parts
      cases part with
      | nil =>
        obtain rfl : character :: text = body := whole
        exact .inl found
      | cons first part =>
        obtain ⟨rfl,rfl⟩ := List.cons.inj whole
        rw [newlines_cons] at clear
        refine .inr ⟨?_,part,body,rfl,by omega,found⟩
        have printed : newlines [character] = 0 := by omega
        simpa [newlines,count_cons] using printed

theorem newlines_one (character : Char) : newlines [character] = 0 ↔ character ≠ '\n' := by
  simp [newlines,count_cons]

theorem plainPart_run (part : List Char) : PlainPart '%' part ↔ newlines part = 0 := by
  simp [PlainPart,Part,newlines]

theorem plainPart_one (part : List Char) : PlainPart '_' part ↔ ∃ character, part = [character] ∧ character ≠ '\n' := by
  constructor
  · intro stands
    obtain ⟨character,rfl⟩ := length_eq_one_iff.mp stands.1
    exact ⟨character,rfl,(newlines_one character).mp stands.2⟩
  · intro stands
    obtain ⟨character,rfl,printed⟩ := stands
    exact ⟨rfl,(newlines_one character).mpr printed⟩

theorem plainPart_same (character : Char) (run : character ≠ '%') (one : character ≠ '_') (part : List Char) :
    PlainPart character part ↔ part = [character] := by
  unfold PlainPart Part
  rw [if_neg run,if_neg one]
  constructor
  · exact fun stands => stands.1
  · intro stands
    subst stands
    exact ⟨rfl,rfl⟩

theorem regexMatches_cons (character : Char) (items : List RegexItem) (text : List Char) :
    regexMatches same (RegexItem.ofCharacter character :: items) text = true ↔
      ∃ part rest, text = part ++ rest ∧ PlainPart character part ∧ regexMatches same items rest = true := by
  unfold RegexItem.ofCharacter
  split
  next run =>
    subst run
    rw [regexMatches,anyRunMatches_iff]
    simp only [plainPart_run]
  next run =>
    split
    next one =>
      subst one
      simp only [plainPart_one]
      constructor
      · intro found
        cases text with
        | nil => cases found
        | cons first text =>
          rw [regexMatches,Bool.and_eq_true] at found
          exact ⟨[first],text,rfl,⟨first,rfl,of_decide_eq_true found.1⟩,found.2⟩
      · intro parts
        obtain ⟨part,rest,rfl,⟨first,rfl,printed⟩,found⟩ := parts
        rw [singleton_append,regexMatches,decide_eq_true printed,found]
        rfl
    next one =>
      simp only [plainPart_same character run one]
      constructor
      · intro found
        cases text with
        | nil => cases found
        | cons first text =>
          rw [regexMatches,Bool.and_eq_true] at found
          obtain rfl := of_decide_eq_true found.1
          exact ⟨[character],text,rfl,rfl,found.2⟩
      · intro parts
        obtain ⟨part,rest,rfl,rfl,found⟩ := parts
        rw [singleton_append,regexMatches,found,Bool.and_true]
        exact decide_eq_true rfl

theorem regexMatches_iff (pattern text : List Char) :
    regexMatches same (pattern.map RegexItem.ofCharacter) text = true ↔ Ends (PlainLike pattern) text := by
  induction pattern generalizing text with
  | nil =>
    change decide (text = [] ∨ text = ['\n']) = true ↔ _
    rw [decide_eq_true_iff]
    constructor
    · intro ended
      rcases ended with rfl | rfl
      · exact .inl ((plainLike_nil []).mpr rfl)
      · exact .inr ⟨[],rfl,(plainLike_nil []).mpr rfl⟩
    · intro ends
      rcases ends with plain | ⟨body,rfl,plain⟩
      · exact .inl plain.1
      · obtain rfl := (plainLike_nil body).mp plain
        exact .inr rfl
  | cons character pattern ih =>
    rw [map_cons,regexMatches_cons,ends_cons]
    simp only [ih]

end matching

def Excused (pattern value : List Char) : Prop :=
  newlines value = newlines pattern + 1 ∧ ∃ body, value = body ++ ['\n'] ∧ Like pattern body

theorem ends_iff (pattern value : List Char) :
    Ends (PlainLike pattern) value ↔ (Like pattern value ∧ newlines value = newlines pattern) ∨ Excused pattern value := by
  unfold Ends Excused PlainLike
  refine or_congr Iff.rfl ?_
  constructor
  · intro ended
    obtain ⟨body,rfl,split,plain⟩ := ended
    refine ⟨?_,body,rfl,split⟩
    rw [newlines_append,plain]
    rfl
  · intro excused
    obtain ⟨more,body,rfl,split⟩ := excused
    rw [newlines_append] at more
    exact ⟨body,rfl,split,Nat.add_right_cancel more⟩

/-- The code says TRUE of what LIKE says it of if and only if the value has no newline
more than the pattern, or has one and is split with it as without it where it is final,
or is refused. -/
theorem evaluateLike_exact (value pattern : String) :
    (evaluateLike none (some value) (some pattern) = some true ↔ Like pattern.toList value.toList) ↔
      newlines value.toList ≤ newlines pattern.toList ∨ (Like pattern.toList value.toList ↔ Excused pattern.toList value.toList) := by
  have computed : evaluateLike none (some value) (some pattern) = some true ↔ Ends (PlainLike pattern.toList) value.toList := by
    rw [← regexMatches_iff]
    exact Option.some_inj
  have least := newlines_like pattern.toList value.toList
  rw [computed,ends_iff]
  by_cases few : newlines value.toList ≤ newlines pattern.toList
  · refine iff_of_true ⟨fun found => ?_,fun split => .inl ⟨split,Nat.le_antisymm few (least split)⟩⟩ (.inl few)
    rcases found with found | excused
    · exact found.1
    · have more := excused.1
      omega
  · constructor
    · intro agrees
      refine .inr ⟨fun split => ?_,fun excused => agrees.mp (.inr excused)⟩
      rcases agrees.mpr split with found | excused
      · exact absurd (Nat.le_of_eq found.2) few
      · exact excused
    · intro condition
      rcases condition with few' | agrees
      · exact absurd few' few
      · refine ⟨fun found => ?_,fun split => .inr (agrees.mp split)⟩
        rcases found with found | excused
        · exact found.1
        · exact agrees.mpr excused

/-- `%` takes every text but those with a newline in the middle. -/
theorem newline_refused : Like "%".toList "a\nb".toList ∧ evaluateLike none (some "a\nb") (some "%") = some false := by
  refine ⟨⟨['a','\n','b'],[],rfl,trivial,rfl⟩,?_⟩
  decide +kernel

end Klein.Sql
