import Mathlib

/-! Byte strings in lexicographic order, and fixed-width big-endian numbers
(`struct.pack` of an unsigned format), whose order is the order of the numbers. -/
namespace Klein
open List Nat

abbrev Bytes := List (Fin 256)

instance byte_neZero : NeZero 256 := ⟨by decide⟩

namespace Bytes

/-- The last `width` base-256 digits of a number, the most significant first. -/
def ofNat : Nat → Nat → Bytes
  | 0,_ => []
  | width + 1,value => ⟨value / 256 ^ width % 256,mod_lt _ (by decide)⟩::ofNat width (value % 256 ^ width)

def toNat (bytes : Bytes) : Nat := bytes.foldl (fun value (digit : Fin 256) => value * 256 + digit.val) 0

@[simp] theorem length_ofNat (width value : Nat) : (ofNat width value).length = width := by
  induction width generalizing value with
  | zero => rfl
  | succ width ih => exact congrArg Nat.succ (ih _)

theorem foldl_digits (bytes : Bytes) (before : Nat) :
    bytes.foldl (fun value (digit : Fin 256) => value * 256 + digit.val) before = before * 256 ^ bytes.length + toNat bytes := by
  induction bytes generalizing before with
  | nil => simp [toNat]
  | cons digit rest ih =>
    unfold toNat
    rw [foldl_cons,foldl_cons,ih,ih (0 * 256 + digit.val),length_cons,Nat.pow_succ,Nat.add_mul,Nat.add_mul,
      Nat.mul_assoc,Nat.mul_comm 256]
    omega

theorem toNat_ofNat (width value : Nat) (fits : value < 256 ^ width) : toNat (ofNat width value) = value := by
  induction width generalizing value with
  | zero =>
    rw [Nat.pow_zero] at fits
    obtain rfl : value = 0 := by omega
    rfl
  | succ width ih =>
    have positive : 0 < 256 ^ width := Nat.pow_pos (by decide)
    have digit : value / 256 ^ width < 256 := (Nat.div_lt_iff_lt_mul positive).mpr (by
      rw [Nat.mul_comm,← Nat.pow_succ]
      exact fits)
    unfold toNat ofNat
    rw [foldl_cons,foldl_digits,ih _ (mod_lt _ positive),length_ofNat]
    dsimp only
    rw [mod_eq_of_lt digit,Nat.zero_mul,Nat.zero_add,Nat.mul_comm]
    exact div_add_mod value (256 ^ width)

theorem toNat_cons (digit : Fin 256) (rest : Bytes) : toNat (digit::rest) = digit.val * 256 ^ rest.length + toNat rest := by
  rw [toNat,foldl_cons,foldl_digits,Nat.zero_mul,Nat.zero_add]

theorem toNat_lt (bytes : Bytes) : toNat bytes < 256 ^ bytes.length := by
  induction bytes with
  | nil => exact Nat.one_pos
  | cons digit rest ih =>
    rw [toNat_cons,length_cons,Nat.pow_succ]
    have below : (digit.val + 1) * 256 ^ rest.length ≤ 256 * 256 ^ rest.length := Nat.mul_le_mul_right _ digit.isLt
    rw [Nat.add_mul,Nat.one_mul] at below
    omega

theorem ofNat_toNat (bytes : Bytes) : ofNat bytes.length (toNat bytes) = bytes := by
  induction bytes with
  | nil => rfl
  | cons digit rest ih =>
    have positive : 0 < 256 ^ rest.length := Nat.pow_pos (by decide)
    have high : (digit.val * 256 ^ rest.length + toNat rest) / 256 ^ rest.length = digit.val := by
      rw [Nat.add_comm,add_mul_div_right _ _ positive,div_eq_of_lt (toNat_lt rest),Nat.zero_add]
    have low : (digit.val * 256 ^ rest.length + toNat rest) % 256 ^ rest.length = toNat rest := by
      rw [Nat.add_comm,add_mul_mod_self_right,mod_eq_of_lt (toNat_lt rest)]
    rw [length_cons,toNat_cons]
    unfold ofNat
    rw [low,ih]
    refine congrArg (fun first => first::rest) (Fin.ext ?_)
    dsimp only
    rw [high,mod_eq_of_lt digit.isLt]

theorem ofNat_append_lt (width small large : Nat) (less : small < large) (fits : large < 256 ^ width) (tail tail' : Bytes) :
    ofNat width small ++ tail < ofNat width large ++ tail' := by
  induction width generalizing small large with
  | zero =>
    rw [Nat.pow_zero] at fits
    omega
  | succ width ih =>
    have positive : 0 < 256 ^ width := Nat.pow_pos (by decide)
    have digit (value : Nat) (below : value < 256 ^ (width + 1)) : value / 256 ^ width % 256 = value / 256 ^ width := by
      refine mod_eq_of_lt ((Nat.div_lt_iff_lt_mul positive).mpr ?_)
      rw [Nat.mul_comm,← Nat.pow_succ]
      exact below
    have ordered : small / 256 ^ width ≤ large / 256 ^ width := Nat.div_le_div_right (Nat.le_of_lt less)
    unfold ofNat
    rw [cons_append,cons_append,cons_lt_cons_iff]
    rcases Nat.lt_or_eq_of_le ordered with first | same
    · refine .inl ?_
      rw [Fin.lt_def]
      dsimp only
      rw [digit small (less.trans fits),digit large fits]
      exact first
    · refine .inr ⟨Fin.ext (by dsimp only; rw [same]),ih _ _ ?_ (mod_lt _ positive)⟩
      have one := div_add_mod small (256 ^ width)
      have other := div_add_mod large (256 ^ width)
      rw [same] at one
      omega

theorem ofNat_le_of_le (width small large : Nat) (fits : small < 256 ^ width) (tail tail' : Bytes)
    (ordered : ofNat width small ++ tail ≤ ofNat width large ++ tail') : small ≤ large := by
  by_contra more
  exact absurd (ofNat_append_lt width large small (by omega) fits tail' tail) (not_lt_of_ge ordered)

theorem cons_le_cons_iff (first second : Fin 256) (rest rest' : Bytes) :
    first::rest ≤ second::rest' ↔ first < second ∨ first = second ∧ rest ≤ rest' := by
  rw [← not_lt,cons_lt_cons_iff,← not_lt]
  rcases lt_trichotomy first second with less | same | more
  · simp [less,less.ne',less.le]
  · simp [same]
  · simp [more,more.ne',more.le]

theorem le_append (bytes tail : Bytes) : bytes ≤ bytes ++ tail := by
  induction bytes with
  | nil => exact not_lt.mp (not_lt_nil _)
  | cons digit rest ih => exact cons_le_cons digit ih

theorem prefix_of_between (start middle last : Bytes) (after : start ≤ middle) (before : middle ≤ last)
    (inside : start <+: last) : start <+: middle := by
  induction start generalizing middle last with
  | nil => exact nil_prefix
  | cons digit rest ih =>
    obtain ⟨tail,rfl⟩ := inside
    cases middle with
    | nil => exact absurd (nil_lt_cons digit rest) (not_lt_of_ge after)
    | cons other middle =>
      rw [cons_append] at before
      rcases (cons_le_cons_iff _ _ _ _).mp after with less | ⟨rfl,after'⟩
      · rcases (cons_le_cons_iff _ _ _ _).mp before with more | ⟨rfl,-⟩
        · exact absurd more (lt_asymm less)
        · exact absurd less (lt_irrefl _)
      · rcases (cons_le_cons_iff _ _ _ _).mp before with more | ⟨-,before'⟩
        · exact absurd more (lt_irrefl _)
        · obtain ⟨tail',rfl⟩ := ih middle (rest ++ tail) after' before' ⟨tail,rfl⟩
          exact ⟨tail',rfl⟩

end Bytes
end Klein
