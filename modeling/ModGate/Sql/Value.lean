import Mathlib.Algebra.Order.Ring.Int
import Mathlib.Data.Rat.Defs
import Mathlib.Tactic.NormNum
import Mathlib.Order.Compare

/-! Storage classes of a dynamically typed SQL engine: their cross-class order, the
three-valued logic of comparisons, and the conversions made by the column readers. -/

namespace ModGate.Sql

inductive Value
  | null
  | integer (i : ℤ)
  | real (q : ℚ)
  | text (s : String)
  | blob (b : List UInt8)
deriving DecidableEq

namespace Value

def rank : Value → ℕ
  | null => 0
  | integer _ | real _ => 1
  | text _ => 2
  | blob _ => 3

def order : Value → Value → Option Ordering
  | null, _ | _, null => none
  | integer a, integer b => some (compare a b)
  | integer a, real b => some (compareOfLessAndEq (a : ℚ) b)
  | real a, integer b => some (compareOfLessAndEq a (b : ℚ))
  | real a, real b => some (compareOfLessAndEq a b)
  | text a, text b => some (compareOfLessAndEq a b)
  | blob a, blob b => some (compareOfLessAndEq a b)
  | a, b => some (compare a.rank b.rank)

@[simp] lemma order_null_left (v : Value) : order null v = none := by cases v <;> rfl

@[simp] lemma order_null_right (v : Value) : order v null = none := by cases v <;> rfl

@[simp] lemma order_integer (a b : ℤ) : order (integer a) (integer b) = some (compare a b) := rfl

@[simp] lemma order_text_integer (s : String) (b : ℤ) :
    order (text s) (integer b) = some .gt := rfl

/-- The number of characters in front of the first NUL for a text and of bytes for a blob. A
number is measured by its decimal rendering; of a `real` only that this is not empty is kept. -/
def length : Value → Value
  | null => null
  | integer i => integer (toString i).length
  | real _ => integer 1
  | text s => integer (s.toList.takeWhile (· ≠ '\x00')).length
  | blob b => integer b.length

lemma toString_length_pos (i : ℤ) : 0 < (toString i).length := by
  have hn : ∀ n : ℕ, 0 < (toString n).length := fun n => by
    have h : n.repr ≠ "" := Nat.repr_ne_empty
    exact Nat.pos_of_ne_zero fun he => h (String.length_eq_zero_iff.mp he)
  cases i with
  | ofNat n => exact hn n
  | negSucc n =>
    have h : (toString (Int.negSucc n)) = "-" ++ toString (n + 1) := rfl
    rw [h, String.length_append]
    exact Nat.add_pos_right _ (hn (n + 1))

def prefixInteger (cs : List Char) : ℤ :=
  let cs := cs.dropWhile Char.isWhitespace
  let digits := fun ds : List Char =>
    ((ds.takeWhile Char.isDigit).foldl (fun n c => 10 * n + (c.toNat - '0'.toNat)) 0 : ℕ)
  match cs with
  | '-' :: ds => max (-2 ^ 63) (-(digits ds : ℤ))
  | '+' :: ds => min (2 ^ 63 - 1) (digits ds)
  | ds => min (2 ^ 63 - 1) (digits ds)

-- The 32-bit column reader: conversion to a 64-bit integer, then its low 32 bits, signed.
def columnInt : Value → ℤ
  | null => 0
  | integer i => i.bmod (2 ^ 32)
  | real q => (max (-2 ^ 63) (min (2 ^ 63 - 1) (q.num.tdiv q.den))).bmod (2 ^ 32)
  | text s => (prefixInteger s.toList).bmod (2 ^ 32)
  | blob b => (prefixInteger (b.map fun u => Char.ofNat u.toNat)).bmod (2 ^ 32)

def Fits32 (i : ℤ) : Prop := -2 ^ 31 ≤ i ∧ i < 2 ^ 31

instance (i : ℤ) : Decidable (Fits32 i) := inferInstanceAs (Decidable (_ ∧ _))

lemma bmod_fits32 (i : ℤ) : Fits32 (i.bmod (2 ^ 32)) := by
  have hl := Int.le_bmod (x := i) (m := 2 ^ 32) (by decide)
  have hu := Int.bmod_lt (x := i) (m := 2 ^ 32) (by decide)
  norm_num at hl hu
  exact ⟨hl, hu⟩

lemma bmod_eq_self_iff (i : ℤ) : i.bmod (2 ^ 32) = i ↔ Fits32 i := by
  constructor
  · intro h
    exact h ▸ bmod_fits32 i
  · rintro ⟨hl, hu⟩
    apply Int.bmod_eq_of_le <;> norm_num <;> omega

end Value

/-! Conditions evaluate to true, false or unknown; a row is selected only when its condition
is true. -/

inductive Comparison
  | le
  | ge
  | eq
deriving DecidableEq

def Comparison.test : Comparison → Ordering → Bool
  | .le, o => o.isLE
  | .ge, o => o.isGE
  | .eq, o => o.isEq

def Comparison.eval (op : Comparison) (a b : Value) : Option Bool := (a.order b).map op.test

def and3 : Option Bool → Option Bool → Option Bool
  | some false, _ | _, some false => some false
  | some true, some true => some true
  | _, _ => none

def or3 : Option Bool → Option Bool → Option Bool
  | some true, _ | _, some true => some true
  | some false, some false => some false
  | _, _ => none

@[simp] lemma and3_eq_true (a b : Option Bool) :
    and3 a b = some true ↔ a = some true ∧ b = some true := by
  rcases a with _ | _ | _ <;> rcases b with _ | _ | _ <;> simp [and3]

@[simp] lemma or3_eq_true (a b : Option Bool) :
    or3 a b = some true ↔ a = some true ∨ b = some true := by
  rcases a with _ | _ | _ <;> rcases b with _ | _ | _ <;> simp [or3]

@[simp] lemma le_integer (a b : ℤ) :
    Comparison.le.eval (.integer a) (.integer b) = some true ↔ a ≤ b := by
  simp [Comparison.eval, Comparison.test, Int.isLE_compare]

@[simp] lemma ge_integer (a b : ℤ) :
    Comparison.ge.eval (.integer a) (.integer b) = some true ↔ b ≤ a := by
  simp [Comparison.eval, Comparison.test, Int.isGE_compare]

@[simp] lemma eq_integer (a b : ℤ) :
    Comparison.eq.eval (.integer a) (.integer b) = some true ↔ a = b := by
  simp [Comparison.eval, Comparison.test]

@[simp] lemma eq_text (a b : String) :
    Comparison.eq.eval (.text a) (.text b) = some true ↔ a = b := by
  simp only [Comparison.eval, Value.order, Option.map_some, Option.some.injEq, Comparison.test,
    Ordering.isEq_iff_eq_eq, compareOfLessAndEq]
  constructor
  · intro h
    by_contra hne
    rw [if_neg hne] at h
    split at h <;> cases h
  · rintro rfl
    rw [if_neg (String.lt_irrefl a), if_pos rfl]

@[simp] lemma eval_null_left (op : Comparison) (v : Value) : op.eval .null v = none := by
  simp [Comparison.eval]

@[simp] lemma eval_text_integer (op : Comparison) (s : String) (b : ℤ) :
    op.eval (.text s) (.integer b) = some (op.test .gt) := by
  simp [Comparison.eval]

end ModGate.Sql
