import Mathlib.Data.Fin.Basic
import Mathlib.Tactic.Ring

/-! Dotted-quad addresses: the scanner of `inet_pton`, the four octets it stores, and the
integer that `htonl` makes of them on a little-endian host. -/

namespace ModGate.Net

structure InAddr where
  first : Fin 256
  second : Fin 256
  third : Fin 256
  fourth : Fin 256
deriving DecidableEq

namespace InAddr

-- The field `s_addr` as a little-endian host reads it.
def sAddr (a : InAddr) : ℕ :=
  a.first + 2 ^ 8 * a.second + 2 ^ 16 * a.third + 2 ^ 24 * a.fourth

def value (a : InAddr) : ℕ :=
  2 ^ 24 * a.first + 2 ^ 16 * a.second + 2 ^ 8 * a.third + a.fourth

-- `INADDR_ANY`.
def any : InAddr := ⟨0, 0, 0, 0⟩

def octets (a : InAddr) : List (Fin 256) := [a.first, a.second, a.third, a.fourth]

lemma value_lt_iff (a b : InAddr) : a.value < b.value ↔ a.octets < b.octets := by
  have ha₂ := a.second.isLt
  have ha₃ := a.third.isLt
  have ha₄ := a.fourth.isLt
  have hb₂ := b.second.isLt
  have hb₃ := b.third.isLt
  have hb₄ := b.fourth.isLt
  simp only [octets, List.cons_lt_cons_iff, List.not_lt_nil, and_false, or_false, Fin.lt_def,
    Fin.ext_iff, value]
  omega

lemma eq_of_value {a b : InAddr} (h : a.value = b.value) : a = b := by
  obtain ⟨a₁, a₂, a₃, a₄⟩ := a
  obtain ⟨b₁, b₂, b₃, b₄⟩ := b
  have ha₂ := a₂.isLt
  have ha₃ := a₃.isLt
  have ha₄ := a₄.isLt
  have hb₂ := b₂.isLt
  have hb₃ := b₃.isLt
  have hb₄ := b₄.isLt
  simp only [value] at h
  simp only [InAddr.mk.injEq, Fin.ext_iff]
  omega

end InAddr

def htonl (x : ℕ) : ℕ :=
  2 ^ 24 * (x % 2 ^ 8) + 2 ^ 16 * (x / 2 ^ 8 % 2 ^ 8) + 2 ^ 8 * (x / 2 ^ 16 % 2 ^ 8) +
    x / 2 ^ 24 % 2 ^ 8

@[simp] lemma htonl_sAddr (a : InAddr) : htonl a.sAddr = a.value := by
  have h₁ := a.first.isLt
  have h₂ := a.second.isLt
  have h₃ := a.third.isLt
  have h₄ := a.fourth.isLt
  simp only [htonl, InAddr.sAddr, InAddr.value]
  omega

/-- The scanner keeps the completed octets and the current one; `none` stands for no digit yet.
A second digit after a leading zero, a value above 255 and a fifth octet are refused. -/
def scanQuad : List Char → List (Fin 256) → Option (Fin 256) → Option InAddr
  | [], [a, b, c], some d => some ⟨a, b, c, d⟩
  | [], _, _ => none
  | ch :: cs, done, cur =>
    if '0' ≤ ch ∧ ch ≤ '9' then
      let digit := ch.toNat - '0'.toNat
      match cur with
      | none => if done.length < 4 then scanQuad cs done (some (Fin.ofNat 256 digit)) else none
      | some v =>
        if v.val = 0 ∨ 255 < 10 * v.val + digit then none
        else scanQuad cs done (some (Fin.ofNat 256 (10 * v.val + digit)))
    else if ch = '.' then
      match cur with
      | none => none
      | some v => if done.length = 3 then none else scanQuad cs (done ++ [v]) none
    else none

def inetPton (src : String) : Option InAddr := scanQuad src.toList [] none

end ModGate.Net
