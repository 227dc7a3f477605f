import Mathlib.Data.List.Basic
import Mathlib.Data.List.TakeWhile
import Mathlib.Tactic.Common

/-! The search for the end of an initial run by halving. -/

namespace ModGate.Search

/-- The loop on the positions from `ret` on, `count` in number. The first argument bounds its turns;
`count` of them are enough. -/
def upperBound (reached : ℕ → Bool) : ℕ → ℕ → ℕ → ℕ
  | 0, ret, _ => ret
  | fuel + 1, ret, count =>
    if count = 0 then ret
    else
      let step := count / 2
      if reached (ret + step) then upperBound reached fuel (ret + step + 1) (count - (step + 1))
      else upperBound reached fuel ret step

variable {reached : ℕ → Bool}

/-- `k` parts the positions from `ret` to `ret + count` into the reached ones and the others. -/
structure Parts (reached : ℕ → Bool) (ret count k : ℕ) : Prop where
  lower : ret ≤ k
  upper : k ≤ ret + count
  before : ∀ i, ret ≤ i → i < k → reached i = true
  after : ∀ i, k ≤ i → i < ret + count → reached i = false

lemma upperBound_parts {fuel ret count : ℕ} (hfuel : count ≤ fuel)
    (hinitial : ∀ i j, ret ≤ i → i ≤ j → j < ret + count → reached j = true → reached i = true) :
    Parts reached ret count (upperBound reached fuel ret count) := by
  induction fuel generalizing ret count with
  | zero =>
    obtain rfl : count = 0 := Nat.le_zero.mp hfuel
    exact ⟨Nat.le_refl _, Nat.le_add_right _ _, fun i hle hlt => absurd hlt (Nat.not_lt.mpr hle),
      fun i hle hlt => absurd hlt (Nat.not_lt.mpr hle)⟩
  | succ fuel ih =>
    rw [upperBound]
    by_cases hzero : count = 0
    · rw [if_pos hzero]
      subst hzero
      exact ⟨Nat.le_refl _, Nat.le_add_right _ _, fun i hle hlt => absurd hlt (Nat.not_lt.mpr hle),
        fun i hle hlt => absurd hlt (Nat.not_lt.mpr hle)⟩
    · rw [if_neg hzero]
      dsimp only
      have hstep : count / 2 < count := Nat.div_lt_self (by omega) (by decide)
      cases hmiddle : reached (ret + count / 2) with
      | true =>
        rw [if_pos rfl]
        obtain ⟨hlower, hupper, hbefore, hafter⟩ := @ih (ret + count / 2 + 1)
          (count - (count / 2 + 1)) (by omega)
          (fun i j hi hij hj => hinitial i j (by omega) hij (by omega))
        refine ⟨by omega, by omega, fun i hi hik => ?_, fun i hki hi => hafter i hki (by omega)⟩
        by_cases hleft : i ≤ ret + count / 2
        · exact hinitial i (ret + count / 2) hi hleft (by omega) hmiddle
        · exact hbefore i (by omega) hik
      | false =>
        rw [if_neg Bool.false_ne_true]
        obtain ⟨hlower, hupper, hbefore, hafter⟩ := @ih ret (count / 2) (by omega)
          (fun i j hi hij hj => hinitial i j hi hij (by omega))
        refine ⟨hlower, by omega, hbefore, fun i hki hi => ?_⟩
        by_cases hleft : i < ret + count / 2
        · exact hafter i hki hleft
        · by_contra hreached
          have hreached : reached i = true := by simpa using hreached
          have hcontra := hinitial (ret + count / 2) i (by omega) (by omega) hi hreached
          rw [hmiddle] at hcontra
          cases hcontra

/-! The same search in a list that is sorted by a key. -/

variable {α : Type*} (key : α → ℕ)

/-- The last entry whose key is at most `x`. The result is `none` when the loop ends in front of the
list. -/
def lastReached (l : List α) (x : ℕ) : Option α :=
  match upperBound (fun i => l[i]?.any fun a => key a ≤ x) l.length 0 l.length with
  | 0 => none
  | k + 1 => l[k]?

variable {key}

lemma reached_initial {l : List α} (hsorted : l.Pairwise fun a b => key a ≤ key b) (x : ℕ) :
    ∀ i j, 0 ≤ i → i ≤ j → j < 0 + l.length → (l[j]?.any fun a => key a ≤ x) = true →
      (l[i]?.any fun a => key a ≤ x) = true := by
  intro i j _ hij hj hreached
  rw [Nat.zero_add] at hj
  have hi : i < l.length := by omega
  rw [List.getElem?_eq_getElem hj] at hreached
  rw [List.getElem?_eq_getElem hi]
  have hle : key (l[j]) ≤ x := by simpa using hreached
  have hkeys : key (l[i]) ≤ key (l[j]) := by
    rcases Nat.eq_or_lt_of_le hij with rfl | hlt
    · exact Nat.le_refl _
    · exact List.pairwise_iff_getElem.mp hsorted i j hi hj hlt
  simpa using Nat.le_trans hkeys hle

lemma lastReached_parts {l : List α} (hsorted : l.Pairwise fun a b => key a ≤ key b) (x : ℕ) :
    Parts (fun i => l[i]?.any fun a => key a ≤ x) 0 l.length
      (upperBound (fun i => l[i]?.any fun a => key a ≤ x) l.length 0 l.length) :=
  upperBound_parts (Nat.le_refl _) (reached_initial hsorted x)

lemma lastReached_eq_some {before after : List α} {a : α} {x : ℕ}
    (hsorted : (before ++ a :: after).Pairwise fun a b => key a ≤ key b) (ha : key a ≤ x)
    (hafter : ∀ b ∈ after, x < key b) : lastReached key (before ++ a :: after) x = some a := by
  have hparts := lastReached_parts hsorted x
  have hat : (before ++ a :: after)[before.length]? = some a := by
    rw [List.getElem?_append_right (Nat.le_refl _), Nat.sub_self, List.getElem?_cons_zero]
  have hnext : (before ++ a :: after)[before.length + 1]? = after[0]? := by
    rw [List.getElem?_append_right (Nat.le_add_right _ 1), Nat.add_sub_cancel_left,
      List.getElem?_cons_succ]
  unfold lastReached
  generalize upperBound _ _ _ _ = k at hparts
  have hlength : (before ++ a :: after).length = before.length + 1 + after.length := by
    rw [List.length_append, List.length_cons, Nat.add_assoc, Nat.add_comm 1]
  have hlower : before.length < k := by
    by_contra hle
    have hfalse := hparts.after before.length (by omega) (by omega)
    simp [ha] at hfalse
  have hupper : k ≤ before.length + 1 := by
    by_contra hlt
    have htrue := hparts.before (before.length + 1) (Nat.zero_le _) (by omega)
    rw [hnext] at htrue
    cases after with
    | nil => cases htrue
    | cons b after =>
      have hle : key b ≤ x := by simpa using htrue
      exact absurd (hafter b List.mem_cons_self) (Nat.not_lt.mpr hle)
  obtain rfl : k = before.length + 1 := by omega
  exact hat

lemma lastReached_eq_none {l : List α} {x : ℕ}
    (hsorted : l.Pairwise fun a b => key a ≤ key b) (h : ∀ a ∈ l, x < key a) :
    lastReached key l x = none := by
  have hparts := lastReached_parts hsorted x
  unfold lastReached
  generalize upperBound _ _ _ _ = k at hparts
  cases k with
  | zero => rfl
  | succ k =>
    have hk : k < l.length := by
      have hupper := hparts.upper
      omega
    have htrue := hparts.before k (Nat.zero_le _) (Nat.lt_succ_self k)
    rw [List.getElem?_eq_getElem hk] at htrue
    have hle : key (l[k]) ≤ x := by simpa using htrue
    exact absurd (h _ (List.getElem_mem hk)) (Nat.not_lt.mpr hle)

lemma lastReached_eq {l : List α} (hsorted : l.Pairwise fun a b => key a ≤ key b) (x : ℕ) :
    lastReached key l x = (l.takeWhile fun a => key a ≤ x).getLast? := by
  have hl : (l.takeWhile fun a => key a ≤ x) ++ (l.dropWhile fun a => key a ≤ x) = l :=
    List.takeWhile_append_dropWhile
  have hrest : ∀ b ∈ l.dropWhile fun a => key a ≤ x, x < key b := by
    intro b hb
    have hdrop := hsorted.sublist (List.dropWhile_sublist fun a => decide (key a ≤ x))
    cases hcons : l.dropWhile fun a => key a ≤ x with
    | nil =>
      rw [hcons] at hb
      cases hb
    | cons c rest =>
      have hc : ¬ key c ≤ x := by
        have hhead := List.head?_dropWhile_not (fun a => decide (key a ≤ x)) l
        rw [hcons] at hhead
        simpa using hhead
      rw [hcons] at hb hdrop
      rcases List.mem_cons.mp hb with rfl | hb
      · exact Nat.not_le.mp hc
      · have hle := (List.pairwise_cons.mp hdrop).1 b hb
        omega
  rcases List.eq_nil_or_concat' (l.takeWhile fun a => key a ≤ x) with hnil | ⟨before, a, hconcat⟩
  · rw [hnil, List.nil_append] at hl
    rw [hnil, List.getLast?_nil]
    exact lastReached_eq_none hsorted (hl ▸ hrest)
  · have ha : key a ≤ x := by
      have hmem : a ∈ l.takeWhile fun a => key a ≤ x := by simp [hconcat]
      simpa using List.mem_takeWhile_imp hmem
    rw [hconcat, List.getLast?_concat]
    rw [hconcat, List.append_assoc, List.singleton_append] at hl
    have hsplit := congrArg (fun l => lastReached key l x) hl
    rw [← hsplit]
    exact lastReached_eq_some (hl.symm ▸ hsorted) ha hrest

end ModGate.Search
