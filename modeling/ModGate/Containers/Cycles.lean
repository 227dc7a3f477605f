import Mathlib.Dynamics.PeriodicPts.Defs
import Mathlib.Data.Int.GCD
import Mathlib.Data.Nat.ModEq
import Mathlib.Logic.Equiv.Basic
import Mathlib.Tactic.Ring

/-! Moving the contents of cells along the cycles of a map, each cycle by exchanges with its first
cell, and the map whose cycles swapped two neighbouring blocks. -/

namespace ModGate.Containers

open Function

section Carry

variable {ι β : Type*} [DecidableEq ι]

def swapped (i j : ι) (f : ι → β) : ι → β := f ∘ Equiv.swap i j

def carry (next : ι → ι) (c : ι) : ℕ → ι → (ι → β) → ι → β
  | 0, _, f => f
  | n + 1, pos, f => carry next c n (next pos) (swapped (next pos) c f)

def carryAll (next : ι → ι) (n : ℕ) (starts : List ι) (f : ι → β) : ι → β :=
  starts.foldl (fun f c => carry next c n c f) f

variable {next : ι → ι} {c : ι}

lemma carry_last (n : ℕ) (pos : ι) (f : ι → β) :
    carry next c (n + 1) pos f = swapped (next^[n + 1] pos) c (carry next c n pos f) := by
  induction n generalizing pos f with
  | zero => rfl
  | succ n ih =>
    rw [carry, ih]
    rfl

/-- The cells of a cycle after `n` exchanges, fewer than the cycle is long. -/
structure Carried (next : ι → ι) (c : ι) (n : ℕ) (f g : ι → β) : Prop where
  first : g c = f (next^[n] c)
  moved : ∀ k < n, g (next^[k + 1] c) = f (next^[k] c)
  kept : ∀ x, (∀ k ≤ n, next^[k] c ≠ x) → g x = f x

lemma carried {n : ℕ} (hn : n < minimalPeriod next c) (f : ι → β) :
    Carried next c n f (carry next c n c f) := by
  induction n with
  | zero =>
    exact ⟨rfl, fun k hk => absurd hk (Nat.not_lt_zero k), fun _ _ => rfl⟩
  | succ n ih =>
    obtain ⟨hfirst, hmoved, hkept⟩ := ih (by omega)
    have hinj : ∀ k ≤ n, next^[k] c ≠ next^[n + 1] c := by
      intro k hk heq
      rw [iterate_eq_iterate_iff_of_lt_minimalPeriod (by omega) hn] at heq
      omega
    rw [carry_last]
    constructor
    · rw [swapped, comp_apply, Equiv.swap_apply_right, hkept _ hinj]
    · intro k hk
      rcases Nat.lt_succ_iff_lt_or_eq.mp hk with hk | rfl
      · have hc : next^[k + 1] c ≠ c := by
          intro heq
          have hzero : next^[k + 1] c = next^[0] c := heq
          rw [iterate_eq_iterate_iff_of_lt_minimalPeriod (by omega) (by omega)] at hzero
          omega
        rw [swapped, comp_apply, Equiv.swap_apply_of_ne_of_ne (hinj _ (by omega)) hc, hmoved k hk]
      · rw [swapped, comp_apply, Equiv.swap_apply_left, hfirst]
    · intro x hx
      have hc : x ≠ c := (hx 0 (Nat.zero_le _)).symm
      rw [swapped, comp_apply, Equiv.swap_apply_of_ne_of_ne (hx (n + 1) (Nat.le_refl _)).symm hc]
      exact hkept x fun k hk => hx k (by omega)

lemma carry_cycle {n : ℕ} (hn : n = minimalPeriod next c) (hpos : 0 < n) (f : ι → β) :
    (∀ k, carry next c n c f (next^[k + 1] c) = f (next^[k] c)) ∧
      ∀ x, (∀ k, next^[k] c ≠ x) → carry next c n c f x = f x := by
  obtain ⟨m, rfl⟩ := Nat.exists_eq_succ_of_ne_zero (Nat.ne_of_gt hpos)
  have hperiod : next^[m + 1] c = c := by
    rw [show m + 1 = minimalPeriod next c from hn]
    exact iterate_minimalPeriod
  obtain ⟨hfirst, hmoved, hkept⟩ := carried (show m < minimalPeriod next c by omega) f
  have hlast : carry next c m.succ c f = carry next c m c f := by
    rw [carry_last, hperiod, swapped, Equiv.swap_self]
    rfl
  rw [hlast]
  constructor
  · intro k
    have hk : next^[k] c = next^[k % (m + 1)] c := by
      rw [show m + 1 = minimalPeriod next c from hn]
      exact iterate_mod_minimalPeriod_eq.symm
    rw [iterate_succ_apply', hk, ← iterate_succ_apply' next]
    have hlt : k % (m + 1) < m + 1 := Nat.mod_lt _ (Nat.succ_pos m)
    rcases Nat.lt_succ_iff_lt_or_eq.mp hlt with hlt | heq
    · exact hmoved _ hlt
    · rw [heq, hperiod, hfirst]
  · intro x hx
    exact hkept x fun k _ => hx k

/-- Carrying every cycle once moves each content to the next cell. -/
lemma carryAll_moves {n : ℕ} (hpos : 0 < n) {starts : List ι}
    (hn : ∀ c ∈ starts, n = minimalPeriod next c)
    (hapart : starts.Pairwise fun c d => ∀ j k, next^[j] c ≠ next^[k] d) (f : ι → β) :
    (∀ c ∈ starts, ∀ k, carryAll next n starts f (next^[k + 1] c) = f (next^[k] c)) ∧
      ∀ x, (∀ c ∈ starts, ∀ k, next^[k] c ≠ x) → carryAll next n starts f x = f x := by
  induction starts generalizing f with
  | nil => exact ⟨fun c hc => absurd hc List.not_mem_nil, fun _ _ => rfl⟩
  | cons c cs ih =>
    obtain ⟨hc, hcs⟩ := List.forall_mem_cons.mp hn
    obtain ⟨hhead, htail⟩ := List.pairwise_cons.mp hapart
    obtain ⟨hcycle, hother⟩ := carry_cycle hc hpos f
    obtain ⟨hrest, hkept⟩ := ih hcs htail (carry next c n c f)
    constructor
    · intro d hd k
      rcases List.mem_cons.mp hd with rfl | hd
      · exact (hkept _ fun e he j => (hhead e he (k + 1) j).symm).trans (hcycle k)
      · exact (hrest d hd k).trans (hother _ fun j => hhead d hd j k)
    · intro x hx
      obtain ⟨hxc, hxs⟩ := List.forall_mem_cons.mp hx
      exact (hkept x hxs).trans (hother x hxc)

end Carry

/-! The swapped of the `a` cells before `q` with the `b` cells from `q` on. -/

section Blocks

variable {p a b : ℕ}

def blockNext (q a b pos : ℕ) : ℕ := if pos ≥ q then pos - a else pos + b

lemma blockNext_add {y : ℕ} (hy : y < a + b) :
    blockNext (p + a) a b (p + y) = p + (y + b) % (a + b) := by
  rw [blockNext]
  by_cases hge : a ≤ y
  · rw [if_pos (Nat.add_le_add_left hge p), Nat.mod_eq_sub_mod (by omega),
      Nat.mod_eq_of_lt (by omega)]
    omega
  · rw [if_neg (by omega), Nat.mod_eq_of_lt (by omega)]
    omega

lemma blockNext_iterate {x : ℕ} (hx : x < a + b) (k : ℕ) :
    (blockNext (p + a) a b)^[k] (p + x) = p + (x + k * b) % (a + b) := by
  induction k with
  | zero => simp [Nat.mod_eq_of_lt hx]
  | succ k ih =>
    rw [iterate_succ_apply', ih, blockNext_add (Nat.mod_lt _ (by omega)), Nat.mod_add_mod]
    ring_nf

lemma dvd_mul_iff_div_gcd_dvd {n m : ℕ} (hn : 0 < n) (k : ℕ) :
    n ∣ k * m ↔ n / Nat.gcd n m ∣ k := by
  have hg : 0 < Nat.gcd n m := Nat.gcd_pos_of_pos_left m hn
  have hcop : Nat.Coprime (n / Nat.gcd n m) (m / Nat.gcd n m) := Nat.coprime_div_gcd_div_gcd hg
  obtain ⟨n', hn'⟩ := Nat.gcd_dvd_left n m
  obtain ⟨m', hm'⟩ := Nat.gcd_dvd_right n m
  have hdiv : n / Nat.gcd n m = n' := Nat.div_eq_of_eq_mul_right hg hn'
  have hdiv' : m / Nat.gcd n m = m' := Nat.div_eq_of_eq_mul_right hg hm'
  rw [hdiv, hdiv'] at hcop
  rw [hdiv]
  calc n ∣ k * m ↔ Nat.gcd n m * n' ∣ Nat.gcd n m * (k * m') := by
        rw [← hn', Nat.mul_left_comm, ← hm']
    _ ↔ n' ∣ k * m' := Nat.mul_dvd_mul_iff_left hg
    _ ↔ n' ∣ k := Nat.Coprime.dvd_mul_right hcop

lemma blockNext_period (ha : 0 < a) {x : ℕ} (hx : x < a + b) :
    (a + b) / Nat.gcd a b = minimalPeriod (blockNext (p + a) a b) (p + x) := by
  have hperiodic : ∀ k, IsPeriodicPt (blockNext (p + a) a b) k (p + x) ↔
      (a + b) / Nat.gcd a b ∣ k := by
    intro k
    have hmod : (x + k * b) % (a + b) = x ↔ a + b ∣ k * b := by
      have hself : x % (a + b) = x := Nat.mod_eq_of_lt hx
      constructor
      · intro h
        have hdvd := (Nat.modEq_iff_dvd' (Nat.le_add_right x (k * b))).mp (hself.trans h.symm)
        rwa [Nat.add_sub_cancel_left] at hdvd
      · intro h
        rw [Nat.add_mod, Nat.mod_eq_zero_of_dvd h, Nat.add_zero, Nat.mod_mod, hself]
    rw [IsPeriodicPt, IsFixedPt, blockNext_iterate hx, Nat.add_left_cancel_iff, hmod,
      dvd_mul_iff_div_gcd_dvd (by omega), Nat.gcd_add_self_left]
  apply Nat.dvd_antisymm
  · exact (hperiodic _).mp (isPeriodicPt_minimalPeriod _ _)
  · exact isPeriodicPt_iff_minimalPeriod_dvd.mp ((hperiodic _).mpr (Nat.dvd_refl _))

lemma blockNext_residue {i : ℕ} (hi : i < Nat.gcd a b) (hb : 0 < b) (k : ℕ) :
    ∃ y, (blockNext (p + a) a b)^[k] (p + (a + i)) = p + y ∧ y % Nat.gcd a b = i := by
  have hgb : Nat.gcd a b ≤ b := Nat.gcd_le_right a hb
  refine ⟨_, blockNext_iterate (by omega) k, ?_⟩
  obtain ⟨a', ha'⟩ := Nat.gcd_dvd_left a b
  obtain ⟨b', hb'⟩ := Nat.gcd_dvd_right a b
  rw [Nat.mod_mod_of_dvd _ (Nat.dvd_add (Nat.gcd_dvd_left a b) (Nat.gcd_dvd_right a b))]
  have hsum : a + i + k * b = i + Nat.gcd a b * (a' + k * b') := by
    calc a + i + k * b = i + (a + k * b) := by ring
      _ = i + (Nat.gcd a b * a' + k * (Nat.gcd a b * b')) := by rw [← ha', ← hb']
      _ = i + Nat.gcd a b * (a' + k * b') := by ring
  rw [hsum, Nat.add_mul_mod_self_left, Nat.mod_eq_of_lt hi]

lemma blockNext_reaches (ha : 0 < a) (hb : 0 < b) {y : ℕ} (hy : y < a + b) :
    ∃ i < Nat.gcd a b, ∃ k, (blockNext (p + a) a b)^[k] (p + (a + i)) = p + y := by
  have hg : 0 < Nat.gcd a b := Nat.gcd_pos_of_pos_left b ha
  have hgb : Nat.gcd a b ≤ b := Nat.gcd_le_right a hb
  have hi : y % Nat.gcd a b < Nat.gcd a b := Nat.mod_lt y hg
  have hgcd : Nat.gcd b (a + b) = Nat.gcd a b := by rw [Nat.gcd_add_self_right, Nat.gcd_comm]
  obtain ⟨m, -, hm⟩ := Nat.exists_mul_mod_eq_gcd (show Nat.gcd b (a + b) < a + b by omega)
  rw [hgcd] at hm
  obtain ⟨t, ht⟩ : Nat.gcd a b ∣ y - y % Nat.gcd a b + b :=
    Nat.dvd_add (Nat.dvd_sub_mod y) (Nat.gcd_dvd_right a b)
  have hle : y % Nat.gcd a b ≤ y := Nat.mod_le y _
  refine ⟨y % Nat.gcd a b, hi, t * m, ?_⟩
  have hcong : t * m * b % (a + b) = t * Nat.gcd a b % (a + b) := by
    rw [Nat.mul_assoc, Nat.mul_comm m b, Nat.mul_mod, hm, Nat.mod_mul_mod]
  have hvalue : a + y % Nat.gcd a b + t * Nat.gcd a b = y + (a + b) := by
    rw [Nat.mul_comm t, ← ht]
    omega
  rw [blockNext_iterate (by omega), Nat.add_mod, hcong, ← Nat.add_mod, hvalue, Nat.add_mod_right,
    Nat.mod_eq_of_lt hy]

def blockStarts (q a b : ℕ) : List ℕ := (List.range (Nat.gcd a b)).map (q + ·)

/-- The cycles of `blockNext` swapped the two blocks and leave every other cell. -/
lemma carryAll_blocks {β : Type*} (ha : 0 < a) (hb : 0 < b) (f : ℕ → β) :
    let g := carryAll (blockNext (p + a) a b) ((a + b) / Nat.gcd a b) (blockStarts (p + a) a b) f
    (∀ y < a + b, g (p + (y + b) % (a + b)) = f (p + y)) ∧
      ∀ x, x < p ∨ p + (a + b) ≤ x → g x = f x := by
  have hgb : Nat.gcd a b ≤ b := Nat.gcd_le_right a hb
  have hmem : ∀ c ∈ blockStarts (p + a) a b, ∃ i < Nat.gcd a b, c = p + (a + i) := by
    intro c hc
    obtain ⟨i, hi, rfl⟩ := List.mem_map.mp hc
    exact ⟨i, List.mem_range.mp hi, Nat.add_assoc p a i⟩
  have hpos : 0 < (a + b) / Nat.gcd a b :=
    Nat.div_pos (by omega) (Nat.gcd_pos_of_pos_left b ha)
  have hperiod : ∀ c ∈ blockStarts (p + a) a b,
      (a + b) / Nat.gcd a b = minimalPeriod (blockNext (p + a) a b) c := by
    intro c hc
    obtain ⟨i, hi, rfl⟩ := hmem c hc
    exact blockNext_period ha (by omega)
  have hapart : (blockStarts (p + a) a b).Pairwise fun c d =>
      ∀ j k, (blockNext (p + a) a b)^[j] c ≠ (blockNext (p + a) a b)^[k] d := by
    refine List.pairwise_map.mpr (List.nodup_range.imp_of_mem ?_)
    intro i i' hi hi' hne j k heq
    obtain ⟨y, hy, hres⟩ := blockNext_residue (p := p) (List.mem_range.mp hi) hb j
    obtain ⟨y', hy', hres'⟩ := blockNext_residue (p := p) (List.mem_range.mp hi') hb k
    rw [← Nat.add_assoc] at hy hy'
    have hyy : y = y' := Nat.add_left_cancel (hy.symm.trans (heq.trans hy'))
    exact hne (hres.symm.trans ((congrArg (· % Nat.gcd a b) hyy).trans hres'))
  obtain ⟨hmoved, hkept⟩ := carryAll_moves hpos hperiod hapart f
  constructor
  · intro y hy
    obtain ⟨i, hi, k, hk⟩ := blockNext_reaches (p := p) ha hb hy
    have hmem : p + (a + i) ∈ blockStarts (p + a) a b :=
      List.mem_map.mpr ⟨i, List.mem_range.mpr hi, Nat.add_assoc p a i⟩
    have hmove := hmoved _ hmem k
    rw [iterate_succ_apply', hk, blockNext_add hy] at hmove
    exact hmove
  · intro x hx
    apply hkept
    intro c hc k heq
    obtain ⟨i, hi, rfl⟩ := hmem c hc
    rw [blockNext_iterate (by omega)] at heq
    have hlt : (a + i + k * b) % (a + b) < a + b := Nat.mod_lt _ (by omega)
    omega

end Blocks

end ModGate.Containers
