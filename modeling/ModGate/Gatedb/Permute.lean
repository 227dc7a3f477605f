import ModGate.Gatedb.Getopt
import ModGate.Containers.Cycles

/-! The exchange of two blocks of the argument vector by `permute_args`. -/

namespace ModGate.Gatedb.Getopt

open Containers

def cells (nargv : List String) (k : ℕ) : Option String := nargv[k]?

lemma swap_length (nargv : List String) (i j : ℕ) : (swap nargv i j).length = nargv.length := by
  unfold swap
  split
  · rw [List.length_set, List.length_set]
  · rfl

lemma cells_swap {nargv : List String} {i j : ℕ} (hi : i < nargv.length) (hj : j < nargv.length) :
    cells (swap nargv i j) = swapped i j (cells nargv) := by
  funext k
  simp only [swap, List.getElem?_eq_getElem hi, List.getElem?_eq_getElem hj, cells, swapped,
    Function.comp_apply]
  rcases eq_or_ne k j with rfl | hkj
  · rw [List.getElem?_set_self (by rwa [List.length_set]), Equiv.swap_apply_right,
      List.getElem?_eq_getElem hi]
  rcases eq_or_ne k i with rfl | hki
  · rw [List.getElem?_set_ne hkj.symm, List.getElem?_set_self hi, Equiv.swap_apply_left,
      List.getElem?_eq_getElem hj]
  · rw [List.getElem?_set_ne hkj.symm, List.getElem?_set_ne hki.symm,
      Equiv.swap_apply_of_ne_of_ne hki hkj]

section Blocks

variable {p a b : ℕ}

lemma permuteCycle_length (q c n pos : ℕ) (nargv : List String) :
    (permuteCycle q a b c n pos nargv).length = nargv.length := by
  induction n generalizing pos nargv with
  | zero => rfl
  | succ n ih => exact (ih _ _).trans (swap_length _ _ _)

lemma cells_permuteCycle {c n x : ℕ} {nargv : List String} (hc : c < nargv.length) (hx : x < a + b)
    (hlen : p + (a + b) ≤ nargv.length) :
    cells (permuteCycle (p + a) a b c n (p + x) nargv) =
      carry (blockNext (p + a) a b) c n (p + x) (cells nargv) := by
  induction n generalizing x nargv with
  | zero => rfl
  | succ n ih =>
    have hnext : blockNext (p + a) a b (p + x) = p + (x + b) % (a + b) := blockNext_add hx
    have hlt : (x + b) % (a + b) < a + b := Nat.mod_lt _ (by omega)
    have hpos : (if p + x ≥ p + a then p + x - a else p + x + b) = p + (x + b) % (a + b) := hnext
    simp only [permuteCycle, carry]
    rw [hpos, hnext, ih (by rwa [swap_length]) hlt (by rwa [swap_length]),
      cells_swap (by omega) hc]

lemma permuteArgs_cells (ha : 0 < a) (hb : 0 < b) {nargv : List String}
    (hlen : p + (a + b) ≤ nargv.length) :
    cells (permuteArgs p (p + a) (p + a + b) nargv) =
      carryAll (blockNext (p + a) a b) ((a + b) / Nat.gcd a b) (blockStarts (p + a) a b)
        (cells nargv) := by
  have hgb : Nat.gcd a b ≤ b := Nat.gcd_le_right a hb
  have hfold : ∀ (is : List ℕ) (nargv : List String), (∀ i ∈ is, i < b) →
      p + (a + b) ≤ nargv.length →
      cells (is.foldl (fun nargv i => permuteCycle (p + a) a b (p + a + i)
          ((a + b) / Nat.gcd a b) (p + a + i) nargv) nargv) =
        carryAll (blockNext (p + a) a b) ((a + b) / Nat.gcd a b) (is.map (p + a + ·))
          (cells nargv) := by
    intro is
    induction is with
    | nil => exact fun _ _ _ => rfl
    | cons i is ih =>
      intro nargv his hlen
      obtain ⟨hi, his⟩ := List.forall_mem_cons.mp his
      rw [List.foldl_cons, ih _ his (by rwa [permuteCycle_length]), Nat.add_assoc p a i,
        cells_permuteCycle (by omega) (by omega) hlen]
      simp only [List.map_cons, carryAll, List.foldl_cons, Nat.add_assoc]
  have hnonopts : p + a - p = a := Nat.add_sub_cancel_left p a
  have hopts : p + a + b - (p + a) = b := Nat.add_sub_cancel_left (p + a) b
  have hall : p + a + b - p = a + b := by omega
  simp only [permuteArgs, hnonopts, hopts, hall]
  refine hfold _ nargv (fun i hi => ?_) hlen
  exact Nat.lt_of_lt_of_le (List.mem_range.mp hi) hgb

end Blocks

lemma permuteArgs_blocks {nonopts opts : List String} (hn : nonopts ≠ []) (ho : opts ≠ [])
    (before after : List String) :
    permuteArgs before.length (before.length + nonopts.length)
        (before.length + nonopts.length + opts.length) (before ++ nonopts ++ opts ++ after) =
      before ++ opts ++ nonopts ++ after := by
  have ha : 0 < nonopts.length := List.length_pos_iff.mpr hn
  have hb : 0 < opts.length := List.length_pos_iff.mpr ho
  have hlen : before.length + (nonopts.length + opts.length) ≤
      (before ++ nonopts ++ opts ++ after).length := by
    simp only [List.length_append]
    omega
  have hcells := permuteArgs_cells ha hb hlen
  obtain ⟨hmoved, hkept⟩ := carryAll_blocks (p := before.length) ha hb
    (cells (before ++ nonopts ++ opts ++ after))
  rw [← hcells] at hmoved hkept
  apply List.ext_getElem?
  intro k
  change cells _ k = _
  by_cases hout : k < before.length ∨ before.length + (nonopts.length + opts.length) ≤ k
  · rw [hkept k hout, cells]
    rcases hout with hk | hk
    · simp only [List.append_assoc, List.getElem?_append_left hk]
    · rw [List.getElem?_append_right (by simp only [List.length_append]; omega),
        List.getElem?_append_right (by simp only [List.length_append]; omega)]
      simp only [List.length_append]
      congr 1
      omega
  obtain ⟨z, rfl⟩ : ∃ z, k = before.length + z := ⟨k - before.length, by omega⟩
  by_cases hz : z < opts.length
  · -- An option comes from behind the words that are not options.
    have hmove := hmoved (nonopts.length + z) (by omega)
    rw [show nonopts.length + z + opts.length = z + (nonopts.length + opts.length) by omega,
      Nat.add_mod_right, Nat.mod_eq_of_lt (by omega)] at hmove
    rw [hmove, cells]
    simp only [List.append_assoc, List.getElem?_append_right (Nat.le_add_right _ _),
      Nat.add_sub_cancel_left, List.getElem?_append_left hz]
  · have hmove := hmoved (z - opts.length) (by omega)
    rw [show z - opts.length + opts.length = z by omega, Nat.mod_eq_of_lt (by omega)] at hmove
    have hlt : z - opts.length < nonopts.length := by omega
    rw [hmove, cells]
    simp only [List.append_assoc, List.getElem?_append_right (Nat.le_add_right _ _),
      Nat.add_sub_cancel_left, List.getElem?_append_right (Nat.le_of_not_lt hz),
      List.getElem?_append_left hlt]

def block (nargv : List String) (first last : ℕ) : List String :=
  (nargv.drop first).take (last - first)

theorem permuteArgs_exchanges_blocks {nargv : List String} {nonoptStart nonoptEnd optEnd : ℕ}
    (hstart : nonoptStart < nonoptEnd) (hend : nonoptEnd < optEnd)
    (hlength : optEnd ≤ nargv.length) :
    permuteArgs nonoptStart nonoptEnd optEnd nargv =
      nargv.take nonoptStart ++ block nargv nonoptEnd optEnd ++
        block nargv nonoptStart nonoptEnd ++ nargv.drop optEnd := by
  have hfirst : (nargv.take nonoptStart).length = nonoptStart := List.length_take_of_le (by omega)
  have hnonopts : (block nargv nonoptStart nonoptEnd).length = nonoptEnd - nonoptStart :=
    List.length_take_of_le (by rw [List.length_drop]; omega)
  have hopts : (block nargv nonoptEnd optEnd).length = optEnd - nonoptEnd :=
    List.length_take_of_le (by rw [List.length_drop]; omega)
  have hsplit : nargv = nargv.take nonoptStart ++ block nargv nonoptStart nonoptEnd ++
      block nargv nonoptEnd optEnd ++ nargv.drop optEnd := by
    have hcut : ∀ {i j : ℕ}, i ≤ j → nargv.take i ++ block nargv i j = nargv.take j := by
      intro i j hij
      rw [block, ← List.take_add, Nat.add_sub_cancel' hij]
    rw [hcut (Nat.le_of_lt hstart), hcut (Nat.le_of_lt hend), List.take_append_drop]
  have hn : block nargv nonoptStart nonoptEnd ≠ [] := by
    apply List.ne_nil_of_length_pos
    omega
  have ho : block nargv nonoptEnd optEnd ≠ [] := by
    apply List.ne_nil_of_length_pos
    omega
  have hexchange := permuteArgs_blocks hn ho (nargv.take nonoptStart) (nargv.drop optEnd)
  rw [← hsplit, hfirst, hnonopts, hopts, Nat.add_sub_cancel' (Nat.le_of_lt hstart),
    Nat.add_sub_cancel' (Nat.le_of_lt hend)] at hexchange
  exact hexchange

theorem six_words_exchanged :
    permuteArgs 1 5 7 ["gatedb", "a", "b", "c", "d", "-v", "1", "e"] =
      ["gatedb", "-v", "1", "a", "b", "c", "d", "e"] :=
  permuteArgs_exchanges_blocks (by decide) (by decide) (by decide)

end ModGate.Gatedb.Getopt
