import ModGate.Gatedb.Correctness
import ModGate.Gatedb.Scan
import Mathlib.Data.List.Perm.Subperm

/-! What the exit code of `index_database` says about the table: it is 0 after every run that
gets to the end, so a failed statement shows in it only when the database cannot be opened. -/

namespace ModGate.Gatedb

open Sql Database Net

namespace ScanRun

variable {env : IndexEnv} {ids : List ℤ} {n : ℕ} {t : IpTable} {scan : Scan}

lemma rows_sublist (h : ScanRun env ids n t scan) :
    (scan.iterations.map fun it => it.row.id).Sublist ids := by
  induction h with
  | done => exact List.Sublist.refl []
  | stopped => exact List.nil_sublist _
  | passed _ _ _ ih => exact ih.cons _
  | killed => exact List.nil_sublist _
  | iterated _ _ _ _ _ _ ih => exact ih.cons_cons _

lemma answers (h : ScanRun env ids n t scan) {j : ℕ} {it : Iteration}
    (hj : scan.iterations[j]? = some it) :
    env.stepFails (n + j) = false ∧ it.updateFails = env.updateFails (n + j) := by
  induction h generalizing j with
  | done => simp at hj
  | stopped => simp at hj
  | passed _ _ _ ih => exact ih hj
  | killed => simp at hj
  | @iterated r s e pending n t scan hstep _ _ _ _ _ ih =>
    cases j with
    | zero =>
      simp only [List.getElem?_cons_zero, Option.some.injEq] at hj
      subst hj
      exact ⟨hstep, rfl⟩
    | succ j =>
      rw [List.getElem?_cons_succ] at hj
      have hrest := ih hj
      rwa [Nat.add_right_comm n 1 j] at hrest

end ScanRun

def withBounds (r : IpRow) (a b : InAddr) : IpRow :=
  { r with startBound := .integer a.value, endBound := .integer b.value }

def AllUpdated (t after : IpTable) : Prop :=
  ∀ m ∈ indexSelection t, ∃ a b, Names m a b ∧ withBounds m a b ∈ after.rows

section Updated

variable {env : IndexEnv} {t : IpTable} {scan : Scan}

lemma mem_selection {m : IpRow} : m ∈ indexSelection t ↔ m ∈ t.rows ∧ Unindexed m := by
  simp [indexSelection, Unindexed]

lemma ScanRun.updated (h : ScanRun env t.ids 0 t scan) (hall : AllUpdated t scan.table)
    {m : IpRow} (hm : m ∈ indexSelection t) :
    ∃ it ∈ scan.iterations, it.recordId = m.id ∧ it.updateFails = false := by
  obtain ⟨a, b, -, hmem⟩ := hall m hm
  obtain ⟨hmt, hu⟩ := mem_selection.mp hm
  by_contra hnone
  have hkept : m ∈ scan.table.rows := h.mem_table hmt fun it hit hid => by
    by_contra hf
    exact hnone ⟨it, hit, hid, by simpa using hf⟩
  rw [scan.table.eq_of_id_eq hkept hmem rfl] at hu
  exact indexed_of_integers rfl rfl hu

lemma ScanRun.selection_fits32 (h : ScanRun env t.ids 0 t scan) (hall : AllUpdated t scan.table)
    {m : IpRow} (hm : m ∈ indexSelection t) : Value.Fits32 m.id := by
  obtain ⟨it, -, hid, -⟩ := h.updated hall hm
  exact hid ▸ target_fits32 it.row

lemma ScanRun.updated_own (h : ScanRun env t.ids 0 t scan) (hall : AllUpdated t scan.table)
    {m : IpRow} (hm : m ∈ indexSelection t) :
    ∃ it ∈ scan.iterations, it.row = m ∧ it.updateFails = false := by
  obtain ⟨it, hit, hid, hf⟩ := h.updated hall hm
  obtain ⟨hrow, hu, -⟩ := h.iteration_row it hit
  have hown := target_eq_id (h.selection_fits32 hall (mem_selection.mpr ⟨hrow, hu⟩))
  exact ⟨it, hit, t.eq_of_id_eq hrow (mem_selection.mp hm).1 (hown.symm.trans hid), hf⟩

lemma ScanRun.calm (h : ScanRun env t.ids 0 t scan) (hall : AllUpdated t scan.table) :
    ∀ n < (indexSelection t).length, env.stepFails n = false ∧ env.updateFails n = false := by
  have hinj := List.inj_on_of_nodup_map (t.ids_nodup.sublist h.rows_sublist)
  have hlen : (indexSelection t).length ≤ scan.iterations.length := by
    have hsub : indexSelection t ⊆ scan.iterations.map Iteration.row := by
      intro m hm
      obtain ⟨it, hit, rfl, -⟩ := h.updated_own hall hm
      exact List.mem_map_of_mem hit
    have hnodup : (indexSelection t).Nodup := (t.ids_nodup.of_map IpRow.id).filter _
    simpa using (List.subperm_of_subset hnodup hsub).length_le
  intro n hn
  have hget : scan.iterations[n]? = some (scan.iterations[n]) := List.getElem?_eq_getElem _
  obtain ⟨hstep, hupdate⟩ := h.answers hget
  have hmem := List.getElem_mem (l := scan.iterations) (n := n) (by omega)
  obtain ⟨hrow, hu, -⟩ := h.iteration_row _ hmem
  obtain ⟨it, hit, hsame, hf⟩ := h.updated_own hall (mem_selection.mpr ⟨hrow, hu⟩)
  rw [hinj hit hmem (congrArg IpRow.id hsame)] at hf
  rw [Nat.zero_add] at hstep hupdate
  exact ⟨hstep, hupdate ▸ hf⟩

end Updated

end ModGate.Gatedb
