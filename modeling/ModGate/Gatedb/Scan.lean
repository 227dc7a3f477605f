import ModGate.Gatedb.Lint

/-! The loop of `index_database` under any pattern of failures, as a derivation with one rule for
each thing the cursor can do: which rows it iterates on, and which rows the updates reach. -/

namespace ModGate.Gatedb

open Sql Database Net

def Nulls (r : IpRow) : Prop := r.startText = none ∨ r.endText = none

-- The rowid that the UPDATE of an iteration on the row names.
def target (r : IpRow) : ℤ := (Value.integer r.id).columnInt

lemma target_eq_id {r : IpRow} (h : Value.Fits32 r.id) : target r = r.id :=
  (Value.bmod_eq_self_iff r.id).mpr h

lemma target_fits32 (r : IpRow) : Value.Fits32 (target r) := Value.bmod_fits32 r.id

lemma target_of_target {r q : IpRow} (h : target r = q.id) : target q = q.id :=
  target_eq_id (h ▸ target_fits32 r)

inductive ScanRun (env : IndexEnv) : List ℤ → ℕ → IpTable → Scan → Prop
  | done {n : ℕ} {t : IpTable} : ScanRun env [] n t ⟨[], false, t⟩
  | stopped {id : ℤ} {pending : List ℤ} {n : ℕ} {t : IpTable} (hstep : env.stepFails n = true) :
      ScanRun env (id :: pending) n t ⟨[], false, t⟩
  | passed {id : ℤ} {pending : List ℤ} {n : ℕ} {t : IpTable} {scan : Scan}
      (hstep : env.stepFails n = false) (hrow : ∀ r ∈ t.rows, r.id = id → ¬ Unindexed r)
      (hrest : ScanRun env pending n t scan) : ScanRun env (id :: pending) n t scan
  | killed {r : IpRow} {pending : List ℤ} {n : ℕ} {t : IpTable} (hstep : env.stepFails n = false)
      (hmem : r ∈ t.rows) (hu : Unindexed r) (hnulls : Nulls r) :
      ScanRun env (r.id :: pending) n t ⟨[], true, t⟩
  | iterated {r : IpRow} {s e : String} {pending : List ℤ} {n : ℕ} {t : IpTable} {scan : Scan}
      (hstep : env.stepFails n = false) (hmem : r ∈ t.rows) (hu : Unindexed r)
      (hs : r.startText = some s) (he : r.endText = some e)
      (hrest : ScanRun env pending (n + 1)
        (Iteration.apply ⟨r, s, e, env.ipvalue n, env.updateFails n⟩ t) scan) :
      ScanRun env (r.id :: pending) n t
        { scan with
          iterations := ⟨r, s, e, env.ipvalue n, env.updateFails n⟩ :: scan.iterations }

lemma scanRun (env : IndexEnv) (ids : List ℤ) (n : ℕ) (t : IpTable) :
    ScanRun env ids n t (indexScan env ids n t) := by
  induction ids generalizing n t with
  | nil => exact .done
  | cons id pending ih =>
    rw [indexScan]
    split
    · next hstep => exact .stopped hstep
    next hstep =>
    simp only [Bool.not_eq_true] at hstep
    split
    · next hr =>
      refine .passed hstep (fun r hm h => ?_) (ih n t)
      exact absurd h (IpTable.find_eq_none hr r hm)
    next r hr =>
    obtain ⟨hm, rfl⟩ := IpTable.find_eq_some hr
    split
    · next hu =>
      split
      · next s e hs he => exact .iterated hstep hm hu hs he (ih (n + 1) _)
      · next hnot =>
        refine .killed hstep hm hu ?_
        cases hs : r.startText with
        | none => exact Or.inl hs
        | some s =>
          cases he : r.endText with
          | none => exact Or.inr he
          | some e => exact (hnot s e hs he).elim
    · next hu =>
      refine .passed hstep (fun q hq h => ?_) (ih n t)
      rwa [t.eq_of_id_eq hq hm h]

namespace Iteration

variable {it : Iteration} {t : IpTable} {r : IpRow}

lemma setBounds_indexed (it : Iteration) (r : IpRow) : ¬ Unindexed (it.setBounds r) :=
  indexed_of_integers rfl rfl

lemma mem_apply (hf : it.updateFails = false) :
    r ∈ (it.apply t).rows ↔ (r ∈ t.rows ∧ r.id ≠ it.recordId) ∨
      ∃ q ∈ t.rows, q.id = it.recordId ∧ r = it.setBounds q := by
  simp only [apply, hf, Bool.false_eq_true, if_false, IpTable.updateId, rewrite, List.mem_map]
  constructor
  · rintro ⟨q, hq, rfl⟩
    by_cases hid : q.id = it.recordId
    · exact Or.inr ⟨q, hq, hid, by rw [if_pos hid]⟩
    · rw [if_neg hid]
      exact Or.inl ⟨hq, hid⟩
  · rintro (⟨hr, hid⟩ | ⟨q, hq, hid, rfl⟩)
    · exact ⟨r, hr, if_neg hid⟩
    · exact ⟨q, hq, if_pos hid⟩

lemma mem_apply_of_mem (hr : r ∈ t.rows) (h : it.recordId = r.id → it.updateFails = true) :
    r ∈ (it.apply t).rows := by
  by_cases hf : it.updateFails = true
  · simpa only [apply, hf, if_true] using hr
  · exact (mem_apply (by simpa using hf)).mpr (Or.inl ⟨hr, fun hid => hf (h hid.symm)⟩)

lemma mem_of_mem_apply (hr : r ∈ (it.apply t).rows) (hu : Unindexed r) : r ∈ t.rows := by
  by_cases hf : it.updateFails = true
  · simpa only [apply, hf, if_true] using hr
  · rcases (mem_apply (by simpa using hf)).mp hr with h | ⟨q, -, -, rfl⟩
    · exact h.1
    · exact absurd hu (it.setBounds_indexed q)

end Iteration

namespace ScanRun

variable {env : IndexEnv} {ids : List ℤ} {n : ℕ} {t : IpTable} {scan : Scan}

lemma eq_indexScan (h : ScanRun env ids n t scan) : indexScan env ids n t = scan := by
  induction h with
  | done => rfl
  | stopped hstep => simp [indexScan, hstep]
  | @passed id pending n t scan hstep hrow _ ih =>
    rw [indexScan, hstep]
    cases hr : t.find id with
    | none => simpa using ih
    | some r =>
      obtain ⟨hm, hid⟩ := IpTable.find_eq_some hr
      simpa [hrow r hm hid] using ih
  | killed hstep hmem hu hnulls =>
    rw [indexScan, hstep, IpTable.find_of_mem hmem]
    rcases hnulls with hs | he
    · simp [hu, hs]
    · simp [hu, he]
  | iterated hstep hmem hu hs he _ ih =>
    rw [indexScan, hstep, IpTable.find_of_mem hmem]
    simp [hu, hs, he, ih]

lemma iteration_row (h : ScanRun env ids n t scan) :
    ∀ it ∈ scan.iterations, it.row ∈ t.rows ∧ Unindexed it.row ∧
      it.row.startText = some it.startText ∧ it.row.endText = some it.endText := by
  induction h with
  | done => simp
  | stopped => simp
  | passed _ _ _ ih => exact ih
  | killed => simp
  | iterated hstep hmem hu hs he _ ih =>
    intro it hit
    rcases List.mem_cons.mp hit with rfl | hit
    · exact ⟨hmem, hu, hs, he⟩
    · obtain ⟨hrow, hunindexed, htexts⟩ := ih it hit
      exact ⟨Iteration.mem_of_mem_apply hrow hunindexed, hunindexed, htexts⟩

lemma mem_table (h : ScanRun env ids n t scan) {r : IpRow} (hr : r ∈ t.rows)
    (hmiss : ∀ it ∈ scan.iterations, it.recordId = r.id → it.updateFails = true) :
    r ∈ scan.table.rows := by
  induction h with
  | done => exact hr
  | stopped => exact hr
  | passed _ _ _ ih => exact ih hr hmiss
  | killed => exact hr
  | iterated _ _ _ _ _ _ ih =>
    refine ih (Iteration.mem_apply_of_mem hr ?_) fun it hit => ?_
    · exact hmiss _ List.mem_cons_self
    · exact hmiss it (List.mem_cons_of_mem _ hit)

lemma before_nulls (h : ScanRun env ids n t scan) (hids : ids.Pairwise (· < ·)) {q : IpRow}
    (hq : q ∈ t.rows) (hqids : q.id ∈ ids) (hu : Unindexed q) (hnulls : Nulls q)
    (hmiss : ∀ r ∈ t.rows, Unindexed r → r.id < q.id → target r ≠ q.id) :
    ∀ it ∈ scan.iterations, it.row.id < q.id := by
  induction h with
  | done => simp
  | stopped => simp
  | @passed id pending n t scan _ hrow _ ih =>
    rcases List.mem_cons.mp hqids with hid | hqids
    · exact absurd hu (hrow q hq hid)
    · exact ih (List.pairwise_cons.mp hids).2 hq hqids hmiss
  | killed => simp
  | @iterated r s e pending n t scan _ hmem hur hs he _ ih =>
    obtain ⟨hlt, hids⟩ := List.pairwise_cons.mp hids
    rcases List.mem_cons.mp hqids with hid | hqids
    · obtain rfl := t.eq_of_id_eq hq hmem hid
      rcases hnulls with h | h
      · rw [hs] at h
        cases h
      · rw [he] at h
        cases h
    · intro it hit
      rcases List.mem_cons.mp hit with rfl | hit
      · exact hlt q.id hqids
      · refine ih hids (Iteration.mem_apply_of_mem hq fun hid => ?_) hqids ?_ it hit
        · exact absurd hid (hmiss r hmem hur (hlt q.id hqids))
        · intro p hp hpu
          exact hmiss p (Iteration.mem_of_mem_apply hp hpu) hpu

end ScanRun

end ModGate.Gatedb
