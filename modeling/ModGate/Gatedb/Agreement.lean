import ModGate.Gatedb.Leftover

/-! The rows that `lint_database` reports, against the rows that `index_database` iterates on and
updates on the same table. -/

namespace ModGate.Gatedb

open Sql Database Net

structure SelectedAndUpdated (env : IndexEnv) (t : IpTable) (r : IpRow) : Prop where
  selected : ∃ it ∈ (indexDatabase env t).iterations, it.row = r
  updated : r ∉ (indexDatabase env t).table.rows

/-- The update of an earlier row would complete `r` before the cursor gets to it, and `r` would
not be selected then. -/
structure FirstIn (t : IpTable) (ids : List ℤ) (r : IpRow) : Prop where
  mem : r ∈ t.rows
  pending : r.id ∈ ids
  unindexed : Unindexed r
  missed : ∀ p ∈ t.rows, p.id ∈ ids → Unindexed p → p.id < r.id → target p ≠ r.id

def First (t : IpTable) (r : IpRow) : Prop := FirstIn t t.ids r

lemma fatal_iff {t : IpTable} {q : IpRow} : Fatal t q ↔ First t q ∧ Nulls q := by
  constructor
  · intro h
    exact ⟨⟨h.mem, List.mem_map_of_mem h.mem, h.unindexed, fun p hp _ => h.missed p hp⟩, h.nulls⟩
  · rintro ⟨h, hnulls⟩
    exact ⟨h.mem, h.unindexed, hnulls, fun p hp => h.missed p hp (List.mem_map_of_mem hp)⟩

section Scan

variable {env : IndexEnv} {ids pending : List ℤ} {id : ℤ} {n : ℕ} {t : IpTable} {scan : Scan}
  {r m : IpRow}

lemma firstIn_passed (hrow : ∀ r ∈ t.rows, r.id = id → ¬ Unindexed r) :
    FirstIn t (id :: pending) m ↔ FirstIn t pending m := by
  have htail : ∀ p ∈ t.rows, Unindexed p → p.id ∈ id :: pending → p.id ∈ pending := by
    intro p hp hu hid
    exact (List.mem_cons.mp hid).resolve_left fun he => hrow p hp he hu
  constructor
  · intro h
    refine ⟨h.mem, htail m h.mem h.unindexed h.pending, h.unindexed, fun p hp hid => ?_⟩
    exact h.missed p hp (List.mem_cons_of_mem _ hid)
  · intro h
    refine ⟨h.mem, List.mem_cons_of_mem _ h.pending, h.unindexed, fun p hp hid hu => ?_⟩
    exact h.missed p hp (htail p hp hu hid) hu

lemma firstIn_head (hids : (r.id :: pending).Pairwise (· < ·)) (hr : r ∈ t.rows)
    (hu : Unindexed r) : FirstIn t (r.id :: pending) r := by
  refine ⟨hr, List.mem_cons_self, hu, fun p _ hid _ hlt => ?_⟩
  rcases List.mem_cons.mp hid with he | hid
  · omega
  · have hle := (List.pairwise_cons.mp hids).1 p.id hid
    omega

lemma firstIn_iterated (hids : (r.id :: pending).Pairwise (· < ·)) (hr : r ∈ t.rows)
    (hu : Unindexed r) (s e : String) (c : InAddr) :
    FirstIn t (r.id :: pending) m ↔
      m = r ∨ FirstIn (Iteration.apply ⟨r, s, e, c, false⟩ t) pending m := by
  constructor
  · intro h
    rcases List.mem_cons.mp h.pending with he | hm
    · exact Or.inl (t.eq_of_id_eq h.mem hr he)
    · have hlt := (List.pairwise_cons.mp hids).1 m.id hm
      refine Or.inr ⟨Iteration.mem_apply_of_mem h.mem fun htarget => ?_, hm, h.unindexed, ?_⟩
      · exact absurd htarget (h.missed r hr List.mem_cons_self hu hlt)
      · intro p hp hid hpu
        exact h.missed p (Iteration.mem_of_mem_apply hp hpu) (List.mem_cons_of_mem _ hid) hpu
  · rintro (rfl | h)
    · exact firstIn_head hids hr hu
    have hm := Iteration.mem_of_mem_apply h.mem h.unindexed
    refine ⟨hm, List.mem_cons_of_mem _ h.pending, h.unindexed, fun p hp hid hpu hlt htarget => ?_⟩
    rcases List.mem_cons.mp hid with he | hid
    · obtain rfl := t.eq_of_id_eq hp hr he
      rcases (Iteration.mem_apply rfl).mp h.mem with ⟨-, hne⟩ | ⟨q, -, -, rfl⟩
      · exact hne htarget.symm
      · exact absurd h.unindexed (Iteration.setBounds_indexed _ q)
    · refine h.missed p (Iteration.mem_apply_of_mem hp fun hrp => ?_) hid hpu hlt htarget
      -- The update of `r` names `p`, hence so does that of `p`, which names `m`.
      have hself := target_of_target (r := r) hrp
      omega

lemma ScanRun.killed_iff (h : ScanRun env ids n t scan) (hn : env.NoFailure)
    (hids : ids.Pairwise (· < ·)) : scan.killed = true ↔ ∃ q, FirstIn t ids q ∧ Nulls q := by
  induction h with
  | done => simpa using fun q (hq : FirstIn _ [] q) => absurd hq.pending List.not_mem_nil
  | stopped hstep =>
    rw [hn.stepped] at hstep
    cases hstep
  | passed _ hrow _ ih =>
    simp only [firstIn_passed hrow]
    exact ih (List.pairwise_cons.mp hids).2
  | @killed r _ _ _ _ hmem hu hnulls => simpa using ⟨r, firstIn_head hids hmem hu, hnulls⟩
  | @iterated r s e pending n t scan _ hmem hu hs he _ ih =>
    rw [hn.updated] at ih
    simp only [firstIn_iterated hids hmem hu s e (env.ipvalue n)]
    rw [ih (List.pairwise_cons.mp hids).2]
    constructor
    · rintro ⟨q, hq, hnulls⟩
      exact ⟨q, Or.inr hq, hnulls⟩
    · rintro ⟨q, rfl | hq, hnulls⟩
      · simp [Nulls, hs, he] at hnulls
      · exact ⟨q, hq, hnulls⟩

lemma ScanRun.selected_iff (h : ScanRun env ids n t scan) (hn : env.NoFailure)
    (hids : ids.Pairwise (· < ·)) (halive : scan.killed = false) :
    (∃ it ∈ scan.iterations, it.row = m) ↔ FirstIn t ids m := by
  induction h with
  | done => simpa using fun (hm : FirstIn _ [] m) => absurd hm.pending List.not_mem_nil
  | stopped hstep =>
    rw [hn.stepped] at hstep
    cases hstep
  | passed _ hrow _ ih => rw [firstIn_passed hrow, ih (List.pairwise_cons.mp hids).2 halive]
  | killed => cases halive
  | @iterated r s e pending n t scan _ hmem hu _ _ _ ih =>
    rw [hn.updated] at ih
    rw [firstIn_iterated hids hmem hu s e (env.ipvalue n),
      ← ih (List.pairwise_cons.mp hids).2 halive]
    simp only [List.mem_cons, exists_eq_or_imp, eq_comm]

end Scan

section Selection

variable {env : IndexEnv} {t : IpTable} {r : IpRow}

lemma killed_iff_fatal (hn : env.NoFailure) :
    (indexScan env t.ids 0 t).killed = true ↔ ∃ q, Fatal t q := by
  simp only [fatal_iff]
  exact (scanRun env t.ids 0 t).killed_iff hn (ids_increasing t)

lemma updated_iff (hn : env.NoFailure) (halive : (indexScan env t.ids 0 t).killed = false)
    (hr : r ∈ t.rows) (hu : Unindexed r) :
    r ∉ (indexDatabase env t).table.rows ↔ Value.Fits32 r.id := by
  have hleft : r ∈ (indexDatabase env t).table.rows ↔ r ∈ leftovers t := by
    rw [← unindexedRows_indexDatabase hn halive, unindexedRows, List.mem_filter]
    simp [hu]
  rw [hleft, leftovers, List.mem_filter]
  simp [hr, hu, Leftover]

lemma selectedAndUpdated_iff (hn : env.NoFailure) :
    SelectedAndUpdated env t r ↔ (¬ ∃ q, Fatal t q) ∧ First t r ∧ Value.Fits32 r.id := by
  have hiterations : (indexDatabase env t).iterations = (indexScan env t.ids 0 t).iterations := by
    simp [indexDatabase, hn.opened, hn.prepared]
  rw [← killed_iff_fatal hn]
  cases hkilled : (indexScan env t.ids 0 t).killed with
  | true =>
    -- The transaction dies with the process.
    have htable : (indexDatabase env t).table = t := by
      simp [indexDatabase, hn.opened, hn.prepared, hn.begun, hkilled]
    simp only [not_true, false_and, iff_false]
    rintro ⟨⟨it, hit, rfl⟩, hupdated⟩
    rw [hiterations] at hit
    rw [htable] at hupdated
    exact hupdated ((scanRun env t.ids 0 t).iteration_row it hit).1
  | false =>
    have hselected : (∃ it ∈ (indexDatabase env t).iterations, it.row = r) ↔ First t r := by
      rw [hiterations]
      exact (scanRun env t.ids 0 t).selected_iff hn (ids_increasing t) hkilled
    simp only [Bool.false_eq_true, not_false_eq_true, true_and]
    constructor
    · intro h
      have hfirst := hselected.mp h.selected
      exact ⟨hfirst, (updated_iff hn hkilled hfirst.mem hfirst.unindexed).mp h.updated⟩
    · rintro ⟨hfirst, hfits⟩
      exact ⟨hselected.mpr hfirst,
        (updated_iff hn hkilled hfirst.mem hfirst.unindexed).mpr hfits⟩

end Selection

def HasEmptyBound (r : IpRow) : Prop := r.startBound = .text "" ∨ r.endBound = .text ""

lemma lintWhere_iff {r : IpRow} (hs : PlainBound r.startBound) (he : PlainBound r.endBound) :
    lintWhere.Holds r.cells ↔ HasEmptyBound r := by
  rw [lintWhere, holds_or, emptyLength_iff (c := Column.startBound) hs,
    emptyLength_iff (c := Column.endBound) he]
  rfl

lemma mem_reported_iff {lint : LintEnv} (hl : lint.NoFailure) {t : IpTable}
    (hb : ∀ r ∈ t.rows, PlainBound r.startBound ∧ PlainBound r.endBound) {id : ℤ} :
    id ∈ (lintDatabase lint t).reported ↔ ∃ r ∈ t.rows, HasEmptyBound r ∧ target r = id := by
  rw [mem_reported hl]
  constructor
  · rintro ⟨r, hr, hwhere, hid⟩
    exact ⟨r, hr, (lintWhere_iff (hb r hr).1 (hb r hr).2).mp hwhere, hid⟩
  · rintro ⟨r, hr, hempty, hid⟩
    exact ⟨r, hr, (lintWhere_iff (hb r hr).1 (hb r hr).2).mpr hempty, hid⟩

theorem lint_agrees_iff {env : IndexEnv} {lint : LintEnv} (hn : env.NoFailure)
    (hl : lint.NoFailure) (t : IpTable)
    (hb : ∀ r ∈ t.rows, PlainBound r.startBound ∧ PlainBound r.endBound) :
    (∀ id, id ∈ (lintDatabase lint t).reported ↔ ∃ r, SelectedAndUpdated env t r ∧ r.id = id) ↔
      ((∃ q, Fatal t q) → ∀ r ∈ t.rows, ¬ HasEmptyBound r) ∧
      ((¬ ∃ q, Fatal t q) →
        (∀ r ∈ t.rows, HasEmptyBound r → ∃ q, First t q ∧ q.id = target r) ∧
        ∀ q, First t q → Value.Fits32 q.id → ¬ HasEmptyBound q →
          ∃ r ∈ t.rows, HasEmptyBound r ∧ target r = q.id) := by
  simp only [mem_reported_iff hl hb, selectedAndUpdated_iff hn]
  constructor
  · intro h
    refine ⟨fun hfatal r hr hempty => ?_, fun halive => ⟨fun r hr hempty => ?_, ?_⟩⟩
    · obtain ⟨q, ⟨halive, -⟩, -⟩ := (h (target r)).mp ⟨r, hr, hempty, rfl⟩
      exact halive hfatal
    · obtain ⟨q, ⟨-, hq, -⟩, hid⟩ := (h (target r)).mp ⟨r, hr, hempty, rfl⟩
      exact ⟨q, hq, hid⟩
    · intro q hq hfits _
      exact (h q.id).mpr ⟨q, ⟨halive, hq, hfits⟩, rfl⟩
  · rintro ⟨hdead, halive⟩ id
    constructor
    · rintro ⟨r, hr, hempty, rfl⟩
      have hnone : ¬ ∃ q, Fatal t q := fun hfatal => hdead hfatal r hr hempty
      obtain ⟨q, hq, hid⟩ := (halive hnone).1 r hr hempty
      exact ⟨q, ⟨hnone, hq, hid ▸ target_fits32 r⟩, hid⟩
    · rintro ⟨q, ⟨hnone, hq, hfits⟩, rfl⟩
      by_cases hempty : HasEmptyBound q
      · exact ⟨q, hq.mem, hempty, target_eq_id hfits⟩
      · exact (halive hnone).2 q hq hfits hempty

lemma first_oneRow {r m : IpRow} : First (oneRow r) m ↔ m = r ∧ Unindexed r := by
  constructor
  · intro h
    obtain rfl := List.mem_singleton.mp h.mem
    exact ⟨rfl, h.unindexed⟩
  · rintro ⟨rfl, hu⟩
    refine ⟨List.mem_cons_self, List.mem_cons_self, hu, fun p hp _ _ hlt => ?_⟩
    obtain rfl := List.mem_singleton.mp hp
    omega

theorem lint_agrees_on_blank :
    (lintDatabase calmLint (oneRow blankRow)).reported = [1] ∧
      ∀ id, id ∈ (lintDatabase calmLint (oneRow blankRow)).reported ↔
        ∃ r, SelectedAndUpdated calmIndex (oneRow blankRow) r ∧ r.id = id := by
  have hu : Unindexed blankRow := by decide
  refine ⟨by decide, (lint_agrees_iff calmIndex_noFailure calmLint_noFailure (oneRow blankRow)
    ?_).mpr ⟨?_, fun _ => ⟨?_, ?_⟩⟩⟩
  · simp [oneRow, blankRow, PlainBound]
  · rintro ⟨q, hq⟩
    obtain rfl := List.mem_singleton.mp hq.mem
    exact absurd hq.nulls (by simp [Nulls, blankRow])
  · intro r hr _
    obtain rfl := List.mem_singleton.mp hr
    exact ⟨blankRow, first_oneRow.mpr ⟨rfl, hu⟩, by decide⟩
  · intro q hq _ hempty
    obtain ⟨rfl, -⟩ := first_oneRow.mp hq
    exact absurd (Or.inl rfl) hempty

theorem lint_misses_null_bounds :
    let t := oneRow { blankRow with startBound := .null }
    (∀ r ∈ t.rows, PlainBound r.startBound ∧ PlainBound r.endBound) ∧
      (lintDatabase calmLint t).reported = [] ∧
      (indexDatabase calmIndex t).iterations.map (fun it => it.row.id) = [1] ∧
      (indexDatabase calmIndex t).table.rows.map (fun r => (r.startBound, r.endBound)) =
        [(.integer 167772161, .integer 167772161)] ∧
      ¬ ∀ id, id ∈ (lintDatabase calmLint t).reported ↔
        ∃ r, SelectedAndUpdated calmIndex t r ∧ r.id = id := by
  intro t
  have hnone : (lintDatabase calmLint t).reported = [] := by decide
  refine ⟨by simp [t, oneRow, blankRow, PlainBound], hnone, by decide, by decide, fun h => ?_⟩
  have hrow : SelectedAndUpdated calmIndex t { blankRow with startBound := .null } := by
    apply (selectedAndUpdated_iff calmIndex_noFailure).mpr
    refine ⟨?_, first_oneRow.mpr ⟨rfl, by decide⟩, by decide⟩
    rintro ⟨q, hq⟩
    obtain rfl := List.mem_singleton.mp hq.mem
    exact absurd hq.nulls (by simp [Nulls, blankRow])
  have hmem := (h 1).mpr ⟨_, hrow, rfl⟩
  rw [hnone] at hmem
  exact absurd hmem List.not_mem_nil

end ModGate.Gatedb
