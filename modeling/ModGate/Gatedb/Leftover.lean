import ModGate.Gatedb.Frame

/-! What any number of runs of `index_database` leaves without bounds, and `lint_database` then
reports: the rows whose rowid does not fit the 32-bit reader, whatever their texts and bounds
are. -/

namespace ModGate.Gatedb

open Sql Database Net

def Leftover (r : IpRow) : Prop := Unindexed r ∧ ¬ Value.Fits32 r.id

instance (r : IpRow) : Decidable (Leftover r) := inferInstanceAs (Decidable (_ ∧ _))

def leftovers (t : IpTable) : List IpRow := t.rows.filter fun r => Leftover r

def unindexedRows (t : IpTable) : List IpRow := t.rows.filter fun r => Unindexed r

def indexRuns (envs : List IndexEnv) (t : IpTable) : IpTable :=
  envs.foldl (fun t env => (indexDatabase env t).table) t

section Scan

variable {env : IndexEnv} {ids : List ℤ} {n : ℕ} {t : IpTable} {scan : Scan}

-- An update names a rowid that fits, so it reaches no leftover and makes none.
lemma leftovers_apply (it : Iteration) (t : IpTable) : leftovers (it.apply t) = leftovers t := by
  rw [Iteration.apply]
  split
  · rfl
  · have hfits : Value.Fits32 it.recordId := Value.bmod_fits32 _
    change (t.rows.map fun r => if r.id = it.recordId then it.setBounds r else r).filter _ = _
    rw [leftovers]
    induction t.rows with
    | nil => rfl
    | cons r rows ih =>
      rw [List.map_cons]
      by_cases hid : r.id = it.recordId
      · have hset : ¬ Leftover (it.setBounds r) := fun h => it.setBounds_indexed r h.1
        have hrow : ¬ Leftover r := fun h => h.2 (hid ▸ hfits)
        rw [if_pos hid, List.filter_cons_of_neg (by simpa using hset), ih,
          List.filter_cons_of_neg (by simpa using hrow)]
      · rw [if_neg hid, List.filter_cons, List.filter_cons, ih]

lemma pending_apply {r : IpRow} {s e : String} {c : InAddr} {pending : List ℤ}
    (hr : r ∈ t.rows)
    (hpending : ∀ q ∈ t.rows, Unindexed q → Value.Fits32 q.id → q.id ∈ r.id :: pending) :
    ∀ q ∈ (Iteration.apply ⟨r, s, e, c, false⟩ t).rows, Unindexed q → Value.Fits32 q.id →
      q.id ∈ pending := by
  intro q hq hu hfits
  rcases (Iteration.mem_apply rfl).mp hq with ⟨hqt, hne⟩ | ⟨p, -, -, rfl⟩
  · refine (List.mem_cons.mp (hpending q hqt hu hfits)).resolve_left fun hid => hne ?_
    obtain rfl := t.eq_of_id_eq hqt hr hid
    exact (target_eq_id hfits).symm
  · exact absurd hu (Iteration.setBounds_indexed _ p)

lemma ScanRun.leftovers (h : ScanRun env ids n t scan) (hn : env.NoFailure)
    (halive : scan.killed = false)
    (hpending : ∀ r ∈ t.rows, Unindexed r → Value.Fits32 r.id → r.id ∈ ids) :
    unindexedRows scan.table = Gatedb.leftovers t := by
  induction h with
  | @done n t =>
    apply List.filter_congr
    intro r hr
    apply decide_eq_decide.mpr
    exact ⟨fun hu => ⟨hu, fun hfits => List.not_mem_nil (hpending r hr hu hfits)⟩, And.left⟩
  | stopped hstep =>
    rw [hn.stepped] at hstep
    cases hstep
  | passed _ hrow _ ih =>
    apply ih halive
    intro r hr hu hfits
    exact (List.mem_cons.mp (hpending r hr hu hfits)).resolve_left fun hid => hrow r hr hid hu
  | killed => cases halive
  | @iterated r s e pending n t scan _ hmem _ _ _ _ ih =>
    rw [hn.updated] at ih
    rw [← leftovers_apply ⟨r, s, e, env.ipvalue n, false⟩ t]
    exact ih halive (pending_apply hmem hpending)

lemma ScanRun.leftover_texts (h : ScanRun env ids n t scan) (hn : env.NoFailure)
    (halive : scan.killed = false) {r : IpRow} (hr : r ∈ t.rows) (hleft : Leftover r)
    (hid : r.id ∈ ids) : ¬ Nulls r := by
  induction h with
  | done => cases hid
  | stopped hstep =>
    rw [hn.stepped] at hstep
    cases hstep
  | passed _ hrow _ ih =>
    rcases List.mem_cons.mp hid with hid | hid
    · exact absurd hleft.1 (hrow r hr hid)
    · exact ih halive hr hid
  | killed => cases halive
  | @iterated m s e pending n t scan _ hmem _ hs he _ ih =>
    rcases List.mem_cons.mp hid with hid | hid
    · obtain rfl := t.eq_of_id_eq hr hmem hid
      rintro (hnull | hnull)
      · rw [hs] at hnull
        cases hnull
      · rw [he] at hnull
        cases hnull
    · refine ih halive (Iteration.mem_apply_of_mem hr fun htarget => ?_) hid
      exact absurd (htarget ▸ target_fits32 m) hleft.2

lemma ScanRun.alive (h : ScanRun env ids n t scan)
    (htexts : ∀ r ∈ t.rows, Unindexed r → ¬ Nulls r) : scan.killed = false := by
  induction h with
  | done => rfl
  | stopped => rfl
  | passed _ _ _ ih => exact ih htexts
  | killed _ hmem hu hnulls => exact absurd hnulls (htexts _ hmem hu)
  | iterated _ _ _ _ _ _ ih =>
    exact ih fun r hr hu => htexts r (Iteration.mem_of_mem_apply hr hu) hu

end Scan

section Runs

variable {env : IndexEnv} {t : IpTable}

lemma indexDatabase_calm (hn : env.NoFailure)
    (halive : (indexScan env t.ids 0 t).killed = false) :
    (indexDatabase env t).exit = some 0 ∧
      (indexDatabase env t).table = (indexScan env t.ids 0 t).table := by
  simp [indexDatabase, hn.opened, hn.prepared, hn.begun, hn.committed, halive]

lemma alive_of_exit (hn : env.NoFailure) (hexit : (indexDatabase env t).exit = some 0) :
    (indexScan env t.ids 0 t).killed = false := by
  cases hkilled : (indexScan env t.ids 0 t).killed with
  | false => rfl
  | true => simp [indexDatabase, hn.opened, hn.prepared, hkilled] at hexit

lemma unindexedRows_indexDatabase (hn : env.NoFailure)
    (halive : (indexScan env t.ids 0 t).killed = false) :
    unindexedRows (indexDatabase env t).table = leftovers t := by
  rw [(indexDatabase_calm hn halive).2]
  exact (scanRun env t.ids 0 t).leftovers hn halive fun r hr _ _ => List.mem_map_of_mem hr

lemma leftovers_of_unindexedRows {u : IpTable} (h : unindexedRows u = leftovers t) :
    leftovers u = leftovers t := by
  have hsplit : ∀ w : IpTable,
      leftovers w = (unindexedRows w).filter fun r => ¬ Value.Fits32 r.id := by
    intro w
    rw [leftovers, unindexedRows, List.filter_filter]
    apply List.filter_congr
    intro r _
    rw [← Bool.decide_and]
    exact decide_eq_decide.mpr and_comm
  rw [hsplit, h, leftovers, List.filter_filter]
  apply List.filter_congr
  intro r _
  rw [← Bool.decide_and]
  exact decide_eq_decide.mpr ⟨And.right, fun hr => ⟨hr.2, hr⟩⟩

structure Settled (t u : IpTable) : Prop where
  rows : unindexedRows u = leftovers t
  texts : ∀ r ∈ u.rows, Unindexed r → ¬ Nulls r

lemma settled_first (hn : env.NoFailure) (hexit : (indexDatabase env t).exit = some 0) :
    Settled t (indexDatabase env t).table := by
  have halive := alive_of_exit hn hexit
  have hrows := unindexedRows_indexDatabase hn halive
  refine ⟨hrows, fun r hr hu => ?_⟩
  have hmem : r ∈ leftovers t := by
    rw [← hrows]
    exact List.mem_filter.mpr ⟨hr, by simpa using hu⟩
  obtain ⟨hrt, hleft⟩ := List.mem_filter.mp hmem
  exact (scanRun env t.ids 0 t).leftover_texts hn halive hrt (by simpa using hleft)
    (List.mem_map_of_mem hrt)

lemma Settled.next {u : IpTable} (h : Settled t u) (hn : env.NoFailure) :
    Settled t (indexDatabase env u).table := by
  have halive := (scanRun env u.ids 0 u).alive h.texts
  obtain ⟨hrows, htexts⟩ := settled_first hn (indexDatabase_calm hn halive).1
  exact ⟨hrows.trans (leftovers_of_unindexedRows h.rows), htexts⟩

lemma Settled.runs {u : IpTable} (h : Settled t u) {envs : List IndexEnv}
    (hn : ∀ env ∈ envs, env.NoFailure) : Settled t (indexRuns envs u) := by
  induction envs generalizing u with
  | nil => exact h
  | cons env envs ih =>
    obtain ⟨henv, henvs⟩ := List.forall_mem_cons.mp hn
    exact ih (h.next henv) henvs

end Runs

theorem leftovers_after_runs {t : IpTable} {env : IndexEnv} {envs : List IndexEnv}
    (hn : ∀ e ∈ env :: envs, e.NoFailure) (hexit : (indexDatabase env t).exit = some 0)
    {lint : LintEnv} (hl : lint.NoFailure) :
    unindexedRows (indexRuns (env :: envs) t) = leftovers t ∧
      (lintDatabase lint (indexRuns (env :: envs) t)).reported =
        ((leftovers t).filter fun r => lintWhere.Holds r.cells).map target := by
  obtain ⟨henv, henvs⟩ := List.forall_mem_cons.mp hn
  have hsettled : Settled t (indexRuns (env :: envs) t) := (settled_first henv hexit).runs henvs
  refine ⟨hsettled.rows, ?_⟩
  have hselect : ∀ u : IpTable, select IpRow.cells lintWhere u.rows =
      (unindexedRows u).filter fun r => lintWhere.Holds r.cells := by
    intro u
    rw [unindexedRows, List.filter_filter]
    apply List.filter_congr
    intro r _
    rw [← Bool.decide_and]
    exact decide_eq_decide.mpr ⟨fun hr => ⟨hr, lintWhere_unindexed hr⟩, And.left⟩
  simp only [lintDatabase, hl.opened, hl.prepared, Bool.false_eq_true, if_false]
  rw [lintScan_eq_map hl, hselect, hsettled.rows]
  rfl

def wideBlank : IpTable where
  columns := emptyIp.columns
  rows := [blankRow, { blankRow with id := 2 ^ 31 }]
  ordered := by decide

theorem wideBlank_left :
    unindexedRows (indexRuns [calmIndex, calmIndex] wideBlank) =
        [{ blankRow with id := 2 ^ 31 }] ∧
      (lintDatabase calmLint (indexRuns [calmIndex, calmIndex] wideBlank)).reported =
        [-2 ^ 31] := by
  have hn : ∀ e ∈ [calmIndex, calmIndex], e.NoFailure := by
    intro e he
    simp only [List.mem_cons, List.not_mem_nil, or_false, or_self] at he
    rw [he]
    exact calmIndex_noFailure
  obtain ⟨hrows, hlint⟩ :=
    @leftovers_after_runs wideBlank calmIndex [calmIndex] hn (by decide) calmLint calmLint_noFailure
  exact ⟨hrows.trans (by decide), hlint.trans (by decide)⟩

end ModGate.Gatedb
