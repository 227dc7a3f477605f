import ModGate.Gatedb.Scan

/-! Which rows `index_database` leaves with the bounds they had. A row is reached by the update of
any un-indexed row whose rowid is its own modulo 2³², unless the process dies before that. -/

namespace ModGate.Gatedb

open Sql Database Net

def SameBounds (t : IpTable) (r : IpRow) : Prop :=
  ∃ q ∈ t.rows, q.id = r.id ∧ q.startBound = r.startBound ∧ q.endBound = r.endBound

/-- A row on which the process dies whenever the cursor gets there: a text is NULL, and no row
before it has an update that would complete it first. -/
structure Fatal (t : IpTable) (q : IpRow) : Prop where
  mem : q ∈ t.rows
  unindexed : Unindexed q
  nulls : Nulls q
  missed : ∀ r ∈ t.rows, Unindexed r → r.id < q.id → target r ≠ q.id

lemma ids_increasing (t : IpTable) : t.ids.Pairwise (· < ·) := List.pairwise_map.mpr t.ordered

lemma indexDatabase_table (env : IndexEnv) (t : IpTable) :
    (indexDatabase env t).table = t ∨
      (indexDatabase env t).table = (indexScan env t.ids 0 t).table := by
  unfold indexDatabase
  split
  · exact Or.inl rfl
  split
  · exact Or.inl rfl
  dsimp only
  split
  · exact Or.inr rfl
  split
  · exact Or.inl rfl
  · exact Or.inr rfl

lemma not_iterated_after {env : IndexEnv} {t : IpTable} {q : IpRow} (hq : Fatal t q)
    {it : Iteration} (hit : it ∈ (indexScan env t.ids 0 t).iterations) : it.row.id < q.id :=
  (scanRun env t.ids 0 t).before_nulls (ids_increasing t) hq.mem (List.mem_map_of_mem hq.mem)
    hq.unindexed hq.nulls hq.missed it hit

/-! The cursor gets to a row that no earlier update completes, provided that no earlier row is
fatal. -/

structure Reached (t : IpTable) (ids : List ℤ) (m : IpRow) : Prop where
  mem : m ∈ t.rows
  pending : m.id ∈ ids
  unindexed : Unindexed m
  missed : ∀ r ∈ t.rows, r.id ∈ ids → Unindexed r → r.id < m.id → target r ≠ m.id
  alive : ∀ q ∈ t.rows, q.id ∈ ids → Unindexed q → Nulls q → q.id ≤ m.id →
    ∃ r ∈ t.rows, r.id ∈ ids ∧ Unindexed r ∧ r.id < q.id ∧ target r = q.id

lemma texts_of_not_nulls {r : IpRow} (h : ¬ Nulls r) :
    ∃ s e, r.startText = some s ∧ r.endText = some e := by
  simp only [Nulls, not_or] at h
  obtain ⟨s, hs⟩ := Option.ne_none_iff_exists'.mp h.1
  obtain ⟨e, he⟩ := Option.ne_none_iff_exists'.mp h.2
  exact ⟨s, e, hs, he⟩

namespace Reached

variable {t : IpTable} {id : ℤ} {pending : List ℤ} {m r : IpRow}

lemma first_texts (h : Reached t (r.id :: pending) m) (hids : (r.id :: pending).Pairwise (· < ·))
    (hr : r ∈ t.rows) (hu : Unindexed r) (hle : r.id ≤ m.id) :
    ∃ s e, r.startText = some s ∧ r.endText = some e := by
  apply texts_of_not_nulls
  intro hnulls
  obtain ⟨p, -, hp, -, hlt, -⟩ := h.alive r hr List.mem_cons_self hu hnulls hle
  rcases List.mem_cons.mp hp with he | hp
  · omega
  · have hpr := (List.pairwise_cons.mp hids).1 p.id hp
    omega

lemma pass (h : Reached t (id :: pending) m) (hm : m.id ∈ pending)
    (hrow : ∀ r ∈ t.rows, r.id = id → ¬ Unindexed r) : Reached t pending m where
  mem := h.mem
  pending := hm
  unindexed := h.unindexed
  missed := fun r hr hid => h.missed r hr (List.mem_cons_of_mem _ hid)
  alive := by
    intro q hq hqid hu hnulls hle
    obtain ⟨p, hp, hpid, hpu, hlt, htarget⟩ :=
      h.alive q hq (List.mem_cons_of_mem _ hqid) hu hnulls hle
    refine ⟨p, hp, ?_, hpu, hlt, htarget⟩
    rcases List.mem_cons.mp hpid with he | hpid
    · exact absurd hpu (hrow p hp he)
    · exact hpid

lemma iterate (h : Reached t (r.id :: pending) m) (hm : m.id ∈ pending)
    (hr : r ∈ t.rows) (hu : Unindexed r) (hlt : r.id < m.id) {s e : String} {c : InAddr} :
    Reached (Iteration.apply ⟨r, s, e, c, false⟩ t) pending m where
  mem := Iteration.mem_apply_of_mem h.mem fun hid =>
    absurd hid (h.missed r hr List.mem_cons_self hu hlt)
  pending := hm
  unindexed := h.unindexed
  missed := fun p hp hpid hpu =>
    h.missed p (Iteration.mem_of_mem_apply hp hpu) (List.mem_cons_of_mem _ hpid) hpu
  alive := by
    intro q hq hqid hqu hnulls hle
    rcases (Iteration.mem_apply rfl).mp hq with ⟨hqt, hne⟩ | ⟨p, -, -, rfl⟩
    swap
    · exact absurd hqu (Iteration.setBounds_indexed _ p)
    obtain ⟨p, hp, hpid, hpu, hpq, htarget⟩ :=
      h.alive q hqt (List.mem_cons_of_mem _ hqid) hqu hnulls hle
    have hpr : p.id ≠ r.id := by
      intro he
      obtain rfl := t.eq_of_id_eq hp hr he
      exact hne htarget.symm
    refine ⟨p, Iteration.mem_apply_of_mem hp ?_, ?_, hpu, hpq, htarget⟩
    · -- A row that some update names is named by its own update, and `p` names `q`.
      intro hid
      have hself := target_of_target (r := r) hid
      omega
    · exact (List.mem_cons.mp hpid).resolve_left hpr

end Reached

def stopAfter (c : InAddr) (last : ℕ) : IndexEnv :=
  { calmIndex with
    beginFails := true
    stepFails := fun n => decide (last < n)
    ipvalue := fun _ => c }

lemma stopAfter_done (c : InAddr) (n : ℕ) (pending : List ℤ) (t : IpTable) :
    ScanRun (stopAfter c n) pending (n + 1) t ⟨[], false, t⟩ := by
  cases pending with
  | nil => exact .done
  | cons id pending => exact .stopped (by simp [stopAfter])

lemma Reached.last_update {ids : List ℤ} {t : IpTable} {m : IpRow} (h : Reached t ids m)
    (hids : ids.Pairwise (· < ·)) (c : InAddr) (n : ℕ) :
    ∃ last s e u scan, n ≤ last ∧ m.startText = some s ∧ m.endText = some e ∧
      ScanRun (stopAfter c last) ids n t scan ∧
      scan.table = Iteration.apply ⟨m, s, e, c, false⟩ u := by
  induction ids generalizing n t with
  | nil => exact absurd h.pending List.not_mem_nil
  | cons id pending ih =>
    obtain ⟨hfirst, hrest⟩ := List.pairwise_cons.mp hids
    rcases List.mem_cons.mp h.pending with rfl | hm
    · obtain ⟨s, e, hs, he⟩ := h.first_texts hids h.mem h.unindexed le_rfl
      have hrun := ScanRun.iterated (by simp [stopAfter]) h.mem h.unindexed hs he
        (stopAfter_done c n pending _)
      exact ⟨n, s, e, t, _, le_rfl, hs, he, hrun, rfl⟩
    · have hlt := hfirst m.id hm
      by_cases hrow : ∃ r ∈ t.rows, r.id = id ∧ Unindexed r
      · obtain ⟨r, hr, rfl, hu⟩ := hrow
        obtain ⟨s, e, hs, he⟩ := h.first_texts hids hr hu hlt.le
        obtain ⟨last, s', e', u, scan, hle, hs', he', hrun, htable⟩ :=
          ih (h.iterate hm hr hu hlt (s := s) (e := e) (c := c)) hrest (n + 1)
        refine ⟨last, s', e', u, _, by omega, hs', he', .iterated ?_ hr hu hs he hrun, htable⟩
        simp only [stopAfter, decide_eq_false_iff_not]
        omega
      · have hpass : ∀ r ∈ t.rows, r.id = id → ¬ Unindexed r := fun r hr hid hu =>
          hrow ⟨r, hr, hid, hu⟩
        obtain ⟨last, s, e, u, scan, hle, hs, he, hrun, htable⟩ := ih (h.pass hm hpass) hrest n
        refine ⟨last, s, e, u, scan, hle, hs, he, .passed ?_ hpass hrun, htable⟩
        simp only [stopAfter, decide_eq_false_iff_not]
        omega

lemma reached_of_alive {t : IpTable} {m : IpRow} (hm : m ∈ t.rows) (hu : Unindexed m)
    (hmiss : ∀ r ∈ t.rows, Unindexed r → r.id < m.id → target r ≠ m.id)
    (halive : ¬ ∃ q, Fatal t q ∧ q.id ≤ m.id) : Reached t t.ids m where
  mem := hm
  pending := List.mem_map_of_mem hm
  unindexed := hu
  missed := fun r hr _ => hmiss r hr
  alive := by
    intro q hq _ hqu hnulls hle
    by_contra hnone
    refine halive ⟨q, ⟨hq, hqu, hnulls, fun r hr hru hlt htarget => ?_⟩, hle⟩
    exact hnone ⟨r, hr, List.mem_map_of_mem hr, hru, hlt, htarget⟩

lemma Reached.written {t : IpTable} {m r : IpRow} (h : Reached t t.ids m)
    (htarget : target m = r.id) (hkept : ∀ env, SameBounds (indexDatabase env t).table r)
    (c : InAddr) :
    ∃ s e, m.startText = some s ∧ m.endText = some e ∧
      r.startBound = .integer (Iteration.startAddr ⟨m, s, e, c, false⟩) ∧
      r.endBound = .integer (Iteration.endAddr ⟨m, s, e, c, false⟩) := by
  obtain ⟨last, s, e, u, scan, -, hs, he, hrun, htable⟩ :=
    h.last_update (ids_increasing t) c 0
  obtain ⟨q, hq, hid, hstart, hend⟩ := hkept (stopAfter c last)
  have hfinal : (indexDatabase (stopAfter c last) t).table =
      Iteration.apply ⟨m, s, e, c, false⟩ u := by
    simp only [indexDatabase, stopAfter, Bool.false_eq_true, if_false, if_true]
    exact (congrArg Scan.table hrun.eq_indexScan).trans htable
  rw [hfinal] at hq
  refine ⟨s, e, hs, he, ?_⟩
  rcases (Iteration.mem_apply rfl).mp hq with ⟨-, hne⟩ | ⟨p, -, -, rfl⟩
  · exact absurd (hid.trans htarget.symm) hne
  · exact ⟨hstart.symm, hend.symm⟩

lemma ScanRun.sameBounds {env : IndexEnv} {ids : List ℤ} {n : ℕ} {t : IpTable} {scan : Scan}
    (h : ScanRun env ids n t scan) {r : IpRow} (hr : SameBounds t r)
    (hsame : ∀ it ∈ scan.iterations, it.recordId = r.id →
      r.startBound = .integer it.startAddr ∧ r.endBound = .integer it.endAddr) :
    SameBounds scan.table r := by
  induction h with
  | done => exact hr
  | stopped => exact hr
  | passed _ _ _ ih => exact ih hr hsame
  | killed => exact hr
  | @iterated m s e pending n t scan _ _ _ _ _ _ ih =>
    refine ih ?_ fun it hit => hsame it (List.mem_cons_of_mem _ hit)
    obtain ⟨q, hq, hid, hstart, hend⟩ := hr
    by_cases hf : env.updateFails n = true
    · exact ⟨q, Iteration.mem_apply_of_mem hq fun _ => hf, hid, hstart, hend⟩
    by_cases htarget : target m = r.id
    · have hset := hsame _ List.mem_cons_self htarget
      refine ⟨_, (Iteration.mem_apply ?_).mpr (Or.inr ⟨q, hq, ?_, rfl⟩), hid, ?_, ?_⟩
      · simpa using hf
      · exact hid.trans htarget.symm
      · exact hset.1.symm
      · exact hset.2.symm
    · refine ⟨q, Iteration.mem_apply_of_mem hq fun hq' => ?_, hid, hstart, hend⟩
      exact absurd (hq'.trans hid) htarget

lemma indexDatabase_sameBounds {env : IndexEnv} {t : IpTable} {r : IpRow} (hr : r ∈ t.rows)
    (hsame : ∀ it ∈ (indexScan env t.ids 0 t).iterations, it.recordId = r.id →
      r.startBound = .integer it.startAddr ∧ r.endBound = .integer it.endAddr) :
    SameBounds (indexDatabase env t).table r := by
  have hself : SameBounds t r := ⟨r, hr, rfl, rfl, rfl⟩
  rcases indexDatabase_table env t with h | h
  · rw [h]
    exact hself
  · rw [h]
    exact (scanRun env t.ids 0 t).sameBounds hself hsame

theorem invalid_row_kept_iff (t : IpTable) {r : IpRow} (hr : r ∈ t.rows) (hu : Unindexed r) :
    (∀ env, SameBounds (indexDatabase env t).table r) ↔
      ∀ m ∈ t.rows, Unindexed m → target m = r.id → ∃ q, Fatal t q ∧ q.id ≤ m.id := by
  constructor
  · intro hkept
    have hreached : ∀ m, Reached t t.ids m → target m ≠ r.id := by
      intro m hm htarget
      obtain ⟨s, e, -, -, hstart, hend⟩ := hm.written htarget hkept .any
      exact indexed_of_integers hstart hend hu
    intro m hm hmu htarget
    by_contra hnone
    by_cases hmiss : ∀ p ∈ t.rows, Unindexed p → p.id < m.id → target p ≠ m.id
    · exact hreached m (reached_of_alive hm hmu hmiss hnone) htarget
    · -- An earlier row completes `m` first: then `m` is `r`, and nothing completes that row.
      push Not at hmiss
      obtain ⟨p, hp, hpu, hlt, hpm⟩ := hmiss
      refine hreached p (reached_of_alive hp hpu ?_ ?_) ?_
      · intro o _ _ _ ho
        have hself := target_of_target ho
        omega
      · rintro ⟨q, hq, hle⟩
        exact hnone ⟨q, hq, by omega⟩
      · rw [hpm, ← target_of_target hpm, htarget]
  · intro hcond env
    refine indexDatabase_sameBounds hr fun it hit htarget => ?_
    obtain ⟨hm, hmu, -⟩ := (scanRun env t.ids 0 t).iteration_row it hit
    obtain ⟨q, hq, hle⟩ := hcond it.row hm hmu htarget
    have hlt := not_iterated_after hq hit
    omega

theorem wide_id_kept :
    let r : IpRow :=
      ⟨2 ^ 32 + 1, some "10.0.0.1", some "10.0.0", .null, .null, .integer 404, none, none⟩
    Unindexed r ∧ ownBounds r = none ∧
      ∀ env, SameBounds (indexDatabase env (oneRow r)).table r := by
  intro r
  have hu : Unindexed r := by decide
  refine ⟨hu, by decide, (invalid_row_kept_iff (oneRow r) List.mem_cons_self hu).mpr ?_⟩
  intro m hm _ htarget
  obtain rfl := List.mem_singleton.mp hm
  exact absurd htarget (by decide)

theorem invalid_end_gets_start :
    let r : IpRow := ⟨1, some "10.0.0.1", some "10.0.0", .null, .null, .integer 404, none, none⟩
    let after := (indexDatabase calmIndex (oneRow r)).table
    Unindexed r ∧ ownBounds r = none ∧ ¬ SameBounds after r ∧
      after.rows.map (fun q => (q.startBound, q.endBound)) =
        [(.integer 167772161, .integer 167772161)] := by
  intro r after
  have hrows : after.rows =
      [{ r with startBound := .integer 167772161, endBound := .integer 167772161 }] := by decide
  refine ⟨by decide, by decide, ?_, by rw [hrows]; rfl⟩
  rintro ⟨q, hq, -, hstart, -⟩
  rw [hrows] at hq
  obtain rfl := List.mem_singleton.mp hq
  cases hstart

/-- The bounds that an iteration on `m` writes, whatever `ipvalue` holds at its start, are those
of `r`. -/
def Rewrites (m r : IpRow) : Prop :=
  ∃ s e a, m.startText = some s ∧ m.endText = some e ∧ inetPton s = some a ∧
    r.startBound = .integer a.value ∧ r.endBound = .integer ((inetPton e).getD a).value

lemma Rewrites.written {r : IpRow} {it : Iteration} (h : Rewrites it.row r)
    (hs : it.row.startText = some it.startText) (he : it.row.endText = some it.endText) :
    r.startBound = .integer it.startAddr ∧ r.endBound = .integer it.endAddr := by
  obtain ⟨s, e, a, hs', he', ha, hstart, hend⟩ := h
  obtain rfl : it.startText = s := Option.some.inj (hs.symm.trans hs')
  obtain rfl : it.endText = e := Option.some.inj (he.symm.trans he')
  simp [Iteration.startAddr, Iteration.endAddr, Iteration.afterEnd, Iteration.afterStart, ha,
    hstart, hend]

end ModGate.Gatedb
