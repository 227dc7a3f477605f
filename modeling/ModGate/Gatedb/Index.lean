import ModGate.Database.IpTable
import ModGate.Net.Address

/-! The indexer `index_database`: a cursor over the rows without complete bounds, whose loop
body rewrites the table under the cursor. -/

namespace ModGate.Gatedb

open Sql Database Net

-- `WHERE length(start)=0 OR length(end)=0 OR start IS NULL OR end IS NULL`.
def indexWhere : Condition Column :=
  .or (.or (.or (emptyLength .startBound) (emptyLength .endBound))
    (.isNull (.column .startBound))) (.isNull (.column .endBound))

def Unindexed (r : IpRow) : Prop := indexWhere.Holds r.cells

instance (r : IpRow) : Decidable (Unindexed r) := inferInstanceAs (Decidable (_ = _))

lemma unindexed_iff (r : IpRow) : Unindexed r ↔
    (emptyLength Column.startBound).Holds r.cells ∨ (emptyLength Column.endBound).Holds r.cells ∨
      r.startBound = .null ∨ r.endBound = .null := by
  simp only [Unindexed, indexWhere, holds_or, holds_isNull, Term.eval, IpRow.cells, or_assoc]

lemma emptyLength_iff {c : Column} {r : IpRow} (h : PlainBound (r.cells c)) :
    (emptyLength c).Holds r.cells ↔ r.cells c = .text "" := by
  rcases h with h | h | ⟨i, h⟩
  · simpa [h] using emptyLength_null h
  · simpa [h] using emptyLength_empty h
  · simpa [h] using emptyLength_integer h

inductive ExecCall
  | begin
  | update (n : ℕ)
  | commit

/-- What SQLite and the uninitialised variable of the loop answer during one run: which calls
fail and with which texts, and the content of `ipvalue` at the start of the iterations. -/
structure IndexEnv where
  openFails : Bool
  beginFails : Bool
  prepareFails : Bool
  stepFails : ℕ → Bool
  updateFails : ℕ → Bool
  commitFails : Bool
  ipvalue : ℕ → InAddr
  verbosity : ℤ
  path : String
  errmsg : String
  execErr : ExecCall → Option String

-- `open_database`.
def openMessage (errmsg path : String) : String := "Can't open database: " ++ errmsg ++ path

-- `Database::execute` prints the text of the error when SQLite hands one out.
def execMessage (fails : Bool) (err : Option String) : List String :=
  if fails then err.toList.map fun text => "execute() Error: " ++ text else []

structure Iteration where
  row : IpRow
  startText : String
  endText : String
  ipvalue : InAddr
  updateFails : Bool

namespace Iteration

variable (it : Iteration)

def recordId : ℤ := (Value.integer it.row.id).columnInt

-- A failed conversion leaves `ipvalue` as it was, and the iteration goes on.
def afterStart : InAddr := (inetPton it.startText).getD it.ipvalue

def afterEnd : InAddr := (inetPton it.endText).getD it.afterStart

def startAddr : ℕ := htonl it.afterStart.sAddr

def endAddr : ℕ := htonl it.afterEnd.sAddr

def sql : String :=
  "UPDATE ip set start=" ++ toString it.startAddr ++ "," ++ "end=" ++ toString it.endAddr ++ " " ++
    "WHERE id=" ++ toString it.recordId

-- The message about `start_text` is built but never printed.
def messages (verbosity : ℤ) (err : Option String) : List String :=
  [it.startText ++ " " ++ it.endText] ++
    (if inetPton it.endText = none then
      ["Failed to convert IP address for record: " ++ toString it.recordId ++ ": " ++ it.endText]
    else []) ++
    (if verbosity ≥ 1 then [it.sql] else []) ++
    execMessage it.updateFails err ++
    (if it.updateFails then
      ["Failed to execute query for record: " ++ toString it.recordId ++ ": " ++ it.sql]
    else [])

def setBounds (r : IpRow) : IpRow :=
  { r with startBound := .integer it.startAddr, endBound := .integer it.endAddr }

def apply (t : IpTable) : IpTable :=
  if it.updateFails then t else t.updateId it.recordId it.setBounds fun _ => rfl

end Iteration

structure Scan where
  iterations : List Iteration
  killed : Bool
  table : IpTable

/-- The loop of `index_database`, on the rowids that the cursor still has to visit. The row is
read, and the condition tested, when the cursor reaches it. -/
def indexScan (env : IndexEnv) : List ℤ → ℕ → IpTable → Scan
  | [], _, t => ⟨[], false, t⟩
  | id :: pending, n, t =>
    if env.stepFails n then ⟨[], false, t⟩
    else match t.find id with
      | none => indexScan env pending n t
      | some r =>
        if Unindexed r then
          match r.startText, r.endText with
          | some s, some e =>
            let it : Iteration := ⟨r, s, e, env.ipvalue n, env.updateFails n⟩
            let rest := indexScan env pending (n + 1) (it.apply t)
            { rest with iterations := it :: rest.iterations }
          -- The texts are NULL pointers, and `inet_pton` kills the process.
          | _, _ => ⟨[], true, t⟩
        else indexScan env pending n t

structure IndexResult where
  exit : Option ℤ
  table : IpTable
  iterations : List Iteration
  stderr : List String

def indexDatabase (env : IndexEnv) (t : IpTable) : IndexResult :=
  let begun := execMessage env.beginFails (env.execErr .begin)
  if env.openFails then ⟨some 1, t, [], [openMessage env.errmsg env.path]⟩
  else if env.prepareFails then ⟨none, t, [], begun⟩
  else
    let scan := indexScan env t.ids 0 t
    let body := scan.iterations.zipIdx.flatMap fun p =>
      p.1.messages env.verbosity (env.execErr (.update p.2))
    let commit :=
      if scan.killed then [] else execMessage env.commitFails (env.execErr .commit)
    { exit := if scan.killed then none else some 0
      -- Outside of a transaction every update commits by itself.
      table := if env.beginFails then scan.table
        else if scan.killed || env.commitFails then t else scan.table
      iterations := scan.iterations
      stderr := begun ++ body ++ commit }

structure IndexEnv.NoFailure (env : IndexEnv) : Prop where
  opened : env.openFails = false
  begun : env.beginFails = false
  prepared : env.prepareFails = false
  stepped : ∀ n, env.stepFails n = false
  updated : ∀ n, env.updateFails n = false
  committed : env.commitFails = false

def calmIndex : IndexEnv :=
  ⟨false, false, false, fun _ => false, fun _ => false, false, fun _ => .any, 0, "", "",
    fun _ => none⟩

lemma calmIndex_noFailure : calmIndex.NoFailure :=
  ⟨rfl, rfl, rfl, fun _ => rfl, fun _ => rfl, rfl⟩

/-! On a table whose un-indexed rows have valid texts and 32-bit rowids, a run without failures
rewrites every row by itself. -/

def ownBounds (r : IpRow) : Option (InAddr × InAddr) := do
  let a ← r.startText.bind inetPton
  let b ← r.endText.bind inetPton
  return (a, b)

lemma ownBounds_eq_some {r : IpRow} {a b : InAddr} (h : ownBounds r = some (a, b)) :
    ∃ s e, r.startText = some s ∧ r.endText = some e ∧ inetPton s = some a ∧
      inetPton e = some b := by
  simp only [ownBounds, Option.bind_eq_bind, Option.bind_eq_some_iff, Option.pure_def,
    Option.some.injEq, Prod.mk.injEq] at h
  obtain ⟨a', ⟨s, hs, ha⟩, b', ⟨e, he, hb⟩, rfl, rfl⟩ := h
  exact ⟨s, e, hs, he, ha, hb⟩

def reindex (r : IpRow) : IpRow :=
  if Unindexed r then
    match ownBounds r with
    | some (a, b) => { r with startBound := .integer a.value, endBound := .integer b.value }
    | none => r
  else r

lemma reindex_id (r : IpRow) : (reindex r).id = r.id := by
  unfold reindex
  split
  · split <;> rfl
  · rfl

lemma reindex_of_indexed {r : IpRow} (h : ¬ Unindexed r) : reindex r = r := if_neg h

lemma reindex_of_bounds {r : IpRow} {a b : InAddr} (h : Unindexed r)
    (hb : ownBounds r = some (a, b)) :
    reindex r = { r with startBound := .integer a.value, endBound := .integer b.value } := by
  simp [reindex, h, hb]

lemma indexed_of_integers {r : IpRow} {i j : ℤ} (hs : r.startBound = .integer i)
    (he : r.endBound = .integer j) : ¬ Unindexed r := by
  rw [unindexed_iff]
  rintro (h | h | h | h)
  · exact (emptyLength_integer (c := Column.startBound) hs : ¬ Condition.Holds _ r.cells) h
  · exact (emptyLength_integer (c := Column.endBound) he : ¬ Condition.Holds _ r.cells) h
  · simp [hs] at h
  · simp [he] at h

def Convertible (t : IpTable) : Prop :=
  ∀ r ∈ t.rows, Unindexed r → (ownBounds r).isSome ∧ Value.Fits32 r.id

lemma Convertible.updateId {t : IpTable} (h : Convertible t) (id : ℤ) :
    Convertible (t.updateId id reindex reindex_id) := by
  intro r hr hu
  obtain ⟨q, hq, rfl⟩ := List.mem_map.mp hr
  by_cases hid : q.id = id
  · simp only [hid, if_true] at hu ⊢
    by_cases hn : Unindexed q
    · obtain ⟨⟨a, b⟩, hb⟩ := Option.isSome_iff_exists.mp (h q hq hn).1
      rw [reindex_of_bounds hn hb] at hu
      exact (indexed_of_integers rfl rfl hu).elim
    · rw [reindex_of_indexed hn] at hu
      exact (hn hu).elim
  · simp only [hid, if_false] at hu ⊢
    exact h q hq hu

lemma updateId_of_find {t : IpTable} {id : ℤ} {r : IpRow} {f g : IpRow → IpRow}
    (hf : ∀ q, (f q).id = q.id) (hg : ∀ q, (g q).id = q.id)
    (hr : t.find id = some r) (h : f r = g r) : t.updateId id f hf = t.updateId id g hg := by
  obtain ⟨hm, hid⟩ := IpTable.find_eq_some hr
  refine IpTable.ext (by rfl) ?_
  apply List.map_congr_left
  intro q hq
  by_cases hqi : q.id = id
  · obtain rfl := t.eq_of_id_eq hq hm (hqi.trans hid.symm)
    simp [h]
  · simp [hqi]

lemma updateId_id {t : IpTable} {id : ℤ} : t.updateId id (fun q => q) (fun _ => rfl) = t := by
  refine IpTable.ext (by rfl) ?_
  simp [IpTable.updateId, rewrite]

lemma updateId_absent {t : IpTable} {id : ℤ} {f : IpRow → IpRow} (hf : ∀ q, (f q).id = q.id)
    (h : t.find id = none) : t.updateId id f hf = t := by
  refine IpTable.ext (by rfl) ?_
  have hn := IpTable.find_eq_none h
  calc t.rows.map (fun r => if r.id = id then f r else r)
      = t.rows.map (fun r => r) := List.map_congr_left fun r hr => if_neg (hn r hr)
    _ = t.rows := List.map_id' t.rows

lemma Iteration.apply_own {it : Iteration} {t : IpTable} {r : IpRow} {id : ℤ}
    (hf : it.updateFails = false) (hid : it.recordId = id) (hr : t.find id = some r)
    (hset : it.setBounds r = reindex r) : it.apply t = t.updateId id reindex reindex_id := by
  subst hid
  rw [Iteration.apply, hf]
  exact updateId_of_find (f := it.setBounds) (fun _ => rfl) reindex_id hr hset

lemma iteration_own {env : IndexEnv} (hn : env.NoFailure) (n : ℕ) {t : IpTable}
    (ht : Convertible t) {id : ℤ} {r : IpRow} (hr : t.find id = some r) (hu : Unindexed r) :
    ∃ s e, r.startText = some s ∧ r.endText = some e ∧
      Iteration.apply ⟨r, s, e, env.ipvalue n, env.updateFails n⟩ t =
        t.updateId id reindex reindex_id := by
  obtain ⟨hm, hid⟩ := IpTable.find_eq_some hr
  obtain ⟨hb, hfits⟩ := ht r hm hu
  obtain ⟨⟨a, b⟩, hb⟩ := Option.isSome_iff_exists.mp hb
  obtain ⟨s, e, hs, he, ha, hbb⟩ := ownBounds_eq_some hb
  refine ⟨s, e, hs, he, Iteration.apply_own (hn.updated n) ?_ hr ?_⟩
  · exact ((Value.bmod_eq_self_iff r.id).mpr hfits).trans hid
  · rw [reindex_of_bounds hu hb]
    simp [Iteration.setBounds, Iteration.startAddr, Iteration.endAddr, Iteration.afterStart,
      Iteration.afterEnd, ha, hbb]

lemma indexScan_table {env : IndexEnv} (hn : env.NoFailure) (ids : List ℤ) (n : ℕ) (t : IpTable)
    (ht : Convertible t) :
    (indexScan env ids n t).killed = false ∧
      (indexScan env ids n t).table =
        ids.foldl (fun u id => u.updateId id reindex reindex_id) t := by
  induction ids generalizing n t with
  | nil => exact ⟨rfl, rfl⟩
  | cons id ids ih =>
    have hrest := fun m => ih m _ (ht.updateId id)
    simp only [indexScan, hn.stepped, List.foldl_cons, Bool.false_eq_true, if_false]
    cases hr : t.find id with
    | none =>
      rw [updateId_absent reindex_id hr] at hrest ⊢
      exact hrest n
    | some r =>
      by_cases hu : Unindexed r
      · obtain ⟨s, e, hs, he, happly⟩ := iteration_own hn n ht hr hu
        simp only [hu, hs, he, if_true, happly]
        exact hrest (n + 1)
      · simp only [hu, if_false]
        have hsame : t.updateId id reindex reindex_id = t :=
          (updateId_of_find _ _ hr (reindex_of_indexed hu)).trans updateId_id
        rw [hsame] at hrest ⊢
        exact hrest n

lemma foldl_updateId_rows (ids : List ℤ) (t : IpTable) :
    (ids.foldl (fun u id => u.updateId id reindex reindex_id) t).columns = t.columns ∧
      (ids.foldl (fun u id => u.updateId id reindex reindex_id) t).rows =
        ids.foldl (fun rows id => rewrite IpRow.id id reindex rows) t.rows := by
  induction ids generalizing t with
  | nil => exact ⟨rfl, rfl⟩
  | cons id ids ih => exact ih (t.updateId id reindex reindex_id)

lemma indexDatabase_rows {env : IndexEnv} (hn : env.NoFailure) {t : IpTable}
    (ht : Convertible t) :
    (indexDatabase env t).exit = some 0 ∧ (indexDatabase env t).table.columns = t.columns ∧
      (indexDatabase env t).table.rows = t.rows.map reindex := by
  obtain ⟨hk, htab⟩ := indexScan_table hn t.ids 0 t ht
  obtain ⟨hc, hr⟩ := foldl_updateId_rows t.ids t
  simp only [indexDatabase, hn.opened, hn.prepared, hn.begun, hn.committed, hk, Bool.or_false,
    Bool.false_eq_true, if_false]
  rw [htab]
  refine ⟨trivial, hc, hr.trans ?_⟩
  exact foldl_rewrite_all IpRow.id reindex_id t.ids_nodup

end ModGate.Gatedb
