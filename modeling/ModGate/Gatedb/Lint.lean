import ModGate.Gatedb.Index

/-! The report of `lint_database`, whose query leaves out what that of the indexer adds. -/

namespace ModGate.Gatedb

open Sql Database Net

-- `WHERE length(start)=0 OR length(end)=0`.
def lintWhere : Condition Column := .or (emptyLength .startBound) (emptyLength .endBound)

structure LintEnv where
  openFails : Bool
  prepareFails : Bool
  stepFails : ℕ → Bool
  path : String
  errmsg : String

structure LintEnv.NoFailure (env : LintEnv) : Prop where
  opened : env.openFails = false
  prepared : env.prepareFails = false
  stepped : ∀ n, env.stepFails n = false

-- The loop reads the rowid with the 32-bit reader and stops at the first code that is not
-- `SQLITE_ROW`.
def lintScan (env : LintEnv) : ℕ → List IpRow → List ℤ
  | _, [] => []
  | n, r :: rows =>
    if env.stepFails n then [] else (Value.integer r.id).columnInt :: lintScan env (n + 1) rows

structure LintResult where
  exit : Option ℤ
  reported : List ℤ
  stderr : List String

def lintDatabase (env : LintEnv) (t : IpTable) : LintResult :=
  if env.openFails then ⟨some 1, [], [openMessage env.errmsg env.path]⟩
  else if env.prepareFails then ⟨none, [], []⟩
  else
    let reported := lintScan env 0 (select IpRow.cells lintWhere t.rows)
    ⟨some 0, reported, reported.map fun id => "Unindexed IP: id=" ++ toString id⟩

def indexSelection (t : IpTable) : List IpRow := select IpRow.cells indexWhere t.rows

lemma lintScan_eq_map {env : LintEnv} (hn : env.NoFailure) (n : ℕ) (rows : List IpRow) :
    lintScan env n rows = rows.map fun r => (Value.integer r.id).columnInt := by
  induction rows generalizing n with
  | nil => rfl
  | cons r rows ih => simp [lintScan, hn.stepped, ih]

lemma mem_reported {env : LintEnv} (hn : env.NoFailure) {t : IpTable} {id : ℤ} :
    id ∈ (lintDatabase env t).reported ↔
      ∃ r ∈ t.rows, lintWhere.Holds r.cells ∧ r.id.bmod (2 ^ 32) = id := by
  simp [lintDatabase, hn.opened, hn.prepared, lintScan_eq_map hn, Value.columnInt, and_assoc]

lemma lintWhere_unindexed {r : IpRow} (h : lintWhere.Holds r.cells) : Unindexed r := by
  rw [lintWhere, holds_or] at h
  rw [unindexed_iff]
  rcases h with h | h
  · exact Or.inl h
  · exact Or.inr (Or.inl h)

def calmLint : LintEnv := ⟨false, false, fun _ => false, "", ""⟩

lemma calmLint_noFailure : calmLint.NoFailure := ⟨rfl, rfl, fun _ => rfl⟩

def blankRow : IpRow :=
  ⟨1, some "10.0.0.1", some "10.0.0.1", .text "", .null, .integer 404, none, none⟩

end ModGate.Gatedb
