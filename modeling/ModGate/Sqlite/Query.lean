import ModGate.Transition.Schedule
import Mathlib.Data.Int.Notation
import Mathlib.Data.List.Nodup
import Mathlib.Logic.Function.Basic

/-! The class `Query` over one SQLite connection: which prepared statements are live, and how
often each is finalized. -/

namespace ModGate.Sqlite

open Transition

abbrev ObjectId := ℕ

/-- Statements are numbered in the order of their preparation. -/
abbrev StmtId := ℕ

def sqliteOk : ℤ := 0

def sqliteMisuse : ℤ := 21

def sqliteRow : ℤ := 100

structure Query where
  errorCode : ℤ
  stmt : Option StmtId
deriving DecidableEq

structure Connection where
  queries : ObjectId → Option Query
  prepared : ℕ
  finalized : List StmtId

def opened : Connection := ⟨fun _ => none, 0, []⟩

/-- The answer of `sqlite3_prepare_v2`. It sets the statement to NULL for a text that holds none,
such as a comment, and on an error. -/
inductive Compiled
  | statement
  | empty
  | failed (code : ℤ) (errmsg : String) (error : code ≠ sqliteOk)

def Compiled.code : Compiled → ℤ
  | .statement => sqliteOk
  | .empty => sqliteOk
  | .failed code _ _ => code

def Compiled.errmsg : Compiled → String
  | .statement => "not an error"
  | .empty => "not an error"
  | .failed _ errmsg _ => errmsg

namespace Connection

def put (w : Connection) (o : ObjectId) (q : Option Query) : Connection :=
  { w with queries := Function.update w.queries o q }

def stmt (w : Connection) (o : ObjectId) : Option StmtId := (w.queries o).bind Query.stmt

def Live (w : Connection) (n : StmtId) : Prop := n < w.prepared ∧ n ∉ w.finalized

-- `sqlite3_step` on NULL is a misuse; otherwise the statement answers with any code.
def stepCode (w : Connection) (o : ObjectId) (code : ℤ) : ℤ :=
  match w.stmt o with
  | none => sqliteMisuse
  | some _ => code

end Connection

inductive Call
  | construct (o : ObjectId)
  | finalize (o : ObjectId)
  | prepareV2 (o : ObjectId) (r : Compiled)
  | step (o : ObjectId) (code : ℤ)
  | exec (o : ObjectId) (code : ℤ)
  | release (o : ObjectId)

def call (c : Call) (w : Connection) : Connection :=
  match c with
  | .construct o =>
    match w.queries o with
    | none => w.put o (some ⟨sqliteOk, none⟩)
    | some _ => w
  | .finalize o =>
    match w.queries o with
    | some ⟨code, some n⟩ => { w.put o (some ⟨code, none⟩) with finalized := w.finalized ++ [n] }
    | _ => w
  | .prepareV2 o r =>
    match w.queries o, r with
    | none, _ => w
    | some _, .statement =>
      { w.put o (some ⟨r.code, some w.prepared⟩) with prepared := w.prepared + 1 }
    | some _, _ => w.put o (some ⟨r.code, none⟩)
  | .step o code =>
    match w.queries o with
    | none => w
    | some q => w.put o (some { q with errorCode := w.stepCode o code })
  | .exec o code =>
    match w.queries o with
    | none => w
    | some q => w.put o (some { q with errorCode := code })
  | .release o => w.put o none

/-! The methods, with what SQLite answers to them. -/

def finalize (o : ObjectId) (w : Connection) : Connection := call (.finalize o) w

def step (o : ObjectId) (code : ℤ) (w : Connection) : ℤ × Connection :=
  (w.stepCode o code, call (.step o code) w)

def execute (o : ObjectId) (code : ℤ) (w : Connection) : ℤ × Connection :=
  (code, call (.exec o code) w)

-- The text of the exception, when there is one.
def prepare (o : ObjectId) (sql : String) (r : Compiled) (w : Connection) :
    Option String × Connection :=
  let w := call (.prepareV2 o r) (finalize o w)
  if r.code ≠ sqliteOk then
    (some (" [" ++ toString r.code ++ "] " ++ "Query::prepare() failed --" ++ r.errmsg ++
      " SQL: " ++ sql), w)
  else (none, w)

def queryExists (o : ObjectId) (r : Compiled) (first : ℤ) (w : Connection) : Bool × Connection :=
  let w := call (.prepareV2 o r) (finalize o w)
  let (code, w) := step o first w
  (decide (code = sqliteRow), finalize o w)

def destroy (o : ObjectId) (w : Connection) : Connection := call (.release o) (finalize o w)

inductive Op
  | construct (o : ObjectId)
  | prepare (o : ObjectId) (sql : String) (r : Compiled)
  | queryExists (o : ObjectId) (r : Compiled) (first : ℤ)
  | step (o : ObjectId) (code : ℤ)
  | finalize (o : ObjectId)
  | execute (o : ObjectId) (code : ℤ)
  | destroy (o : ObjectId)

def perform (op : Op) (w : Connection) : Connection :=
  match op with
  | .construct o => call (.construct o) w
  | .prepare o sql r => (prepare o sql r w).2
  | .queryExists o r first => (queryExists o r first w).2
  | .step o code => (step o code w).2
  | .finalize o => finalize o w
  | .execute o code => (execute o code w).2
  | .destroy o => destroy o w

def calls : Op → List Call
  | .construct o => [.construct o]
  | .prepare o _ r => [.finalize o, .prepareV2 o r]
  | .queryExists o r first => [.finalize o, .prepareV2 o r, .step o first, .finalize o]
  | .step o code => [.step o code]
  | .finalize o => [.finalize o]
  | .execute o code => [.exec o code]
  | .destroy o => [.finalize o, .release o]

/-- The live statements are the ones that the queries hold, each in one query; no statement is
finalized twice, and only a live one is never. -/
structure Released (w : Connection) : Prop where
  live : ∀ n, w.Live n ↔ ∃ o, w.stmt o = some n
  owner : ∀ o p n, w.stmt o = some n → w.stmt p = some n → o = p
  once : ∀ n < w.prepared,
    w.finalized.count n = 1 ∧ ¬ w.Live n ∨ w.finalized.count n = 0 ∧ w.Live n

structure Owned (w : Connection) : Prop where
  live : ∀ n, w.Live n ↔ ∃ o, w.stmt o = some n
  owner : ∀ o p n, w.stmt o = some n → w.stmt p = some n → o = p
  nodup : w.finalized.Nodup
  made : ∀ n ∈ w.finalized, n < w.prepared

lemma Owned.released {w : Connection} (hw : Owned w) : Released w where
  live := hw.live
  owner := hw.owner
  once := by
    intro n hn
    by_cases hmem : n ∈ w.finalized
    · exact Or.inl ⟨List.count_eq_one_of_mem hw.nodup hmem, fun hlive => hlive.2 hmem⟩
    · exact Or.inr ⟨List.count_eq_zero_of_not_mem hmem, hn, hmem⟩

section Ownership

variable {w : Connection} {o p : ObjectId}

@[simp] lemma stmt_put (q : Option Query) : (w.put o q).stmt o = q.bind Query.stmt := by
  simp [Connection.stmt, Connection.put]

lemma stmt_put_ne (q : Option Query) (h : p ≠ o) : (w.put o q).stmt p = w.stmt p := by
  simp [Connection.stmt, Connection.put, h]

lemma Owned.frame (hw : Owned w) {q : Option Query} (hq : q.bind Query.stmt = w.stmt o) :
    Owned (w.put o q) := by
  have hstmt : ∀ p, (w.put o q).stmt p = w.stmt p := by
    intro p
    by_cases hp : p = o
    · rw [hp, stmt_put, hq]
    · exact stmt_put_ne q hp
  refine ⟨fun n => ?_, fun a b n => ?_, hw.nodup, hw.made⟩
  · simp only [hstmt]
    exact hw.live n
  · simpa only [hstmt] using hw.owner a b n

lemma Owned.finalizes (hw : Owned w) {n : StmtId} (hstmt : w.stmt o = some n) (code : ℤ) :
    Owned { w.put o (some ⟨code, none⟩) with finalized := w.finalized ++ [n] } := by
  obtain ⟨hlt, hnot⟩ := (hw.live n).mpr ⟨o, hstmt⟩
  have hothers : ∀ a m, (w.put o (some ⟨code, none⟩)).stmt a = some m ↔
      w.stmt a = some m ∧ m ≠ n := by
    intro a m
    by_cases ha : a = o
    · subst ha
      simp [hstmt, eq_comm]
    · rw [stmt_put_ne _ ha]
      refine (and_iff_left_of_imp fun hm hmn => ?_).symm
      exact ha (hw.owner a o n (hmn ▸ hm) hstmt)
  refine ⟨fun m => ?_, fun a b m ha hb => ?_, ?_, fun m hm => ?_⟩
  · have hlive := hw.live m
    simp only [Connection.Live, Connection.put, List.mem_append, List.mem_singleton, not_or,
      ← and_assoc] at hlive ⊢
    rw [hlive, ← exists_and_right]
    exact exists_congr fun a => (hothers a m).symm
  · exact hw.owner a b m ((hothers a m).mp ha).1 ((hothers b m).mp hb).1
  · exact List.nodup_append.mpr ⟨hw.nodup, List.nodup_singleton n, by
      rintro a ha b hb rfl
      exact hnot (List.mem_singleton.mp hb ▸ ha)⟩
  · rcases List.mem_append.mp hm with hm | hm
    · exact hw.made m hm
    · exact List.mem_singleton.mp hm ▸ hlt

lemma Owned.prepares (hw : Owned w) (hstmt : w.stmt o = none) (code : ℤ) :
    Owned { w.put o (some ⟨code, some w.prepared⟩) with prepared := w.prepared + 1 } := by
  have hold : ∀ a m, w.stmt a = some m → m < w.prepared :=
    fun a m hm => ((hw.live m).mpr ⟨a, hm⟩).1
  have hothers : ∀ a m, (w.put o (some ⟨code, some w.prepared⟩)).stmt a = some m ↔
      w.stmt a = some m ∨ a = o ∧ m = w.prepared := by
    intro a m
    by_cases ha : a = o
    · subst ha
      simp [hstmt, eq_comm]
    · rw [stmt_put_ne _ ha]
      simp [ha]
  refine ⟨fun m => ?_, fun a b m ha hb => ?_, hw.nodup, fun m hm => ?_⟩
  · refine Iff.trans ?_ (exists_congr fun a => (hothers a m).symm)
    rw [exists_or, ← hw.live m, exists_eq_left]
    constructor
    · rintro ⟨hlt, hnot⟩
      rcases Nat.lt_succ_iff_lt_or_eq.mp hlt with hlt | heq
      · exact Or.inl ⟨hlt, hnot⟩
      · exact Or.inr heq
    · rintro (⟨hlt, hnot⟩ | rfl)
      · exact ⟨Nat.lt_succ_of_lt hlt, hnot⟩
      · exact ⟨Nat.lt_succ_self _, fun hmem => Nat.lt_irrefl _ (hw.made _ hmem)⟩
  · rcases (hothers a m).mp ha with ha | ⟨hao, hm⟩
    · rcases (hothers b m).mp hb with hb | ⟨-, hm⟩
      · exact hw.owner a b m ha hb
      · exact absurd hm (Nat.ne_of_lt (hold a m ha))
    · rcases (hothers b m).mp hb with hb | ⟨hbo, -⟩
      · exact absurd hm (Nat.ne_of_lt (hold b m hb))
      · exact hao.trans hbo.symm
  · exact Nat.lt_succ_of_lt (hw.made m hm)

/-- A call that neither overwrites nor drops a live statement. -/
def Safe : Call → Connection → Prop
  | .prepareV2 o _, w => w.stmt o = none
  | .release o, w => w.stmt o = none
  | _, _ => True

lemma stmt_of_queries {q : Query} (h : w.queries o = some q) : w.stmt o = q.stmt := by
  rw [Connection.stmt, h]
  rfl

lemma Owned.call (hw : Owned w) {c : Call} (hc : Safe c w) : Owned (call c w) := by
  cases c with
  | construct o =>
    simp only [Sqlite.call]
    split
    · next hnone => exact hw.frame (by rw [Connection.stmt, hnone]; rfl)
    · exact hw
  | finalize o =>
    simp only [Sqlite.call]
    split
    · next code n hq => exact hw.finalizes (stmt_of_queries hq) code
    · exact hw
  | prepareV2 o r =>
    have hstmt : w.stmt o = none := hc
    simp only [Sqlite.call]
    split
    · exact hw
    · exact hw.prepares hstmt _
    · exact hw.frame hstmt.symm
  | step o code =>
    simp only [Sqlite.call]
    split
    · exact hw
    · next q hq => exact hw.frame (stmt_of_queries hq).symm
  | exec o code =>
    simp only [Sqlite.call]
    split
    · exact hw
    · next q hq => exact hw.frame (stmt_of_queries hq).symm
  | release o =>
    have hstmt : w.stmt o = none := hc
    exact hw.frame hstmt.symm

end Ownership

example :
    let reused := run perform [.construct 0, .prepare 0 "SELECT 1" .statement,
      .prepare 0 "SELEC" (.failed 1 "syntax error" (by decide)), .step 0 101, .destroy 0] opened
    reused.prepared = 1 ∧ reused.finalized = [0] := by
  decide

end ModGate.Sqlite
