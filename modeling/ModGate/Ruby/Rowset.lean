import ModGate.Containers.Table
import ModGate.Transition.Schedule
import Mathlib.Data.List.Enum
import Mathlib.Data.List.GetD
import Mathlib.Tactic.Ring

/-! The Ruby classes `Row` and `Rowset`, and what a `Rowset` keeps of its earlier queries. -/

namespace ModGate.Ruby

open Containers

variable {ν : Type}

def sqliteRow : ℤ := 100

/-- A prepared statement: its column names, the rows that its steps deliver, and the code of the
step after the last row. A cell is nil for NULL. -/
structure Statement (ν : Type) where
  columns : List String
  rows : List (List (Option ν))
  final : ℤ
  width : ∀ row ∈ rows, row.length = columns.length
  stops : final ≠ sqliteRow

inductive Prepared (ν : Type)
  | raises
  | nil
  | statement (s : Statement ν)

structure Rowset (ν : Type) where
  headers : List (String × ℕ)
  headerNames : List (ℕ × String)
  data : List (List (Option ν))
  rows : ℤ

def putHeader (rs : Rowset ν) (h : String × ℕ) : Rowset ν :=
  { rs with
    headers := Table.set id rs.headers h.1 h.2
    headerNames := Table.set id rs.headerNames h.2 h.1 }

def turn (columns : List String) (rs : Rowset ν) (cells : List (Option ν)) : Rowset ν :=
  let filled := if rs.rows = 0 then columns.zipIdx.foldl putHeader rs else rs
  { filled with
    data := if rs.rows > 0 then rs.data ++ [cells] else rs.data
    rows := rs.rows + 1 }

-- The loop takes its first turn before the first step; `none` stands for the exception.
def select (p : Prepared ν) (rs : Rowset ν) : Option Bool × Rowset ν :=
  let rs := { rs with data := [] }
  match p with
  | .raises => (none, rs)
  | .nil => (some false, rs)
  | .statement s =>
    let rs := s.rows.foldl (turn s.columns) (turn s.columns { rs with rows := 0 } [])
    (some true, { rs with rows := rs.rows - 1 })

-- `row[name]` for the row with index `k`.
def Rowset.cell (rs : Rowset ν) (k : ℕ) (name : String) : Option ν :=
  (Table.get id rs.headers name).bind fun i => (rs.data.getD k []).getD i none

def Prepared.columns : Prepared ν → List String
  | .statement s => s.columns
  | .raises => []
  | .nil => []

section Histories

variable {h h₁ h₂ : List (Prepared ν)} {q : Statement ν}

end Histories

end ModGate.Ruby
