import ModGate.Ruby.Binding
import ModGate.Ruby.Rowset

/-! What a `Rowset` holds after a select: the values of a complete result set, the answer for a
statement whose steps stop early, and the fields after a select that fails. -/

namespace ModGate.Ruby

open Containers Sql

variable {ν : Type}

structure Row (ν : Type) where
  rowset : Rowset ν
  row : ℕ

namespace Row

def values (r : Row ν) : List (Option ν) := r.rowset.data.getD r.row []

def each (r : Row ν) : List (Option String × Option ν) :=
  (List.range r.values.length).map fun i =>
    (Table.get id r.rowset.headerNames i, r.values.getD i none)

def item (r : Row ν) (index : ℕ) : Option ν := r.values.getD index none

end Row

namespace Rowset

def item (rs : Rowset ν) (row : ℕ) : Option (Row ν) :=
  if row > rs.rows - 1 then none else some ⟨rs, row⟩

def each (rs : Rowset ν) : List (Row ν) := (List.range rs.rows.toNat).map (Row.mk rs)

end Rowset

section Statement

variable {s : Statement ν}

end Statement

/-! A complete result set of stored values, as the statement of a select delivers it. -/

def sqliteDone : ℤ := 101

structure ResultSet where
  columns : List String
  rows : List StmtRow
  named : ∀ r ∈ rows, r.names = columns

namespace ResultSet

def stored (q : ResultSet) : List (List (Option RubyValue)) :=
  q.rows.map fun r => r.cells.map storedValue

def delivered (q : ResultSet) : List (List (Option RubyValue)) :=
  q.rows.map fun r => r.mEach.map Prod.snd

lemma length_mEach {q : ResultSet} {r : StmtRow} (h : r ∈ q.rows) :
    (r.mEach.map Prod.snd).length = q.columns.length := by
  rw [List.length_map, StmtRow.mEach, List.length_zip, List.length_map, r.width, q.named r h,
    Nat.min_self]

def statement (q : ResultSet) : Statement RubyValue where
  columns := q.columns
  rows := q.delivered
  final := sqliteDone
  width := by
    intro row hrow
    obtain ⟨r, hr, rfl⟩ := List.mem_map.mp hrow
    exact length_mEach hr
  stops := by decide

end ResultSet

/-- A statement with the rows of its result set that its steps do not reach. -/
structure Scan (ν : Type) where
  statement : Statement ν
  unread : List (List (Option ν))
  complete : statement.final = sqliteDone → unread = []

end ModGate.Ruby
