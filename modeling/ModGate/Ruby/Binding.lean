import ModGate.Sql.Value
import ModGate.Net.Address

/-! The Ruby class `SQLite3Stmt`: the values of the current row as its accessors return them. -/

namespace ModGate.Ruby

open Sql Net

/-- A Ruby value other than nil, which is `none` in what follows. -/
inductive RubyValue
  | fixnum (i : ℤ)
  | float (q : ℚ)
  | string (bytes : List UInt8)
deriving DecidableEq

def utf8 (s : String) : List UInt8 := s.toUTF8.data.toList

-- An INTEGER is read with `sqlite3_column_int`.
def columnValue : Value → Option RubyValue
  | .integer i => some (.fixnum (Value.integer i).columnInt)
  | .real q => some (.float q)
  | .blob b => some (.string b)
  | .null => none
  | .text s => some (.string (utf8 s))

/-- The Ruby value that stands for a stored one. -/
def storedValue : Value → Option RubyValue
  | .integer i => some (.fixnum i)
  | .real q => some (.float q)
  | .blob b => some (.string b)
  | .null => none
  | .text s => some (.string (utf8 s))

structure StmtRow where
  names : List String
  cells : List Value
  width : cells.length = names.length

namespace StmtRow

-- SQLite answers NULL for a column that does not exist.
def cell (r : StmtRow) (i : ℤ) : Value := if 0 ≤ i then r.cells.getD i.toNat .null else .null

def mColumn (r : StmtRow) (i : ℤ) : Option RubyValue := columnValue (r.cell i)

def mEach (r : StmtRow) : List (String × Option RubyValue) := r.names.zip (r.cells.map columnValue)

def mColumnInt (r : StmtRow) (i : ℤ) : Option RubyValue :=
  if i ≥ r.names.length then none else some (.fixnum (r.cell i).columnInt)

/-- The four accessors: `column` and `[]` are both `m_column`. -/
structure Returns (r : StmtRow) (i : ℕ) (v : ℤ) : Prop where
  column : r.mColumn i = some (.fixnum v)
  each : r.mEach[i]?.map Prod.snd = some (some (.fixnum v))
  columnInt : r.mColumnInt i = some (.fixnum v)

section Integer

variable {r : StmtRow} {i : ℕ} {v : ℤ}

lemma cell_integer (h : r.cells[i]? = some (.integer v)) : r.cell i = .integer v := by
  rw [cell, if_pos (Int.natCast_nonneg i), Int.toNat_natCast, List.getD_eq_getElem?_getD, h]
  rfl

lemma mColumn_integer (h : r.cells[i]? = some (.integer v)) :
    r.mColumn i = some (.fixnum (Value.integer v).columnInt) := by
  rw [mColumn, cell_integer h]
  rfl

lemma mEach_integer (h : r.cells[i]? = some (.integer v)) :
    r.mEach[i]?.map Prod.snd = some (some (.fixnum (Value.integer v).columnInt)) := by
  obtain ⟨hi, -⟩ := List.getElem?_eq_some_iff.mp h
  have hname : i < r.names.length := r.width ▸ hi
  have hcell : (r.cells.map columnValue)[i]? = some (columnValue (.integer v)) := by
    rw [List.getElem?_map, h, Option.map_some]
  have hpair : r.mEach[i]? = some (r.names[i], columnValue (.integer v)) :=
    List.getElem?_zip_eq_some.mpr ⟨List.getElem?_eq_getElem hname, hcell⟩
  rw [hpair]
  rfl

lemma mColumnInt_integer (h : r.cells[i]? = some (.integer v)) :
    r.mColumnInt i = some (.fixnum (Value.integer v).columnInt) := by
  obtain ⟨hi, -⟩ := List.getElem?_eq_some_iff.mp h
  have hname : ¬ (i : ℤ) ≥ r.names.length := by
    rw [← r.width]
    omega
  rw [mColumnInt, if_neg hname, cell_integer h]

lemma returns_iff (h : r.cells[i]? = some (.integer v)) : r.Returns i v ↔ Value.Fits32 v := by
  rw [← Value.bmod_eq_self_iff]
  constructor
  · intro hr
    have hcolumn := hr.column
    rw [mColumn_integer h] at hcolumn
    exact RubyValue.fixnum.inj (Option.some.inj hcolumn)
  · intro hv
    have hread : (Value.integer v).columnInt = v := hv
    refine ⟨?_, ?_, ?_⟩
    · rw [mColumn_integer h, hread]
    · rw [mEach_integer h, hread]
    · rw [mColumnInt_integer h, hread]

end Integer

end StmtRow

lemma address_fits32_iff (a : InAddr) : Value.Fits32 (htonl a.sAddr) ↔ (a.first : ℕ) < 128 := by
  have h₁ := a.first.isLt
  have h₂ := a.second.isLt
  have h₃ := a.third.isLt
  have h₄ := a.fourth.isLt
  rw [htonl_sAddr, Value.Fits32, InAddr.value]
  norm_num
  omega

theorem binding_returns_iff (r : StmtRow) (i : ℕ) (v : ℤ) (h : r.cells[i]? = some (.integer v)) :
    (r.Returns i v ↔ Value.Fits32 v) ∧
      ∀ a : InAddr, v = htonl a.sAddr → (r.Returns i v ↔ (a.first : ℕ) < 128) := by
  refine ⟨StmtRow.returns_iff h, ?_⟩
  rintro a rfl
  rw [StmtRow.returns_iff h, address_fits32_iff]

def startRow (a : InAddr) : StmtRow := ⟨["start"], [.integer (htonl a.sAddr)], rfl⟩

theorem loopback_returned : (startRow ⟨127, 0, 0, 1⟩).Returns 0 2130706433 :=
  ((binding_returns_iff (startRow ⟨127, 0, 0, 1⟩) 0 2130706433 rfl).2 ⟨127, 0, 0, 1⟩ rfl).mpr
    (by decide)

theorem upper_address_negative :
    (startRow ⟨192, 0, 2, 1⟩).cells = [.integer 3221225985] ∧
      (startRow ⟨192, 0, 2, 1⟩).mColumn 0 = some (.fixnum (-1073741311)) ∧
      ¬ (startRow ⟨192, 0, 2, 1⟩).Returns 0 3221225985 := by
  have hread : (startRow ⟨192, 0, 2, 1⟩).mColumn 0 = some (.fixnum (-1073741311)) := by decide
  refine ⟨by decide, hread, fun h => ?_⟩
  have hcolumn := h.column
  rw [Nat.cast_zero, hread] at hcolumn
  exact absurd hcolumn (by decide)

end ModGate.Ruby
