import ModGate.Sql.Relation
import Mathlib.Data.List.Nodup

/-! The table `ip` of a filter database: its schema, its rows in rowid order, and the three
statements that the programs run on it. -/

namespace ModGate.Database

open Sql

inductive Column
  | id
  | startText
  | endText
  | startBound
  | endBound
  | httpCode
  | httpMessage
  | note
deriving DecidableEq

/-- The columns `start` and `end` are `startBound` and `endBound`. A text column holds NULL or
a text; a column that the schema lacks is NULL. -/
structure IpRow where
  id : ℤ
  startText : Option String
  endText : Option String
  startBound : Value
  endBound : Value
  httpCode : Value
  httpMessage : Option String
  note : Option String
deriving DecidableEq

def textCell : Option String → Value := fun s => s.elim .null .text

def IpRow.cells (r : IpRow) : Column → Value
  | .id => .integer r.id
  | .startText => textCell r.startText
  | .endText => textCell r.endText
  | .startBound => r.startBound
  | .endBound => r.endBound
  | .httpCode => r.httpCode
  | .httpMessage => textCell r.httpMessage
  | .note => textCell r.note

def PlainBound (v : Value) : Prop := v = .null ∨ v = .text "" ∨ ∃ i, v = .integer i

structure IpTable where
  columns : List Column
  rows : List IpRow
  ordered : rows.Pairwise fun r s => r.id < s.id

namespace IpTable

@[ext] lemma ext {t u : IpTable} (hc : t.columns = u.columns) (hr : t.rows = u.rows) : t = u := by
  cases t
  cases u
  cases hc
  cases hr
  rfl

def ids (t : IpTable) : List ℤ := t.rows.map IpRow.id

lemma ids_nodup (t : IpTable) : t.ids.Nodup :=
  (List.pairwise_map.mpr t.ordered).imp ne_of_lt

lemma eq_of_id_eq (t : IpTable) {r s : IpRow} (hr : r ∈ t.rows) (hs : s ∈ t.rows)
    (h : r.id = s.id) : r = s :=
  List.inj_on_of_nodup_map t.ids_nodup hr hs h

def find (t : IpTable) (id : ℤ) : Option IpRow := t.rows.find? fun r => r.id = id

lemma find_eq_some {t : IpTable} {id : ℤ} {r : IpRow} (h : t.find id = some r) :
    r ∈ t.rows ∧ r.id = id :=
  ⟨List.mem_of_find?_eq_some h, by simpa using List.find?_some h⟩

lemma find_eq_none {t : IpTable} {id : ℤ} (h : t.find id = none) : ∀ r ∈ t.rows, r.id ≠ id := by
  simpa [find] using h

lemma find_of_mem {t : IpTable} {r : IpRow} (hr : r ∈ t.rows) : t.find r.id = some r := by
  cases hf : t.find r.id with
  | none => exact (find_eq_none hf r hr rfl).elim
  | some q =>
    obtain ⟨hq, hid⟩ := find_eq_some hf
    rw [t.eq_of_id_eq hq hr hid]

def updateId (t : IpTable) (id : ℤ) (f : IpRow → IpRow) (hf : ∀ r, (f r).id = r.id) : IpTable where
  columns := t.columns
  rows := rewrite IpRow.id id f t.rows
  ordered := by
    apply List.pairwise_map.mp
    rw [rewrite_keys IpRow.id id hf]
    exact List.pairwise_map.mpr t.ordered

/-- `INSERT INTO ip (…) VALUES (…)`: refused when a named column is missing; the new rowid is
one above the largest. -/
def insert (t : IpTable) (named : List Column) (row : ℤ → IpRow) (hrow : ∀ i, (row i).id = i) :
    Option IpTable :=
  if ∀ c ∈ named, c ∈ t.columns then
    some {
      columns := t.columns
      rows := t.rows ++ [row ((t.rows.getLast?.map IpRow.id).elim 1 (· + 1))]
      ordered := by
        apply List.pairwise_append.mpr
        refine ⟨t.ordered, by simp, ?_⟩
        intro r hr s hs
        obtain rfl := List.mem_singleton.mp hs
        obtain ⟨l, last, hl⟩ : ∃ l last, t.rows = l ++ [last] :=
          ⟨_, _, (List.dropLast_append_getLast (List.ne_nil_of_mem hr)).symm⟩
        have ho := t.ordered
        rw [hl, List.pairwise_append] at ho
        rw [hl] at hr
        have hle : r.id ≤ last.id := by
          rcases List.mem_append.mp hr with h | h
          · exact le_of_lt (ho.2.2 r h last (by simp))
          · rw [List.mem_singleton.mp h]
        simp only [hl, hrow, List.getLast?_append, List.getLast?_singleton, Option.some_or,
          Option.map_some, Option.elim_some]
        omega }
  else none

lemma insert_present {t : IpTable} {named : List Column} (h : ∀ c ∈ named, c ∈ t.columns)
    (row : ℤ → IpRow) (hrow : ∀ i, (row i).id = i) :
    ∃ t' id, t.insert named row hrow = some t' ∧ t'.columns = t.columns ∧
      t'.rows = t.rows ++ [row id] :=
  ⟨_, _, if_pos h, rfl, rfl⟩

end IpTable

def emptyIp : IpTable where
  columns := [.id, .startText, .endText, .startBound, .endBound, .httpCode, .httpMessage]
  rows := []
  ordered := List.Pairwise.nil

def oneRow (r : IpRow) : IpTable where
  columns := emptyIp.columns
  rows := [r]
  ordered := List.pairwise_singleton _ r

-- `create_database` refuses a readable file; otherwise opening the database and running the schema
-- can each fail. The table is the one created, if any.
def createDatabase (readable openFails executeFails : Bool) : ℤ × Option IpTable :=
  if readable then (1, none)
  else if openFails then (1, none)
  else if executeFails then (1, none)
  else (0, some emptyIp)

end ModGate.Database
