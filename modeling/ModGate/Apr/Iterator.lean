import ModGate.Config.Directives
import ModGate.Transition.Schedule
import Mathlib.Data.Int.Notation
import Mathlib.Logic.Function.Basic

/-! The classes `table` and `table::iterator`: an integer position over entries that may be added
and removed between its moves. -/

namespace ModGate.Apr

open Config Containers Transition

def aprTableAdd (t : AprTable) (key val : String) : AprTable := t ++ [(key, val)]

def aprTableMerge (t : AprTable) (key val : String) : AprTable :=
  Table.merge foldCase (fun old new => old ++ ", " ++ new) t key val

def aprTableUnset (t : AprTable) (key : String) : AprTable := Table.erase foldCase t key

abbrev TableId := ℕ

/-- Any number of tables and an iterator that is bound to one of them. -/
structure State where
  tables : TableId → AprTable
  h : TableId
  i : ℤ

namespace State

def elts (s : State) : AprTable := s.tables s.h

def nelts (s : State) : ℤ := s.elts.length

-- `none` is a read outside of the array.
def elt (s : State) : Option (String × String) :=
  if 0 ≤ s.i then s.elts[s.i.toNat]? else none

-- The position -1 answers NULL without a read.
def read (field : String × String → String) (s : State) : Option (Option String) :=
  if s.i ≠ -1 then s.elt.map fun e => some (field e) else some none

def key (s : State) : Option (Option String) := s.read Prod.fst

def data (s : State) : Option (Option String) := s.read Prod.snd

def assign (h : TableId) (s : State) : State := { s with h := h, i := -1 }

def construct (t : TableId) (s : State) : State := s.assign t

def rebind (t : TableId) (s : State) : State := s.assign t

def seek (idx : Int32) (s : State) : Bool × State :=
  if idx.toInt < s.nelts then (true, { s with i := idx.toInt }) else (false, s)

def rewind (s : State) : Bool × State := (true, { s with i := -1 })

def first (s : State) : Bool × State := (true, if s.nelts > 0 then { s with i := 0 } else s)

def last (s : State) : Bool × State :=
  if s.nelts > 0 then (true, { s with i := s.nelts - 1 }) else (false, s)

def next (s : State) : Bool × State :=
  if s.i = s.nelts - 1 then (false, s)
  else if s.nelts > 0 then (true, { s with i := s.i + 1 })
  else (false, s)

def prev (s : State) : Bool × State :=
  if s.i ≠ -1 then
    if s.i - 1 < 0 then (false, { s with i := s.i - 1 }) else (true, { s with i := s.i - 1 })
  else (false, s)

-- `table::operator[]` gives a new iterator and drops the result of its `seek`.
def index (t : TableId) (idx : Int32) (s : State) : Bool × State := seek idx (construct t s)

def change (t : TableId) (f : AprTable → AprTable) (s : State) : State :=
  { s with tables := Function.update s.tables t (f (s.tables t)) }

end State

inductive Op
  | construct (t : TableId)
  | rebind (t : TableId)
  | seek (idx : Int32)
  | rewind
  | first
  | last
  | next
  | prev
  | index (t : TableId) (idx : Int32)
  | set (t : TableId) (key val : String)
  | add (t : TableId) (key val : String)
  | merge (t : TableId) (key val : String)
  | unset (t : TableId) (key : String)
  | clear (t : TableId)

def step (op : Op) (s : State) : State :=
  match op with
  | .construct t => s.construct t
  | .rebind t => s.rebind t
  | .seek idx => (s.seek idx).2
  | .rewind => s.rewind.2
  | .first => s.first.2
  | .last => s.last.2
  | .next => s.next.2
  | .prev => s.prev.2
  | .index t idx => (s.index t idx).2
  | .set t key val => s.change t fun e => aprTableSet e key val
  | .add t key val => s.change t fun e => aprTableAdd e key val
  | .merge t key val => s.change t fun e => aprTableMerge e key val
  | .unset t key => s.change t fun e => aprTableUnset e key
  | .clear t => s.change t fun _ => []

-- A `seek`, `next` or `prev` that returns true.
def Moves (op : Op) (s : State) : Prop :=
  match op with
  | .seek idx => (s.seek idx).1 = true
  | .next => s.next.1 = true
  | .prev => s.prev.1 = true
  | .index t idx => (s.index t idx).1 = true
  | _ => False

structure Inside (s : State) : Prop where
  lower : 0 ≤ s.i
  upper : s.i < s.nelts
  read : ∃ e ∈ s.elts, s.key = some (some e.1) ∧ s.data = some (some e.2)

/-- No negative index is sought, and the position is not behind the end of the table, as it is
after entries have been removed, when the iterator moves. -/
def Proper (op : Op) (s : State) : Prop :=
  match op with
  | .seek idx => 0 ≤ idx.toInt
  | .index _ idx => 0 ≤ idx.toInt
  | .next => s.nelts = 0 ∨ s.i < s.nelts
  | .prev => s.i ≤ s.nelts
  | _ => True

lemma nelts_nonneg (s : State) : 0 ≤ s.nelts := Int.natCast_nonneg _

lemma inside_iff (s : State) : Inside s ↔ 0 ≤ s.i ∧ s.i < s.nelts := by
  constructor
  · intro h
    exact ⟨h.lower, h.upper⟩
  · rintro ⟨hl, hu⟩
    have hne : s.i ≠ -1 := by omega
    have hlt : s.i.toNat < s.elts.length := by
      have hcast : s.nelts = s.elts.length := rfl
      omega
    have hread : ∀ field, s.read field = some (some (field s.elts[s.i.toNat])) := by
      intro field
      rw [State.read, if_pos hne, State.elt, if_pos hl, List.getElem?_eq_getElem hlt]
      rfl
    exact ⟨hl, hu, s.elts[s.i.toNat], List.getElem_mem hlt, hread Prod.fst, hread Prod.snd⟩

lemma refused_iff {s : State} {p : Prop} (h : p) :
    ((false, s).1 = true → Inside (false, s).2) ↔ p :=
  iff_of_true (fun hmoved => absurd hmoved Bool.false_ne_true) h

lemma seek_inside_iff (idx : Int32) (s : State) :
    ((s.seek idx).1 = true → Inside (s.seek idx).2) ↔ 0 ≤ idx.toInt := by
  have hn := nelts_nonneg s
  by_cases hidx : idx.toInt < s.nelts
  · rw [State.seek, if_pos hidx, inside_iff]
    exact ⟨fun h => (h rfl).1, fun h _ => ⟨h, hidx⟩⟩
  · rw [State.seek, if_neg hidx]
    exact refused_iff (by omega)

lemma next_inside_iff {s : State} (h : -1 ≤ s.i) :
    (s.next.1 = true → Inside s.next.2) ↔ s.nelts = 0 ∨ s.i < s.nelts := by
  have hn := nelts_nonneg s
  by_cases hlast : s.i = s.nelts - 1
  · rw [State.next, if_pos hlast]
    exact refused_iff (by omega)
  · by_cases hpos : s.nelts > 0
    · rw [State.next, if_neg hlast, if_pos hpos, inside_iff]
      have hnelts : State.nelts { s with i := s.i + 1 } = s.nelts := rfl
      simp only [hnelts, true_implies]
      omega
    · rw [State.next, if_neg hlast, if_neg hpos]
      exact refused_iff (by omega)

lemma prev_inside_iff {s : State} (h : -1 ≤ s.i) :
    (s.prev.1 = true → Inside s.prev.2) ↔ s.i ≤ s.nelts := by
  have hn := nelts_nonneg s
  by_cases hsentinel : s.i ≠ -1
  · by_cases hzero : s.i - 1 < 0
    · rw [State.prev, if_pos hsentinel, if_pos hzero]
      exact refused_iff (by omega)
    · rw [State.prev, if_pos hsentinel, if_neg hzero, inside_iff]
      have hnelts : State.nelts { s with i := s.i - 1 } = s.nelts := rfl
      simp only [hnelts, true_implies]
      omega
  · rw [State.prev, if_neg hsentinel]
    exact refused_iff (by omega)

lemma step_inside_iff {op : Op} {s : State} (h : -1 ≤ s.i) :
    (Moves op s → Inside (step op s)) ↔ Proper op s := by
  cases op with
  | seek idx => exact seek_inside_iff idx s
  | index t idx => exact seek_inside_iff idx (s.construct t)
  | next => exact next_inside_iff h
  | prev => exact prev_inside_iff h
  | construct t | rebind t | rewind | first | last | set t key val | add t key val
  | merge t key val | unset t key | clear t => exact iff_of_true False.elim trivial

lemma lower_step {op : Op} {s : State} (hop : Proper op s) (h : -1 ≤ s.i) : -1 ≤ (step op s).i := by
  have hn := nelts_nonneg s
  cases op with
  | construct t | rebind t | rewind => exact Int.le_refl _
  | set t key val | add t key val | merge t key val | unset t key | clear t => exact h
  | seek idx =>
    have hidx : 0 ≤ idx.toInt := hop
    simp only [step, State.seek]
    split
    · exact Int.le_trans (by decide) hidx
    · exact h
  | index t idx =>
    have hidx : 0 ≤ idx.toInt := hop
    simp only [step, State.index, State.seek]
    split
    · exact Int.le_trans (by decide) hidx
    · exact Int.le_refl _
  | first =>
    simp only [step, State.first]
    split
    · exact (by decide : (-1 : ℤ) ≤ 0)
    · exact h
  | last =>
    simp only [step, State.last]
    split
    · simp only
      omega
    · exact h
  | next =>
    simp only [step, State.next]
    split_ifs
    · exact h
    · simp only
      omega
    · exact h
  | prev =>
    simp only [step, State.prev]
    split_ifs <;> simp only <;> omega

theorem iterator_inside_iff (tables : TableId → AprTable) (t : TableId) (ops : List Op) :
    Along step (fun op s => Moves op s → Inside (step op s)) ops ⟨tables, t, -1⟩ ↔
      Along step Proper ops ⟨tables, t, -1⟩ :=
  @along_congr _ _ _ (fun s => -1 ≤ s.i) _ _ (fun _ _ h => step_inside_iff h)
    (fun _ _ hop h => lower_step hop h) ops _ (Int.le_refl _)

def letters : TableId → AprTable := fun _ => [("a", "1"), ("b", "2"), ("c", "3")]

theorem iterator_leaves_table :
    let sought := State.seek (-5) ⟨letters, 0, -1⟩
    let shrunk := run step [.last, .unset 0 "b", .unset 0 "c"] ⟨letters, 0, -1⟩
    (sought.1 = true ∧ sought.2.i = -5 ∧ sought.2.key = none ∧ ¬ Inside sought.2) ∧
      shrunk.nelts = 1 ∧ shrunk.next.1 = true ∧ shrunk.next.2.i = 3 ∧ ¬ Inside shrunk.next.2 ∧
      shrunk.prev.1 = true ∧ shrunk.prev.2.i = 1 ∧ ¬ Inside shrunk.prev.2 := by
  intro sought shrunk
  simp only [inside_iff]
  decide

end ModGate.Apr
