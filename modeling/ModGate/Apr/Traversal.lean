import ModGate.Apr.Iterator
import Mathlib.Data.List.Enum

/-! The loop `while (i.next())` over a table that stays as it is, and the text of `table::join`. -/

namespace ModGate.Apr

open Config

variable {β : Type}

-- The result is `none` when the given number of `next` calls does not end the loop.
def whileNext (body : State → β → β) : ℕ → State → β → Option (β × State)
  | 0, _, _ => none
  | n + 1, s, b =>
    if s.next.1 then whileNext body n s.next.2 (body s.next.2 b) else some (b, s.next.2)

def State.move (s : State) (i : ℤ) : State := { s with i := i }

@[simp] lemma move_i (s : State) (i : ℤ) : (s.move i).i = i := rfl

@[simp] lemma move_elts (s : State) (i : ℤ) : (s.move i).elts = s.elts := rfl

@[simp] lemma move_nelts (s : State) (i : ℤ) : (s.move i).nelts = s.nelts := rfl

@[simp] lemma move_move (s : State) (i j : ℤ) : (s.move i).move j = s.move j := rfl

/-- The position of an iterator, and what it reads there. -/
abbrev Visit := ℤ × Option (Option String) × Option (Option String)

def visit (s : State) (visited : List Visit) : List Visit := visited ++ [(s.i, s.key, s.data)]

-- A read outside of the table or a NULL would leave no text.
def joinEntry (sep : String) (len : ℤ) (s : State) (strm : Option String) : Option String := do
  let text ← strm
  let key ← s.key.join
  let data ← s.data.join
  return text ++ key ++ "=" ++ data ++ if s.i < len - 1 then sep else ""

def join (sep : String) (t : TableId) (n : ℕ) (s : State) : Option (Option String) :=
  let i := s.construct t
  (whileNext (joinEntry sep i.nelts) n i (some "")).map Prod.fst

section Loop

variable {s : State} {before rest : AprTable} {e : String × String}

lemma nelts_split (h : s.elts = before ++ e :: rest) :
    s.nelts = before.length + (rest.length + 1) := by
  rw [State.nelts, h, List.length_append, List.length_cons]
  rfl

lemma next_entry (h : s.elts = before ++ e :: rest) (hi : s.i = before.length - 1) :
    s.next = (true, s.move before.length) := by
  have hn := nelts_split h
  rw [State.next, if_neg (by omega), if_pos (by omega), hi, Int.sub_add_cancel]
  rfl

lemma next_end (h : s.i = s.nelts - 1) : s.next = (false, s) := if_pos h

lemma read_move (h : s.elts = before ++ e :: rest) (field : String × String → String) :
    (s.move before.length).read field = some (some (field e)) := by
  have hget : s.elts[before.length]? = some e := by
    rw [h, List.getElem?_append_right (Nat.le_refl _), Nat.sub_self]
    rfl
  have helt : (s.move before.length).elt = some e := by
    rw [State.elt, move_i, move_elts, if_pos (Int.natCast_nonneg _), Int.toNat_natCast, hget]
  rw [State.read, move_i, if_pos (by omega), helt]
  rfl

lemma whileNext_entry (body : State → β → β) (n : ℕ) (b : β) (h : s.elts = before ++ e :: rest)
    (hi : s.i = before.length - 1) :
    whileNext body (n + 1) s b =
      whileNext body n (s.move before.length) (body (s.move before.length) b) := by
  rw [whileNext, next_entry h hi]
  rfl

lemma whileNext_end (body : State → β → β) (n : ℕ) (b : β) (h : s.i = s.nelts - 1) :
    whileNext body (n + 1) s b = some (b, s) := by
  rw [whileNext, next_end h]
  rfl

-- The entries in front of `rest` have been visited.
lemma whileNext_rest (body : State → β → β) {n : ℕ} {b : β} (h : s.elts = before ++ rest)
    (hi : s.i = before.length - 1) :
    whileNext body (rest.length + n + 1) s b =
      some ((rest.zipIdx before.length).foldl (fun b p => body (s.move p.2) b) b,
        s.move (s.nelts - 1)) := by
  induction rest generalizing s before b with
  | nil =>
    have hend : s.i = s.nelts - 1 := by
      rw [hi, State.nelts, h, List.append_nil]
    rw [whileNext_end body _ b hend, ← hend]
    rfl
  | cons e rest ih =>
    have hrest := @ih (s.move before.length) (before ++ [e]) (body (s.move before.length) b)
      (by rw [move_elts, h, List.append_assoc]; rfl) (by simp)
    rw [whileNext_entry body _ b h hi, List.length_cons, Nat.add_right_comm, hrest]
    simp

lemma foldl_visit (h : s.elts = before ++ rest) (visited : List Visit) :
    (rest.zipIdx before.length).foldl (fun b p => visit (s.move p.2) b) visited =
      visited ++ (rest.zipIdx before.length).map fun p =>
        ((p.2 : ℤ), some (some p.1.1), some (some p.1.2)) := by
  induction rest generalizing before visited with
  | nil => simp
  | cons e rest ih =>
    have hrest := fun visited => @ih (before ++ [e]) (by rw [h, List.append_assoc]; rfl) visited
    rw [List.length_append, List.length_singleton] at hrest
    rw [List.zipIdx_cons, List.foldl_cons, hrest, visit, State.key, State.data, read_move h,
      read_move h, List.append_assoc]
    rfl

lemma joinEntry_move (h : s.elts = before ++ e :: rest) (sep text : String) (len : ℤ) :
    joinEntry sep len (s.move before.length) (some text) =
      some (text ++ e.1 ++ "=" ++ e.2 ++ if (before.length : ℤ) < len - 1 then sep else "") := by
  simp only [joinEntry, State.key, State.data, read_move h, move_i]
  rfl

lemma foldl_joinEntry (h : s.elts = before ++ rest) (sep text : String) :
    (rest.zipIdx before.length).foldl (fun b p => joinEntry sep s.nelts (s.move p.2) b)
        (some text) =
      some (text ++ sep.intercalate (rest.map fun e => e.1 ++ "=" ++ e.2)) := by
  induction rest generalizing before text with
  | nil => simp
  | cons e rest ih =>
    have hn := nelts_split h
    have hrest := fun text => @ih (before ++ [e]) (by rw [h, List.append_assoc]; rfl) text
    rw [List.length_append, List.length_singleton] at hrest
    rw [List.zipIdx_cons, List.foldl_cons, joinEntry_move h, hrest]
    cases rest with
    | nil =>
      rw [if_neg (by rw [hn, List.length_nil]; omega)]
      simp [String.append_assoc]
    | cons e' rest =>
      rw [if_pos (by rw [hn, List.length_cons]; omega), List.map_cons, List.map_cons, List.map_cons,
        String.intercalate_cons_cons]
      simp only [String.append_assoc]

end Loop

theorem table_traversed_and_joined (s : State) (t : TableId) (sep : String) (n : ℕ) :
    (∃ last, whileNext visit ((s.tables t).length + n + 1) (s.construct t) [] =
        some ((s.tables t).zipIdx.map fun p =>
          ((p.2 : ℤ), some (some p.1.1), some (some p.1.2)), last) ∧
        last.tables = s.tables ∧ last.next.1 = false) ∧
      join sep t ((s.tables t).length + n + 1) s =
        some (some (sep.intercalate ((s.tables t).map fun e => e.1 ++ "=" ++ e.2))) := by
  have helts : (s.construct t).elts = [] ++ s.tables t := rfl
  have hstart : (s.construct t).i = ([] : AprTable).length - 1 := rfl
  constructor
  · refine ⟨(s.construct t).move ((s.construct t).nelts - 1), ?_, rfl, ?_⟩
    · rw [whileNext_rest visit helts hstart, foldl_visit helts]
      rfl
    · rw [next_end rfl]
  · have hjoined := foldl_joinEntry helts sep ""
    rw [String.empty_append] at hjoined
    rw [join, whileNext_rest _ helts hstart, hjoined]
    rfl

example : join ", " 0 3 ⟨fun _ => [("a", "1"), ("b", "2")], 0, -1⟩ = some (some "a=1, b=2") := by
  decide

end ModGate.Apr
