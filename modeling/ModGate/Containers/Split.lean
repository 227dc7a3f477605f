import Mathlib.Data.List.Basic

/-! Splitting a sequence at a delimiter by reading one item after another, as a stream is read line
by line: a delimiter ends an item, and an empty rest is no item. -/

namespace ModGate.Containers

section Intercalate

variable {α : Type} (delim : α)

lemma intercalate_cons_cons (p q : List α) (ps : List (List α)) :
    List.intercalate [delim] (p :: q :: ps) = p ++ delim :: List.intercalate [delim] (q :: ps) := by
  simp [List.intercalate]

lemma mem_intercalate {pieces : List (List α)} {c : α}
    (h : c ∈ List.intercalate [delim] pieces) : c = delim ∨ ∃ p ∈ pieces, c ∈ p := by
  induction pieces with
  | nil => simp [List.intercalate] at h
  | cons p ps ih =>
    cases ps with
    | nil => exact Or.inr ⟨p, by simp, by simpa [List.intercalate] using h⟩
    | cons q ps =>
      rw [intercalate_cons_cons, List.mem_append, List.mem_cons] at h
      rcases h with h | h | h
      · exact Or.inr ⟨p, by simp, h⟩
      · exact Or.inl h
      · exact (ih h).imp_right fun ⟨r, hr, hc⟩ => ⟨r, List.mem_cons_of_mem _ hr, hc⟩

end Intercalate

variable {α : Type} [DecidableEq α] (delim : α)

def readItems (item : List α) : List α → List (List α)
  | [] => if item = [] then [] else [item]
  | c :: rest => if c = delim then item :: readItems [] rest else readItems (item ++ [c]) rest

def splitAt (s : List α) : List (List α) := readItems delim [] s

lemma readItems_append {piece : List α} (h : delim ∉ piece) (item rest : List α) :
    readItems delim item (piece ++ rest) = readItems delim (item ++ piece) rest := by
  induction piece generalizing item with
  | nil => simp
  | cons c piece ih =>
    have hc : c ≠ delim := fun hh => h (by simp [hh])
    have hpiece : delim ∉ piece := fun hh => h (by simp [hh])
    rw [List.cons_append, readItems, if_neg hc, ih hpiece, List.append_assoc]
    rfl

lemma splitAt_piece {piece : List α} (h : delim ∉ piece) (hne : piece ≠ []) :
    splitAt delim piece = [piece] := by
  have hread := readItems_append delim h [] []
  rw [List.append_nil, List.nil_append] at hread
  rw [splitAt, hread, readItems, if_neg hne]

lemma splitAt_cons {piece : List α} (h : delim ∉ piece) (rest : List α) :
    splitAt delim (piece ++ delim :: rest) = piece :: splitAt delim rest := by
  rw [splitAt, readItems_append delim h, readItems, if_pos rfl, List.nil_append]
  rfl

lemma splitAt_intercalate {pieces : List (List α)}
    (h : ∀ p ∈ pieces, delim ∉ p ∧ p ≠ []) :
    splitAt delim (List.intercalate [delim] pieces) = pieces := by
  induction pieces with
  | nil => rfl
  | cons p ps ih =>
    obtain ⟨hp, hps⟩ := List.forall_mem_cons.mp h
    cases ps with
    | nil => simpa [List.intercalate] using splitAt_piece delim hp.1 hp.2
    | cons q ps => rw [intercalate_cons_cons, splitAt_cons delim hp.1, ih hps]

lemma readItems_delim (item s rest : List α) :
    ∃ ends, (ends = [] ∨ ends = [[]]) ∧
      readItems delim item (s ++ delim :: rest) =
        readItems delim item s ++ ends ++ splitAt delim rest := by
  induction s generalizing item with
  | nil =>
    by_cases hitem : item = []
    · exact ⟨[[]], Or.inr rfl, by simp [readItems, splitAt, hitem]⟩
    · exact ⟨[], Or.inl rfl, by simp [readItems, splitAt, hitem]⟩
  | cons c s ih =>
    by_cases hc : c = delim
    · obtain ⟨ends, hends, hread⟩ := ih []
      exact ⟨ends, hends, by simp [readItems, hc, hread]⟩
    · obtain ⟨ends, hends, hread⟩ := ih (item ++ [c])
      exact ⟨ends, hends, by simp [readItems, hc, hread]⟩

/-- Only an empty item at the end of the first part can appear in the middle. -/
lemma splitAt_append (s rest : List α) :
    ∃ ends, (ends = [] ∨ ends = [[]]) ∧
      splitAt delim (s ++ delim :: rest) = splitAt delim s ++ ends ++ splitAt delim rest :=
  readItems_delim delim [] s rest

end ModGate.Containers
