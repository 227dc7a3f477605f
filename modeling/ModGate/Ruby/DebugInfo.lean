import ModGate.Ruby.Backtrace
import ModGate.Search.UpperBound
import Mathlib.Data.List.Chain

/-! The debug information that the compiler leaves for the instructions of a code block, and the
files and lines that a backtrace reads from it. -/

namespace ModGate.Ruby

open Search

inductive LineTable
  | ary (lines : List UInt16)
  | flatMap (entries : List (ℕ × UInt16))

structure DebugFile where
  startPos : ℕ
  filename : CString
  lines : LineTable

/-- `flen` has 16 bits; the entries of `files` behind it are lost. -/
structure DebugInfo where
  pcCount : ℕ
  flen : ℕ
  files : List DebugFile

structure CodeBlock where
  ilen : ℕ
  filename : Option CString
  lines : Option (List UInt16)
  debugInfo : Option DebugInfo

/-! Lookup. The outer `none` is a read outside of an array. -/

def getFile (info : DebugInfo) (pc : ℕ) : Option (Option DebugFile) :=
  if pc ≥ info.pcCount then some none
  else (lastReached DebugFile.startPos (info.files.take info.flen) pc).map some

def LineTable.line (startPos pc : ℕ) : LineTable → Option ℤ
  | .ary lines => lines[pc - startPos]?.map fun line => (line.toNat : ℤ)
  | .flatMap entries => (lastReached Prod.fst entries pc).map fun entry => (entry.2.toNat : ℤ)

def mrbDebugGetFilename (irep : CodeBlock) (pc : ℕ) : Option (Option CString) :=
  if pc < irep.ilen then
    match irep.debugInfo with
    | none => some irep.filename
    | some info => (getFile info pc).map fun f => f.map DebugFile.filename
  else some none

def mrbDebugGetLine (irep : CodeBlock) (pc : ℕ) : Option ℤ :=
  if pc < irep.ilen then
    match irep.debugInfo with
    | none =>
      match irep.lines with
      | none => some (-1)
      | some lines => lines[pc]?.map fun line => (line.toNat : ℤ)
    | some info =>
      match getFile info pc with
      | none => none
      | some none => some (-1)
      | some (some f) => f.lines.line f.startPos pc
  else some (-1)

/-! Construction. -/

inductive LineType
  | ary
  | flatMap
deriving DecidableEq

-- `prev_line` stays -1; an entry of the map takes eight bytes.
def selectLineType (lines : List UInt16) : LineType :=
  let prevLine : ℤ := -1
  let lineCount := lines.countP fun line => (line.toNat : ℤ) ≠ prevLine
  if 2 * lines.length ≤ 8 * lineCount then .ary else .flatMap

def flatMapEntries : ℕ → UInt16 → List UInt16 → List (ℕ × UInt16)
  | _, _, [] => []
  | pos, prevLine, line :: lines =>
    if line = prevLine then flatMapEntries (pos + 1) prevLine lines
    else (pos, line) :: flatMapEntries (pos + 1) line lines

def lineTable (startPos : ℕ) (lines : List UInt16) : LineType → LineTable
  | .ary => .ary lines
  | .flatMap => .flatMap (flatMapEntries startPos 0 lines)

def mrbDebugInfoAppendFile (filename : CString) (lines : List UInt16) (startPos endPos : ℕ)
    (info : DebugInfo) : DebugInfo :=
  if (info.files.take info.flen).getLast?.map (fun f => f.filename.bytes) = some filename.bytes then
    info
  else
    let own := (lines.drop startPos).take (endPos - startPos)
    { pcCount := endPos
      flen := (info.flen + 1) % 65536
      files := info.files.take info.flen ++
        [⟨startPos, filename, lineTable startPos own (selectLineType own)⟩] }

/-- The instructions that the compiler emits between two changes of the file, by the lines of the
source that they come from. -/
structure Segment where
  filename : CString
  lines : List ℕ

-- A node of the syntax tree keeps 16 bits of its line.
def Segment.kept (g : Segment) : List UInt16 := g.lines.map UInt16.ofNat

def keptLines (segments : List Segment) : List UInt16 := segments.flatMap Segment.kept

def appendSegments (lines : List UInt16) : List Segment → ℕ → DebugInfo → DebugInfo
  | [], _, info => info
  | g :: gs, startPos, info =>
    appendSegments lines gs (startPos + g.kept.length)
      (mrbDebugInfoAppendFile g.filename lines startPos (startPos + g.kept.length) info)

def compiled (segments : List Segment) : CodeBlock where
  ilen := (keptLines segments).length
  filename := segments.getLast?.map Segment.filename
  lines := some (keptLines segments)
  debugInfo := some (appendSegments (keptLines segments) segments 0 ⟨0, 0, []⟩)

def Apart (g g' : Segment) : Prop := g.filename.bytes ≠ g'.filename.bytes

section Found

variable {segments before after : List Segment} {g : Segment} {i : ℕ} {line : UInt16}

end Found

/-! The report of a frame. -/

-- A read outside of the tables gives nothing that could be told.
def CodeBlock.irep (b : CodeBlock) (iseq : ℤ) : Irep where
  iseq := iseq
  debugGetFilename := fun pc => (mrbDebugGetFilename b pc.toNat).join
  debugGetLine := fun pc => Int32.ofInt ((mrbDebugGetLine b pc.toNat).getD (-1))

lemma flatMapEntries_le {pos : ℕ} {prevLine : UInt16} {lines : List UInt16} :
    ∀ entry ∈ flatMapEntries pos prevLine lines, pos ≤ entry.1 := by
  induction lines generalizing pos prevLine with
  | nil => exact fun entry h => absurd h List.not_mem_nil
  | cons line lines ih =>
    rw [flatMapEntries]
    intro entry h
    split at h
    · exact (Nat.le_succ pos).trans (ih entry h)
    · rcases List.mem_cons.mp h with rfl | h
      · exact Nat.le_refl _
      · exact (Nat.le_succ pos).trans (ih entry h)

lemma flatMapEntries_sorted (pos : ℕ) (prevLine : UInt16) (lines : List UInt16) :
    (flatMapEntries pos prevLine lines).Pairwise fun e e' => e.1 ≤ e'.1 := by
  induction lines generalizing pos prevLine with
  | nil => exact List.Pairwise.nil
  | cons line lines ih =>
    rw [flatMapEntries]
    split
    · exact ih _ _
    · apply List.Pairwise.cons _ (ih _ _)
      intro entry h
      exact (Nat.le_succ pos).trans (flatMapEntries_le entry h)

lemma flatMapEntries_behind (pos : ℕ) (prevLine : UInt16) (lines : List UInt16) :
    ((flatMapEntries (pos + 1) prevLine lines).takeWhile fun e => e.1 ≤ pos) = [] := by
  cases hentries : flatMapEntries (pos + 1) prevLine lines with
  | nil => rfl
  | cons entry entries =>
    have hle : pos + 1 ≤ entry.1 := by
      apply flatMapEntries_le entry
      rw [hentries]
      exact List.mem_cons_self
    apply List.takeWhile_cons_of_neg
    simp only [decide_eq_true_eq]
    omega

lemma flatMapEntries_line {pos i : ℕ} {prevLine line : UInt16} {lines : List UInt16}
    (h : lines[i]? = some line) :
    ((((flatMapEntries pos prevLine lines).takeWhile fun e => e.1 ≤ pos + i).getLast?).map
      Prod.snd).getD prevLine = line := by
  induction lines generalizing pos prevLine i with
  | nil => cases h
  | cons first lines ih =>
    rw [flatMapEntries]
    cases i with
    | zero =>
      cases h
      split
      · next hsame =>
        rw [Nat.add_zero, flatMapEntries_behind, hsame]
        rfl
      · rw [List.takeWhile_cons_of_pos (by simp), Nat.add_zero, flatMapEntries_behind]
        rfl
    | succ i =>
      rw [List.getElem?_cons_succ] at h
      have hpos : pos + (i + 1) = pos + 1 + i := by omega
      rw [hpos]
      split
      · exact ih h
      · rw [List.takeWhile_cons_of_pos (by simp; omega), List.getLast?_cons]
        have hrest := @ih (pos + 1) i first h
        generalize (List.takeWhile _ _).getLast? = last at hrest ⊢
        cases last with
        | none => exact hrest
        | some entry => exact hrest

theorem flat_map_agrees_iff (startPos : ℕ) (lines : List UInt16) :
    ((∀ i < lines.length, (lineTable startPos lines .flatMap).line startPos (startPos + i) =
        (lineTable startPos lines .ary).line startPos (startPos + i)) ↔
      lines.head? ≠ some 0) ∧
      (lines.head? = some 0 →
        (lineTable startPos lines .flatMap).line startPos startPos = none) := by
  have hlookup : ∀ i, (lineTable startPos lines .flatMap).line startPos (startPos + i) =
      (((flatMapEntries startPos 0 lines).takeWhile fun e => e.1 ≤ startPos + i).getLast?).map
        fun entry => (entry.2.toNat : ℤ) := by
    intro i
    simp only [lineTable, LineTable.line, lastReached_eq (flatMapEntries_sorted startPos 0 lines)]
  cases lines with
  | nil => simp
  | cons first lines =>
    by_cases hzero : first = 0
    · subst hzero
      have hnone :
          (lineTable startPos (0 :: lines) .flatMap).line startPos (startPos + 0) = none := by
        rw [hlookup, flatMapEntries, if_pos rfl, Nat.add_zero, flatMapEntries_behind]
        rfl
      refine ⟨⟨?_, ?_⟩, fun _ => hnone⟩
      · intro hall
        have hfirst := hall 0 (Nat.zero_lt_succ _)
        rw [hnone] at hfirst
        simp [lineTable, LineTable.line] at hfirst
      · intro hne
        exact absurd rfl hne
    · have hhead : (first :: lines).head? ≠ some 0 := by simpa using hzero
      refine ⟨iff_of_true (fun i hi => ?_) hhead, fun h => absurd h hhead⟩
      have hline := @flatMapEntries_line startPos i 0 _ _ (List.getElem?_eq_getElem hi)
      rw [hlookup]
      rw [flatMapEntries, if_neg hzero, List.takeWhile_cons_of_pos (by simp),
        List.getLast?_cons] at hline ⊢
      simp only [Option.map_some, Option.getD_some] at hline ⊢
      rw [hline]
      simp only [lineTable, LineTable.line, Nat.add_sub_cancel_left, List.getElem?_eq_getElem hi,
        Option.map_some]

end ModGate.Ruby
