import Mathlib.Data.Int.Notation
import Mathlib.Data.List.Infix
import Mathlib.Tactic.Common

/-! The backtrace of a Ruby exception: the texts that `output_backtrace` formats for the frames of
the call stack, and the bytes of them that `format` appends. -/

namespace ModGate.Ruby

def ascii (s : String) : List UInt8 := s.toList.map fun c => UInt8.ofNat c.toNat

structure CString where
  bytes : List UInt8
  noNul : 0 ∉ bytes

def buffLen : ℕ := 1024

-- The buffer is not initialized.
structure Buff where
  bytes : List UInt8
  length : bytes.length = buffLen

def intMax : ℕ := 2147483647

def memcpy (dst src : List UInt8) : List UInt8 := src ++ dst.drop src.length

-- At most `n - 1` bytes and a NUL are stored; a length beyond `INT_MAX` is an error.
def vsnprintf (buff : List UInt8) (n : ℕ) (text : List UInt8) : ℤ × List UInt8 :=
  if text.length ≤ intMax then (text.length, memcpy buff (text.take (n - 1) ++ [0]))
  else (-1, buff)

def brokenVsnprintf : List UInt8 := ascii "<broken vsnprintf>"

/-- The bytes that are appended for a formatted text. -/
def format (buff : Buff) (text : List UInt8) : List UInt8 :=
  let maxlen := buffLen - 1
  let (vlen, buff) := vsnprintf buff.bytes maxlen text
  if vlen ≥ maxlen then (buff.set (maxlen - 1) 0).take maxlen
  else if vlen ≥ 0 then (buff.set vlen.toNat 0).take vlen.toNat
  else
    let vlen := brokenVsnprintf.length
    let maxlen := maxlen - 1
    let bytes := if vlen < maxlen then vlen else maxlen
    ((memcpy buff (brokenVsnprintf.take bytes)).set bytes 0).take bytes

/-- A piece is the text, or as much of it as `vsnprintf` stores. -/
structure Faithful (text piece : List UInt8) : Prop where
  initial : piece <+: text
  whole : text.length < buffLen - 1 → piece = text
  stored : buffLen - 1 ≤ text.length → piece = text.take (buffLen - 2)

section Format

variable {buff : Buff} {text : List UInt8}

lemma take_set_memcpy (dst : List UInt8) {src : List UInt8} {n : ℕ} (h : n ≤ src.length) (k : ℕ) :
    ((memcpy dst src).set k 0).take n = (src.take n).set k 0 := by
  rw [List.take_set, memcpy, List.take_append_of_le_length h]

lemma format_whole (h : text.length < buffLen - 1) : format buff text = text := by
  have hmax : text.length ≤ intMax := by
    simp only [buffLen, intMax] at h ⊢
    omega
  have htake : text.take (buffLen - 1 - 1) = text := List.take_of_length_le (by omega)
  simp only [format, vsnprintf, if_pos hmax, htake]
  rw [if_neg (by omega), if_pos (Int.natCast_nonneg _), Int.toNat_natCast,
    take_set_memcpy _ (by simp), List.take_left, List.set_eq_of_length_le (Nat.le_refl _)]

lemma format_cut (h : buffLen - 1 ≤ text.length) (hmax : text.length ≤ intMax) :
    format buff text = text.take (buffLen - 2) ++ [0] := by
  have hlength : (text.take (buffLen - 1 - 1)).length = buffLen - 1 - 1 :=
    List.length_take_of_le (by omega)
  have hstored : (text.take (buffLen - 1 - 1) ++ [0]).length = buffLen - 1 := by
    rw [List.length_append, hlength]
    rfl
  simp only [format, vsnprintf, if_pos hmax]
  rw [if_pos (by omega), take_set_memcpy _ (Nat.le_of_eq hstored.symm),
    List.take_of_length_le (Nat.le_of_eq hstored), List.set_append_right _ _ (Nat.le_of_eq hlength),
    hlength, Nat.sub_self]
  rfl

lemma format_broken (hmax : intMax < text.length) : format buff text = brokenVsnprintf := by
  have hshort : brokenVsnprintf.length < buffLen - 1 - 1 := by decide
  simp only [format, vsnprintf, if_neg (Nat.not_le_of_lt hmax)]
  rw [if_neg (by decide), if_neg (by decide), if_pos hshort, List.take_length,
    take_set_memcpy _ (Nat.le_refl _), List.take_length, List.set_eq_of_length_le (Nat.le_refl _)]

lemma faithful_format_iff (buff : Buff) (text : List UInt8) :
    Faithful text (format buff text) ↔ text.length < buffLen - 1 := by
  constructor
  · intro h
    by_contra hlong
    have hle : buffLen - 1 ≤ text.length := Nat.le_of_not_lt hlong
    have hlength := congrArg List.length (h.stored hle)
    rw [List.length_take_of_le (by omega)] at hlength
    by_cases hmax : text.length ≤ intMax
    · rw [format_cut hle hmax, List.length_append, List.length_take_of_le (by omega)] at hlength
      exact absurd hlength (by decide)
    · rw [format_broken (Nat.lt_of_not_le hmax)] at hlength
      exact absurd hlength (by decide)
  · intro h
    rw [format_whole h]
    exact ⟨List.prefix_refl text, fun _ => rfl, fun hle => absurd h (Nat.not_lt_of_le hle)⟩

end Format

/-! The call stack. The functions of the interpreter that look up names and lines are fields. -/

abbrev ClassId := ℕ

structure Irep where
  iseq : ℤ
  debugGetFilename : UInt32 → Option CString
  debugGetLine : UInt32 → Int32

inductive Proc
  | cfunc
  | irep (body : Irep) (targetClass : ClassId)

structure CallInfo where
  mid : ℕ
  proc : Option Proc
  pc : ℤ
  err : Option ℤ
  targetClass : ClassId

-- A stack is allocated with 32 frames and only grows.
structure Vm where
  cibase : List CallInfo
  size : 32 ≤ cibase.length
  sym2name : ℕ → Option CString
  className : ClassId → Option CString

inductive Place
  | method (cn : CString) (sep : UInt8) (name : CString)
  | function (name : CString)
  | file

structure Report where
  filename : CString
  lineno : Int32
  place : Place

def unknownFile : CString := ⟨ascii "(unknown)", by decide⟩

def startIndex (vm : Vm) (ciidx : Int32) : ℤ :=
  if ciidx.toInt ≥ vm.cibase.length then 10 else ciidx.toInt

section Frames

variable (vm : Vm) (ciidx pc0 : ℤ)

def position (i : ℕ) (ci : CallInfo) : ℤ :=
  match ci.err, vm.cibase[i + 1]? with
  | some err, _ => err
  | none, some next => if i + 1 ≤ ciidx then next.pc - 1 else pc0
  | none, none => pc0

def place (ci : CallInfo) (targetClass : ClassId) : Place :=
  match vm.sym2name ci.mid with
  | none => .file
  | some method =>
    match vm.className targetClass with
    | none => .function method
    | some cn => .method cn (if ci.targetClass = targetClass then 46 else 35) method

-- A frame without a procedure, of a C function or without a line is passed over.
def report (i : ℕ) : Option Report :=
  match vm.cibase[i]? with
  | none => none
  | some ci =>
    match ci.proc with
    | none => none
    | some .cfunc => none
    | some (.irep irep targetClass) =>
      let offset := UInt32.ofInt (position vm ciidx pc0 i ci - irep.iseq)
      if irep.debugGetLine offset = -1 then none
      else some ⟨(irep.debugGetFilename offset).getD unknownFile, irep.debugGetLine offset,
        place vm ci targetClass⟩

end Frames

def Place.text : Place → List UInt8
  | .method cn sep name => ascii ":in " ++ cn.bytes ++ [sep] ++ name.bytes
  | .function name => ascii ":in " ++ name.bytes
  | .file => []

def Report.text (r : Report) : List UInt8 :=
  r.filename.bytes ++ ascii ":" ++ ascii (toString r.lineno.toInt) ++ r.place.text

def indexText (i : ℕ) : List UInt8 := ascii "\t[" ++ ascii (toString i) ++ ascii "] "

structure Piece where
  text : List UInt8
  appended : List UInt8

structure Trace where
  tracehead : Bool
  pieces : List Piece

def Trace.backtrace (t : Trace) : List UInt8 := t.pieces.flatMap Piece.appended

section Output

variable (buffs : ℕ → Buff) (vm : Vm) (ciidx pc0 : ℤ)

def Trace.format (text : List UInt8) (t : Trace) : Trace :=
  { t with pieces := t.pieces ++ [⟨text, Ruby.format (buffs t.pieces.length) text⟩] }

def outputFrame (i : ℕ) (t : Trace) : Trace :=
  match report vm ciidx pc0 i with
  | none => t
  | some r =>
    let t :=
      if t.tracehead then { t.format buffs (ascii "trace:\n") with tracehead := false } else t
    ((t.format buffs (indexText i)).format buffs r.text).format buffs (ascii "\n")

-- The frames below `n`, from the top.
def outputFrames : ℕ → Trace → Trace
  | 0, t => t
  | i + 1, t => outputFrames i (outputFrame buffs vm ciidx pc0 i t)

def outputBacktrace (ciidx : Int32) : Trace :=
  let ciidx := startIndex vm ciidx
  outputFrames buffs vm ciidx pc0 (ciidx + 1).toNat ⟨true, []⟩

end Output

/-! The only text without a bound is the place of a frame. -/

def Place.size : Place → ℕ
  | .method cn _ name => cn.bytes.length + name.bytes.length + 5
  | .function name => name.bytes.length + 4
  | .file => 0

def Report.size (r : Report) : ℕ :=
  r.filename.bytes.length + (toString r.lineno.toInt).length + r.place.size + 1

lemma length_ascii (s : String) : (ascii s).length = s.length := by
  rw [ascii, List.length_map, String.length_toList]

lemma length_placeText (p : Place) : p.text.length = p.size := by
  have hin : (ascii ":in ").length = 4 := by decide
  cases p with
  | method cn sep name =>
    simp only [Place.text, Place.size, List.length_append, hin, List.length_singleton]
    omega
  | function name =>
    simp only [Place.text, Place.size, List.length_append, hin]
    omega
  | file => rfl

lemma length_reportText (r : Report) : r.text.length = r.size := by
  have hcolon : (ascii ":").length = 1 := by decide
  simp only [Report.text, Report.size, List.length_append, hcolon, length_ascii, length_placeText]
  omega

lemma length_indexText {i : ℕ} (h : i ≤ intMax) : (indexText i).length < buffLen - 1 := by
  have hdigits : (toString i).length ≤ 10 := by
    refine (Nat.length_repr_le_iff (by decide)).mpr ?_
    exact Nat.lt_of_le_of_lt h (by decide)
  have hopen : (ascii "\t[").length = 2 := by decide
  have hclose : (ascii "] ").length = 2 := by decide
  simp only [indexText, List.length_append, hopen, hclose, length_ascii, buffLen]
  omega

def Trace.Faithful (t : Trace) : Prop := ∀ p ∈ t.pieces, Ruby.Faithful p.text p.appended

section Pieces

variable {buffs : ℕ → Buff} {vm : Vm} {ciidx pc0 : ℤ} {t : Trace}

lemma faithful_formatted (text : List UInt8) :
    (t.format buffs text).Faithful ↔ t.Faithful ∧ text.length < buffLen - 1 := by
  rw [Trace.Faithful, Trace.format, List.forall_mem_append, List.forall_mem_singleton,
    faithful_format_iff]
  rfl

lemma faithful_outputFrame {i : ℕ} (h : i ≤ intMax) :
    (outputFrame buffs vm ciidx pc0 i t).Faithful ↔
      t.Faithful ∧ ∀ r, report vm ciidx pc0 i = some r → r.size < buffLen - 1 := by
  cases hr : report vm ciidx pc0 i with
  | none => simp [outputFrame, hr]
  | some r =>
    have hhead : (if t.tracehead then
        { t.format buffs (ascii "trace:\n") with tracehead := false } else t).Faithful ↔
        t.Faithful := by
      split
      · exact (faithful_formatted (ascii "trace:\n")).trans (and_iff_left (by decide))
      · rfl
    have hnewline : (ascii "\n").length < buffLen - 1 := by decide
    simp only [outputFrame, hr]
    rw [faithful_formatted, faithful_formatted, faithful_formatted, hhead, length_reportText,
      and_iff_left hnewline, and_iff_left (length_indexText h)]
    simp

lemma faithful_outputFrames {n : ℕ} (h : n ≤ intMax + 1) :
    (outputFrames buffs vm ciidx pc0 n t).Faithful ↔
      t.Faithful ∧ ∀ i < n, ∀ r, report vm ciidx pc0 i = some r → r.size < buffLen - 1 := by
  induction n generalizing t with
  | zero => simp [outputFrames]
  | succ n ih =>
    rw [outputFrames, ih (Nat.le_of_succ_le h), faithful_outputFrame (Nat.le_of_succ_le_succ h),
      and_assoc]
    refine and_congr_right fun _ => ?_
    constructor
    · rintro ⟨hlast, hbelow⟩ i hi
      rcases Nat.lt_succ_iff_lt_or_eq.mp hi with hi | rfl
      · exact hbelow i hi
      · exact hlast
    · intro hall
      exact ⟨hall n (Nat.lt_succ_self n), fun i hi => hall i (Nat.lt_succ_of_lt hi)⟩

end Pieces

lemma startIndex_le (vm : Vm) (ciidx : Int32) : startIndex vm ciidx ≤ intMax := by
  rw [startIndex]
  split
  · decide
  · exact ciidx.toInt_le

theorem backtrace_pieces_iff (buffs : ℕ → Buff) (vm : Vm) (pc0 : ℤ) (ciidx : Int32) :
    (∀ p ∈ (outputBacktrace buffs vm pc0 ciidx).pieces, Faithful p.text p.appended) ↔
      ∀ i : ℕ, i ≤ startIndex vm ciidx →
        ∀ r, report vm (startIndex vm ciidx) pc0 i = some r → r.size ≤ 1022 := by
  have hstart := startIndex_le vm ciidx
  have hframes := @faithful_outputFrames buffs vm (startIndex vm ciidx) pc0 ⟨true, []⟩
    (startIndex vm ciidx + 1).toNat (by omega)
  have hnone : (⟨true, []⟩ : Trace).Faithful := by
    intro p hp
    cases hp
  refine hframes.trans ((and_iff_right hnone).trans (forall_congr' fun i => ?_))
  have hindex : i < (startIndex vm ciidx + 1).toNat ↔ (i : ℤ) ≤ startIndex vm ciidx := by
    omega
  rw [hindex]
  refine imp_congr_right fun _ => forall₂_congr fun r _ => ?_
  exact Nat.lt_succ_iff

def zeroBuff : Buff := ⟨List.replicate buffLen 0, List.length_replicate⟩

-- One frame of a file, at its first line and outside of any method.
def fileVm (filename : CString) : Vm where
  cibase := ⟨0, some (.irep ⟨0, fun _ => some filename, fun _ => 1⟩ 0), 0, none, 0⟩ ::
    List.replicate 31 ⟨0, none, 0, none, 0⟩
  size := by simp
  sym2name := fun _ => none
  className := fun _ => none

def repeated (n : ℕ) : CString where
  bytes := List.replicate n 97
  noNul := fun h => absurd (List.mem_replicate.mp h).2 (by decide)

lemma fileVm_piece (filename : CString) :
    ⟨filename.bytes ++ ascii ":1", format zeroBuff (filename.bytes ++ ascii ":1")⟩ ∈
      (outputBacktrace (fun _ => zeroBuff) (fileVm filename) 0 0).pieces := by
  have hindex : startIndex (fileVm filename) 0 = 0 := rfl
  have hreport : report (fileVm filename) 0 0 0 = some ⟨filename, 1, .file⟩ := rfl
  have htext : (⟨filename, 1, .file⟩ : Report).text = filename.bytes ++ ascii ":1" := by
    have hline : ascii ":" ++ ascii (toString (1 : Int32).toInt) = ascii ":1" := by decide
    rw [Report.text, Place.text, List.append_nil, List.append_assoc, hline]
  simp only [outputBacktrace, hindex, Int.zero_add, Int.toNat_one, outputFrames, outputFrame,
    hreport, htext, Trace.format]
  simp

lemma fileVm_cut {filename : CString} (h : filename.bytes.length = 1021) :
    let text := filename.bytes ++ ascii ":1"
    let t := outputBacktrace (fun _ => zeroBuff) (fileVm filename) 0 0
    text.length = 1023 ∧ 0 ∉ text ∧ ⟨text, text.take 1022 ++ [0]⟩ ∈ t.pieces ∧ 0 ∈ t.backtrace ∧
      ¬ ∀ p ∈ t.pieces, Faithful p.text p.appended := by
  intro text t
  have hlength : text.length = 1023 := by
    rw [List.length_append, h]
    rfl
  have hcut : format zeroBuff text = text.take 1022 ++ [0] :=
    format_cut (Nat.le_of_eq hlength.symm) (hlength ▸ by decide)
  have hpiece : ⟨text, text.take 1022 ++ [0]⟩ ∈ t.pieces := hcut ▸ fileVm_piece filename
  refine ⟨hlength, ?_, hpiece, ?_, fun hall => ?_⟩
  · rw [List.mem_append, not_or]
    exact ⟨filename.noNul, by decide⟩
  · exact List.mem_flatMap.mpr ⟨_, hpiece, List.mem_append_right _ (List.mem_singleton_self 0)⟩
  · have hfaithful := hall _ (fileVm_piece filename)
    have hshort : text.length < buffLen - 1 := (faithful_format_iff zeroBuff text).mp hfaithful
    rw [hlength] at hshort
    exact absurd hshort (by decide)

theorem long_name_appends_nul :
    let text := (repeated 1021).bytes ++ ascii ":1"
    let t := outputBacktrace (fun _ => zeroBuff) (fileVm (repeated 1021)) 0 0
    text.length = 1023 ∧ 0 ∉ text ∧ ⟨text, text.take 1022 ++ [0]⟩ ∈ t.pieces ∧ 0 ∈ t.backtrace ∧
      ¬ ∀ p ∈ t.pieces, Faithful p.text p.appended :=
  fileVm_cut List.length_replicate

end ModGate.Ruby
