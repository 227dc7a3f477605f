import ModGate.Url.Codec

/-! The scan of `url_decode` over the copy that it overwrites, against a decoder that only says
which characters stand for what. -/

namespace ModGate.Url

/-- The copy made by `strdup`, the two positions of the scan, and the positions read so far. -/
structure Decoder where
  memory : Bytes
  src : ℕ
  dst : ℕ
  reads : List ℕ

namespace Decoder

def start (url : Bytes) : Decoder := ⟨cString url ++ [0], 0, 0, []⟩

def fetch (d : Decoder) (ahead : ℕ) : UInt8 × Decoder :=
  (d.memory.getD (d.src + ahead) 0, { d with reads := d.reads ++ [d.src + ahead] })

def write (d : Decoder) (c : UInt8) : Decoder := { d with memory := d.memory.set d.dst c }

def advance (d : Decoder) (n : ℕ) : Decoder := { d with src := d.src + n, dst := d.dst + 1 }

end Decoder

open Decoder

def decodeEscape (d : Decoder) : Decoder :=
  let (high, d) := d.fetch 1
  if hex2int high ≠ 0xFF then
    let (low, d) := d.fetch 2
    if hex2int low ≠ 0xFF then (d.write (hex2int high <<< 4 ||| hex2int low)).advance 3
    else d.advance 1
  else d.advance 1

-- One turn of the loop; at the terminator nothing more is written.
def decodeStep (isQuery : Bool) (d : Decoder) : Decoder :=
  let (c, d) := d.fetch 0
  if c = 0 then d
  else if isQuery && c == 43 then (d.write 32).advance 1
  else if c = 37 then decodeEscape (d.write 37)
  else (d.write c).advance 1

def decodeTurns (isQuery : Bool) (url : Bytes) (n : ℕ) : Decoder :=
  (decodeStep isQuery)^[n] (start url)

def urlDecodeInPlace (url : Bytes) (isQuery : Bool) : Bytes :=
  cString ((decodeTurns isQuery url (cString url).length).write 0).memory

/-! What the scan is for. -/

def hexValue (c : UInt8) : Option UInt8 :=
  if 48 ≤ c ∧ c ≤ 57 then some (c - 48)
  else if 65 ≤ c ∧ c ≤ 70 then some (c - 55)
  else if 97 ≤ c ∧ c ≤ 102 then some (c - 87)
  else none

def escapedByte (c : UInt8) : Bytes → Option UInt8
  | high :: low :: _ =>
    if c = 37 then (hexValue high).bind fun h => (hexValue low).map fun l => 16 * h + l else none
  | _ => none

def referenceDecode (isQuery : Bool) : Bytes → Bytes
  | [] => []
  | c :: src =>
    match escapedByte c src with
    | some byte => byte :: referenceDecode isQuery (src.drop 2)
    | none => (if isQuery = true ∧ c = 43 then 32 else c) :: referenceDecode isQuery src
termination_by s => s.length

lemma hexValue_eq (c : UInt8) :
    hexValue c = if hex2int c ≠ 0xFF then some (hex2int c) else none :=
  forall_byte (p := fun c => hexValue c = if hex2int c ≠ 0xFF then some (hex2int c) else none)
    (by decide +kernel) c

lemma hex2int_lt {c : UInt8} (h : hex2int c ≠ 0xFF) : (hex2int c).toNat < 16 :=
  forall_byte (p := fun c => hex2int c ≠ 0xFF → (hex2int c).toNat < 16) (by decide +kernel) c h

lemma nibbles {h l : UInt8} (hh : h.toNat < 16) (hl : l.toNat < 16) :
    h <<< 4 ||| l = 16 * h + l := by
  have hall : ∀ i j : Fin 16, UInt8.ofNat i <<< 4 ||| UInt8.ofNat j =
      16 * UInt8.ofNat i + UInt8.ofNat j := by decide +kernel
  simpa using hall ⟨h.toNat, hh⟩ ⟨l.toNat, hl⟩

lemma escapedByte_hex (high low : UInt8) (rest : Bytes) :
    escapedByte 37 (high :: low :: rest) =
      if hex2int high ≠ 0xFF ∧ hex2int low ≠ 0xFF then
        some (hex2int high <<< 4 ||| hex2int low) else none := by
  simp only [escapedByte, if_true, hexValue_eq]
  by_cases hh : hex2int high = 0xFF
  · simp [hh]
  · by_cases hl : hex2int low = 0xFF
    · simp [hl]
    · simp [hh, hl, nibbles (hex2int_lt hh) (hex2int_lt hl)]

lemma escapedByte_ne {c : UInt8} (h : c ≠ 37) (src : Bytes) : escapedByte c src = none := by
  unfold escapedByte
  split
  · exact if_neg h
  · rfl

lemma decodeLoop_eq_reference (isQuery : Bool) (s : Bytes) :
    decodeLoop isQuery s = referenceDecode isQuery s := by
  fun_induction decodeLoop isQuery s with
  | case1 => rw [referenceDecode]
  | case2 c src hplus ih =>
    obtain ⟨hq, rfl⟩ : isQuery = true ∧ c = 43 := by simpa using hplus
    rw [referenceDecode, escapedByte_ne (by decide), ih]
    simp [hq]
  | case3 high low rest hhex _ ih =>
    rw [referenceDecode, escapedByte_hex, if_pos hhex, ih]
    rfl
  | case4 high low rest hhex _ ih =>
    rw [referenceDecode, escapedByte_hex, if_neg hhex, ih]
    simp
  | case5 d _ ih =>
    rw [referenceDecode, ih]
    simp [escapedByte]
  | case6 =>
    rw [referenceDecode, referenceDecode]
    simp [escapedByte]
  | case7 c src hplus hpercent ih =>
    rw [referenceDecode, escapedByte_ne hpercent, ih]
    have hcopy : ¬ (isQuery = true ∧ c = 43) := by simpa using hplus
    simp only [if_neg hcopy]

lemma decodeLoop_escape {isQuery : Bool} {high low : UInt8}
    (h : hex2int high ≠ 0xFF ∧ hex2int low ≠ 0xFF) (rest : Bytes) :
    decodeLoop isQuery (37 :: high :: low :: rest) =
      (hex2int high <<< 4 ||| hex2int low) :: decodeLoop isQuery rest := by
  rw [decodeLoop.eq_def]
  simp [h]

-- Behind the end of the source the terminator is read.
lemma decodeLoop_malformed {isQuery : Bool} {src : Bytes}
    (h : ¬ (hex2int ((src ++ [0]).getD 0 0) ≠ 0xFF ∧ hex2int ((src ++ [0]).getD 1 0) ≠ 0xFF)) :
    decodeLoop isQuery (37 :: src) = 37 :: decodeLoop isQuery src := by
  rw [decodeLoop.eq_def]
  simp only [Bool.and_eq_true, beq_iff_eq, show ¬ (37 : UInt8) = 43 by decide, and_false, if_false,
    if_true]
  split
  · next high low rest => exact if_neg h
  · rfl
  · rfl

/-! The part of the copy behind the read position is still the source, and the part in front of
the write position is what has been decoded. -/

structure Scanned (isQuery : Bool) (url rest : Bytes) (d : Decoder) : Prop where
  ahead : d.memory.drop d.src = rest ++ [0]
  clean : 0 ∉ rest
  behind : d.dst ≤ d.src
  written : d.memory.take d.dst ++ decodeLoop isQuery rest = decodeLoop isQuery url
  place : d.src + rest.length = url.length
  reads : ∀ i ∈ d.reads, i ≤ url.length

namespace Scanned

variable {isQuery : Bool} {url rest : Bytes} {d : Decoder}

lemma start {url : Bytes} (h : 0 ∉ url) (isQuery : Bool) :
    Scanned isQuery url url (Decoder.start url) where
  ahead := by simp [Decoder.start, cString_clean h]
  clean := h
  behind := Nat.le_refl 0
  written := by simp [Decoder.start]
  place := by simp [Decoder.start]
  reads := by simp [Decoder.start]

lemma fetched (h : Scanned isQuery url rest d) (ahead : ℕ) :
    (d.fetch ahead).1 = (rest ++ [0]).getD ahead 0 := by
  rw [Decoder.fetch, List.getD_eq_getElem?_getD, ← List.getElem?_drop, h.ahead,
    List.getD_eq_getElem?_getD]

lemma fetch (h : Scanned isQuery url rest d) {ahead : ℕ} (hle : ahead ≤ rest.length) :
    Scanned isQuery url rest (d.fetch ahead).2 where
  ahead := h.ahead
  clean := h.clean
  behind := h.behind
  written := h.written
  place := h.place
  reads := by
    intro i hi
    rcases List.mem_append.mp hi with hi | hi
    · exact h.reads i hi
    · have hplace := h.place
      rw [List.mem_singleton.mp hi]
      omega

lemma dst_lt (h : Scanned isQuery url rest d) : d.dst < d.memory.length := by
  have hlen := congrArg List.length h.ahead
  have hbehind := h.behind
  rw [List.length_drop, List.length_append, List.length_singleton] at hlen
  omega

lemma write_advance (done : Bytes) {c : UInt8} (h : Scanned isQuery url (done ++ rest) d)
    (hdone : done ≠ [])
    (hdecode : decodeLoop isQuery (done ++ rest) = c :: decodeLoop isQuery rest) :
    Scanned isQuery url rest ((d.write c).advance done.length) where
  ahead := by
    have hpos := List.length_pos_iff.mpr hdone
    have hbehind := h.behind
    simp only [Decoder.advance, Decoder.write]
    rw [List.drop_set_of_lt (by omega), ← List.drop_drop, h.ahead, List.append_assoc,
      List.drop_left]
  clean := fun h0 => h.clean (List.mem_append_right done h0)
  behind := by
    have hpos := List.length_pos_iff.mpr hdone
    have hbehind := h.behind
    simp only [Decoder.advance, Decoder.write]
    omega
  written := by
    have hwritten := h.written
    simp only [Decoder.advance, Decoder.write]
    rw [List.take_add_one, List.take_set_of_le (Nat.le_refl _), List.getElem?_set_self h.dst_lt,
      ← hwritten, hdecode]
    simp
  place := by
    have hplace := h.place
    rw [List.length_append] at hplace
    simp only [Decoder.advance, Decoder.write]
    omega
  reads := h.reads

-- Where both positions agree, the percent sign is written over itself.
lemma write_percent {src : Bytes} (h : Scanned isQuery url (37 :: src) d) :
    Scanned isQuery url (37 :: src) (d.write 37) where
  ahead := by
    have hahead := h.ahead
    simp only [Decoder.write]
    rcases Nat.lt_or_eq_of_le h.behind with hlt | heq
    · rw [List.drop_set_of_lt hlt, hahead]
    · rw [heq, List.drop_set, if_neg (Nat.lt_irrefl _), Nat.sub_self, hahead]
      rfl
  clean := h.clean
  behind := h.behind
  written := by
    rw [Decoder.write, List.take_set_of_le (Nat.le_refl _)]
    exact h.written
  place := h.place
  reads := h.reads

lemma malformed {src : Bytes} (h : Scanned isQuery url (37 :: src) d) (hsame : d.write 37 = d)
    (hdecode : decodeLoop isQuery (37 :: src) = 37 :: decodeLoop isQuery src) :
    Scanned isQuery url src (d.advance 1) := by
  have hnext := write_advance [37] h (by simp) hdecode
  rwa [hsame] at hnext

lemma escape {src : Bytes} (h : Scanned isQuery url (37 :: src) d) (hsame : d.write 37 = d) :
    ∃ rest, Scanned isQuery url rest (decodeEscape d) ∧ rest.length ≤ src.length := by
  have hfirst : Scanned isQuery url (37 :: src) (d.fetch 1).2 := h.fetch (by simp)
  have hhigh : (d.fetch 1).1 = (src ++ [0]).getD 0 0 := h.fetched 1
  have hlow : ((d.fetch 1).2.fetch 2).1 = (src ++ [0]).getD 1 0 := hfirst.fetched 2
  have hsame' : ∀ n, (d.fetch n).2.write 37 = (d.fetch n).2 := by
    intro n
    simpa [Decoder.fetch, Decoder.write] using congrArg Decoder.memory hsame
  simp only [decodeEscape, hhigh]
  split
  · next hh =>
    cases src with
    | nil => exact absurd (show hex2int 0 = 0xFF by decide) hh
    | cons high src =>
      have hsecond : Scanned isQuery url (37 :: high :: src) ((d.fetch 1).2.fetch 2).2 :=
        hfirst.fetch (by simp)
      rw [hlow]
      split
      · next hl =>
        cases src with
        | nil => exact absurd (show hex2int 0 = 0xFF by decide) hl
        | cons low rest =>
          refine ⟨rest, ?_, by simp only [List.length_cons]; omega⟩
          apply write_advance [37, high, low] hsecond (by simp)
          exact decodeLoop_escape ⟨hh, hl⟩ rest
      · next hl =>
        refine ⟨high :: src, malformed hsecond ?_ (decodeLoop_malformed fun h => hl h.2), le_rfl⟩
        simpa [Decoder.fetch, Decoder.write] using congrArg Decoder.memory hsame
  · next hh =>
    exact ⟨src, malformed hfirst (hsame' 1) (decodeLoop_malformed fun h => hh h.1), le_rfl⟩

lemma step (h : Scanned isQuery url rest d) :
    ∃ rest', Scanned isQuery url rest' (decodeStep isQuery d) ∧
      rest'.length ≤ rest.length - 1 := by
  have hread := h.fetched 0
  have hfetch := h.fetch (Nat.zero_le _)
  simp only [decodeStep, hread]
  cases rest with
  | nil => exact ⟨[], hfetch, le_rfl⟩
  | cons c src =>
    have hc : ¬ c = 0 := fun h0 => h.clean (by simp [h0])
    simp only [List.cons_append, List.getD_cons_zero, hc, if_false]
    split
    · next hplus =>
      obtain ⟨rfl, rfl⟩ : isQuery = true ∧ c = 43 := by simpa using hplus
      exact ⟨src, write_advance [43] hfetch (by simp) (decodeLoop_plus src), le_rfl⟩
    · next hplus =>
      split
      · next hpercent =>
        subst hpercent
        exact escape hfetch.write_percent (by simp [Decoder.write])
      · next hpercent =>
        refine ⟨src, write_advance [c] hfetch (by simp) ?_, le_rfl⟩
        rw [List.singleton_append, decodeLoop.eq_def]
        simp only [hplus, hpercent, if_false]
        rfl

lemma turns (h : 0 ∉ url) (isQuery : Bool) (n : ℕ) :
    ∃ rest, Scanned isQuery url rest (decodeTurns isQuery url n) ∧
      rest.length ≤ url.length - n := by
  induction n with
  | zero => exact ⟨url, start h isQuery, le_rfl⟩
  | succ n ih =>
    obtain ⟨rest, hscan, hle⟩ := ih
    obtain ⟨rest', hscan', hle'⟩ := hscan.step
    refine ⟨rest', ?_, by omega⟩
    rwa [decodeTurns, Function.iterate_succ_apply']

lemma finished (h : 0 ∉ url) (isQuery : Bool) :
    Scanned isQuery url [] (decodeTurns isQuery url url.length) := by
  obtain ⟨rest, hscan, hle⟩ := turns h isQuery url.length
  rw [Nat.sub_self] at hle
  rwa [List.length_eq_zero_iff.mp (Nat.le_zero.mp hle)] at hscan

end Scanned

lemma cString_terminated (s rest : Bytes) : cString (s ++ 0 :: rest) = cString s := by
  induction s with
  | nil => rfl
  | cons c s ih =>
    simp only [cString, List.cons_append, List.takeWhile_cons] at ih ⊢
    rw [ih]

lemma urlDecodeInPlace_eq {url : Bytes} (h : 0 ∉ url) (isQuery : Bool) :
    urlDecodeInPlace url isQuery = urlDecode url isQuery := by
  have hscan := Scanned.finished h isQuery
  have hwritten := hscan.written
  rw [show decodeLoop isQuery [] = [] by rfl, List.append_nil] at hwritten
  rw [urlDecodeInPlace, urlDecode, cString_clean h, Decoder.write, ← hwritten,
    List.set_eq_take_append_cons_drop, if_pos hscan.dst_lt, cString_terminated]

theorem decoder_matches_reference {url : Bytes} (h : 0 ∉ url) (isQuery : Bool) :
    urlDecodeInPlace url isQuery = cString (referenceDecode isQuery url) ∧
      (decodeTurns isQuery url url.length).src = url.length ∧
      ∀ n, (decodeTurns isQuery url n).dst ≤ (decodeTurns isQuery url n).src ∧
        ∀ i ∈ (decodeTurns isQuery url n).reads, i ≤ url.length := by
  refine ⟨?_, (Scanned.finished h isQuery).place, fun n => ?_⟩
  · rw [urlDecodeInPlace_eq h, urlDecode, cString_clean h, decodeLoop_eq_reference]
  · obtain ⟨rest, hscan, -⟩ := Scanned.turns h isQuery n
    exact ⟨hscan.behind, hscan.reads⟩

-- The text is `%4G%41+%0`.
theorem truncated_escape_copied :
    urlDecodeInPlace [37, 52, 71, 37, 52, 49, 43, 37, 48] true = [37, 52, 71, 65, 32, 37, 48] ∧
      (decodeTurns true [37, 52, 71, 37, 52, 49, 43, 37, 48] 9).src = 9 := by
  have hall := @decoder_matches_reference [37, 52, 71, 37, 52, 49, 43, 37, 48] (by decide) true
  exact ⟨by decide, hall.2.1⟩

end ModGate.Url
