import Mathlib.Algebra.Group.Nat.Defs
import Mathlib.Data.List.Nodup
import Mathlib.Data.Fintype.Basic

/-! The percent codec `url_encode` and `url_decode` on bytes. A character is a signed byte, and a
string that passes through a C buffer ends at its first NUL. -/

namespace ModGate.Url

abbrev Bytes := List UInt8

def cString (buffer : Bytes) : Bytes := buffer.takeWhile (· ≠ 0)

def isalnum (c : UInt8) : Bool :=
  (48 ≤ c && c ≤ 57) || (65 ≤ c && c ≤ 90) || (97 ≤ c && c ≤ 122)

def hexDigit (d : ℕ) : UInt8 := if d < 10 then UInt8.ofNat (48 + d) else UInt8.ofNat (55 + d)

def upperHex (n : ℕ) : Bytes :=
  (([7, 6, 5, 4, 3, 2, 1].map fun i => n / 16 ^ i % 16).dropWhile (· = 0) ++ [n % 16]).map hexDigit

def promoted (c : UInt8) : ℕ := if c < 128 then c.toNat else 2 ^ 32 - 256 + c.toNat

-- `sprintf(dst, "%%%2X", c)` with its terminator; the field is padded with blanks.
def percent (c : UInt8) : Bytes :=
  let digits := upperHex (promoted c)
  37 :: (List.replicate (2 - digits.length) 32 ++ digits ++ [0])

-- The bytes that one iteration stores at `dst`, and the distance that `dst` moves.
def encodeStep (c : UInt8) : Bytes × ℕ :=
  if isalnum c || c == 46 || c == 95 || c == 45 then ([c], 1)
  else if c = 32 then ([43], 1)
  else (percent c, 3)

def stores : Bytes → ℕ → List (ℕ × Bytes)
  | [], dst => [(dst, [0])]
  | c :: src, dst => (dst, (encodeStep c).1) :: stores src (dst + (encodeStep c).2)

def store (memory : Bytes) (w : ℕ × Bytes) : Bytes :=
  memory.take w.1 ++ w.2 ++ memory.drop (w.1 + w.2.length)

def urlEncode (url : Bytes) : Bytes := cString ((stores (cString url) 0).foldl store [])

def hex2int (hex : UInt8) : UInt8 :=
  let hex := hex - 48
  let hex := if hex > 9 then (hex + 48 - 1 ||| 0x20) - 97 + 11 else hex
  if hex > 15 then 0xFF else hex

def decodeLoop (isQuery : Bool) : Bytes → Bytes
  | [] => []
  | c :: src =>
    if isQuery && c == 43 then 32 :: decodeLoop isQuery src
    else if c = 37 then
      match src with
      | high :: low :: rest =>
        if hex2int high ≠ 0xFF ∧ hex2int low ≠ 0xFF then
          (hex2int high <<< 4 ||| hex2int low) :: decodeLoop isQuery rest
        else 37 :: decodeLoop isQuery (high :: low :: rest)
      -- The terminator is no hexadecimal digit.
      | [d] => 37 :: decodeLoop isQuery [d]
      | [] => [37]
    else c :: decodeLoop isQuery src

def urlDecode (url : Bytes) (isQuery : Bool) : Bytes := cString (decodeLoop isQuery (cString url))

lemma forall_byte {p : UInt8 → Prop} (h : ∀ n : Fin 256, p (UInt8.ofFin n)) (c : UInt8) : p c :=
  h c.toFin

lemma cString_of_clean {s : Bytes} (h : 0 ∉ s) (rest : Bytes) : cString (s ++ 0 :: rest) = s := by
  rw [cString, List.takeWhile_append_of_pos, List.takeWhile_cons_of_neg (by simp), List.append_nil]
  intro c hc
  simpa using fun h0 : c = 0 => h (h0 ▸ hc)

lemma cString_clean {s : Bytes} (h : 0 ∉ s) : cString s = s := by
  have happend : (s ++ []).takeWhile (· ≠ (0 : UInt8)) = s ++ [].takeWhile (· ≠ 0) :=
    List.takeWhile_append_of_pos fun c hc => by simpa using fun h0 : c = 0 => h (h0 ▸ hc)
  simpa [cString] using happend

/-! The bytes beyond the advance of `dst` are overwritten by the next store, so the encoded string
is made of what each iteration leaves behind. -/

def encoded (c : UInt8) : Bytes := (encodeStep c).1.take (encodeStep c).2

lemma advance_le (c : UInt8) : (encodeStep c).2 ≤ (encodeStep c).1.length :=
  forall_byte (p := fun c => (encodeStep c).2 ≤ (encodeStep c).1.length) (by decide +kernel) c

lemma encoded_clean {c : UInt8} (h : c ≠ 0) :
    0 ∉ encoded c ∧ 38 ∉ encoded c ∧ 61 ∉ encoded c :=
  forall_byte (p := fun c => c ≠ 0 → 0 ∉ encoded c ∧ 38 ∉ encoded c ∧ 61 ∉ encoded c)
    (by decide +kernel) c h

lemma store_take {memory : Bytes} {dst : ℕ} (h : dst ≤ memory.length) {w : Bytes} {k : ℕ}
    (hk : k ≤ w.length) :
    (store memory (dst, w)).take (dst + k) = memory.take dst ++ w.take k := by
  have hlen : (memory.take dst).length = dst := List.length_take_of_le h
  simp only [store]
  rw [List.append_assoc, List.take_append, hlen, Nat.add_sub_cancel_left,
    List.take_append_of_le_length hk, List.take_of_length_le (by omega)]

lemma length_store {memory : Bytes} {dst : ℕ} (h : dst ≤ memory.length) (w : Bytes) :
    dst + w.length ≤ (store memory (dst, w)).length := by
  simp only [store, List.length_append, List.length_take_of_le h]
  omega

lemma foldl_stores (src : Bytes) (dst : ℕ) (memory : Bytes) (h : dst ≤ memory.length) :
    ∃ rest, (stores src dst).foldl store memory =
      memory.take dst ++ src.flatMap encoded ++ 0 :: rest := by
  induction src generalizing dst memory with
  | nil => exact ⟨memory.drop (dst + 1), by simp [stores, store]⟩
  | cons c src ih =>
    have hadvance := advance_le c
    have hlen := length_store h (encodeStep c).1
    obtain ⟨rest, hrest⟩ := ih (dst + (encodeStep c).2) (store memory (dst, (encodeStep c).1))
      (by omega)
    refine ⟨rest, ?_⟩
    rw [stores, List.foldl_cons, hrest, store_take h hadvance, List.flatMap_cons]
    simp [encoded]

lemma urlEncode_eq {url : Bytes} (h : 0 ∉ url) : urlEncode url = url.flatMap encoded := by
  obtain ⟨rest, hrest⟩ := foldl_stores url 0 [] (Nat.zero_le _)
  rw [urlEncode, cString_clean h, hrest, List.take_nil, List.nil_append]
  apply cString_of_clean
  intro h0
  obtain ⟨c, hc, h0⟩ := List.mem_flatMap.mp h0
  exact (encoded_clean fun hc0 : c = 0 => h (hc0 ▸ hc)).1 h0

lemma urlEncode_clean {url : Bytes} (h : 0 ∉ url) :
    0 ∉ urlEncode url ∧ 38 ∉ urlEncode url ∧ 61 ∉ urlEncode url := by
  rw [urlEncode_eq h]
  simp only [List.mem_flatMap, not_exists, not_and]
  have hclean : ∀ c ∈ url, _ := fun c hc => encoded_clean fun hc0 : c = 0 => h (hc0 ▸ hc)
  exact ⟨fun c hc => (hclean c hc).1, fun c hc => (hclean c hc).2.1, fun c hc => (hclean c hc).2.2⟩

lemma encoded_shape {c : UInt8} (hl : 16 ≤ c) (hu : c < 128) :
    (encoded c = [c] ∧ c ≠ 43 ∧ c ≠ 37) ∨ (encoded c = [43] ∧ c = 32) ∨
      ∃ high low, encoded c = [37, high, low] ∧ hex2int high ≠ 0xFF ∧ hex2int low ≠ 0xFF ∧
        (hex2int high <<< 4 ||| hex2int low) = c := by
  have hall := forall_byte (p := fun c => 16 ≤ c → c < 128 →
    (encoded c = [c] ∧ c ≠ 43 ∧ c ≠ 37) ∨ (encoded c = [43] ∧ c = 32) ∨
      let high := hexDigit (c.toNat / 16)
      let low := hexDigit (c.toNat % 16)
      encoded c = [37, high, low] ∧ hex2int high ≠ 0xFF ∧ hex2int low ≠ 0xFF ∧
        (hex2int high <<< 4 ||| hex2int low) = c) (by decide +kernel) c hl hu
  exact hall.imp_right (Or.imp_right fun h => ⟨_, _, h⟩)

lemma decodeLoop_copy {c : UInt8} (hplus : c ≠ 43) (hpercent : c ≠ 37) (isQuery : Bool)
    (src : Bytes) : decodeLoop isQuery (c :: src) = c :: decodeLoop isQuery src := by
  rw [decodeLoop.eq_def]
  simp [hplus, hpercent]

lemma decodeLoop_plus (src : Bytes) : decodeLoop true (43 :: src) = 32 :: decodeLoop true src := by
  rw [decodeLoop.eq_def]
  simp

lemma decodeLoop_encoded {c : UInt8} (hl : 16 ≤ c) (hu : c < 128) (rest : Bytes) :
    decodeLoop true (encoded c ++ rest) = c :: decodeLoop true rest := by
  rcases encoded_shape hl hu with ⟨he, hplus, hpercent⟩ | ⟨he, rfl⟩ | ⟨high, low, he, hh, hlow, hc⟩
  · rw [he]
    exact decodeLoop_copy hplus hpercent true rest
  · rw [he]
    exact decodeLoop_plus rest
  · simp [he, decodeLoop, hh, hlow, hc]

def Printable (s : Bytes) : Prop := ∀ c ∈ s, 32 ≤ c ∧ c ≤ 126

lemma Printable.clean {s : Bytes} (h : Printable s) : 0 ∉ s := by
  intro h0
  exact absurd (h 0 h0).1 (by decide)

lemma decodeLoop_flatMap {s : Bytes} (h : Printable s) :
    decodeLoop true (s.flatMap encoded) = s := by
  induction s with
  | nil => rfl
  | cons c s ih =>
    obtain ⟨hc, hs⟩ := List.forall_mem_cons.mp h
    have hl : 16 ≤ c := UInt8.le_trans (by decide) hc.1
    have hu : c < 128 := UInt8.lt_of_le_of_lt hc.2 (by decide)
    rw [List.flatMap_cons, decodeLoop_encoded hl hu, ih hs]

lemma urlDecode_urlEncode {s : Bytes} (h : Printable s) : urlDecode (urlEncode s) true = s := by
  rw [urlDecode, cString_clean (urlEncode_clean h.clean).1, urlEncode_eq h.clean,
    decodeLoop_flatMap h, cString_clean h.clean]

end ModGate.Url
