import ModGate.Url.Codec
import Mathlib.Algebra.GroupWithZero.Nat

/-! Where `url_encode` writes, and which bytes survive the way through both directions: the field
of `%2X` is padded with a blank below 16, and from 128 on the promoted byte has eight digits. -/

namespace ModGate.Url

section FlatMap

variable {α : Type} {f : α → List α}

lemma length_le_flatMap (hf : ∀ a, f a ≠ []) (s : List α) : s.length ≤ (s.flatMap f).length := by
  induction s with
  | nil => exact Nat.le_refl 0
  | cons a s ih =>
    have hpos := List.length_pos_iff.mpr (hf a)
    rw [List.flatMap_cons, List.length_append, List.length_cons]
    omega

lemma flatMap_eq_self_iff (hf : ∀ a, f a ≠ []) (s : List α) :
    s.flatMap f = s ↔ ∀ a ∈ s, f a = [a] := by
  induction s with
  | nil => simp
  | cons a s ih =>
    rw [List.flatMap_cons, List.forall_mem_cons, ← ih]
    constructor
    · intro h
      have hlen := congrArg List.length h
      have hpos := List.length_pos_iff.mpr (hf a)
      have hle := length_le_flatMap hf s
      rw [List.length_append, List.length_cons] at hlen
      exact List.append_inj (h.trans (List.singleton_append (x := a)).symm) (by simp; omega)
    · rintro ⟨ha, hs⟩
      rw [ha, hs, List.singleton_append]

end FlatMap

/-! The round trip. -/

def recoded (c : UInt8) : Bytes :=
  if c < 16 then [37, 32, hexDigit c.toNat] else if c < 128 then [c] else [255]

lemma encoded_low {c : UInt8} (h : c < 16) : encoded c = [37, 32, hexDigit c.toNat] :=
  forall_byte (p := fun c => c < 16 → encoded c = [37, 32, hexDigit c.toNat])
    (by decide +kernel) c h

lemma encoded_high {c : UInt8} (h : ¬ c < 128) : encoded c = [37, 70, 70] :=
  forall_byte (p := fun c => ¬ c < 128 → encoded c = [37, 70, 70]) (by decide +kernel) c h

lemma hexDigit_copied {c : UInt8} (h : c < 16) :
    hexDigit c.toNat ≠ 43 ∧ hexDigit c.toNat ≠ 37 ∧ hexDigit c.toNat ≠ 0 :=
  forall_byte (p := fun c => c < 16 → hexDigit c.toNat ≠ 43 ∧ hexDigit c.toNat ≠ 37 ∧
    hexDigit c.toNat ≠ 0) (by decide +kernel) c h

lemma recoded_fixed_iff {c : UInt8} (h : c ≠ 0) :
    recoded c = [c] ↔ 16 ≤ c ∧ c < 128 ∨ c = 255 :=
  forall_byte (p := fun c => c ≠ 0 → (recoded c = [c] ↔ 16 ≤ c ∧ c < 128 ∨ c = 255))
    (by decide +kernel) c h

lemma decodeLoop_recoded (c : UInt8) (rest : Bytes) :
    decodeLoop true (encoded c ++ rest) = recoded c ++ decodeLoop true rest := by
  by_cases hlow : c < 16
  · obtain ⟨hplus, hpercent, -⟩ := hexDigit_copied hlow
    have hpad : ¬ (hex2int 32 ≠ 0xFF ∧ hex2int (hexDigit c.toNat) ≠ 0xFF) :=
      fun h => h.1 (by decide)
    rw [encoded_low hlow, recoded, if_pos hlow]
    simp only [List.cons_append, List.nil_append]
    rw [decodeLoop.eq_def]
    simp only [Bool.true_and, show ¬ (37 : UInt8) = 43 by decide, beq_iff_eq, if_false, if_true,
      if_neg hpad]
    rw [decodeLoop_copy (by decide) (by decide), decodeLoop_copy hplus hpercent]
  · by_cases hhigh : c < 128
    · rw [recoded, if_neg hlow, if_pos hhigh]
      exact decodeLoop_encoded (by simpa using hlow) hhigh rest
    · rw [encoded_high hhigh, recoded, if_neg hlow, if_neg hhigh]
      rfl

lemma decodeLoop_flatMap_encoded (s : Bytes) :
    decodeLoop true (s.flatMap encoded) = s.flatMap recoded := by
  induction s with
  | nil => rfl
  | cons c s ih => rw [List.flatMap_cons, decodeLoop_recoded, ih, List.flatMap_cons]

lemma recoded_ne_nil (c : UInt8) : recoded c ≠ [] := by
  unfold recoded
  split
  · simp
  · split
    · simp
    · simp

lemma recoded_clean {c : UInt8} (h : c ≠ 0) : 0 ∉ recoded c := by
  unfold recoded
  split
  · next hlow => simpa using (hexDigit_copied hlow).2.2.symm
  · split
    · simpa using h.symm
    · simp

lemma urlDecode_urlEncode_eq {s : Bytes} (h : 0 ∉ s) :
    urlDecode (urlEncode s) true = s.flatMap recoded := by
  rw [urlDecode, cString_clean (urlEncode_clean h).1, urlEncode_eq h, decodeLoop_flatMap_encoded]
  apply cString_clean
  intro h0
  obtain ⟨c, hc, h0⟩ := List.mem_flatMap.mp h0
  exact recoded_clean (fun hc0 : c = 0 => h (hc0 ▸ hc)) h0

theorem codec_round_trip_iff {s : Bytes} (h : 0 ∉ s) :
    urlDecode (urlEncode s) true = s ↔ ∀ c ∈ s, 16 ≤ c ∧ c < 128 ∨ c = 255 := by
  rw [urlDecode_urlEncode_eq h, flatMap_eq_self_iff recoded_ne_nil]
  apply forall₂_congr
  intro c hc
  exact recoded_fixed_iff fun hc0 => h (hc0 ▸ hc)

theorem printable_and_last_byte_survive :
    urlDecode (urlEncode [38, 32, 65, 127, 255]) true = [38, 32, 65, 127, 255] :=
  (codec_round_trip_iff (by decide)).mpr (by simp)

theorem tab_and_accent_lost :
    urlEncode [9] = [37, 32, 57] ∧ urlDecode (urlEncode [9]) true = [37, 32, 57] ∧
      urlEncode [0xE9] = [37, 70, 70] ∧ urlDecode (urlEncode [0xE9]) true = [0xFF] ∧
      ¬ ∀ s : Bytes, 0 ∉ s → urlDecode (urlEncode s) true = s := by
  refine ⟨by decide, by decide, by decide, by decide, fun h => ?_⟩
  exact absurd (h [9] (by decide)) (by decide)

/-! The offsets of the stores. -/

def plain (c : UInt8) : Bool := isalnum c || c == 46 || c == 95 || c == 45 || c == 32

def width (s : Bytes) : ℕ := (s.map fun c => (encodeStep c).2).sum

lemma width_add_plain (s : Bytes) : width s + 2 * s.countP plain = 3 * s.length := by
  induction s with
  | nil => rfl
  | cons c s ih =>
    have hstep : (encodeStep c).2 = if plain c then 1 else 3 :=
      forall_byte (p := fun c => (encodeStep c).2 = if plain c then 1 else 3) (by decide +kernel) c
    simp only [width, List.map_cons, List.sum_cons, List.countP_cons, List.length_cons] at ih ⊢
    rw [hstep]
    cases plain c with
    | true =>
      simp only [if_true]
      omega
    | false =>
      simp only [Bool.false_eq_true, if_false]
      omega

lemma length_stored (c : UInt8) :
    (encodeStep c).1.length = if c < 128 then
      (if plain c then (encodeStep c).2 else (encodeStep c).2 + 1) else 10 :=
  forall_byte (p := fun c => (encodeStep c).1.length = if c < 128 then
    (if plain c then (encodeStep c).2 else (encodeStep c).2 + 1) else 10) (by decide +kernel) c

lemma mem_stores {src : Bytes} {dst : ℕ} {w : ℕ × Bytes} :
    w ∈ stores src dst ↔ w = (dst + width src, [0]) ∨
      ∃ before c after, src = before ++ c :: after ∧
        w = (dst + width before, (encodeStep c).1) := by
  induction src generalizing dst with
  | nil => simp [stores, width]
  | cons c src ih =>
    have hwidth : ∀ s, dst + (encodeStep c).2 + width s = dst + width (c :: s) := by
      intro s
      simp [width, Nat.add_assoc]
    rw [stores, List.mem_cons, ih]
    simp only [hwidth]
    constructor
    · rintro (rfl | h | ⟨before, d, after, rfl, rfl⟩)
      · exact Or.inr ⟨[], c, src, rfl, by simp [width]⟩
      · exact Or.inl h
      · exact Or.inr ⟨c :: before, d, after, rfl, rfl⟩
    · rintro (h | ⟨before, d, after, hsrc, rfl⟩)
      · exact Or.inr (Or.inl h)
      · cases before with
        | nil =>
          obtain ⟨rfl, rfl⟩ := List.cons.inj hsrc
          exact Or.inl (by simp [width])
        | cons b before =>
          obtain ⟨rfl, rfl⟩ := List.cons.inj hsrc
          exact Or.inr (Or.inr ⟨before, d, after, rfl, rfl⟩)

def InBuffer (url : Bytes) : Prop :=
  ∀ w ∈ stores (cString url) 0, ∀ j < w.2.length, w.1 + j < 3 * (cString url).length

lemma width_le (before : Bytes) (c : UInt8) (after : Bytes) :
    width before + (encodeStep c).2 ≤ width (before ++ c :: after) := by
  simp only [width, List.map_append, List.map_cons, List.sum_append, List.sum_cons]
  omega

/-- Some byte is stored as one, and each byte from 128 on stands early enough, or behind enough
bytes stored as one, for the nine characters and the terminator that it takes. -/
def Roomy (url : Bytes) : Prop :=
  (∃ c ∈ url, plain c = true) ∧ ∀ before c after, url = before ++ c :: after → 128 ≤ c →
    10 ≤ 3 * (after.length + 1) + 2 * before.countP plain

theorem encode_in_buffer_iff {url : Bytes} (h : 0 ∉ url) : InBuffer url ↔ Roomy url := by
  have hall := width_add_plain url
  have hplain := List.countP_pos_iff (p := plain) (l := url)
  rw [InBuffer, Roomy, cString_clean h]
  constructor
  · intro hin
    have hlast := hin (0 + width url, [0]) (mem_stores.mpr (Or.inl rfl)) 0 (by simp)
    refine ⟨hplain.mp (by simp only at hlast; omega), ?_⟩
    rintro before c after rfl hc
    have hlen : (encodeStep c).1.length = 10 := by
      rw [length_stored, if_neg (by simpa using hc)]
    have hnine := hin (0 + width before, (encodeStep c).1)
      (mem_stores.mpr (Or.inr ⟨before, c, after, rfl, rfl⟩)) 9 (by simp only; omega)
    have hbefore := width_add_plain before
    simp only [List.length_append, List.length_cons] at hnine
    omega
  · rintro ⟨hsome, hroom⟩ w hw j hj
    have hpos := hplain.mpr hsome
    rcases mem_stores.mp hw with rfl | ⟨before, c, after, rfl, rfl⟩
    · simp only [List.length_singleton] at hj ⊢
      omega
    · have hle := width_le before c after
      have hlen := length_stored c
      by_cases hc : c < 128
      · rw [if_pos hc] at hlen
        simp only at hj ⊢
        split at hlen
        · omega
        · omega
      · rw [if_neg hc] at hlen
        have hbefore := width_add_plain before
        have hten := hroom before c after rfl (by simpa using hc)
        simp only [List.length_append, List.length_cons] at hj ⊢
        omega

theorem spaced_text_in_buffer : InBuffer [97, 32, 98, 38] :=
  (encode_in_buffer_iff (by decide)).mpr ⟨by decide, by
    intro before c after hurl hc
    have hmem : c ∈ ([97, 32, 98, 38] : Bytes) := by simp [hurl]
    have hlow : ∀ d ∈ ([97, 32, 98, 38] : Bytes), ¬ 128 ≤ d := by simp
    exact absurd hc (hlow c hmem)⟩

theorem ampersand_overruns :
    stores [38] 0 = [(0, [37, 50, 54, 0]), (3, [0])] ∧ ¬ InBuffer [38] := by
  refine ⟨by decide, fun h => ?_⟩
  exact absurd (h (3, [0]) (by decide) 0 (by decide)) (by decide)

end ModGate.Url
