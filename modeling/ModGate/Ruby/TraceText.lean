import ModGate.Ruby.Backtrace

/-! The whole text of a backtrace: a heading and one line for every frame that is reported, from
the top of the call stack down. -/

namespace ModGate.Ruby

def lineText (f : ℕ × Report) : List UInt8 := indexText f.1 ++ f.2.text ++ ascii "\n"

def traceText (frames : List (ℕ × Report)) : List UInt8 :=
  if frames = [] then [] else ascii "trace:\n" ++ frames.flatMap lineText

def reported (vm : Vm) (ciidx pc0 : ℤ) : ℕ → List (ℕ × Report)
  | 0 => []
  | i + 1 =>
    match report vm ciidx pc0 i with
    | none => reported vm ciidx pc0 i
    | some r => (i, r) :: reported vm ciidx pc0 i

/-- The text that would be there if every piece were appended whole. -/
def Trace.text (t : Trace) : List UInt8 := t.pieces.flatMap Piece.text

section Text

variable {buffs : ℕ → Buff} {vm : Vm} {ciidx pc0 : ℤ}

lemma text_formatted (t : Trace) (text : List UInt8) :
    (t.format buffs text).text = t.text ++ text := by
  rw [Trace.text, Trace.format, List.flatMap_append, List.flatMap_singleton]
  rfl

lemma outputFrame_some {i : ℕ} {r : Report} (h : report vm ciidx pc0 i = some r) (t : Trace) :
    (outputFrame buffs vm ciidx pc0 i t).tracehead = false ∧
      (outputFrame buffs vm ciidx pc0 i t).text =
        t.text ++ (if t.tracehead then ascii "trace:\n" else []) ++ lineText (i, r) := by
  simp only [outputFrame, h]
  cases hhead : t.tracehead with
  | true =>
    refine ⟨rfl, ?_⟩
    rw [text_formatted, text_formatted, text_formatted]
    change (t.format buffs (ascii "trace:\n")).text ++ _ ++ _ ++ _ = _
    rw [text_formatted, lineText]
    simp only [if_true, List.append_assoc]
  | false =>
    refine ⟨hhead, ?_⟩
    rw [text_formatted, text_formatted, text_formatted, lineText]
    simp only [Bool.false_eq_true, if_false, List.append_nil, List.append_assoc]

lemma outputFrames_text (n : ℕ) (t : Trace) :
    (outputFrames buffs vm ciidx pc0 n t).text =
      t.text ++ if t.tracehead then traceText (reported vm ciidx pc0 n)
        else (reported vm ciidx pc0 n).flatMap lineText := by
  induction n generalizing t with
  | zero => simp [outputFrames, reported, traceText]
  | succ i ih =>
    rw [outputFrames, ih]
    cases hreport : report vm ciidx pc0 i with
    | none => simp only [reported, outputFrame, hreport]
    | some r =>
      obtain ⟨hhead, htext⟩ := @outputFrame_some buffs vm ciidx pc0 i r hreport t
      simp only [reported, hreport, hhead, htext, traceText, List.flatMap_cons, reduceCtorEq,
        Bool.false_eq_true, if_false]
      cases t.tracehead <;> simp

end Text

/-! What is cut off is missed: a formatted text has no NUL, and a piece that is not whole has fewer
bytes other than NUL than its text. -/

def nonzero (l : List UInt8) : ℕ := l.countP (· ≠ 0)

lemma nonzero_append (l m : List UInt8) : nonzero (l ++ m) = nonzero l + nonzero m :=
  List.countP_append

lemma nonzero_clean {l : List UInt8} (h : 0 ∉ l) : nonzero l = l.length := by
  rw [nonzero, List.countP_eq_length]
  intro c hc
  simpa using fun hzero : c = 0 => h (hzero ▸ hc)

lemma nonzero_format_long {buff : Buff} {text : List UInt8} (h : buffLen - 1 ≤ text.length) :
    nonzero (format buff text) < text.length := by
  by_cases hmax : text.length ≤ intMax
  · have htake : nonzero (text.take (buffLen - 2)) ≤ (text.take (buffLen - 2)).length :=
      List.countP_le_length
    rw [List.length_take_of_le (by omega)] at htake
    rw [format_cut h hmax, nonzero_append]
    change nonzero (text.take (buffLen - 2)) + 0 < text.length
    simp only [buffLen] at h htake ⊢
    omega
  · have hbroken : nonzero brokenVsnprintf = 18 := by decide
    rw [format_broken (Nat.lt_of_not_le hmax), hbroken]
    simp only [intMax] at hmax
    omega

structure Piece.Clean (p : Piece) : Prop where
  formatted : ∃ buff, p.appended = format buff p.text
  noNul : 0 ∉ p.text

section Clean

variable {p : Piece} {ps : List Piece}

lemma Piece.Clean.whole (h : p.Clean) (hshort : p.text.length < buffLen - 1) :
    p.appended = p.text := by
  obtain ⟨buff, hbuff⟩ := h.formatted
  rw [hbuff, format_whole hshort]

lemma Piece.Clean.faithful_iff (h : p.Clean) :
    Faithful p.text p.appended ↔ p.text.length < buffLen - 1 := by
  obtain ⟨buff, hbuff⟩ := h.formatted
  rw [hbuff, faithful_format_iff]

lemma Piece.Clean.nonzero_le (h : p.Clean) : nonzero p.appended ≤ p.text.length ∧
    (nonzero p.appended = p.text.length → p.text.length < buffLen - 1) := by
  by_cases hshort : p.text.length < buffLen - 1
  · rw [h.whole hshort, nonzero_clean h.noNul]
    exact ⟨Nat.le_refl _, fun _ => hshort⟩
  · obtain ⟨buff, hbuff⟩ := h.formatted
    have hlong := @nonzero_format_long buff _ (Nat.le_of_not_lt hshort)
    rw [hbuff]
    exact ⟨Nat.le_of_lt hlong, fun heq => absurd heq (Nat.ne_of_lt hlong)⟩

lemma nonzero_pieces (h : ∀ p ∈ ps, p.Clean) :
    nonzero (ps.flatMap Piece.appended) ≤ (ps.flatMap Piece.text).length ∧
      (nonzero (ps.flatMap Piece.appended) = (ps.flatMap Piece.text).length →
        ∀ p ∈ ps, p.text.length < buffLen - 1) := by
  induction ps with
  | nil => exact ⟨Nat.le_refl _, fun _ p hp => absurd hp List.not_mem_nil⟩
  | cons p ps ih =>
    obtain ⟨hp, hps⟩ := List.forall_mem_cons.mp h
    obtain ⟨hple, hpeq⟩ := hp.nonzero_le
    obtain ⟨hle, heq⟩ := ih hps
    rw [List.flatMap_cons, List.flatMap_cons, nonzero_append, List.length_append]
    refine ⟨Nat.add_le_add hple hle, fun hsum => ?_⟩
    exact List.forall_mem_cons.mpr ⟨hpeq (by omega), heq (by omega)⟩

lemma clean_pieces_text (h : ∀ p ∈ ps, p.Clean) : 0 ∉ ps.flatMap Piece.text := by
  intro hzero
  obtain ⟨p, hp, hmem⟩ := List.mem_flatMap.mp hzero
  exact (h p hp).noNul hmem

lemma backtrace_eq_text_iff {t : Trace} (h : ∀ p ∈ t.pieces, p.Clean) :
    t.backtrace = t.text ↔ t.Faithful := by
  constructor
  · intro heq p hp
    have hcount := nonzero_clean (clean_pieces_text h)
    rw [← Trace.text, ← heq] at hcount
    rw [(h p hp).faithful_iff]
    exact (nonzero_pieces h).2 (hcount.trans (congrArg List.length heq)) p hp
  · intro hfaithful
    rw [Trace.backtrace, Trace.text]
    apply List.flatMap_congr
    intro p hp
    exact (h p hp).whole ((h p hp).faithful_iff.mp (hfaithful p hp))

end Clean

lemma ascii_clean {s : String} (h : ∀ c ∈ s.toList, c.toNat % 256 ≠ 0) : 0 ∉ ascii s := by
  intro hzero
  obtain ⟨c, hc, hbyte⟩ := List.mem_map.mp hzero
  have hnat := congrArg UInt8.toNat hbyte
  rw [UInt8.toNat_ofNat'] at hnat
  exact h c hc hnat

lemma digit_clean {n : ℕ} {c : Char} (h : c ∈ Nat.toDigits 10 n) : c.toNat % 256 ≠ 0 := by
  have hdigit := Nat.isDigit_of_mem_toDigits (by decide) (by decide) h
  obtain ⟨hzero, hnine⟩ := Char.isDigit_iff_toNat.mp hdigit
  have hlow : 48 ≤ c.toNat := hzero
  have hhigh : c.toNat ≤ 57 := hnine
  omega

lemma decimal_clean (i : ℤ) : 0 ∉ ascii (toString i) := by
  apply ascii_clean
  cases i with
  | ofNat n =>
    have hw : (toString (Int.ofNat n)).toList = Nat.toDigits 10 n := Nat.toList_repr
    rw [hw]
    exact fun c => digit_clean
  | negSucc n =>
    have hw : (toString (Int.negSucc n)).toList = '-' :: Nat.toDigits 10 (n + 1) := by
      change ("-" ++ Nat.repr (n + 1)).toList = _
      rw [String.toList_append, Nat.toList_repr]
      rfl
    rw [hw]
    exact List.forall_mem_cons.mpr ⟨by decide, fun c => digit_clean⟩

lemma clean_indexText (i : ℕ) : 0 ∉ indexText i := by
  rw [indexText, List.mem_append, List.mem_append, not_or, not_or]
  exact ⟨⟨by decide, decimal_clean i⟩, by decide⟩

lemma clean_placeText (p : Place) (h : ∀ cn sep name, p = .method cn sep name → sep ≠ 0) :
    0 ∉ p.text := by
  have hin : 0 ∉ ascii ":in " := by decide
  cases p with
  | method cn sep name =>
    simp only [Place.text, List.mem_append, List.mem_singleton, not_or]
    exact ⟨⟨⟨hin, cn.noNul⟩, (h cn sep name rfl).symm⟩, name.noNul⟩
  | function name =>
    simp only [Place.text, List.mem_append, not_or]
    exact ⟨hin, name.noNul⟩
  | file => exact List.not_mem_nil

section Frames

variable {buffs : ℕ → Buff} {vm : Vm} {ciidx pc0 : ℤ}

lemma clean_reportText {i : ℕ} {r : Report} (h : report vm ciidx pc0 i = some r) :
    0 ∉ r.text := by
  have hplace : ∃ ci targetClass, r.place = place vm ci targetClass := by
    simp only [report] at h
    split at h
    · cases h
    · split at h
      · cases h
      · cases h
      · split at h
        · cases h
        · cases h
          exact ⟨_, _, rfl⟩
  obtain ⟨ci, targetClass, hplace⟩ := hplace
  have hsep : ∀ cn sep name, r.place = .method cn sep name → sep ≠ 0 := by
    intro cn sep name hmethod
    rw [hplace, place] at hmethod
    split at hmethod
    · cases hmethod
    · split at hmethod
      · cases hmethod
      · cases hmethod
        split <;> decide
  simp only [Report.text, List.mem_append, not_or]
  exact ⟨⟨⟨r.filename.noNul, by decide⟩, decimal_clean _⟩, clean_placeText r.place hsep⟩

lemma clean_formatted {t : Trace} (h : ∀ p ∈ t.pieces, p.Clean) {text : List UInt8}
    (htext : 0 ∉ text) : ∀ p ∈ (t.format buffs text).pieces, p.Clean := by
  rw [Trace.format]
  exact List.forall_mem_append.mpr ⟨h, List.forall_mem_singleton.mpr ⟨⟨_, rfl⟩, htext⟩⟩

lemma clean_outputFrame {t : Trace} (h : ∀ p ∈ t.pieces, p.Clean) (i : ℕ) :
    ∀ p ∈ (outputFrame buffs vm ciidx pc0 i t).pieces, p.Clean := by
  cases hreport : report vm ciidx pc0 i with
  | none => simpa only [outputFrame, hreport] using h
  | some r =>
    have hhead : ∀ p ∈ (if t.tracehead then
        { t.format buffs (ascii "trace:\n") with tracehead := false } else t).pieces, p.Clean := by
      split
      · exact clean_formatted h (by decide)
      · exact h
    simp only [outputFrame, hreport]
    apply clean_formatted _ (by decide)
    apply clean_formatted _ (clean_reportText hreport)
    exact clean_formatted hhead (clean_indexText i)

lemma clean_outputFrames (n : ℕ) {t : Trace} (h : ∀ p ∈ t.pieces, p.Clean) :
    ∀ p ∈ (outputFrames buffs vm ciidx pc0 n t).pieces, p.Clean := by
  induction n generalizing t with
  | zero => exact h
  | succ i ih => exact ih (clean_outputFrame h i)

end Frames

theorem backtrace_text_iff (buffs : ℕ → Buff) (vm : Vm) (pc0 : ℤ) (ciidx : Int32) :
    let start := startIndex vm ciidx
    (outputBacktrace buffs vm pc0 ciidx).backtrace =
        traceText (reported vm start pc0 (start + 1).toNat) ↔
      ∀ i : ℕ, i ≤ start → ∀ r, report vm start pc0 i = some r → r.size ≤ 1022 := by
  intro start
  have hstart : start ≤ intMax := startIndex_le vm ciidx
  have hnone : ∀ p ∈ (⟨true, []⟩ : Trace).pieces, p.Clean := fun p hp => absurd hp List.not_mem_nil
  have htext : (outputBacktrace buffs vm pc0 ciidx).text =
      traceText (reported vm start pc0 (start + 1).toNat) :=
    outputFrames_text (start + 1).toNat ⟨true, []⟩
  have hframes := @faithful_outputFrames buffs vm start pc0 ⟨true, []⟩ (start + 1).toNat (by omega)
  have hempty : (⟨true, []⟩ : Trace).Faithful := fun p hp => absurd hp List.not_mem_nil
  have hclean : ∀ p ∈ (outputBacktrace buffs vm pc0 ciidx).pieces, p.Clean :=
    clean_outputFrames (start + 1).toNat hnone
  rw [← htext, backtrace_eq_text_iff hclean]
  refine hframes.trans ((and_iff_right hempty).trans (forall_congr' fun i => ?_))
  have hindex : i < (start + 1).toNat ↔ (i : ℤ) ≤ start := by
    omega
  rw [hindex]
  exact imp_congr_right fun _ => forall₂_congr fun r _ => Nat.lt_succ_iff

end ModGate.Ruby
