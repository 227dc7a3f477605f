import ModGate.Body.Delivery

/-! A body read line by line and in bulk, and the limit that `content` puts on its size: the value
compared with the limit is not the size of the body, and nothing follows from the comparison. -/

namespace ModGate.Body

open Url Transition

def WithinLimit (a : Apache) (body : Bytes) : Prop :=
  let collected := (content a false (fresh body)).2.content
  (collected.length : ℤ) ≤ a.maxContentLength ∧
    (a.maxContentLength < body.length → collected ≠ body)

lemma content_fresh {a : Apache} (hok : ∀ n, a.blockFails n = false) (body : Bytes) :
    (content a false (fresh body)).2.content = body := (content_whole hok (fresh body)).2.1

theorem size_limit_iff {a : Apache} (hok : ∀ n, a.blockFails n = false) (body : Bytes) :
    WithinLimit a body ↔ (body.length : ℤ) ≤ a.maxContentLength := by
  rw [WithinLimit, content_fresh hok]
  constructor
  · intro h
    exact h.1
  · intro h
    exact ⟨h, fun hlong => absurd h (by omega)⟩

theorem short_body_within_limit :
    WithinLimit { calmApache with maxContentLength := 3 } [97, 98, 99] :=
  (size_limit_iff (fun _ => rfl) _).mpr (by decide)

theorem long_body_buffered :
    let a := { calmApache with maxContentLength := 2 }
    let r := (content a false (fresh [97, 98, 99])).2
    r.content = [97, 98, 99] ∧ r.error = "" ∧ ¬ WithinLimit a [97, 98, 99] := by
  refine ⟨by decide, by decide, fun h => ?_⟩
  exact absurd h.1 (by decide)

/-! A line is appended as a C string, character by character, so a NUL is read and lost. -/

structure Lines (body : Bytes) (s : Session) : Prop where
  split : ∃ taken, taken ++ s.request.body = body ∧
    delivered s.answers = taken.filter fun c => c ≠ 0
  ended : s.request.hasReadContent = true → s.request.body = []

section Runs

variable {a : Apache} {body : Bytes} {s : Session}

lemma Lines.fresh (body : Bytes) : Lines body ⟨Body.fresh body, []⟩ where
  split := ⟨[], rfl, rfl⟩
  ended := by
    intro h
    cases h

lemma Lines.call_ended (h : Lines body s) (hread : s.request.hasReadContent = true) :
    Lines body (call a .readLine s) ∧ (call a .readLine s).request.hasReadContent = true := by
  obtain ⟨taken, hsplit, hdelivered⟩ := h.split
  have hsame : perform a .readLine s.request = (.line [], s.request) := readLine_ended a hread
  refine ⟨⟨⟨taken, ?_, ?_⟩, ?_⟩, ?_⟩
  · rw [Body.call, hsame]
    exact hsplit
  · rw [delivered_call, hsame, hdelivered]
    exact List.append_nil _
  · rw [Body.call, hsame]
    exact h.ended
  · rw [Body.call, hsame]
    exact hread

lemma Lines.call_reading (hok : ∀ n, a.blockFails n = false) (h : Lines body s)
    (hread : s.request.hasReadContent = false) :
    Lines body (call a .readLine s) ∧
      ((call a .readLine s).request.hasReadContent = true ∨
        (call a .readLine s).request.body.length < s.request.body.length) := by
  obtain ⟨taken, hsplit, hdelivered⟩ := h.split
  obtain ⟨data, rest, n, ended, error, hbody, hline, hempty, hend⟩ := readLine_spec a hread
  have hperform : perform a .readLine s.request = _ := hline
  refine ⟨⟨⟨taken ++ data, ?_, ?_⟩, ?_⟩, ?_⟩
  · rw [Body.call, hperform, List.append_assoc]
    exact hbody ▸ hsplit
  · rw [delivered_call, hperform, hdelivered, List.filter_append]
    rfl
  · rw [Body.call, hperform]
    exact fun hended => hempty hended hok
  · rw [Body.call, hperform]
    cases ended with
    | true => exact Or.inl rfl
    | false =>
      obtain ⟨l, hl, -⟩ := hend.1 rfl
      have hdata : data ≠ [] := by
        rintro rfl
        simp [crlf] at hl
      have hpos := List.length_pos_iff.mpr hdata
      refine Or.inr ?_
      rw [hbody, List.length_append]
      change rest.length < _
      omega

lemma Lines.call (hok : ∀ n, a.blockFails n = false) (h : Lines body s) :
    Lines body (call a .readLine s) ∧
      ((call a .readLine s).request.hasReadContent = true ∨
        (call a .readLine s).request.body.length < s.request.body.length) := by
  cases hread : s.request.hasReadContent with
  | true =>
    obtain ⟨hlines, hended⟩ := h.call_ended hread
    exact ⟨hlines, Or.inl hended⟩
  | false => exact h.call_reading hok hread

lemma lines_session (hok : ∀ n, a.blockFails n = false) (body : Bytes) (n : ℕ) :
    Lines body (session a (List.replicate n .readLine) body) ∧
      ((session a (List.replicate n .readLine) body).request.hasReadContent = true ∨
        (session a (List.replicate n .readLine) body).request.body.length + n ≤ body.length) := by
  induction n with
  | zero => exact ⟨Lines.fresh body, Or.inr (Nat.le_refl _)⟩
  | succ n ih =>
    obtain ⟨hlines, hprogress⟩ := ih
    obtain ⟨hnext, hmore⟩ := hlines.call hok
    rw [List.replicate_succ', session_concat]
    refine ⟨hnext, ?_⟩
    rcases hmore with hmore | hmore
    · exact Or.inl hmore
    · rcases hprogress with hended | hle
      · rw [hlines.ended hended] at hmore
        exact absurd hmore (Nat.not_lt_zero _)
      · exact Or.inr (by omega)

end Runs

lemma filter_nonzero_iff (body : Bytes) : body.filter (fun c => c ≠ 0) = body ↔ 0 ∉ body := by
  rw [List.filter_eq_self]
  constructor
  · intro h h0
    simpa using h 0 h0
  · intro h c hc
    simpa using fun h0 : c = 0 => h (h0 ▸ hc)

def lineCalls (a : Apache) (body : Bytes) (n : ℕ) : Session :=
  session a (List.replicate n .readLine) body

/-- Enough calls of `read_line` end the input, and then their results make up what one call of
`content` collects. -/
def LinesAgree (a a' : Apache) (body : Bytes) : Prop :=
  (∃ n, (lineCalls a body n).request.hasReadContent = true) ∧
    ∀ n, (lineCalls a body n).request.hasReadContent = true →
      delivered (lineCalls a body n).answers = (content a' false (fresh body)).2.content

lemma delivered_lines {a : Apache} (hok : ∀ n, a.blockFails n = false) {body : Bytes} {n : ℕ}
    (h : (lineCalls a body n).request.hasReadContent = true) :
    delivered (lineCalls a body n).answers = body.filter fun c => c ≠ 0 := by
  have hlines := (lines_session hok body n).1
  obtain ⟨taken, hsplit, hdelivered⟩ := hlines.split
  rw [hlines.ended h, List.append_nil] at hsplit
  exact hsplit ▸ hdelivered

lemma lines_end {a : Apache} (hok : ∀ n, a.blockFails n = false) (body : Bytes) :
    (lineCalls a body (body.length + 1)).request.hasReadContent = true := by
  rcases (lines_session hok body (body.length + 1)).2 with h | h
  · exact h
  · omega

theorem lines_eq_content_iff {a a' : Apache} (hok : ∀ n, a.blockFails n = false)
    (hok' : ∀ n, a'.blockFails n = false) (body : Bytes) :
    LinesAgree a a' body ↔ 0 ∉ body := by
  have hend := lines_end hok body
  rw [LinesAgree, content_fresh hok', ← filter_nonzero_iff]
  constructor
  · rintro ⟨-, hall⟩
    exact (delivered_lines hok hend).symm.trans (hall _ hend)
  · intro h
    exact ⟨⟨_, hend⟩, fun n hn => (delivered_lines hok hn).trans h⟩

theorem text_lines_agree : LinesAgree calmApache calmApache [97, 13, 10, 10, 98] :=
  (lines_eq_content_iff (fun _ => rfl) (fun _ => rfl) _).mpr (by decide)

theorem nul_lost_by_lines :
    (lineCalls calmApache [97, 0, 98] 1).answers = [.line [97, 98]] ∧
      (lineCalls calmApache [97, 0, 98] 1).request.hasReadContent = true ∧
      (content calmApache false (fresh [97, 0, 98])).2.content = [97, 0, 98] ∧
      ¬ LinesAgree calmApache calmApache [97, 0, 98] := by
  refine ⟨by decide, by decide, by decide, fun h => ?_⟩
  exact absurd (h.2 1 (by decide)) (by decide)

end ModGate.Body
