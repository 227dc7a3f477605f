import ModGate.Body.Reader

/-! The character that `read_line` looks at when a line feed arrives: the one before it, which a
line that begins with the line feed does not have. -/

namespace ModGate.Body

open Url Transition

-- The lengths of the line at which the loop evaluates `content[content.length() - 2]`.
def indexedLengths (a : Apache) : ℕ → Bytes → Request → List ℕ
  | 0, _, _ => []
  | fuel + 1, line, r =>
    let (data, r) := getClientBlock a 1 r
    match data with
    | [] => []
    | c :: _ =>
      let line := if c = 0 then line else line ++ [c]
      if c = 10 then
        line.length ::
          if line.dropLast.getLast? = some 13 then [] else indexedLengths a fuel line r
      else indexedLengths a fuel line r

def readLineLengths (a : Apache) (r : Request) : List ℕ :=
  if r.hasReadContent then []
  else
    let r := (setupClientRead a r).2
    indexedLengths a (r.body.length + 1) [] r

def IndexesInside (a : Apache) (c : Call) (s : Session) : Prop :=
  c = .readLine → ∀ n ∈ readLineLengths a s.request, 2 ≤ n

/-- The first byte other than NUL is a line feed, and no call for the bytes up to it fails; `n` is
the number of the next call. -/
def FeedFirst (a : Apache) : ℕ → Bytes → Prop
  | _, [] => False
  | n, c :: rest => a.blockFails n = false ∧ (c = 10 ∨ c = 0 ∧ FeedFirst a (n + 1) rest)

def FeedNotFirst (a : Apache) (c : Call) (s : Session) : Prop :=
  c = .readLine → s.request.hasReadContent = false →
    ¬ FeedFirst a s.request.blocks s.request.body

section Line

variable {a : Apache}

lemma getClientBlock_fails {r : Request} (h : a.blockFails r.blocks = true) :
    getClientBlock a 1 r = ([], r.advance r.body 1) := by
  simp [getClientBlock, blockSize, h, Request.advance, Request.log]

lemma getClientBlock_byte {r : Request} (h : a.blockFails r.blocks = false) {c : UInt8}
    {rest : Bytes} (hbody : r.body = c :: rest) :
    getClientBlock a 1 r = ([c], r.advance rest 1) := by
  have hsize : blockSize a r 1 = 1 := by
    simp only [blockSize, h, Bool.false_eq_true, if_false]
    omega
  rw [getClientBlock, hsize, hbody]
  rfl

lemma inside_of_begun {fuel : ℕ} {line : Bytes} {r : Request} (h : line ≠ []) :
    ∀ n ∈ indexedLengths a fuel line r, 2 ≤ n := by
  induction fuel generalizing line r with
  | zero => simp [indexedLengths]
  | succ fuel ih =>
    have hpos := List.length_pos_iff.mpr h
    obtain ⟨data, rest, hbody, hblock, hlen, hend⟩ := getClientBlock_spec a 1 r
    rw [indexedLengths, hblock]
    cases data with
    | nil => simp
    | cons c data =>
      by_cases hfeed : c = 10
      · subst hfeed
        have hlong : 2 ≤ (line ++ [10]).length := by
          rw [List.length_append, List.length_singleton]
          omega
        have hkept : (if (10 : UInt8) = 0 then line else line ++ [10]) = line ++ [10] :=
          if_neg (by decide)
        simp only [hkept, if_true]
        intro n hn
        rcases List.mem_cons.mp hn with rfl | hn
        · exact hlong
        · split_ifs at hn
          · exact absurd hn List.not_mem_nil
          · exact ih (List.concat_ne_nil _ _) n hn
      · have hnext : (if c = 0 then line else line ++ [c]) ≠ [] := by
          split
          · exact h
          · simp
        simp only [hfeed, if_false]
        exact ih hnext

lemma inside_iff_feedNotFirst {fuel : ℕ} {r : Request} (h : r.body.length < fuel) :
    (∀ n ∈ indexedLengths a fuel [] r, 2 ≤ n) ↔ ¬ FeedFirst a r.blocks r.body := by
  induction fuel generalizing r with
  | zero => omega
  | succ fuel ih =>
    cases hbody : r.body with
    | nil =>
      obtain ⟨data, rest, hsplit, hblock, -, -⟩ := getClientBlock_spec a 1 r
      obtain ⟨rfl, rfl⟩ := List.append_eq_nil_iff.mp (hsplit.symm.trans hbody)
      simp [indexedLengths, hblock, FeedFirst]
    | cons c rest =>
      cases hfails : a.blockFails r.blocks with
      | true => simp [indexedLengths, getClientBlock_fails hfails, FeedFirst, hfails]
      | false =>
        have hshort : (r.advance rest 1).body.length < fuel := by
          rw [hbody, List.length_cons] at h
          change rest.length < fuel
          omega
        rw [indexedLengths, getClientBlock_byte hfails hbody]
        by_cases hfeed : c = 10
        · subst hfeed
          simp [FeedFirst, hfails]
        · by_cases hnul : c = 0
          · subst hnul
            have hrest := ih hshort
            change _ ↔ ¬ FeedFirst a (r.blocks + 1) rest at hrest
            simpa [FeedFirst, hfails] using hrest
          · have hbegun : ∀ n ∈ indexedLengths a fuel [c] (r.advance rest 1), 2 ≤ n :=
              inside_of_begun (List.cons_ne_nil c [])
            simpa [FeedFirst, hfeed, hnul] using hbegun

end Line

lemma indexesInside_iff (a : Apache) (c : Call) (s : Session) :
    IndexesInside a c s ↔ FeedNotFirst a c s := by
  refine imp_congr_right fun _ => ?_
  cases hread : s.request.hasReadContent with
  | true => simp [readLineLengths, hread]
  | false =>
    obtain ⟨error, hopened⟩ := setupClientRead_spec a s.request
    have hline :=
      inside_iff_feedNotFirst (a := a) (Nat.lt_add_one (s.request.opened a error).body.length)
    simp only [readLineLengths, hread, hopened, Bool.false_eq_true, if_false, true_imp_iff]
    exact hline

theorem line_index_iff (a : Apache) (body : Bytes) (calls : List Call) :
    Along (call a) (IndexesInside a) calls ⟨fresh body, []⟩ ↔
      Along (call a) (FeedNotFirst a) calls ⟨fresh body, []⟩ := by
  refine @along_congr _ _ _ (fun _ => True) _ _ ?_ (fun _ _ _ _ => trivial) calls _ trivial
  intro c s _
  exact indexesInside_iff a c s

theorem sole_line_feed_wraps :
    readLineLengths calmApache (fresh [10]) = [1] ∧
      ¬ Along (call calmApache) (IndexesInside calmApache) [.readLine] ⟨fresh [10], []⟩ := by
  refine ⟨by decide, fun h => ?_⟩
  exact absurd (h.1 rfl 1 (by decide)) (by decide)

end ModGate.Body
