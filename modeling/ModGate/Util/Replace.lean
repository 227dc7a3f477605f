import Mathlib.Algebra.Order.Ring.Int
import Mathlib.Data.List.Infix

/-! The template `replace`, whose loop searches the text that it rewrites. -/

namespace ModGate.Util

variable {α : Type} [DecidableEq α]

-- The search of `find` in the rest of a text that begins at `pos`.
def findFrom (find : List α) : List α → ℕ → Option ℕ
  | [], pos => if find = [] then some pos else none
  | c :: rest, pos => if find <+: c :: rest then some pos else findFrom find rest (pos + 1)

def findAt (source find : List α) (pos : ℕ) : Option ℕ :=
  if pos ≤ source.length then findFrom find (source.drop pos) pos else none

-- `num` is an `int`.
structure Replacing (α : Type) where
  num : ℤ
  pos : ℕ
  source : List α
deriving DecidableEq

-- One iteration, from the search to `pos += rLen`; `none` ends the loop.
def Replacing.next (find replace : List α) (s : Replacing α) : Option (Replacing α) :=
  (findAt s.source find s.pos).map fun pos =>
    ⟨(s.num + 1).bmod (2 ^ 32), pos + replace.length,
      s.source.take pos ++ replace ++ s.source.drop (pos + find.length)⟩

-- The result is `none` when the given number of searches does not end the loop.
def replaceLoop (find replace : List α) : ℕ → Replacing α → Option (Replacing α)
  | 0, _ => none
  | n + 1, s =>
    match s.next find replace with
    | none => some s
    | some s' => replaceLoop find replace n s'

def replacing (find replace : List α) (source : List α) (n : ℕ) : Option (Replacing α) :=
  (fun s => s.bind (Replacing.next find replace))^[n] (some ⟨0, 0, source⟩)

/-- What the template is for: the occurrences in the given text, from the left and without overlap,
replaced and counted. -/
def greedy (find replace : List α) : List α → List α × ℕ
  | [] => ([], 0)
  | c :: rest =>
    if find <+: c :: rest then
      let r := greedy find replace (rest.drop (find.length - 1))
      (replace ++ r.1, r.2 + 1)
    else
      let r := greedy find replace rest
      (c :: r.1, r.2)
termination_by s => s.length

section Search

variable {find : List α} (replace : List α)

lemma greedy_occurrence (h : find ≠ []) (rest : List α) :
    greedy find replace (find ++ rest) =
      (replace ++ (greedy find replace rest).1, (greedy find replace rest).2 + 1) := by
  obtain ⟨c, tail, rfl⟩ := List.exists_cons_of_ne_nil h
  have hdrop : (tail ++ rest).drop ((c :: tail).length - 1) = rest := by
    rw [List.length_cons, Nat.add_sub_cancel, List.drop_left]
  have hhead : c :: tail <+: c :: (tail ++ rest) := List.prefix_append (c :: tail) rest
  rw [List.cons_append, greedy, if_pos hhead, hdrop]

lemma greedy_skip {c : α} {rest : List α} (h : ¬ find <+: c :: rest) :
    greedy find replace (c :: rest) =
      (c :: (greedy find replace rest).1, (greedy find replace rest).2) := by
  rw [greedy, if_neg h]

lemma findFrom_eq_none {rest : List α} {pos : ℕ}
    (hnone : findFrom find rest pos = none) : greedy find replace rest = (rest, 0) := by
  induction rest generalizing pos with
  | nil => rw [greedy]
  | cons c rest ih =>
    rw [findFrom] at hnone
    by_cases hhead : find <+: c :: rest
    · rw [if_pos hhead] at hnone
      cases hnone
    · rw [if_neg hhead] at hnone
      rw [greedy_skip replace hhead, ih hnone]

lemma findFrom_eq_some (h : find ≠ []) {rest : List α} {pos found : ℕ}
    (hfound : findFrom find rest pos = some found) :
    ∃ skipped after, rest = skipped ++ (find ++ after) ∧ found = pos + skipped.length ∧
      greedy find replace rest = (skipped ++ (replace ++ (greedy find replace after).1),
        (greedy find replace after).2 + 1) := by
  induction rest generalizing pos with
  | nil =>
    rw [findFrom, if_neg h] at hfound
    cases hfound
  | cons c rest ih =>
    rw [findFrom] at hfound
    by_cases hhead : find <+: c :: rest
    · rw [if_pos hhead] at hfound
      obtain ⟨after, hafter⟩ := hhead
      refine ⟨[], after, hafter.symm, (Option.some.inj hfound).symm, ?_⟩
      rw [← hafter, greedy_occurrence replace h]
      rfl
    · rw [if_neg hhead] at hfound
      obtain ⟨skipped, after, rfl, rfl, hgreedy⟩ := ih hfound
      refine ⟨c :: skipped, after, rfl, ?_, ?_⟩
      · rw [List.length_cons]
        omega
      · rw [greedy_skip replace hhead, hgreedy]
        rfl

end Search

/-- What stands before `pos` is done; what stands from there on is the end of the given text. -/
structure Replaced (find replace source : List α) (s : Replacing α) (count : ℕ)
    (done rest : List α) : Prop where
  text : s.source = done ++ rest
  pos : s.pos = done.length
  num : s.num = (count : ℤ).bmod (2 ^ 32)
  ending : rest <:+ source
  result : (done ++ (greedy find replace rest).1, count + (greedy find replace rest).2) =
    greedy find replace source

section Loop

variable {find replace source done rest : List α} {s : Replacing α} {count : ℕ}

lemma Replaced.initial (find replace source : List α) :
    Replaced find replace source ⟨0, 0, source⟩ 0 [] source where
  text := rfl
  pos := rfl
  num := rfl
  ending := List.suffix_refl source
  result := by simp

lemma Replaced.search (h : Replaced find replace source s count done rest) :
    findAt s.source find s.pos = findFrom find rest s.pos := by
  have hle : s.pos ≤ s.source.length := by
    rw [h.text, h.pos, List.length_append]
    omega
  rw [findAt, if_pos hle, h.text, h.pos, List.drop_left]

lemma Replaced.last (h : Replaced find replace source s count done rest)
    (hnext : s.next find replace = none) :
    s.source = (greedy find replace source).1 ∧
      s.num = ((greedy find replace source).2 : ℤ).bmod (2 ^ 32) := by
  rw [Replacing.next, h.search, Option.map_eq_none_iff] at hnext
  have hresult := h.result
  rw [findFrom_eq_none replace hnext, Nat.add_zero] at hresult
  rw [← hresult]
  exact ⟨h.text, h.num⟩

lemma Replaced.next (hfind : find ≠ []) (h : Replaced find replace source s count done rest)
    {s' : Replacing α} (hnext : s.next find replace = some s') :
    ∃ done' rest', Replaced find replace source s' (count + 1) done' rest' ∧
      rest'.length < rest.length := by
  rw [Replacing.next, h.search, Option.map_eq_some_iff] at hnext
  obtain ⟨found, hfound, rfl⟩ := hnext
  obtain ⟨skipped, after, rfl, rfl, hgreedy⟩ := findFrom_eq_some replace hfind hfound
  have htake : (done ++ (skipped ++ (find ++ after))).take (done.length + skipped.length) =
      done ++ skipped := by
    rw [← List.append_assoc, ← List.length_append, List.take_left]
  have hdrop : (done ++ (skipped ++ (find ++ after))).drop
      (done.length + skipped.length + find.length) = after := by
    rw [← List.append_assoc, ← List.append_assoc, ← List.length_append, ← List.length_append,
      List.drop_left]
  refine ⟨done ++ skipped ++ replace, after, ⟨?_, ?_, ?_, ?_, ?_⟩, ?_⟩
  · simp only [h.text, h.pos, htake, hdrop]
  · simp only [h.pos, List.length_append]
  · rw [h.num, Int.bmod_add_bmod, Nat.cast_add_one]
  · refine List.IsSuffix.trans ?_ h.ending
    rw [← List.append_assoc]
    exact List.suffix_append (skipped ++ find) after
  · rw [← h.result, hgreedy]
    simp only [List.append_assoc, Nat.add_assoc, Nat.add_comm 1]
  · have hpos := List.length_pos_iff.mpr hfind
    simp only [List.length_append]
    omega

lemma Replaced.loop (hfind : find ≠ []) (h : Replaced find replace source s count done rest) {n : ℕ}
    (hn : rest.length < n) :
    ∃ r, replaceLoop find replace n s = some r ∧ r.source = (greedy find replace source).1 ∧
      r.num = ((greedy find replace source).2 : ℤ).bmod (2 ^ 32) := by
  induction n generalizing s count done rest with
  | zero => omega
  | succ n ih =>
    rw [replaceLoop]
    cases hnext : s.next find replace with
    | none => exact ⟨s, rfl, h.last hnext⟩
    | some s' =>
      obtain ⟨done', rest', h', hlt⟩ := h.next hfind hnext
      exact ih h' (by omega)

lemma Replaced.run (hfind : find ≠ []) {n : ℕ} (hs : replacing find replace source n = some s) :
    ∃ count done rest, Replaced find replace source s count done rest := by
  induction n generalizing s with
  | zero =>
    obtain rfl := Option.some.inj hs
    exact ⟨0, [], source, Replaced.initial find replace source⟩
  | succ n ih =>
    rw [replacing, Function.iterate_succ_apply'] at hs
    obtain ⟨s₀, hs₀, hnext⟩ := Option.bind_eq_some_iff.mp hs
    obtain ⟨count, done, rest, h⟩ := ih hs₀
    obtain ⟨done', rest', h', -⟩ := h.next hfind hnext
    exact ⟨count + 1, done', rest', h'⟩

lemma Replaced.ahead (h : Replaced find replace source s count done rest) :
    s.source.drop s.pos <:+ source := by
  rw [h.text, h.pos, List.drop_left]
  exact h.ending

lemma bmod_eq_count_iff (n : ℕ) : (n : ℤ).bmod (2 ^ 32) = n ↔ n < 2 ^ 31 := by
  constructor
  · intro h
    have hlt := @Int.bmod_lt (n : ℤ) (2 ^ 32) (by decide)
    rw [h] at hlt
    omega
  · intro h
    apply Int.bmod_eq_of_le <;> omega

theorem replace_greedy (hfind : find ≠ []) (replace source : List α) :
    (∀ n, source.length < n → ∃ r, replaceLoop find replace n ⟨0, 0, source⟩ = some r ∧
      r.source = (greedy find replace source).1 ∧
      (r.num = (greedy find replace source).2 ↔ (greedy find replace source).2 < 2 ^ 31)) ∧
      ∀ n s, replacing find replace source n = some s → s.source.drop s.pos <:+ source := by
  constructor
  · intro n hn
    obtain ⟨r, hr, hsource, hnum⟩ := (Replaced.initial find replace source).loop hfind hn
    refine ⟨r, hr, hsource, ?_⟩
    rw [hnum]
    exact bmod_eq_count_iff _
  · intro n s hs
    obtain ⟨count, done, rest, h⟩ := Replaced.run hfind hs
    exact h.ahead

theorem overlapping_pattern_replaced :
    ∃ r, replaceLoop "aa".toList "a".toList 6 ⟨0, 0, "aaaaa".toList⟩ = some r ∧
      r.source = "aaa".toList ∧ r.num = 2 := by
  have hfind : "aa".toList ≠ [] := by decide
  have hgreedy : greedy "aa".toList "a".toList "aaaaa".toList = ("aaa".toList, 2) := by
    simp [greedy]
  obtain ⟨r, hr, hsource, hnum⟩ := (replace_greedy hfind "a".toList "aaaaa".toList).1 6 (by decide)
  rw [hgreedy] at hsource hnum
  exact ⟨r, hr, hsource, hnum.mpr (by decide)⟩

lemma greedy_replicate (c : α) (n : ℕ) :
    greedy [c] [c] (List.replicate n c) = (List.replicate n c, n) := by
  induction n with
  | zero => rw [List.replicate_zero, greedy]
  | succ n ih =>
    have hfirst := greedy_occurrence [c] (List.cons_ne_nil c []) (List.replicate n c)
    rw [ih] at hfirst
    exact hfirst

theorem long_text_miscounted :
    let source := List.replicate (2 ^ 31) 'a'
    (greedy ['a'] ['a'] source).2 = 2 ^ 31 ∧
      ∃ n r, replaceLoop ['a'] ['a'] n ⟨0, 0, source⟩ = some r ∧ r.num = -2 ^ 31 ∧
        r.num ≠ (greedy ['a'] ['a'] source).2 := by
  intro source
  have hcount : (greedy ['a'] ['a'] source).2 = 2 ^ 31 :=
    congrArg Prod.snd (greedy_replicate 'a' (2 ^ 31))
  obtain ⟨r, hr, -, hnum⟩ := (Replaced.initial ['a'] ['a'] source).loop
    (List.cons_ne_nil 'a' []) (Nat.lt_succ_self source.length)
  rw [hcount] at hnum
  have hwrapped : r.num = -2 ^ 31 := hnum.trans (by decide)
  refine ⟨hcount, _, r, hr, hwrapped, ?_⟩
  rw [hwrapped, hcount]
  decide

/-! An empty pattern is found at every position. -/

lemma next_of_empty (replace : List α) (h : s.pos ≤ s.source.length) :
    ∃ s', s.next [] replace = some s' ∧ s'.pos ≤ s'.source.length := by
  have hfound : findAt s.source [] s.pos = some s.pos := by
    rw [findAt, if_pos h]
    cases s.source.drop s.pos with
    | nil => rfl
    | cons c rest => exact if_pos (List.nil_prefix)
  refine ⟨_, by rw [Replacing.next, hfound, Option.map_some], ?_⟩
  simp only [List.length_append, List.length_take, List.length_drop, List.length_nil]
  omega

lemma loop_of_empty (n : ℕ) (h : s.pos ≤ s.source.length) :
    replaceLoop [] replace n s = none := by
  induction n generalizing s with
  | zero => rfl
  | succ n ih =>
    obtain ⟨s', hs', hpos⟩ := next_of_empty replace h
    rw [replaceLoop, hs']
    exact ih hpos

def ReplaceEnds (find replace source : List α) : Prop :=
  ∃ n r, replaceLoop find replace n ⟨0, 0, source⟩ = some r

theorem replace_ends_iff (find replace source : List α) :
    ReplaceEnds find replace source ↔ find ≠ [] := by
  constructor
  · rintro ⟨n, r, hr⟩ rfl
    rw [loop_of_empty n (Nat.zero_le _)] at hr
    cases hr
  · intro hfind
    obtain ⟨r, hr, -⟩ :=
      (Replaced.initial find replace source).loop hfind (Nat.lt_add_one source.length)
    exact ⟨_, r, hr⟩

theorem empty_pattern_never_ends : ¬ ReplaceEnds [] [] ['a'] := by
  rintro ⟨n, r, hr⟩
  rw [loop_of_empty n (Nat.zero_le _)] at hr
  cases hr

end Loop

end ModGate.Util
