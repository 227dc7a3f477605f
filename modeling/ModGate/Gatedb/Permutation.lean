import ModGate.Gatedb.Reading
import ModGate.Gatedb.Permute
import ModGate.Transition.Answers

/-! The scanner of `getopt_long` against the reader that moves no word: call by call they answer
alike, and the scanner ends with the operands behind everything it consumed. -/

namespace ModGate.Gatedb.Getopt

/-- How the scanner marks the operands that it holds back between the words consumed `before` them
and the `recent` ones. -/
inductive Marks (g : Getopt) (before : List String) :
    List String → List String → Option ℕ → Option ℕ → Prop
  | idle {recent : List String} : Marks g before [] recent none none
  | behind {operands recent : List String} (hops : operands ≠ []) (hrecent : recent ≠ []) :
      Marks g before operands recent (some before.length) (some (before.length + operands.length))
  | skipped {operands : List String} (hpermute : g.permute = true) (hall : g.allargs = false)
      (hops : operands ≠ []) : Marks g before operands [] (some before.length) none

/-- The vector while the loop of one call is at the first of `words`. -/
structure Holds (g : Getopt) (before operands recent words : List String) (s : Scanner) :
    Prop where
  nargv : s.nargv = before ++ operands ++ recent ++ words
  optind : s.optind = before.length + operands.length + recent.length
  marks : Marks g before operands recent s.nonoptStart s.nonoptEnd

section Loop

variable {g : Getopt} {before operands recent words : List String} {word : String} {s : Scanner}

lemma exhausted_ends (h : Holds g before operands recent [] s) :
    (exhausted s).nargv = before ++ recent ++ operands ∧
      (exhausted s).optind = before.length + recent.length := by
  obtain ⟨hnargv, hoptind, hmarks⟩ := h
  rw [List.append_nil] at hnargv
  generalize hfirst : s.nonoptStart = first at hmarks
  generalize hlast : s.nonoptEnd = last at hmarks
  cases hmarks with
  | idle => simp [exhausted, hfirst, hnargv, hoptind]
  | behind hops hrecent =>
    have hblocks := permuteArgs_blocks hops hrecent before []
    simp only [List.append_nil] at hblocks
    simp only [exhausted, hfirst, hlast, exchange, hnargv, hoptind, hblocks]
    exact ⟨trivial, by omega⟩
  | skipped => simp [exhausted, hfirst, hlast, hnargv]

lemma skipNonoption_holds (hpermute : g.permute = true) (hall : g.allargs = false)
    (h : Holds g before operands recent (word :: words) s) :
    Holds g (before ++ recent) (operands ++ [word]) [] words (skipNonoption s) := by
  obtain ⟨hnargv, hoptind, hmarks⟩ := h
  have hops' : operands ++ [word] ≠ [] := by simp
  have hmark : ∀ {s' : Scanner}, s'.nonoptStart = some (before.length + recent.length) →
      s'.nonoptEnd = none →
      Marks g (before ++ recent) (operands ++ [word]) [] s'.nonoptStart s'.nonoptEnd := by
    intro s' hs he
    rw [hs, he, ← List.length_append]
    exact .skipped hpermute hall hops'
  generalize hfirst : s.nonoptStart = first at hmarks
  generalize hlast : s.nonoptEnd = last at hmarks
  cases hmarks with
  | idle =>
    refine ⟨?_, ?_, hmark ?_ ?_⟩ <;> simp [skipNonoption, hfirst, hlast, hnargv, hoptind]
  | behind hops hrecent =>
    have hblocks := permuteArgs_blocks hops hrecent before (word :: words)
    refine ⟨?_, ?_, hmark ?_ ?_⟩
    · simp only [skipNonoption, hfirst, hlast, hnargv, hoptind, hblocks]
      simp
    · simp [skipNonoption, hfirst, hlast, hoptind]
      omega
    · simp only [skipNonoption, hfirst, hlast, hoptind]
      congr 1
      omega
    · simp [skipNonoption, hfirst, hlast]
  | skipped =>
    refine ⟨?_, ?_, hmark ?_ ?_⟩ <;> simp [skipNonoption, hfirst, hlast, hnargv, hoptind]
    omega

-- The marks once an option has been met.
def Marked (before operands : List String) (first last : Option ℕ) : Prop :=
  if operands = [] then first = none ∧ last = none
  else first = some before.length ∧ last = some (before.length + operands.length)

def meetOption (s : Scanner) : Scanner :=
  if s.nonoptStart.isSome ∧ s.nonoptEnd = none then { s with nonoptEnd := some s.optind } else s

lemma meetOption_eq (s : Scanner) : meetOption s =
    { s with
      nonoptStart := (meetOption s).nonoptStart
      nonoptEnd := (meetOption s).nonoptEnd } := by
  unfold meetOption
  split <;> rfl

lemma meetOption_marked (h : Holds g before operands recent words s) :
    Marked before operands (meetOption s).nonoptStart (meetOption s).nonoptEnd := by
  obtain ⟨-, hoptind, hmarks⟩ := h
  generalize hfirst : s.nonoptStart = first at hmarks
  generalize hlast : s.nonoptEnd = last at hmarks
  cases hmarks with
  | idle => simp [meetOption, Marked, hfirst, hlast]
  | behind hops hrecent => simp [meetOption, Marked, hfirst, hlast, hops]
  | skipped hpermute hall hops => simp [meetOption, Marked, hfirst, hlast, hops, hoptind]

lemma doubleDash_ends (hnargv : s.nargv = before ++ operands ++ recent ++ word :: words)
    (hoptind : s.optind = before.length + operands.length + recent.length)
    (hmarked : Marked before operands s.nonoptStart s.nonoptEnd) :
    (doubleDash s).nargv = before ++ (recent ++ [word]) ++ (operands ++ words) ∧
      (doubleDash s).optind = before.length + (recent.length + 1) := by
  unfold Marked at hmarked
  split at hmarked
  · next hops =>
    subst hops
    simp [doubleDash, hmarked.1, hnargv, hoptind]
    omega
  · next hops =>
    have hrecent : recent ++ [word] ≠ [] := by simp
    have hblocks := permuteArgs_blocks hops hrecent before words
    simp only [doubleDash, hmarked.1, hmarked.2, exchange, hnargv, hoptind]
    constructor
    · simpa [Nat.add_assoc] using hblocks
    · omega

lemma start_cons (h : Holds g before operands recent (word :: words) s) :
    g.start (words.length + 1) s =
      if g.Operand word then
        if g.allargs then
          .returned inorder { s with place := [], optarg := some word, optind := s.optind + 1 }
        else if g.permute then g.start words.length (skipNonoption { s with place := [] })
        else .returned none { s with place := [] }
      else if word.toList = ['-', '-'] then .returned none (doubleDash (meetOption s))
      else .scanning (enterWord word (meetOption s)) := by
  have hnext : s.nargv[s.optind]? = some word := by
    rw [h.nargv, h.optind, ← List.length_append, ← List.length_append,
      List.getElem?_append_right (Nat.le_refl _), Nat.sub_self]
    rfl
  have hword : s.nargv.getD s.optind "" = word := by
    rw [List.getD_eq_getElem?_getD, hnext]
    rfl
  rw [start, hword]
  by_cases hop : g.Operand word
  · have hop' : word.toList.head? ≠ some '-' ∨ word.toList = ['-'] ∧ '-' ∉ g.options := hop
    rw [if_pos hop, if_pos hop']
    dsimp only
    rw [hnext]
  · have hop' : ¬ (word.toList.head? ≠ some '-' ∨ word.toList = ['-'] ∧ '-' ∉ g.options) := hop
    rw [if_neg hop, if_neg hop']
    dsimp only
    split
    · rfl
    · unfold enterWord
      split <;> rfl

end Loop

/-! One call. -/

structure Follows (g : Getopt) (r : Reading) (s : Scanner) : Prop where
  layout : ∃ before recent first last, r.consumed = before ++ recent ∧
    s = r.scanner.within (before ++ r.operands ++ recent) first last ∧
    Marked before r.operands first last ∧
    (r.scanner.place = [] → r.operands ≠ [] → recent ≠ [])
  optind : r.scanner.optind = 0
  optreset : r.scanner.optreset = false
  consumed : r.consumed ≠ []
  plain : g.permute = false → r.operands = []
  word : r.scanner.place ≠ [] →
    r.scanner.nargv ≠ [] ∧ (r.scanner.atWord = true → '-' ∈ g.options)

structure Ended (r : Reading) (s : Scanner) : Prop where
  nargv : s.nargv = r.consumed ++ r.operands ++ r.scanner.nargv
  optind : s.optind = r.consumed.length

def After (g : Getopt) (r : Reading) (s : Scanner) : Option Char → Prop
  | none => Ended r s
  | some _ => Follows g r s

section Call

variable {g : Getopt} {r : Reading} {s : Scanner}

lemma readOption_follows (h : Follows g r s) (hplace : r.scanner.place ≠ []) :
    (g.scanOption s).1 = (g.readOption r).1 ∧
      After g (g.readOption r).2 (g.scanOption s).2 (g.readOption r).1 := by
  obtain ⟨⟨before, recent, first, last, hconsumed, hs, hmarked, hbehind⟩, hoptind, hreset, hne,
    hplain, hword⟩ := h
  obtain ⟨hwords, hat⟩ := hword hplace
  obtain ⟨answer, s', hs', hscanned⟩ := scanOption_scanned hplace hat
    (by rw [hoptind]; exact List.length_pos_iff.mpr hwords)
  subst hs
  have hwithin : s'.nargv = r.scanner.nargv ∧ s'.optreset = false ∧
      s'.optind ≤ r.scanner.nargv.length := by
    rcases hscanned.outcome with ⟨-, hp⟩ | ⟨-, hnargv, hr, hi, -⟩
    · exact ⟨hp.nargv, hp.optreset.trans hreset, hp.within⟩
    · exact ⟨hnargv, hr.trans hreset, by rw [hi, hoptind]; exact Nat.zero_le _⟩
  obtain ⟨hnargv, hreset', hle⟩ := hwithin
  simp only [readOption, scanOption_within, hs', true_and]
  refine ⟨⟨before, recent ++ s'.nargv.take s'.optind, first, last, ?_, ?_, hmarked, ?_⟩, rfl,
    hreset', by simp [hne], hplain, ?_⟩
  · rw [hconsumed, List.append_assoc]
  · have hlength : (s'.nargv.take s'.optind).length = s'.optind :=
      List.length_take_of_le (hnargv ▸ hle)
    simp only [Scanner.within, List.append_assoc, List.take_append_drop, List.length_append,
      hlength, Nat.add_zero, Nat.add_assoc]
  · intro hnil hops
    rcases hscanned.outcome with ⟨-, hp⟩ | ⟨hcons, -⟩
    · have hpos : 0 < s'.optind := hoptind ▸ hp.passed
      rw [hnargv]
      simp [hwords, Nat.ne_of_gt hpos]
    · exact absurd hnil hcons
  · intro hcons
    rcases hscanned.outcome with ⟨hnil, -⟩ | ⟨-, -, -, hi, hat'⟩
    · exact absurd hnil hcons
    · dsimp only
      rw [hi, hoptind, hnargv, hat']
      exact ⟨hwords, fun h => absurd h (by decide)⟩

-- What the scanner holds besides the vector and its positions in it.
def registers (s : Scanner) : Scanner :=
  { s with nargv := [], optind := 0, nonoptStart := none, nonoptEnd := none }

lemma within_of_registers {c : Scanner} {before words : List String}
    (hregisters : registers s = registers c) (hc : c.optind = 0)
    (hnargv : s.nargv = before ++ words) (hoptind : s.optind = before.length) :
    s = Scanner.within { c with nargv := words } before s.nonoptStart s.nonoptEnd := by
  cases s
  cases c
  simp only [registers, Scanner.mk.injEq] at hregisters
  simp_all [Scanner.within]

lemma registers_skipNonoption (s : Scanner) : registers (skipNonoption s) = registers s := by
  unfold skipNonoption
  split <;> rfl

def Step.finish (g : Getopt) : Step → Option Char × Scanner
  | .returned answer s => (answer, s)
  | .scanning s => g.scanOption s

lemma registers_meetOption (s : Scanner) : registers (meetOption s) = registers s := by
  rw [meetOption_eq]
  rfl

lemma enterWord_within (word : String) {c : Scanner} {before words : List String}
    (hregisters : registers s = registers c) (hc : c.optind = 0)
    (hnargv : s.nargv = before ++ words) (hoptind : s.optind = before.length) :
    enterWord word s = Scanner.within (enterWord word { c with nargv := words }) before
      s.nonoptStart s.nonoptEnd := by
  rw [within_of_registers hregisters hc hnargv hoptind]
  unfold enterWord
  split <;> rfl

lemma allargs_follows {before recent words : List String} {word : String}
    (hregisters : registers s = registers r.scanner) (hoptind : r.scanner.optind = 0)
    (hreset : r.scanner.optreset = false) (hplace : r.scanner.place = [])
    (hconsumed : r.consumed = before ++ recent) (hplain : g.permute = false → r.operands = [])
    (hall : g.allargs = true) (h : Holds g before r.operands recent (word :: words) s) :
    Follows g
      { r with
        consumed := r.consumed ++ [word]
        scanner := { r.scanner with nargv := words, optarg := some word } }
      { s with place := [], optarg := some word, optind := s.optind + 1 } := by
  have hmarked : Marked before r.operands s.nonoptStart s.nonoptEnd := by
    obtain ⟨-, -, hmarks⟩ := h
    generalize r.operands = operands at hmarks
    generalize s.nonoptStart = first at hmarks
    generalize s.nonoptEnd = last at hmarks
    cases hmarks with
    | idle => simp [Marked]
    | behind hops hrecent => simp [Marked, hops]
    | skipped hpermute hnot => simp [hall] at hnot
  refine ⟨⟨before, recent ++ [word], s.nonoptStart, s.nonoptEnd, ?_, ?_, hmarked, ?_⟩, hoptind,
    hreset, ?_, hplain, fun hp => absurd hplace hp⟩
  · rw [hconsumed, List.append_assoc]
  · have hsame : registers { s with place := [], optarg := some word, optind := s.optind + 1 } =
        registers { r.scanner with nargv := words, optarg := some word } := by
      have hset := congrArg (fun t : Scanner => { t with optarg := some word, place := [] })
        hregisters
      simpa [registers, hplace] using hset
    apply within_of_registers hsame hoptind
    · rw [h.nargv]
      simp
    · simp [h.optind, Nat.add_assoc]
  · intro _ _
    simp
  · simp

lemma readWord_follows {before recent words : List String}
    (hregisters : registers s = registers r.scanner) (hoptind : r.scanner.optind = 0)
    (hreset : r.scanner.optreset = false) (hplace : r.scanner.place = [])
    (hconsumed : r.consumed = before ++ recent) (hne : r.consumed ≠ [])
    (hplain : g.permute = false → r.operands = [])
    (h : Holds g before r.operands recent words s) :
    ((g.start words.length s).finish g).1 = (g.readWord words r).1 ∧
      After g (g.readWord words r).2 ((g.start words.length s).finish g).2
        (g.readWord words r).1 := by
  induction words generalizing r s before recent with
  | nil =>
    obtain ⟨hnargv, hind⟩ := exhausted_ends h
    refine ⟨rfl, ?_, ?_⟩
    · simp [start, Step.finish, hnargv, readWord, hconsumed]
    · simp [start, Step.finish, hind, readWord, hconsumed]
  | cons word words ih =>
    have hsplace : s.place = [] := (congrArg Scanner.place hregisters).trans hplace
    have hself : ({ s with place := [] } : Scanner) = s := by
      rw [← hsplace]
    rw [List.length_cons, start_cons h, readWord]
    by_cases hop : g.Operand word
    · rw [if_pos hop, if_pos hop]
      by_cases hall : g.allargs = true
      · rw [if_pos hall, if_pos hall]
        exact ⟨rfl, allargs_follows hregisters hoptind hreset hplace hconsumed hplain hall h⟩
      · rw [if_neg hall, if_neg hall]
        by_cases hpermute : g.permute = true
        · rw [if_pos hpermute, if_pos hpermute, hself]
          have hskip := skipNonoption_holds hpermute (by simpa using hall) h
          exact ih ((registers_skipNonoption s).trans hregisters) hoptind hreset hplace
            (by rw [hconsumed, List.append_nil]) hne (fun hf => by simp [hpermute] at hf) hskip
        · rw [if_neg hpermute, if_neg hpermute, hself]
          have hops : r.operands = [] := hplain (by simpa using hpermute)
          refine ⟨rfl, ?_, ?_⟩
          · simp [Step.finish, h.nargv, hops, hconsumed]
          · simp [Step.finish, h.optind, hops, hconsumed]
    · rw [if_neg hop, if_neg hop]
      have hmeet := meetOption_eq s
      have hmarked := meetOption_marked h
      have hnargv : (meetOption s).nargv = before ++ r.operands ++ recent ++ word :: words := by
        rw [hmeet]
        exact h.nargv
      have hind : (meetOption s).optind =
          before.length + r.operands.length + recent.length := by
        rw [hmeet]
        exact h.optind
      by_cases hdd : word.toList = ['-', '-']
      · rw [if_pos hdd, if_pos hdd]
        obtain ⟨hdnargv, hdind⟩ := doubleDash_ends hnargv hind hmarked
        refine ⟨rfl, ?_, ?_⟩
        · simp [Step.finish, hdnargv, hconsumed]
        · simp [Step.finish, hdind, hconsumed]
      · rw [if_neg hdd, if_neg hdd]
        let c := enterWord word { r.scanner with nargv := word :: words }
        have hentered := enterWord_place hop { r.scanner with nargv := word :: words }
        have hc := enterWord_eq word { r.scanner with nargv := word :: words }
        have hlength : (meetOption s).optind = (before ++ r.operands ++ recent).length := by
          rw [hind, List.length_append, List.length_append]
        have hwithin := enterWord_within word
          ((registers_meetOption s).trans hregisters) hoptind hnargv hlength
        have hfollows : Follows g { r with scanner := c } (enterWord word (meetOption s)) := by
          refine ⟨⟨before, recent, _, _, hconsumed, hwithin, hmarked,
            fun hnil => absurd hnil hentered.1⟩, ?_, ?_, hne, hplain, fun _ => ⟨?_, hentered.2⟩⟩
          · exact (congrArg Scanner.optind hc).trans hoptind
          · exact (congrArg Scanner.optreset hc).trans hreset
          · rw [show c.nargv = word :: words from congrArg Scanner.nargv hc]
            exact List.cons_ne_nil word words
        exact readOption_follows hfollows hentered.1

lemma getoptInternal_eq {s : Scanner} (hoptind : s.optind ≠ 0) (hreset : s.optreset = false) :
    g.getoptInternal s =
      if s.place.isEmpty then
        (g.normalized.start (s.nargv.length - s.optind) { s with optarg := none }).finish
          g.normalized
      else g.normalized.scanOption { s with optarg := none } := by
  obtain ⟨nargv, optind, optreset, optarg, optopt, place, atWord, first, last, idx, stored,
    warnings⟩ := s
  have hzero : ¬ optind = 0 := hoptind
  obtain rfl : optreset = false := hreset
  unfold getoptInternal
  simp only [hzero, if_false, Bool.false_or, Bool.false_eq_true]
  split
  · cases g.normalized.start _ _ with
    | returned answer s => rfl
    | scanning s => rfl
  · rfl

lemma Marked.marks {before operands recent : List String} {first last : Option ℕ}
    (h : Marked before operands first last) (hbehind : operands ≠ [] → recent ≠ []) :
    Marks g before operands recent first last := by
  unfold Marked at h
  split at h
  · next hops =>
    obtain ⟨rfl, rfl⟩ := h
    subst hops
    exact .idle
  · next hops =>
    obtain ⟨rfl, rfl⟩ := h
    exact .behind hops (hbehind hops)

lemma call_follows (h : Follows g.normalized r s) :
    (g.getoptInternal s).1 = (g.normalized.readNext r).1 ∧
      After g.normalized (g.normalized.readNext r).2 (g.getoptInternal s).2
        (g.normalized.readNext r).1 := by
  let r' : Reading := { r with scanner := { r.scanner with optarg := none } }
  let s' : Scanner := { s with optarg := none }
  obtain ⟨⟨before, recent, first, last, hconsumed, hs, hmarked, hbehind⟩, hoptind, hreset, hne,
    hplain, hword⟩ := h
  have hs' : s' = r'.scanner.within (before ++ r.operands ++ recent) first last := by
    change ({ s with optarg := none } : Scanner) = _
    rw [hs]
    rfl
  have hnargv : s'.nargv = before ++ r.operands ++ recent ++ r.scanner.nargv := by
    rw [hs']
    rfl
  have hsoptind : s'.optind = before.length + r.operands.length + recent.length := by
    rw [hs']
    simp [Scanner.within, r', hoptind, Nat.add_assoc]
  have hpos : s.optind ≠ 0 := by
    have hlength := List.length_pos_iff.mpr hne
    rw [hconsumed, List.length_append] at hlength
    change s'.optind ≠ 0
    omega
  have hplace' : s.place = r.scanner.place := by
    rw [hs]
    rfl
  rw [getoptInternal_eq hpos (by rw [hs]; exact hreset)]
  unfold readNext
  dsimp only
  by_cases hplace : r.scanner.place = []
  · rw [if_pos (by rw [hplace', hplace]; rfl), if_pos (by rw [hplace]; rfl)]
    have hwords : s.nargv.length - s.optind = r.scanner.nargv.length := by
      change s'.nargv.length - s'.optind = _
      rw [hnargv, hsoptind]
      simp only [List.length_append]
      omega
    have hmarks : Marks g.normalized before r.operands recent s'.nonoptStart s'.nonoptEnd := by
      rw [hs']
      exact hmarked.marks (hbehind hplace)
    rw [hwords]
    apply readWord_follows (r := r') (s := s') _ hoptind hreset hplace hconsumed hne hplain
      ⟨hnargv, hsoptind, hmarks⟩
    rw [hs']
    rfl
  · rw [if_neg (by rw [hplace']; simpa using hplace), if_neg (by simpa using hplace)]
    apply readOption_follows (r := r') (s := s') _ hplace
    exact ⟨⟨before, recent, first, last, hconsumed, hs', hmarked, hbehind⟩, hoptind, hreset, hne,
      hplain, hword⟩

end Call

/-! All the calls. -/

open Transition

def scanned (g : Getopt) (n : ℕ) (s : Scanner) :
    Option (List (Char × Option String) × Scanner) :=
  answers g.getoptInternal Scanner.optarg n s

def read (g : Getopt) (n : ℕ) (r : Reading) : Option (List (Char × Option String) × Reading) :=
  answers g.readNext (fun r => r.scanner.optarg) n r

lemma begin_follows (g : Getopt) (program : String) (args : List String) :
    Follows g (.begin program args) (.fresh (program :: args)) where
  layout := ⟨[program], [], none, none, rfl, rfl, by simp [Marked, Reading.begin],
    fun _ h => absurd rfl h⟩
  optind := rfl
  optreset := rfl
  consumed := List.cons_ne_nil _ _
  plain := fun _ => rfl
  word := fun h => absurd rfl h

lemma begin_reads (g : Getopt) (program : String) (args : List String) :
    Reads g (program :: args) (.begin program args) where
  optind := rfl
  word := fun h => absurd rfl h
  apart := ⟨[program], rfl, List.Sublist.refl _, List.nil_sublist _, List.Perm.refl _⟩

lemma readNext_decreases {g : Getopt} {argv : List String} (r : Reading) (a : Char) (r' : Reading)
    (hreads : Reads g argv r) (hcall : g.readNext r = (some a, r')) :
    Reads g argv r' ∧ unread r' < unread r := by
  have hnext := readNext_reads hreads
  rw [hcall] at hnext
  exact ⟨hnext.1, hnext.2 rfl⟩

lemma read_ends (g : Getopt) (program : String) (args : List String) {n : ℕ}
    (hn : weight args < n) : ∃ as r, g.read n (.begin program args) = some (as, r) ∧
      Reads g (program :: args) r := by
  have hunread : unread (.begin program args) < n := by
    simpa [unread, Reading.begin, Scanner.fresh] using hn
  obtain ⟨as, r, hr⟩ := answers_end (fun r : Reading => r.scanner.optarg) unread
    readNext_decreases (begin_reads g program args) hunread
  have hstep : ∀ r, Reads g (program :: args) r → Reads g (program :: args) (g.readNext r).2 :=
    fun r hr => (readNext_reads hr).1
  exact ⟨as, r, hr, answers_invariant hstep (begin_reads g program args) hr⟩

lemma scanner_answers_none {g : Getopt} (r : Reading) (s : Scanner) (r' : Reading)
    (h : Follows g.normalized r s) (hcall : g.normalized.readNext r = (none, r')) :
    ∃ s', g.getoptInternal s = (none, s') ∧ Ended r' s' := by
  obtain ⟨hanswer, hafter⟩ := call_follows h
  rw [hcall] at hanswer hafter
  exact ⟨(g.getoptInternal s).2, Prod.ext hanswer rfl, hafter⟩

lemma scanner_answers_some {g : Getopt} (r : Reading) (s : Scanner) (a : Char) (r' : Reading)
    (h : Follows g.normalized r s) (hcall : g.normalized.readNext r = (some a, r')) :
    ∃ s', g.getoptInternal s = (some a, s') ∧ Follows g.normalized r' s' ∧
      r'.scanner.optarg = s'.optarg := by
  obtain ⟨hanswer, hafter⟩ := call_follows h
  rw [hcall] at hanswer hafter
  refine ⟨(g.getoptInternal s).2, Prod.ext hanswer rfl, hafter, ?_⟩
  obtain ⟨_, _, _, _, _, hlayout, _⟩ := Follows.layout hafter
  exact (congrArg Scanner.optarg hlayout).symm

theorem operands_moved_behind (g : Getopt) (program : String) (args : List String) :
    ∃ as r s, g.normalized.read (weight args + 1) (.begin program args) = some (as, r) ∧
      g.scanned (weight args + 1) (.fresh (program :: args)) = some (as, s) ∧
      s.nargv = r.consumed ++ r.operands ++ r.scanner.nargv ∧ s.optind = r.consumed.length ∧
      r.consumed.Sublist (program :: args) ∧
      (r.operands ++ r.scanner.nargv).Sublist (program :: args) ∧
      s.nargv.Perm (program :: args) := by
  obtain ⟨as, r, hr, hreads⟩ := read_ends g.normalized program args (Nat.lt_succ_self _)
  obtain ⟨s, hs, hended⟩ := answers_simulates scanner_answers_none scanner_answers_some
    (begin_follows g.normalized program args) hr
  obtain ⟨passed, hargv, hconsumed, hoperands, hperm⟩ := hreads.apart
  refine ⟨as, r, s, hr, hs, hended.nargv, hended.optind, ?_, ?_, ?_⟩
  · rw [hargv]
    exact hconsumed.trans (List.sublist_append_left _ _)
  · rw [hargv]
    exact hoperands.append_right _
  · rw [hended.nargv, hargv]
    exact hperm.append_right _

end ModGate.Gatedb.Getopt
