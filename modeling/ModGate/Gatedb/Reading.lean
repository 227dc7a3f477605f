import ModGate.Gatedb.Getopt
import Mathlib.Algebra.Order.Ring.Int
import Mathlib.Data.List.Infix
import Mathlib.Data.List.TakeWhile
import Mathlib.Tactic.Common

/-! A reader of the argument vector that takes the words in their order and moves none of them. It
shares with the scanner how a single option is read, which depends only on the words from the
option on. -/

namespace ModGate.Gatedb

/-- `consumed` are the option words with their arguments, `operands` the words passed over. The
scanner holds the words that are left, the one whose letters are being read included. -/
structure Reading where
  consumed : List String
  operands : List String
  scanner : Scanner

-- The scanner of the words that are left, inside of the whole vector.
def Scanner.within (s : Scanner) (before : List String) (first last : Option ℕ) : Scanner :=
  { s with
    nargv := before ++ s.nargv
    optind := before.length + s.optind
    nonoptStart := first
    nonoptEnd := last }

namespace Getopt

def Operand (g : Getopt) (word : String) : Prop :=
  word.toList.head? ≠ some '-' ∨ word.toList = ['-'] ∧ '-' ∉ g.options

instance (g : Getopt) (word : String) : Decidable (g.Operand word) :=
  inferInstanceAs (Decidable (_ ∨ _))

def enterWord (word : String) (s : Scanner) : Scanner :=
  if word.toList = ['-'] then { s with place := word.toList, atWord := true }
  else { s with place := word.toList.tail, atWord := false }

lemma enterWord_eq (word : String) (s : Scanner) : enterWord word s =
    { s with place := (enterWord word s).place, atWord := (enterWord word s).atWord } := by
  unfold enterWord
  split <;> rfl

lemma enterWord_place {g : Getopt} {word : String} (hop : ¬ g.Operand word) (c : Scanner) :
    (enterWord word c).place ≠ [] ∧ ((enterWord word c).atWord = true → '-' ∈ g.options) := by
  unfold Operand at hop
  rw [not_or, not_not] at hop
  obtain ⟨rest, hrest⟩ := List.head?_eq_some_iff.mp hop.1
  unfold enterWord
  split
  · next hdash =>
    refine ⟨by rw [hdash]; simp, fun _ => ?_⟩
    by_contra hnot
    exact hop.2 ⟨hdash, hnot⟩
  · next hdash =>
    refine ⟨?_, fun h => Bool.noConfusion h⟩
    rw [hrest] at hdash ⊢
    intro hnil
    exact hdash (by rw [← hnil, List.tail_cons])

lemma enterWord_length_le (word : String) (s : Scanner) :
    (enterWord word s).place.length ≤ word.length := by
  unfold enterWord
  split
  · exact Nat.le_refl _
  · rw [List.length_tail, String.length_toList]
    exact Nat.sub_le _ _

def readOption (g : Getopt) (r : Reading) : Option Char × Reading :=
  let (answer, s) := g.scanOption r.scanner
  (answer, {
    consumed := r.consumed ++ s.nargv.take s.optind
    operands := r.operands
    scanner := { s with nargv := s.nargv.drop s.optind, optind := 0 } })

def readWord (g : Getopt) : List String → Reading → Option Char × Reading
  | [], r => (none, { r with scanner := { r.scanner with nargv := [] } })
  | word :: words, r =>
    if g.Operand word then
      if g.allargs then
        (inorder, { r with
          consumed := r.consumed ++ [word]
          scanner := { r.scanner with nargv := words, optarg := some word } })
      else if g.permute then readWord g words { r with operands := r.operands ++ [word] }
      else (none, { r with scanner := { r.scanner with nargv := word :: words } })
    else if word.toList = ['-', '-'] then
      (none, {
        consumed := r.consumed ++ [word]
        operands := r.operands ++ words
        scanner := { r.scanner with nargv := [] } })
    else
      g.readOption { r with
        scanner := enterWord word { r.scanner with nargv := word :: words } }

def readNext (g : Getopt) (r : Reading) : Option Char × Reading :=
  let r := { r with scanner := { r.scanner with optarg := none } }
  if r.scanner.place.isEmpty then g.readWord r.scanner.nargv r else g.readOption r

def afterLong (g : Getopt) : Option Char × Scanner → Option Char × Scanner
  | (some answer, s) => (some answer, { s with place := [] })
  | (none, s) => g.scanLetter s

lemma scanOption_eq (g : Getopt) (s : Scanner) : g.scanOption s =
    if !s.atWord && (s.place.head? == some '-' || g.longonly) then
      g.afterLong (g.parseLongOptions
        (!(s.place.head? == some '-') && s.place.head?.any fun c => c != ':' && c ∈ g.options)
        (if s.place.head? == some '-' then { s with place := s.place.tail } else s))
    else g.scanLetter s := rfl

/-! What the reading of one option depends on. -/

section Within

variable (g : Getopt) (s : Scanner) (before : List String) (first last : Option ℕ)

lemma getElem?_within (k : ℕ) :
    (s.within before first last).nargv[(s.within before first last).optind + k]? =
      s.nargv[s.optind + k]? := by
  simp only [Scanner.within, Nat.add_assoc]
  rw [List.getElem?_append_right (Nat.le_add_right _ _), Nat.add_sub_cancel_left]

lemma warnx_within (text : String) :
    g.warnx text (s.within before first last) = (g.warnx text s).within before first last := by
  unfold warnx
  split <;> rfl

lemma finishLong_within (o : LongOption) (i : ℕ) :
    finishLong o i (s.within before first last) =
      ((finishLong o i s).1, (finishLong o i s).2.within before first last) := by
  unfold finishLong
  cases o.flag <;> rfl

lemma parseLongOptions_within (shortToo : Bool) :
    g.parseLongOptions shortToo (s.within before first last) =
      ((g.parseLongOptions shortToo s).1,
        (g.parseLongOptions shortToo s).2.within before first last) := by
  have hnext := getElem?_within s before first last 1
  have hplace : (s.within before first last).place = s.place := rfl
  have hsucc : ({ s.within before first last with
      optind := (s.within before first last).optind + 1 } : Scanner) =
      Scanner.within { s with optind := s.optind + 1 } before first last := rfl
  unfold parseLongOptions
  rw [hsucc, hnext, hplace]
  simp only [warnx_within, finishLong_within]
  generalize matchLong (s.place.takeWhile (· ≠ '=')) shortToo g.longOptions 0 none = found
  cases found with
  | none => rfl
  | some found =>
    cases found with
    | none => cases shortToo <;> rfl
    | some i =>
      dsimp only
      cases g.longOptions[i]? with
      | none => rfl
      | some o =>
        dsimp only
        generalize (s.place.dropWhile (· ≠ '=')).tail? = hasEqual
        rcases o with ⟨name, hasArg, flag, val⟩
        cases hasArg with
        | noArgument => cases hasEqual <;> rfl
        | optionalArgument =>
          cases hasEqual with
          | none => rfl
          | some arg =>
            let s' := { s with optind := s.optind + 1, optarg := some (String.ofList arg) }
            exact finishLong_within s' before first last _ i
        | requiredArgument =>
          cases hasEqual with
          | some arg =>
            let s' := { s with optind := s.optind + 1, optarg := some (String.ofList arg) }
            exact finishLong_within s' before first last _ i
          | none =>
            dsimp only
            cases s.nargv[s.optind + 1]? with
            | none => rfl
            | some arg =>
              let s' := { s with optind := s.optind + 2, optarg := some arg }
              exact finishLong_within s' before first last _ i

lemma scanW_within :
    g.scanW (s.within before first last) =
      ((g.scanW s).1, (g.scanW s).2.within before first last) := by
  have hplace : (s.within before first last).place = s.place := rfl
  have hnext := getElem?_within s before first last 1
  unfold scanW
  rw [hplace]
  split
  · rw [parseLongOptions_within]
    rfl
  · dsimp only
    rw [hnext]
    cases s.nargv[s.optind + 1]? with
    | none =>
      have hwarn := warnx_within g { s with optind := s.optind + 1 } before first last
        (recargchar 'W')
      simp only [Scanner.within] at hwarn ⊢
      simp only [Nat.add_assoc, hwarn]
    | some word =>
      have hparse := parseLongOptions_within g
        { s with optind := s.optind + 1, place := word.toList } before first last false
      simp only [Scanner.within] at hparse ⊢
      simp only [Nat.add_assoc, hparse]

lemma scanArgument_within (c : Char) (optional : Bool) :
    g.scanArgument c optional (s.within before first last) =
      ((g.scanArgument c optional s).1,
        (g.scanArgument c optional s).2.within before first last) := by
  have hnext := getElem?_within s before first last 1
  unfold scanArgument
  rw [hnext]
  have hplace : (s.within before first last).place = s.place := rfl
  rw [hplace]
  split
  · rfl
  split
  · rfl
  cases s.nargv[s.optind + 1]? with
  | none =>
    simp only [warnx_within]
    rfl
  | some arg => rfl

lemma scanLetter_within :
    g.scanLetter (s.within before first last) =
      ((g.scanLetter s).1, (g.scanLetter s).2.within before first last) := by
  have hplace : (s.within before first last).place = s.place := rfl
  unfold scanLetter
  rw [hplace]
  cases s.place with
  | nil => rfl
  | cons optchar rest =>
    let t := { s with place := rest, atWord := false }
    have hmoved : ({ s.within before first last with place := rest, atWord := false } : Scanner) =
        t.within before first last := rfl
    have hpassed : (if rest = [] then { s.within before first last with
          optind := (s.within before first last).optind + 1
          place := rest
          atWord := false } else t.within before first last) =
        (if rest = [] then { t with optind := s.optind + 1 } else t).within before first last := by
      split <;> rfl
    simp only [hmoved, hpassed, warnx_within, scanW_within, scanArgument_within]
    split
    · split <;> rfl
    split
    · rfl
    split <;> rfl

lemma afterLong_within (r : Option Char × Scanner) :
    g.afterLong (r.1, r.2.within before first last) =
      ((g.afterLong r).1, (g.afterLong r).2.within before first last) := by
  obtain ⟨answer, s'⟩ := r
  cases answer with
  | none => exact scanLetter_within g s' before first last
  | some answer => rfl

lemma scanOption_within :
    g.scanOption (s.within before first last) =
      ((g.scanOption s).1, (g.scanOption s).2.within before first last) := by
  have hplace : (s.within before first last).place = s.place := rfl
  have hword : (s.within before first last).atWord = s.atWord := rfl
  have hlong : ∀ (shortToo : Bool) (t : Scanner),
      g.afterLong (g.parseLongOptions shortToo (t.within before first last)) =
        ((g.afterLong (g.parseLongOptions shortToo t)).1,
          (g.afterLong (g.parseLongOptions shortToo t)).2.within before first last) := by
    intro shortToo t
    rw [parseLongOptions_within, afterLong_within]
  rw [scanOption_eq, scanOption_eq, hplace, hword]
  split
  · cases s.place.head? == some '-' with
    | true => exact hlong _ { s with place := s.place.tail }
    | false => exact hlong _ s
  · exact scanLetter_within g s before first last

end Within

/-! What the reading of one option leaves. -/

structure Passed (s s' : Scanner) : Prop where
  nargv : s'.nargv = s.nargv
  optreset : s'.optreset = s.optreset
  within : s'.optind ≤ s.nargv.length
  passed : s.optind < s'.optind

/-- The word goes on, or it has been passed. -/
structure Scanned (s s' : Scanner) : Prop where
  shorter : s'.place.length < s.place.length
  outcome : s'.place = [] ∧ Passed s s' ∨ s'.place ≠ [] ∧
    s'.nargv = s.nargv ∧ s'.optreset = s.optreset ∧ s'.optind = s.optind ∧ s'.atWord = false

section Scanned

variable {g : Getopt} {s : Scanner}

lemma warnx_eq (g : Getopt) (text : String) (s : Scanner) :
    ∃ warnings, g.warnx text s = { s with warnings := warnings } := by
  unfold warnx
  split
  · exact ⟨_, rfl⟩
  · exact ⟨s.warnings, rfl⟩

lemma finishLong_eq (o : LongOption) (i : ℕ) (s : Scanner) :
    ∃ answer idx stored, finishLong o i s =
      (some answer, { s with idx := idx, stored := stored }) := by
  unfold finishLong
  cases o.flag with
  | none => exact ⟨_, _, _, rfl⟩
  | some cell => exact ⟨_, _, _, rfl⟩

lemma badarg_eq (g : Getopt) : ∃ answer, g.badarg = some answer := by
  unfold badarg
  split <;> exact ⟨_, rfl⟩

lemma parseLongOptions_scanned (shortToo : Bool) (hword : s.optind < s.nargv.length) :
    g.parseLongOptions shortToo s = (none, s) ∧ shortToo = true ∨
      ∃ answer s', g.parseLongOptions shortToo s = (some answer, s') ∧ Passed s s' := by
  obtain ⟨badarg, hbad⟩ := badarg_eq g
  let t : Scanner := { s with optind := s.optind + 1 }
  have hwarn : ∀ text optopt, Passed s { g.warnx text t with optopt := optopt } := by
    intro text optopt
    obtain ⟨warnings, hw⟩ := warnx_eq g text t
    rw [hw]
    exact ⟨rfl, rfl, hword, Nat.lt_succ_self _⟩
  have hfinish : ∀ o i optarg optind, s.optind < optind → optind ≤ s.nargv.length →
      ∃ answer s', finishLong o i { s with optarg := optarg, optind := optind } =
        (some answer, s') ∧ Passed s s' := by
    intro o i optarg optind hlt hle
    obtain ⟨answer, idx, stored, hf⟩ :=
      finishLong_eq o i { s with optarg := optarg, optind := optind }
    exact ⟨answer, _, hf, rfl, rfl, hle, hlt⟩
  unfold parseLongOptions
  dsimp only
  split
  · exact Or.inr ⟨_, _, rfl, hwarn _ _⟩
  · split
    · next h => exact Or.inl ⟨rfl, h⟩
    · exact Or.inr ⟨_, _, rfl, hwarn _ _⟩
  split
  · exact Or.inr ⟨_, _, rfl, rfl, rfl, hword, Nat.lt_succ_self _⟩
  rw [hbad]
  split
  · exact Or.inr ⟨_, _, rfl, hwarn _ _⟩
  · exact Or.inr (hfinish _ _ s.optarg _ (Nat.lt_succ_self _) hword)
  · exact Or.inr (hfinish _ _ s.optarg _ (Nat.lt_succ_self _) hword)
  · exact Or.inr (hfinish _ _ _ _ (Nat.lt_succ_self _) hword)
  split
  · next arg harg =>
    obtain ⟨hlt, -⟩ := List.getElem?_eq_some_iff.mp harg
    exact Or.inr (hfinish _ _ _ _ (by omega) hlt)
  · exact Or.inr ⟨_, _, rfl, hwarn _ _⟩

lemma scanW_scanned (hword : s.optind < s.nargv.length) :
    ∃ answer s', g.scanW s = (some answer, s') ∧ s'.place = [] ∧ Passed s s' := by
  unfold scanW
  dsimp only
  split
  · rcases parseLongOptions_scanned (g := g) false hword with ⟨-, hfalse⟩ | ⟨answer, s', hs', hp⟩
    · cases hfalse
    · rw [hs']
      exact ⟨_, _, rfl, rfl, hp.nargv, hp.optreset, hp.within, hp.passed⟩
  split
  · obtain ⟨badarg, hbad⟩ := badarg_eq g
    obtain ⟨warnings, hw⟩ := warnx_eq g (recargchar 'W') { s with optind := s.optind + 1 }
    rw [hbad, hw]
    exact ⟨_, _, rfl, rfl, rfl, rfl, hword, Nat.lt_succ_self _⟩
  · next word hnext =>
    obtain ⟨hlt, -⟩ := List.getElem?_eq_some_iff.mp hnext
    rcases parseLongOptions_scanned (g := g)
        (s := { s with optind := s.optind + 1, place := word.toList }) false hlt with
      ⟨-, hfalse⟩ | ⟨answer, s', hs', hp⟩
    · cases hfalse
    · rw [hs']
      exact ⟨_, _, rfl, rfl, hp.nargv, hp.optreset, hp.within, Nat.lt_of_succ_lt hp.passed⟩

lemma scanArgument_scanned (optchar : Char) (optional : Bool) (hword : s.optind < s.nargv.length) :
    ∃ answer s', g.scanArgument optchar optional s = (some answer, s') ∧ s'.place = [] ∧
      Passed s s' := by
  unfold scanArgument
  by_cases hplace : s.place = []
  · rw [if_neg (not_not_intro hplace)]
    split
    · exact ⟨_, _, rfl, hplace, rfl, rfl, hword, Nat.lt_succ_self _⟩
    split
    · obtain ⟨badarg, hbad⟩ := badarg_eq g
      obtain ⟨warnings, hw⟩ := warnx_eq g (recargchar optchar) s
      rw [hbad, hw]
      exact ⟨_, _, rfl, hplace, rfl, rfl, hword, Nat.lt_succ_self _⟩
    · next arg harg =>
      obtain ⟨hlt, -⟩ := List.getElem?_eq_some_iff.mp harg
      exact ⟨_, _, rfl, hplace, rfl, rfl, hlt, by change s.optind < s.optind + 2; omega⟩
  · rw [if_pos hplace]
    exact ⟨_, _, rfl, rfl, rfl, rfl, hword, Nat.lt_succ_self _⟩

lemma scanLetter_scanned {optchar : Char} {rest : List Char} (hplace : s.place = optchar :: rest)
    (hdash : optchar = '-' → rest = [] → '-' ∈ g.options) (hword : s.optind < s.nargv.length) :
    ∃ answer s', g.scanLetter s = (some answer, s') ∧ Scanned s s' := by
  let t : Scanner := { s with place := rest, atWord := false }
  have hshort : rest.length < s.place.length := by
    rw [hplace, List.length_cons]
    exact Nat.lt_succ_self _
  have hpast : ∀ {s' : Scanner}, s'.place = [] → Passed t s' → Scanned s s' := by
    intro s' hp hpassed
    refine ⟨?_, Or.inl ⟨hp, hpassed.nargv, hpassed.optreset, hpassed.within, hpassed.passed⟩⟩
    rw [hp, hplace]
    exact Nat.succ_pos _
  have hnext : ∀ {s' : Scanner}, s'.nargv = s.nargv → s'.optreset = s.optreset →
      s'.place = rest → s'.atWord = false →
      s'.optind = (if rest = [] then s.optind + 1 else s.optind) → Scanned s s' := by
    intro s' hnargv hreset hrest hat hind
    split at hind
    · next hnil =>
      have hlt : s.optind < s'.optind := hind ▸ Nat.lt_succ_self _
      exact hpast (hrest.trans hnil) ⟨hnargv, hreset, hind ▸ hword, hlt⟩
    · next hcons =>
      exact ⟨hrest ▸ hshort, Or.inr ⟨hrest ▸ hcons, hnargv, hreset, hind, hat⟩⟩
  unfold scanLetter
  rw [hplace]
  dsimp only
  split
  · next hbad =>
    have hnot : ¬ (optchar = '-' ∧ rest = []) := by
      rintro ⟨rfl, rfl⟩
      have hmem := hdash rfl rfl
      simp [List.dropWhile_eq_nil_iff] at hbad
      exact hbad '-' hmem rfl
    rw [if_neg hnot]
    obtain ⟨warnings, hw⟩ := warnx_eq g (illoptchar optchar)
      (if rest = [] then { t with optind := t.optind + 1 } else t)
    rw [hw]
    refine ⟨_, _, rfl, hnext ?_ ?_ ?_ ?_ ?_⟩ <;> dsimp only <;> split <;> rfl
  split
  · obtain ⟨answer, s', hs', hp, hpassed⟩ := scanW_scanned (g := g) (s := t) hword
    exact ⟨answer, s', hs', hpast hp hpassed⟩
  split
  · refine ⟨_, _, rfl, hnext ?_ ?_ ?_ ?_ ?_⟩ <;> split <;> rfl
  · obtain ⟨answer, s', hs', hp, hpassed⟩ :=
      scanArgument_scanned (g := g) (s := t) optchar _ hword
    exact ⟨answer, s', hs', hpast hp hpassed⟩

lemma scanOption_scanned (hplace : s.place ≠ []) (hat : s.atWord = true → '-' ∈ g.options)
    (hword : s.optind < s.nargv.length) :
    ∃ answer s', g.scanOption s = (some answer, s') ∧ Scanned s s' := by
  obtain ⟨optchar, rest, hcons⟩ := List.exists_cons_of_ne_nil hplace
  have hlong : ∀ {t s' : Scanner} {answer : Char}, Passed t s' → t.nargv = s.nargv →
      t.optreset = s.optreset → t.optind = s.optind →
      ∃ answer' s'', g.afterLong (some answer, s') = (some answer', s'') ∧ Scanned s s'' := by
    intro t s' answer hp hnargv hreset hind
    refine ⟨answer, _, rfl, ?_, Or.inl ⟨rfl, ?_⟩⟩
    · rw [hcons]
      exact Nat.succ_pos _
    · exact ⟨hp.nargv.trans hnargv, hp.optreset.trans hreset, hnargv ▸ hp.within,
        hind ▸ hp.passed⟩
  rw [scanOption_eq]
  by_cases hdash : optchar = '-'
  · subst hdash
    have hhead : (s.place.head? == some '-') = true := by simp [hcons]
    rw [hhead]
    by_cases hs : s.atWord = true
    · rw [if_neg (by simp [hs])]
      exact scanLetter_scanned hcons (fun _ _ => hat hs) hword
    · rw [if_pos (by simp [hs]), if_pos rfl]
      rcases parseLongOptions_scanned (g := g) (s := { s with place := s.place.tail }) false
          hword with ⟨-, hfalse⟩ | ⟨answer, s', hs', hp⟩
      · cases hfalse
      · rw [Bool.not_true, Bool.false_and, hs']
        exact hlong hp rfl rfl rfl
  · have hletter := scanLetter_scanned (g := g) hcons (fun h => absurd h hdash) hword
    have hhead : (s.place.head? == some '-') = false := by simp [hcons, hdash]
    simp only [hhead, Bool.false_eq_true, if_false, Bool.not_false, Bool.true_and, Bool.false_or]
    split
    · rcases parseLongOptions_scanned (g := g)
          (s.place.head?.any fun c => c != ':' && c ∈ g.options) hword with
        ⟨hnone, -⟩ | ⟨answer, s', hs', hp⟩
      · rw [hnone]
        exact hletter
      · rw [hs']
        exact hlong hp rfl rfl rfl
    · exact hletter

end Scanned

/-! The words in their order: those passed so far, apart into consumed ones and operands, and those
that are left. -/

def Apart (nargv consumed operands left : List String) : Prop :=
  ∃ passed, nargv = passed ++ left ∧ consumed.Sublist passed ∧ operands.Sublist passed ∧
    (consumed ++ operands).Perm passed

structure Reads (g : Getopt) (nargv : List String) (r : Reading) : Prop where
  optind : r.scanner.optind = 0
  word : r.scanner.place ≠ [] →
    r.scanner.nargv ≠ [] ∧ (r.scanner.atWord = true → '-' ∈ g.options)
  apart : Apart nargv r.consumed r.operands r.scanner.nargv

def weight (words : List String) : ℕ := (words.map String.length).sum + words.length

def unread (r : Reading) : ℕ :=
  r.scanner.place.length +
    weight (if r.scanner.place = [] then r.scanner.nargv else r.scanner.nargv.tail)

section Reads

variable {g : Getopt} {nargv consumed operands left : List String} {r : Reading}

lemma Apart.consume (words : List String) (h : Apart nargv consumed operands (words ++ left)) :
    Apart nargv (consumed ++ words) operands left := by
  obtain ⟨passed, hnargv, hconsumed, hoperands, hperm⟩ := h
  refine ⟨passed ++ words, by rw [hnargv, List.append_assoc], hconsumed.append_right words,
    hoperands.trans (List.sublist_append_left _ _), ?_⟩
  rw [List.append_assoc]
  apply List.Perm.trans (List.perm_append_comm.append_left consumed)
  rw [← List.append_assoc]
  exact hperm.append_right words

lemma Apart.skip (words : List String) (h : Apart nargv consumed operands (words ++ left)) :
    Apart nargv consumed (operands ++ words) left := by
  obtain ⟨passed, hnargv, hconsumed, hoperands, hperm⟩ := h
  refine ⟨passed ++ words, by rw [hnargv, List.append_assoc],
    hconsumed.trans (List.sublist_append_left _ _), hoperands.append_right words, ?_⟩
  rw [← List.append_assoc]
  exact hperm.append_right words

lemma weight_cons (word : String) (words : List String) :
    weight (word :: words) = word.length + 1 + weight words := by
  simp only [weight, List.map_cons, List.sum_cons, List.length_cons]
  omega

lemma weight_drop_le (k : ℕ) (words : List String) : weight (words.drop k) ≤ weight words := by
  induction words generalizing k with
  | nil => simp
  | cons word words ih =>
    cases k with
    | zero => exact Nat.le_refl _
    | succ k =>
      rw [List.drop_succ_cons, weight_cons]
      exact (ih k).trans (Nat.le_add_left _ _)

lemma readOption_reads (h : Reads g nargv r) (hplace : r.scanner.place ≠ []) :
    ∃ answer, (g.readOption r).1 = some answer ∧ Reads g nargv (g.readOption r).2 ∧
      unread (g.readOption r).2 < unread r := by
  obtain ⟨hoptind, hword, hapart⟩ := h
  obtain ⟨hwords, hat⟩ := hword hplace
  obtain ⟨answer, s', hs', hscanned⟩ := scanOption_scanned hplace hat
    (by rw [hoptind]; exact List.length_pos_iff.mpr hwords)
  have hsame : s'.nargv = r.scanner.nargv := by
    rcases hscanned.outcome with ⟨-, hp⟩ | ⟨-, hsame, -⟩
    · exact hp.nargv
    · exact hsame
  simp only [readOption, hs', hsame]
  rw [← List.take_append_drop s'.optind r.scanner.nargv] at hapart
  refine ⟨answer, rfl, ⟨rfl, ?_, hapart.consume _⟩, ?_⟩
  · intro hcons
    rcases hscanned.outcome with ⟨hnil, -⟩ | ⟨-, -, -, hi, hat'⟩
    · exact absurd hnil hcons
    · dsimp only
      rw [hi, hoptind, hat']
      exact ⟨hwords, fun h => Bool.noConfusion h⟩
  · obtain ⟨word, words, hcons⟩ := List.exists_cons_of_ne_nil hwords
    have hshorter := hscanned.shorter
    simp only [unread, if_neg hplace, hcons, List.tail_cons]
    rcases hscanned.outcome with ⟨hnil, hp⟩ | ⟨hne, -, -, hi, -⟩
    · have hpos : 0 < s'.optind := hoptind ▸ hp.passed
      obtain ⟨k, hk⟩ := Nat.exists_eq_succ_of_ne_zero (Nat.ne_of_gt hpos)
      have hle := weight_drop_le k words
      rw [hnil, List.length_nil] at hshorter ⊢
      rw [if_pos rfl, hk, Nat.succ_eq_add_one, List.drop_succ_cons]
      omega
    · rw [if_neg hne, hi, hoptind, List.drop_zero, List.tail_cons]
      omega

lemma readWord_reads {words : List String} (hplace : r.scanner.place = [])
    (hoptind : r.scanner.optind = 0) (hapart : Apart nargv r.consumed r.operands words) :
    Reads g nargv (g.readWord words r).2 ∧
      ((g.readWord words r).1.isSome → unread (g.readWord words r).2 < weight words) := by
  induction words generalizing r with
  | nil =>
    exact ⟨⟨hoptind, fun h => absurd hplace h, hapart⟩, fun h => Bool.noConfusion h⟩
  | cons word words ih =>
    have hlt : weight words < weight (word :: words) := by
      rw [weight_cons]
      omega
    rw [readWord]
    by_cases hop : g.Operand word
    · rw [if_pos hop]
      by_cases hall : g.allargs = true
      · rw [if_pos hall]
        refine ⟨⟨hoptind, fun h => absurd hplace h, hapart.consume [word]⟩, fun _ => ?_⟩
        simpa [unread, hplace] using hlt
      · rw [if_neg hall]
        by_cases hpermute : g.permute = true
        · rw [if_pos hpermute]
          obtain ⟨hreads, hunread⟩ := ih (r := { r with operands := r.operands ++ [word] }) hplace
            hoptind (hapart.skip [word])
          exact ⟨hreads, fun h => (hunread h).trans hlt⟩
        · rw [if_neg hpermute]
          exact ⟨⟨hoptind, fun h => absurd hplace h, hapart⟩, fun h => Bool.noConfusion h⟩
    · rw [if_neg hop]
      by_cases hdd : word.toList = ['-', '-']
      · rw [if_pos hdd]
        refine ⟨⟨hoptind, fun h => absurd hplace h, ?_⟩, fun h => Bool.noConfusion h⟩
        apply Apart.skip
        rw [List.append_nil]
        exact hapart.consume [word]
      · rw [if_neg hdd]
        let c := enterWord word { r.scanner with nargv := word :: words }
        have hentered := enterWord_place hop { r.scanner with nargv := word :: words }
        have hlength := enterWord_length_le word { r.scanner with nargv := word :: words }
        have hc := enterWord_eq word { r.scanner with nargv := word :: words }
        have hnargv : c.nargv = word :: words := congrArg Scanner.nargv hc
        have hreads : Reads g nargv { r with scanner := c } := by
          refine ⟨(congrArg Scanner.optind hc).trans hoptind, fun _ => ⟨?_, hentered.2⟩, ?_⟩
          · rw [hnargv]
            exact List.cons_ne_nil word words
          · rw [hnargv]
            exact hapart
        obtain ⟨answer, -, hnext, hunread⟩ := readOption_reads hreads hentered.1
        refine ⟨hnext, fun _ => hunread.trans_le ?_⟩
        rw [unread, if_neg hentered.1, hnargv, List.tail_cons, weight_cons]
        exact Nat.add_le_add_right (hlength.trans (Nat.le_succ _)) _

lemma readNext_reads (h : Reads g nargv r) :
    Reads g nargv (g.readNext r).2 ∧
      ((g.readNext r).1.isSome → unread (g.readNext r).2 < unread r) := by
  let r' : Reading := { r with scanner := { r.scanner with optarg := none } }
  have hr' : Reads g nargv r' := ⟨h.optind, h.word, h.apart⟩
  unfold readNext
  dsimp only
  by_cases hplace : r.scanner.place = []
  · rw [if_pos (by rw [hplace]; rfl)]
    obtain ⟨hreads, hunread⟩ := readWord_reads (r := r') hplace h.optind h.apart
    refine ⟨hreads, fun hsome => (hunread hsome).trans_le ?_⟩
    rw [unread, hplace, if_pos rfl]
    exact Nat.le_add_left _ _
  · rw [if_neg (by simpa using hplace)]
    obtain ⟨answer, -, hreads, hunread⟩ := readOption_reads hr' hplace
    exact ⟨hreads, fun _ => hunread⟩

end Reads

end Getopt

-- Behind the name of the program.
def Reading.begin (program : String) (args : List String) : Reading :=
  ⟨[program], [], { Scanner.fresh args with optind := 0 }⟩

end ModGate.Gatedb
