import ModGate.Gatedb.Abbreviation
import ModGate.Gatedb.Cmdline
import ModGate.Gatedb.Permutation

/-! What `process_cmdline` does, told from the words as they were typed, one after the other and
with nothing moved. -/

namespace ModGate.Gatedb

open Getopt

/-- What the letters of a word ask for. `inside` tells that letters are left behind the one that
asks, and `verbosityBehind` that the value is the next word. -/
inductive Asked
  | performed (action : Action) (inside : Bool)
  | help
  | verbosity (value : ℤ)
  | verbosityBehind
  | nothing
deriving DecidableEq

def askVal : Char → Asked
  | 'c' => .performed .create false
  | 'i' => .performed .index false
  | 'l' => .performed .lint false
  | 'h' => .help
  | _ => .nothing

def askLong (name : List Char) : Asked :=
  match longOption (name.takeWhile (· ≠ '=')) false optArray with
  | some (some o) =>
    match o.hasArg, (name.dropWhile (· ≠ '=')).tail? with
    | .requiredArgument, some value => .verbosity (atoi (String.ofList value))
    | .requiredArgument, none => .verbosityBehind
    | _, some _ => .nothing
    | _, none => askVal o.val
  | _ => .nothing

def askLetters : List Char → Asked
  | [] => .nothing
  | optchar :: rest =>
    match optchar with
    | '-' => askLong rest
    | 'c' => .performed .create (rest ≠ [])
    | 'i' => .performed .index (rest ≠ [])
    | 'l' => .performed .lint (rest ≠ [])
    | 'h' => .help
    | 'v' => if rest = [] then .verbosityBehind else .verbosity (atoi (String.ofList rest))
    | _ => askLetters rest

/-- The operand of an action is the word behind the one that asks for it, or that word itself when
letters are left in it. -/
def interpret (posixlyCorrect : Bool) : List String → ℤ → Exit × ℤ
  | [], v => (.nothing, v)
  | word :: words, v =>
    if word.toList.head? ≠ some '-' ∨ word.toList = ['-'] then
      if posixlyCorrect then (.nothing, v) else interpret posixlyCorrect words v
    else if word.toList = ['-', '-'] then (.nothing, v)
    else
      match askLetters word.toList.tail with
      | .performed action inside =>
        (.performed action (if inside then some word else words.head?), v)
      | .help => (.help, v)
      | .verbosity value => interpret posixlyCorrect words value
      | .verbosityBehind =>
        match words with
        | [] => (.nothing, v)
        | value :: words => interpret posixlyCorrect words (atoi value)
      | .nothing => interpret posixlyCorrect words v

/-! The loop of `process_cmdline` on one answer of `getopt_long`, and on what is left then. -/

def dispatch (rest : ℤ → Exit × ℤ) (operand optarg : Option String) (v : ℤ) : Char → Exit × ℤ
  | 'c' => (.performed .create operand, v)
  | 'i' => (.performed .index operand, v)
  | 'l' => (.performed .lint operand, v)
  | 'v' => rest (optarg.elim 0 atoi)
  | 'h' => (.help, v)
  | _ => rest v

lemma dispatch_other {rest : ℤ → Exit × ℤ} {operand optarg : Option String} {v : ℤ} {ch : Char}
    (hc : ch ≠ 'c') (hi : ch ≠ 'i') (hl : ch ≠ 'l') (hv : ch ≠ 'v') (hh : ch ≠ 'h') :
    dispatch rest operand optarg v ch = rest v := by
  unfold dispatch
  split <;> first | rfl | contradiction

def Asked.proceed (posixlyCorrect : Bool) (word : String) (words : List String) (v : ℤ) :
    Asked → Exit × ℤ
  | .performed action inside => (.performed action (if inside then some word else words.head?), v)
  | .help => (.help, v)
  | .verbosity value => interpret posixlyCorrect words value
  | .verbosityBehind =>
    match words with
    | [] => (.nothing, v)
    | value :: words => interpret posixlyCorrect words (atoi value)
  | .nothing => interpret posixlyCorrect words v

def onward (posixlyCorrect : Bool) (place : List Char) (words : List String) (v : ℤ) : Exit × ℤ :=
  if place = [] then interpret posixlyCorrect words v
  else
    match words with
    | [] => (.nothing, v)
    | word :: words => (askLetters place).proceed posixlyCorrect word words v

lemma interpret_option (posixlyCorrect : Bool) {word : String} (words : List String) (v : ℤ)
    (hop : ¬ (word.toList.head? ≠ some '-' ∨ word.toList = ['-']))
    (hdd : word.toList ≠ ['-', '-']) :
    interpret posixlyCorrect (word :: words) v =
      (askLetters word.toList.tail).proceed posixlyCorrect word words v := by
  rw [interpret.eq_def]
  dsimp only
  rw [if_neg hop, if_neg hdd]
  cases askLetters word.toList.tail with
  | verbosityBehind => cases words <;> rfl
  | _ => rfl

namespace Getopt

def gatedbGetopt (posixlyCorrect : Bool) : Getopt :=
  ⟨"cilv:h".toList, optArray, true, false, false, true, posixlyCorrect⟩

/-- The answer of a scanner that has the word in front of it is what the letters ask for. -/
def Tells (posixlyCorrect : Bool) (word : String) (words : List String) (v : ℤ) (asked : Asked)
    (answer : Option Char × Scanner) : Prop :=
  ∃ ch, answer.1 = some ch ∧ dispatch
    (onward posixlyCorrect answer.2.place (answer.2.nargv.drop answer.2.optind))
    (answer.2.nargv.drop answer.2.optind).head? answer.2.optarg v ch =
      asked.proceed posixlyCorrect word words v

section Option

variable {posixlyCorrect : Bool} {s : Scanner} {word : String} {words : List String} {v : ℤ}

@[simp] lemma warnx_nargv (g : Getopt) (text : String) : (g.warnx text s).nargv = s.nargv := by
  unfold warnx
  split <;> rfl

@[simp] lemma warnx_place (g : Getopt) (text : String) : (g.warnx text s).place = s.place := by
  unfold warnx
  split <;> rfl

@[simp] lemma warnx_optind (g : Getopt) (text : String) :
    (g.warnx text s).optind = s.optind := by
  unfold warnx
  split <;> rfl

lemma gatedb_options : (gatedbGetopt posixlyCorrect).normalized.options = "cilv:h".toList := by
  cases posixlyCorrect <;> rfl

lemma gatedb_badarg : (gatedbGetopt posixlyCorrect).normalized.badarg = some '?' := by
  rw [badarg, gatedb_options]
  rfl

/-- The scanner has read one letter of the word and goes on behind it. -/
structure BehindLetter (s s' : Scanner) (rest : List Char) : Prop where
  nargv : s'.nargv = s.nargv
  place : s'.place = rest
  optind : s'.optind = if rest = [] then s.optind + 1 else s.optind

lemma BehindLetter.drop {s' : Scanner} {rest : List Char} (h : BehindLetter s s' rest)
    (hnargv : s.nargv = word :: words) (hoptind : s.optind = 0) :
    s'.nargv.drop s'.optind = if rest = [] then words else word :: words := by
  rw [h.nargv, h.optind, hnargv, hoptind]
  split <;> rfl

lemma BehindLetter.onward {s' : Scanner} {rest : List Char} (h : BehindLetter s s' rest)
    (hnargv : s.nargv = word :: words) (hoptind : s.optind = 0) :
    onward posixlyCorrect s'.place (s'.nargv.drop s'.optind) v =
      (askLetters rest).proceed posixlyCorrect word words v := by
  rw [h.drop hnargv hoptind, h.place, Gatedb.onward.eq_def]
  split
  · next hnil =>
    rw [hnil]
    rfl
  · rfl

lemma scanLetter_plain (posixlyCorrect : Bool) {optchar : Char} {rest : List Char}
    (hplace : s.place = optchar :: rest) (hletter : optchar ∈ ['c', 'i', 'l', 'h']) :
    ∃ s', (gatedbGetopt posixlyCorrect).normalized.scanLetter s = (some optchar, s') ∧
      BehindLetter s s' rest := by
  refine ⟨if rest = [] then { s with place := rest, atWord := false, optind := s.optind + 1 }
    else { s with place := rest, atWord := false }, ?_, ?_⟩
  · rw [scanLetter, hplace]
    dsimp only
    rw [gatedb_options]
    simp only [List.mem_cons, List.not_mem_nil, or_false] at hletter
    rcases hletter with rfl | rfl | rfl | rfl <;> simp
  · split
    · next hnil => exact ⟨rfl, rfl, (if_pos hnil).symm⟩
    · next hcons => exact ⟨rfl, rfl, (if_neg hcons).symm⟩

lemma scanLetter_unknown (posixlyCorrect : Bool) {optchar : Char} {rest : List Char}
    (hplace : s.place = optchar :: rest) (hletter : optchar ∉ ['-', 'c', 'i', 'l', 'h', 'v']) :
    ∃ s', (gatedbGetopt posixlyCorrect).normalized.scanLetter s = (some '?', s') ∧
      BehindLetter s s' rest := by
  simp only [List.mem_cons, List.not_mem_nil, or_false, not_or] at hletter
  obtain ⟨hdash, hc, hi, hl, hh, hv⟩ := hletter
  have hnone : optchar = ':' ∨ optchar = '-' ∧ rest ≠ [] ∨
      "cilv:h".toList.dropWhile (· ≠ optchar) = [] := by
    by_cases hcolon : optchar = ':'
    · exact Or.inl hcolon
    · refine Or.inr (Or.inr ?_)
      simp [Ne.symm hc, Ne.symm hi, Ne.symm hl, Ne.symm hv, Ne.symm hcolon,
        Ne.symm hh]
  rw [scanLetter, hplace]
  dsimp only
  rw [gatedb_options, if_pos hnone, if_neg (fun h => hdash h.1)]
  obtain ⟨warnings, hw⟩ := warnx_eq (gatedbGetopt posixlyCorrect).normalized (illoptchar optchar)
    (if rest = [] then { s with place := rest, atWord := false, optind := s.optind + 1 }
      else { s with place := rest, atWord := false })
  rw [hw]
  refine ⟨_, rfl, ?_⟩
  split
  · next hnil => exact ⟨rfl, rfl, (if_pos hnil).symm⟩
  · next hcons => exact ⟨rfl, rfl, (if_neg hcons).symm⟩

lemma scanLetter_verbosity {rest : List Char} (hplace : s.place = 'v' :: rest)
    (hnargv : s.nargv = word :: words) (hoptind : s.optind = 0) :
    Tells posixlyCorrect word words v (askLetters ('v' :: rest))
      ((gatedbGetopt posixlyCorrect).normalized.scanLetter s) := by
  have hscan : (gatedbGetopt posixlyCorrect).normalized.scanLetter s =
      (gatedbGetopt posixlyCorrect).normalized.scanArgument 'v' false
        { s with place := rest, atWord := false } := by
    rw [scanLetter, hplace]
    dsimp only
    rw [gatedb_options]
    simp
  have hasked : askLetters ('v' :: rest) =
      if rest = [] then .verbosityBehind else .verbosity (atoi (String.ofList rest)) := rfl
  rw [hscan, hasked, scanArgument]
  by_cases hrest : rest = []
  · rw [if_neg (not_not.mpr hrest), if_neg Bool.false_ne_true, if_pos hrest]
    cases words with
    | nil =>
      simp only [hnargv, hoptind, gatedb_badarg, List.getElem?_cons_succ, List.getElem?_nil]
      refine ⟨'?', rfl, ?_⟩
      simp [dispatch, onward, hrest, Asked.proceed, interpret]
    | cons value words =>
      simp only [hnargv, hoptind]
      refine ⟨'v', rfl, ?_⟩
      simp [dispatch, onward, hrest, Asked.proceed]
  · rw [if_pos hrest, if_neg hrest]
    refine ⟨'v', rfl, ?_⟩
    simp [dispatch, onward, hnargv, hoptind, Asked.proceed]

lemma askLetters_unknown {optchar : Char} (hletter : optchar ∉ ['-', 'c', 'i', 'l', 'h', 'v'])
    (rest : List Char) : askLetters (optchar :: rest) = askLetters rest := by
  simp only [List.mem_cons, List.not_mem_nil, or_false, not_or] at hletter
  rw [askLetters.eq_def]
  dsimp only
  split <;> simp_all

lemma passed_tells (words : List String) {asked : Asked} {ch : Char} {s' : Scanner} {n : ℕ}
    (hnargv : s'.nargv.drop n = words) (hoptind : s'.optind = n) {words' : List String}
    (h : dispatch (interpret posixlyCorrect words) words.head? s'.optarg v ch =
      asked.proceed posixlyCorrect word words' v) :
    Tells posixlyCorrect word words' v asked
      ((gatedbGetopt posixlyCorrect).normalized.afterLong (some ch, s')) := by
  refine ⟨ch, rfl, ?_⟩
  simp only [afterLong, hoptind, hnargv]
  exact h

lemma optArray_flag {i : ℕ} {o : LongOption} (ho : optArray[i]? = some o) :
    o.flag = none ∧ (o.hasArg = .noArgument ∧ o.val ∈ ['c', 'i', 'l', 'h'] ∨
      o.hasArg = .requiredArgument ∧ o.val = 'v') := by
  have hall : ∀ o ∈ optArray, o.flag = none ∧
      (o.hasArg = .noArgument ∧ o.val ∈ ['c', 'i', 'l', 'h'] ∨
        o.hasArg = .requiredArgument ∧ o.val = 'v') := by decide
  exact hall o (List.mem_of_getElem? ho)

lemma dispatch_val {val : Char} (hval : val ∈ ['c', 'i', 'l', 'h']) (optarg : Option String) :
    dispatch (interpret posixlyCorrect words) words.head? optarg v val =
      (askVal val).proceed posixlyCorrect word words v := by
  simp only [List.mem_cons, List.not_mem_nil, or_false] at hval
  rcases hval with rfl | rfl | rfl | rfl <;> rfl

lemma scanOption_long {name : List Char} (hplace : s.place = '-' :: name)
    (hat : s.atWord = false) (hnargv : s.nargv = word :: words) (hoptind : s.optind = 0) :
    Tells posixlyCorrect word words v (askLetters ('-' :: name))
      ((gatedbGetopt posixlyCorrect).normalized.scanOption s) := by
  have hscan : (gatedbGetopt posixlyCorrect).normalized.scanOption s =
      (gatedbGetopt posixlyCorrect).normalized.afterLong
        ((gatedbGetopt posixlyCorrect).normalized.parseLongOptions false
          { s with place := name }) := by
    rw [scanOption_eq, hplace, hat]
    rfl
  have hasked : askLetters ('-' :: name) = askLong name := rfl
  have htable : (gatedbGetopt posixlyCorrect).normalized.longOptions = optArray := rfl
  rw [hscan, hasked, askLong, longOption, parseLongOptions, htable]
  dsimp only
  generalize matchLong (name.takeWhile (· ≠ '=')) false optArray 0 none = found
  rcases found with _ | _ | i
  · exact passed_tells (n := 1) words (by simp [hnargv]) (by simp [hoptind]) rfl
  · exact passed_tells (n := 1) words (by simp [hnargv]) (by simp [hoptind]) rfl
  dsimp only [Option.map_some, Option.bind_some]
  cases ho : optArray[i]? with
  | none => exact passed_tells (n := 1) words (by simp [hnargv]) (by simp [hoptind]) rfl
  | some o =>
    obtain ⟨hflag, ⟨harg, hval⟩ | ⟨harg, hval⟩⟩ := optArray_flag ho
    · cases (name.dropWhile (· ≠ '=')).tail? with
      | some value =>
        simp only [harg, gatedb_badarg]
        exact passed_tells (n := 1) words (by simp [hnargv]) (by simp [hoptind]) rfl
      | none =>
        simp only [harg, finishLong, hflag]
        exact passed_tells (n := 1) words (by simp [hnargv]) (by simp [hoptind])
          (dispatch_val hval _)
    · cases (name.dropWhile (· ≠ '=')).tail? with
      | some value =>
        simp only [harg, finishLong, hflag, hval]
        exact passed_tells (n := 1) words (by simp [hnargv]) (by simp [hoptind]) rfl
      | none =>
        cases words with
        | nil =>
          simp only [harg, hnargv, hoptind, List.getElem?_cons_succ, List.getElem?_nil,
            gatedb_badarg]
          exact passed_tells (n := 1) [] (by simp) (by simp) rfl
        | cons value words =>
          simp only [harg, hnargv, hoptind, List.getElem?_cons_succ, List.getElem?_cons_zero,
            finishLong, hflag, hval]
          exact passed_tells (n := 2) words (by simp) (by simp) rfl

lemma scanLetter_tells {optchar : Char} {rest : List Char} (hplace : s.place = optchar :: rest)
    (hdash : optchar ≠ '-') (hnargv : s.nargv = word :: words) (hoptind : s.optind = 0) :
    Tells posixlyCorrect word words v (askLetters (optchar :: rest))
      ((gatedbGetopt posixlyCorrect).normalized.scanLetter s) := by
  by_cases hv : optchar = 'v'
  · subst hv
    exact scanLetter_verbosity hplace hnargv hoptind
  by_cases hletter : optchar ∈ ['c', 'i', 'l', 'h']
  · obtain ⟨s', hs', hbehind⟩ := scanLetter_plain posixlyCorrect hplace hletter
    rw [hs']
    refine ⟨optchar, rfl, ?_⟩
    dsimp only
    rw [hbehind.drop hnargv hoptind]
    simp only [List.mem_cons, List.not_mem_nil, or_false] at hletter
    rcases hletter with rfl | rfl | rfl | rfl <;>
      simp only [dispatch, askLetters, Asked.proceed] <;>
      by_cases hrest : rest = [] <;> simp [hrest]
  · have hunknown : optchar ∉ ['-', 'c', 'i', 'l', 'h', 'v'] := by
      simp only [List.mem_cons, List.not_mem_nil, or_false, not_or] at hletter ⊢
      tauto
    obtain ⟨s', hs', hbehind⟩ := scanLetter_unknown posixlyCorrect hplace hunknown
    rw [hs', askLetters_unknown hunknown]
    exact ⟨'?', rfl, hbehind.onward hnargv hoptind⟩

lemma scanOption_tells (hplace : s.place ≠ []) (hat : s.atWord = false)
    (hnargv : s.nargv = word :: words) (hoptind : s.optind = 0) :
    Tells posixlyCorrect word words v (askLetters s.place)
      ((gatedbGetopt posixlyCorrect).normalized.scanOption s) := by
  obtain ⟨optchar, rest, hcons⟩ := List.exists_cons_of_ne_nil hplace
  by_cases hdash : optchar = '-'
  · subst hdash
    rw [hcons]
    exact scanOption_long hcons hat hnargv hoptind
  · have hletter : (gatedbGetopt posixlyCorrect).normalized.scanOption s =
        (gatedbGetopt posixlyCorrect).normalized.scanLetter s := by
      have hhead : (s.place.head? == some '-') = false := by simp [hcons, hdash]
      rw [scanOption_eq, hhead]
      exact if_neg (by simp [normalized, gatedbGetopt])
    rw [hcons, hletter]
    exact scanLetter_tells hcons hdash hnargv hoptind

end Option

/-! The reader that takes the words in their order. -/

section Reading

variable {posixlyCorrect : Bool} {argv : List String} {r : Reading} {v : ℤ}

def Meant (posixlyCorrect : Bool) (v : ℤ) (meaning : Exit × ℤ) (answer : Option Char × Reading) :
    Prop :=
  match answer.1 with
  | none => meaning = (.nothing, v)
  | some ch => dispatch (onward posixlyCorrect answer.2.scanner.place answer.2.scanner.nargv)
      answer.2.scanner.nargv.head? answer.2.scanner.optarg v ch = meaning

lemma readOption_meant {word : String} {words : List String} (hplace : r.scanner.place ≠ [])
    (hat : r.scanner.atWord = false) (hnargv : r.scanner.nargv = word :: words)
    (hoptind : r.scanner.optind = 0) :
    Meant posixlyCorrect v ((askLetters r.scanner.place).proceed posixlyCorrect word words v)
      ((gatedbGetopt posixlyCorrect).normalized.readOption r) := by
  obtain ⟨ch, hch, htells⟩ : Tells posixlyCorrect word words v (askLetters r.scanner.place)
      ((gatedbGetopt posixlyCorrect).normalized.scanOption r.scanner) :=
    scanOption_tells hplace hat hnargv hoptind
  rw [Meant, readOption]
  simp only [hch]
  exact htells

lemma gatedb_operand (posixlyCorrect : Bool) (word : String) :
    (gatedbGetopt posixlyCorrect).normalized.Operand word ↔
      word.toList.head? ≠ some '-' ∨ word.toList = ['-'] := by
  rw [Operand, gatedb_options]
  simp

lemma readWord_meant {words : List String} (hplace : r.scanner.place = [])
    (hoptind : r.scanner.optind = 0) :
    Meant posixlyCorrect v (interpret posixlyCorrect words v)
      ((gatedbGetopt posixlyCorrect).normalized.readWord words r) := by
  have hall : (gatedbGetopt posixlyCorrect).normalized.allargs = false := by
    cases posixlyCorrect <;> rfl
  have hpermute : (gatedbGetopt posixlyCorrect).normalized.permute = !posixlyCorrect := by
    cases posixlyCorrect <;> rfl
  induction words generalizing r with
  | nil => rfl
  | cons word words ih =>
    have hiff := gatedb_operand posixlyCorrect word
    rw [readWord, hall, hpermute]
    by_cases hop : word.toList.head? ≠ some '-' ∨ word.toList = ['-']
    · rw [if_pos (hiff.mpr hop), if_neg Bool.false_ne_true, interpret.eq_def]
      dsimp only
      rw [if_pos hop]
      cases posixlyCorrect with
      | true => rfl
      | false => exact ih (r := { r with operands := r.operands ++ [word] }) hplace hoptind
    · rw [if_neg (mt hiff.mp hop)]
      by_cases hdd : word.toList = ['-', '-']
      · rw [if_pos hdd, interpret.eq_def]
        dsimp only
        rw [if_neg hop, if_pos hdd]
        rfl
      · have hentered := enterWord_place (mt hiff.mp hop)
          { r.scanner with nargv := word :: words }
        have hword : enterWord word { r.scanner with nargv := word :: words } =
            { r.scanner with nargv := word :: words, place := word.toList.tail, atWord := false } :=
          if_neg fun hdash => hop (Or.inr hdash)
        rw [if_neg hdd, interpret_option _ _ _ hop hdd]
        rw [hword] at hentered ⊢
        exact readOption_meant hentered.1 rfl rfl hoptind

lemma readNext_meant (h : Reads (gatedbGetopt posixlyCorrect).normalized argv r) :
    Meant posixlyCorrect v (onward posixlyCorrect r.scanner.place r.scanner.nargv v)
      ((gatedbGetopt posixlyCorrect).normalized.readNext r) := by
  unfold readNext
  dsimp only
  by_cases hplace : r.scanner.place = []
  · rw [if_pos (by rw [hplace]; rfl), onward.eq_def, if_pos hplace]
    exact readWord_meant (r := { r with scanner := { r.scanner with optarg := none } }) hplace
      h.optind
  · rw [if_neg (by simpa using hplace)]
    obtain ⟨hne, hat⟩ := h.word hplace
    obtain ⟨word, words, hnargv⟩ := List.exists_cons_of_ne_nil hne
    have hword : r.scanner.atWord = false := by
      rw [gatedb_options] at hat
      simpa using mt hat (by decide)
    have honward : onward posixlyCorrect r.scanner.place r.scanner.nargv v =
        (askLetters r.scanner.place).proceed posixlyCorrect word words v := by
      rw [onward.eq_def, if_neg hplace, hnargv]
    rw [honward]
    exact readOption_meant (r := { r with scanner := { r.scanner with optarg := none } }) hplace
      hword hnargv h.optind

end Reading

lemma operand_of_follows {g : Getopt} {r : Reading} {s : Scanner} (h : Follows g r s) :
    s.nargv[s.optind]? = r.scanner.nargv.head? := by
  obtain ⟨before, recent, first, last, -, hs, -⟩ := h.layout
  rw [hs]
  have hzero := getElem?_within r.scanner (before ++ r.operands ++ recent) first last 0
  rw [Nat.add_zero, Nat.add_zero, h.optind] at hzero
  rw [hzero, List.head?_eq_getElem?]

end Getopt

lemma processOptions_meant {posixlyCorrect : Bool} {argv : List String} {n : ℕ} {s : Scanner}
    {r : Reading} (hr : Reads (gatedbGetopt posixlyCorrect).normalized argv r)
    (hs : Follows (gatedbGetopt posixlyCorrect).normalized r s) (hn : unread r < n) (v : ℤ) :
    processOptions posixlyCorrect n s v =
      some (onward posixlyCorrect r.scanner.place r.scanner.nargv v) := by
  induction n generalizing s r v with
  | zero => exact absurd hn (Nat.not_lt_zero _)
  | succ n ih =>
    have hmeant := readNext_meant (v := v) hr
    rw [processOptions]
    rcases hread : (gatedbGetopt posixlyCorrect).normalized.readNext r with ⟨_ | ch, r'⟩
    · obtain ⟨s', hcall, -⟩ := scanner_answers_none r s r' hs hread
      change getoptLong posixlyCorrect "cilv:h" optArray s = _ at hcall
      rw [hread] at hmeant
      rw [hcall]
      exact congrArg some hmeant.symm
    · obtain ⟨s', hcall, hs', hoptarg⟩ := scanner_answers_some r s ch r' hs hread
      change getoptLong posixlyCorrect "cilv:h" optArray s = _ at hcall
      have hn' : unread r' < n := by
        have hless := (readNext_decreases r ch r' hr hread).2
        omega
      have hrest := fun v' => ih (readNext_decreases r ch r' hr hread).1 hs' hn' v'
      rw [hread] at hmeant
      simp only [Meant] at hmeant
      rw [hcall, ← hmeant]
      dsimp only
      rw [operand_of_follows hs', ← hoptarg]
      split
      · rfl
      · rfl
      · rfl
      · exact hrest _
      · rfl
      · next hc hi hl hv hh => rw [hrest v, dispatch_other hc hi hl hv hh]

theorem processCmdline_interpret (posixlyCorrect : Bool) (program : String) (args : List String) :
    processCmdline posixlyCorrect (program :: args) = some (interpret posixlyCorrect args 0) := by
  apply processOptions_meant (begin_reads _ program args) (begin_follows _ program args)
  have hunread : unread (.begin program args) = weight args := by
    simp [unread, Reading.begin, Scanner.fresh]
  have hweight := weight_cons program args
  change unread (.begin program args) < weight (program :: args) + 1
  omega

-- The word `-xi--` asks for the index of itself; the operand in front of it is passed over.
example : interpret false ["a.db", "-v", "2", "-xi--", "b.db"] 0 =
    (.performed .index (some "-xi--"), 2) := by decide +kernel

end ModGate.Gatedb
