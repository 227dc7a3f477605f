import Mathlib.Data.Nat.Notation

/-! The option scanner of `getopt_long.c`, call by call, with the variables that it keeps between
calls. -/

namespace ModGate.Gatedb

inductive HasArg
  | noArgument
  | requiredArgument
  | optionalArgument
deriving DecidableEq

-- `flag` is the variable that receives `val` in place of the caller, if any.
structure LongOption where
  name : String
  hasArg : HasArg
  flag : Option ℕ
  val : Char

structure Getopt where
  options : List Char
  longOptions : List LongOption
  permute : Bool
  allargs : Bool
  longonly : Bool
  opterr : Bool
  posixlyCorrect : Bool

/-- `place` is what is left of the word being scanned, and `atWord` tells that it is all of
`nargv[optind]`. In `nonoptStart` and `nonoptEnd` and in an answer `none` stands for -1. -/
structure Scanner where
  nargv : List String
  optind : ℕ
  optreset : Bool
  optarg : Option String
  optopt : Char
  place : List Char
  atWord : Bool
  nonoptStart : Option ℕ
  nonoptEnd : Option ℕ
  idx : ℕ
  stored : List (ℕ × Char)
  warnings : List String

namespace Getopt

def badch : Option Char := some '?'

def badarg (g : Getopt) : Option Char := if g.options.head? = some ':' then some ':' else some '?'

def inorder : Option Char := some '\x01'

def printError (g : Getopt) : Bool := g.opterr && g.options.head? != some ':'

def recargchar (c : Char) : String := "option requires an argument -- " ++ String.singleton c

def recargstring (s : List Char) : String := "option requires an argument -- " ++ String.ofList s

def ambig (s : List Char) : String := "ambiguous option -- " ++ String.ofList s

def noarg (s : List Char) : String := "option doesn't take an argument -- " ++ String.ofList s

def illoptchar (c : Char) : String := "unknown option -- " ++ String.singleton c

def illoptstring (s : List Char) : String := "unknown option -- " ++ String.ofList s

def warnx (g : Getopt) (text : String) (s : Scanner) : Scanner :=
  if g.printError then { s with warnings := s.warnings ++ [text] } else s

/-! The exchange of two neighbouring blocks, cycle by cycle. -/

def swap (nargv : List String) (i j : ℕ) : List String :=
  match nargv[i]?, nargv[j]? with
  | some a, some b => (nargv.set i b).set j a
  | _, _ => nargv

def permuteCycle (nonoptEnd nnonopts nopts cstart : ℕ) : ℕ → ℕ → List String → List String
  | 0, _, nargv => nargv
  | j + 1, pos, nargv =>
    let pos := if pos ≥ nonoptEnd then pos - nnonopts else pos + nopts
    permuteCycle nonoptEnd nnonopts nopts cstart j pos (swap nargv pos cstart)

def permuteArgs (nonoptStart nonoptEnd optEnd : ℕ) (nargv : List String) : List String :=
  let nnonopts := nonoptEnd - nonoptStart
  let nopts := optEnd - nonoptEnd
  let ncycle := Nat.gcd nnonopts nopts
  let cyclelen := (optEnd - nonoptStart) / ncycle
  (List.range ncycle).foldl (fun nargv i =>
    permuteCycle nonoptEnd nnonopts nopts (nonoptEnd + i) cyclelen (nonoptEnd + i) nargv) nargv

def exchange (s : Scanner) (first last : ℕ) : Scanner :=
  { s with nargv := permuteArgs first last s.optind s.nargv, optind := s.optind - (last - first) }

/-! Long options. -/

-- The outer `none` is an ambiguous abbreviation.
def matchLong (current : List Char) (shortToo : Bool) :
    List LongOption → ℕ → Option ℕ → Option (Option ℕ)
  | [], _, found => some found
  | o :: os, i, found =>
    if o.name.toList.take current.length ≠ current then matchLong current shortToo os (i + 1) found
    else if o.name.length = current.length then some (some i)
    else if shortToo && current.length == 1 then matchLong current shortToo os (i + 1) found
    else
      match found with
      | none => matchLong current shortToo os (i + 1) (some i)
      | some _ => none

def longOptopt (o : LongOption) : Char := if o.flag.isNone then o.val else '\x00'

def finishLong (o : LongOption) (i : ℕ) (s : Scanner) : Option Char × Scanner :=
  match o.flag with
  | none => (some o.val, { s with idx := i })
  | some cell => (some '\x00', { s with idx := i, stored := s.stored ++ [(cell, o.val)] })

def parseLongOptions (g : Getopt) (shortToo : Bool) (s : Scanner) : Option Char × Scanner :=
  let current := s.place.takeWhile (· ≠ '=')
  let hasEqual := (s.place.dropWhile (· ≠ '=')).tail?
  let s' := { s with optind := s.optind + 1 }
  match matchLong current shortToo g.longOptions 0 none with
  | none => (badch, { g.warnx (ambig current) s' with optopt := '\x00' })
  | some none =>
    if shortToo then (none, s)
    else (badch, { g.warnx (illoptstring s.place) s' with optopt := '\x00' })
  | some (some i) =>
    match g.longOptions[i]? with
    | none => (badch, s')
    | some o =>
      match o.hasArg, hasEqual with
      | .noArgument, some _ =>
        (g.badarg, { g.warnx (noarg current) s' with optopt := longOptopt o })
      | .noArgument, none => finishLong o i s'
      | .optionalArgument, none => finishLong o i s'
      | _, some arg => finishLong o i { s' with optarg := some (String.ofList arg) }
      | .requiredArgument, none =>
        match s.nargv[s.optind + 1]? with
        | some arg => finishLong o i { s' with optarg := some arg, optind := s.optind + 2 }
        | none => (g.badarg, { g.warnx (recargstring s.place) s' with optopt := longOptopt o })

/-! One call. -/

inductive Step
  | returned (answer : Option Char) (s : Scanner)
  | scanning (s : Scanner)

def exhausted (s : Scanner) : Scanner :=
  let s := match s.nonoptStart, s.nonoptEnd with
    | some first, some last => exchange s first last
    | some first, none => { s with optind := first }
    | none, _ => s
  { s with place := [], nonoptStart := none, nonoptEnd := none }

def skipNonoption (s : Scanner) : Scanner :=
  let s' := match s.nonoptStart, s.nonoptEnd with
    | none, _ => { s with nonoptStart := some s.optind }
    | some first, some last =>
      { s with
        nargv := permuteArgs first last s.optind s.nargv
        nonoptStart := some (s.optind - (last - first))
        nonoptEnd := none }
    | some _, none => s
  { s' with optind := s.optind + 1 }

def doubleDash (s : Scanner) : Scanner :=
  let s := { s with optind := s.optind + 1, place := [] }
  let s := match s.nonoptStart, s.nonoptEnd with
    | some first, some last => exchange s first last
    | _, _ => s
  { s with nonoptStart := none, nonoptEnd := none }

-- The loop at the label `start`; the number is that of the words from `optind` on.
def start (g : Getopt) : ℕ → Scanner → Step
  | 0, s => .returned none (exhausted s)
  | n + 1, s =>
    let word := (s.nargv.getD s.optind "").toList
    if word.head? ≠ some '-' ∨ word = ['-'] ∧ '-' ∉ g.options then
      let s := { s with place := [] }
      if g.allargs then
        .returned inorder { s with optarg := s.nargv[s.optind]?, optind := s.optind + 1 }
      else if g.permute then start g n (skipNonoption s)
      else .returned none s
    else
      let s := if s.nonoptStart.isSome ∧ s.nonoptEnd = none then
        { s with nonoptEnd := some s.optind } else s
      if word = ['-', '-'] then .returned none (doubleDash s)
      else if word = ['-'] then .scanning { s with place := word, atWord := true }
      else .scanning { s with place := word.tail, atWord := false }

-- `-W name`, which an option text with `W;` turns into `--name`.
def scanW (g : Getopt) (s : Scanner) : Option Char × Scanner :=
  if s.place ≠ [] then
    let r := g.parseLongOptions false s
    (r.1, { r.2 with place := [] })
  else
    let s := { s with optind := s.optind + 1 }
    match s.nargv[s.optind]? with
    | none => (g.badarg, { g.warnx (recargchar 'W') s with place := [], optopt := 'W' })
    | some word =>
      let r := g.parseLongOptions false { s with place := word.toList }
      (r.1, { r.2 with place := [] })

def scanArgument (g : Getopt) (optchar : Char) (optional : Bool) (s : Scanner) :
    Option Char × Scanner :=
  if s.place ≠ [] then
    (some optchar, { s with
      optarg := some (String.ofList s.place), place := [], optind := s.optind + 1 })
  else if optional then (some optchar, { s with optarg := none, optind := s.optind + 1 })
  else
    match s.nargv[s.optind + 1]? with
    | none =>
      (g.badarg, { g.warnx (recargchar optchar) s with
        optarg := none, optind := s.optind + 1, optopt := optchar })
    | some arg => (some optchar, { s with optarg := some arg, optind := s.optind + 2 })

-- `place` is not empty here.
def scanLetter (g : Getopt) (s : Scanner) : Option Char × Scanner :=
  match s.place with
  | [] => (none, s)
  | optchar :: rest =>
    let s := { s with place := rest, atWord := false }
    let passed := if rest = [] then { s with optind := s.optind + 1 } else s
    let oli := g.options.dropWhile (· ≠ optchar)
    if optchar = ':' ∨ optchar = '-' ∧ rest ≠ [] ∨ oli = [] then
      if optchar = '-' ∧ rest = [] then (none, s)
      else (badch, { g.warnx (illoptchar optchar) passed with optopt := optchar })
    else if optchar = 'W' ∧ oli[1]? = some ';' then g.scanW s
    else if oli[1]? ≠ some ':' then (some optchar, passed)
    else g.scanArgument optchar (oli[2]? == some ':') s

def scanOption (g : Getopt) (s : Scanner) : Option Char × Scanner :=
  if !s.atWord && (s.place.head? == some '-' || g.longonly) then
    let dashed := s.place.head? == some '-'
    let shortToo := !dashed && s.place.head?.any fun c => c != ':' && c ∈ g.options
    match g.parseLongOptions shortToo (if dashed then { s with place := s.place.tail } else s) with
    | (some answer, s) => (some answer, { s with place := [] })
    | (none, s) => g.scanLetter s
  else g.scanLetter s

def normalized (g : Getopt) : Getopt :=
  let plus := g.options.head? == some '+'
  let minus := g.options.head? == some '-'
  { g with
    permute := g.permute && !(g.posixlyCorrect || plus)
    allargs := g.allargs || !(g.posixlyCorrect || plus) && minus
    options := if plus || minus then g.options.tail else g.options }

def getoptInternal (g : Getopt) (s : Scanner) : Option Char × Scanner :=
  let g := g.normalized
  let s := if s.optind = 0 then { s with optind := 1, optreset := true } else s
  let s := { s with optarg := none }
  let s := if s.optreset then { s with nonoptStart := none, nonoptEnd := none } else s
  if s.optreset || s.place.isEmpty then
    match g.start (s.nargv.length - s.optind) { s with optreset := false } with
    | .returned answer s => (answer, s)
    | .scanning s => g.scanOption s
  else g.scanOption s

end Getopt

def getoptLong (posixlyCorrect : Bool) (options : String) (longOptions : List LongOption)
    (s : Scanner) : Option Char × Scanner :=
  Getopt.getoptInternal ⟨options.toList, longOptions, true, false, false, true, posixlyCorrect⟩ s

-- The variables at the start of the program.
def Scanner.fresh (nargv : List String) : Scanner :=
  ⟨nargv, 1, false, none, '?', [], false, none, none, 0, [], []⟩

/-! A word of one letter, with no operand in front of it. -/

def Scanner.between (nargv : List String) (optind : ℕ) (optarg : Option String) : Scanner :=
  { Scanner.fresh nargv with optind := optind, optarg := optarg }

namespace Getopt

lemma start_letter (g : Getopt) {nargv : List String} {i : ℕ} {word : String} {c : Char}
    (hi : nargv[i]? = some word) (hword : word.toList = ['-', c]) (hc : c ≠ '-') :
    g.start (nargv.length - i) (.between nargv i none) =
      .scanning { Scanner.between nargv i none with place := [c] } := by
  obtain ⟨hlt, -⟩ := List.getElem?_eq_some_iff.mp hi
  have hn : nargv.length - i = nargv.length - i - 1 + 1 := by omega
  rw [hn, start]
  simp [Scanner.between, Scanner.fresh, hi, hword, hc]

lemma getoptInternal_letter (g : Getopt) (hlong : g.longonly = false) {nargv : List String} {i : ℕ}
    {word : String} {c : Char} (hi : nargv[i]? = some word) (hpos : i ≠ 0)
    (hword : word.toList = ['-', c]) (hc : c ≠ '-') (optarg : Option String) :
    g.getoptInternal (.between nargv i optarg) =
      g.normalized.scanLetter { Scanner.between nargv i none with place := [c] } := by
  have hcall : g.getoptInternal (.between nargv i optarg) =
      match g.normalized.start (nargv.length - i) (.between nargv i none) with
      | .returned answer s => (answer, s)
      | .scanning s => g.normalized.scanOption s := by
    have hind : (Scanner.between nargv i optarg).optind ≠ 0 := hpos
    rw [getoptInternal, if_neg hind]
    rfl
  have hl : g.normalized.longonly = false := hlong
  rw [hcall, g.normalized.start_letter hi hword hc]
  simp [scanOption, hl, hc]

end Getopt

end ModGate.Gatedb
