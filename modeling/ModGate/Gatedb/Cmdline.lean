import ModGate.Gatedb.Getopt
import ModGate.Sql.Value

/-! The command line of `gatedb`. -/

namespace ModGate.Gatedb

open Sql

def optArray : List LongOption :=
  [⟨"create", .noArgument, none, 'c'⟩, ⟨"index", .noArgument, none, 'i'⟩,
    ⟨"lint", .noArgument, none, 'l'⟩, ⟨"verbosity", .requiredArgument, none, 'v'⟩,
    ⟨"help", .noArgument, none, 'h'⟩]

inductive Action
  | create
  | index
  | lint
deriving DecidableEq

-- What the program does with its arguments; the operand of an action is NULL behind the last word.
inductive Exit
  | performed (action : Action) (operand : Option String)
  | help
  | nothing
deriving DecidableEq

def isspace (c : Char) : Bool := c ∈ [' ', '\t', '\n', '\x0b', '\x0c', '\r']

-- `strtol`, with the low 32 bits of its 64-bit result.
def atoi (s : String) : ℤ := (Value.prefixInteger (s.toList.dropWhile isspace)).bmod (2 ^ 32)

/-- The result is `none` when the calls of `getopt_long` are more than the given number. -/
def processOptions (posixlyCorrect : Bool) : ℕ → Scanner → ℤ → Option (Exit × ℤ)
  | 0, _, _ => none
  | n + 1, s, globalVerbosity =>
    match getoptLong posixlyCorrect "cilv:h" optArray s with
    | (none, _) => some (.nothing, globalVerbosity)
    | (some ch, s) =>
      let operand := s.nargv[s.optind]?
      match ch with
      | 'c' => some (.performed .create operand, globalVerbosity)
      | 'i' => some (.performed .index operand, globalVerbosity)
      | 'l' => some (.performed .lint operand, globalVerbosity)
      | 'v' => processOptions posixlyCorrect n s (s.optarg.elim 0 atoi)
      | 'h' => some (.help, globalVerbosity)
      | _ => processOptions posixlyCorrect n s globalVerbosity

def processCmdline (posixlyCorrect : Bool) (argv : List String) : Option (Exit × ℤ) :=
  processOptions posixlyCorrect ((argv.map String.length).sum + argv.length + 1) (.fresh argv) 0

/-! The two kinds of option words, in front of any operand. -/

lemma getoptLong_verbosity (posixlyCorrect : Bool) {nargv : List String} {i : ℕ} {n : String}
    (hi : nargv[i]? = some "-v") (hn : nargv[i + 1]? = some n) (hpos : i ≠ 0)
    (optarg : Option String) :
    getoptLong posixlyCorrect "cilv:h" optArray (.between nargv i optarg) =
      (some 'v', .between nargv (i + 2) (some n)) := by
  have hword : "-v".toList = ['-', 'v'] := rfl
  rw [getoptLong, Getopt.getoptInternal_letter _ rfl hi hpos hword (by decide)]
  simp [Getopt.normalized, Getopt.scanLetter, Getopt.scanArgument, Scanner.between, Scanner.fresh,
    hn]

def Action.letter : Action → Char
  | .create => 'c'
  | .index => 'i'
  | .lint => 'l'

def Action.option (a : Action) : String := String.ofList ['-', a.letter]

lemma getoptLong_action (posixlyCorrect : Bool) {nargv : List String} {i : ℕ} {action : Action}
    (hi : nargv[i]? = some action.option) (hpos : i ≠ 0) (optarg : Option String) :
    getoptLong posixlyCorrect "cilv:h" optArray (.between nargv i optarg) =
      (some action.letter, .between nargv (i + 1) none) := by
  have hword : action.option.toList = ['-', action.letter] := String.toList_ofList
  have hdash : action.letter ≠ '-' := by cases action <;> decide
  rw [getoptLong, Getopt.getoptInternal_letter _ rfl hi hpos hword hdash]
  cases action <;>
    simp [Action.letter, Getopt.normalized, Getopt.scanLetter, Scanner.between, Scanner.fresh]

/-! Argument vectors with one action, verbosity options around it and one operand. -/

def verbosityWords (ns : List String) : List String := ns.flatMap fun n => ["-v", n]

lemma length_verbosityWords (ns : List String) : (verbosityWords ns).length = 2 * ns.length := by
  induction ns with
  | nil => rfl
  | cons n ns ih =>
    simp only [verbosityWords, List.flatMap_cons, List.length_append, List.length_cons] at ih ⊢
    rw [ih]
    simp only [List.length_nil]
    omega

def commandLine (program : String) (before : List String) (action : Action) (after : List String)
    (path : String) : List String :=
  program :: (verbosityWords before ++ action.option :: (verbosityWords after ++ [path]))

def lastVerbosity (ns : List String) : ℤ := ns.getLast?.elim 0 atoi

lemma processOptions_pair (posixlyCorrect : Bool) {nargv : List String} {i : ℕ} {n : String}
    (hi : nargv[i]? = some "-v") (hn : nargv[i + 1]? = some n) (hpos : i ≠ 0) (fuel : ℕ)
    (optarg : Option String) (verbosity : ℤ) :
    processOptions posixlyCorrect (fuel + 1) (.between nargv i optarg) verbosity =
      processOptions posixlyCorrect fuel (.between nargv (i + 2) (some n)) (atoi n) := by
  rw [processOptions, getoptLong_verbosity posixlyCorrect hi hn hpos]
  rfl

lemma processOptions_verbosity (posixlyCorrect : Bool) (ns passed rest : List String)
    (hp : passed ≠ []) (fuel : ℕ) (optarg : Option String) (verbosity : ℤ) :
    ∃ optarg', processOptions posixlyCorrect (ns.length + fuel)
        (.between (passed ++ verbosityWords ns ++ rest) passed.length optarg) verbosity =
      processOptions posixlyCorrect fuel (.between (passed ++ verbosityWords ns ++ rest)
        (passed ++ verbosityWords ns).length optarg') (ns.getLast?.elim verbosity atoi) := by
  induction ns generalizing passed optarg verbosity with
  | nil => exact ⟨optarg, by simp [verbosityWords]⟩
  | cons n ns ih =>
    have hwords :
        passed ++ verbosityWords (n :: ns) = passed ++ ["-v", n] ++ verbosityWords ns := by
      simp [verbosityWords]
    obtain ⟨optarg', hrest⟩ := ih (passed ++ ["-v", n]) (by simp) (some n) (atoi n)
    refine ⟨optarg', ?_⟩
    have hlast : (n :: ns).getLast?.elim verbosity atoi = ns.getLast?.elim (atoi n) atoi := by
      rw [List.getLast?_cons]
      cases ns.getLast? <;> rfl
    rw [hwords, hlast, ← hrest, List.length_cons, Nat.add_right_comm,
      processOptions_pair posixlyCorrect (n := n) (by simp) (by simp) (by simpa using hp)]
    simp

lemma processOptions_action (posixlyCorrect : Bool) {nargv : List String} {i : ℕ} {action : Action}
    (hi : nargv[i]? = some action.option) (hpos : i ≠ 0) (fuel : ℕ) (optarg : Option String)
    (verbosity : ℤ) :
    processOptions posixlyCorrect (fuel + 1) (.between nargv i optarg) verbosity =
      some (.performed action nargv[i + 1]?, verbosity) := by
  rw [processOptions, getoptLong_action posixlyCorrect hi hpos]
  cases action <;> rfl

lemma processOptions_line (posixlyCorrect : Bool) (program : String) (before : List String)
    (action : Action) (rest : List String) (fuel : ℕ) :
    processOptions posixlyCorrect (before.length + (fuel + 1))
        (.between ([program] ++ verbosityWords before ++ action.option :: rest) 1 none) 0 =
      some (.performed action rest.head?, lastVerbosity before) := by
  obtain ⟨optarg, hrun⟩ := processOptions_verbosity posixlyCorrect before [program]
    (action.option :: rest) (by simp) (fuel + 1) none 0
  have hi : ([program] ++ verbosityWords before ++ action.option :: rest)[
      ([program] ++ verbosityWords before).length]? = some action.option := by
    simp
  have hnext : ([program] ++ verbosityWords before ++ action.option :: rest)[
      ([program] ++ verbosityWords before).length + 1]? = rest.head? := by
    rw [List.getElem?_append_right (Nat.le_succ _), Nat.succ_sub (le_refl _), Nat.sub_self]
    exact List.head?_eq_getElem?.symm
  refine hrun.trans ?_
  rw [processOptions_action posixlyCorrect hi (by simp), hnext, lastVerbosity]

lemma processCmdline_commandLine (posixlyCorrect : Bool) (program : String)
    (before : List String) (action : Action) (after : List String) (path : String) :
    processCmdline posixlyCorrect (commandLine program before action after path) =
      some (.performed action (verbosityWords after ++ [path]).head?, lastVerbosity before) := by
  have hwords : before.length ≤ (commandLine program before action after path).length := by
    simp only [commandLine, List.length_cons, List.length_append, length_verbosityWords]
    omega
  obtain ⟨fuel, hfuel⟩ := Nat.exists_eq_add_of_le (hwords.trans (Nat.le_add_left _
    ((commandLine program before action after path).map String.length).sum))
  rw [processCmdline, hfuel, Nat.add_assoc]
  exact processOptions_line posixlyCorrect program before action (verbosityWords after ++ [path])
    fuel

theorem cmdline_performs_action_iff (posixlyCorrect : Bool) (program : String)
    (before : List String) (action : Action) (after : List String) {path : String}
    (hpath : path.toList.head? ≠ some '-') :
    processCmdline posixlyCorrect (commandLine program before action after path) =
        some (.performed action (some path), lastVerbosity (before ++ after)) ↔
      after = [] := by
  rw [processCmdline_commandLine]
  constructor
  · intro h
    cases after with
    | nil => rfl
    | cons n ns =>
      have hoperand : some "-v" = some path := by
        simpa [verbosityWords] using congrArg (Option.map Prod.fst) h
      obtain rfl := Option.some.inj hoperand
      exact absurd rfl hpath
  · rintro rfl
    simp [verbosityWords]

theorem options_first_performed :
    processCmdline false ["gatedb", "-v", "2", "-v", "-7", "-i", "file.db"] =
      some (.performed .index (some "file.db"), -7) :=
  (cmdline_performs_action_iff false "gatedb" ["2", "-7"] .index [] (by decide)).mpr rfl

theorem action_takes_next_option :
    commandLine "gatedb" [] .index ["1"] "file.db" = ["gatedb", "-i", "-v", "1", "file.db"] ∧
      processCmdline false ["gatedb", "-i", "-v", "1", "file.db"] =
        some (.performed .index (some "-v"), 0) ∧
      ¬ (processCmdline false (commandLine "gatedb" [] .index ["1"] "file.db") =
        some (.performed .index (some "file.db"), lastVerbosity ["1"])) := by
  decide

end ModGate.Gatedb
