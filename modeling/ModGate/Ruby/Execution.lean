import ModGate.Transition.Schedule

/-! The scripts that one interpreter runs in turn. The register of the interpreter that holds an
exception is set by a script that fails and never cleared between two scripts. -/

namespace ModGate.Ruby.Execution

open Transition

variable {σ ε : Type}

/-- A text may be refused by the parser or the code generator and bytecode by the loader. A program
is what it makes of the exception register and of all the rest that the interpreter holds. -/
inductive Script (σ ε : Type)
  | refused (error : ε)
  | program (run : σ × Option ε → σ × Option ε)

def Script.after (held : σ × Option ε) : Script σ ε → σ × Option ε
  | .refused error => (held.1, some error)
  | .program run => run held

inductive Returned
  | undef
  | nil
  | value
deriving DecidableEq

def loadExec (s : Script σ ε) (held : σ × Option ε) : Returned × σ × Option ε :=
  match s with
  | .refused error => (.undef, held.1, some error)
  | .program run => (if (run held).2.isSome then .nil else .value, run held)

def mrbLoadIrepCxt (s : Script σ ε) (held : σ × Option ε) : Returned × σ × Option ε :=
  match s with
  | .refused error => (.nil, held.1, some error)
  | .program run => (.value, run held)

structure Vm (σ ε : Type) where
  state : σ
  exc : Option ε
  error : Option ε

def Vm.held (vm : Vm σ ε) : σ × Option ε := (vm.state, vm.exc)

def getBacktrace (vm : Vm σ ε) : Vm σ ε :=
  if vm.exc.isSome then { vm with error := vm.exc } else vm

def conclude (vm : Vm σ ε) (loaded : Returned × σ × Option ε) : Bool × Vm σ ε :=
  let vm := { vm with state := loaded.2.1, exc := loaded.2.2 }
  if vm.exc.isSome ∧ loaded.1 ≠ .undef then (false, getBacktrace vm) else (true, vm)

def executeByteCode (code : Script σ ε) (vm : Vm σ ε) : Bool × Vm σ ε :=
  conclude vm (mrbLoadIrepCxt code vm.held)

def executeCode (code : Script σ ε) (vm : Vm σ ε) : Bool × Vm σ ε :=
  conclude vm (loadExec code vm.held)

-- The file is there: closing a NULL stream would kill the process.
def executeFile (file : Script σ ε) (vm : Vm σ ε) : Bool × Vm σ ε :=
  conclude vm (loadExec file vm.held)

inductive Call (σ ε : Type)
  | byteCode (code : Script σ ε)
  | code (code : Script σ ε)
  | file (file : Script σ ε)

namespace Call

def script : Call σ ε → Script σ ε
  | .byteCode s | .code s | .file s => s

def perform : Call σ ε → Vm σ ε → Bool × Vm σ ε
  | .byteCode s => executeByteCode s
  | .code s => executeCode s
  | .file s => executeFile s

/-- The script is loaded and, run with an empty register, ends without an exception. -/
def Succeeds (c : Call σ ε) (state : σ) : Prop := (c.script.after (state, none)).2 = none

instance [DecidableEq ε] (c : Call σ ε) (state : σ) : Decidable (c.Succeeds state) :=
  inferInstanceAs (Decidable (_ = none))

def Refused : Call σ ε → Prop
  | .byteCode _ => False
  | .code s | .file s => ∃ error, s = .refused error

end Call

structure Session (σ ε : Type) where
  vm : Vm σ ε
  answers : List Bool

def Session.start (state : σ) : Session σ ε := ⟨⟨state, none, none⟩, []⟩

def call (c : Call σ ε) (s : Session σ ε) : Session σ ε :=
  ⟨(c.perform s.vm).2, s.answers ++ [(c.perform s.vm).1]⟩

/-- The calls with what the interpreter holds when they are made. -/
def met (vm : Vm σ ε) : List (Call σ ε) → List (Call σ ε × σ)
  | [] => []
  | c :: cs => (c, vm.state) :: met (c.perform vm).2 cs

def Truthful (calls : List (Call σ ε × σ)) (answers : List Bool) : Prop :=
  List.Forall₂ (fun p b => b = true ↔ p.1.Succeeds p.2) calls answers

section Truthful

variable {calls : List (Call σ ε)} {s : Session σ ε}

end Truthful

def idle : Call ℕ String := .code (.program fun held => held)

end ModGate.Ruby.Execution
