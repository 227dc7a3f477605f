import ModGate.Gatedb.Index
import ModGate.Request.Handler
import ModGate.Transition.Schedule

/-! One run of `index_database` and one call of the handler on the same file, in steps that can
interleave. -/

namespace ModGate.Concurrency

open Database Gatedb Net Request

/-! The handler between its calls of SQLite. -/

def enter (w : World) (r : RequestRec) : (ℤ × RequestRec) ⊕ (String × ℕ × RequestRec) :=
  let (rc, r) := gateRequestInitConfiguration w r
  if rc ≠ 0 then .inl (DECLINED, r)
  else
    let (handler, r) := gateRequestGetHandler r
    match handler.databaseFile with
    | none => .inl (DECLINED, r)
    | some path =>
      let r := r.call (.sqliteOpen path)
      match (w.sqlite path).openError with
      | some errmsg =>
        .inl (1, r.log .crit (logTag w ++ ": " ++ "FATAL ERROR: " ++ "Can't open database: " ++
          errmsg ++ path))
      | none =>
        match inetPton r.remoteIp with
        | none =>
          .inl (DECLINED, r.log .crit (logTag w ++ ": inet_pton failed() ip=" ++ r.remoteIp))
        | some ipvalue => .inr (path, htonl ipvalue.sAddr, r)

-- After a row the statement stays active, with its lock on the file, until it is finalised.
inductive Phase
  | start (r : RequestRec)
  | opened (path : String) (addr : ℕ) (r : RequestRec)
  | prepared (path : String) (addr : ℕ) (r : RequestRec)
  | fetched (path : String) (result : ℤ × RequestRec)
  | finished (result : ℤ × RequestRec)

namespace Phase

def next (w : World) : Phase → Phase
  | .start r =>
    match enter w r with
    | .inl result => .finished result
    | .inr (path, addr, r) => .opened path addr r
  | .opened path addr r =>
    match (w.sqlite path).prepareError with
    | some (code, errmsg) => .finished (prepareFailed w r code errmsg (lookupSql addr))
    | none => .prepared path addr r
  | .prepared path addr r =>
    match queryStep (w.sqlite path) addr with
    | .row row => .fetched path (finishStep w r (.row row))
    | answer => .finished (finishStep w r answer)
  | .fetched _ result => .finished result
  | .finished result => .finished result

def holds (path : String) : Phase → Bool
  | .fetched p _ => p = path
  | _ => false

def reads (path : String) : Phase → Bool
  | .opened p _ _ | .prepared p _ _ => p = path
  | _ => false

end Phase

/-! The two processes. -/

inductive Progress
  | start
  | begun
  | scanning (pending : List ℤ) (n : ℕ)
  | exited (code : Option ℤ)

-- What the other connections hold on the file. A reader refuses only the writes.
inductive Lock
  | free
  | shared
  | exclusive
deriving DecidableEq

/-- What one run of `index_database` has before it. The file holds the committed table; `working`
is the table of the exclusive transaction, while one is open. -/
structure Session where
  committed : IpTable
  working : Option IpTable
  index : Progress

namespace Session

def seen (s : Session) : IpTable := s.working.getD s.committed

def write (s : Session) (t : IpTable) : Session :=
  match s.working with
  | some _ => { s with working := some t }
  | none => { s with committed := t }

-- The end of the process closes its connection, which rolls back an open transaction.
def exit (s : Session) (code : Option ℤ) (t : IpTable) : Session :=
  { s with committed := t, working := none, index := .exited code }

def next (env : IndexEnv) (lock : Lock) (s : Session) : Session :=
  match s.index with
  | .start =>
    if env.openFails then s.exit (some 1) s.committed
    -- Any lock makes `BEGIN EXCLUSIVE` fail, and the run goes on without it.
    else if env.beginFails || lock ≠ .free then { s with index := .begun }
    else { s with index := .begun, working := some s.committed }
  | .begun =>
    if env.prepareFails || lock = .exclusive then s.exit none s.committed
    else { s with index := .scanning s.seen.ids 0 }
  | .scanning [] _ => s.exit (some 0) (if env.commitFails then s.committed else s.seen)
  | .scanning (id :: pending) n =>
    if env.stepFails n || lock = .exclusive then { s with index := .scanning [] n }
    else match s.seen.find id with
      | none => { s with index := .scanning pending n }
      | some r =>
        if Unindexed r then
          match r.startText, r.endText with
          | some a, some e =>
            let busy := s.working.isNone && lock ≠ .free
            let it : Iteration := ⟨r, a, e, env.ipvalue n, env.updateFails n || busy⟩
            { s.write (it.apply s.seen) with index := .scanning pending (n + 1) }
          | _, _ => s.exit none s.committed
        else { s with index := .scanning pending n }
  | .exited _ => s

end Session

structure State extends Session where
  handler : Phase

def State.initial (t : IpTable) (r : RequestRec) : State := ⟨⟨t, none, .start⟩, .start r⟩

def State.lock (path : String) (s : State) : Lock := if s.handler.holds path then .shared else .free

def indexStep (env : IndexEnv) (path : String) (s : State) : State :=
  { s with toSession := s.next env (s.lock path) }

def onFile (w : World) (path : String) (db : Sqlite) : World :=
  { w with sqlite := Function.update w.sqlite path db }

def onTable (w : World) (path : String) (t : IpTable) : World :=
  onFile w path ⟨(w.sqlite path).openError, none, none, t⟩

def busy : ℤ × String := (5, "database is locked")

-- `sqlite3_open` does not look at the file; nothing else succeeds during a transaction.
def view (w : World) (path : String) (s : State) : World :=
  match s.working with
  | none => onTable w path s.committed
  | some _ => onFile w path ⟨(w.sqlite path).openError, some busy, some busy.1, s.committed⟩

inductive Party
  | gatedb
  | request
deriving DecidableEq

def step (w : World) (path : String) (env : IndexEnv) : Party → State → State
  | .gatedb, s => indexStep env path s
  | .request, s => { s with handler := s.handler.next (view w path s) }

def Clear (path : String) (p : Party) (s : State) : Prop :=
  p = .request → s.handler.reads path = true → s.working.isNone = true

instance (path : String) (p : Party) (s : State) : Decidable (Clear path p s) :=
  inferInstanceAs (Decidable (_ → _ → _))

def answer (result : ℤ × RequestRec) : ℤ × ℤ := (result.1, result.2.status)

end ModGate.Concurrency
