import ModGate.Config.Registry
import ModGate.Database.IpTable

/-! The per-request configuration: the copy of the settings into the request notes, and the
selection of the handler from these notes. -/

namespace ModGate.Request

open Containers Config Database

inductive LogLevel
  | crit
  | notice
deriving DecidableEq

inductive Call
  | access (path : String)
  | sqliteOpen (path : String)
deriving DecidableEq

/-- What SQLite answers on one database file: the error message of `sqlite3_open`, the code and
message of `sqlite3_prepare_v2`, the code of `sqlite3_step`, and the table behind them. -/
structure Sqlite where
  openError : Option String
  prepareError : Option (ℤ × String)
  stepError : Option ℤ
  table : IpTable

structure World where
  access : String → Bool
  sqlite : String → Sqlite
  pid : ℤ

structure RequestRec where
  status : ℤ
  notes : AprTable
  body : String
  remoteIp : String
  server : GateConfig
  perDir : GateDirConfig
  errorLog : List (LogLevel × String)
  calls : List Call

namespace RequestRec

def rputs (r : RequestRec) (text : String) : RequestRec := { r with body := r.body ++ text }

def log (r : RequestRec) (level : LogLevel) (text : String) : RequestRec :=
  { r with errorLog := r.errorLog ++ [(level, text)] }

def call (r : RequestRec) (c : Call) : RequestRec := { r with calls := r.calls ++ [c] }

def setNote (r : RequestRec) (key value : String) : RequestRec :=
  { r with notes := aprTableSet r.notes key value }

end RequestRec

def gateHandlerConfig (r : RequestRec) (name : String) : Option (AprHash String) :=
  r.server.handlers.lookup name

def gateLogError (w : World) (r : RequestRec) (level : LogLevel) (msg : String) : RequestRec :=
  let text := "ModGate: " ++ msg
  (r.rputs text).log level ("mod_gate[" ++ toString w.pid ++ "] : " ++ text)

def mergeVar (dirCfg : GateDirConfig) (t : AprTable) (varName : String)
    (serverConfig : Option String) : Bool × AprTable :=
  let t := match dirCfg.options.get varName with
    | some value => aprTableSet t varName value
    | none =>
      match serverConfig with
      | some value => aprTableSet t varName value
      | none => t
  ((aprTableGet t varName).isSome, t)

def mergeSettings (w : World) : List (Sigma fun _ : String => String) → RequestRec →
    ℤ × RequestRec
  | [], r => (0, r)
  | ⟨key, data⟩ :: rest, r =>
    let r := r.setNote key data
    if key = "GateDatabase" then
      let r := r.call (.access data)
      if w.access data then mergeSettings w rest r
      else (-1, gateLogError w r .crit "GateDefaultDatabase unreadable or does not exists.")
    else mergeSettings w rest r

def copyOptions (r : RequestRec) : AprTable :=
  Table.setAll foldCase (Table.setAll foldCase r.notes r.server.options.entries)
    r.perDir.options.entries

def gateRequestInitConfiguration (w : World) (r : RequestRec) : ℤ × RequestRec :=
  let notes := (mergeVar r.perDir (copyOptions r) "GateDefaultDatabase" r.server.defaultDatabase).2
  let (defined, notes) := mergeVar r.perDir notes "Gate" r.server.handler
  let r := { r with notes := notes }
  if defined then
    match (aprTableGet notes "Gate").bind (gateHandlerConfig r) with
    | some hConfig => mergeSettings w hConfig.entries r
    | none => (0, r)
  else (0, r)

structure Handler where
  databasePath : String

def Handler.ofDatabase (database : Option String) : Handler := ⟨database.getD ""⟩

def Handler.databaseFile (h : Handler) : Option String :=
  if h.databasePath.length = 0 then none else some h.databasePath

def gateRequestGetHandler (r : RequestRec) : Handler × RequestRec :=
  match aprTableGet r.notes "Gate" with
  | some gate =>
    match gateHandlerConfig r gate with
    | some hConfig => (.ofDatabase (hConfig.lookup "GateDatabase"), r)
    | none => (.ofDatabase (some ""), r)
  | none =>
    -- The default database is computed and noted, but the handler returned is an empty one.
    let database := if (aprTableGet r.notes "GateDatabase").isSome
      then aprTableGet r.notes "GateDefaultDatabase" else r.server.defaultDatabase
    let r := match database with
      | some path => r.setNote "GateDatabase" path
      | none => r
    (.ofDatabase (some ""), r)

end ModGate.Request
