import ModGate.Containers.Table
import Mathlib.Data.List.AList

/-! The configuration records of the module and the directive functions that fill them. -/

namespace ModGate.Config

open Containers

abbrev AprTable := List (String × String)
abbrev AprHash (α : Type) := AList fun _ : String => α

-- The keys of an APR table are compared ignoring ASCII case, those of an APR hash are not.
def foldCase (s : String) : List Char := s.toList.map Char.toLower

def aprTableGet (t : AprTable) (key : String) : Option String := Table.get foldCase t key

def aprTableSet (t : AprTable) (key value : String) : AprTable := Table.set foldCase t key value

structure Options where
  entries : AprTable
  distinct : Table.Distinct foldCase entries

namespace Options

def empty : Options := ⟨[], List.nodup_nil⟩

def get (o : Options) (key : String) : Option String := aprTableGet o.entries key

def set (o : Options) (key value : String) : Options :=
  ⟨aprTableSet o.entries key value, Table.distinct_set foldCase o.distinct key value⟩

-- `apr_table_overlay` followed by `apr_table_compress` with `APR_OVERLAP_TABLES_SET`.
def merge (current new : Options) : Options :=
  ⟨Table.compress foldCase (Table.overlay current.entries new.entries),
    Table.distinct_compress foldCase _⟩

lemma get_set (o : Options) (key value j : String) :
    (o.set key value).get j = if foldCase key = foldCase j then some value else o.get j :=
  Table.get_set foldCase o.entries j key value

lemma get_merge (current new : Options) (key : String) :
    (merge current new).get key = (new.get key).or (current.get key) :=
  Table.get_compress_overlay foldCase current.distinct new.distinct key

end Options

structure GateConfig where
  handler : Option String
  defaultDatabase : Option String
  options : Options
  handlers : AprHash (AprHash String)

structure GateDirConfig where
  dir : Option String
  options : Options

def createConfig : GateConfig := ⟨none, none, .empty, ∅⟩

def createDirConf (dir : Option String) : GateDirConfig := ⟨dir, .empty⟩

def mergeDirConf (current new : GateDirConfig) : GateDirConfig :=
  ⟨new.dir, .merge current.options new.options⟩

inductive Context
  | server
  | directory
deriving DecidableEq

structure CmdParms where
  context : Context
  command : String

-- `ap_check_cmd_context(parms, NOT_IN_DIR_LOC_FILE)`.
def apCheckCmdContext (parms : CmdParms) : Option String :=
  match parms.context with
  | .server => none
  | .directory =>
    some (parms.command ++ " cannot occur within <Directory/Location/Files> section")

structure Configs where
  server : GateConfig
  dir : GateDirConfig

def setScoped (parms : CmdParms) (cfg : Configs) (field : GateConfig → GateConfig)
    (key value : String) : Option String × Configs :=
  match apCheckCmdContext parms with
  | none => (none, { cfg with server := field cfg.server })
  | some _ => (none, { cfg with dir := { cfg.dir with options := cfg.dir.options.set key value } })

-- Inside a directory section the argument is stored under the key of another directive.
def setGateDefaultDatabase (parms : CmdParms) (cfg : Configs) (arg : Option String) :
    Option String × Configs :=
  match arg with
  | none => (none, cfg)
  | some arg =>
    setScoped parms cfg (fun c => { c with defaultDatabase := some arg }) "GateDatabase" arg

def setGateFilter (parms : CmdParms) (cfg : Configs) (arg : Option String) :
    Option String × Configs :=
  match arg with
  | none => (none, cfg)
  | some arg => setScoped parms cfg (fun c => { c with handler := some arg }) "Gate" arg

def setGateConfigVar (parms : CmdParms) (cfg : Configs) (arg1 : Option String) (arg2 : String) :
    Option String × Configs :=
  match arg1 with
  | none => (none, cfg)
  | some arg1 =>
    setScoped parms cfg (fun c => { c with options := c.options.set arg1 arg2 }) arg1 arg2

def setGateFilterDeclare (parms : CmdParms) (cfg : Configs) (arg : Option String) :
    Option String × Configs :=
  match arg with
  | none => (none, cfg)
  | some arg =>
    match apCheckCmdContext parms with
    | some errmsg => (some errmsg, cfg)
    | none =>
      match cfg.server.handlers.lookup arg with
      | some _ => (none, cfg)
      | none =>
        (none, { cfg with server :=
          { cfg.server with handlers := cfg.server.handlers.insert arg ∅ } })

def gateFilterSetParams (parms : CmdParms) (cfg : Configs) (key : String)
    (handler value : Option String) : Option String × Configs :=
  match handler, value with
  | some handler, some value =>
    match apCheckCmdContext parms with
    | some errmsg => (some errmsg, cfg)
    | none =>
      match cfg.server.handlers.lookup handler with
      | none => (some ("Handler " ++ handler ++ " is not registered"), cfg)
      | some hConfig =>
        (none, { cfg with server :=
          { cfg.server with
            handlers := cfg.server.handlers.insert handler (hConfig.insert key value) } })
  | _, _ =>
    (some ("Handler " ++ handler.getD "(null)" ++ " " ++ value.getD "(null)" ++
      " arguments not provided"), cfg)

def setGateFilterConfig (parms : CmdParms) (cfg : Configs) (handler : Option String)
    (key : String) (value : Option String) : Option String × Configs :=
  gateFilterSetParams parms cfg key handler value

def setGateFilterDatabase (parms : CmdParms) (cfg : Configs) (arg1 arg2 : Option String) :
    Option String × Configs :=
  gateFilterSetParams parms cfg "GateDatabase" arg1 arg2

/-- The directives of `mod_gate_cmds`, by their arguments; `GateEnv` only writes the process
environment. -/
inductive Directive
  | gateDefaultDatabase (path : String)
  | gate (name : String)
  | gateConfig (key value : String)
  | gateDeclare (name : String)
  | gateDatabase (handler path : String)
  | gateHandlerConfig (handler key value : String)
deriving DecidableEq

def Directive.command : Directive → String
  | .gateDefaultDatabase _ => "GateDefaultDatabase"
  | .gate _ => "Gate"
  | .gateConfig _ _ | .gateHandlerConfig _ _ _ => "GateConfig"
  | .gateDeclare _ => "GateDeclare"
  | .gateDatabase _ _ => "GateDatabase"

def Directive.run (d : Directive) (context : Context) (cfg : Configs) : Option String × Configs :=
  let parms : CmdParms := ⟨context, d.command⟩
  match d with
  | .gateDefaultDatabase path => setGateDefaultDatabase parms cfg (some path)
  | .gate name => setGateFilter parms cfg (some name)
  | .gateConfig key value => setGateConfigVar parms cfg (some key) value
  | .gateDeclare name => setGateFilterDeclare parms cfg (some name)
  | .gateDatabase handler path => setGateFilterDatabase parms cfg (some handler) (some path)
  | .gateHandlerConfig handler key value =>
    setGateFilterConfig parms cfg (some handler) key (some value)

end ModGate.Config
