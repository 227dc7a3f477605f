import ModGate.Request.Selection
import ModGate.Net.Address

/-! The content handler of the module: resolution, the lookup of the client's address, and the
return code that Apache sees. -/

namespace ModGate.Request

open Sql Database Net

def OK : ℤ := 0

def DECLINED : ℤ := -1

def lookupWhere (addr : ℕ) : Condition Column :=
  .and (.compare .ge (.column .startBound) (.literal (.integer addr)))
    (.compare .le (.column .endBound) (.literal (.integer addr)))

def lookupSql (addr : ℕ) : String :=
  "SELECT id, http_code, http_message FROM ip " ++
    "WHERE start>=" ++ toString addr ++ " " ++ "AND end<=" ++ toString addr ++ " " ++ "LIMIT 1"

def lookup (t : IpTable) (addr : ℕ) : Option IpRow :=
  selectFirst IpRow.cells (lookupWhere addr) t.rows

inductive StepAnswer
  | row (r : IpRow)
  | done
  | error (code : ℤ)

def queryStep (db : Sqlite) (addr : ℕ) : StepAnswer :=
  match db.stepError with
  | some code => .error code
  | none =>
    match lookup db.table addr with
    | some row => .row row
    | none => .done

def logTag (w : World) : String := "mod_gate[" ++ toString w.pid ++ "]"

-- The exception of `Query::prepare` and the block that catches it.
def prepareFailed (w : World) (r : RequestRec) (code : ℤ) (errmsg sql : String) : ℤ × RequestRec :=
  let what := " [" ++ toString code ++ "] " ++ "Query::prepare() failed --" ++ errmsg ++
    " SQL: " ++ sql
  (OK, (r.rputs ("mod_gate Error: " ++ what)).log .crit (logTag w ++ " : " ++ what))

def finishStep (w : World) (r : RequestRec) : StepAnswer → ℤ × RequestRec
  | .row row =>
    let recordId := (Value.integer row.id).columnInt
    let httpCode := row.httpCode.columnInt
    let r := { r with status := httpCode }
    let r := r.log .notice (logTag w ++ ": MATCH ip=" ++ r.remoteIp ++ " record=" ++
      toString recordId ++ " http=" ++ toString httpCode)
    (if httpCode = 200 then DECLINED else OK, r)
  -- The loop ends on every code but `SQLITE_ROW`, an error included.
  | .done | .error _ => (DECLINED, r)

def runQuery (w : World) (db : Sqlite) (addr : ℕ) (r : RequestRec) : ℤ × RequestRec :=
  match db.prepareError with
  | some (code, errmsg) => prepareFailed w r code errmsg (lookupSql addr)
  | none => finishStep w r (queryStep db addr)

def serve (w : World) (path : String) (r : RequestRec) : ℤ × RequestRec :=
  let r := r.call (.sqliteOpen path)
  let db := w.sqlite path
  match db.openError with
  | some errmsg =>
    (1, r.log .crit (logTag w ++ ": " ++ "FATAL ERROR: " ++ "Can't open database: " ++ errmsg ++
      path))
  | none =>
    match inetPton r.remoteIp with
    | none => (DECLINED, r.log .crit (logTag w ++ ": inet_pton failed() ip=" ++ r.remoteIp))
    | some ipvalue => runQuery w db (htonl ipvalue.sAddr) r

def gateRequestHandler (w : World) (r : RequestRec) : ℤ × RequestRec :=
  let (rc, r) := gateRequestInitConfiguration w r
  if rc ≠ 0 then (DECLINED, r)
  else
    let (handler, r) := gateRequestGetHandler r
    match handler.databaseFile with
    | none => (DECLINED, r)
    | some path => serve w path r

/-! The three ways through the configuration phase. -/

lemma handler_refused {w : World} {r : RequestRec} (h : Refused w r) :
    ∃ r' checked, Configured r r' checked ∧ gateRequestHandler w r =
      (DECLINED, gateLogError w r' .crit
        "GateDefaultDatabase unreadable or does not exists.") := by
  obtain ⟨r', checked, hc, hi⟩ := init_refused h
  exact ⟨r', checked, hc, by simp [gateRequestHandler, hi]⟩

lemma handler_configured {w : World} {r : RequestRec} (h : ¬ Refused w r) :
    ∃ r' checked, Configured r r' checked ∧ gateRequestHandler w r =
      match resolvedDatabase r with
      | none => (DECLINED, r')
      | some path => serve w path r' := by
  obtain ⟨r', checked, hi, hc, _, hg⟩ := init_accepted h
  obtain ⟨hf, hc'⟩ := getHandler_spec hc hg
  refine ⟨(gateRequestGetHandler r').2, _, hc.trans hc', ?_⟩
  simp only [gateRequestHandler, hi, ne_eq, not_true_eq_false, if_false]
  rw [← hf]

lemma handler_unresolved {w : World} {r : RequestRec} (h : ¬ Refused w r)
    (hp : resolvedDatabase r = none) :
    ∃ r' checked, Configured r r' checked ∧ gateRequestHandler w r = (DECLINED, r') := by
  obtain ⟨r', checked, hc, he⟩ := handler_configured h
  exact ⟨r', checked, hc, by rw [he, hp]⟩

lemma handler_resolved {w : World} {r : RequestRec} {path : String} (h : ¬ Refused w r)
    (hp : resolvedDatabase r = some path) :
    ∃ r' checked, Configured r r' checked ∧ gateRequestHandler w r = serve w path r' := by
  obtain ⟨r', checked, hc, he⟩ := handler_configured h
  exact ⟨r', checked, hc, by rw [he, hp]⟩

def calmWorld (t : IpTable) : World := ⟨fun _ => true, fun _ => ⟨none, none, none, t⟩, 1⟩

def freshRequest (cfg : Config.GateConfig) (dir : Config.GateDirConfig) (ip : String) :
    RequestRec :=
  ⟨200, [], "", ip, cfg, dir, [], []⟩

end ModGate.Request
