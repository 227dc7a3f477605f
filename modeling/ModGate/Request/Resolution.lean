import ModGate.Request.Handler

/-! The database that a request opens, against the one that the directives ask for. -/

namespace ModGate.Request

open Containers Config

def Call.opened : Call → Option String
  | .sqliteOpen path => some path
  | .access _ => none

def openedPaths (w : World) (r : RequestRec) : List String :=
  ((gateRequestHandler w r).2.calls.drop r.calls.length).filterMap Call.opened

lemma finishStep_calls (w : World) (r : RequestRec) (a : StepAnswer) :
    (finishStep w r a).2.calls = r.calls := by
  cases a <;> rfl

lemma serve_calls (w : World) (path : String) (r : RequestRec) :
    (serve w path r).2.calls = r.calls ++ [.sqliteOpen path] := by
  simp only [serve]
  cases (w.sqlite path).openError with
  | some errmsg => rfl
  | none =>
    cases Net.inetPton (r.call (.sqliteOpen path)).remoteIp with
    | none => rfl
    | some ipvalue =>
      simp only [runQuery]
      cases (w.sqlite path).prepareError with
      | some e => rfl
      | none => exact finishStep_calls w _ _

def LeadsTo (w : World) (r : RequestRec) (p : String) : Prop :=
  ¬ Refused w r ∧ resolvedDatabase r = some p

lemma openedPaths_of_leadsTo {w : World} {r : RequestRec} {p : String} (h : LeadsTo w r p) :
    openedPaths w r = [p] := by
  obtain ⟨r', checked, hc, he⟩ := handler_resolved h.1 h.2
  rw [openedPaths, he, serve_calls, hc.calls, List.append_assoc, List.drop_left]
  simp [Call.opened]

lemma openedPaths_of_not_leadsTo {w : World} {r : RequestRec} (h : ∀ p, ¬ LeadsTo w r p) :
    openedPaths w r = [] ∧ (gateRequestHandler w r).1 = DECLINED := by
  by_cases hr : Refused w r
  · obtain ⟨r', checked, hc, he⟩ := handler_refused hr
    have hcalls : (gateRequestHandler w r).2.calls = r.calls ++ checked.map Call.access := by
      rw [he]
      exact hc.calls
    exact ⟨by simp [openedPaths, hcalls, Call.opened], by rw [he]⟩
  · have hn : resolvedDatabase r = none := by
      cases hp : resolvedDatabase r with
      | none => rfl
      | some p => exact (h p ⟨hr, hp⟩).elim
    obtain ⟨r', checked, hc, he⟩ := handler_unresolved hr hn
    exact ⟨by simp [openedPaths, he, hc.calls, Call.opened], by rw [he]⟩

lemma openedPaths_eq_toList_iff {w : World} {r : RequestRec} {d : Option String} :
    openedPaths w r = d.toList ↔ ∀ p, LeadsTo w r p ↔ d = some p := by
  by_cases h : ∃ p, LeadsTo w r p
  · obtain ⟨p, hp⟩ := h
    have huniq : ∀ q, LeadsTo w r q ↔ p = q := fun q =>
      ⟨fun hq => Option.some.inj (hp.2.symm.trans hq.2), fun hq => hq ▸ hp⟩
    rw [openedPaths_of_leadsTo hp]
    simp only [huniq]
    cases d with
    | none => simp
    | some q => simp
  · rw [not_exists] at h
    rw [(openedPaths_of_not_leadsTo h).1]
    cases d with
    | none => simp [h]
    | some q => simp [h]

/-! Directory records, as the directives and the merge build them. -/

def Directive.stored : Directive → Option (String × String)
  | .gateDefaultDatabase path => some ("GateDatabase", path)
  | .gate name => some ("Gate", name)
  | .gateConfig key value => some (key, value)
  | _ => none

def Directive.named : Directive → Option (String × String)
  | .gateDefaultDatabase path => some ("GateDefaultDatabase", path)
  | .gate name => some ("Gate", name)
  | .gateConfig key value => some (key, value)
  | _ => none

def valueUnder (key : String) (e : Option (String × String)) : Option String :=
  e.bind fun e => if foldCase e.1 = foldCase key then some e.2 else none

def directoryValue (ds : List Directive) (key : String) : Option String :=
  lastSome (fun d => valueUnder key (Directive.named d)) ds

def sectionConfig (cfg : GateConfig) (dir : Option String) (ds : List Directive) : GateDirConfig :=
  (runAll (ds.map fun d => (Context.directory, d)) ⟨cfg, createDirConf dir⟩).dir

-- The records that sections and merges in any grouping build, with the directives of their sections
-- from the outermost to the innermost.
inductive Built (cfg : GateConfig) : GateDirConfig → List Directive → Prop
  | ofSection (dir : Option String) (ds : List Directive) : Built cfg (sectionConfig cfg dir ds) ds
  | merge {a b : GateDirConfig} {as bs : List Directive} : Built cfg a as → Built cfg b bs →
      Built cfg (mergeDirConf a b) (as ++ bs)

lemma get_run_directory (d : Directive) (cfg : Configs) (key : String) :
    (d.run .directory cfg).2.dir.options.get key =
      (valueUnder key (Directive.stored d)).or (cfg.dir.options.get key) := by
  cases d with
  | gateDefaultDatabase _ | gate _ | gateConfig _ _ =>
    refine (Options.get_set _ _ _ _).trans ?_
    simp only [Directive.stored, valueUnder, Option.bind_some]
    split <;> simp
  | gateDeclare _ | gateDatabase _ _ | gateHandlerConfig _ _ _ => rfl

lemma get_sectionConfig (cfg : GateConfig) (dir : Option String) (ds : List Directive)
    (key : String) : (sectionConfig cfg dir ds).options.get key =
      lastSome (fun d => valueUnder key (Directive.stored d)) ds := by
  induction ds using List.reverseRecOn with
  | nil => rfl
  | append_singleton ds d ih =>
    rw [lastSome_concat, ← ih, sectionConfig, List.map_append, List.map_singleton, runAll_concat]
    exact get_run_directory d _ key

lemma Built.get_options {cfg : GateConfig} {d : GateDirConfig} {ds : List Directive}
    (h : Built cfg d ds) (key : String) :
    d.options.get key = lastSome (fun d => valueUnder key (Directive.stored d)) ds := by
  induction h with
  | ofSection dir ds => exact get_sectionConfig cfg dir ds key
  | merge _ _ iha ihb => rw [mergeDirConf, Options.get_merge, iha, ihb, lastSome_append]

lemma Built.get_gate {cfg : GateConfig} {d : GateDirConfig} {ds : List Directive}
    (h : Built cfg d ds) : d.options.get "Gate" = directoryValue ds "Gate" := by
  rw [h.get_options, directoryValue]
  apply lastSome_congr
  intro d _
  cases d with
  | gateDefaultDatabase path =>
    have hs : ¬ foldCase "GateDatabase" = foldCase "Gate" := by decide
    have hn : ¬ foldCase "GateDefaultDatabase" = foldCase "Gate" := by decide
    simp [Directive.stored, Directive.named, valueUnder, hs, hn]
  | _ => rfl

/-! The database that the directives ask for. -/

def effectiveGate (r : RequestRec) (ds : List Directive) : Option String :=
  (directoryValue ds "Gate").or r.server.handler

def effectiveDefault (r : RequestRec) (ds : List Directive) : Option String :=
  (directoryValue ds "GateDefaultDatabase").or r.server.defaultDatabase

def documentedDatabase (r : RequestRec) (ds : List Directive) : Option String :=
  (databaseOf r.server (effectiveGate r ds)).or (effectiveDefault r ds)

/-- The effective handler has a readable database, and no `Gate` among its own settings leads
to a different one; or, when it has none, what the other sources of a `Gate` note lead to is
just the effective default. -/
def Resolvable (w : World) (r : RequestRec) (ds : List Directive) : Prop :=
  match databaseOf r.server (effectiveGate r ds), effectiveDefault r ds with
  | some p, _ => p ≠ "" ∧ w.access p = true ∧ databaseOf r.server (lookedUpGate r) = some p
  | none, some d => d ≠ "" ∧ databaseOf r.server (lookedUpGate r) = some d ∧
      ∀ q, databaseOf r.server (namedGate r) = some q → w.access q = true
  | none, none => ∀ p, databaseOf r.server (lookedUpGate r) = some p → p ≠ "" →
      ∃ q, databaseOf r.server (namedGate r) = some q ∧ w.access q = false

lemma leadsTo_iff {w : World} {r : RequestRec} {p : String} :
    LeadsTo w r p ↔ p ≠ "" ∧ databaseOf r.server (lookedUpGate r) = some p ∧
      ∀ q, databaseOf r.server (namedGate r) = some q → w.access q = true := by
  rw [LeadsTo, resolvedDatabase_iff]
  simp only [Refused, not_exists, not_and, Bool.not_eq_false]
  tauto

lemma namedGate_effective {r : RequestRec} {ds : List Directive}
    (hb : Built r.server r.perDir ds) {g : String} (hg : effectiveGate r ds = some g) :
    namedGate r = some g := by
  rw [effectiveGate, ← hb.get_gate] at hg
  simp only [namedGate, ← Option.or_assoc, hg, Option.some_or]

lemma leadsTo_effective {w : World} {r : RequestRec} {ds : List Directive}
    (hb : Built r.server r.perDir ds) {p : String}
    (hp : databaseOf r.server (effectiveGate r ds) = some p) :
    LeadsTo w r p ↔
      p ≠ "" ∧ w.access p = true ∧ databaseOf r.server (lookedUpGate r) = some p := by
  obtain ⟨g, hg, hs⟩ := Option.bind_eq_some_iff.mp hp
  have hn : databaseOf r.server (namedGate r) = some p := by
    simpa [databaseOf, namedGate_effective hb hg] using hs
  rw [leadsTo_iff, hn]
  simp only [Option.some.injEq, forall_eq']
  tauto

lemma not_leadsTo_iff {w : World} {r : RequestRec} :
    (∀ p, ¬ LeadsTo w r p) ↔ ∀ p, databaseOf r.server (lookedUpGate r) = some p → p ≠ "" →
      ∃ q, databaseOf r.server (namedGate r) = some q ∧ w.access q = false := by
  apply forall_congr'
  intro p
  simp only [leadsTo_iff, not_and, not_forall, Bool.not_eq_true, exists_prop]
  tauto

lemma leadsTo_unique {w : World} {r : RequestRec} {d : String} :
    (∀ p, LeadsTo w r p ↔ some d = some p) ↔ LeadsTo w r d := by
  constructor
  · intro h
    exact (h d).mpr rfl
  · intro h p
    exact ⟨fun hp => h.2.symm.trans hp.2, fun hp => Option.some.inj hp ▸ h⟩

theorem resolution_iff (w : World) (r : RequestRec) (ds : List Directive)
    (hb : Built r.server r.perDir ds) :
    (openedPaths w r = (documentedDatabase r ds).toList ∧
      ((gateRequestHandler w r).1 = DECLINED ∧ openedPaths w r = [] ↔
        documentedDatabase r ds = none)) ↔ Resolvable w r ds := by
  have hsame : openedPaths w r = (documentedDatabase r ds).toList ↔ Resolvable w r ds := by
    rw [openedPaths_eq_toList_iff, documentedDatabase, Resolvable]
    cases hp : databaseOf r.server (effectiveGate r ds) with
    | some p => rw [Option.some_or, leadsTo_unique, leadsTo_effective hb hp]
    | none =>
      cases effectiveDefault r ds with
      | some d => rw [Option.none_or, leadsTo_unique, leadsTo_iff]
      | none => simp [not_leadsTo_iff]
  rw [← hsame]
  refine and_iff_left_of_imp fun h => ?_
  rw [h]
  constructor
  · rintro ⟨_, hn⟩
    simpa using hn
  · intro hn
    rw [hn] at h ⊢
    refine ⟨(openedPaths_of_not_leadsTo fun p hp => ?_).2, rfl⟩
    simp [openedPaths_of_leadsTo hp] at h

def readmeServer : GateConfig :=
  (runAll [(.server, .gateDeclare "MYGATE"),
    (.server, .gateDatabase "MYGATE" "/etc/apache2/gate.db")] (initial none)).server

theorem readme_directory_resolves :
    let r := freshRequest readmeServer (sectionConfig readmeServer none [.gate "MYGATE"]) "10.0.0.1"
    openedPaths (calmWorld Database.emptyIp) r = ["/etc/apache2/gate.db"] := by
  intro r
  have hb : Built r.server r.perDir [.gate "MYGATE"] := .ofSection none _
  have hd : databaseOf r.server (effectiveGate r [.gate "MYGATE"]) =
      some "/etc/apache2/gate.db" := by decide
  have h := (resolution_iff (calmWorld Database.emptyIp) r _ hb).mpr (by
    rw [Resolvable, hd]
    exact ⟨by decide, rfl, by decide⟩)
  rw [h.1, documentedDatabase, hd]
  rfl

def defaultServer : GateConfig :=
  (runAll [(.server, .gateDefaultDatabase "/etc/apache2/gate.db")] (initial none)).server

theorem default_database_never_opened :
    let r := freshRequest defaultServer (sectionConfig defaultServer none []) "10.0.0.1"
    Built r.server r.perDir [] ∧ documentedDatabase r [] = some "/etc/apache2/gate.db" ∧
      (gateRequestHandler (calmWorld Database.emptyIp) r).1 = DECLINED ∧
      openedPaths (calmWorld Database.emptyIp) r = [] ∧
      ¬ (openedPaths (calmWorld Database.emptyIp) r = (documentedDatabase r []).toList ∧
        ((gateRequestHandler (calmWorld Database.emptyIp) r).1 = DECLINED ∧
          openedPaths (calmWorld Database.emptyIp) r = [] ↔ documentedDatabase r [] = none)) := by
  refine ⟨.ofSection none _, by decide, by decide, by decide, ?_⟩
  decide

/-! The two lookups of a handler. -/

lemma resolved_named_iff (r : RequestRec) :
    (∀ p, resolvedDatabase r = some p → databaseOf r.server (namedGate r) = some p) ↔
      ∀ hConfig g q, mergedHandler r = some hConfig →
        Table.lastValue foldCase (settingsTable hConfig.entries) "Gate" = some g →
        setting r.server g "GateDatabase" = some q → q ≠ "" →
        hConfig.lookup "GateDatabase" = some q := by
  simp only [resolvedDatabase_iff, lookedUpGate]
  cases hm : mergedHandler r with
  | none =>
    simp only [Option.bind_none, Option.none_or]
    exact ⟨fun _ _ _ _ h => by simp at h, fun _ p h => h.1⟩
  | some hConfig =>
    have hn := databaseOf_named hm
    simp only [Option.bind_some, Option.some.injEq]
    cases hl : Table.lastValue foldCase (settingsTable hConfig.entries) "Gate" with
    | none =>
      refine ⟨?_, fun _ p h => h.1⟩
      rintro _ _ g q rfl hg
      simp [hl] at hg
    | some g =>
      rw [hn]
      constructor
      · rintro h _ g' q rfl hg hs hq
        rw [hl] at hg
        exact h q ⟨Option.some.inj hg ▸ hs, hq⟩
      · rintro h p ⟨hp, hq⟩
        exact h hConfig g p rfl hl hp hq

theorem one_handler_iff (w : World) (r : RequestRec) :
    ((gateRequestInitConfiguration w r).1 = 0 →
      ∀ p, (gateRequestGetHandler (gateRequestInitConfiguration w r).2).1.databaseFile = some p →
        (∃ hConfig, mergedHandler r = some hConfig ∧ hConfig.lookup "GateDatabase" = some p) ∧
          Call.access p ∈ (gateRequestInitConfiguration w r).2.calls.drop r.calls.length) ↔
      (¬ Refused w r → ∀ hConfig g q, mergedHandler r = some hConfig →
        Table.lastValue foldCase (settingsTable hConfig.entries) "Gate" = some g →
        setting r.server g "GateDatabase" = some q → q ≠ "" →
        hConfig.lookup "GateDatabase" = some q) := by
  by_cases hr : Refused w r
  · obtain ⟨r', checked, _, hi⟩ := init_refused hr
    simp [hi, hr]
  · obtain ⟨r', checked, hi, hc, hchecked, hg⟩ := init_accepted hr
    have hfile := (getHandler_spec hc hg).1
    have hcalls : ∀ p, Call.access p ∈ r'.calls.drop r.calls.length ↔
        databaseOf r.server (namedGate r) = some p := by
      intro p
      rw [hc.calls, List.drop_left, ← hchecked]
      simp
    simp only [hi, hfile, hcalls, hr, not_false_eq_true, true_implies]
    rw [← resolved_named_iff]
    simp only [← databaseOf_named_iff, and_self]

def redirectingServer : GateConfig :=
  (runAll [(.server, .gateDeclare "A"), (.server, .gateDatabase "A" "/a.db"),
    (.server, .gateHandlerConfig "A" "Gate" "B"), (.server, .gateDeclare "B"),
    (.server, .gateDatabase "B" "/b.db"), (.server, .gate "A")] (initial none)).server

theorem redirected_handler_unchecked :
    let r := freshRequest redirectingServer (createDirConf none) "10.0.0.1"
    let i := gateRequestInitConfiguration (calmWorld Database.emptyIp) r
    i.1 = 0 ∧ i.2.calls = [.access "/a.db"] ∧
      (gateRequestGetHandler i.2).1.databaseFile = some "/b.db" ∧
      (mergedHandler r).bind (AList.lookup "GateDatabase") = some "/a.db" ∧
      ¬ (i.1 = 0 → ∀ p, (gateRequestGetHandler i.2).1.databaseFile = some p →
        (∃ hConfig, mergedHandler r = some hConfig ∧ hConfig.lookup "GateDatabase" = some p) ∧
          Call.access p ∈ i.2.calls.drop r.calls.length) := by
  refine ⟨by decide, by decide, by decide, by decide, fun h => ?_⟩
  exact absurd (h (by decide) "/b.db" (by decide)).2 (by decide)

end ModGate.Request
