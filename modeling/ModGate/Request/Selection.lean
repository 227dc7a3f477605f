import ModGate.Request.Configuration

/-! Which handler the two lookups of a request find, in terms of the configuration records. -/

namespace ModGate.Request

open Containers Config

/-- The effect of the configuration phase on everything but the notes: none, apart from checks
of readability. -/
structure Configured (r r' : RequestRec) (checked : List String) : Prop where
  status : r'.status = r.status
  body : r'.body = r.body
  remoteIp : r'.remoteIp = r.remoteIp
  server : r'.server = r.server
  perDir : r'.perDir = r.perDir
  errorLog : r'.errorLog = r.errorLog
  calls : r'.calls = r.calls ++ checked.map Call.access

lemma Configured.refl (r : RequestRec) : Configured r r [] :=
  ⟨rfl, rfl, rfl, rfl, rfl, rfl, by simp⟩

lemma Configured.trans {r r' r'' : RequestRec} {ps qs : List String}
    (h : Configured r r' ps) (h' : Configured r' r'' qs) : Configured r r'' (ps ++ qs) :=
  ⟨h'.status.trans h.status, h'.body.trans h.body, h'.remoteIp.trans h.remoteIp,
    h'.server.trans h.server, h'.perDir.trans h.perDir, h'.errorLog.trans h.errorLog,
    by rw [h'.calls, h.calls, List.map_append, List.append_assoc]⟩

lemma configured_notes (r : RequestRec) (notes : AprTable) :
    Configured r { r with notes := notes } [] :=
  ⟨rfl, rfl, rfl, rfl, rfl, rfl, by simp⟩

lemma configured_access (r : RequestRec) (path : String) :
    Configured r (r.call (.access path)) [path] :=
  ⟨rfl, rfl, rfl, rfl, rfl, rfl, rfl⟩

/-! The settings of a handler, merged in any order. -/

def settingsTable (es : List (Sigma fun _ : String => String)) : AprTable :=
  es.map fun e => (e.1, e.2)

def databasePaths (es : List (Sigma fun _ : String => String)) : List String :=
  es.filterMap fun e => if e.1 = "GateDatabase" then some e.2 else none

lemma mergeSettings_readable {w : World} {es : List (Sigma fun _ : String => String)}
    (h : ∀ p ∈ databasePaths es, w.access p = true) (r : RequestRec) :
    ∃ r', mergeSettings w es r = (0, r') ∧ Configured r r' (databasePaths es) ∧
      r'.notes = Table.setAll foldCase r.notes (settingsTable es) := by
  induction es generalizing r with
  | nil => exact ⟨r, rfl, Configured.refl r, rfl⟩
  | cons e es ih =>
    obtain ⟨key, data⟩ := e
    by_cases hk : key = "GateDatabase"
    · have hpaths : databasePaths (⟨key, data⟩ :: es) = data :: databasePaths es := by
        simp [databasePaths, hk]
      rw [hpaths] at h ⊢
      obtain ⟨r', hr, hc, hn⟩ := ih (fun p hp => h p (by simp [hp]))
        ((r.setNote key data).call (.access data))
      refine ⟨r', ?_, ?_, hn⟩
      · rw [← hr]
        simp [mergeSettings, hk, h data (by simp)]
      · exact ((configured_notes r _).trans (configured_access _ data)).trans hc
    · have hpaths : databasePaths (⟨key, data⟩ :: es) = databasePaths es := by
        simp [databasePaths, hk]
      rw [hpaths] at h ⊢
      obtain ⟨r', hr, hc, hn⟩ := ih h (r.setNote key data)
      refine ⟨r', ?_, (configured_notes r _).trans hc, hn⟩
      rw [← hr]
      simp [mergeSettings, hk]

lemma mergeSettings_unreadable {w : World} {es : List (Sigma fun _ : String => String)}
    (h : ∃ p ∈ databasePaths es, w.access p = false) (r : RequestRec) :
    ∃ r' checked, Configured r r' checked ∧
      mergeSettings w es r = (-1, gateLogError w r' .crit
        "GateDefaultDatabase unreadable or does not exists.") := by
  induction es generalizing r with
  | nil => simp [databasePaths] at h
  | cons e es ih =>
    obtain ⟨key, data⟩ := e
    by_cases hk : key = "GateDatabase"
    · have hc := (configured_notes r (aprTableSet r.notes key data)).trans
        (configured_access _ data)
      cases ha : w.access data with
      | false => exact ⟨_, _, hc, by simp [mergeSettings, hk, ha, RequestRec.setNote]⟩
      | true =>
        have hrest : ∃ p ∈ databasePaths es, w.access p = false := by
          obtain ⟨p, hp, hf⟩ := h
          simp only [databasePaths, List.filterMap_cons, hk, if_true, List.mem_cons] at hp
          rcases hp with rfl | hp
          · simp [ha] at hf
          · exact ⟨p, hp, hf⟩
        obtain ⟨r', checked, hc', hr⟩ := ih hrest ((r.setNote key data).call (.access data))
        refine ⟨r', _, hc.trans hc', ?_⟩
        rw [← hr]
        simp [mergeSettings, hk, ha]
    · have hrest : ∃ p ∈ databasePaths es, w.access p = false := by
        simpa [databasePaths, List.filterMap_cons, hk] using h
      obtain ⟨r', checked, hc', hr⟩ := ih hrest (r.setNote key data)
      refine ⟨r', _, (configured_notes r _).trans hc', ?_⟩
      rw [← hr]
      simp [mergeSettings, hk]

lemma mem_databasePaths (h : AprHash String) (p : String) :
    p ∈ databasePaths h.entries ↔ h.lookup "GateDatabase" = some p := by
  rw [← Option.mem_def, AList.mem_lookup_iff]
  constructor
  · intro hp
    obtain ⟨⟨key, data⟩, he, hk⟩ := List.mem_filterMap.mp hp
    by_cases hkey : key = "GateDatabase"
    · subst hkey
      simp only [if_true, Option.some.injEq] at hk
      exact hk ▸ he
    · simp [hkey] at hk
  · intro hp
    exact List.mem_filterMap.mpr ⟨_, hp, by simp⟩

/-! The layers of the notes. -/

def namedGate (r : RequestRec) : Option String :=
  (r.perDir.options.get "Gate").or (r.server.handler.or
    ((r.server.options.get "Gate").or (aprTableGet r.notes "Gate")))

def mergedHandler (r : RequestRec) : Option (AprHash String) :=
  (namedGate r).bind (gateHandlerConfig r)

/-- The value that the second lookup reads: the last setting `Gate` of the named handler, if it
is registered and has one. -/
def lookedUpGate (r : RequestRec) : Option String :=
  ((mergedHandler r).bind fun hConfig =>
    Table.lastValue foldCase (settingsTable hConfig.entries) "Gate").or (namedGate r)

def databaseOf (cfg : GateConfig) (gate : Option String) : Option String :=
  gate.bind fun name => setting cfg name "GateDatabase"

def Refused (w : World) (r : RequestRec) : Prop :=
  ∃ p, databaseOf r.server (namedGate r) = some p ∧ w.access p = false

lemma get_mergeVar (dirCfg : GateDirConfig) (t : AprTable) (name key : String)
    (serverConfig : Option String) :
    aprTableGet (mergeVar dirCfg t name serverConfig).2 key =
      if foldCase name = foldCase key then
        (dirCfg.options.get name).or (serverConfig.or (aprTableGet t key))
      else aprTableGet t key := by
  have hset : ∀ v, aprTableGet (aprTableSet t name v) key =
      if foldCase name = foldCase key then some v else aprTableGet t key :=
    Table.get_set foldCase t key name
  simp only [mergeVar]
  cases dirCfg.options.get name with
  | some v => simp [hset]
  | none =>
    cases serverConfig with
    | some v => simp [hset]
    | none => simp

lemma get_copyOptions (r : RequestRec) (key : String) :
    aprTableGet (copyOptions r) key =
      (r.perDir.options.get key).or ((r.server.options.get key).or (aprTableGet r.notes key)) := by
  simp only [aprTableGet, copyOptions, Table.get_setAll, Options.get]
  rw [Table.lastValue_eq_get foldCase r.perDir.options.distinct,
    Table.lastValue_eq_get foldCase r.server.options.distinct]

def mergedNotes (r : RequestRec) : AprTable :=
  (mergeVar r.perDir
    (mergeVar r.perDir (copyOptions r) "GateDefaultDatabase" r.server.defaultDatabase).2
    "Gate" r.server.handler).2

lemma get_mergedNotes_gate (r : RequestRec) : aprTableGet (mergedNotes r) "Gate" = namedGate r := by
  have hne : ¬ foldCase "GateDefaultDatabase" = foldCase "Gate" := by decide
  rw [mergedNotes, get_mergeVar, if_pos rfl, get_mergeVar, if_neg hne, get_copyOptions, namedGate]
  cases r.perDir.options.get "Gate" <;> simp

lemma init_eq (w : World) (r : RequestRec) :
    gateRequestInitConfiguration w r =
      match mergedHandler r with
      | some hConfig => mergeSettings w hConfig.entries { r with notes := mergedNotes r }
      | none => (0, { r with notes := mergedNotes r }) := by
  have hg := get_mergedNotes_gate r
  have hd : (mergeVar r.perDir
      (mergeVar r.perDir (copyOptions r) "GateDefaultDatabase" r.server.defaultDatabase).2
      "Gate" r.server.handler).1 = (aprTableGet (mergedNotes r) "Gate").isSome := rfl
  simp only [gateRequestInitConfiguration, hd]
  change (if _ then (match (aprTableGet (mergedNotes r) "Gate").bind (gateHandlerConfig r) with
    | some hConfig => _ | none => _) else _) = _
  rw [hg, mergedHandler]
  cases namedGate r <;> rfl

lemma databaseOf_named {r : RequestRec} {hConfig : AprHash String}
    (h : mergedHandler r = some hConfig) :
    databaseOf r.server (namedGate r) = hConfig.lookup "GateDatabase" := by
  obtain ⟨g, hg, hl⟩ := Option.bind_eq_some_iff.mp h
  simp only [databaseOf, hg, Option.bind_some, setting]
  rw [show r.server.handlers.lookup g = some hConfig from hl, Option.bind_some]

lemma databaseOf_named_iff (r : RequestRec) (p : String) :
    databaseOf r.server (namedGate r) = some p ↔
      ∃ hConfig, mergedHandler r = some hConfig ∧ hConfig.lookup "GateDatabase" = some p := by
  constructor
  · intro h
    obtain ⟨g, hg, hs⟩ := Option.bind_eq_some_iff.mp h
    obtain ⟨hConfig, hl, hp⟩ := Option.bind_eq_some_iff.mp hs
    exact ⟨hConfig, Option.bind_eq_some_iff.mpr ⟨g, hg, hl⟩, hp⟩
  · rintro ⟨hConfig, hm, hp⟩
    rw [databaseOf_named hm, hp]

lemma readable_of_not_refused {w : World} {r : RequestRec} (h : ¬ Refused w r)
    {hConfig : AprHash String} (hh : mergedHandler r = some hConfig) :
    ∀ p ∈ databasePaths hConfig.entries, w.access p = true := by
  intro p hp
  rw [mem_databasePaths, ← databaseOf_named hh] at hp
  by_contra ha
  exact h ⟨p, hp, by simpa using ha⟩

lemma init_refused {w : World} {r : RequestRec} (h : Refused w r) :
    ∃ r' checked, Configured r r' checked ∧ gateRequestInitConfiguration w r =
      (-1, gateLogError w r' .crit "GateDefaultDatabase unreadable or does not exists.") := by
  obtain ⟨p, hp, ha⟩ := h
  rw [init_eq]
  obtain ⟨hConfig, hh, hp⟩ := (databaseOf_named_iff r p).mp hp
  obtain ⟨r', checked, hc, hr⟩ := mergeSettings_unreadable
    ⟨p, (mem_databasePaths hConfig p).mpr hp, ha⟩ { r with notes := mergedNotes r }
  rw [hh]
  exact ⟨r', _, (configured_notes r _).trans hc, hr⟩

lemma init_accepted {w : World} {r : RequestRec} (h : ¬ Refused w r) :
    ∃ r' checked, gateRequestInitConfiguration w r = (0, r') ∧ Configured r r' checked ∧
      (∀ p, p ∈ checked ↔ databaseOf r.server (namedGate r) = some p) ∧
      aprTableGet r'.notes "Gate" = lookedUpGate r := by
  rw [init_eq]
  cases hh : mergedHandler r with
  | none =>
    refine ⟨_, [], rfl, configured_notes r _, ?_, ?_⟩
    · intro p
      simp [databaseOf_named_iff, hh]
    · simp [lookedUpGate, hh, get_mergedNotes_gate]
  | some hConfig =>
    obtain ⟨r', hr, hc, hn⟩ := mergeSettings_readable (readable_of_not_refused h hh)
      { r with notes := mergedNotes r }
    refine ⟨r', _, hr, (configured_notes r _).trans hc, ?_, ?_⟩
    · intro p
      rw [List.nil_append, mem_databasePaths, databaseOf_named hh]
    · rw [hn, aprTableGet, Table.get_setAll]
      simp only [lookedUpGate, hh, Option.bind_some]
      exact congrArg _ (get_mergedNotes_gate r)

/-! The second lookup. -/

def resolvedDatabase (r : RequestRec) : Option String :=
  (databaseOf r.server (lookedUpGate r)).filter (· ≠ "")

lemma resolvedDatabase_iff (r : RequestRec) (p : String) :
    resolvedDatabase r = some p ↔ databaseOf r.server (lookedUpGate r) = some p ∧ p ≠ "" := by
  simp [resolvedDatabase, Option.filter_eq_some_iff]

lemma databaseFile_ofDatabase (database : Option String) :
    (Handler.ofDatabase database).databaseFile = database.filter (· ≠ "") := by
  cases database with
  | none => rfl
  | some p =>
    by_cases hp : p = ""
    · subst hp
      rfl
    · have hl : p.length ≠ 0 := fun h => hp (String.length_eq_zero_iff.mp h)
      simp [Handler.ofDatabase, Handler.databaseFile, Option.filter_some, hp, hl]

lemma getHandler_spec {r r' : RequestRec} {checked : List String} (hc : Configured r r' checked)
    (hg : aprTableGet r'.notes "Gate" = lookedUpGate r) :
    (gateRequestGetHandler r').1.databaseFile = resolvedDatabase r ∧
      Configured r' (gateRequestGetHandler r').2 [] := by
  rw [gateRequestGetHandler, hg, resolvedDatabase]
  cases hl : lookedUpGate r with
  | some g =>
    simp only [gateHandlerConfig, hc.server, databaseOf, Option.bind_some, setting]
    cases r.server.handlers.lookup g with
    | some hConfig => exact ⟨databaseFile_ofDatabase _, Configured.refl r'⟩
    | none => exact ⟨rfl, Configured.refl r'⟩
  | none =>
    refine ⟨rfl, ?_⟩
    dsimp only
    split
    · exact configured_notes r' _
    · exact Configured.refl r'

end ModGate.Request
