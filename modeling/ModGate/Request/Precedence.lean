import ModGate.Request.Handler

/-! The order of precedence among the layers that `gate_request_init_configuration` copies into
the notes of a request. -/

namespace ModGate.Request

open Containers Config

def settingOf (hConfig : AprHash String) (key : String) : Option String :=
  Table.get foldCase (settingsTable hConfig.entries) key

def serverField (cfg : GateConfig) (key : String) : Option String :=
  if foldCase key = foldCase "Gate" then cfg.handler
  else if foldCase key = foldCase "GateDefaultDatabase" then cfg.defaultDatabase
  else none

def noteBelowHandler (r : RequestRec) (key : String) : Option String :=
  (r.perDir.options.get key).or ((serverField r.server key).or
    ((r.server.options.get key).or (aprTableGet r.notes key)))

def selectedHandler (r : RequestRec) : Option (AprHash String) :=
  (noteBelowHandler r "Gate").bind r.server.handlers.lookup

def expectedNote (r : RequestRec) (key : String) : Option String :=
  ((selectedHandler r).bind fun hConfig => settingOf hConfig key).or (noteBelowHandler r key)

/-- No handler has two settings whose names differ in case only. -/
def DistinctSettings (handlers : AprHash (AprHash String)) : Prop :=
  ∀ name hConfig, handlers.lookup name = some hConfig →
    Table.Distinct foldCase (settingsTable hConfig.entries)

/-- Two registries with the same handlers and settings, iterated in any two orders. -/
def Reordered (handlers handlers' : AprHash (AprHash String)) : Prop :=
  ∀ name, Option.Rel (fun h h' : AprHash String => h.entries.Perm h'.entries)
    (handlers.lookup name) (handlers'.lookup name)

def RequestRec.withHandlers (r : RequestRec) (handlers : AprHash (AprHash String)) : RequestRec :=
  { r with server := { r.server with handlers := handlers } }

lemma get_mergedNotes (r : RequestRec) (key : String) :
    aprTableGet (mergedNotes r) key = noteBelowHandler r key := by
  have hne : ¬ foldCase "Gate" = foldCase "GateDefaultDatabase" := by decide
  have hdir : ∀ name, foldCase name = foldCase key →
      r.perDir.options.get name = r.perDir.options.get key :=
    fun name h => Table.get_congr foldCase _ h
  rw [mergedNotes, get_mergeVar, get_mergeVar, get_copyOptions, noteBelowHandler, serverField]
  by_cases hgate : foldCase "Gate" = foldCase key
  · have hdefault : ¬ foldCase "GateDefaultDatabase" = foldCase key := fun h =>
      hne (hgate.trans h.symm)
    rw [if_pos hgate, if_pos hgate.symm, if_neg hdefault, hdir "Gate" hgate]
    cases r.perDir.options.get key with
    | some v => rfl
    | none => simp
  · rw [if_neg hgate, if_neg (Ne.symm hgate)]
    by_cases hdefault : foldCase "GateDefaultDatabase" = foldCase key
    · rw [if_pos hdefault, if_pos hdefault.symm, hdir "GateDefaultDatabase" hdefault]
      cases r.perDir.options.get key with
      | some v => rfl
      | none => simp
    · rw [if_neg hdefault, if_neg (Ne.symm hdefault), Option.none_or]

lemma selectedHandler_eq (r : RequestRec) : selectedHandler r = mergedHandler r := by
  rw [selectedHandler, ← get_mergedNotes, get_mergedNotes_gate, mergedHandler]
  rfl

lemma get_setSettings {hConfig : AprHash String}
    (h : Table.Distinct foldCase (settingsTable hConfig.entries)) (t : AprTable) (key : String) :
    aprTableGet (Table.setAll foldCase t (settingsTable hConfig.entries)) key =
      (settingOf hConfig key).or (aprTableGet t key) := by
  rw [aprTableGet, Table.get_setAll, Table.lastValue_eq_get foldCase h]
  rfl

lemma init_notes {w : World} {r : RequestRec} (hd : DistinctSettings r.server.handlers)
    (h : ¬ Refused w r) (key : String) :
    aprTableGet (gateRequestInitConfiguration w r).2.notes key = expectedNote r key := by
  rw [init_eq, expectedNote, selectedHandler_eq]
  cases hh : mergedHandler r with
  | none => exact get_mergedNotes r key
  | some hConfig =>
    obtain ⟨r', hr, -, hn⟩ := mergeSettings_readable (readable_of_not_refused h hh)
      { r with notes := mergedNotes r }
    obtain ⟨g, -, hg⟩ := Option.bind_eq_some_iff.mp hh
    simp only [hr, hn, Option.bind_some]
    rw [get_setSettings (hd g hConfig hg), get_mergedNotes]

lemma refused_iff (w : World) (r : RequestRec) :
    Refused w r ↔ ∃ hConfig p, selectedHandler r = some hConfig ∧
      hConfig.lookup "GateDatabase" = some p ∧ w.access p = false := by
  simp only [Refused, databaseOf_named_iff, selectedHandler_eq]
  constructor
  · rintro ⟨p, ⟨hConfig, hh, hp⟩, ha⟩
    exact ⟨hConfig, p, hh, hp, ha⟩
  · rintro ⟨hConfig, p, hh, hp, ha⟩
    exact ⟨p, ⟨hConfig, hh, hp⟩, ha⟩

lemma init_code (w : World) (r : RequestRec) :
    (Refused w r ∧ (gateRequestInitConfiguration w r).1 = -1) ∨
      (¬ Refused w r ∧ (gateRequestInitConfiguration w r).1 = 0) := by
  by_cases h : Refused w r
  · obtain ⟨r', checked, -, hi⟩ := init_refused h
    exact Or.inl ⟨h, by rw [hi]⟩
  · obtain ⟨r', checked, hi, -⟩ := init_accepted h
    exact Or.inr ⟨h, by rw [hi]⟩

section Reordering

variable {r : RequestRec} {handlers : AprHash (AprHash String)}

lemma selectedHandler_reordered (h : Reordered r.server.handlers handlers) :
    Option.Rel (fun h h' : AprHash String => h.entries.Perm h'.entries)
      (selectedHandler r) (selectedHandler (r.withHandlers handlers)) := by
  change Option.Rel _ ((noteBelowHandler r "Gate").bind r.server.handlers.lookup)
    ((noteBelowHandler r "Gate").bind handlers.lookup)
  cases noteBelowHandler r "Gate" with
  | none => exact .none
  | some name => exact h name

lemma refused_reordered (h : Reordered r.server.handlers handlers) (w : World) :
    Refused w (r.withHandlers handlers) ↔ Refused w r := by
  rw [refused_iff, refused_iff]
  have hrel := selectedHandler_reordered h
  generalize selectedHandler r = a, selectedHandler (r.withHandlers handlers) = b at hrel ⊢
  cases hrel with
  | none => simp
  | some hperm => simp [AList.perm_lookup hperm]

lemma distinct_reordered (hd : DistinctSettings r.server.handlers)
    (h : Reordered r.server.handlers handlers) : DistinctSettings handlers := by
  intro name hConfig hl
  have hrel := h name
  rw [hl] at hrel
  generalize ha : r.server.handlers.lookup name = a at hrel
  cases hrel with
  | some hperm => exact ((hperm.map _).map _).nodup_iff.mp (hd name _ ha)

lemma expectedNote_reordered (hd : DistinctSettings r.server.handlers)
    (h : Reordered r.server.handlers handlers) (key : String) :
    expectedNote (r.withHandlers handlers) key = expectedNote r key := by
  have hrel := selectedHandler_reordered h
  have hdistinct : ∀ hConfig, selectedHandler r = some hConfig →
      Table.Distinct foldCase (settingsTable hConfig.entries) := by
    intro hConfig hs
    obtain ⟨name, -, hl⟩ := Option.bind_eq_some_iff.mp hs
    exact hd name hConfig hl
  change ((selectedHandler (r.withHandlers handlers)).bind fun h => settingOf h key).or
    (noteBelowHandler r key) = _
  rw [expectedNote]
  congr 1
  generalize selectedHandler r = a, selectedHandler (r.withHandlers handlers) = b
    at hrel hdistinct ⊢
  cases hrel with
  | none => rfl
  | some hperm => exact (Table.get_perm foldCase (hdistinct _ rfl) (hperm.map _) key).symm

end Reordering

theorem notes_precedence (w : World) (r : RequestRec) (hd : DistinctSettings r.server.handlers) :
    ((gateRequestInitConfiguration w r).1 = 0 → ∀ key,
      aprTableGet (gateRequestInitConfiguration w r).2.notes key = expectedNote r key) ∧
    (∀ handlers, Reordered r.server.handlers handlers →
      let reordered := gateRequestInitConfiguration w (r.withHandlers handlers)
      reordered.1 = (gateRequestInitConfiguration w r).1 ∧
        (reordered.1 = 0 → ∀ key, aprTableGet reordered.2.notes key =
          aprTableGet (gateRequestInitConfiguration w r).2.notes key)) ∧
    ((gateRequestInitConfiguration w r).1 = -1 ↔ ∃ hConfig p, selectedHandler r = some hConfig ∧
      hConfig.lookup "GateDatabase" = some p ∧ w.access p = false) := by
  rw [← refused_iff]
  rcases init_code w r with ⟨hr, hcode⟩ | ⟨hr, hcode⟩
  · refine ⟨fun h => by simp [hcode] at h, fun handlers hre => ?_, by simp [hr, hcode]⟩
    have hr' := (refused_reordered hre w).mpr hr
    rcases init_code w (r.withHandlers handlers) with ⟨-, hcode'⟩ | ⟨hnot, -⟩
    · exact ⟨hcode'.trans hcode.symm, fun h => by simp [hcode'] at h⟩
    · exact absurd hr' hnot
  · refine ⟨fun _ => init_notes hd hr, fun handlers hre => ?_, by simp [hr, hcode]⟩
    have hr' := mt (refused_reordered hre w).mp hr
    rcases init_code w (r.withHandlers handlers) with ⟨hyes, -⟩ | ⟨-, hcode'⟩
    · exact absurd hyes hr'
    · refine ⟨hcode'.trans hcode.symm, fun _ key => ?_⟩
      rw [init_notes (distinct_reordered hd hre) hr', init_notes hd hr,
        expectedNote_reordered hd hre]

def layeredServer : GateConfig :=
  (runAll [(.server, .gateDeclare "A"), (.server, .gateHandlerConfig "A" "Mode" "strict"),
    (.server, .gate "A"), (.server, .gateConfig "mode" "lax"),
    (.server, .gateConfig "gate" "B")] (initial none)).server

theorem handler_setting_wins :
    let r := freshRequest layeredServer (createDirConf none) "10.0.0.1"
    let notes := (gateRequestInitConfiguration (calmWorld Database.emptyIp) r).2.notes
    aprTableGet notes "MODE" = some "strict" ∧ aprTableGet notes "Gate" = some "A" := by
  intro r notes
  have hd : DistinctSettings r.server.handlers := by
    intro name hConfig hl
    have hmem : ⟨name, hConfig⟩ ∈ r.server.handlers.entries := AList.mem_lookup_iff.mp hl
    have hsingle : ∀ e ∈ r.server.handlers.entries,
        Table.Distinct foldCase (settingsTable e.2.entries) := by decide
    exact hsingle _ hmem
  have hcode : (gateRequestInitConfiguration (calmWorld Database.emptyIp) r).1 = 0 := by decide
  have hnotes := (notes_precedence (calmWorld Database.emptyIp) r hd).1 hcode
  exact ⟨(hnotes "MODE").trans (by decide), (hnotes "Gate").trans (by decide)⟩

end ModGate.Request
