import ModGate.Config.Directives
import Mathlib.Data.List.Induction

/-! The handler registry under arbitrary sequences of directives. -/

namespace ModGate.Config

open Containers

def Directive.write : Directive → Option (String × String × String)
  | .gateDatabase handler path => some (handler, "GateDatabase", path)
  | .gateHandlerConfig handler key value => some (handler, key, value)
  | _ => none

def runAll (ds : List (Context × Directive)) (cfg : Configs) : Configs :=
  ds.foldl (fun c d => (d.2.run d.1 c).2) cfg

def outcomes : List (Context × Directive) → Configs → List (Directive × Option String)
  | [], _ => []
  | d :: ds, cfg => (d.2, (d.2.run d.1 cfg).1) :: outcomes ds (d.2.run d.1 cfg).2

def written (handler key : String) (o : Directive × Option String) : Option String :=
  match o.2, o.1.write with
  | none, some (h, k, value) => if h = handler ∧ k = key then some value else none
  | _, _ => none

def setting (cfg : GateConfig) (handler key : String) : Option String :=
  (cfg.handlers.lookup handler).bind (AList.lookup key)

@[simp] lemma runAll_concat (ds : List (Context × Directive)) (d : Context × Directive)
    (cfg : Configs) : runAll (ds ++ [d]) cfg = (d.2.run d.1 (runAll ds cfg)).2 := by
  simp [runAll]

@[simp] lemma outcomes_concat (ds : List (Context × Directive)) (d : Context × Directive)
    (cfg : Configs) :
    outcomes (ds ++ [d]) cfg = outcomes ds cfg ++ [(d.2, (d.2.run d.1 (runAll ds cfg)).1)] := by
  induction ds generalizing cfg with
  | nil => rfl
  | cons e ds ih =>
    simp only [List.cons_append, outcomes, ih]
    rfl

/-! One directive: it declares a handler, sets one of its parameters, or leaves the registry
alone. -/

lemma run_write {d : Directive} {h k v : String} (hw : d.write = some (h, k, v))
    (context : Context) (cfg : Configs) :
    d.run context cfg = gateFilterSetParams ⟨context, d.command⟩ cfg k (some h) (some v) := by
  cases d <;> cases hw <;> rfl

lemma setParams_rejected {parms : CmdParms} {cfg : Configs} {h : String} (k v : String)
    (hr : ¬ (parms.context = .server ∧ h ∈ cfg.server.handlers)) :
    ∃ error, gateFilterSetParams parms cfg k (some h) (some v) = (some error, cfg) := by
  obtain ⟨context, command⟩ := parms
  cases context with
  | directory => exact ⟨_, rfl⟩
  | server =>
    have hl : cfg.server.handlers.lookup h = none :=
      AList.lookup_eq_none.mpr fun hm => hr ⟨rfl, hm⟩
    exact ⟨_, by simp only [gateFilterSetParams, apCheckCmdContext, hl]; rfl⟩

lemma setParams_accepted {parms : CmdParms} {cfg : Configs} {h : String} (k v : String)
    (hs : parms.context = .server) (hm : h ∈ cfg.server.handlers) :
    ∃ s, cfg.server.handlers.lookup h = some s ∧
      gateFilterSetParams parms cfg k (some h) (some v) =
        (none, { cfg with server :=
          { cfg.server with handlers := cfg.server.handlers.insert h (s.insert k v) } }) := by
  obtain ⟨context, command⟩ := parms
  obtain rfl : context = .server := hs
  obtain ⟨s, hl⟩ := Option.isSome_iff_exists.mp (AList.lookup_isSome.mpr hm)
  exact ⟨s, hl, by simp only [gateFilterSetParams, apCheckCmdContext, hl]⟩

lemma run_rejected {d : Directive} {h k v : String} (hw : d.write = some (h, k, v))
    {context : Context} {cfg : Configs}
    (hr : ¬ (context = .server ∧ h ∈ cfg.server.handlers)) :
    ∃ error, d.run context cfg = (some error, cfg) := by
  rw [run_write hw]
  exact setParams_rejected k v hr

lemma run_accepted {d : Directive} {h k v : String} (hw : d.write = some (h, k, v))
    {cfg : Configs} (hm : h ∈ cfg.server.handlers) :
    ∃ s, cfg.server.handlers.lookup h = some s ∧
      d.run .server cfg = (none, { cfg with server :=
        { cfg.server with handlers := cfg.server.handlers.insert h (s.insert k v) } }) := by
  rw [run_write hw]
  exact setParams_accepted k v rfl hm

lemma run_error_iff {d : Directive} {h k v : String} (hw : d.write = some (h, k, v))
    (context : Context) (cfg : Configs) :
    (d.run context cfg).1 = none ↔ context = .server ∧ h ∈ cfg.server.handlers := by
  by_cases hr : context = .server ∧ h ∈ cfg.server.handlers
  · obtain ⟨rfl, hm⟩ := hr
    obtain ⟨s, _, he⟩ := run_accepted hw hm
    simp [he, hm]
  · obtain ⟨error, he⟩ := run_rejected hw hr
    simp [he, hr]

lemma run_declare_server (name : String) (cfg : Configs) :
    (Directive.run (.gateDeclare name) .server cfg).1 = none ∧
      ∀ j, (Directive.run (.gateDeclare name) .server cfg).2.server.handlers.lookup j =
        if name = j then some ((cfg.server.handlers.lookup j).getD ∅)
        else cfg.server.handlers.lookup j := by
  cases hl : cfg.server.handlers.lookup name with
  | some s =>
    simp only [Directive.run, setGateFilterDeclare, apCheckCmdContext, hl, true_and]
    intro j
    by_cases hj : name = j
    · subst hj
      simp [hl]
    · simp [hj]
  | none =>
    simp only [Directive.run, setGateFilterDeclare, apCheckCmdContext, hl, true_and]
    intro j
    by_cases hj : name = j
    · subst hj
      simp [hl]
    · simp [hj, AList.lookup_insert_ne (Ne.symm hj)]

-- Outside the two cases above the registry is not touched.
lemma run_idle {d : Directive} {context : Context} (hw : d.write = none)
    (hd : ∀ name, (context, d) ≠ (.server, .gateDeclare name)) (cfg : Configs) :
    (d.run context cfg).2.server.handlers = cfg.server.handlers := by
  cases context with
  | directory => cases d <;> rfl
  | server =>
    cases d with
    | gateDeclare name => exact (hd name rfl).elim
    | gateDatabase _ _ | gateHandlerConfig _ _ _ => cases hw
    | _ => rfl

lemma run_error_unchanged {d : Directive} {context : Context} {cfg : Configs}
    (he : (d.run context cfg).1 ≠ none) :
    (d.run context cfg).2.server.handlers = cfg.server.handlers := by
  cases hw : d.write with
  | some w =>
    obtain ⟨h, k, v⟩ := w
    obtain ⟨error, hr⟩ := run_rejected hw ((run_error_iff hw context cfg).not.mp he)
    rw [hr]
  | none =>
    apply run_idle hw
    rintro name hd
    cases hd
    exact he (run_declare_server name cfg).1

lemma mem_handlers_run (d : Directive) (context : Context) (cfg : Configs) (j : String) :
    j ∈ (d.run context cfg).2.server.handlers ↔
      j ∈ cfg.server.handlers ∨ (context, d) = (.server, .gateDeclare j) := by
  cases hw : d.write with
  | some w =>
    obtain ⟨h, k, v⟩ := w
    have hd : (context, d) ≠ (.server, .gateDeclare j) := by
      rintro hd
      cases hd
      cases hw
    by_cases hr : context = .server ∧ h ∈ cfg.server.handlers
    · obtain ⟨rfl, hm⟩ := hr
      obtain ⟨s, _, he⟩ := run_accepted hw hm
      simp only [he, AList.mem_insert, hd, or_false]
      exact ⟨fun hj => hj.elim (fun hj => hj ▸ hm) id, Or.inr⟩
    · obtain ⟨error, he⟩ := run_rejected hw hr
      simp [he, hd]
  | none =>
    by_cases hd : ∃ name, (context, d) = (.server, .gateDeclare name)
    · obtain ⟨name, hd⟩ := hd
      cases hd
      rw [← AList.lookup_isSome, ← AList.lookup_isSome, (run_declare_server name cfg).2]
      by_cases hj : name = j <;> simp [hj]
    · rw [run_idle hw (not_exists.mp hd)]
      simp [not_exists.mp hd j]

lemma setting_run (d : Directive) (context : Context) (cfg : Configs) (h k : String) :
    setting (d.run context cfg).2.server h k =
      (written h k (d, (d.run context cfg).1)).or (setting cfg.server h k) := by
  cases hw : d.write with
  | some w =>
    obtain ⟨h', k', v⟩ := w
    by_cases hr : context = .server ∧ h' ∈ cfg.server.handlers
    · obtain ⟨rfl, hm⟩ := hr
      obtain ⟨s, hl, he⟩ := run_accepted hw hm
      simp only [he, written, hw, setting]
      by_cases hh : h' = h
      · subst hh
        by_cases hk : k' = k
        · subst hk
          simp
        · simp [hk, hl, AList.lookup_insert_ne (Ne.symm hk)]
      · simp [hh, AList.lookup_insert_ne (Ne.symm hh)]
    · obtain ⟨error, he⟩ := run_rejected hw hr
      simp [he, written]
  | none =>
    by_cases hd : ∃ name, (context, d) = (.server, .gateDeclare name)
    · obtain ⟨name, hd⟩ := hd
      cases hd
      simp only [setting, (run_declare_server name cfg).2, written, Directive.write]
      by_cases hj : name = h
      · cases hl : cfg.server.handlers.lookup h <;> simp [hj]
      · simp [hj]
    · simp only [setting, run_idle hw (not_exists.mp hd), written, hw]
      cases (d.run context cfg).1 <;> rfl

/-! Runs from the records that `create_config` and `create_dir_conf` make. -/

def initial (dir : Option String) : Configs := ⟨createConfig, createDirConf dir⟩

lemma mem_handlers_runAll (dir : Option String) (ds : List (Context × Directive)) (h : String) :
    h ∈ (runAll ds (initial dir)).server.handlers ↔ (Context.server, .gateDeclare h) ∈ ds := by
  induction ds using List.reverseRecOn with
  | nil => simp [runAll, initial, createConfig]
  | append_singleton ds d ih =>
    rw [runAll_concat, mem_handlers_run, ih, List.mem_append, List.mem_singleton, eq_comm]

lemma setting_runAll (dir : Option String) (ds : List (Context × Directive)) (h k : String) :
    setting (runAll ds (initial dir)).server h k =
      lastSome (written h k) (outcomes ds (initial dir)) := by
  induction ds using List.reverseRecOn with
  | nil => rfl
  | append_singleton ds d ih => simp [setting_run, ih]

theorem registry_state_machine (dir : Option String) (ds : List (Context × Directive)) :
    (∀ before context d after, ds = before ++ (context, d) :: after →
      (∀ h k v, d.write = some (h, k, v) →
        ((d.run context (runAll before (initial dir))).1 = none ↔
          context = .server ∧ (Context.server, Directive.gateDeclare h) ∈ before)) ∧
      ((d.run context (runAll before (initial dir))).1 ≠ none →
        (d.run context (runAll before (initial dir))).2.server.handlers =
          (runAll before (initial dir)).server.handlers)) ∧
    ∀ h, (h ∈ (runAll ds (initial dir)).server.handlers ↔
        (Context.server, Directive.gateDeclare h) ∈ ds) ∧
      ∀ k, setting (runAll ds (initial dir)).server h k =
        lastSome (written h k) (outcomes ds (initial dir)) := by
  refine ⟨fun before context d after _ => ⟨fun h k v hw => ?_, run_error_unchanged⟩,
    fun h => ⟨mem_handlers_runAll dir ds h, setting_runAll dir ds h⟩⟩
  rw [run_error_iff hw, mem_handlers_runAll]

end ModGate.Config
