import ModGate.Tools.Gatelog
import ModGate.Request.Lookup

/-! The three programs in a row: `gatelog` fills the database that `gatedb` created, `gatedb`
indexes it, and the module answers from it. -/

namespace ModGate.Tools

open Database Gatedb Net Request

def Offender (log : List LogLine) (a : InAddr) : Prop :=
  ∃ line ∈ log, line.Offends ∧ inetPton line.host = some a

def pipeline (raises : Bool) (log : List LogLine) (env : IndexEnv) (t : IpTable) : IpTable :=
  (indexDatabase env (processLog raises log t)).table

lemma createDatabase_eq_some {readable openFails executeFails : Bool} {t : IpTable}
    (h : createDatabase readable openFails executeFails = (0, some t)) : t = emptyIp := by
  cases readable <;> cases openFails <;> cases executeFails <;>
    simp [createDatabase, eq_comm] at h
  exact h

lemma pipeline_rows {env : IndexEnv} (hn : env.NoFailure) (raises : Bool) (log : List LogLine) :
    (pipeline raises log env emptyIp).rows = [] := by
  have hlog : processLog raises log emptyIp = emptyIp := processLog_missing (by decide) raises log
  have ht : Convertible emptyIp := fun r hr => absurd hr List.not_mem_nil
  rw [pipeline, hlog, (indexDatabase_rows hn ht).2.2]
  rfl

lemma empty_declines {w : World} {r : RequestRec} {path : String} {addr : ℕ}
    (hq : Queried w r path addr) (ht : (w.sqlite path).table.rows = []) :
    (gateRequestHandler w r).1 = DECLINED :=
  (handler_not_found hq (by simp [lookup, ht, Sql.selectFirst])).1

theorem pipeline_iff {readable openFails executeFails : Bool} {t : IpTable}
    (hcreate : createDatabase readable openFails executeFails = (0, some t)) {log : List LogLine}
    (hlog : ∀ line ∈ log, (inetPton line.host).isSome) (raises : Bool) {env : IndexEnv}
    (hn : env.NoFailure) {w : World} {r : RequestRec} {path : String} (hl : LeadsTo w r path)
    (hw : w.sqlite path = ⟨none, none, none, pipeline raises log env t⟩) :
    (∀ ip a, inetPton ip = some a →
      (Offender log a → (gateRequestHandler w { r with remoteIp := ip }).1 = OK ∧
        (gateRequestHandler w { r with remoteIp := ip }).2.status = 404) ∧
      (¬ Offender log a → (gateRequestHandler w { r with remoteIp := ip }).1 = DECLINED)) ↔
      ∀ line ∈ log, ¬ line.Offends := by
  have hdeclined : ∀ ip a, inetPton ip = some a →
      (gateRequestHandler w { r with remoteIp := ip }).1 = DECLINED := by
    intro ip a ha
    have hq : Queried w { r with remoteIp := ip } path (htonl a.sAddr) :=
      ⟨hl, by rw [hw], ⟨a, ha, rfl⟩, by rw [hw], by rw [hw]⟩
    apply empty_declines hq
    rw [hw, createDatabase_eq_some hcreate]
    exact pipeline_rows hn raises log
  constructor
  · intro h line hline hoff
    obtain ⟨a, ha⟩ := Option.isSome_iff_exists.mp (hlog line hline)
    have hok := ((h line.host a ha).1 ⟨line, hline, hoff, ha⟩).1
    rw [hdeclined line.host a ha] at hok
    simp [OK, DECLINED] at hok
  · intro h ip a ha
    refine ⟨?_, fun _ => hdeclined ip a ha⟩
    rintro ⟨line, hline, hoff, _⟩
    exact (h line hline hoff).elim

def logLine (userAgent : String) : LogLine := ⟨"10.0.0.7", "-", userAgent, by decide⟩

theorem harmless_log_served :
    let log := [logLine "curl"]
    let w := calmWorld (pipeline false log calmIndex emptyIp)
    ¬ Offender log ⟨10, 0, 0, 7⟩ ∧
      (gateRequestHandler w (gatedRequest "10.0.0.7")).1 = DECLINED := by
  intro log w
  have hharmless : ∀ line ∈ log, ¬ line.Offends := by decide +kernel
  have hnot : ¬ Offender log ⟨10, 0, 0, 7⟩ := fun ⟨line, hline, hoff, _⟩ =>
    hharmless line hline hoff
  have hip : inetPton "10.0.0.7" = some ⟨10, 0, 0, 7⟩ := by decide
  have hq := gatedRequest_queried (pipeline false log calmIndex emptyIp) hip
  have hcreate : createDatabase false false false = (0, some emptyIp) := rfl
  have hserved := (pipeline_iff hcreate (by decide) false calmIndex_noFailure hq.leads rfl).mpr
    hharmless
  exact ⟨hnot, (hserved "10.0.0.7" _ hip).2 hnot⟩

theorem crawler_not_blocked :
    let log := [logLine "Baiduspider"]
    let t := pipeline false log calmIndex emptyIp
    createDatabase false false false = (0, some emptyIp) ∧ Offender log ⟨10, 0, 0, 7⟩ ∧
      t.rows = [] ∧
      (gateRequestHandler (calmWorld t) (gatedRequest "10.0.0.7")).1 = DECLINED ∧
      ¬ (Offender log ⟨10, 0, 0, 7⟩ →
        (gateRequestHandler (calmWorld t) (gatedRequest "10.0.0.7")).1 = OK ∧
          (gateRequestHandler (calmWorld t) (gatedRequest "10.0.0.7")).2.status = 404) := by
  intro log t
  have hoff : Offender log ⟨10, 0, 0, 7⟩ :=
    ⟨logLine "Baiduspider", List.mem_singleton_self _, by decide, by decide⟩
  have hrows : t.rows = [] := pipeline_rows calmIndex_noFailure false log
  have hq := gatedRequest_queried t (show inetPton "10.0.0.7" = some ⟨10, 0, 0, 7⟩ by decide)
  have hd := empty_declines hq hrows
  refine ⟨rfl, hoff, hrows, hd, fun h => ?_⟩
  have hok := (h hoff).1
  rw [hd] at hok
  simp [OK, DECLINED] at hok

end ModGate.Tools
