import ModGate.Request.Lookup

/-! What a declined request looks like to the next handler of Apache. -/

namespace ModGate.Request

open Sql Database Net

def Untouched (r r' : RequestRec) : Prop := r'.body = r.body ∧ r'.status = r.status

def Whitelisted (w : World) (r : RequestRec) : Prop :=
  ∃ path addr row, Queried w r path addr ∧ lookup (w.sqlite path).table addr = some row ∧
    row.httpCode.columnInt = 200

lemma append_ne_self {s t : String} (h : t ≠ "") : s ++ t ≠ s := by
  intro he
  have hl := congrArg String.length he
  rw [String.length_append] at hl
  exact h (String.length_eq_zero_iff.mp (by omega))

lemma Configured.untouched {r r' : RequestRec} {checked : List String}
    (h : Configured r r' checked) : Untouched r r' :=
  ⟨h.body, h.status⟩

lemma refused_touched {w : World} {r : RequestRec} (h : Refused w r) :
    (gateRequestHandler w r).1 = DECLINED ∧ ¬ Untouched r (gateRequestHandler w r).2 := by
  obtain ⟨r', checked, hc, he⟩ := handler_refused h
  rw [he]
  refine ⟨rfl, fun hu => ?_⟩
  have hbody : r'.body ++ ("ModGate: " ++ "GateDefaultDatabase unreadable or does not exists.") =
      r'.body := hu.1.trans hc.body.symm
  exact append_ne_self (by decide) hbody

lemma serve_untouched {w : World} {r : RequestRec} {path : String} (hl : LeadsTo w r path)
    (hn : ∀ addr row, Queried w r path addr → lookup (w.sqlite path).table addr ≠ some row)
    (hd : (gateRequestHandler w r).1 = DECLINED) : Untouched r (gateRequestHandler w r).2 := by
  obtain ⟨r', checked, hc, he⟩ := handler_resolved hl.1 hl.2
  rw [he] at hd ⊢
  have hip : (r'.call (.sqliteOpen path)).remoteIp = r.remoteIp := hc.remoteIp
  cases ho : (w.sqlite path).openError with
  | some errmsg => simp [serve, ho, DECLINED] at hd
  | none =>
    cases ha : inetPton r.remoteIp with
    | none =>
      simp only [serve, ho, hip, ha]
      exact hc.untouched
    | some a =>
      cases hp : (w.sqlite path).prepareError with
      | some e =>
        simp [serve, ho, hip, ha, runQuery, hp, prepareFailed, OK, DECLINED] at hd
      | none =>
        cases hs : (w.sqlite path).stepError with
        | some code =>
          simp only [serve, ho, hip, ha, runQuery, hp, queryStep, hs, finishStep]
          exact hc.untouched
        | none =>
          have hq : Queried w r path (htonl a.sAddr) := ⟨hl, ho, ⟨a, ha, rfl⟩, hp, hs⟩
          have hnone : lookup (w.sqlite path).table (htonl a.sAddr) = none :=
            Option.eq_none_iff_forall_ne_some.mpr fun row => hn _ row hq
          obtain ⟨_, hstatus, hbody⟩ := handler_not_found hq hnone
          rw [← he]
          exact ⟨hbody, hstatus⟩

lemma found_untouched_iff {w : World} {r : RequestRec} {path : String} {addr : ℕ} {row : IpRow}
    (hq : Queried w r path addr) (hl : lookup (w.sqlite path).table addr = some row) :
    ((gateRequestHandler w r).1 = DECLINED → Untouched r (gateRequestHandler w r).2) ↔
      (row.httpCode.columnInt = 200 → r.status = 200) := by
  obtain ⟨hret, hstatus, hbody⟩ := handler_found hq hl
  rw [hret, Untouched, hstatus]
  by_cases hc : row.httpCode.columnInt = 200
  · simp [hc, hbody, eq_comm]
  · simp [hc, OK, DECLINED]

lemma Queried.unique {w : World} {r : RequestRec} {path path' : String} {addr addr' : ℕ}
    (h : Queried w r path addr) (h' : Queried w r path' addr') : path = path' ∧ addr = addr' := by
  obtain ⟨a, ha, rfl⟩ := h.client
  obtain ⟨b, hb, rfl⟩ := h'.client
  have hpath : some path = some path' := h.leads.2.symm.trans h'.leads.2
  have haddr : some a = some b := ha.symm.trans hb
  cases hpath
  cases haddr
  exact ⟨rfl, rfl⟩

theorem declined_untouched_iff (w : World) (r : RequestRec) :
    ((gateRequestHandler w r).1 = DECLINED → Untouched r (gateRequestHandler w r).2) ↔
      ¬ Refused w r ∧ (Whitelisted w r → r.status = 200) := by
  by_cases hr : Refused w r
  · obtain ⟨hd, ht⟩ := refused_touched hr
    simp [hr, hd, ht]
  · simp only [hr, not_false_eq_true, true_and]
    by_cases hf : ∃ path addr row, Queried w r path addr ∧
        lookup (w.sqlite path).table addr = some row
    · obtain ⟨path, addr, row, hq, hl⟩ := hf
      rw [found_untouched_iff hq hl]
      have hw : Whitelisted w r ↔ row.httpCode.columnInt = 200 := by
        refine ⟨?_, fun hc => ⟨path, addr, row, hq, hl, hc⟩⟩
        rintro ⟨path', addr', row', hq', hl', hc⟩
        obtain ⟨rfl, rfl⟩ := hq.unique hq'
        rw [hl] at hl'
        cases hl'
        exact hc
      rw [hw]
    · have hw : ¬ Whitelisted w r := fun ⟨path, addr, row, hq, hl, _⟩ =>
        hf ⟨path, addr, row, hq, hl⟩
      refine iff_of_true (fun hd => ?_) fun h => (hw h).elim
      cases hp : resolvedDatabase r with
      | none =>
        obtain ⟨r', checked, hc, he⟩ := handler_unresolved hr hp
        rw [he]
        exact hc.untouched
      | some path =>
        exact serve_untouched ⟨hr, hp⟩ (fun addr row hq hl => hf ⟨path, addr, row, hq, hl⟩) hd

theorem declined_but_touched :
    (let w : World := ⟨fun _ => false, fun _ => ⟨none, none, none, emptyIp⟩, 1⟩
     let result := gateRequestHandler w (gatedRequest "10.0.0.7")
     result.1 = DECLINED ∧
       result.2.body = "ModGate: GateDefaultDatabase unreadable or does not exists.") ∧
    (let w := calmWorld (oneRow
       ⟨1, some "10.0.0.7", some "10.0.0.7", .integer 167772167, .integer 167772167, .integer 200,
         none, none⟩)
     let result := gateRequestHandler w { gatedRequest "10.0.0.7" with status := 503 }
     result.1 = DECLINED ∧ result.2.status = 200) ∧
    ¬ ∀ w r, (gateRequestHandler w r).1 = DECLINED → Untouched r (gateRequestHandler w r).2 := by
  refine ⟨⟨by decide, by decide⟩, ⟨by decide, by decide⟩, fun h => ?_⟩
  have hbody := (h ⟨fun _ => false, fun _ => ⟨none, none, none, emptyIp⟩, 1⟩
    (gatedRequest "10.0.0.7") (by decide)).1
  revert hbody
  decide

end ModGate.Request
