import ModGate.Request.Resolution
import ModGate.Database.Ranges
import ModGate.Gatedb.Index

/-! The lookup of a client's address against the ranges of the table: what it finds and what
it misses. -/

namespace ModGate.Request

open Sql Database Net

structure Queried (w : World) (r : RequestRec) (path : String) (addr : ℕ) : Prop where
  leads : LeadsTo w r path
  opened : (w.sqlite path).openError = none
  client : ∃ a, inetPton r.remoteIp = some a ∧ htonl a.sAddr = addr
  prepared : (w.sqlite path).prepareError = none
  stepped : (w.sqlite path).stepError = none

lemma handler_queried {w : World} {r : RequestRec} {path : String} {addr : ℕ}
    (hq : Queried w r path addr) :
    ∃ r' checked, Configured r r' checked ∧ gateRequestHandler w r =
      finishStep w (r'.call (.sqliteOpen path)) (queryStep (w.sqlite path) addr) := by
  obtain ⟨r', checked, hc, he⟩ := handler_resolved hq.leads.1 hq.leads.2
  obtain ⟨a, ha, haddr⟩ := hq.client
  have hip : inetPton (r'.call (.sqliteOpen path)).remoteIp = some a := by
    rw [← ha, ← hc.remoteIp]
    rfl
  refine ⟨r', checked, hc, ?_⟩
  rw [he]
  simp only [serve, hq.opened, hip, haddr, runQuery, hq.prepared]

lemma handler_found {w : World} {r : RequestRec} {path : String} {addr : ℕ}
    (hq : Queried w r path addr) {row : IpRow}
    (hl : lookup (w.sqlite path).table addr = some row) :
    (gateRequestHandler w r).1 = (if row.httpCode.columnInt = 200 then DECLINED else OK) ∧
      (gateRequestHandler w r).2.status = row.httpCode.columnInt ∧
      (gateRequestHandler w r).2.body = r.body := by
  obtain ⟨r', checked, hc, he⟩ := handler_queried hq
  rw [he]
  simp only [queryStep, hq.stepped, hl, finishStep]
  exact ⟨trivial, rfl, hc.body⟩

lemma handler_not_found {w : World} {r : RequestRec} {path : String} {addr : ℕ}
    (hq : Queried w r path addr) (hl : lookup (w.sqlite path).table addr = none) :
    (gateRequestHandler w r).1 = DECLINED ∧ (gateRequestHandler w r).2.status = r.status ∧
      (gateRequestHandler w r).2.body = r.body := by
  obtain ⟨r', checked, hc, he⟩ := handler_queried hq
  rw [he]
  simp only [queryStep, hq.stepped, hl, finishStep]
  exact ⟨trivial, hc.status, hc.body⟩

/-! Rows with integer bounds. -/

lemma lookupWhere_range {row : IpRow} {s : NonemptyInterval ℤ} (h : rangeOf row = some s)
    (addr : ℕ) : (lookupWhere addr).Holds row.cells ↔ s = .pure (addr : ℤ) := by
  obtain ⟨hs, he⟩ := rangeOf_eq_some_iff.mp h
  rw [← inverted_iff_pure]
  simp [lookupWhere, Term.eval, IpRow.cells, hs, he]

lemma lookup_ranges {t : IpTable} (ht : ∀ row ∈ t.rows, ∃ s, rangeOf row = some s) (addr : ℕ) :
    lookup t addr = t.rows.find? fun row => rangeOf row = some (.pure (addr : ℤ)) := by
  apply selectFirst_congr
  intro row hrow
  obtain ⟨s, hs⟩ := ht row hrow
  rw [lookupWhere_range hs, hs]
  simp

theorem range_completeness_iff {w : World} {r : RequestRec} {path : String} {addr : ℕ}
    (hq : Queried w r path addr)
    (ht : ∀ row ∈ (w.sqlite path).table.rows, ∃ s, rangeOf row = some s) :
    (Covers (w.sqlite path).table addr → ∃ row c,
      lookup (w.sqlite path).table addr = some row ∧ Contains row addr ∧
        row.httpCode = .integer c ∧ (gateRequestHandler w r).2.status = c ∧
        (gateRequestHandler w r).1 = if c = 200 then DECLINED else OK) ↔
      (Covers (w.sqlite path).table addr → ∃ row c,
        (w.sqlite path).table.rows.find? (fun row => rangeOf row = some (.pure (addr : ℤ))) =
          some row ∧ row.httpCode = .integer c ∧ Value.Fits32 c) := by
  refine imp_congr_right fun _ => ?_
  rw [← lookup_ranges ht]
  constructor
  · rintro ⟨row, c, hl, _, hcode, hstatus, _⟩
    refine ⟨row, c, hl, hcode, (Value.bmod_eq_self_iff c).mp ?_⟩
    rw [(handler_found hq hl).2.1, hcode] at hstatus
    exact hstatus
  · rintro ⟨row, c, hl, hcode, hfits⟩
    have hread : row.httpCode.columnInt = c := by
      rw [hcode]
      exact (Value.bmod_eq_self_iff c).mpr hfits
    obtain ⟨hret, hstatus, _⟩ := handler_found hq hl
    rw [hread] at hret hstatus
    refine ⟨row, c, hl, ?_, hcode, hstatus, hret⟩
    rw [lookup_ranges ht] at hl
    exact contains_pure (by simpa using List.find?_some hl)

def rangeRow (low high : ℤ) : IpRow :=
  ⟨1, some "10.0.0.0", some "10.0.0.255", .integer low, .integer high, .integer 404, none, none⟩

def gatedRequest (ip : String) : RequestRec :=
  freshRequest readmeServer (sectionConfig readmeServer none [.gate "MYGATE"]) ip

lemma gatedRequest_queried (t : IpTable) {ip : String} {a : InAddr} (ha : inetPton ip = some a) :
    Queried (calmWorld t) (gatedRequest ip) "/etc/apache2/gate.db" (htonl a.sAddr) where
  leads := by
    refine ⟨?_, by rfl⟩
    rintro ⟨p, _, hp⟩
    cases hp
  opened := rfl
  client := ⟨a, ha, rfl⟩
  prepared := rfl
  stepped := rfl

theorem single_address_blocked :
    let w := calmWorld (oneRow (rangeRow 167772167 167772167))
    (gateRequestHandler w (gatedRequest "10.0.0.7")).2.status = 404 ∧
      (gateRequestHandler w (gatedRequest "10.0.0.7")).1 = OK := by
  intro w
  have hrange : rangeOf (rangeRow 167772167 167772167) = some (.pure 167772167) := by decide
  have hq := gatedRequest_queried (oneRow (rangeRow 167772167 167772167))
    (show inetPton "10.0.0.7" = some ⟨10, 0, 0, 7⟩ by decide)
  have haddr : htonl (InAddr.sAddr ⟨10, 0, 0, 7⟩) = 167772167 := by decide
  rw [haddr] at hq
  obtain ⟨row, c, hl, _, hc, hstatus, hret⟩ := (range_completeness_iff hq (by
      intro row hrow
      obtain rfl := List.mem_singleton.mp hrow
      exact ⟨_, hrange⟩)).mpr
    (fun _ => ⟨rangeRow 167772167 167772167, 404, by decide, rfl, by decide⟩)
    ⟨_, List.mem_singleton_self _, contains_pure hrange⟩
  obtain rfl := List.mem_singleton.mp (selectFirst_holds _ hl).1
  cases hc
  exact ⟨hstatus, hret⟩

theorem range_missed :
    let t := oneRow (rangeRow 167772160 167772415)
    let w := calmWorld t
    Queried w (gatedRequest "10.0.0.7") "/etc/apache2/gate.db" 167772167 ∧
      (∀ row ∈ t.rows, ∃ s, rangeOf row = some s) ∧ Covers t 167772167 ∧
      (gateRequestHandler w (gatedRequest "10.0.0.7")).1 = DECLINED ∧
      ¬ (Covers t 167772167 → ∃ row c, lookup t 167772167 = some row ∧ Contains row 167772167 ∧
        row.httpCode = .integer c ∧
        (gateRequestHandler w (gatedRequest "10.0.0.7")).2.status = c ∧
        (gateRequestHandler w (gatedRequest "10.0.0.7")).1 = if c = 200 then DECLINED else OK) := by
  intro t w
  have hrange : rangeOf (rangeRow 167772160 167772415) =
      some ⟨(167772160, 167772415), by decide⟩ := by decide
  have hcovers : Covers t 167772167 :=
    ⟨_, List.mem_singleton_self _, _, hrange, NonemptyInterval.mem_mk.mpr ⟨by decide, by decide⟩⟩
  refine ⟨gatedRequest_queried t (show inetPton "10.0.0.7" = some ⟨10, 0, 0, 7⟩ by decide), ?_,
    hcovers, by decide, fun h => ?_⟩
  · intro row hrow
    obtain rfl := List.mem_singleton.mp hrow
    exact ⟨_, hrange⟩
  · obtain ⟨row, _, hl, _⟩ := h hcovers
    have hnone : lookup t 167772167 = none := by decide
    simp [hnone] at hl

/-! Rows without complete bounds. -/

lemma lookupWhere_plain {row : IpRow} (hs : PlainBound row.startBound)
    (he : PlainBound row.endBound)
    (hle : ∀ i j, row.startBound = .integer i → row.endBound = .integer j → i ≤ j) (addr : ℕ) :
    (lookupWhere addr).Holds row.cells ↔ rangeOf row = some (.pure (addr : ℤ)) ∨
      row.startBound = .text "" ∧ ∃ j : ℤ, row.endBound = .integer j ∧ j ≤ addr := by
  rcases hs with hs | hs | ⟨i, hs⟩
  · simp [lookupWhere, Term.eval, IpRow.cells, hs, rangeOf_eq_some_iff]
  · rcases he with he | he | ⟨j, he⟩ <;>
      simp [lookupWhere, Term.eval, IpRow.cells, hs, he, rangeOf_eq_some_iff, Comparison.test]
  · rcases he with he | he | ⟨j, he⟩
    · simp [lookupWhere, Term.eval, IpRow.cells, hs, he, rangeOf_eq_some_iff]
    · simp [lookupWhere, Term.eval, IpRow.cells, hs, he, rangeOf_eq_some_iff, Comparison.test]
    · have hr : rangeOf row = some ⟨(i, j), hle i j hs he⟩ := rangeOf_eq_some_iff.mpr ⟨hs, he⟩
      rw [lookupWhere_range hr, hr]
      simp [hs]

lemma contains_indexed {row : IpRow} {addr : ℤ} (h : Contains row addr) :
    ¬ Gatedb.Unindexed row := by
  obtain ⟨s, hs, _⟩ := h
  obtain ⟨hl, hr⟩ := rangeOf_eq_some_iff.mp hs
  exact Gatedb.indexed_of_integers hl hr

theorem lookup_soundness_iff (t : IpTable) (addr : ℕ)
    (hb : ∀ row ∈ t.rows, PlainBound row.startBound ∧ PlainBound row.endBound ∧
      ∀ i j, row.startBound = .integer i → row.endBound = .integer j → i ≤ j) :
    (∀ row, lookup t addr = some row → Contains row addr ∧ ¬ Gatedb.Unindexed row) ↔
      ∀ before row after, t.rows = before ++ row :: after → row.startBound = .text "" →
        (∃ j : ℤ, row.endBound = .integer j ∧ j ≤ addr) →
        ∃ q ∈ before, rangeOf q = some (.pure (addr : ℤ)) := by
  have hwhere : ∀ row ∈ t.rows, (lookupWhere addr).Holds row.cells ↔
      rangeOf row = some (.pure (addr : ℤ)) ∨
        row.startBound = .text "" ∧ ∃ j : ℤ, row.endBound = .integer j ∧ j ≤ addr :=
    fun row hrow => lookupWhere_plain (hb row hrow).1 (hb row hrow).2.1 (hb row hrow).2.2 addr
  constructor
  · intro h before row after hrows hs he
    have hhalf : ¬ Contains row addr := by
      rintro ⟨s, hr, _⟩
      simp [(rangeOf_eq_some_iff.mp hr).1] at hs
    have hrow : (lookupWhere addr).Holds row.cells :=
      (hwhere row (by simp [hrows])).mpr (Or.inr ⟨hs, he⟩)
    have hl := selectFirst_of_holds IpRow.cells hrow before after
    rw [← hrows] at hl
    rcases hl with hl | ⟨q, hq, hl⟩
    · exact (hhalf (h row hl).1).elim
    · have hpure := (hwhere q (by simp [hrows, hq])).mp (selectFirst_holds _ hl).2
      refine ⟨q, hq, hpure.resolve_right ?_⟩
      rintro ⟨hqs, _⟩
      obtain ⟨s, hr, _⟩ := (h q hl).1
      simp [(rangeOf_eq_some_iff.mp hr).1] at hqs
  · intro h row hl
    obtain ⟨hw, before, after, hrows, hbefore⟩ := (selectFirst_eq_some _).mp hl
    have hpure : rangeOf row = some (.pure (addr : ℤ)) := by
      refine ((hwhere row (by simp [hrows])).mp hw).resolve_right ?_
      rintro ⟨hs, he⟩
      obtain ⟨q, hq, hr⟩ := h before row after hrows hs he
      exact hbefore q hq ((hwhere q (by simp [hrows, hq])).mpr (Or.inl hr))
    exact ⟨contains_pure hpure, contains_indexed (contains_pure hpure)⟩

def openEndedRow : IpRow :=
  ⟨1, some "10.0.0.0", some "10.0.0.0", .text "", .integer 167772160, .integer 404, none, none⟩

theorem single_range_sound :
    let t := oneRow (rangeRow 167772167 167772167)
    lookup t 167772167 = some (rangeRow 167772167 167772167) ∧
      ∀ row, lookup t 167772167 = some row → Contains row 167772167 ∧ ¬ Gatedb.Unindexed row := by
  intro t
  refine ⟨by decide, (lookup_soundness_iff t 167772167 ?_).mpr ?_⟩
  · simp [t, oneRow, rangeRow, PlainBound]
  · intro before row after hrows hs
    obtain rfl : row = rangeRow 167772167 167772167 := by
      apply List.mem_singleton.mp
      rw [show [rangeRow 167772167 167772167] = before ++ row :: after from hrows]
      simp
    simp [rangeRow] at hs

theorem unindexed_row_blocks :
    let t := oneRow openEndedRow
    let w := calmWorld t
    (∀ row ∈ t.rows, PlainBound row.startBound ∧ PlainBound row.endBound ∧
      ∀ i j, row.startBound = .integer i → row.endBound = .integer j → i ≤ j) ∧
      Gatedb.Unindexed openEndedRow ∧ lookup t 3221225985 = some openEndedRow ∧
      (gateRequestHandler w (gatedRequest "192.0.2.1")).1 = OK ∧
      (gateRequestHandler w (gatedRequest "192.0.2.1")).2.status = 404 ∧
      ¬ ∀ row, lookup t 3221225985 = some row →
        Contains row 3221225985 ∧ ¬ Gatedb.Unindexed row := by
  refine ⟨by simp [oneRow, openEndedRow, PlainBound], by decide, by decide, by decide, by decide,
    fun h => ?_⟩
  exact (h openEndedRow (by decide)).2 (by decide)

end ModGate.Request
