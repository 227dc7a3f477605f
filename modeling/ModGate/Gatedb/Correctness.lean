import ModGate.Gatedb.Index
import Mathlib.Data.List.Forall2

/-! What a run of `index_database` without failures does to a table: it completes the rows whose
bounds are missing, each from its own texts, and a second run finds nothing left to do. -/

namespace ModGate.Gatedb

open Sql Database Net

def IntegerBounds (r : IpRow) : Prop :=
  (∃ i, r.startBound = .integer i) ∧ ∃ j, r.endBound = .integer j

lemma unindexed_iff_not_integers {r : IpRow} (hs : PlainBound r.startBound)
    (he : PlainBound r.endBound) : Unindexed r ↔ ¬ IntegerBounds r := by
  constructor
  · rintro hu ⟨⟨i, hi⟩, j, hj⟩
    exact indexed_of_integers hi hj hu
  · intro hn
    rw [unindexed_iff, emptyLength_iff (c := Column.startBound) hs,
      emptyLength_iff (c := Column.endBound) he]
    simp only [IntegerBounds, not_and_or] at hn
    simp only [IpRow.cells]
    rcases hn with hn | hn
    · rcases hs with h | h | h
      · exact Or.inr (Or.inr (Or.inl h))
      · exact Or.inl h
      · exact (hn h).elim
    · rcases he with h | h | h
      · exact Or.inr (Or.inr (Or.inr h))
      · exact Or.inr (Or.inl h)
      · exact (hn h).elim

/-- The texts of a row are dotted quads, and `a` and `b` are the addresses they name. -/
def Names (r : IpRow) (a b : InAddr) : Prop :=
  r.startText.bind inetPton = some a ∧ r.endText.bind inetPton = some b

lemma Names.ownBounds {r : IpRow} {a b : InAddr} (h : Names r a b) :
    ownBounds r = some (a, b) := by
  simp [Gatedb.ownBounds, h.1, h.2]

/-- One row before and after the run. -/
def Completed (r r' : IpRow) : Prop :=
  (IntegerBounds r → r' = r) ∧
    (¬ IntegerBounds r → ∃ a b, Names r a b ∧
      r' = { r with startBound := .integer a.value, endBound := .integer b.value })

lemma Completed.integerBounds {r r' : IpRow} (h : Completed r r') : IntegerBounds r' := by
  by_cases hi : IntegerBounds r
  · rw [h.1 hi]
    exact hi
  · obtain ⟨a, b, -, rfl⟩ := h.2 hi
    exact ⟨⟨a.value, rfl⟩, b.value, rfl⟩

lemma reindex_completed {r : IpRow} (hs : PlainBound r.startBound) (he : PlainBound r.endBound)
    (hv : ¬ IntegerBounds r → ∃ a b, Names r a b) : Completed r (reindex r) := by
  have hu := unindexed_iff_not_integers hs he
  constructor
  · intro hi
    exact reindex_of_indexed fun h => hu.mp h hi
  · intro hi
    obtain ⟨a, b, hn⟩ := hv hi
    exact ⟨a, b, hn, reindex_of_bounds (hu.mpr hi) hn.ownBounds⟩

lemma indexDatabase_of_integers {env : IndexEnv} (hn : env.NoFailure) {t : IpTable}
    (h : ∀ r ∈ t.rows, IntegerBounds r) : (indexDatabase env t).table = t := by
  have hi : ∀ r ∈ t.rows, ¬ Unindexed r := by
    intro r hr
    obtain ⟨⟨i, hi⟩, j, hj⟩ := h r hr
    exact indexed_of_integers hi hj
  obtain ⟨-, hc, hr⟩ := indexDatabase_rows hn (t := t) fun r hr hu => (hi r hr hu).elim
  refine IpTable.ext hc (hr.trans ?_)
  calc t.rows.map reindex = t.rows.map (fun r => r) :=
        List.map_congr_left fun r hr => reindex_of_indexed (hi r hr)
    _ = t.rows := List.map_id' t.rows

theorem indexDatabase_completes {env env' : IndexEnv} (hn : env.NoFailure) (hn' : env'.NoFailure)
    (t : IpTable) (hids : ∀ r ∈ t.rows, Value.Fits32 r.id)
    (hb : ∀ r ∈ t.rows, PlainBound r.startBound ∧ PlainBound r.endBound)
    (hv : ∀ r ∈ t.rows, ¬ IntegerBounds r → ∃ a b, Names r a b) :
    (indexDatabase env t).exit = some 0 ∧ (indexDatabase env t).table.columns = t.columns ∧
      List.Forall₂ Completed t.rows (indexDatabase env t).table.rows ∧
      (indexDatabase env' (indexDatabase env t).table).table = (indexDatabase env t).table ∧
      ∀ a b : InAddr, a.value < b.value ↔ a.octets < b.octets := by
  have hconv : Convertible t := by
    intro r hr hu
    obtain ⟨a, b, hab⟩ := hv r hr ((unindexed_iff_not_integers (hb r hr).1 (hb r hr).2).mp hu)
    exact ⟨by simp [hab.ownBounds], hids r hr⟩
  obtain ⟨hexit, hcols, hrows⟩ := indexDatabase_rows hn hconv
  have hcomp : ∀ r ∈ t.rows, Completed r (reindex r) := fun r hr =>
    reindex_completed (hb r hr).1 (hb r hr).2 (hv r hr)
  refine ⟨hexit, hcols, ?_, indexDatabase_of_integers hn' ?_, InAddr.value_lt_iff⟩
  · rw [hrows, List.forall₂_map_right_iff, List.forall₂_same]
    exact hcomp
  · intro q hq
    rw [hrows] at hq
    obtain ⟨r, hr, rfl⟩ := List.mem_map.mp hq
    exact (hcomp r hr).integerBounds

def halfIndexed : IpTable where
  columns := emptyIp.columns
  rows :=
    [⟨1, some "10.0.0.1", some "10.0.0.2", .integer 167772161, .integer 167772162, .integer 404,
        none, none⟩,
      ⟨2, some "192.0.2.1", some "192.0.2.9", .text "", .null, .integer 403, none, none⟩]
  ordered := by decide

theorem halfIndexed_completed :
    let after := indexDatabase calmIndex halfIndexed
    after.table.rows.map (fun r => (r.id, r.startBound, r.endBound)) =
        [(1, .integer 167772161, .integer 167772162),
          (2, .integer 3221225985, .integer 3221225993)] ∧
      List.Forall₂ Completed halfIndexed.rows after.table.rows ∧
      (indexDatabase calmIndex after.table).table = after.table := by
  have hall := indexDatabase_completes calmIndex_noFailure calmIndex_noFailure halfIndexed
    (by simp [halfIndexed, Value.Fits32]) (by simp [halfIndexed, PlainBound]) (by
      have ha : inetPton "192.0.2.1" = some ⟨192, 0, 2, 1⟩ := by decide
      have hb : inetPton "192.0.2.9" = some ⟨192, 0, 2, 9⟩ := by decide
      simp [halfIndexed, IntegerBounds, Names, ha, hb])
  exact ⟨by decide, hall.2.2.1, hall.2.2.2.1⟩

end ModGate.Gatedb
