import ModGate.Gatedb.Index

/-! The script `tools/index.rb`, which completes each bound by itself, and the comparison with
the indexer of `gatedb`, which rewrites both. -/

namespace ModGate.Tools

open Sql Database Net Gatedb

-- The driver presents NULL and the empty text as empty strings.
def Blank (v : Value) : Prop := v = .null ∨ v = .text ""

instance (v : Value) : Decidable (Blank v) := inferInstanceAs (Decidable (_ ∨ _))

variable (ipAddr : String → Option ℕ)

-- The entry of `updates` for one column; an exception of `IPAddr.new` ends the script.
def updateEntry (bound : Value) (text : Option String) : Option (Option ℕ) :=
  if Blank bound then (ipAddr (text.getD "")).map some else some none

def assign (startNew endNew : Option ℕ) (r : IpRow) : IpRow :=
  { r with
    startBound := startNew.elim r.startBound fun n => .integer n
    endBound := endNew.elim r.endBound fun n => .integer n }

def indexRbLoop : List IpRow → IpTable → Option IpTable
  | [], t => some t
  | r :: rows, t => do
    let startNew ← updateEntry ipAddr r.startBound r.startText
    let endNew ← updateEntry ipAddr r.endBound r.endText
    if startNew.isSome || endNew.isSome then
      indexRbLoop rows (t.updateId r.id (assign startNew endNew) fun _ => rfl)
    else indexRbLoop rows t

-- An exception leaves the transaction without its `COMMIT`.
def indexRb (t : IpTable) : IpTable := (indexRbLoop ipAddr t.rows t).getD t

def complete (r : IpRow) : IpRow :=
  match ownBounds r with
  | some (a, b) => assign (if Blank r.startBound then some a.value else none)
      (if Blank r.endBound then some b.value else none) r
  | none => r

variable {ipAddr}

lemma updateEntry_of_address (hip : ∀ s a, inetPton s = some a → ipAddr s = some a.value)
    (bound : Value) {s : String} {a : InAddr} (ha : inetPton s = some a) :
    updateEntry ipAddr bound (some s) = some (if Blank bound then some a.value else none) := by
  by_cases h : Blank bound <;> simp [updateEntry, h, hip s a ha]

lemma indexRbLoop_cons {r : IpRow} {startNew endNew : Option ℕ}
    (hs : updateEntry ipAddr r.startBound r.startText = some startNew)
    (he : updateEntry ipAddr r.endBound r.endText = some endNew) (rows : List IpRow)
    (t : IpTable) :
    indexRbLoop ipAddr (r :: rows) t =
      indexRbLoop ipAddr rows (t.updateId r.id (assign startNew endNew) fun _ => rfl) := by
  simp only [indexRbLoop, hs, he, Option.bind_eq_bind, Option.bind_some]
  cases startNew with
  | some n => rfl
  | none =>
    cases endNew with
    | some n => rfl
    | none => exact congrArg (indexRbLoop ipAddr rows) updateId_id.symm

lemma indexRbLoop_rows (hip : ∀ s a, inetPton s = some a → ipAddr s = some a.value)
    (before rows : List IpRow) (t : IpTable) (ht : t.rows = before ++ rows)
    (hv : ∀ r ∈ rows, (ownBounds r).isSome) :
    ∃ u, indexRbLoop ipAddr rows t = some u ∧ u.rows = before ++ rows.map complete := by
  induction rows generalizing before t with
  | nil => exact ⟨t, rfl, by simpa using ht⟩
  | cons r rows ih =>
    obtain ⟨⟨a, b⟩, hb⟩ := Option.isSome_iff_exists.mp (hv r (by simp))
    obtain ⟨s, e, hs, he, ha, hbb⟩ := ownBounds_eq_some hb
    have hsn := updateEntry_of_address hip r.startBound ha
    have hen := updateEntry_of_address hip r.endBound hbb
    have hnodup : ((before ++ r :: rows).map IpRow.id).Nodup := ht ▸ t.ids_nodup
    rw [indexRbLoop_cons (hs ▸ hsn) (he ▸ hen)]
    have hrows := rewrite_own IpRow.id hnodup
      (f := assign (if Blank r.startBound then some a.value else none)
        (if Blank r.endBound then some b.value else none))
    obtain ⟨u, hu, hur⟩ := ih (before ++ [complete r])
      (t.updateId r.id (assign _ _) fun _ => rfl) (by
        simp only [IpTable.updateId, ht, complete, hb]
        rw [hrows, List.append_assoc]
        rfl) fun q hq => hv q (List.mem_cons_of_mem r hq)
    exact ⟨u, hu, by simpa using hur⟩

lemma indexRb_rows (hip : ∀ s a, inetPton s = some a → ipAddr s = some a.value) {t : IpTable}
    (hv : ∀ r ∈ t.rows, (ownBounds r).isSome) :
    (indexRb ipAddr t).rows = t.rows.map complete := by
  obtain ⟨u, hu, hur⟩ := indexRbLoop_rows hip [] t.rows t rfl hv
  simpa [indexRb, hu] using hur

def bounds (r : IpRow) : Value × Value := (r.startBound, r.endBound)

lemma not_blank_integer {v : Value} (h : PlainBound v) : ¬ Blank v ↔ ∃ i, v = .integer i := by
  rcases h with rfl | rfl | ⟨i, rfl⟩ <;> simp [Blank]

lemma unindexed_iff_blank {r : IpRow} (hs : PlainBound r.startBound)
    (he : PlainBound r.endBound) : Unindexed r ↔ Blank r.startBound ∨ Blank r.endBound := by
  rw [unindexed_iff, emptyLength_iff (c := Column.startBound) hs,
    emptyLength_iff (c := Column.endBound) he]
  simp only [IpRow.cells, Blank]
  tauto

lemma completed_bound_iff {v : Value} (hv : PlainBound v) (n : ℕ) :
    Value.integer n = (if Blank v then some n else none).elim v (fun m : ℕ => .integer m) ↔
      ∀ i, v = .integer i → i = n := by
  by_cases hb : Blank v
  · have hne : ∀ i, v ≠ .integer i := fun i hi => by simp [hi, Blank] at hb
    simp [hb, hne]
  · obtain ⟨i, rfl⟩ := (not_blank_integer hv).mp hb
    simp [hb, eq_comm]

lemma reindex_eq_complete_iff {r : IpRow} {a b : InAddr} (hb : ownBounds r = some (a, b))
    (hs : PlainBound r.startBound) (he : PlainBound r.endBound) :
    bounds (reindex r) = bounds (complete r) ↔
      (Unindexed r → (∀ i, r.startBound = .integer i → i = a.value) ∧
        ∀ j, r.endBound = .integer j → j = b.value) := by
  by_cases hu : Unindexed r
  · simp only [reindex_of_bounds hu hb, complete, hb, bounds, assign, Prod.mk.injEq,
      completed_bound_iff hs, completed_bound_iff he, hu, true_implies]
  · have hbl := (unindexed_iff_blank hs he).not.mp hu
    rw [not_or] at hbl
    simp [reindex_of_indexed hu, complete, hb, assign, hbl.1, hbl.2, hu]

theorem indexers_agree_iff {env : IndexEnv} (hn : env.NoFailure)
    (hip : ∀ s a, inetPton s = some a → ipAddr s = some a.value) (t : IpTable)
    (hv : ∀ r ∈ t.rows, (ownBounds r).isSome) (hids : ∀ r ∈ t.rows, Value.Fits32 r.id)
    (hb : ∀ r ∈ t.rows, PlainBound r.startBound ∧ PlainBound r.endBound) :
    (indexDatabase env t).table.rows.map bounds = (indexRb ipAddr t).rows.map bounds ↔
      ∀ r ∈ t.rows, ∀ a b, ownBounds r = some (a, b) → Unindexed r →
        (∀ i, r.startBound = .integer i → i = a.value) ∧
          ∀ j, r.endBound = .integer j → j = b.value := by
  rw [(indexDatabase_rows hn fun r hr _ => ⟨hv r hr, hids r hr⟩).2.2, indexRb_rows hip hv,
    List.map_map, List.map_map, List.map_inj_left]
  refine forall₂_congr fun r hr => ?_
  obtain ⟨⟨a, b⟩, hab⟩ := Option.isSome_iff_exists.mp (hv r hr)
  have hrow := reindex_eq_complete_iff hab (hb r hr).1 (hb r hr).2
  simp only [Function.comp_apply, hrow, hab, Option.some.injEq, Prod.mk.injEq]
  constructor
  · rintro h a' b' ⟨rfl, rfl⟩
    exact h
  · intro h
    exact h a b ⟨rfl, rfl⟩

def quadToInt (s : String) : Option ℕ := (inetPton s).map InAddr.value

def halfRow (start : ℤ) : IpRow :=
  ⟨1, some "10.0.0.0", some "10.0.0.255", .integer start, .null, .integer 404, none, none⟩

theorem indexers_agree_on_consistent_row :
    (indexDatabase calmIndex (oneRow (halfRow 167772160))).table.rows.map bounds =
      (indexRb quadToInt (oneRow (halfRow 167772160))).rows.map bounds := by
  apply (indexers_agree_iff calmIndex_noFailure (fun s a h => by simp [quadToInt, h])
    (oneRow (halfRow 167772160)) ?_ ?_ ?_).mpr
  · simp only [oneRow, List.mem_singleton, forall_eq]
    intro a b hab _
    obtain ⟨rfl, rfl⟩ : (⟨10, 0, 0, 0⟩ : InAddr) = a ∧ (⟨10, 0, 0, 255⟩ : InAddr) = b := by
      have h : ownBounds (halfRow 167772160) = some (⟨10, 0, 0, 0⟩, ⟨10, 0, 0, 255⟩) := by decide
      simpa [h] using hab
    simp [halfRow, InAddr.value]
  · simp only [oneRow, List.mem_singleton, forall_eq]
    decide
  · simp [oneRow, halfRow, Value.Fits32]
  · simp [oneRow, halfRow, PlainBound]

theorem indexers_differ_on_half_indexed_row :
    let t := oneRow (halfRow 5)
    ((∀ r ∈ t.rows, (ownBounds r).isSome ∧ Value.Fits32 r.id) ∧
      ∀ r ∈ t.rows, PlainBound r.startBound ∧ PlainBound r.endBound) ∧
      (indexDatabase calmIndex t).table.rows.map bounds =
        [(.integer 167772160, .integer 167772415)] ∧
      (indexRb quadToInt t).rows.map bounds = [(.integer 5, .integer 167772415)] ∧
      (indexDatabase calmIndex t).table.rows.map bounds ≠
        (indexRb quadToInt t).rows.map bounds := by
  refine ⟨⟨?_, by simp [oneRow, halfRow, PlainBound]⟩, by decide, by decide, by decide⟩
  simp only [oneRow, List.mem_singleton, forall_eq]
  decide

end ModGate.Tools
