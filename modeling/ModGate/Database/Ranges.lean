import ModGate.Database.IpTable
import Mathlib.Data.Int.ConditionallyCompleteOrder
import Mathlib.Order.Interval.Basic

/-! The meaning of a filter database: rows with integer bounds are ranges of addresses. -/

namespace ModGate.Database

open Sql

lemma inverted_iff_pure {α : Type} [PartialOrder α] (s : NonemptyInterval α) (a : α) :
    a ≤ s.fst ∧ s.snd ≤ a ↔ s = NonemptyInterval.pure a := by
  constructor
  · rintro ⟨hf, hs⟩
    have hfa : s.fst = a := le_antisymm (s.fst_le_snd.trans hs) hf
    have hsa : s.snd = a := le_antisymm hs (hf.trans s.fst_le_snd)
    exact NonemptyInterval.ext (Prod.ext hfa hsa)
  · rintro rfl
    exact ⟨le_rfl, le_rfl⟩

def rangeOf (r : IpRow) : Option (NonemptyInterval ℤ) :=
  match r.startBound, r.endBound with
  | .integer s, .integer e => if h : s ≤ e then some ⟨(s, e), h⟩ else none
  | _, _ => none

def Contains (r : IpRow) (addr : ℤ) : Prop := ∃ s, rangeOf r = some s ∧ addr ∈ s

def Covers (t : IpTable) (addr : ℤ) : Prop := ∃ r ∈ t.rows, Contains r addr

lemma rangeOf_eq_some_iff {r : IpRow} {s : NonemptyInterval ℤ} :
    rangeOf r = some s ↔ r.startBound = .integer s.fst ∧ r.endBound = .integer s.snd := by
  obtain ⟨⟨a, b⟩, hab⟩ := s
  constructor
  · intro h
    unfold rangeOf at h
    split at h
    · split at h
      · rename_i hs he _
        cases h
        exact ⟨hs, he⟩
      · cases h
    · cases h
  · rintro ⟨hs, he⟩
    have hle : a ≤ b := hab
    simp [rangeOf, hs, he, hle]

lemma contains_pure {r : IpRow} {addr : ℤ} (h : rangeOf r = some (.pure addr)) :
    Contains r addr :=
  ⟨_, h, NonemptyInterval.mem_pure_self addr⟩

end ModGate.Database
