import Mathlib.Data.Nat.Notation
import Mathlib.Tactic.Common

/-! A call that answers and changes its state, repeated until it answers nothing. -/

namespace ModGate.Transition

variable {σ τ α β : Type*}

-- The result is `none` when the calls are more than the given number.
def answers (call : σ → Option α × σ) (view : σ → β) : ℕ → σ → Option (List (α × β) × σ)
  | 0, _ => none
  | n + 1, s =>
    match call s with
    | (none, s') => some ([], s')
    | (some a, s') => (answers call view n s').map fun r => ((a, view s') :: r.1, r.2)

lemma answers_none {call : σ → Option α × σ} {view : σ → β} {n : ℕ} {s s' : σ}
    (h : call s = (none, s')) : answers call view (n + 1) s = some ([], s') := by
  rw [answers, h]

lemma answers_some {call : σ → Option α × σ} {view : σ → β} {n : ℕ} {s s' : σ} {a : α}
    (h : call s = (some a, s')) : answers call view (n + 1) s =
      (answers call view n s').map fun r => ((a, view s') :: r.1, r.2) := by
  rw [answers, h]

/-- Each answer uses up some of a measure, so the calls end. -/
lemma answers_end {call : σ → Option α × σ} (view : σ → β) {inv : σ → Prop} (measure : σ → ℕ)
    (hstep : ∀ s a s', inv s → call s = (some a, s') → inv s' ∧ measure s' < measure s)
    {n : ℕ} {s : σ} (hs : inv s) (hn : measure s < n) :
    ∃ as e, answers call view n s = some (as, e) := by
  induction n generalizing s with
  | zero => exact absurd hn (Nat.not_lt_zero _)
  | succ n ih =>
    rcases hcall : call s with ⟨_ | a, s'⟩
    · exact ⟨_, _, answers_none hcall⟩
    · obtain ⟨hs', hlt⟩ := hstep s a s' hs hcall
      obtain ⟨as, e, he⟩ := ih hs' (by omega)
      exact ⟨_, _, by rw [answers_some hcall, he]; rfl⟩

/-- What holds before every call and at the end. -/
lemma answers_invariant {call : σ → Option α × σ} {view : σ → β} {inv : σ → Prop}
    (hstep : ∀ s, inv s → inv (call s).2) {n : ℕ} {s : σ} (hs : inv s) {as : List (α × β)} {e : σ}
    (h : answers call view n s = some (as, e)) : inv e := by
  induction n generalizing s as with
  | zero => cases h
  | succ n ih =>
    have hnext := hstep s hs
    rcases hcall : call s with ⟨_ | a, s'⟩
    · rw [answers_none hcall] at h
      rw [hcall] at hnext
      cases h
      exact hnext
    · rw [answers_some hcall] at h
      rw [hcall] at hnext
      obtain ⟨⟨as', e'⟩, he, hpair⟩ := Option.map_eq_some_iff.mp h
      cases hpair
      exact ih hnext he

/-- Two systems whose calls answer alike give the same answers. -/
lemma answers_simulates {call : σ → Option α × σ} {call' : τ → Option α × τ} {view : σ → β}
    {view' : τ → β} {rel fin : σ → τ → Prop}
    (hnone : ∀ s t s', rel s t → call s = (none, s') → ∃ t', call' t = (none, t') ∧ fin s' t')
    (hsome : ∀ s t a s', rel s t → call s = (some a, s') →
      ∃ t', call' t = (some a, t') ∧ rel s' t' ∧ view s' = view' t')
    {n : ℕ} {s : σ} {t : τ} (hr : rel s t) {as : List (α × β)} {e : σ}
    (h : answers call view n s = some (as, e)) :
    ∃ e', answers call' view' n t = some (as, e') ∧ fin e e' := by
  induction n generalizing s t as with
  | zero => cases h
  | succ n ih =>
    rcases hcall : call s with ⟨_ | a, s'⟩
    · obtain ⟨t', ht', hfin⟩ := hnone s t s' hr hcall
      rw [answers_none hcall] at h
      cases h
      exact ⟨t', answers_none ht', hfin⟩
    · obtain ⟨t', ht', hr', hview⟩ := hsome s t a s' hr hcall
      rw [answers_some hcall] at h
      obtain ⟨⟨as', e'⟩, he, hpair⟩ := Option.map_eq_some_iff.mp h
      cases hpair
      obtain ⟨e'', he'', hfin⟩ := ih hr' he
      exact ⟨e'', by rw [answers_some ht', he'', hview]; rfl, hfin⟩

end ModGate.Transition
