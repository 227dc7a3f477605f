import Mathlib.Data.List.Count
import Mathlib.Tactic.Common

/-! Runs of a deterministic transition function along a schedule of its parties. -/

namespace ModGate.Transition

variable {σ π : Type*} (step : π → σ → σ)

def run (schedule : List π) (s : σ) : σ := schedule.foldl (fun s p => step p s) s

def Along (ok : π → σ → Prop) : List π → σ → Prop
  | [], _ => True
  | p :: ps, s => ok p s ∧ Along ok ps (step p s)

instance decidableAlong (ok : π → σ → Prop) [∀ p s, Decidable (ok p s)] :
    ∀ schedule s, Decidable (Along step ok schedule s)
  | [], _ => isTrue trivial
  | _ :: ps, _ => @instDecidableAnd _ _ _ (decidableAlong ok ps _)

variable {step}

lemma along_of_forall {ok : π → Prop} {schedule : List π} (h : ∀ p ∈ schedule, ok p) (s : σ) :
    Along step (fun p _ => ok p) schedule s := by
  induction schedule generalizing s with
  | nil => trivial
  | cons p ps ih =>
    obtain ⟨hp, hps⟩ := List.forall_mem_cons.mp h
    exact ⟨hp, ih hps (step p s)⟩

lemma along_congr {inv : σ → Prop} {ok ok' : π → σ → Prop}
    (hok : ∀ p s, inv s → (ok p s ↔ ok' p s)) (hstep : ∀ p s, ok' p s → inv s → inv (step p s))
    (schedule : List π) {s : σ} (hs : inv s) :
    Along step ok schedule s ↔ Along step ok' schedule s := by
  induction schedule generalizing s with
  | nil => rfl
  | cons p ps ih =>
    rw [Along, Along, hok p s hs]
    exact and_congr_right fun hp => ih (hstep p s hp hs)

lemma run_append (before after : List π) (s : σ) :
    run step (before ++ after) s = run step after (run step before s) := List.foldl_append

lemma along_append {ok : π → σ → Prop} {before after : List π} {s : σ} :
    Along step ok (before ++ after) s ↔
      Along step ok before s ∧ Along step ok after (run step before s) := by
  induction before generalizing s with
  | nil => exact (iff_of_eq (true_and _)).symm
  | cons p ps ih => exact (and_congr_right fun _ => ih).trans and_assoc.symm

lemma along_before {ok : π → σ → Prop} {before after : List π} {s : σ}
    (h : Along step ok (before ++ after) s) : Along step ok before s :=
  (along_append.mp h).1

lemma run_invariant {inv : σ → Prop} {ok : π → σ → Prop}
    (hstep : ∀ p s, ok p s → inv s → inv (step p s)) {schedule : List π} {s : σ}
    (h : Along step ok schedule s) (hs : inv s) : inv (run step schedule s) := by
  induction schedule generalizing s with
  | nil => exact hs
  | cons p ps ih => exact ih h.2 (hstep p s h.1 hs)

lemma run_measure [DecidableEq π] (measure : σ → ℕ) {p : π}
    (hown : ∀ s, measure (step p s) ≤ measure s - 1)
    (hother : ∀ q s, q ≠ p → measure (step q s) ≤ measure s) (schedule : List π) (s : σ) :
    measure (run step schedule s) ≤ measure s - schedule.count p := by
  induction schedule generalizing s with
  | nil => exact Nat.le_refl _
  | cons q qs ih =>
    have hrest := ih (step q s)
    change measure (run step qs (step q s)) ≤ _
    by_cases hq : q = p
    · subst hq
      have hstep := hown s
      rw [List.count_cons_self]
      omega
    · have hstep := hother q s hq
      rw [List.count_cons_of_ne hq]
      omega

end ModGate.Transition
