import Imperator.ForMathlib.Transition
import Mathlib.Data.List.Forall2

/-!
# Unwinding

Two runs that an observer cannot tell apart. The observer sees some of the events and nothing of the
others, which may come in any number, anywhere, and differ between the runs. If a relation between
the states is kept by an unseen event of either machine, and by seen events that look the same, then
runs whose seen events look the same, one by one, end in related states.

The machines need not be the same one, nor have the same states or events.

## Main definitions

* `Unwinding` — the steps keep the relation

## Main results

* `Unwinding.foldl`, `Unwinding.run` — whole runs keep it
-/

namespace Transition

variable {σ σ' ε ε' : Type*} {next : σ → ε → σ} {next' : σ' → ε' → σ'} {seen : ε → Bool}
  {seen' : ε' → Bool} {alike : ε → ε' → Prop} {R : σ → σ' → Prop} {s t : σ} {s' t' : σ'}
  {es : List ε} {es' : List ε'}

/-- One event of either machine that is not seen, or one of each that look the same. -/
structure Unwinding (next : σ → ε → σ) (next' : σ' → ε' → σ') (seen : ε → Bool)
    (seen' : ε' → Bool) (alike : ε → ε' → Prop) (R : σ → σ' → Prop) : Prop where
  left : ∀ s s' e, seen e = false → R s s' → R (next s e) s'
  right : ∀ s s' e', seen' e' = false → R s s' → R s (next' s' e')
  both : ∀ s s' e e', alike e e' → R s s' → R (next s e) (next' s' e')

namespace Unwinding

variable (h : Unwinding next next' seen seen' alike R)
include h

theorem foldl_right (hs : R s s') (hunseen : es'.filter seen' = []) :
    R s (es'.foldl next' s') := by
  induction es' generalizing s' with
  | nil => exact hs
  | cons e' es' ih =>
    cases hseen : seen' e' with
    | false =>
      rw [List.filter_cons_of_neg (by simp [hseen])] at hunseen
      exact ih (h.right s s' e' hseen hs) hunseen
    | true =>
      rw [List.filter_cons_of_pos hseen] at hunseen
      cases hunseen

/-- The second machine goes up to its first event that is seen, and takes it together with the
first machine. -/
theorem foldl_both {e : ε} {tail : List ε} (hs : R s s')
    (halike : List.Forall₂ alike (e :: tail) (es'.filter seen'))
    (hrest : ∀ (u : σ) (u' : σ') (rest : List ε'), R u u' →
      List.Forall₂ alike tail (rest.filter seen') →
      R (es.foldl next u) (rest.foldl next' u')) :
    R (es.foldl next (next s e)) (es'.foldl next' s') := by
  induction es' generalizing s' with
  | nil => cases halike
  | cons e' es' ih =>
    cases hseen : seen' e' with
    | false =>
      rw [List.filter_cons_of_neg (by simp [hseen])] at halike
      exact ih (h.right s s' e' hseen hs) halike
    | true =>
      rw [List.filter_cons_of_pos hseen] at halike
      cases halike with
      | cons hone htail => exact hrest _ _ es' (h.both s s' e e' hone hs) htail

/-- **Unwinding.** Events that look the same keep the relation, whatever comes in between. -/
theorem foldl (hs : R s s') (halike : List.Forall₂ alike (es.filter seen) (es'.filter seen')) :
    R (es.foldl next s) (es'.foldl next' s') := by
  induction es generalizing s s' es' with
  | nil => exact h.foldl_right hs (List.forall₂_nil_left_iff.mp halike)
  | cons e es ih =>
    cases hseen : seen e with
    | false =>
      rw [List.filter_cons_of_neg (by simp [hseen])] at halike
      exact ih (h.left s s' e hseen hs) halike
    | true =>
      rw [List.filter_cons_of_pos hseen] at halike
      exact h.foldl_both hs halike fun u u' rest hu => ih hu

theorem run (hs : R s s') (halike : List.Forall₂ alike (es.filter seen) (es'.filter seen'))
    (hrun : Run (ofNext next) s es t) (hrun' : Run (ofNext next') s' es' t') : R t t' := by
  rw [hrun.eq_foldl_ofNext, hrun'.eq_foldl_ofNext]
  exact h.foldl hs halike

end Unwinding

end Transition
