import Mathlib.Data.List.Induction
import Mathlib.Logic.Relation

/-!
# Labelled runs and guarded invariants

A transition relation carrying an event label, its finite runs, and the induction rules for what
holds after a run and along it. Runs extend at the *end*, so the end states of the runs from `s` are
exactly the states reached from `s`, and "after every event" is a statement about all runs.

A machine can be run with a record beside its state, which reads the state and is never read by it:
what a run has seen is then a component of the state it reaches.

A guard restricts which events are admitted in which states. It is a separate parameter rather
than part of the relation, so that one machine can be studied under several assumptions about its
environment and the runs under a stronger assumption are runs under a weaker one.
-/

namespace Transition

variable {σ ε : Type*} {step : σ → ε → σ → Prop}

/-- `Run step s es t`: from `s`, the events `es` in order lead to `t`. -/
inductive Run (step : σ → ε → σ → Prop) (s : σ) : List ε → σ → Prop
  | nil : Run step s [] s
  | snoc {es : List ε} {t u : σ} {e : ε} : Run step s es t → step t e u → Run step s (es ++ [e]) u

/-- The relation restricted to the steps a guard admits. -/
def Guarded (step : σ → ε → σ → Prop) (admits : σ → ε → Prop) : σ → ε → σ → Prop :=
  fun s e t => admits s e ∧ step s e t

/-- The relation of a deterministic machine. -/
def ofNext (next : σ → ε → σ) : σ → ε → σ → Prop := fun s e t => t = next s e

/-- Every event of a list is admitted where a deterministic machine is by then. -/
def Admits (next : σ → ε → σ) (admits : σ → ε → Prop) : σ → List ε → Prop
  | _, [] => True
  | s, e :: es => admits s e ∧ Admits next admits (next s e) es

instance Admits.decidable (next : σ → ε → σ) (admits : σ → ε → Prop)
    [∀ s e, Decidable (admits s e)] : ∀ (s : σ) (es : List ε), Decidable (Admits next admits s es)
  | _, [] => inferInstanceAs (Decidable True)
  | s, e :: es =>
    have := Admits.decidable next admits (next s e) es
    inferInstanceAs (Decidable (admits s e ∧ Admits next admits (next s e) es))

namespace Run

variable {s t u : σ} {es es' : List ε} {e : ε}

theorem append (h : Run step s es t) (h' : Run step t es' u) : Run step s (es ++ es') u := by
  induction h' with
  | nil => simpa using h
  | snoc _ hstep ih =>
    rw [← List.append_assoc]
    exact snoc ih hstep

/-- The last event of a run, taken off. -/
theorem of_concat (es : List ε) (h : Run step s (es ++ [e]) u) :
    ∃ t, Run step s es t ∧ step t e u := by
  generalize hl : es ++ [e] = l at h
  cases h with
  | nil => exact absurd hl (List.append_ne_nil_of_right_ne_nil _ (List.cons_ne_nil _ _))
  | snoc hrun hstep =>
    obtain ⟨rfl, hlast⟩ := List.append_inj' hl rfl
    obtain rfl := List.head_eq_of_cons_eq hlast
    exact ⟨_, hrun, hstep⟩

theorem eq_of_nil (h : Run step s [] t) : s = t := by
  generalize hl : ([] : List ε) = l at h
  cases h with
  | nil => rfl
  | snoc => exact absurd hl.symm (List.append_ne_nil_of_right_ne_nil _ (List.cons_ne_nil _ _))

/-- A run of one event is a step. -/
theorem single_iff : Run step s [e] t ↔ step s e t := by
  constructor
  · intro h
    obtain ⟨_, hnil, hstep⟩ := of_concat [] h
    rwa [eq_of_nil hnil]
  · exact fun h => snoc nil h

/-- **Invariant rule.** What holds at the start and is kept by every step holds of every state a
run reaches. -/
theorem invariant {I : σ → Prop} (hstep : ∀ s e t, I s → step s e t → I t)
    (h : Run step s es t) (hs : I s) : I t := by
  induction h with
  | nil => exact hs
  | snoc _ hlast ih => exact hstep _ _ _ ih hlast

/-- The same with an invariant that counts the steps, ... -/
theorem invariant_length {I : ℕ → σ → Prop} (hstep : ∀ m s e t, I m s → step s e t → I (m + 1) t)
    (h : Run step s es t) (hs : I 0 s) : I es.length t := by
  induction h with
  | nil => exact hs
  | snoc _ hlast ih =>
    rw [List.length_append]
    exact hstep _ _ _ _ ih hlast

/-- ... and with one that only the events of the run have to keep. -/
theorem invariant_of_mem {I : σ → Prop} (h : Run step s es t)
    (hstep : ∀ s, ∀ e ∈ es, ∀ t, I s → step s e t → I t) (hs : I s) : I t := by
  induction h with
  | nil => exact hs
  | @snoc es _ _ e _ hlast ih =>
    have hlast' : e ∈ es ++ [e] := List.mem_append_right es (List.mem_singleton_self e)
    refine hstep _ e hlast' _ (ih fun s e' he' => ?_) hlast
    exact hstep s e' (List.mem_append_left [e] he')

/-- **Variant rule.** If from every state that is not final some step makes a number smaller, a
final state can be reached. -/
theorem exists_of_variant {I : ℕ → σ → Prop} {final : σ → Prop}
    (hstep : ∀ m s, I m s → ¬ final s → ∃ e t m', step s e t ∧ m' < m ∧ I m' t) {m : ℕ}
    (h : I m s) : ∃ es t, Run step s es t ∧ final t := by
  induction m using Nat.strongRecOn generalizing s with
  | ind m ih =>
    by_cases hfinal : final s
    · exact ⟨[], s, nil, hfinal⟩
    · obtain ⟨e, t, m', hst, hlt, ht⟩ := hstep m s h hfinal
      obtain ⟨es, u, hrun, hu⟩ := ih m' hlt ht
      exact ⟨[e] ++ es, u, (snoc nil hst).append hrun, hu⟩

theorem mono {step' : σ → ε → σ → Prop} (hle : ∀ s e t, step s e t → step' s e t)
    (h : Run step s es t) : Run step' s es t := by
  induction h with
  | nil => exact nil
  | snoc _ hlast ih => exact snoc ih (hle _ _ _ hlast)

/-- A guarded run is a run. -/
theorem ofGuarded {admits : σ → ε → Prop} (h : Run (Guarded step admits) s es t) :
    Run step s es t :=
  h.mono fun _ _ _ hstep => hstep.2

/-- A deterministic machine has the run of any list of events a guard never rejects, and it ends in
the fold of the events. -/
theorem foldl {next : σ → ε → σ} {admits : σ → ε → Prop} (s : σ) (es : List ε)
    (h : ∀ t, ∀ e ∈ es, admits t e) :
    Run (Guarded (ofNext next) admits) s es (es.foldl next s) := by
  induction es using List.reverseRecOn with
  | nil => exact nil
  | append_singleton es e ih =>
    rw [List.foldl_append]
    refine snoc (ih fun t e' he' => h t e' ?_) ⟨h _ e ?_, rfl⟩
    · exact List.mem_append_left _ he'
    · exact List.mem_append_right _ (List.mem_singleton_self e)

/-- Without a guard it has the run of every list of events. -/
theorem foldl_ofNext (next : σ → ε → σ) (s : σ) (es : List ε) :
    Run (ofNext next) s es (es.foldl next s) :=
  ofGuarded (foldl s es fun _ _ _ => trivial : Run (Guarded _ fun _ _ => True) s es _)

/-- And no other run. -/
theorem eq_foldl_ofNext {next : σ → ε → σ} (h : Run (ofNext next) s es t) :
    t = es.foldl next s := by
  induction h with
  | nil => rfl
  | snoc _ hlast ih =>
    rw [List.foldl_append, ← ih]
    exact hlast

theorem eq_foldl {next : σ → ε → σ} {admits : σ → ε → Prop}
    (h : Run (Guarded (ofNext next) admits) s es t) : t = es.foldl next s :=
  h.ofGuarded.eq_foldl_ofNext

/-- A list of events that are admitted one after the other is the trace of a run. -/
theorem foldl_of_admits {next : σ → ε → σ} {admits : σ → ε → Prop} {s : σ} {es : List ε}
    (h : Admits next admits s es) : Run (Guarded (ofNext next) admits) s es (es.foldl next s) := by
  induction es generalizing s with
  | nil => exact nil
  | cons e es ih =>
    obtain ⟨hfirst, hrest⟩ := h
    exact append (single_iff.mpr ⟨hfirst, rfl⟩) (ih hrest)

end Run

/-! ### A record beside the state -/

section Recording

variable {γ : Type*} {next : σ → ε → σ} {record : σ → γ → ε → γ} {s t : σ} {es : List ε}

/-- A machine with a record of its run beside its state. The record reads the state and is never
read by it. -/
def recording (next : σ → ε → σ) (record : σ → γ → ε → γ) (p : σ × γ) (e : ε) : σ × γ :=
  (next p.1 e, record p.1 p.2 e)

/-- Every run is recorded by something. -/
theorem Run.exists_record (h : Run (ofNext next) s es t) (g : γ) :
    ∃ g', Run (ofNext (recording next record)) (s, g) es (t, g') := by
  induction h with
  | nil => exact ⟨g, nil⟩
  | snoc _ hlast ih =>
    obtain ⟨g', hrun⟩ := ih
    exact ⟨_, snoc hrun (Prod.ext hlast rfl)⟩

/-- The same under a guard, which does not read the record either. -/
theorem Run.exists_record_guarded {admits : σ → ε → Prop}
    (h : Run (Guarded (ofNext next) admits) s es t) (g : γ) :
    ∃ g', Run (Guarded (ofNext (recording next record)) fun p => admits p.1) (s, g) es (t, g') := by
  induction h with
  | nil => exact ⟨g, nil⟩
  | snoc _ hlast ih =>
    obtain ⟨g', hrun⟩ := ih
    exact ⟨_, snoc hrun ⟨hlast.1, Prod.ext hlast.2 rfl⟩⟩

end Recording

/-! ### Along a run

"In every state the run goes through" and "at every event of the run" are statements about the
prefixes of the list of events. A list that is not the trace of a run is read as far as it goes. -/

/-- `P` holds in every state the run of `es` from `s` goes through. -/
def Throughout (step : σ → ε → σ → Prop) (s : σ) (es : List ε) (P : σ → Prop) : Prop :=
  ∀ before after t, es = before ++ after → Run step s before t → P t

/-- `G` holds at every event of the run of `es` from `s`, in the state the event finds. -/
def AtEvents (step : σ → ε → σ → Prop) (s : σ) (es : List ε) (G : σ → ε → Prop) : Prop :=
  ∀ before e after t u, es = before ++ e :: after → Run step s before t → step t e u → G t e

/-- **Guarded invariant rule.** An invariant that is kept by the steps a guard admits holds
throughout a run whose events all meet the guard. -/
theorem throughout_of_atEvents {I : σ → Prop} {G : σ → ε → Prop} {s : σ} {es : List ε}
    (hs : I s) (hstep : ∀ t e u, I t → G t e → step t e u → I u) (h : AtEvents step s es G) :
    Throughout step s es I := by
  intro before after t hes hrun
  induction hrun generalizing after with
  | nil => exact hs
  | @snoc before t u e hbefore hlast ih =>
    rw [List.append_assoc] at hes
    exact hstep t e u (ih _ hes) (h before e after t u hes hbefore hlast) hlast

/-- **Exact guard rule.** If from every state where `I` holds a step keeps it exactly when the event
meets the guard, then `I` holds throughout a run exactly when all its events meet the guard. -/
theorem throughout_iff_atEvents {I : σ → Prop} {G : σ → ε → Prop} {s : σ} {es : List ε}
    (hs : I s) (hstep : ∀ t e u, I t → step t e u → (I u ↔ G t e)) :
    Throughout step s es I ↔ AtEvents step s es G := by
  constructor
  · intro h before e after t u hes hrun hlast
    have ht : I t := h before (e :: after) t hes hrun
    have hsplit : es = (before ++ [e]) ++ after := by rw [hes, List.append_assoc]; rfl
    exact (hstep t e u ht hlast).mp (h (before ++ [e]) after u hsplit (Run.snoc hrun hlast))
  · intro h
    exact throughout_of_atEvents hs (fun t e u ht hG hlast => (hstep t e u ht hlast).mpr hG) h

/-- Where an invariant turns one condition on events into another, so does every run from a state
with the invariant. -/
theorem AtEvents.imp {I : σ → Prop} {G G' : σ → ε → Prop} {s : σ} {es : List ε}
    (hG : AtEvents step s es G) (hs : I s) (hstep : ∀ t e u, I t → step t e u → I u)
    (h : ∀ t e u, I t → step t e u → G t e → G' t e) : AtEvents step s es G' := by
  intro before e after t u hes hrun hlast
  exact h t e u (hrun.invariant hstep hs) hlast (hG before e after t u hes hrun hlast)

/-- Where it makes the two the same, they hold at the events of the same runs. -/
theorem atEvents_congr {I : σ → Prop} {G G' : σ → ε → Prop} {s : σ} {es : List ε}
    (hs : I s) (hstep : ∀ t e u, I t → step t e u → I u)
    (h : ∀ t e u, I t → step t e u → (G t e ↔ G' t e)) :
    AtEvents step s es G ↔ AtEvents step s es G' := by
  constructor
  · intro hG
    exact hG.imp hs hstep fun t e u ht hlast => (h t e u ht hlast).mp
  · intro hG
    exact hG.imp hs hstep fun t e u ht hlast => (h t e u ht hlast).mpr

/-- What is admitted along the run of a deterministic machine holds at its events. -/
theorem atEvents_of_admits {next : σ → ε → σ} {admits G : σ → ε → Prop} {s : σ} {es : List ε}
    (h : Admits next G s es) : AtEvents (Guarded (ofNext next) admits) s es G := by
  intro before e after t u hes hrun hlast
  obtain rfl := hrun.eq_foldl
  subst hes
  clear hrun hlast
  induction before generalizing s with
  | nil => exact h.1
  | cons e' before ih => exact ih h.2

end Transition
