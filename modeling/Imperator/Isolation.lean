import Imperator.ContextSignals
import Imperator.Entries
import Imperator.ForMathlib.Unwinding

/-!
# What one task can do to another

The tasks share the machine: the queues, the mailboxes, the CPU sets, the counters. A waker lends
its tier to a wakeup, and a task that is running elsewhere decides whether a CPU is kicked. All of
this is about single dispatches. How a task is classified, and with that what slice and what
deadline it gets when nothing is lent, is its own affair.

Take a family of tasks: with the child of a fork the family has its parent. Two runs may differ in
everything the other tasks do, in how many there are, in the queues and the placement, and in the
interrupts and the statistics. As long as the family makes the same calls at the same times, in the
same order, each of its tasks is classified the same in both. A fork is the only way in, and the
family is closed under it.

## Main definitions

* `Entry.subject` — the task whose context an entry may write
* `SameEntry` — entries that look the same to a family
* `SameFamily` — the relation of the simulation

## Main results

* `unwinding_sameFamily` — one entry
* `isolation` — whole runs
-/

namespace Imperator

open Transition

variable {τ : Type*} {ro : Rodata} {hy hy' : HybridRodata} {s s' : System τ} {e e' : Entry τ}
  {es es' : List (Entry τ)} {p : τ} {family : τ → Bool}

/-- The task whose context an entry may write. -/
def Entry.subject : Entry τ → Option τ
  | .callback cb => some cb.task
  | .selectCpu p _ | .initTask p _ _ _ | .lockHolder p _ => some p
  | .dispatch .. => none

/-- The entry is about a task of the family. -/
def Entry.concerns (family : τ → Bool) (e : Entry τ) : Bool := e.subject.any family

/-- Two entries that look the same to a family: the same call of the same task, with the clock, the
flags and the outcome of the idle search. -/
inductive SameEntry (family : τ → Bool) : Entry τ → Entry τ → Prop
  | callback {cb cb' : Callback τ} : cb'.task = cb.task →
      (∀ bss bss', SameCall (cb.taskOp bss) (cb'.taskOp bss')) →
      SameEntry family (.callback cb) (.callback cb')
  | selectCpu {p : τ} {env env' : SelectEnv} : env'.search.2 = env.search.2 →
      SameEntry family (.selectCpu p env) (.selectCpu p env')
  | exec {p parent parent' : τ} {prio : U32} :
      SameEntry family (.initTask p false prio parent) (.initTask p false prio parent')
  /-- the parent is in the family, too -/
  | fork {p parent : τ} {prio : U32} : family parent = true →
      SameEntry family (.initTask p true prio parent) (.initTask p true prio parent)
  | lockHolder {p : τ} {held : Bool} :
      SameEntry family (.lockHolder p held) (.lockHolder p held)

/-- The family looks the same in both systems. -/
def SameFamily (family : τ → Bool) (s s' : System τ) : Prop :=
  ∀ p, family p = true → Option.Rel Agree (s.ctx p) (s'.ctx p)

/-- What the simulation relates is classified the same. -/
theorem sameClassification_of_rel {ctx ctx' : Option TaskCtx} (h : Option.Rel Agree ctx ctx') :
    Option.Rel SameClassification ctx ctx' := by
  cases h with
  | none => exact .none
  | some h => exact .some h.toSameClassification

variable [DecidableEq τ]

/-- Other contexts are not written. -/
theorem enter_ctx_of_ne (hne : ∀ q ∈ e.subject, p ≠ q) :
    (s.enter ro hy e).ctx p = s.ctx p := by
  cases e with
  | callback | selectCpu | initTask | lockHolder => exact Function.update_of_ne (hne _ rfl) _ _
  | dispatch => rfl

/-- What nobody in the family is concerned with does not change it. -/
theorem enter_ctx_of_unconcerned (hp : family p = true) (h : e.concerns family = false) :
    (s.enter ro hy e).ctx p = s.ctx p := by
  refine enter_ctx_of_ne ?_
  rintro q hq rfl
  rw [Entry.concerns, Option.mem_def.mp hq, Option.any_some, hp] at h
  cases h

/-- Writing the context of one task. -/
theorem SameFamily.update (h : SameFamily family s s') {q : τ} {ctx ctx' : Option TaskCtx}
    (hrel : family q = true → Option.Rel Agree ctx ctx') (p : τ) (hp : family p = true) :
    Option.Rel Agree (Function.update s.ctx q ctx p) (Function.update s'.ctx q ctx' p) := by
  rcases eq_or_ne p q with rfl | hne
  · rw [Function.update_self, Function.update_self]
    exact hrel hp
  · rw [Function.update_of_ne hne, Function.update_of_ne hne]
    exact h p hp

/-- **One entry.** -/
theorem unwinding_sameFamily (ro : Rodata) (stats : Bool) (hy hy' : HybridRodata)
    (family : τ → Bool) : Unwinding (System.enter ro hy) (System.enter (ro.withStats stats) hy')
      (Entry.concerns family) (Entry.concerns family) (SameEntry family) (SameFamily family) where
  left := by
    intro s s' e hunseen hsame p hp
    rw [enter_ctx_of_unconcerned hp hunseen]
    exact hsame p hp
  right := by
    intro s s' e' hunseen hsame p hp
    rw [enter_ctx_of_unconcerned hp hunseen]
    exact hsame p hp
  both := by
    intro s s' e e' halike hsame
    -- the same event in the life of one task of the family
    have hone : ∀ (q : τ) (op op' : TaskOp), SameCall op op' → family q = true → Option.Rel Agree
        (op.apply ro (s.ctx q)) (op'.apply (ro.withStats stats) (s'.ctx q)) :=
      fun q op op' hcall hq => agree_apply stats hcall (hsame q hq)
    cases halike with
    | @callback cb cb' htask hcall =>
      intro p hp
      show Option.Rel Agree (Function.update s.ctx cb.task _ p)
        (Function.update s'.ctx cb'.task _ p)
      rw [htask]
      exact hsame.update (hone _ _ _ (hcall _ _)) p hp
    | @selectCpu q env env' hsearch =>
      refine hsame.update ?_
      rw [imperatorSelectCpu_ctx, imperatorSelectCpu_ctx, hsearch]
      exact hone q (.selectCpu env.irqContext env.search.2)
        (.selectCpu env'.irqContext env.search.2) .selectCpu
    | @exec q parent parent' prio =>
      exact hsame.update (hone q (.initTask false prio none) _ (.initTask .none))
    | @fork q parent prio hparent =>
      have hparents := sameClassification_of_rel (hsame parent hparent)
      exact hsame.update (hone q _ _ (.initTask hparents))
    | @lockHolder q held =>
      exact hsame.update (hone q (.lockHolder held) _ .lockHolder)

/-- **No task reaches the classification of another.** Two runs of the whole machine, in which a
family of tasks makes the same calls, and everything else is free: what the other tasks do and when,
the queues, the hybrid layout, the interrupts, the counters. Afterwards each task of the family has
the same classification in both. -/
theorem isolation {stats : Bool}
    (hrun : Run (ofNext (System.enter ro hy)) (System.init ro) es s)
    (hrun' : Run (ofNext (System.enter (ro.withStats stats) hy'))
      (System.init (ro.withStats stats)) es' s')
    (hsame : List.Forall₂ (SameEntry family) (es.filter (Entry.concerns family))
      (es'.filter (Entry.concerns family))) :
    ∀ p, family p = true → Option.Rel SameClassification (s.ctx p) (s'.ctx p) := by
  have hinit : SameFamily family (System.init ro : System τ) (System.init (ro.withStats stats)) :=
    fun _ _ => .none
  intro p hp
  have hend := (unwinding_sameFamily ro stats hy hy' family).run hinit hsame hrun hrun'
  exact sameClassification_of_rel (hend p hp)

/-- A task of nice value 0 is woken, runs for a millisecond and sleeps, alone, ... -/
def aloneEntries : List (Entry Bool) :=
  [.callback (.enable true 120 true),
    .callback (.enqueue true ⟨0, 0, 1000000, false, ⟨true, false⟩⟩),
    .callback (.running true 0 2000000), .callback (.stopping true 0 3024000 false)]

/-- ... and on other CPUs, woken by a task of a better tier that runs all the while. -/
def crowdedEntries : List (Entry Bool) :=
  [.callback (.enable false 100 true), .callback (.running false 3 500000),
    .callback (.enable true 120 true),
    .callback (.enqueue true ⟨3, 3, 1000000, false, ⟨true, false⟩⟩),
    .callback (.running true 5 2000000), .callback (.stopping true 5 3024000 false),
    .callback (.stopping false 3 4000000 true)]

theorem crowdedEntries_isolated : ∃ s s' : System Bool,
    Run (ofNext (System.enter defaultRodata noHybrid)) (System.init defaultRodata)
      aloneEntries s ∧
    Run (ofNext (System.enter (defaultRodata.withStats true) noHybrid))
      (System.init (defaultRodata.withStats true)) crowdedEntries s' ∧
    Option.Rel SameClassification (s.ctx true) (s'.ctx true) := by
  have hsame : List.Forall₂ (SameEntry id) (aloneEntries.filter (Entry.concerns id))
      (crowdedEntries.filter (Entry.concerns id)) :=
    .cons (.callback rfl fun _ _ => .enable) <| .cons (.callback rfl fun _ _ => .enqueue rfl rfl) <|
      .cons (.callback rfl fun _ _ => .running) <| .cons (.callback rfl fun _ _ => .stopping) .nil
  have hrun := Run.foldl_ofNext (System.enter defaultRodata noHybrid)
    (System.init defaultRodata) aloneEntries
  have hrun' := Run.foldl_ofNext (System.enter (defaultRodata.withStats true) noHybrid)
    (System.init (defaultRodata.withStats true)) crowdedEntries
  exact ⟨_, _, hrun, hrun', isolation hrun hrun' hsame true rfl⟩

end Imperator
