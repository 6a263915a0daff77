import Imperator.NewFlow

/-!
# The end of a slice extension

A task that is preempted earns burst credit, and its next enqueue spends it on a longer slice. At
the end of the bout the slice should be that of the tier again.

It is the full path of a stop that writes the slice. The early return of a settled task leaves it
as it is, so an extension that is spent on such a bout stays for the next one, and credit earned
meanwhile is added on top. Without extensions nothing is lost: a task is settled only after full
passes, and the slice they leave is the one the early return keeps.

## Main definitions

* `AtBaseline` — the slice is that of the tier
* `AfterStops` — what holds after every stop that accounts for a bout
* `TaskOp.KeepsSlice` — the events that do not write the slice of a task without credit

## Main results

* `accountBout_atBaseline_iff` — one stop
* `slice_restored_iff` — whole runs
* `slice_restored_of_no_preempt` — runs without extensions
-/

namespace Imperator

open Transition

variable {ro : Rodata} {c c' : TaskCtx} {op : TaskOp} {ops : List TaskOp} {runnable : Bool}
  {bout rt : U16}

/-! ### One stop -/

/-- The slice is that of the tier: the quantum times the multiplier of the tier. -/
def AtBaseline (ro : Rodata) (c : TaskCtx) : Prop := c.nextSlice = ro.tierSlice c.tier

/-- The full path writes the slice of the tier it decides on. -/
theorem fullPass_atBaseline (ro : Rodata) (runnable : Bool) (bout rt : U16) (c : TaskCtx) :
    AtBaseline ro (fullPass ro runnable bout rt c) := by
  rw [AtBaseline, fullPass_tier]
  rfl

/-- **One stop.** The early return restores nothing. -/
theorem accountBout_atBaseline_iff (ro : Rodata) (runnable : Bool) (bout : U16) (c : TaskCtx) :
    AtBaseline ro (accountBout ro runnable bout c) ↔ (TakesBackoff c → AtBaseline ro c) := by
  by_cases hback : TakesBackoff c
  · rw [AtBaseline, accountBout_tier_of_backoff hback,
      accountBout_of_backoff ro runnable bout hback, quickPass_nextSlice]
    exact ⟨fun h _ => h, fun h => h hback⟩
  · rw [accountBout_of_full ro runnable bout hback]
    exact iff_of_true (fullPass_atBaseline ro runnable bout _ _) fun h => absurd h hback

/-! ### Runs -/

/-- `P` holds of the context that every stop of the run of `ops` leaves which accounts for a
bout. -/
def AfterStops (ro : Rodata) (ops : List TaskOp) (P : TaskCtx → Prop) : Prop :=
  ∀ before after cpu now runnable bss c bout c',
    ops = before ++ .stopping cpu now runnable bss :: after → TaskRun ro anyOp before (some c) →
    chargedBout (now.setWidth 32) c = some bout →
    TaskOp.apply ro (some c) (.stopping cpu now runnable bss) = some c' → P c'

/-- What a stop does to the slice, whatever it stamps first. -/
theorem stopping_atBaseline_iff {cpu : Cpu} {now : U64} {bss : Bss}
    (hbout : chargedBout (now.setWidth 32) c = some bout)
    (h : TaskOp.apply ro (some c) (.stopping cpu now runnable bss) = some c') :
    AtBaseline ro c' ↔ (TakesBackoff c → AtBaseline ro c) := by
  obtain ⟨stamp, hstop⟩ := apply_stopping_of_charged ro cpu runnable bss hbout
  obtain rfl := Option.some.inj (hstop.symm.trans h)
  exact accountBout_atBaseline_iff ro runnable bout { c with sleepEntryTime := stamp }

theorem afterStops_of_accounting
    (h : AtAccounting ro ops fun c _ => TakesBackoff c → AtBaseline ro c) :
    AfterStops ro ops (AtBaseline ro) := by
  intro before after cpu now runnable bss c bout c' hops hrun hbout hstop
  exact (stopping_atBaseline_iff hbout hstop).mpr
    (h before after cpu now runnable bss c bout hops hrun hbout)

/-- **When extensions end with their bout.** After every stop of a run that accounts for a bout the
slice is that of the tier, exactly when no such stop takes the early return while the slice is
extended. -/
theorem slice_restored_iff (ro : Rodata) (ops : List TaskOp) :
    AfterStops ro ops (AtBaseline ro) ↔
      AtAccounting ro ops fun c _ => TakesBackoff c → AtBaseline ro c := by
  refine ⟨?_, afterStops_of_accounting⟩
  intro h before after cpu now runnable bss c bout hops hrun hbout
  obtain ⟨stamp, hstop⟩ := apply_stopping_of_charged ro cpu runnable bss hbout
  exact (stopping_atBaseline_iff hbout hstop).mp
    (h before after cpu now runnable bss c bout _ hops hrun hbout hstop)

/-- Three bursts of a millisecond settle a task of nice value 0 in T1. Then it is preempted, and
its enqueue earns and spends credit. -/
def extendedRun : List TaskOp :=
  .enable 120 true :: (burst 1000000 1050 ++ burst 10000000 1050 ++ burst 20000000 1050 ++
    [.enqueue ⟨0, 0, 30000000, false, ⟨false, true⟩⟩ (initBss defaultRodata),
      .running 0 31000000 (initBss defaultRodata)])

/-- The stop of that bout leaves the extension in place. -/
theorem extendedRun_stays_extended : ¬ AfterStops defaultRodata
    (extendedRun ++ [.stopping 0 32075200 false (initBss defaultRodata)])
    (AtBaseline defaultRodata) := by
  intro h
  have hrun := taskRun_anyOp defaultRodata extendedRun
  have hbase := h extendedRun [] 0 32075200 false (initBss defaultRodata) _ 1050 _ rfl hrun
    (by decide) rfl
  exact absurd hbase (by unfold AtBaseline; decide)

/-! ### Without preemption -/

/-- An enqueue earns no credit. -/
def NoPreempt (ops : List TaskOp) : Prop :=
  ∀ env bss, .enqueue env bss ∈ ops → env.flags.preempt = false

/-- Nothing to spend, and nothing to restore: the task has no credit, and once its stability counter
is positive its slice is that of the tier. -/
structure Unextended (ro : Rodata) (c : TaskCtx) : Prop where
  burstCredit : c.burstCredit = 0
  atBaseline : 0 < c.stable → AtBaseline ro c

/-- Two contexts with the same slice and credit. -/
structure SameSlice (c c' : TaskCtx) : Prop where
  nextSlice : c'.nextSlice = c.nextSlice
  burstCredit : c'.burstCredit = c.burstCredit

/-- The events that leave the slice of a task without credit alone. -/
def TaskOp.KeepsSlice : TaskOp → Prop
  | .initTask .. => False
  | .stopping .. => False
  | .enqueue env _ => env.flags.preempt = false
  | _ => True

/-- Without credit and without preemption there is nothing to earn and nothing to spend. -/
theorem standardCtx_sameSlice {env : EnqueueEnv} (hcredit : c.burstCredit = 0)
    (hpre : env.flags.preempt = false) : SameSlice c (standardCtx ro env c) := by
  have hrec : SameSlice c (recoveredCtx env c) :=
    ⟨recoveredCtx_nextSlice env c, recoveredCtx_burstCredit env c⟩
  have hearn : earnBurstCredit ro env.flags.preempt (recoveredCtx env c) = recoveredCtx env c := by
    rw [earnBurstCredit, earnsCredit, hpre]
    simp
  have hspend : consumeBurstCredit ro (recoveredCtx env c) = recoveredCtx env c := by
    rw [consumeBurstCredit, hrec.burstCredit, hcredit]
    exact if_neg (BitVec.lt_irrefl _)
  obtain ⟨packed, hirq, -⟩ := consumeIrqWake_eq (recoveredCtx env c)
  rw [standardCtx, stampedCtx, hearn, hspend, hirq]
  exact ⟨hrec.nextSlice, hrec.burstCredit⟩

theorem sameSlice_of_apply (hop : op.KeepsSlice) (hcredit : c.burstCredit = 0)
    (h : op.apply ro (some c) = some c') : SameSlice c c' := by
  cases leaves_of_apply h with
  | enabled | requeued | ticked => exact ⟨rfl, rfl⟩
  | execed | orphaned | forked | uncharged | accounted => exact hop.elim
  | @selected irq direct =>
    obtain ⟨packed, hirq, -⟩ := consumeIrqWake_eq
      (if irq then { c with packedInfo := setFlag c.packedInfo .irqWake } else c)
    rw [selectCpuCtx, hirq]
    cases irq <;> cases direct <;> exact ⟨rfl, rfl⟩
  | enqueued => exact standardCtx_sameSlice hcredit hop
  | ran =>
    rw [runningCtx, updateJitter]
    split <;> exact ⟨rfl, rfl⟩
  | @marked held => cases held <;> exact ⟨rfl, rfl⟩

/-- An accounted stop leaves no credit behind where there was none. -/
theorem accountBout_burstCredit (ro : Rodata) (runnable : Bool) (bout : U16)
    (h : c.burstCredit = 0) : (accountBout ro runnable bout c).burstCredit = 0 := by
  by_cases hback : TakesBackoff c
  · rw [accountBout_of_backoff ro runnable bout hback, quickPass_burstCredit]
    exact h
  · rw [accountBout_of_full ro runnable bout hback, fullPass]
    dsimp only
    split
    · rfl
    · exact h

/-- They leave the account alone as well. -/
theorem sameAccount_of_apply (hop : op.KeepsSlice) (h : op.apply ro (some c) = some c') :
    SameAccount c c' := by
  cases effect_of_apply h with
  | kept hsame _ => exact hsame
  | accounted | execed | forked => exact hop.elim

/-- Seeding a task again takes its credit away and writes the slice. -/
theorem initTask_unextended {fork : Bool} {prio : U32} {parent : Option TaskCtx}
    (hc : Unextended ro c)
    (h : TaskOp.apply ro (some c) (.initTask fork prio parent) = some c') : Unextended ro c' := by
  cases leaves_of_apply h with
  | execed => exact ⟨rfl, fun _ => by rw [AtBaseline, initTaskExec_tier]; rfl⟩
  | orphaned => exact hc
  | forked => exact ⟨rfl, fun _ => by rw [AtBaseline, initTaskFork_tier]; rfl⟩

/-- A stop takes the early return only with a counter of 3. -/
theorem accountBout_unextended (runnable : Bool) (bout : U16) (hc : Unextended ro c) :
    Unextended ro (accountBout ro runnable bout c) := by
  refine ⟨accountBout_burstCredit ro runnable bout hc.burstCredit, fun _ => ?_⟩
  refine (accountBout_atBaseline_iff ro runnable bout c).mpr fun hback => hc.atBaseline ?_
  rw [hback.1]
  decide

/-- **One event** without preemption. -/
theorem unextended_of_apply (hc : Unextended ro c)
    (hpre : ∀ env bss, op = .enqueue env bss → env.flags.preempt = false)
    (h : op.apply ro (some c) = some c') : Unextended ro c' := by
  have hkept : op.KeepsSlice → Unextended ro c' := by
    intro hop
    have hsame := sameAccount_of_apply hop h
    obtain ⟨hslice, hcredit⟩ := sameSlice_of_apply hop hc.burstCredit h
    refine ⟨hcredit.trans hc.burstCredit, fun hpos => ?_⟩
    rw [AtBaseline, hslice, hsame.tier]
    exact hc.atBaseline (hsame.stable ▸ hpos)
  cases op with
  | initTask => exact initTask_unextended hc h
  | stopping cpu now runnable bss =>
    rcases apply_stopping_cases h with ⟨-, rfl⟩ | ⟨bout, -, rfl⟩
    · exact hc
    · exact accountBout_unextended runnable _ ⟨hc.burstCredit, hc.atBaseline⟩
  | enqueue env bss => exact hkept (hpre env bss rfl)
  | enable | selectCpu | running | tick | lockHolder => exact hkept trivial

/-- Any number of events. -/
theorem unextended_of_run (h : NoPreempt ops) (hrun : TaskRun ro anyOp ops (some c)) :
    Unextended ro c := by
  have hguard : TaskRun ro (fun _ op => ∀ env bss, op = .enqueue env bss →
      env.flags.preempt = false) ops (some c) :=
    hrun.guarded fun _ op hop env bss heq => h env bss (heq ▸ hop)
  refine hguard.invariant_of_apply (fun prio => ⟨rfl, fun hpos => ?_⟩)
    fun _ _ _ hc hpre happly => unextended_of_apply hc hpre happly
  rw [allocTaskCtxCold_stable] at hpos
  exact absurd hpos (lt_irrefl _)

/-- **Runs without preemption** restore the slice after every stop. -/
theorem slice_restored_of_no_preempt (h : NoPreempt ops) : AfterStops ro ops (AtBaseline ro) := by
  refine afterStops_of_accounting ?_
  intro before after cpu now runnable bss c bout hops hrun _ hback
  have hbefore : NoPreempt before := fun env bss hmem =>
    h env bss (hops ▸ List.mem_append_left _ hmem)
  refine (unextended_of_run hbefore hrun).atBaseline ?_
  rw [hback.1]
  decide

end Imperator
