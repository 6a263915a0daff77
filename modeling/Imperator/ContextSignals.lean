import Mathlib.Data.List.Forall2
import Imperator.SelectCpu
import Imperator.SliceRestore

/-!
# Context signals do not classify

Where a wakeup comes from, what the waker runs as and whether statistics are kept may change what
becomes of one dispatch. None of it may reach the classification of the task.

That is a statement about two runs. They make the same calls with the same clock, the same flags and
the same idle searches, and differ in everything else that a callback reads: then the contexts agree
on the classification after every callback. The proof is a simulation in lockstep. What the two
contexts must agree on for one more callback is the classification and the timestamp of the bout,
and every block of every callback keeps that.

## Main definitions

* `SameClassification` — agreement on what classification reads and writes
* `SameCall` — calls that differ in context signals at most
* `SignalsConfined` — what two runs may not differ in

## Main results

* `agree_apply` — one callback
* `signals_do_not_leak` — whole runs
-/

namespace Imperator

variable {ro : Rodata} {ctx ctx' : Option TaskCtx} {c c' d : TaskCtx} {op op' : TaskOp}
  {ops ops' : List TaskOp} {env env' : EnqueueEnv} {bss bss' : Bss} {runnable : Bool}
  {bout rt : U16}

/-! ### Agreement -/

/-- Two contexts with the same classification. The interrupt flag, the lock holder and its skips,
and the telemetry are free. -/
structure SameClassification (c c' : TaskCtx) : Prop where
  deficit : c'.deficit = c.deficit
  avgRt : c'.avgRt = c.avgRt
  tier : c'.tier = c.tier
  stable : c'.stable = c.stable
  isNew : hasFlag c'.packedInfo .new = hasFlag c.packedInfo .new
  reclassCounter : c'.reclassCounter = c.reclassCounter
  overrunCount : c'.overrunCount = c.overrunCount
  burstAccUs : c'.burstAccUs = c.burstAccUs
  nextSlice : c'.nextSlice = c.nextSlice
  burstCredit : c'.burstCredit = c.burstCredit
  sleepEntryTime : c'.sleepEntryTime = c.sleepEntryTime

/-- The relation of the simulation: the timestamp of the bout as well, since the bout is measured
from it. -/
structure Agree (c c' : TaskCtx) : Prop extends SameClassification c c' where
  lastRunAt : c'.lastRunAt = c.lastRunAt

theorem Agree.refl (c : TaskCtx) : Agree c c :=
  ⟨⟨rfl, rfl, rfl, rfl, rfl, rfl, rfl, rfl, rfl, rfl, rfl⟩, rfl⟩

theorem Agree.symm (h : Agree c c') : Agree c' c :=
  ⟨⟨h.deficit.symm, h.avgRt.symm, h.tier.symm, h.stable.symm, h.isNew.symm, h.reclassCounter.symm,
    h.overrunCount.symm, h.burstAccUs.symm, h.nextSlice.symm, h.burstCredit.symm,
    h.sleepEntryTime.symm⟩, h.lastRunAt.symm⟩

theorem Agree.trans (h : Agree c c') (h' : Agree c' d) : Agree c d :=
  ⟨⟨h'.deficit.trans h.deficit, h'.avgRt.trans h.avgRt, h'.tier.trans h.tier,
    h'.stable.trans h.stable, h'.isNew.trans h.isNew, h'.reclassCounter.trans h.reclassCounter,
    h'.overrunCount.trans h.overrunCount, h'.burstAccUs.trans h.burstAccUs,
    h'.nextSlice.trans h.nextSlice, h'.burstCredit.trans h.burstCredit,
    h'.sleepEntryTime.trans h.sleepEntryTime⟩, h'.lastRunAt.trans h.lastRunAt⟩

/-- A write to the flags that are free. -/
theorem agree_of_packed {p : U32} (htier : getTier p = c.tier) (hstable : getStable p = c.stable)
    (hnew : hasFlag p .new = hasFlag c.packedInfo .new) : Agree c { c with packedInfo := p } :=
  ⟨⟨rfl, rfl, htier, hstable, hnew, rfl, rfl, rfl, rfl, rfl, rfl⟩, rfl⟩

/-! ### The interrupt flag -/

/-- Removing the interrupt flag does not classify. -/
theorem consumeIrqWake_agree (c : TaskCtx) : Agree c (consumeIrqWake c) := by
  obtain ⟨p, hp, htier, hstable, hnew⟩ := consumeIrqWake_eq c
  rw [hp]
  exact agree_of_packed htier hstable hnew

/-- Nor does setting it. -/
theorem selectCpuCtx_agree (irq direct : Bool) (c : TaskCtx) :
    Agree c (selectCpuCtx irq direct c) := by
  have hstamp : Agree c
      (if irq then { c with packedInfo := setFlag c.packedInfo .irqWake } else c) := by
    split
    · exact agree_of_packed (getTier_setFlag _ _) (getStable_setFlag _ _) (by simp)
    · exact Agree.refl c
  rw [selectCpuCtx]
  split
  · exact hstamp.trans (consumeIrqWake_agree _)
  · exact hstamp

theorem lockHolderCtx_agree (held : Bool) (c : TaskCtx) : Agree c (lockHolderCtx held c) := by
  rw [lockHolderCtx]
  split
  · exact agree_of_packed (getTier_setFlag _ _) (getStable_setFlag _ _) (by simp)
  · exact ⟨⟨rfl, rfl, getTier_clearFlag _ _, getStable_clearFlag _ _, by simp, rfl, rfl, rfl, rfl,
      rfl, rfl⟩, rfl⟩

/-! ### The blocks of an enqueue -/

namespace Agree

theorem recoveredCtx (h : Agree c c') (hnow : env'.now = env.now) :
    Agree (recoveredCtx env c) (recoveredCtx env' c') := by
  rw [Imperator.recoveredCtx, Imperator.recoveredCtx, hnow]
  rw [postSleepRecovery, postSleepRecovery]
  dsimp only [TaskCtx.avgRt, TaskCtx.tier, TaskCtx.deficit]
  rw [h.sleepEntryTime]
  split
  · rw [show extractAvgRt c'.deficitAvgFused = _ from h.avgRt,
      show getTier c'.packedInfo = _ from h.tier,
      show extractDeficit c'.deficitAvgFused = _ from h.deficit]
    split
    · exact ⟨⟨rfl, rfl, h.tier, h.stable, h.isNew, h.reclassCounter, h.overrunCount, h.burstAccUs,
        h.nextSlice, h.burstCredit, rfl⟩, h.lastRunAt⟩
    · exact ⟨⟨h.deficit, h.avgRt, h.tier, h.stable, h.isNew, h.reclassCounter, h.overrunCount,
        h.burstAccUs, h.nextSlice, h.burstCredit, rfl⟩, h.lastRunAt⟩
  · exact ⟨⟨h.deficit, h.avgRt, h.tier, h.stable, h.isNew, h.reclassCounter, h.overrunCount,
      h.burstAccUs, h.nextSlice, h.burstCredit, rfl⟩, h.lastRunAt⟩

/-- Credit and slice, in one write. -/
theorem credited (h : Agree c c') (slice : U64) (credit : U16) :
    Agree { c with nextSlice := slice, burstCredit := credit }
      { c' with nextSlice := slice, burstCredit := credit } :=
  ⟨⟨h.deficit, h.avgRt, h.tier, h.stable, h.isNew, h.reclassCounter, h.overrunCount, h.burstAccUs,
    rfl, rfl, h.sleepEntryTime⟩, h.lastRunAt⟩

theorem earnBurstCredit (h : Agree c c') (preempt : Bool) :
    Agree (earnBurstCredit ro preempt c) (earnBurstCredit ro preempt c') := by
  rw [Imperator.earnBurstCredit, Imperator.earnBurstCredit, h.tier, h.burstCredit]
  split
  · exact ⟨⟨h.deficit, h.avgRt, h.tier, h.stable, h.isNew, h.reclassCounter, h.overrunCount,
      h.burstAccUs, h.nextSlice, rfl, h.sleepEntryTime⟩, h.lastRunAt⟩
  · exact h

theorem consumeBurstCredit (h : Agree c c') :
    Agree (consumeBurstCredit ro c) (consumeBurstCredit ro c') := by
  rw [Imperator.consumeBurstCredit, Imperator.consumeBurstCredit, h.burstCredit, h.nextSlice]
  split
  · exact h.credited _ _
  · exact h

/-- The tier a dispatch is made with is a local; it is not part of this. -/
theorem standardCtx (h : Agree c c') (hnow : env'.now = env.now) (hflags : env'.flags = env.flags) :
    Agree (standardCtx ro env c) (standardCtx ro env' c') := by
  rw [Imperator.standardCtx, Imperator.standardCtx, stampedCtx, stampedCtx, hflags]
  have hearned : Agree
      (Imperator.earnBurstCredit ro env.flags.preempt (Imperator.recoveredCtx env c))
      (Imperator.earnBurstCredit ro env.flags.preempt (Imperator.recoveredCtx env' c')) :=
    (h.recoveredCtx hnow).earnBurstCredit env.flags.preempt
  exact (consumeIrqWake_agree _).symm.trans
    (hearned.consumeBurstCredit.trans (consumeIrqWake_agree _))

/-! ### The blocks of a stop -/

theorem takesBackoff_iff (h : Agree c c') : TakesBackoff c' ↔ TakesBackoff c := by
  rw [TakesBackoff, TakesBackoff, h.stable, h.reclassCounter, h.tier]

theorem burstSample_eq (h : Agree c c') : burstSample c' bout = burstSample c bout := by
  rw [burstSample, burstSample, h.burstAccUs]

theorem verdict_eq (h : Agree c c') (a : U16) : verdict c' a rt = verdict c a rt := by
  simp only [verdict, h.tier, h.stable, h.overrunCount]

theorem entered (h : Agree c c') : Agree (entered runnable bout c) (entered runnable bout c') where
  deficit := h.deficit
  avgRt := h.avgRt
  tier := h.tier
  stable := h.stable
  isNew := h.isNew
  reclassCounter := by simp only [Imperator.entered, h.stable, h.reclassCounter]
  overrunCount := h.overrunCount
  burstAccUs := by simp only [Imperator.entered, h.burstSample_eq]
  nextSlice := h.nextSlice
  burstCredit := h.burstCredit
  sleepEntryTime := h.sleepEntryTime
  lastRunAt := h.lastRunAt

theorem quickPass (h : Agree c c') :
    Agree (quickPass runnable bout rt c) (quickPass runnable bout rt c') := by
  rw [Imperator.quickPass, Imperator.quickPass, h.avgRt, h.tier, h.deficit]
  split
  · exact ⟨⟨rfl, rfl, (getTier_clearStable _).trans (h.tier.trans (getTier_clearStable _).symm),
      (getStable_clearStable _).trans (getStable_clearStable _).symm,
      (hasFlag_clearStable _ _).trans (h.isNew.trans (hasFlag_clearStable _ _).symm), rfl,
      h.overrunCount, h.burstAccUs, h.nextSlice, h.burstCredit, h.sleepEntryTime⟩, h.lastRunAt⟩
  · exact ⟨⟨rfl, rfl, h.tier, h.stable, h.isNew, h.reclassCounter, h.overrunCount, h.burstAccUs,
      h.nextSlice, h.burstCredit, h.sleepEntryTime⟩, h.lastRunAt⟩

theorem fullPass (h : Agree c c') :
    Agree (fullPass ro runnable bout rt c) (fullPass ro runnable bout rt c') where
  deficit := by rw [fullPass_deficit, fullPass_deficit, h.deficit]
  avgRt := by rw [fullPass_avgRt, fullPass_avgRt, h.avgRt]
  tier := by rw [fullPass_tier, fullPass_tier, h.avgRt, h.verdict_eq]
  stable := by rw [fullPass_stable, fullPass_stable, h.avgRt, h.verdict_eq, h.tier]
  isNew := by rw [fullPass_new, fullPass_new, h.isNew, h.deficit]
  reclassCounter := by
    simp only [Imperator.fullPass, h.avgRt, h.verdict_eq, h.tier, h.reclassCounter]
  overrunCount := by simp only [Imperator.fullPass, h.avgRt, h.verdict_eq]
  burstAccUs := h.burstAccUs
  nextSlice := by simp only [Imperator.fullPass, h.avgRt, h.verdict_eq]
  burstCredit := by simp only [Imperator.fullPass, h.avgRt, h.verdict_eq, h.tier, h.burstCredit]
  sleepEntryTime := h.sleepEntryTime
  lastRunAt := h.lastRunAt

/-- Both contexts take the same path. -/
theorem accountBout (h : Agree c c') :
    Agree (accountBout ro runnable bout c) (accountBout ro runnable bout c') := by
  by_cases hback : TakesBackoff c
  · rw [accountBout_of_backoff ro runnable bout hback,
      accountBout_of_backoff ro runnable bout (h.takesBackoff_iff.mpr hback), h.burstSample_eq]
    exact h.entered.quickPass
  · rw [accountBout_of_full ro runnable bout hback,
      accountBout_of_full ro runnable bout (mt h.takesBackoff_iff.mp hback), h.burstSample_eq]
    exact h.entered.fullPass

/-! ### Seeding and running -/

theorem initTaskExec (h : Agree c c') (prio : U32) :
    Agree (initTaskExec ro prio c) (initTaskExec ro prio c') where
  deficit := by
    show extractDeficit (packDeficitAvg _ _) = extractDeficit (packDeficitAvg _ _)
    rw [extractDeficit_pack, extractDeficit_pack, h.deficit]
  avgRt := by rw [initTaskExec_avgRt, initTaskExec_avgRt]
  tier := by rw [initTaskExec_tier, initTaskExec_tier]
  stable := by rw [initTaskExec_stable, initTaskExec_stable]
  isNew := by
    rw [initTaskExec_packedInfo, initTaskExec_packedInfo, hasFlag_setTierStable,
      hasFlag_setTierStable, h.isNew]
  reclassCounter := rfl
  overrunCount := rfl
  burstAccUs := h.burstAccUs
  nextSlice := rfl
  burstCredit := rfl
  sleepEntryTime := rfl
  lastRunAt := h.lastRunAt

theorem initTaskFork {parent parent' : TaskCtx} (h : Agree c c')
    (hparent : SameClassification parent parent') :
    Agree (initTaskFork ro parent c) (initTaskFork ro parent' c') where
  deficit := (extractDeficit_pack _ _).trans (extractDeficit_pack _ _).symm
  avgRt := by rw [initTaskFork_avgRt, initTaskFork_avgRt, hparent.avgRt]
  tier := by rw [initTaskFork_tier, initTaskFork_tier, hparent.tier]
  stable := by rw [initTaskFork_stable, initTaskFork_stable, h.stable]
  isNew := by
    show hasFlag (setTier _ _) _ = hasFlag (setTier _ _) _
    rw [hasFlag_setTier, hasFlag_setTier, h.isNew]
  reclassCounter := h.reclassCounter
  overrunCount := h.overrunCount
  burstAccUs := h.burstAccUs
  nextSlice := congrArg ro.tierSlice hparent.tier
  burstCredit := rfl
  sleepEntryTime := rfl
  lastRunAt := h.lastRunAt

/-- The latency average is free, so it may be updated in one of the two only. -/
theorem runningCtx (h : Agree c c') (now : U64) :
    Agree (runningCtx now c) (runningCtx now c') := by
  have hjitter : ∀ d : TaskCtx, Agree { d with lastRunAt := now.setWidth 32 }
      (Imperator.runningCtx now d) := by
    intro d
    rw [Imperator.runningCtx, updateJitter]
    split <;> exact ⟨⟨rfl, rfl, rfl, rfl, rfl, rfl, rfl, rfl, rfl, rfl, rfl⟩, rfl⟩
  have hstamp : Agree { c with lastRunAt := now.setWidth 32 }
      { c' with lastRunAt := now.setWidth 32 } :=
    ⟨⟨h.deficit, h.avgRt, h.tier, h.stable, h.isNew, h.reclassCounter, h.overrunCount,
      h.burstAccUs, h.nextSlice, h.burstCredit, h.sleepEntryTime⟩, rfl⟩
  exact (hjitter c).symm.trans (hstamp.trans (hjitter c'))

end Agree

/-! ### One callback -/

/-- The same call, in two runs. Whether a wakeup comes out of an interrupt is free, and so are the
shared state and what an event reads of the machine; the clock, the flags of an enqueue, the outcome
of the idle search and the parent's classification are not. -/
inductive SameCall : TaskOp → TaskOp → Prop
  | enable {prio : U32} {alloc : Bool} : SameCall (.enable prio alloc) (.enable prio alloc)
  | initTask {fork : Bool} {prio : U32} {parent parent' : Option TaskCtx} :
      Option.Rel SameClassification parent parent' →
      SameCall (.initTask fork prio parent) (.initTask fork prio parent')
  | selectCpu {irq irq' direct : Bool} : SameCall (.selectCpu irq direct) (.selectCpu irq' direct)
  | enqueue {env env' : EnqueueEnv} {bss bss' : Bss} : env'.now = env.now →
      env'.flags = env.flags → SameCall (.enqueue env bss) (.enqueue env' bss')
  | running {cpu cpu' : Cpu} {now : U64} {bss bss' : Bss} :
      SameCall (.running cpu now bss) (.running cpu' now bss')
  | tick {env env' : TickEnv} {bss bss' : Bss} : env'.now = env.now →
      SameCall (.tick env bss) (.tick env' bss')
  | stopping {cpu cpu' : Cpu} {now : U64} {runnable : Bool} {bss bss' : Bss} :
      SameCall (.stopping cpu now runnable bss) (.stopping cpu' now runnable bss')
  | lockHolder {held : Bool} : SameCall (.lockHolder held) (.lockHolder held)

/-- The program with statistics on or off. -/
def Rodata.withStats (ro : Rodata) (stats : Bool) : Rodata := { ro with enableStats := stats }

/-- Ticks differ in the lock skips they count. -/
theorem agree_tick {env env' : TickEnv} (stats : Bool) (h : Agree c c')
    (hnow : env'.now = env.now) : Option.Rel Agree (imperatorTick ro env (some c) bss).ctx
      (imperatorTick (ro.withStats stats) env' (some c') bss').ctx := by
  obtain ⟨skips, htick⟩ := imperatorTick_ctx ro env c bss
  obtain ⟨skips', htick'⟩ := imperatorTick_ctx (ro.withStats stats) env' c' bss'
  rw [htick, htick', hnow, h.lastRunAt]
  exact .some ⟨⟨h.deficit, h.avgRt, h.tier, h.stable, h.isNew, h.reclassCounter, h.overrunCount,
    h.burstAccUs, h.nextSlice, h.burstCredit, h.sleepEntryTime⟩, rfl⟩

theorem agree_stopping {cpu cpu' : Cpu} {now : U64} (stats : Bool) (h : Agree c c') :
    Option.Rel Agree (TaskOp.apply ro (some c) (.stopping cpu now runnable bss))
      (TaskOp.apply (ro.withStats stats) (some c') (.stopping cpu' now runnable bss')) := by
  by_cases hzero : c.lastRunAt = 0
  · rw [apply_stopping_of_unstamped hzero,
      apply_stopping_of_unstamped (h.lastRunAt.trans hzero)]
    exact .some h
  · have hbout : boutUs (now.setWidth 32) c'.lastRunAt = boutUs (now.setWidth 32) c.lastRunAt := by
      rw [h.lastRunAt]
    rw [apply_stopping_of_stamped hzero,
      apply_stopping_of_stamped fun hz => hzero (h.lastRunAt.symm.trans hz), hbout]
    have hstamped : ∀ stamp, Agree { c with sleepEntryTime := stamp }
        { c' with sleepEntryTime := stamp } := fun stamp =>
      ⟨⟨h.deficit, h.avgRt, h.tier, h.stable, h.isNew, h.reclassCounter, h.overrunCount,
        h.burstAccUs, h.nextSlice, h.burstCredit, rfl⟩, h.lastRunAt⟩
    exact .some (hstamped _).accountBout

/-- Without a context only its creation does something. -/
theorem agree_apply_none (ro : Rodata) (stats : Bool) (hcall : SameCall op op') :
    Option.Rel Agree (op.apply ro none) (op'.apply (ro.withStats stats) none) := by
  cases hcall with
  | @enable prio alloc =>
    cases alloc with
    | false => exact .none
    | true => exact .some (Agree.refl _)
  | @initTask fork prio parent parent' hparent =>
    cases fork <;> cases hparent <;> exact .none
  | @enqueue env env' bss bss' =>
    show Option.Rel Agree (imperatorEnqueue ro env none bss).ctx
      (imperatorEnqueue (ro.withStats stats) env' none bss').ctx
    have hnone : ∀ (ro : Rodata) (env : EnqueueEnv) (bss : Bss),
        (imperatorEnqueue ro env none bss).ctx = none := by
      intro ro env bss
      rcases imperatorEnqueue_ctx ro env none bss with hctx | ⟨c, hc, -⟩
      · exact hctx
      · cases hc
    rw [hnone, hnone]
    exact .none
  | selectCpu | running | tick | stopping | lockHolder => exact .none

theorem agree_apply_some (stats : Bool) (hcall : SameCall op op') (h : Agree c c') :
    Option.Rel Agree (op.apply ro (some c)) (op'.apply (ro.withStats stats) (some c')) := by
  cases hcall with
  | enable => exact .some h
  | @initTask fork prio parent parent' hparent =>
    cases fork with
    | false => exact .some (h.initTaskExec prio)
    | true =>
      cases hparent with
      | none => exact .some h
      | some hparent => exact .some (h.initTaskFork hparent)
  | @selectCpu irq irq' direct =>
    exact .some ((selectCpuCtx_agree irq direct c).symm.trans
      (h.trans (selectCpuCtx_agree irq' direct c')))
  | @enqueue env env' bss bss' hnow hflags =>
    show Option.Rel Agree (imperatorEnqueue ro env (some c) bss).ctx
      (imperatorEnqueue (ro.withStats stats) env' (some c') bss').ctx
    rw [imperatorEnqueue_ctx_some, imperatorEnqueue_ctx_some, hflags]
    split
    · exact .some (h.standardCtx hnow hflags)
    · exact .some h
  | @running cpu cpu' now => exact .some (h.runningCtx now)
  | tick hnow => exact agree_tick stats h hnow
  | stopping => exact agree_stopping stats h
  | @lockHolder held =>
    exact .some ((lockHolderCtx_agree held c).symm.trans (h.trans (lockHolderCtx_agree held c')))

/-- **One callback.** -/
theorem agree_apply (stats : Bool) (hcall : SameCall op op') (h : Option.Rel Agree ctx ctx') :
    Option.Rel Agree (op.apply ro ctx) (op'.apply (ro.withStats stats) ctx') := by
  cases h with
  | none => exact agree_apply_none ro stats hcall
  | some h => exact agree_apply_some stats hcall h

/-! ### Whole runs -/

theorem agree_of_runs {stats : Bool} (hcalls : List.Forall₂ SameCall ops ops')
    (hrun : TaskRun ro anyOp ops ctx) (hrun' : TaskRun (ro.withStats stats) anyOp ops' ctx') :
    Option.Rel Agree ctx ctx' := by
  rw [hrun.eq_foldl, hrun'.eq_foldl]
  refine List.rel_foldl ?_ .none hcalls
  intro _ _ h _ _ hcall
  exact agree_apply stats hcall h

/-- Two calls of `imperator_select_cpu` with the same previous CPU, the same affinity and the same
outcomes of the idle searches. -/
structure SameSearches (env env' : SelectEnv) : Prop where
  prevCpu : env'.prevCpu = env.prevCpu
  search : env'.search = env.search
  searchFrom : env'.searchFrom = env.searchFrom
  allowed : env'.allowed = env.allowed

/-- What two runs may not differ in: the classification, the queue of the next enqueue, and where
the next wakeup is placed. That leaves tier, key, slice and kick of a dispatch. -/
structure SignalsConfined (ro ro' : Rodata) (ctx ctx' : Option TaskCtx) : Prop where
  classification : Option.Rel SameClassification ctx ctx'
  queue : ∀ (env env' : EnqueueEnv) (bss bss' : Bss), env'.taskCpu = env.taskCpu →
    (imperatorEnqueue ro' env' ctx' bss').insert.llc = (imperatorEnqueue ro env ctx bss).insert.llc
  place : ∀ (hy : HybridRodata) (env env' : SelectEnv) (bss bss' : Bss), SameSearches env env' →
    (imperatorSelectCpu ro' hy env' ctx' bss').cpu = (imperatorSelectCpu ro hy env ctx bss).cpu ∧
      (imperatorSelectCpu ro' hy env' ctx' bss').insert.map LocalInsert.cpu
        = (imperatorSelectCpu ro hy env ctx bss).insert.map LocalInsert.cpu

/-- **Context signals do not leak.** After the same calls the classification is the same, whatever
interrupts, mailboxes and statistics were in either run. -/
theorem signals_do_not_leak {stats : Bool} (hcalls : List.Forall₂ SameCall ops ops')
    (hrun : TaskRun ro anyOp ops ctx) (hrun' : TaskRun (ro.withStats stats) anyOp ops' ctx') :
    SignalsConfined ro (ro.withStats stats) ctx ctx' where
  classification := by
    cases agree_of_runs hcalls hrun hrun' with
    | none => exact .none
    | some h => exact .some h.toSameClassification
  queue env env' bss bss' htask := by
    rw [imperatorEnqueue_llc, imperatorEnqueue_llc, htask]
    rfl
  place hy env env' bss bss' hsame := by
    have hcpu : hybridCpu (ro.withStats stats) hy env' env'.search.1
        = hybridCpu ro hy env env.search.1 := by
      rw [hybridCpu, hybridCpu, hsame.search, hsame.searchFrom, hsame.allowed]
      rfl
    obtain ⟨hplace, hinsert⟩ := imperatorSelectCpu_cpu ro hy env ctx bss
    obtain ⟨hplace', hinsert'⟩ := imperatorSelectCpu_cpu (ro.withStats stats) hy env' ctx' bss'
    rw [hplace, hplace', hinsert, hinsert', hcpu, hsame.search, hsame.prevCpu]
    exact ⟨rfl, rfl⟩

/-- A task of nice value 0 wakes up, runs for a millisecond and sleeps. `irq` says whether the
wakeup comes out of an interrupt, `mbox` what the mailbox of the waker holds. -/
def wakeupRun (irq : Bool) (mbox : MailboxEntry) : List TaskOp :=
  let bss := { initBss defaultRodata with megaMailbox := fun _ => mbox }
  [.enable 120 true, .selectCpu irq false,
    .enqueue ⟨0, 0, 1000000, false, ⟨true, false⟩⟩ bss, .running 0 2000000 bss,
    .stopping 0 3024000 false bss]

/-- An interrupt and a waker of T0 in one run, neither in the other. -/
theorem wakeupRun_confined : ∃ ctx ctx',
    TaskRun defaultRodata anyOp (wakeupRun true ⟨mboxFlags 0, 0, 0⟩) ctx ∧
      TaskRun (defaultRodata.withStats true) anyOp (wakeupRun false ⟨0, 0, 0⟩) ctx' ∧
        SignalsConfined defaultRodata (defaultRodata.withStats true) ctx ctx' := by
  have hcalls : List.Forall₂ SameCall (wakeupRun true ⟨mboxFlags 0, 0, 0⟩)
      (wakeupRun false ⟨0, 0, 0⟩) :=
    .cons .enable (.cons .selectCpu (.cons (.enqueue rfl rfl) (.cons .running
      (.cons .stopping .nil))))
  have hrun := taskRun_anyOp defaultRodata (wakeupRun true ⟨mboxFlags 0, 0, 0⟩)
  have hrun' := taskRun_anyOp (defaultRodata.withStats true) (wakeupRun false ⟨0, 0, 0⟩)
  exact ⟨_, _, hrun, hrun', signals_do_not_leak hcalls hrun hrun'⟩

end Imperator
