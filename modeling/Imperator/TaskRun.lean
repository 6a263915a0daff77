import Imperator.Enqueue
import Imperator.ForMathlib.Transition
import Imperator.Running

/-!
# The life of one task context

Everything that writes a task context, as the events of one machine whose state is the context, or
`none` before it is allocated. Times, CPUs and the shared state an event finds are part of the
event, so a run puts no order on the callbacks and no condition on the clock; what a result needs
of the kernel's order it states as a guard on the events.

`Leaves` says once which context an event leaves of the one it finds, path by path. `Effect` is what
that comes to for the account: an event creates the context, keeps its account, accounts for a bout,
or seeds it again. All invariants of contexts are proved by cases on one of the two.

## Main definitions

* `TaskOp`, `TaskOp.apply` — the events
* `TaskRun` — runs from a task without a context, under a guard
* `Leaves`, `leaves_of_apply` — what an event leaves behind
* `Effect`, `effect_of_apply` — and what that does to the account
-/

namespace Imperator

open Transition

/-- The callbacks that write a task context, with what they read. -/
inductive TaskOp
  /-- `imperator_enable`; `alloc` says whether the allocation succeeds -/
  | enable (prio : U32) (alloc : Bool)
  /-- `imperator_init_task`; `parent` is the context of the parent task -/
  | initTask (fork : Bool) (prio : U32) (parent : Option TaskCtx)
  /-- `imperator_select_cpu`: `irq` stamps the interrupt flag, `direct` consumes it -/
  | selectCpu (irq direct : Bool)
  /-- `imperator_enqueue` -/
  | enqueue (env : EnqueueEnv) (bss : Bss)
  /-- `imperator_running` -/
  | running (cpu : Cpu) (now : U64) (bss : Bss)
  /-- `imperator_tick` -/
  | tick (env : TickEnv) (bss : Bss)
  /-- `imperator_stopping` -/
  | stopping (cpu : Cpu) (now : U64) (runnable : Bool) (bss : Bss)
  /-- `set_lock_holder` and `clear_lock_holder` -/
  | lockHolder (held : Bool)

/-- What `imperator_select_cpu` does to the context of the task it places. -/
def selectCpuCtx (irq direct : Bool) (c : TaskCtx) : TaskCtx :=
  let c := if irq then { c with packedInfo := setFlag c.packedInfo .irqWake } else c
  if direct then consumeIrqWake c else c

/-- `set_lock_holder` and `clear_lock_holder` -/
def lockHolderCtx (held : Bool) (c : TaskCtx) : TaskCtx :=
  if held then { c with packedInfo := setFlag c.packedInfo .lockHolder }
  else { c with packedInfo := clearFlag c.packedInfo .lockHolder, lockSkipCount := 0 }

/-- The context after an event. -/
def TaskOp.apply (ro : Rodata) (ctx : Option TaskCtx) : TaskOp → Option TaskCtx
  | .enable prio alloc => imperatorEnable ro prio alloc ctx
  | .initTask fork prio parent => imperatorInitTask ro fork prio parent ctx
  | .selectCpu irq direct => ctx.map (selectCpuCtx irq direct)
  | .enqueue env bss => (imperatorEnqueue ro env ctx bss).ctx
  | .running cpu now bss => (imperatorRunning ro cpu now ctx bss).1
  | .tick env bss => (imperatorTick ro env ctx bss).ctx
  | .stopping cpu now runnable bss => (imperatorStopping ro cpu now runnable ctx bss).1
  | .lockHolder held => ctx.map (lockHolderCtx held)

/-- The runs of a context under a guard on its events. -/
def TaskRun (ro : Rodata) (admits : Option TaskCtx → TaskOp → Prop) (ops : List TaskOp)
    (ctx : Option TaskCtx) : Prop :=
  Run (Guarded (ofNext (TaskOp.apply ro)) admits) none ops ctx

/-- No guard. -/
def anyOp : Option TaskCtx → TaskOp → Prop := fun _ _ => True

/-- A context some run reaches. -/
def Reachable (ro : Rodata) (c : TaskCtx) : Prop := ∃ ops, TaskRun ro anyOp ops (some c)

/-- The effect of an event that leaves a context behind. -/
inductive Effect (ro : Rodata) : Option TaskCtx → TaskOp → TaskCtx → Prop
  | created {prio : U32} : Effect ro none (.enable prio true) (allocTaskCtxCold ro prio)
  /-- the account is kept; the average too, except that an enqueue after a sleep may halve its
  distance to the middle of the tier -/
  | kept {c c' : TaskCtx} {op : TaskOp} : SameAccount c c' →
      (c'.avgRt = c.avgRt ∨ (∃ env bss, op = .enqueue env bss) ∧ c.sleepEntryTime ≠ 0 ∧
        c'.avgRt.toNat = (c.avgRt.toNat + (tierSleepMid c.tier).toNat) / 2) →
      Effect ro (some c) op c'
  | accounted {c : TaskCtx} {cpu : Cpu} {now : U64} {runnable : Bool} {bss : Bss} {bout : U16}
      {stamp : U32} : chargedBout (now.setWidth 32) c = some bout →
      Effect ro (some c) (.stopping cpu now runnable bss)
        (accountBout ro runnable bout { c with sleepEntryTime := stamp })
  | execed {c : TaskCtx} {prio : U32} {parent : Option TaskCtx} :
      Effect ro (some c) (.initTask false prio parent) (initTaskExec ro prio c)
  | forked {c parent : TaskCtx} {prio : U32} :
      Effect ro (some c) (.initTask true prio (some parent)) (initTaskFork ro parent c)

/-- The run of a list of events that are admitted in any state. -/
theorem taskRun_foldl (ro : Rodata) {admits : Option TaskCtx → TaskOp → Prop} (ops : List TaskOp)
    (h : ∀ ctx, ∀ op ∈ ops, admits ctx op) :
    TaskRun ro admits ops (ops.foldl (TaskOp.apply ro) none) :=
  Run.foldl none ops h

theorem taskRun_anyOp (ro : Rodata) (ops : List TaskOp) :
    TaskRun ro anyOp ops (ops.foldl (TaskOp.apply ro) none) :=
  taskRun_foldl ro ops fun _ _ _ => trivial

variable {ro : Rodata} {ctx : Option TaskCtx} {c c' : TaskCtx} {op : TaskOp}

theorem selectCpuCtx_sameAccount (irq direct : Bool) (c : TaskCtx) :
    SameAccount c (selectCpuCtx irq direct c) ∧ (selectCpuCtx irq direct c).avgRt = c.avgRt := by
  have hstamp : ∀ b : Bool, ∃ p,
      (if b then { c with packedInfo := setFlag c.packedInfo .irqWake } else c)
        = { c with packedInfo := p } ∧ getTier p = c.tier ∧ getStable p = c.stable ∧
          hasFlag p .new = hasFlag c.packedInfo .new := by
    intro b
    cases b
    · exact ⟨c.packedInfo, rfl, rfl, rfl, rfl⟩
    · exact ⟨_, rfl, getTier_setFlag _ _, getStable_setFlag _ _, by simp⟩
  obtain ⟨p, hp, htier, hstable, hnew⟩ := hstamp irq
  rw [selectCpuCtx, hp]
  cases direct
  · exact ⟨⟨htier, hstable, rfl, hnew, rfl, rfl⟩, rfl⟩
  · obtain ⟨q, hq, htier', hstable', hnew'⟩ := consumeIrqWake_eq { c with packedInfo := p }
    rw [if_pos rfl, hq]
    exact ⟨⟨htier'.trans htier, hstable'.trans hstable, rfl, hnew'.trans hnew, rfl, rfl⟩, rfl⟩

theorem lockHolderCtx_sameAccount (held : Bool) (c : TaskCtx) :
    SameAccount c (lockHolderCtx held c) ∧ (lockHolderCtx held c).avgRt = c.avgRt := by
  rw [lockHolderCtx]
  cases held
  · exact ⟨⟨getTier_clearFlag _ _, getStable_clearFlag _ _, rfl, by simp, rfl, rfl⟩, rfl⟩
  · exact ⟨⟨getTier_setFlag _ _, getStable_setFlag _ _, rfl, by simp, rfl, rfl⟩, rfl⟩

theorem recoveredCtx_avgRt (env : EnqueueEnv) (c : TaskCtx) :
    (recoveredCtx env c).avgRt = c.avgRt ∨ c.sleepEntryTime ≠ 0 ∧
      (recoveredCtx env c).avgRt.toNat
        = (c.avgRt.toNat + (tierSleepMid c.tier).toNat) / 2 :=
  postSleepRecovery_avgRt _ _

/-- Stopping a task that was not stamped does nothing. -/
theorem apply_stopping_of_unstamped {cpu : Cpu} {now : U64} {runnable : Bool} {bss : Bss}
    (h : c.lastRunAt = 0) :
    TaskOp.apply ro (some c) (.stopping cpu now runnable bss) = some c := by
  show (imperatorStopping ro cpu now runnable (some c) bss).1 = some c
  rw [imperatorStopping, if_neg (not_not.mpr h)]

/-- Stopping a stamped task accounts for the bout measured from the stamp. -/
theorem apply_stopping_of_stamped {cpu : Cpu} {now : U64} {runnable : Bool} {bss : Bss}
    (h : c.lastRunAt ≠ 0) : TaskOp.apply ro (some c) (.stopping cpu now runnable bss)
      = some (accountBout ro runnable (boutUs (now.setWidth 32) c.lastRunAt)
          { c with sleepEntryTime := if runnable then 0 else now.setWidth 32 }) := by
  show (imperatorStopping ro cpu now runnable (some c) bss).1 = _
  rw [imperatorStopping, if_pos h, stoppingCtx, reclassifyTaskCold, chargedBout, if_neg h]

/-- A stop that charges `bout` accounts for it. -/
theorem apply_stopping_of_charged {now : U64} {bout : U16} (ro : Rodata) (cpu : Cpu)
    (runnable : Bool) (bss : Bss) (h : chargedBout (now.setWidth 32) c = some bout) : ∃ stamp,
    TaskOp.apply ro (some c) (.stopping cpu now runnable bss)
      = some (accountBout ro runnable bout { c with sleepEntryTime := stamp }) := by
  rw [chargedBout] at h
  split at h
  · cases h
  · next hrun =>
    obtain rfl := Option.some.inj h
    exact ⟨_, apply_stopping_of_stamped hrun⟩

/-- So the context after such a stop, however it is given, is that with the bout accounted for. -/
theorem accountBout_of_charged {cpu : Cpu} {now : U64} {runnable : Bool} {bss : Bss} {bout : U16}
    (hbout : chargedBout (now.setWidth 32) c = some bout)
    (h : TaskOp.apply ro (some c) (.stopping cpu now runnable bss) = some c') :
    ∃ stamp, c' = accountBout ro runnable bout { c with sleepEntryTime := stamp } := by
  obtain ⟨stamp, hstop⟩ := apply_stopping_of_charged ro cpu runnable bss hbout
  exact ⟨stamp, Option.some.inj (h.symm.trans hstop)⟩

/-- A stop does nothing, or accounts for the bout it charges. -/
theorem apply_stopping_cases {cpu : Cpu} {now : U64} {runnable : Bool} {bss : Bss}
    (h : TaskOp.apply ro (some c) (.stopping cpu now runnable bss) = some c') :
    chargedBout (now.setWidth 32) c = none ∧ c' = c ∨
      ∃ bout, chargedBout (now.setWidth 32) c = some bout ∧
        c' = accountBout ro runnable bout
          { c with sleepEntryTime := if runnable then 0 else now.setWidth 32 } := by
  by_cases hrun : c.lastRunAt = 0
  · exact Or.inl ⟨if_pos hrun, Option.some.inj (h.symm.trans (apply_stopping_of_unstamped hrun))⟩
  · exact Or.inr ⟨_, if_neg hrun, Option.some.inj (h.symm.trans (apply_stopping_of_stamped hrun))⟩

/-- The context an event leaves of a task that has one, with a case for every path of a callback. -/
inductive Leaves (ro : Rodata) (c : TaskCtx) : TaskOp → TaskCtx → Prop
  | enabled {prio : U32} {alloc : Bool} : Leaves ro c (.enable prio alloc) c
  | execed {prio : U32} {parent : Option TaskCtx} :
      Leaves ro c (.initTask false prio parent) (initTaskExec ro prio c)
  | orphaned {prio : U32} : Leaves ro c (.initTask true prio none) c
  | forked {prio : U32} {parent : TaskCtx} :
      Leaves ro c (.initTask true prio (some parent)) (initTaskFork ro parent c)
  | selected {irq direct : Bool} : Leaves ro c (.selectCpu irq direct) (selectCpuCtx irq direct c)
  /-- neither a wakeup nor a preemption -/
  | requeued {env : EnqueueEnv} {bss : Bss} : ¬ (env.flags.wakeup ∨ env.flags.preempt) →
      Leaves ro c (.enqueue env bss) c
  | enqueued {env : EnqueueEnv} {bss : Bss} : env.flags.wakeup ∨ env.flags.preempt →
      Leaves ro c (.enqueue env bss) (standardCtx ro env c)
  | ran {cpu : Cpu} {now : U64} {bss : Bss} : Leaves ro c (.running cpu now bss) (runningCtx now c)
  | ticked {env : TickEnv} {bss : Bss} {skips : U8} : Leaves ro c (.tick env bss)
      { c with
        lastRunAt := if c.lastRunAt = 0 then env.now.setWidth 32 else c.lastRunAt
        lockSkipCount := skips }
  /-- a stop without a stamp -/
  | uncharged {cpu : Cpu} {now : U64} {runnable : Bool} {bss : Bss} :
      chargedBout (now.setWidth 32) c = none → Leaves ro c (.stopping cpu now runnable bss) c
  | accounted {cpu : Cpu} {now : U64} {runnable : Bool} {bss : Bss} {bout : U16} :
      chargedBout (now.setWidth 32) c = some bout →
      Leaves ro c (.stopping cpu now runnable bss) (accountBout ro runnable bout
        { c with sleepEntryTime := if runnable then 0 else now.setWidth 32 })
  | marked {held : Bool} : Leaves ro c (.lockHolder held) (lockHolderCtx held c)

/-- **What an event leaves behind.** -/
theorem leaves_of_apply (h : op.apply ro (some c) = some c') : Leaves ro c op c' := by
  cases op with
  | enable prio alloc =>
    obtain rfl : c = c' := Option.some.inj h
    exact .enabled
  | initTask fork prio parent =>
    cases fork with
    | false =>
      obtain rfl : initTaskExec ro prio c = c' := Option.some.inj h
      exact .execed
    | true =>
      cases parent with
      | none =>
        obtain rfl : c = c' := Option.some.inj h
        exact .orphaned
      | some parent =>
        obtain rfl : initTaskFork ro parent c = c' := Option.some.inj h
        exact .forked
  | selectCpu irq direct =>
    obtain rfl : selectCpuCtx irq direct c = c' := Option.some.inj h
    exact .selected
  | enqueue env bss =>
    have hctx := (imperatorEnqueue_ctx_some ro env c bss).symm.trans h
    split at hctx
    · next hstandard =>
      obtain rfl := Option.some.inj hctx
      exact .enqueued hstandard
    · next hearly =>
      obtain rfl := Option.some.inj hctx
      exact .requeued hearly
  | running cpu now bss =>
    obtain rfl := Option.some.inj (imperatorRunning_ctx.symm.trans h)
    exact .ran
  | tick env bss =>
    obtain ⟨skips, htick⟩ := imperatorTick_ctx ro env c bss
    obtain rfl := Option.some.inj (htick.symm.trans h)
    exact .ticked
  | stopping cpu now runnable bss =>
    rcases apply_stopping_cases h with ⟨hnone, rfl⟩ | ⟨bout, hbout, rfl⟩
    · exact .uncharged hnone
    · exact .accounted hbout
  | lockHolder held =>
    obtain rfl : lockHolderCtx held c = c' := Option.some.inj h
    exact .marked

/-- Only an enable creates a context. -/
theorem created_of_apply (h : op.apply ro none = some c') :
    ∃ prio, op = .enable prio true ∧ c' = allocTaskCtxCold ro prio := by
  cases op with
  | enable prio alloc =>
    cases alloc with
    | false => cases h
    | true => exact ⟨prio, rfl, (Option.some.inj h).symm⟩
  | initTask fork prio parent => cases fork <;> cases parent <;> cases h
  | enqueue env bss =>
    rcases imperatorEnqueue_ctx ro env none bss with hctx | ⟨c, hnone, -⟩
    · cases hctx.symm.trans h
    · cases hnone
  | selectCpu | running | tick | stopping | lockHolder => cases h

/-- **What an event does to a context.** -/
theorem effect_of_apply (h : op.apply ro ctx = some c') : Effect ro ctx op c' := by
  cases ctx with
  | none =>
    obtain ⟨prio, rfl, rfl⟩ := created_of_apply h
    exact .created
  | some c =>
    cases leaves_of_apply h with
    | enabled | orphaned | requeued | uncharged => exact .kept (SameAccount.refl _) (Or.inl rfl)
    | execed => exact .execed
    | forked => exact .forked
    | selected =>
      exact .kept (selectCpuCtx_sameAccount _ _ c).1 (Or.inl (selectCpuCtx_sameAccount _ _ c).2)
    | @enqueued env bss _ =>
      refine .kept (standardCtx_sameAccount ro env c) ?_
      rw [standardCtx_avgRt]
      exact (recoveredCtx_avgRt env c).imp_right fun h => ⟨⟨env, bss, rfl⟩, h⟩
    | ran => exact .kept (runningCtx_sameAccount _ c) (Or.inl (runningCtx_avgRt _ c))
    | ticked => exact .kept ⟨rfl, rfl, rfl, rfl, rfl, rfl⟩ (Or.inl rfl)
    | accounted hbout => exact .accounted hbout
    | marked =>
      exact .kept (lockHolderCtx_sameAccount _ c).1 (Or.inl (lockHolderCtx_sameAccount _ c).2)

/-- An event never removes a context. -/
theorem apply_isSome (ro : Rodata) (c : TaskCtx) (op : TaskOp) :
    ∃ c', op.apply ro (some c) = some c' := by
  cases op with
  | enable prio alloc => exact ⟨c, rfl⟩
  | initTask fork prio parent => cases fork <;> cases parent <;> exact ⟨_, rfl⟩
  | selectCpu irq direct => exact ⟨_, rfl⟩
  | enqueue env bss =>
    rcases imperatorEnqueue_ctx ro env (some c) bss with h | ⟨_, -, h⟩ <;> exact ⟨_, h⟩
  | running cpu now bss => exact ⟨_, rfl⟩
  | tick env bss =>
    obtain ⟨skips, h⟩ := imperatorTick_ctx ro env c bss
    exact ⟨_, h⟩
  | stopping cpu now runnable bss =>
    by_cases hrun : c.lastRunAt = 0
    · exact ⟨_, apply_stopping_of_unstamped hrun⟩
    · exact ⟨_, apply_stopping_of_stamped hrun⟩
  | lockHolder held => exact ⟨_, rfl⟩

theorem run_isSome {admits : Option TaskCtx → TaskOp → Prop} {ops : List TaskOp}
    (h : Run (Guarded (ofNext (TaskOp.apply ro)) admits) (some c) ops ctx) :
    ∃ d, ctx = some d := by
  refine Run.invariant (I := fun ctx => ∃ d, ctx = some d) ?_ h ⟨c, rfl⟩
  rintro _ op _ ⟨d, rfl⟩ ⟨-, rfl⟩
  exact apply_isSome ro d op

/-- **Invariants of contexts.** What a new context has and every admitted event keeps, every context
a guarded run reaches has. -/
theorem TaskRun.invariant_of_apply {admits : Option TaskCtx → TaskOp → Prop} {I : TaskCtx → Prop}
    (hcreated : ∀ prio, I (allocTaskCtxCold ro prio))
    (hstep : ∀ c op c', I c → admits (some c) op → op.apply ro (some c) = some c' → I c')
    {ops : List TaskOp} (h : TaskRun ro admits ops (some c)) : I c := by
  have hall : ∀ d, some c = some d → I d := by
    refine Run.invariant (I := fun ctx => ∀ d, ctx = some d → I d) ?_ h fun d hd => by cases hd
    rintro ctx op ctx' hI ⟨hadm, rfl⟩ d hd
    cases ctx with
    | none =>
      cases effect_of_apply hd with
      | created => exact hcreated _
    | some b => exact hstep b op d (hI b rfl) hadm hd
  exact hall c rfl

/-- The same for effects. -/
theorem TaskRun.invariant {admits : Option TaskCtx → TaskOp → Prop} {I : TaskCtx → Prop}
    (hcreated : ∀ prio, I (allocTaskCtxCold ro prio))
    (hstep : ∀ c op c', I c → admits (some c) op → Effect ro (some c) op c' → I c')
    {ops : List TaskOp} (h : TaskRun ro admits ops (some c)) : I c :=
  h.invariant_of_apply hcreated fun b op d hb hadm hd => hstep b op d hb hadm (effect_of_apply hd)

/-- **Invariants with a record.** The same for a context with a record of its run beside it. Nothing
is recorded before the context is created. -/
theorem recorded_invariant {γ : Type*} {record : Option TaskCtx → γ → TaskOp → γ} {g₀ g : γ}
    {I : TaskCtx → γ → Prop}
    (hnone : ∀ op : TaskOp, op.apply ro none = none → record none g₀ op = g₀)
    (hcreated : ∀ prio, I (allocTaskCtxCold ro prio) (record none g₀ (.enable prio true)))
    (hstep : ∀ c g op c', I c g → op.apply ro (some c) = some c' → I c' (record (some c) g op))
    {ops : List TaskOp}
    (h : Run (ofNext (recording (TaskOp.apply ro) record)) (none, g₀) ops (some c, g)) : I c g := by
  have hall : ((some c, g) : Option TaskCtx × γ).1.elim (g = g₀) fun d => I d g := by
    refine Run.invariant (I := fun s : Option TaskCtx × γ =>
      s.1.elim (s.2 = g₀) fun d => I d s.2) ?_ h rfl
    rintro ⟨ctx, g⟩ op _ hI rfl
    cases ctx with
    | none =>
      obtain rfl : g = g₀ := hI
      show (op.apply ro none).elim (record none g op = g) fun d => I d (record none g op)
      cases hop : op.apply ro none with
      | none => exact hnone op hop
      | some d =>
        cases effect_of_apply hop with
        | created => exact hcreated _
    | some b =>
      obtain ⟨d, hd⟩ := apply_isSome ro b op
      show (op.apply ro (some b)).elim (record (some b) g op = g₀)
        fun d => I d (record (some b) g op)
      rw [hd]
      exact hstep b g op d hI hd
  exact hall

/-- A run whose events all meet a condition is a run under that guard. -/
theorem TaskRun.guarded {admits : Option TaskCtx → TaskOp → Prop} {ops : List TaskOp}
    (h : TaskRun ro anyOp ops ctx) (hops : ∀ ctx, ∀ op ∈ ops, admits ctx op) :
    TaskRun ro admits ops ctx := by
  rw [h.eq_foldl]
  exact taskRun_foldl ro ops hops

end Imperator
