import Imperator.PackedInfo

/-!
# Fields with few writers

Three bytes and a half of a context belong to one mechanism each: the backoff counter to the early
return, the skip count to the starvation check, the pending operation to the futex tracepoints. The
other callbacks carry them along. This is said once here, callback by callback, and then read off
event by event.

## Main definitions

* `SameUpkeep` — agreement on the three fields

## Main results

* `pendingFutexOp_of_apply` — no callback writes the pending operation
* `lockSkipCount_of_apply` — the skip count, apart from the tick, the lock probes and exec
* `reclassCounter_of_apply` — the backoff counter, as long as the task stays settled
-/

namespace Imperator

variable {ro : Rodata} {c c' d : TaskCtx} {op : TaskOp} {env : EnqueueEnv} {runnable : Bool}
  {bout rt : U16}

/-! ### The blocks -/

/-- Two contexts with the same backoff counter, skip count and pending operation. -/
structure SameUpkeep (c c' : TaskCtx) : Prop where
  reclassCounter : c'.reclassCounter = c.reclassCounter
  lockSkipCount : c'.lockSkipCount = c.lockSkipCount
  pendingFutexOp : c'.pendingFutexOp = c.pendingFutexOp

theorem SameUpkeep.refl (c : TaskCtx) : SameUpkeep c c := ⟨rfl, rfl, rfl⟩

theorem SameUpkeep.trans (h : SameUpkeep c c') (h' : SameUpkeep c' d) : SameUpkeep c d :=
  ⟨h'.reclassCounter.trans h.reclassCounter, h'.lockSkipCount.trans h.lockSkipCount,
    h'.pendingFutexOp.trans h.pendingFutexOp⟩

theorem consumeIrqWake_sameUpkeep (c : TaskCtx) : SameUpkeep c (consumeIrqWake c) := by
  rw [consumeIrqWake]
  split <;> exact ⟨rfl, rfl, rfl⟩

theorem selectCpuCtx_sameUpkeep (irq direct : Bool) (c : TaskCtx) :
    SameUpkeep c (selectCpuCtx irq direct c) := by
  have hstamp : SameUpkeep c
      (if irq then { c with packedInfo := setFlag c.packedInfo .irqWake } else c) := by
    split <;> exact ⟨rfl, rfl, rfl⟩
  rw [selectCpuCtx]
  split
  · exact hstamp.trans (consumeIrqWake_sameUpkeep _)
  · exact hstamp

theorem postSleepRecovery_sameUpkeep (now : U32) (c : TaskCtx) :
    SameUpkeep c (postSleepRecovery now c) := by
  obtain ⟨fused, h⟩ := postSleepRecovery_eq now c
  rw [h]
  exact ⟨rfl, rfl, rfl⟩

theorem standardCtx_sameUpkeep (ro : Rodata) (env : EnqueueEnv) (c : TaskCtx) :
    SameUpkeep c (standardCtx ro env c) := by
  obtain ⟨slice, credit, hstamped⟩ := stampedCtx_eq ro env c
  have hrecovered : SameUpkeep c (stampedCtx ro env c) := by
    rw [hstamped]
    have hsleep := postSleepRecovery_sameUpkeep (env.now.setWidth 32)
      { c with enqueueTime := env.now.setWidth 32 }
    exact ⟨hsleep.reclassCounter, hsleep.lockSkipCount, hsleep.pendingFutexOp⟩
  exact hrecovered.trans (consumeIrqWake_sameUpkeep _)

theorem runningCtx_sameUpkeep (now : U64) (c : TaskCtx) : SameUpkeep c (runningCtx now c) := by
  rw [runningCtx, updateJitter]
  split <;> exact ⟨rfl, rfl, rfl⟩

/-- Accounting for a bout leaves the other two alone. -/
theorem accountBout_upkeep (ro : Rodata) (runnable : Bool) (bout : U16) (c : TaskCtx) :
    (accountBout ro runnable bout c).lockSkipCount = c.lockSkipCount ∧
      (accountBout ro runnable bout c).pendingFutexOp = c.pendingFutexOp := by
  by_cases hback : TakesBackoff c
  · obtain ⟨fused, packed, counter, h⟩ := quickPass_eq runnable bout (burstSample c bout)
      (entered runnable bout c)
    rw [accountBout_of_backoff ro runnable bout hback, h]
    exact ⟨rfl, rfl⟩
  · rw [accountBout_of_full ro runnable bout hback]
    exact ⟨rfl, rfl⟩

/-! ### Events -/

/-- **Nobody writes the pending operation** but the futex tracepoints, which are no callbacks. -/
theorem pendingFutexOp_of_apply (h : op.apply ro (some c) = some c') :
    c'.pendingFutexOp = c.pendingFutexOp := by
  cases leaves_of_apply h with
  | enabled | orphaned | requeued | uncharged | execed | forked | ticked => rfl
  | @selected irq direct => exact (selectCpuCtx_sameUpkeep irq direct c).pendingFutexOp
  | @enqueued env => exact (standardCtx_sameUpkeep ro env c).pendingFutexOp
  | ran => exact (runningCtx_sameUpkeep _ c).pendingFutexOp
  | accounted => exact (accountBout_upkeep ro _ _ _).2
  | @marked held => cases held <;> rfl

/-- The events that may write the skip count. -/
def TaskOp.WritesSkips : TaskOp → Prop
  | .tick .. | .lockHolder .. => True
  | .initTask fork _ _ => fork = false
  | _ => False

theorem lockSkipCount_of_apply (hop : ¬ op.WritesSkips) (h : op.apply ro (some c) = some c') :
    c'.lockSkipCount = c.lockSkipCount := by
  cases leaves_of_apply h with
  | enabled | orphaned | requeued | uncharged | forked => rfl
  | execed => exact absurd rfl hop
  | ticked | marked => exact absurd trivial hop
  | @selected irq direct => exact (selectCpuCtx_sameUpkeep irq direct c).lockSkipCount
  | @enqueued env => exact (standardCtx_sameUpkeep ro env c).lockSkipCount
  | ran => exact (runningCtx_sameUpkeep _ c).lockSkipCount
  | accounted => exact (accountBout_upkeep ro _ _ _).1

/-- The stops that account for a bout. -/
def TaskOp.accounts (c : TaskCtx) : TaskOp → Bool
  | .stopping _ now _ _ => (chargedBout (now.setWidth 32) c).isSome
  | _ => false

/-- An accounting stop of a settled task that leaves it settled, in its tier, advances the backoff
counter by one. -/
theorem accountBout_reclassCounter (hsettled : c.stable = 3)
    (hstable : (accountBout ro runnable bout c).stable = 3)
    (htier : (accountBout ro runnable bout c).tier = c.tier) :
    (accountBout ro runnable bout c).reclassCounter = c.reclassCounter + 1 := by
  have hentered : (entered runnable bout c).reclassCounter = c.reclassCounter + 1 :=
    if_pos hsettled
  by_cases hback : TakesBackoff c
  · rw [accountBout_of_backoff ro runnable bout hback] at hstable ⊢
    rw [quickPass_stable] at hstable
    rw [quickPass]
    split at hstable
    · exact absurd hstable (by decide)
    · next hkeep =>
      rw [if_neg hkeep]
      exact hentered
  · rw [accountBout_of_full ro runnable bout hback, fullPass_tier] at htier
    rw [accountBout_of_full ro runnable bout hback, ← hentered]
    exact if_neg (not_not.mpr htier)

/-- **The backoff counter of a settled task**, as long as it stays settled in its tier: one for
every accounting stop, and nothing else. -/
theorem reclassCounter_of_apply (h : op.apply ro (some c) = some c') (hsettled : c.stable = 3)
    (hstable : c'.stable = 3) (htier : c'.tier = c.tier) : c'.reclassCounter
      = if op.accounts c then c.reclassCounter + 1 else c.reclassCounter := by
  cases leaves_of_apply h with
  | enabled | orphaned | requeued | forked | ticked => exact (if_neg Bool.false_ne_true).symm
  | execed =>
    rw [initTaskExec_stable] at hstable
    exact absurd hstable (by decide)
  | @selected irq direct =>
    have hsame := (selectCpuCtx_sameUpkeep irq direct c).reclassCounter
    exact hsame.trans (if_neg Bool.false_ne_true).symm
  | @enqueued env =>
    exact (standardCtx_sameUpkeep ro env c).reclassCounter.trans (if_neg Bool.false_ne_true).symm
  | ran => exact (runningCtx_sameUpkeep _ c).reclassCounter.trans (if_neg Bool.false_ne_true).symm
  | uncharged hnone => simp [TaskOp.accounts, hnone]
  | accounted hbout =>
    rw [TaskOp.accounts, hbout, Option.isSome_some, if_pos rfl]
    exact accountBout_reclassCounter hsettled hstable htier
  | @marked held => cases held <;> exact (if_neg Bool.false_ne_true).symm

end Imperator
