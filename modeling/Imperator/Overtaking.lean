import Imperator.Enqueue

/-!
# How long a queued task can be passed

A queued task is passed by a newer one of a better tier as long as the newer one's key is smaller.
Waiting makes up for the difference of the two budgets, so without advances the difference is the
longest a task can be passed. An advance works against that: the newer task starts as if it had
arrived earlier by what it is granted, and can pass for that much longer.

Simultaneous arrivals never notice, because the grant is cut below the gap to the next tier up.
T0 has no tier above it and its grant is not cut, so there the overtaking lasts longest.

## Main results

* `vtime_lt_vtime_of_late` — the overtaking bound, with the advance granted to the newcomer
* `passed_after_budget_gap` — a new T0 task passes a T3 task beyond the difference of their budgets
-/

namespace Imperator

namespace EnqueueResult

/-- The advance a queued task was granted. -/
def granted (ro : Rodata) (r : EnqueueResult) : U64 := capAdvance ro.tierConfigs r.tier r.advance

end EnqueueResult

variable {ro : Rodata} {env : EnqueueEnv} {ctx : Option TaskCtx} {bss : Bss}

/-- Neither a new flow nor a lock holder. -/
def Unflagged (ctx : Option TaskCtx) : Prop :=
  ∀ c, ctx = some c →
    hasFlag c.packedInfo .new = false ∧ hasFlag c.packedInfo .lockHolder = false

theorem flowAdvance_toNat_le (ro : Rodata) (packed : U32) :
    (flowAdvance ro packed).toNat ≤ 2 * ro.newFlowBonusNs.toNat := by
  have hterm : ∀ f : FlowFlag,
      (if hasFlag packed f then ro.newFlowBonusNs else 0).toNat ≤ ro.newFlowBonusNs.toNat := by
    intro f
    split
    · exact le_rfl
    · exact Nat.zero_le _
  have hnew := hterm .new
  have hlock := hterm .lockHolder
  rw [flowAdvance, BitVec.toNat_add]
  exact (Nat.mod_le _ _).trans (by omega)

theorem advance_toNat_le (ro : Rodata) (env : EnqueueEnv) (ctx : Option TaskCtx) (bss : Bss) :
    (imperatorEnqueue ro env ctx bss).advance.toNat ≤ 2 * ro.newFlowBonusNs.toNat := by
  rcases imperatorEnqueue_cases ro env ctx bss with ⟨t, h⟩ | ⟨c, -, h⟩
  · rw [h]
    exact Nat.zero_le _
  · rw [h]
    exact flowAdvance_toNat_le ro _

theorem advance_eq_zero (h : Unflagged ctx) : (imperatorEnqueue ro env ctx bss).advance = 0 := by
  rcases imperatorEnqueue_cases ro env ctx bss with ⟨t, hq⟩ | ⟨c, hc, hq⟩
  · rw [hq]
    rfl
  · obtain ⟨hnew, hlock⟩ := h c hc
    rw [hq, queueStandard, stampedCtx_packedInfo, flowAdvance, hnew, hlock]
    rfl

/-- A grant is never more than what is asked for. -/
theorem capAdvance_toNat_le (cfgs : TierConfigs) (t : Tier) (a : U64) :
    (capAdvance cfgs t a).toNat ≤ a.toNat := by
  rw [capAdvance_toNat]
  exact DeadlineOrder.granted_le _ _ _

/-- Below T0 the grant stays within the distance to the next tier up. -/
theorem capAdvance_add_budget_lt {cfgs : TierConfigs} (hmono : BudgetsIncrease cfgs) {t : Tier}
    (ht : Tier.critical < t) (a : U64) :
    (capAdvance cfgs t a).toNat + (budget cfgs (t - 1)).toNat < (budget cfgs t).toNat := by
  have hpos : 0 < t.val := ht
  have hpred : (t - 1).val = t.val - 1 := by
    revert t
    decide
  have hlt : (budget cfgs (t - 1)).toNat < (budget cfgs t).toNat :=
    hmono (show t - 1 < t by rw [Fin.lt_def, hpred]; omega)
  have hgap : (capAdvance cfgs t a).toNat ≤ DeadlineOrder.gap (natBudget cfgs) t := by
    rw [capAdvance_toNat]
    exact DeadlineOrder.granted_le_gap hpos
  rw [DeadlineOrder.gap, natBudget_val, ← hpred, natBudget_val] at hgap
  omega

/-- **The overtaking bound.** A queued task `A` sorts ahead of a later arrival `B` of a better tier
once `B` is late by more than the difference of the two budgets and the advance granted to `B`.
That advance is zero unless `B` is a new flow or holds a lock; it stays within the distance to the
next tier up for T1 and T2, and within twice the bonus for T0. -/
theorem vtime_lt_vtime_of_late (hmono : BudgetsIncrease ro.tierConfigs)
    {envA envB : EnqueueEnv} {ctxA ctxB : Option TaskCtx} {bssA bssB : Bss} {A B : EnqueueResult}
    (hA : A = imperatorEnqueue ro envA ctxA bssA) (hB : B = imperatorEnqueue ro envB ctxB bssB)
    (hov : envB.now.toNat + (budget ro.tierConfigs B.tier).toNat < 2 ^ 64)
    (hlate : envA.now.toNat + (budget ro.tierConfigs A.tier).toNat + (B.granted ro).toNat
      < envB.now.toNat + (budget ro.tierConfigs B.tier).toNat) :
    A.insert.vtime < B.insert.vtime ∧
      (Unflagged ctxB → B.granted ro = 0) ∧
      (Tier.critical < B.tier → (B.granted ro).toNat
        + (budget ro.tierConfigs (B.tier - 1)).toNat < (budget ro.tierConfigs B.tier).toNat) ∧
      (B.granted ro).toNat ≤ 2 * ro.newFlowBonusNs.toNat := by
  refine ⟨?_, fun hflags => ?_, fun ht => capAdvance_add_budget_lt hmono ht _, ?_⟩
  · have hvA := imperatorEnqueue_vtime ro envA ctxA bssA
    have hvB := imperatorEnqueue_vtime ro envB ctxB bssB
    rw [← hA] at hvA
    rw [← hB] at hvB
    rw [hvA, hvB]
    exact tierDeadline_lt_of_late _ _ hov hlate
  · have hzero : B.advance = 0 := by
      rw [hB]
      exact advance_eq_zero hflags
    have hle := capAdvance_toNat_le ro.tierConfigs B.tier B.advance
    rw [hzero] at hle
    rw [EnqueueResult.granted, hzero]
    exact BitVec.eq_of_toNat_eq (Nat.le_zero.mp hle)
  · rw [EnqueueResult.granted, hB]
    exact (capAdvance_toNat_le _ _ _).trans (advance_toNat_le ro envB ctxB bssB)

/-- The enqueue of a T3 task whose slice expired one second after boot. -/
def bulkArrival : EnqueueResult :=
  imperatorEnqueue defaultRodata ⟨0, 0, 1000000000, false, ⟨false, false⟩⟩
    (some (allocTaskCtxCold defaultRodata 135)) (initBss defaultRodata)

/-- The wakeup of a new task with a negative nice value, `delay` nanoseconds later. -/
def newCriticalArrival (delay : U64) : EnqueueResult :=
  imperatorEnqueue defaultRodata ⟨0, 0, 1000000000 + delay, false, ⟨true, false⟩⟩
    (some (allocTaskCtxCold defaultRodata 110)) (initBss defaultRodata)

/-- The T3 task stays ahead of a new T0 task that is late by 47 ms of budgets and 8 ms of bonus. -/
theorem bulkArrival_stays_ahead :
    bulkArrival.insert.vtime < (newCriticalArrival 55100000).insert.vtime :=
  (vtime_lt_vtime_of_late (A := bulkArrival) (B := newCriticalArrival 55100000)
    (show BudgetsIncrease defaultRodata.tierConfigs by decide) rfl rfl (by decide) (by decide)).1

/-- After 47 ms and a little, more than the difference of the budgets, the new T0 task still sorts
ahead of the T3 task. -/
theorem passed_after_budget_gap :
    (newCriticalArrival 47100000).tier < bulkArrival.tier ∧
      1000000000 + ((budget defaultTierConfigs bulkArrival.tier).toNat
        - (budget defaultTierConfigs (newCriticalArrival 47100000).tier).toNat)
        < 1000000000 + 47100000 ∧
      ¬ bulkArrival.insert.vtime < (newCriticalArrival 47100000).insert.vtime := by
  decide

end Imperator
