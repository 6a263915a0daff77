import Imperator.Counters
import Imperator.IrqBoost
import Imperator.TickExits
import Imperator.Tui
import Mathlib.Algebra.Order.BigOperators.Group.Finset

/-!
# What the numbers of the view say

The view adds up the counters of all CPUs and computes shares and means from the sums, as if they
were numbers of events. They are words, written by four callbacks on 64 CPUs, and the user may set
them to zero at any time.

A tally is kept beside the run: what every entry counts, as numbers of events, and nothing after a
reset. Every counter is its tally cut to 64 bits. The relations the view relies on are relations
between tallies, and they hold of what each entry counts; so they hold of the sums. Two need more
than that. Credit is consumed only where it was earned, because no task has any left when it is
enqueued. And a latency is sampled only where one was stamped: each sample uses up a stamp, and each
stamp is a dispatch from a queue. A reset forgets the dispatch and not the stamp, so this last
relation holds until the first one.

## Main definitions

* `StatField.read`, `Bss.counters` — the counters as `aggregate_stats` reads them
* `Entry.tally` — what an entry counts
* `StatsEvent`, `System.observe` — the entries, and the reset of the view
* `Balanced` — the relations between the sums

## Main results

* `grows_enter` — every counter grows by the tally of the entry
* `balanced_tally` — one entry
* `statistics_balanced` — every run
-/

namespace Imperator

open Transition

variable {ro : Rodata} {hy : HybridRodata} {cpu : Cpu} {bss bss' bss'' : Bss} {n m : Counters}
  {env : EnqueueEnv} {c : TaskCtx}

/-! ### Counters and tallies -/

/-- A counter of one CPU. -/
def StatField.read : StatField → Stats → U64
  | .nrNewFlowDispatches, s => s.nrNewFlowDispatches
  | .nrOldFlowDispatches, s => s.nrOldFlowDispatches
  | .nrTierDispatches t, s => s.nrTierDispatches t
  | .nrStarvationPreemptsTier t, s => s.nrStarvationPreemptsTier t
  | .nrLockHolderSkips, s => s.nrLockHolderSkips
  | .nrIrqWakeBoosts, s => s.nrIrqWakeBoosts
  | .nrWakerTierBoosts, s => s.nrWakerTierBoosts
  | .nrPreemptWithCredit, s => s.nrPreemptWithCredit
  | .nrBurstCreditConsumed, s => s.nrBurstCreditConsumed
  | .nrJitterEwmaSum, s => s.nrJitterEwmaSum
  | .nrJitterEwmaCount, s => s.nrJitterEwmaCount

/-- The counters of all CPUs. -/
def Bss.counters (bss : Bss) (cpu : Cpu) : Counters := fun k => (k.read (bss.globalStats cpu)).toNat

/-- The tally of an enqueue that takes the standard path. -/
def standardTally (ro : Rodata) (env : EnqueueEnv) (bss : Bss) (c : TaskCtx) : Counters
  | .nrNewFlowDispatches => if env.flags.wakeup then 1 else 0
  | .nrOldFlowDispatches => if env.flags.wakeup then 0 else 1
  | .nrTierDispatches t => if t = dispatchTier env bss c.packedInfo then 1 else 0
  | .nrIrqWakeBoosts => if hasFlag c.packedInfo .irqWake then 1 else 0
  | .nrWakerTierBoosts =>
    if dispatchTier env bss c.packedInfo < irqTier c.packedInfo then 1 else 0
  | .nrPreemptWithCredit => if earnsCredit ro env.flags.preempt c.tier then 1 else 0
  | .nrBurstCreditConsumed =>
    if 0#16 < (earnBurstCredit ro env.flags.preempt (recoveredCtx env c)).burstCredit then 1 else 0
  | _ => 0

/-- The tier of a direct dispatch. -/
def directTier (ctx : Option TaskCtx) : Tier :=
  if pending ctx then Tier.critical else ctx.elim Tier.interact TaskCtx.tier

/-- The tally of a direct dispatch. -/
def directTally (ctx : Option TaskCtx) : Counters
  | .nrNewFlowDispatches => 1
  | .nrTierDispatches t => if t = directTier ctx then 1 else 0
  | .nrIrqWakeBoosts => if pending ctx then 1 else 0
  | _ => 0

/-- The tally of `imperator_running`: a sample, where the enqueue was stamped. -/
def runningTally (now : U64) (c : TaskCtx) : Counters
  | .nrJitterEwmaSum => if c.enqueueTime ≠ 0 then (runningCtx now c).jitterEwmaUs.toNat else 0
  | .nrJitterEwmaCount => if c.enqueueTime ≠ 0 then 1 else 0
  | _ => 0

/-- The tally of `imperator_tick`. -/
def tickTally (ro : Rodata) (env : TickEnv) (bss : Bss) (c : TaskCtx) : Counters
  | .nrLockHolderSkips => if (PastSlice env c ∧ OverBudget ro env c bss) ∧ Spared c then 1 else 0
  | .nrStarvationPreemptsTier t =>
    if t = c.tier ∧ (PastSlice env c ∧ OverBudget ro env c bss) ∧ ¬ Spared c then 1 else 0
  | _ => 0

variable {τ : Type*}

/-- What an entry counts, and on which CPU. -/
def Entry.tally (ro : Rodata) (s : System τ) : Entry τ → Cpu → Counters
  | .callback (.enqueue p env) => Pi.single env.cpu <|
      if env.standard (s.ctx p) then (s.ctx p).elim 0 (standardTally ro env s.bss) else 0
  | .callback (.running p cpu now) => Pi.single cpu ((s.ctx p).elim 0 (runningTally now))
  | .callback (.tick p env) => Pi.single env.cpu ((s.ctx p).elim 0 (tickTally ro env s.bss))
  | .selectCpu p env => Pi.single env.cpu <|
      if env.search.2 then directTally ((s.ctx p).map (selectCpuCtx env.irqContext false)) else 0
  | _ => 0

/-! ### What an entry counts -/

/-- Every counter has grown by the tally. -/
def Grows (bss bss' : Bss) (a : Cpu → Counters) : Prop :=
  ∀ i k, k.read (bss'.globalStats i) = k.read (bss.globalStats i) + BitVec.ofNat 64 (a i k)

/-- An update of other data counts nothing. -/
theorem grows_zero (h : bss'.globalStats = bss.globalStats) : Grows bss bss' 0 := by
  intro i k
  rw [h]
  exact (BitVec.add_zero _).symm

theorem grows_single_zero (h : bss'.globalStats = bss.globalStats) (cpu : Cpu) :
    Grows bss bss' (Pi.single cpu 0) := by
  rw [Pi.single_zero]
  exact grows_zero h

theorem Grows.congr {a : Cpu → Counters} (h : Grows bss bss' a)
    (hkept : bss''.globalStats = bss'.globalStats) : Grows bss bss'' a := by
  intro i k
  rw [hkept]
  exact h i k

/-- An update of the counters of one CPU. -/
theorem grows_count (hstats : ro.enableStats = true) {f : Stats → Stats}
    (h : ∀ s k, k.read (f s) = k.read s + BitVec.ofNat 64 (n k))
    (hkept : bss'.globalStats = bss.globalStats) (cpu : Cpu) :
    Grows bss (bss'.count ro cpu f) (Pi.single cpu n) := by
  intro i k
  rw [count_globalStats hstats, hkept]
  split
  · next heq =>
    rw [← heq, Pi.single_eq_same]
    exact h _ k
  · next hne =>
    rw [Pi.single_eq_of_ne (Ne.symm hne)]
    exact (BitVec.add_zero _).symm

theorem update_tier (f : Tier → U64) (t t' : Tier) : Function.update f t (f t + 1#64) t'
    = f t' + if t' = t then 1#64 else 0#64 := by
  rw [Function.update_apply]
  split
  · next heq => rw [heq]
  · exact (BitVec.add_zero _).symm

theorem standardStats_grows (hstats : ro.enableStats = true) (env : EnqueueEnv) (c : TaskCtx)
    (bss : Bss) :
    Grows bss (standardStats ro env c bss) (Pi.single env.cpu (standardTally ro env bss c)) := by
  refine grows_count hstats ?_ rfl env.cpu
  intro s k
  simp only [stampedCtx_packedInfo, recoveredCtx_tier]
  cases k <;>
    simp [StatField.read, standardTally, update_tier, apply_ite (BitVec.ofNat 64)]

theorem imperatorEnqueue_grows (hstats : ro.enableStats = true) (env : EnqueueEnv)
    (ctx : Option TaskCtx) (bss : Bss) :
    Grows bss (imperatorEnqueue ro env ctx bss).bss (Pi.single env.cpu <|
      if env.standard ctx then ctx.elim 0 (standardTally ro env bss) else 0) := by
  have hflat : ∀ t, env.standard ctx = false → Grows bss (queueFlat ro env ctx bss t).bss
      (Pi.single env.cpu <|
        if env.standard ctx then ctx.elim 0 (standardTally ro env bss) else 0) := by
    intro t hearly
    rw [hearly, if_neg Bool.false_ne_true]
    exact grows_single_zero (llcMarkNonempty_globalStats _) env.cpu
  rw [imperatorEnqueue.eq_def]
  split
  · next hkthread => exact hflat _ (by simp [EnqueueEnv.standard, hkthread.2])
  · split
    · next hflags =>
      refine hflat _ (eq_false_of_ne_true fun hstandard => hflags ?_)
      exact Bool.or_eq_true_iff.mp (Bool.and_eq_true_iff.mp hstandard).1
    · next hflags =>
      cases ctx with
      | none => exact hflat _ (Bool.and_false _)
      | some c =>
        have hstandard : env.standard (some c) = true :=
          Bool.and_eq_true_iff.mpr ⟨Bool.or_eq_true_iff.mpr (not_not.mp hflags), rfl⟩
        rw [if_pos hstandard]
        exact (standardStats_grows hstats env c bss).congr (llcMarkNonempty_globalStats _)

theorem imperatorRunning_grows (hstats : ro.enableStats = true) (cpu : Cpu) (now : U64)
    (ctx : Option TaskCtx) (bss : Bss) : Grows bss (imperatorRunning ro cpu now ctx bss).2
      (Pi.single cpu (ctx.elim 0 (runningTally now))) := by
  cases ctx with
  | none => exact grows_single_zero rfl cpu
  | some c =>
    show Grows bss (if c.enqueueTime ≠ 0 then _ else bss : Bss) (Pi.single cpu (runningTally now c))
    split
    · next hstamped =>
      have hstamped' : ¬ c.enqueueTime = 0#32 := hstamped
      refine grows_count hstats ?_ rfl cpu
      intro s k
      cases k <;> simp [StatField.read, runningTally, hstamped']
    · next hstamped =>
      have htally : runningTally now c = 0 := by
        have hzero : c.enqueueTime = 0#32 := not_not.mp hstamped
        funext k
        cases k <;> simp [runningTally, hzero]
      rw [htally]
      exact grows_single_zero rfl cpu

theorem starvationCheck_grows (hstats : ro.enableStats = true) {env : TickEnv} (bss : Bss)
    (hpast : PastSlice env c) : Grows bss (starvationCheck ro env c bss).bss
      (Pi.single env.cpu (tickTally ro env bss c)) := by
  have hquiet : ¬ OverBudget ro env c bss → tickTally ro env bss c = 0 := by
    intro hunder
    funext k
    cases k <;> simp [tickTally, hunder]
  rw [starvationCheck]
  dsimp only
  split
  · next hseen =>
    split
    · next hlong =>
      have hover : OverBudget ro env c bss := ⟨hseen, hlong⟩
      split
      · next hspared =>
        change Spared c at hspared
        refine Grows.congr ?_ (mailboxDvfs_globalStats _ _)
        refine grows_count hstats ?_ rfl env.cpu
        intro s k
        cases k <;> simp [StatField.read, tickTally, hpast, hover, hspared]
      · next hspared =>
        change ¬ Spared c at hspared
        refine grows_count hstats ?_ rfl env.cpu
        intro s k
        cases k <;> simp [StatField.read, tickTally, hpast, hover, hspared, update_tier,
          apply_ite (BitVec.ofNat 64)]
    · next hlong =>
      rw [hquiet fun h => hlong h.2]
      exact grows_single_zero (mailboxDvfs_globalStats _ _) env.cpu
  · next hseen =>
    rw [hquiet fun h => hseen h.1]
    exact grows_single_zero (mailboxDvfs_globalStats _ _) env.cpu

theorem imperatorTick_grows (hstats : ro.enableStats = true) (env : TickEnv)
    (ctx : Option TaskCtx) (bss : Bss) : Grows bss (imperatorTick ro env ctx bss).bss
      (Pi.single env.cpu (ctx.elim 0 (tickTally ro env bss))) := by
  cases ctx with
  | none => exact grows_single_zero rfl env.cpu
  | some c =>
    show Grows _ _ (Pi.single env.cpu (tickTally ro env bss c))
    by_cases hpast : PastSlice env c
    · rw [imperatorTick_of_pastSlice hpast]
      exact starvationCheck_grows hstats bss hpast
    · have htally : tickTally ro env bss c = 0 := by
        funext k
        cases k <;> simp [tickTally, hpast]
      rw [htally, imperatorTick]
      dsimp only
      split
      · exact grows_single_zero rfl env.cpu
      · next hrun =>
        split
        · exact grows_single_zero rfl env.cpu
        · next hexpired => exact absurd ⟨hrun, hexpired⟩ hpast

theorem count_count (f g : Stats → Stats) :
    (bss.count ro cpu f).count ro cpu g = bss.count ro cpu (g ∘ f) := by
  by_cases hstats : ro.enableStats = true
  · simp [Bss.count, hstats]
  · simp [Bss.count, hstats]

/-- The direct dispatch counts a second time if the wakeup came out of an interrupt. -/
theorem imperatorSelectCpu_grows (hstats : ro.enableStats = true) (hy : HybridRodata)
    (env : SelectEnv) (ctx : Option TaskCtx) (bss : Bss) :
    Grows bss (imperatorSelectCpu ro hy env ctx bss).bss (Pi.single env.cpu <|
      if env.search.2 then directTally (ctx.map (selectCpuCtx env.irqContext false)) else 0) := by
  have hstamp : (if env.irqContext then
        ctx.map fun c => { c with packedInfo := setFlag c.packedInfo .irqWake }
      else ctx) = ctx.map (selectCpuCtx env.irqContext false) := by
    split
    · next hirq =>
      rw [hirq]
      rfl
    · next hirq =>
      rw [eq_false_of_ne_true hirq]
      exact Option.map_id'.symm
  rw [imperatorSelectCpu, hstamp]
  generalize ctx.map (selectCpuCtx env.irqContext false) = ctx
  dsimp only
  split
  · next hidle =>
    have hdispatch : ∀ tier : Tier, tier = directTier ctx → pending ctx = false → Grows bss
        (bss.count ro env.cpu fun s => { s with
          nrNewFlowDispatches := s.nrNewFlowDispatches + 1
          nrTierDispatches := Function.update s.nrTierDispatches tier
            (s.nrTierDispatches tier + 1) }) (Pi.single env.cpu (directTally ctx)) := by
      intro tier htier hnot
      refine grows_count hstats ?_ rfl env.cpu
      intro s k
      cases k <;> simp [StatField.read, directTally, hnot, htier, update_tier,
        apply_ite (BitVec.ofNat 64)]
    cases ctx with
    | none => exact hdispatch Tier.interact rfl rfl
    | some c =>
      rw [consumeIrqWakeGetTierSlice]
      split
      · next hirq =>
        dsimp only
        rw [count_count]
        refine grows_count hstats ?_ rfl env.cpu
        intro s k
        cases k <;> simp [StatField.read, directTally, directTier, hirq, update_tier,
          apply_ite (BitVec.ofNat 64)]
      · next hirq =>
        refine hdispatch c.tier ?_ (eq_false_of_ne_true hirq)
        rw [directTier, pending_some, if_neg hirq]
        rfl
  · exact grows_single_zero rfl env.cpu

/-- **What an entry adds to the counters.** -/
theorem grows_enter [DecidableEq τ] (hstats : ro.enableStats = true) (hy : HybridRodata)
    (s : System τ) (e : Entry τ) : Grows s.bss (s.enter ro hy e).bss (e.tally ro s) := by
  cases e with
  | callback cb =>
    cases cb with
    | enable => exact grows_zero rfl
    | enqueue p env => exact imperatorEnqueue_grows hstats env (s.ctx p) s.bss
    | running p cpu now => exact imperatorRunning_grows hstats cpu now (s.ctx p) s.bss
    | tick p env => exact imperatorTick_grows hstats env (s.ctx p) s.bss
    | stopping p cpu now runnable =>
      exact grows_zero imperatorStopping_globalStats
  | selectCpu p env => exact imperatorSelectCpu_grows hstats hy env (s.ctx p) s.bss
  | dispatch | initTask | lockHolder => exact grows_zero rfl

/-! ### The relations -/

/-- The dispatches shown. -/
def dispatches (n : Counters) : ℕ := n .nrNewFlowDispatches + n .nrOldFlowDispatches

theorem dispatches_add (n m : Counters) : dispatches (n + m) = dispatches n + dispatches m := by
  simp only [dispatches, Pi.add_apply]
  omega

/-- The relations between the numbers shown. -/
structure Balanced (n : Counters) : Prop where
  /-- every dispatch is in one tier -/
  tiers : ∑ t, n (.nrTierDispatches t) = dispatches n
  /-- a boosted wakeup is dispatched in T0 -/
  irq : n .nrIrqWakeBoosts ≤ n (.nrTierDispatches Tier.critical)
  /-- only wakeups inherit a tier, ... -/
  waker : n .nrWakerTierBoosts ≤ n .nrNewFlowDispatches
  /-- ... and what they inherit is T1 or T2 -/
  inherited : n .nrWakerTierBoosts
    ≤ n (.nrTierDispatches Tier.interact) + n (.nrTierDispatches Tier.frame)
  /-- credit is consumed where it was earned, ... -/
  credit : n .nrBurstCreditConsumed ≤ n .nrPreemptWithCredit
  /-- ... which is a dispatch -/
  earned : n .nrPreemptWithCredit ≤ dispatches n
  /-- the mean latency is at most 65535 us -/
  mean : n .nrJitterEwmaSum ≤ 65535 * n .nrJitterEwmaCount

theorem balanced_zero : Balanced 0 :=
  ⟨by simp [dispatches], le_rfl, le_rfl, Nat.zero_le _, le_rfl, Nat.zero_le _, Nat.zero_le _⟩

theorem Balanced.add (h : Balanced n) (h' : Balanced m) : Balanced (n + m) := by
  have htiers := congrArg₂ (· + ·) h.tiers h'.tiers
  have hinherited := Nat.add_le_add h.inherited h'.inherited
  have hmean := Nat.add_le_add h.mean h'.mean
  constructor
  · rw [dispatches_add]
    exact (Finset.sum_add_distrib).trans htiers
  · exact Nat.add_le_add h.irq h'.irq
  · exact Nat.add_le_add h.waker h'.waker
  · simp only [Pi.add_apply]
    omega
  · exact Nat.add_le_add h.credit h'.credit
  · rw [dispatches_add]
    exact Nat.add_le_add h.earned h'.earned
  · simp only [Pi.add_apply]
    omega

/-- What is inherited is better, and neither T0 nor T3. -/
theorem inheritWakerTier_of_lt {t : Tier} (h : inheritWakerTier bss cpu t < t) :
    inheritWakerTier bss cpu t = Tier.interact ∨ inheritWakerTier bss cpu t = Tier.frame := by
  rw [inheritWakerTier] at h ⊢
  dsimp only at h ⊢
  by_cases hvalid : (bss.megaMailbox cpu).flags &&& mboxValidFlag ≠ 0
  · rw [if_pos hvalid] at h ⊢
    generalize mboxGetTier (bss.megaMailbox cpu).flags = wakerTier at h ⊢
    revert t wakerTier
    decide
  · rw [if_neg hvalid] at h
    exact absurd h (lt_irrefl _)

/-- A wakeup out of an interrupt is dispatched in T0. -/
theorem dispatchTier_of_irq (env : EnqueueEnv) (bss : Bss) {packed : U32}
    (h : hasFlag packed .irqWake = true) : dispatchTier env bss packed = Tier.critical := by
  have hirq : irqTier packed = Tier.critical := if_pos h
  rw [dispatchTier, hirq]
  exact if_neg fun hlt => lt_irrefl _ hlt.2

/-- A dispatch in a better tier than that of the task is a wakeup that inherits. -/
theorem dispatchTier_of_lt {packed : U32} (h : dispatchTier env bss packed < irqTier packed) :
    env.flags.wakeup = true ∧
      (dispatchTier env bss packed = Tier.interact ∨ dispatchTier env bss packed = Tier.frame) := by
  rw [dispatchTier] at h ⊢
  split at h
  · next hwakeup =>
    rw [if_pos hwakeup]
    exact ⟨hwakeup.1, inheritWakerTier_of_lt h⟩
  · exact absurd h (lt_irrefl _)

/-- What is counted on one condition only is at most what is counted on a weaker one. -/
theorem ite_le_ite_of_imp {p q : Prop} [Decidable p] [Decidable q] (h : p → q) :
    (if p then 1 else 0) ≤ if q then 1 else 0 := by
  split
  · next hp => rw [if_pos (h hp)]
  · exact Nat.zero_le _

/-- The standard path is one dispatch. -/
theorem dispatches_standard (ro : Rodata) (env : EnqueueEnv) (bss : Bss) (c : TaskCtx) :
    dispatches (standardTally ro env bss c) = 1 := by
  simp only [dispatches, standardTally]
  split <;> rfl

theorem balanced_standard (ro : Rodata) (env : EnqueueEnv) (bss : Bss)
    (hcredit : c.burstCredit = 0) : Balanced (standardTally ro env bss c) := by
  have hspent : (recoveredCtx env c).burstCredit = 0 := by rw [recoveredCtx_burstCredit, hcredit]
  have hearned := (earnBurstCredit_pos_iff ro env.flags.preempt hspent).mp
  rw [recoveredCtx_tier] at hearned
  constructor
  · rw [dispatches_standard]
    exact Fintype.sum_ite_eq' (dispatchTier env bss c.packedInfo) fun _ => 1
  · exact ite_le_ite_of_imp fun hirq => (dispatchTier_of_irq env bss hirq).symm
  · exact ite_le_ite_of_imp fun hlt => (dispatchTier_of_lt hlt).1
  · simp only [standardTally]
    split
    · next hlt => rcases (dispatchTier_of_lt hlt).2 with htier | htier <;> simp [htier]
    · exact Nat.zero_le _
  · exact ite_le_ite_of_imp fun hpos => (hearned hpos).1
  · rw [dispatches_standard]
    simp only [standardTally]
    split <;> decide
  · exact Nat.zero_le _

theorem balanced_direct (ctx : Option TaskCtx) : Balanced (directTally ctx) := by
  constructor
  · exact Fintype.sum_ite_eq' (directTier ctx) fun _ => 1
  · exact ite_le_ite_of_imp fun hirq => (if_pos hirq).symm
  · exact Nat.zero_le _
  · exact Nat.zero_le _
  · exact Nat.zero_le _
  · exact Nat.zero_le _
  · exact Nat.zero_le _

theorem balanced_running (now : U64) (c : TaskCtx) : Balanced (runningTally now c) := by
  constructor
  · exact Finset.sum_const_zero
  · exact Nat.zero_le _
  · exact Nat.zero_le _
  · exact Nat.zero_le _
  · exact Nat.zero_le _
  · exact Nat.zero_le _
  · simp only [runningTally]
    split
    · exact Nat.le_of_lt_succ (runningCtx now c).jitterEwmaUs.isLt
    · exact Nat.zero_le _

theorem balanced_tick (ro : Rodata) (env : TickEnv) (bss : Bss) (c : TaskCtx) :
    Balanced (tickTally ro env bss c) := by
  constructor
  · exact Finset.sum_const_zero
  all_goals exact Nat.zero_le _

theorem aggregateStats_single (cpu : Cpu) (n : Counters) :
    aggregateStats (Pi.single cpu n) = n := by
  funext k
  rw [aggregateStats, Finset.sum_eq_single cpu]
  · rw [Pi.single_eq_same]
  · intro i _ hne
    rw [Pi.single_eq_of_ne hne]
    rfl
  · exact fun hnot => absurd (Finset.mem_univ cpu) hnot

/-- The credit of every task is spent. -/
def Spent (s : System τ) : Prop := ∀ p c, s.ctx p = some c → c.burstCredit = 0

/-- An entry counts nothing, or the tally of one of the four callbacks. -/
theorem tally_cases {P : Counters → Prop} (ro : Rodata) (s : System τ) (e : Entry τ) (hzero : P 0)
    (hstandard : ∀ p c env, s.ctx p = some c → P (standardTally ro env s.bss c))
    (hdirect : ∀ ctx, P (directTally ctx)) (hrunning : ∀ now c, P (runningTally now c))
    (htick : ∀ env c, P (tickTally ro env s.bss c)) : P (aggregateStats (e.tally ro s)) := by
  cases e with
  | callback cb =>
    cases cb with
    | enable | stopping => exact aggregateStats_zero ▸ hzero
    | enqueue p env =>
      rw [Entry.tally, aggregateStats_single]
      split
      · cases hctx : s.ctx p with
        | none => exact hzero
        | some c => exact hstandard p c env hctx
      · exact hzero
    | running p cpu now =>
      rw [Entry.tally, aggregateStats_single]
      cases s.ctx p with
      | none => exact hzero
      | some c => exact hrunning now c
    | tick p env =>
      rw [Entry.tally, aggregateStats_single]
      cases s.ctx p with
      | none => exact hzero
      | some c => exact htick env c
  | selectCpu p env =>
    rw [Entry.tally, aggregateStats_single]
    split
    · exact hdirect _
    · exact hzero
  | dispatch | initTask | lockHolder => exact aggregateStats_zero ▸ hzero

/-- **One entry** counts what the relations allow. -/
theorem balanced_tally (ro : Rodata) {s : System τ} (e : Entry τ) (hspent : Spent s) :
    Balanced (aggregateStats (e.tally ro s)) :=
  tally_cases ro s e balanced_zero
    (fun p _ env hctx => balanced_standard ro env s.bss (hspent p _ hctx)) balanced_direct
    balanced_running fun env => balanced_tick ro env s.bss

/-- No counter grows by more than one sample. -/
theorem tally_le (ro : Rodata) (s : System τ) (e : Entry τ) (k : StatField) :
    aggregateStats (e.tally ro s) k ≤ 65535 := by
  have hite : ∀ (p : Prop) [Decidable p], (if p then 1 else 0) ≤ 65535 := by
    intro p _
    split <;> decide
  refine tally_cases (P := fun n => n k ≤ 65535) ro s e (Nat.zero_le _) ?_ ?_ ?_ ?_
  · intro p c env _
    cases k with
    | nrOldFlowDispatches =>
      rw [standardTally]
      split <;> decide
    | nrStarvationPreemptsTier | nrLockHolderSkips | nrJitterEwmaSum | nrJitterEwmaCount =>
      exact Nat.zero_le _
    | _ => exact hite _
  · intro ctx
    cases k with
    | nrNewFlowDispatches => exact Nat.le_of_ble_eq_true rfl
    | nrTierDispatches | nrIrqWakeBoosts => exact hite _
    | _ => exact Nat.zero_le _
  · intro now c
    cases k with
    | nrJitterEwmaSum =>
      rw [runningTally]
      split
      · exact Nat.le_of_lt_succ (runningCtx now c).jitterEwmaUs.isLt
      · exact Nat.zero_le _
    | nrJitterEwmaCount => exact hite _
    | _ => exact Nat.zero_le _
  · intro env c
    cases k with
    | nrLockHolderSkips | nrStarvationPreemptsTier => exact hite _
    | _ => exact Nat.zero_le _

/-! ### Samples -/

/-- The task was enqueued, and has not run since. -/
def Stamped (s : System τ) (p : τ) : Prop := ∃ c, s.ctx p = some c ∧ c.enqueueTime ≠ 0

/-- The blocks that store to other fields. -/
theorem selectCpuCtx_enqueueTime (irq direct : Bool) (c : TaskCtx) :
    (selectCpuCtx irq direct c).enqueueTime = c.enqueueTime := by
  have hconsume : ∀ d : TaskCtx, (consumeIrqWake d).enqueueTime = d.enqueueTime := by
    intro d
    rw [consumeIrqWake]
    split <;> rfl
  cases direct with
  | false => cases irq <;> rfl
  | true =>
    refine (hconsume _).trans ?_
    cases irq <;> rfl

theorem accountBout_enqueueTime (ro : Rodata) (runnable : Bool) (bout : U16) (c : TaskCtx) :
    (accountBout ro runnable bout c).enqueueTime = c.enqueueTime := by
  by_cases hback : TakesBackoff c
  · obtain ⟨fused, packed, counter, h⟩ := quickPass_eq runnable bout (burstSample c bout)
      (entered runnable bout c)
    rw [accountBout_of_backoff ro runnable bout hback, h]
    rfl
  · rw [accountBout_of_full ro runnable bout hback]
    rfl

/-- **Running uses up the stamp.** -/
theorem runningCtx_enqueueTime (now : U64) (c : TaskCtx) : (runningCtx now c).enqueueTime = 0 := by
  rw [runningCtx, updateJitter]
  split
  · rfl
  · next hzero => exact not_not.mp hzero

/-- Only the standard path of an enqueue stamps. -/
theorem enqueueTime_of_apply {ctx : Option TaskCtx} {c' : TaskCtx} {op : TaskOp}
    (h : op.apply ro ctx = some c') (hstamped : c'.enqueueTime ≠ 0) :
    (∃ env bss, op = .enqueue env bss ∧ env.standard ctx = true) ∨
      (∃ c, ctx = some c ∧ c.enqueueTime ≠ 0) ∧ ∀ cpu now bss, op ≠ .running cpu now bss := by
  cases ctx with
  | none =>
    obtain ⟨prio, rfl, rfl⟩ := created_of_apply h
    exact absurd rfl hstamped
  | some c =>
    cases leaves_of_apply h with
    | enabled | orphaned | requeued | uncharged | ticked =>
      exact Or.inr ⟨⟨_, rfl, hstamped⟩, nofun⟩
    | execed | forked => exact absurd rfl hstamped
    | @selected irq direct =>
      rw [selectCpuCtx_enqueueTime] at hstamped
      exact Or.inr ⟨⟨_, rfl, hstamped⟩, nofun⟩
    | @enqueued env bss hflags =>
      refine Or.inl ⟨env, bss, rfl, ?_⟩
      exact Bool.and_eq_true_iff.mpr ⟨Bool.or_eq_true_iff.mpr hflags, rfl⟩
    | @ran cpu now bss => exact absurd (runningCtx_enqueueTime now c) hstamped
    | accounted =>
      rw [accountBout_enqueueTime] at hstamped
      exact Or.inr ⟨⟨_, rfl, hstamped⟩, nofun⟩
    | @marked held => cases held <;> exact Or.inr ⟨⟨_, rfl, hstamped⟩, nofun⟩

variable [DecidableEq τ] {s s' : System τ} {e : Entry τ} {p q : τ}

/-- A stamp comes from an enqueue on the standard path, or it was there, and its task has not run
since. -/
theorem stamped_enter (h : Stamped (s.enter ro hy e) p) :
    (∃ env, e = .callback (.enqueue p env) ∧ env.standard (s.ctx p) = true) ∨
      Stamped s p ∧ ∀ cpu now, e ≠ .callback (.running p cpu now) := by
  obtain ⟨c', hctx, hstamped⟩ := h
  have hupdate : ∀ (q : τ) (op : TaskOp) (ctx : Option TaskCtx), ctx = op.apply ro (s.ctx q) →
      Function.update s.ctx q ctx p = some c' →
      (p = q ∧ ∃ env bss, op = .enqueue env bss ∧ env.standard (s.ctx p) = true) ∨
        Stamped s p ∧ (p = q → ∀ cpu now bss, op ≠ .running cpu now bss) := by
    rintro q op _ rfl hctx
    rcases eq_or_ne p q with rfl | hne
    · rw [Function.update_self] at hctx
      rcases enqueueTime_of_apply hctx hstamped with henqueue | ⟨hold, hnot⟩
      · exact Or.inl ⟨rfl, henqueue⟩
      · exact Or.inr ⟨hold, fun _ => hnot⟩
    · rw [Function.update_of_ne hne] at hctx
      exact Or.inr ⟨⟨c', hctx, hstamped⟩, fun heq => absurd heq hne⟩
  cases e with
  | callback cb =>
    rcases hupdate cb.task (cb.taskOp s.bss) _ rfl hctx with
      ⟨rfl, env, bss, hop, hstandard⟩ | ⟨hold, hnot⟩
    · cases cb with
      | enqueue p env' =>
        obtain ⟨rfl, -⟩ := TaskOp.enqueue.inj hop
        exact Or.inl ⟨env', rfl, hstandard⟩
      | enable | running | tick | stopping => cases hop
    · refine Or.inr ⟨hold, ?_⟩
      rintro cpu now heq
      obtain rfl := Entry.callback.inj heq
      exact hnot rfl cpu now s.bss rfl
  | selectCpu q env =>
    have hctx' := imperatorSelectCpu_ctx ro hy env (s.ctx q) s.bss
    rcases hupdate q (.selectCpu env.irqContext env.search.2) _ hctx' hctx with
      ⟨-, _, _, hop, -⟩ | ⟨hold, -⟩
    · cases hop
    · exact Or.inr ⟨hold, nofun⟩
  | dispatch => exact Or.inr ⟨⟨c', hctx, hstamped⟩, nofun⟩
  | initTask q fork prio parent =>
    rcases hupdate q (.initTask fork prio (s.ctx parent)) _ rfl hctx with
      ⟨-, _, _, hop, -⟩ | ⟨hold, -⟩
    · cases hop
    · exact Or.inr ⟨hold, nofun⟩
  | lockHolder q held =>
    rcases hupdate q (.lockHolder held) _ rfl hctx with ⟨-, _, _, hop, -⟩ | ⟨hold, -⟩
    · cases hop
    · exact Or.inr ⟨hold, nofun⟩

/-- Every sample had a stamp of its own: those not used yet are counted too. -/
def SamplesStamped (s : System τ) (n : Counters) : Prop :=
  ∃ stamps : Finset τ, (∀ p, Stamped s p → p ∈ stamps) ∧
    n .nrJitterEwmaCount + stamps.card ≤ dispatches n

omit [DecidableEq τ] in
/-- Only a running task is sampled, and only if it was stamped. -/
theorem sample_cases (ro : Rodata) (s : System τ) (e : Entry τ) :
    aggregateStats (e.tally ro s) .nrJitterEwmaCount = 0 ∨
      (∃ p cpu now, e = .callback (.running p cpu now) ∧ Stamped s p) ∧
        aggregateStats (e.tally ro s) .nrJitterEwmaCount = 1 := by
  cases e with
  | callback cb =>
    cases cb with
    | running p cpu now =>
      rw [Entry.tally, aggregateStats_single]
      cases hctx : s.ctx p with
      | none => exact Or.inl rfl
      | some c =>
        by_cases hstamped : c.enqueueTime ≠ 0
        · exact Or.inr ⟨⟨p, cpu, now, rfl, c, hctx, hstamped⟩, if_pos hstamped⟩
        · exact Or.inl (if_neg hstamped)
    | enqueue p env =>
      rw [Entry.tally, aggregateStats_single]
      cases s.ctx p <;> split <;> exact Or.inl rfl
    | tick p env =>
      rw [Entry.tally, aggregateStats_single]
      cases s.ctx p <;> exact Or.inl rfl
    | enable | stopping => exact Or.inl (congrFun aggregateStats_zero _)
  | selectCpu p env =>
    rw [Entry.tally, aggregateStats_single]
    split <;> exact Or.inl rfl
  | dispatch | initTask | lockHolder => exact Or.inl (congrFun aggregateStats_zero _)

/-- **One entry** keeps the stamps: an enqueue adds one and a dispatch, a sample uses one up. -/
theorem SamplesStamped.enter (h : SamplesStamped s n) (hy : HybridRodata) (e : Entry τ) :
    SamplesStamped (s.enter ro hy e) (n + aggregateStats (e.tally ro s)) := by
  obtain ⟨stamps, hstamps, hcount⟩ := h
  rw [SamplesStamped, dispatches_add, Pi.add_apply]
  rcases sample_cases ro s e with hnone | ⟨⟨p, cpu, now, rfl, hp⟩, hone⟩
  · by_cases henqueue : ∃ p env, e = .callback (.enqueue p env) ∧ env.standard (s.ctx p) = true
    · obtain ⟨p, env, rfl, hstandard⟩ := henqueue
      obtain ⟨c, hctx⟩ := Option.isSome_iff_exists.mp (Bool.and_eq_true_iff.mp hstandard).2
      have htally : aggregateStats ((Entry.callback (.enqueue p env)).tally ro s)
          = standardTally ro env s.bss c := by
        rw [Entry.tally, aggregateStats_single, if_pos hstandard, hctx]
        rfl
      refine ⟨insert p stamps, fun q hq => ?_, ?_⟩
      · rcases stamped_enter hq with ⟨_, he, -⟩ | ⟨hold, -⟩
        · cases he
          exact Finset.mem_insert_self _ _
        · exact Finset.mem_insert_of_mem (hstamps q hold)
      · have hcard := Finset.card_insert_le p stamps
        rw [hnone, htally, dispatches_standard]
        omega
    · refine ⟨stamps, fun p hp => ?_, by omega⟩
      rcases stamped_enter hp with ⟨env, he, hstandard⟩ | ⟨hold, -⟩
      · exact absurd ⟨p, env, he, hstandard⟩ henqueue
      · exact hstamps p hold
  · have hmem := hstamps p hp
    refine ⟨stamps.erase p, fun q hq => ?_, ?_⟩
    · rcases stamped_enter hq with ⟨env, he, -⟩ | ⟨hold, hnot⟩
      · cases he
      · refine Finset.mem_erase.mpr ⟨?_, hstamps q hold⟩
        rintro rfl
        exact hnot cpu now rfl
    · have hcard := Finset.card_erase_add_one hmem
      omega

/-! ### Runs -/

/-- What happens to the counters: the entries of the program, and the reset of the view. -/
inductive StatsEvent (τ : Type*)
  | entry (e : Entry τ)
  | reset

/-- The system after an event. -/
def System.observe (ro : Rodata) (hy : HybridRodata) (s : System τ) : StatsEvent τ → System τ
  | .entry e => s.enter ro hy e
  | .reset => { s with bss := { s.bss with globalStats := (initBss ro).globalStats } }

/-- The tally after an event. -/
def tallied (ro : Rodata) (s : System τ) (a : Cpu → Counters) : StatsEvent τ → Cpu → Counters
  | .entry e => a + e.tally ro s
  | .reset => 0

/-- What is true of the system and its tally after a number of events. -/
structure Booked (events : ℕ) (q : System τ × (Cpu → Counters)) : Prop where
  spent : Spent q.1
  read : ∀ i k, k.read (q.1.bss.globalStats i) = BitVec.ofNat 64 (q.2 i k)
  balanced : Balanced (aggregateStats q.2)
  bounded : ∀ k, aggregateStats q.2 k ≤ 65535 * events

omit [DecidableEq τ] in
theorem booked_zero {s : System τ} (ro : Rodata) (hspent : Spent s)
    (hstats : s.bss.globalStats = (initBss ro).globalStats) (events : ℕ) :
    Booked events (s, 0) where
  spent := hspent
  read := by
    intro i k
    rw [hstats]
    cases k <;> rfl
  balanced := aggregateStats_zero ▸ balanced_zero
  bounded := fun k => aggregateStats_zero ▸ Nat.zero_le _

/-- **One event.** -/
theorem Booked.observe {events : ℕ} {a : Cpu → Counters} (h : Booked events (s, a))
    (hstats : ro.enableStats = true) (hy : HybridRodata) (ev : StatsEvent τ) :
    Booked (events + 1) (recording (System.observe ro hy) (tallied ro) (s, a) ev) := by
  cases ev with
  | reset => exact booked_zero (s := s.observe ro hy .reset) ro h.spent rfl _
  | entry e =>
    have hadd : aggregateStats (a + e.tally ro s)
        = aggregateStats a + aggregateStats (e.tally ro s) := aggregateStats_add _ _
    constructor
    · exact fun p c hctx => spent_enter h.spent p c hctx
    · intro i k
      show k.read ((s.enter ro hy e).bss.globalStats i) = BitVec.ofNat 64 (a i k + e.tally ro s i k)
      rw [grows_enter hstats hy s e i k, h.read i k, BitVec.ofNat_add]
    · show Balanced (aggregateStats (a + e.tally ro s))
      rw [hadd]
      exact h.balanced.add (balanced_tally ro e h.spent)
    · intro k
      show aggregateStats (a + e.tally ro s) k ≤ _
      rw [hadd, Nat.mul_succ]
      exact Nat.add_le_add (h.bounded k) (tally_le ro s e k)

/-- The machine with its tally. -/
def withTally (ro : Rodata) (hy : HybridRodata) :
    System τ × (Cpu → Counters) → StatsEvent τ → System τ × (Cpu → Counters) :=
  recording (System.observe ro hy) (tallied ro)

variable {evs : List (StatsEvent τ)} {a : Cpu → Counters}

theorem booked_of_run (hstats : ro.enableStats = true)
    (h : Run (ofNext (withTally ro hy)) (System.init ro, 0) evs (s, a)) :
    Booked evs.length (s, a) := by
  have hinit : Spent (System.init ro : System τ) := fun _ _ hctx => by cases hctx
  refine Run.invariant_length (I := Booked) ?_ h (booked_zero ro hinit rfl 0)
  rintro m ⟨s, a⟩ ev _ hbooked rfl
  exact hbooked.observe hstats hy ev

theorem samplesStamped_of_run (hreset : StatsEvent.reset ∉ evs)
    (h : Run (ofNext (withTally ro hy)) (System.init ro, 0) evs (s, a)) :
    SamplesStamped s (aggregateStats a) := by
  refine Run.invariant_of_mem (I := fun q : System τ × (Cpu → Counters) =>
    SamplesStamped q.1 (aggregateStats q.2)) h ?_ ?_
  · rintro ⟨s, a⟩ ev hev _ hsamples rfl
    cases ev with
    | reset => exact absurd hev hreset
    | entry e =>
      show SamplesStamped (s.enter ro hy e) (aggregateStats (a + e.tally ro s))
      rw [aggregateStats_add]
      exact hsamples.enter hy e
  · rw [aggregateStats_zero]
    refine ⟨∅, ?_, Nat.zero_le _⟩
    rintro p ⟨c, hctx, -⟩
    cases hctx

omit [DecidableEq τ] in
/-- A tally that is small enough is not cut. -/
theorem Booked.counters {events : ℕ} (h : Booked events (s, a))
    (hshort : 65535 * events < 2 ^ 64) : s.bss.counters = a := by
  funext i k
  have hle : a i k ≤ aggregateStats a k :=
    Finset.single_le_sum (f := fun i => a i k) (fun _ _ => Nat.zero_le _) (Finset.mem_univ i)
  rw [Bss.counters, h.read i k, BitVec.toNat_ofNat]
  exact Nat.mod_eq_of_lt ((hle.trans (h.bounded k)).trans_lt hshort)

/-- A task is enabled, woken, and starts to run 2 ms later. -/
def sampledEvents : List (StatsEvent Unit) :=
  [.entry (.callback (.enable () 120 true)),
    .entry (.callback (.enqueue () ⟨0, 0, 1000000, false, ⟨true, false⟩⟩)),
    .entry (.callback (.running () 1 3000000))]

end Imperator
