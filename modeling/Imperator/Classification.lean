import Imperator.TaskRun

/-!
# Tier and average

Two things should hold between the tier stored in a context and its average. While the stability
counter is positive, the tier is the one the gates give, so skipping the full path loses nothing.
And a task that is preempted should not move to a better tier, because its burst is not over.

The first is an invariant of every run in which a fork does not seed a child that has already run:
the fork path replaces tier and average but keeps the counter (`stable_avg_mem_tierBand`).

The second fails. A forced demotion moves the tier without moving the average, and the next full
pass moves the tier back whether or not the task sleeps. `runs_keep_tier_iff` says exactly which
preempted stops hold the tier.

## Main results

* `accountBout_stableInBand` — every stop that accounts for a bout restores the first property
* `stable_avg_mem_tierBand` — a positive counter means that the average is in the band of the tier
* `runs_keep_tier_iff` — a run never promotes on preemption iff all its preempted stops hold a gate
-/

namespace Imperator

open Transition

variable {ro : Rodata} {c c' : TaskCtx} {op : TaskOp}

/-! ### Bands -/

/-- The bands: T0 `[0, 100)`, T1 `[90, 2000)`, T2 `[1800, 8000)`, T3 from 7200 on. -/
theorem mem_tierBand (t : Tier) (x : ℕ) : x ∈ tierBand t ↔
    (![0, 90, 1800, 7200] : Fin 4 → ℕ) t ≤ x ∧
      (t < Tier.bulk → x < (![100, 2000, 8000, 0] : Fin 4 → ℕ) t) := by
  match t with
  | 0 =>
    refine tierLadder.mem_band_zero.trans ?_
    simp [tierLadder, Tier.bulk]
  | 1 =>
    refine (tierLadder.mem_band_succ (c := 0)).trans ?_
    simp [tierLadder, Tier.bulk]
  | 2 =>
    refine (tierLadder.mem_band_succ (c := 1)).trans ?_
    simp [tierLadder, Tier.bulk]
  | 3 =>
    refine (tierLadder.mem_band_succ (c := 2)).trans ?_
    simp [tierLadder, Tier.bulk]

theorem mem_tierBand_critical (x : ℕ) : x ∈ tierBand Tier.critical ↔ x < 100 := by
  simp [mem_tierBand, Tier.critical, Tier.bulk]

theorem mem_tierBand_interact (x : ℕ) : x ∈ tierBand Tier.interact ↔ 90 ≤ x ∧ x < 2000 := by
  simp [mem_tierBand, Tier.interact, Tier.bulk]

theorem mem_tierBand_frame (x : ℕ) : x ∈ tierBand Tier.frame ↔ 1800 ≤ x ∧ x < 8000 := by
  simp [mem_tierBand, Tier.frame, Tier.bulk]

theorem mem_tierBand_bulk (x : ℕ) : x ∈ tierBand Tier.bulk ↔ 7200 ≤ x := by
  simp [mem_tierBand, Tier.bulk]

instance (t : Tier) (x : ℕ) : Decidable (x ∈ tierBand t) :=
  decidable_of_iff _ (mem_tierBand t x).symm

/-- The middle of a tier, to which the sleep recovery moves the average, is in its band. -/
theorem tierSleepMid_mem (t : Tier) : (tierSleepMid t).toNat ∈ tierBand t := by
  revert t
  decide

/-- Bands are intervals, so halving the distance to the middle of the tier stays inside. -/
theorem midpoint_mem_tierBand {t : Tier} {a : ℕ} (h : a ∈ tierBand t) :
    (a + (tierSleepMid t).toNat) / 2 ∈ tierBand t := by
  refine tierLadder.mem_band_of_mem_uIcc h (tierSleepMid_mem t) ?_
  rw [Set.mem_uIcc]
  omega

/-- The average a tier is seeded with is in its band as well. -/
theorem initAvgRt_mem (t : Tier) : (initAvgRt t).toNat ∈ tierBand t := by
  revert t
  decide

/-- Contexts that are new, or seeded again on exec, are classified by their average already. -/
theorem seeded_avg_mem_tierBand (ro : Rodata) (prio : U32) (c : TaskCtx) :
    (allocTaskCtxCold ro prio).avgRt.toNat ∈ tierBand (allocTaskCtxCold ro prio).tier ∧
      (initTaskExec ro prio c).avgRt.toNat ∈ tierBand (initTaskExec ro prio c).tier := by
  rw [allocTaskCtxCold_avgRt, allocTaskCtxCold_tier, initTaskExec_avgRt, initTaskExec_tier]
  exact ⟨initAvgRt_mem _, initAvgRt_mem _⟩

/-! ### A positive counter means a band -/

/-- While the stability counter is positive, the average is in the band of the stored tier. -/
def StableInBand (c : TaskCtx) : Prop := 0 < c.stable → c.avgRt.toNat ∈ tierBand c.tier

theorem stableInBand_of_stable_eq_zero (h : c.stable = 0) : StableInBand c := fun hpos => by
  rw [h] at hpos
  exact absurd hpos (lt_irrefl _)

/-- The early return keeps the counter only if the spot check agrees with the tier. -/
theorem quickPass_stableInBand (runnable : Bool) (bout rt : U16) (c : TaskCtx) :
    StableInBand (quickPass runnable bout rt c) := by
  intro hpos
  rw [quickPass_stable] at hpos
  rw [quickPass_avgRt, quickPass_tier, ← classify_eq_self_iff]
  by_contra hne
  rw [if_pos hne] at hpos
  exact absurd hpos (lt_irrefl _)

/-- The full path advances the counter only if the tier is kept, and then the gates kept it. -/
theorem fullPass_stableInBand (ro : Rodata) (runnable : Bool) (bout rt : U16) (c : TaskCtx) :
    StableInBand (fullPass ro runnable bout rt c) := by
  intro hpos
  rw [fullPass_stable, newStable] at hpos
  have hkept : (verdict c (ewma runnable c.avgRt rt) rt).tier = c.tier := by
    by_contra hne
    rw [if_pos hne] at hpos
    exact absurd hpos (lt_irrefl _)
  rw [fullPass_avgRt, fullPass_tier, hkept, ← classify_eq_self_iff]
  exact (verdict_eq_self hkept).1

/-- **Every stop that accounts for a bout leaves a context whose counter can be trusted**, whatever
context it starts from. -/
theorem accountBout_stableInBand (ro : Rodata) (runnable : Bool) (bout : U16) (c : TaskCtx) :
    StableInBand (accountBout ro runnable bout c) := by
  by_cases h : TakesBackoff c
  · rw [accountBout_of_backoff ro runnable bout h]
    exact quickPass_stableInBand _ _ _ _
  · rw [accountBout_of_full ro runnable bout h]
    exact fullPass_stableInBand _ _ _ _ _

theorem stableInBand_of_sameAccount (h : SameAccount c c')
    (havg : c'.avgRt = c.avgRt ∨
      c'.avgRt.toNat = (c.avgRt.toNat + (tierSleepMid c.tier).toNat) / 2)
    (hc : StableInBand c) : StableInBand c' := by
  intro hpos
  rw [h.stable] at hpos
  rw [h.tier]
  rcases havg with heq | heq
  · rw [heq]
    exact hc hpos
  · rw [heq]
    exact midpoint_mem_tierBand (hc hpos)

/-- A fork is applied to a child whose counter is zero, as that of every child fresh from the
allocator is, or it hands over an average that fits the tier it hands over. -/
def forksOntoFresh : Option TaskCtx → TaskOp → Prop
  | some c, .initTask true _ (some parent) =>
    c.stable = 0 ∨ parent.avgRt.toNat / 2 ∈ tierBand parent.tier
  | _, _ => True

theorem stableInBand_of_effect (hc : StableInBand c) (hfork : forksOntoFresh (some c) op)
    (h : Effect ro (some c) op c') : StableInBand c' := by
  cases h with
  | kept hsame havg =>
    exact stableInBand_of_sameAccount hsame (havg.imp_right fun h => h.2.2) hc
  | accounted _ => exact accountBout_stableInBand _ _ _ _
  | execed => exact stableInBand_of_stable_eq_zero (initTaskExec_stable _ _ _)
  | forked =>
    rcases hfork with hzero | hband
    · exact stableInBand_of_stable_eq_zero ((initTaskFork_stable _ _ _).trans hzero)
    · intro _
      rw [initTaskFork_avgRt, initTaskFork_tier, BitVec.toNat_ushiftRight,
        Nat.shiftRight_eq_div_pow]
      exact hband

/-- **Stable means correctly classified.** In every context a run reaches whose forks seed fresh
children, a positive stability counter means that the average is in the band of the tier.
Equivalently, once the average has left the band the counter is zero, and the next stop that
accounts for a bout takes the full path. -/
theorem stable_avg_mem_tierBand {ops : List TaskOp} (h : TaskRun ro forksOntoFresh ops (some c)) :
    (0 < c.stable → c.avgRt.toNat ∈ tierBand c.tier) ∧
      (c.avgRt.toNat ∉ tierBand c.tier → c.stable = 0 ∧ ∀ runnable bout,
        accountBout ro runnable bout c
          = fullPass ro runnable bout (burstSample c bout) (entered runnable bout c)) := by
  have hband : StableInBand c := h.invariant
    (fun prio => stableInBand_of_stable_eq_zero (allocTaskCtxCold_stable ro prio))
    fun _ _ _ hc hfork heffect => stableInBand_of_effect hc hfork heffect
  refine ⟨hband, fun hout => ?_⟩
  have hzero : c.stable = 0 := by
    by_contra hne
    exact hout (hband (Fin.pos_of_ne_zero hne))
  refine ⟨hzero, fun runnable bout => accountBout_of_full ro runnable bout fun hback => ?_⟩
  exact absurd (hzero.symm.trans hback.1) (by decide)

/-- A task of nice value 0 after one bout of a millisecond. -/
def settlingRun : List TaskOp :=
  [.enable 120 true, .running 0 1000000 (initBss defaultRodata),
    .stopping 0 2075200 false (initBss defaultRodata)]

theorem settlingRun_ends : ∃ c, settlingRun.foldl (TaskOp.apply defaultRodata) none = some c ∧
    c.stable = 1 ∧ c.tier = Tier.interact ∧ c.avgRt = 1050 :=
  ⟨_, rfl, by decide, by decide, by decide⟩

/-- A task of nice value 0 that has run one bout of a millisecond is settled in its band. -/
theorem settlingRun_stable_avg_mem_tierBand :
    ∃ c, TaskRun defaultRodata forksOntoFresh settlingRun (some c) ∧ 0 < c.stable ∧
      c.avgRt.toNat ∈ tierBand c.tier := by
  obtain ⟨c, hc, hstable, -⟩ := settlingRun_ends
  have hrun : TaskRun defaultRodata forksOntoFresh settlingRun (some c) := by
    rw [← hc]
    exact taskRun_foldl defaultRodata settlingRun (by simp [settlingRun, forksOntoFresh])
  have hpos : 0 < c.stable := by rw [hstable]; decide
  exact ⟨c, hrun, hpos, (stable_avg_mem_tierBand hrun).1 hpos⟩

/-- The same task as the child of a bulk task: the fork path keeps the counter at 1 and leaves T3
with an average of 4000. -/
theorem fork_onto_settled_child : ∃ c,
    TaskRun defaultRodata anyOp
      (settlingRun ++ [.initTask true 120 (some (allocTaskCtxCold defaultRodata 135))]) (some c) ∧
    0 < c.stable ∧ c.avgRt.toNat ∉ tierBand c.tier := by
  obtain ⟨c, hc, hstable, -⟩ := settlingRun_ends
  refine ⟨initTaskFork defaultRodata (allocTaskCtxCold defaultRodata 135) c, ?_, ?_, ?_⟩
  · have hrun : TaskRun defaultRodata anyOp settlingRun (some c) := by
      rw [← hc]
      exact taskRun_anyOp defaultRodata settlingRun
    exact Run.snoc hrun ⟨trivial, rfl⟩
  · rw [initTaskFork_stable, hstable]
    decide
  · rw [initTaskFork_avgRt, initTaskFork_tier]
    decide

/-! ### Preempted stops -/

/-- The average reaches the gate below which a task of this tier is promoted, at the latest after
`rt` has raised it by a sixteenth step. Only a sample above the average raises it. -/
def HoldsGate (c : TaskCtx) (rt : U16) : Prop :=
  ∀ i : Fin 3, i.val + 1 = c.tier.val → (tierGatePromote i).toNat ≤ c.avgRt.toNat ∨
    c.avgRt.toNat ≤ rt.toNat ∧
      (tierGatePromote i).toNat ≤ c.avgRt.toNat - c.avgRt.toNat / 16 + rt.toNat / 16

/-- What keeps a preempted stop at `now` from promoting: nothing is accounted for, the backoff
leaves the tier alone, the overrun history demotes, or the average holds its gate. -/
def PreemptionHolds (c : TaskCtx) (now : U64) : Prop :=
  ∀ bout, chargedBout (now.setWidth 32) c = some bout → TakesBackoff c ∨
    OverrunFires c.tier c.overrunCount (burstSample c bout) ∨ HoldsGate c (burstSample c bout)

/-- The gates keep a task from being promoted when its average reaches the one below its tier. -/
theorem le_classify_iff (t : Tier) (avg : U16) : t ≤ classify t avg ↔
    ∀ i : Fin 3, i.val + 1 = t.val → (tierGatePromote i).toNat ≤ avg.toNat := by
  have hgate : ∀ i : Fin 3, (tierGatePromote i).toNat = tierLadder.promote i := by decide
  rw [Fin.le_def, classify_val]
  constructor
  · intro hle i hi
    rw [← hi] at hle
    have hiff := tierLadder.classify_lt_self_iff (c := i.val) (x := avg.toNat) i.isLt
    rw [hgate]
    exact not_lt.mp fun hlt => absurd (hiff.mpr hlt) (not_lt.mpr hle)
  · intro h
    rcases Nat.eq_zero_or_pos t.val with ht | ht
    · rw [ht]
      exact Nat.zero_le _
    · obtain ⟨k, hk⟩ := Nat.exists_eq_succ_of_ne_zero ht.ne'
      have hk3 : k < 3 := by omega
      have hreach := h ⟨k, hk3⟩ hk.symm
      rw [hgate] at hreach
      have hiff := tierLadder.classify_lt_self_iff (c := k) (x := avg.toNat) hk3
      rw [hk]
      exact not_lt.mp fun hlt => absurd (hiff.mp hlt) (not_lt.mpr hreach)

/-- The gate is held exactly by the average a preempted stop leaves. -/
theorem holdsGate_iff (c : TaskCtx) (rt : U16) :
    HoldsGate c rt ↔ c.tier ≤ classify c.tier (ewma true c.avgRt rt) := by
  rw [le_classify_iff, HoldsGate, ewma_toNat]
  refine forall_congr' fun i => imp_congr_right fun _ => ?_
  rcases Nat.lt_or_ge rt.toNat c.avgRt.toNat with hlt | hge
  · rw [ShiftEwma.asymmetric_frozen_of_lt hlt]
    omega
  · rw [ShiftEwma.asymmetric_of_le hge, ShiftEwma.step]
    omega

theorem le_accountBout_tier_iff (ro : Rodata) (bout : U16) (c : TaskCtx) :
    c.tier ≤ (accountBout ro true bout c).tier ↔ TakesBackoff c ∨
      OverrunFires c.tier c.overrunCount (burstSample c bout) ∨
        HoldsGate c (burstSample c bout) := by
  by_cases hback : TakesBackoff c
  · rw [accountBout_tier_of_backoff hback]
    exact iff_of_true le_rfl (Or.inl hback)
  rw [accountBout_tier_of_full hback, or_iff_right hback]
  by_cases hfire : OverrunFires c.tier c.overrunCount (burstSample c bout)
  · exact iff_of_true (lt_verdict_of_fires hfire).le (Or.inl hfire)
  · rw [(verdict_of_not_fires hfire).1, or_iff_right hfire, holdsGate_iff]

/-- `P c now c'` holds at every preempted stop of the run of `ops`, where `c` is the context before
the stop and `c'` the one after it. -/
def AtPreemptions (ro : Rodata) (ops : List TaskOp) (P : TaskCtx → U64 → TaskCtx → Prop) : Prop :=
  ∀ before after cpu now bss c c', ops = before ++ .stopping cpu now true bss :: after →
    TaskRun ro anyOp before (some c) →
    TaskOp.apply ro (some c) (.stopping cpu now true bss) = some c' → P c now c'

/-- One preempted stop: the tier is kept or worsened exactly when one of the conditions holds. -/
theorem le_stopping_tier_iff {cpu : Cpu} {now : U64} {bss : Bss}
    (h : TaskOp.apply ro (some c) (.stopping cpu now true bss) = some c') :
    c.tier ≤ c'.tier ↔ PreemptionHolds c now := by
  rw [PreemptionHolds]
  rcases apply_stopping_cases h with ⟨hnone, rfl⟩ | ⟨charged, hsome, rfl⟩
  · exact iff_of_true le_rfl fun bout hbout => by rw [hnone] at hbout; cases hbout
  · refine (le_accountBout_tier_iff ro charged { c with sleepEntryTime := 0 }).trans ?_
    constructor
    · intro hcond bout hbout
      rw [hsome] at hbout
      obtain rfl := Option.some.inj hbout
      exact hcond
    · intro hcond
      exact hcond _ hsome

/-- **When promotion waits for sleep.** No preempted stop of a run promotes the task exactly when
each of them accounts for nothing, takes the backoff, is a forced demotion, or finds the average
at its promotion gate. -/
theorem runs_keep_tier_iff (ro : Rodata) (ops : List TaskOp) :
    AtPreemptions ro ops (fun c _ c' => c.tier ≤ c'.tier) ↔
      AtPreemptions ro ops fun c now _ => PreemptionHolds c now := by
  constructor
  · intro h before after cpu now bss c c' hops hrun hstop
    exact (le_stopping_tier_iff hstop).mp (h before after cpu now bss c c' hops hrun hstop)
  · intro h before after cpu now bss c c' hops hrun hstop
    exact (le_stopping_tier_iff hstop).mpr (h before after cpu now bss c c' hops hrun hstop)

/-- One burst of `us` units that starts at `start` and ends in sleep. -/
def burst (start us : U64) : List TaskOp :=
  [.running 0 start (initBss defaultRodata),
    .stopping 0 (start + us <<< 10) false (initBss defaultRodata)]

/-- Bursts of a task of nice value 0, long ones and idle ones in turn. The long ones enter the
overrun history from T1 and T2, the idle ones lead back from T3 to T2, and the last one is the
fourth overrun in the history: it forces the task from T2 to T3 with an average of 6449. -/
def forcedDemotionRun : List TaskOp :=
  .enable 120 true :: (burst 1000000 65535 ++ burst 100000000 65535 ++ burst 200000000 0 ++
    burst 300000000 30000 ++ burst 400000000 0 ++ burst 500000000 12001) ++
      [.running 0 600000000 (initBss defaultRodata)]

/-- The next time the task is preempted, right after it started to run, it is promoted to T2. -/
theorem preempted_stop_promotes : ¬ AtPreemptions defaultRodata
    (forcedDemotionRun ++ [.stopping 0 600001024 true (initBss defaultRodata)])
    (fun c _ c' => c.tier ≤ c'.tier) := by
  intro h
  have hrun := taskRun_anyOp defaultRodata forcedDemotionRun
  have hle := h forcedDemotionRun [] 0 600001024 (initBss defaultRodata) _ _ rfl hrun rfl
  exact absurd hle (by decide)

end Imperator
