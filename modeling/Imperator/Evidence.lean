import Imperator.Convergence
import Imperator.PostSleep

/-!
# An average stays within its evidence

The runtime average is computed in 16 bits: a shifted part of it is taken away, and a shifted part
of the sample is added. Near the largest value one would fear for the addition, and near zero for
the subtraction, but neither leaves the range: a part is never more than the whole, and the sum is
never more than the larger of the average and the sample.

So every update moves the average towards something it has been shown. A stop moves it towards the
sample, and only upwards while the task is still runnable; the enqueue after a long sleep moves it
towards the middle of the tier. What the average started with, the samples and the middles are its
evidence, and after any run it lies between the smallest and the largest of them.

## Main definitions

* `StepFits`, `MeanFits` — no operation of an update leaves its range
* `TaskOp.evidence` — the seed, the samples and the middles a run has shown

## Main results

* `avg_within_evidence` — every stop, every enqueue, and every run
-/

namespace Imperator

open Transition ShiftEwma

variable {ro : Rodata} {c c' : TaskCtx} {op : TaskOp} {ops : List TaskOp} {runnable : Bool}
  {bout : U16} {env : EnqueueEnv} {bss : Bss} {l : List ℕ}

/-! ### Arithmetic -/

/-- The operations of `avg - (avg >> k) + (rt >> k)` stay in 16 bits. -/
def StepFits (k : ℕ) (avg rt : U16) : Prop :=
  avg.usubOverflow (avg >>> k) = false ∧ (avg - avg >>> k).uaddOverflow (rt >>> k) = false

/-- The sum of `(avg + mid) >> 1` stays in 32 bits, and the half of it in 16. -/
def MeanFits (avg mid : U16) : Prop :=
  (avg.setWidth 32).uaddOverflow (mid.setWidth 32) = false ∧
    ((avg.setWidth 32 + mid.setWidth 32) >>> 1).toNat < 2 ^ 16

theorem stepFits (k : ℕ) (avg rt : U16) : StepFits k avg rt := by
  have hpart : (avg >>> k).toNat = avg.toNat / 2 ^ k := by
    rw [BitVec.toNat_ushiftRight, Nat.shiftRight_eq_div_pow]
  have hpart' : (rt >>> k).toNat = rt.toNat / 2 ^ k := by
    rw [BitVec.toNat_ushiftRight, Nat.shiftRight_eq_div_pow]
  have hle : (avg >>> k).toNat ≤ avg.toNat := hpart ▸ Nat.div_le_self _ _
  have hsub : (avg - avg >>> k).toNat = avg.toNat - (avg >>> k).toNat :=
    BitVec.toNat_sub_of_le (BitVec.le_def.mpr hle)
  have hsum : avg.toNat - (avg >>> k).toNat + (rt >>> k).toNat ≤ max avg.toNat rt.toNat := by
    rw [hpart, hpart']
    exact step_le_max
  have havg := avg.isLt
  have hrt := rt.isLt
  constructor
  · rw [BitVec.usubOverflow]
    exact decide_eq_false (not_lt.mpr hle)
  · rw [BitVec.uaddOverflow, hsub]
    exact decide_eq_false (by omega)

theorem meanFits (avg mid : U16) : MeanFits avg mid := by
  have havg := avg.isLt
  have hmid := mid.isLt
  constructor
  · rw [BitVec.uaddOverflow, BitVec.toNat_setWidth, BitVec.toNat_setWidth]
    exact decide_eq_false (by omega)
  · rw [BitVec.toNat_ushiftRight, Nat.shiftRight_eq_div_pow]
    bv_omega

/-! ### One update -/

/-- A stop leaves the average between what it was and the sample. -/
theorem accountBout_avgRt_mem (ro : Rodata) (runnable : Bool) (bout : U16) (c : TaskCtx) :
    (accountBout ro runnable bout c).avgRt.toNat
      ∈ Set.uIcc c.avgRt.toNat (burstSample c bout).toNat := by
  rw [accountBout_avgRt, ewma_toNat]
  exact asymmetric_mem_uIcc

/-- A preempted one never lowers it. -/
theorem accountBout_avgRt_mem_of_preempted (ro : Rodata) (bout : U16) (c : TaskCtx) :
    (accountBout ro true bout c).avgRt.toNat
      ∈ Set.Icc c.avgRt.toNat (max c.avgRt.toNat (burstSample c bout).toNat) := by
  rw [accountBout_avgRt, ewma_toNat]
  exact ⟨le_asymmetric_frozen, asymmetric_le_max⟩

/-- An enqueue moves the average to the mean of itself and the middle of the tier, or keeps it. -/
theorem enqueue_avgRt (h : TaskOp.apply ro (some c) (.enqueue env bss) = some c') :
    c'.avgRt.toNat = if Recovers env c then (c.avgRt.toNat + (tierSleepMid c.tier).toNat) / 2
      else c.avgRt.toNat := by
  split
  · next hrec =>
    have hctx := imperatorEnqueue_ctx_some ro env c bss
    rw [if_pos hrec.1] at hctx
    obtain rfl := Option.some.inj (hctx.symm.trans h)
    have hstamped := postSleepRecovery_avgRt_of_stamped
      (c := { c with enqueueTime := env.now.setWidth 32 }) (env.now.setWidth 32) hrec.2.1
    rw [standardCtx_avgRt]
    exact hstamped.trans (if_pos hrec.2.2)
  · next hrec => rw [enqueue_avgRt_of_not_recovers hrec h]

theorem mean_mem_uIcc (a b : ℕ) : (a + b) / 2 ∈ Set.uIcc a b := by
  rw [Set.mem_uIcc]
  omega

/-- **One enqueue** leaves it between what it was and the middle of the tier. -/
theorem enqueue_avgRt_mem (h : TaskOp.apply ro (some c) (.enqueue env bss) = some c') :
    c'.avgRt.toNat ∈ Set.uIcc c.avgRt.toNat (tierSleepMid c.tier).toNat := by
  rw [enqueue_avgRt h]
  split
  · exact mean_mem_uIcc _ _
  · exact Set.left_mem_uIcc

/-! ### The evidence of a run -/

/-- What a run has shown after an event: the seed, and since then every sample and every middle of
a tier that was applied. -/
def TaskOp.evidence (ctx : Option TaskCtx) (l : List ℕ) : TaskOp → List ℕ
  | .enable prio true => ctx.elim [(initAvgRt (initTier prio)).toNat] fun _ => l
  | .initTask false prio _ => ctx.elim l fun _ => [(initAvgRt (initTier prio)).toNat]
  | .initTask true _ (some parent) => ctx.elim l fun _ => [(parent.avgRt >>> 1).toNat]
  | .enqueue env _ =>
    ctx.elim l fun c => if Recovers env c then (tierSleepMid c.tier).toNat :: l else l
  | .stopping _ now _ _ =>
    ctx.elim l fun c =>
      (chargedBout (now.setWidth 32) c).elim l fun bout => (burstSample c bout).toNat :: l
  | _ => l

/-- A context with its evidence after an event. -/
def withEvidence (ro : Rodata) : Option TaskCtx × List ℕ → TaskOp → Option TaskCtx × List ℕ :=
  recording (TaskOp.apply ro) TaskOp.evidence

/-- Before the context is created there is none. -/
theorem evidence_of_none (h : op.apply ro none = none) : op.evidence none [] = [] := by
  cases op with
  | enable prio alloc =>
    cases alloc with
    | false => rfl
    | true => cases h
  | initTask fork prio parent => cases fork <;> cases parent <;> rfl
  | selectCpu | enqueue | running | tick | stopping | lockHolder => rfl

theorem spans_of_stop {cpu : Cpu} {now : U64} (h : Spans l c.avgRt.toNat)
    (happly : TaskOp.apply ro (some c) (.stopping cpu now runnable bss) = some c') :
    Spans ((TaskOp.stopping cpu now runnable bss).evidence (some c) l) c'.avgRt.toNat := by
  show Spans ((chargedBout (now.setWidth 32) c).elim l _) _
  cases hbout : chargedBout (now.setWidth 32) c with
  | none =>
    rcases apply_stopping_cases happly with ⟨-, rfl⟩ | ⟨_, hsome, -⟩
    · exact h
    · cases hbout.symm.trans hsome
  | some bout =>
    obtain ⟨stamp, rfl⟩ := accountBout_of_charged hbout happly
    exact h.cons (accountBout_avgRt_mem ro runnable bout { c with sleepEntryTime := stamp })

theorem spans_of_enqueue (h : Spans l c.avgRt.toNat)
    (happly : TaskOp.apply ro (some c) (.enqueue env bss) = some c') :
    Spans ((TaskOp.enqueue env bss).evidence (some c) l) c'.avgRt.toNat := by
  show Spans (if Recovers env c then (tierSleepMid c.tier).toNat :: l else l) _
  split
  · exact h.cons (enqueue_avgRt_mem happly)
  · next hrec =>
    rw [enqueue_avgRt_of_not_recovers hrec happly]
    exact h

/-- **One event** leaves the average within the evidence. -/
theorem spans_of_apply (h : Spans l c.avgRt.toNat) (happly : op.apply ro (some c) = some c') :
    Spans (op.evidence (some c) l) c'.avgRt.toNat := by
  cases leaves_of_apply happly with
  | uncharged | accounted => exact spans_of_stop h happly
  | requeued | enqueued => exact spans_of_enqueue h happly
  | execed =>
    rw [initTaskExec_avgRt]
    exact spans_singleton _
  | orphaned => exact h
  | forked =>
    rw [initTaskFork_avgRt]
    exact spans_singleton _
  | @enabled prio alloc => cases alloc <;> exact h
  | selected | ran | ticked | marked =>
    cases effect_of_apply happly with
    | kept hsame havg =>
      have hkept := havg.resolve_right (by simp)
      rw [hkept]
      exact h

/-- **The average stays within its evidence.** A stop that accounts for a bout leaves its range in
no operation; the new average is between the old one and the sample, and not below the old one if
the task was preempted. The same holds of an enqueue and the middle of the tier. So after any run
the average is between the smallest and the largest of its seed, the samples and the middles. -/
theorem avg_within_evidence (h : Run (ofNext (withEvidence ro)) (none, []) ops (some c, l)) :
    Spans l c.avgRt.toNat ∧
      (∀ cpu now runnable bss bout c', chargedBout (now.setWidth 32) c = some bout →
        TaskOp.apply ro (some c) (.stopping cpu now runnable bss) = some c' →
        StepFits 2 c.avgRt (burstSample c bout) ∧ StepFits 4 c.avgRt (burstSample c bout) ∧
        c'.avgRt.toNat ∈ Set.uIcc c.avgRt.toNat (burstSample c bout).toNat ∧
        (runnable = true → c'.avgRt.toNat
          ∈ Set.Icc c.avgRt.toNat (max c.avgRt.toNat (burstSample c bout).toNat))) ∧
      ∀ env bss c', TaskOp.apply ro (some c) (.enqueue env bss) = some c' →
        MeanFits c.avgRt (tierSleepMid c.tier) ∧
        c'.avgRt.toNat ∈ Set.uIcc c.avgRt.toNat (tierSleepMid c.tier).toNat := by
  refine ⟨?_, fun cpu now runnable bss bout c' hbout hstop => ?_,
    fun env bss c' henq => ⟨meanFits _ _, enqueue_avgRt_mem henq⟩⟩
  · have hrun : Run (ofNext (recording (TaskOp.apply ro) TaskOp.evidence)) (none, []) ops
      (some c, l) := h
    refine recorded_invariant (I := fun c l => Spans l c.avgRt.toNat) ?_ ?_ ?_ hrun
    · exact fun op hop => evidence_of_none hop
    · intro prio
      rw [allocTaskCtxCold_avgRt]
      exact spans_singleton _
    · exact fun _ _ _ _ hl happly => spans_of_apply hl happly
  · obtain ⟨stamp, rfl⟩ := accountBout_of_charged hbout hstop
    refine ⟨stepFits _ _ _, stepFits _ _ _,
      accountBout_avgRt_mem ro runnable bout { c with sleepEntryTime := stamp }, ?_⟩
    rintro rfl
    exact accountBout_avgRt_mem_of_preempted ro bout { c with sleepEntryTime := stamp }

/-- A task of nice value 0 that runs for ten milliseconds and wakes up after 600. -/
def sleepingRun : List TaskOp :=
  firstBoutRun ++ [blockAt, .enqueue (wakeAt 611240000) (initBss defaultRodata)]

/-- Its average of 1330 is between the seed, or the middle of T1, and the sample. -/
theorem sleepingRun_spans : ∃ c l,
    Run (ofNext (withEvidence defaultRodata)) (none, []) sleepingRun (some c, l) ∧
      l = [1050, 10000, 1050] ∧ c.avgRt.toNat = 1330 ∧ Spans l c.avgRt.toNat := by
  have hrun := Run.foldl_ofNext (withEvidence defaultRodata) (none, []) sleepingRun
  exact ⟨_, _, hrun, by decide, by decide, (avg_within_evidence hrun).1⟩

end Imperator
