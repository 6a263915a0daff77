import Imperator.TaskRun

/-!
# Waking up after a long sleep

A task that blocks is stamped with the time, and the enqueue of its next wakeup compares. After more
than half a second the runtime average is taken for old, and moved halfway to the middle of the
tier.

Both times are 32 bits of a clock of 64 bits, so what is compared is the length of the sleep modulo
4.3 seconds. A sleep that is longer by up to half a second than a multiple of that counts as short,
which the source accepts: the average then converges by its own means.

The stamp is spent by the enqueue that reads it. Only the next block sets a new one, so a sleep is
counted once.

## Main definitions

* `LongSleep` — what the two stamps show of a sleep
* `NoBlock` — the task does not block

## Main results

* `standardCtx_avgRt_of_stamped` — one wakeup
* `post_sleep_recovery` — a block, the wakeup, and everything up to the next block
-/

namespace Imperator

open Transition

variable {ro : Rodata} {c c' c₁ c₂ c₃ c₄ : TaskCtx} {op : TaskOp} {ops : List TaskOp}
  {env : EnqueueEnv} {bss : Bss} {s w : U64}

/-! ### One wakeup -/

/-- The sleep from `s` to `w` is longer than 500 ms, as far as 32 bits of the clock can show. -/
def LongSleep (s w : U64) : Prop := 500000000 < (w.toNat - s.toNat) % 2 ^ 32

instance (s w : U64) : Decidable (LongSleep s w) := inferInstanceAs (Decidable (_ < _))

/-- Up to 4.3 seconds nothing is lost. -/
theorem longSleep_iff (h : w.toNat - s.toNat < 2 ^ 32) :
    LongSleep s w ↔ 500000000 < w.toNat - s.toNat := by
  rw [LongSleep, Nat.mod_eq_of_lt h]

/-- The difference of the truncated times is that of the times, truncated. -/
theorem longSleep_iff_stamps (h : s ≤ w) :
    500000000#32 < w.setWidth 32 - s.setWidth 32 ↔ LongSleep s w := by
  rw [BitVec.le_def] at h
  have hdiff : (w.setWidth 32 - s.setWidth 32).toNat = (w.toNat - s.toNat) % 2 ^ 32 := by
    rw [BitVec.toNat_sub, BitVec.toNat_setWidth, BitVec.toNat_setWidth]
    omega
  rw [BitVec.lt_def, hdiff, LongSleep]
  rfl

/-- A stamped sleep is judged by its length, and the average moves to the mean of itself and the
middle of the tier, or stays. -/
theorem postSleepRecovery_avgRt_of_stamped (now : U32) (h : c.sleepEntryTime ≠ 0) :
    (postSleepRecovery now c).avgRt.toNat = if 500000000#32 < now - c.sleepEntryTime
      then (c.avgRt.toNat + (tierSleepMid c.tier).toNat) / 2 else c.avgRt.toNat := by
  rw [postSleepRecovery, if_pos h]
  show (TaskCtx.avgRt (if 500000000#32 < now - c.sleepEntryTime then
    c.setDeficitAvg c.deficit
      (((c.avgRt.setWidth 32 + (tierSleepMid c.tier).setWidth 32) >>> 1).setWidth 16)
    else c)).toNat = _
  split
  · have havg := c.avgRt.isLt
    have hmid := (tierSleepMid c.tier).isLt
    rw [TaskCtx.setDeficitAvg_avgRt, BitVec.toNat_setWidth, BitVec.toNat_ushiftRight,
      Nat.shiftRight_eq_div_pow]
    bv_omega
  · rfl

/-- The stamp is spent in any case. -/
theorem postSleepRecovery_sleepEntryTime (now : U32) (c : TaskCtx) :
    (postSleepRecovery now c).sleepEntryTime = 0 := by
  obtain ⟨fused, h⟩ := postSleepRecovery_eq now c
  rw [h]

theorem standardCtx_sleepEntryTime (ro : Rodata) (env : EnqueueEnv) (c : TaskCtx) :
    (standardCtx ro env c).sleepEntryTime = 0 := by
  obtain ⟨slice, credit, hstamped⟩ := stampedCtx_eq ro env c
  obtain ⟨packed, hirq, -⟩ := consumeIrqWake_eq (stampedCtx ro env c)
  rw [standardCtx, hirq, hstamped]
  exact postSleepRecovery_sleepEntryTime _ _

/-- **One wakeup** of a task that was stamped at `s`. -/
theorem standardCtx_avgRt_of_stamped (ro : Rodata) (hstamp : c.sleepEntryTime = s.setWidth 32)
    (hs : s.setWidth 32 ≠ 0#32) (hle : s ≤ env.now) :
    (standardCtx ro env c).avgRt.toNat = if LongSleep s env.now
      then (c.avgRt.toNat + (tierSleepMid c.tier).toNat) / 2 else c.avgRt.toNat := by
  rw [standardCtx_avgRt, recoveredCtx]
  have hne : ({ c with enqueueTime := env.now.setWidth 32 } : TaskCtx).sleepEntryTime ≠ 0 := by
    show c.sleepEntryTime ≠ 0
    rw [hstamp]
    exact hs
  rw [postSleepRecovery_avgRt_of_stamped _ hne]
  show (if 500000000#32 < env.now.setWidth 32 - c.sleepEntryTime
    then (c.avgRt.toNat + (tierSleepMid c.tier).toNat) / 2 else c.avgRt.toNat) = _
  simp only [hstamp, longSleep_iff_stamps hle]

/-! ### Up to the next block -/

/-- The event is not a stop at which the task blocks. -/
def NoBlock : Option TaskCtx → TaskOp → Prop
  | _, .stopping _ _ runnable _ => runnable = true
  | _, _ => True

@[simp] theorem accountBout_sleepEntryTime (ro : Rodata) (runnable : Bool) (bout : U16)
    (c : TaskCtx) : (accountBout ro runnable bout c).sleepEntryTime = c.sleepEntryTime := by
  by_cases hback : TakesBackoff c
  · obtain ⟨fused, packed, counter, h⟩ := quickPass_eq runnable bout (burstSample c bout)
      (entered runnable bout c)
    rw [accountBout_of_backoff ro runnable bout hback, h]
    rfl
  · rw [accountBout_of_full ro runnable bout hback]
    rfl

/-- Only a block sets the stamp. -/
theorem sleepEntryTime_of_apply {ctx : Option TaskCtx} (hc : c.sleepEntryTime = 0)
    (hop : NoBlock ctx op) (h : op.apply ro (some c) = some c') : c'.sleepEntryTime = 0 := by
  cases leaves_of_apply h with
  | enabled | orphaned | requeued | ticked | uncharged => exact hc
  | execed | forked => rfl
  | @selected irq direct =>
    obtain ⟨packed, hirq, -⟩ := consumeIrqWake_eq
      (if irq then { c with packedInfo := setFlag c.packedInfo .irqWake } else c)
    rw [selectCpuCtx, hirq]
    cases irq <;> cases direct <;> exact hc
  | enqueued => exact standardCtx_sleepEntryTime ro _ c
  | ran =>
    rw [runningCtx, updateJitter]
    split <;> exact hc
  | accounted =>
    rw [accountBout_sleepEntryTime]
    exact if_pos hop
  | @marked held => cases held <;> exact hc

/-- Without a block there is never a stamp. -/
theorem sleepEntryTime_of_run (hc : c.sleepEntryTime = 0)
    (h : Run (Guarded (ofNext (TaskOp.apply ro)) NoBlock) (some c) ops (some c')) :
    c'.sleepEntryTime = 0 := by
  refine Run.invariant (I := fun ctx => ∀ d, ctx = some d → d.sleepEntryTime = 0) ?_ h
    (fun d hd => Option.some.inj hd ▸ hc) c' rfl
  rintro ctx op _ hI ⟨hop, rfl⟩ d hd
  cases ctx with
  | none =>
    cases effect_of_apply hd with
    | created => rfl
  | some b => exact sleepEntryTime_of_apply (hI b rfl) hop hd

/-- An enqueue without a stamp keeps the average. -/
theorem apply_enqueue_avgRt (hc : c.sleepEntryTime = 0)
    (h : TaskOp.apply ro (some c) (.enqueue env bss) = some c') : c'.avgRt = c.avgRt := by
  rcases imperatorEnqueue_ctx ro env (some c) bss with hctx | ⟨d, hd, hctx⟩
  · obtain rfl := Option.some.inj (hctx.symm.trans h)
    rfl
  · obtain rfl := Option.some.inj hd
    obtain rfl := Option.some.inj (hctx.symm.trans h)
    rw [standardCtx_avgRt]
    exact (recoveredCtx_avgRt env c).resolve_right fun hmoved => hmoved.1 hc

/-- A stamped bout that ends in a block leaves the time of the block. -/
theorem sleepEntryTime_of_block {cpu : Cpu} (hrun : c.lastRunAt ≠ 0)
    (h : TaskOp.apply ro (some c) (.stopping cpu s false bss) = some c₁) :
    c₁.sleepEntryTime = s.setWidth 32 := by
  rw [apply_stopping_of_stamped hrun] at h
  obtain rfl := Option.some.inj h
  rw [accountBout_sleepEntryTime]
  rfl

/-- **Recovery after a sleep.** A task blocks at `s`, and its next callback is the enqueue of a
wakeup at `w`. If its bout was stamped and the low 32 bits of `s` are not zero, then the average
moves to the mean of itself and the middle of the tier if the sleep is longer than 500 ms modulo
2³² ns, and otherwise stays. In any case no later enqueue moves it before the next block. -/
theorem post_sleep_recovery {cpu : Cpu} {bss' : Bss}
    (hblock : TaskOp.apply ro (some c) (.stopping cpu s false bss) = some c₁)
    (hwake : env.flags.wakeup = true) (hle : s ≤ env.now)
    (henq : TaskOp.apply ro (some c₁) (.enqueue env bss') = some c₂) :
    (c.lastRunAt ≠ 0 → s.setWidth 32 ≠ 0#32 →
        c₂.avgRt.toNat = if LongSleep s env.now
          then (c₁.avgRt.toNat + (tierSleepMid c₁.tier).toNat) / 2 else c₁.avgRt.toNat) ∧
      ∀ ops c₃ env' bss'' c₄,
        Run (Guarded (ofNext (TaskOp.apply ro)) NoBlock) (some c₂) ops (some c₃) →
        TaskOp.apply ro (some c₃) (.enqueue env' bss'') = some c₄ → c₄.avgRt = c₃.avgRt := by
  have hstandard : c₂ = standardCtx ro env c₁ := by
    have hctx := imperatorEnqueue_ctx_some ro env c₁ bss'
    rw [if_pos (Or.inl hwake)] at hctx
    exact Option.some.inj (henq.symm.trans hctx)
  refine ⟨fun hrun hs => ?_, fun ops c₃ env' bss'' c₄ hlater henq' => ?_⟩
  · rw [hstandard]
    exact standardCtx_avgRt_of_stamped ro (sleepEntryTime_of_block hrun hblock) hs hle
  · refine apply_enqueue_avgRt (sleepEntryTime_of_run ?_ hlater) henq'
    rw [hstandard]
    exact standardCtx_sleepEntryTime ro env c₁

/-- A task of nice value 0 in its first bout. -/
def firstBoutRun : List TaskOp := [.enable 120 true, .running 0 1000000 (initBss defaultRodata)]

/-- It blocks after ten milliseconds. -/
def blockAt : TaskOp := .stopping 0 11240000 false (initBss defaultRodata)

/-- The enqueue of its wakeup. -/
def wakeAt (w : U64) : EnqueueEnv := ⟨0, 0, w, false, ⟨true, false⟩⟩

theorem firstBoutRun_blocks : ∃ c c₁, TaskRun defaultRodata anyOp firstBoutRun (some c) ∧
    c.lastRunAt ≠ 0 ∧ TaskOp.apply defaultRodata (some c) blockAt = some c₁ ∧
      c₁.tier = Tier.interact ∧ c₁.avgRt = 1610 ∧ c₁.sleepEntryTime = 11240000 :=
  ⟨_, _, taskRun_anyOp defaultRodata firstBoutRun, by decide, rfl, by decide, by decide, by decide⟩

/-- After 600 ms of sleep the average of 1610 moves to the mean of itself and 1050. -/
theorem firstBoutRun_recovers : ∃ c₁ c₂ : TaskCtx, c₁.avgRt = 1610 ∧
    TaskOp.apply defaultRodata (some c₁)
      (.enqueue (wakeAt 611240000) (initBss defaultRodata)) = some c₂ ∧
    c₂.avgRt.toNat = 1330 := by
  obtain ⟨c, c₁, -, hrun, hblock, htier, havg, -⟩ := firstBoutRun_blocks
  have hwakes : TaskOp.apply defaultRodata (some c₁)
      (.enqueue (wakeAt 611240000) (initBss defaultRodata))
      = some (standardCtx defaultRodata (wakeAt 611240000) c₁) := rfl
  obtain ⟨h, -⟩ := post_sleep_recovery hblock rfl (by decide) hwakes
  refine ⟨c₁, _, havg, hwakes, (h hrun (by decide)).trans ?_⟩
  rw [if_pos (by decide), htier, havg]
  rfl

/-- After 2³² ns, which is longer, it stays: the two stamps are equal. -/
theorem firstBoutRun_wrapped : ∃ c c₁ c₂ : TaskCtx,
    TaskRun defaultRodata anyOp firstBoutRun (some c) ∧
    TaskOp.apply defaultRodata (some c) blockAt = some c₁ ∧
    TaskOp.apply defaultRodata (some c₁)
      (.enqueue (wakeAt (11240000 + 2 ^ 32)) (initBss defaultRodata)) = some c₂ ∧
    500000000 < (wakeAt (11240000 + 2 ^ 32)).now.toNat - 11240000 ∧
    c₂.avgRt.toNat ≠ (c₁.avgRt.toNat + (tierSleepMid c₁.tier).toNat) / 2 := by
  obtain ⟨c, c₁, hinit, hrun, hblock, htier, havg, hstamp⟩ := firstBoutRun_blocks
  refine ⟨c, c₁, _, hinit, hblock, rfl, by decide, ?_⟩
  have hstamp' : c₁.sleepEntryTime = (11240000#64).setWidth 32 := hstamp
  have hle : 11240000#64 ≤ (wakeAt (11240000 + 2 ^ 32)).now := by decide
  have hkept := standardCtx_avgRt_of_stamped defaultRodata hstamp' (by decide) hle
  rw [if_neg (by decide)] at hkept
  show (standardCtx defaultRodata (wakeAt (11240000 + 2 ^ 32)) c₁).avgRt.toNat ≠ _
  rw [hkept, htier, havg]
  decide

end Imperator
