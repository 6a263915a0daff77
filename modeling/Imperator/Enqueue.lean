import Imperator.Reclassify
import Imperator.TierDeadline

/-!
# Enqueueing a task

`imperator_enqueue` queues a task that could not be placed on an idle CPU. Three early exits queue
it without looking further: a kernel thread without a context, a task that is neither woken nor
preempted, and a task without a context. The standard path consumes what the task has collected
since it last ran (the sleep timestamp, the burst credit, the interrupt flag), chooses the tier for
this dispatch, which is not stored, and finally kicks a CPU when the tier is T0 or T1.

The context written by the standard path does not depend on the shared state, and the shared state
is only read for the waker's tier and the kick. `standardCtx` and `dispatchTier` are therefore
separate functions, each built from the blocks of the source in order.

## Main results

* `imperatorEnqueue_vtime` — every path queues at the deadline of its tier, time and advance
* `imperatorEnqueue_ctx` — what an enqueue may do to a context: the stored tier, the stability
  counter and the deficit are never touched
* `imperatorEnqueue_tierCpuMask`, `imperatorEnqueue_llcCpuMask` — and to the CPU sets: nothing
* `kickVictim_spec` — the victim is a CPU of the LLC in the set of T3, or else of T2
-/

namespace Imperator

/-! ### Inputs and outputs -/

/-- The bits of `enq_flags` the code tests, `SCX_ENQ_WAKEUP` and `SCX_ENQ_PREEMPT`. -/
structure EnqFlags where
  wakeup : Bool
  preempt : Bool
  deriving DecidableEq, Repr

/-- What `imperator_enqueue` reads besides the program's own state. -/
structure EnqueueEnv where
  /-- the CPU the callback runs on -/
  cpu : Cpu
  /-- `scx_bpf_task_cpu` -/
  taskCpu : Cpu
  /-- `scx_bpf_now` -/
  now : U64
  /-- `PF_KTHREAD` -/
  kthread : Bool
  flags : EnqFlags
  deriving DecidableEq, Repr

/-- A call of `scx_bpf_dsq_insert_vtime` on the queue of an LLC. -/
structure DsqInsert where
  llc : Llc
  slice : U64
  vtime : U64
  deriving DecidableEq, Repr

/-- The effects of one enqueue. `tier` and `advance` are the locals the key was computed from. -/
structure EnqueueResult where
  ctx : Option TaskCtx
  bss : Bss
  insert : DsqInsert
  tier : Tier
  advance : U64
  /-- the CPU kicked with `SCX_KICK_PREEMPT` -/
  kick : Option ℕ

/-! ### What the standard path consumes -/

/-- `tier_sleep_mid` -/
def tierSleepMid : Tier → U16 := ![50, 1050, 5000, 8001]

/-- After a sleep of more than 500 ms the average moves halfway to the middle of its tier. The
timestamp is consumed in any case; zero stands for none. -/
def postSleepRecovery (now : U32) (c : TaskCtx) : TaskCtx :=
  if c.sleepEntryTime ≠ 0 then
    let sleepNs := now - c.sleepEntryTime
    let c' :=
      if 500000000#32 < sleepNs then
        c.setDeficitAvg c.deficit
          (((c.avgRt.setWidth 32 + (tierSleepMid c.tier).setWidth 32) >>> 1).setWidth 16)
      else c
    { c' with sleepEntryTime := 0 }
  else c

/-- `tier_burst_cap_kns_gaming` and `tier_burst_cap_kns_sim` -/
def tierBurstCapKns (simMode : Bool) : Tier → U16 :=
  if simMode then ![0, 2000, 4000, 1000] else ![0, 2000, 4000, 0]

/-- Whether a preempted task of this tier earns credit. T0 never does, T3 only in the Sim
profile. -/
def earnsCredit (ro : Rodata) (preempt : Bool) (t : Tier) : Bool :=
  preempt && Tier.interact ≤ t && t ≤ (if ro.simMode then Tier.bulk else Tier.frame) &&
    0#16 < tierBurstCapKns ro.simMode t

/-- Earning burst credit: a quarter quantum, up to the cap of the tier. -/
def earnBurstCredit (ro : Rodata) (preempt : Bool) (c : TaskCtx) : TaskCtx :=
  if earnsCredit ro preempt c.tier then
    let capKns := tierBurstCapKns ro.simMode c.tier
    let newKns := c.burstCredit + (ro.quantumNs >>> 12).setWidth 16
    { c with burstCredit := if newKns < capKns then newKns else capKns }
  else c

/-- Consuming burst credit: the slice grows by it, up to the slice of T2. -/
def consumeBurstCredit (ro : Rodata) (c : TaskCtx) : TaskCtx :=
  if 0#16 < c.burstCredit then
    let bonusNs := c.burstCredit.setWidth 64 <<< 10
    let maxSlice := ro.tierSlice Tier.frame
    let extSlice := c.nextSlice + bonusNs
    { c with
      nextSlice := if extSlice < maxSlice then extSlice else maxSlice
      burstCredit := 0 }
  else c

/-- Consuming the interrupt flag. -/
def consumeIrqWake (c : TaskCtx) : TaskCtx :=
  if hasFlag c.packedInfo .irqWake then { c with packedInfo := clearFlag c.packedInfo .irqWake }
  else c

/-- The context with the enqueue time stamped and a finished sleep accounted for. -/
def recoveredCtx (env : EnqueueEnv) (c : TaskCtx) : TaskCtx :=
  let now := env.now.setWidth 32
  postSleepRecovery now { c with enqueueTime := now }

/-- The context before the interrupt flag is consumed, with the credit earned and spent. -/
def stampedCtx (ro : Rodata) (env : EnqueueEnv) (c : TaskCtx) : TaskCtx :=
  consumeBurstCredit ro (earnBurstCredit ro env.flags.preempt (recoveredCtx env c))

/-- The context the standard path leaves behind. -/
def standardCtx (ro : Rodata) (env : EnqueueEnv) (c : TaskCtx) : TaskCtx :=
  consumeIrqWake (stampedCtx ro env c)

/-! ### The tier of the dispatch -/

/-- The wakee takes the tier of the task running on the waker's CPU where that is better, but
never T0. Nothing is inherited from a mailbox that was never written. -/
def inheritWakerTier (bss : Bss) (cpu : Cpu) (t : Tier) : Tier :=
  let flags := (bss.megaMailbox cpu).flags
  if flags &&& mboxValidFlag ≠ 0 then
    let wakerTier := mboxGetTier flags
    if wakerTier < t then
      let promoted := if wakerTier < Tier.interact then Tier.interact else wakerTier
      if promoted < t then promoted else t
    else t
  else t

/-- The tier after the interrupt override: T0 for this dispatch. -/
def irqTier (packed : U32) : Tier :=
  if hasFlag packed .irqWake then Tier.critical else getTier packed

/-- The tier the standard path queues with. -/
def dispatchTier (env : EnqueueEnv) (bss : Bss) (packed : U32) : Tier :=
  if env.flags.wakeup ∧ Tier.critical < irqTier packed then
    inheritWakerTier bss env.cpu (irqTier packed)
  else irqTier packed

/-- The advance asked for: the bonus once for a new flow and once for a lock holder. -/
def flowAdvance (ro : Rodata) (packed : U32) : U64 :=
  (if hasFlag packed .new then ro.newFlowBonusNs else 0) +
    if hasFlag packed .lockHolder then ro.newFlowBonusNs else 0

/-! ### The kick -/

/-- The CPU to preempt for a T0 or T1 task: the lowest one of the LLC running T3, else T2. -/
def kickVictim (bss : Bss) (llc : Llc) : Option ℕ :=
  let myLlcMask := bss.llcCpuMask llc
  let t3InLlc := bss.tierCpuMask Tier.bulk &&& myLlcMask
  if t3InLlc ≠ 0#64 then some t3InLlc.scanForward
  else
    let t2InLlc := bss.tierCpuMask Tier.frame &&& myLlcMask
    if t2InLlc ≠ 0#64 then some t2InLlc.scanForward else none

/-! ### The callback -/

/-- The counters of the standard path. -/
def standardStats (ro : Rodata) (env : EnqueueEnv) (c : TaskCtx) (bss : Bss) : Bss :=
  let earned := earnBurstCredit ro env.flags.preempt (recoveredCtx env c)
  let packed := (stampedCtx ro env c).packedInfo
  let tier := dispatchTier env bss packed
  bss.count ro env.cpu fun s =>
    { s with
      nrPreemptWithCredit := s.nrPreemptWithCredit +
        if earnsCredit ro env.flags.preempt (recoveredCtx env c).tier then 1 else 0
      nrBurstCreditConsumed :=
        s.nrBurstCreditConsumed + if 0#16 < earned.burstCredit then 1 else 0
      nrIrqWakeBoosts := s.nrIrqWakeBoosts + if hasFlag packed .irqWake then 1 else 0
      nrWakerTierBoosts := s.nrWakerTierBoosts + if tier < irqTier packed then 1 else 0
      nrNewFlowDispatches := s.nrNewFlowDispatches + if env.flags.wakeup then 1 else 0
      nrOldFlowDispatches := s.nrOldFlowDispatches + if env.flags.wakeup then 0 else 1
      nrTierDispatches := Function.update s.nrTierDispatches tier (s.nrTierDispatches tier + 1) }

/-- The early exits: queue for a quantum at a fixed tier, without an advance and without a kick. -/
def queueFlat (ro : Rodata) (env : EnqueueEnv) (ctx : Option TaskCtx) (bss : Bss) (t : Tier) :
    EnqueueResult where
  ctx := ctx
  bss := bss.llcMarkNonempty (ro.llcOf env.taskCpu)
  insert := ⟨ro.llcOf env.taskCpu, ro.quantumNs, tierDeadline ro.tierConfigs env.now t 0⟩
  tier := t
  advance := 0
  kick := none

/-- The standard path: a woken or preempted task that has a context. -/
def queueStandard (ro : Rodata) (env : EnqueueEnv) (c : TaskCtx) (bss : Bss) : EnqueueResult :=
  let llc := ro.llcOf env.taskCpu
  let stamped := stampedCtx ro env c
  let tier := dispatchTier env bss stamped.packedInfo
  let advance := flowAdvance ro stamped.packedInfo
  let bss' := (standardStats ro env c bss).llcMarkNonempty llc
  { ctx := some (standardCtx ro env c)
    bss := bss'
    insert := ⟨llc, stamped.nextSlice, tierDeadline ro.tierConfigs env.now tier advance⟩
    tier := tier
    advance := advance
    kick := if tier ≤ Tier.interact then kickVictim bss' llc else none }

/-- `imperator_enqueue` -/
def imperatorEnqueue (ro : Rodata) (env : EnqueueEnv) (ctx : Option TaskCtx) (bss : Bss) :
    EnqueueResult :=
  if env.kthread ∧ ctx = none then queueFlat ro env ctx bss Tier.interact
  else if ¬ (env.flags.wakeup ∨ env.flags.preempt) then
    queueFlat ro env ctx bss (ctx.elim Tier.bulk TaskCtx.tier)
  else
    match ctx with
    | none => queueFlat ro env none bss Tier.frame
    | some c => queueStandard ro env c bss

/-! ### Effects on the context -/

variable (ro : Rodata) (env : EnqueueEnv) (c : TaskCtx) (ctx : Option TaskCtx) (bss : Bss)

/-- The recovery step writes the fused word, and the stamp is spent in any case. -/
theorem postSleepRecovery_eq (now : U32) (c : TaskCtx) : ∃ fused,
    postSleepRecovery now c = { c with deficitAvgFused := fused, sleepEntryTime := 0 } := by
  rw [postSleepRecovery]
  split
  · dsimp only
    split <;> exact ⟨_, rfl⟩
  · next h => exact ⟨c.deficitAvgFused, by rw [← not_not.mp h]⟩

@[simp] theorem postSleepRecovery_packedInfo (now : U32) :
    (postSleepRecovery now c).packedInfo = c.packedInfo := by
  obtain ⟨fused, h⟩ := postSleepRecovery_eq now c
  rw [h]

@[simp] theorem postSleepRecovery_deficit (now : U32) :
    (postSleepRecovery now c).deficit = c.deficit := by
  rw [postSleepRecovery]
  split
  · dsimp only
    split
    · exact extractDeficit_pack _ _
    · rfl
  · rfl

/-- The recovery step leaves the average or, after a sleep, halves its distance to the middle of
the tier. -/
theorem postSleepRecovery_avgRt (now : U32) : (postSleepRecovery now c).avgRt = c.avgRt ∨
    c.sleepEntryTime ≠ 0 ∧ (postSleepRecovery now c).avgRt.toNat
      = (c.avgRt.toNat + (tierSleepMid c.tier).toNat) / 2 := by
  rw [postSleepRecovery]
  split
  · next hsleep =>
    dsimp only
    split
    · refine Or.inr ⟨hsleep, ?_⟩
      have hlt := c.avgRt.isLt
      have hlt' := (tierSleepMid c.tier).isLt
      rw [show ∀ d : TaskCtx, ({ d with sleepEntryTime := 0 } : TaskCtx).avgRt = d.avgRt from
        fun _ => rfl, TaskCtx.setDeficitAvg_avgRt, BitVec.toNat_setWidth, BitVec.toNat_ushiftRight,
        Nat.shiftRight_eq_div_pow]
      bv_omega
    · exact Or.inl rfl
  · exact Or.inl rfl

@[simp] theorem postSleepRecovery_overrunCount (now : U32) :
    (postSleepRecovery now c).overrunCount = c.overrunCount := by
  obtain ⟨fused, h⟩ := postSleepRecovery_eq now c
  rw [h]

@[simp] theorem postSleepRecovery_burstAccUs (now : U32) :
    (postSleepRecovery now c).burstAccUs = c.burstAccUs := by
  obtain ⟨fused, h⟩ := postSleepRecovery_eq now c
  rw [h]

/-- So does the block of the enqueue, which also stamps the context. -/
theorem recoveredCtx_eq (env : EnqueueEnv) (c : TaskCtx) : ∃ fused,
    recoveredCtx env c
      = { c with
          enqueueTime := env.now.setWidth 32
          deficitAvgFused := fused
          sleepEntryTime := 0 } := by
  obtain ⟨fused, h⟩ := postSleepRecovery_eq (env.now.setWidth 32)
    { c with enqueueTime := env.now.setWidth 32 }
  exact ⟨fused, h⟩

@[simp] theorem recoveredCtx_nextSlice : (recoveredCtx env c).nextSlice = c.nextSlice := by
  obtain ⟨fused, h⟩ := recoveredCtx_eq env c
  rw [h]

@[simp] theorem recoveredCtx_burstCredit : (recoveredCtx env c).burstCredit = c.burstCredit := by
  obtain ⟨fused, h⟩ := recoveredCtx_eq env c
  rw [h]

@[simp] theorem recoveredCtx_tier : (recoveredCtx env c).tier = c.tier :=
  congrArg getTier (postSleepRecovery_packedInfo _ _)

/-- Burst credit is a matter of the slice and the credit alone. -/
theorem stampedCtx_eq (ro : Rodata) (env : EnqueueEnv) (c : TaskCtx) : ∃ slice credit,
    stampedCtx ro env c
      = { recoveredCtx env c with nextSlice := slice, burstCredit := credit } := by
  rw [stampedCtx, consumeBurstCredit, earnBurstCredit]
  split <;> split <;> exact ⟨_, _, rfl⟩

@[simp] theorem stampedCtx_packedInfo : (stampedCtx ro env c).packedInfo = c.packedInfo := by
  obtain ⟨slice, credit, h⟩ := stampedCtx_eq ro env c
  rw [h]
  exact postSleepRecovery_packedInfo _ _

/-- The interrupt flag is one bit of the packed word: tier, counter and the other flags stay. -/
theorem consumeIrqWake_eq (c : TaskCtx) : ∃ packed,
    consumeIrqWake c = { c with packedInfo := packed } ∧ getTier packed = c.tier ∧
      getStable packed = c.stable ∧ hasFlag packed .new = hasFlag c.packedInfo .new := by
  rw [consumeIrqWake]
  split
  · exact ⟨_, rfl, getTier_clearFlag _ _, getStable_clearFlag _ _, by simp⟩
  · exact ⟨c.packedInfo, rfl, rfl, rfl, rfl⟩

/-- The standard path keeps the account of the task. -/
theorem standardCtx_sameAccount : SameAccount c (standardCtx ro env c) := by
  obtain ⟨slice, credit, hstamped⟩ := stampedCtx_eq ro env c
  obtain ⟨packed, hirq, htier, hstable, hnew⟩ := consumeIrqWake_eq (stampedCtx ro env c)
  have hpacked : (stampedCtx ro env c).packedInfo = c.packedInfo := stampedCtx_packedInfo ro env c
  rw [standardCtx, hirq]
  refine ⟨htier.trans (congrArg getTier hpacked), hstable.trans (congrArg getStable hpacked), ?_,
    by rw [hnew, hpacked], ?_, ?_⟩
  · rw [hstamped]
    exact postSleepRecovery_deficit _ _
  · rw [hstamped]
    exact postSleepRecovery_overrunCount _ _
  · rw [hstamped]
    exact postSleepRecovery_burstAccUs _ _

theorem standardCtx_avgRt :
    (standardCtx ro env c).avgRt = (recoveredCtx env c).avgRt := by
  obtain ⟨slice, credit, hstamped⟩ := stampedCtx_eq ro env c
  obtain ⟨packed, hirq, -⟩ := consumeIrqWake_eq (stampedCtx ro env c)
  rw [standardCtx, hirq, hstamped]
  rfl

/-! ### The callback as a whole -/

variable {ro env ctx bss}

/-- Every call either takes an early exit or the standard path. -/
theorem imperatorEnqueue_cases (ro : Rodata) (env : EnqueueEnv) (ctx : Option TaskCtx) (bss : Bss) :
    (∃ t, imperatorEnqueue ro env ctx bss = queueFlat ro env ctx bss t) ∨
      ∃ c, ctx = some c ∧ imperatorEnqueue ro env ctx bss = queueStandard ro env c bss := by
  rw [imperatorEnqueue.eq_def]
  split
  · exact Or.inl ⟨_, rfl⟩
  · split
    · exact Or.inl ⟨_, rfl⟩
    · cases ctx with
      | none => exact Or.inl ⟨_, rfl⟩
      | some c => exact Or.inr ⟨c, rfl, rfl⟩

/-- **Every path queues at the deadline of its tier, time and advance.** -/
theorem imperatorEnqueue_vtime (ro : Rodata) (env : EnqueueEnv) (ctx : Option TaskCtx) (bss : Bss) :
    (imperatorEnqueue ro env ctx bss).insert.vtime = tierDeadline ro.tierConfigs env.now
      (imperatorEnqueue ro env ctx bss).tier (imperatorEnqueue ro env ctx bss).advance := by
  rcases imperatorEnqueue_cases ro env ctx bss with ⟨t, h⟩ | ⟨c, -, h⟩
  · rw [h, queueFlat]
  · rw [h, queueStandard]

/-- An enqueue leaves the context absent, untouched, or as the standard path writes it. -/
theorem imperatorEnqueue_ctx (ro : Rodata) (env : EnqueueEnv) (ctx : Option TaskCtx) (bss : Bss) :
    (imperatorEnqueue ro env ctx bss).ctx = ctx ∨
      ∃ c, ctx = some c ∧ (imperatorEnqueue ro env ctx bss).ctx = some (standardCtx ro env c) := by
  rcases imperatorEnqueue_cases ro env ctx bss with ⟨t, h⟩ | ⟨c, hc, h⟩
  · exact Or.inl (by rw [h]; rfl)
  · exact Or.inr ⟨c, hc, by rw [h]; rfl⟩

/-- Whether an enqueue takes the standard path is a matter of its flags. -/
theorem imperatorEnqueue_ctx_some (ro : Rodata) (env : EnqueueEnv) (c : TaskCtx) (bss : Bss) :
    (imperatorEnqueue ro env (some c) bss).ctx
      = if env.flags.wakeup ∨ env.flags.preempt then some (standardCtx ro env c) else some c := by
  rw [imperatorEnqueue, if_neg fun h => Option.some_ne_none c h.2, ite_not]
  split <;> rfl

theorem imperatorEnqueue_llc (ro : Rodata) (env : EnqueueEnv) (ctx : Option TaskCtx) (bss : Bss) :
    (imperatorEnqueue ro env ctx bss).insert.llc = ro.llcOf env.taskCpu := by
  rcases imperatorEnqueue_cases ro env ctx bss with ⟨t, h⟩ | ⟨c, -, h⟩ <;> rw [h] <;> rfl

/-- **What an enqueue changes of the globals**: the byte of the LLC it queues on, and the
statistics. -/
theorem imperatorEnqueue_bss (ro : Rodata) (env : EnqueueEnv) (ctx : Option TaskCtx) (bss : Bss) :
    ∃ stats, (imperatorEnqueue ro env ctx bss).bss
      = ({ bss with globalStats := stats } : Bss).llcMarkNonempty
          (imperatorEnqueue ro env ctx bss).insert.llc := by
  rcases imperatorEnqueue_cases ro env ctx bss with ⟨t, h⟩ | ⟨c, -, h⟩
  · rw [h]
    exact ⟨bss.globalStats, rfl⟩
  · have hcount : ∃ stats, standardStats ro env c bss = { bss with globalStats := stats } := by
      rw [standardStats]
      exact Bss.count_frame ..
    obtain ⟨stats, hcount⟩ := hcount
    rw [h, queueStandard, hcount]
    exact ⟨stats, rfl⟩

@[simp] theorem imperatorEnqueue_tierCpuMask :
    (imperatorEnqueue ro env ctx bss).bss.tierCpuMask = bss.tierCpuMask := by
  obtain ⟨stats, h⟩ := imperatorEnqueue_bss ro env ctx bss
  rw [h, Bss.llcMarkNonempty_tierCpuMask]

@[simp] theorem imperatorEnqueue_llcCpuMask :
    (imperatorEnqueue ro env ctx bss).bss.llcCpuMask = bss.llcCpuMask := by
  obtain ⟨stats, h⟩ := imperatorEnqueue_bss ro env ctx bss
  rw [h, Bss.llcMarkNonempty_llcCpuMask]

theorem imperatorEnqueue_megaMailbox :
    (imperatorEnqueue ro env ctx bss).bss.megaMailbox = bss.megaMailbox := by
  obtain ⟨stats, h⟩ := imperatorEnqueue_bss ro env ctx bss
  rw [h, Bss.llcMarkNonempty_megaMailbox]

/-- The byte is that of marking the LLC. -/
theorem imperatorEnqueue_llcNonempty : (imperatorEnqueue ro env ctx bss).bss.llcNonempty
    = (bss.llcMarkNonempty (imperatorEnqueue ro env ctx bss).insert.llc).llcNonempty := by
  obtain ⟨stats, h⟩ := imperatorEnqueue_bss ro env ctx bss
  rw [h, Bss.llcMarkNonempty_llcNonempty, Bss.llcMarkNonempty_llcNonempty]

/-- A victim is a CPU of the LLC that is in the set of T3 or, where that has none, of T2. -/
theorem kickVictim_spec {llc : Llc} {v : ℕ} (h : kickVictim bss llc = some v) :
    ∃ c : Cpu, c.val = v ∧ (bss.llcCpuMask llc).getLsbD c = true ∧
      ∃ t, Tier.frame ≤ t ∧ (bss.tierCpuMask t).getLsbD c = true := by
  have hscan : ∀ t : Tier, bss.tierCpuMask t &&& bss.llcCpuMask llc ≠ 0#64 →
      ∃ c : Cpu, c.val = (bss.tierCpuMask t &&& bss.llcCpuMask llc).scanForward ∧
        (bss.llcCpuMask llc).getLsbD c = true ∧ (bss.tierCpuMask t).getLsbD c = true := by
    intro t hne
    have hbit := BitVec.getLsbD_scanForward hne
    rw [BitVec.getLsbD_and, Bool.and_eq_true] at hbit
    exact ⟨⟨_, BitVec.scanForward_lt hne⟩, rfl, hbit.2, hbit.1⟩
  rw [kickVictim] at h
  dsimp only at h
  split at h
  · next h3 =>
    obtain ⟨c, hc, hllc, htier⟩ := hscan Tier.bulk h3
    exact ⟨c, hc.trans (Option.some.inj h), hllc, Tier.bulk, by decide, htier⟩
  · split at h
    · next h2 =>
      obtain ⟨c, hc, hllc, htier⟩ := hscan Tier.frame h2
      exact ⟨c, hc.trans (Option.some.inj h), hllc, Tier.frame, le_rfl, htier⟩
    · cases h

/-- Only the standard path kicks, and only what `kickVictim` finds. -/
theorem imperatorEnqueue_kick {v : ℕ} (h : (imperatorEnqueue ro env ctx bss).kick = some v) :
    kickVictim (imperatorEnqueue ro env ctx bss).bss (ro.llcOf env.taskCpu) = some v := by
  rcases imperatorEnqueue_cases ro env ctx bss with ⟨t, hq⟩ | ⟨c, -, hq⟩
  · rw [hq] at h
    cases h
  · rw [hq] at h ⊢
    rw [queueStandard] at h
    dsimp only at h
    split at h
    · exact h
    · cases h

end Imperator
