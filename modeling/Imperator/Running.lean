import Imperator.Reclassify

/-!
# From running to stopping

The three callbacks of a bout. `imperator_running` stamps the start, publishes the tier of the task
in the mailbox of its CPU and enters the CPU into the set of that tier. `imperator_tick` checks
slice and starvation budget while the task runs. `imperator_stopping` removes the CPU from the set
of the tier, and then accounts for the bout, which may change the tier.

The start is stamped with the low 32 bits of the clock, and zero is read as "not stamped" by the
other two callbacks: the tick stamps again, and stopping does nothing at all.

## Main results

* `imperatorRunning_getLsbD`, `imperatorStopping_getLsbD` — who enters a set and who leaves it
* `imperatorTick_ctx` — a tick moves the timestamp exactly when it is zero
* `imperatorRunning_bss`, `imperatorTick_bss`, `imperatorStopping_bss` — which globals they change
* `runningCtx_sameAccount` — starting to run does not change the account of the task
-/

namespace Imperator

/-! ### Running -/

/-- The dispatch latency, fed into its average where the enqueue was stamped. -/
def updateJitter (c : TaskCtx) : TaskCtx :=
  if c.enqueueTime ≠ 0 then
    let latUs := (c.lastRunAt - c.enqueueTime) >>> 10
    let newEwma := (c.jitterEwmaUs.setWidth 32 * 7 + latUs) >>> 3
    { c with
      jitterEwmaUs := if 0xFFFF#32 < newEwma then 0xFFFF#16 else newEwma.setWidth 16
      enqueueTime := 0 }
  else c

/-- The context after `imperator_running`. -/
def runningCtx (now : U64) (c : TaskCtx) : TaskCtx :=
  updateJitter { c with lastRunAt := now.setWidth 32 }

/-- `imperator_running` -/
def imperatorRunning (ro : Rodata) (cpu : Cpu) (now : U64) (ctx : Option TaskCtx) (bss : Bss) :
    Option TaskCtx × Bss :=
  match ctx with
  | none => (none, bss)
  | some c =>
    let c' := runningCtx now c
    let bss := if c.enqueueTime ≠ 0 then
        bss.count ro cpu fun s =>
          { s with
            nrJitterEwmaSum := s.nrJitterEwmaSum + c'.jitterEwmaUs.setWidth 64
            nrJitterEwmaCount := s.nrJitterEwmaCount + 1 }
      else bss
    let mbox := bss.megaMailbox cpu
    let newFlags := mboxValidFlag ||| (mbox.flags &&& ~~~mboxTierMask) ||| BitVec.ofNat 8 c.tier
    (some c', (bss.setMailbox cpu { mbox with flags := newFlags }).setTierCpu c.tier cpu)

/-! ### Tick -/

/-- What `imperator_tick` reads besides the program's own state. -/
structure TickEnv where
  cpu : Cpu
  /-- `scx_bpf_now` -/
  now : U64
  /-- `scx_bpf_dsq_nr_queued` of the LLC's queue is positive -/
  llcQueued : Bool
  /-- `scx_bpf_dsq_nr_queued` of the local queue is positive -/
  localQueued : Bool
  /-- `rq->scx.nr_running`, where there is a run queue -/
  nrRunning : Option U32
  /-- `scx_bpf_cpuperf_cap` -/
  cpuperfCap : U32

/-- `sole_occupant`: there is a run queue, and its `scx.nr_running` is zero. -/
def SoleOccupant (env : TickEnv) : Prop := env.nrRunning = some 0

instance (env : TickEnv) : Decidable (SoleOccupant env) := inferInstanceAs (Decidable (_ = _))

/-- The effects of one tick. -/
structure TickResult where
  ctx : Option TaskCtx
  bss : Bss
  /-- the running CPU is kicked with `SCX_KICK_PREEMPT` -/
  kick : Bool
  /-- the value passed to `scx_bpf_cpuperf_set`, where it is called -/
  cpuperf : Option U32

/-- `SCX_CPUPERF_ONE` -/
def scxCpuperfOne : U32 := 1024

/-- `tier_perf_target` -/
def tierPerfTarget : Fin 8 → U32 := fun _ => scxCpuperfOne

/-- `DSQ_HINT_ENCODE` -/
def dsqHintEncode (target : U32) : U8 := ((target >>> 3) + 1).setWidth 8

/-- `skip_mask`: the more ticks passed without contention, the fewer of them check. -/
def skipMask (tc : U8) : U8 := if tc < 8 then 0 else if tc < 16 then 1 else if tc < 32 then 3 else 7

/-- Growing the confidence counter, saturating. -/
def growTickCounter (tc : U8) : U8 := if tc < 255 then tc + 1 else tc

/-- The end of a tick: publish the tier, and request `target` unless it was the last request. A
zero hint means that nothing was requested yet. -/
def mailboxDvfs (cpu : Cpu) (t : Tier) (target : U32) (bss : Bss) : Bss × Option U32 :=
  let mbox := { bss.megaMailbox cpu with flags := mboxFlags t }
  let cached := dsqHintEncode target
  if mbox.dsqHint = 0 ∨ mbox.dsqHint ≠ cached then
    (bss.setMailbox cpu { mbox with dsqHint := cached }, some target)
  else (bss.setMailbox cpu mbox, none)

/-- Kicking the running CPU, with the tier published first. -/
def preemptSelf (cpu : Cpu) (t : Tier) (c : TaskCtx) (bss : Bss) : TickResult where
  ctx := some c
  bss := bss.setMailbox cpu { bss.megaMailbox cpu with flags := mboxFlags t }
  kick := true
  cpuperf := none

/-- The request scaled by the capability of the core on hybrid systems. -/
def scaledTarget (ro : Rodata) (env : TickEnv) (t : Tier) : U32 :=
  let target := tierPerfTarget (cakeTierIdx t)
  if ro.hasHybrid then (target * env.cpuperfCap) >>> 10 else target

/-- A tick of a stamped task, slice not exceeded: the starvation check. `tc` is the confidence
counter as read before. A lock holder over its budget is spared four times. -/
def starvationCheck (ro : Rodata) (env : TickEnv) (c : TaskCtx) (bss : Bss) : TickResult :=
  let t := c.tier
  let mbox := bss.megaMailbox env.cpu
  let tc := mbox.tickCounter
  let setTc := fun tc' : U8 => bss.setMailbox env.cpu { mbox with tickCounter := tc' }
  let finish := fun (c : TaskCtx) (target : U32) (bss : Bss) =>
    let out := mailboxDvfs env.cpu t target bss
    (⟨some c, out.1, false, out.2⟩ : TickResult)
  let contended := env.nrRunning.any fun n => 1 < n
  if tc &&& skipMask tc = 0 ∧ contended then
    let bss := setTc (tc - tc >>> 2)
    let runtime := (env.now.setWidth 32 - c.lastRunAt).setWidth 64
    if unpackStarvationNs (ro.tierConfigs (cakeTierIdx t)) < runtime then
      let holder := hasFlag c.packedInfo .lockHolder
      if holder ∧ c.lockSkipCount < 4 then
        finish { c with lockSkipCount := c.lockSkipCount + 1 } (scaledTarget ro env t)
          (bss.count ro env.cpu fun s => { s with nrLockHolderSkips := s.nrLockHolderSkips + 1 })
      else
        preemptSelf env.cpu t { c with lockSkipCount := if holder then 0 else c.lockSkipCount }
          (bss.count ro env.cpu fun s =>
            let n := s.nrStarvationPreemptsTier
            { s with nrStarvationPreemptsTier := Function.update n t (n t + 1) })
    else finish c scxCpuperfOne bss
  -- a sole occupant jumps to `mailbox_dvfs_max`, and the other exits fall through into it
  else finish c scxCpuperfOne (setTc (growTickCounter tc))

/-- `imperator_tick` -/
def imperatorTick (ro : Rodata) (env : TickEnv) (ctx : Option TaskCtx) (bss : Bss) : TickResult :=
  match ctx with
  | none => ⟨none, bss, false, none⟩
  | some c =>
    let now := env.now.setWidth 32
    if c.lastRunAt = 0 then ⟨some { c with lastRunAt := now }, bss, false, none⟩
    else
      let runtime := (now - c.lastRunAt).setWidth 64
      if c.nextSlice < runtime ∧ (env.llcQueued ∨ env.localQueued) then
        preemptSelf env.cpu c.tier c bss
      else starvationCheck ro env c bss

/-! ### Stopping -/

/-- The context after `imperator_stopping`, for a task that was stamped: the sleep is stamped or
the stamp removed, then the bout is accounted for. -/
def stoppingCtx (ro : Rodata) (now : U64) (runnable : Bool) (c : TaskCtx) : TaskCtx :=
  reclassifyTaskCold ro (now.setWidth 32) runnable
    { c with sleepEntryTime := if runnable then 0 else now.setWidth 32 }

/-- `imperator_stopping`. The CPU leaves the set of the tier the task has before it is
reclassified. -/
def imperatorStopping (ro : Rodata) (cpu : Cpu) (now : U64) (runnable : Bool)
    (ctx : Option TaskCtx) (bss : Bss) : Option TaskCtx × Bss :=
  match ctx with
  | none => (none, bss)
  | some c =>
    if c.lastRunAt ≠ 0 then (some (stoppingCtx ro now runnable c), bss.clearTierCpu c.tier cpu)
    else (some c, bss)

/-! ### Frames -/

variable {ro : Rodata} {cpu : Cpu} {now : U64} {ctx : Option TaskCtx} {bss : Bss} {c c' : TaskCtx}
  {env : TickEnv} {runnable : Bool}

@[simp] theorem runningCtx_lastRunAt (now : U64) (c : TaskCtx) :
    (runningCtx now c).lastRunAt = now.setWidth 32 := by
  rw [runningCtx, updateJitter]
  split <;> rfl

@[simp] theorem runningCtx_avgRt (now : U64) (c : TaskCtx) :
    (runningCtx now c).avgRt = c.avgRt := by
  rw [runningCtx, updateJitter]
  split <;> rfl

/-- Starting to run changes the timestamps and the latency average. -/
theorem runningCtx_sameAccount (now : U64) (c : TaskCtx) : SameAccount c (runningCtx now c) := by
  rw [runningCtx, updateJitter]
  split <;> exact ⟨rfl, rfl, rfl, rfl, rfl, rfl⟩

theorem imperatorRunning_ctx :
    (imperatorRunning ro cpu now ctx bss).1 = ctx.map (runningCtx now) := by
  cases ctx <;> rfl

/-- **What starting to run changes of the globals**: the flags in the mailbox of the CPU, the set of
the tier, and the two counters of the latency. -/
theorem imperatorRunning_bss (ro : Rodata) (cpu : Cpu) (now : U64) (c : TaskCtx) (bss : Bss) :
    ∃ sum count, (imperatorRunning ro cpu now (some c) bss).2
      = (({ bss with
          globalStats := Function.update bss.globalStats cpu
            { bss.globalStats cpu with
              nrJitterEwmaSum := sum
              nrJitterEwmaCount := count } } : Bss).setMailbox cpu
          { bss.megaMailbox cpu with
            flags := mboxValidFlag ||| ((bss.megaMailbox cpu).flags &&& ~~~mboxTierMask) |||
              BitVec.ofNat 8 c.tier }).setTierCpu c.tier cpu := by
  have hsame := Function.update_eq_self cpu bss.globalStats
  rw [imperatorRunning]
  dsimp only
  split
  · rw [Bss.count]
    split
    · exact ⟨_, _, rfl⟩
    · refine ⟨(bss.globalStats cpu).nrJitterEwmaSum, (bss.globalStats cpu).nrJitterEwmaCount, ?_⟩
      rw [hsame]
  · refine ⟨(bss.globalStats cpu).nrJitterEwmaSum, (bss.globalStats cpu).nrJitterEwmaCount, ?_⟩
    rw [hsame]

theorem imperatorRunning_llcCpuMask :
    (imperatorRunning ro cpu now ctx bss).2.llcCpuMask = bss.llcCpuMask := by
  cases ctx with
  | none => rfl
  | some c =>
    obtain ⟨sum, count, h⟩ := imperatorRunning_bss ro cpu now c bss
    rw [h]
    rfl

theorem imperatorRunning_llcNonempty :
    (imperatorRunning ro cpu now ctx bss).2.llcNonempty = bss.llcNonempty := by
  cases ctx with
  | none => rfl
  | some c =>
    obtain ⟨sum, count, h⟩ := imperatorRunning_bss ro cpu now c bss
    rw [h]
    rfl

/-- Starting to run replaces the two bits of the tier in one mailbox, and sets the valid bit. -/
theorem imperatorRunning_megaMailbox (ro : Rodata) (cpu : Cpu) (now : U64) (c : TaskCtx)
    (bss : Bss) : (imperatorRunning ro cpu now (some c) bss).2.megaMailbox
      = Function.update bss.megaMailbox cpu { bss.megaMailbox cpu with
          flags := mboxValidFlag ||| ((bss.megaMailbox cpu).flags &&& ~~~mboxTierMask) |||
            BitVec.ofNat 8 c.tier } := by
  obtain ⟨sum, count, h⟩ := imperatorRunning_bss ro cpu now c bss
  rw [h]
  rfl

/-- The CPU enters the set of the tier the task starts with. -/
theorem imperatorRunning_getLsbD (t : Tier) (i : Cpu) :
    ((imperatorRunning ro cpu now (some c) bss).2.tierCpuMask t).getLsbD i
      = ((bss.tierCpuMask t).getLsbD i || (decide (t = c.tier) && decide (i = cpu))) := by
  obtain ⟨sum, count, h⟩ := imperatorRunning_bss ro cpu now c bss
  rw [h, Bss.setTierCpu_getLsbD]
  rfl

/-- **What the end of a tick changes of the globals**: in the mailbox of the CPU, the flags and the
hint. The hint is the code of the target, whether it was stored or found. -/
theorem mailboxDvfs_bss (cpu : Cpu) (t : Tier) (target : U32) (bss : Bss) :
    (mailboxDvfs cpu t target bss).1 = bss.setMailbox cpu
      { bss.megaMailbox cpu with flags := mboxFlags t, dsqHint := dsqHintEncode target } := by
  rw [mailboxDvfs]
  dsimp only
  split
  · rfl
  · next hfound =>
    rw [not_or, not_not] at hfound
    rw [← hfound.2]

theorem mailboxDvfs_globalStats (t : Tier) (target : U32) :
    (mailboxDvfs cpu t target bss).1.globalStats = bss.globalStats := by
  rw [mailboxDvfs_bss]
  rfl

/-- The starvation check counts lock skips in the context and nothing else. -/
theorem starvationCheck_ctx (ro : Rodata) (env : TickEnv) (c : TaskCtx) (bss : Bss) :
    ∃ skips, (starvationCheck ro env c bss).ctx = some { c with lockSkipCount := skips } := by
  rw [starvationCheck]
  dsimp only
  split
  · split
    · split <;> exact ⟨_, rfl⟩
    · exact ⟨_, rfl⟩
  · exact ⟨_, rfl⟩

/-- The globals with another mailbox of the CPU, and with other values of the two counters of a
tick. -/
def Bss.ticked (cpu : Cpu) (m : MailboxEntry) (skips : U64) (preempts : Tier → U64) (bss : Bss) :
    Bss :=
  { bss with
    megaMailbox := Function.update bss.megaMailbox cpu m
    globalStats := Function.update bss.globalStats cpu
      { bss.globalStats cpu with
        nrLockHolderSkips := skips
        nrStarvationPreemptsTier := preempts } }

theorem Bss.setMailbox_eq_ticked (cpu : Cpu) (m : MailboxEntry) (bss : Bss) :
    bss.setMailbox cpu m = bss.ticked cpu m (bss.globalStats cpu).nrLockHolderSkips
      (bss.globalStats cpu).nrStarvationPreemptsTier := by
  rw [ticked, Function.update_eq_self]
  rfl

/-- Counting in between, ... -/
theorem Bss.count_setMailbox_ticked {f : Stats → Stats} (m : MailboxEntry)
    (hf : ∀ s, ∃ skips preempts,
      f s = { s with nrLockHolderSkips := skips, nrStarvationPreemptsTier := preempts }) :
    ∃ m₀ skips preempts,
      (bss.setMailbox cpu m).count ro cpu f = bss.ticked cpu m₀ skips preempts := by
  rw [count]
  split
  · obtain ⟨skips, preempts, h⟩ := hf (bss.globalStats cpu)
    refine ⟨m, skips, preempts, ?_⟩
    rw [ticked, ← h]
    rfl
  · exact ⟨m, _, _, setMailbox_eq_ticked cpu m bss⟩

/-- ... the mailbox is stored last, with the tier in it. -/
theorem Bss.publish_ticked {bss' : Bss} {m : MailboxEntry} {t : Tier}
    (h : ∃ m₀ skips preempts, bss' = bss.ticked cpu m₀ skips preempts)
    (hm : m.flags = mboxFlags t) :
    ∃ m' skips preempts, m'.flags = mboxFlags t ∧
      bss'.setMailbox cpu m = bss.ticked cpu m' skips preempts := by
  obtain ⟨m₀, skips, preempts, rfl⟩ := h
  refine ⟨m, skips, preempts, hm, ?_⟩
  rw [setMailbox, ticked, ticked]
  dsimp only
  rw [Function.update_idem]

/-- **What the starvation check changes of the globals**: the mailbox of the CPU, which ends with
the tier published, and two counters. -/
theorem starvationCheck_bss (ro : Rodata) (env : TickEnv) (c : TaskCtx) (bss : Bss) :
    ∃ m skips preempts, m.flags = mboxFlags c.tier ∧
      (starvationCheck ro env c bss).bss = bss.ticked env.cpu m skips preempts := by
  have hcounter : ∀ m, ∃ m₀ skips preempts,
      bss.setMailbox env.cpu m = bss.ticked env.cpu m₀ skips preempts := fun m =>
    ⟨m, _, _, Bss.setMailbox_eq_ticked env.cpu m bss⟩
  rw [starvationCheck]
  dsimp only
  split
  · split
    · split
      · rw [mailboxDvfs_bss]
        exact Bss.publish_ticked (Bss.count_setMailbox_ticked _ fun _ => ⟨_, _, rfl⟩) rfl
      · exact Bss.publish_ticked (Bss.count_setMailbox_ticked _ fun _ => ⟨_, _, rfl⟩) rfl
    · rw [mailboxDvfs_bss]
      exact Bss.publish_ticked (hcounter _) rfl
  · rw [mailboxDvfs_bss]
    exact Bss.publish_ticked (hcounter _) rfl

/-- The context after a tick: stamped if it was not, and with the lock skips counted. -/
theorem imperatorTick_ctx (ro : Rodata) (env : TickEnv) (c : TaskCtx) (bss : Bss) :
    ∃ skips, (imperatorTick ro env (some c) bss).ctx = some { c with
      lastRunAt := if c.lastRunAt = 0 then env.now.setWidth 32 else c.lastRunAt
      lockSkipCount := skips } := by
  rw [imperatorTick]
  by_cases hzero : c.lastRunAt = 0
  · exact ⟨c.lockSkipCount, by rw [if_pos hzero, if_pos hzero]⟩
  · rw [if_neg hzero, if_neg hzero]
    dsimp only
    split
    · exact ⟨c.lockSkipCount, rfl⟩
    · exact starvationCheck_ctx ro env c bss

/-- **What a tick changes of the globals**: the mailbox of its CPU and two counters. -/
theorem imperatorTick_bss (ro : Rodata) (env : TickEnv) (ctx : Option TaskCtx) (bss : Bss) :
    ∃ m skips preempts, (imperatorTick ro env ctx bss).bss
      = bss.ticked env.cpu m skips preempts := by
  have hstore : ∀ m, ∃ m₀ skips preempts,
      bss.setMailbox env.cpu m = bss.ticked env.cpu m₀ skips preempts := fun m =>
    ⟨m, _, _, Bss.setMailbox_eq_ticked env.cpu m bss⟩
  have hsame := hstore (bss.megaMailbox env.cpu)
  rw [Bss.setMailbox, Function.update_eq_self] at hsame
  cases ctx with
  | none => exact hsame
  | some c =>
    rw [imperatorTick]
    dsimp only
    split
    · exact hsame
    · split
      · exact hstore _
      · obtain ⟨m, skips, preempts, -, h⟩ := starvationCheck_bss ro env c bss
        exact ⟨m, skips, preempts, h⟩

/-- A tick leaves the CPU sets alone. -/
theorem imperatorTick_masks (ro : Rodata) (env : TickEnv) (ctx : Option TaskCtx) (bss : Bss) :
    (imperatorTick ro env ctx bss).bss.tierCpuMask = bss.tierCpuMask ∧
      (imperatorTick ro env ctx bss).bss.llcCpuMask = bss.llcCpuMask := by
  obtain ⟨m, skips, preempts, h⟩ := imperatorTick_bss ro env ctx bss
  rw [h]
  exact ⟨rfl, rfl⟩

theorem imperatorTick_llcNonempty :
    (imperatorTick ro env ctx bss).bss.llcNonempty = bss.llcNonempty := by
  obtain ⟨m, skips, preempts, h⟩ := imperatorTick_bss ro env ctx bss
  rw [h]
  rfl

/-- **What stopping changes of the globals**: the sets of the tiers. -/
theorem imperatorStopping_bss (ro : Rodata) (cpu : Cpu) (now : U64) (runnable : Bool)
    (ctx : Option TaskCtx) (bss : Bss) : ∃ masks,
      (imperatorStopping ro cpu now runnable ctx bss).2 = { bss with tierCpuMask := masks } := by
  cases ctx with
  | none => exact ⟨bss.tierCpuMask, rfl⟩
  | some c =>
    rw [imperatorStopping]
    split
    · exact ⟨_, rfl⟩
    · exact ⟨bss.tierCpuMask, rfl⟩

theorem imperatorStopping_llcCpuMask :
    (imperatorStopping ro cpu now runnable ctx bss).2.llcCpuMask = bss.llcCpuMask := by
  obtain ⟨masks, h⟩ := imperatorStopping_bss ro cpu now runnable ctx bss
  rw [h]

theorem imperatorStopping_llcNonempty :
    (imperatorStopping ro cpu now runnable ctx bss).2.llcNonempty = bss.llcNonempty := by
  obtain ⟨masks, h⟩ := imperatorStopping_bss ro cpu now runnable ctx bss
  rw [h]

theorem imperatorStopping_megaMailbox :
    (imperatorStopping ro cpu now runnable ctx bss).2.megaMailbox = bss.megaMailbox := by
  obtain ⟨masks, h⟩ := imperatorStopping_bss ro cpu now runnable ctx bss
  rw [h]

theorem imperatorStopping_globalStats :
    (imperatorStopping ro cpu now runnable ctx bss).2.globalStats = bss.globalStats := by
  obtain ⟨masks, h⟩ := imperatorStopping_bss ro cpu now runnable ctx bss
  rw [h]

/-- The CPU leaves the set of the tier the task stops with, if the task was stamped. -/
theorem imperatorStopping_getLsbD (hrun : c.lastRunAt ≠ 0) (t : Tier) (i : Cpu) :
    ((imperatorStopping ro cpu now runnable (some c) bss).2.tierCpuMask t).getLsbD i
      = ((bss.tierCpuMask t).getLsbD i && !(decide (t = c.tier) && decide (i = cpu))) := by
  rw [imperatorStopping, if_pos hrun, Bss.clearTierCpu_getLsbD]

end Imperator
