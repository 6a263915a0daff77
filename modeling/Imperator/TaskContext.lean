import Imperator.Globals

/-!
# Creating and seeding a task context

A context is created by `alloc_task_ctx_cold` when a task enters the scheduler, seeded from its
nice value. `imperator_init_task` rewrites an existing context: on exec it is seeded again, on fork
the child takes the tier of the parent and half its average.

The two paths differ in what they do to the stability counter, the two top bits of the packed
word. The exec path clears it together with the tier, the fork path writes the tier alone and
keeps whatever the child had. A context fresh from the allocator has a zero counter, so the
difference only shows for a child that has already run.

## Main definitions

* `allocTaskCtxCold`, `getTaskCtx`, `imperatorEnable` — creation
* `initTaskExec`, `initTaskFork`, `imperatorInitTask` — seeding an existing context
-/

namespace Imperator

/-! ### Seeds -/

/-- The initial tier: negative nice values are critical, nice values above 10 are bulk. -/
def initTier (prio : U32) : Tier :=
  if prio < 120 then Tier.critical
  else if 130 < prio then Tier.bulk
  else Tier.interact

/-- The initial average, the middle of the range of the tier. -/
def initAvgRt (t : Tier) : U16 :=
  if t = Tier.critical then tierGateT0 / 2
  else if t = Tier.interact then (tierGateT0 + tierGateT1) / 2
  else if t = Tier.frame then (tierGateT1 + tierGateT2) / 2
  else tierGateT2 + 1

namespace TaskCtx

/-- Storing the fused deficit and average. Callers that skip the store when nothing changes do
the same thing. -/
def setDeficitAvg (c : TaskCtx) (deficit avg : U16) : TaskCtx :=
  { c with deficitAvgFused := packDeficitAvg deficit avg }

variable (c : TaskCtx) (d a : U16)

@[simp] theorem setDeficitAvg_avgRt : (c.setDeficitAvg d a).avgRt = a :=
  extractAvgRt_pack d a

end TaskCtx

/-- Two contexts with the same account: they agree on everything that is only written when a bout
is accounted for or a task is seeded, the average aside. Timestamps, telemetry, slice, credit and
the other flags are free. -/
structure SameAccount (c c' : TaskCtx) : Prop where
  tier : c'.tier = c.tier
  stable : c'.stable = c.stable
  deficit : c'.deficit = c.deficit
  isNew : hasFlag c'.packedInfo .new = hasFlag c.packedInfo .new
  overrunCount : c'.overrunCount = c.overrunCount
  burstAccUs : c'.burstAccUs = c.burstAccUs

theorem SameAccount.refl (c : TaskCtx) : SameAccount c c := ⟨rfl, rfl, rfl, rfl, rfl, rfl⟩

/-! ### Creation -/

/-- The packed word of a new context: `CAKE_FLOW_NEW` set, stability counter zero. -/
def initPacked (t : Tier) : U32 := ((tierWord t &&& 3#32) <<< 4 ||| 1#32 &&& 0xF#32) <<< 24

/-- `alloc_task_ctx_cold`, where the storage allocation succeeds. -/
def allocTaskCtxCold (ro : Rodata) (prio : U32) : TaskCtx where
  nextSlice := ro.quantumNs
  deficitAvgFused := packDeficitAvg ro.initDeficit (initAvgRt (initTier prio))
  packedInfo := initPacked (initTier prio)
  lastRunAt := 0
  reclassCounter := 0
  overrunCount := 0
  lockSkipCount := 0
  pendingFutexOp := cakeFutexOpUnset
  enqueueTime := 0
  jitterEwmaUs := 0
  burstCredit := 0
  sleepEntryTime := 0
  burstAccUs := 0

/-- `get_task_ctx`. `alloc` says whether the storage allocation would succeed. -/
def getTaskCtx (ro : Rodata) (prio : U32) (create alloc : Bool) (ctx : Option TaskCtx) :
    Option TaskCtx :=
  match ctx with
  | some c => some c
  | none => if create && alloc then some (allocTaskCtxCold ro prio) else none

/-- `imperator_enable` -/
def imperatorEnable (ro : Rodata) (prio : U32) (alloc : Bool) (ctx : Option TaskCtx) :
    Option TaskCtx :=
  getTaskCtx ro prio true alloc ctx

/-! ### Seeding an existing context -/

/-- The exec path of `imperator_init_task`. -/
def initTaskExec (ro : Rodata) (prio : U32) (c : TaskCtx) : TaskCtx :=
  let t := initTier prio
  { c.setDeficitAvg c.deficit (initAvgRt t) with
    packedInfo := c.packedInfo &&& ~~~(0xF#32 <<< 28) ||| tierWord t <<< 28
    overrunCount := 0
    reclassCounter := 0
    lockSkipCount := 0
    enqueueTime := 0
    jitterEwmaUs := 0
    burstCredit := 0
    sleepEntryTime := 0
    nextSlice := ro.tierSlice t }

/-- The fork path of `imperator_init_task`, where parent and child both have a context. The
stability counter, the overrun history and the backoff counter of the child are kept. -/
def initTaskFork (ro : Rodata) (parent c : TaskCtx) : TaskCtx :=
  { c.setDeficitAvg ro.initDeficit (parent.avgRt >>> 1) with
    packedInfo := setTier c.packedInfo parent.tier
    nextSlice := ro.tierSlice parent.tier
    enqueueTime := 0
    jitterEwmaUs := 0
    burstCredit := 0
    sleepEntryTime := 0 }

/-- `imperator_init_task`; its value is always 0. `parent` is the context of `real_parent`. -/
def imperatorInitTask (ro : Rodata) (fork : Bool) (prio : U32) (parent ctx : Option TaskCtx) :
    Option TaskCtx :=
  if fork then
    match parent, ctx with
    | some p, some c => some (initTaskFork ro p c)
    | _, _ => ctx
  else ctx.map (initTaskExec ro prio)

section Fields

variable (ro : Rodata) (prio : U32) (parent c : TaskCtx)

@[simp] theorem allocTaskCtxCold_tier : (allocTaskCtxCold ro prio).tier = initTier prio := by
  show getTier (initPacked (initTier prio)) = initTier prio
  generalize initTier prio = t
  revert t
  decide

@[simp] theorem allocTaskCtxCold_stable : (allocTaskCtxCold ro prio).stable = 0 := by
  show getStable (initPacked (initTier prio)) = 0
  generalize initTier prio = t
  revert t
  decide

@[simp] theorem allocTaskCtxCold_avgRt :
    (allocTaskCtxCold ro prio).avgRt = initAvgRt (initTier prio) :=
  extractAvgRt_pack _ _

/-- Clearing bits 31–28 and or-ing a tier in writes a zero stability counter along with it. -/
theorem initTaskExec_packedInfo :
    (initTaskExec ro prio c).packedInfo = setTierStable c.packedInfo 0 (initTier prio) := by
  show _ ||| _ = _
  rw [setTierStable, show BitVec.ofNat 32 (0 : Fin 4) <<< 2 ||| tierWord (initTier prio)
    = tierWord (initTier prio) by simp]

@[simp] theorem initTaskExec_tier : (initTaskExec ro prio c).tier = initTier prio := by
  rw [TaskCtx.tier, initTaskExec_packedInfo, getTier_setTierStable]

@[simp] theorem initTaskExec_stable : (initTaskExec ro prio c).stable = 0 := by
  rw [TaskCtx.stable, initTaskExec_packedInfo, getStable_setTierStable]

@[simp] theorem initTaskExec_avgRt : (initTaskExec ro prio c).avgRt = initAvgRt (initTier prio) :=
  extractAvgRt_pack _ _

@[simp] theorem initTaskFork_tier : (initTaskFork ro parent c).tier = parent.tier :=
  getTier_setTier _ _

@[simp] theorem initTaskFork_stable : (initTaskFork ro parent c).stable = c.stable :=
  getStable_setTier _ _

@[simp] theorem initTaskFork_avgRt : (initTaskFork ro parent c).avgRt = parent.avgRt >>> 1 :=
  extractAvgRt_pack _ _

end Fields

end Imperator
