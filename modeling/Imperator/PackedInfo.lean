import Imperator.Classification

/-!
# Who writes which bits of the packed word

Nine places in two files write the packed word, some with an atomic operation on one flag, some by
storing a word they have put together from the one they read. `PackedWrite` lists what an event can
do to the word. That the word is kept in order, every field written only by the events it belongs
to and the reserved bits by none, is read off that list.

```
31-30 stability   the full path, the spot check, exec
29-28 tier        the full path, exec, fork
27    reserved    nobody
26    irqWake     set by select_cpu; cleared by a direct dispatch, or an enqueue that looks
25    lockHolder  the lock probes
24    new         set by the allocation; cleared by the full path
23-0  reserved    nobody
```

## Main definitions

* `PackedWrite` — what an event does to the word
* `FieldDiscipline` — which fields may differ after an event

## Main results

* `packedWrite_of_apply` — every event writes one of these
* `packed_discipline` — every event of every run
-/

namespace Imperator

open Transition

variable {ro : Rodata} {ctx : Option TaskCtx} {c c' : TaskCtx} {op : TaskOp}
  {ops : List TaskOp} {p q : U32} {i : ℕ}

/-! ### What an event writes -/

/-- The enqueues that take the standard path. -/
def EnqueueEnv.isStandard (env : EnqueueEnv) : Prop := env.flags.wakeup ∨ env.flags.preempt

/-- The events that may leave the word as it is. -/
def TaskOp.MayKeepPacked : TaskOp → Prop
  | .selectCpu .. => False
  | .lockHolder .. => False
  | _ => True

/-- What an event may do to the packed word of a context. -/
inductive PackedWrite (p : U32) : TaskOp → U32 → Prop
  | kept {op : TaskOp} : op.MayKeepPacked → PackedWrite p op p
  /-- the stamp of `select_cpu` -/
  | notDirect {irq : Bool} :
      PackedWrite p (.selectCpu irq false) (if irq then setFlag p .irqWake else p)
  /-- stamped or not, a direct dispatch leaves the flag clear -/
  | direct {irq : Bool} : PackedWrite p (.selectCpu irq true) (clearFlag p .irqWake)
  | consumed {env : EnqueueEnv} {bss : Bss} : env.isStandard →
      PackedWrite p (.enqueue env bss) (clearFlag p .irqWake)
  | lockHolder {held : Bool} : PackedWrite p (.lockHolder held)
      (if held then setFlag p .lockHolder else clearFlag p .lockHolder)
  /-- the reset of the spot check -/
  | spotCheck {cpu : Cpu} {now : U64} {runnable : Bool} {bss : Bss} :
      PackedWrite p (.stopping cpu now runnable bss) (clearStable p)
  /-- the store of the full path, with `CAKE_FLOW_NEW` cleared or not -/
  | fullPass {cpu : Cpu} {now : U64} {runnable : Bool} {bss : Bss} (stable : Fin 4) (t : Tier)
      (paid : Bool) : PackedWrite p (.stopping cpu now runnable bss)
      (if paid then clearFlag (setTierStable p stable t) .new else setTierStable p stable t)
  | execed {prio : U32} {parent : Option TaskCtx} (t : Tier) :
      PackedWrite p (.initTask false prio parent) (setTierStable p 0 t)
  | forked {prio : U32} {parent : Option TaskCtx} (t : Tier) :
      PackedWrite p (.initTask true prio parent) (setTier p t)

theorem clearFlag_of_not_hasFlag {f : FlowFlag} (h : hasFlag p f = false) : clearFlag p f = p := by
  rw [hasFlag_eq] at h
  refine BitVec.eq_of_getLsbD_eq fun i hi => ?_
  rw [clearFlag, BitVec.getLsbD_and_not_one_shiftLeft p f.shift_lt]
  by_cases heq : i = f.shift
  · rw [heq, h, Bool.false_and]
  · simp [heq]

theorem clearFlag_setFlag (p : U32) (f : FlowFlag) : clearFlag (setFlag p f) f = clearFlag p f := by
  refine BitVec.eq_of_getLsbD_eq fun i hi => ?_
  rw [clearFlag, clearFlag, setFlag, BitVec.getLsbD_and_not_one_shiftLeft _ f.shift_lt,
    BitVec.getLsbD_and_not_one_shiftLeft _ f.shift_lt, BitVec.getLsbD_or_one_shiftLeft _ f.shift_lt]
  by_cases heq : i = f.shift <;> simp [heq]

/-- Consuming the interrupt flag clears it, whether it was set or not. -/
theorem consumeIrqWake_packedInfo (c : TaskCtx) :
    (consumeIrqWake c).packedInfo = clearFlag c.packedInfo .irqWake := by
  rw [consumeIrqWake]
  split
  · rfl
  · next h => exact (clearFlag_of_not_hasFlag (Bool.eq_false_iff.mpr h)).symm

theorem selectCpuCtx_packedInfo (irq direct : Bool) (c : TaskCtx) :
    (selectCpuCtx irq direct c).packedInfo = if direct then clearFlag c.packedInfo .irqWake
      else if irq then setFlag c.packedInfo .irqWake else c.packedInfo := by
  rw [selectCpuCtx]
  cases direct
  · cases irq <;> rfl
  · rw [if_pos rfl, if_pos rfl, consumeIrqWake_packedInfo]
    cases irq
    · rfl
    · exact clearFlag_setFlag _ _

theorem standardCtx_packedInfo (ro : Rodata) (env : EnqueueEnv) (c : TaskCtx) :
    (standardCtx ro env c).packedInfo = clearFlag c.packedInfo .irqWake := by
  rw [standardCtx, consumeIrqWake_packedInfo, stampedCtx_packedInfo]

@[simp] theorem runningCtx_packedInfo (now : U64) (c : TaskCtx) :
    (runningCtx now c).packedInfo = c.packedInfo := by
  rw [runningCtx, updateJitter]
  split <;> rfl

/-- What a stop that accounts for a bout stores. -/
theorem accountBout_packedInfo (ro : Rodata) (runnable : Bool) (bout : U16) (c : TaskCtx) :
    (accountBout ro runnable bout c).packedInfo = c.packedInfo ∨
      (accountBout ro runnable bout c).packedInfo = clearStable c.packedInfo ∨
      ∃ (stable : Fin 4) (t : Tier) (paid : Bool), (accountBout ro runnable bout c).packedInfo
        = if paid then clearFlag (setTierStable c.packedInfo stable t) .new
          else setTierStable c.packedInfo stable t := by
  by_cases hback : TakesBackoff c
  · rw [accountBout_of_backoff ro runnable bout hback, quickPass]
    split
    · exact Or.inr (Or.inl rfl)
    · exact Or.inl rfl
  · rw [accountBout_of_full ro runnable bout hback, fullPass]
    dsimp only
    split
    · split
      · exact Or.inr (Or.inr ⟨_, _, true, rfl⟩)
      · exact Or.inr (Or.inr ⟨_, _, false, rfl⟩)
    · exact Or.inl rfl

/-- **What an event does to the packed word.** -/
theorem packedWrite_of_apply (h : op.apply ro (some c) = some c') :
    PackedWrite c.packedInfo op c'.packedInfo := by
  cases leaves_of_apply h with
  | enabled | orphaned | requeued | ticked | uncharged => exact .kept trivial
  | execed =>
    rw [initTaskExec_packedInfo]
    exact .execed _
  | forked => exact .forked _
  | @selected irq direct =>
    rw [selectCpuCtx_packedInfo]
    cases direct
    · exact .notDirect
    · exact .direct
  | enqueued hstandard =>
    rw [standardCtx_packedInfo]
    exact .consumed hstandard
  | ran =>
    rw [runningCtx_packedInfo]
    exact .kept trivial
  | @accounted cpu now runnable bss bout _ =>
    rcases accountBout_packedInfo ro runnable bout { c with sleepEntryTime := _ }
      with heq | heq | ⟨stable, t, paid, heq⟩
    · rw [heq]
      exact .kept trivial
    · rw [heq]
      exact .spotCheck
    · rw [heq]
      exact .fullPass stable t paid
  | @marked held =>
    have hword : (lockHolderCtx held c).packedInfo
        = if held then setFlag c.packedInfo .lockHolder
          else clearFlag c.packedInfo .lockHolder := by
      cases held <;> rfl
    rw [hword]
    exact .lockHolder

/-! ### Fields -/

/-- Bits 23–0 and bit 27. -/
def IsReserved (i : ℕ) : Prop := i < 24 ∨ i = 27

theorem getLsbD_setFlag_of_ne {f : FlowFlag} (h : i ≠ f.shift) :
    (setFlag p f).getLsbD i = p.getLsbD i := by
  rw [setFlag, BitVec.getLsbD_or_one_shiftLeft p f.shift_lt]
  simp [h]

theorem getLsbD_clearFlag_of_ne {f : FlowFlag} (h : i ≠ f.shift) :
    (clearFlag p f).getLsbD i = p.getLsbD i := by
  rw [clearFlag, BitVec.getLsbD_and_not_one_shiftLeft p f.shift_lt]
  simp [h]

/-- The stores of tier and counter are confined to the four top bits. -/
theorem getLsbD_setTierStable_of_lt (stable : Fin 4) (t : Tier) (h : i < 28) :
    (setTierStable p stable t).getLsbD i = p.getLsbD i := by
  rw [setTierStable, BitVec.getLsbD_or, BitVec.getLsbD_and, BitVec.getLsbD_not,
    BitVec.getLsbD_shiftLeft, BitVec.getLsbD_shiftLeft]
  simp [h, show i < 32 by omega]

theorem getLsbD_setTier_of_lt (t : Tier) (h : i < 28) :
    (setTier p t).getLsbD i = p.getLsbD i := by
  rw [setTier, BitVec.getLsbD_or, BitVec.getLsbD_and, BitVec.getLsbD_not,
    BitVec.getLsbD_shiftLeft, BitVec.getLsbD_shiftLeft]
  simp [h, show i < 32 by omega]

theorem getLsbD_clearStable_of_lt (h : i < 30) : (clearStable p).getLsbD i = p.getLsbD i := by
  rw [clearStable, BitVec.getLsbD_and, BitVec.getLsbD_not, BitVec.getLsbD_shiftLeft]
  simp [h, show i < 32 by omega]

theorem IsReserved.lt (h : IsReserved i) : i < 28 := by
  rcases h with h | h <;> omega

theorem IsReserved.ne_shift (h : IsReserved i) (f : FlowFlag) : i ≠ f.shift := by
  rcases h with h | h <;> cases f <;> simp only [FlowFlag.shift] <;> omega

/-- **Nobody writes the reserved bits.** -/
theorem PackedWrite.reserved (h : PackedWrite p op q) (hi : IsReserved i) :
    q.getLsbD i = p.getLsbD i := by
  cases h with
  | kept => rfl
  | notDirect =>
    split
    · exact getLsbD_setFlag_of_ne (hi.ne_shift _)
    · rfl
  | direct | consumed => exact getLsbD_clearFlag_of_ne (hi.ne_shift _)
  | lockHolder =>
    split
    · exact getLsbD_setFlag_of_ne (hi.ne_shift _)
    · exact getLsbD_clearFlag_of_ne (hi.ne_shift _)
  | spotCheck => exact getLsbD_clearStable_of_lt (hi.lt.trans (by decide))
  | fullPass stable t paid =>
    split
    · rw [getLsbD_clearFlag_of_ne (hi.ne_shift _), getLsbD_setTierStable_of_lt stable t hi.lt]
    · exact getLsbD_setTierStable_of_lt stable t hi.lt
  | execed t => exact getLsbD_setTierStable_of_lt 0 t hi.lt
  | forked t => exact getLsbD_setTier_of_lt t hi.lt

/-- The events that may change the stored tier. -/
def TaskOp.WritesTier : TaskOp → Prop
  | .stopping .. => True
  | .initTask .. => True
  | _ => False

/-- The events that may change the stability counter. -/
def TaskOp.WritesStable : TaskOp → Prop
  | .stopping .. => True
  | .initTask fork _ _ => fork = false
  | _ => False

/-- The two consumers of the interrupt flag. -/
def TaskOp.ConsumesIrqWake : TaskOp → Prop
  | .selectCpu _ direct => direct = true
  | .enqueue env _ => env.isStandard
  | _ => False

/-- Which fields of the packed word may differ after an event. -/
structure FieldDiscipline (op : TaskOp) (p q : U32) : Prop where
  /-- nobody writes the reserved bits -/
  reserved : ∀ i, IsReserved i → q.getLsbD i = p.getLsbD i
  /-- `CAKE_FLOW_NEW` never returns -/
  new : hasFlag q .new = true → hasFlag p .new = true
  /-- only the lock probes write `CAKE_FLAG_LOCK_HOLDER` -/
  lockHolder : hasFlag q .lockHolder ≠ hasFlag p .lockHolder →
    op = .lockHolder (hasFlag q .lockHolder)
  /-- `CAKE_FLOW_IRQ_WAKE` is set by `select_cpu`, from an interrupt, ... -/
  irqSet : hasFlag p .irqWake = false → hasFlag q .irqWake = true →
    ∃ direct, op = .selectCpu true direct
  /-- ... and cleared by its consumers -/
  irqCleared : hasFlag p .irqWake = true → hasFlag q .irqWake = false → op.ConsumesIrqWake
  tier : getTier q ≠ getTier p → op.WritesTier
  stable : getStable q ≠ getStable p → op.WritesStable

theorem FieldDiscipline.refl (op : TaskOp) (p : U32) : FieldDiscipline op p p where
  reserved _ _ := rfl
  new h := h
  lockHolder h := absurd rfl h
  irqSet h h' := by rw [h] at h'; cases h'
  irqCleared h h' := by rw [h] at h'; cases h'
  tier h := absurd rfl h
  stable h := absurd rfl h

/-- **One write.** Each of them keeps to its fields. -/
theorem PackedWrite.discipline (h : PackedWrite p op q) : FieldDiscipline op p q := by
  have hreserved : ∀ i, IsReserved i → q.getLsbD i = p.getLsbD i := fun _ hi => h.reserved hi
  cases h with
  | kept => exact .refl op p
  | @notDirect irq =>
    cases irq
    · exact .refl _ p
    · refine ⟨hreserved, ?_, ?_, fun _ _ => ⟨false, rfl⟩, ?_, ?_, ?_⟩ <;> simp
  | @direct irq =>
    refine ⟨hreserved, ?_, ?_, ?_, fun _ _ => rfl, ?_, ?_⟩ <;> simp
  | consumed hstandard =>
    refine ⟨hreserved, ?_, ?_, ?_, fun _ _ => hstandard, ?_, ?_⟩ <;> simp
  | @lockHolder held =>
    cases held <;> refine ⟨hreserved, ?_, ?_, ?_, ?_, ?_, ?_⟩ <;> simp +contextual
  | spotCheck =>
    refine ⟨hreserved, ?_, ?_, ?_, ?_, ?_, fun _ => trivial⟩ <;> simp +contextual
  | fullPass stable t paid =>
    cases paid <;> refine ⟨hreserved, ?_, ?_, ?_, ?_, fun _ => trivial, fun _ => trivial⟩ <;>
      simp +contextual
  | execed t =>
    refine ⟨hreserved, ?_, ?_, ?_, ?_, fun _ => trivial, fun _ => rfl⟩ <;> simp +contextual
  | forked t =>
    refine ⟨hreserved, ?_, ?_, ?_, ?_, fun _ => trivial, ?_⟩ <;> simp +contextual

/-! ### Runs -/

/-- What holds of the packed word in a state of a task, and of whatever event comes next. -/
structure Disciplined (ro : Rodata) (ctx : Option TaskCtx) : Prop where
  reserved : ∀ c, ctx = some c → ∀ i, IsReserved i → c.packedInfo.getLsbD i = false
  /-- only the allocation creates a context, and it sets `CAKE_FLOW_NEW` and no other flag -/
  created : ctx = none → ∀ (op : TaskOp) (c : TaskCtx), op.apply ro none = some c →
    (∃ prio, op = .enable prio true) ∧ ∀ f, hasFlag c.packedInfo f = decide (f = .new)
  fields : ∀ c, ctx = some c → ∀ (op : TaskOp) (c' : TaskCtx), op.apply ro (some c) = some c' →
    FieldDiscipline op c.packedInfo c'.packedInfo
  /-- once cleared, `CAKE_FLOW_NEW` stays clear, whatever happens -/
  newGone : ∀ c, ctx = some c → hasFlag c.packedInfo .new = false →
    ∀ ops c', Run (ofNext (TaskOp.apply ro)) (some c) ops (some c') →
      hasFlag c'.packedInfo .new = false

theorem allocTaskCtxCold_reserved (ro : Rodata) (prio : U32) (hi : IsReserved i) :
    (allocTaskCtxCold ro prio).packedInfo.getLsbD i = false := by
  have hbits : ∀ (t : Tier) (i : Fin 28), i.val < 24 ∨ i.val = 27 →
      (initPacked t).getLsbD i.val = false := by decide
  exact hbits (initTier prio) ⟨i, hi.lt⟩ hi

theorem allocTaskCtxCold_hasFlag (ro : Rodata) (prio : U32) (f : FlowFlag) :
    hasFlag (allocTaskCtxCold ro prio).packedInfo f = decide (f = .new) := by
  show hasFlag (initPacked (initTier prio)) f = decide (f = .new)
  generalize initTier prio = t
  cases f <;> revert t <;> decide

theorem discipline_of_apply (h : op.apply ro (some c) = some c') :
    FieldDiscipline op c.packedInfo c'.packedInfo :=
  (packedWrite_of_apply h).discipline

theorem hasFlag_new_of_run (hc : hasFlag c.packedInfo .new = false)
    (h : Run (ofNext (TaskOp.apply ro)) (some c) ops ctx) :
    ∀ c', ctx = some c' → hasFlag c'.packedInfo .new = false := by
  have hall : ∃ d, ctx = some d ∧ hasFlag d.packedInfo .new = false := by
    refine Run.invariant (I := fun ctx => ∃ d, ctx = some d ∧ hasFlag d.packedInfo .new = false)
      ?_ h ⟨c, rfl, hc⟩
    rintro _ op _ ⟨d, rfl, hd⟩ rfl
    obtain ⟨d', hd'⟩ := apply_isSome ro d op
    refine ⟨d', hd', Bool.eq_false_iff.mpr fun hset => ?_⟩
    rw [(discipline_of_apply hd').new hset] at hd
    cases hd
  obtain ⟨d, rfl, hd⟩ := hall
  intro c' hc'
  obtain rfl := Option.some.inj hc'
  exact hd

/-- **The packed word is kept in order.** In every state of every run the reserved bits are clear,
and every event writes the fields that belong to it and no other. -/
theorem packed_discipline (h : TaskRun ro anyOp ops ctx) : Disciplined ro ctx where
  reserved := by
    rintro c rfl
    exact h.invariant_of_apply (I := fun c => ∀ i, IsReserved i → c.packedInfo.getLsbD i = false)
      (fun prio _ hi => allocTaskCtxCold_reserved ro prio hi)
      fun c op c' hc _ happly i hi => ((discipline_of_apply happly).reserved i hi).trans (hc i hi)
  created := by
    rintro rfl op c happly
    cases effect_of_apply happly with
    | created => exact ⟨⟨_, rfl⟩, allocTaskCtxCold_hasFlag ro _⟩
  fields := fun _ _ _ _ happly => discipline_of_apply happly
  newGone := fun _ _ hc _ _ hrun => hasFlag_new_of_run hc hrun _ rfl

/-- After its first bout the word of a task of nice value 0 is in order. -/
theorem settlingRun_disciplined : ∃ c, TaskRun defaultRodata anyOp settlingRun (some c) ∧
    ∀ i, IsReserved i → c.packedInfo.getLsbD i = false := by
  obtain ⟨c, hc, -⟩ := settlingRun_ends
  have hrun := taskRun_anyOp defaultRodata settlingRun
  rw [hc] at hrun
  exact ⟨c, hrun, (packed_discipline hrun).reserved c rfl⟩

end Imperator
