import Imperator.PackedInfo
import Imperator.SelectCpu

/-!
# The interrupt boost is for one dispatch

A wakeup out of an interrupt is noted in one callback and spent in another. `imperator_select_cpu`
sets the flag; if it finds an idle CPU it spends it at once, and if not, `imperator_enqueue` does,
which has three exits that come before the flag is looked at. In between, before and after, other
callbacks store the word the flag is in.

What keeps it to one dispatch is that no exit is taken by the enqueue of a wakeup if the task has a
context, and that the other callbacks leave the flag alone. So it is clear whenever no wakeup is
under way, and while one is, it tells where that wakeup came from. Only a preempting enqueue that
comes before the one of the wakeup can spend it first.

## Main definitions

* `WakeState`, `WakeState.next`, `wakeOrder` — a task and its wakeups
* `SelectEnv.Boosts`, `EnqueueEnv.Boosts` — dispatches that take the interrupt path
* `OneShot` — who gets the boost

## Main results

* `pending_apply` — what the other callbacks do to the flag
* `pending_of_wakeup` — what the flag says while a wakeup is under way
* `irq_boost_one_shot` — every wakeup of every run
-/

namespace Imperator

open Transition

variable {ro : Rodata} {hy : HybridRodata} {ctx : Option TaskCtx} {c : TaskCtx} {op : TaskOp}
  {env : EnqueueEnv} {sel : SelectEnv} {bss : Bss} {s s' : WakeState} {evs : List WakeEvent}

/-! ### The dispatches -/

/-- A direct dispatch takes the branch of `consume_irq_wake_get_tier_slice` that spends the flag. -/
def SelectEnv.Boosts (sel : SelectEnv) (ctx : Option TaskCtx) : Prop :=
  sel.search.2 = true ∧
    ∃ c, ctx = some c ∧ hasFlag (selectCpuCtx sel.irqContext false c).packedInfo .irqWake = true

/-- An enqueue takes the branch that spends the flag. -/
def EnqueueEnv.Boosts (ro : Rodata) (env : EnqueueEnv) (ctx : Option TaskCtx) : Prop :=
  env.isStandard ∧ ∃ c, ctx = some c ∧ hasFlag (stampedCtx ro env c).packedInfo .irqWake = true

/-- `CAKE_FLOW_IRQ_WAKE` is set. -/
def pending (ctx : Option TaskCtx) : Bool := ctx.any fun c => hasFlag c.packedInfo .irqWake

@[simp] theorem pending_none : pending none = false := rfl

@[simp] theorem pending_some : pending (some c) = hasFlag c.packedInfo .irqWake := rfl

theorem hasFlag_stamped (irq : Bool) (c : TaskCtx) :
    hasFlag (selectCpuCtx irq false c).packedInfo .irqWake
      = (irq || hasFlag c.packedInfo .irqWake) := by
  rw [selectCpuCtx_packedInfo]
  cases irq <;> simp

theorem selectEnv_boosts_iff :
    sel.Boosts ctx ↔ sel.search.2 = true ∧ ctx.isSome = true ∧
      (sel.irqContext = true ∨ pending ctx = true) := by
  cases ctx with
  | none => simp [SelectEnv.Boosts]
  | some c => simp [SelectEnv.Boosts, hasFlag_stamped]

theorem enqueueEnv_boosts_iff : env.Boosts ro ctx ↔ env.isStandard ∧ pending ctx = true := by
  cases ctx with
  | none => simp [EnqueueEnv.Boosts]
  | some c => simp [EnqueueEnv.Boosts]

/-- **A direct dispatch with the boost** has the tier and the slice of T0, any other one those of
the task. -/
theorem imperatorSelectCpu_insert (hidle : sel.search.2 = true) :
    (sel.Boosts (some c) → (imperatorSelectCpu ro hy sel (some c) bss).insert
        = some ⟨hybridCpu ro hy sel sel.search.1, ro.tierSlice Tier.critical, Tier.critical⟩) ∧
      (¬ sel.Boosts (some c) → (imperatorSelectCpu ro hy sel (some c) bss).insert
        = some ⟨hybridCpu ro hy sel sel.search.1, c.nextSlice, c.tier⟩) := by
  have hstamp : (if sel.irqContext then
        (some c).map fun c => { c with packedInfo := setFlag c.packedInfo .irqWake }
      else some c) = some (selectCpuCtx sel.irqContext false c) := by
    cases sel.irqContext <;> rfl
  have hkept := (selectCpuCtx_sameAccount sel.irqContext false c).1.tier
  have hslice : (selectCpuCtx sel.irqContext false c).nextSlice = c.nextSlice := by
    cases sel.irqContext <;> rfl
  have hboosts : sel.Boosts (some c) ↔
      hasFlag (selectCpuCtx sel.irqContext false c).packedInfo .irqWake = true := by
    simp [SelectEnv.Boosts, hidle]
  rw [imperatorSelectCpu, hstamp, hboosts]
  dsimp only
  rw [if_pos hidle, consumeIrqWakeGetTierSlice]
  constructor
  · intro h
    rw [if_pos h]
  · intro h
    rw [if_neg h, hkept, hslice]

/-- **An enqueue with the boost** is one of T0, any other one with a context has the tier of the
task or, on a wakeup, one that is inherited. -/
theorem imperatorEnqueue_tier (hstandard : env.isStandard) :
    (env.Boosts ro (some c) →
        (imperatorEnqueue ro env (some c) bss).tier = Tier.critical) ∧
      (¬ env.Boosts ro (some c) → (imperatorEnqueue ro env (some c) bss).tier
        = if env.flags.wakeup ∧ Tier.critical < c.tier then inheritWakerTier bss env.cpu c.tier
          else c.tier) := by
  have hflags : env.flags.wakeup ∨ env.flags.preempt := hstandard
  have htier : (imperatorEnqueue ro env (some c) bss).tier
      = dispatchTier env bss c.packedInfo := by
    rw [imperatorEnqueue, if_neg fun h => Option.some_ne_none c h.2,
      if_neg (not_not.mpr hflags), queueStandard, stampedCtx_packedInfo]
  rw [htier, enqueueEnv_boosts_iff, and_iff_right hstandard, pending_some, dispatchTier, irqTier]
  constructor
  · intro h
    rw [if_pos h]
    exact if_neg fun h' => lt_irrefl _ h'.2
  · intro h
    rw [if_neg h]
    rfl

/-! ### The flag -/

/-- The enqueue of a wakeup. -/
def TaskOp.wakes : TaskOp → Bool
  | .enqueue env _ => env.flags.wakeup
  | _ => false

/-- The enqueue after a preemption. -/
def TaskOp.preempts : TaskOp → Bool
  | .enqueue env _ => env.flags.preempt
  | _ => false

/-- Not the choice of a CPU. -/
def TaskOp.SelectsNoCpu : TaskOp → Prop
  | .selectCpu .. => False
  | _ => True

/-- An enqueue that wakes or preempts clears the flag. -/
theorem pending_enqueue (ro : Rodata) (env : EnqueueEnv) (ctx : Option TaskCtx) (bss : Bss) :
    pending (imperatorEnqueue ro env ctx bss).ctx
      = (pending ctx && !(env.flags.wakeup || env.flags.preempt)) := by
  cases ctx with
  | none =>
    rcases imperatorEnqueue_ctx ro env none bss with h | ⟨c, hc, -⟩
    · rw [h]
      rfl
    · cases hc
  | some c =>
    rw [imperatorEnqueue_ctx_some]
    split
    · next hflags =>
      have hspent : (env.flags.wakeup || env.flags.preempt) = true := by simpa using hflags
      rw [pending_some, standardCtx_packedInfo, hspent]
      simp
    · next hflags =>
      have hkept : (env.flags.wakeup || env.flags.preempt) = false := by simpa using hflags
      rw [hkept]
      simp

/-- What does not consume the flag does not touch it. -/
theorem pending_of_not_consumes (h : op.SelectsNoCpu) (hop : ¬ op.ConsumesIrqWake) :
    pending (op.apply ro ctx) = pending ctx := by
  cases ctx with
  | none =>
    cases hctx : op.apply ro none with
    | none => rfl
    | some c =>
      cases effect_of_apply hctx with
      | created => exact allocTaskCtxCold_hasFlag ro _ .irqWake
  | some c =>
    obtain ⟨c', hc'⟩ := apply_isSome ro c op
    have hfields := discipline_of_apply hc'
    rw [hc', pending_some, pending_some, Bool.eq_iff_iff]
    constructor
    · intro hset
      by_contra hclear
      obtain ⟨direct, rfl⟩ := hfields.irqSet (Bool.eq_false_iff.mpr hclear) hset
      exact h
    · intro hset
      by_contra hclear
      exact hop (hfields.irqCleared hset (Bool.eq_false_iff.mpr hclear))

/-- **The other callbacks.** An enqueue that wakes or preempts clears the flag; nothing else touches
it. -/
theorem pending_apply (h : op.SelectsNoCpu) :
    pending (op.apply ro ctx) = (pending ctx && !(op.wakes || op.preempts)) := by
  cases op with
  | enqueue env bss => exact pending_enqueue ro env ctx bss
  | selectCpu => exact h.elim
  | enable | initTask | running | tick | stopping | lockHolder =>
    rw [pending_of_not_consumes h id]
    simp [TaskOp.wakes, TaskOp.preempts]

theorem pending_select (irq direct : Bool) (ctx : Option TaskCtx) :
    pending (ctx.map (selectCpuCtx irq direct))
      = (!direct && ctx.isSome && (irq || pending ctx)) := by
  cases ctx with
  | none => simp
  | some c =>
    rw [Option.map_some, pending_some, selectCpuCtx_packedInfo]
    cases direct <;> cases irq <;> simp

/-! ### Wakeups -/

/-- A task, and whether a wakeup of it is under way: the CPU was chosen, none was idle, and the
enqueue is still to come. -/
structure WakeState where
  ctx : Option TaskCtx
  waking : Bool

/-- `imperator_select_cpu`, or one of the other callbacks. -/
inductive WakeEvent
  | selectCpu (sel : SelectEnv) (bss : Bss)
  | callback (op : TaskOp)

/-- The state after an event. A wakeup that finds an idle CPU ends at once. -/
def WakeState.next (ro : Rodata) (hy : HybridRodata) (s : WakeState) : WakeEvent → WakeState
  | .selectCpu sel bss => ⟨(imperatorSelectCpu ro hy sel s.ctx bss).ctx, !sel.search.2⟩
  | .callback op => ⟨op.apply ro s.ctx, s.waking && !op.wakes⟩

/-- One wakeup after the other. Nothing is asked of the other callbacks; a wakeup that starts with
the enqueue is that of a task bound to one CPU. -/
def wakeOrder (s : WakeState) : WakeEvent → Prop
  | .selectCpu .. => s.waking = false
  | .callback op => op.SelectsNoCpu

/-- The runs of a task from `s`. -/
def WakeRun (ro : Rodata) (hy : HybridRodata) (s : WakeState) (evs : List WakeEvent)
    (s' : WakeState) : Prop :=
  Run (Guarded (ofNext (WakeState.next ro hy)) wakeOrder) s evs s'

/-- The events that come while a wakeup is under way. -/
def WakeEvent.DuringWakeup : WakeEvent → Prop
  | .selectCpu .. => False
  | .callback op => op.wakes = false

/-- An enqueue after a preemption. -/
def WakeEvent.Preempts : WakeEvent → Prop
  | .selectCpu .. => False
  | .callback op => op.preempts = true

/-- **No wakeup, no flag.** -/
theorem pending_of_idle (h : WakeRun ro hy ⟨none, false⟩ evs s) :
    s.waking = false → pending s.ctx = false := by
  refine Run.invariant (I := fun s => s.waking = false → pending s.ctx = false) ?_ h fun _ => rfl
  rintro s ev _ hidle ⟨hadm, rfl⟩ hend
  cases ev with
  | selectCpu sel bss =>
    have hdirect : sel.search.2 = true := by simpa [WakeState.next] using hend
    show pending (imperatorSelectCpu ro hy sel s.ctx bss).ctx = false
    rw [imperatorSelectCpu_ctx, pending_select, hdirect]
    rfl
  | callback op =>
    show pending (op.apply ro s.ctx) = false
    rw [pending_apply hadm]
    have hend' : (s.waking && !op.wakes) = false := hend
    cases hwakes : op.wakes with
    | true => simp
    | false =>
      rw [hwakes, Bool.not_false, Bool.and_true] at hend'
      rw [hidle hend', Bool.false_and]

/-- **While a wakeup is under way** the flag says where it came from, until a preempting enqueue
spends it. -/
theorem pending_of_wakeup (hclear : pending s.ctx = false) (hbusy : sel.search.2 = false)
    (h : WakeRun ro hy (s.next ro hy (.selectCpu sel bss)) evs s')
    (hduring : ∀ ev ∈ evs, ev.DuringWakeup) :
    pending s'.ctx = true ↔
      sel.irqContext = true ∧ s.ctx.isSome = true ∧ ∀ ev ∈ evs, ¬ ev.Preempts := by
  induction h with
  | nil =>
    show pending (imperatorSelectCpu ro hy sel s.ctx bss).ctx = true ↔ _
    rw [imperatorSelectCpu_ctx, pending_select, hbusy, hclear]
    simp [and_comm]
  | @snoc evs t u ev hrun hlast ih =>
    obtain ⟨hadm, rfl⟩ := hlast
    have ih' := ih fun ev hev => hduring ev (List.mem_append_left _ hev)
    have hev := hduring ev (List.mem_append_right _ (List.mem_singleton_self ev))
    cases ev with
    | selectCpu sel' bss' => exact absurd hev id
    | callback op =>
      have hwakes : op.wakes = false := hev
      show pending (op.apply ro t.ctx) = true ↔ _
      rw [pending_apply hadm, hwakes, Bool.false_or, Bool.and_eq_true, ih', Bool.not_eq_true']
      simp only [List.forall_mem_append, List.forall_mem_singleton, and_assoc]
      refine and_congr_right fun _ => and_congr_right fun _ => and_congr_right fun _ => ?_
      exact Bool.not_eq_true _ ▸ Iff.rfl

/-! ### The boost -/

/-- Who gets the boost, seen from a state in which no wakeup is under way. -/
structure OneShot (ro : Rodata) (hy : HybridRodata) (s : WakeState) : Prop where
  /-- the last wakeup has left nothing behind ... -/
  clear : ∀ c, s.ctx = some c → hasFlag c.packedInfo .irqWake = false
  /-- ... so an enqueue is not boosted unless a wakeup comes first -/
  unboosted : ∀ env : EnqueueEnv, ¬ env.Boosts ro s.ctx
  /-- a direct dispatch has the boost of its own wakeup -/
  direct : ∀ sel : SelectEnv, sel.search.2 = true →
    (sel.Boosts s.ctx ↔ sel.irqContext = true ∧ s.ctx.isSome = true)
  /-- an enqueue has that of the wakeup that is under way, be it the last callback of the wakeup
  or a preempting one, unless a preempting one came before it -/
  queued : ∀ (sel : SelectEnv) (bss : Bss), sel.search.2 = false → ∀ evs s',
    WakeRun ro hy (s.next ro hy (.selectCpu sel bss)) evs s' →
    (∀ ev ∈ evs, ev.DuringWakeup) → ∀ env : EnqueueEnv, env.isStandard →
    (env.Boosts ro s'.ctx ↔
      sel.irqContext = true ∧ s.ctx.isSome = true ∧ ∀ ev ∈ evs, ¬ ev.Preempts)

/-- **The interrupt boost is for one dispatch.** In every run, whenever no wakeup is under way the
flag is clear, and the next wakeup is boosted exactly if it comes out of an interrupt, the task has
a context and no preempting enqueue takes the boost first. -/
theorem irq_boost_one_shot (h : WakeRun ro hy ⟨none, false⟩ evs s) (hidle : s.waking = false) :
    OneShot ro hy s where
  clear := by
    intro c hc
    have hclear := pending_of_idle h hidle
    rwa [hc] at hclear
  unboosted := by
    intro env hboosts
    rw [enqueueEnv_boosts_iff, pending_of_idle h hidle] at hboosts
    cases hboosts.2
  direct := by
    intro sel hdirect
    rw [selectEnv_boosts_iff, pending_of_idle h hidle]
    simp [hdirect, and_comm]
  queued := by
    intro sel bss hbusy evs s' hrun hduring env hstandard
    rw [enqueueEnv_boosts_iff, and_iff_right hstandard]
    exact pending_of_wakeup (pending_of_idle h hidle) hbusy hrun hduring

/-- A wakeup out of a hard interrupt that finds all CPUs busy. -/
def irqSelect : SelectEnv where
  cpu := 0
  prevCpu := 0
  inHardirqOrNmi := true
  inSoftirq := false
  wakeSync := false
  waker := none
  search := (0, false)
  searchFrom := fun _ => (0, false)
  allowed := fun _ => true

/-- The enqueue of the wakeup. -/
def wakeupEnqueue : EnqueueEnv := ⟨0, 0, 1000000, false, ⟨true, false⟩⟩

/-- An enqueue of the same task after a preemption. -/
def preemptedEnqueue : EnqueueEnv := ⟨0, 0, 1000000, false, ⟨false, true⟩⟩

theorem newTask_wakeRun : WakeRun defaultRodata noHybrid ⟨none, false⟩
    [.callback (.enable 120 true)] ⟨some (allocTaskCtxCold defaultRodata 120), false⟩ :=
  Run.snoc .nil ⟨trivial, rfl⟩

/-- The wakeup of a new task is boosted. -/
theorem newTask_boosted : ∃ s, WakeRun defaultRodata noHybrid ⟨none, false⟩
    [.callback (.enable 120 true)] s ∧ wakeupEnqueue.Boosts defaultRodata
      (s.next defaultRodata noHybrid (.selectCpu irqSelect (initBss defaultRodata))).ctx := by
  refine ⟨_, newTask_wakeRun, ?_⟩
  have honce := irq_boost_one_shot newTask_wakeRun rfl
  exact (honce.queued irqSelect _ rfl [] _ .nil (by simp) wakeupEnqueue (Or.inl rfl)).mpr
    ⟨rfl, rfl, by simp⟩

/-- If it is enqueued after a preemption before the wakeup is over, that enqueue has the boost, and
the wakeup has none. -/
theorem newTask_boost_taken : ∃ s t, WakeRun defaultRodata noHybrid ⟨none, false⟩
    [.callback (.enable 120 true)] s ∧ s.waking = false ∧ s.ctx.isSome = true ∧
    irqSelect.irqContext = true ∧ irqSelect.search.2 = false ∧
    WakeRun defaultRodata noHybrid
      (s.next defaultRodata noHybrid (.selectCpu irqSelect (initBss defaultRodata)))
      [.callback (.enqueue preemptedEnqueue (initBss defaultRodata))] t ∧
    ¬ wakeupEnqueue.Boosts defaultRodata t.ctx := by
  have hspent : ∀ ctx, pending (TaskOp.apply defaultRodata ctx
      (.enqueue preemptedEnqueue (initBss defaultRodata))) = false := by
    intro ctx
    rw [pending_apply (show TaskOp.SelectsNoCpu (.enqueue _ _) from trivial)]
    simp [TaskOp.wakes, TaskOp.preempts, preemptedEnqueue]
  refine ⟨_, _, newTask_wakeRun, rfl, rfl, rfl, rfl, Run.snoc .nil ⟨trivial, rfl⟩, ?_⟩
  rw [enqueueEnv_boosts_iff]
  rintro ⟨-, hset⟩
  exact Bool.false_ne_true ((hspent _).symm.trans hset)

end Imperator
