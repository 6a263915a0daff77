import Imperator.TickExits
import Imperator.Upkeep

/-!
# The budget of a lock holder

A lock holder over its starvation budget is spared, four times at most, and then preempted. The
count of times is kept in the context. It is written by the tick and by the probe that ends the
critical section, and the probe needs two stores for it: one takes the flag away, the other sets the
count to zero. A tick may come between the two.

The order of the stores is what this depends on. Between them the flag is clear already, so a tick
that comes there does not count. With the flag cleared last, a tick in between would count into the
next critical section.

## Main definitions

* `setLockHolder`, `clearHolderFlag`, `resetSkipCount` — the stores of the probes
* `LockTask`, `LockEvent`, `LockTask.next` — a task with its probes, store by store
* `sparedAfter` — the checks that spared the task, beside the machine

## Main results

* `LockInv.next` — one event
* `lock_skip_budget` — every interleaving
-/

namespace Imperator

open Transition

variable {ro : Rodata} {c c' : TaskCtx} {ctx : Option TaskCtx} {op : TaskOp} {env : TickEnv}
  {bss : Bss}

/-! ### The stores -/

/-- `set_lock_holder` -/
def setLockHolder (c : TaskCtx) : TaskCtx :=
  { c with packedInfo := setFlag c.packedInfo .lockHolder }

/-- The first store of `clear_lock_holder`. -/
def clearHolderFlag (c : TaskCtx) : TaskCtx :=
  { c with packedInfo := clearFlag c.packedInfo .lockHolder }

/-- The second one. -/
def resetSkipCount (c : TaskCtx) : TaskCtx := { c with lockSkipCount := 0 }

/-- `clear_lock_holder` -/
def clearLockHolder (c : TaskCtx) : TaskCtx := resetSkipCount (clearHolderFlag c)

/-- Without a tick in between, the probes are what they are taken for elsewhere. -/
theorem lockHolderCtx_eq (held : Bool) :
    lockHolderCtx held = if held then setLockHolder else clearLockHolder := by
  funext c
  cases held <;> rfl

/-- `CAKE_FLAG_LOCK_HOLDER` -/
def TaskCtx.holdsLock (c : TaskCtx) : Bool := hasFlag c.packedInfo .lockHolder

@[simp] theorem setLockHolder_holdsLock (c : TaskCtx) : (setLockHolder c).holdsLock = true := by
  simp [TaskCtx.holdsLock, setLockHolder]

@[simp] theorem clearHolderFlag_holdsLock (c : TaskCtx) :
    (clearHolderFlag c).holdsLock = false := by
  simp [TaskCtx.holdsLock, clearHolderFlag]

@[simp] theorem resetSkipCount_holdsLock (c : TaskCtx) :
    (resetSkipCount c).holdsLock = c.holdsLock := rfl

/-! ### The machine -/

/-- A task, and whether it is between the two stores of `clear_lock_holder`. -/
structure LockTask where
  ctx : Option TaskCtx
  midway : Bool

/-- What happens to it: the callbacks, and its own probes store by store. -/
inductive LockEvent
  | callback (op : TaskOp)
  | setHolder
  | clearFlag
  | resetSkips

/-- The task after an event. -/
def LockTask.next (ro : Rodata) (s : LockTask) : LockEvent → LockTask
  | .callback op => { s with ctx := op.apply ro s.ctx }
  | .setHolder => { s with ctx := s.ctx.map setLockHolder }
  | .clearFlag => ⟨s.ctx.map clearHolderFlag, true⟩
  | .resetSkips => ⟨s.ctx.map resetSkipCount, false⟩

/-- The callbacks that leave the mechanism to tick and probes. Exec resets the count as well. -/
def TaskOp.AmidLock : TaskOp → Prop
  | .lockHolder _ => False
  | .initTask fork _ _ => fork = true
  | _ => True

/-- The probes come one after the other. Callbacks come anywhere. -/
def LockEvent.InOrder (s : LockTask) : LockEvent → Prop
  | .callback op => op.AmidLock
  | .setHolder | .clearFlag => s.midway = false
  | .resetSkips => s.midway = true

/-- How many checks in a row have found the task over its budget and not preempted it, while its
flag was set. A preemption ends the row, and so does the end of the critical section. -/
def sparedAfter (ro : Rodata) (s : LockTask) (spared : ℕ) : LockEvent → ℕ
  | .callback (.tick env bss) =>
    match s.ctx with
    | some c =>
      if PastSlice env c ∧ OverBudget ro env c bss then
        if (imperatorTick ro env (some c) bss).kick then 0 else spared + 1
      else spared
    | none => spared
  | .callback _ | .setHolder | .resetSkips => spared
  | .clearFlag => 0

/-- The runs of a task, its count of spared checks beside it. -/
def LockRun (ro : Rodata) (es : List LockEvent) (s : LockTask × ℕ) : Prop :=
  Run (Guarded (ofNext (recording (LockTask.next ro) (sparedAfter ro)))
    fun s => LockEvent.InOrder s.1) (⟨none, false⟩, 0) es s

/-- What holds of a task with a context, in every state. -/
structure Budgeted (midway : Bool) (spared : ℕ) (c : TaskCtx) : Prop where
  le_four : c.lockSkipCount.toNat ≤ 4
  /-- while the flag is set, every spared check is counted -/
  held : c.holdsLock = true → midway = false ∧ c.lockSkipCount.toNat = spared
  /-- while it is clear there are none, and outside the two stores the count is zero -/
  free : c.holdsLock = false → spared = 0 ∧ (midway = false → c.lockSkipCount = 0)

/-- The invariant. -/
structure LockInv (s : LockTask × ℕ) : Prop where
  budgeted : ∀ c, s.1.ctx = some c → Budgeted s.1.midway s.2 c
  absent : s.1.ctx = none → s.2 = 0

/-! ### One event -/

variable {midway : Bool} {spared : ℕ}

theorem allocTaskCtxCold_budgeted (ro : Rodata) (prio : U32) (midway : Bool) :
    Budgeted midway 0 (allocTaskCtxCold ro prio) := by
  have hclear : (allocTaskCtxCold ro prio).holdsLock = false :=
    allocTaskCtxCold_hasFlag ro prio .lockHolder
  refine ⟨Nat.zero_le 4, fun hset => ?_, fun _ => ⟨rfl, fun _ => rfl⟩⟩
  rw [hclear] at hset
  cases hset

/-- Only flag and count matter. -/
theorem Budgeted.congr (h : Budgeted midway spared c) (hflag : c'.holdsLock = c.holdsLock)
    (hskips : c'.lockSkipCount = c.lockSkipCount) : Budgeted midway spared c' := by
  constructor
  · rw [hskips]
    exact h.le_four
  · rw [hflag, hskips]
    exact h.held
  · rw [hflag, hskips]
    exact h.free

theorem holdsLock_of_apply (hop : op.AmidLock) (h : op.apply ro (some c) = some c') :
    c'.holdsLock = c.holdsLock := by
  by_contra hne
  have hprobe := (discipline_of_apply h).lockHolder hne
  rw [hprobe] at hop
  exact hop

/-- A spared check is counted. -/
theorem Budgeted.spare (h : Budgeted midway spared c) (hspared : Spared c) :
    Budgeted midway (spared + 1) { c with lockSkipCount := c.lockSkipCount + 1 } := by
  obtain ⟨hidle, hcount⟩ := h.held hspared.1
  have hlt : c.lockSkipCount.toNat < 4 := BitVec.lt_def.mp hspared.2
  have hadd : (c.lockSkipCount + 1).toNat = c.lockSkipCount.toNat + 1 := by
    have hone : (1 : U8).toNat = 1 := rfl
    rw [BitVec.toNat_add, hone]
    exact Nat.mod_eq_of_lt (by omega)
  refine ⟨hadd ▸ hlt, fun _ => ⟨hidle, by rw [hadd, hcount]⟩, fun hclear => ?_⟩
  exact absurd (hspared.1.symm.trans hclear) Bool.noConfusion

/-- A preemption for starvation starts over. -/
theorem Budgeted.starve (h : Budgeted midway spared c) :
    Budgeted midway 0 { c with
      lockSkipCount := if hasFlag c.packedInfo .lockHolder then 0 else c.lockSkipCount } := by
  cases hflag : c.holdsLock with
  | true =>
    rw [show hasFlag c.packedInfo .lockHolder = true from hflag, if_pos rfl]
    exact ⟨Nat.zero_le 4, fun _ => ⟨(h.held hflag).1, rfl⟩, fun _ => ⟨rfl, fun _ => rfl⟩⟩
  | false =>
    obtain ⟨rfl, hzero⟩ := h.free hflag
    rw [show hasFlag c.packedInfo .lockHolder = false from hflag, if_neg Bool.false_ne_true]
    exact h

/-- **A tick.** Nothing else is done to a lock holder. -/
theorem Budgeted.tick (h : Budgeted midway spared c)
    (hctx : (imperatorTick ro env (some c) bss).ctx = some c') :
    Budgeted midway (sparedAfter ro ⟨some c, midway⟩ spared (.callback (.tick env bss))) c' := by
  rw [sparedAfter]
  dsimp only
  generalize hr : imperatorTick ro env (some c) bss = r at hctx ⊢
  have hexit := hr ▸ tickExit ro env c bss
  cases hexit with
  | stamped hzero =>
    obtain rfl := Option.some.inj hctx
    rw [if_neg fun hcond : PastSlice env c ∧ _ => hcond.1.1 hzero]
    exact h.congr rfl rfl
  | sliced _ hexpired =>
    obtain rfl := Option.some.inj hctx
    rw [if_neg fun hcond : PastSlice env c ∧ _ => hcond.1.2 hexpired]
    exact h
  | spared hpast hover hspared _ =>
    obtain rfl := Option.some.inj hctx
    rw [if_pos ⟨hpast, hover⟩, endTick, if_neg Bool.false_ne_true]
    exact h.spare hspared
  | starved hpast hover _ _ =>
    obtain rfl := Option.some.inj hctx
    rw [if_pos ⟨hpast, hover⟩, preemptSelf, if_pos rfl]
    exact h.starve
  | quiet hpast hover _ =>
    obtain rfl := Option.some.inj hctx
    rw [if_neg fun hcond : _ ∧ OverBudget ro env c bss => hover hcond.2]
    exact h

/-- What a callback leaves of the count of spared checks, if it is no tick. -/
theorem sparedAfter_of_not_tick (ro : Rodata) (s : LockTask) (spared : ℕ)
    (h : ∀ env bss, op ≠ .tick env bss) : sparedAfter ro s spared (.callback op) = spared := by
  cases op with
  | tick env bss => exact absurd rfl (h env bss)
  | enable | initTask | selectCpu | enqueue | running | stopping | lockHolder => rfl

/-- **A callback.** -/
theorem Budgeted.callback (h : Budgeted midway spared c) (hop : op.AmidLock)
    (happly : op.apply ro (some c) = some c') :
    Budgeted midway (sparedAfter ro ⟨some c, midway⟩ spared (.callback op)) c' := by
  by_cases htick : ∃ env bss, op = .tick env bss
  · obtain ⟨env, bss, rfl⟩ := htick
    exact h.tick happly
  · have hne : ∀ env bss, op ≠ .tick env bss := fun env bss heq => htick ⟨env, bss, heq⟩
    rw [sparedAfter_of_not_tick ro _ spared hne]
    refine h.congr (holdsLock_of_apply hop happly) (lockSkipCount_of_apply ?_ happly)
    cases op with
    | tick env bss => exact absurd rfl (hne env bss)
    | initTask fork =>
      intro hexec
      exact absurd (hexec.symm.trans hop) Bool.noConfusion
    | lockHolder => exact hop.elim
    | enable | selectCpu | enqueue | running | stopping => exact id

/-- **An acquisition.** It finds the full budget, or the budget of the lock it nests in. -/
theorem Budgeted.setHolder (h : Budgeted false spared c) :
    Budgeted false spared (setLockHolder c) := by
  refine ⟨h.le_four, fun _ => ⟨rfl, ?_⟩, fun hclear => ?_⟩
  · cases hflag : c.holdsLock with
    | true => exact (h.held hflag).2
    | false =>
      obtain ⟨rfl, hzero⟩ := h.free hflag
      exact congrArg BitVec.toNat (hzero rfl)
  · rw [setLockHolder_holdsLock] at hclear
    cases hclear

/-- **The first store of a release.** The count is left as it is, and from here on not counted. -/
theorem Budgeted.clearFlag (h : Budgeted midway spared c) :
    Budgeted true 0 (clearHolderFlag c) := by
  refine ⟨h.le_four, fun hset => ?_, fun _ => ⟨rfl, fun hidle => ?_⟩⟩
  · rw [clearHolderFlag_holdsLock] at hset
    cases hset
  · cases hidle

/-- **The second one.** Nothing in between has set the flag. -/
theorem Budgeted.resetSkips (h : Budgeted true spared c) :
    Budgeted false spared (resetSkipCount c) := by
  refine ⟨Nat.zero_le 4, fun hset => ?_, fun hclear => ⟨(h.free hclear).1, fun _ => rfl⟩⟩
  have hidle := (h.held hset).1
  cases hidle

/-- The invariant of a task with a context. -/
theorem LockInv.some (h : Budgeted midway spared c) : LockInv (⟨some c, midway⟩, spared) := by
  refine ⟨fun c' hc' => ?_, fun hnone => ?_⟩
  · obtain rfl := Option.some.inj hc'
    exact h
  · cases hnone

/-- A task without a context is spared nothing. -/
theorem sparedAfter_none (ro : Rodata) (midway : Bool) (e : LockEvent) :
    sparedAfter ro ⟨none, midway⟩ 0 e = 0 := by
  cases e with
  | callback op => cases op <;> rfl
  | setHolder | clearFlag | resetSkips => rfl

/-- It gets a context from the allocation. -/
theorem LockTask.created_of_next {e : LockEvent}
    (h : (LockTask.next ro ⟨none, midway⟩ e).ctx = some c') :
    ∃ prio, c' = allocTaskCtxCold ro prio := by
  cases e with
  | callback op =>
    obtain ⟨prio, -, hcreated⟩ := created_of_apply h
    exact ⟨prio, hcreated⟩
  | setHolder | clearFlag | resetSkips => cases h

/-- **One event.** -/
theorem LockInv.next {s : LockTask × ℕ} {e : LockEvent} (h : LockInv s)
    (horder : LockEvent.InOrder s.1 e) :
    LockInv (recording (LockTask.next ro) (sparedAfter ro) s e) := by
  obtain ⟨⟨ctx, midway⟩, spared⟩ := s
  cases ctx with
  | none =>
    obtain rfl : spared = 0 := h.absent rfl
    have hspared := sparedAfter_none ro midway e
    refine ⟨fun c' hc' => ?_, fun _ => hspared⟩
    obtain ⟨prio, rfl⟩ := LockTask.created_of_next hc'
    show Budgeted _ (sparedAfter ro ⟨none, midway⟩ 0 e) _
    rw [hspared]
    exact allocTaskCtxCold_budgeted ro prio _
  | some c =>
    have hc := h.budgeted c rfl
    cases e with
    | callback op =>
      obtain ⟨d, hd⟩ := apply_isSome ro c op
      refine ⟨fun c' hc' => hc.callback horder hc', fun hnone => ?_⟩
      cases hd.symm.trans hnone
    | setHolder =>
      obtain rfl : midway = false := horder
      exact LockInv.some hc.setHolder
    | clearFlag =>
      exact LockInv.some hc.clearFlag
    | resetSkips =>
      obtain rfl : midway = true := horder
      exact LockInv.some hc.resetSkips

/-! ### Every interleaving -/

/-- The invariant holds in every state of every run. -/
theorem LockRun.inv {es : List LockEvent} {s : LockTask × ℕ} (h : LockRun ro es s) :
    LockInv s := by
  have hinit : LockInv (⟨none, false⟩, 0) := ⟨nofun, fun _ => rfl⟩
  refine Run.invariant (fun s e t hs hst => ?_) h hinit
  obtain ⟨horder, rfl⟩ := hst
  exact hs.next horder

/-- **The budget of a lock holder is never eroded.** In every interleaving of ticks, and of the
other callbacks of the task, with the stores of its probes, the count stays within four; a lock
holder is spared at most four times in a row before it is preempted for starvation; and a task that
holds no lock, and is not just releasing one, has the full budget ahead of it. -/
theorem lock_skip_budget (ro : Rodata) (es : List LockEvent) (s : LockTask) (spared : ℕ)
    (h : LockRun ro es (s, spared)) (c : TaskCtx) (hctx : s.ctx = some c) :
    c.lockSkipCount ≤ 4 ∧ spared ≤ 4 ∧
      (c.holdsLock = false → s.midway = false → c.lockSkipCount = 0) := by
  have hc : Budgeted s.midway spared c := h.inv.budgeted c hctx
  refine ⟨BitVec.le_def.mpr hc.le_four, ?_, fun hclear => (hc.free hclear).2⟩
  cases hflag : c.holdsLock with
  | true =>
    rw [← (hc.held hflag).2]
    exact hc.le_four
  | false =>
    rw [(hc.free hflag).1]
    exact Nat.zero_le 4

/-- A lock holder is spared once, and a second tick comes between the stores of the release. -/
def splitRelease : List LockEvent :=
  let tick : LockEvent := .callback (.tick ⟨0, 10000000, false, false, some 2, 1024⟩
    (initBss defaultRodata))
  [.callback (.enable 120 true), .callback (.running 0 1000000 (initBss defaultRodata)),
    .setHolder, tick, .clearFlag, tick, .resetSkips]

theorem splitRelease_budget : ∃ s spared c, LockRun defaultRodata splitRelease (s, spared) ∧
    s.ctx = some c ∧ c.lockSkipCount = 0 := by
  have hrun : LockRun defaultRodata splitRelease _ :=
    Run.foldl_of_admits ⟨trivial, trivial, rfl, trivial, rfl, trivial, rfl, trivial⟩
  obtain ⟨c, hctx⟩ : ∃ c, (splitRelease.foldl (recording (LockTask.next defaultRodata)
      (sparedAfter defaultRodata)) (⟨none, false⟩, 0)).1.ctx = some c := ⟨_, rfl⟩
  have hclear : c.holdsLock = false := by
    obtain rfl := Option.some.inj hctx
    decide
  obtain ⟨-, -, hfull⟩ := lock_skip_budget _ _ _ _ hrun c hctx
  exact ⟨_, _, c, hrun, hctx, hfull hclear rfl⟩

end Imperator
