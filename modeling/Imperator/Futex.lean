import Imperator.LockHolder

/-!
# Futex probes and futex tracepoints

The lock flag is kept by probes at the return of the kernel's futex functions. A kernel that does
not export these is served by the tracepoints of the system call, and where both are there both are
attached. A probe knows what was done by where it sits. A tracepoint has to be told: the entry
leaves the operation in the context, one byte of it, and the exit looks it up in a switch.

A system call comes to the same in all three cases. What a call says about the lock is a *verdict*:
acquired, released, or nothing. Storing it a second time changes nothing, so it is enough that the
two tables give the same verdict, and that the byte is the operation of this call. The sentinel is
in the range of the byte, but at a command no function serves.

## Main definitions

* `FutexProbe.fexit` — the probes
* `imperatorTpEnterFutex`, `imperatorTpExitFutex` — the tracepoints
* `FutexCall` — a system call that has returned, and what the kernel has run for it
* `FutexCall.run` — its effect on the context of the task

## Main results

* `futexStores_of_serves` — the switch and the probes agree
* `Holding.run` — one call
* `futex_paths_agree` — any number of them
-/

namespace Imperator

variable {ro : Rodata} {c c' : TaskCtx} {ctx : Option TaskCtx}

/-! ### Verdicts -/

/-- What a return says about the lock, stored: acquired, released, or nothing. -/
def verdictCtx : Option Bool → TaskCtx → TaskCtx
  | none => id
  | some true => setLockHolder
  | some false => clearLockHolder

@[simp] theorem verdictCtx_holdsLock (v : Option Bool) (c : TaskCtx) :
    (verdictCtx v c).holdsLock = v.getD c.holdsLock := by
  match v with
  | none => rfl
  | some true => exact setLockHolder_holdsLock c
  | some false => exact clearHolderFlag_holdsLock c

@[simp] theorem verdictCtx_pendingFutexOp (v : Option Bool) (c : TaskCtx) :
    (verdictCtx v c).pendingFutexOp = c.pendingFutexOp := by
  match v with
  | none | some true | some false => rfl

/-! ### The probes -/

/-- A function whose return says that the lock is acquired, if `success`. -/
def onAcquire (success : Bool) (ctx : Option TaskCtx) : Option TaskCtx :=
  if success then ctx.map setLockHolder else ctx

/-- Or released. -/
def onRelease (success : Bool) (ctx : Option TaskCtx) : Option TaskCtx :=
  if success then ctx.map clearLockHolder else ctx

/-- `imperator_fexit_futex_wait` -/
def imperatorFexitFutexWait (ret : U32) : Option TaskCtx → Option TaskCtx :=
  onAcquire (ret = 0)

/-- `imperator_fexit_futex_wait_requeue_pi` -/
def imperatorFexitFutexWaitRequeuePi (ret : U32) : Option TaskCtx → Option TaskCtx :=
  onAcquire (ret = 0)

/-- `imperator_fexit_futex_lock_pi` -/
def imperatorFexitFutexLockPi (ret : U32) : Option TaskCtx → Option TaskCtx :=
  onAcquire (ret = 0)

/-- `imperator_fexit_futex_trylock_pi` -/
def imperatorFexitFutexTrylockPi (ret : U32) : Option TaskCtx → Option TaskCtx :=
  onAcquire (ret = 0)

/-- `imperator_fexit_futex_wake` -/
def imperatorFexitFutexWake (ret : U32) : Option TaskCtx → Option TaskCtx :=
  onRelease (0 ≤ ret.toInt)

/-- `imperator_fexit_futex_wake_op` -/
def imperatorFexitFutexWakeOp (ret : U32) : Option TaskCtx → Option TaskCtx :=
  onRelease (0 ≤ ret.toInt)

/-- `imperator_fexit_futex_unlock_pi` -/
def imperatorFexitFutexUnlockPi (ret : U32) : Option TaskCtx → Option TaskCtx :=
  onRelease (ret = 0)

/-- The functions that carry a probe. -/
inductive FutexProbe
  | wait
  | waitRequeuePi
  | lockPi
  | trylockPi
  | wake
  | wakeOp
  | unlockPi

/-- The probe at the return of a function. -/
def FutexProbe.fexit : FutexProbe → U32 → Option TaskCtx → Option TaskCtx
  | .wait => imperatorFexitFutexWait
  | .waitRequeuePi => imperatorFexitFutexWaitRequeuePi
  | .lockPi => imperatorFexitFutexLockPi
  | .trylockPi => imperatorFexitFutexTrylockPi
  | .wake => imperatorFexitFutexWake
  | .wakeOp => imperatorFexitFutexWakeOp
  | .unlockPi => imperatorFexitFutexUnlockPi

/-- What a return of the function says. -/
def FutexProbe.verdict (ret : U32) : FutexProbe → Option Bool
  | .wait | .waitRequeuePi | .lockPi | .trylockPi => if ret = 0 then some true else none
  | .wake | .wakeOp => if 0 ≤ ret.toInt then some false else none
  | .unlockPi => if ret = 0 then some false else none

theorem onAcquire_eq (p : Prop) [Decidable p] (ctx : Option TaskCtx) :
    onAcquire p ctx = ctx.map (verdictCtx (if p then some true else none)) := by
  by_cases hp : p <;> simp [onAcquire, hp, verdictCtx]

theorem onRelease_eq (p : Prop) [Decidable p] (ctx : Option TaskCtx) :
    onRelease p ctx = ctx.map (verdictCtx (if p then some false else none)) := by
  by_cases hp : p <;> simp [onRelease, hp, verdictCtx]

/-- A probe stores its verdict. -/
theorem FutexProbe.fexit_eq (p : FutexProbe) (ret : U32) (ctx : Option TaskCtx) :
    p.fexit ret ctx = ctx.map (verdictCtx (p.verdict ret)) := by
  cases p with
  | wait | waitRequeuePi | lockPi | trylockPi => exact onAcquire_eq _ ctx
  | wake | wakeOp | unlockPi => exact onRelease_eq _ ctx

/-! ### The tracepoints -/

/-- `CAKE_FUTEX_WAIT` -/
def cakeFutexWait : U32 := 0
/-- `CAKE_FUTEX_WAKE` -/
def cakeFutexWake : U32 := 1
/-- `CAKE_FUTEX_WAIT_BITSET` -/
def cakeFutexWaitBitset : U32 := 9
/-- `CAKE_FUTEX_WAKE_BITSET` -/
def cakeFutexWakeBitset : U32 := 10
/-- `CAKE_FUTEX_WAIT_REQUEUE_PI` -/
def cakeFutexWaitRequeuePi : U32 := 11
/-- `CAKE_FUTEX_LOCK_PI` -/
def cakeFutexLockPi : U32 := 6
/-- `CAKE_FUTEX_LOCK_PI2` -/
def cakeFutexLockPi2 : U32 := 13
/-- `CAKE_FUTEX_TRYLOCK_PI` -/
def cakeFutexTrylockPi : U32 := 8
/-- `CAKE_FUTEX_UNLOCK_PI` -/
def cakeFutexUnlockPi : U32 := 7
/-- `CAKE_FUTEX_WAKE_OP` -/
def cakeFutexWakeOp : U32 := 5
/-- `CAKE_FUTEX_CMD_MASK`, without the private and the real-time bit -/
def cakeFutexCmdMask : U32 := ~~~(128 ||| 256)

/-- `imperator_tp_enter_futex` -/
def imperatorTpEnterFutex (op : U32) (ctx : Option TaskCtx) : Option TaskCtx :=
  ctx.map fun c => { c with pendingFutexOp := op.setWidth 8 }

/-- The switch of `imperator_tp_exit_futex`. -/
def futexStores (cmd : U32) (ret : U64) (c : TaskCtx) : TaskCtx :=
  if cmd = cakeFutexWait ∨ cmd = cakeFutexWaitBitset ∨ cmd = cakeFutexWaitRequeuePi then
    if ret = 0 then setLockHolder c else c
  else if cmd = cakeFutexWake ∨ cmd = cakeFutexWakeBitset ∨ cmd = cakeFutexWakeOp then
    if 0 ≤ ret.toInt then clearLockHolder c else c
  else if cmd = cakeFutexLockPi ∨ cmd = cakeFutexLockPi2 ∨ cmd = cakeFutexTrylockPi then
    if ret = 0 then setLockHolder c else c
  else if cmd = cakeFutexUnlockPi then
    if ret = 0 then clearLockHolder c else c
  else c

/-- `imperator_tp_exit_futex` -/
def imperatorTpExitFutex (ret : U64) (ctx : Option TaskCtx) : Option TaskCtx :=
  ctx.map fun c =>
    if c.pendingFutexOp = cakeFutexOpUnset then c
    else
      let cmd := c.pendingFutexOp.setWidth 32 &&& cakeFutexCmdMask
      { futexStores cmd ret c with pendingFutexOp := cakeFutexOpUnset }

/-- `imperator_tp_exit_futex_wait` -/
def imperatorTpExitFutexWait (ret : U64) : Option TaskCtx → Option TaskCtx :=
  onAcquire (ret = 0)

/-- `imperator_tp_exit_futex_wake` -/
def imperatorTpExitFutexWake (ret : U64) : Option TaskCtx → Option TaskCtx :=
  onRelease (0 ≤ ret.toInt)

/-! ### The kernel's side -/

/-- The functions the kernel may run for a command of `futex`. -/
inductive CommandServes : U32 → FutexProbe → Prop
  | wait : CommandServes cakeFutexWait .wait
  | waitBitset : CommandServes cakeFutexWaitBitset .wait
  | waitRequeuePi : CommandServes cakeFutexWaitRequeuePi .waitRequeuePi
  | lockPi : CommandServes cakeFutexLockPi .lockPi
  | lockPi2 : CommandServes cakeFutexLockPi2 .lockPi
  | trylockPi : CommandServes cakeFutexTrylockPi .trylockPi
  /-- where there is no function of its own -/
  | trylockAsLock : CommandServes cakeFutexTrylockPi .lockPi
  | wake : CommandServes cakeFutexWake .wake
  | wakeBitset : CommandServes cakeFutexWakeBitset .wake
  | wakeOp : CommandServes cakeFutexWakeOp .wakeOp
  | unlockPi : CommandServes cakeFutexUnlockPi .unlockPi

/-- The commands served by functions without a probe: `FUTEX_FD`, and the requeue commands. -/
def unprobedCommands : List U32 := [2, 3, 4, 12]

/-- The system calls. -/
inductive FutexSyscall
  | futex (op : U32)
  | futexWait
  | futexWake

/-- The functions that may be run for a system call. -/
inductive FutexSyscall.Serves : FutexSyscall → FutexProbe → Prop
  | futex {op : U32} {p : FutexProbe} :
      CommandServes (op &&& cakeFutexCmdMask) p → Serves (.futex op) p
  | futexWait : Serves .futexWait .wait
  | futexWake : Serves .futexWake .wake

/-- A system call for a command without a probe. -/
def FutexSyscall.Unprobed : FutexSyscall → Prop
  | .futex op => op &&& cakeFutexCmdMask ∈ unprobedCommands
  | .futexWait | .futexWake => False

/-- A callback of the scheduler: no probe. -/
abbrev SchedulerOp := { op : TaskOp // ∀ held, op ≠ .lockHolder held }

/-- A system call that has returned. -/
structure FutexCall where
  syscall : FutexSyscall
  /-- what the system call has returned -/
  ret : U64
  /-- the function that was run, and what it has returned -/
  ran : Option (FutexProbe × U32)
  served : ∀ p r, ran = some (p, r) → syscall.Serves p ∧ ret = r.signExtend 64
  /-- a call that runs none of them fails, unless its command has none -/
  refused : ran = none → ret.toInt < 0 ∨ syscall.Unprobed
  /-- the callbacks of the task before the call, ... -/
  before : List SchedulerOp
  /-- ... up to the return of the function, ... -/
  inside : List SchedulerOp
  /-- ... and up to the return of the call -/
  returning : List SchedulerOp

/-- What is attached. -/
inductive Attached
  | fexit
  | tracepoints
  | both
  deriving DecidableEq

/-- The probes are. -/
def Attached.HasFexit (a : Attached) : Prop := a ≠ .tracepoints

/-- The tracepoints are. -/
def Attached.HasTracepoints (a : Attached) : Prop := a ≠ .fexit

instance (a : Attached) : Decidable a.HasFexit := inferInstanceAs (Decidable (_ ≠ _))

instance (a : Attached) : Decidable a.HasTracepoints := inferInstanceAs (Decidable (_ ≠ _))

/-- Callbacks. -/
def runCallbacks (ro : Rodata) (ops : List SchedulerOp) (ctx : Option TaskCtx) : Option TaskCtx :=
  ops.foldl (fun ctx op => op.1.apply ro ctx) ctx

/-- The tracepoint at the entry of a call. Only `futex` has one. -/
def FutexSyscall.enter : FutexSyscall → Option TaskCtx → Option TaskCtx
  | .futex op => imperatorTpEnterFutex op
  | .futexWait | .futexWake => id

/-- The one at the exit. -/
def FutexSyscall.exit : FutexSyscall → U64 → Option TaskCtx → Option TaskCtx
  | .futex _ => imperatorTpExitFutex
  | .futexWait => imperatorTpExitFutexWait
  | .futexWake => imperatorTpExitFutexWake

/-- The context after a call. -/
def FutexCall.run (ro : Rodata) (a : Attached) (call : FutexCall) (ctx : Option TaskCtx) :
    Option TaskCtx :=
  let ctx := runCallbacks ro call.before ctx
  let ctx := if a.HasTracepoints then call.syscall.enter ctx else ctx
  let ctx := runCallbacks ro call.inside ctx
  let ctx := if a.HasFexit then call.ran.elim ctx fun (p, r) => p.fexit r ctx else ctx
  let ctx := runCallbacks ro call.returning ctx
  if a.HasTracepoints then call.syscall.exit call.ret ctx else ctx

/-- What a call says about the lock. -/
def FutexCall.verdict (call : FutexCall) : Option Bool := call.ran.bind fun (p, r) => p.verdict r

/-! ### The tables agree -/

theorem signExtend_eq_zero (r : U32) : r.signExtend 64 = 0 ↔ r = 0 := by
  constructor
  · intro h
    rw [← BitVec.toInt_inj, BitVec.toInt_signExtend_of_le (by decide)] at h
    exact BitVec.toInt_inj.mp h
  · rintro rfl
    rfl

theorem signExtend_nonneg (r : U32) : 0 ≤ (r.signExtend 64).toInt ↔ 0 ≤ r.toInt := by
  rw [BitVec.toInt_signExtend_of_le (by decide)]

/-- A branch of the switch, and the verdict it stands for. -/
theorem branch_eq_verdictCtx {p q : Prop} [Decidable p] [Decidable q] (hpq : p ↔ q) (b : Bool)
    (c : TaskCtx) : (if p then verdictCtx (some b) c else c)
      = verdictCtx (if q then some b else none) c := by
  by_cases hq : q
  · rw [if_pos (hpq.mpr hq), if_pos hq]
  · rw [if_neg (hpq.not.mpr hq), if_neg hq]
    rfl

/-- **The switch and the probes agree**, at a command that some function serves. -/
theorem futexStores_of_serves {cmd : U32} {p : FutexProbe} (h : CommandServes cmd p) (r : U32) :
    futexStores cmd (r.signExtend 64) = verdictCtx (p.verdict r) := by
  funext c
  cases h with
  | wait | waitBitset | waitRequeuePi | lockPi | lockPi2 | trylockPi | trylockAsLock =>
    exact branch_eq_verdictCtx (signExtend_eq_zero r) true c
  | wake | wakeBitset | wakeOp => exact branch_eq_verdictCtx (signExtend_nonneg r) false c
  | unlockPi => exact branch_eq_verdictCtx (signExtend_eq_zero r) false c

theorem ne_zero_of_neg {ret : U64} (h : ret.toInt < 0) : ret ≠ 0 := by
  rintro rfl
  exact absurd h (by decide)

/-- A call that failed is stored by no branch. -/
theorem futexStores_of_neg {ret : U64} (h : ret.toInt < 0) (cmd : U32) (c : TaskCtx) :
    futexStores cmd ret c = c := by
  simp only [futexStores, if_neg (ne_zero_of_neg h), if_neg h.not_ge, ite_self]

/-- Neither is a call for a command without a probe. -/
theorem futexStores_of_unprobed {cmd : U32} (h : cmd ∈ unprobedCommands) (ret : U64)
    (c : TaskCtx) : futexStores cmd ret c = c := by
  simp only [unprobedCommands, List.mem_cons, List.not_mem_nil, or_false] at h
  rcases h with rfl | rfl | rfl | rfl <;> rfl

/-! ### The byte -/

/-- What the exit makes of the byte is the low byte of the command. -/
theorem pending_and_cmdMask (op : U32) : (op.setWidth 8).setWidth 32 &&& cakeFutexCmdMask
    = (op &&& cakeFutexCmdMask) &&& 0xFF := by
  have hlow : (op.setWidth 8).setWidth 32 = op &&& 0xFF := by
    apply BitVec.eq_of_toNat_eq
    rw [BitVec.toNat_setWidth, BitVec.toNat_setWidth, Nat.mod_eq_of_lt (by omega)]
    exact (BitVec.toNat_and_lowMask op (show 8 ≤ 32 by decide)).symm
  rw [hlow, BitVec.and_assoc, BitVec.and_assoc, BitVec.and_comm 0xFF]

/-- The commands of the kernel are in the low byte, away from the sentinel. -/
theorem low_of_serves {cmd : U32} {p : FutexProbe} (h : CommandServes cmd p) :
    cmd &&& 0xFF = cmd ∧ cmd ≠ 0x7F := by
  cases h <;> decide

theorem low_of_unprobed {cmd : U32} (h : cmd ∈ unprobedCommands) :
    cmd &&& 0xFF = cmd ∧ cmd ≠ 0x7F := by
  simp only [unprobedCommands, List.mem_cons, List.not_mem_nil, or_false] at h
  rcases h with rfl | rfl | rfl | rfl <;> decide

/-- The sentinel is the command `0x7F`. -/
theorem ne_unset {op : U32} (hlow : (op &&& cakeFutexCmdMask) &&& 0xFF = op &&& cakeFutexCmdMask)
    (hne : op &&& cakeFutexCmdMask ≠ 0x7F) : op.setWidth 8 ≠ cakeFutexOpUnset := by
  intro hunset
  have hcmd := pending_and_cmdMask op
  rw [hunset, hlow] at hcmd
  exact hne hcmd.symm

/-! ### One call -/

/-- A task with a context, its lock flag and its pending operation. -/
def Holding (held : Bool) (op : U8) (ctx : Option TaskCtx) : Prop :=
  ∃ c, ctx = some c ∧ c.holdsLock = held ∧ c.pendingFutexOp = op

variable {held : Bool} {op : U8} {a b : Attached}

/-- A verdict, stored. -/
theorem Holding.verdict (h : Holding held op ctx) (v : Option Bool) :
    Holding (v.getD held) op (ctx.map (verdictCtx v)) := by
  obtain ⟨c, rfl, rfl, rfl⟩ := h
  exact ⟨_, rfl, verdictCtx_holdsLock v c, verdictCtx_pendingFutexOp v c⟩

/-- Storing a verdict twice is storing it once. -/
theorem getD_getD (v : Option Bool) (held : Bool) : v.getD (v.getD held) = v.getD held := by
  cases v <;> rfl

/-- **The callbacks** write neither. -/
theorem Holding.callbacks (ro : Rodata) (h : Holding held op ctx) (ops : List SchedulerOp) :
    Holding held op (runCallbacks ro ops ctx) := by
  induction ops generalizing ctx with
  | nil => exact h
  | cons cb ops ih =>
    obtain ⟨c, rfl, rfl, rfl⟩ := h
    obtain ⟨d, hd⟩ := apply_isSome ro c cb.1
    have hflag : d.holdsLock = c.holdsLock := by
      by_contra hne
      exact cb.2 _ ((discipline_of_apply hd).lockHolder hne)
    exact ih ⟨d, hd, hflag, pendingFutexOp_of_apply hd⟩

/-- The byte of a call, as far as it is one of `futex`, and the sentinel elsewhere. -/
def FutexSyscall.pending : FutexSyscall → U8
  | .futex op => op.setWidth 8
  | .futexWait | .futexWake => cakeFutexOpUnset

theorem Holding.enter (h : Holding held cakeFutexOpUnset ctx) (syscall : FutexSyscall) :
    Holding held syscall.pending (syscall.enter ctx) := by
  cases syscall with
  | futex op =>
    obtain ⟨c, rfl, rfl, -⟩ := h
    exact ⟨_, rfl, rfl, rfl⟩
  | futexWait | futexWake => exact h

/-- What the exit of a call stores is the verdict of the call, if it is the verdict of every
function that may serve it, and nothing where none does. -/
theorem FutexCall.stores_eq (call : FutexCall) {f : U64 → TaskCtx → TaskCtx}
    (hserved : ∀ p r, call.syscall.Serves p → f (r.signExtend 64) = verdictCtx (p.verdict r))
    (hfailed : ∀ ret : U64, ret.toInt < 0 → f ret = id)
    (hunprobed : call.syscall.Unprobed → ∀ ret, f ret = id) :
    f call.ret = verdictCtx call.verdict := by
  rw [verdict]
  match hran : call.ran with
  | some (p, r) =>
    obtain ⟨hserves, hret⟩ := call.served p r hran
    rw [hret]
    exact hserved p r hserves
  | none =>
    rcases call.refused hran with hneg | hcmd
    · exact hfailed call.ret hneg
    · exact hunprobed hcmd call.ret

/-- The switch looks up the byte, ... -/
theorem FutexCall.futexStores_eq (call : FutexCall) {op : U32} (hop : call.syscall = .futex op) :
    futexStores ((op.setWidth 8).setWidth 32 &&& cakeFutexCmdMask) call.ret
      = verdictCtx call.verdict := by
  rw [pending_and_cmdMask]
  refine call.stores_eq (fun p r hserves => ?_) (fun ret hneg => ?_) fun hcmd ret => ?_
  · rw [hop] at hserves
    obtain ⟨hcmd⟩ := hserves
    rw [(low_of_serves hcmd).1]
    exact futexStores_of_serves hcmd r
  · funext c
    exact futexStores_of_neg hneg _ c
  · rw [hop] at hcmd
    rw [(low_of_unprobed hcmd).1]
    funext c
    exact futexStores_of_unprobed hcmd ret c

/-- ... and the newer calls leave nothing to look up. -/
theorem FutexCall.waitStores_eq (call : FutexCall) (hwait : call.syscall = .futexWait) :
    verdictCtx (if call.ret = 0 then some true else none) = verdictCtx call.verdict := by
  refine call.stores_eq (f := fun ret => verdictCtx (if ret = 0 then some true else none))
    (fun p r hserves => ?_) (fun ret hneg => ?_) fun hcmd => ?_
  · rw [hwait] at hserves
    cases hserves
    simp only [signExtend_eq_zero, FutexProbe.verdict]
  · rw [if_neg (ne_zero_of_neg hneg)]
    rfl
  · rw [hwait] at hcmd
    exact hcmd.elim

theorem FutexCall.wakeStores_eq (call : FutexCall) (hwake : call.syscall = .futexWake) :
    verdictCtx (if 0 ≤ call.ret.toInt then some false else none) = verdictCtx call.verdict := by
  refine call.stores_eq (f := fun ret => verdictCtx (if 0 ≤ ret.toInt then some false else none))
    (fun p r hserves => ?_) (fun ret hneg => ?_) fun hcmd => ?_
  · rw [hwake] at hserves
    cases hserves
    simp only [signExtend_nonneg, FutexProbe.verdict]
  · rw [if_neg hneg.not_ge]
    rfl
  · rw [hwake] at hcmd
    exact hcmd.elim

/-- A call whose byte is the sentinel has no verdict. -/
theorem FutexCall.verdict_of_unset (call : FutexCall) {op : U32} (hop : call.syscall = .futex op)
    (hunset : op.setWidth 8 = cakeFutexOpUnset) : call.verdict = none := by
  rw [verdict]
  match hran : call.ran with
  | some (p, r) =>
    obtain ⟨hserves, -⟩ := call.served p r hran
    rw [hop] at hserves
    obtain ⟨hcmd⟩ := hserves
    obtain ⟨hlow, hne⟩ := low_of_serves hcmd
    exact absurd hunset (ne_unset hlow hne)
  | none => rfl

theorem imperatorTpExitFutex_of_unset (ret : U64) (h : c.pendingFutexOp = cakeFutexOpUnset) :
    imperatorTpExitFutex ret (some c) = some c :=
  congrArg some (if_pos h)

theorem imperatorTpExitFutex_of_pending (ret : U64) (h : c.pendingFutexOp ≠ cakeFutexOpUnset) :
    imperatorTpExitFutex ret (some c)
      = some { futexStores (c.pendingFutexOp.setWidth 32 &&& cakeFutexCmdMask) ret c with
          pendingFutexOp := cakeFutexOpUnset } :=
  congrArg some (if_neg h)

/-- **The exit tracepoint** stores the verdict of the call, and takes the byte back. -/
theorem Holding.exit (call : FutexCall) (h : Holding held call.syscall.pending ctx) :
    Holding (call.verdict.getD held) cakeFutexOpUnset (call.syscall.exit call.ret ctx) := by
  match hcall : call.syscall with
  | .futex op =>
    rw [hcall] at h
    obtain ⟨c, rfl, rfl, hbyte⟩ := h
    rw [FutexSyscall.exit]
    by_cases hunset : c.pendingFutexOp = cakeFutexOpUnset
    · rw [imperatorTpExitFutex_of_unset call.ret hunset,
        call.verdict_of_unset hcall (hbyte.symm.trans hunset)]
      exact ⟨c, rfl, rfl, hunset⟩
    · rw [imperatorTpExitFutex_of_pending call.ret hunset, hbyte, FutexSyscall.pending,
        call.futexStores_eq hcall]
      exact ⟨_, rfl, verdictCtx_holdsLock call.verdict c, rfl⟩
  | .futexWait =>
    rw [hcall] at h
    have hstores := h.verdict call.verdict
    rw [← call.waitStores_eq hcall, ← onAcquire_eq] at hstores
    exact hstores
  | .futexWake =>
    rw [hcall] at h
    have hstores := h.verdict call.verdict
    rw [← call.wakeStores_eq hcall, ← onRelease_eq] at hstores
    exact hstores

/-- **The probe** of the function, if one was run. -/
theorem Holding.fexit (call : FutexCall) (h : Holding held op ctx) :
    Holding (call.verdict.getD held) op
      (call.ran.elim ctx fun (p, r) => p.fexit r ctx) := by
  rw [FutexCall.verdict]
  match call.ran with
  | none => exact h
  | some (p, r) =>
    have hstored := h.verdict (p.verdict r)
    rw [← p.fexit_eq r ctx] at hstored
    exact hstored

/-- **One call** comes to its verdict, whatever is attached. -/
theorem Holding.run (h : Holding held cakeFutexOpUnset ctx) (a : Attached) (call : FutexCall) :
    Holding (call.verdict.getD held) cakeFutexOpUnset (call.run ro a ctx) := by
  have hbefore : Holding held cakeFutexOpUnset (runCallbacks ro call.before ctx) :=
    h.callbacks ro call.before
  cases a with
  | fexit => exact ((hbefore.callbacks ro call.inside).fexit call).callbacks ro call.returning
  | tracepoints =>
    have hinside := (hbefore.enter call.syscall).callbacks ro call.inside
    exact (hinside.callbacks ro call.returning).exit call
  | both =>
    have hprobed := ((hbefore.enter call.syscall).callbacks ro call.inside).fexit call
    have htwice := (hprobed.callbacks ro call.returning).exit call
    rw [getD_getD] at htwice
    exact htwice

/-! ### Any number of them -/

/-- The context after calls, one after the other. -/
def runCalls (ro : Rodata) (a : Attached) (calls : List FutexCall) (ctx : Option TaskCtx) :
    Option TaskCtx :=
  calls.foldl (fun ctx call => call.run ro a ctx) ctx

/-- The lock flag after calls: the verdict of the last one that has any. -/
def heldAfter (held : Bool) (calls : List FutexCall) : Bool :=
  calls.foldl (fun held call => call.verdict.getD held) held

theorem Holding.runCalls (ro : Rodata) (h : Holding held cakeFutexOpUnset ctx) (a : Attached)
    (calls : List FutexCall) :
    Holding (heldAfter held calls) cakeFutexOpUnset (runCalls ro a calls ctx) := by
  induction calls generalizing held ctx with
  | nil => exact h
  | cons call calls ih => exact ih (h.run a call)

/-- The pending operation of a context that only callbacks have written. -/
theorem pendingFutexOp_of_reachable (h : Reachable ro c) :
    c.pendingFutexOp = cakeFutexOpUnset := by
  obtain ⟨ops, hrun⟩ := h
  exact hrun.invariant_of_apply (I := fun c => c.pendingFutexOp = cakeFutexOpUnset) (fun _ => rfl)
    fun _ _ _ hc _ happly => (pendingFutexOp_of_apply happly).trans hc

/-- A private lock taken, and then an operation nobody knows whose byte is the sentinel. -/
def lockThenUnknown : List FutexCall :=
  [{ syscall := .futex (128 ||| 6)
     ret := 0
     ran := some (.lockPi, 0)
     served := by
       rintro p r ⟨⟩
       exact ⟨.futex .lockPi, rfl⟩
     refused := nofun
     before := [], inside := [], returning := [] },
   { syscall := .futex 0xFF
     ret := -38
     ran := none
     served := nofun
     refused := fun _ => .inl (by decide)
     before := [], inside := [], returning := [] }]

end Imperator
