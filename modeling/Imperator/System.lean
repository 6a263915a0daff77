import Imperator.TaskRun

/-!
# Tasks on CPUs

The callbacks of many tasks on all CPUs, one after the other. The kernel's side is which task runs
where and the clock: a task starts to run on a CPU that is free, is on one CPU at a time, and has
been enabled with success before; a stop and a tick are of the task on the CPU; and time does not
go back. What a callback writes in the context of its task is the event of that task's own life,
with the shared state the callback finds.

## Main definitions

* `System`, `Callback`, `System.next` — the machine
* `InOrder` — what the kernel promises about a callback

## Main results

* `SystemRun.taskRun` — every task of the system goes through a life of its own
* `SystemRun.placed` — a task on a CPU has a context, and is on no other CPU
-/

namespace Imperator

open Transition

variable {τ : Type*}

/-- The tasks, the shared state, and what the kernel knows: who runs where, and the time. -/
structure System (τ : Type*) where
  ctx : τ → Option TaskCtx
  bss : Bss
  onCpu : Cpu → Option τ
  clock : U64

/-- The callbacks, each for one task. -/
inductive Callback (τ : Type*)
  | enable (p : τ) (prio : U32) (alloc : Bool)
  | enqueue (p : τ) (env : EnqueueEnv)
  | running (p : τ) (cpu : Cpu) (now : U64)
  | tick (p : τ) (env : TickEnv)
  | stopping (p : τ) (cpu : Cpu) (now : U64) (runnable : Bool)

namespace Callback

/-- The task a callback is for. -/
def task : Callback τ → τ
  | enable p _ _ | enqueue p _ | running p _ _ | tick p _ | stopping p _ _ _ => p

/-- When a callback happens, where it reads the clock. -/
def time : Callback τ → Option U64
  | enable .. => none
  | enqueue _ env => some env.now
  | running _ _ now => some now
  | tick _ env => some env.now
  | stopping _ _ now _ => some now

/-- A callback as an event in the life of its task. -/
def taskOp (bss : Bss) : Callback τ → TaskOp
  | enable _ prio alloc => .enable prio alloc
  | enqueue _ env => .enqueue env bss
  | running _ cpu now => .running cpu now bss
  | tick _ env => .tick env bss
  | stopping _ cpu now runnable => .stopping cpu now runnable bss

/-- The shared state after a callback. -/
def bssAfter (ro : Rodata) (ctx : Option TaskCtx) (bss : Bss) : Callback τ → Bss
  | enable .. => bss
  | enqueue _ env => (imperatorEnqueue ro env ctx bss).bss
  | running _ cpu now => (imperatorRunning ro cpu now ctx bss).2
  | tick _ env => (imperatorTick ro env ctx bss).bss
  | stopping _ cpu now runnable => (imperatorStopping ro cpu now runnable ctx bss).2

/-- Who runs where after a callback. -/
def onCpuAfter (onCpu : Cpu → Option τ) : Callback τ → Cpu → Option τ
  | running p cpu _ => Function.update onCpu cpu (some p)
  | stopping _ cpu _ _ => Function.update onCpu cpu none
  | enable .. | enqueue .. | tick .. => onCpu

end Callback

variable [DecidableEq τ]

/-- The system after a callback. -/
def System.next (ro : Rodata) (s : System τ) (cb : Callback τ) : System τ where
  ctx := Function.update s.ctx cb.task ((cb.taskOp s.bss).apply ro (s.ctx cb.task))
  bss := cb.bssAfter ro (s.ctx cb.task) s.bss
  onCpu := cb.onCpuAfter s.onCpu
  clock := cb.time.getD s.clock

/-- The kernel's order. -/
def InOrder (s : System τ) (cb : Callback τ) : Prop :=
  (∀ now ∈ cb.time, s.clock ≤ now) ∧
    match cb with
    | .enable .. | .enqueue .. => True
    | .running p cpu _ => s.ctx p ≠ none ∧ s.onCpu cpu = none ∧ ∀ i, s.onCpu i ≠ some p
    | .tick p env => s.onCpu env.cpu = some p
    | .stopping p cpu _ _ => s.onCpu cpu = some p

/-- The same without the clock: who may run where. -/
def InPlace (s : System τ) : Callback τ → Prop
  | .enable .. | .enqueue .. => True
  | .running p cpu _ => s.ctx p ≠ none ∧ s.onCpu cpu = none ∧ ∀ i, s.onCpu i ≠ some p
  | .tick p env => s.onCpu env.cpu = some p
  | .stopping p cpu _ _ => s.onCpu cpu = some p

/-- The system once `imperator_init` is done: no contexts, and nothing running. -/
def System.init (ro : Rodata) : System τ := ⟨fun _ => none, initBss ro, fun _ => none, 0⟩

/-- One callback in the kernel's order. -/
def SystemStep (ro : Rodata) : System τ → Callback τ → System τ → Prop :=
  Guarded (ofNext (System.next ro)) InOrder

/-- The runs of the system. -/
def SystemRun (ro : Rodata) (cbs : List (Callback τ)) (s : System τ) : Prop :=
  Run (SystemStep ro) (System.init ro) cbs s

variable {ro : Rodata} {s : System τ} {cb : Callback τ} {cbs : List (Callback τ)} {p : τ}

omit [DecidableEq τ] in
theorem InOrder.inPlace (h : InOrder s cb) : InPlace s cb := by
  cases cb <;> exact h.2

@[simp] theorem System.next_ctx_of_ne (h : p ≠ cb.task) : (s.next ro cb).ctx p = s.ctx p :=
  Function.update_of_ne h _ _

theorem System.next_ctx_task :
    (s.next ro cb).ctx cb.task = (cb.taskOp s.bss).apply ro (s.ctx cb.task) :=
  Function.update_self _ _ _

/-- **The system simulates lives of tasks.** Each task of a system run has gone through a run of
its own, so what holds of every reachable context holds of every context in the system. -/
theorem SystemRun.taskRun (h : SystemRun ro cbs s) (p : τ) :
    ∃ ops, TaskRun ro anyOp ops (s.ctx p) := by
  have hinit : TaskRun ro anyOp [] ((System.init ro).ctx p) := Run.nil
  refine Run.invariant (I := fun s => ∃ ops, TaskRun ro anyOp ops (s.ctx p)) ?_ h ⟨[], hinit⟩
  rintro s cb _ ⟨ops, hops⟩ ⟨-, rfl⟩
  rcases eq_or_ne p cb.task with rfl | hne
  · exact ⟨_, Run.snoc hops ⟨trivial, System.next_ctx_task⟩⟩
  · rw [System.next_ctx_of_ne hne]
    exact ⟨ops, hops⟩

/-- What is true of who runs where. -/
structure Placed (s : System τ) : Prop where
  hasCtx : ∀ i p, s.onCpu i = some p → ∃ c, s.ctx p = some c
  oneCpu : ∀ i j p, s.onCpu i = some p → s.onCpu j = some p → i = j

/-- A context, once there, stays. -/
theorem System.next_ctx_isSome (ro : Rodata) (cb : Callback τ) (h : ∃ c, s.ctx p = some c) :
    ∃ c, (s.next ro cb).ctx p = some c := by
  rcases eq_or_ne p cb.task with rfl | hne
  · obtain ⟨c, hc⟩ := h
    rw [System.next_ctx_task, hc]
    exact apply_isSome ro c _
  · rw [System.next_ctx_of_ne hne]
    exact h

/-- After a callback, a CPU runs what it ran before, or the task that has just started there. -/
theorem onCpu_of_next {i : Cpu} (h : (s.next ro cb).onCpu i = some p) :
    s.onCpu i = some p ∨ ∃ now, cb = .running p i now := by
  cases cb with
  | running q cpu now =>
    change Function.update s.onCpu cpu (some q) i = some p at h
    rcases eq_or_ne i cpu with rfl | hne
    · rw [Function.update_self] at h
      obtain rfl := Option.some.inj h
      exact Or.inr ⟨now, rfl⟩
    · rw [Function.update_of_ne hne] at h
      exact Or.inl h
  | stopping q cpu now runnable =>
    change Function.update s.onCpu cpu none i = some p at h
    rcases eq_or_ne i cpu with rfl | hne
    · rw [Function.update_self] at h
      cases h
    · rw [Function.update_of_ne hne] at h
      exact Or.inl h
  | enable | enqueue | tick => exact Or.inl h

theorem placed_next (h : Placed s) (hplace : InPlace s cb) : Placed (s.next ro cb) := by
  constructor
  · intro i p hon
    rcases onCpu_of_next hon with hold | ⟨now, rfl⟩
    · exact System.next_ctx_isSome ro cb (h.hasCtx i p hold)
    · exact System.next_ctx_isSome ro _ (Option.ne_none_iff_exists'.mp hplace.1)
  · intro i j p hi hj
    rcases onCpu_of_next hi with hi' | ⟨now, hcb⟩
    · rcases onCpu_of_next hj with hj' | ⟨now, rfl⟩
      · exact h.oneCpu i j p hi' hj'
      · exact absurd hi' (hplace.2.2 i)
    · rcases onCpu_of_next hj with hj' | ⟨now', hcb'⟩
      · subst hcb
        exact absurd hj' (hplace.2.2 j)
      · injection hcb.symm.trans hcb'

omit [DecidableEq τ] in
theorem placed_init (ro : Rodata) : Placed (System.init ro : System τ) where
  hasCtx := fun _ _ hon => by cases hon
  oneCpu := fun _ _ _ hon => by cases hon

theorem SystemRun.placed (h : SystemRun ro cbs s) : Placed s := by
  refine Run.invariant ?_ h (placed_init ro)
  rintro s cb _ hplaced ⟨horder, rfl⟩
  exact placed_next hplaced horder.inPlace

end Imperator
