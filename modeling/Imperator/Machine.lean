import Imperator.Entries

/-!
# The scheduler as a whole

The machine of `Entries` knows what the callbacks do to contexts and shared state. Here it is put
between the two things it works on: the queues, which only the kernel's helpers touch, and the
tasks, which the kernel wakes, hands over, runs and stops. A callback is then more than a change of
state. What `imperator_select_cpu` and `imperator_enqueue` insert ends up in a queue, what
`imperator_dispatch` moves ends up in a local queue, and what lies there is run.

The kernel is the environment. It hands a task over by one of the two inserting callbacks, never
calls `imperator_enqueue` for a task that was inserted while its CPU was chosen, takes the next task
of a CPU from the front of its local queue, and may take a waiting task back, for instance to change
its affinity. `Permitted` says when it does what; the time only goes forward.

A callback is one step here. `LlcNonempty` has what happens between the accesses of two of them.

## Main definitions

* `Machine`, `KernelEvent`, `Machine.next` — the machine
* `Permitted` — what the kernel promises

## Main results

* `MachineRun.enters` — to the program's own state, a run is a run of its entry points
* `taken_imperatorDispatch` — what a dispatch takes, on any system
-/

namespace Imperator

open Transition

variable {τ : Type*}

/-- What the kernel knows of a task: not runnable, runnable and about to be handed over, or handed
over. -/
inductive Life
  | asleep
  | due
  | held
  deriving DecidableEq, Repr

/-- The program's own state, the affinity of the tasks, and where the tasks are. -/
structure Machine (τ : Type*) where
  sys : System τ
  allowed : τ → Cpu → Bool
  life : τ → Life
  dsq : Llc → List (Queued τ)
  localDsq : Cpu → List τ

/-- What the kernel does. -/
inductive KernelEvent (τ : Type*)
  /-- `imperator_enable` -/
  | enable (p : τ) (prio : U32) (alloc : Bool)
  /-- `imperator_init_task` -/
  | initTask (p : τ) (fork : Bool) (prio : U32) (parent : τ)
  /-- `set_lock_holder` and `clear_lock_holder` -/
  | lockHolder (p : τ) (held : Bool)
  /-- the affinity of a task changes -/
  | setAffinity (p : τ) (cpus : Cpu → Bool)
  /-- a task wakes up: `imperator_select_cpu` -/
  | wakeup (p : τ) (env : SelectEnv)
  /-- the same for a task that may run on one CPU only, which is not asked for -/
  | wakeupPinned (p : τ)
  /-- `imperator_enqueue` -/
  | enqueue (p : τ) (env : EnqueueEnv)
  /-- `imperator_dispatch` -/
  | dispatch (cpu : Cpu) (etd : Llc → Llc → U8)
  /-- the first task of a local queue starts to run: `imperator_running` -/
  | running (p : τ) (cpu : Cpu) (now : U64)
  /-- `imperator_tick` -/
  | tick (p : τ) (env : TickEnv)
  /-- `imperator_stopping` -/
  | stopping (p : τ) (cpu : Cpu) (now : U64) (runnable : Bool)
  /-- a task with some of its slice left goes back to the front of the local queue -/
  | putBack (p : τ) (cpu : Cpu)
  /-- a task is taken back from the queue of an LLC -/
  | dequeueShared (p : τ) (llc : Llc)
  /-- or from a local queue -/
  | dequeueLocal (p : τ) (cpu : Cpu)
  /-- a task that is not handed over goes away -/
  | leave (p : τ)

/-- When an event happens, where the program reads the clock. -/
def KernelEvent.time : KernelEvent τ → Option U64
  | .enqueue _ env => some env.now
  | .running _ _ now => some now
  | .tick _ env => some env.now
  | .stopping _ _ now _ => some now
  | _ => none

/-- A task added at the end of a local queue, if there is one to add. -/
def pushLocal (localDsq : Cpu → List τ) : Option (Cpu × τ) → Cpu → List τ
  | some (cpu, p) => Function.update localDsq cpu (localDsq cpu ++ [p])
  | none => localDsq

namespace Machine

/-- The entry point of the program an event goes through. -/
def entry (m : Machine τ) : KernelEvent τ → Option (Entry τ)
  | .enable p prio alloc => some (.callback (.enable p prio alloc))
  | .initTask p fork prio parent => some (.initTask p fork prio parent)
  | .lockHolder p held => some (.lockHolder p held)
  | .wakeup p env => some (.selectCpu p env)
  | .enqueue p env => some (.callback (.enqueue p env))
  | .dispatch cpu etd => some (.dispatch cpu etd (m.allowed · cpu) m.dsq)
  | .running p cpu now => some (.callback (.running p cpu now))
  | .tick p env => some (.callback (.tick p env))
  | .stopping p cpu now runnable => some (.callback (.stopping p cpu now runnable))
  | .setAffinity .. | .wakeupPinned .. | .putBack .. | .dequeueShared .. | .dequeueLocal ..
  | .leave .. => none

variable [DecidableEq τ]

/-- `imperator_select_cpu` for a task of the machine. -/
def select (ro : Rodata) (hy : HybridRodata) (m : Machine τ) (p : τ) (env : SelectEnv) :
    SelectResult :=
  imperatorSelectCpu ro hy env (m.sys.ctx p) m.sys.bss

/-- The call of `scx_bpf_dsq_insert_vtime` an enqueue makes. -/
def insertOf (ro : Rodata) (m : Machine τ) (p : τ) (env : EnqueueEnv) : DsqInsert :=
  (imperatorEnqueue ro env (m.sys.ctx p) m.sys.bss).insert

/-- `imperator_dispatch` on a CPU of the machine. -/
def dispatchOn (ro : Rodata) (m : Machine τ) (cpu : Cpu) (etd : Llc → Llc → U8) :
    DispatchState τ :=
  imperatorDispatch ro etd (m.allowed · cpu) cpu m.dsq m.sys.bss.llcNonempty

/-- What becomes of the task an event is about. -/
def lifeAfter (ro : Rodata) (hy : HybridRodata) (m : Machine τ) : KernelEvent τ → τ → Life
  | .wakeup p env =>
    Function.update m.life p (if (m.select ro hy p env).insert.isSome then .held else .due)
  | .wakeupPinned p | .dequeueShared p _ | .dequeueLocal p _ => Function.update m.life p .due
  | .enqueue p _ | .putBack p _ => Function.update m.life p .held
  | .stopping p _ _ runnable => Function.update m.life p (if runnable then .due else .asleep)
  | .leave p => Function.update m.life p .asleep
  | .enable .. | .initTask .. | .lockHolder .. | .setAffinity .. | .dispatch .. | .running ..
  | .tick .. => m.life

/-- The queues of the LLCs after an event. -/
def dsqAfter (ro : Rodata) (m : Machine τ) : KernelEvent τ → Llc → List (Queued τ)
  | .enqueue p env =>
    let ins := m.insertOf ro p env
    Function.update m.dsq ins.llc (dsqInsertVtime ⟨p, ins⟩ (m.dsq ins.llc))
  | .dispatch cpu etd => (m.dispatchOn ro cpu etd).dsq
  | .dequeueShared p llc => Function.update m.dsq llc ((m.dsq llc).eraseP (·.task = p))
  | _ => m.dsq

/-- The local queues after an event. -/
def localAfter (ro : Rodata) (hy : HybridRodata) (m : Machine τ) : KernelEvent τ → Cpu → List τ
  | .wakeup p env =>
    pushLocal m.localDsq ((m.select ro hy p env).insert.map fun ins => (ins.cpu, p))
  | .dispatch cpu etd =>
    pushLocal m.localDsq ((m.dispatchOn ro cpu etd).moved.map fun moved => (cpu, moved.2.task))
  | .running _ cpu _ => Function.update m.localDsq cpu (m.localDsq cpu).tail
  | .putBack p cpu => Function.update m.localDsq cpu (p :: m.localDsq cpu)
  | .dequeueLocal p cpu => Function.update m.localDsq cpu ((m.localDsq cpu).erase p)
  | _ => m.localDsq

/-- The machine after an event. -/
def next (ro : Rodata) (hy : HybridRodata) (m : Machine τ) (ev : KernelEvent τ) : Machine τ where
  sys := (m.entry ev).elim m.sys (m.sys.enter ro hy)
  allowed :=
    match ev with
    | .setAffinity p cpus => Function.update m.allowed p cpus
    | _ => m.allowed
  life := m.lifeAfter ro hy ev
  dsq := m.dsqAfter ro ev
  localDsq := m.localAfter ro hy ev

/-- Attached, with nothing handed over. -/
def init (ro : Rodata) (allowed : τ → Cpu → Bool) : Machine τ :=
  ⟨System.init ro, allowed, fun _ => .asleep, fun _ => [], fun _ => []⟩

end Machine

/-- When the kernel does what. A CPU it finds idle for a task is one the task may run on. -/
def Offered (m : Machine τ) : KernelEvent τ → Prop
  | .enable .. | .lockHolder .. | .dispatch .. => True
  | .initTask p _ _ _ | .setAffinity p _ => m.life p ≠ .held
  | .wakeup p env => m.life p = .asleep ∧ env.allowed = m.allowed p ∧
      (env.search.2 = true → m.allowed p env.search.1 = true) ∧
      ∀ cpu, (env.searchFrom cpu).2 = true → m.allowed p (env.searchFrom cpu).1 = true
  | .wakeupPinned p => m.life p = .asleep
  | .enqueue p _ | .leave p => m.life p = .due
  | .running p cpu _ => (m.localDsq cpu).head? = some p ∧ m.sys.onCpu cpu = none
  | .tick p env => m.sys.onCpu env.cpu = some p
  | .stopping p cpu _ _ => m.sys.onCpu cpu = some p
  | .putBack p cpu => m.life p = .due ∧ m.allowed p cpu = true
  | .dequeueShared p llc => p ∈ (m.dsq llc).map Queued.task
  | .dequeueLocal p cpu => p ∈ m.localDsq cpu

/-- What the kernel promises. -/
def Permitted (m : Machine τ) (ev : KernelEvent τ) : Prop :=
  (∀ now ∈ ev.time, m.sys.clock ≤ now) ∧ Offered m ev

variable [DecidableEq τ]

instance (m : Machine τ) : DecidablePred (Offered m)
  | .enable .. | .lockHolder .. | .dispatch .. => inferInstanceAs (Decidable True)
  | .initTask .. | .setAffinity .. => inferInstanceAs (Decidable (_ ≠ _))
  | .wakeup .. | .running .. | .putBack .. => inferInstanceAs (Decidable (_ ∧ _))
  | .wakeupPinned _ | .enqueue .. | .leave _ | .tick .. | .stopping .. =>
    inferInstanceAs (Decidable (_ = _))
  | .dequeueShared .. | .dequeueLocal .. => inferInstanceAs (Decidable (_ ∈ _))

instance (m : Machine τ) : DecidablePred (Permitted m) := fun ev =>
  @instDecidableAnd _ _ (Option.decidableForallMem ev.time) _

/-- One event. -/
def MachineStep (ro : Rodata) (hy : HybridRodata) :
    Machine τ → KernelEvent τ → Machine τ → Prop :=
  Guarded (ofNext (Machine.next ro hy)) Permitted

/-- The runs of the machine. -/
def MachineRun (ro : Rodata) (hy : HybridRodata) (allowed : τ → Cpu → Bool)
    (evs : List (KernelEvent τ)) (m : Machine τ) : Prop :=
  Run (MachineStep ro hy) (Machine.init ro allowed) evs m

variable {ro : Rodata} {hy : HybridRodata} {allowed : τ → Cpu → Bool} {m m' : Machine τ}
  {ev : KernelEvent τ} {evs : List (KernelEvent τ)} {p : τ} {cpu : Cpu} {llc : Llc}

/-- **To the program's own state, a run of the machine is a run of its entry points.** -/
theorem MachineRun.enters (h : MachineRun ro hy allowed evs m) :
    ∃ es, Run (ofNext (System.enter ro hy)) (System.init ro) es m.sys := by
  refine Run.invariant
    (I := fun m => ∃ es, Run (ofNext (System.enter ro hy)) (System.init ro) es m.sys) ?_ h
    ⟨[], Run.nil⟩
  rintro m ev _ ⟨es, hes⟩ ⟨-, rfl⟩
  show ∃ es, Run _ _ es ((m.entry ev).elim m.sys (m.sys.enter ro hy))
  cases m.entry ev with
  | none => exact ⟨es, hes⟩
  | some e => exact ⟨es ++ [e], hes.snoc rfl⟩

/-! ### What a dispatch takes -/

/-- A search has taken the first task for its CPU out of a queue, or nothing at all. -/
structure Taken (allowed : τ → Bool) (dsq : Llc → List (Queued τ)) (s : DispatchState τ) :
    Prop where
  dsq_eq : s.dsq = takeMoved allowed dsq s.moved
  first : ∀ llc e, s.moved = some (llc, e) → firstAllowed allowed dsq llc = some e

section Taken

omit [DecidableEq τ]

variable {suits : τ → Bool} {dsq : Llc → List (Queued τ)} {s : DispatchState τ}

theorem taken_probe (h : Taken suits dsq s) (hnone : s.moved = none) (llc : Llc) :
    Taken suits dsq (s.probe suits llc) := by
  have hdsq : s.dsq = dsq := by rw [h.dsq_eq, hnone, takeMoved]
  rcases hfirst : firstAllowed suits s.dsq llc with _ | e
  · rw [probe_of_none hfirst]
    exact ⟨h.dsq_eq, h.first⟩
  · rw [probe_of_some hfirst]
    refine ⟨by rw [hdsq, takeMoved], fun llc' e' hmoved => ?_⟩
    obtain ⟨rfl, rfl⟩ := Prod.mk.inj (Option.some.inj hmoved)
    rwa [← hdsq]

theorem taken_stealLoop (rounds : ℕ) (stealMask : U32) (h : Taken suits dsq s)
    (hnone : s.moved = none) : Taken suits dsq (stealLoop suits rounds stealMask s) := by
  induction rounds generalizing stealMask s with
  | zero => exact h
  | succ rounds ih =>
    rw [stealLoop]
    split
    · exact h
    · have hprobe := taken_probe h hnone (Fin.ofNat 8 stealMask.scanForward)
      dsimp only
      split
      · exact hprobe
      · next hmoved => exact ih _ hprobe (Option.not_isSome_iff_eq_none.mp hmoved)

/-- **What a dispatch takes**, on any system. -/
theorem taken_imperatorDispatch (ro : Rodata) (etd : Llc → Llc → U8) (suits : τ → Bool) (cpu : Cpu)
    (dsq : Llc → List (Queued τ)) (nonempty : Llc → U8) :
    Taken suits dsq (imperatorDispatch ro etd suits cpu dsq nonempty) := by
  have hstart : Taken suits dsq ⟨dsq, nonempty, none, []⟩ :=
    ⟨rfl, fun llc e hmoved => by cases hmoved⟩
  have hhome := taken_probe hstart rfl (ro.llcOf cpu)
  rw [imperatorDispatch]
  dsimp only
  generalize DispatchState.probe suits ⟨dsq, nonempty, none, []⟩ (ro.llcOf cpu) = s at hhome
  split
  · exact hhome
  · next hmoved =>
    have hnone := Option.not_isSome_iff_eq_none.mp hmoved
    split
    · exact hhome
    · split
      · have hcheap := taken_probe hhome hnone
          (llcIdx (stealScan ro etd cpu s.nonempty ro.nrLlcs.toNat).cheapestLlc)
        split
        · exact hcheap
        · next hmoved' =>
          exact taken_stealLoop _ _ hcheap (Option.not_isSome_iff_eq_none.mp hmoved')
      · exact taken_stealLoop _ _ hhome hnone

end Taken

end Imperator
