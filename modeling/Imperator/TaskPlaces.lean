import Imperator.ForMathlib.Custody
import Imperator.ForMathlib.QueueRank
import Imperator.Machine

/-!
# Where the tasks are

A task that is handed over is in the queue of an LLC, in the local queue of a CPU, or on a CPU. The
program never sees these as one thing: it inserts in two callbacks and moves in a third, and the
rest is the kernel's. That nothing is lost on the way, that nothing is there twice, and that a task
never comes to a CPU it may not run on, are facts about all of it together.

The places are containers in the sense of `Custody`, and each event of the machine is one of its
three moves.

## Main definitions

* `Site`, `Machine.content` — the places, and who is there
* `InCustody`, `Pinned` — what holds in every state

## Main results

* `MachineRun.custody` — no task is lost, and none is in two places
* `MachineRun.pinned` — a task waits for, and runs on, CPUs it may run on
-/

namespace Imperator

open Transition

variable {τ : Type*} [DecidableEq τ] {ro : Rodata} {hy : HybridRodata} {allowed : τ → Cpu → Bool}
  {m : Machine τ} {ev : KernelEvent τ} {evs : List (KernelEvent τ)} {p : τ} {cpu : Cpu} {llc : Llc}

/-! ### The places -/

/-- A place for a task that is handed over. -/
inductive Site
  | shared (llc : Llc)
  | localDsq (cpu : Cpu)
  | onCpu (cpu : Cpu)
  deriving DecidableEq, Repr

/-- The tasks in a place. -/
def sites (dsq : Llc → List (Queued τ)) (localDsq : Cpu → List τ) (onCpu : Cpu → Option τ) :
    Site → List τ
  | .shared llc => (dsq llc).map Queued.task
  | .localDsq cpu => localDsq cpu
  | .onCpu cpu => (onCpu cpu).toList

/-- The tasks in a place of the machine. -/
def Machine.content (m : Machine τ) : Site → List τ := sites m.dsq m.localDsq m.sys.onCpu

section Sites

omit [DecidableEq τ]

variable (dsq : Llc → List (Queued τ)) (localDsq : Cpu → List τ) (onCpu : Cpu → Option τ)

theorem sites_update_dsq (llc : Llc) (q : List (Queued τ)) :
    sites (Function.update dsq llc q) localDsq onCpu
      = Function.update (sites dsq localDsq onCpu) (.shared llc) (q.map Queued.task) := by
  funext k
  rcases eq_or_ne k (.shared llc) with rfl | hne
  · rw [Function.update_self, sites, Function.update_self]
  · rw [Function.update_of_ne hne]
    cases k with
    | shared llc' =>
      have hllc : llc' ≠ llc := fun heq => hne (congrArg _ heq)
      rw [sites, sites, Function.update_of_ne hllc]
    | localDsq | onCpu => rfl

theorem sites_update_localDsq (cpu : Cpu) (q : List τ) :
    sites dsq (Function.update localDsq cpu q) onCpu
      = Function.update (sites dsq localDsq onCpu) (.localDsq cpu) q := by
  funext k
  rcases eq_or_ne k (.localDsq cpu) with rfl | hne
  · rw [Function.update_self, sites, Function.update_self]
  · rw [Function.update_of_ne hne]
    cases k with
    | localDsq cpu' =>
      have hcpu : cpu' ≠ cpu := fun heq => hne (congrArg _ heq)
      rw [sites, sites, Function.update_of_ne hcpu]
    | shared | onCpu => rfl

theorem sites_update_onCpu (cpu : Cpu) (o : Option τ) :
    sites dsq localDsq (Function.update onCpu cpu o)
      = Function.update (sites dsq localDsq onCpu) (.onCpu cpu) o.toList := by
  funext k
  rcases eq_or_ne k (.onCpu cpu) with rfl | hne
  · rw [Function.update_self, sites, Function.update_self]
  · rw [Function.update_of_ne hne]
    cases k with
    | onCpu cpu' =>
      have hcpu : cpu' ≠ cpu := fun heq => hne (congrArg _ heq)
      rw [sites, sites, Function.update_of_ne hcpu]
    | shared | localDsq => rfl

end Sites

/-- A task that is handed over. -/
def Machine.Held (m : Machine τ) (p : τ) : Prop := m.life p = .held

/-- Every task that is handed over is in one place. -/
def InCustody (m : Machine τ) : Prop := Custody m.Held m.content

theorem held_update_held {life : τ → Life} (y : τ) :
    Function.update life p .held y = .held ↔ y = p ∨ life y = .held := by
  rcases eq_or_ne y p with rfl | hne
  · simp
  · rw [Function.update_of_ne hne]
    exact (or_iff_right hne).symm

theorem held_update_of_ne {life : τ → Life} {s : Life} (hs : s ≠ .held) (y : τ) :
    Function.update life p s y = .held ↔ y ≠ p ∧ life y = .held := by
  rcases eq_or_ne y p with rfl | hne
  · simp [hs]
  · rw [Function.update_of_ne hne]
    exact (and_iff_right hne).symm

/-- A task that was not handed over, and is not now. -/
theorem held_update_iff {life : τ → Life} {s : Life} (hs : s ≠ .held) (hp : life p ≠ .held)
    (y : τ) : Function.update life p s y = .held ↔ life y = .held := by
  rw [held_update_of_ne hs]
  exact and_iff_right_of_imp fun hy heq => hp (heq ▸ hy)

/-- A task is inserted while its CPU is chosen, or is due to be enqueued. -/
theorem inCustody_wakeup {env : SelectEnv} (h : InCustody m) (hp : m.life p = .asleep) :
    InCustody (m.next ro hy (.wakeup p env)) := by
  have hfree : ¬ m.Held p := fun hheld => by cases hp.symm.trans hheld
  have hcontent : (m.next ro hy (.wakeup p env)).content = sites m.dsq
      (pushLocal m.localDsq ((m.select ro hy p env).insert.map fun ins => (ins.cpu, p)))
      m.sys.onCpu := rfl
  have hlife : (m.next ro hy (.wakeup p env)).life = Function.update m.life p
      (if (m.select ro hy p env).insert.isSome then .held else .due) := rfl
  rw [InCustody, hcontent]
  cases hins : (m.select ro hy p env).insert with
  | none =>
    rw [hins] at hlife
    refine Custody.congr h fun y => ?_
    rw [Machine.Held, hlife]
    exact held_update_iff (by decide) hfree y
  | some ins =>
    rw [hins] at hlife
    rw [Option.map_some, pushLocal, sites_update_localDsq]
    refine Custody.put h hfree (List.perm_append_singleton p (m.localDsq ins.cpu)) fun y => ?_
    rw [Machine.Held, hlife]
    exact held_update_held y

/-- A task is queued. -/
theorem inCustody_enqueue {env : EnqueueEnv} (h : InCustody m) (hp : m.life p = .due) :
    InCustody (m.next ro hy (.enqueue p env)) := by
  have hfree : ¬ m.Held p := fun hheld => by cases hp.symm.trans hheld
  let ins := m.insertOf ro p env
  have hcontent : (m.next ro hy (.enqueue p env)).content = sites
      (Function.update m.dsq ins.llc (dsqInsertVtime ⟨p, ins⟩ (m.dsq ins.llc))) m.localDsq
      m.sys.onCpu := rfl
  have hperm : ((dsqInsertVtime ⟨p, ins⟩ (m.dsq ins.llc)).map Queued.task).Perm
      (p :: m.content (.shared ins.llc)) :=
    (List.perm_orderedInsert _ _ (m.dsq ins.llc)).map Queued.task
  rw [InCustody, hcontent, sites_update_dsq]
  exact Custody.put h hfree hperm held_update_held

/-- A task is moved to the local queue of a CPU, or none is. -/
theorem inCustody_dispatch {etd : Llc → Llc → U8} (h : InCustody m) :
    InCustody (m.next ro hy (.dispatch cpu etd)) := by
  have htaken : Taken (m.allowed · cpu) m.dsq (m.dispatchOn ro cpu etd) :=
    taken_imperatorDispatch ..
  have hcontent : (m.next ro hy (.dispatch cpu etd)).content = sites (m.dispatchOn ro cpu etd).dsq
      (pushLocal m.localDsq ((m.dispatchOn ro cpu etd).moved.map fun x => (cpu, x.2.task)))
      m.sys.onCpu := rfl
  rw [InCustody, hcontent, htaken.dsq_eq]
  cases hmoved : (m.dispatchOn ro cpu etd).moved with
  | none => exact h
  | some moved =>
    obtain ⟨llc, e⟩ := moved
    have hperm : (m.content (.shared llc)).Perm
        (e.task :: ((m.dsq llc).eraseP fun e => m.allowed e.task cpu).map Queued.task) :=
      (List.perm_cons_eraseP (htaken.first llc e hmoved)).map Queued.task
    rw [Option.map_some, takeMoved, pushLocal, sites_update_localDsq, sites_update_dsq]
    exact Custody.move h hperm (List.perm_append_singleton e.task (m.localDsq cpu))

/-- A task starts to run. -/
theorem inCustody_running {now : U64} (h : InCustody m)
    (hhead : (m.localDsq cpu).head? = some p) (hfree : m.sys.onCpu cpu = none) :
    InCustody (m.next ro hy (.running p cpu now)) := by
  have hcontent : (m.next ro hy (.running p cpu now)).content = sites m.dsq
      (Function.update m.localDsq cpu (m.localDsq cpu).tail)
      (Function.update m.sys.onCpu cpu (some p)) := rfl
  have hempty : m.content (.onCpu cpu) = [] := by
    show (m.sys.onCpu cpu).toList = []
    rw [hfree, Option.toList_none]
  rw [InCustody, hcontent, sites_update_onCpu, sites_update_localDsq]
  refine Custody.move (x := p) h ?_ ?_
  · show (m.localDsq cpu).Perm (p :: (m.localDsq cpu).tail)
    rw [List.cons_head?_tail hhead]
  · rw [Function.update_of_ne (by simp)]
    show [p].Perm (p :: m.content (.onCpu cpu))
    rw [hempty]

/-- A task stops. -/
theorem inCustody_stopping {now : U64} {runnable : Bool} (h : InCustody m)
    (hon : m.sys.onCpu cpu = some p) : InCustody (m.next ro hy (.stopping p cpu now runnable)) := by
  have hcontent : (m.next ro hy (.stopping p cpu now runnable)).content = sites m.dsq m.localDsq
      (Function.update m.sys.onCpu cpu none) := rfl
  rw [InCustody, hcontent, sites_update_onCpu]
  refine Custody.take h ?_ (held_update_of_ne ?_)
  · show (m.sys.onCpu cpu).toList.Perm [p]
    rw [hon, Option.toList_some]
  · cases runnable <;> decide

/-- A task is taken back from a queue. -/
theorem inCustody_dequeueShared (h : InCustody m) (hp : p ∈ (m.dsq llc).map Queued.task) :
    InCustody (m.next ro hy (.dequeueShared p llc)) := by
  have hcontent : (m.next ro hy (.dequeueShared p llc)).content = sites
      (Function.update m.dsq llc ((m.dsq llc).eraseP (·.task = p))) m.localDsq m.sys.onCpu := rfl
  obtain ⟨e, he, rfl⟩ := List.mem_map.mp hp
  obtain ⟨x, hx⟩ := Option.isSome_iff_exists.mp
    (List.find?_isSome (p := fun x : Queued τ => x.task = e.task) |>.mpr ⟨e, he, by simp⟩)
  have htask : x.task = e.task := by simpa using List.find?_some hx
  have hperm := (List.perm_cons_eraseP hx).map Queued.task
  rw [InCustody, hcontent, sites_update_dsq]
  rw [List.map_cons, htask] at hperm
  exact Custody.take h hperm (held_update_of_ne (by decide))

theorem inCustody_dequeueLocal (h : InCustody m) (hp : p ∈ m.localDsq cpu) :
    InCustody (m.next ro hy (.dequeueLocal p cpu)) := by
  have hcontent : (m.next ro hy (.dequeueLocal p cpu)).content = sites m.dsq
      (Function.update m.localDsq cpu ((m.localDsq cpu).erase p)) m.sys.onCpu := rfl
  rw [InCustody, hcontent, sites_update_localDsq]
  exact Custody.take h (List.perm_cons_erase hp) (held_update_of_ne (by decide))

/-- **One event.** -/
theorem inCustody_next (h : InCustody m) (hev : Permitted m ev) :
    InCustody (m.next ro hy ev) := by
  cases ev with
  | enable | initTask | lockHolder | setAffinity | tick => exact h
  | wakeup p env => exact inCustody_wakeup h hev.2.1
  | wakeupPinned p =>
    have hasleep : m.life p = .asleep := hev.2
    refine Custody.congr h (held_update_iff (by decide) ?_)
    rw [hasleep]
    decide
  | enqueue p env => exact inCustody_enqueue h hev.2
  | dispatch cpu etd => exact inCustody_dispatch h
  | running p cpu now => exact inCustody_running h hev.2.1 hev.2.2
  | stopping p cpu now runnable => exact inCustody_stopping h hev.2
  | putBack p cpu =>
    have hfree : ¬ m.Held p := fun hheld => by cases hev.2.1.symm.trans hheld
    have hcontent : (m.next ro hy (.putBack p cpu)).content = sites m.dsq
        (Function.update m.localDsq cpu (p :: m.localDsq cpu)) m.sys.onCpu := rfl
    rw [InCustody, hcontent, sites_update_localDsq]
    exact Custody.put h hfree (List.Perm.refl (p :: m.localDsq cpu)) held_update_held
  | dequeueShared p llc => exact inCustody_dequeueShared h hev.2
  | dequeueLocal p cpu => exact inCustody_dequeueLocal h hev.2
  | leave p =>
    have hdue : m.life p = .due := hev.2
    refine Custody.congr h (held_update_iff (by decide) ?_)
    rw [hdue]
    decide

omit [DecidableEq τ] in
theorem inCustody_init (ro : Rodata) (allowed : τ → Cpu → Bool) :
    InCustody (Machine.init ro allowed) := by
  refine Custody.empty (fun p hp => by cases hp) fun k => ?_
  cases k <;> rfl

theorem inCustody_of_run (h : MachineRun ro hy allowed evs m) : InCustody m := by
  refine Run.invariant ?_ h (inCustody_init ro allowed)
  rintro m ev _ hm ⟨hev, rfl⟩
  exact inCustody_next hm hev

/-- Tasks wait for, and run on, CPUs they may run on. -/
def Pinned (m : Machine τ) : Prop :=
  ∀ p cpu, p ∈ m.localDsq cpu ∨ m.sys.onCpu cpu = some p → m.allowed p cpu = true

omit [DecidableEq τ] in
theorem mem_pushLocal {localDsq : Cpu → List τ} {new : Option (Cpu × τ)}
    (h : p ∈ pushLocal localDsq new cpu) : p ∈ localDsq cpu ∨ new = some (cpu, p) := by
  cases new with
  | none => exact Or.inl h
  | some new =>
    obtain ⟨cpu', q⟩ := new
    rw [pushLocal] at h
    rcases eq_or_ne cpu cpu' with rfl | hne
    · rw [Function.update_self, List.mem_append, List.mem_singleton] at h
      exact h.imp_right fun heq => by rw [heq]
    · rw [Function.update_of_ne hne] at h
      exact Or.inl h

omit [DecidableEq τ] in
/-- The CPU of a direct dispatch is one the kernel has found for the task. -/
theorem select_cpu_allowed {env : SelectEnv} {ins : LocalInsert}
    (hfound : env.search.2 = true → m.allowed p env.search.1 = true)
    (hfrom : ∀ cpu, (env.searchFrom cpu).2 = true → m.allowed p (env.searchFrom cpu).1 = true)
    (hins : (m.select ro hy p env).insert = some ins) : m.allowed p ins.cpu = true := by
  have hcpu := (imperatorSelectCpu_cpu ro hy env (m.sys.ctx p) m.sys.bss).2
  rw [show (imperatorSelectCpu ro hy env (m.sys.ctx p) m.sys.bss).insert = some ins from hins,
    Option.map_some] at hcpu
  split at hcpu
  · next hidle =>
    rw [Option.some.inj hcpu, hybridCpu]
    split
    · split
      · split
        · next hagain => exact hfrom _ hagain
        · exact hfound hidle
      · exact hfound hidle
    · exact hfound hidle
  · cases hcpu

/-- On CPUs, an event leaves what was there, or starts the first task of the local queue. -/
theorem onCpu_next {i : Cpu} (h : (m.next ro hy ev).sys.onCpu i = some p) :
    m.sys.onCpu i = some p ∨ ∃ now, ev = .running p i now := by
  cases ev with
  | enable | enqueue | tick | setAffinity | wakeupPinned | putBack | dequeueShared | dequeueLocal
  | leave | initTask | lockHolder | wakeup | dispatch => exact Or.inl h
  | running q cpu now =>
    refine (onCpu_of_next h).imp_right ?_
    rintro ⟨now', heq⟩
    injection heq with hq hcpu hnow
    exact ⟨now, by rw [hq, hcpu]⟩
  | stopping q cpu now runnable =>
    refine (onCpu_of_next h).imp_right ?_
    rintro ⟨now', heq⟩
    cases heq

/-- In local queues, an event leaves what was there, or adds a task that may run on the CPU. -/
theorem localDsq_next {i : Cpu} (hev : Permitted m ev) (h : p ∈ (m.next ro hy ev).localDsq i) :
    p ∈ m.localDsq i ∨ m.allowed p i = true := by
  have hold : ∀ {cpu : Cpu} {q : List τ}, q ⊆ m.localDsq cpu →
      p ∈ Function.update m.localDsq cpu q i → p ∈ m.localDsq i := by
    intro cpu q hsub hmem
    rcases eq_or_ne i cpu with rfl | hne
    · rw [Function.update_self] at hmem
      exact hsub hmem
    · rwa [Function.update_of_ne hne] at hmem
  cases ev with
  | enable | enqueue | tick | setAffinity | wakeupPinned | dequeueShared | leave | initTask
  | lockHolder | stopping => exact Or.inl h
  | wakeup q env =>
    refine (mem_pushLocal h).imp_right fun hnew => ?_
    obtain ⟨ins, hins, heq⟩ := Option.map_eq_some_iff.mp hnew
    obtain ⟨rfl, rfl⟩ := Prod.mk.inj heq
    exact select_cpu_allowed hev.2.2.2.1 hev.2.2.2.2 hins
  | dispatch cpu etd =>
    refine (mem_pushLocal h).imp_right fun hnew => ?_
    obtain ⟨⟨llc, e⟩, hmoved, heq⟩ := Option.map_eq_some_iff.mp hnew
    obtain ⟨rfl, rfl⟩ := Prod.mk.inj heq
    have hfirst := (taken_imperatorDispatch ro etd (m.allowed · cpu) cpu m.dsq
      m.sys.bss.llcNonempty).first llc e hmoved
    simpa using List.find?_some hfirst
  | running q cpu now => exact Or.inl (hold (List.tail_subset _) h)
  | putBack q cpu =>
    change p ∈ Function.update m.localDsq cpu (q :: m.localDsq cpu) i at h
    rcases eq_or_ne i cpu with rfl | hne
    · rw [Function.update_self] at h
      rcases List.mem_cons.mp h with rfl | hmem
      · exact Or.inr hev.2.2
      · exact Or.inl hmem
    · rw [Function.update_of_ne hne] at h
      exact Or.inl h
  | dequeueLocal q cpu => exact Or.inl (hold List.erase_subset h)

theorem pinned_next (hcustody : InCustody m) (h : Pinned m) (hev : Permitted m ev) :
    Pinned (m.next ro hy ev) := by
  intro p i hp
  have hbefore : m.allowed p i = true := by
    rcases hp with hmem | hon
    · exact (localDsq_next hev hmem).elim (fun hold => h p i (Or.inl hold)) id
    · rcases onCpu_next hon with hold | ⟨now, rfl⟩
      · exact h p i (Or.inr hold)
      · exact h p i (Or.inl (List.mem_of_mem_head? hev.2.1))
  cases ev with
  | setAffinity q cpus =>
    -- the affinity changes only while the task is nowhere
    have hne : p ≠ q := by
      rintro rfl
      refine hev.2 (hcustody.held_of_mem
        (k := if p ∈ m.localDsq i then .localDsq i else .onCpu i) ?_)
      split
      · next hmem => exact hmem
      · next hnot =>
        have hon : m.sys.onCpu i = some p := hp.resolve_left hnot
        show p ∈ (m.sys.onCpu i).toList
        rw [hon, Option.toList_some]
        exact List.mem_singleton_self p
    show Function.update m.allowed q cpus p i = true
    rwa [Function.update_of_ne hne]
  | enable | enqueue | tick | wakeupPinned | putBack | dequeueShared | dequeueLocal | leave
  | initTask | lockHolder | wakeup | dispatch | running | stopping => exact hbefore

/-- **A task only runs where it may.** In every state a run reaches, the tasks in a local queue and
the one on the CPU are allowed on that CPU, whatever was stolen from where, and however often the
affinities have changed. -/
theorem MachineRun.pinned (h : MachineRun ro hy allowed evs m) :
    ∀ p cpu, p ∈ m.localDsq cpu ∨ m.sys.onCpu cpu = some p → m.allowed p cpu = true := by
  refine (Run.invariant (I := fun m => InCustody m ∧ Pinned m) ?_ h
    ⟨inCustody_init ro allowed, fun p cpu hp => ?_⟩).2
  · rintro m ev _ ⟨hcustody, hpinned⟩ ⟨hev, rfl⟩
    exact ⟨inCustody_next hcustody hev, pinned_next hcustody hpinned hev⟩
  · rcases hp with hp | hp <;> cases hp

/-- Two LLCs of one CPU each. -/
def twoLlcs : Rodata :=
  { defaultRodata with nrLlcs := 2, nrCpus := 2, cpuLlcId := fun cpu => if cpu = 0 then 0 else 1 }

/-- The second task may not run on CPU 0. -/
def offFirstCpu (p : Bool) (cpu : Cpu) : Bool := !p || cpu != 0

/-- A wakeup on CPU 0, which the kernel finds idle or not. -/
def wakeOn (p idle : Bool) : SelectEnv :=
  ⟨0, 0, false, false, false, none, (0, idle), fun _ => (0, false), offFirstCpu p⟩

/-- The first task finds CPU 0 idle. The second one waits in the LLC of CPU 0, is stolen by CPU 1
and runs there, and is queued again when its slice expires. -/
def stolenTask : List (KernelEvent Bool) :=
  [.enable false 120 true, .enable true 120 true,
    .wakeup false (wakeOn false true), .running false 0 1000,
    .wakeup true (wakeOn true false), .enqueue true ⟨0, 0, 2000, false, ⟨true, false⟩⟩,
    .dispatch 1 (fun _ _ => 0), .running true 1 3000,
    .stopping true 1 4000 true, .enqueue true ⟨1, 1, 4000, false, ⟨false, false⟩⟩]

/-- The machine after that. -/
def stolenTaskEnd : Machine Bool :=
  stolenTask.foldl (Machine.next twoLlcs noHybrid) (Machine.init twoLlcs offFirstCpu)

theorem stolenTask_run : MachineRun twoLlcs noHybrid offFirstCpu stolenTask stolenTaskEnd :=
  Run.foldl_of_admits (by decide +kernel)

/-- CPU 0 still runs the first task. -/
theorem stolenTask_pinned :
    stolenTaskEnd.sys.onCpu 0 = some false ∧ stolenTaskEnd.allowed false 0 = true :=
  ⟨by decide +kernel, stolenTask_run.pinned false 0 (Or.inr (by decide +kernel))⟩

end Imperator
