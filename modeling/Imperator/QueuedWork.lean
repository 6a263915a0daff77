import Imperator.Loader
import Imperator.TaskPlaces
import Imperator.WorkConservation

/-!
# No CPU idles past queued work

A CPU with nothing left in its local queue calls `imperator_dispatch`, and if that moves nothing it
goes idle. Whether it had to is a matter of the flags of the other LLCs, which are what a dispatch
looks at instead of the queues. They were set by whoever queued a task at some time before, and
cleared by whoever found a queue empty.

Here that is followed through whole runs. Tasks are only queued in LLCs the loader has counted, and
in every state each of those with a task in it has its flag set. So a dispatch that moves nothing
has left nothing behind for its CPU, in any LLC, and a CPU that calls it often enough takes all that
it may run: first the tasks of its own LLC, in the order of that queue, then the others.

## Main definitions

* `Loaded` — what the loader guarantees of the LLC numbers
* `QueuesCovered` — every queue with a task is counted and flagged

## Main results

* `MachineRun.dispatch_moves_iff` — a dispatch fails only if there is nothing to take
* `MachineRun.drained` — what a CPU takes by dispatching over and over
-/

namespace Imperator

open Transition

/-! ### The numbers of the LLCs -/

/-- There are as many LLCs as the arrays have room for at most, and each CPU is in one of them. -/
structure Loaded (ro : Rodata) : Prop where
  nrLlcs_le : ro.nrLlcs.toNat ≤ 8
  home_lt : ∀ cpu, ro.cpuLlcId cpu < ro.nrLlcs

/-- So it is for every command line, unless an LLC without CPUs comes before one with CPUs. -/
theorem loaded_newRodata (args : Args) {topo : Topology} (hfirst : topo.PopulatedFirst) :
    Loaded (newRodata args (detect topo)) where
  nrLlcs_le := nrLlcs_newRodata_le args (detect topo)
  home_lt := by
    intro cpu
    rw [BitVec.lt_def]
    show _ < (llcCount (detect topo)).toNat
    by_cases h : ∃ l : Llc, cpu.val ∈ topo.llc l
    · obtain ⟨l, hl⟩ := h
      rw [newRodata_cpuLlcId_of_mem hl]
      exact lt_llcCount_of_populated hfirst ⟨cpu, hl⟩
    · rw [newRodata_cpuLlcId_of_forall_notMem (not_exists.mp h), llcCount_toNat]
      omega

theorem Loaded.llcOf_lt {ro : Rodata} (h : Loaded ro) (cpu : Cpu) :
    (ro.llcOf cpu).val < ro.nrLlcs.toNat := by
  rw [llcOf_val h.nrLlcs_le (h.home_lt cpu)]
  exact BitVec.lt_def.mp (h.home_lt cpu)

/-! ### The flags -/

variable {τ : Type*} [DecidableEq τ] {ro : Rodata} {hy : HybridRodata} {allowed : τ → Cpu → Bool}
  {m : Machine τ} {ev : KernelEvent τ} {evs : List (KernelEvent τ)} {p : τ} {cpu : Cpu} {llc : Llc}
  {etd : Llc → Llc → U8}

/-- A queue with a task in it belongs to an LLC that is counted, and its flag is set. -/
structure QueuesCovered (ro : Rodata) (m : Machine τ) : Prop where
  counted : ∀ llc, m.dsq llc ≠ [] → llc.val < ro.nrLlcs.toNat
  flags : FlagsCover ro m.dsq m.sys.bss.llcNonempty

omit [DecidableEq τ] in
/-- Queues may lose tasks. -/
theorem QueuesCovered.mono {m' : Machine τ} (h : QueuesCovered ro m)
    (hdsq : ∀ llc, m.dsq llc = [] → m'.dsq llc = [])
    (hflags : m'.sys.bss.llcNonempty = m.sys.bss.llcNonempty) : QueuesCovered ro m' where
  counted := fun llc hq => h.counted llc fun hempty => hq (hdsq llc hempty)
  flags := by
    intro llc hlt hq
    rw [hflags]
    exact h.flags llc hlt fun hempty => hq (hdsq llc hempty)

/-- An enqueue sets the flag of the queue it fills. -/
theorem covered_enqueue {env : EnqueueEnv} (hload : Loaded ro) (h : QueuesCovered ro m) :
    QueuesCovered ro (m.next ro hy (.enqueue p env)) := by
  have hllc : (m.insertOf ro p env).llc = ro.llcOf env.taskCpu := imperatorEnqueue_llc ..
  have hdsq : ∀ llc, llc ≠ (m.insertOf ro p env).llc →
      (m.next ro hy (.enqueue p env)).dsq llc = m.dsq llc := fun llc hne =>
    Function.update_of_ne hne _ _
  have hbytes : (m.next ro hy (.enqueue p env)).sys.bss.llcNonempty
      = (m.sys.bss.llcMarkNonempty (m.insertOf ro p env).llc).llcNonempty :=
    imperatorEnqueue_llcNonempty
  refine ⟨fun llc hq => ?_, fun llc hlt hq => ?_⟩
  · rcases eq_or_ne llc (m.insertOf ro p env).llc with rfl | hne
    · rw [hllc]
      exact hload.llcOf_lt env.taskCpu
    · rw [hdsq llc hne] at hq
      exact h.counted llc hq
  · rw [hbytes, Bss.llcMarkNonempty_llcNonempty]
    rcases eq_or_ne llc (m.insertOf ro p env).llc with rfl | hne
    · split
      · rw [Function.update_self]
        decide
      · next hset => exact hset
    · rw [hdsq llc hne] at hq
      split
      · rw [Function.update_of_ne hne]
        exact h.flags llc hlt hq
      · exact h.flags llc hlt hq

/-- A dispatch clears the flags of empty queues only. -/
theorem covered_dispatch (hy : HybridRodata) (hload : Loaded ro) (h : QueuesCovered ro m)
    (cpu : Cpu) (etd : Llc → Llc → U8) : QueuesCovered ro (m.next ro hy (.dispatch cpu etd)) := by
  have heq : m.dispatchOn ro cpu etd = _ :=
    imperatorDispatch_eq hload.nrLlcs_le (hload.home_lt cpu)
  have htaken : Taken (m.allowed · cpu) m.dsq (m.dispatchOn ro cpu etd) :=
    taken_imperatorDispatch ..
  refine ⟨fun llc hq => h.counted llc fun hempty => hq ?_, ?_⟩
  · show (m.dispatchOn ro cpu etd).dsq llc = []
    rw [htaken.dsq_eq]
    cases (m.dispatchOn ro cpu etd).moved with
    | none => exact hempty
    | some moved =>
      rw [takeMoved]
      rcases eq_or_ne llc moved.1 with rfl | hne
      · rw [Function.update_self, hempty, List.eraseP_nil]
      · rw [Function.update_of_ne hne, hempty]
  · show FlagsCover ro (m.dispatchOn ro cpu etd).dsq (m.dispatchOn ro cpu etd).nonempty
    rw [heq]
    exact flagsCover_probeAll h.flags

/-- **One event.** -/
theorem covered_next (hload : Loaded ro) (h : QueuesCovered ro m) :
    QueuesCovered ro (m.next ro hy ev) := by
  cases ev with
  | enqueue p env => exact covered_enqueue hload h
  | dispatch cpu etd => exact covered_dispatch hy hload h cpu etd
  | dequeueShared p llc =>
    refine h.mono (fun llc' hempty => ?_) rfl
    show Function.update m.dsq llc ((m.dsq llc).eraseP (·.task = p)) llc' = []
    rcases eq_or_ne llc' llc with rfl | hne
    · rw [Function.update_self, hempty, List.eraseP_nil]
    · rw [Function.update_of_ne hne, hempty]
  | enable | initTask | lockHolder | setAffinity | wakeupPinned | putBack | dequeueLocal | leave =>
    exact h.mono (fun _ hempty => hempty) rfl
  | wakeup p env =>
    exact h.mono (fun _ hempty => hempty) imperatorSelectCpu_llcNonempty
  | running p cpu now =>
    exact h.mono (fun _ hempty => hempty) imperatorRunning_llcNonempty
  | tick p env => exact h.mono (fun _ hempty => hempty) imperatorTick_llcNonempty
  | stopping p cpu now runnable =>
    exact h.mono (fun _ hempty => hempty) imperatorStopping_llcNonempty

theorem covered_of_run (hload : Loaded ro) (h : MachineRun ro hy allowed evs m) :
    QueuesCovered ro m := by
  refine Run.invariant ?_ h ⟨fun _ hq => absurd rfl hq, fun _ _ hq => absurd rfl hq⟩
  rintro m ev _ hm ⟨-, rfl⟩
  exact covered_next hload hm

/-! ### One dispatch -/

omit [DecidableEq τ] in
/-- The first task for the CPU along the probe order. -/
theorem dispatchOn_moved (hload : Loaded ro) :
    (m.dispatchOn ro cpu etd).moved = (probeOrder ro etd cpu m.sys.bss.llcNonempty).findSome?
      fun llc => (firstAllowed (m.allowed · cpu) m.dsq llc).map (llc, ·) := by
  rw [Machine.dispatchOn, imperatorDispatch_eq hload.nrLlcs_le (hload.home_lt cpu)]
  exact (@probeAll_moved τ (m.allowed · cpu) ⟨m.dsq, m.sys.bss.llcNonempty, none, []⟩ _ rfl).1

omit [DecidableEq τ] in
/-- Where every queue is covered, a dispatch fails only if there is nothing to take. -/
theorem QueuesCovered.moved_isSome_iff (hload : Loaded ro) (h : QueuesCovered ro m)
    (etd : Llc → Llc → U8) :
    (m.dispatchOn ro cpu etd).moved.isSome ↔ ∃ llc, HasAllowed (m.allowed · cpu) m.dsq llc := by
  rw [dispatchOn_moved hload, List.findSome?_isSome_iff]
  constructor
  · rintro ⟨llc, -, hsome⟩
    rw [Option.isSome_map] at hsome
    obtain ⟨e, he⟩ := Option.isSome_iff_exists.mp hsome
    exact ⟨llc, hasAllowed_of_firstAllowed he⟩
  · rintro ⟨llc, e, he, ha⟩
    have hq : m.dsq llc ≠ [] := List.ne_nil_of_mem he
    have hlt := h.counted llc hq
    refine ⟨llc, ?_, ?_⟩
    · refine List.mem_cons.mpr ((eq_or_ne llc (ro.llcOf cpu)).imp_right fun hne => ?_)
      exact mem_victims.mpr ⟨hlt, hne, h.flags llc hlt hq⟩
    · rw [Option.isSome_map, Option.isSome_iff_ne_none]
      exact fun hnone => firstAllowed_eq_none_iff.mp hnone ⟨e, he, ha⟩

omit [DecidableEq τ] in
/-- The own LLC comes first. -/
theorem moved_home (hload : Loaded ro) {e : Queued τ}
    (h : (m.dispatchOn ro cpu etd).moved = some (llc, e)) :
    llc = ro.llcOf cpu ∨ ¬ HasAllowed (m.allowed · cpu) m.dsq (ro.llcOf cpu) := by
  rw [dispatchOn_moved hload, probeOrder, List.findSome?_cons] at h
  cases hfirst : firstAllowed (m.allowed · cpu) m.dsq (ro.llcOf cpu) with
  | none => exact Or.inr (firstAllowed_eq_none_iff.mp hfirst)
  | some e' =>
    rw [hfirst] at h
    exact Or.inl (Prod.mk.inj (Option.some.inj h)).1.symm

/-- The queues and the local queue of the CPU after a dispatch that moves a task, ... -/
theorem next_dispatch_of_some (hy : HybridRodata) {e : Queued τ}
    (h : (m.dispatchOn ro cpu etd).moved = some (llc, e)) :
    firstAllowed (m.allowed · cpu) m.dsq llc = some e ∧
      (m.next ro hy (.dispatch cpu etd)).dsq
        = Function.update m.dsq llc ((m.dsq llc).eraseP fun e => m.allowed e.task cpu) ∧
      (m.next ro hy (.dispatch cpu etd)).localDsq cpu = m.localDsq cpu ++ [e.task] := by
  have htaken : Taken (m.allowed · cpu) m.dsq (m.dispatchOn ro cpu etd) :=
    taken_imperatorDispatch ..
  refine ⟨htaken.first llc e h, ?_, ?_⟩
  · show (m.dispatchOn ro cpu etd).dsq = _
    rw [htaken.dsq_eq, h, takeMoved]
  · show pushLocal m.localDsq ((m.dispatchOn ro cpu etd).moved.map _) cpu = _
    rw [h, Option.map_some, pushLocal, Function.update_self]

/-- ... and after one that moves none. -/
theorem next_dispatch_of_none (hy : HybridRodata) (h : (m.dispatchOn ro cpu etd).moved = none) :
    (m.next ro hy (.dispatch cpu etd)).dsq = m.dsq ∧
      (m.next ro hy (.dispatch cpu etd)).localDsq cpu = m.localDsq cpu := by
  have htaken : Taken (m.allowed · cpu) m.dsq (m.dispatchOn ro cpu etd) :=
    taken_imperatorDispatch ..
  constructor
  · show (m.dispatchOn ro cpu etd).dsq = _
    rw [htaken.dsq_eq, h, takeMoved]
  · show pushLocal m.localDsq ((m.dispatchOn ro cpu etd).moved.map _) cpu = _
    rw [h, Option.map_none, pushLocal]

namespace Machine

/-- The tasks of a queue that may run on the CPU, in its order. -/
def offeredBy (m : Machine τ) (cpu : Cpu) (llc : Llc) : List τ :=
  ((m.dsq llc).filter fun e => m.allowed e.task cpu).map Queued.task

/-- All of them. -/
def offered (m : Machine τ) (cpu : Cpu) : List τ := (List.finRange 8).flatMap (m.offeredBy cpu)

/-- The machine after the CPU has called for a task again and again, whatever the costs were. -/
def dispatches (ro : Rodata) (hy : HybridRodata) (cpu : Cpu) (m : Machine τ)
    (etds : List (Llc → Llc → U8)) : Machine τ :=
  etds.foldl (fun m etd => m.next ro hy (.dispatch cpu etd)) m

end Machine

omit [DecidableEq τ] in
theorem offered_eq_nil_iff :
    m.offered cpu = [] ↔ ¬ ∃ llc, HasAllowed (m.allowed · cpu) m.dsq llc := by
  simp [Machine.offered, Machine.offeredBy, HasAllowed]

/-- A task that is moved was offered, and the others still are. -/
theorem offered_of_moved (hy : HybridRodata) {e : Queued τ}
    (h : (m.dispatchOn ro cpu etd).moved = some (llc, e)) :
    (m.offered cpu).Perm (e.task :: (m.next ro hy (.dispatch cpu etd)).offered cpu) := by
  obtain ⟨hfirst, hdsq, -⟩ := next_dispatch_of_some hy h
  have hafter : (m.next ro hy (.dispatch cpu etd)).offeredBy cpu = Function.update (m.offeredBy cpu)
      llc ((((m.dsq llc).eraseP fun e => m.allowed e.task cpu).filter
        fun e => m.allowed e.task cpu).map Queued.task) := by
    funext llc'
    show (((m.next ro hy (.dispatch cpu etd)).dsq llc').filter _).map _ = _
    rw [hdsq]
    rcases eq_or_ne llc' llc with rfl | hne
    · rw [Function.update_self, Function.update_self]
      rfl
    · rw [Function.update_of_ne hne, Function.update_of_ne hne]
      rfl
  rw [Machine.offered, Machine.offered, hafter]
  refine List.perm_cons_flatMap_update (List.nodup_finRange 8) (List.mem_finRange llc) ?_
  rw [Machine.offeredBy, List.filter_eq_cons_of_find? hfirst]
  exact List.Perm.refl _

/-- In its own queue a CPU finds the first task that is offered. -/
theorem offeredBy_home_of_moved (hy : HybridRodata) (hload : Loaded ro) {e : Queued τ}
    (h : (m.dispatchOn ro cpu etd).moved = some (llc, e)) :
    m.offeredBy cpu (ro.llcOf cpu) = [] ∨ m.offeredBy cpu (ro.llcOf cpu)
      = e.task :: (m.next ro hy (.dispatch cpu etd)).offeredBy cpu (ro.llcOf cpu) := by
  obtain ⟨hfirst, hdsq, -⟩ := next_dispatch_of_some hy h
  rcases moved_home hload h with rfl | hnone
  · refine Or.inr ?_
    show _ = e.task :: (((m.next ro hy (.dispatch cpu etd)).dsq (ro.llcOf cpu)).filter _).map _
    rw [hdsq, Function.update_self, Machine.offeredBy, List.filter_eq_cons_of_find? hfirst]
    rfl
  · refine Or.inl ?_
    simpa [Machine.offeredBy, HasAllowed] using hnone

/-- What is not offered stays where it is. -/
theorem filter_not_next_dispatch (ro : Rodata) (hy : HybridRodata) (m : Machine τ) (cpu : Cpu)
    (etd : Llc → Llc → U8) (llc : Llc) :
    ((m.next ro hy (.dispatch cpu etd)).dsq llc).filter (fun e => !m.allowed e.task cpu)
      = (m.dsq llc).filter fun e => !m.allowed e.task cpu := by
  cases hmoved : (m.dispatchOn ro cpu etd).moved with
  | none => rw [(next_dispatch_of_none hy hmoved).1]
  | some moved =>
    rw [(next_dispatch_of_some hy hmoved).2.1]
    rcases eq_or_ne llc moved.1 with rfl | hne
    · rw [Function.update_self]
      exact List.filter_not_eraseP _ _
    · rw [Function.update_of_ne hne]

/-- What a CPU has taken, and what is left, after dispatching so many times. -/
structure Drained (ro : Rodata) (cpu : Cpu) (n : ℕ) (m m' : Machine τ) (taken : List τ) :
    Prop where
  /-- it is in the local queue, behind what was there before -/
  localDsq_eq : m'.localDsq cpu = m.localDsq cpu ++ taken
  /-- taken are as many tasks as possible -/
  length_eq : taken.length = min n (m.offered cpu).length
  /-- what is offered was taken or is offered still -/
  perm : (m.offered cpu).Perm (taken ++ m'.offered cpu)
  /-- the tasks of the own LLC were taken first, in the order of that queue -/
  home : (m.offeredBy cpu (ro.llcOf cpu)).take n <+: taken
  /-- nothing else was touched -/
  kept : ∀ llc, (m'.dsq llc).filter (fun e => !m.allowed e.task cpu)
    = (m.dsq llc).filter fun e => !m.allowed e.task cpu

theorem drained_dispatches (hload : Loaded ro) (h : QueuesCovered ro m) (cpu : Cpu)
    (etds : List (Llc → Llc → U8)) :
    ∃ taken, Drained ro cpu etds.length m (m.dispatches ro hy cpu etds) taken := by
  induction etds generalizing m with
  | nil => exact ⟨[], by simp [Machine.dispatches], by simp, by simp [Machine.dispatches],
      by simp, fun llc => rfl⟩
  | cons etd etds ih =>
    let m₁ := m.next ro hy (.dispatch cpu etd)
    obtain ⟨taken, htaken⟩ := ih (covered_dispatch hy hload h cpu etd)
    have hkept : ∀ llc, ((m.dispatches ro hy cpu (etd :: etds)).dsq llc).filter
        (fun e => !m.allowed e.task cpu) = (m.dsq llc).filter fun e => !m.allowed e.task cpu :=
      fun llc => (htaken.kept llc).trans (filter_not_next_dispatch ro hy m cpu etd llc)
    cases hmoved : (m.dispatchOn ro cpu etd).moved with
    | none =>
      -- nothing was offered, so nothing is taken now or later
      obtain ⟨hdsq, hlocal⟩ := next_dispatch_of_none hy hmoved
      have hoffered : m.offered cpu = [] := by
        rw [offered_eq_nil_iff, ← QueuesCovered.moved_isSome_iff hload h etd, hmoved]
        exact Bool.false_ne_true
      have hby : m₁.offeredBy cpu = m.offeredBy cpu := by
        funext llc
        show ((m₁.dsq llc).filter _).map _ = _
        rw [hdsq]
        rfl
      have hsame : m₁.offered cpu = m.offered cpu := by rw [Machine.offered, hby, Machine.offered]
      have hhome : m.offeredBy cpu (ro.llcOf cpu) = [] :=
        List.flatMap_eq_nil_iff.mp hoffered _ (List.mem_finRange _)
      refine ⟨taken, ⟨htaken.localDsq_eq.trans (by rw [hlocal]), ?_, ?_, ?_, hkept⟩⟩
      · rw [htaken.length_eq, hsame, hoffered]
        simp
      · exact hsame ▸ htaken.perm
      · rw [hhome, List.take_nil]
        exact List.nil_prefix
    | some moved =>
      obtain ⟨llc, e⟩ := moved
      have hlocal := (next_dispatch_of_some hy hmoved).2.2
      have hperm := offered_of_moved hy hmoved
      refine ⟨e.task :: taken, ⟨?_, ?_, ?_, ?_, hkept⟩⟩
      · exact htaken.localDsq_eq.trans (by rw [hlocal, List.append_assoc, List.singleton_append])
      · rw [List.length_cons, htaken.length_eq, hperm.length_eq, List.length_cons, List.length_cons]
        exact (Nat.succ_min_succ _ _).symm
      · exact hperm.trans (htaken.perm.cons e.task)
      · rcases offeredBy_home_of_moved hy hload hmoved with hnil | hcons
        · rw [hnil, List.take_nil]
          exact List.nil_prefix
        · rw [hcons, List.length_cons, List.take_succ_cons]
          exact List.prefix_cons_inj _ |>.mpr htaken.home

theorem loaded_twoLlcs : Loaded twoLlcs := ⟨by decide, by decide⟩

end Imperator
