import Imperator.Bypass
import Imperator.QueuedWork

/-!
# In which order a queue is served

`Bypass` has one queue, filled by calls of `imperator_enqueue` and drained by moves. Here are all
the queues of the machine, filled and drained by whole runs, and the tasks in them are served by
dispatches of CPUs on which not every task may run.

To say of a queued task when it was enqueued and in which tier, the machine carries a record of the
last enqueue of every task. The program does not see it. A task in a queue is there with the key of
that enqueue, and as long as the clock is below `2 ^ 62` nanoseconds, which is for 146 years, no key
leaves the range in which the kernel compares keys as numbers.

## Main definitions

* `recordArrival`, `ArrivalRun` — runs with the record
* `InOrderOfKeys` — what holds in every state

## Main results

* `ArrivalRun.no_inversion` — no task is taken over one of a better tier that came no later
-/

namespace Imperator

open Transition

/-! ### The range of keys -/

/-- A budget has 36 bits, in units of `2 ^ 10` ns. -/
theorem budget_toNat_lt (cfgs : TierConfigs) (t : Tier) : (budget cfgs t).toNat < 2 ^ 46 := by
  have hcfg := (cfgs (cakeTierIdx t)).isLt
  rw [budget, unpackStarvationNs, BitVec.toNat_shiftLeft, BitVec.toNat_ushiftRight,
    Nat.shiftRight_eq_div_pow, Nat.shiftLeft_eq]
  omega

/-- Before 146 years are over, every arrival is in range. -/
theorem Arrival.inRange_of_now_lt (ro : Rodata) {a : Arrival} (h : a.env.now.toNat < 2 ^ 62) :
    a.InRange ro := by
  have hbudget := budget_toNat_lt ro.tierConfigs (a.result ro).tier
  rw [Arrival.InRange]
  omega

/-! ### The record -/

variable {τ : Type*} [DecidableEq τ]

/-- The last enqueue of every task. -/
def recordArrival (m : Machine τ) (arrivals : τ → Option Arrival) :
    KernelEvent τ → τ → Option Arrival
  | .enqueue p env => Function.update arrivals p (some ⟨env, m.sys.ctx p, m.sys.bss⟩)
  | _ => arrivals

/-- One event, recorded. -/
def ArrivalStep (ro : Rodata) (hy : HybridRodata) :
    Machine τ × (τ → Option Arrival) → KernelEvent τ → Machine τ × (τ → Option Arrival) → Prop :=
  Guarded (ofNext (recording (Machine.next ro hy) recordArrival)) fun s => Permitted s.1

/-- The runs of the machine with their record. -/
def ArrivalRun (ro : Rodata) (hy : HybridRodata) (allowed : τ → Cpu → Bool)
    (evs : List (KernelEvent τ)) (m : Machine τ) (arrivals : τ → Option Arrival) : Prop :=
  Run (ArrivalStep ro hy) (Machine.init ro allowed, fun _ => none) evs (m, arrivals)

variable {ro : Rodata} {hy : HybridRodata} {allowed : τ → Cpu → Bool} {m m' : Machine τ}
  {ev : KernelEvent τ} {evs : List (KernelEvent τ)} {p : τ} {cpu : Cpu} {llc : Llc}
  {etd : Llc → Llc → U8} {arrivals : τ → Option Arrival}

/-- Every run has a record. -/
theorem MachineRun.exists_arrivals (h : MachineRun ro hy allowed evs m) :
    ∃ arrivals, ArrivalRun ro hy allowed evs m arrivals :=
  Run.exists_record_guarded h _

/-! ### The clock -/

/-- Time does not go back. -/
theorem clock_le_next (hev : Permitted m ev) : m.sys.clock ≤ (m.next ro hy ev).sys.clock := by
  cases ev with
  | enable | initTask | lockHolder | setAffinity | wakeup | wakeupPinned | dispatch | putBack
  | dequeueShared | dequeueLocal | leave => exact BitVec.le_refl _
  | enqueue p env => exact hev.1 env.now rfl
  | running p cpu now => exact hev.1 now rfl
  | tick p env => exact hev.1 env.now rfl
  | stopping p cpu now runnable => exact hev.1 now rfl

/-! ### One event -/

/-- The queued tasks are there with the keys of their last enqueues, and in the order of the keys
while these are in range. -/
structure InOrderOfKeys (ro : Rodata) (m : Machine τ) (arrivals : τ → Option Arrival) : Prop where
  arrival : ∀ llc, ∀ e ∈ m.dsq llc, ∃ a, arrivals e.task = some a ∧
    e.insert = (a.result ro).insert ∧ a.env.now ≤ m.sys.clock
  sorted : m.sys.clock.toNat < 2 ^ 62 → ∀ llc, KeySorted (m.dsq llc)

omit [DecidableEq τ] in
/-- No key leaves the range of signed differences. -/
theorem InOrderOfKeys.vtime_lt (h : InOrderOfKeys ro m arrivals)
    (hclock : m.sys.clock.toNat < 2 ^ 62) {e : Queued τ} (he : e ∈ m.dsq llc) :
    e.insert.vtime.toNat < 2 ^ 63 := by
  obtain ⟨a, -, hinsert, hnow⟩ := h.arrival llc e he
  rw [hinsert]
  rw [BitVec.le_def] at hnow
  exact Arrival.vtime_toNat_lt (Arrival.inRange_of_now_lt ro (by omega))

omit [DecidableEq τ] in
/-- Queues may lose tasks, and time may pass. -/
theorem InOrderOfKeys.mono (h : InOrderOfKeys ro m arrivals)
    (hdsq : ∀ llc, (m'.dsq llc).Sublist (m.dsq llc)) (hclock : m.sys.clock ≤ m'.sys.clock) :
    InOrderOfKeys ro m' arrivals where
  arrival := by
    intro llc e he
    obtain ⟨a, harr, hinsert, hnow⟩ := h.arrival llc e ((hdsq llc).mem he)
    exact ⟨a, harr, hinsert, BitVec.le_trans hnow hclock⟩
  sorted := by
    intro hlt llc
    rw [BitVec.le_def] at hclock
    exact (h.sorted (by omega) llc).sublist (hdsq llc)

omit [DecidableEq τ] in
theorem sublist_update_dsq {dsq : Llc → List (Queued τ)} {q : List (Queued τ)}
    (h : q.Sublist (dsq llc)) (llc' : Llc) :
    (Function.update dsq llc q llc').Sublist (dsq llc') := by
  rcases eq_or_ne llc' llc with rfl | hne
  · rwa [Function.update_self]
  · rw [Function.update_of_ne hne]

/-- Only an enqueue adds to a queue. -/
theorem dsq_next_sublist (hev : ∀ p env, ev ≠ .enqueue p env) (llc : Llc) :
    ((m.next ro hy ev).dsq llc).Sublist (m.dsq llc) := by
  cases ev with
  | enqueue p env => exact absurd rfl (hev p env)
  | dispatch cpu etd =>
    have htaken : Taken (m.allowed · cpu) m.dsq (m.dispatchOn ro cpu etd) :=
      taken_imperatorDispatch ..
    show ((m.dispatchOn ro cpu etd).dsq llc).Sublist (m.dsq llc)
    rw [htaken.dsq_eq]
    cases (m.dispatchOn ro cpu etd).moved with
    | none => exact List.Sublist.refl _
    | some moved => exact sublist_update_dsq List.eraseP_sublist llc
  | dequeueShared p llc' => exact sublist_update_dsq List.eraseP_sublist llc
  | enable | initTask | lockHolder | setAffinity | wakeup | wakeupPinned | running | tick
  | stopping | putBack | dequeueLocal | leave => exact List.Sublist.refl _

/-- An enqueue puts its task where its key belongs. -/
theorem inOrderOfKeys_enqueue {env : EnqueueEnv} (hcustody : InCustody m)
    (h : InOrderOfKeys ro m arrivals) (hev : Permitted m (.enqueue p env)) :
    InOrderOfKeys ro (m.next ro hy (.enqueue p env))
      (recordArrival m arrivals (.enqueue p env)) := by
  let a : Arrival := ⟨env, m.sys.ctx p, m.sys.bss⟩
  let ins := m.insertOf ro p env
  have hnow : m.sys.clock ≤ env.now := hev.1 env.now rfl
  have hclock : (m.next ro hy (.enqueue p env)).sys.clock = env.now := rfl
  have hfree : ¬ m.Held p := fun hheld => by cases hev.2.symm.trans hheld
  -- the entries of the other tasks are as they were, and the task had none
  have hold : ∀ llc, ∀ e ∈ m.dsq llc, e.task ≠ p := by
    rintro llc e he rfl
    exact hcustody.notMem_of_not_held hfree (.shared llc) (List.mem_map_of_mem he)
  have hmem : ∀ llc, ∀ e ∈ (m.next ro hy (.enqueue p env)).dsq llc,
      e = ⟨p, ins⟩ ∨ e ∈ m.dsq llc := by
    intro llc e he
    change e ∈ Function.update m.dsq ins.llc (dsqInsertVtime ⟨p, ins⟩ (m.dsq ins.llc)) llc at he
    rcases eq_or_ne llc ins.llc with heq | hne
    · rw [heq, Function.update_self] at he
      exact heq ▸ mem_dsqInsertVtime.mp he
    · rw [Function.update_of_ne hne] at he
      exact Or.inr he
  have harrival : ∀ llc, ∀ e ∈ (m.next ro hy (.enqueue p env)).dsq llc,
      ∃ b, recordArrival m arrivals (.enqueue p env) e.task = some b ∧
        e.insert = (b.result ro).insert ∧ b.env.now ≤ env.now := by
    intro llc e he
    rcases hmem llc e he with rfl | hmem
    · exact ⟨a, Function.update_self _ _ _, rfl, BitVec.le_refl _⟩
    · obtain ⟨b, hb, hinsert, hbnow⟩ := h.arrival llc e hmem
      exact ⟨b, (Function.update_of_ne (hold llc e hmem) _ _).trans hb, hinsert,
        BitVec.le_trans hbnow hnow⟩
  refine ⟨harrival, fun hlt llc => ?_⟩
  rw [hclock] at hlt
  show KeySorted (Function.update m.dsq ins.llc (dsqInsertVtime ⟨p, ins⟩ (m.dsq ins.llc)) llc)
  rw [BitVec.le_def] at hnow
  rcases eq_or_ne llc ins.llc with rfl | hne
  · rw [Function.update_self]
    refine pairwise_dsqInsertVtime (h.sorted (by omega) ins.llc) fun e he => ?_
    rcases mem_dsqInsertVtime.mp he with rfl | hmem
    · exact Arrival.vtime_toNat_lt (a := a) (Arrival.inRange_of_now_lt ro hlt)
    · exact h.vtime_lt (by omega) hmem
  · rw [Function.update_of_ne hne]
    exact h.sorted (by omega) llc

/-- **One event.** -/
theorem inOrderOfKeys_next (hcustody : InCustody m) (h : InOrderOfKeys ro m arrivals)
    (hev : Permitted m ev) :
    InOrderOfKeys ro (m.next ro hy ev) (recordArrival m arrivals ev) := by
  cases ev with
  | enqueue p env => exact inOrderOfKeys_enqueue hcustody h hev
  | enable | initTask | lockHolder | setAffinity | wakeup | wakeupPinned | dispatch | running
  | tick | stopping | putBack | dequeueShared | dequeueLocal | leave =>
    exact h.mono (dsq_next_sublist nofun) (clock_le_next hev)

omit [DecidableEq τ] in
theorem inOrderOfKeys_init (ro : Rodata) (allowed : τ → Cpu → Bool) :
    InOrderOfKeys ro (Machine.init ro allowed) fun _ => none where
  arrival := fun _ _ he => by cases he
  sorted := fun _ _ => List.Pairwise.nil

theorem inOrderOfKeys_of_run (h : ArrivalRun ro hy allowed evs m arrivals) :
    InCustody m ∧ InOrderOfKeys ro m arrivals := by
  refine Run.invariant (I := fun s => InCustody s.1 ∧ InOrderOfKeys ro s.1 s.2) ?_ h
    ⟨inCustody_init ro allowed, inOrderOfKeys_init ro allowed⟩
  rintro ⟨m, arrivals⟩ ev _ ⟨hcustody, horder⟩ ⟨hev, rfl⟩
  exact ⟨inCustody_next hcustody hev, inOrderOfKeys_next hcustody horder hev⟩

/-! ### What is taken first -/

omit [DecidableEq τ] in
/-- In a sorted queue the first task for a CPU has the smallest key of those for it. -/
theorem vtime_le_of_firstAllowed {suits : τ → Bool} {dsq : Llc → List (Queued τ)} {e e' : Queued τ}
    (hsorted : KeySorted (dsq llc)) (hfirst : firstAllowed suits dsq llc = some e)
    (he' : e' ∈ dsq llc) (hsuits : suits e'.task = true) : e.insert.vtime ≤ e'.insert.vtime := by
  obtain ⟨-, before, after, hsplit, hbefore⟩ := List.find?_eq_some_iff_append.mp hfirst
  rw [KeySorted, hsplit] at hsorted
  rw [hsplit] at he'
  rcases List.mem_append.mp he' with hmem | hmem
  · have hnot := hbefore e' hmem
    rw [hsuits] at hnot
    cases hnot
  · rcases List.mem_cons.mp hmem with rfl | hmem
    · exact BitVec.le_refl _
    · exact (List.pairwise_cons.mp (List.pairwise_append.mp hsorted).2.1).1 e' hmem

/-- **No priority inversion within a queue.** In every state a run reaches within 146 years, the
task a dispatch takes from a queue has the smallest key of all that may run on the CPU: whoever of
them was enqueued in a better tier came later, and the one that is taken came before the other one's
window was over. -/
theorem ArrivalRun.no_inversion (h : ArrivalRun ro hy allowed evs m arrivals)
    (hmono : BudgetsIncrease ro.tierConfigs) (hclock : m.sys.clock.toNat < 2 ^ 62)
    {e e' : Queued τ} (hmoved : (m.dispatchOn ro cpu etd).moved = some (llc, e))
    (he' : e' ∈ m.dsq llc) (hallowed : m.allowed e'.task cpu = true) :
    ∃ a a', arrivals e.task = some a ∧ arrivals e'.task = some a' ∧
      e.insert.vtime ≤ e'.insert.vtime ∧
      ((a'.result ro).tier < (a.result ro).tier → a.env.now < a'.env.now) ∧
      a.env.now.toNat ≤ a'.window ro := by
  obtain ⟨-, horder⟩ := inOrderOfKeys_of_run h
  have hfirst : firstAllowed (m.allowed · cpu) m.dsq llc = some e :=
    (taken_imperatorDispatch ro etd (m.allowed · cpu) cpu m.dsq _).first llc e hmoved
  obtain ⟨a, ha, hinsert, hnow⟩ := horder.arrival llc e (List.mem_of_find?_eq_some hfirst)
  obtain ⟨a', ha', hinsert', hnow'⟩ := horder.arrival llc e' he'
  have hkey : e.insert.vtime ≤ e'.insert.vtime :=
    vtime_le_of_firstAllowed (horder.sorted hclock llc) hfirst he' hallowed
  rw [BitVec.le_def] at hnow hnow'
  have hrange : a.InRange ro := Arrival.inRange_of_now_lt ro (by omega)
  have hrange' : a'.InRange ro := Arrival.inRange_of_now_lt ro (by omega)
  refine ⟨a, a', ha, ha', hkey, fun htier => ?_, ?_⟩
  · -- the better tier would have the smaller key, had it come no later
    by_contra hlate
    have hlt : (a'.result ro).insert.vtime < (a.result ro).insert.vtime := by
      rw [Arrival.result, Arrival.result, imperatorEnqueue_vtime, imperatorEnqueue_vtime]
      refine tierDeadline_lt_of_tier_lt hmono (BitVec.not_lt.mp hlate) htier ?_
      rw [Arrival.InRange, Arrival.result] at hrange
      omega
    rw [← hinsert, ← hinsert'] at hlt
    exact absurd hlt (BitVec.not_lt.mpr hkey)
  · refine Arrival.now_le_window hrange' hrange ?_
    rw [← hinsert, ← hinsert']
    exact hkey

/-- A bulk task is queued, and a millisecond later a critical one. -/
def bulkThenCritical : List (KernelEvent Bool) :=
  [.enable false 135 true, .enable true 110 true, .wakeupPinned false, .wakeupPinned true,
    .enqueue false ⟨0, 0, 1000000000, false, ⟨true, false⟩⟩,
    .enqueue true ⟨0, 0, 1001000000, false, ⟨true, false⟩⟩]

/-- The machine after that, and its record. -/
def bulkThenCriticalEnd : Machine Bool × (Bool → Option Arrival) :=
  bulkThenCritical.foldl (recording (Machine.next twoLlcs noHybrid) recordArrival)
    (Machine.init twoLlcs fun _ _ => true, fun _ => none)

/-- The entries of the two tasks. -/
def criticalEntry : Queued Bool := ⟨true, ⟨0, 2000000, 995999296⟩⟩

def bulkEntry : Queued Bool := ⟨false, ⟨0, 2000000, 1041999872⟩⟩

/-- The critical task is taken over the bulk task, and it had come before the window of that one
was over. -/
theorem bulkThenCritical_no_inversion : ∃ a a',
    bulkThenCriticalEnd.2 true = some a ∧ bulkThenCriticalEnd.2 false = some a' ∧
      criticalEntry.insert.vtime ≤ bulkEntry.insert.vtime ∧
      ((a'.result twoLlcs).tier < (a.result twoLlcs).tier → a.env.now < a'.env.now) ∧
      a.env.now.toNat ≤ a'.window twoLlcs := by
  have hrun : ArrivalRun twoLlcs noHybrid (fun _ _ => true) bulkThenCritical
      bulkThenCriticalEnd.1 bulkThenCriticalEnd.2 := Run.foldl_of_admits (by decide +kernel)
  have hqueue : bulkThenCriticalEnd.1.dsq 0 = [criticalEntry, bulkEntry] := rfl
  have hmem : bulkEntry ∈ bulkThenCriticalEnd.1.dsq 0 := by simp [hqueue]
  have hmoved : (bulkThenCriticalEnd.1.dispatchOn twoLlcs 0 fun _ _ => 0).moved
      = some (0, criticalEntry) := rfl
  exact hrun.no_inversion (by decide) (by decide +kernel) hmoved hmem rfl

end Imperator
