import Imperator.System

/-!
# The CPU sets of the tiers

`tier_cpu_mask` should show at any time which CPUs run a task of which tier, because a kick for a
T0 or T1 task picks its victim from it. The bit is set in `imperator_running` and cleared in
`imperator_stopping`, both with the tier of the context, which nothing changes in between.

But stopping takes a start time of zero for "did not run" and then clears nothing. The start time
is the low half of the clock, so a task that starts to run at a multiple of `2 ^ 32` ns and is not
stamped again by a tick leaves its CPU in the set when it stops. The sets are exact as long as that
does not happen, and no longer.

## Main definitions

* `System.runningTier` — the tier of the task on a CPU
* `MasksExact`, `KicksRunning` — what the sets, and the kicks, should be
* `StopsStamped` — a stop finds a start time

## Main results

* `masksExact_next`, `stamped_of_masksExact` — one callback
* `masks_exact_iff` — whole runs
-/

namespace Imperator

open Transition

variable {τ : Type*}

/-- The tier of the task on a CPU, if there is one. -/
def System.runningTier (s : System τ) (i : Cpu) : Option Tier :=
  (s.onCpu i).bind fun p => (s.ctx p).map TaskCtx.tier

/-- A CPU is in the set of a tier exactly when it runs a task of that tier. -/
def MasksExact (s : System τ) : Prop :=
  ∀ t (i : Cpu), (s.bss.tierCpuMask t).getLsbD i = true ↔ s.runningTier i = some t

/-- Whatever is enqueued next, the CPU it kicks belongs to the LLC it is queued on and is running a
T2 or T3 task. -/
def KicksRunning (ro : Rodata) (s : System τ) : Prop :=
  ∀ p env v, (imperatorEnqueue ro env (s.ctx p) s.bss).kick = some v → ∃ i : Cpu, i.val = v ∧
    ro.llcOf i = ro.llcOf env.taskCpu ∧ i.val < ro.nrCpus.toNat ∧
      ∃ t, Tier.frame ≤ t ∧ s.runningTier i = some t

/-- A stop finds a start time. -/
def StopsStamped (s : System τ) : Callback τ → Prop
  | .stopping p _ _ _ => ∀ c, s.ctx p = some c → c.lastRunAt ≠ 0
  | _ => True

/-- Only a stop may change the tier of a task. -/
def Callback.KeepsTier : Callback τ → Prop
  | .stopping .. => False
  | _ => True

variable [DecidableEq τ] {ro : Rodata} {s : System τ} {cb : Callback τ} {p : τ} {i : Cpu}

/-! ### The tier of the running task -/

theorem System.next_tier {c : TaskCtx} (hcb : cb.KeepsTier) (hc : s.ctx p = some c) :
    ((s.next ro cb).ctx p).map TaskCtx.tier = some c.tier := by
  obtain ⟨c', hc'⟩ := System.next_ctx_isSome ro cb ⟨c, hc⟩
  rw [hc', Option.map_some]
  rcases eq_or_ne p cb.task with rfl | hne
  · rw [System.next_ctx_task, hc] at hc'
    have heffect := effect_of_apply hc'
    cases cb with
    | stopping => exact hcb.elim
    | enable | enqueue | running | tick =>
      cases heffect with
      | kept hsame _ => rw [hsame.tier]
  · rw [System.next_ctx_of_ne hne, hc] at hc'
    rw [Option.some.inj hc']

/-- A CPU that runs the same task as before, not stopped by the callback, runs it in the same
tier. -/
theorem runningTier_next_of_onCpu (hplaced : Placed s) (hon : (s.next ro cb).onCpu i = s.onCpu i)
    (hkeep : cb.KeepsTier ∨ s.onCpu i ≠ some cb.task) :
    (s.next ro cb).runningTier i = s.runningTier i := by
  rw [System.runningTier, System.runningTier, hon]
  cases honi : s.onCpu i with
  | none => rfl
  | some p =>
    show ((s.next ro cb).ctx p).map TaskCtx.tier = (s.ctx p).map TaskCtx.tier
    rcases hkeep with hkeep | hne
    · obtain ⟨c, hc⟩ := hplaced.hasCtx i p honi
      rw [System.next_tier hkeep hc, hc, Option.map_some]
    · rw [System.next_ctx_of_ne fun heq => hne (honi.trans (congrArg some heq))]

/-- Callbacks that neither move a task nor touch the sets keep them exact. -/
theorem masksExact_next_of_quiet (hplaced : Placed s) (hexact : MasksExact s)
    (hon : (s.next ro cb).onCpu = s.onCpu) (hkeep : cb.KeepsTier)
    (hmask : (s.next ro cb).bss.tierCpuMask = s.bss.tierCpuMask) : MasksExact (s.next ro cb) := by
  intro t i
  rw [hmask, runningTier_next_of_onCpu hplaced (congrFun hon i) (Or.inl hkeep)]
  exact hexact t i

theorem masksExact_next_running {cpu : Cpu} {now : U64} (hplaced : Placed s) (hexact : MasksExact s)
    (horder : InOrder s (.running p cpu now)) : MasksExact (s.next ro (.running p cpu now)) := by
  obtain ⟨c, hc⟩ := Option.ne_none_iff_exists'.mp horder.2.1
  intro t i
  have hbit : ((s.next ro (.running p cpu now)).bss.tierCpuMask t).getLsbD i
      = ((s.bss.tierCpuMask t).getLsbD i || (decide (t = c.tier) && decide (i = cpu))) := by
    show ((imperatorRunning ro cpu now (s.ctx p) s.bss).2.tierCpuMask t).getLsbD i = _
    rw [hc, imperatorRunning_getLsbD]
  rw [hbit]
  rcases eq_or_ne i cpu with rfl | hne
  · have hidle : s.runningTier i = none := by
      rw [System.runningTier, horder.2.2.1, Option.bind_none]
    have hold : (s.bss.tierCpuMask t).getLsbD i = false :=
      Bool.eq_false_iff.mpr fun h => by
        have htier := (hexact t i).mp h
        rw [hidle] at htier
        cases htier
    have hnew : (s.next ro (.running p i now)).runningTier i = some c.tier := by
      rw [System.runningTier, show (s.next ro (.running p i now)).onCpu i = some p from
        Function.update_self _ _ _]
      exact System.next_tier trivial hc
    rw [hold, hnew, Bool.false_or, decide_eq_true rfl, Bool.and_true, decide_eq_true_eq,
      Option.some_inj, eq_comm]
  · have hon : (s.next ro (.running p cpu now)).onCpu i = s.onCpu i := Function.update_of_ne hne _ _
    rw [decide_eq_false hne, Bool.and_false, Bool.or_false,
      runningTier_next_of_onCpu hplaced hon (Or.inl trivial)]
    exact hexact t i

theorem runningTier_next_stopping {cpu : Cpu} {now : U64} {runnable : Bool} (hplaced : Placed s)
    (horder : InOrder s (.stopping p cpu now runnable)) (i : Cpu) :
    (s.next ro (.stopping p cpu now runnable)).runningTier i
      = if i = cpu then none else s.runningTier i := by
  split
  · next heq =>
    subst heq
    rw [System.runningTier, show (s.next ro (.stopping p i now runnable)).onCpu i = none from
      Function.update_self _ _ _, Option.bind_none]
  · next hne =>
    refine runningTier_next_of_onCpu hplaced (Function.update_of_ne hne _ _) (Or.inr fun hon => ?_)
    exact hne (hplaced.oneCpu i cpu p hon horder.2)

theorem masksExact_next_stopping {cpu : Cpu} {now : U64} {runnable : Bool} (hplaced : Placed s)
    (hexact : MasksExact s) (horder : InOrder s (.stopping p cpu now runnable))
    (hstamped : StopsStamped s (.stopping p cpu now runnable)) :
    MasksExact (s.next ro (.stopping p cpu now runnable)) := by
  obtain ⟨c, hc⟩ := hplaced.hasCtx cpu p horder.2
  intro t i
  have hbit : ((s.next ro (.stopping p cpu now runnable)).bss.tierCpuMask t).getLsbD i
      = ((s.bss.tierCpuMask t).getLsbD i && !(decide (t = c.tier) && decide (i = cpu))) := by
    show ((imperatorStopping ro cpu now runnable (s.ctx p) s.bss).2.tierCpuMask t).getLsbD i = _
    rw [hc, imperatorStopping_getLsbD (hstamped c hc)]
  rw [hbit, runningTier_next_stopping hplaced horder]
  rcases eq_or_ne i cpu with rfl | hne
  · have hold : s.runningTier i = some c.tier := by
      rw [System.runningTier, horder.2, Option.bind_some, hc, Option.map_some]
    rw [if_pos rfl, decide_eq_true rfl, Bool.and_true]
    refine iff_of_false (fun hmem => ?_) fun hnone => by cases hnone
    rw [Bool.and_eq_true, hexact t i, hold, Option.some_inj] at hmem
    rw [hmem.1, decide_eq_true rfl] at hmem
    exact absurd hmem.2 (by decide)
  · rw [if_neg hne, decide_eq_false hne, Bool.and_false, Bool.not_false, Bool.and_true]
    exact hexact t i

/-! ### One callback -/

/-- **One callback.** In the kernel's order every callback keeps the sets exact, if a stop finds a
start time. -/
theorem masksExact_next (hplaced : Placed s) (hexact : MasksExact s) (horder : InOrder s cb)
    (hstamped : StopsStamped s cb) : MasksExact (s.next ro cb) := by
  cases cb with
  | enable p prio alloc => exact masksExact_next_of_quiet hplaced hexact rfl trivial rfl
  | enqueue p env =>
    exact masksExact_next_of_quiet hplaced hexact rfl trivial imperatorEnqueue_tierCpuMask
  | tick p env =>
    exact masksExact_next_of_quiet hplaced hexact rfl trivial (imperatorTick_masks _ _ _ _).1
  | running p cpu now => exact masksExact_next_running hplaced hexact horder
  | stopping p cpu now runnable => exact masksExact_next_stopping hplaced hexact horder hstamped

/-- A stop that finds no start time leaves its CPU in the set. -/
theorem stamped_of_masksExact (hplaced : Placed s) (hexact : MasksExact s) (horder : InOrder s cb)
    (hexact' : MasksExact (s.next ro cb)) : StopsStamped s cb := by
  cases cb with
  | enable | enqueue | running | tick => trivial
  | stopping p cpu now runnable =>
    intro c hc hzero
    have hold : s.runningTier cpu = some c.tier := by
      rw [System.runningTier, horder.2, Option.bind_some, hc, Option.map_some]
    have hkept : (s.next ro (.stopping p cpu now runnable)).bss = s.bss := by
      show (imperatorStopping ro cpu now runnable (s.ctx p) s.bss).2 = s.bss
      rw [hc, imperatorStopping, if_neg (not_not.mpr hzero)]
    have hmem := (hexact c.tier cpu).mpr hold
    rw [← hkept, hexact' c.tier cpu, runningTier_next_stopping hplaced horder, if_pos rfl] at hmem
    cases hmem

/-- The sets of the LLCs are those of `imperator_init`. -/
theorem llcCpuMask_next (ro : Rodata) (s : System τ) (cb : Callback τ) :
    (s.next ro cb).bss.llcCpuMask = s.bss.llcCpuMask := by
  cases cb with
  | enable => rfl
  | enqueue => exact imperatorEnqueue_llcCpuMask
  | running => exact imperatorRunning_llcCpuMask
  | tick => exact (imperatorTick_masks _ _ _ _).2
  | stopping => exact imperatorStopping_llcCpuMask

/-! ### Runs -/

/-- What every state of a stamped run has. -/
structure MaskInv (ro : Rodata) (s : System τ) : Prop where
  placed : Placed s
  exact : MasksExact s
  llcCpuMask : s.bss.llcCpuMask = initLlcCpuMask ro

omit [DecidableEq τ] in
theorem maskInv_init (ro : Rodata) : MaskInv ro (System.init ro : System τ) where
  placed := placed_init ro
  exact := fun t i => by simp [System.init, System.runningTier, initBss]
  llcCpuMask := rfl

theorem maskInv_next (h : MaskInv ro s) (hstamped : StopsStamped s cb) {s' : System τ}
    (hstep : SystemStep ro s cb s') : MaskInv ro s' := by
  obtain ⟨horder, rfl⟩ := hstep
  exact ⟨placed_next h.placed horder.inPlace, masksExact_next h.placed h.exact horder hstamped,
    (llcCpuMask_next ro s cb).trans h.llcCpuMask⟩

omit [DecidableEq τ] in
/-- Where the sets are exact, so are the kicks. -/
theorem MaskInv.kicksRunning (h : MaskInv ro s) : KicksRunning ro s := by
  intro p env v hkick
  obtain ⟨i, hi, hllc, t, ht, hmem⟩ := kickVictim_spec (imperatorEnqueue_kick hkick)
  rw [imperatorEnqueue_llcCpuMask, h.llcCpuMask, mem_initLlcCpuMask] at hllc
  rw [imperatorEnqueue_tierCpuMask, h.exact t i] at hmem
  exact ⟨i, hi, hllc.1, hllc.2, t, ht, hmem⟩

/-- **When `tier_cpu_mask` is exact.** In every state a run of the system goes through the sets
show the running tasks, and a kick hits one of them, exactly when every stop of the run finds a
start time other than zero. -/
theorem masks_exact_iff (ro : Rodata) (cbs : List (Callback τ)) :
    Throughout (SystemStep ro) (System.init ro) cbs (fun s => MasksExact s ∧ KicksRunning ro s) ↔
      AtEvents (SystemStep ro) (System.init ro) cbs StopsStamped := by
  constructor
  · intro h before cb after s s' hcbs hrun hstep
    have hexact : MasksExact s := (h before (cb :: after) s hcbs hrun).1
    have hexact' : MasksExact s' :=
      (h (before ++ [cb]) after s' (by rw [hcbs, List.append_assoc, List.singleton_append])
        (hrun.snoc hstep)).1
    obtain ⟨horder, rfl⟩ := hstep
    exact stamped_of_masksExact (SystemRun.placed hrun) hexact horder hexact'
  · intro h before after s hcbs hrun
    have hinv : MaskInv ro s := throughout_of_atEvents (maskInv_init ro)
      (fun _ _ _ hinv hstamped hstep => maskInv_next hinv hstamped hstep) h before after s hcbs hrun
    exact ⟨hinv.exact, hinv.kicksRunning⟩

/-- A bulk task runs on CPU 0, from a time whose low half is zero, for a microsecond. There is a
second task, of nice value 0. -/
def wrappedBout : List (Callback Bool) :=
  [.enable false 135 true, .enable true 120 true, .running false 0 4294967296,
    .stopping false 0 4294968320 false]

/-- CPU 0 stays in the set of T3, and is kicked for the second task when that one is woken,
although nothing runs on it. -/
theorem wrappedBout_leaves_bit : ∃ s, SystemRun defaultRodata wrappedBout s ∧ ¬ MasksExact s ∧
    ¬ KicksRunning defaultRodata s := by
  have henabled : SystemRun defaultRodata [.enable false 135 true, .enable true 120 true] _ :=
    (Run.nil.snoc ⟨⟨nofun, trivial⟩, rfl⟩).snoc ⟨⟨nofun, trivial⟩, rfl⟩
  have hrunning := Run.snoc henabled (e := Callback.running false 0 4294967296)
    ⟨⟨by rintro _ ⟨⟩; decide, nofun, rfl, nofun⟩, rfl⟩
  have hstopped := Run.snoc hrunning (e := Callback.stopping false 0 4294968320 false)
    ⟨⟨by rintro _ ⟨⟩; decide, rfl⟩, rfl⟩
  refine ⟨_, hstopped, fun hexact => ?_, fun hkicks => ?_⟩
  · cases (hexact Tier.bulk 0).mp rfl
  · obtain ⟨i, hi, -, -, t, -, ht⟩ := hkicks true ⟨1, 0, 4294969344, false, ⟨true, false⟩⟩ 0 rfl
    obtain rfl : i = 0 := Fin.ext hi
    cases ht

end Imperator
