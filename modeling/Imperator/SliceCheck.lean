import Imperator.Loader
import Imperator.SliceRestore
import Imperator.Tick

/-!
# The slice check and the starvation check

Every budget exceeds the slice of its tier, so a task that has run for longer than its budget has
also run for longer than its slice. While something is queued the tick then preempts it for the
slice, and never comes to the starvation check.

That is about the slice of the *tier*. A new context starts with a whole quantum instead, and keeps
it until the first stop that accounts for a bout. For a task that starts in T0, whose budget is
shorter than the quantum of two of the three profiles, the order is the other way round until then.

## Main definitions

* `StarvationBranch` — the tick kicks for the budget, or spares a lock holder
* `SliceFirst` — the slice check comes first
* `Accounts` — some stop of the run accounts for a bout

## Main results

* `sliceFirst_iff` — it is a matter of slice and budget
* `sliceFirst_iff_of_run` — when the slice check comes first, in every run
-/

namespace Imperator

open Transition

variable {ro : Rodata} {env : TickEnv} {c c' : TaskCtx} {bss : Bss} {op : TaskOp}
  {ops : List TaskOp} {prio : U32}

/-! ### The two checks -/

/-- The runtime a tick compares, as it computes it. -/
def tickRuntime (env : TickEnv) (c : TaskCtx) : U64 :=
  (env.now.setWidth 32 - c.lastRunAt).setWidth 64

/-- The tick gets past the slice check, looks at the run queue, sees contention, and finds the task
over its budget: it kicks, or spares a lock holder. -/
def StarvationBranch (ro : Rodata) (env : TickEnv) (c : TaskCtx) (bss : Bss) : Prop :=
  PastSlice env c ∧
    ((bss.megaMailbox env.cpu).tickCounter &&& skipMask (bss.megaMailbox env.cpu).tickCounter = 0 ∧
      env.nrRunning.any fun n => 1 < n) ∧
    budget ro.tierConfigs c.tier < tickRuntime env c

/-- Past the slice check, a tick that does not come to that branch neither kicks nor counts a
skip. -/
theorem imperatorTick_of_not_starvationBranch (hpast : PastSlice env c)
    (h : ¬ StarvationBranch ro env c bss) :
    (imperatorTick ro env (some c) bss).kick = false ∧
      (imperatorTick ro env (some c) bss).ctx = some c := by
  rw [imperatorTick_of_pastSlice hpast, starvationCheck]
  dsimp only
  split
  · next hseen =>
    have hwithin : ¬ unpackStarvationNs (ro.tierConfigs (cakeTierIdx c.tier))
        < (env.now.setWidth 32 - c.lastRunAt).setWidth 64 := fun hover => h ⟨hpast, hseen, hover⟩
    rw [if_neg hwithin]
    exact ⟨rfl, rfl⟩
  · exact ⟨rfl, rfl⟩

/-- The slice check comes first. -/
structure SliceFirst (ro : Rodata) (c : TaskCtx) : Prop where
  /-- the slice does not exceed the budget -/
  slice_le : c.nextSlice ≤ budget ro.tierConfigs c.tier
  /-- at every tick, a task over its budget is over its slice -/
  expired : ∀ env, budget ro.tierConfigs c.tier < tickRuntime env c →
    c.nextSlice < tickRuntime env c
  /-- while something is queued, no tick kicks for the budget or spares a lock holder -/
  unreachable : ∀ env bss, env.llcQueued ∨ env.localQueued → ¬ StarvationBranch ro env c bss

/-- **It is a matter of slice and budget.** -/
theorem sliceFirst_iff : SliceFirst ro c ↔ c.nextSlice ≤ budget ro.tierConfigs c.tier := by
  constructor
  · exact SliceFirst.slice_le
  · intro hle
    have hexp : ∀ env, budget ro.tierConfigs c.tier < tickRuntime env c →
        c.nextSlice < tickRuntime env c := fun env hover => by
      rw [BitVec.le_def] at hle
      rw [BitVec.lt_def] at hover ⊢
      exact Nat.lt_of_le_of_lt hle hover
    refine ⟨hle, hexp, ?_⟩
    rintro env bss hqueued ⟨hpast, -, hover⟩
    exact hpast.2 ⟨hexp env hover, hqueued⟩

/-! ### Runs -/

/-- Some stop of the run accounts for a bout. -/
def Accounts (ro : Rodata) (ops : List TaskOp) : Prop :=
  ∃ before after cpu now runnable bss c bout,
    ops = before ++ .stopping cpu now runnable bss :: after ∧ TaskRun ro anyOp before (some c) ∧
      chargedBout (now.setWidth 32) c = some bout

/-- The life of a task: it is not seeded again, and no enqueue is a preemption. -/
def TaskOp.LifeCycle : TaskOp → Prop
  | .initTask .. => False
  | .enqueue env _ => env.flags.preempt = false
  | _ => True

/-- It is the last stop that accounts for a bout, or an earlier one. -/
theorem accounts_snoc_iff : Accounts ro (ops ++ [op]) ↔ Accounts ro ops ∨
    ∃ cpu now runnable bss c bout, op = .stopping cpu now runnable bss ∧
      TaskRun ro anyOp ops (some c) ∧ chargedBout (now.setWidth 32) c = some bout := by
  constructor
  · rintro ⟨before, after, cpu, now, runnable, bss, c, bout, hops, hrun, hbout⟩
    rcases List.eq_nil_or_concat after with rfl | ⟨after, last, rfl⟩
    · obtain ⟨rfl, hlast⟩ := List.append_inj' hops rfl
      exact Or.inr ⟨cpu, now, runnable, bss, c, bout, List.head_eq_of_cons_eq hlast, hrun, hbout⟩
    · have hsplit : ops ++ [op]
          = (before ++ .stopping cpu now runnable bss :: after) ++ [last] := by
        rw [hops, List.append_assoc, List.cons_append, List.concat_eq_append]
      obtain ⟨rfl, -⟩ := List.append_inj' hsplit rfl
      exact Or.inl ⟨before, after, cpu, now, runnable, bss, c, bout, rfl, hrun, hbout⟩
  · rintro (⟨before, after, cpu, now, runnable, bss, c, bout, rfl, hrun, hbout⟩ |
      ⟨cpu, now, runnable, bss, c, bout, rfl, hrun, hbout⟩)
    · refine ⟨before, after ++ [op], cpu, now, runnable, bss, c, bout, ?_, hrun, hbout⟩
      rw [List.append_assoc, List.cons_append]
    · exact ⟨ops, [], cpu, now, runnable, bss, c, bout, rfl, hrun, hbout⟩

/-- What is known of a context along its life: without credit, and either as it was created or with
the slice of its tier. -/
structure LifeInv (ro : Rodata) (prio : U32) (ops : List TaskOp) (c : TaskCtx) : Prop where
  burstCredit : c.burstCredit = 0
  atBaseline : Accounts ro ops → AtBaseline ro c
  asCreated : ¬ Accounts ro ops →
    c.nextSlice = ro.quantumNs ∧ c.tier = initTier prio ∧ c.stable = 0

/-- An event that is not an accounting stop. -/
theorem LifeInv.kept (h : LifeInv ro prio ops c) (hslice : SameSlice c c')
    (hsame : SameAccount c c') (hacc : Accounts ro (ops ++ [op]) ↔ Accounts ro ops) :
    LifeInv ro prio (ops ++ [op]) c' := by
  refine ⟨hslice.burstCredit.trans h.burstCredit, fun hacc' => ?_, fun hacc' => ?_⟩
  · rw [AtBaseline, hslice.nextSlice, hsame.tier]
    exact h.atBaseline (hacc.mp hacc')
  · rw [hslice.nextSlice, hsame.tier, hsame.stable]
    exact h.asCreated (mt hacc.mpr hacc')

/-- **One event** of a life. -/
theorem lifeInv_snoc (h : LifeInv ro prio ops c) (hrun : TaskRun ro anyOp ops (some c))
    (hop : op.LifeCycle) (happly : op.apply ro (some c) = some c') :
    LifeInv ro prio (ops ++ [op]) c' := by
  have hquiet : op.KeepsSlice → LifeInv ro prio (ops ++ [op]) c' := by
    intro hkeeps
    refine h.kept (sameSlice_of_apply hkeeps h.burstCredit happly)
      (sameAccount_of_apply hkeeps happly) ?_
    rw [accounts_snoc_iff]
    refine or_iff_left ?_
    rintro ⟨cpu, now, runnable, bss, d, bout, rfl, -⟩
    exact hkeeps
  cases op with
  | initTask => exact hop.elim
  | stopping cpu now runnable bss =>
    rcases apply_stopping_cases happly with ⟨hnone, rfl⟩ | ⟨bout, hbout, hc'⟩
    · refine h.kept ⟨rfl, rfl⟩ (SameAccount.refl _) ?_
      rw [accounts_snoc_iff]
      refine or_iff_left ?_
      rintro ⟨cpu', now', runnable', bss', d, bout, heq, hrun', hbout⟩
      obtain rfl := Option.some.inj (hrun.eq_foldl.trans hrun'.eq_foldl.symm)
      cases heq
      rw [hnone] at hbout
      cases hbout
    · have hacc : Accounts ro (ops ++ [.stopping cpu now runnable bss]) :=
        accounts_snoc_iff.mpr (Or.inr ⟨cpu, now, runnable, bss, c, _, rfl, hrun, hbout⟩)
      refine ⟨?_, fun _ => (stopping_atBaseline_iff hbout happly).mpr fun hback => ?_,
        fun hnot => absurd hacc hnot⟩
      · rw [hc']
        exact accountBout_burstCredit ro runnable _ h.burstCredit
      · -- a task that was never accounted for is not settled
        refine h.atBaseline (not_not.mp fun hnone => ?_)
        exact absurd ((h.asCreated hnone).2.2.symm.trans hback.1) (by decide)
  | enqueue env bss => exact hquiet hop
  | enable | selectCpu | running | tick | lockHolder => exact hquiet trivial

/-- Any number of events. -/
theorem lifeInv_of_run (hops : ∀ op ∈ ops, op.LifeCycle)
    (hrun : TaskRun ro anyOp (.enable prio true :: ops) (some c)) :
    LifeInv ro prio (.enable prio true :: ops) c := by
  induction ops using List.reverseRecOn generalizing c with
  | nil =>
    obtain rfl := Option.some.inj hrun.eq_foldl
    have hnone : ¬ Accounts ro [.enable prio true] := by
      rintro ⟨_ | ⟨_, _ | _⟩, after, cpu, now, runnable, bss, c, bout, hops, -⟩ <;> cases hops
    exact ⟨rfl, fun hacc => absurd hacc hnone,
      fun _ => ⟨rfl, allocTaskCtxCold_tier ro prio, allocTaskCtxCold_stable ro prio⟩⟩
  | append_singleton ops op ih =>
    rw [TaskRun, ← List.cons_append] at hrun
    rw [← List.cons_append]
    obtain ⟨ctx, hbefore, -, happly⟩ := Run.of_concat (.enable prio true :: ops) hrun
    obtain ⟨d, rfl⟩ : ∃ d, ctx = some d := by
      rw [hbefore.eq_foldl]
      exact run_isSome (Run.foldl (some (allocTaskCtxCold ro prio)) ops fun _ _ _ =>
        (trivial : anyOp _ _))
    refine lifeInv_snoc (ih (fun o ho => hops o (List.mem_append_left _ ho)) hbefore) hbefore
      (hops op (List.mem_append_right _ (List.mem_singleton_self op))) happly.symm

/-! ### The profiles -/

/-- The globals of a profile without overrides. -/
def profileRodata (p : Profile) (verbose stats : Bool) (topo : TopologyInfo) : Rodata :=
  newRodata ⟨p, none, none, none, verbose, stats⟩ topo

/-- **Every budget exceeds the slice of its tier.** -/
theorem tierSlice_le_budget (p : Profile) (verbose stats : Bool) (topo : TopologyInfo) (t : Tier) :
    (profileRodata p verbose stats topo).tierSlice t
      ≤ budget (profileRodata p verbose stats topo).tierConfigs t := by
  show (p.values.1 * 1000 * unpackMultiplier (p.tierConfigs p.values.1 none (cakeTierIdx t))) >>> 10
    ≤ budget (p.tierConfigs p.values.1 none) t
  revert t
  cases p <;> decide

/-- A whole quantum exceeds only the budget of T0, and not in the Esports profile. -/
theorem quantum_le_budget_iff (p : Profile) (verbose stats : Bool) (topo : TopologyInfo)
    (t : Tier) : (profileRodata p verbose stats topo).quantumNs
        ≤ budget (profileRodata p verbose stats topo).tierConfigs t
      ↔ p = .esports ∨ t ≠ Tier.critical := by
  show p.values.1 * 1000 ≤ budget (p.tierConfigs p.values.1 none) t ↔ _
  revert t
  cases p <;> decide

theorem initTier_ne_critical_iff : initTier prio ≠ Tier.critical ↔ 120 ≤ prio := by
  rw [initTier]
  split
  · next hlt => exact iff_of_false (not_not.mpr rfl) (BitVec.not_le.mpr hlt)
  · next hge =>
    refine iff_of_true ?_ (BitVec.not_lt.mp hge)
    split <;> decide

/-- **When the slice check comes first.** In every run of a task of a profile without overrides,
without preemptions and without a second seeding, the slice check comes first exactly in the
Esports profile, for a task that does not start in T0, and once a stop has accounted for a bout. -/
theorem sliceFirst_iff_of_run (p : Profile) (verbose stats : Bool) (topo : TopologyInfo)
    (hops : ∀ op ∈ ops, op.LifeCycle)
    (hrun : TaskRun (profileRodata p verbose stats topo) anyOp (.enable prio true :: ops)
      (some c)) :
    SliceFirst (profileRodata p verbose stats topo) c ↔
      p = .esports ∨ 120 ≤ prio ∨
        Accounts (profileRodata p verbose stats topo) (.enable prio true :: ops) := by
  have hlife := lifeInv_of_run hops hrun
  rw [sliceFirst_iff]
  by_cases hacc : Accounts (profileRodata p verbose stats topo) (.enable prio true :: ops)
  · refine iff_of_true ?_ (Or.inr (Or.inr hacc))
    rw [hlife.atBaseline hacc]
    exact tierSlice_le_budget p verbose stats topo c.tier
  · obtain ⟨hslice, htier, -⟩ := hlife.asCreated hacc
    rw [hslice, htier, quantum_le_budget_iff, initTier_ne_critical_iff, or_iff_left hacc]

/-- The globals of the Default profile on a machine with one LLC. -/
def defaultProfile : Rodata := profileRodata .default false false (detect dualCcd)

/-- A task with a negative nice value on its first bout. -/
def firstBout : List TaskOp := [.enable 110 true, .running 0 1000000 (initBss defaultProfile)]

/-- 1.6 ms later something is queued and a second task is runnable. -/
def firstBoutTick : TickEnv := ⟨0, 2600000, true, false, some 2, 1024⟩

/-- The tick kicks for the budget, the slice is not used up. -/
theorem firstBout_starvation : ∃ c, TaskRun defaultProfile anyOp firstBout (some c) ∧
    firstBoutTick.llcQueued ∧ StarvationBranch defaultProfile firstBoutTick c
      (initBss defaultProfile) ∧ ¬ SliceFirst defaultProfile c := by
  refine ⟨_, taskRun_anyOp defaultProfile firstBout, rfl, ?_, ?_⟩
  · unfold StarvationBranch
    decide
  · rw [sliceFirst_iff]
    decide

/-- After one bout of a millisecond the slice check comes first. -/
theorem secondBout_sliceFirst : ∃ c,
    TaskRun defaultProfile anyOp (firstBout ++ [.stopping 0 2024000 true (initBss defaultProfile)])
      (some c) ∧ SliceFirst defaultProfile c := by
  have hrun := taskRun_anyOp defaultProfile
    (firstBout ++ [.stopping 0 2024000 true (initBss defaultProfile)])
  have hops : ∀ op ∈ [TaskOp.running 0 1000000 (initBss defaultProfile),
      .stopping 0 2024000 true (initBss defaultProfile)], op.LifeCycle := by
    rintro op hop
    rcases List.mem_pair.mp hop with rfl | rfl <;> trivial
  have hbefore := taskRun_anyOp defaultProfile firstBout
  refine ⟨_, hrun, (sliceFirst_iff_of_run .default false false (detect dualCcd) hops hrun).mpr
    (Or.inr (Or.inr ⟨firstBout, [], 0, 2024000, true, initBss defaultProfile, _, 1000, rfl,
      hbefore, by decide⟩))⟩

end Imperator
