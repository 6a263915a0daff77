import Imperator.Tick

/-!
# The exits of a tick

A tick of a task with a context ends in one of five ways. A task without a stamp is stamped. A task
past its slice is preempted. Past that, a task over its starvation budget is preempted too, unless
it holds a lock and was not spared too often; and in the two remaining cases a frequency is
requested.

`TickExit` lists them with what each leaves behind. What is proved about the skip count and about
the frequency is read off the list.

## Main definitions

* `OverBudget`, `Spared` — the starvation check finds a task over its budget, and spares it
* `endTick` — the end of a tick that preempts nothing
* `TickExit` — the exits

## Main results

* `tickExit` — a tick ends in one of them
-/

namespace Imperator

variable {ro : Rodata} {env : TickEnv} {c : TaskCtx} {bss bss' : Bss} {i : Cpu}

/-- The starvation check looks at the run queue, sees contention, and finds the task over the budget
of its tier. -/
def OverBudget (ro : Rodata) (env : TickEnv) (c : TaskCtx) (bss : Bss) : Prop :=
  let tc := (bss.megaMailbox env.cpu).tickCounter
  (tc &&& skipMask tc = 0 ∧ env.nrRunning.any fun n => 1 < n) ∧
    unpackStarvationNs (ro.tierConfigs (cakeTierIdx c.tier))
      < (env.now.setWidth 32 - c.lastRunAt).setWidth 64

instance : Decidable (OverBudget ro env c bss) := inferInstanceAs (Decidable (_ ∧ _))

/-- A lock holder that was spared less than four times. -/
def Spared (c : TaskCtx) : Prop := hasFlag c.packedInfo .lockHolder = true ∧ c.lockSkipCount < 4

instance : Decidable (Spared c) := inferInstanceAs (Decidable (_ ∧ _))

/-- `mailbox_dvfs` and `mailbox_dvfs_max`, with the target of the block. -/
def endTick (cpu : Cpu) (t : Tier) (c : TaskCtx) (target : U32) (bss : Bss) : TickResult where
  ctx := some c
  bss := (mailboxDvfs cpu t target bss).1
  kick := false
  cpuperf := (mailboxDvfs cpu t target bss).2

/-- No hint was written. -/
def SameHints (bss bss' : Bss) : Prop :=
  ∀ i, (bss'.megaMailbox i).dsqHint = (bss.megaMailbox i).dsqHint

/-- Where a tick ends, and with what. -/
inductive TickExit (ro : Rodata) (env : TickEnv) (c : TaskCtx) (bss : Bss) : TickResult → Prop
  | stamped : c.lastRunAt = 0 →
      TickExit ro env c bss ⟨some { c with lastRunAt := env.now.setWidth 32 }, bss, false, none⟩
  | sliced : c.lastRunAt ≠ 0 → SliceExpired env c →
      TickExit ro env c bss (preemptSelf env.cpu c.tier c bss)
  | spared {bss' : Bss} : PastSlice env c → OverBudget ro env c bss → Spared c →
      SameHints bss bss' → TickExit ro env c bss
        (endTick env.cpu c.tier { c with lockSkipCount := c.lockSkipCount + 1 }
          (scaledTarget ro env c.tier) bss')
  | starved {bss' : Bss} : PastSlice env c → OverBudget ro env c bss → ¬ Spared c →
      SameHints bss bss' → TickExit ro env c bss
        (preemptSelf env.cpu c.tier
          { c with
            lockSkipCount := if hasFlag c.packedInfo .lockHolder then 0 else c.lockSkipCount }
          bss')
  | quiet {bss' : Bss} : PastSlice env c → ¬ OverBudget ro env c bss → SameHints bss bss' →
      TickExit ro env c bss (endTick env.cpu c.tier c scxCpuperfOne bss')

/-- Storing the confidence counter writes no hint. -/
theorem sameHints_counter (cpu : Cpu) (tc : U8) (bss : Bss) :
    SameHints bss (bss.setMailbox cpu { bss.megaMailbox cpu with tickCounter := tc }) := by
  intro i
  show ((Function.update bss.megaMailbox cpu _) i).dsqHint = _
  rcases eq_or_ne i cpu with rfl | hne
  · rw [Function.update_self]
  · rw [Function.update_of_ne hne]

theorem SameHints.count (h : SameHints bss bss') (ro : Rodata) (cpu : Cpu) (f : Stats → Stats) :
    SameHints bss (bss'.count ro cpu f) := by
  intro i
  rw [Bss.count_megaMailbox]
  exact h i

theorem starvationCheck_exit (ro : Rodata) (bss : Bss) (hpast : PastSlice env c) :
    TickExit ro env c bss (starvationCheck ro env c bss) := by
  have hcounter := fun tc => sameHints_counter env.cpu tc bss
  rw [starvationCheck]
  dsimp only
  split
  · next hseen =>
    split
    · next hover =>
      split
      · next hspared => exact .spared hpast ⟨hseen, hover⟩ hspared ((hcounter _).count ro _ _)
      · next hspared => exact .starved hpast ⟨hseen, hover⟩ hspared ((hcounter _).count ro _ _)
    · next hover => exact .quiet hpast (fun h => hover h.2) (hcounter _)
  · next hseen => exact .quiet hpast (fun h => hseen h.1) (hcounter _)

/-- **A tick ends in one of the five ways.** -/
theorem tickExit (ro : Rodata) (env : TickEnv) (c : TaskCtx) (bss : Bss) :
    TickExit ro env c bss (imperatorTick ro env (some c) bss) := by
  by_cases hzero : c.lastRunAt = 0
  · rw [imperatorTick_of_zero hzero]
    exact .stamped hzero
  · by_cases hexpired : SliceExpired env c
    · rw [imperatorTick_of_expired hzero hexpired]
      exact .sliced hzero hexpired
    · rw [imperatorTick_of_pastSlice ⟨hzero, hexpired⟩]
      exact starvationCheck_exit ro bss ⟨hzero, hexpired⟩

end Imperator
