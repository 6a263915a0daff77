import Imperator.Classification

/-!
# The end of a new flow

A new task is a new flow: its enqueues are granted the bonus. It also has a deficit, which every
bout is charged to, and when the deficit is used up the bonus should end.

The deficit is charged on both paths of a stop, but only the full path looks at the flag, and it
does so on the deficit it has just charged. So the flag is cleared late, or not at all, when the
early return of a settled task uses up the deficit: from then on every enqueue grants the bonus
until the next full pass, up to 1023 stops later.

## Main definitions

* `NewFlowOver` — a task without deficit is not a new flow, and no enqueue treats it as one
* `PaysInFull` — what keeps a stop from leaving a new flow without deficit

## Main results

* `accountBout_newFlowOver_iff`, `newFlowOver_of_apply` — one stop, one event
* `newFlow_ends_iff` — whole runs
-/

namespace Imperator

open Transition

variable {ro : Rodata} {c c' : TaskCtx} {op : TaskOp} {ops : List TaskOp} {bout : U16}

/-- The task is not a new flow any more once its deficit is used up: the flag is clear, and no
enqueue grants more than the bonus of a lock holder. -/
def NewFlowOver (ro : Rodata) (c : TaskCtx) : Prop :=
  c.deficit = 0#16 → hasFlag c.packedInfo .new = false ∧ ∀ env bss,
    (imperatorEnqueue ro env (some c) bss).advance
      ≤ if hasFlag c.packedInfo .lockHolder then ro.newFlowBonusNs else 0

/-- The early return does not use up the deficit of a new flow. -/
def PaysInFull (c : TaskCtx) (bout : U16) : Prop :=
  TakesBackoff c → hasFlag c.packedInfo .new = true → bout < c.deficit

/-- An enqueue asks for no more than the flags of the task give. -/
theorem imperatorEnqueue_advance_le (hnew : hasFlag c.packedInfo .new = false) (env : EnqueueEnv)
    (bss : Bss) : (imperatorEnqueue ro env (some c) bss).advance
      ≤ if hasFlag c.packedInfo .lockHolder then ro.newFlowBonusNs else 0 := by
  rcases imperatorEnqueue_cases ro env (some c) bss with ⟨t, h⟩ | ⟨d, hd, h⟩
  · rw [h]
    exact BitVec.le_def.mpr (Nat.zero_le _)
  · obtain rfl := Option.some.inj hd
    have hadvance : flowAdvance ro c.packedInfo
        = if hasFlag c.packedInfo .lockHolder then ro.newFlowBonusNs else 0 := by
      rw [flowAdvance, hnew, if_neg Bool.false_ne_true]
      exact BitVec.zero_add _
    rw [h, queueStandard, stampedCtx_packedInfo]
    exact BitVec.le_def.mpr (congrArg BitVec.toNat hadvance).le

/-- The flag decides: where it is clear nothing is granted for it. -/
theorem newFlowOver_iff :
    NewFlowOver ro c ↔ (c.deficit = 0#16 → hasFlag c.packedInfo .new = false) :=
  ⟨fun h hzero => (h hzero).1, fun h hzero => ⟨h hzero, imperatorEnqueue_advance_le (h hzero)⟩⟩

theorem newFlowOver_of_sameAccount (h : SameAccount c c') (hc : NewFlowOver ro c) :
    NewFlowOver ro c' := by
  rw [newFlowOver_iff] at hc ⊢
  rw [h.deficit, h.isNew]
  exact hc

/-- **One stop.** The full path ends the flow together with the deficit; the early return does so
exactly when it has nothing to end. -/
theorem accountBout_newFlowOver_iff (runnable : Bool) :
    NewFlowOver ro (accountBout ro runnable bout c) ↔ PaysInFull c bout := by
  rw [newFlowOver_iff, accountBout_deficit, chargeDeficit_eq_zero_iff, PaysInFull]
  by_cases hback : TakesBackoff c
  · rw [accountBout_of_backoff ro runnable bout hback, quickPass_hasFlag, entered]
    constructor
    · intro hflag _ hnew
      refine BitVec.not_le.mp fun hle => ?_
      exact absurd (hnew.symm.trans (hflag hle)) (by decide)
    · intro hpays hle
      refine Bool.eq_false_iff.mpr fun hnew => ?_
      exact absurd hle (BitVec.not_le.mpr (hpays hback hnew))
  · refine iff_of_true (fun hle => ?_) fun h => absurd h hback
    have hzero : chargeDeficit (entered runnable bout c).deficit bout = 0#16 :=
      (chargeDeficit_eq_zero_iff _ _).mpr hle
    rw [accountBout_of_full ro runnable bout hback, fullPass_new, decide_eq_true hzero,
      Bool.not_true, Bool.and_false]

/-- Seeding a task again on exec clears neither the flag nor the deficit. -/
theorem initTaskExec_newFlowOver (prio : U32) (h : NewFlowOver ro c) :
    NewFlowOver ro (initTaskExec ro prio c) := by
  have hdeficit : (initTaskExec ro prio c).deficit = c.deficit := extractDeficit_pack _ _
  rw [newFlowOver_iff] at h ⊢
  rw [hdeficit, initTaskExec_packedInfo, hasFlag_setTierStable]
  exact h

/-- The sleep timestamp, which a stop writes first, plays no part in this. -/
theorem stopping_newFlowOver_iff {cpu : Cpu} {now : U64} {runnable : Bool} {bss : Bss}
    (hbout : chargedBout (now.setWidth 32) c = some bout)
    (h : TaskOp.apply ro (some c) (.stopping cpu now runnable bss) = some c') :
    NewFlowOver ro c' ↔ PaysInFull c bout := by
  obtain ⟨stamp, hstop⟩ := apply_stopping_of_charged ro cpu runnable bss hbout
  rw [← Option.some.inj (hstop.symm.trans h), accountBout_newFlowOver_iff]
  exact Iff.rfl

/-- **One event.** Forks aside, an event keeps the property if its stop pays in full. -/
theorem newFlowOver_of_apply (hover : NewFlowOver ro c) (h : op.apply ro (some c) = some c')
    (hfork : ∀ prio parent, .initTask true prio parent ≠ op)
    (hpays : ∀ cpu now runnable bss bout, op = .stopping cpu now runnable bss →
      chargedBout (now.setWidth 32) c = some bout → PaysInFull c bout) : NewFlowOver ro c' := by
  cases effect_of_apply h with
  | kept hsame _ => exact newFlowOver_of_sameAccount hsame hover
  | accounted hbout =>
    exact (stopping_newFlowOver_iff hbout h).mpr (hpays _ _ _ _ _ rfl hbout)
  | @execed _ prio _ => exact initTaskExec_newFlowOver prio hover
  | forked => exact absurd rfl (hfork _ _)

/-! ### Runs -/

/-- `P c bout` holds at every stop of the run of `ops` that accounts for a bout, where `c` is the
context before the stop. -/
def AtAccounting (ro : Rodata) (ops : List TaskOp) (P : TaskCtx → U16 → Prop) : Prop :=
  ∀ before after cpu now runnable bss c bout,
    ops = before ++ .stopping cpu now runnable bss :: after → TaskRun ro anyOp before (some c) →
    chargedBout (now.setWidth 32) c = some bout → P c bout

/-- `P d` holds of every context `d` the run of `ops` goes through, from the first stop that
accounts for a bout on. -/
def AfterAccounting (ro : Rodata) (ops : List TaskOp) (P : TaskCtx → Prop) : Prop :=
  ∀ before later after cpu now runnable bss c bout d,
    ops = before ++ .stopping cpu now runnable bss :: (later ++ after) →
    TaskRun ro anyOp before (some c) → chargedBout (now.setWidth 32) c = some bout →
    Run (Guarded (ofNext (TaskOp.apply ro)) anyOp) (some c)
      (.stopping cpu now runnable bss :: later) (some d) → P d

/-- **When the bonus ends with the deficit.** In a run without forks onto the task, no context
after an accounting stop is a new flow without deficit exactly when no early return uses up the
deficit of a new flow. -/
theorem newFlow_ends_iff (ro : Rodata) (hfork : ∀ prio parent, .initTask true prio parent ∉ ops) :
    AfterAccounting ro ops (NewFlowOver ro) ↔ AtAccounting ro ops PaysInFull := by
  constructor
  · intro h before after cpu now runnable bss c bout hops hrun hbout
    obtain ⟨stamp, hstop⟩ := apply_stopping_of_charged ro cpu runnable bss hbout
    exact (stopping_newFlowOver_iff hbout hstop).mp
      (h before [] after cpu now runnable bss c bout _ hops hrun hbout
        (Run.single_iff.mpr ⟨trivial, hstop.symm⟩))
  · intro h before later after cpu now runnable bss c bout d hops hrun hbout hlater
    induction later using List.reverseRecOn generalizing after d with
    | nil =>
      obtain ⟨-, hd⟩ := Run.single_iff.mp hlater
      exact (stopping_newFlowOver_iff hbout hd.symm).mpr (h _ _ _ _ _ _ _ _ hops hrun hbout)
    | append_singleton later op ih =>
      obtain ⟨e, hfirst, -, hd⟩ := hlater.of_concat (_ :: later)
      obtain ⟨e, rfl⟩ := run_isSome hfirst
      have hops' : ops = before ++ .stopping cpu now runnable bss :: (later ++ op :: after) := by
        rw [hops, List.append_assoc, List.singleton_append]
      have hover : NewFlowOver ro e := ih (op :: after) e hops' hfirst
      refine newFlowOver_of_apply hover hd.symm (fun prio parent heq => ?_)
        fun cpu' now' runnable' bss' bout' heq hbout' => ?_
      · refine hfork prio parent ?_
        rw [hops', heq]
        simp
      · refine h (before ++ .stopping cpu now runnable bss :: later) after cpu' now' runnable' bss'
          e bout' ?_ (hrun.append hfirst) hbout'
        rw [hops', heq, List.append_assoc, List.cons_append]

/-- The one stop of this run takes the full path. -/
theorem settlingRun_bonus_ends :
    AfterAccounting defaultRodata settlingRun (NewFlowOver defaultRodata) := by
  refine (newFlow_ends_iff defaultRodata (by simp [settlingRun])).mpr ?_
  intro before after cpu now runnable bss c bout hops hrun hbout hback
  have hbefore : before = [.enable 120 true, .running 0 1000000 (initBss defaultRodata)] := by
    rcases before with _ | ⟨a, _ | ⟨b, _ | ⟨d, before⟩⟩⟩ <;> simp [settlingRun] at hops ⊢
    exact ⟨hops.1.symm, hops.2.1.symm⟩
  rw [hbefore] at hrun
  obtain rfl := Option.some.inj hrun.eq_foldl
  exact absurd hback (by decide)

/-- The task is settled after three bursts of a millisecond. -/
def settledFlowRun : List TaskOp :=
  .enable 120 true :: (burst 1000000 1050 ++ burst 10000000 1050 ++ burst 20000000 1050 ++
    [.running 0 30000000 (initBss defaultRodata)])

/-- Then its fourth burst uses up what is left of its deficit on the early return, and it stays a
new flow. -/
theorem settledFlowRun_stays_new : ¬ AfterAccounting defaultRodata
    (settledFlowRun ++ [.stopping 0 36773760 false (initBss defaultRodata)])
    (NewFlowOver defaultRodata) := by
  intro h
  have hrun := taskRun_anyOp defaultRodata settledFlowRun
  have hover := h settledFlowRun [] [] 0 36773760 false (initBss defaultRodata) _ 6615 _ rfl hrun
    (by decide) (Run.single_iff.mpr ⟨trivial, rfl⟩)
  exact absurd (hover (by decide)).1 (by decide)

end Imperator
