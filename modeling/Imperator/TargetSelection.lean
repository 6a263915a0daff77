import Imperator.TickExits

/-!
# The frequency a tick asks for

The frequency should be the target of the tier, scaled by the capability of the core. Only where the
running task is the sole occupant of its CPU is the tier to be left aside, and the maximum to be
requested whatever the core is capable of.

The source has a block for each of the two, at the end of the tick. The block for a sole occupant
stands first, and every exit but one falls through into it: only a tick that spares a lock holder
jumps over it. On a core that can run at the maximum this goes unnoticed, since the tiers have the
same target.

## Main definitions

* `dvfsTarget` — the target of the block a tick ends in
* `LockHolderSkip`, `PinsMaximum` — a lock holder is spared, and the capability is left aside
* `TargetSelected` — the frequencies are those the two blocks are meant for

## Main results

* `imperatorTick_cpuperf` — the call of a tick
* `pinsMaximum_iff` — when the maximum is requested unconditionally
* `findsTarget_iff` — when the target of the tier is requested
* `targetSelected_iff` — when the frequencies are as they are meant
-/

namespace Imperator

variable {ro : Rodata} {env : TickEnv} {c : TaskCtx} {bss bss' : Bss} {cpu : Cpu} {r : TickResult}
  {target last : U32}

/-! ### The code -/

/-- In range, the code is the number of the bucket plus one. -/
theorem dsqHintEncode_toNat (h : target.toNat ≤ 1024) :
    (dsqHintEncode target).toNat = target.toNat / 8 + 1 := by
  have hone : (1 : U32).toNat = 1 := rfl
  rw [dsqHintEncode, BitVec.toNat_setWidth, BitVec.toNat_add, BitVec.toNat_ushiftRight,
    Nat.shiftRight_eq_div_pow, hone]
  omega

theorem dsqHintEncode_ne_zero (h : target.toNat ≤ 1024) : dsqHintEncode target ≠ 0 := by
  intro hzero
  have hcode := dsqHintEncode_toNat h
  rw [hzero] at hcode
  exact absurd hcode (Nat.succ_ne_zero _).symm

theorem dsqHintEncode_inj (h : target.toNat ≤ 1024) (h' : last.toNat ≤ 1024) :
    dsqHintEncode last = dsqHintEncode target ↔ last.toNat / 8 = target.toNat / 8 := by
  rw [← BitVec.toNat_inj, dsqHintEncode_toNat h, dsqHintEncode_toNat h', Nat.add_right_cancel_iff]

/-- The code of the maximum is that of no other target. -/
theorem dsqHintEncode_maximum_iff (h : target.toNat ≤ 1024) :
    dsqHintEncode scxCpuperfOne = dsqHintEncode target ↔ scxCpuperfOne = target := by
  have hmax : scxCpuperfOne.toNat = 1024 := rfl
  rw [dsqHintEncode_inj h hmax.le, ← BitVec.toNat_inj, hmax]
  omega

/-! ### The target of the tier -/

theorem scaledTarget_toNat (t : Tier) (hcap : env.cpuperfCap ≤ 1024) :
    (scaledTarget ro env t).toNat = if ro.hasHybrid then env.cpuperfCap.toNat else 1024 := by
  have hle : env.cpuperfCap.toNat ≤ 1024 := BitVec.le_def.mp hcap
  rw [scaledTarget, tierPerfTarget, scxCpuperfOne]
  split
  · rw [BitVec.toNat_ushiftRight, BitVec.toNat_mul, Nat.shiftRight_eq_div_pow]
    have h1024 : (1024 : U32).toNat = 1024 := rfl
    rw [h1024]
    omega
  · rfl

theorem scaledTarget_le (t : Tier) (hcap : env.cpuperfCap ≤ 1024) :
    (scaledTarget ro env t).toNat ≤ 1024 := by
  rw [scaledTarget_toNat t hcap]
  split
  · exact BitVec.le_def.mp hcap
  · exact le_rfl

/-- The target is the maximum only where the core can run at it. -/
theorem scaledTarget_eq_maximum_iff (t : Tier) (hcap : env.cpuperfCap ≤ 1024) :
    scxCpuperfOne = scaledTarget ro env t ↔ ro.hasHybrid = false ∨ env.cpuperfCap = 1024 := by
  have hmax : scxCpuperfOne.toNat = 1024 := rfl
  rw [← BitVec.toNat_inj, hmax, scaledTarget_toNat t hcap]
  cases hhybrid : ro.hasHybrid with
  | false => simp
  | true =>
    rw [if_pos rfl, ← BitVec.toNat_inj]
    exact eq_comm.trans (or_iff_right (by simp)).symm

/-! ### The call -/

/-- `dsq_hint` -/
def Bss.dsqHint (bss : Bss) (i : Cpu) : U8 := (bss.megaMailbox i).dsqHint

theorem SameHints.dsqHint_eq (h : SameHints bss bss') : bss'.dsqHint = bss.dsqHint :=
  funext h

/-- The target of the block a tick ends in, where it ends in one. -/
def dvfsTarget (ro : Rodata) (env : TickEnv) (c : TaskCtx) (bss : Bss) : Option U32 :=
  if PastSlice env c then
    if OverBudget ro env c bss then
      if Spared c then some (scaledTarget ro env c.tier) else none
    else some scxCpuperfOne
  else none

theorem mailboxDvfs_cpuperf (cpu : Cpu) (t : Tier) (target : U32) (bss : Bss) :
    (mailboxDvfs cpu t target bss).2 = (some target).filter fun target =>
      decide (bss.dsqHint cpu = 0 ∨ bss.dsqHint cpu ≠ dsqHintEncode target) := by
  rw [mailboxDvfs, Option.filter_some]
  dsimp only
  split
  · next hask => exact (if_pos (decide_eq_true hask)).symm
  · next hfound => exact (if_neg fun h => hfound (of_decide_eq_true h)).symm

/-- **The call of a tick.** It is made where the tick ends in one of the blocks, and the hint is not
the code of the target. -/
theorem imperatorTick_cpuperf (ro : Rodata) (env : TickEnv) (c : TaskCtx) (bss : Bss) :
    (imperatorTick ro env (some c) bss).cpuperf
      = (dvfsTarget ro env c bss).filter fun target =>
          decide (bss.dsqHint env.cpu = 0 ∨ bss.dsqHint env.cpu ≠ dsqHintEncode target) := by
  rw [dvfsTarget]
  generalize hr : imperatorTick ro env (some c) bss = r
  have hexit := hr ▸ tickExit ro env c bss
  cases hexit with
  | stamped hzero => rw [if_neg fun h : PastSlice env c => h.1 hzero, Option.filter_none]
  | sliced _ hexpired =>
    rw [if_neg fun h : PastSlice env c => h.2 hexpired, Option.filter_none]
    rfl
  | spared hpast hover hspared hsame =>
    rw [if_pos hpast, if_pos hover, if_pos hspared, endTick, mailboxDvfs_cpuperf, hsame.dsqHint_eq]
  | starved hpast hover hspared _ =>
    rw [if_pos hpast, if_pos hover, if_neg hspared, Option.filter_none]
    rfl
  | quiet hpast hover hsame =>
    rw [if_pos hpast, if_neg hover, endTick, mailboxDvfs_cpuperf, hsame.dsqHint_eq]

/-- The tick requests `target`, or finds that it was requested last. -/
def FindsTarget (bss : Bss) (cpu : Cpu) (r : TickResult) (target : U32) : Prop :=
  match r.cpuperf with
  | some requested => requested = target
  | none => (bss.megaMailbox cpu).dsqHint = dsqHintEncode target

/-- A tick that ends in a block requests the target of the block, or finds it. -/
theorem findsTarget_of_dvfsTarget (h : dvfsTarget ro env c bss = some target) :
    FindsTarget bss env.cpu (imperatorTick ro env (some c) bss) target := by
  rw [FindsTarget.eq_def, imperatorTick_cpuperf, h, Option.filter_some]
  by_cases hask : bss.dsqHint env.cpu = 0 ∨ bss.dsqHint env.cpu ≠ dsqHintEncode target
  · rw [if_pos (decide_eq_true hask)]
  · rw [if_neg fun hdec => hask (of_decide_eq_true hdec)]
    rw [not_or, not_not] at hask
    exact hask.2

/-- It finds another one only where the code does not tell them apart. -/
theorem FindsTarget.iff_of_code {target' : U32} (h : FindsTarget bss cpu r target)
    (hcode : dsqHintEncode target = dsqHintEncode target' ↔ target = target') :
    FindsTarget bss cpu r target' ↔ target = target' := by
  rw [FindsTarget.eq_def] at h ⊢
  split at h
  · exact h ▸ Iff.rfl
  · exact h ▸ hcode

/-! ### The block -/

/-- A lock holder over the budget of its tier is spared. -/
def LockHolderSkip (ro : Rodata) (env : TickEnv) (c : TaskCtx) (bss : Bss) : Prop :=
  OverBudget ro env c bss ∧ Spared c

instance : Decidable (LockHolderSkip ro env c bss) := inferInstanceAs (Decidable (_ ∧ _))

/-- A tick that gets past the slice check and preempts nothing spares whom it finds over the
budget. -/
theorem spared_of_kick (hpast : PastSlice env c)
    (hkick : (imperatorTick ro env (some c) bss).kick = false) (hover : OverBudget ro env c bss) :
    Spared c := by
  generalize hr : imperatorTick ro env (some c) bss = r at hkick
  have hexit := hr ▸ tickExit ro env c bss
  cases hexit with
  | stamped hzero => exact absurd hzero hpast.1
  | sliced _ hexpired => exact absurd hexpired hpast.2
  | spared _ _ hspared _ => exact hspared
  | starved => exact absurd hkick Bool.noConfusion
  | quiet _ hunder _ => exact absurd hover hunder

/-- **The block such a tick ends in.** It does not depend on the run queue beyond the spared lock
holder: a sole occupant is not told from a task that has company. -/
theorem dvfsTarget_of_pastSlice (hpast : PastSlice env c)
    (hspared : OverBudget ro env c bss → Spared c) :
    dvfsTarget ro env c bss = some
      (if LockHolderSkip ro env c bss then scaledTarget ro env c.tier else scxCpuperfOne) := by
  rw [dvfsTarget, if_pos hpast]
  by_cases hover : OverBudget ro env c bss
  · rw [if_pos hover, if_pos (hspared hover), if_pos ⟨hover, hspared hover⟩]
  · rw [if_neg hover, if_neg fun hskip : LockHolderSkip ro env c bss => hover hskip.1]

/-- A lock holder is spared only in company. -/
theorem LockHolderSkip.not_soleOccupant (h : LockHolderSkip ro env c bss) : ¬ SoleOccupant env := by
  intro hsole
  have hcompany := h.1.1.2
  rw [SoleOccupant] at hsole
  rw [hsole] at hcompany
  exact absurd hcompany (by decide)

/-- The tick asks for `SCX_CPUPERF_ONE` whatever its core is capable of. -/
def PinsMaximum (ro : Rodata) (env : TickEnv) (c : TaskCtx) (bss : Bss) : Prop :=
  ∀ hybrid cap, FindsTarget bss env.cpu
    (imperatorTick { ro with hasHybrid := hybrid } { env with cpuperfCap := cap } (some c) bss)
    scxCpuperfOne

/-- **When the maximum is requested unconditionally.** Every tick that gets to the blocks does so,
with or without company, except where it spares a lock holder. -/
theorem pinsMaximum_iff (hpast : PastSlice env c)
    (hkick : (imperatorTick ro env (some c) bss).kick = false) :
    PinsMaximum ro env c bss ↔ ¬ LockHolderSkip ro env c bss := by
  have hspared := spared_of_kick hpast hkick
  -- neither the slice nor the budget is a matter of the core
  have hfinds : ∀ hybrid cap, FindsTarget bss env.cpu
      (imperatorTick { ro with hasHybrid := hybrid } { env with cpuperfCap := cap } (some c) bss)
      (if LockHolderSkip ro env c bss then
        scaledTarget { ro with hasHybrid := hybrid } { env with cpuperfCap := cap } c.tier
      else scxCpuperfOne) := fun hybrid cap =>
    findsTarget_of_dvfsTarget (dvfsTarget_of_pastSlice hpast hspared)
  constructor
  · intro hpins hskip
    -- a core without any capability is asked for nothing
    have hnothing := hfinds true 0
    rw [if_pos hskip] at hnothing
    generalize htarget : scaledTarget { ro with hasHybrid := true } { env with cpuperfCap := 0 }
      c.tier = target at hnothing
    have hle : (0 : U32) ≤ 1024 := by decide
    have hzero : target.toNat = 0 := by
      rw [← htarget, scaledTarget_toNat c.tier hle]
      rfl
    have hcode : dsqHintEncode target = dsqHintEncode scxCpuperfOne ↔ target = scxCpuperfOne :=
      eq_comm.trans ((dsqHintEncode_maximum_iff (hzero.le.trans (Nat.zero_le _))).trans eq_comm)
    have heq := congrArg BitVec.toNat ((hnothing.iff_of_code hcode).mp (hpins true 0))
    rw [hzero] at heq
    exact absurd heq (by decide)
  · intro hskip hybrid cap
    have hmax := hfinds hybrid cap
    rwa [if_neg hskip] at hmax

/-- **When the target of the tier is requested**: where it is the maximum, on a core without a
smaller capability, or where a lock holder is spared. -/
theorem findsTarget_iff (hpast : PastSlice env c)
    (hkick : (imperatorTick ro env (some c) bss).kick = false) (hcap : env.cpuperfCap ≤ 1024) :
    FindsTarget bss env.cpu (imperatorTick ro env (some c) bss) (scaledTarget ro env c.tier) ↔
      ro.hasHybrid = false ∨ env.cpuperfCap = 1024 ∨ LockHolderSkip ro env c bss := by
  have hfinds := findsTarget_of_dvfsTarget
    (dvfsTarget_of_pastSlice hpast (spared_of_kick hpast hkick))
  by_cases hskip : LockHolderSkip ro env c bss
  · rw [if_pos hskip] at hfinds
    exact iff_of_true hfinds (Or.inr (Or.inr hskip))
  · rw [if_neg hskip] at hfinds
    rw [hfinds.iff_of_code (dsqHintEncode_maximum_iff (scaledTarget_le c.tier hcap)),
      scaledTarget_eq_maximum_iff c.tier hcap]
    exact or_congr_right (or_iff_left hskip).symm

/-- What the two blocks are meant for. -/
structure TargetSelected (ro : Rodata) (env : TickEnv) (c : TaskCtx) (bss : Bss) : Prop where
  /-- in company the tick asks for the scaled target of the tier -/
  proportional : ¬ SoleOccupant env → FindsTarget bss env.cpu (imperatorTick ro env (some c) bss)
    (scaledTarget ro env c.tier)
  /-- and only a sole occupant gets the maximum whatever the core is capable of -/
  maximum : PinsMaximum ro env c bss → SoleOccupant env

/-- **When the frequency is selected as it is meant.** A tick that gets past the slice check and
preempts nothing selects it so exactly for a sole occupant, and where a lock holder is spared. In
company, the target is that of the tier also where the core has no smaller capability. -/
theorem targetSelected_iff (ro : Rodata) (env : TickEnv) (c : TaskCtx) (bss : Bss)
    (hpast : PastSlice env c) (hkick : (imperatorTick ro env (some c) bss).kick = false)
    (hcap : env.cpuperfCap ≤ 1024) :
    (TargetSelected ro env c bss ↔ SoleOccupant env ∨ LockHolderSkip ro env c bss) ∧
      ((¬ SoleOccupant env → FindsTarget bss env.cpu (imperatorTick ro env (some c) bss)
          (scaledTarget ro env c.tier)) ↔
        SoleOccupant env ∨ ro.hasHybrid = false ∨ env.cpuperfCap = 1024 ∨
          LockHolderSkip ro env c bss) := by
  have hfinds := findsTarget_iff hpast hkick hcap
  have hpins := pinsMaximum_iff hpast hkick
  refine ⟨⟨fun h => ?_, fun h => ⟨fun hcompany => ?_, fun hmax => ?_⟩⟩, ?_⟩
  · by_cases hskip : LockHolderSkip ro env c bss
    · exact Or.inr hskip
    · exact Or.inl (h.maximum (hpins.mpr hskip))
  · exact hfinds.mpr (Or.inr (Or.inr (h.resolve_left hcompany)))
  · exact h.resolve_right (hpins.mp hmax)
  · rw [hfinds, ← or_iff_not_imp_left]

/-- The globals of a machine with two kinds of cores. -/
def hybridRodata : Rodata := { defaultRodata with hasHybrid := true }

/-- The same tick without the second task. -/
def soleTick : TickEnv := { (quietTick 0).env with nrRunning := some 0 }

theorem soleTick_selected : TargetSelected hybridRodata soleTick
    { allocTaskCtxCold defaultRodata 120 with lastRunAt := 1000000 } (quietTick 0).bss :=
  (targetSelected_iff hybridRodata soleTick _ (quietTick 0).bss (by decide) (by decide)
    (by decide)).1.mpr (Or.inl rfl)

/-- A core of half the capability with a second task on it is asked for the maximum, twice its
target. -/
theorem quietTick_misses_target :
    ¬ SoleOccupant (quietTick 0).env ∧
      (imperatorTick hybridRodata (quietTick 0).env (quietTick 0).ctx (quietTick 0).bss).kick
        = false ∧
      (imperatorTick hybridRodata (quietTick 0).env (quietTick 0).ctx (quietTick 0).bss).cpuperf
        = some 1024 ∧
      scaledTarget hybridRodata (quietTick 0).env (allocTaskCtxCold defaultRodata 120).tier
        = 512 := by
  decide

end Imperator
