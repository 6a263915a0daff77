import Imperator.SliceCheck

/-!
# What burst credit is worth

Burst credit is a longer slice. The enqueue that spends it adds the credit to the slice of the
task, and cuts the sum off at the slice of T2. The cut is meant for T1 and T2, whose own slices are
not longer than that: a T2 task gains nothing, a T1 task up to a second quantum.

In the Sim profile T3 earns credit as well, and the slice of T3 is twice that of T2. So there the
cut is below what the task had before, and the credit costs it half its slice.

## Main definitions

* `SpendsCredit` — the enqueue takes the standard path and finds credit
* `NotShortened` — the slice queued, and the one stored, are at least the old one

## Main results

* `burstCredit_notShortened_iff` — when credit does not shorten the slice
* `burstCredit_eq_zero_of_reachable` — credit is spent by the call that earns it
* `atBaseline_notShortened_iff` — for a task with the slice of its tier: in every tier but T3
-/

namespace Imperator

open Transition

variable {ro : Rodata} {c c' : TaskCtx} {env : EnqueueEnv} {bss : Bss} {op : TaskOp}

/-! ### One enqueue -/

/-- The enqueue takes the standard path, and there is credit after what it earns itself. -/
def SpendsCredit (ro : Rodata) (env : EnqueueEnv) (c : TaskCtx) : Prop :=
  (env.flags.wakeup ∨ env.flags.preempt) ∧
    0#16 < (earnBurstCredit ro env.flags.preempt (recoveredCtx env c)).burstCredit

/-- The slice that is queued, and the one that is stored, are at least the old one. -/
def NotShortened (ro : Rodata) (env : EnqueueEnv) (c : TaskCtx) (bss : Bss) : Prop :=
  c.nextSlice ≤ (imperatorEnqueue ro env (some c) bss).insert.slice ∧
    ∃ c', (imperatorEnqueue ro env (some c) bss).ctx = some c' ∧ c.nextSlice ≤ c'.nextSlice

@[simp] theorem earnBurstCredit_nextSlice (ro : Rodata) (preempt : Bool) (c : TaskCtx) :
    (earnBurstCredit ro preempt c).nextSlice = c.nextSlice := by
  rw [earnBurstCredit]
  split <;> rfl

/-- The standard path queues with the slice it stores. -/
theorem imperatorEnqueue_slice (ro : Rodata) (c : TaskCtx) (bss : Bss)
    (hflags : env.flags.wakeup ∨ env.flags.preempt) :
    (imperatorEnqueue ro env (some c) bss).insert.slice = (stampedCtx ro env c).nextSlice ∧
      (imperatorEnqueue ro env (some c) bss).ctx = some (standardCtx ro env c) ∧
      (standardCtx ro env c).nextSlice = (stampedCtx ro env c).nextSlice := by
  rw [imperatorEnqueue, if_neg fun h => Option.some_ne_none c h.2, if_neg (not_not.mpr hflags)]
  refine ⟨rfl, rfl, ?_⟩
  obtain ⟨packed, hirq, -⟩ := consumeIrqWake_eq (stampedCtx ro env c)
  rw [standardCtx, hirq]

/-- A sum cut off at `m` is at least its first term exactly if that is not above the cut. A sum
that wraps is below its first term, which then is far above any cut. -/
theorem le_extended_iff {s b m : U64} (hb : 0 < b.toNat) (hfit : b.toNat + m.toNat < 2 ^ 64) :
    s ≤ (if s + b < m then s + b else m) ↔ s ≤ m := by
  have hs := s.isLt
  rcases Nat.lt_or_ge (s.toNat + b.toNat) (2 ^ 64) with hsum | hwrap
  · have hadd : (s + b).toNat = s.toNat + b.toNat := by
      rw [BitVec.toNat_add, Nat.mod_eq_of_lt hsum]
    split
    · next hlt =>
      rw [BitVec.lt_def, hadd] at hlt
      rw [BitVec.le_def, BitVec.le_def, hadd]
      omega
    · rfl
  · have hadd : (s + b).toNat = s.toNat + b.toNat - 2 ^ 64 := by
      rw [BitVec.toNat_add]
      omega
    refine iff_of_false ?_ ?_
    · split
      · rw [BitVec.le_def, hadd]
        omega
      · rw [BitVec.le_def]
        omega
    · rw [BitVec.le_def]
      omega

theorem tierSlice_toNat_lt (ro : Rodata) (t : Tier) : (ro.tierSlice t).toNat < 2 ^ 54 := by
  rw [Rodata.tierSlice, BitVec.toNat_ushiftRight, Nat.shiftRight_eq_div_pow]
  have hlt := (ro.quantumNs * unpackMultiplier (ro.tierConfigs (cakeTierIdx t))).isLt
  omega

/-- Spending credit is worth something exactly below the slice of T2. -/
theorem le_consumeBurstCredit_iff (ro : Rodata) (hcredit : 0#16 < c.burstCredit) :
    c.nextSlice ≤ (consumeBurstCredit ro c).nextSlice ↔ c.nextSlice ≤ ro.tierSlice Tier.frame := by
  have hbonus : (c.burstCredit.setWidth 64 <<< 10).toNat = c.burstCredit.toNat * 1024 := by
    rw [BitVec.toNat_shiftLeft, BitVec.toNat_setWidth, Nat.shiftLeft_eq]
    have hlt := c.burstCredit.isLt
    omega
  have hpos : 0 < c.burstCredit.toNat := BitVec.lt_def.mp hcredit
  have hlt := c.burstCredit.isLt
  have hmax := tierSlice_toNat_lt ro Tier.frame
  rw [consumeBurstCredit, if_pos hcredit]
  exact le_extended_iff (by rw [hbonus]; omega) (by rw [hbonus]; omega)

theorem notShortened_iff (hspend : SpendsCredit ro env c) :
    NotShortened ro env c bss ↔ c.nextSlice ≤ ro.tierSlice Tier.frame := by
  obtain ⟨hflags, hcredit⟩ := hspend
  obtain ⟨hqueued, hctx, hstored⟩ := imperatorEnqueue_slice ro c bss hflags
  have hiff := le_consumeBurstCredit_iff ro hcredit
  rw [earnBurstCredit_nextSlice, recoveredCtx_nextSlice] at hiff
  rw [← hiff, NotShortened, hqueued, hctx]
  constructor
  · exact fun h => h.1
  · intro h
    exact ⟨h, _, rfl, hstored ▸ h⟩

/-- The table of a profile gives T2 two quanta. -/
theorem tierSlice_frame_of_profile {p : Profile} {q : U64} {o : Option U64}
    (hcfg : ro.tierConfigs = p.tierConfigs q o) :
    ro.tierSlice Tier.frame = (ro.quantumNs * 2048) >>> 10 := by
  rw [Rodata.tierSlice, hcfg, Profile.unpackMultiplier_tierConfigs]
  cases p <;> rfl

/-- **When burst credit does not shorten the slice.** With the table of any profile, an enqueue that
spends credit queues and stores a slice that is not shorter than the old one exactly if the old
one is at most that of T2. -/
theorem burstCredit_notShortened_iff (p : Profile) (q : U64) (o : Option U64) (ro : Rodata)
    (hcfg : ro.tierConfigs = p.tierConfigs q o) (env : EnqueueEnv) (c : TaskCtx) (bss : Bss)
    (hspend : SpendsCredit ro env c) :
    NotShortened ro env c bss ↔ c.nextSlice ≤ (ro.quantumNs * 2048) >>> 10 := by
  rw [notShortened_iff hspend, tierSlice_frame_of_profile hcfg]

/-- The enqueue after a preemption. -/
def preemptEnqueue : EnqueueEnv := ⟨0, 0, 12000000, false, ⟨false, true⟩⟩

/-- A new T1 task of the Default profile that is preempted at once. -/
theorem newTask_notShortened : NotShortened defaultProfile preemptEnqueue
    (allocTaskCtxCold defaultProfile 120) (initBss defaultProfile) :=
  (burstCredit_notShortened_iff .default 2000 none defaultProfile rfl preemptEnqueue _ _
    (by unfold SpendsCredit; decide)).mpr (by decide)

/-! ### Who has credit -/

/-- The standard path spends all credit there is. -/
theorem standardCtx_burstCredit (ro : Rodata) (env : EnqueueEnv) (c : TaskCtx) :
    (standardCtx ro env c).burstCredit = 0 := by
  obtain ⟨packed, hirq, -⟩ := consumeIrqWake_eq (stampedCtx ro env c)
  rw [standardCtx, hirq]
  show (consumeBurstCredit ro _).burstCredit = 0
  rw [consumeBurstCredit]
  split
  · rfl
  · next hzero =>
    rw [BitVec.lt_def, BitVec.toNat_zero, Nat.not_lt, Nat.le_zero] at hzero
    exact BitVec.eq_of_toNat_eq hzero

theorem burstCredit_of_apply (hc : c.burstCredit = 0) (h : op.apply ro (some c) = some c') :
    c'.burstCredit = 0 := by
  cases leaves_of_apply h with
  | enqueued => exact standardCtx_burstCredit ro _ c
  | requeued | orphaned | uncharged => exact hc
  | execed | forked => rfl
  | accounted => exact accountBout_burstCredit ro _ _ hc
  | enabled | selected | ran | ticked | marked =>
    exact (sameSlice_of_apply (by trivial) hc h).burstCredit.trans hc

/-- **Credit is spent by the call that earns it.** Between two callbacks no task has any. -/
theorem burstCredit_eq_zero_of_reachable (h : Reachable ro c) : c.burstCredit = 0 := by
  obtain ⟨ops, hrun⟩ := h
  exact hrun.invariant_of_apply (I := fun c => c.burstCredit = 0) (fun _ => rfl)
    fun _ _ _ hc _ happly => burstCredit_of_apply hc happly

/-- So the enqueue that spends it is that of a preempted task in a tier that earns. -/
theorem earnsCredit_of_spends (hreach : Reachable ro c) (h : SpendsCredit ro env c) :
    earnsCredit ro env.flags.preempt c.tier = true := by
  by_contra hnot
  obtain ⟨-, hpos⟩ := h
  rw [earnBurstCredit, recoveredCtx_tier, if_neg hnot, recoveredCtx_burstCredit,
    burstCredit_eq_zero_of_reachable hreach] at hpos
  exact absurd hpos (BitVec.lt_irrefl _)

/-! ### Tasks with the slice of their tier -/

/-- As long as the products fit, only the slice of T3 is longer than that of T2. -/
theorem tierSlice_le_frame_iff {p : Profile} {q : U64} {o : Option U64}
    (hcfg : ro.tierConfigs = p.tierConfigs q o) (hpos : 0 < ro.quantumNs.toNat)
    (hfit : ro.quantumNs.toNat < 2 ^ 52) (t : Tier) :
    ro.tierSlice t ≤ ro.tierSlice Tier.frame ↔ t ≤ Tier.frame := by
  have hslice : ∀ t, (ro.tierSlice t).toNat
      = ro.quantumNs.toNat * (![256, 1024, 2048, 4095] : Fin 4 → ℕ) t / 1024 := by
    intro t
    have hsmall : (![256, 1024, 2048, 4095] : Fin 4 → ℕ) t ≤ 4095 := by
      revert t
      decide
    have hmult : ((p.tierMultiplier (cakeTierIdx t)).setWidth 64).toNat
        = (![256, 1024, 2048, 4095] : Fin 4 → ℕ) t := by
      clear hsmall
      cases p <;> revert t <;> decide
    rw [Rodata.tierSlice, hcfg, Profile.unpackMultiplier_tierConfigs, BitVec.toNat_ushiftRight,
      Nat.shiftRight_eq_div_pow, BitVec.toNat_mul, hmult, Nat.mod_eq_of_lt]
    calc ro.quantumNs.toNat * (![256, 1024, 2048, 4095] : Fin 4 → ℕ) t
        ≤ ro.quantumNs.toNat * 4095 := Nat.mul_le_mul_left _ hsmall
      _ < 2 ^ 64 := by omega
  rw [BitVec.le_def, hslice, hslice]
  match t with
  | 0 => simp [Tier.frame]; omega
  | 1 => simp [Tier.frame]; omega
  | 2 => simp [Tier.frame]
  | 3 => simp [Tier.frame]; omega

/-- **Credit costs T3 its slice.** For a reachable task that has the slice of its tier, at a quantum
of up to 52 days, spending credit shortens the slice exactly in T3, which takes the Sim profile. -/
theorem atBaseline_notShortened_iff {p : Profile} {q : U64} {o : Option U64}
    (hcfg : ro.tierConfigs = p.tierConfigs q o) (hpos : 0 < ro.quantumNs.toNat)
    (hfit : ro.quantumNs.toNat < 2 ^ 52) (hreach : Reachable ro c) (hbase : AtBaseline ro c)
    (hspend : SpendsCredit ro env c) :
    (NotShortened ro env c bss ↔ c.tier ≠ Tier.bulk) ∧ (c.tier = Tier.bulk → ro.simMode) := by
  have hle : c.tier ≤ Tier.frame ↔ c.tier ≠ Tier.bulk := by
    generalize c.tier = t
    revert t
    decide
  refine ⟨?_, fun hbulk => ?_⟩
  · rw [notShortened_iff hspend, hbase, tierSlice_le_frame_iff hcfg hpos hfit, hle]
  · have hearns := earnsCredit_of_spends hreach hspend
    rw [hbulk, earnsCredit] at hearns
    by_contra hsim
    rw [if_neg hsim] at hearns
    simp only [Bool.and_eq_true, decide_eq_true_eq] at hearns
    exact absurd hearns.1.2 (by decide)

/-- The globals of the Sim profile. -/
def simProfile : Rodata := profileRodata .sim false false (detect dualCcd)

/-- A bulk task after one bout of ten milliseconds. -/
def bulkRun : List TaskOp :=
  [.enable 139 true, .running 0 1000000 (initBss simProfile),
    .stopping 0 11240000 true (initBss simProfile)]

theorem bulkRun_ends : ∃ c, TaskRun simProfile anyOp bulkRun (some c) ∧ c.tier = Tier.bulk ∧
    c.nextSlice = 15996093 ∧ SpendsCredit simProfile preemptEnqueue c :=
  ⟨_, taskRun_anyOp simProfile bulkRun, by decide, by decide, by unfold SpendsCredit; decide⟩

/-- When it is preempted, it is queued with half the slice it had. -/
theorem bulkRun_shortened : ∃ c, Reachable simProfile c ∧
    simProfile.tierConfigs = Profile.sim.tierConfigs 4000 none ∧
    SpendsCredit simProfile preemptEnqueue c ∧
    ¬ NotShortened simProfile preemptEnqueue c (initBss simProfile) := by
  obtain ⟨c, hrun, -, hslice, hspend⟩ := bulkRun_ends
  refine ⟨c, ⟨_, hrun⟩, rfl, hspend, ?_⟩
  rw [notShortened_iff hspend, hslice]
  decide

end Imperator
