import Imperator.Upkeep
import Mathlib.Data.Nat.ModEq

/-!
# The cadence of rechecks

A settled task takes the early return, except on every so many stops: its backoff counter is
advanced on each stop, and where the low bits of the counter are zero the full path is taken. The
counter is not reset when the task settles. It may start anywhere and wraps around at 65536.

Neither matters. The masks are low bits of the 16, so the wrap is invisible to them, and wherever a
count starts, one of as many successive numbers as there are patterns is a multiple.

## Main definitions

* `SettledIn` — the stability counter is 3 and the tier is the given one
* `Recheck` — the stops of a run, and those on the full path

## Main results

* `SettledRun.onCadence` — the full passes of a run, from the counter it starts with
* `recheck_cadence` — one in every window
-/

namespace Imperator

open Transition

variable {ro : Rodata} {t : Tier} {c c' : TaskCtx} {ctx : Option TaskCtx} {op : TaskOp}
  {ops : List TaskOp}

/-! ### The masks -/

/-- The number of bits of a mask. -/
def recheckBits : Tier → ℕ := ![10, 7, 5, 4]

theorem tierRecheckMask_eq : ∀ t : Tier,
    tierRecheckMask (cakeTierIdx t) = BitVec.ofNat 16 (2 ^ recheckBits t - 1) := by decide

theorem recheckBits_le : ∀ t : Tier, recheckBits t ≤ 16 := by decide

/-- The stops from one full pass to the next. -/
def recheckPeriod (t : Tier) : ℕ := (tierRecheckMask (cakeTierIdx t)).toNat + 1

theorem recheckPeriod_eq : ∀ t : Tier, recheckPeriod t = 2 ^ recheckBits t := by decide

theorem recheckPeriod_dvd (t : Tier) : recheckPeriod t ∣ 65536 := by
  rw [recheckPeriod_eq]
  exact pow_dvd_pow 2 (recheckBits_le t)

/-- Advancing the counter does the same modulo the period, also where it wraps around. -/
theorem toNat_succ_modEq (t : Tier) (x : U16) :
    (x + 1#16).toNat ≡ x.toNat + 1 [MOD recheckPeriod t] := by
  rw [BitVec.toNat_add]
  exact (Nat.mod_modEq _ _).of_dvd (recheckPeriod_dvd t)

/-- **The path of a settled task.** It is the full one where the next number is a multiple of the
period. -/
theorem takesBackoff_iff_not_dvd (hsettled : c.stable = 3) :
    TakesBackoff c ↔ ¬ recheckPeriod c.tier ∣ c.reclassCounter.toNat + 1 := by
  have hmask : (c.reclassCounter + 1#16) &&& tierRecheckMask (cakeTierIdx c.tier) = 0#16 ↔
      recheckPeriod c.tier ∣ (c.reclassCounter + 1#16).toNat := by
    rw [← BitVec.toNat_inj, tierRecheckMask_eq,
      BitVec.toNat_and_lowMask _ (recheckBits_le c.tier), recheckPeriod_eq]
    exact (Nat.dvd_iff_mod_eq_zero).symm
  rw [TakesBackoff, and_iff_right hsettled, ne_eq, hmask,
    (toNat_succ_modEq c.tier c.reclassCounter).dvd_iff dvd_rfl]

/-! ### Runs of a settled task -/

/-- The task is settled in a tier. -/
def SettledIn (t : Tier) : Option TaskCtx → Prop
  | some c => c.stable = 3 ∧ c.tier = t
  | none => False

/-- How many stops were accounted for, and how many of them on the full path. -/
structure Recheck where
  stops : ℕ
  fulls : ℕ

/-- One event more. -/
def Recheck.count (ctx : Option TaskCtx) (n : Recheck) (op : TaskOp) : Recheck :=
  match ctx with
  | some c =>
    if op.accounts c then ⟨n.stops + 1, if TakesBackoff c then n.fulls else n.fulls + 1⟩ else n
  | none => n

/-- Runs in which every event finds the task settled in the tier, with the count beside it. -/
def SettledRun (ro : Rodata) (t : Tier) (c : TaskCtx) (ops : List TaskOp)
    (s : Option TaskCtx × Recheck) : Prop :=
  Run (Guarded (ofNext (recording (TaskOp.apply ro) Recheck.count)) fun s _ => SettledIn t s.1)
    (some c, ⟨0, 0⟩) ops s

/-- The count against the counter the run started with: the full passes are the multiples that were
passed, and a counter that is still in use has advanced once a stop. -/
structure OnCadence (t : Tier) (c : TaskCtx) (s : Option TaskCtx × Recheck) : Prop where
  fulls : s.2.fulls + c.reclassCounter.toNat / recheckPeriod t
    = (c.reclassCounter.toNat + s.2.stops) / recheckPeriod t
  counter : ∀ d, s.1 = some d → SettledIn t s.1 →
    d.reclassCounter.toNat ≡ c.reclassCounter.toNat + s.2.stops [MOD recheckPeriod t]

/-- A settled task on cadence takes the early return, unless the stop is the next multiple. -/
theorem OnCadence.takesBackoff_iff {n : Recheck} (h : OnCadence d.tier c (some d, n))
    (hstable : d.stable = 3) : TakesBackoff d ↔
      ¬ recheckPeriod d.tier ∣ c.reclassCounter.toNat + n.stops + 1 := by
  have hcounter := h.counter d rfl ⟨hstable, rfl⟩
  rw [takesBackoff_iff_not_dvd hstable, (hcounter.add_right 1).dvd_iff dvd_rfl]

/-- The full passes after an event. -/
theorem OnCadence.fulls_count {n : Recheck} (h : OnCadence d.tier c (some d, n))
    (hstable : d.stable = 3) (op : TaskOp) :
    (Recheck.count (some d) n op).fulls + c.reclassCounter.toNat / recheckPeriod d.tier
      = (c.reclassCounter.toNat + (Recheck.count (some d) n op).stops) / recheckPeriod d.tier := by
  have hfulls := h.fulls
  have hpath := h.takesBackoff_iff hstable
  rw [Recheck.count]
  dsimp only at hfulls ⊢
  split
  · rw [← Nat.add_assoc, Nat.succ_div, ← hfulls]
    by_cases hback : TakesBackoff d
    · rw [if_pos hback, if_neg (hpath.mp hback)]
      rfl
    · rw [if_neg hback, if_pos (not_not.mp (mt hpath.mpr hback))]
      exact Nat.add_right_comm _ _ _
  · exact hfulls

/-- **One event.** -/
theorem OnCadence.next {s : Option TaskCtx × Recheck} (h : OnCadence t c s)
    (hsettled : SettledIn t s.1) (op : TaskOp) :
    OnCadence t c (recording (TaskOp.apply ro) Recheck.count s op) := by
  obtain ⟨ctx, n⟩ := s
  cases ctx with
  | none => exact hsettled.elim
  | some d =>
    have hcounter := h.counter d rfl hsettled
    obtain ⟨hstable, rfl⟩ := hsettled
    refine ⟨h.fulls_count hstable op, fun d' happly hsettled' => ?_⟩
    have hafter : op.apply ro (some d) = some d' := happly
    rw [show (recording (TaskOp.apply ro) Recheck.count (some d, n) op).1 = some d' from hafter]
      at hsettled'
    have hadvance := reclassCounter_of_apply hafter hstable hsettled'.1 hsettled'.2
    show _ ≡ _ + (Recheck.count (some d) n op).stops [MOD _]
    rw [hadvance, Recheck.count]
    split
    · rw [← Nat.add_assoc]
      exact (toNat_succ_modEq d.tier d.reclassCounter).trans (hcounter.add_right 1)
    · exact hcounter

/-- **A run.** The number of full passes is that of the multiples of the period that were passed. -/
theorem SettledRun.onCadence {s : Option TaskCtx × Recheck} (h : SettledRun ro t c ops s) :
    OnCadence t c s := by
  refine Run.invariant (I := OnCadence t c) ?_ h ⟨by simp, ?_⟩
  · rintro s op _ hs ⟨hsettled, rfl⟩
    exact hs.next hsettled op
  · rintro d hd -
    obtain rfl := Option.some.inj hd
    rfl

/-- **The cadence.** While a task stays settled in a tier, exactly one of any so many consecutive
accounting stops takes the full path, from whatever value of the backoff counter. -/
theorem recheck_cadence (ro : Rodata) (t : Tier) (c : TaskCtx) {ops : List TaskOp}
    {ctx : Option TaskCtx} {n : Recheck} (h : SettledRun ro t c ops (ctx, n))
    (hstops : n.stops = (tierRecheckMask (cakeTierIdx t)).toNat + 1) : n.fulls = 1 := by
  have hcount := h.onCadence.fulls
  dsimp only at hcount
  have hpos : 0 < recheckPeriod t := Nat.succ_pos _
  rw [hstops, ← recheckPeriod, Nat.add_div_right _ hpos] at hcount
  omega

instance (t : Tier) : DecidablePred (SettledIn t)
  | some _ => inferInstanceAs (Decidable (_ ∧ _))
  | none => inferInstanceAs (Decidable False)

/-- A task settled in T3 whose counter is about to wrap around, and the stop after 10 ms. -/
def settledBulk : TaskCtx :=
  { allocTaskCtxCold defaultRodata 120 with
    packedInfo := setTierStable 0 3 3
    deficitAvgFused := packDeficitAvg 0 9000
    reclassCounter := 65530
    lastRunAt := 1000000 }

def bulkStop : TaskOp := .stopping 0 11000000 false (initBss defaultRodata)

theorem recheck_cadence_bulk :
    ((List.replicate 16 bulkStop).foldl (recording (TaskOp.apply defaultRodata) Recheck.count)
      (some settledBulk, ⟨0, 0⟩)).2.fulls = 1 :=
  recheck_cadence defaultRodata 3 settledBulk (Run.foldl_of_admits (by decide)) (by decide)

end Imperator
