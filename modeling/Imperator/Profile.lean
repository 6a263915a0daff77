import Imperator.TierDeadline

/-!
# Profiles and the starvation override

The loader packs the tier table of a profile with the quantum and the `--starvation` value of the
command line. Neither value is validated, and the release build's 64-bit arithmetic wraps.

An override `u`, in microseconds, scales every budget by `u * 1000` over the T3 budget of the
profile. Two truncations bound the range where that works. Below, the budgets of T0 and T1 are
both rounded to zero units of 1024 ns and the tiers collapse. Above, the T3 budget no longer fits
the 20-bit field and loses its high bits. In between nothing wraps and the table is exact
(`tierConfigs_survives_iff`).

## Main definitions

* `Profile.tierConfigs` — the table the loader writes
* `Profile.Survives` — the table read back is the scaled profile, in strict tier order
-/

namespace Imperator

/-- The profiles of the command line. -/
inductive Profile
  | esports
  | default
  | sim
  deriving DecidableEq, Repr

namespace Profile

/-- `starvation_threshold`, in nanoseconds. -/
def starvationThreshold : Profile → Fin 8 → U64
  | .esports => ![1500000, 4000000, 20000000, 50000000, 50000000, 50000000, 50000000, 50000000]
  | .default =>
    ![1500000, 8000000, 20000000, 100000000, 100000000, 100000000, 100000000, 100000000]
  | .sim => ![3000000, 8000000, 80000000, 200000000, 200000000, 200000000, 200000000, 200000000]

/-- `tier_multiplier` -/
def tierMultiplier : Profile → Fin 8 → U32
  | .esports => ![256, 1024, 2048, 4095, 4095, 4095, 4095, 4095]
  | .default => ![256, 1024, 2048, 4095, 4095, 4095, 4095, 4095]
  | .sim => ![256, 1024, 2048, 4095, 4095, 4095, 4095, 4095]

/-- The budgets after the override of the command line, in nanoseconds. -/
def starvation (p : Profile) (starvationOverride : Option U64) : Fin 8 → U64 :=
  match starvationOverride with
  | none => p.starvationThreshold
  | some cliUs =>
    let cliNs := cliUs * 1000
    let defaultT3 := p.starvationThreshold 3
    if 0 < defaultT3 then fun i => p.starvationThreshold i * cliNs / defaultT3
    else p.starvationThreshold

/-- `tier_configs` -/
def tierConfigs (p : Profile) (quantumUs : U64) (starvationOverride : Option U64) : TierConfigs :=
  fun i =>
    let quantumKns := (quantumUs * 1000) >>> 10
    ((p.tierMultiplier i).setWidth 64 &&& 0xFFF#64) ||| (quantumKns &&& 0xFFFF#64) <<< 12 |||
      ((p.starvation starvationOverride i >>> 10) &&& 0xFFFFF#64) <<< 28

/-- The table says what the command line asked for: every tier has the multiplier of the profile
and its budget scaled by the override, in units of 1024 ns, and the budgets keep the tier order.
Products and quotients are those of the integers here, not of machine words. -/
structure Survives (p : Profile) (quantumUs u : U64) : Prop where
  multiplier : ∀ t : Tier, unpackMultiplier (p.tierConfigs quantumUs (some u) (cakeTierIdx t))
    = (p.tierMultiplier (cakeTierIdx t)).setWidth 64
  scaled : ∀ t : Tier, (budget (p.tierConfigs quantumUs (some u)) t).toNat
    = (p.starvationThreshold (cakeTierIdx t)).toNat * u.toNat * 1000
        / (p.starvationThreshold 3).toNat / 1024 * 1024
  ordered : BudgetsIncrease (p.tierConfigs quantumUs (some u))

/-- The least override, in microseconds, that keeps the budgets of T0 and T1 apart. -/
def minStarvationUs : Profile → ℕ
  | .esports => 13
  | .default => 13
  | .sim => 26

/-- The greatest override, in microseconds, whose T3 budget fits the 20-bit field. -/
def maxStarvationUs : ℕ := 1073741

variable {p : Profile} {q u : U64} {t : Tier}

/-- The loader and the macros of the BPF side agree on the layout. -/
theorem tierConfigs_eq_packConfig (p : Profile) (q : U64) (o : Option U64) (i : Fin 8) :
    p.tierConfigs q o i = packConfig ((q * 1000) >>> 10) ((p.tierMultiplier i).setWidth 64)
      (p.starvation o i >>> 10) := rfl

theorem starvation_some (p : Profile) (u : U64) (i : Fin 8) :
    p.starvation (some u) i = p.starvationThreshold i * (u * 1000) / p.starvationThreshold 3 := by
  cases p <;> rfl

/-- The multiplier is read back unchanged, whatever the override. -/
theorem unpackMultiplier_tierConfigs (p : Profile) (q : U64) (o : Option U64) (t : Tier) :
    unpackMultiplier (p.tierConfigs q o (cakeTierIdx t))
      = (p.tierMultiplier (cakeTierIdx t)).setWidth 64 := by
  rw [tierConfigs_eq_packConfig, unpackMultiplier_pack]
  cases p <;> revert t <;> decide

/-- A budget read back: the scaled value in units of 1024 ns, reduced to 20 bits. -/
theorem budget_tierConfigs (p : Profile) (q : U64) (o : Option U64) (t : Tier) :
    (budget (p.tierConfigs q o) t).toNat
      = (p.starvation o (cakeTierIdx t)).toNat / 1024 % 2 ^ 20 * 1024 := by
  rw [budget, tierConfigs_eq_packConfig, unpackStarvationNs_pack,
    show 0xFFFFF#64 = BitVec.ofNat 64 (2 ^ 20 - 1) from rfl, BitVec.toNat_shiftLeft,
    BitVec.toNat_and_lowMask _ (by decide), BitVec.toNat_ushiftRight, Nat.shiftRight_eq_div_pow,
    Nat.shiftLeft_eq]
  have hfield := Nat.mod_lt ((p.starvation o (cakeTierIdx t)).toNat / 2 ^ 10)
    (Nat.two_pow_pos 20)
  rw [Nat.mod_eq_of_lt (by omega)]

/-- The order of neighbouring tiers is the whole order. -/
theorem budgetsIncrease_iff (cfgs : TierConfigs) : BudgetsIncrease cfgs ↔
    (budget cfgs 0).toNat < (budget cfgs 1).toNat ∧ (budget cfgs 1).toNat < (budget cfgs 2).toNat ∧
      (budget cfgs 2).toNat < (budget cfgs 3).toNat := by
  rw [BudgetsIncrease, Fin.strictMono_iff_lt_succ, Fin.forall_fin_succ, Fin.forall_fin_succ,
    Fin.forall_fin_succ]
  simp

/-- Without an override every profile is in tier order. -/
theorem budgetsIncrease_tierConfigs_none (p : Profile) (q : U64) :
    BudgetsIncrease (p.tierConfigs q none) := by
  rw [budgetsIncrease_iff]
  simp only [budget_tierConfigs]
  cases p <;> decide

/-- Inside the 20-bit range the scaling does not wrap. -/
theorem starvation_some_toNat (hu : u.toNat ≤ maxStarvationUs) (t : Tier) :
    (p.starvation (some u) (cakeTierIdx t)).toNat
      = (p.starvationThreshold (cakeTierIdx t)).toNat * u.toNat * 1000
        / (p.starvationThreshold 3).toNat := by
  have hns : (u * 1000).toNat = u.toNat * 1000 := by
    rw [maxStarvationUs] at hu
    rw [BitVec.toNat_mul, show (1000 : U64).toNat = 1000 from rfl]
    omega
  have hbase : (p.starvationThreshold (cakeTierIdx t)).toNat ≤ 200000000 := by
    cases p <;> revert t <;> decide
  have hprod : (p.starvationThreshold (cakeTierIdx t)).toNat * (u.toNat * 1000)
      ≤ 200000000 * (1073741 * 1000) :=
    Nat.mul_le_mul hbase (Nat.mul_le_mul_right 1000 hu)
  rw [starvation_some, BitVec.toNat_udiv, BitVec.toNat_mul, hns,
    Nat.mod_eq_of_lt (Nat.lt_of_le_of_lt hprod (by decide)), Nat.mul_assoc]

/-- In range, every tier reads back its scaled budget. -/
theorem scaled_of_le (hu : u.toNat ≤ maxStarvationUs) (t : Tier) :
    (budget (p.tierConfigs q (some u)) t).toNat
      = (p.starvationThreshold (cakeTierIdx t)).toNat * u.toNat * 1000
        / (p.starvationThreshold 3).toNat / 1024 * 1024 := by
  have hfit : (p.starvation (some u) (cakeTierIdx t)).toNat / 1024 < 2 ^ 20 := by
    rw [starvation_some_toNat hu]
    rw [maxStarvationUs] at hu
    have hshare : (p.starvationThreshold (cakeTierIdx t)).toNat * u.toNat * 1000
          / (p.starvationThreshold 3).toNat ≤ u.toNat * 1000 := by
      rw [Nat.mul_assoc]
      exact Nat.div_le_of_le_mul (Nat.mul_le_mul_right _ (by cases p <;> revert t <;> decide))
    omega
  rw [budget_tierConfigs, Nat.mod_eq_of_lt hfit, starvation_some_toNat hu]

/-- Below the least override the budget of T1 is rounded to zero, so T0 is not below it. -/
theorem budget_interact_eq_zero (hu : u.toNat < p.minStarvationUs) :
    (budget (p.tierConfigs q (some u)) Tier.interact).toNat = 0 := by
  have hmin : p.minStarvationUs ≤ 26 := by cases p <;> decide
  rw [scaled_of_le (show u.toNat ≤ maxStarvationUs by rw [maxStarvationUs]; omega)]
  cases p <;>
    · simp only [minStarvationUs] at hu
      simp [starvationThreshold, cakeTierIdx, Tier.interact]
      omega

/-- Two values in different units of 1024: one below the first unit and the other not, or a whole
unit apart. -/
theorem units_lt_units {x y : ℕ} (h : x < 1024 ∧ 1024 ≤ y ∨ x + 1024 ≤ y) :
    x / 1024 * 1024 < y / 1024 * 1024 := by
  omega

/-- From the least override on, the rounding to 1024 ns keeps neighbouring budgets apart. -/
theorem budgetsIncrease_of_min_le (hmin : p.minStarvationUs ≤ u.toNat)
    (hmax : u.toNat ≤ maxStarvationUs) : BudgetsIncrease (p.tierConfigs q (some u)) := by
  rw [budgetsIncrease_iff, scaled_of_le hmax, scaled_of_le hmax, scaled_of_le hmax,
    scaled_of_le hmax]
  clear hmax
  cases p <;> simp only [minStarvationUs] at hmin <;>
    refine ⟨units_lt_units ?_, units_lt_units ?_, units_lt_units ?_⟩ <;>
    simp [starvationThreshold, cakeTierIdx] <;> omega

/-- **When the budgets survive the command line.** Exactly for overrides from the least value that
separates T0 from T1 up to the greatest one whose T3 budget fits its field, at any quantum. -/
theorem tierConfigs_survives_iff (p : Profile) (q u : U64) :
    p.Survives q u ↔ p.minStarvationUs ≤ u.toNat ∧ u.toNat ≤ maxStarvationUs := by
  constructor
  · intro h
    have hmax : u.toNat ≤ maxStarvationUs := by
      have hread := budget_tierConfigs p q (some u) Tier.bulk
      rw [h.scaled Tier.bulk] at hread
      have hfield := Nat.mod_lt ((p.starvation (some u) (cakeTierIdx Tier.bulk)).toNat / 1024)
        (Nat.two_pow_pos 20)
      have hself : (p.starvationThreshold (cakeTierIdx Tier.bulk)).toNat * u.toNat * 1000
          / (p.starvationThreshold 3).toNat = u.toNat * 1000 := by
        rw [Nat.mul_assoc]
        exact Nat.mul_div_cancel_left _ (by cases p <;> decide)
      rw [hself] at hread
      rw [maxStarvationUs]
      omega
    refine ⟨?_, hmax⟩
    by_contra hlt
    have hzero := budget_interact_eq_zero (q := q) (Nat.not_le.mp hlt)
    have hordered := h.ordered (show Tier.critical < Tier.interact by decide)
    exact absurd hordered (by simp [hzero])
  · rintro ⟨hmin, hmax⟩
    exact ⟨unpackMultiplier_tierConfigs p q (some u), scaled_of_le hmax,
      budgetsIncrease_of_min_le hmin hmax⟩

/-- `--starvation 1` on the default profile: T0 and T1 share the budget zero. -/
theorem not_survives_one : (0 : U64) < 1 ∧ ¬ Profile.default.Survives 2000 1 := by
  refine ⟨by decide, fun h => ?_⟩
  have hlt := h.ordered (show Tier.critical < Tier.interact by decide)
  exact absurd hlt (by decide)

end Profile

end Imperator
