import Mathlib.Order.Fin.Basic
import Imperator.ForMathlib.DeadlineOrder
import Imperator.Globals

/-!
# The queue key

`tier_deadline` computes the virtual time a task is queued with: enqueue time plus the starvation
budget of its tier, less an advance. The kernel serves an LLC queue in the order of these keys.

The key is the machine form of `DeadlineOrder.key` as long as time plus budget fits in 64 bits
(`tierDeadline_toNat`), and everything about the order of two tasks is proved through it. The
saturation of the subtraction costs no extra case there: it is the truncated subtraction of the
abstract key.

## Main results

* `tierDeadline_toNat` — the key refines `DeadlineOrder.key`
* `tierDeadline_lt_of_tier_lt` — no advance lets a worse tier pass an earlier arrival
* `tierDeadline_lt_of_late` — a late arrival sorts behind, once it is late by its own advance too
-/

namespace Imperator

/-- `UNPACK_STARVATION_NS(tier_configs[tier])` -/
def budget (cfgs : TierConfigs) (t : Tier) : U64 := unpackStarvationNs (cfgs (cakeTierIdx t))

/-- The first half of `tier_deadline`: outside T0 the advance is cut to what lies between the
budget of the tier and that of the tier above it. -/
def capAdvance (cfgs : TierConfigs) (t : Tier) (advance : U64) : U64 :=
  if advance ≠ 0#64 ∧ Tier.critical < t then
    let above := unpackStarvationNs (cfgs (cakeTierIdx t - 1))
    let gap := if above < budget cfgs t then budget cfgs t - above - 1#64 else 0#64
    if gap < advance then gap else advance
  else advance

/-- `tier_deadline` -/
def tierDeadline (cfgs : TierConfigs) (now : U64) (t : Tier) (advance : U64) : U64 :=
  let advance := capAdvance cfgs t advance
  let dl := now + budget cfgs t
  if advance < dl then dl - advance else 0#64

/-! ### The abstract key -/

/-- The budgets as a function on class numbers. -/
def natBudget (cfgs : TierConfigs) (c : ℕ) : ℕ := (budget cfgs (Fin.ofNat 4 c)).toNat

/-- The table orders the tiers: budgets grow strictly with the tier number. -/
def BudgetsIncrease (cfgs : TierConfigs) : Prop := StrictMono fun t : Tier => (budget cfgs t).toNat

instance (cfgs : TierConfigs) : Decidable (BudgetsIncrease cfgs) :=
  decidable_of_iff (∀ t t' : Tier, t < t' → (budget cfgs t).toNat < (budget cfgs t').toNat)
    ⟨fun h t t' => h t t', fun h t t' => @h t t'⟩

variable {cfgs : TierConfigs} {e n a a' : U64} {t t' : Tier}

@[simp] theorem natBudget_val (cfgs : TierConfigs) (t : Tier) :
    natBudget cfgs t = (budget cfgs t).toNat := by
  rw [natBudget, Fin.ofNat_val_eq_self]

theorem BudgetsIncrease.strictMonoOn (h : BudgetsIncrease cfgs) :
    StrictMonoOn (natBudget cfgs) (Set.Iic 3) := by
  intro c hc d hd hcd
  rw [Set.mem_Iic] at hc hd
  exact h (show Fin.ofNat 4 c < Fin.ofNat 4 d by
    rw [Fin.lt_def, Fin.val_ofNat, Fin.val_ofNat]
    omega)

/-- The budget of the tier above, as the code indexes it. -/
theorem natBudget_pred (ht : Tier.critical < t) :
    natBudget cfgs (t - 1) = (unpackStarvationNs (cfgs (cakeTierIdx t - 1))).toNat := by
  have hidx : cakeTierIdx (Fin.ofNat 4 (t - 1)) = cakeTierIdx t - 1 := by
    revert t
    decide
  rw [natBudget, budget, hidx]

/-- Cutting the advance is `DeadlineOrder.granted`. -/
theorem capAdvance_toNat (cfgs : TierConfigs) (t : Tier) (a : U64) :
    (capAdvance cfgs t a).toNat = DeadlineOrder.granted (natBudget cfgs) t a.toNat := by
  rcases eq_or_ne t Tier.critical with rfl | ht
  · rw [capAdvance, if_neg (fun h => lt_irrefl _ h.2), DeadlineOrder.granted]
    rfl
  rcases eq_or_ne a 0#64 with rfl | ha
  · rw [capAdvance, if_neg (fun h => h.1 rfl)]
    exact (DeadlineOrder.granted_zero _ _).symm
  have hpos : Tier.critical < t := Fin.pos_of_ne_zero ht
  have hval : (t : ℕ) ≠ 0 := Nat.ne_of_gt (Fin.lt_def.mp hpos)
  have habove : natBudget cfgs (t - 1)
      = (unpackStarvationNs (cfgs (cakeTierIdx t - 1))).toNat := natBudget_pred hpos
  rw [capAdvance, if_pos ⟨ha, hpos⟩, DeadlineOrder.granted, if_neg hval,
    DeadlineOrder.gap, natBudget_val, habove]
  simp only [BitVec.lt_def]
  -- the comparison decides whether the truncated subtraction of the abstract gap is at zero
  by_cases hlt : (unpackStarvationNs (cfgs (cakeTierIdx t - 1))).toNat < (budget cfgs t).toNat
  · have hgap : (budget cfgs t - unpackStarvationNs (cfgs (cakeTierIdx t - 1)) - 1#64).toNat
        = (budget cfgs t).toNat - (unpackStarvationNs (cfgs (cakeTierIdx t - 1))).toNat - 1 := by
      bv_omega
    rw [if_pos hlt, hgap]
    split <;> omega
  · rw [if_neg hlt]
    split <;> simp only [BitVec.toNat_zero] at * <;> omega

/-- **The key refines the abstract one**, while time plus budget fits in 64 bits. -/
theorem tierDeadline_toNat (cfgs : TierConfigs) (a : U64)
    (hov : n.toNat + (budget cfgs t).toNat < 2 ^ 64) :
    (tierDeadline cfgs n t a).toNat
      = DeadlineOrder.key (natBudget cfgs) n.toNat t a.toNat := by
  have hsum : (n + budget cfgs t).toNat = n.toNat + (budget cfgs t).toNat := by
    rw [BitVec.toNat_add, Nat.mod_eq_of_lt hov]
  rw [tierDeadline, DeadlineOrder.key, natBudget_val, ← capAdvance_toNat]
  simp only [BitVec.lt_def, hsum]
  split
  · next hlt => rw [BitVec.toNat_sub_of_le (by rw [BitVec.le_def]; omega), hsum]
  · next hge => rw [BitVec.toNat_zero]; omega

/-! ### Order of two queued tasks -/

/-- **Priority preservation of the queue key.** A later or simultaneous arrival of a worse tier
never sorts ahead of a queued task, whatever advances the two carry. -/
theorem tierDeadline_lt_of_tier_lt (hmono : BudgetsIncrease cfgs) (hen : e ≤ n) (ht : t < t')
    (hov : n.toNat + (budget cfgs t').toNat < 2 ^ 64) :
    tierDeadline cfgs e t a < tierDeadline cfgs n t' a' := by
  rw [BitVec.le_def] at hen
  have hlt : (budget cfgs t).toNat < (budget cfgs t').toNat := hmono ht
  rw [BitVec.lt_def, tierDeadline_toNat cfgs a (by omega), tierDeadline_toNat cfgs a' hov]
  exact DeadlineOrder.key_lt_key hmono.strictMonoOn hen ht (by omega)

/-- A simultaneous arrival, with the advance of the worse tier far above its budget gap. -/
theorem tierDeadline_lt_of_tier_lt_default :
    tierDeadline defaultTierConfigs 1000 Tier.critical 0
      < tierDeadline defaultTierConfigs 1000 Tier.bulk 0xFFFFFFFFFFFFFFFF :=
  tierDeadline_lt_of_tier_lt (by decide) (by decide) (by decide) (by decide)

/-- A worse-tier task stays ahead of a better-tier arrival that is late by more than the budget
difference and the advance granted to the arrival. -/
theorem tierDeadline_lt_of_late (a a' : U64) (hov : n.toNat + (budget cfgs t').toNat < 2 ^ 64)
    (hlate : e.toNat + (budget cfgs t).toNat + (capAdvance cfgs t' a').toNat
      < n.toNat + (budget cfgs t').toNat) :
    tierDeadline cfgs e t a < tierDeadline cfgs n t' a' := by
  rw [BitVec.lt_def, tierDeadline_toNat cfgs a (by omega), tierDeadline_toNat cfgs a' hov]
  refine DeadlineOrder.key_lt_key_of_late ?_
  rw [natBudget_val, natBudget_val, ← capAdvance_toNat]
  exact hlate

end Imperator
