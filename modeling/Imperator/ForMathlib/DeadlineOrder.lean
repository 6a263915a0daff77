import Mathlib.Order.Monotone.Basic
import Mathlib.Algebra.Order.Ring.Nat

/-!
# Deadline order over priority classes

Work of several classes shares one queue sorted by a key: arrival time, plus the class's budget,
minus an advance the arrival may be granted. Budgets grow with the class number, so the class acts
as a priority that decays with waiting time.

Two facts pull in opposite directions. An advance capped below the gap to the class above cannot
make a simultaneous arrival overtake that class (`key_lt_key`), while an arrival of a better class
stops overtaking once the waiting time exceeds the budget difference *plus the advance it is
granted* (`key_lt_key_of_late`). The class `0` has nothing above it and its advance is not capped.
-/

namespace DeadlineOrder

variable {budget : ℕ → ℕ} {c d e n a b : ℕ}

/-- What is left of the budget of class `c` above the class before it: the largest advance that
keeps the two apart. -/
def gap (budget : ℕ → ℕ) (c : ℕ) : ℕ := budget c - budget (c - 1) - 1

/-- The advance actually granted: uncapped for class `0`, otherwise capped by the gap. -/
def granted (budget : ℕ → ℕ) (c a : ℕ) : ℕ := if c = 0 then a else min a (gap budget c)

/-- The sort key of an arrival at time `e` in class `c` asking for the advance `a`. -/
def key (budget : ℕ → ℕ) (e c a : ℕ) : ℕ := e + budget c - granted budget c a

theorem granted_le (budget : ℕ → ℕ) (c a : ℕ) : granted budget c a ≤ a := by
  rw [granted]
  split
  · exact le_rfl
  · exact min_le_left _ _

theorem granted_le_gap (hc : 0 < c) : granted budget c a ≤ gap budget c := by
  rw [granted, if_neg (by omega)]
  exact min_le_right _ _

@[simp] theorem granted_zero (budget : ℕ → ℕ) (c : ℕ) : granted budget c 0 = 0 :=
  Nat.le_zero.mp (granted_le budget c 0)

theorem key_le (budget : ℕ → ℕ) (e c a : ℕ) : key budget e c a ≤ e + budget c := Nat.sub_le _ _

/-- The cap keeps a key above everything the class before it can reach at the same time. -/
theorem add_budget_pred_lt_key (hc : 0 < c) (h : budget (c - 1) < budget c) :
    n + budget (c - 1) < key budget n c a := by
  have hgap : granted budget c a ≤ gap budget c := granted_le_gap hc
  rw [gap] at hgap
  rw [key]
  omega

/-- **Class order of simultaneous arrivals.** A later or simultaneous arrival of a worse class
sorts behind, whatever advances the two ask for. -/
theorem key_lt_key {N : ℕ} (hmono : StrictMonoOn budget (Set.Iic N)) (hen : e ≤ n) (hcd : c < d)
    (hd : d ≤ N) : key budget e c a < key budget n d b := by
  have hpred : budget (d - 1) < budget d :=
    hmono (Set.mem_Iic.mpr (by omega)) (Set.mem_Iic.mpr hd) (by omega)
  have hc : budget c ≤ budget (d - 1) :=
    hmono.monotoneOn (Set.mem_Iic.mpr (by omega)) (Set.mem_Iic.mpr (by omega)) (by omega)
  calc key budget e c a
      ≤ e + budget c := key_le budget e c a
    _ ≤ n + budget (d - 1) := by omega
    _ < key budget n d b := add_budget_pred_lt_key (by omega) hpred

/-- **Bounded overtaking.** An arrival late by more than the budget difference and its own granted
advance sorts behind the waiting one, whatever advance the waiting one was granted. -/
theorem key_lt_key_of_late (h : e + budget c + granted budget d b < n + budget d) :
    key budget e c a < key budget n d b := by
  have hle := key_le budget e c a
  rw [key] at hle ⊢
  rw [key]
  omega

/-- **The window of overtaking.** Who sorts ahead of a waiting arrival came before the waiting
one's budget ran out, give or take its own granted advance. -/
theorem le_of_key_le_key (h : key budget n d b ≤ key budget e c a) :
    n + budget d ≤ e + budget c + granted budget d b := by
  by_contra hlate
  exact absurd (key_lt_key_of_late (Nat.lt_of_not_le hlate)) (Nat.not_lt_of_le h)

end DeadlineOrder
