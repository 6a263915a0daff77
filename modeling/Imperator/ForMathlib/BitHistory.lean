import Mathlib.Data.List.Basic
import Mathlib.Data.Nat.Notation

/-!
# Shift registers as bounded histories

A shift register of width `w` that takes in one bit per event holds the last `w` of them. Read as a
history, newest first, the register is the list cut off at `w`, and its population count is the
number of events among the last `w` that set their bit.
-/

namespace BitVec

variable {w : ℕ}

/-- The register after the events of a list, newest first. -/
def ofHistory (w : ℕ) : List Bool → BitVec w
  | [] => 0#w
  | b :: l => (ofHistory w l).shiftConcat b

/-- Shifting in a bit by hand. -/
theorem shiftLeft_one_or_setWidth (x : BitVec w) (b : Bool) :
    x <<< 1 ||| (ofBool b).setWidth w = x.shiftConcat b := by
  refine eq_of_getLsbD_eq fun i hi => ?_
  rw [getLsbD_or, getLsbD_shiftLeft, getLsbD_setWidth, getLsbD_ofBool, getLsbD_shiftConcat]
  rcases Nat.eq_zero_or_pos i with rfl | hpos
  · simp [hi]
  · simp [hi, Nat.ne_of_gt hpos]

theorem getLsbD_ofHistory (w : ℕ) (l : List Bool) (i : ℕ) :
    (ofHistory w l).getLsbD i = (decide (i < w) && l[i]?.getD false) := by
  induction l generalizing i with
  | nil => simp [ofHistory]
  | cons b l ih =>
    rw [ofHistory, getLsbD_shiftConcat]
    cases i with
    | zero => simp
    | succ i =>
      rw [if_neg (Nat.succ_ne_zero i), Nat.add_sub_cancel, ih, List.getElem?_cons_succ]
      by_cases hi : i + 1 < w
      · simp [hi, show i < w by omega]
      · simp [hi]

theorem cpopNatRec_ofHistory {n : ℕ} (hn : n ≤ w) (l : List Bool) :
    (ofHistory w l).cpopNatRec n 0 = (l.take n).count true := by
  induction n with
  | zero => rw [List.take_zero, List.count_nil, cpopNatRec_zero_self]
  | succ n ih =>
    have hbit : ((ofHistory w l).getLsbD n).toNat = l[n]?.toList.count true := by
      rw [getLsbD_ofHistory, decide_eq_true (show n < w by omega), Bool.true_and]
      rcases l[n]? with _ | b
      · rfl
      · cases b <;> rfl
    rw [cpopNatRec_succ, cpopNatRec_eq, ih (by omega), List.take_add_one, List.count_append,
      Nat.zero_add, hbit]

/-- **The population count is the number of set bits among the last `w` events.** -/
theorem toNat_cpop_ofHistory (w : ℕ) (l : List Bool) :
    (ofHistory w l).cpop.toNat = (l.take w).count true := by
  rw [toNat_cpop, cpopNatRec_ofHistory (Nat.le_refl w)]

end BitVec
