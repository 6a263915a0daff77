import Mathlib.Algebra.Order.Ring.Nat
import Mathlib.Data.Nat.Dist
import Mathlib.Order.Interval.Set.UnorderedInterval
import Mathlib.Order.Lattice.Nat
import Mathlib.Tactic.Linarith

/-!
# Integer moving averages by shifts

An exponentially weighted moving average with weight `2⁻ᵏ`, as integer code computes it: both the
average and the sample are shifted before they are combined, so each truncates on its own and the
fixed point is only approximate. What survives the truncation is what a classifier needs: the new
average lies between the old one and the sample, and it is monotone in the old one.

`asymmetric` chooses the weight by the direction of the sample and can refuse to fall at all,
which is how an incomplete measurement, a lower bound of the true sample, has to be treated.

So after any number of steps the average is still between the smallest and the largest of the values
it has seen, its first one included.

Under a constant sample the average settles, and it settles as soon as it cannot be told from the
sample by the shift: up to `2ʳ - 1` below it or `2ᶠ - 1` above it, depending on where it comes from.
-/

namespace ShiftEwma

variable {k a b x : ℕ}

/-- One step of weight `2⁻ᵏ` from the average `a` towards the sample `x`. -/
def step (k a x : ℕ) : ℕ := a - a / 2 ^ k + x / 2 ^ k

theorem step_eq (k a x : ℕ) : step k a x + a / 2 ^ k = a + x / 2 ^ k := by
  have hle := Nat.div_le_self a (2 ^ k)
  rw [step]
  omega

/-- Dividing cannot stretch a difference. -/
theorem sub_div_le (k : ℕ) (h : a ≤ b) : b / 2 ^ k + a ≤ a / 2 ^ k + b := by
  obtain ⟨d, rfl⟩ := Nat.exists_eq_add_of_le h
  have hdiv : (a + d) / 2 ^ k ≤ a / 2 ^ k + d := by
    rw [Nat.div_le_iff_le_mul_add_pred (Nat.two_pow_pos k)]
    have hmod := Nat.div_add_mod a (2 ^ k)
    have hlt := Nat.mod_lt a (Nat.two_pow_pos k)
    have hd : d ≤ 2 ^ k * d := Nat.le_mul_of_pos_left d (Nat.two_pow_pos k)
    rw [Nat.mul_add]
    omega
  omega

theorem le_step (h : a ≤ x) : a ≤ step k a x := by
  have := step_eq k a x
  have := Nat.div_le_div_right (c := 2 ^ k) h
  omega

theorem step_le (h : a ≤ x) : step k a x ≤ x := by
  have := step_eq k a x
  have := sub_div_le k h
  omega

theorem sample_le_step (h : x ≤ a) : x ≤ step k a x := by
  have := step_eq k a x
  have := sub_div_le k h
  omega

theorem step_le_self (h : x ≤ a) : step k a x ≤ a := by
  have := step_eq k a x
  have := Nat.div_le_div_right (c := 2 ^ k) h
  omega

theorem step_mono (h : a ≤ b) : step k a x ≤ step k b x := by
  have := step_eq k a x
  have := step_eq k b x
  have := sub_div_le k h
  omega

/-- A step that rises slowly (weight `2⁻ʳ`) and falls fast (weight `2⁻ᶠ`). While `frozen`, the
sample is a lower bound and may only raise the average. -/
def asymmetric (f r : ℕ) (frozen : Bool) (a x : ℕ) : ℕ :=
  if x < a then if frozen then a else step f a x else step r a x

variable {f r : ℕ} {frozen : Bool}

theorem asymmetric_of_le (h : a ≤ x) : asymmetric f r frozen a x = step r a x :=
  if_neg (Nat.not_lt.mpr h)

theorem asymmetric_frozen_of_lt (h : x < a) : asymmetric f r true a x = a := by
  simp [asymmetric, h]

theorem le_asymmetric_frozen : a ≤ asymmetric f r true a x := by
  rcases Nat.lt_or_ge x a with h | h
  · rw [asymmetric_frozen_of_lt h]
  · rw [asymmetric_of_le h]
    exact le_step h

theorem asymmetric_le_sample (h : a ≤ x) : asymmetric f r frozen a x ≤ x := by
  rw [asymmetric_of_le h]
  exact step_le h

theorem sample_le_asymmetric (h : x ≤ a) : x ≤ asymmetric f r frozen a x := by
  rw [asymmetric]
  split
  · split
    · exact h
    · exact sample_le_step h
  · exact sample_le_step h

theorem asymmetric_le_self (h : x ≤ a) : asymmetric f r frozen a x ≤ a := by
  rw [asymmetric]
  split
  · split
    · exact le_rfl
    · exact step_le_self h
  · exact step_le_self h

theorem asymmetric_le_max : asymmetric f r frozen a x ≤ max a x := by
  rcases Nat.le_total a x with h | h
  · exact (asymmetric_le_sample h).trans (le_max_right a x)
  · exact (asymmetric_le_self h).trans (le_max_left a x)

/-- A larger average stays larger, also across the point where the weight changes: on either side
of it the new averages are separated by the sample. -/
theorem asymmetric_mono (h : a ≤ b) : asymmetric f r frozen a x ≤ asymmetric f r frozen b x := by
  rcases Nat.lt_or_ge x a with ha | ha
  · have hb : x < b := Nat.lt_of_lt_of_le ha h
    simp only [asymmetric, if_pos ha, if_pos hb]
    split
    · exact h
    · exact step_mono h
  · rcases Nat.lt_or_ge x b with hb | hb
    · exact (asymmetric_le_sample ha).trans (sample_le_asymmetric (Nat.le_of_lt hb))
    · rw [asymmetric_of_le ha, asymmetric_of_le hb]
      exact step_mono h

/-- Frozen or not, the new average lies between the old one and the sample. -/
theorem asymmetric_mem_uIcc : asymmetric f r frozen a x ∈ Set.uIcc a x := by
  rcases Nat.le_total a x with h | h
  · rw [Set.uIcc_of_le h, asymmetric_of_le h]
    exact ⟨le_step h, step_le h⟩
  · rw [Set.uIcc_of_ge h]
    exact ⟨sample_le_asymmetric h, asymmetric_le_self h⟩

theorem step_le_max : step k a x ≤ max a x := by
  rcases Nat.le_total a x with h | h
  · exact (step_le h).trans (le_max_right a x)
  · exact (step_le_self h).trans (le_max_left a x)

/-! ### Evidence -/

/-- Some of the values are not above `a` and some are not below, so `a` is between the smallest
and the largest. -/
def Spans (l : List ℕ) (a : ℕ) : Prop := (∃ y ∈ l, y ≤ a) ∧ ∃ y ∈ l, a ≤ y

theorem spans_singleton (a : ℕ) : Spans [a] a :=
  ⟨⟨a, List.mem_singleton_self a, le_rfl⟩, ⟨a, List.mem_singleton_self a, le_rfl⟩⟩

/-- A value between `a` and `x` is spanned with `x` when `a` is spanned without it. -/
theorem Spans.cons {l : List ℕ} (h : Spans l a) (hb : b ∈ Set.uIcc a x) : Spans (x :: l) b := by
  obtain ⟨⟨y, hy, hya⟩, ⟨z, hz, haz⟩⟩ := h
  rcases Nat.le_total a x with hax | hax
  · rw [Set.uIcc_of_le hax] at hb
    exact ⟨⟨y, List.mem_cons_of_mem x hy, hya.trans hb.1⟩, ⟨x, List.mem_cons_self, hb.2⟩⟩
  · rw [Set.uIcc_of_ge hax] at hb
    exact ⟨⟨x, List.mem_cons_self, hb.1⟩, ⟨z, List.mem_cons_of_mem x hz, hb.2.trans haz⟩⟩

/-! ### A constant sample -/

/-- The sample does not move the average. -/
def Settled (f r a x : ℕ) : Prop := asymmetric f r false a x = a

/-- An average is settled exactly when it agrees with the sample after the shift. -/
theorem settled_iff :
    Settled f r a x ↔ a ≤ x ∧ a / 2 ^ r = x / 2 ^ r ∨ x < a ∧ a / 2 ^ f = x / 2 ^ f := by
  rw [Settled]
  rcases Nat.lt_or_ge x a with h | h
  · have hstep := step_eq f a x
    rw [asymmetric, if_pos h, if_neg Bool.false_ne_true]
    omega
  · have hstep := step_eq r a x
    rw [asymmetric_of_le h]
    omega

/-- An average that is not settled comes nearer to the sample, without passing it. -/
theorem dist_asymmetric_lt (h : ¬ Settled f r a x) :
    Nat.dist (asymmetric f r false a x) x < Nat.dist a x := by
  have hne : asymmetric f r false a x ≠ a := h
  rcases Nat.le_total x a with hle | hle
  · have hlow : x ≤ asymmetric f r false a x := sample_le_asymmetric hle
    have hhigh : asymmetric f r false a x ≤ a := asymmetric_le_self hle
    rw [Nat.dist_eq_sub_of_le_right hlow, Nat.dist_eq_sub_of_le_right hle]
    omega
  · have hhigh : asymmetric f r false a x ≤ x := asymmetric_le_sample hle
    have hlow : a ≤ asymmetric f r false a x := by
      rw [asymmetric_of_le hle]
      exact le_step hle
    rw [Nat.dist_eq_sub_of_le hhigh, Nat.dist_eq_sub_of_le hle]
    omega

/-- **Under a constant sample the average settles**, after as many steps as it is away from it. -/
theorem settled_iterate {n : ℕ} (h : Nat.dist a x ≤ n) :
    Settled f r ((fun b => asymmetric f r false b x)^[n] a) x := by
  induction n generalizing a with
  | zero =>
    obtain rfl : a = x := Nat.eq_of_dist_eq_zero (Nat.le_zero.mp h)
    exact settled_iff.mpr (Or.inl ⟨le_rfl, rfl⟩)
  | succ n ih =>
    by_cases hset : Settled f r a x
    · have hfixed : (fun b => asymmetric f r false b x) a = a := hset
      rw [Function.iterate_fixed hfixed]
      exact hset
    · rw [Function.iterate_succ_apply]
      exact ih (Nat.le_of_lt_succ ((dist_asymmetric_lt hset).trans_le h))

end ShiftEwma
