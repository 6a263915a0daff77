import Mathlib.Data.BitVec
import Mathlib.Data.List.Sort

/-!
# Bit fields and bit masks of machine words

Fields of a machine word are read by a shift and a mask and written by clearing and or-ing. The
lemmas here say what such an access does to a single bit, which is enough: two words agreeing on
the bits of a field have the same field, so every read-after-write fact about a packed word
follows from the bits of the masks.

The second half is about words used as sets of small numbers: the lowest member, as a bit scan
finds it, inserting and removing one member, and the loops that insert or remove one after the
other.
-/

/-- **A loop that only inserts.** If a round of the loop can make `P` true and never makes it false,
`P` is true afterwards if it was true before or some round makes it true. -/
theorem List.foldl_iff_or_exists {α β : Type*} {step : β → α → β} {P : β → Prop} {Q : α → Prop}
    (hstep : ∀ b a, P (step b a) ↔ P b ∨ Q a) (l : List α) (b : β) :
    P (l.foldl step b) ↔ P b ∨ ∃ a ∈ l, Q a := by
  induction l generalizing b with
  | nil => simp
  | cons a l ih => rw [foldl_cons, ih, hstep, or_assoc, exists_mem_cons_iff]

/-- **A loop that stores one value.** If a round of the loop either stores `v` in a place or leaves
it alone, the place has `v` afterwards if some round stores it. -/
theorem List.foldl_eq_ite_mem {α β γ : Type*} [DecidableEq α] {step : β → α → β} {g : β → γ}
    {v : γ} {a : α} (hstep : ∀ b a', g (step b a') = if a = a' then v else g b) (l : List α)
    (b : β) : g (l.foldl step b) = if a ∈ l then v else g b := by
  induction l generalizing b with
  | nil => rfl
  | cons a' l ih =>
    rw [foldl_cons, ih, hstep]
    by_cases hmem : a ∈ l
    · rw [if_pos hmem, if_pos (mem_cons_of_mem a' hmem)]
    · rw [if_neg hmem]
      simp [hmem]

/-- **The first hit is the least one** in an ascending list. -/
theorem List.isLeast_of_find?_eq_some {α : Type*} [LinearOrder α] {l : List α} {p : α → Bool}
    {a : α} (hl : l.Pairwise (· < ·)) (h : l.find? p = some a) :
    IsLeast {x | x ∈ l ∧ p x = true} a := by
  obtain ⟨ha, before, after, rfl, hbefore⟩ := List.find?_eq_some_iff_append.mp h
  refine ⟨⟨by simp, ha⟩, ?_⟩
  rintro x ⟨hx, hpx⟩
  rcases List.mem_append.mp hx with hx | hx
  · have hmiss := hbefore x hx
    simp [hpx] at hmiss
  · rcases List.mem_cons.mp hx with rfl | hx
    · exact le_rfl
    · exact ((List.pairwise_cons.mp (List.pairwise_append.mp hl).2.1).1 x hx).le

namespace BitVec

variable {w : ℕ}

/-! ### Fields -/

/-- Masking with `2 ^ n - 1` keeps the `n` low bits. -/
theorem getLsbD_and_lowMask (x : BitVec w) (n i : ℕ) :
    (x &&& BitVec.ofNat w (2 ^ n - 1)).getLsbD i = (decide (i < n) && x.getLsbD i) := by
  rw [getLsbD_and, getLsbD_ofNat, Nat.testBit_two_pow_sub_one]
  by_cases hi : i < w
  · simp [hi, Bool.and_comm]
  · simp [getLsbD_of_ge x i (Nat.le_of_not_lt hi)]

theorem toNat_and_lowMask (x : BitVec w) {n : ℕ} (hn : n ≤ w) :
    (x &&& BitVec.ofNat w (2 ^ n - 1)).toNat = x.toNat % 2 ^ n := by
  have hlt : 2 ^ n - 1 < 2 ^ w :=
    Nat.lt_of_lt_of_le (Nat.sub_one_lt (Nat.two_pow_pos n).ne') (Nat.pow_le_pow_right (by omega) hn)
  rw [toNat_and, toNat_ofNat, Nat.mod_eq_of_lt hlt, Nat.and_two_pow_sub_one_eq_mod]

/-- Testing one bit against zero, as C does it. -/
theorem and_one_shiftLeft_ne_zero (x : BitVec w) {n : ℕ} (hn : n < w) :
    (x &&& 1#w <<< n != 0#w) = x.getLsbD n := by
  have hne : twoPow w n ≠ 0#w := fun h => by
    simpa [hn] using congrArg (fun y => y.getLsbD n) h
  rw [← twoPow_eq, and_twoPow]
  cases x.getLsbD n <;> simp [hne]

/-- A two-bit field as a number, read off its bits. -/
theorem toNat_mod_four (x : BitVec w) :
    x.toNat % 4 = 2 * (x.getLsbD 1).toNat + (x.getLsbD 0).toNat := by
  rw [← testBit_toNat, ← testBit_toNat, Nat.testBit_eq_decide_div_mod_eq,
    Nat.testBit_eq_decide_div_mod_eq]
  rcases Nat.mod_two_eq_zero_or_one x.toNat with h0 | h0 <;>
    rcases Nat.mod_two_eq_zero_or_one (x.toNat / 2) with h1 | h1 <;>
      · simp [h0, h1]
        omega

/-! ### Words as sets -/

/-- The index of the lowest set bit, `w` for the zero word: a count of trailing zeros. -/
def scanForward (x : BitVec w) : ℕ := (List.range w).findIdx fun i => x.getLsbD i

theorem exists_getLsbD_of_ne_zero {x : BitVec w} (h : x ≠ 0#w) : ∃ i < w, x.getLsbD i = true := by
  by_contra hcon
  push Not at hcon
  exact h (eq_of_getLsbD_eq fun i hi => by simpa using hcon i hi)

theorem scanForward_lt {x : BitVec w} (h : x ≠ 0#w) : x.scanForward < w := by
  obtain ⟨i, hi, hbit⟩ := exists_getLsbD_of_ne_zero h
  have hfind : x.scanForward < (List.range w).length :=
    List.findIdx_lt_length_of_exists ⟨i, List.mem_range.mpr hi, hbit⟩
  rwa [List.length_range] at hfind

/-- The scan stops at a member. -/
theorem getLsbD_scanForward {x : BitVec w} (h : x ≠ 0#w) : x.getLsbD x.scanForward = true := by
  have hlt : x.scanForward < (List.range w).length := by
    rw [List.length_range]
    exact scanForward_lt h
  have hfound : x.getLsbD ((List.range w)[x.scanForward]) = true := List.findIdx_getElem
  rwa [List.getElem_range] at hfound

/-- And it is the lowest one. -/
theorem getLsbD_of_lt_scanForward {x : BitVec w} {i : ℕ} (h : i < x.scanForward) :
    x.getLsbD i = false := by
  have hlen : i < (List.range w).length := h.trans_le List.findIdx_le_length
  have hnot : x.getLsbD ((List.range w)[i]) = false := List.not_of_lt_findIdx h
  rwa [List.getElem_range] at hnot

theorem isLeast_scanForward {x : BitVec w} (h : x ≠ 0#w) :
    IsLeast {i | x.getLsbD i = true} x.scanForward := by
  refine ⟨getLsbD_scanForward h, fun i hi => Nat.le_of_not_lt fun hlt => ?_⟩
  rw [Set.mem_ofPred_eq, getLsbD_of_lt_scanForward hlt] at hi
  exact Bool.noConfusion hi

/-- Below and at the lowest member the word is a power of two. -/
theorem toNat_mod_two_pow_scanForward {x : BitVec w} (h : x ≠ 0#w) :
    x.toNat % 2 ^ (x.scanForward + 1) = 2 ^ x.scanForward := by
  refine Nat.eq_of_testBit_eq fun i => ?_
  rw [Nat.testBit_mod_two_pow, Nat.testBit_two_pow, testBit_toNat]
  rcases Nat.lt_trichotomy i x.scanForward with hlt | heq | hgt
  · rw [getLsbD_of_lt_scanForward hlt, Bool.and_false, decide_eq_false (Nat.ne_of_gt hlt)]
  · rw [heq, getLsbD_scanForward h, decide_eq_true (Nat.lt_succ_self _), decide_eq_true rfl]
    rfl
  · rw [decide_eq_false (Nat.not_lt_of_le hgt), decide_eq_false (Nat.ne_of_lt hgt), Bool.false_and]

/-- Removing the lowest member, as C does it. -/
theorem getLsbD_and_sub_one {x : BitVec w} (h : x ≠ 0#w) (i : ℕ) :
    (x &&& (x - 1#w)).getLsbD i = (x.getLsbD i && decide (i ≠ x.scanForward)) := by
  have hpos : 0 < x.toNat := Nat.pos_of_ne_zero fun hzero => h (eq_of_toNat_eq hzero)
  have hmod := toNat_mod_two_pow_scanForward h
  have hdiv := Nat.div_add_mod x.toNat (2 ^ (x.scanForward + 1))
  have hpow : 2 ^ x.scanForward < 2 ^ (x.scanForward + 1) :=
    Nat.pow_lt_pow_right (by decide) (Nat.lt_succ_self _)
  have hone : 0 < 2 ^ x.scanForward := Nat.two_pow_pos _
  have hpred : (x - 1#w).toNat = 2 ^ (x.scanForward + 1) * (x.toNat / 2 ^ (x.scanForward + 1))
      + (2 ^ x.scanForward - 1) := by
    have hlt := x.isLt
    rw [toNat_sub_of_le (by rw [le_def, toNat_ofNat]; exact (Nat.mod_le _ _).trans hpos),
      toNat_ofNat, Nat.mod_eq_of_lt (by omega)]
    omega
  have hbit : (x - 1#w).getLsbD i = if i < x.scanForward + 1 then decide (i < x.scanForward)
      else x.getLsbD i := by
    rw [← testBit_toNat, hpred, Nat.testBit_two_pow_mul_add _ (by omega),
      Nat.testBit_two_pow_sub_one]
    split
    · rfl
    · next hge =>
      rw [Nat.testBit_div_two_pow, testBit_toNat]
      congr 1
      omega
  rw [getLsbD_and, hbit]
  split
  · next hlt =>
    rcases Nat.lt_or_ge i x.scanForward with hlow | hge
    · rw [getLsbD_of_lt_scanForward hlow, Bool.false_and, Bool.false_and]
    · have heq : i = x.scanForward := by omega
      simp [heq]
  · next hge =>
    rw [Bool.and_self, decide_eq_true (show i ≠ x.scanForward by omega), Bool.and_true]

/-- Words without a common member. -/
theorem and_eq_zero_iff {x y : BitVec w} :
    x &&& y = 0#w ↔ ∀ i < w, x.getLsbD i = true → y.getLsbD i = false := by
  constructor
  · intro h i _ hx
    have hand := congrArg (fun z => z.getLsbD i) h
    simpa [hx] using hand
  · intro h
    refine eq_of_getLsbD_eq fun i hi => ?_
    rw [getLsbD_and, getLsbD_zero, Bool.and_eq_false_imp]
    exact h i hi

/-- A word whose members are all in another one. -/
theorem and_eq_left_iff {x y : BitVec w} :
    x &&& y = x ↔ ∀ i < w, x.getLsbD i = true → y.getLsbD i = true := by
  constructor
  · intro h i _ hx
    have hand := congrArg (fun z => z.getLsbD i) h
    simpa [hx] using hand
  · intro h
    refine eq_of_getLsbD_eq fun i hi => ?_
    rw [getLsbD_and, Bool.and_eq_left_iff_imp]
    exact h i hi

theorem getLsbD_one_shiftLeft (n i : ℕ) (hn : n < w) :
    (1#w <<< n).getLsbD i = decide (i = n) := by
  rw [← twoPow_eq, getLsbD_twoPow]
  by_cases h : i = n
  · simp [h, hn]
  · simp [h, Ne.symm h]

/-- Inserting a member. -/
theorem getLsbD_or_one_shiftLeft (x : BitVec w) {n : ℕ} (hn : n < w) (i : ℕ) :
    (x ||| 1#w <<< n).getLsbD i = (x.getLsbD i || decide (i = n)) := by
  rw [getLsbD_or, getLsbD_one_shiftLeft n i hn]

/-- Removing a member. -/
theorem getLsbD_and_not_one_shiftLeft (x : BitVec w) {n : ℕ} (hn : n < w) (i : ℕ) :
    (x &&& ~~~(1#w <<< n)).getLsbD i = (x.getLsbD i && !decide (i = n)) := by
  rw [getLsbD_and, getLsbD_not, getLsbD_one_shiftLeft n i hn]
  by_cases hi : i < w
  · simp [hi]
  · simp [getLsbD_of_ge x i (Nat.le_of_not_lt hi)]

/-! ### Loops over members -/

/-- The members, in ascending order. -/
def members (x : BitVec w) : List ℕ := (List.range w).filter fun i => x.getLsbD i

theorem mem_members {x : BitVec w} {i : ℕ} : i ∈ x.members ↔ x.getLsbD i = true := by
  rw [members, List.mem_filter, List.mem_range]
  exact and_iff_right_of_imp lt_of_getLsbD

theorem pairwise_members (x : BitVec w) : x.members.Pairwise (· < ·) :=
  List.pairwise_lt_range.filter _

theorem members_zero : (0#w).members = [] := by
  rw [members, List.filter_eq_nil_iff]
  simp

/-- **A loop over the members.** Scan for the lowest one, remove it, go on with the rest. -/
theorem members_of_ne_zero {x : BitVec w} (h : x ≠ 0#w) :
    x.members = x.scanForward :: (x &&& (x - 1#w)).members := by
  have hmem : ∀ i, i ∈ (x &&& (x - 1#w)).members ↔ x.getLsbD i = true ∧ i ≠ x.scanForward := by
    intro i
    rw [mem_members, getLsbD_and_sub_one h, Bool.and_eq_true, decide_eq_true_eq]
  refine (pairwise_members x).eq_of_mem_iff ?_ fun i => ?_
  · refine List.pairwise_cons.mpr ⟨fun i hi => ?_, pairwise_members _⟩
    obtain ⟨hbit, hne⟩ := (hmem i).mp hi
    refine lt_of_le_of_ne (Nat.le_of_not_lt fun hlt => ?_) hne.symm
    rw [getLsbD_of_lt_scanForward hlt] at hbit
    exact Bool.noConfusion hbit
  · rw [List.mem_cons, hmem, mem_members]
    constructor
    · intro hbit
      exact (eq_or_ne i x.scanForward).imp_right fun hne => ⟨hbit, hne⟩
    · rintro (rfl | ⟨hbit, -⟩)
      · exact getLsbD_scanForward h
      · exact hbit

theorem length_members_le (x : BitVec w) : x.members.length ≤ w := by
  rw [members]
  exact (List.length_filter_le _ _).trans_eq List.length_range

/-- A word whose members are all below `n` has at most `n` of them. -/
theorem length_members_le_of_lt {x : BitVec w} {n : ℕ} (h : ∀ i, x.getLsbD i = true → i < n) :
    x.members.length ≤ n := by
  have hsub : x.members ⊆ List.range n := by
    intro i hi
    exact List.mem_range.mpr (h i (mem_members.mp hi))
  have hnodup : x.members.Nodup := (pairwise_members x).imp Nat.ne_of_lt
  exact (List.subperm_of_subset hnodup hsub).length_le.trans_eq List.length_range

/-- The lowest member alone, as C isolates it: two's complement negation keeps it and turns all
bits above it over. -/
theorem and_neg_eq_one_shiftLeft {x : BitVec w} (h : x ≠ 0#w) :
    x &&& -x = 1#w <<< x.scanForward := by
  have hneg : -x = ~~~(x - 1#w) := by rw [not_sub_one_eq_not_add_one, neg_eq_not_add]
  refine eq_of_getLsbD_eq fun i hi => ?_
  have hrest := getLsbD_and_sub_one h i
  rw [getLsbD_and] at hrest
  rw [hneg, getLsbD_and, getLsbD_not, getLsbD_one_shiftLeft _ _ (scanForward_lt h)]
  by_cases heq : i = x.scanForward
  · subst heq
    simp_all [getLsbD_scanForward h]
  · cases hbit : x.getLsbD i <;> simp_all

/-- The numbers visited by a loop that scans for a member, removes the lowest one and goes on, for
at most so many rounds. -/
def scanned (bsf : BitVec w → ℕ) : ℕ → BitVec w → List ℕ
  | 0, _ => []
  | rounds + 1, x =>
    if x = 0#w then [] else bsf x :: scanned bsf rounds (x &&& (x - 1#w))

/-- The loop only scans words that are not zero. -/
theorem scanned_congr {bsf bsf' : BitVec w → ℕ} (h : ∀ x ≠ 0#w, bsf x = bsf' x) (rounds : ℕ)
    (x : BitVec w) : scanned bsf rounds x = scanned bsf' rounds x := by
  induction rounds generalizing x with
  | zero => rfl
  | succ rounds ih =>
    rw [scanned, scanned]
    split
    · rfl
    · next hne => rw [h x hne, ih]

/-- **It visits the members in ascending order**, as far as the rounds go. -/
theorem scanned_eq_take (rounds : ℕ) (x : BitVec w) :
    scanned scanForward rounds x = x.members.take rounds := by
  induction rounds generalizing x with
  | zero => rfl
  | succ rounds ih =>
    rw [scanned]
    split
    · next hzero => rw [hzero, members_zero, List.take_nil]
    · next hne => rw [members_of_ne_zero hne, List.take_succ_cons, ih]

theorem scanned_eq_members {rounds : ℕ} {x : BitVec w} (h : x.members.length ≤ rounds) :
    scanned scanForward rounds x = x.members := by
  rw [scanned_eq_take, List.take_of_length_le h]

end BitVec
