import Mathlib.Tactic.Ring

/-!
# Loop nests and how often they get to their body

A thread goes through nested counted loops. What it does at each position is one of three things: a
round of the innermost body, after which it is at the next position; bookkeeping between the loops;
or leaving the nest. Nests of different shapes may go through the same number of rounds of the body,
and that is all that a partner who has to match every round needs to know.

`Left round l n r` says that from position `l` the nest is left after `r` steps, `n` of which are
rounds of the body. In particular it is left.

## Main results

* `Left.count` — a counted loop
* `Left.nest` — a counted loop of counted loops
-/

namespace LoopNest

/-- What is done at a position. -/
inductive Round (L : Type*)
  | exchange (next : L)
  | work (next : L)
  | leave

variable {L : Type*} {round : L → Round L} {l l' : L} {n r : ℕ}

/-- From a position, `n` rounds of the body in `r` steps, and the nest is left. -/
inductive Left (round : L → Round L) : L → ℕ → ℕ → Prop
  | leave {l : L} : round l = .leave → Left round l 0 1
  | work {l l' : L} {n r : ℕ} : round l = .work l' → Left round l' n r → Left round l n (r + 1)
  | exchange {l l' : L} {n r : ℕ} : round l = .exchange l' → Left round l' n r →
      Left round l (n + 1) (r + 1)

namespace Left

theorem of_leave (h : Left round l n r) (hl : round l = .leave) : n = 0 ∧ r = 1 := by
  cases h with
  | leave => exact ⟨rfl, rfl⟩
  | work hl' | exchange hl' =>
    rw [hl] at hl'
    cases hl'

theorem of_work (h : Left round l n r) (hl : round l = .work l') :
    ∃ r', r = r' + 1 ∧ Left round l' n r' := by
  cases h with
  | work hl' hrest =>
    rw [hl] at hl'
    cases hl'
    exact ⟨_, rfl, hrest⟩
  | leave hl' | exchange hl' =>
    rw [hl] at hl'
    cases hl'

theorem of_exchange (h : Left round l n r) (hl : round l = .exchange l') :
    ∃ n' r', n = n' + 1 ∧ r = r' + 1 ∧ Left round l' n' r' := by
  cases h with
  | exchange hl' hrest =>
    rw [hl] at hl'
    cases hl'
    exact ⟨_, _, rfl, rfl, hrest⟩
  | leave hl' | work hl' =>
    rw [hl] at hl'
    cases hl'

/-- A counted loop goes through its body once for each number. -/
theorem count (pos : ℕ → L) {k : ℕ} (hbody : ∀ i < k, round (pos i) = .exchange (pos (i + 1)))
    (hafter : Left round (pos k) n r) {i : ℕ} (hi : i ≤ k) :
    Left round (pos i) (k - i + n) (k - i + r) := by
  induction hi using Nat.decreasingInduction with
  | self => simpa using hafter
  | of_succ i hi ih =>
    have hcount : k - i = k - (i + 1) + 1 := by omega
    rw [hcount, Nat.add_right_comm, Nat.add_right_comm _ 1]
    exact .exchange (hbody i hi) ih

/-- A counted loop around a counted loop. The work is between two passes of the inner loop. -/
theorem nest (pos : ℕ → ℕ → L) {passes k : ℕ}
    (hbody : ∀ j < passes, ∀ i < k, round (pos j i) = .exchange (pos j (i + 1)))
    (hpass : ∀ j < passes, round (pos j k) = .work (pos (j + 1) 0))
    (hafter : Left round (pos passes 0) n r) {j : ℕ} (hj : j ≤ passes) :
    Left round (pos j 0) ((passes - j) * k + n) ((passes - j) * (k + 1) + r) := by
  induction hj using Nat.decreasingInduction with
  | self => simpa using hafter
  | of_succ j hj ih =>
    have hcount : passes - j = passes - (j + 1) + 1 := by omega
    have hinner := count (pos j) (hbody j hj) (.work (hpass j hj) ih) (Nat.zero_le k)
    have hexchanges : (passes - (j + 1) + 1) * k + n = k - 0 + ((passes - (j + 1)) * k + n) := by
      rw [Nat.sub_zero]
      ring
    have hsteps : (passes - (j + 1) + 1) * (k + 1) + r
        = k - 0 + ((passes - (j + 1)) * (k + 1) + r + 1) := by
      rw [Nat.sub_zero]
      ring
    rw [hcount, hexchanges, hsteps]
    exact hinner

end Left

end LoopNest
