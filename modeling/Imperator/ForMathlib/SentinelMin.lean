import Mathlib.Order.Bounds.Basic
import Mathlib.Order.MinMax

/-!
# Minima from a sentinel

The minimum of a list that may be empty, as a loop computes it that has to start somewhere: from a
value above everything it expects. The result is the sentinel if nothing lies below it, and the
least element otherwise. Values at the sentinel or above it are lost, which is the price of not
having a flag.
-/

namespace List

variable {α : Type*} [LinearOrder α] {l : List α} {top x : α}

/-- A bound of the result is one of the sentinel and of all elements. -/
theorem le_foldl_min_iff : x ≤ l.foldl min top ↔ x ≤ top ∧ ∀ y ∈ l, x ≤ y := by
  induction l generalizing top with
  | nil => simp
  | cons y l ih => rw [foldl_cons, ih, le_min_iff, forall_mem_cons, and_assoc]

theorem foldl_min_le_sentinel : l.foldl min top ≤ top := (le_foldl_min_iff.mp le_rfl).1

/-- The result is the sentinel or an element. -/
theorem foldl_min_eq_or_mem : l.foldl min top = top ∨ l.foldl min top ∈ l := by
  induction l generalizing top with
  | nil => exact Or.inl rfl
  | cons y l ih =>
    rw [foldl_cons]
    rcases @ih (min top y) with heq | hmem
    · rw [heq]
      rcases le_total top y with hle | hle
      · exact Or.inl (min_eq_left hle)
      · exact Or.inr (by rw [min_eq_right hle]; exact mem_cons_self)
    · exact Or.inr (mem_cons_of_mem y hmem)

/-- **The sentinel is left** exactly if no element lies below it. -/
theorem foldl_min_eq_sentinel_iff : l.foldl min top = top ↔ ∀ y ∈ l, top ≤ y := by
  rw [← foldl_min_le_sentinel.ge_iff_eq, le_foldl_min_iff]
  exact and_iff_right le_rfl

/-- **Otherwise it is the least element**, of those below the sentinel and so of all. -/
theorem isLeast_foldl_min (h : l.foldl min top ≠ top) : IsLeast {y | y ∈ l} (l.foldl min top) :=
  ⟨foldl_min_eq_or_mem.resolve_left h, fun _ hy => (le_foldl_min_iff.mp le_rfl).2 _ hy⟩

end List
