import Mathlib.Data.List.Sort
import Mathlib.Logic.Function.Basic

/-!
# Waiting in a queue

A queue into which elements are inserted in the order of a relation, and from which somebody takes
the first element that suits them. The number of elements ahead of one that waits is its distance
from the front, `List.findIdx`.

An insertion puts something ahead of a waiting element only if it belongs before it. A removal by
somebody the waiting element suits takes it, or something ahead of it.

## Main results

* `List.perm_cons_eraseP`, `List.filter_eq_cons_of_find?` — what is taken, and what is left
* `List.findIdx_orderedInsert_of_not`, `List.findIdx_orderedInsert_le` — insertions
* `List.findIdx_eraseP_lt`, `List.findIdx_eraseP_le` — removals
-/

namespace List

variable {α : Type*} {p q : α → Bool} {l : List α} {a : α}

/-- What is taken, and what is left. -/
theorem perm_cons_eraseP (h : l.find? q = some a) : l.Perm (a :: l.eraseP q) := by
  induction l with
  | nil => cases h
  | cons b l ih =>
    by_cases hb : q b
    · rw [find?_cons_of_pos hb] at h
      obtain rfl := Option.some.inj h
      rw [eraseP_cons_of_pos hb]
    · rw [find?_cons_of_neg hb] at h
      rw [eraseP_cons_of_neg hb]
      exact ((ih h).cons b).trans (Perm.swap a b _)

/-- What is left of those that do not suit: all of them. -/
theorem filter_not_eraseP (q : α → Bool) (l : List α) :
    (l.eraseP q).filter (fun x => !q x) = l.filter fun x => !q x := by
  induction l with
  | nil => rfl
  | cons b l ih =>
    by_cases hb : q b
    · rw [eraseP_cons_of_pos hb, filter_cons_of_neg (by simpa using hb)]
    · rw [eraseP_cons_of_neg hb, filter_cons_of_pos (by simpa using hb),
        filter_cons_of_pos (by simpa using hb), ih]

/-- Of those that suit, the first is taken. -/
theorem filter_eraseP (q : α → Bool) (l : List α) : (l.eraseP q).filter q = (l.filter q).tail := by
  induction l with
  | nil => rfl
  | cons b l ih =>
    by_cases hb : q b
    · rw [eraseP_cons_of_pos hb, filter_cons_of_pos hb, tail_cons]
    · rw [eraseP_cons_of_neg hb, filter_cons_of_neg hb, filter_cons_of_neg hb, ih]

/-- The first of those that suit is the one that is found. -/
theorem filter_eq_cons_of_find? (h : l.find? q = some a) :
    l.filter q = a :: (l.eraseP q).filter q := by
  rw [filter_eraseP]
  refine (cons_head?_tail ?_).symm
  rw [head?_filter, h]
  exact Option.mem_some_self a

/-- Several queues, of which one loses an element. -/
theorem perm_cons_flatMap_update {ι : Type*} [DecidableEq ι] {is : List ι} (his : is.Nodup)
    {f : ι → List α} {i : ι} (hi : i ∈ is) {l' : List α} (h : (f i).Perm (a :: l')) :
    (is.flatMap f).Perm (a :: is.flatMap (Function.update f i l')) := by
  induction is with
  | nil => cases hi
  | cons j is ih =>
    obtain ⟨hj, his⟩ := nodup_cons.mp his
    rw [flatMap_cons, flatMap_cons]
    rcases eq_or_ne i j with rfl | hne
    · have hrest : is.flatMap (Function.update f i l') = is.flatMap f :=
        flatMap_congr fun k hk => Function.update_of_ne (fun heq => hj (by rwa [← heq])) _ _
      rw [hrest, Function.update_self, ← cons_append]
      exact h.append_right _
    · have hi' : i ∈ is := (mem_cons.mp hi).resolve_left hne
      rw [Function.update_of_ne hne.symm]
      exact ((ih his hi').append_left (f j)).trans perm_middle

/-! ### Removals -/

/-- **A removal by somebody the waiting element suits** takes it, or something ahead of it. -/
theorem findIdx_eraseP_lt (hp : ∃ x ∈ l.eraseP q, p x) (hq : ∀ x, p x → q x)
    (hone : ∀ x, l.find? q = some x → ¬ p x) : (l.eraseP q).findIdx p + 1 = l.findIdx p := by
  induction l with
  | nil => simp at hp
  | cons b l ih =>
    by_cases hb : q b
    · have hpb : ¬ p b := hone b (find?_cons_of_pos hb)
      rw [eraseP_cons_of_pos hb, findIdx_cons, cond_eq_ite, if_neg hpb]
    · have hpb : ¬ p b := fun h => hb (hq b h)
      rw [eraseP_cons_of_neg hb] at hp ⊢
      rw [findIdx_cons, findIdx_cons, cond_eq_ite, cond_eq_ite, if_neg hpb, if_neg hpb]
      refine congrArg (· + 1) (ih ?_ fun x hx => hone x ?_)
      · obtain ⟨x, hx, hpx⟩ := hp
        rcases mem_cons.mp hx with rfl | hx
        · exact absurd hpx hpb
        · exact ⟨x, hx, hpx⟩
      · rwa [find?_cons_of_neg hb]

/-- **Any removal** that leaves the waiting element puts nothing ahead of it. -/
theorem findIdx_eraseP_le (hone : ∀ x, l.find? q = some x → ¬ p x) :
    (l.eraseP q).findIdx p ≤ l.findIdx p := by
  induction l with
  | nil => exact le_rfl
  | cons b l ih =>
    by_cases hb : q b
    · have hpb : ¬ p b := hone b (find?_cons_of_pos hb)
      rw [eraseP_cons_of_pos hb, findIdx_cons, cond_eq_ite, if_neg hpb]
      exact Nat.le_succ _
    · rw [eraseP_cons_of_neg hb, findIdx_cons, findIdx_cons]
      cases hpb : p b
      · refine Nat.succ_le_succ (ih fun x hx => hone x ?_)
        rwa [find?_cons_of_neg hb]
      · exact le_rfl

/-! ### Insertions -/

variable {r : α → α → Prop} [DecidableRel r]

/-- Any insertion puts at most one element ahead. -/
theorem findIdx_orderedInsert_le (ha : ¬ p a) :
    (l.orderedInsert r a).findIdx p ≤ l.findIdx p + 1 := by
  induction l with
  | nil => simp [findIdx_cons, ha]
  | cons b l ih =>
    by_cases hb : r a b
    · rw [orderedInsert_cons_of_le _ _ hb, findIdx_cons, cond_eq_ite, if_neg ha]
    · rw [orderedInsert_of_not_le _ _ hb, findIdx_cons, findIdx_cons]
      cases p b
      · exact Nat.succ_le_succ ih
      · exact Nat.zero_le _

/-- **An insertion behind the waiting element** leaves what is ahead of it. -/
theorem findIdx_orderedInsert_of_not (hsorted : l.Pairwise fun b c => r a b → r a c)
    (hp : ∃ x ∈ l, p x) (hr : ∀ x ∈ l, p x → ¬ r a x) :
    (l.orderedInsert r a).findIdx p = l.findIdx p := by
  induction l with
  | nil => simp at hp
  | cons b l ih =>
    obtain ⟨hb, hl⟩ := pairwise_cons.mp hsorted
    have hnot : ¬ r a b := by
      obtain ⟨x, hx, hpx⟩ := hp
      intro hab
      rcases mem_cons.mp hx with rfl | hxl
      · exact hr x hx hpx hab
      · exact hr x hx hpx (hb x hxl hab)
    rw [orderedInsert_of_not_le _ _ hnot, findIdx_cons, findIdx_cons]
    cases hpb : p b
    · refine congrArg (· + 1) (ih hl ?_ fun x hx => hr x (mem_cons_of_mem _ hx))
      obtain ⟨x, hx, hpx⟩ := hp
      rcases mem_cons.mp hx with rfl | hx
      · exact absurd hpx (Bool.eq_false_iff.mp hpb)
      · exact ⟨x, hx, hpx⟩
    · rfl

end List
