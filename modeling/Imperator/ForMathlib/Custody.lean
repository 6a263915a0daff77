import Mathlib.Data.List.Perm.Basic
import Mathlib.Logic.Function.Basic

/-!
# Custody

Objects that are kept in containers. An object that is held lies in exactly one container, and there
once; one that is not held lies in none. Objects come in, go out and change places one at a time,
and each of the three keeps that, whatever the containers are and wherever in a container an object
is put.

A container is a list, and all that is asked of a change is how the old list and the new one agree
up to the order.

## Main definitions

* `Custody` — which objects are held, and where they lie

## Main results

* `Custody.put`, `Custody.take`, `Custody.move` — one object comes in, goes out, changes places
* `Custody.existsUnique` — an object that is held is in one place
-/

variable {κ α : Type*}

/-- Every object that is held lies in exactly one container, and there once. -/
structure Custody (held : α → Prop) (content : κ → List α) : Prop where
  nodup : ∀ k, (content k).Nodup
  unique : ∀ {k k' : κ} {x : α}, x ∈ content k → x ∈ content k' → k = k'
  held_iff : ∀ x, held x ↔ ∃ k, x ∈ content k

namespace Custody

variable {held held' : α → Prop} {content : κ → List α} {k k' : κ} {x : α} {l l' : List α}

/-- Nothing held, all containers empty. -/
theorem empty (hheld : ∀ x, ¬ held x) (hcontent : ∀ k, content k = []) :
    Custody held content where
  nodup := fun k => by simp [hcontent k]
  unique := fun {k k' x} hx => by simp [hcontent k] at hx
  held_iff := fun x => by simp [hcontent, hheld x]

theorem held_of_mem (h : Custody held content) (hx : x ∈ content k) : held x :=
  (h.held_iff x).mpr ⟨k, hx⟩

theorem notMem_of_not_held (h : Custody held content) (hx : ¬ held x) (k : κ) : x ∉ content k :=
  fun hmem => hx (h.held_of_mem hmem)

/-- **An object that is held is in one place.** -/
theorem existsUnique (h : Custody held content) (hx : held x) : ∃! k, x ∈ content k := by
  obtain ⟨k, hk⟩ := (h.held_iff x).mp hx
  exact ⟨k, hk, fun _ hk' => h.unique hk' hk⟩

/-- Only which objects are held matters. -/
theorem congr (h : Custody held content) (hheld : ∀ y, held' y ↔ held y) :
    Custody held' content where
  nodup := h.nodup
  unique := h.unique
  held_iff := fun y => (hheld y).trans (h.held_iff y)

variable [DecidableEq κ]

/-- What lies in the containers once the content of one of them is replaced. -/
theorem mem_update {y : α} : (∃ j, y ∈ Function.update content k l j) ↔
    y ∈ l ∨ ∃ j, j ≠ k ∧ y ∈ content j := by
  constructor
  · rintro ⟨j, hj⟩
    rcases eq_or_ne j k with rfl | hne
    · rw [Function.update_self] at hj
      exact Or.inl hj
    · rw [Function.update_of_ne hne] at hj
      exact Or.inr ⟨j, hne, hj⟩
  · rintro (hy | ⟨j, hne, hj⟩)
    · exact ⟨k, by rwa [Function.update_self]⟩
    · exact ⟨j, by rwa [Function.update_of_ne hne]⟩

/-- **An object comes in.** -/
theorem put (h : Custody held content) (hx : ¬ held x) (hl : l.Perm (x :: content k))
    (hheld : ∀ y, held' y ↔ y = x ∨ held y) : Custody held' (Function.update content k l) := by
  have hmem : ∀ {y}, y ∈ l ↔ y = x ∨ y ∈ content k := fun {y} => hl.mem_iff.trans List.mem_cons
  have hnot : ∀ j, x ∉ content j := h.notMem_of_not_held hx
  refine ⟨fun j => ?_, fun {i j y} hi hj => ?_, fun y => ?_⟩
  · rcases eq_or_ne j k with rfl | hne
    · rw [Function.update_self]
      exact hl.nodup_iff.mpr (List.nodup_cons.mpr ⟨hnot j, h.nodup j⟩)
    · rw [Function.update_of_ne hne]
      exact h.nodup j
  · -- the new object is nowhere else, and the others are where they were
    have hplace : ∀ {j}, y ∈ Function.update content k l j → y = x ∧ j = k ∨ y ∈ content j := by
      intro j hj
      rcases eq_or_ne j k with rfl | hne
      · rw [Function.update_self, hmem] at hj
        exact hj.imp_left fun hy => ⟨hy, rfl⟩
      · rw [Function.update_of_ne hne] at hj
        exact Or.inr hj
    rcases hplace hi with ⟨heq, hik⟩ | hold
    · rcases hplace hj with ⟨-, hjk⟩ | hold'
      · exact hik.trans hjk.symm
      · exact absurd (heq ▸ hold') (hnot j)
    · rcases hplace hj with ⟨heq, -⟩ | hold'
      · exact absurd (heq ▸ hold) (hnot i)
      · exact h.unique hold hold'
  · rw [hheld, mem_update, hmem, h.held_iff, or_assoc]
    refine or_congr_right ⟨?_, ?_⟩
    · rintro ⟨j, hj⟩
      rcases eq_or_ne j k with rfl | hne
      · exact Or.inl hj
      · exact Or.inr ⟨j, hne, hj⟩
    · rintro (hy | ⟨j, -, hj⟩)
      · exact ⟨k, hy⟩
      · exact ⟨j, hj⟩

/-- **An object goes out.** -/
theorem take (h : Custody held content) (hl : (content k).Perm (x :: l))
    (hheld : ∀ y, held' y ↔ y ≠ x ∧ held y) : Custody held' (Function.update content k l) := by
  have hnodup := List.nodup_cons.mp (hl.nodup_iff.mp (h.nodup k))
  have hmem : ∀ {y}, y ∈ content k ↔ y = x ∨ y ∈ l := fun {y} => hl.mem_iff.trans List.mem_cons
  have hsub : ∀ {j y}, y ∈ Function.update content k l j → y ∈ content j := by
    intro j y hj
    rcases eq_or_ne j k with rfl | hne
    · rw [Function.update_self] at hj
      exact hmem.mpr (Or.inr hj)
    · rwa [Function.update_of_ne hne] at hj
  refine ⟨fun j => ?_, fun hi hj => h.unique (hsub hi) (hsub hj), fun y => ?_⟩
  · rcases eq_or_ne j k with rfl | hne
    · rw [Function.update_self]
      exact hnodup.2
    · rw [Function.update_of_ne hne]
      exact h.nodup j
  · rw [hheld, mem_update, h.held_iff]
    constructor
    · rintro ⟨hne, j, hj⟩
      rcases eq_or_ne j k with rfl | hjk
      · exact Or.inl ((hmem.mp hj).resolve_left hne)
      · exact Or.inr ⟨j, hjk, hj⟩
    · rintro (hy | ⟨j, hjk, hj⟩)
      · exact ⟨fun heq => hnodup.1 (heq ▸ hy), k, hmem.mpr (Or.inr hy)⟩
      · refine ⟨?_, j, hj⟩
        rintro rfl
        exact hjk (h.unique hj (hmem.mpr (Or.inl rfl)))

/-- **An object changes places.** -/
theorem move (h : Custody held content) (hl : (content k).Perm (x :: l))
    (hl' : l'.Perm (x :: Function.update content k l k')) :
    Custody held (Function.update (Function.update content k l) k' l') := by
  have hx : held x := h.held_of_mem (hl.mem_iff.mpr List.mem_cons_self)
  have hout : Custody (fun y => y ≠ x ∧ held y) (Function.update content k l) :=
    h.take hl fun _ => Iff.rfl
  refine hout.put (fun hnot => hnot.1 rfl) hl' fun y => ?_
  rcases eq_or_ne y x with rfl | hne
  · exact iff_of_true hx (Or.inl rfl)
  · exact ⟨fun hy => Or.inr ⟨hne, hy⟩, fun hy => (hy.resolve_left hne).2⟩

end Custody
