import Mathlib.Order.Interval.Set.OrdConnected
import Mathlib.Order.Lattice

/-!
# Hysteresis ladders

A classifier with `n + 1` classes separated by `n` gates. Each gate has two values: the value
that has to be reached to move up past it, and a lower one that has to be undercut to move back
down. Which of the two applies depends on the class held now, so the classes overlap and a value
in the overlap keeps whatever class it already had.

## Main results

* `Ladder.lt_classify_iff`, `Ladder.classify_le_iff` — the classification, gate by gate
* `Ladder.classify_eq_self_iff` — a class is kept exactly on its band
* `Ladder.mem_band_classify` — what is classified is in the band of its class
* `Ladder.classify_lt_self_iff`, `Ladder.self_lt_classify_iff` — and left exactly below and above
* `Ladder.band_ordConnected` — bands are intervals, so a value between two values of a band is in it
-/

/-- `n` gates, each with the value that demotes past it and the lower value that promotes back. -/
structure Ladder (α : Type*) [LinearOrder α] (n : ℕ) where
  /-- Reaching this value moves a class-`i` holder above gate `i`. -/
  demote : ℕ → α
  /-- Falling below this value moves a holder above gate `i` back under it. -/
  promote : ℕ → α
  promote_le_demote : ∀ i, promote i ≤ demote i
  promote_mono : Monotone promote
  demote_mono : Monotone demote

namespace Ladder

variable {α : Type*} [LinearOrder α] {n : ℕ} (L : Ladder α n) {c t : ℕ} {x y z : α}

/-- The value of gate `i` for a holder of class `c`. -/
def gate (c i : ℕ) : α := if i < c then L.promote i else L.demote i

theorem gate_of_lt (h : t < c) : L.gate c t = L.promote t := if_pos h

theorem gate_of_le (h : c ≤ t) : L.gate c t = L.demote t := if_neg (Nat.not_lt.mpr h)

theorem gate_mono (c : ℕ) : Monotone (L.gate c) := by
  intro i j hij
  rcases Nat.lt_or_ge j c with hj | hj
  · rw [L.gate_of_lt hj, L.gate_of_lt (Nat.lt_of_le_of_lt hij hj)]
    exact L.promote_mono hij
  · rw [L.gate_of_le hj]
    rcases Nat.lt_or_ge i c with hi | hi
    · rw [L.gate_of_lt hi]
      exact (L.promote_le_demote i).trans (L.demote_mono hij)
    · rw [L.gate_of_le hi]
      exact L.demote_mono hij

/-- Scan the gates from `i` on and stop at the first one the value is below. -/
def scan (c : ℕ) (x : α) : ℕ → ℕ → ℕ
  | i, 0 => i
  | i, k + 1 => if x < L.gate c i then i else scan c x (i + 1) k

/-- The class of `x` for a holder of class `c`. -/
def classify (c : ℕ) (x : α) : ℕ := L.scan c x 0 n

theorem scan_le (c : ℕ) (x : α) : ∀ i k, L.scan c x i k ≤ i + k
  | i, 0 => le_rfl
  | i, k + 1 => by
    rw [scan]
    split
    · omega
    · have := scan_le c x (i + 1) k
      omega

theorem le_scan (c : ℕ) (x : α) : ∀ i k, i ≤ L.scan c x i k
  | i, 0 => le_rfl
  | i, k + 1 => by
    rw [scan]
    split
    · exact le_rfl
    · exact (Nat.le_succ i).trans (le_scan c x (i + 1) k)

/-- The scan gets past gate `t` exactly when the value has reached it: the gates below `t` are no
higher, so none of them stops the scan first. -/
theorem lt_scan_iff (c : ℕ) (x : α) :
    ∀ {i k}, i ≤ t → t < i + k → (t < L.scan c x i k ↔ L.gate c t ≤ x)
  | i, 0, hi, hk => by omega
  | i, k + 1, hi, hk => by
    rw [scan]
    split
    · next hlt =>
      have hnot : x < L.gate c t := hlt.trans_le (L.gate_mono c hi)
      exact ⟨fun h => by omega, fun h => absurd hnot (not_lt.mpr h)⟩
    · next hge =>
      rcases Nat.eq_or_lt_of_le hi with rfl | hlt
      · have := L.le_scan c x (i + 1) k
        exact ⟨fun _ => not_lt.mp hge, fun _ => by omega⟩
      · exact lt_scan_iff c x hlt (by omega)

theorem classify_le (c : ℕ) (x : α) : L.classify c x ≤ n := by
  simpa [classify] using L.scan_le c x 0 n

theorem lt_classify_iff (h : t < n) : t < L.classify c x ↔ L.gate c t ≤ x :=
  L.lt_scan_iff c x (Nat.zero_le t) (by omega)

theorem classify_le_iff (h : t < n) : L.classify c x ≤ t ↔ x < L.gate c t := by
  rw [← not_lt, L.lt_classify_iff h, not_le]

/-- A holder of class `c` moves up exactly when the value reaches the demotion gate. -/
theorem self_lt_classify_iff (h : c < n) : c < L.classify c x ↔ L.demote c ≤ x := by
  rw [L.lt_classify_iff h, L.gate_of_le le_rfl]

/-- A holder of class `c + 1` moves down exactly when the value undercuts the promotion gate. -/
theorem classify_lt_self_iff (h : c < n) :
    L.classify (c + 1) x < c + 1 ↔ x < L.promote c := by
  rw [Nat.lt_succ_iff, L.classify_le_iff h, L.gate_of_lt (Nat.lt_succ_self c)]

/-- The values at which a holder of class `c` keeps it. -/
def band (c : ℕ) : Set α := {x | (∀ i, i + 1 = c → L.promote i ≤ x) ∧ (c < n → x < L.demote c)}

theorem mem_band_zero : x ∈ L.band 0 ↔ (0 < n → x < L.demote 0) := by
  simp [band]

theorem mem_band_succ :
    x ∈ L.band (c + 1) ↔ L.promote c ≤ x ∧ (c + 1 < n → x < L.demote (c + 1)) := by
  simp [band]

/-- **A class is kept exactly on its band.** -/
theorem classify_eq_self_iff (h : c ≤ n) : L.classify c x = c ↔ x ∈ L.band c := by
  have hup : c < n → (¬ c < L.classify c x ↔ x < L.demote c) := fun hc => by
    rw [L.self_lt_classify_iff hc, not_le]
  have hle := L.classify_le c x
  cases c with
  | zero =>
    rw [L.mem_band_zero]
    constructor
    · intro heq hn
      exact (hup hn).mp (by omega)
    · intro hband
      rcases Nat.eq_zero_or_pos n with rfl | hn
      · omega
      · have := (hup hn).mpr (hband hn)
        omega
  | succ c =>
    have hdown := L.classify_lt_self_iff (x := x) (c := c) (by omega)
    rw [L.mem_band_succ]
    constructor
    · intro heq
      exact ⟨not_lt.mp fun hlt => by have := hdown.mpr hlt; omega,
        fun hc => (hup hc).mp (by omega)⟩
    · rintro ⟨hlow, hhigh⟩
      have hge : ¬ L.classify (c + 1) x < c + 1 := fun hlt => not_lt.mpr hlow (hdown.mp hlt)
      rcases Nat.eq_or_lt_of_le h with hcn | hcn
      · omega
      · have := (hup hcn).mpr (hhigh hcn)
        omega

/-- The class of a value has the value in its band, whoever it is classified for. -/
theorem mem_band_classify (c : ℕ) (x : α) : x ∈ L.band (L.classify c x) := by
  have hgate : ∀ i, L.promote i ≤ L.gate c i ∧ L.gate c i ≤ L.demote i := by
    intro i
    rw [gate]
    split
    · exact ⟨le_rfl, L.promote_le_demote i⟩
    · exact ⟨L.promote_le_demote i, le_rfl⟩
  constructor
  · intro i hi
    have hlt : i < n := Nat.lt_of_lt_of_le (by omega) (L.classify_le c x)
    exact (hgate i).1.trans ((L.lt_classify_iff hlt).mp (by omega))
  · intro hlt
    exact ((L.classify_le_iff hlt).mp le_rfl).trans_le (hgate _).2

theorem band_ordConnected (c : ℕ) : (L.band c).OrdConnected := by
  constructor
  intro x hx y hy z hz
  exact ⟨fun i hi => (hx.1 i hi).trans hz.1, fun hc => hz.2.trans_lt (hy.2 hc)⟩

/-- A value spanned by two values of a band is in it. -/
theorem mem_band_of_mem_uIcc (hx : x ∈ L.band c) (hy : y ∈ L.band c) (hz : z ∈ Set.uIcc x y) :
    z ∈ L.band c :=
  (L.band_ordConnected c).uIcc_subset hx hy hz

end Ladder
