import Mathlib.Order.Bounds.Basic
import Mathlib.Data.Set.Subsingleton
import Imperator.Loader

/-!
# Which pairs of CPUs are measured

The latency between LLCs is measured on a few pairs of CPUs, with the results in a matrix that has
a row and a column for each CPU. The pairs are made of the ids of CPUs, found in the sets of the
LLCs. The rows are as many as there are CPUs. An id that is not below the number of CPUs has no row,
and asking for it ends the whole program, whatever was measured.

Not every id is asked for. From two LLCs up to three pairs are taken, spread from the first CPU of
each to the last, but never more than the smaller one has CPUs. So the first CPU of an LLC is
always measured if there is another LLC, and the last one as well if another LLC has two CPUs.

## Main definitions

* `selectEtdPairs`, `calibratePairs` — the pairs, and the loop over them
* `EtdInBounds` — every access has a row and a column
* `Topology.SamplesInRange` — the CPUs that are measured have small ids

## Main results

* `calibratePairs_isSome_iff` — the loop ends exactly if the pairs are in range
* `samplePairs_lt_iff` — what is taken from two LLCs
* `etd_in_bounds_iff` — every topology
-/

namespace Imperator

/-! ### Choosing pairs -/

/-- `llc_members`: the CPUs of the LLCs that have some, in ascending order. -/
def llcMembers (info : TopologyInfo) : List (List ℕ) :=
  (((List.finRange 8).map info.llcCpuMask).filter (· ≠ 0)).map BitVec.members

/-- `spread_indices` -/
def spreadIndices (len k : ℕ) : List ℕ :=
  if len = 0 ∨ k = 0 then []
  else
    let k := min k len
    if k = 1 then [0] else (List.range k).map fun i => i * (len - 1) / (k - 1)

/-- `SAMPLES_PER_LLC_PAIR` -/
def samplesPerLlcPair : ℕ := 3

/-- The pairs taken from two LLCs. -/
def samplePairs (cpusA cpusB : List ℕ) : List (ℕ × ℕ) :=
  let k := min (min samplesPerLlcPair cpusA.length) cpusB.length
  let idxA := spreadIndices cpusA.length k
  let idxB := spreadIndices cpusB.length k
  (List.range k).map fun i => (cpusA.getD (idxA.getD i 0) 0, cpusB.getD (idxB.getD i 0) 0)

/-- The loop over the LLCs, and over those that come after. -/
def pairsOfLlcs : List (List ℕ) → List (ℕ × ℕ)
  | [] => []
  | cpusA :: later => later.flatMap (samplePairs cpusA) ++ pairsOfLlcs later

/-- `select_etd_pairs` -/
def selectEtdPairs (info : TopologyInfo) : List (ℕ × ℕ) :=
  if (llcMembers info).length ≤ 1 then [] else pairsOfLlcs (llcMembers info)

/-! ### Measuring -/

/-- What `measure_pair` finds: the median, and whether the deviation is small enough. -/
structure Measurement (α : Type*) where
  median : α
  accepted : Bool

section Calibration

variable {α : Type*}

/-- `matrix[a][b]`; without a value, the program ends there. -/
def getEntry (matrix : List (List α)) (a b : ℕ) : Option α := matrix[a]?.bind fun row => row[b]?

/-- `matrix[a][b] = v` -/
def setEntry (matrix : List (List α)) (a b : ℕ) (v : α) : Option (List (List α)) :=
  matrix[a]?.bind fun row => if b < row.length then some (matrix.set a (row.set b v)) else none

/-- The same in both directions. -/
def setBoth (matrix : List (List α)) (a b : ℕ) (v : α) : Option (List (List α)) :=
  (setEntry matrix a b v).bind fun matrix => setEntry matrix b a v

/-- The `while let` loop: up to `MAX_RETRIES` measurements may be rejected. The number is that of
the retries left. -/
def measureEntry (measure : ℕ → Option (Measurement α)) (a b : ℕ) :
    ℕ → List (List α) → Option (List (List α))
  | 0, matrix =>
    match measure 0 with
    | none => some matrix
    | some x => setBoth matrix a b x.median
  | retries + 1, matrix =>
    match measure (retries + 1) with
    | none => some matrix
    | some x => if x.accepted then setBoth matrix a b x.median
      else measureEntry measure a b retries matrix

variable [Zero α] [DecidableEq α]

/-- One pair. An entry that was not measured is given `ETD_FALLBACK_NS`. -/
def calibratePair (fallback : α) (measure : ℕ × ℕ → ℕ → Option (Measurement α))
    (matrix : List (List α)) (pair : ℕ × ℕ) : Option (List (List α)) :=
  (measureEntry (measure pair) pair.1 pair.2 3 matrix).bind fun matrix =>
    (getEntry matrix pair.1 pair.2).bind fun v =>
      if v = 0 then setBoth matrix pair.1 pair.2 fallback else some matrix

/-- `calibrate_pairs` -/
def calibratePairs (nrCpus : ℕ) (pairs : List (ℕ × ℕ)) (fallback : α)
    (measure : ℕ × ℕ → ℕ → Option (Measurement α)) : Option (List (List α)) :=
  pairs.foldlM (calibratePair fallback measure) (List.replicate nrCpus (List.replicate nrCpus 0))

/-- `calibrate_full_matrix`: every pair there is a row and a column for. -/
def calibrateFullMatrix (nrCpus : ℕ) (fallback : α)
    (measure : ℕ × ℕ → ℕ → Option (Measurement α)) : Option (List (List α)) :=
  let pairs := (List.range nrCpus).flatMap fun a =>
    (List.range' (a + 1) (nrCpus - (a + 1))).map fun b => (a, b)
  calibratePairs nrCpus pairs fallback measure

end Calibration

/-- Every pair has a row and a column, and whatever is measured, the loop over the pairs comes to
its end. -/
structure EtdInBounds (info : TopologyInfo) : Prop where
  pairs : ∀ pair ∈ selectEtdPairs info, pair.1 < info.nrCpus ∧ pair.2 < info.nrCpus
  accesses : ∀ {α : Type} [Zero α] [DecidableEq α] (fallback : α)
    (measure : ℕ × ℕ → ℕ → Option (Measurement α)),
    (calibratePairs info.nrCpus (selectEtdPairs info) fallback measure).isSome

/-! ### The matrix -/

section Calibration

variable {α : Type*} {n a b : ℕ} {matrix matrix' : List (List α)} {v : α}

/-- A row and a column for each of `n` CPUs. -/
def IsSquare (n : ℕ) (matrix : List (List α)) : Prop :=
  matrix.length = n ∧ ∀ row ∈ matrix, row.length = n

theorem isSquare_replicate (n : ℕ) (v : α) :
    IsSquare n (List.replicate n (List.replicate n v)) := by
  refine ⟨List.length_replicate, fun row hrow => ?_⟩
  rw [List.eq_of_mem_replicate hrow, List.length_replicate]

theorem IsSquare.getElem? (h : IsSquare n matrix) (ha : a < n) :
    ∃ row, matrix[a]? = some row ∧ row.length = n := by
  have hlt : a < matrix.length := by rw [h.1]; exact ha
  exact ⟨matrix[a], List.getElem?_eq_getElem hlt, h.2 _ (List.getElem_mem hlt)⟩

/-- A store in range keeps the matrix square. -/
theorem setEntry_of_lt (h : IsSquare n matrix) (ha : a < n) (hb : b < n) (v : α) :
    ∃ matrix', setEntry matrix a b v = some matrix' ∧ IsSquare n matrix' := by
  obtain ⟨row, hrow, hlen⟩ := h.getElem? ha
  refine ⟨matrix.set a (row.set b v), ?_, ?_, ?_⟩
  · rw [setEntry, hrow, Option.bind_some, if_pos (hlen ▸ hb)]
  · rw [List.length_set, h.1]
  · intro row' hrow'
    rcases List.mem_or_eq_of_mem_set hrow' with hmem | rfl
    · exact h.2 row' hmem
    · rw [List.length_set, hlen]

theorem setBoth_of_lt (h : IsSquare n matrix) (ha : a < n) (hb : b < n) (v : α) :
    ∃ matrix', setBoth matrix a b v = some matrix' ∧ IsSquare n matrix' := by
  obtain ⟨matrix', hset, hsquare⟩ := setEntry_of_lt h ha hb v
  rw [setBoth, hset]
  exact setEntry_of_lt hsquare hb ha v

/-- A load out of range has no value. -/
theorem getEntry_of_not_lt (h : IsSquare n matrix) (hout : ¬ (a < n ∧ b < n)) :
    getEntry matrix a b = none := by
  rw [getEntry]
  by_cases ha : a < n
  · obtain ⟨row, hrow, hlen⟩ := h.getElem? ha
    rw [hrow, Option.bind_some, List.getElem?_eq_none]
    rw [hlen]
    exact Nat.not_lt.mp fun hb => hout ⟨ha, hb⟩
  · rw [List.getElem?_eq_none (by rw [h.1]; exact Nat.not_lt.mp ha), Option.bind_none]

/-- Both directions have the same value. -/
def IsSymmetric (n : ℕ) (matrix : List (List α)) : Prop :=
  ∀ a < n, ∀ b < n, getEntry matrix a b = getEntry matrix b a

/-- An entry, or zero out of range. -/
def entryAt [Zero α] (matrix : List (List α)) (a b : ℕ) : α := (getEntry matrix a b).getD 0

theorem getEntry_eq_some [Zero α] (h : IsSquare n matrix) (ha : a < n) (hb : b < n) :
    getEntry matrix a b = some (entryAt matrix a b) := by
  obtain ⟨row, hrow, hlen⟩ := h.getElem? ha
  have hcol : b < row.length := by rw [hlen]; exact hb
  rw [entryAt, getEntry, hrow, Option.bind_some, List.getElem?_eq_getElem hcol, Option.getD_some]

theorem lt_of_getEntry (h : IsSquare n matrix) (hget : getEntry matrix a b = some v) :
    a < n ∧ b < n := by
  by_contra hout
  rw [getEntry_of_not_lt h hout] at hget
  cases hget

theorem mem_of_getEntry (h : getEntry matrix a b = some v) : ∃ row ∈ matrix, v ∈ row := by
  obtain ⟨row, hrow, hv⟩ := Option.bind_eq_some_iff.mp h
  exact ⟨row, List.mem_of_getElem? hrow, List.mem_of_getElem? hv⟩

theorem setBoth_of_not_lt (h : IsSquare n matrix) (hout : ¬ (a < n ∧ b < n)) (v : α) :
    setBoth matrix a b v = none := by
  rw [setBoth, setEntry]
  by_cases ha : a < n
  · obtain ⟨row, hrow, hlen⟩ := h.getElem? ha
    rw [hrow, Option.bind_some, if_neg, Option.bind_none]
    rw [hlen]
    exact fun hb => hout ⟨ha, hb⟩
  · rw [List.getElem?_eq_none (by rw [h.1]; exact Nat.not_lt.mp ha), Option.bind_none,
      Option.bind_none]

section Retries

variable {measure : ℕ → Option (Measurement α)} {retries : ℕ} {x : Measurement α}

theorem measureEntry_of_none (h : measure retries = none) :
    measureEntry measure a b retries matrix = some matrix := by
  cases retries <;> rw [measureEntry, h]

/-- A result is stored if it is accepted, or the last one. -/
theorem measureEntry_of_stored (h : measure retries = some x)
    (hx : x.accepted = true ∨ retries = 0) :
    measureEntry measure a b retries matrix = setBoth matrix a b x.median := by
  cases retries with
  | zero => rw [measureEntry, h]
  | succ retries =>
    have haccepted := hx.resolve_right (Nat.succ_ne_zero retries)
    rw [measureEntry, h]
    exact if_pos haccepted

theorem measureEntry_of_rejected (h : measure (retries + 1) = some x) (hx : ¬ x.accepted = true) :
    measureEntry measure a b (retries + 1) matrix = measureEntry measure a b retries matrix := by
  rw [measureEntry, h]
  exact if_neg hx

/-- **All retries together** store one result, or none. -/
theorem measureEntry_cases (measure : ℕ → Option (Measurement α)) (retries : ℕ) :
    measureEntry measure a b retries matrix = some matrix ∨ ∃ left x, measure left = some x ∧
      measureEntry measure a b retries matrix = setBoth matrix a b x.median := by
  induction retries with
  | zero =>
    cases hcall : measure 0 with
    | none => exact Or.inl (measureEntry_of_none hcall)
    | some x => exact Or.inr ⟨0, x, hcall, measureEntry_of_stored hcall (Or.inr rfl)⟩
  | succ retries ih =>
    cases hcall : measure (retries + 1) with
    | none => exact Or.inl (measureEntry_of_none hcall)
    | some x =>
      by_cases hx : x.accepted = true
      · exact Or.inr ⟨_, x, hcall, measureEntry_of_stored hcall (Or.inl hx)⟩
      · rw [measureEntry_of_rejected hcall hx]
        exact ih

end Retries

theorem measureEntry_of_lt (h : IsSquare n matrix) (ha : a < n) (hb : b < n)
    (measure : ℕ → Option (Measurement α)) (retries : ℕ) :
    ∃ matrix', measureEntry measure a b retries matrix = some matrix' ∧ IsSquare n matrix' := by
  rcases measureEntry_cases measure retries with hkept | ⟨left, x, -, hstored⟩
  · exact ⟨matrix, hkept, h⟩
  · rw [hstored]
    exact setBoth_of_lt h ha hb _

/-- Out of range a measurement is not stored. -/
theorem measureEntry_of_not_lt (h : IsSquare n matrix) (hout : ¬ (a < n ∧ b < n))
    (measure : ℕ → Option (Measurement α)) (retries : ℕ) :
    measureEntry measure a b retries matrix = none ∨
      measureEntry measure a b retries matrix = some matrix := by
  rcases measureEntry_cases measure retries with hkept | ⟨left, x, -, hstored⟩
  · exact Or.inr hkept
  · rw [hstored]
    exact Or.inl (setBoth_of_not_lt h hout _)

variable [Zero α] [DecidableEq α]

theorem calibratePair_of_lt {pair : ℕ × ℕ} (h : IsSquare n matrix)
    (hpair : pair.1 < n ∧ pair.2 < n) (fallback : α)
    (measure : ℕ × ℕ → ℕ → Option (Measurement α)) :
    ∃ matrix', calibratePair fallback measure matrix pair = some matrix' ∧ IsSquare n matrix' := by
  obtain ⟨measured, hmeasured, hsquare⟩ :=
    measureEntry_of_lt h hpair.1 hpair.2 (measure pair) 3
  obtain ⟨row, hrow, hlen⟩ := hsquare.getElem? hpair.1
  have hcol : pair.2 < row.length := by rw [hlen]; exact hpair.2
  rw [calibratePair, hmeasured, Option.bind_some, getEntry, hrow, Option.bind_some,
    List.getElem?_eq_getElem hcol, Option.bind_some]
  split
  · exact setBoth_of_lt hsquare hpair.1 hpair.2 fallback
  · exact ⟨measured, rfl, hsquare⟩

/-- The entry is looked at in the end, so a pair out of range is fatal even if it was not
measured. -/
theorem calibratePair_of_not_lt {pair : ℕ × ℕ} (h : IsSquare n matrix)
    (hout : ¬ (pair.1 < n ∧ pair.2 < n)) (fallback : α)
    (measure : ℕ × ℕ → ℕ → Option (Measurement α)) :
    calibratePair fallback measure matrix pair = none := by
  rw [calibratePair]
  rcases measureEntry_of_not_lt h hout (measure pair) 3 with hnone | hkept
  · rw [hnone, Option.bind_none]
  · rw [hkept, Option.bind_some, getEntry_of_not_lt h hout, Option.bind_none]

/-- **The loop ends exactly if the pairs are in range**, whatever is measured. -/
theorem calibratePairs_isSome_iff (n : ℕ) (pairs : List (ℕ × ℕ)) (fallback : α)
    (measure : ℕ × ℕ → ℕ → Option (Measurement α)) :
    (calibratePairs n pairs fallback measure).isSome ↔
      ∀ pair ∈ pairs, pair.1 < n ∧ pair.2 < n := by
  have hloop : ∀ matrix, IsSquare n matrix →
      ((pairs.foldlM (calibratePair fallback measure) matrix).isSome ↔
        ∀ pair ∈ pairs, pair.1 < n ∧ pair.2 < n) := by
    induction pairs with
    | nil => simp
    | cons pair pairs ih =>
      intro matrix hsquare
      rw [List.foldlM_cons, List.forall_mem_cons]
      by_cases hpair : pair.1 < n ∧ pair.2 < n
      · obtain ⟨matrix', hstep, hsquare'⟩ := calibratePair_of_lt hsquare hpair fallback measure
        rw [hstep, and_iff_right hpair]
        exact ih matrix' hsquare'
      · rw [calibratePair_of_not_lt hsquare hpair, iff_false_right fun h => hpair h.1]
        exact Bool.false_ne_true
  exact hloop _ (isSquare_replicate n 0)

/-- The full sweep counts CPUs and does not look at their ids, so it is always in range. -/
theorem calibrateFullMatrix_isSome (n : ℕ) (fallback : α)
    (measure : ℕ × ℕ → ℕ → Option (Measurement α)) :
    (calibrateFullMatrix n fallback measure).isSome := by
  refine (calibratePairs_isSome_iff n _ fallback measure).mpr fun pair hpair => ?_
  obtain ⟨a, ha, hpair⟩ := List.mem_flatMap.mp hpair
  obtain ⟨b, hb, rfl⟩ := List.mem_map.mp hpair
  have hlt := List.mem_range.mp ha
  have hbound := List.mem_range'_1.mp hb
  dsimp only
  omega

end Calibration

/-! ### What is taken from two LLCs -/

section Samples

variable {len k i n : ℕ} {cpus cpusA cpusB : List ℕ}

/-- With no more samples than CPUs, the indices run evenly from the first to the last. -/
theorem spreadIndices_getD (hk : k ≤ len) (hi : i < k) :
    (spreadIndices len k).getD i 0 = i * (len - 1) / (k - 1) := by
  have hpos : ¬ (len = 0 ∨ k = 0) := by omega
  rw [spreadIndices, if_neg hpos, min_eq_left hk]
  dsimp only
  split
  · next hone =>
    obtain rfl : i = 0 := by omega
    simp
  · rw [List.getD_eq_getElem _ _ (by simpa using hi)]
    simp

theorem spread_le (len : ℕ) (hi : i < k) : i * (len - 1) / (k - 1) ≤ len - 1 := by
  refine Nat.div_le_of_le_mul ?_
  exact Nat.mul_le_mul_right _ (Nat.le_sub_one_of_lt hi)

/-- The samples of two LLCs, by their number. -/
theorem samplePairs_eq (cpusA cpusB : List ℕ) : samplePairs cpusA cpusB
    = (List.range (min (min 3 cpusA.length) cpusB.length)).map fun i =>
      (cpusA.getD (i * (cpusA.length - 1) / (min (min 3 cpusA.length) cpusB.length - 1)) 0,
        cpusB.getD (i * (cpusB.length - 1) / (min (min 3 cpusA.length) cpusB.length - 1)) 0) := by
  have hA : min (min 3 cpusA.length) cpusB.length ≤ cpusA.length := by omega
  have hB : min (min 3 cpusA.length) cpusB.length ≤ cpusB.length := by omega
  rw [samplePairs, samplesPerLlcPair]
  refine List.map_congr_left fun i hi => ?_
  have hlt := List.mem_range.mp hi
  rw [spreadIndices_getD hA hlt, spreadIndices_getD hB hlt]

theorem mem_samplePairs {pair : ℕ × ℕ} : pair ∈ samplePairs cpusA cpusB ↔
    ∃ i < min (min 3 cpusA.length) cpusB.length,
      pair = (cpusA.getD (i * (cpusA.length - 1) / (min (min 3 cpusA.length) cpusB.length - 1)) 0,
        cpusB.getD (i * (cpusB.length - 1) / (min (min 3 cpusA.length) cpusB.length - 1)) 0) := by
  rw [samplePairs_eq, List.mem_map]
  constructor
  · rintro ⟨i, hi, rfl⟩
    exact ⟨i, List.mem_range.mp hi, rfl⟩
  · rintro ⟨i, hi, rfl⟩
    exact ⟨i, List.mem_range.mpr hi, rfl⟩

/-- In ascending order later CPUs are larger. -/
theorem getD_le_getD (hsorted : cpus.Pairwise (· < ·)) {i j : ℕ} (hij : i ≤ j)
    (hj : j < cpus.length) : cpus.getD i 0 ≤ cpus.getD j 0 := by
  rw [List.getD_eq_getElem _ _ (Nat.lt_of_le_of_lt hij hj), List.getD_eq_getElem _ _ hj]
  rcases Nat.eq_or_lt_of_le hij with rfl | hlt
  · exact le_rfl
  · exact (List.pairwise_iff_getElem.mp hsorted i j _ hj hlt).le

/-- What is taken of `cpus`, when a pair is formed with each of `others`, is below `n`. -/
def SamplesBelow (n : ℕ) (cpus others : List ℕ) : Prop :=
  cpus.getD 0 0 < n ∧ (2 ≤ others.length → cpus.getD (cpus.length - 1) 0 < n)

theorem SamplesBelow.getD_lt (h : SamplesBelow n cpusA cpusB) (hsorted : cpusA.Pairwise (· < ·))
    (hi : i < min (min 3 cpusA.length) cpusB.length) :
    cpusA.getD (i * (cpusA.length - 1) / (min (min 3 cpusA.length) cpusB.length - 1)) 0 < n := by
  by_cases htwo : 2 ≤ cpusB.length
  · have hle := spread_le cpusA.length hi
    refine (getD_le_getD hsorted hle ?_).trans_lt (h.2 htwo)
    omega
  · obtain rfl : i = 0 := by omega
    simpa using h.1

/-- **What is taken from two LLCs** lies between the first CPUs and, if both have more than one, the
last ones, which are taken themselves. -/
theorem samplePairs_lt_iff (hA : cpusA ≠ []) (hB : cpusB ≠ []) (hsortedA : cpusA.Pairwise (· < ·))
    (hsortedB : cpusB.Pairwise (· < ·)) :
    (∀ pair ∈ samplePairs cpusA cpusB, pair.1 < n ∧ pair.2 < n) ↔
      SamplesBelow n cpusA cpusB ∧ SamplesBelow n cpusB cpusA := by
  have hposA : 0 < cpusA.length := List.length_pos_iff.mpr hA
  have hposB : 0 < cpusB.length := List.length_pos_iff.mpr hB
  constructor
  · intro h
    have hfirst := h _ (mem_samplePairs.mpr ⟨0, by omega, rfl⟩)
    simp only [Nat.zero_mul, Nat.zero_div] at hfirst
    by_cases htwo : 2 ≤ cpusA.length ∧ 2 ≤ cpusB.length
    · have hlast := h _ (mem_samplePairs.mpr
        ⟨min (min 3 cpusA.length) cpusB.length - 1, by omega, rfl⟩)
      have hpos : 0 < min (min 3 cpusA.length) cpusB.length - 1 := by omega
      simp only [Nat.mul_div_cancel_left _ hpos] at hlast
      exact ⟨⟨hfirst.1, fun _ => hlast.1⟩, ⟨hfirst.2, fun _ => hlast.2⟩⟩
    · -- the last CPU of an LLC with one CPU is the first
      have hsingle : ∀ {cpus : List ℕ}, cpus.length < 2 → cpus.length - 1 = 0 := by omega
      constructor
      · refine ⟨hfirst.1, fun hB => ?_⟩
        rw [hsingle (Nat.not_le.mp fun hA => htwo ⟨hA, hB⟩)]
        exact hfirst.1
      · refine ⟨hfirst.2, fun hA => ?_⟩
        rw [hsingle (Nat.not_le.mp fun hB => htwo ⟨hA, hB⟩)]
        exact hfirst.2
  · rintro ⟨hbelowA, hbelowB⟩ pair hpair
    obtain ⟨i, hi, rfl⟩ := mem_samplePairs.mp hpair
    refine ⟨hbelowA.getD_lt hsortedA hi, ?_⟩
    rw [min_right_comm] at hi ⊢
    exact hbelowB.getD_lt hsortedB hi

end Samples

/-! ### Topologies -/

namespace Topology

/-- The CPUs of an LLC the sets have room for. -/
def cpuSet (topo : Topology) (l : Llc) : Set ℕ := {c | c ∈ topo.llc l ∧ c < 64}

/-- From each LLC beside another one, the first CPU has an id below the number of CPUs, and so has
the last one, if the other LLC has two CPUs. -/
def SamplesInRange (topo : Topology) : Prop :=
  ∀ l l' : Llc, l ≠ l' → topo.Populated l' →
    (∀ c, IsLeast (topo.cpuSet l) c → c < topo.allCpus.length) ∧
      ((topo.cpuSet l').Nontrivial → ∀ c, IsGreatest (topo.cpuSet l) c → c < topo.allCpus.length)

end Topology

variable {topo : Topology} {l l' : Llc} {n : ℕ} {cpus : List ℕ}

theorem isLeast_getD (hsorted : cpus.Pairwise (· < ·)) (hne : cpus ≠ []) :
    IsLeast {c | c ∈ cpus} (cpus.getD 0 0) := by
  have hpos : 0 < cpus.length := List.length_pos_iff.mpr hne
  constructor
  · rw [List.getD_eq_getElem _ _ hpos]
    exact List.getElem_mem hpos
  · intro c hc
    obtain ⟨i, hi, rfl⟩ := List.mem_iff_getElem.mp hc
    rw [← List.getD_eq_getElem _ 0 hi]
    exact getD_le_getD hsorted (Nat.zero_le i) hi

theorem isGreatest_getD (hsorted : cpus.Pairwise (· < ·)) (hne : cpus ≠ []) :
    IsGreatest {c | c ∈ cpus} (cpus.getD (cpus.length - 1) 0) := by
  have hlast : cpus.length - 1 < cpus.length :=
    Nat.sub_lt (List.length_pos_iff.mpr hne) Nat.one_pos
  constructor
  · rw [List.getD_eq_getElem _ _ hlast]
    exact List.getElem_mem hlast
  · intro c hc
    obtain ⟨i, hi, rfl⟩ := List.mem_iff_getElem.mp hc
    rw [← List.getD_eq_getElem _ 0 hi]
    exact getD_le_getD hsorted (Nat.le_sub_one_of_lt hi) hlast

theorem nontrivial_iff_two_le (hsorted : cpus.Pairwise (· < ·)) :
    {c | c ∈ cpus}.Nontrivial ↔ 2 ≤ cpus.length := by
  constructor
  · rintro ⟨c, hc, d, hd, hne⟩
    obtain ⟨i, hi, rfl⟩ := List.mem_iff_getElem.mp hc
    obtain ⟨j, hj, rfl⟩ := List.mem_iff_getElem.mp hd
    have hij : i ≠ j := by
      rintro rfl
      exact hne rfl
    omega
  · intro htwo
    have hlt := List.pairwise_iff_getElem.mp hsorted 0 1 (by omega) (by omega) Nat.one_pos
    exact ⟨_, List.getElem_mem _, _, List.getElem_mem _, hlt.ne⟩

/-- The members of a detected set are the CPUs of the LLC. -/
theorem setOf_mem_members (topo : Topology) (l : Llc) :
    {c | c ∈ ((detect topo).llcCpuMask l).members} = topo.cpuSet l := by
  ext c
  show c ∈ ((detect topo).llcCpuMask l).members ↔ c ∈ topo.llc l ∧ c < 64
  rw [BitVec.mem_members]
  constructor
  · intro hbit
    have hlt : c < 64 := BitVec.lt_of_getLsbD hbit
    exact ⟨mem_detect_llcCpuMask.mp (show ((detect topo).llcCpuMask l).getLsbD
      (⟨c, hlt⟩ : Cpu) = true from hbit), hlt⟩
  · rintro ⟨hmem, hlt⟩
    exact mem_detect_llcCpuMask.mpr (show ((⟨c, hlt⟩ : Cpu) : ℕ) ∈ topo.llc l from hmem)

theorem members_ne_nil (h : topo.Populated l) : ((detect topo).llcCpuMask l).members ≠ [] := by
  obtain ⟨cpu, hcpu⟩ := h
  exact List.ne_nil_of_mem (BitVec.mem_members.mpr (mem_detect_llcCpuMask.mpr hcpu))

/-- What is taken of an LLC, in terms of its CPUs. -/
theorem samplesBelow_iff (h : topo.Populated l) :
    SamplesBelow n ((detect topo).llcCpuMask l).members ((detect topo).llcCpuMask l').members ↔
      (∀ c, IsLeast (topo.cpuSet l) c → c < n) ∧
        ((topo.cpuSet l').Nontrivial → ∀ c, IsGreatest (topo.cpuSet l) c → c < n) := by
  have hnil := members_ne_nil h
  have hleast := isLeast_getD (BitVec.pairwise_members _) hnil
  have hgreatest := isGreatest_getD (BitVec.pairwise_members _) hnil
  have htwo := nontrivial_iff_two_le (BitVec.pairwise_members ((detect topo).llcCpuMask l'))
  rw [setOf_mem_members] at hleast hgreatest htwo
  rw [SamplesBelow, htwo]
  constructor
  · rintro ⟨hfirst, hlast⟩
    refine ⟨fun c hc => ?_, fun h c hc => ?_⟩
    · rw [hc.unique hleast]
      exact hfirst
    · rw [hc.unique hgreatest]
      exact hlast h
  · rintro ⟨hfirst, hlast⟩
    exact ⟨hfirst _ hleast, fun h => hlast h _ hgreatest⟩

/-! ### All pairs -/

/-- A property of all pairs is one of any two LLCs. -/
theorem forall_mem_pairsOfLlcs {P : ℕ × ℕ → Prop} (llcs : List (List ℕ)) :
    (∀ pair ∈ pairsOfLlcs llcs, P pair) ↔
      llcs.Pairwise fun cpusA cpusB => ∀ pair ∈ samplePairs cpusA cpusB, P pair := by
  induction llcs with
  | nil => simp [pairsOfLlcs]
  | cons cpusA later ih =>
    rw [pairsOfLlcs, List.forall_mem_append, ih, List.pairwise_cons]
    simp only [List.mem_flatMap, forall_exists_index, and_imp]
    exact and_congr_left fun _ => ⟨fun h cpusB hB pair hp => h pair cpusB hB hp,
      fun h pair cpusB hB hp => h cpusB hB pair hp⟩

/-- With fewer than two LLCs there are no pairs anyway. -/
theorem selectEtdPairs_eq (info : TopologyInfo) :
    selectEtdPairs info = pairsOfLlcs (llcMembers info) := by
  rw [selectEtdPairs]
  split
  · next hle =>
    match llcMembers info, hle with
    | [], _ => rfl
    | [cpus], _ => rfl
  · rfl

theorem pairwise_finRange {m : ℕ} {R : Fin m → Fin m → Prop} :
    (List.finRange m).Pairwise R ↔ ∀ i j, i < j → R i j := by
  constructor
  · intro h i j hij
    have hget := List.pairwise_iff_getElem.mp h i j (by simp) (by simp) hij
    simpa using hget
  · exact fun h => (List.pairwise_lt_finRange m).imp fun {i j} hij => h i j hij

theorem pairwise_llcMembers {R : List ℕ → List ℕ → Prop} (info : TopologyInfo) :
    (llcMembers info).Pairwise R ↔ ∀ l l' : Llc, l < l' → info.llcCpuMask l ≠ 0 →
      info.llcCpuMask l' ≠ 0 → R (info.llcCpuMask l).members (info.llcCpuMask l').members := by
  rw [llcMembers, List.pairwise_map, List.pairwise_filter, List.pairwise_map, pairwise_finRange]
  simp

theorem pairs_lt_iff (topo : Topology) :
    (∀ pair ∈ selectEtdPairs (detect topo),
        pair.1 < topo.allCpus.length ∧ pair.2 < topo.allCpus.length) ↔ topo.SamplesInRange := by
  rw [selectEtdPairs_eq, forall_mem_pairsOfLlcs, pairwise_llcMembers]
  simp only [detect_llcCpuMask_ne_zero_iff]
  have htwo : ∀ {l l'}, topo.Populated l → topo.Populated l' →
      ((∀ pair ∈ samplePairs ((detect topo).llcCpuMask l).members
          ((detect topo).llcCpuMask l').members,
        pair.1 < topo.allCpus.length ∧ pair.2 < topo.allCpus.length) ↔ _) := fun {l l'} hl hl' =>
    samplePairs_lt_iff (members_ne_nil hl) (members_ne_nil hl') (BitVec.pairwise_members _)
      (BitVec.pairwise_members _)
  constructor
  · intro h l l' hne hl'
    by_cases hl : topo.Populated l
    · refine (samplesBelow_iff hl).mp ?_
      rcases lt_or_gt_of_ne hne with hlt | hgt
      · exact ((htwo hl hl').mp (h l l' hlt hl hl')).1
      · exact ((htwo hl' hl).mp (h l' l hgt hl' hl)).2
    · -- an LLC without CPUs has no first and no last one
      have hempty : ∀ c, c ∉ topo.cpuSet l := fun c hc => hl ⟨⟨c, hc.2⟩, hc.1⟩
      exact ⟨fun c hc => absurd hc.1 (hempty c), fun _ c hc => absurd hc.1 (hempty c)⟩
  · intro h l l' hlt hl hl'
    exact (htwo hl hl').mpr ⟨(samplesBelow_iff hl).mpr (h l l' hlt.ne hl'),
      (samplesBelow_iff hl').mpr (h l' l hlt.ne' hl)⟩

theorem etdInBounds_of_pairs (h : topo.SamplesInRange) : EtdInBounds (detect topo) := by
  rw [← pairs_lt_iff, ← detect_nrCpus] at h
  exact ⟨h, fun fallback measure => (calibratePairs_isSome_iff _ _ fallback measure).mpr h⟩

/-- **When the calibration stays within its matrix.** For every topology, all pairs have a row and a
column and all accesses are in range, exactly when the first CPU of each LLC, and the last one where
it is measured, has an id below the number of CPUs. -/
theorem etd_in_bounds_iff (topo : Topology) :
    EtdInBounds (detect topo) ↔ topo.SamplesInRange := by
  refine ⟨fun h => ?_, etdInBounds_of_pairs⟩
  rw [← pairs_lt_iff, ← detect_nrCpus]
  exact h.pairs

/-- With every second id missing, CPU 4 is measured although there are four CPUs. -/
theorem evenCpus_out_of_bounds : (0, 4) ∈ selectEtdPairs (detect evenCpus) ∧
    (detect evenCpus).nrCpus = 4 ∧ ¬ EtdInBounds (detect evenCpus) := by
  have hmem : (0, 4) ∈ selectEtdPairs (detect evenCpus) := by decide
  refine ⟨hmem, rfl, fun h => ?_⟩
  exact absurd (h.pairs _ hmem).2 (by decide)

/-! ### Gaps -/

/-- Without gaps everything is in range. -/
theorem Topology.Contiguous.etdInBounds (h : topo.Contiguous) : EtdInBounds (detect topo) := by
  have hlt : ∀ {l c}, c ∈ topo.cpuSet l → c < topo.allCpus.length := fun hc =>
    h _ (Topology.mem_allCpus_iff.mpr ⟨_, hc.1⟩)
  exact etdInBounds_of_pairs fun l l' _ _ =>
    ⟨fun c hc => hlt hc.1, fun _ c hc => hlt hc.1⟩

/-- **Any gap is fatal** where there are several LLCs, all of them with several CPUs: then all last
CPUs are measured, and the largest id is among them. -/
theorem etdInBounds_iff_contiguous (hllcs : topo.allLlcs.length ≤ 8)
    (hcpus : ∀ c ∈ topo.allCpus, c < 64) (hmany : 2 ≤ topo.allLlcs.length)
    (htwo : ∀ l : Llc, l.val < topo.allLlcs.length → (topo.cpuSet l).Nontrivial) :
    EtdInBounds (detect topo) ↔ topo.Contiguous := by
  refine ⟨fun h c hc => ?_, Topology.Contiguous.etdInBounds⟩
  have hrange := (pairs_lt_iff topo).mp (by rw [← detect_nrCpus]; exact h.pairs)
  obtain ⟨i, hi⟩ := Topology.mem_allCpus_iff.mp hc
  have hlen := Topology.lt_length_of_mem_llc hi
  obtain ⟨j, hj, hne⟩ : ∃ j < topo.allLlcs.length, i ≠ j := by
    rcases Nat.eq_zero_or_pos i with rfl | hpos
    · exact ⟨1, hmany, Nat.zero_ne_one⟩
    · exact ⟨0, Nat.lt_of_lt_of_le Nat.two_pos hmany, hpos.ne'⟩
  let l : Llc := ⟨i, hlen.trans_le hllcs⟩
  let l' : Llc := ⟨j, hj.trans_le hllcs⟩
  have hmem : c ∈ topo.cpuSet l := ⟨hi, hcpus c hc⟩
  have hl' : topo.Populated l' := by
    obtain ⟨e, he⟩ := (htwo l' hj).nonempty
    exact ⟨⟨e, he.2⟩, he.1⟩
  have hgreatest := isGreatest_getD (BitVec.pairwise_members ((detect topo).llcCpuMask l))
    (members_ne_nil ⟨⟨c, hcpus c hc⟩, hi⟩)
  rw [setOf_mem_members] at hgreatest
  have hne' : l ≠ l' := fun heq => hne (congrArg Fin.val heq)
  exact (hgreatest.2 hmem).trans_lt ((hrange l l' hne' hl').2 (htwo l' hj) _ hgreatest)

end Imperator
