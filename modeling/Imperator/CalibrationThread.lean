import Imperator.EtdCost

/-!
# What the calibration thread finds

`Scheduler::new` selects the pairs of CPUs, and if there are any, it makes an eventfd with a second
descriptor for the thread that measures them. The thread measures these pairs, or all there are if
it is asked to, and what it gets is the matrix the costs are made of.

The costs are made of any matrix with a positive entry. If the thread comes to an end there is one,
because a pair that was not measured is given 500 ns. It does not come to an end exactly if a CPU
has no row in the matrix: the access panics, and the matrix stays zero for as long as the scheduler
runs.

## Main definitions

* `EtdSetup` — what `Scheduler::new` is given, and what it makes of it
* `EtdSetup.result`, `EtdSetup.costs` — the matrix the thread ends with, and its costs

## Main results

* `EtdSetup.result_isSome_iff` — when the thread comes to an end
* `EtdSetup.tryWriteEtdCosts_result` — and then its matrix has costs
-/

namespace Imperator

/-- What `Scheduler::new` finds and is asked for: the machine, `--full-etd-sweep` and `--verbose`,
whether `eventfd` and `dup` succeed, and what the calls of `measure_pair` return. -/
structure EtdSetup where
  topo : Topology
  fullEtdSweep : Bool
  verbose : Bool
  eventfd : Bool
  dup : Bool
  outcome : ℕ → Option Samples

/-- The pairs of `calibrate_full_matrix`. -/
def allPairs (nrCpus : ℕ) : List (ℕ × ℕ) :=
  (List.range nrCpus).flatMap fun a =>
    (List.range' (a + 1) (nrCpus - (a + 1))).map fun b => (a, b)

/-- `max_stddev` of the default configuration -/
def maxStddev : ℚ := 15

namespace EtdSetup

variable (setup : EtdSetup)

def info : TopologyInfo := detect setup.topo

def etdPairs : List (ℕ × ℕ) := selectEtdPairs setup.info

/-- `etd_efd >= 0` -/
def hasEfd : Bool := !setup.etdPairs.isEmpty && setup.eventfd

/-- `etd_efd_write >= 0` -/
def hasEfdWrite : Bool := setup.hasEfd && setup.dup

/-- The pairs the thread measures. -/
def measuredPairs : List (ℕ × ℕ) :=
  if setup.fullEtdSweep then allPairs setup.info.nrCpus else setup.etdPairs

/-- The matrix before. -/
def zeroMatrix : List (List ℚ) :=
  List.replicate setup.info.nrCpus (List.replicate setup.info.nrCpus 0)

/-- `result`, and nothing if the thread panics. -/
def result : Option (List (List ℚ)) :=
  (runCalibratePairs setup.info.nrCpus setup.measuredPairs maxStddev setup.outcome).map
    CalibrationState.matrix

/-- The costs of the result. -/
def costs (a b : Llc) : U8 :=
  match setup.result with
  | some matrix =>
    if HasEtdCost setup.info a b then etdCost (minLatency setup.info matrix a b) else 0
  | none => 0

end EtdSetup

/-! ### When the thread comes to an end -/

section InRange

variable {n : ℕ} {pairs : List (ℕ × ℕ)} {outcome : ℕ → Option Samples} {d : ℚ}

/-- One pair that is in range. -/
theorem calibrateStep_of_lt {st : CalibrationState} {pair : ℕ × ℕ} (total : ℕ)
    (h : IsSquare n st.matrix) (hpair : pair.1 < n ∧ pair.2 < n) :
    ∃ st', calibrateStep d outcome total st pair = some st' ∧ IsSquare n st'.matrix := by
  obtain ⟨matrix', hmatrix, hsquare⟩ := calibratePair_of_lt h hpair etdFallbackNs fun _ left =>
    (outcome (st.calls + (3 - left))).map (Samples.toMeasurement d)
  have hstep : (calibrateStep d outcome total st pair).map CalibrationState.matrix = some matrix' :=
    (calibrateStep_matrix st pair).trans hmatrix
  obtain ⟨st', hst', rfl⟩ := Option.map_eq_some_iff.mp hstep
  exact ⟨st', hst', hsquare⟩

/-- And one that is not. -/
theorem calibrateStep_of_not_lt {st : CalibrationState} {pair : ℕ × ℕ} (total : ℕ)
    (h : IsSquare n st.matrix) (hout : ¬ (pair.1 < n ∧ pair.2 < n)) :
    calibrateStep d outcome total st pair = none := by
  have hstep : (calibrateStep d outcome total st pair).map CalibrationState.matrix = none :=
    (calibrateStep_matrix st pair).trans (calibratePair_of_not_lt h hout etdFallbackNs _)
  exact Option.map_eq_none_iff.mp hstep

/-- **The loop ends exactly if every CPU of a pair has a row**, whatever is measured. -/
theorem runCalibratePairs_isSome_iff :
    (runCalibratePairs n pairs d outcome).isSome ↔ ∀ pair ∈ pairs, pair.1 < n ∧ pair.2 < n := by
  have hloop : ∀ (total : ℕ) (st : CalibrationState), IsSquare n st.matrix →
      ((pairs.foldlM (calibrateStep d outcome total) st).isSome ↔
        ∀ pair ∈ pairs, pair.1 < n ∧ pair.2 < n) := by
    intro total
    induction pairs with
    | nil => simp
    | cons pair pairs ih =>
      intro st hsquare
      rw [List.foldlM_cons, List.forall_mem_cons]
      by_cases hpair : pair.1 < n ∧ pair.2 < n
      · obtain ⟨st', hstep, hsquare'⟩ := calibrateStep_of_lt total hsquare hpair
        rw [hstep, and_iff_right hpair]
        exact ih st' hsquare'
      · rw [calibrateStep_of_not_lt total hsquare hpair, iff_false_right fun h => hpair h.1]
        exact Bool.false_ne_true
  rw [runCalibratePairs, Option.isSome_map]
  exact hloop _ _ (isSquare_replicate n 0)

end InRange

namespace EtdSetup

variable {setup : EtdSetup} {matrix : List (List ℚ)}

theorem result_isSome_iff : setup.result.isSome ↔
    ∀ pair ∈ setup.measuredPairs, pair.1 < setup.info.nrCpus ∧ pair.2 < setup.info.nrCpus := by
  rw [result, Option.isSome_map, runCalibratePairs_isSome_iff]

/-- What is known of the matrix. -/
theorem calibrated_of_result (h : setup.result = some matrix) :
    Calibrated (0 ≤ ·) setup.info.nrCpus setup.measuredPairs matrix := by
  have hrange := result_isSome_iff.mp (Option.isSome_of_eq_some h)
  have hmedian : ∀ k samples, setup.outcome k = some samples → 0 ≤ samples.median :=
    fun _ samples _ => samples.median_nonneg
  obtain ⟨st, log, hrun, hcalibrated, -, -⟩ := runCalibratePairs_calibrated (P := (0 ≤ ·))
    maxStddev le_rfl (by norm_num [etdFallbackNs]) hmedian hrange
  rw [result, hrun] at h
  cases h
  exact hcalibrated

/-- Two LLCs with CPUs have two CPUs. -/
theorem one_lt_nrCpus (h : setup.etdPairs ≠ []) : 1 < setup.info.nrCpus := by
  obtain ⟨pair, hpair⟩ := List.exists_mem_of_ne_nil _ h
  obtain ⟨l, l', hlt, hfirst, hsecond⟩ := exists_llcs_of_mem hpair
  have hllc : ∀ {c : ℕ} {l : Llc}, c ∈ (setup.info.llcCpuMask l).members →
      c ∈ setup.topo.llc l := by
    intro c l hmem
    have hbit := BitVec.mem_members.mp hmem
    have hmem' : ((⟨c, BitVec.lt_of_getLsbD hbit⟩ : Cpu) : ℕ) ∈ setup.topo.llc l :=
      mem_detect_llcCpuMask.mp hbit
    exact hmem'
  have hne : pair.1 ≠ pair.2 := fun heq =>
    hlt.ne (Fin.ext (Topology.llc_unique (heq ▸ hllc hfirst) (hllc hsecond)))
  have hsub : [pair.1, pair.2] ⊆ setup.topo.allCpus := by
    refine List.cons_subset.mpr ⟨Topology.mem_allCpus_iff.mpr ⟨_, hllc hfirst⟩,
      List.cons_subset.mpr ⟨Topology.mem_allCpus_iff.mpr ⟨_, hllc hsecond⟩, List.nil_subset _⟩⟩
  have hnodup : [pair.1, pair.2].Nodup := List.nodup_cons.mpr ⟨by simpa using hne, by simp⟩
  rw [info, detect_nrCpus]
  exact (hnodup.subperm hsub).length_le

theorem measuredPairs_ne_nil (h : setup.etdPairs ≠ []) : setup.measuredPairs ≠ [] := by
  rw [measuredPairs]
  split
  · have hmany := one_lt_nrCpus h
    have hmem : (0, 1) ∈ allPairs setup.info.nrCpus := by
      refine List.mem_flatMap.mpr ⟨0, List.mem_range.mpr (by omega), List.mem_map.mpr ⟨1, ?_, rfl⟩⟩
      exact List.mem_range'_1.mpr (by omega)
    exact List.ne_nil_of_mem hmem
  · exact h

/-- **The matrix of the thread has costs**: a call of `try_write_etd_costs` that finds it writes
them. -/
theorem tryWriteEtdCosts_result (hpairs : setup.etdPairs ≠ []) (h : setup.result = some matrix) :
    tryWriteEtdCosts setup.info (some matrix) (some fun _ _ => 0)
      = some (true, some setup.costs) := by
  have hcalibrated := calibrated_of_result h
  obtain ⟨pair, hpair⟩ := List.exists_mem_of_ne_nil _ (measuredPairs_ne_nil hpairs)
  obtain ⟨ha, hb⟩ := result_isSome_iff.mp (Option.isSome_of_eq_some h) pair hpair
  have hpos : 0 < entryAt matrix pair.1 pair.2 :=
    lt_of_le_of_ne (hcalibrated.values ha hb) ((hcalibrated.listed ha hb).mpr (Or.inl hpair)).symm
  obtain ⟨row, hrow, hv⟩ := mem_of_getEntry (getEntry_eq_some hcalibrated.square ha hb)
  rw [tryWriteEtdCosts_eq hcalibrated.square ⟨row, hrow, _, hv, hpos⟩]
  refine congrArg some (congrArg (Prod.mk true) (congrArg some ?_))
  funext a b
  rw [costs, h]

/-- And they are the costs of what was measured. -/
theorem etdCosts_costs (h : setup.result = some matrix) :
    EtdCosts setup.info matrix setup.costs := by
  have hcalibrated := calibrated_of_result h
  refine etdCosts_writeEtdCosts hcalibrated.square hcalibrated.symm fun hcost => ?_
  rw [costs, h]
  exact if_pos hcost

theorem costs_of_not_hasEtdCost {a b : Llc} (hcost : ¬ HasEtdCost setup.info a b) :
    setup.costs a b = 0 := by
  rw [costs]
  split
  · exact if_neg hcost
  · rfl

/-- Before it is done there is nothing to write. -/
theorem tryWriteEtdCosts_zeroMatrix (setup : EtdSetup) (bss : Option (Llc → Llc → U8)) :
    tryWriteEtdCosts setup.info (some setup.zeroMatrix) bss = some (false, bss) := by
  have hnone : setup.zeroMatrix.flatten.any (0 < ·) = false := by
    simp [zeroMatrix]
  simp only [tryWriteEtdCosts, hnone, Bool.false_eq_true, if_false]

end EtdSetup

end Imperator
