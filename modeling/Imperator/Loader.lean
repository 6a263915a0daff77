import Mathlib.Data.Finset.Max
import Mathlib.Order.Interval.Finset.Fin
import Imperator.Profile
import Imperator.Topology

/-!
# The loader

`Scheduler::new` writes the read-only globals from the command line and the detected topology.
Two facts about the LLCs are handed over in a second form, and each time the second form can
differ from the first.

The number of LLCs is counted as the number of *non-empty* sets, while the numbering of `detect`
also counts LLCs without a CPU below 64. A CPU behind such an LLC then names a queue that
`imperator_init` does not create (`dsqs_exist_iff`).

The sets themselves are not handed over. `imperator_init` computes them again, from the numbers of
the CPUs `0, …, nr_cpus - 1`, where `nr_cpus` is a count. That is the same as long as the ids of
the CPUs have no gaps (`llc_masks_agree_iff`).

## Main definitions

* `Args`, `newRodata` — the read-only globals
* `llcDsqs` — the queues that are created

## Main results

* `dsqs_exist_iff` — when every queue that is named exists
* `llc_masks_agree_iff` — when the two sets of every LLC agree
-/

namespace Imperator

/-! ### The command line -/

/-- `Profile::values`: quantum, new-flow bonus and T3 starvation in microseconds. -/
def Profile.values : Profile → U64 × U64 × U64
  | .esports => (1000, 4000, 50000)
  | .default => (2000, 8000, 100000)
  | .sim => (4000, 8000, 200000)

/-- `Args`, as far as `Scheduler::new` reads them for the globals. -/
structure Args where
  profile : Profile
  quantum : Option U64
  newFlowBonus : Option U64
  starvation : Option U64
  verbose : Bool
  stats : Bool

/-- `effective_values` -/
def Args.effectiveValues (args : Args) : U64 × U64 × U64 :=
  let (q, nfb, starv) := args.profile.values
  (args.quantum.getD q, args.newFlowBonus.getD nfb, args.starvation.getD starv)

/-! ### The globals -/

/-- The number of LLCs the BPF side is told: the non-empty sets, but at least one. -/
def llcCount (topo : TopologyInfo) : U32 :=
  BitVec.ofNat 32 (max ((List.finRange 8).countP fun l => topo.llcCpuMask l ≠ 0) 1)

/-- What `Scheduler::new` writes to `Rodata`. -/
def newRodata (args : Args) (topo : TopologyInfo) : Rodata where
  quantumNs := args.effectiveValues.1 * 1000
  newFlowBonusNs := args.effectiveValues.2.1 * 1000
  enableStats := args.verbose || args.stats
  hasHybrid := topo.hasHybridCores
  simMode := args.profile = .sim
  nrLlcs := llcCount topo
  nrCpus := BitVec.ofNat 32 (min topo.nrCpus 64)
  cpuLlcId := fun cpu => (topo.cpuLlcId cpu).setWidth 32
  tierConfigs := args.profile.tierConfigs args.effectiveValues.1 args.starvation

/-- The queues `imperator_init` creates, if the kernel refuses none. -/
def llcDsqs (ro : Rodata) : List ℕ := (List.range ro.nrLlcs.toNat).map (llcDsqBase + ·)

/-- The callback fails with the first refusal on this list. -/
theorem createLlcDsqs_eq (ro : Rodata) (create : ℕ → ℤ) :
    createLlcDsqs ro create = (((llcDsqs ro).map create).find? (· < 0)).getD 0 := by
  rw [createLlcDsqs, llcDsqs, List.map_map]
  rfl

theorem mem_llcDsqs {ro : Rodata} {i : ℕ} : llcDsqBase + i ∈ llcDsqs ro ↔ i < ro.nrLlcs.toNat := by
  rw [llcDsqs, List.mem_map]
  constructor
  · rintro ⟨j, hj, heq⟩
    obtain rfl : j = i := Nat.add_left_cancel heq
    exact List.mem_range.mp hj
  · exact fun h => ⟨i, List.mem_range.mpr h, rfl⟩

/-- Every queue that `imperator_enqueue` and `imperator_tick` name, with the number of the LLC
masked, and `imperator_dispatch`, without, is created. -/
def DsqsExist (ro : Rodata) : Prop :=
  ∀ cpu, ro.cpuLlcId cpu < ro.nrLlcs ∧ llcDsqBase + (ro.llcOf cpu).val ∈ llcDsqs ro ∧
    llcDsqBase + (ro.cpuLlcId cpu).toNat ∈ llcDsqs ro

variable {args : Args} {topo : Topology} {info : TopologyInfo} {cpu : Cpu} {l : Llc}

/-! ### Counting LLCs -/

namespace Topology

/-- An LLC with a CPU the arrays have room for. -/
def Populated (topo : Topology) (l : Llc) : Prop := ∃ cpu : Cpu, cpu.val ∈ topo.llc l

/-- Among the LLCs that are numbered, those that are not populated come last. -/
def PopulatedFirst (topo : Topology) : Prop :=
  ∀ j l : Llc, j < l → topo.Populated l → topo.Populated j

/-- The ids of the CPUs are `0, …, n - 1`. -/
def Contiguous (topo : Topology) : Prop := ∀ c ∈ topo.allCpus, c < topo.allCpus.length

instance : DecidablePred Contiguous := fun topo =>
  inferInstanceAs (Decidable (∀ c ∈ topo.allCpus, c < topo.allCpus.length))

end Topology

theorem detect_llcCpuMask_ne_zero_iff :
    (detect topo).llcCpuMask l ≠ 0 ↔ topo.Populated l := by
  constructor
  · intro hne
    obtain ⟨c, hc, hbit⟩ := BitVec.exists_getLsbD_of_ne_zero hne
    exact ⟨⟨c, hc⟩, mem_detect_llcCpuMask.mp hbit⟩
  · rintro ⟨c, hc⟩ hzero
    have hbit := mem_detect_llcCpuMask.mpr hc
    rw [hzero] at hbit
    simp at hbit

/-- The number of non-empty sets, as the size of a set of LLCs. -/
theorem llcCount_toNat : (llcCount info).toNat
    = max (Finset.univ.filter fun l => info.llcCpuMask l ≠ 0).card 1 := by
  have hcard : (List.finRange 8).countP (fun l => info.llcCpuMask l ≠ 0)
      = (Finset.univ.filter fun l => info.llcCpuMask l ≠ 0).card := by
    rw [List.countP_eq_length_filter, ← List.toFinset_card_of_nodup
      ((List.nodup_finRange 8).filter _)]
    congr 1
    ext l
    simp
  have hle := Finset.card_le_univ (Finset.univ.filter fun l => info.llcCpuMask l ≠ 0)
  rw [Fintype.card_fin] at hle
  rw [llcCount, hcard, BitVec.toNat_ofNat]
  omega

/-- The BPF side never learns of more LLCs than it has room for. -/
theorem nrLlcs_newRodata_le (args : Args) (info : TopologyInfo) :
    (newRodata args info).nrLlcs.toNat ≤ 8 := by
  have hle := Finset.card_le_univ (Finset.univ.filter fun l => info.llcCpuMask l ≠ 0)
  rw [Fintype.card_fin] at hle
  show (llcCount info).toNat ≤ 8
  rw [llcCount_toNat]
  omega

/-! ### The numbers of the CPUs -/

theorem newRodata_cpuLlcId_of_mem (h : cpu.val ∈ topo.llc l) :
    ((newRodata args (detect topo)).cpuLlcId cpu).toNat = l := by
  show (((detect topo).cpuLlcId cpu).setWidth 32).toNat = l
  have hl := l.isLt
  rw [detect_cpuLlcId_of_mem h, BitVec.toNat_setWidth, BitVec.toNat_ofNat]
  omega

theorem newRodata_cpuLlcId_of_forall_notMem (h : ∀ l : Llc, cpu.val ∉ topo.llc l) :
    ((newRodata args (detect topo)).cpuLlcId cpu).toNat = 0 := by
  show (((detect topo).cpuLlcId cpu).setWidth 32).toNat = 0
  rw [detect_cpuLlcId_of_forall_notMem h]
  rfl

/-- Masking the number of an LLC changes nothing. -/
theorem newRodata_llcOf :
    ((newRodata args (detect topo)).llcOf cpu).val
      = ((newRodata args (detect topo)).cpuLlcId cpu).toNat := by
  have hlt : ((newRodata args (detect topo)).cpuLlcId cpu).toNat < 8 := by
    by_cases h : ∃ l : Llc, cpu.val ∈ topo.llc l
    · obtain ⟨l, hl⟩ := h
      rw [newRodata_cpuLlcId_of_mem hl]
      exact l.isLt
    · rw [newRodata_cpuLlcId_of_forall_notMem (not_exists.mp h)]
      decide
  rw [Rodata.llcOf, llcIdx, Fin.val_ofNat, show 7#32 = BitVec.ofNat 32 (2 ^ 3 - 1) from rfl,
    BitVec.toNat_and_lowMask _ (by decide)]
  omega

/-! ### Queues -/

/-- Where the numbers are in range, so are the queues. -/
theorem dsqsExist_iff_lt : DsqsExist (newRodata args (detect topo)) ↔
    ∀ cpu, ((newRodata args (detect topo)).cpuLlcId cpu).toNat
      < (llcCount (detect topo)).toNat := by
  constructor
  · exact fun h cpu => BitVec.lt_def.mp (h cpu).1
  · intro h cpu
    refine ⟨BitVec.lt_def.mpr (h cpu), mem_llcDsqs.mpr ?_, mem_llcDsqs.mpr (h cpu)⟩
    rw [newRodata_llcOf]
    exact h cpu

/-- If the populated LLCs come first, an LLC that is populated is below their number. -/
theorem lt_llcCount_of_populated (hfirst : topo.PopulatedFirst) (hl : topo.Populated l) :
    l.val < (llcCount (detect topo)).toNat := by
  have hsub : Finset.Iic l ⊆ Finset.univ.filter fun l => (detect topo).llcCpuMask l ≠ 0 := by
    intro j hj
    rw [Finset.mem_filter]
    refine ⟨Finset.mem_univ j, detect_llcCpuMask_ne_zero_iff.mpr ?_⟩
    rcases eq_or_lt_of_le (Finset.mem_Iic.mp hj) with rfl | hlt
    · exact hl
    · exact hfirst j l hlt hl
  have hcard := Finset.card_le_card hsub
  rw [Fin.card_Iic] at hcard
  rw [llcCount_toNat]
  omega

/-- If one of them does not, the number of the last populated LLC is out of range. -/
theorem exists_llcCount_le {j : Llc} (hj : ¬ topo.Populated j) (hjl : j < l)
    (hl : topo.Populated l) : ∃ k, topo.Populated k ∧ (llcCount (detect topo)).toNat ≤ k.val := by
  let populated := Finset.univ.filter fun l => (detect topo).llcCpuMask l ≠ 0
  have hmem : ∀ {k}, k ∈ populated ↔ topo.Populated k := fun {k} => by
    rw [Finset.mem_filter, detect_llcCpuMask_ne_zero_iff]
    exact and_iff_right (Finset.mem_univ k)
  have hne : populated.Nonempty := ⟨l, hmem.mpr hl⟩
  have hlk : l ≤ populated.max' hne := populated.le_max' l (hmem.mpr hl)
  refine ⟨populated.max' hne, hmem.mp (populated.max'_mem hne), ?_⟩
  have hsub : populated ⊆ (Finset.Iic (populated.max' hne)).erase j := by
    intro i hi
    rw [Finset.mem_erase, Finset.mem_Iic]
    refine ⟨?_, populated.le_max' i hi⟩
    rintro rfl
    exact hj (hmem.mp hi)
  have hcard := Finset.card_le_card hsub
  rw [Finset.card_erase_of_mem (Finset.mem_Iic.mpr (hjl.le.trans hlk)), Fin.card_Iic,
    Nat.add_sub_cancel] at hcard
  have hpos : 0 < l.val := Nat.lt_of_le_of_lt (Nat.zero_le _) hjl
  have hmax : 1 ≤ (populated.max' hne).val := hpos.trans_le (Fin.le_def.mp hlk)
  rw [llcCount_toNat]
  exact max_le hcard hmax

/-- **When every queue exists.** Whatever the topology, each queue that a callback names is created
exactly when, among the first eight LLCs that are enumerated, no LLC without a CPU below 64 comes
before one that has such a CPU. -/
theorem dsqs_exist_iff (args : Args) (topo : Topology) :
    DsqsExist (newRodata args (detect topo)) ↔ topo.PopulatedFirst := by
  rw [dsqsExist_iff_lt]
  constructor
  · intro h j l hjl hl
    by_contra hj
    obtain ⟨k, ⟨cpu, hcpu⟩, hk⟩ := exists_llcCount_le hj hjl hl
    have hlt := h cpu
    rw [newRodata_cpuLlcId_of_mem hcpu] at hlt
    omega
  · intro hfirst cpu
    by_cases h : ∃ l : Llc, cpu.val ∈ topo.llc l
    · obtain ⟨l, hl⟩ := h
      rw [newRodata_cpuLlcId_of_mem hl]
      exact lt_llcCount_of_populated hfirst ⟨cpu, hl⟩
    · rw [newRodata_cpuLlcId_of_forall_notMem (not_exists.mp h), llcCount_toNat]
      omega

/-- The default command line. -/
def defaultArgs : Args := ⟨.default, none, none, none, false, false⟩

/-- A topology of two LLCs with one CPU each, the first of which is out of range. -/
def highFirst : Topology where
  allCpus := [0, 64]
  allLlcs := [[64], [0]]
  allCores := [⟨0, .big false, [0]⟩, ⟨1, .big false, [64]⟩]
  siblingCpus := []
  smtEnabled := false
  allCpus_nodup := by decide
  coreIds_nodup := by decide
  llcs_perm := by decide
  cores_perm := by decide

/-- CPU 0 names the second queue, and only one is created. -/
theorem highFirst_names_missing : ¬ DsqsExist (newRodata defaultArgs (detect highFirst)) := by
  intro h
  exact absurd (h 0).1 (by decide)

/-! ### Sets -/

/-- Both sides agree on the CPUs of every LLC, and an LLC with a CPU has a CPU in its set. -/
def LlcMasksAgree (args : Args) (topo : Topology) : Prop :=
  ∀ l, initLlcCpuMask (newRodata args (detect topo)) l = (detect topo).llcCpuMask l ∧
    (topo.llc l ≠ [] → initLlcCpuMask (newRodata args (detect topo)) l ≠ 0)

/-- The set `imperator_init` computes for an LLC. -/
theorem mem_initLlcCpuMask_newRodata :
    (initLlcCpuMask (newRodata args (detect topo)) l).getLsbD cpu = true ↔
      (newRodata args (detect topo)).llcOf cpu = l ∧ cpu.val < min topo.allCpus.length 64 := by
  have hcpus : (newRodata args (detect topo)).nrCpus.toNat = min topo.allCpus.length 64 := by
    show (BitVec.ofNat 32 (min (detect topo).nrCpus 64)).toNat = _
    rw [detect_nrCpus, BitVec.toNat_ofNat]
    omega
  rw [mem_initLlcCpuMask, hcpus]

/-- Without gaps, the ids are exactly the numbers below their count. -/
theorem Topology.Contiguous.mem_iff (h : topo.Contiguous) {c : ℕ} :
    c ∈ topo.allCpus ↔ c < topo.allCpus.length := by
  have hsub : topo.allCpus ⊆ List.range topo.allCpus.length := fun c hc =>
    List.mem_range.mpr (h c hc)
  have hperm : topo.allCpus.Perm (List.range topo.allCpus.length) :=
    (List.subperm_of_subset topo.allCpus_nodup hsub).perm_of_length_le (by rw [List.length_range])
  rw [hperm.mem_iff, List.mem_range]

/-- **When the kernel side knows the LLCs.** For up to eight LLCs and CPU ids below 64, the sets
`imperator_init` computes are the detected ones, and those of LLCs with a CPU are not empty,
exactly when the ids have no gaps. -/
theorem llc_masks_agree_iff (args : Args) (topo : Topology) (hllcs : topo.allLlcs.length ≤ 8)
    (hcpus : ∀ c ∈ topo.allCpus, c < 64) : LlcMasksAgree args topo ↔ topo.Contiguous := by
  have hnumbered : ∀ {i c}, c ∈ topo.llc i → i < 8 := fun hmem =>
    (Topology.lt_length_of_mem_llc hmem).trans_le hllcs
  constructor
  · intro h c hc
    obtain ⟨i, hi⟩ := Topology.mem_allCpus_iff.mp hc
    have hbit : ((detect topo).llcCpuMask ⟨i, hnumbered hi⟩).getLsbD
        (⟨c, hcpus c hc⟩ : Cpu) = true := mem_detect_llcCpuMask.mpr hi
    rw [← (h _).1, mem_initLlcCpuMask_newRodata] at hbit
    exact hbit.2.trans_le (min_le_left _ _)
  · intro hcont l
    have hmask : initLlcCpuMask (newRodata args (detect topo)) l = (detect topo).llcCpuMask l := by
      refine BitVec.eq_of_getLsbD_eq fun c hc => ?_
      let cpu : Cpu := ⟨c, hc⟩
      have hiff : (newRodata args (detect topo)).llcOf cpu = l ∧
          c < min topo.allCpus.length 64 ↔ c ∈ topo.llc l := by
        constructor
        · rintro ⟨hllc, hlt⟩
          obtain ⟨i, hi⟩ := Topology.mem_allCpus_iff.mp
            (hcont.mem_iff.mpr (hlt.trans_le (min_le_left _ _)))
          have hval : ((newRodata args (detect topo)).llcOf cpu).val = i := by
            rw [newRodata_llcOf, newRodata_cpuLlcId_of_mem (l := ⟨i, hnumbered hi⟩) hi]
          rwa [← hllc, hval]
        · intro hmem
          refine ⟨Fin.ext ?_, ?_⟩
          · rw [newRodata_llcOf, newRodata_cpuLlcId_of_mem hmem]
          · exact lt_min (hcont.mem_iff.mp (Topology.mem_allCpus_iff.mpr ⟨l, hmem⟩)) hc
      have hkernel : (initLlcCpuMask (newRodata args (detect topo)) l).getLsbD cpu = true ↔
          c ∈ topo.llc l := mem_initLlcCpuMask_newRodata.trans hiff
      have hdetect : ((detect topo).llcCpuMask l).getLsbD cpu = true ↔ c ∈ topo.llc l :=
        mem_detect_llcCpuMask
      exact Bool.eq_iff_iff.mpr (hkernel.trans hdetect.symm)
    refine ⟨hmask, fun hne => ?_⟩
    obtain ⟨c, hc⟩ := List.exists_mem_of_ne_nil _ hne
    rw [hmask, detect_llcCpuMask_ne_zero_iff]
    exact ⟨⟨c, hcpus c (Topology.mem_allCpus_iff.mpr ⟨l, hc⟩)⟩, hc⟩

/-- Two LLCs of two cores each, with the second thread of every core offline or missing. -/
def evenCpus : Topology where
  allCpus := [0, 2, 4, 6]
  allLlcs := [[0, 2], [4, 6]]
  allCores := [⟨0, .big false, [0]⟩, ⟨1, .big false, [2]⟩, ⟨2, .big false, [4]⟩,
    ⟨3, .big false, [6]⟩]
  siblingCpus := []
  smtEnabled := false
  allCpus_nodup := by decide
  coreIds_nodup := by decide
  llcs_perm := by decide
  cores_perm := by decide

/-- Two LLCs with two CPUs each and no gaps. -/
def dualCcd : Topology where
  allCpus := [0, 1, 2, 3]
  allLlcs := [[0, 1], [2, 3]]
  allCores := [⟨0, .big false, [0]⟩, ⟨1, .big false, [1]⟩, ⟨2, .big false, [2]⟩,
    ⟨3, .big false, [3]⟩]
  siblingCpus := []
  smtEnabled := false
  allCpus_nodup := by decide
  coreIds_nodup := by decide
  llcs_perm := by decide
  cores_perm := by decide

theorem dualCcd_masks_agree : LlcMasksAgree defaultArgs dualCcd :=
  (llc_masks_agree_iff defaultArgs dualCcd (by decide) (by decide)).mpr (by decide)

/-- The second LLC has two CPUs, and an empty set on the kernel side: no kick ever finds one. -/
theorem evenCpus_mask_empty : ¬ LlcMasksAgree defaultArgs evenCpus := by
  intro h
  exact (h 1).2 (by decide) (by decide)

end Imperator
