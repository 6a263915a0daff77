import Mathlib.Data.List.Pairwise
import Imperator.SelectCpu
import Imperator.Topology

/-!
# Cores

Three arrays of `detect` are about cores: the CPUs of each core, the number of the core of each
CPU, and the CPUs of the big cores. The search for an idle core puts them together. It looks up the
core of a CPU by its number, and takes the CPUs it finds there for the siblings of the CPU.

The first array has room for the core ids below 64, and a core with a larger id has no entry. The
number of the core of a CPU is a byte, so a large id loses its high bits. If what is left is below
64, the look-up finds an entry, and it is that of another core.

## Main definitions

* `CoreCoherent` — the arrays agree with one another

## Main results

* `mem_detect_coreCpuMask`, `mem_detect_bigCpuMask`, `detect_cpuCoreId` — what the arrays hold
* `core_coherent_iff` — every topology
-/

namespace Imperator

variable {topo : Topology} {core core' : Core} {cpu : Cpu} {i j : Fin 64} {c : ℕ}

/-! ### One core -/

theorem addCoreCpu_coreCpuMask (core : Core) (st : TopologyInfo × ℕ) (c : ℕ) :
    ((addCoreCpu core st c).1.coreCpuMask i).getLsbD cpu = true ↔
      (st.1.coreCpuMask i).getLsbD cpu = true ∨ core.id = i.val ∧ cpu.val = c := by
  rw [addCoreCpu]
  split
  · next hlt =>
    dsimp only
    split
    · next hid =>
      rcases eq_or_ne i ⟨core.id, hid⟩ with rfl | hne
      · rw [Function.update_self, BitVec.getLsbD_or_one_shiftLeft _ hlt, Bool.or_eq_true,
          decide_eq_true_eq, and_iff_right rfl]
      · have hne' : core.id ≠ i.val := fun heq => hne (Fin.ext heq.symm)
        rw [Function.update_of_ne hne]
        simp [hne']
    · next hid =>
      have hne : core.id ≠ i.val := fun heq => hid (heq ▸ i.isLt)
      simp [hne]
  · next hge =>
    have hne : cpu.val ≠ c := fun heq => hge (heq ▸ cpu.isLt)
    simp [hne]

theorem addCoreCpu_bigCpuMask (core : Core) (st : TopologyInfo × ℕ) (c : ℕ) :
    (addCoreCpu core st c).1.bigCpuMask.getLsbD cpu = true ↔
      st.1.bigCpuMask.getLsbD cpu = true ∨ core.coreType.isBig = 1 ∧ cpu.val = c := by
  rw [addCoreCpu]
  split
  · next hlt =>
    dsimp only
    split
    · next hbig =>
      rw [BitVec.getLsbD_or_one_shiftLeft _ hlt, Bool.or_eq_true, decide_eq_true_eq,
        and_iff_right hbig]
    · next hbig => exact (or_iff_left fun h => hbig h.1).symm
  · next hge =>
    have hne : cpu.val ≠ c := fun heq => hge (heq ▸ cpu.isLt)
    simp [hne]

theorem addCoreCpu_cpuCoreId (core : Core) (st : TopologyInfo × ℕ) (c : ℕ) :
    (addCoreCpu core st c).1.cpuCoreId cpu
      = if cpu.val = c then BitVec.ofNat 8 core.id else st.1.cpuCoreId cpu := by
  rw [addCoreCpu]
  split
  · next hlt =>
    rcases eq_or_ne cpu ⟨c, hlt⟩ with rfl | hne
    · rw [if_pos rfl]
      exact Function.update_self ..
    · rw [if_neg fun heq => hne (Fin.ext heq)]
      exact Function.update_of_ne hne _ _
  · next hge =>
    have hne : cpu.val ≠ c := fun heq => hge (heq ▸ cpu.isLt)
    rw [if_neg hne]

theorem mapCore_coreCpuMask (info : TopologyInfo) (core : Core) :
    ((mapCore info core).coreCpuMask i).getLsbD cpu = true ↔
      (info.coreCpuMask i).getLsbD cpu = true ∨ core.id = i.val ∧ cpu.val ∈ core.cpus := by
  rw [mapCore, List.foldl_iff_or_exists
    (P := fun st : TopologyInfo × ℕ => (st.1.coreCpuMask i).getLsbD cpu = true)
    (addCoreCpu_coreCpuMask core)]
  simp [and_comm]

theorem mapCore_bigCpuMask (info : TopologyInfo) (core : Core) :
    (mapCore info core).bigCpuMask.getLsbD cpu = true ↔
      info.bigCpuMask.getLsbD cpu = true ∨ core.coreType.isBig = 1 ∧ cpu.val ∈ core.cpus := by
  rw [mapCore, List.foldl_iff_or_exists
    (P := fun st : TopologyInfo × ℕ => st.1.bigCpuMask.getLsbD cpu = true)
    (addCoreCpu_bigCpuMask core)]
  simp [and_comm]

theorem mapCore_cpuCoreId (info : TopologyInfo) (core : Core) : (mapCore info core).cpuCoreId cpu
    = if cpu.val ∈ core.cpus then BitVec.ofNat 8 core.id else info.cpuCoreId cpu := by
  rw [mapCore, List.foldl_eq_ite_mem (g := fun st : TopologyInfo × ℕ => st.1.cpuCoreId cpu)
    (addCoreCpu_cpuCoreId core)]
  simp

/-! ### All cores -/

/-- The CPUs of no core keep the number they have. -/
theorem foldl_mapCore_cpuCoreId_of_notMem (cores : List Core) (info : TopologyInfo)
    (h : ∀ core ∈ cores, cpu.val ∉ core.cpus) :
    (cores.foldl mapCore info).cpuCoreId cpu = info.cpuCoreId cpu := by
  induction cores generalizing info with
  | nil => rfl
  | cons core cores ih =>
    obtain ⟨hcore, hcores⟩ := List.forall_mem_cons.mp h
    rw [List.foldl_cons, ih _ hcores, mapCore_cpuCoreId, if_neg hcore]

/-- The number of a CPU is that of its core, if it has only one. -/
theorem foldl_mapCore_cpuCoreId_of_mem (cores : List Core) (info : TopologyInfo)
    (hcore : core ∈ cores) (hcpu : cpu.val ∈ core.cpus)
    (hone : ∀ core' ∈ cores, cpu.val ∈ core'.cpus → core' = core) :
    (cores.foldl mapCore info).cpuCoreId cpu = BitVec.ofNat 8 core.id := by
  induction cores generalizing info with
  | nil => exact absurd hcore List.not_mem_nil
  | cons first cores ih =>
    obtain ⟨hfirst, hcores⟩ := List.forall_mem_cons.mp hone
    rw [List.foldl_cons]
    by_cases hmem : core ∈ cores
    · exact ih _ hmem hcores
    · obtain rfl : core = first := (List.mem_cons.mp hcore).resolve_right hmem
      have hnot : ∀ core' ∈ cores, cpu.val ∉ core'.cpus := fun core' hcore' hcpu' =>
        hmem (hcores core' hcore' hcpu' ▸ hcore')
      rw [foldl_mapCore_cpuCoreId_of_notMem cores _ hnot, mapCore_cpuCoreId, if_pos hcpu]

/-- LLCs do not matter for cores. -/
theorem mapLlcs_cores (llcs : List (List ℕ)) (k : ℕ) (info : TopologyInfo) :
    (mapLlcs llcs k info).coreCpuMask = info.coreCpuMask ∧
      (mapLlcs llcs k info).bigCpuMask = info.bigCpuMask := by
  induction llcs generalizing k info with
  | nil => exact ⟨rfl, rfl⟩
  | cons cpus llcs ih =>
    rw [mapLlcs]
    split
    · exact ih (k + 1) _
    · exact ⟨rfl, rfl⟩

namespace Topology

/-- A CPU is in one core only. -/
theorem core_unique (hcore : core ∈ topo.allCores) (hcore' : core' ∈ topo.allCores)
    (h : c ∈ core.cpus) (h' : c ∈ core'.cpus) : core = core' := by
  have hnodup : (topo.allCores.flatMap Core.cpus).Nodup :=
    topo.cores_perm.nodup_iff.mpr topo.allCpus_nodup
  have hdisjoint := (List.nodup_flatMap.mp hnodup).2
  have : Std.Symm (Function.onFun List.Disjoint Core.cpus) := ⟨fun _ _ hd => hd.symm⟩
  by_contra hne
  exact List.Pairwise.forall hdisjoint hcore hcore' hne h h'

/-- The CPUs are those of the cores. -/
theorem exists_core (h : c ∈ topo.allCpus) : ∃ core ∈ topo.allCores, c ∈ core.cpus :=
  List.mem_flatMap.mp (topo.cores_perm.mem_iff.mpr h)

theorem mem_allCpus_of_core (hcore : core ∈ topo.allCores) (h : c ∈ core.cpus) :
    c ∈ topo.allCpus :=
  topo.cores_perm.mem_iff.mp (List.mem_flatMap.mpr ⟨core, hcore, h⟩)

end Topology

/-- **The entry of an id below 64 holds the CPUs of the core with that id.** -/
theorem mem_detect_coreCpuMask : ((detect topo).coreCpuMask i).getLsbD cpu = true ↔
    ∃ core ∈ topo.allCores, core.id = i.val ∧ cpu.val ∈ core.cpus := by
  show ((topo.allCores.foldl mapCore _).coreCpuMask i).getLsbD cpu = true ↔ _
  rw [List.foldl_iff_or_exists
    (P := fun info : TopologyInfo => (info.coreCpuMask i).getLsbD cpu = true)
    mapCore_coreCpuMask, (mapLlcs_cores _ _ _).1]
  simp

/-- **The set of big CPUs holds the CPUs of the big cores.** -/
theorem mem_detect_bigCpuMask : (detect topo).bigCpuMask.getLsbD cpu = true ↔
    ∃ core ∈ topo.allCores, core.coreType.isBig = 1 ∧ cpu.val ∈ core.cpus := by
  show (topo.allCores.foldl mapCore _).bigCpuMask.getLsbD cpu = true ↔ _
  rw [List.foldl_iff_or_exists (P := fun info : TopologyInfo => info.bigCpuMask.getLsbD cpu = true)
    mapCore_bigCpuMask, (mapLlcs_cores _ _ _).2]
  simp

/-- **The number of the core of a CPU** is the low byte of the id. -/
theorem detect_cpuCoreId (hcore : core ∈ topo.allCores) (hcpu : cpu.val ∈ core.cpus) :
    (detect topo).cpuCoreId cpu = BitVec.ofNat 8 core.id :=
  foldl_mapCore_cpuCoreId_of_mem topo.allCores _ hcore hcpu
    fun _ hcore' hcpu' => Topology.core_unique hcore' hcore hcpu' hcpu

/-! ### Coherence -/

/-- The arrays agree with one another. Different entries share no CPU, the CPUs of an entry are all
big or all not, and the entry that the number of a CPU leads to, if there is one, holds the CPU. -/
structure CoreCoherent (topo : Topology) (info : TopologyInfo) : Prop where
  disjoint : ∀ i j, i ≠ j → info.coreCpuMask i &&& info.coreCpuMask j = 0#64
  uniform : ∀ i, info.coreCpuMask i &&& info.bigCpuMask = info.coreCpuMask i ∨
    info.coreCpuMask i &&& info.bigCpuMask = 0#64
  lookup : ∀ cpu : Cpu, cpu.val ∈ topo.allCpus → 64 ≤ (info.cpuCoreId cpu).toNat ∨
    ∃ h : (info.cpuCoreId cpu).toNat < 64,
      (info.coreCpuMask ⟨(info.cpuCoreId cpu).toNat, h⟩).getLsbD cpu = true

/-- The id of a core with a CPU below 64 is below 64, or its low byte is not. -/
def Topology.CoreIdsFit (topo : Topology) : Prop :=
  ∀ core ∈ topo.allCores, ∀ c ∈ core.cpus, c < 64 → core.id < 64 ∨ 64 ≤ core.id % 256

/-- Ids are not shared. -/
theorem Topology.core_eq_of_id (hcore : core ∈ topo.allCores) (hcore' : core' ∈ topo.allCores)
    (h : core.id = core'.id) : core = core' :=
  List.inj_on_of_nodup_map topo.coreIds_nodup hcore hcore' h

/-- Different entries are those of different cores. -/
theorem detect_coreCpuMask_disjoint (topo : Topology) (h : i ≠ j) :
    (detect topo).coreCpuMask i &&& (detect topo).coreCpuMask j = 0#64 := by
  refine BitVec.and_eq_zero_iff.mpr fun c hc hi => ?_
  refine Bool.eq_false_iff.mpr fun hj => h ?_
  obtain ⟨core, hcore, hid, hmem⟩ := (@mem_detect_coreCpuMask topo ⟨c, hc⟩ _).mp hi
  obtain ⟨core', hcore', hid', hmem'⟩ := (@mem_detect_coreCpuMask topo ⟨c, hc⟩ _).mp hj
  obtain rfl := Topology.core_unique hcore hcore' hmem hmem'
  exact Fin.ext (hid.symm.trans hid')

/-- Whether a CPU is big is a matter of its core. -/
theorem detect_coreCpuMask_uniform (topo : Topology) (i : Fin 64) :
    (detect topo).coreCpuMask i &&& (detect topo).bigCpuMask = (detect topo).coreCpuMask i ∨
      (detect topo).coreCpuMask i &&& (detect topo).bigCpuMask = 0#64 := by
  by_cases hbig : ∃ core ∈ topo.allCores, core.id = i.val ∧ core.coreType.isBig = 1
  · obtain ⟨core, hcore, hid, hbig⟩ := hbig
    refine Or.inl (BitVec.and_eq_left_iff.mpr fun c hc hi => ?_)
    obtain ⟨core', hcore', hid', hmem⟩ := (@mem_detect_coreCpuMask topo ⟨c, hc⟩ _).mp hi
    obtain rfl := Topology.core_eq_of_id hcore hcore' (hid.trans hid'.symm)
    exact (@mem_detect_bigCpuMask topo ⟨c, hc⟩).mpr ⟨core, hcore, hbig, hmem⟩
  · refine Or.inr (BitVec.and_eq_zero_iff.mpr fun c hc hi => ?_)
    refine Bool.eq_false_iff.mpr fun hb => hbig ?_
    obtain ⟨core, hcore, hid, hmem⟩ := (@mem_detect_coreCpuMask topo ⟨c, hc⟩ _).mp hi
    obtain ⟨core', hcore', hisBig, hmem'⟩ := (@mem_detect_bigCpuMask topo ⟨c, hc⟩).mp hb
    obtain rfl := Topology.core_unique hcore hcore' hmem hmem'
    exact ⟨core, hcore, hid, hisBig⟩

/-- The look-up of one CPU. -/
theorem detect_lookup_iff (hcore : core ∈ topo.allCores) (hcpu : cpu.val ∈ core.cpus) :
    (64 ≤ ((detect topo).cpuCoreId cpu).toNat ∨
      ∃ h : ((detect topo).cpuCoreId cpu).toNat < 64,
        ((detect topo).coreCpuMask ⟨((detect topo).cpuCoreId cpu).toNat, h⟩).getLsbD cpu = true) ↔
      core.id < 64 ∨ 64 ≤ core.id % 256 := by
  have hnum : ((detect topo).cpuCoreId cpu).toNat = core.id % 256 := by
    rw [detect_cpuCoreId hcore hcpu, BitVec.toNat_ofNat]
  constructor
  · rintro (hge | ⟨hlt, hbit⟩)
    · exact Or.inr (hnum ▸ hge)
    · obtain ⟨core', hcore', hid, hmem⟩ := mem_detect_coreCpuMask.mp hbit
      obtain rfl := Topology.core_unique hcore hcore' hcpu hmem
      exact Or.inl (hid.trans_lt hlt)
  · rintro (hlt | hge)
    · have hid : core.id = ((detect topo).cpuCoreId cpu).toNat := by omega
      exact Or.inr ⟨hid ▸ hlt, mem_detect_coreCpuMask.mpr ⟨core, hcore, hid, hcpu⟩⟩
    · exact Or.inl (hnum ▸ hge)

theorem coreIdsFit_of_coherent (h : CoreCoherent topo (detect topo)) : topo.CoreIdsFit := by
  intro core hcore c hc hlt
  have hmem : c ∈ topo.allCpus := Topology.mem_allCpus_of_core hcore hc
  exact (detect_lookup_iff hcore hc).mp (h.lookup ⟨c, hlt⟩ hmem)

/-- **When the arrays agree.** For every topology, the entries of `core_cpu_mask` are disjoint and
uniform, and every detected CPU is found where its number leads, exactly when no core with a CPU
below 64 has an id that is 64 or more and has a low byte below 64. -/
theorem core_coherent_iff (topo : Topology) :
    CoreCoherent topo (detect topo) ↔ topo.CoreIdsFit := by
  refine ⟨coreIdsFit_of_coherent, fun h => ?_⟩
  refine ⟨fun i j => detect_coreCpuMask_disjoint topo, detect_coreCpuMask_uniform topo,
    fun cpu hcpu => ?_⟩
  obtain ⟨core, hcore, hmem⟩ := Topology.exists_core hcpu
  exact (detect_lookup_iff hcore hmem).mpr (h core hcore cpu.val hmem cpu.isLt)

/-- Two cores of one CPU each, the second one with an id of 256. -/
def farCore : Topology where
  allCpus := [0, 1]
  allLlcs := [[0, 1]]
  allCores := [⟨0, .big false, [0]⟩, ⟨256, .big false, [1]⟩]
  siblingCpus := []
  smtEnabled := false
  allCpus_nodup := by decide
  coreIds_nodup := by decide
  llcs_perm := by decide
  cores_perm := by decide

/-- The number of CPU 1 leads to the entry of core 0, which holds CPU 0 alone. -/
theorem farCore_not_coherent : (detect farCore).cpuCoreId 1 = 0 ∧
    (detect farCore).coreCpuMask 0 = 1 ∧ ¬ CoreCoherent farCore (detect farCore) := by
  refine ⟨by decide, by decide, fun h => ?_⟩
  have hmem : ⟨256, .big false, [1]⟩ ∈ farCore.allCores := List.mem_cons_of_mem _ List.mem_cons_self
  exact absurd (coreIdsFit_of_coherent h _ hmem 1 (by decide) (by decide)) (by decide)

/-! ### Idle cores -/

/-- What `Scheduler::new` hands over for the search for an idle core. -/
def newHybridRodata (info : TopologyInfo) : HybridRodata where
  bigCpuMask := info.bigCpuMask
  cpuCoreId := fun cpu => (info.cpuCoreId cpu).setWidth 32
  coreCpuMask := info.coreCpuMask

/-- The number of the core arrives as it is. -/
theorem newHybridRodata_cpuCoreId (hcore : core ∈ topo.allCores) (hcpu : cpu.val ∈ core.cpus)
    (hid : core.id < 64) :
    ((newHybridRodata (detect topo)).cpuCoreId cpu).toNat = core.id := by
  show (((detect topo).cpuCoreId cpu).setWidth 32).toNat = core.id
  rw [BitVec.toNat_setWidth, detect_cpuCoreId hcore hcpu, BitVec.toNat_ofNat]
  omega

/-- The entry of a core holds its CPUs. -/
theorem mem_coreCpuMask_of_mem (hcore : core ∈ topo.allCores) (hid : core.id < 64) (d : Cpu) :
    ((detect topo).coreCpuMask ⟨core.id, hid⟩).getLsbD d = true ↔ d.val ∈ core.cpus := by
  rw [mem_detect_coreCpuMask]
  constructor
  · rintro ⟨core', hcore', heq, hmem⟩
    exact Topology.core_eq_of_id hcore hcore' heq.symm ▸ hmem
  · exact fun hmem => ⟨core, hcore, rfl, hmem⟩

/-- What is left of it without a CPU. -/
theorem coreCpuMask_siblings_iff (hcore : core ∈ topo.allCores) (hid : core.id < 64) (cpu : Cpu) :
    (detect topo).coreCpuMask ⟨core.id, hid⟩ &&& ~~~(1#64 <<< cpu.val) = 0 ↔
      ∀ c ∈ core.cpus, c < 64 → c = cpu.val := by
  have hentry := mem_coreCpuMask_of_mem hcore hid
  have hother : ∀ c < 64, (~~~(1#64 <<< cpu.val)).getLsbD c = false ↔ c = cpu.val := by
    intro c hc
    rw [BitVec.getLsbD_not, BitVec.getLsbD_one_shiftLeft _ _ cpu.isLt]
    simp [hc]
  rw [show (0 : U64) = 0#64 from rfl, BitVec.and_eq_zero_iff]
  constructor
  · exact fun h c hc hlt => (hother c hlt).mp (h c hlt ((hentry ⟨c, hlt⟩).mpr hc))
  · exact fun h c hlt hbit => (hother c hlt).mpr (h c ((hentry ⟨c, hlt⟩).mp hbit) hlt)

/-- **A whole core.** A CPU of a core with an id below 64 counts as a whole core exactly if it is
the only CPU of the core, as far as there is room for them. -/
theorem hybridRound_bestFull_iff (hcore : core ∈ topo.allCores) (hcpu : cpu.val ∈ core.cpus)
    (hid : core.id < 64) {best : Candidates} (hbest : best.bestFull = none) :
    (hybridRound (newHybridRodata (detect topo)) cpu best).bestFull = some cpu ↔
      ∀ c ∈ core.cpus, c < 64 → c = cpu.val := by
  have hnum := newHybridRodata_cpuCoreId hcore hcpu hid
  have hlt : (newHybridRodata (detect topo)).cpuCoreId cpu < 64 := by
    rw [BitVec.lt_def, hnum]
    exact hid
  have hmask : (newHybridRodata (detect topo)).coreCpuMask
      (Fin.ofNat 64 ((newHybridRodata (detect topo)).cpuCoreId cpu).toNat)
        = (detect topo).coreCpuMask ⟨core.id, hid⟩ := by
    rw [hnum]
    exact congrArg _ (Fin.ext (Nat.mod_eq_of_lt hid))
  have hne : (detect topo).coreCpuMask ⟨core.id, hid⟩ ≠ 0 := by
    intro hzero
    have hbit := (mem_coreCpuMask_of_mem hcore hid cpu).mpr hcpu
    rw [hzero] at hbit
    simp at hbit
  rw [hybridRound, hmask, ← coreCpuMask_siblings_iff hcore hid cpu]
  dsimp only
  rw [if_pos ⟨hlt, hne⟩]
  split
  · next hfull => exact iff_of_true rfl hfull.1
  · next hpart =>
    have hnot : ¬ (detect topo).coreCpuMask ⟨core.id, hid⟩ &&& ~~~(1#64 <<< cpu.val) = 0 :=
      fun hzero => hpart ⟨hzero, hbest⟩
    refine iff_of_false ?_ hnot
    split <;> simp [hbest]

end Imperator
