import Mathlib.Data.List.GetD
import Mathlib.Data.List.Perm.Subperm
import Mathlib.Data.List.Sort
import Imperator.Globals

/-!
# Topology detection

`detect` turns what the system library knows about CPUs, LLCs and cores into arrays of the size the
BPF side has. LLCs are numbered in the order in which they are enumerated, up to `MAX_LLCS` of
them, whether or not they have a CPU that fits the arrays; CPUs from 64 on are left out, and a CPU
of none of the numbered LLCs keeps the number 0.

The library is not part of this repository. What is relied on is that every CPU is in one LLC and
in one core; ids, gaps between ids, and the order of enumeration are arbitrary.

## Main definitions

* `Topology` — what `detect` reads
* `TopologyInfo`, `detect` — what it makes of it

## Main results

* `mem_detect_llcCpuMask` — the detected set of an LLC holds exactly its CPUs below 64
* `detect_cpuLlcId_of_mem`, `detect_cpuLlcId_of_forall_notMem` — the number a CPU gets
-/

namespace Imperator

/-! ### What is detected -/

/-- `scx_utils::CoreType` -/
inductive CoreType
  | big (turbo : Bool)
  | little
  deriving DecidableEq, Repr

/-- An entry of `all_cores`. -/
structure Core where
  id : ℕ
  coreType : CoreType
  /-- the keys of `cpus` -/
  cpus : List ℕ

/-- `scx_utils::Topology`, as far as `detect` reads it. A map is the list of its entries, in the
order in which it is iterated. -/
structure Topology where
  /-- the keys of `all_cpus` -/
  allCpus : List ℕ
  /-- the keys of `all_cpus` of each LLC of `all_llcs` -/
  allLlcs : List (List ℕ)
  allCores : List Core
  /-- `sibling_cpus()`, negative where there is none -/
  siblingCpus : List ℤ
  smtEnabled : Bool
  allCpus_nodup : allCpus.Nodup
  coreIds_nodup : (allCores.map Core.id).Nodup
  llcs_perm : allLlcs.flatten.Perm allCpus
  cores_perm : (allCores.flatMap Core.cpus).Perm allCpus

/-- `TopologyInfo`. The core arrays are indexed by core ids below 64. -/
structure TopologyInfo where
  nrCpus : ℕ
  hasDualCcd : Bool
  hasHybridCores : Bool
  smtEnabled : Bool
  cpuSiblingMap : Cpu → U8
  cpuLlcId : Cpu → U8
  cpuIsBig : Cpu → U8
  cpuCoreId : Cpu → U8
  cpuThreadBit : Cpu → U8
  coreCpuMask : Fin 64 → U64
  coreThreadMask : Fin 64 → U8
  llcCpuMask : Llc → U64
  bigCpuMask : U64
  threadsPerCcd : U32

/-! ### LLCs -/

/-- The locals of the loop over the CPUs of one LLC. -/
structure LlcScan where
  cpuLlcId : Cpu → U8
  mask : U64
  threadCount : U32

/-- One round of that loop. -/
def addLlcCpu (idx : Llc) (l : LlcScan) (cpu : ℕ) : LlcScan :=
  if h : cpu < 64 then
    { cpuLlcId := Function.update l.cpuLlcId ⟨cpu, h⟩ (BitVec.ofNat 8 idx)
      mask := l.mask ||| 1#64 <<< cpu
      threadCount := l.threadCount + 1 }
  else l

/-- One LLC: number its CPUs, store their set, and raise the largest number of threads. -/
def mapLlc (idx : Llc) (cpus : List ℕ) (info : TopologyInfo) : TopologyInfo :=
  let l := cpus.foldl (addLlcCpu idx) ⟨info.cpuLlcId, 0, 0⟩
  { info with
    cpuLlcId := l.cpuLlcId
    llcCpuMask := Function.update info.llcCpuMask idx l.mask
    threadsPerCcd :=
      if info.threadsPerCcd < l.threadCount then l.threadCount else info.threadsPerCcd }

/-- The loop over the LLCs, which stops after `MAX_LLCS` of them. -/
def mapLlcs : List (List ℕ) → ℕ → TopologyInfo → TopologyInfo
  | [], _, info => info
  | cpus :: llcs, llcIdx, info =>
    if h : llcIdx < 8 then mapLlcs llcs (llcIdx + 1) (mapLlc ⟨llcIdx, h⟩ cpus info) else info

/-! ### Cores -/

/-- `is_big`: everything but a little core. -/
def CoreType.isBig : CoreType → U8
  | .little => 0
  | .big _ => 1

/-- One round of the loop over the CPUs of a core, with `thread_idx`. Shift distances wrap at the
width of the word, as in a release build. -/
def addCoreCpu (core : Core) (st : TopologyInfo × ℕ) (cpu : ℕ) : TopologyInfo × ℕ :=
  if h : cpu < 64 then
    let isBig := core.coreType.isBig
    let info := st.1
    ({ info with
        cpuIsBig := Function.update info.cpuIsBig ⟨cpu, h⟩ isBig
        cpuCoreId := Function.update info.cpuCoreId ⟨cpu, h⟩ (BitVec.ofNat 8 core.id)
        cpuThreadBit := Function.update info.cpuThreadBit ⟨cpu, h⟩ (1#8 <<< (st.2 % 8))
        coreCpuMask :=
          if hid : core.id < 64 then
            Function.update info.coreCpuMask ⟨core.id, hid⟩
              (info.coreCpuMask ⟨core.id, hid⟩ ||| 1#64 <<< cpu)
          else info.coreCpuMask
        bigCpuMask := if isBig = 1 then info.bigCpuMask ||| 1#64 <<< cpu else info.bigCpuMask },
      st.2 + 1)
  else st

/-- One core: the mask of its threads, then its CPUs in ascending order. -/
def mapCore (info : TopologyInfo) (core : Core) : TopologyInfo :=
  let info := { info with
    coreThreadMask :=
      if hid : core.id < 64 then
        Function.update info.coreThreadMask ⟨core.id, hid⟩
          ((1#16 <<< (core.cpus.length % 16) - 1#16).setWidth 8)
      else info.coreThreadMask }
  ((core.cpus.insertionSort (· ≤ ·)).foldl (addCoreCpu core) (info, 0)).1

/-! ### The whole -/

/-- The sibling of a CPU, or the CPU itself. -/
def siblingOf (siblings : List ℤ) (cpu : Cpu) : U8 :=
  match siblings[cpu.val]? with
  | some sibling =>
    if 0 ≤ sibling ∧ sibling < 64 then BitVec.ofNat 8 sibling.toNat else BitVec.ofNat 8 cpu
  | none => BitVec.ofNat 8 cpu

/-- `detect`, where the library finds a topology. -/
def detect (topo : Topology) : TopologyInfo :=
  let info : TopologyInfo :=
    { nrCpus := topo.allCpus.length
      hasDualCcd := 1 < topo.allLlcs.length
      hasHybridCores := false
      smtEnabled := topo.smtEnabled
      cpuSiblingMap := siblingOf topo.siblingCpus
      cpuLlcId := fun _ => 0
      cpuIsBig := fun _ => 0
      cpuCoreId := fun _ => 0
      cpuThreadBit := fun _ => 0
      coreCpuMask := fun _ => 0
      coreThreadMask := fun _ => 0
      llcCpuMask := fun _ => 0
      bigCpuMask := 0
      threadsPerCcd := 0 }
  let info := topo.allCores.foldl mapCore (mapLlcs topo.allLlcs 0 info)
  let pCoresFound := topo.allCores.countP fun core => core.coreType.isBig = 1
  let eCoresFound := topo.allCores.countP fun core => core.coreType.isBig ≠ 1
  { info with hasHybridCores := 0 < pCoresFound ∧ 0 < eCoresFound }

/-! ### One LLC -/

variable {idx l : Llc} {cpus : List ℕ} {info : TopologyInfo} {cpu : Cpu}

theorem addLlcCpu_cpuLlcId (idx : Llc) (cpu : Cpu) (st : LlcScan) (c : ℕ) :
    (addLlcCpu idx st c).cpuLlcId cpu
      = if cpu.val = c then BitVec.ofNat 8 idx else st.cpuLlcId cpu := by
  rw [addLlcCpu]
  split
  · next hlt =>
    rcases eq_or_ne cpu ⟨c, hlt⟩ with rfl | hne
    · rw [if_pos rfl]
      exact Function.update_self ..
    · rw [if_neg fun heq => hne (Fin.ext heq)]
      exact Function.update_of_ne hne _ _
  · next hge =>
    have hne : cpu.val ≠ c := fun heq => hge (heq ▸ cpu.isLt)
    rw [if_neg hne]

theorem addLlcCpu_mask (idx : Llc) (st : LlcScan) (c : ℕ) :
    (addLlcCpu idx st c).mask.getLsbD cpu = true ↔ st.mask.getLsbD cpu = true ∨ cpu.val = c := by
  rw [addLlcCpu]
  split
  · next hlt =>
    rw [BitVec.getLsbD_or_one_shiftLeft _ hlt, Bool.or_eq_true, decide_eq_true_eq]
  · next hge =>
    have hne : cpu.val ≠ c := fun heq => hge (heq ▸ cpu.isLt)
    exact (or_iff_left hne).symm

theorem mapLlc_cpuLlcId : (mapLlc idx cpus info).cpuLlcId cpu
    = if cpu.val ∈ cpus then BitVec.ofNat 8 idx else info.cpuLlcId cpu :=
  List.foldl_eq_ite_mem (g := fun st : LlcScan => st.cpuLlcId cpu)
    (addLlcCpu_cpuLlcId idx cpu) cpus _

theorem mapLlc_llcCpuMask_self :
    ((mapLlc idx cpus info).llcCpuMask idx).getLsbD cpu = decide (cpu.val ∈ cpus) := by
  show (Function.update info.llcCpuMask idx _ idx).getLsbD cpu = _
  rw [Function.update_self, Bool.eq_iff_iff, List.foldl_iff_or_exists
    (P := fun st : LlcScan => st.mask.getLsbD cpu = true) (addLlcCpu_mask idx)]
  simp

theorem mapLlc_llcCpuMask_of_ne (h : l ≠ idx) :
    (mapLlc idx cpus info).llcCpuMask l = info.llcCpuMask l :=
  Function.update_of_ne h _ _

/-! ### All LLCs -/

/-- An LLC that is numbered already keeps its set. -/
theorem mapLlcs_llcCpuMask_of_lt (llcs : List (List ℕ)) {k : ℕ} (h : l.val < k)
    (info : TopologyInfo) : (mapLlcs llcs k info).llcCpuMask l = info.llcCpuMask l := by
  induction llcs generalizing k info with
  | nil => rfl
  | cons cpus llcs ih =>
    rw [mapLlcs]
    split
    · next hk =>
      have hne : l ≠ ⟨k, hk⟩ := fun heq => Nat.ne_of_lt h (congrArg Fin.val heq)
      rw [ih (Nat.lt_succ_of_lt h), mapLlc_llcCpuMask_of_ne hne]
    · rfl

/-- The set of an LLC that is numbered in the loop. -/
theorem mapLlcs_llcCpuMask (llcs : List (List ℕ)) {k : ℕ} (h : k ≤ l.val) (info : TopologyInfo)
    (hnew : ∀ l' : Llc, k ≤ l'.val → info.llcCpuMask l' = 0) :
    ((mapLlcs llcs k info).llcCpuMask l).getLsbD cpu
      = decide (cpu.val ∈ llcs.getD (l.val - k) []) := by
  induction llcs generalizing k info with
  | nil => simp [mapLlcs, hnew l h]
  | cons cpus llcs ih =>
    have hk : k < 8 := Nat.lt_of_le_of_lt h l.isLt
    rw [mapLlcs, dif_pos hk]
    rcases Nat.eq_or_lt_of_le h with rfl | hlt
    · rw [mapLlcs_llcCpuMask_of_lt llcs (Nat.lt_succ_self _), mapLlc_llcCpuMask_self, Nat.sub_self,
        List.getD_cons_zero]
    · rw [ih hlt, show l.val - k = l.val - (k + 1) + 1 by omega, List.getD_cons_succ]
      intro l' hl'
      have hne : l' ≠ ⟨k, hk⟩ := fun heq => by
        rw [heq] at hl'
        exact Nat.not_succ_le_self k hl'
      rw [mapLlc_llcCpuMask_of_ne hne]
      exact hnew l' (Nat.le_of_succ_le hl')

/-- A CPU of none of the remaining LLCs keeps its number. -/
theorem mapLlcs_cpuLlcId_of_notMem (llcs : List (List ℕ)) (k : ℕ) (info : TopologyInfo)
    (h : ∀ i, k + i < 8 → cpu.val ∉ llcs.getD i []) :
    (mapLlcs llcs k info).cpuLlcId cpu = info.cpuLlcId cpu := by
  induction llcs generalizing k info with
  | nil => rfl
  | cons cpus llcs ih =>
    rw [mapLlcs]
    split
    · next hk =>
      have hnot : cpu.val ∉ cpus := h 0 hk
      rw [ih (k + 1) _ fun i hi => h (i + 1) (by omega), mapLlc_cpuLlcId, if_neg hnot]
    · rfl

/-- The number of a CPU is that of its LLC, if no later LLC has the CPU too. -/
theorem mapLlcs_cpuLlcId_of_mem (llcs : List (List ℕ)) (k : ℕ) (info : TopologyInfo) {i : ℕ}
    (hi : k + i < 8) (hmem : cpu.val ∈ llcs.getD i [])
    (hlast : ∀ j, i < j → cpu.val ∉ llcs.getD j []) :
    (mapLlcs llcs k info).cpuLlcId cpu = BitVec.ofNat 8 (k + i) := by
  induction llcs generalizing k i info with
  | nil => simp at hmem
  | cons cpus llcs ih =>
    rw [mapLlcs, dif_pos (show k < 8 by omega)]
    rcases i with _ | i
    · rw [mapLlcs_cpuLlcId_of_notMem llcs (k + 1) _ fun j _ => hlast (j + 1) (Nat.succ_pos j),
        mapLlc_cpuLlcId, if_pos (show cpu.val ∈ cpus from hmem)]
      rfl
    · have hk : k + 1 + i = k + (i + 1) := by omega
      rw [ih (k + 1) _ (hk ▸ hi) hmem fun j hj => hlast (j + 1) (Nat.succ_lt_succ hj), hk]

theorem mapLlcs_nrCpus (llcs : List (List ℕ)) (k : ℕ) (info : TopologyInfo) :
    (mapLlcs llcs k info).nrCpus = info.nrCpus := by
  induction llcs generalizing k info with
  | nil => rfl
  | cons cpus llcs ih =>
    rw [mapLlcs]
    split
    · rw [ih]
      rfl
    · rfl

/-! ### Cores do not matter for LLCs -/

/-- Two infos that agree on the LLCs and the number of CPUs. -/
structure TopologyInfo.SameLlcs (info info' : TopologyInfo) : Prop where
  nrCpus : info'.nrCpus = info.nrCpus
  cpuLlcId : info'.cpuLlcId = info.cpuLlcId
  llcCpuMask : info'.llcCpuMask = info.llcCpuMask

theorem TopologyInfo.SameLlcs.trans {i₁ i₂ i₃ : TopologyInfo} (h : i₁.SameLlcs i₂)
    (h' : i₂.SameLlcs i₃) : i₁.SameLlcs i₃ :=
  ⟨h'.nrCpus.trans h.nrCpus, h'.cpuLlcId.trans h.cpuLlcId, h'.llcCpuMask.trans h.llcCpuMask⟩

theorem foldl_addCoreCpu_sameLlcs (core : Core) (cpus : List ℕ) (st : TopologyInfo × ℕ) :
    st.1.SameLlcs (cpus.foldl (addCoreCpu core) st).1 := by
  induction cpus generalizing st with
  | nil => exact ⟨rfl, rfl, rfl⟩
  | cons cpu cpus ih =>
    have hone : st.1.SameLlcs (addCoreCpu core st cpu).1 := by
      rw [addCoreCpu]
      split <;> exact ⟨rfl, rfl, rfl⟩
    exact hone.trans (ih _)

theorem foldl_mapCore_sameLlcs (cores : List Core) (info : TopologyInfo) :
    info.SameLlcs (cores.foldl mapCore info) := by
  induction cores generalizing info with
  | nil => exact ⟨rfl, rfl, rfl⟩
  | cons core cores ih =>
    have hone : info.SameLlcs (mapCore info core) := by
      rw [mapCore]
      refine .trans ?_ (foldl_addCoreCpu_sameLlcs core _ _)
      exact ⟨rfl, rfl, rfl⟩
    exact hone.trans (ih _)

/-! ### The detected LLCs -/

namespace Topology

variable (topo : Topology)

/-- The CPUs of the `i`-th LLC, in the order of enumeration. -/
def llc (i : ℕ) : List ℕ := topo.allLlcs.getD i []

variable {topo} {i j c : ℕ}

theorem lt_length_of_mem_llc (h : c ∈ topo.llc i) : i < topo.allLlcs.length := by
  by_contra hge
  rw [llc, List.getD_eq_default _ _ (Nat.not_lt.mp hge)] at h
  exact absurd h List.not_mem_nil

/-- The CPUs are those of the LLCs. -/
theorem mem_allCpus_iff : c ∈ topo.allCpus ↔ ∃ i, c ∈ topo.llc i := by
  rw [← topo.llcs_perm.mem_iff, List.mem_flatten]
  constructor
  · rintro ⟨cpus, hcpus, hmem⟩
    obtain ⟨i, hi, rfl⟩ := List.mem_iff_getElem.mp hcpus
    refine ⟨i, ?_⟩
    rwa [llc, List.getD_eq_getElem _ _ hi]
  · rintro ⟨i, hmem⟩
    have hi := lt_length_of_mem_llc hmem
    rw [llc, List.getD_eq_getElem _ _ hi] at hmem
    exact ⟨_, List.getElem_mem hi, hmem⟩

/-- A CPU is in one LLC only. -/
theorem llc_unique (hi : c ∈ topo.llc i) (hj : c ∈ topo.llc j) : i = j := by
  have hnodup : topo.allLlcs.flatten.Nodup := topo.llcs_perm.nodup_iff.mpr topo.allCpus_nodup
  have hdisjoint := (List.nodup_flatten.mp hnodup).2
  have hne : ∀ {i j}, c ∈ topo.llc i → c ∈ topo.llc j → ¬ i < j := by
    intro i j hi hj hij
    have hi' := lt_length_of_mem_llc hi
    have hj' := lt_length_of_mem_llc hj
    rw [llc, List.getD_eq_getElem _ _ hi'] at hi
    rw [llc, List.getD_eq_getElem _ _ hj'] at hj
    exact List.pairwise_iff_getElem.mp hdisjoint i j hi' hj' hij hi hj
  rcases Nat.lt_trichotomy i j with h | h | h
  · exact absurd h (hne hi hj)
  · exact h
  · exact absurd h (hne hj hi)

end Topology

variable {topo : Topology}

theorem detect_nrCpus : (detect topo).nrCpus = topo.allCpus.length := by
  show (topo.allCores.foldl mapCore _).nrCpus = _
  rw [(foldl_mapCore_sameLlcs _ _).nrCpus, mapLlcs_nrCpus]

/-- **The detected set of an LLC holds exactly its CPUs.** -/
theorem mem_detect_llcCpuMask :
    ((detect topo).llcCpuMask l).getLsbD cpu = true ↔ cpu.val ∈ topo.llc l := by
  show ((topo.allCores.foldl mapCore _).llcCpuMask l).getLsbD cpu = true ↔ _
  rw [(foldl_mapCore_sameLlcs _ _).llcCpuMask,
    mapLlcs_llcCpuMask _ (Nat.zero_le _) _ fun _ _ => rfl, decide_eq_true_eq]
  rfl

/-- A CPU of one of the first eight LLCs gets the number of that LLC. -/
theorem detect_cpuLlcId_of_mem (h : cpu.val ∈ topo.llc l) :
    (detect topo).cpuLlcId cpu = BitVec.ofNat 8 l := by
  show (topo.allCores.foldl mapCore _).cpuLlcId cpu = _
  have hlast : ∀ j, l.val < j → cpu.val ∉ topo.llc j := fun j hj hmem =>
    Nat.ne_of_lt hj (Topology.llc_unique h hmem)
  have hl : 0 + l.val < 8 := by omega
  rw [(foldl_mapCore_sameLlcs _ _).cpuLlcId, mapLlcs_cpuLlcId_of_mem _ 0 _ hl h hlast, Nat.zero_add]

/-- Any other CPU keeps the number 0. -/
theorem detect_cpuLlcId_of_forall_notMem (h : ∀ l : Llc, cpu.val ∉ topo.llc l) :
    (detect topo).cpuLlcId cpu = 0 := by
  show (topo.allCores.foldl mapCore _).cpuLlcId cpu = _
  rw [(foldl_mapCore_sameLlcs _ _).cpuLlcId, mapLlcs_cpuLlcId_of_notMem]
  intro i hi
  exact h ⟨i, by omega⟩

end Imperator
