import Mathlib.Logic.Function.Basic
import Imperator.Intf

/-!
# Loader configuration and shared state

The two kinds of global data of the program. `Rodata` is what the loader fixes before the program
is attached; nothing writes it afterwards. `Bss` is the shared state the callbacks update: the
per-CPU mailboxes and counters, one non-empty byte per LLC, the CPU sets per LLC and per tier.

A CPU number is masked with `CAKE_MAX_CPUS - 1` wherever it is used as an index, and an LLC number
with `CAKE_MAX_LLCS - 1`, so both are indices by type here. The CPU sets are words with one bit
per CPU.

## Main results

* `mem_initLlcCpuMask` — after `imperator_init` the set of an LLC holds exactly its CPUs
-/

namespace Imperator

/-- An index into the per-CPU arrays, below `CAKE_MAX_CPUS`. -/
abbrev Cpu := Fin 64

/-- An index into the per-LLC arrays, below `CAKE_MAX_LLCS`. -/
abbrev Llc := Fin 8

/-- `LLC_DSQ_BASE` -/
def llcDsqBase : ℕ := 200

/-- `id & (CAKE_MAX_LLCS - 1)` -/
def llcIdx (id : U32) : Llc := Fin.ofNat 8 (id &&& 7#32).toNat

/-! ### Configuration -/

/-- The globals the loader writes, as far as the callbacks below read them. -/
structure Rodata where
  quantumNs : U64
  newFlowBonusNs : U64
  enableStats : Bool
  hasHybrid : Bool
  simMode : Bool
  nrLlcs : U32
  nrCpus : U32
  cpuLlcId : Cpu → U32
  tierConfigs : TierConfigs

namespace Rodata

/-- The LLC of a CPU, `cpu_llc_id[cpu] & (CAKE_MAX_LLCS - 1)`. -/
def llcOf (ro : Rodata) (cpu : Cpu) : Llc := llcIdx (ro.cpuLlcId cpu)

/-- `(quantum_ns * UNPACK_MULTIPLIER(tier_configs[tier])) >> 10`, the slice of a tier. -/
def tierSlice (ro : Rodata) (t : Tier) : U64 :=
  (ro.quantumNs * unpackMultiplier (ro.tierConfigs (cakeTierIdx t))) >>> 10

/-- `(u16)((quantum_ns + new_flow_bonus_ns) >> 10)`, the deficit of a new task. -/
def initDeficit (ro : Rodata) : U16 := ((ro.quantumNs + ro.newFlowBonusNs) >>> 10).setWidth 16

end Rodata

/-- `tier_configs` as the program is compiled with, before the loader writes a profile. -/
def defaultTierConfigs : TierConfigs := ![
  packConfig (2000000 >>> 10) 512 (3000000 >>> 10),
  packConfig (2000000 >>> 10) 1024 (8000000 >>> 10),
  packConfig (2000000 >>> 10) 2048 (40000000 >>> 10),
  packConfig (2000000 >>> 10) 4095 (50000000 >>> 10),
  packConfig (2000000 >>> 10) 4095 (50000000 >>> 10),
  packConfig (2000000 >>> 10) 4095 (50000000 >>> 10),
  packConfig (2000000 >>> 10) 4095 (50000000 >>> 10),
  packConfig (2000000 >>> 10) 4095 (50000000 >>> 10)]

/-- The globals as the program is compiled with. -/
def defaultRodata : Rodata where
  quantumNs := 2000000
  newFlowBonusNs := 8000000
  enableStats := false
  hasHybrid := false
  simMode := false
  nrLlcs := 1
  nrCpus := 8
  cpuLlcId := fun _ => 0
  tierConfigs := defaultTierConfigs

/-! ### Shared state -/

/-- `struct mega_mailbox_entry` without its padding. -/
structure MailboxEntry where
  flags : U8
  dsqHint : U8
  tickCounter : U8
  deriving DecidableEq, Repr

/-- `MBOX_VALID_FLAG` -/
def mboxValidFlag : U8 := 0x80#8

/-- `MBOX_TIER_MASK` -/
def mboxTierMask : U8 := 0x03#8

/-- `MBOX_GET_TIER` -/
def mboxGetTier (flags : U8) : Tier := Fin.ofNat 4 (flags &&& mboxTierMask).toNat

/-- `(u8)(MBOX_VALID_FLAG | (tier & MBOX_TIER_MASK))` -/
def mboxFlags (t : Tier) : U8 := mboxValidFlag ||| (BitVec.ofNat 8 t &&& mboxTierMask)

/-- `struct imperator_stats` -/
structure Stats where
  nrNewFlowDispatches : U64
  nrOldFlowDispatches : U64
  nrTierDispatches : Tier → U64
  nrStarvationPreemptsTier : Tier → U64
  nrLockHolderSkips : U64
  nrIrqWakeBoosts : U64
  nrWakerTierBoosts : U64
  nrPreemptWithCredit : U64
  nrBurstCreditConsumed : U64
  nrJitterEwmaSum : U64
  nrJitterEwmaCount : U64

/-- The shared state of the program. -/
structure Bss where
  llcCpuMask : Llc → U64
  megaMailbox : Cpu → MailboxEntry
  llcNonempty : Llc → U8
  tierCpuMask : Tier → U64
  globalStats : Cpu → Stats

namespace Bss

/-- A counter update of the running CPU; nothing happens unless `enable_stats`. -/
def count (ro : Rodata) (cpu : Cpu) (f : Stats → Stats) (b : Bss) : Bss :=
  if ro.enableStats then
    { b with globalStats := Function.update b.globalStats cpu (f (b.globalStats cpu)) }
  else b

/-- Storing to the mailbox of one CPU. -/
def setMailbox (cpu : Cpu) (m : MailboxEntry) (b : Bss) : Bss :=
  { b with megaMailbox := Function.update b.megaMailbox cpu m }

/-- `llc_mark_nonempty`: the store is skipped when the byte is already set. -/
def llcMarkNonempty (llc : Llc) (b : Bss) : Bss :=
  if b.llcNonempty llc = 0#8 then
    { b with llcNonempty := Function.update b.llcNonempty llc 1#8 }
  else b

/-- Entering a CPU into the set of a tier, `__sync_fetch_and_or`. -/
def setTierCpu (t : Tier) (cpu : Cpu) (b : Bss) : Bss :=
  { b with tierCpuMask := Function.update b.tierCpuMask t (b.tierCpuMask t ||| 1#64 <<< cpu.val) }

/-- Removing a CPU from the set of a tier, `__sync_fetch_and_and`. -/
def clearTierCpu (t : Tier) (cpu : Cpu) (b : Bss) : Bss :=
  { b with
    tierCpuMask := Function.update b.tierCpuMask t (b.tierCpuMask t &&& ~~~(1#64 <<< cpu.val)) }

variable (ro : Rodata) (cpu : Cpu) (f : Stats → Stats) (m : MailboxEntry) (llc : Llc) (b : Bss)

/-- Counting changes the statistics of one CPU and nothing else. -/
theorem count_eq : ∃ stats,
    b.count ro cpu f = { b with globalStats := Function.update b.globalStats cpu stats } ∧
      (stats = f (b.globalStats cpu) ∨ stats = b.globalStats cpu) := by
  rw [count]
  split
  · exact ⟨_, rfl, Or.inl rfl⟩
  · exact ⟨b.globalStats cpu, by rw [Function.update_eq_self], Or.inr rfl⟩

theorem count_frame : ∃ stats, b.count ro cpu f = { b with globalStats := stats } := by
  obtain ⟨stats, h, -⟩ := count_eq ro cpu f b
  exact ⟨_, h⟩

@[simp] theorem count_llcCpuMask : (b.count ro cpu f).llcCpuMask = b.llcCpuMask := by
  obtain ⟨stats, h⟩ := count_frame ro cpu f b
  rw [h]

@[simp] theorem count_tierCpuMask : (b.count ro cpu f).tierCpuMask = b.tierCpuMask := by
  obtain ⟨stats, h⟩ := count_frame ro cpu f b
  rw [h]

/-- Marking an LLC changes its byte and nothing else. -/
theorem llcMarkNonempty_eq : b.llcMarkNonempty llc
    = { b with
        llcNonempty :=
          if b.llcNonempty llc = 0#8 then Function.update b.llcNonempty llc 1#8
          else b.llcNonempty } := by
  rw [llcMarkNonempty]
  split <;> rfl

@[simp] theorem llcMarkNonempty_llcCpuMask : (b.llcMarkNonempty llc).llcCpuMask = b.llcCpuMask := by
  rw [llcMarkNonempty_eq]

@[simp] theorem llcMarkNonempty_tierCpuMask :
    (b.llcMarkNonempty llc).tierCpuMask = b.tierCpuMask := by
  rw [llcMarkNonempty_eq]

@[simp] theorem llcMarkNonempty_megaMailbox :
    (b.llcMarkNonempty llc).megaMailbox = b.megaMailbox := by
  rw [llcMarkNonempty_eq]

theorem llcMarkNonempty_llcNonempty : (b.llcMarkNonempty llc).llcNonempty
    = if b.llcNonempty llc = 0#8 then Function.update b.llcNonempty llc 1#8 else b.llcNonempty := by
  rw [llcMarkNonempty_eq]

theorem setTierCpu_tierCpuMask (t : Tier) : (b.setTierCpu t cpu).tierCpuMask
    = Function.update b.tierCpuMask t (b.tierCpuMask t ||| 1#64 <<< cpu.val) := rfl

theorem clearTierCpu_tierCpuMask (t : Tier) : (b.clearTierCpu t cpu).tierCpuMask
    = Function.update b.tierCpuMask t (b.tierCpuMask t &&& ~~~(1#64 <<< cpu.val)) := rfl

/-- A CPU is in the set of a tier after entering it, or if it was there before. -/
theorem setTierCpu_getLsbD (t t' : Tier) (c : Cpu) :
    ((b.setTierCpu t cpu).tierCpuMask t').getLsbD c.val
      = ((b.tierCpuMask t').getLsbD c.val || (decide (t' = t) && decide (c = cpu))) := by
  rw [setTierCpu_tierCpuMask]
  rcases eq_or_ne t' t with rfl | hne
  · rw [Function.update_self, BitVec.getLsbD_or_one_shiftLeft _ cpu.isLt]
    simp [Fin.ext_iff]
  · rw [Function.update_of_ne hne]
    simp [hne]

theorem clearTierCpu_getLsbD (t t' : Tier) (c : Cpu) :
    ((b.clearTierCpu t cpu).tierCpuMask t').getLsbD c.val
      = ((b.tierCpuMask t').getLsbD c.val && !(decide (t' = t) && decide (c = cpu))) := by
  rw [clearTierCpu_tierCpuMask]
  rcases eq_or_ne t' t with rfl | hne
  · rw [Function.update_self, BitVec.getLsbD_and_not_one_shiftLeft _ cpu.isLt]
    simp [Fin.ext_iff]
  · rw [Function.update_of_ne hne]
    simp [hne]

end Bss

/-! ### Initialisation -/

/-- One round of the loop of `imperator_init` over the CPUs. -/
def addCpuToLlc (ro : Rodata) (mask : Llc → U64) (cpu : Cpu) : Llc → U64 :=
  Function.update mask (ro.llcOf cpu) (mask (ro.llcOf cpu) ||| 1#64 <<< cpu.val)

/-- The CPUs `imperator_init` visits: those below both `nr_cpus` and `CAKE_MAX_CPUS`. -/
def initCpus (ro : Rodata) : List Cpu :=
  (List.finRange 64).filter fun cpu => cpu.val < ro.nrCpus.toNat

/-- The first half of `imperator_init`: `llc_cpu_mask` computed from `cpu_llc_id`, starting from
the zeroed section. -/
def initLlcCpuMask (ro : Rodata) : Llc → U64 :=
  (initCpus ro).foldl (addCpuToLlc ro) fun _ => 0#64

/-- The shared state once `imperator_init` is done: a zeroed section and the LLC sets. -/
def initBss (ro : Rodata) : Bss where
  llcCpuMask := initLlcCpuMask ro
  megaMailbox := fun _ => ⟨0, 0, 0⟩
  llcNonempty := fun _ => 0
  tierCpuMask := fun _ => 0
  globalStats := fun _ => ⟨0, 0, fun _ => 0, fun _ => 0, 0, 0, 0, 0, 0, 0, 0⟩

/-- The second half: one DSQ per LLC, stopping at the first one the kernel refuses. `create`
stands for `scx_bpf_create_dsq` and the value is that of the callback. -/
def createLlcDsqs (ro : Rodata) (create : ℕ → ℤ) : ℤ :=
  (((List.range ro.nrLlcs.toNat).map fun i => create (llcDsqBase + i)).find? (· < 0)).getD 0

theorem addCpuToLlc_getLsbD (ro : Rodata) (c : Cpu) (llc : Llc) (mask : Llc → U64) (cpu : Cpu) :
    (addCpuToLlc ro mask cpu llc).getLsbD c.val = true ↔
      (mask llc).getLsbD c.val = true ∨ llc = ro.llcOf cpu ∧ c = cpu := by
  rw [addCpuToLlc]
  rcases eq_or_ne llc (ro.llcOf cpu) with rfl | hne
  · rw [Function.update_self, BitVec.getLsbD_or_one_shiftLeft _ cpu.isLt]
    simp [Fin.ext_iff]
  · rw [Function.update_of_ne hne]
    simp [hne]

/-- **The set of an LLC holds exactly its CPUs.** -/
theorem mem_initLlcCpuMask (ro : Rodata) (c : Cpu) (llc : Llc) :
    (initLlcCpuMask ro llc).getLsbD c.val = true ↔
      ro.llcOf c = llc ∧ c.val < ro.nrCpus.toNat := by
  have hvisited : c ∈ initCpus ro ↔ c.val < ro.nrCpus.toNat := by
    rw [initCpus, List.mem_filter]
    simp only [List.mem_finRange, true_and, decide_eq_true_eq]
  rw [initLlcCpuMask, List.foldl_iff_or_exists
    (P := fun mask : Llc → U64 => (mask llc).getLsbD c.val = true) (addCpuToLlc_getLsbD ro c llc)]
  constructor
  · rintro (hbit | ⟨cpu, hcpu, rfl, rfl⟩)
    · simp at hbit
    · exact ⟨rfl, hvisited.mp hcpu⟩
  · rintro ⟨rfl, hlt⟩
    exact Or.inr ⟨c, hvisited.mpr hlt, rfl, rfl⟩

end Imperator
