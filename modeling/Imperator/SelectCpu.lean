import Imperator.TaskRun

/-!
# Choosing a CPU for a wakeup

`imperator_select_cpu` leaves the search for an idle CPU to the kernel. If the kernel finds one, the
task goes straight to the local queue of that CPU, and is never enqueued; on hybrid systems the
search is tried once more from a performance core. If it finds none, the previous CPU is returned
and `imperator_enqueue` takes over.

Before any of that, a wakeup that comes out of an interrupt is noted in the packed word of the task.
The note is worth T0 for one dispatch: the direct one here, which removes it, or the next enqueue.

The place and the note have nothing to do with each other. The CPU is found without looking at the
context, and to the context only the note is done.

## Main definitions

* `SelectEnv.irqContext` — where the wakeup comes from
* `hybridScan`, `hybridCpu` — the second search
* `imperatorSelectCpu`

## Main results

* `imperatorSelectCpu_ctx` — the context is that of `selectCpuCtx`
* `imperatorSelectCpu_cpu` — the CPU does not depend on the context
* `imperatorSelectCpu_bss` — of the globals only the statistics change
-/

namespace Imperator

/-! ### Inputs and outputs -/

/-- The globals only the second search reads. -/
structure HybridRodata where
  bigCpuMask : U64
  cpuCoreId : Cpu → U32
  coreCpuMask : Fin 64 → U64

/-- Without two kinds of cores they are all left at zero. -/
def noHybrid : HybridRodata := ⟨0, fun _ => 0, fun _ => 0⟩

/-- What `imperator_select_cpu` reads of the current task, the waker. -/
structure Waker where
  /-- `PF_KTHREAD` -/
  kthread : Bool
  comm : List Char

/-- The ten bytes `comm` is compared with. -/
def ksoftirqdPrefix : List Char := ['k', 's', 'o', 'f', 't', 'i', 'r', 'q', 'd', '/']

/-- What `imperator_select_cpu` reads besides the program's own state. -/
structure SelectEnv where
  /-- the CPU the callback runs on -/
  cpu : Cpu
  prevCpu : Cpu
  /-- `bpf_in_hardirq` or `bpf_in_nmi` -/
  inHardirqOrNmi : Bool
  /-- `bpf_in_serving_softirq` -/
  inSoftirq : Bool
  /-- `SCX_WAKE_SYNC` -/
  wakeSync : Bool
  /-- `bpf_get_current_task_btf` -/
  waker : Option Waker
  /-- `scx_bpf_select_cpu_dfl` from the previous CPU, with the idle flag -/
  search : Cpu × Bool
  /-- the same from another CPU -/
  searchFrom : Cpu → Cpu × Bool
  /-- `bpf_cpumask_test_cpu` on `p->cpus_ptr` -/
  allowed : Cpu → Bool

/-- A call of `scx_bpf_dsq_insert` on the local queue of a CPU, and the tier it is counted under. -/
structure LocalInsert where
  cpu : Cpu
  slice : U64
  tier : Tier
  deriving DecidableEq, Repr

/-- The effects of one call. -/
structure SelectResult where
  ctx : Option TaskCtx
  bss : Bss
  cpu : Cpu
  insert : Option LocalInsert

/-! ### The interrupt flag -/

/-- `irq_context`. A waker is only looked at outside of interrupts, and not for a synchronous
wakeup. -/
def SelectEnv.irqContext (env : SelectEnv) : Bool :=
  env.inHardirqOrNmi || env.inSoftirq ||
    !env.wakeSync && env.waker.any fun w => w.kthread && ksoftirqdPrefix.isPrefixOf w.comm

/-- What `consume_irq_wake_get_tier_slice` returns and leaves behind. -/
structure Consumed where
  tier : Tier
  slice : U64
  ctx : Option TaskCtx
  bss : Bss

/-- `consume_irq_wake_get_tier_slice` -/
def consumeIrqWakeGetTierSlice (ro : Rodata) (cpu : Cpu) (ctx : Option TaskCtx) (bss : Bss) :
    Consumed :=
  match ctx with
  | some c =>
    if hasFlag c.packedInfo .irqWake then
      { tier := Tier.critical
        slice := ro.tierSlice Tier.critical
        ctx := some { c with packedInfo := clearFlag c.packedInfo .irqWake }
        bss := bss.count ro cpu fun s => { s with nrIrqWakeBoosts := s.nrIrqWakeBoosts + 1 } }
    else ⟨c.tier, c.nextSlice, some c, bss⟩
  | none => ⟨Tier.interact, ro.quantumNs, none, bss⟩

/-! ### The second search -/

/-- `best_full` and `best_half` -/
structure Candidates where
  bestFull : Option Cpu
  bestHalf : Option Cpu
  deriving DecidableEq, Repr

/-- One CPU of the scan. It is the whole core if the mask of its core holds no other CPU; a core
without a mask counts as half. -/
def hybridRound (hy : HybridRodata) (pcpu : Cpu) (best : Candidates) : Candidates :=
  let coreId := hy.cpuCoreId pcpu
  let cmask := hy.coreCpuMask (Fin.ofNat 64 coreId.toNat)
  if coreId < 64 ∧ cmask ≠ 0 then
    let siblingBits := cmask &&& ~~~(1#64 <<< pcpu.val)
    if siblingBits = 0 ∧ best.bestFull = none then { best with bestFull := some pcpu }
    else if best.bestHalf = none then { best with bestHalf := some pcpu }
    else best
  else if best.bestHalf = none then { best with bestHalf := some pcpu }
  else best

/-- The scan over `candidate_mask`; the number is that of the rounds left. -/
def hybridScan (hy : HybridRodata) (allowed : Cpu → Bool) : ℕ → U64 → Candidates → Candidates
  | 0, _, best => best
  | rounds + 1, candidateMask, best =>
    if candidateMask = 0 then best
    else
      let pcpu := Fin.ofNat 64 candidateMask.scanForward
      let rest := candidateMask &&& (candidateMask - 1#64)
      if allowed pcpu then
        let best := hybridRound hy pcpu best
        if best.bestFull.isSome then best else hybridScan hy allowed rounds rest best
      else hybridScan hy allowed rounds rest best

/-- `pcpu_hint` -/
def pcpuHint (hy : HybridRodata) (allowed : Cpu → Bool) : Option Cpu :=
  let best := hybridScan hy allowed 64 hy.bigCpuMask ⟨none, none⟩
  if best.bestFull.isSome then best.bestFull else best.bestHalf

/-- The CPU of a direct dispatch: on hybrid systems the second search replaces an efficiency
core, if it finds an idle CPU. -/
def hybridCpu (ro : Rodata) (hy : HybridRodata) (env : SelectEnv) (cpu : Cpu) : Cpu :=
  if ro.hasHybrid ∧ hy.bigCpuMask ≠ 0 ∧ hy.bigCpuMask &&& 1#64 <<< cpu.val = 0 then
    match pcpuHint hy env.allowed with
    | some hint => if (env.searchFrom hint).2 then (env.searchFrom hint).1 else cpu
    | none => cpu
  else cpu

/-! ### The callback -/

/-- `imperator_select_cpu` -/
def imperatorSelectCpu (ro : Rodata) (hy : HybridRodata) (env : SelectEnv) (ctx : Option TaskCtx)
    (bss : Bss) : SelectResult :=
  let ctx :=
    if env.irqContext then
      ctx.map fun c => { c with packedInfo := setFlag c.packedInfo .irqWake }
    else ctx
  if env.search.2 then
    let out := consumeIrqWakeGetTierSlice ro env.cpu ctx bss
    let cpu := hybridCpu ro hy env env.search.1
    { ctx := out.ctx
      bss := out.bss.count ro env.cpu fun s =>
        let n := s.nrTierDispatches
        { s with
          nrNewFlowDispatches := s.nrNewFlowDispatches + 1
          nrTierDispatches := Function.update n out.tier (n out.tier + 1) }
      cpu := cpu
      insert := some ⟨cpu, out.slice, out.tier⟩ }
  else ⟨ctx, bss, env.prevCpu, none⟩

variable {ro : Rodata} {hy : HybridRodata} {env : SelectEnv} {ctx : Option TaskCtx} {bss : Bss}

theorem consumeIrqWakeGetTierSlice_ctx (cpu : Cpu) :
    (consumeIrqWakeGetTierSlice ro cpu ctx bss).ctx = ctx.map consumeIrqWake := by
  cases ctx with
  | none => rfl
  | some c =>
    rw [consumeIrqWakeGetTierSlice, Option.map_some, consumeIrqWake]
    split <;> rfl

/-- **To the context a call does what `selectCpuCtx` says.** -/
theorem imperatorSelectCpu_ctx (ro : Rodata) (hy : HybridRodata) (env : SelectEnv)
    (ctx : Option TaskCtx) (bss : Bss) : (imperatorSelectCpu ro hy env ctx bss).ctx
      = ctx.map (selectCpuCtx env.irqContext env.search.2) := by
  have hstamp : (if env.irqContext then
        ctx.map fun c => { c with packedInfo := setFlag c.packedInfo .irqWake }
      else ctx) = ctx.map fun c =>
        if env.irqContext then { c with packedInfo := setFlag c.packedInfo .irqWake } else c := by
    split
    · rfl
    · exact Option.map_id'.symm
  rw [imperatorSelectCpu, hstamp]
  dsimp only
  split
  · next hidle =>
    dsimp only
    rw [consumeIrqWakeGetTierSlice_ctx, Option.map_map]
    congr 1
    funext c
    rw [Function.comp_apply, selectCpuCtx, if_pos hidle]
  · next hidle =>
    dsimp only
    congr 1
    funext c
    rw [selectCpuCtx, if_neg hidle]

theorem consumeIrqWakeGetTierSlice_bss (ro : Rodata) (cpu : Cpu) (ctx : Option TaskCtx)
    (bss : Bss) : ∃ stats, (consumeIrqWakeGetTierSlice ro cpu ctx bss).bss
      = { bss with globalStats := stats } := by
  cases ctx with
  | none => exact ⟨bss.globalStats, rfl⟩
  | some c =>
    rw [consumeIrqWakeGetTierSlice]
    split
    · dsimp only
      exact Bss.count_frame ..
    · exact ⟨bss.globalStats, rfl⟩

/-- **Of the globals a call changes the statistics and nothing else.** -/
theorem imperatorSelectCpu_bss (ro : Rodata) (hy : HybridRodata) (env : SelectEnv)
    (ctx : Option TaskCtx) (bss : Bss) : ∃ stats,
      (imperatorSelectCpu ro hy env ctx bss).bss = { bss with globalStats := stats } := by
  rw [imperatorSelectCpu]
  dsimp only
  split
  · dsimp only
    generalize (if env.irqContext then _ else ctx) = ctx'
    obtain ⟨stats, hconsume⟩ := consumeIrqWakeGetTierSlice_bss ro env.cpu ctx' bss
    rw [hconsume]
    exact Bss.count_frame ..
  · exact ⟨bss.globalStats, rfl⟩

theorem imperatorSelectCpu_masks (ro : Rodata) (hy : HybridRodata) (env : SelectEnv)
    (ctx : Option TaskCtx) (bss : Bss) :
    (imperatorSelectCpu ro hy env ctx bss).bss.tierCpuMask = bss.tierCpuMask ∧
      (imperatorSelectCpu ro hy env ctx bss).bss.llcCpuMask = bss.llcCpuMask := by
  obtain ⟨stats, h⟩ := imperatorSelectCpu_bss ro hy env ctx bss
  rw [h]
  exact ⟨rfl, rfl⟩

theorem imperatorSelectCpu_llcNonempty :
    (imperatorSelectCpu ro hy env ctx bss).bss.llcNonempty = bss.llcNonempty := by
  obtain ⟨stats, h⟩ := imperatorSelectCpu_bss ro hy env ctx bss
  rw [h]

theorem imperatorSelectCpu_megaMailbox :
    (imperatorSelectCpu ro hy env ctx bss).bss.megaMailbox = bss.megaMailbox := by
  obtain ⟨stats, h⟩ := imperatorSelectCpu_bss ro hy env ctx bss
  rw [h]

/-- **The CPU is found without the context**, and the task is placed there exactly if the first
search found an idle one. -/
theorem imperatorSelectCpu_cpu (ro : Rodata) (hy : HybridRodata) (env : SelectEnv)
    (ctx : Option TaskCtx) (bss : Bss) :
    (imperatorSelectCpu ro hy env ctx bss).cpu
        = (if env.search.2 then hybridCpu ro hy env env.search.1 else env.prevCpu) ∧
      (imperatorSelectCpu ro hy env ctx bss).insert.map LocalInsert.cpu
        = if env.search.2 then some (hybridCpu ro hy env env.search.1) else none := by
  rw [imperatorSelectCpu]
  dsimp only
  split <;> exact ⟨rfl, rfl⟩

end Imperator
