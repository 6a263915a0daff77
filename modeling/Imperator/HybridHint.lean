import Imperator.BitScan

/-!
# The hint of the second search

On a hybrid system the first search may end on an efficiency core. Then the performance cores are
scanned for a place to start a second search from. The task should get a core to itself if it can,
so a CPU that shares its core with no other is preferred to one that does; among equals the lowest
number wins. The scan keeps one candidate of each kind, and stops at the first of the better kind.

The slot of the weaker kind is filled by an `else if`, so it also takes a CPU that is alone on its
core once the better slot is taken. That never happens, because the loop has stopped by then, and
so the two slots are what they are meant to be: the first hit of two searches through one ascending
list.

The hint is only where the second search starts. What is used in the end is the answer of one of
the two searches, and an answer that was reported idle.

## Main definitions

* `pcores`, `WholeCore` — the CPUs the scan considers, and prefers
* `IsHint` — what the hint should be

## Main results

* `hybridSearch_hint` — the scan of a list, from any second candidate
* `hybrid_hint_spec` — the hint, and the CPU of the direct dispatch
-/

namespace Imperator

variable {hy : HybridRodata} {allowed : Cpu → Bool} {i pcpu : Cpu} {half : Option Cpu}

/-! ### Candidates -/

/-- The performance cores the task may run on. -/
def pcores (hy : HybridRodata) (allowed : Cpu → Bool) : Set Cpu :=
  {i | hy.bigCpuMask.getLsbD i = true ∧ allowed i = true}

/-- The CPU has a core number in range, and the mask of its core is not empty and holds no other
CPU. -/
def WholeCore (hy : HybridRodata) (i : Cpu) : Prop :=
  let cmask := hy.coreCpuMask (Fin.ofNat 64 (hy.cpuCoreId i).toNat)
  hy.cpuCoreId i < 64 ∧ cmask ≠ 0 ∧ ∀ j : Cpu, cmask.getLsbD j = true → j = i

instance (i : Cpu) : Decidable (WholeCore hy i) := inferInstanceAs (Decidable (_ ∧ _))

/-- What the hint should be: the lowest CPU that has a core to itself, or else the lowest one, or
nothing. -/
inductive IsHint (hy : HybridRodata) (allowed : Cpu → Bool) : Option Cpu → Prop
  | whole {i : Cpu} : IsLeast {i ∈ pcores hy allowed | WholeCore hy i} i →
      IsHint hy allowed (some i)
  | half {i : Cpu} : (∀ j ∈ pcores hy allowed, ¬ WholeCore hy j) → IsLeast (pcores hy allowed) i →
      IsHint hy allowed (some i)
  | none : pcores hy allowed = ∅ → IsHint hy allowed none

/-- No other CPU in a mask, as the source asks for it. -/
theorem siblingBits_eq_zero_iff (cmask : U64) (i : Cpu) :
    cmask &&& ~~~(1#64 <<< i.val) = 0#64 ↔ ∀ j : Cpu, cmask.getLsbD j = true → j = i := by
  rw [BitVec.and_eq_zero_iff]
  have hother : ∀ j < 64, (~~~(1#64 <<< i.val)).getLsbD j = false ↔ j = i.val := by
    intro j hj
    rw [BitVec.getLsbD_not, BitVec.getLsbD_one_shiftLeft _ _ i.isLt]
    simp [hj]
  constructor
  · exact fun h j hj => Fin.ext ((hother j j.isLt).mp (h j j.isLt hj))
  · exact fun h j hj hbit => (hother j hj).mpr (Fin.ext_iff.mp (h ⟨j, hj⟩ hbit))

/-- **One CPU of the scan**, before a whole core was found. -/
theorem hybridRound_eq (hy : HybridRodata) (pcpu : Cpu) (half : Option Cpu) :
    hybridRound hy pcpu ⟨none, half⟩
      = if WholeCore hy pcpu then ⟨some pcpu, half⟩ else ⟨none, half.or (some pcpu)⟩ := by
  have hfill : (if half = none then (⟨none, some pcpu⟩ : Candidates) else ⟨none, half⟩)
      = ⟨none, half.or (some pcpu)⟩ := by
    cases half <;> simp
  rw [hybridRound]
  dsimp only
  by_cases hmask : hy.cpuCoreId pcpu < 64 ∧
      hy.coreCpuMask (Fin.ofNat 64 (hy.cpuCoreId pcpu).toNat) ≠ 0
  · rw [if_pos hmask]
    by_cases halone : ∀ j : Cpu,
        (hy.coreCpuMask (Fin.ofNat 64 (hy.cpuCoreId pcpu).toNat)).getLsbD j = true → j = pcpu
    · rw [if_pos ⟨(siblingBits_eq_zero_iff _ pcpu).mpr halone, rfl⟩,
        if_pos (show WholeCore hy pcpu from ⟨hmask.1, hmask.2, halone⟩)]
    · rw [if_neg fun h => halone ((siblingBits_eq_zero_iff _ pcpu).mp h.1),
        if_neg fun h : WholeCore hy pcpu => halone h.2.2, hfill]
  · rw [if_neg hmask, if_neg fun h : WholeCore hy pcpu => hmask ⟨h.1, h.2.1⟩, hfill]

/-! ### The scan -/

/-- `pcpu_hint`, from the two slots. -/
def Candidates.hint (best : Candidates) : Option Cpu :=
  if best.bestFull.isSome then best.bestFull else best.bestHalf

/-- **The scan of a list.** The first whole core, or else the candidate there was, or else the
first CPU. -/
theorem hybridSearch_hint (hy : HybridRodata) (allowed : Cpu → Bool) (order : List Cpu)
    (half : Option Cpu) : (hybridSearch hy allowed order ⟨none, half⟩).hint
      = (order.find? fun i => allowed i && decide (WholeCore hy i)).or
          (half.or (order.find? allowed)) := by
  induction order generalizing half with
  | nil => simp [hybridSearch, Candidates.hint]
  | cons pcpu order ih =>
    rw [hybridSearch, List.find?_cons, List.find?_cons]
    cases hallowed : allowed pcpu with
    | false => simp [ih]
    | true =>
      simp only [hybridRound_eq, Bool.true_and]
      by_cases hwhole : WholeCore hy pcpu
      · simp [hwhole, Candidates.hint]
      · simp [hwhole, ih]

/-- The CPUs of a mask, in the order the scan visits them. -/
def scanOrder (mask : U64) : List Cpu := (visited builtinCtz 64 mask).map (Fin.ofNat 64)

theorem visitsMembers_builtin (mask : U64) : VisitsMembers (visited builtinCtz 64 mask) mask :=
  visitsMembers_of_scan (fun _ hx => builtinCtz_toNat (by decide) hx)
    (BitVec.length_members_le mask)

theorem mem_scanOrder {mask : U64} : i ∈ scanOrder mask ↔ mask.getLsbD i = true := by
  have hvisits := visitsMembers_builtin mask
  rw [scanOrder, List.mem_map]
  constructor
  · rintro ⟨j, hj, rfl⟩
    have hbit := (hvisits.mem_iff j).mp hj
    rwa [Fin.val_ofNat, Nat.mod_eq_of_lt (BitVec.lt_of_getLsbD hbit)]
  · exact fun hbit => ⟨i, (hvisits.mem_iff i).mpr hbit, Fin.ofNat_val_eq_self i⟩

theorem pairwise_scanOrder (mask : U64) : (scanOrder mask).Pairwise (· < ·) := by
  have hvisits := visitsMembers_builtin mask
  refine List.pairwise_map.mpr (hvisits.ascending.imp_of_mem fun {a b} ha hb hlt => ?_)
  rw [Fin.lt_def, Fin.val_ofNat, Fin.val_ofNat,
    Nat.mod_eq_of_lt (BitVec.lt_of_getLsbD ((hvisits.mem_iff a).mp ha)),
    Nat.mod_eq_of_lt (BitVec.lt_of_getLsbD ((hvisits.mem_iff b).mp hb))]
  exact hlt

/-- The bound on the rounds is never what ends the scan. -/
theorem hybridScan_of_le {rounds : ℕ} (hrounds : 64 ≤ rounds) (mask : U64) (best : Candidates) :
    hybridScan hy allowed rounds mask best = hybridScan hy allowed 64 mask best := by
  have hvisited : visited builtinCtz rounds mask = visited builtinCtz 64 mask := by
    have hscan : ∀ x : U64, x ≠ 0#64 → (builtinCtz x).toNat = x.scanForward :=
      fun _ hx => builtinCtz_toNat (by decide) hx
    have hlength := BitVec.length_members_le mask
    rw [visited, visited, BitVec.scanned_congr hscan, BitVec.scanned_congr hscan,
      BitVec.scanned_eq_members hlength, BitVec.scanned_eq_members (hlength.trans hrounds)]
  rw [← hybridScanBy_builtin, ← hybridScanBy_builtin, hybridScanBy_eq_search,
    hybridScanBy_eq_search, hvisited]

theorem pcpuHint_eq (hy : HybridRodata) (allowed : Cpu → Bool) : pcpuHint hy allowed
    = ((scanOrder hy.bigCpuMask).find? fun i => allowed i && decide (WholeCore hy i)).or
        ((scanOrder hy.bigCpuMask).find? allowed) := by
  have hhint := hybridSearch_hint hy allowed (scanOrder hy.bigCpuMask) none
  rw [Option.none_or] at hhint
  rw [← hhint, pcpuHint, ← hybridScanBy_builtin, hybridScanBy_eq_search]
  rfl

theorem isHint_pcpuHint (hy : HybridRodata) (allowed : Cpu → Bool) :
    IsHint hy allowed (pcpuHint hy allowed) := by
  have hascending := pairwise_scanOrder hy.bigCpuMask
  have hpcores : {i | i ∈ scanOrder hy.bigCpuMask ∧ allowed i = true} = pcores hy allowed :=
    Set.ext fun i => and_congr_left' mem_scanOrder
  rw [pcpuHint_eq]
  cases hfull : (scanOrder hy.bigCpuMask).find? fun i => allowed i && decide (WholeCore hy i) with
  | some i =>
    have hwhole : {i | i ∈ scanOrder hy.bigCpuMask ∧ (allowed i && decide (WholeCore hy i)) = true}
        = {i ∈ pcores hy allowed | WholeCore hy i} := by
      ext i
      simp [← hpcores, and_assoc]
    exact .whole (hwhole ▸ List.isLeast_of_find?_eq_some hascending hfull)
  | none =>
    have hnone : ∀ j ∈ pcores hy allowed, ¬ WholeCore hy j := by
      rintro j ⟨hbit, hallowed⟩ hwhole
      have hmiss := List.find?_eq_none.mp hfull j (mem_scanOrder.mpr hbit)
      simp [hallowed, hwhole] at hmiss
    rw [Option.none_or]
    cases hhalf : (scanOrder hy.bigCpuMask).find? allowed with
    | some i => exact .half hnone (hpcores ▸ List.isLeast_of_find?_eq_some hascending hhalf)
    | none =>
      refine .none (Set.eq_empty_of_forall_notMem ?_)
      rintro j ⟨hbit, hallowed⟩
      exact List.find?_eq_none.mp hhalf j (mem_scanOrder.mpr hbit) hallowed

/-! ### The CPU -/

/-- The second search replaces the answer of the first by an idle CPU, or not at all. -/
theorem hybridCpu_cases (ro : Rodata) (hy : HybridRodata) (env : SelectEnv) (cpu : Cpu) :
    hybridCpu ro hy env cpu = cpu ∨ ∃ hint, pcpuHint hy env.allowed = some hint ∧
      env.searchFrom hint = (hybridCpu ro hy env cpu, true) := by
  rw [hybridCpu]
  split
  · cases hhint : pcpuHint hy env.allowed with
    | none => exact Or.inl rfl
    | some hint =>
      dsimp only
      split
      · next hidle => exact Or.inr ⟨hint, rfl, Prod.ext rfl hidle⟩
      · exact Or.inl rfl
  · exact Or.inl rfl

/-- **The hint of the second search, and where a direct dispatch goes.** For all masks and all core
layouts the hint is the lowest allowed performance core that has its core to itself, or else the
lowest allowed one, or else there is none; more rounds would not change it. And a task is placed
directly only on a CPU one of the two searches reported idle. -/
theorem hybrid_hint_spec (ro : Rodata) (hy : HybridRodata) (env : SelectEnv)
    (ctx : Option TaskCtx) (bss : Bss) :
    IsHint hy env.allowed (pcpuHint hy env.allowed) ∧
    (∀ rounds mask best, 64 ≤ rounds → hybridScan hy env.allowed rounds mask best
      = hybridScan hy env.allowed 64 mask best) ∧
    ∀ placed ∈ (imperatorSelectCpu ro hy env ctx bss).insert,
      (imperatorSelectCpu ro hy env ctx bss).cpu = placed.cpu ∧
        (env.search = (placed.cpu, true) ∨ ∃ hint, pcpuHint hy env.allowed = some hint ∧
          env.searchFrom hint = (placed.cpu, true)) := by
  refine ⟨isHint_pcpuHint hy env.allowed, fun _ mask best h => hybridScan_of_le h mask best, ?_⟩
  intro placed hplaced
  rw [imperatorSelectCpu] at hplaced ⊢
  dsimp only at hplaced ⊢
  split at hplaced
  · next hidle =>
    obtain rfl := Option.some.inj hplaced
    rw [if_pos hidle]
    refine ⟨rfl, ?_⟩
    rcases hybridCpu_cases ro hy env env.search.1 with hsame | hsecond
    · exact Or.inl (Prod.ext hsame.symm hidle)
    · exact Or.inr hsecond
  · cases hplaced

end Imperator
