import Imperator.Dispatch
import Imperator.SelectCpu

/-!
# Scanning bits without an instruction for it

Two loops go through the members of a mask: they scan for the lowest one, look at it, and remove it.
The scan is a macro. With a recent compiler it is a builtin. With an older one it would become an
instruction some kernels do not know, and the macro is a multiplication instead: the lowest bit is
isolated by negation, multiplied with a constant in which every six (five) successive bits are a
different number, and the top bits of the product are looked up in a table.

The multiplication by a single bit is a shift, so all there is to check about constant and table is
one lookup for each bit. Which loop is compiled makes no difference then, since a loop only scans
masks that are not empty.

## Main definitions

* `imperatorCtz64`, `imperatorCtz32` — the scans
* `stealLoopBy`, `hybridScanBy` — the two loops, for any scan
* `hybridSearch` — the second one as a search through a list

## Main results

* `bitScanForwardU64_eq`, `bitScanForwardU32_eq` — the lookups find the lowest bit
* `hybridScanBy_eq_search`, `stealLoopBy_eq_probeAll` — the loops visit what is scanned
* `bitScan_fallback` — the loops on the fallback
-/

namespace Imperator

variable {τ : Type*}

/-! ### The scans -/

/-- `de_bruijn_bits` -/
def deBruijnBits : Fin 64 → U8 := ![
  0, 1, 2, 53, 3, 7, 54, 27, 4, 38, 41, 8, 34, 55, 48, 28,
  62, 5, 39, 46, 44, 42, 22, 9, 24, 35, 59, 56, 49, 18, 29, 11,
  63, 52, 6, 26, 37, 40, 33, 47, 61, 45, 43, 21, 23, 58, 17, 10,
  51, 25, 36, 32, 60, 20, 57, 16, 50, 31, 19, 15, 30, 14, 13, 12]

/-- `imperator_ctz64` -/
def imperatorCtz64 (mask mult : U64) : U32 :=
  let lsb := mask &&& -mask
  let product := lsb * mult
  (deBruijnBits (Fin.ofNat 64 (product >>> 58).toNat)).setWidth 32

/-- `de_bruijn32` -/
def deBruijn32 : Fin 32 → U8 := ![
  0, 1, 28, 2, 29, 14, 24, 3, 30, 22, 20, 15, 25, 17, 4, 8,
  31, 27, 13, 23, 21, 19, 16, 7, 26, 12, 18, 6, 11, 5, 10, 9]

/-- `imperator_ctz32` -/
def imperatorCtz32 (mask : U32) : U32 :=
  let lsb := mask &&& -mask
  let product := lsb * 0x077CB531#32
  (deBruijn32 (Fin.ofNat 32 (product >>> 27).toNat)).setWidth 32

/-- `BIT_SCAN_FORWARD_U64` without the builtin. -/
def bitScanForwardU64 (mask : U64) : U32 := imperatorCtz64 mask 0x022FDD63CC95386D#64

/-- `BIT_SCAN_FORWARD_U32` without the builtin. -/
def bitScanForwardU32 (mask : U32) : U32 := imperatorCtz32 mask

/-- Constant and table fit together. -/
theorem deBruijnBits_lookup : ∀ i : Fin 64,
    (deBruijnBits (Fin.ofNat 64 ((1#64 <<< i.val * 0x022FDD63CC95386D#64) >>> 58).toNat)).toNat
      = i := by
  decide +kernel

theorem deBruijn32_lookup : ∀ i : Fin 32,
    (deBruijn32 (Fin.ofNat 32 ((1#32 <<< i.val * 0x077CB531#32) >>> 27).toNat)).toNat = i := by
  decide +kernel

theorem bitScanForwardU64_eq (mask : U64) (h : mask ≠ 0#64) :
    (bitScanForwardU64 mask).toNat = mask.scanForward := by
  have hlookup := deBruijnBits_lookup ⟨mask.scanForward, BitVec.scanForward_lt h⟩
  rw [bitScanForwardU64, imperatorCtz64, BitVec.and_neg_eq_one_shiftLeft h,
    BitVec.toNat_setWidth_of_le (by decide)]
  exact hlookup

theorem bitScanForwardU32_eq (mask : U32) (h : mask ≠ 0#32) :
    (bitScanForwardU32 mask).toNat = mask.scanForward := by
  have hlookup := deBruijn32_lookup ⟨mask.scanForward, BitVec.scanForward_lt h⟩
  rw [bitScanForwardU32, imperatorCtz32, BitVec.and_neg_eq_one_shiftLeft h,
    BitVec.toNat_setWidth_of_le (by decide)]
  exact hlookup

/-! ### The loops -/

/-- `__builtin_ctz` and `__builtin_ctzll` -/
def builtinCtz {w : ℕ} (mask : BitVec w) : U32 := BitVec.ofNat 32 mask.scanForward

/-- The last loop of `imperator_dispatch`, with `bsf` for the scan. -/
def stealLoopBy (bsf : U32 → U32) (allowed : τ → Bool) :
    ℕ → U32 → DispatchState τ → DispatchState τ
  | 0, _, s => s
  | rounds + 1, stealMask, s =>
    if stealMask = 0 then s
    else
      let victim := bsf stealMask
      let stealMask := stealMask &&& (stealMask - 1#32)
      let s := s.probe allowed (Fin.ofNat 8 victim.toNat)
      if s.moved.isSome then s else stealLoopBy bsf allowed rounds stealMask s

/-- The scan of `imperator_select_cpu`, with `bsf` for the scan of a mask. -/
def hybridScanBy (bsf : U64 → U32) (hy : HybridRodata) (allowed : Cpu → Bool) :
    ℕ → U64 → Candidates → Candidates
  | 0, _, best => best
  | rounds + 1, candidateMask, best =>
    if candidateMask = 0 then best
    else
      let pcpu := Fin.ofNat 64 (bsf candidateMask).toNat
      let rest := candidateMask &&& (candidateMask - 1#64)
      if allowed pcpu then
        let best := hybridRound hy pcpu best
        if best.bestFull.isSome then best else hybridScanBy bsf hy allowed rounds rest best
      else hybridScanBy bsf hy allowed rounds rest best

/-- The same for a list of CPUs: look at one after the other until one is a whole core. -/
def hybridSearch (hy : HybridRodata) (allowed : Cpu → Bool) : List Cpu → Candidates → Candidates
  | [], best => best
  | pcpu :: order, best =>
    if allowed pcpu then
      let best := hybridRound hy pcpu best
      if best.bestFull.isSome then best else hybridSearch hy allowed order best
    else hybridSearch hy allowed order best

/-- The numbers a loop visits, for a scan as it is compiled. -/
def visited {w : ℕ} (bsf : BitVec w → U32) (rounds : ℕ) (mask : BitVec w) : List ℕ :=
  BitVec.scanned (fun x => (bsf x).toNat) rounds mask

/-- They are the members of the mask, each once and in ascending order. -/
structure VisitsMembers {w : ℕ} (order : List ℕ) (mask : BitVec w) : Prop where
  ascending : order.Pairwise (· < ·)
  mem_iff : ∀ i, i ∈ order ↔ mask.getLsbD i = true

section Loops

variable {hy : HybridRodata} {allowedCpu : Cpu → Bool} {best : Candidates} {allowed : τ → Bool}
  {s : DispatchState τ} {w : ℕ}

/-- The scan tries the CPUs its loop visits. -/
theorem hybridScanBy_eq_search (bsf : U64 → U32) (rounds : ℕ) (mask : U64) :
    hybridScanBy bsf hy allowedCpu rounds mask best
      = hybridSearch hy allowedCpu ((visited bsf rounds mask).map (Fin.ofNat 64)) best := by
  induction rounds generalizing mask best with
  | zero => rfl
  | succ rounds ih =>
    rw [hybridScanBy, visited, BitVec.scanned]
    by_cases hzero : mask = 0
    · rw [if_pos hzero, if_pos (show mask = 0#64 from hzero)]
      rfl
    · rw [if_neg hzero, if_neg (show mask ≠ 0#64 from hzero), List.map_cons, hybridSearch]
      simp only [ih, visited]

/-- The dispatch tries the queues its loop visits. -/
theorem stealLoopBy_eq_probeAll (bsf : U32 → U32) (rounds : ℕ) (mask : U32) :
    stealLoopBy bsf allowed rounds mask s
      = probeAll allowed ((visited bsf rounds mask).map (Fin.ofNat 8)) s := by
  induction rounds generalizing mask s with
  | zero => rfl
  | succ rounds ih =>
    rw [stealLoopBy, visited, BitVec.scanned]
    by_cases hzero : mask = 0
    · rw [if_pos hzero, if_pos (show mask = 0#32 from hzero)]
      rfl
    · rw [if_neg hzero, if_neg (show mask ≠ 0#32 from hzero), List.map_cons, probeAll]
      simp only [ih, visited]

theorem builtinCtz_toNat {mask : BitVec w} (hw : w ≤ 2 ^ 32) (h : mask ≠ 0#w) :
    (builtinCtz mask).toNat = mask.scanForward := by
  rw [builtinCtz, BitVec.toNat_ofNat]
  exact Nat.mod_eq_of_lt ((BitVec.scanForward_lt h).trans_le hw)

/-- With the builtin the loops are those of the other modules. -/
theorem hybridScanBy_builtin (rounds : ℕ) (mask : U64) :
    hybridScanBy builtinCtz hy allowedCpu rounds mask best
      = hybridScan hy allowedCpu rounds mask best := by
  induction rounds generalizing mask best with
  | zero => rfl
  | succ rounds ih =>
    rw [hybridScanBy, hybridScan]
    by_cases hzero : mask = 0
    · rw [if_pos hzero, if_pos hzero]
    · rw [if_neg hzero, if_neg hzero]
      simp only [builtinCtz_toNat (by decide) hzero, ih]

theorem stealLoopBy_builtin (rounds : ℕ) (mask : U32) :
    stealLoopBy builtinCtz allowed rounds mask s = stealLoop allowed rounds mask s := by
  induction rounds generalizing mask s with
  | zero => rfl
  | succ rounds ih =>
    rw [stealLoopBy, stealLoop]
    by_cases hzero : mask = 0
    · rw [if_pos hzero, if_pos hzero]
    · rw [if_neg hzero, if_neg hzero]
      simp only [builtinCtz_toNat (by decide) hzero, ih]

/-- A scan that finds the lowest member visits what the builtin visits. -/
theorem visited_congr {bsf bsf' : BitVec w → U32}
    (h : ∀ x ≠ 0#w, (bsf x).toNat = x.scanForward)
    (h' : ∀ x ≠ 0#w, (bsf' x).toNat = x.scanForward) (rounds : ℕ) (mask : BitVec w) :
    visited bsf rounds mask = visited bsf' rounds mask :=
  BitVec.scanned_congr (fun x hx => (h x hx).trans (h' x hx).symm) rounds mask

theorem visitsMembers_of_scan {bsf : BitVec w → U32}
    (h : ∀ x ≠ 0#w, (bsf x).toNat = x.scanForward) {rounds : ℕ} {mask : BitVec w}
    (hrounds : mask.members.length ≤ rounds) : VisitsMembers (visited bsf rounds mask) mask := by
  have hmembers : visited bsf rounds mask = mask.members := by
    rw [visited, BitVec.scanned_congr h, BitVec.scanned_eq_members hrounds]
  rw [hmembers]
  exact ⟨BitVec.pairwise_members mask, fun i => BitVec.mem_members⟩

end Loops

/-- **The fallback is the builtin.** For masks that are not empty the lookups find the lowest
member. So the two loops do what they do with the builtin, visiting the members of their mask one
after the other until they stop: 64 rounds are enough for any mask of CPUs, and as many rounds as
there are LLCs for any mask of LLCs. -/
theorem bitScan_fallback (hy : HybridRodata) (allowedCpu : Cpu → Bool) (allowed : τ → Bool) :
    (∀ mask : U64, mask ≠ 0 → IsLeast {i | mask.getLsbD i = true}
      (imperatorCtz64 mask 0x022FDD63CC95386D).toNat) ∧
    (∀ mask : U32, mask ≠ 0 → IsLeast {i | mask.getLsbD i = true} (imperatorCtz32 mask).toNat) ∧
    (∀ (mask : U64) (best : Candidates),
      hybridScanBy bitScanForwardU64 hy allowedCpu 64 mask best
          = hybridScan hy allowedCpu 64 mask best ∧
        hybridScanBy bitScanForwardU64 hy allowedCpu 64 mask best
          = hybridSearch hy allowedCpu
              ((visited bitScanForwardU64 64 mask).map (Fin.ofNat 64)) best ∧
        VisitsMembers (visited bitScanForwardU64 64 mask) mask) ∧
    (∀ (nrLlcs : ℕ) (mask : U32) (s : DispatchState τ), (∀ i, mask.getLsbD i = true → i < nrLlcs) →
      stealLoopBy bitScanForwardU32 allowed nrLlcs mask s = stealLoop allowed nrLlcs mask s ∧
        stealLoopBy bitScanForwardU32 allowed nrLlcs mask s
          = probeAll allowed ((visited bitScanForwardU32 nrLlcs mask).map (Fin.ofNat 8)) s ∧
        VisitsMembers (visited bitScanForwardU32 nrLlcs mask) mask) := by
  refine ⟨?_, ?_, ?_, ?_⟩
  · intro mask hne
    have hscan := bitScanForwardU64_eq mask hne
    rw [bitScanForwardU64] at hscan
    exact hscan ▸ BitVec.isLeast_scanForward hne
  · intro mask hne
    have hscan := bitScanForwardU32_eq mask hne
    rw [bitScanForwardU32] at hscan
    exact hscan ▸ BitVec.isLeast_scanForward hne
  · intro mask best
    have hvisited : visited bitScanForwardU64 64 mask = visited builtinCtz 64 mask :=
      visited_congr bitScanForwardU64_eq (fun x hx => builtinCtz_toNat (by decide) hx) 64 mask
    refine ⟨?_, hybridScanBy_eq_search _ 64 mask, ?_⟩
    · rw [hybridScanBy_eq_search, hvisited, ← hybridScanBy_eq_search, hybridScanBy_builtin]
    · exact visitsMembers_of_scan bitScanForwardU64_eq (BitVec.length_members_le mask)
  · intro nrLlcs mask s hbelow
    have hvisited : visited bitScanForwardU32 nrLlcs mask = visited builtinCtz nrLlcs mask :=
      visited_congr bitScanForwardU32_eq (fun x hx => builtinCtz_toNat (by decide) hx) nrLlcs mask
    refine ⟨?_, stealLoopBy_eq_probeAll _ nrLlcs mask, ?_⟩
    · rw [stealLoopBy_eq_probeAll, hvisited, ← stealLoopBy_eq_probeAll, stealLoopBy_builtin]
    · exact visitsMembers_of_scan bitScanForwardU32_eq (BitVec.length_members_le_of_lt hbelow)

/-- The masks of CPUs 4 and 6, and of LLCs 4 and 6 out of eight. -/
theorem bitScan_fallback_two :
    IsLeast {i | (0x50 : U64).getLsbD i = true}
        (imperatorCtz64 0x50 0x022FDD63CC95386D).toNat ∧
      IsLeast {i | (0x50 : U32).getLsbD i = true} (imperatorCtz32 0x50).toNat ∧
      VisitsMembers (visited bitScanForwardU32 8 (0x50 : U32)) (0x50 : U32) := by
  have hbelow : ∀ i : Fin 32, (0x50 : U32).getLsbD i = true → i.val < 8 := by decide
  obtain ⟨h64, h32, -, hsteal⟩ := bitScan_fallback noHybrid (fun _ => true)
    (fun _ : ℕ => true)
  refine ⟨h64 _ (by decide), h32 _ (by decide), ?_⟩
  exact (hsteal 8 0x50 ⟨fun _ => [], fun _ => 0, none, []⟩ fun i hi =>
    hbelow ⟨i, BitVec.lt_of_getLsbD hi⟩ hi).2.2

end Imperator
