import Mathlib.Data.List.ProdSigma
import Mathlib.Data.Rat.Floor
import Mathlib.Tactic.IntervalCases
import Mathlib.Tactic.Linarith
import Imperator.Calibration
import Imperator.PairSelection
import Imperator.ForMathlib.SentinelMin

/-!
# The costs of stealing

Once the latencies are measured, `try_write_etd_costs` makes one byte for each two LLCs out of them:
the smallest latency that was found between a CPU of the one and a CPU of the other, in units of
four nanoseconds and at most 255. Zero means that nothing is known, and the dispatch then does not
prefer the LLC. So a measured latency must not become zero, however small it is, and it does not.

The minimum starts at the largest value a float has. It is the sentinel as well: a latency of just
that value is taken for none. Nothing else is lost, whichever entries were measured and however the
CPUs are numbered.

## Main definitions

* `tryWriteEtdCosts` — the function, with the lock and the map as arguments
* `latenciesBetween` — the positive entries between two LLCs
* `EtdCosts` — a table that says what they are

## Main results

* `minNs_eq`, `isLeast_minLatency` — the loop finds their minimum
* `writeEtdCosts_eq` — all entries of the table
* `etd_costs_spec` — every topology and every matrix
* `mem_latenciesBetween_detect` — on a machine without gaps they are about its LLCs
* `calibrated_costs` — and all known, whatever was measured
-/

namespace Imperator

/-! ### Writing the table -/

/-- `f64::MAX` -/
def f64Max : ℚ := (2 ^ 53 - 1) * 2 ^ 971

/-- `nr_llcs`: the sets that are not empty, at most `MAX_LLCS`. -/
def etdLlcCount (info : TopologyInfo) : ℕ :=
  min ((List.finRange 8).countP fun l => info.llcCpuMask l ≠ 0) 8

/-- The CPUs below `nr_cpus` with the number of an LLC. -/
def cpusOfLlc (info : TopologyInfo) (nrCpus : ℕ) (llc : Llc) : List Cpu :=
  (List.finRange 64).filter fun c => c.val < nrCpus ∧ (info.cpuLlcId c).toNat = llc.val

/-- `min_ns`, without a value where an entry is out of range. -/
def minNs (info : TopologyInfo) (matrix : List (List ℚ)) (llcA llcB : Llc) : Option ℚ :=
  let nrCpus := min matrix.length 64
  let pairs := cpusOfLlc info nrCpus llcA ×ˢ cpusOfLlc info nrCpus llcB
  (pairs.mapM fun p => getEntry matrix p.1 p.2).map fun entries =>
    (entries.filter (0 < ·)).foldl min f64Max

/-- `cost`. The conversion to `u64` drops the fraction and saturates. -/
def etdCost (minNs : ℚ) : U8 :=
  if minNs = f64Max then 0
  else BitVec.ofNat 8 (max (min (min ⌊minNs / 4⌋₊ (2 ^ 64 - 1)) 255) 1)

/-- The body of the loop over two LLCs. -/
def writeEtdCost (info : TopologyInfo) (matrix : List (List ℚ)) (table : Llc → Llc → U8)
    (llcs : Llc × Llc) : Option (Llc → Llc → U8) :=
  if llcs.1 = llcs.2 then some table
  else (minNs info matrix llcs.1 llcs.2).map fun m =>
    Function.update table llcs.1 (Function.update (table llcs.1) llcs.2 (etdCost m))

/-- The loop over all of them. -/
def writeEtdCosts (info : TopologyInfo) (matrix : List (List ℚ)) (table : Llc → Llc → U8) :
    Option (Llc → Llc → U8) :=
  let llcs := (List.finRange 8).filter fun l => l.val < etdLlcCount info
  (llcs ×ˢ llcs).foldlM (writeEtdCost info matrix) table

/-- `try_write_etd_costs`. The matrix is missing while the lock is held elsewhere; `bss` is
`llc_etd_cost` in `bss_data`, if the skeleton has that map. The result is what is returned, with the
table afterwards, or nothing where an access is out of range. -/
def tryWriteEtdCosts (info : TopologyInfo) (latencyMatrix : Option (List (List ℚ)))
    (bss : Option (Llc → Llc → U8)) : Option (Bool × Option (Llc → Llc → U8)) :=
  match latencyMatrix with
  | none => some (false, bss)
  | some matrix =>
    if matrix.flatten.any (0 < ·) then
      match bss with
      | none => some (true, none)
      | some table => (writeEtdCosts info matrix table).map fun table => (true, some table)
    else some (false, bss)

/-! ### What the costs are of -/

/-- The positive entries between a CPU of one LLC and a CPU of another. -/
def latenciesBetween (info : TopologyInfo) (matrix : List (List ℚ)) (llcA llcB : Llc) : Set ℚ :=
  {v | 0 < v ∧ ∃ ca cb : Cpu, (info.cpuLlcId ca).toNat = llcA.val ∧
    (info.cpuLlcId cb).toNat = llcB.val ∧ getEntry matrix ca cb = some v}

/-- Two LLCs the table has an entry for. -/
def HasEtdCost (info : TopologyInfo) (llcA llcB : Llc) : Prop :=
  llcA ≠ llcB ∧ llcA.val < etdLlcCount info ∧ llcB.val < etdLlcCount info

instance (info : TopologyInfo) (llcA llcB : Llc) : Decidable (HasEtdCost info llcA llcB) :=
  inferInstanceAs (Decidable (_ ∧ _ ∧ _))

/-- A table of the costs: zero where nothing was measured, and otherwise a quarter of the smallest
latency, from 1 to 255; the same in both directions, and in the order of the latencies. -/
structure EtdCosts (info : TopologyInfo) (matrix : List (List ℚ)) (table : Llc → Llc → U8) :
    Prop where
  unknown : ∀ {a b}, HasEtdCost info a b →
    (table a b = 0 ↔ ∀ v ∈ latenciesBetween info matrix a b, f64Max ≤ v)
  measured : ∀ {a b}, HasEtdCost info a b → (∃ v ∈ latenciesBetween info matrix a b, v < f64Max) →
    ∃ m, IsLeast (latenciesBetween info matrix a b) m ∧
      (table a b).toNat = max 1 (min 255 ⌊m / 4⌋₊)
  symm : ∀ {a b}, HasEtdCost info a b → table b a = table a b
  mono : ∀ {a b c d m m'}, HasEtdCost info a b → HasEtdCost info c d →
    IsLeast (latenciesBetween info matrix a b) m → IsLeast (latenciesBetween info matrix c d) m' →
    m ≤ m' → m' < f64Max → table a b ≤ table c d

/-! ### One cost -/

section Cost

variable {m m' : ℚ}

theorem lt_f64Max (h : m < 2 ^ 53 - 1) : m < f64Max :=
  h.trans_le (le_mul_of_one_le_right (by norm_num) (one_le_pow₀ (by norm_num)))

theorem etdCost_f64Max : etdCost f64Max = 0 := if_pos rfl

/-- A latency below the sentinel is known. -/
theorem toNat_etdCost (h : m ≠ f64Max) : (etdCost m).toNat = max 1 (min 255 ⌊m / 4⌋₊) := by
  rw [etdCost, if_neg h, BitVec.toNat_ofNat]
  omega

theorem etdCost_eq_zero_iff : etdCost m = 0 ↔ m = f64Max := by
  refine ⟨fun hzero => ?_, fun h => h ▸ etdCost_f64Max⟩
  by_contra hne
  have hcost := toNat_etdCost hne
  rw [hzero] at hcost
  change 0 = _ at hcost
  omega

/-- A larger latency is not cheaper. -/
theorem etdCost_le_etdCost (hle : m ≤ m') (h : m' < f64Max) : etdCost m ≤ etdCost m' := by
  rw [BitVec.le_def, toNat_etdCost (hle.trans_lt h).ne, toNat_etdCost h.ne]
  have hfloor : ⌊m / 4⌋₊ ≤ ⌊m' / 4⌋₊ := Nat.floor_mono (by linarith)
  omega

end Cost

/-! ### One minimum -/

section Minimum

variable {info : TopologyInfo} {matrix : List (List ℚ)} {n : ℕ} {llcA llcB : Llc} {m v : ℚ}

theorem mem_cpusOfLlc {c : Cpu} {nrCpus : ℕ} :
    c ∈ cpusOfLlc info nrCpus llcA ↔ c.val < nrCpus ∧ (info.cpuLlcId c).toNat = llcA.val := by
  simp [cpusOfLlc]

/-- The entries that are looked at. -/
def entriesBetween (info : TopologyInfo) (matrix : List (List ℚ)) (llcA llcB : Llc) : List ℚ :=
  let nrCpus := min matrix.length 64
  (cpusOfLlc info nrCpus llcA ×ˢ cpusOfLlc info nrCpus llcB).map fun p => entryAt matrix p.1 p.2

/-- In range all of them can be looked at. -/
theorem mapM_getEntry (h : IsSquare n matrix) {pairs : List (Cpu × Cpu)}
    (hpairs : ∀ p ∈ pairs, p.1.val < n ∧ p.2.val < n) :
    (pairs.mapM fun p => getEntry matrix p.1 p.2)
      = some (pairs.map fun p => entryAt matrix p.1 p.2) := by
  induction pairs with
  | nil => rfl
  | cons p pairs ih =>
    obtain ⟨hp, hlater⟩ := List.forall_mem_cons.mp hpairs
    rw [List.mapM_cons, getEntry_eq_some h hp.1 hp.2, ih hlater]
    rfl

/-- The minimum of those that are positive, from the sentinel. -/
def minLatency (info : TopologyInfo) (matrix : List (List ℚ)) (llcA llcB : Llc) : ℚ :=
  ((entriesBetween info matrix llcA llcB).filter (0 < ·)).foldl min f64Max

/-- **The loop finds the minimum**, and no access is out of range. -/
theorem minNs_eq (h : IsSquare n matrix) (llcA llcB : Llc) :
    minNs info matrix llcA llcB = some (minLatency info matrix llcA llcB) := by
  rw [minNs, minLatency, entriesBetween, mapM_getEntry h, Option.map_some]
  rintro ⟨ca, cb⟩ hmem
  obtain ⟨hca, hcb⟩ := List.mem_product.mp hmem
  have hltA := (mem_cpusOfLlc.mp hca).1
  have hltB := (mem_cpusOfLlc.mp hcb).1
  rw [h.1] at hltA hltB
  exact ⟨hltA.trans_le (min_le_left _ _), hltB.trans_le (min_le_left _ _)⟩

/-- They are the positive entries between the LLCs. -/
theorem mem_filter_entriesBetween (h : IsSquare n matrix) :
    v ∈ (entriesBetween info matrix llcA llcB).filter (0 < ·)
      ↔ v ∈ latenciesBetween info matrix llcA llcB := by
  rw [List.mem_filter, entriesBetween, List.mem_map, latenciesBetween, Set.mem_ofPred_eq,
    decide_eq_true_iff, and_comm]
  refine and_congr_right fun _ => ⟨?_, ?_⟩
  · rintro ⟨⟨ca, cb⟩, hmem, rfl⟩
    obtain ⟨hca, hcb⟩ := List.mem_product.mp hmem
    obtain ⟨hltA, hidA⟩ := mem_cpusOfLlc.mp hca
    obtain ⟨hltB, hidB⟩ := mem_cpusOfLlc.mp hcb
    rw [h.1] at hltA hltB
    exact ⟨ca, cb, hidA, hidB, getEntry_eq_some h (by omega) (by omega)⟩
  · rintro ⟨ca, cb, hidA, hidB, hget⟩
    obtain ⟨hltA, hltB⟩ := lt_of_getEntry h hget
    rw [← h.1] at hltA hltB
    have hA := ca.isLt
    have hB := cb.isLt
    refine ⟨(ca, cb), List.mem_product.mpr ⟨mem_cpusOfLlc.mpr ⟨by omega, hidA⟩,
      mem_cpusOfLlc.mpr ⟨by omega, hidB⟩⟩, ?_⟩
    rw [entryAt, hget, Option.getD_some]

/-- So the minimum is that of the latencies, if there is one below the sentinel. -/
theorem isLeast_minLatency (h : IsSquare n matrix)
    (hne : minLatency info matrix llcA llcB ≠ f64Max) :
    IsLeast (latenciesBetween info matrix llcA llcB) (minLatency info matrix llcA llcB) := by
  obtain ⟨hmem, hle⟩ := List.isLeast_foldl_min hne
  exact ⟨(mem_filter_entriesBetween h).mp hmem,
    fun v hv => hle ((mem_filter_entriesBetween h).mpr hv)⟩

theorem le_minLatency_iff (h : IsSquare n matrix) : v ≤ minLatency info matrix llcA llcB ↔
    v ≤ f64Max ∧ ∀ w ∈ latenciesBetween info matrix llcA llcB, v ≤ w := by
  rw [minLatency, List.le_foldl_min_iff]
  exact and_congr_right' (forall_congr' fun w => imp_congr_left (mem_filter_entriesBetween h))

theorem minLatency_eq_f64Max_iff (h : IsSquare n matrix) :
    minLatency info matrix llcA llcB = f64Max ↔
      ∀ v ∈ latenciesBetween info matrix llcA llcB, f64Max ≤ v := by
  rw [minLatency, List.foldl_min_eq_sentinel_iff]
  exact forall_congr' fun v => imp_congr_left (mem_filter_entriesBetween h)

/-- Below the sentinel a least latency is what the loop finds. -/
theorem minLatency_eq_of_isLeast (h : IsSquare n matrix)
    (hleast : IsLeast (latenciesBetween info matrix llcA llcB) m) (hlt : m < f64Max) :
    minLatency info matrix llcA llcB = m := by
  refine (isLeast_minLatency h fun hmax => ?_).unique hleast
  exact ((minLatency_eq_f64Max_iff h).mp hmax m hleast.1).not_gt hlt

/-- In a symmetric matrix both directions have the same latencies. -/
theorem latenciesBetween_comm (h : IsSquare n matrix) (hsymm : IsSymmetric n matrix) :
    latenciesBetween info matrix llcB llcA = latenciesBetween info matrix llcA llcB := by
  have hsub : ∀ llcA llcB, latenciesBetween info matrix llcB llcA
      ⊆ latenciesBetween info matrix llcA llcB := by
    rintro llcA llcB v ⟨hpos, cb, ca, hidB, hidA, hget⟩
    obtain ⟨hltB, hltA⟩ := lt_of_getEntry h hget
    exact ⟨hpos, ca, cb, hidA, hidB, (hsymm ca hltA cb hltB).trans hget⟩
  exact (hsub llcA llcB).antisymm (hsub llcB llcA)

theorem minLatency_comm (h : IsSquare n matrix) (hsymm : IsSymmetric n matrix) :
    minLatency info matrix llcB llcA = minLatency info matrix llcA llcB := by
  refine eq_of_forall_le_iff fun v => ?_
  rw [le_minLatency_iff h, le_minLatency_iff h, latenciesBetween_comm h hsymm]

end Minimum

/-! ### The table -/

section Table

variable {info : TopologyInfo} {matrix : List (List ℚ)} {n : ℕ} {a b : Llc}

theorem writeEtdCost_eq (h : IsSquare n matrix) (table : Llc → Llc → U8) (p : Llc × Llc) :
    writeEtdCost info matrix table p = some fun a b =>
      if a ≠ b ∧ (a, b) = p then etdCost (minLatency info matrix a b) else table a b := by
  obtain ⟨pa, pb⟩ := p
  rw [writeEtdCost]
  split
  · next heq =>
    refine congrArg some (funext fun a => funext fun b => (if_neg ?_).symm)
    rintro ⟨hne, hp⟩
    cases hp
    exact hne heq
  · next hne =>
    rw [minNs_eq h, Option.map_some]
    refine congrArg some (funext fun a => funext fun b => ?_)
    by_cases ha : a = pa
    · subst ha
      rw [Function.update_self]
      by_cases hb : b = pb
      · subst hb
        rw [Function.update_self, if_pos ⟨hne, rfl⟩]
      · rw [Function.update_of_ne hb, if_neg (by simp [hb])]
    · rw [Function.update_of_ne ha, if_neg (by simp [ha])]

/-- The loop writes the costs of the pairs it goes through, and nothing else. -/
theorem foldlM_writeEtdCost (h : IsSquare n matrix) (llcs : List (Llc × Llc))
    (table : Llc → Llc → U8) :
    llcs.foldlM (writeEtdCost info matrix) table = some fun a b =>
      if a ≠ b ∧ (a, b) ∈ llcs then etdCost (minLatency info matrix a b) else table a b := by
  induction llcs generalizing table with
  | nil => simp
  | cons p llcs ih =>
    rw [List.foldlM_cons, writeEtdCost_eq h, Option.bind_eq_bind, Option.bind_some, ih]
    refine congrArg some (funext fun a => funext fun b => ?_)
    by_cases hne : a = b
    · simp [hne]
    · by_cases hp : (a, b) = p <;> by_cases hmem : (a, b) ∈ llcs <;> simp [hne, hp, hmem]

/-- **All entries of the table.** -/
theorem writeEtdCosts_eq (h : IsSquare n matrix) (table : Llc → Llc → U8) :
    writeEtdCosts info matrix table = some fun a b =>
      if HasEtdCost info a b then etdCost (minLatency info matrix a b) else table a b := by
  rw [writeEtdCosts, foldlM_writeEtdCost h]
  refine congrArg some (funext fun a => funext fun b => if_congr ?_ rfl rfl)
  simp [HasEtdCost, List.mem_product]

theorem etdCosts_writeEtdCosts (h : IsSquare n matrix) (hsymm : IsSymmetric n matrix)
    {table : Llc → Llc → U8}
    (htable : ∀ {a b}, HasEtdCost info a b → table a b = etdCost (minLatency info matrix a b)) :
    EtdCosts info matrix table where
  unknown := fun hcost => by
    rw [htable hcost, etdCost_eq_zero_iff, minLatency_eq_f64Max_iff h]
  measured := by
    rintro a b hcost ⟨v, hv, hlt⟩
    have hne : minLatency info matrix a b ≠ f64Max := fun hmax =>
      ((minLatency_eq_f64Max_iff h).mp hmax v hv).not_gt hlt
    exact ⟨_, isLeast_minLatency h hne, by rw [htable hcost, toNat_etdCost hne]⟩
  symm := fun hcost => by
    rw [htable hcost, htable ⟨hcost.1.symm, hcost.2.2, hcost.2.1⟩, minLatency_comm h hsymm]
  mono := fun hcost hcost' hleast hleast' hle hlt => by
    rw [htable hcost, htable hcost', minLatency_eq_of_isLeast h hleast (hle.trans_lt hlt),
      minLatency_eq_of_isLeast h hleast' hlt]
    exact etdCost_le_etdCost hle hlt

theorem tryWriteEtdCosts_eq (h : IsSquare n matrix) (hpos : ∃ row ∈ matrix, ∃ v ∈ row, 0 < v)
    (old : Llc → Llc → U8) :
    tryWriteEtdCosts info (some matrix) (some old) = some (true, some fun a b =>
      if HasEtdCost info a b then etdCost (minLatency info matrix a b) else old a b) := by
  have hany : matrix.flatten.any (0 < ·) = true := by simpa using hpos
  rw [tryWriteEtdCosts, if_pos hany, writeEtdCosts_eq h, Option.map_some]

end Table

/-- **The costs.** For every topology and every symmetric square matrix with a positive entry, the
table says for any two LLCs below their number what the smallest latency between them is, or zero if
there is none below the largest float. The other entries are left alone. -/
theorem etd_costs_spec (info : TopologyInfo) {n : ℕ} (matrix : List (List ℚ))
    (old : Llc → Llc → U8) (h : IsSquare n matrix) (hsymm : IsSymmetric n matrix)
    (hpos : ∃ row ∈ matrix, ∃ v ∈ row, 0 < v) :
    ∃ table, tryWriteEtdCosts info (some matrix) (some old) = some (true, some table) ∧
      EtdCosts info matrix table ∧ ∀ a b, ¬ HasEtdCost info a b → table a b = old a b :=
  ⟨_, tryWriteEtdCosts_eq h hpos old, etdCosts_writeEtdCosts h hsymm fun hcost => if_pos hcost,
    fun _ _ hcost => if_neg hcost⟩

/-- Where the ids have no gaps, the CPUs with the number of an LLC are those it has. So the costs
are about the LLCs of the machine. -/
theorem mem_latenciesBetween_detect {topo : Topology} {matrix : List (List ℚ)} {llcA llcB : Llc}
    {v : ℚ} (hcontiguous : topo.Contiguous) (hllcs : topo.allLlcs.length ≤ 8)
    (h : IsSquare topo.allCpus.length matrix) :
    v ∈ latenciesBetween (detect topo) matrix llcA llcB ↔ 0 < v ∧ ∃ ca cb : Cpu,
      ca.val ∈ topo.llc llcA ∧ cb.val ∈ topo.llc llcB ∧ getEntry matrix ca cb = some v := by
  have hid : ∀ {c : Cpu} {llc : Llc}, c.val < topo.allCpus.length →
      (((detect topo).cpuLlcId c).toNat = llc.val ↔ c.val ∈ topo.llc llc) := by
    intro c llc hc
    obtain ⟨i, hi⟩ := Topology.mem_allCpus_iff.mp (hcontiguous.mem_iff.mpr hc)
    have hlt : i < 8 := (Topology.lt_length_of_mem_llc hi).trans_le hllcs
    have hnumber : ((detect topo).cpuLlcId c).toNat = i := by
      rw [detect_cpuLlcId_of_mem (l := ⟨i, hlt⟩) hi, BitVec.toNat_ofNat]
      exact Nat.mod_eq_of_lt (hlt.trans (by decide))
    rw [hnumber]
    exact ⟨fun heq => heq ▸ hi, Topology.llc_unique hi⟩
  refine and_congr_right fun _ => exists_congr fun ca => exists_congr fun cb => ?_
  constructor
  · rintro ⟨hA, hB, hget⟩
    obtain ⟨hltA, hltB⟩ := lt_of_getEntry h hget
    exact ⟨(hid hltA).mp hA, (hid hltB).mp hB, hget⟩
  · rintro ⟨hA, hB, hget⟩
    obtain ⟨hltA, hltB⟩ := lt_of_getEntry h hget
    exact ⟨(hid hltA).mpr hA, (hid hltB).mpr hB, hget⟩

/-- Calibrated pairs leave a latency between any two LLCs that have CPUs. -/
theorem exists_latencyBetween {topo : Topology} {matrix : List (List ℚ)} {l l' : Llc}
    (hcontiguous : topo.Contiguous) (hllcs : topo.allLlcs.length ≤ 8)
    (h : Calibrated (fun v => 0 ≤ v ∧ v < f64Max) topo.allCpus.length
      (selectEtdPairs (detect topo)) matrix)
    (hne : l ≠ l') (hl : topo.Populated l) (hl' : topo.Populated l') :
    ∃ v ∈ latenciesBetween (detect topo) matrix l l', v < f64Max := by
  obtain ⟨c, hc, c', hc', hpair⟩ := exists_pair_between (llcsDisjoint_detect topo) hne
    (detect_llcCpuMask_ne_zero_iff.mpr hl) (detect_llcCpuMask_ne_zero_iff.mpr hl')
  rw [BitVec.mem_members] at hc hc'
  let ca : Cpu := ⟨c, BitVec.lt_of_getLsbD hc⟩
  let cb : Cpu := ⟨c', BitVec.lt_of_getLsbD hc'⟩
  have hmemA : ca.val ∈ topo.llc l := mem_detect_llcCpuMask.mp hc
  have hmemB : cb.val ∈ topo.llc l' := mem_detect_llcCpuMask.mp hc'
  have hltA : c < topo.allCpus.length := hcontiguous _ (Topology.mem_allCpus_iff.mpr ⟨l, hmemA⟩)
  have hltB : c' < topo.allCpus.length := hcontiguous _ (Topology.mem_allCpus_iff.mpr ⟨l', hmemB⟩)
  obtain ⟨hnonneg, hlt⟩ := h.values hltA hltB
  have hpos := lt_of_le_of_ne hnonneg ((h.listed hltA hltB).mpr hpair).symm
  exact ⟨_, (mem_latenciesBetween_detect hcontiguous hllcs h.square).mpr
    ⟨hpos, ca, cb, hmemA, hmemB, getEntry_eq_some h.square hltA hltB⟩, hlt⟩

/-- **From the pairs to the costs.** On a machine without gaps and with up to eight LLCs, whatever
the calibration measures, and however often it fails, the cost of every LLC with CPUs is known to
every other one. -/
theorem calibrated_costs {topo : Topology} {outcome : ℕ → Option Samples} (maxStddev : ℚ)
    (old : Llc → Llc → U8) (hcontiguous : topo.Contiguous) (hllcs : topo.allLlcs.length ≤ 8)
    (hmedian : ∀ k samples, outcome k = some samples → samples.median < f64Max)
    (hmany : ∃ l l', l ≠ l' ∧ topo.Populated l ∧ topo.Populated l') :
    ∃ st table, runCalibratePairs (detect topo).nrCpus (selectEtdPairs (detect topo)) maxStddev
        outcome = some st ∧
      tryWriteEtdCosts (detect topo) (some st.matrix) (some old) = some (true, some table) ∧
      ∀ l l', HasEtdCost (detect topo) l l' → topo.Populated l → topo.Populated l' →
        table l l' ≠ 0 := by
  have hfallback : 0 ≤ etdFallbackNs ∧ etdFallbackNs < f64Max :=
    ⟨by norm_num [etdFallbackNs], lt_f64Max (by norm_num [etdFallbackNs])⟩
  obtain ⟨st, log, hrun, hmatrix, -, -⟩ :=
    runCalibratePairs_calibrated (P := fun v => 0 ≤ v ∧ v < f64Max) maxStddev
      ⟨le_rfl, lt_f64Max (by norm_num)⟩ hfallback
      (fun k samples h => ⟨samples.median_nonneg, hmedian k samples h⟩)
      hcontiguous.etdInBounds.pairs
  rw [detect_nrCpus] at hmatrix
  obtain ⟨l, l', hne, hl, hl'⟩ := hmany
  obtain ⟨v, ⟨hpos, ca, cb, -, -, hget⟩, -⟩ :=
    exists_latencyBetween hcontiguous hllcs hmatrix hne hl hl'
  obtain ⟨row, hrow, hv⟩ := mem_of_getEntry hget
  refine ⟨st, _, hrun, tryWriteEtdCosts_eq hmatrix.square ⟨row, hrow, v, hv, hpos⟩ old, ?_⟩
  intro l l' hcost hl hl' hzero
  obtain ⟨v, hv, hlt⟩ := exists_latencyBetween hcontiguous hllcs hmatrix hcost.1 hl hl'
  rw [if_pos hcost, etdCost_eq_zero_iff, minLatency_eq_f64Max_iff hmatrix.square] at hzero
  exact (hzero v hv).not_gt hlt

/-! ### One measured pair -/

/-- Four CPUs, with one pair measured between the two LLCs of two. -/
def onePairMatrix (v : ℚ) : List (List ℚ) :=
  [[0, 0, v, 0], [0, 0, 0, 0], [v, 0, 0, 0], [0, 0, 0, 0]]

section OnePair

variable {v : ℚ}

theorem isSquare_onePair (v : ℚ) : IsSquare 4 (onePairMatrix v) :=
  ⟨rfl, by simp [onePairMatrix]⟩

theorem isSymmetric_onePair (v : ℚ) : IsSymmetric 4 (onePairMatrix v) := by
  intro a ha b hb
  interval_cases a <;> interval_cases b <;> rfl

theorem hasEtdCost_dualCcd : HasEtdCost (detect dualCcd) 0 1 := by decide

/-- The one latency there is. -/
theorem latenciesBetween_onePair (h : 0 < v) :
    latenciesBetween (detect dualCcd) (onePairMatrix v) 0 1 = {v} := by
  refine Set.eq_singleton_iff_unique_mem.mpr ⟨⟨h, 0, 2, by decide, by decide, rfl⟩, ?_⟩
  rintro w ⟨hpos, ca, cb, -, -, hget⟩
  obtain ⟨row, hrow, hw⟩ := mem_of_getEntry hget
  have hall : ∀ row ∈ onePairMatrix v, ∀ w ∈ row, w = 0 ∨ w = v := by simp [onePairMatrix]
  exact (hall row hrow w hw).resolve_left hpos.ne'

/-- 100 ns cost 25. -/
theorem dualCcd_etdCost : ∃ table,
    tryWriteEtdCosts (detect dualCcd) (some (onePairMatrix 100)) (some fun _ _ => 0)
      = some (true, some table) ∧ (table 0 1).toNat = 25 := by
  obtain ⟨table, hwrite, hcosts, -⟩ := etd_costs_spec (detect dualCcd) (onePairMatrix 100)
    (fun _ _ => 0) (isSquare_onePair 100) (isSymmetric_onePair 100)
    ⟨_, List.mem_cons_self, 100, by simp, by norm_num⟩
  obtain ⟨m, hleast, hcost⟩ := hcosts.measured hasEtdCost_dualCcd
    ⟨100, by rw [latenciesBetween_onePair (by norm_num)]; rfl, lt_f64Max (by norm_num)⟩
  rw [latenciesBetween_onePair (by norm_num)] at hleast
  obtain rfl := hleast.unique isLeast_singleton
  exact ⟨table, hwrite, hcost.trans (by norm_num)⟩

/-- **The largest float** between two LLCs is a positive entry, and its cost is zero. -/
theorem f64Max_costs_nothing : IsSquare 4 (onePairMatrix f64Max) ∧
    IsSymmetric 4 (onePairMatrix f64Max) ∧
    f64Max ∈ latenciesBetween (detect dualCcd) (onePairMatrix f64Max) 0 1 ∧
    ∃ table, tryWriteEtdCosts (detect dualCcd) (some (onePairMatrix f64Max)) (some fun _ _ => 0)
      = some (true, some table) ∧ HasEtdCost (detect dualCcd) 0 1 ∧ table 0 1 = 0 := by
  have hpos : 0 < f64Max := by norm_num [f64Max]
  have hlatencies := latenciesBetween_onePair hpos
  refine ⟨isSquare_onePair _, isSymmetric_onePair _, by rw [hlatencies]; rfl, _,
    tryWriteEtdCosts_eq (isSquare_onePair _) ⟨_, List.mem_cons_self, f64Max, by simp, hpos⟩ _,
    hasEtdCost_dualCcd, ?_⟩
  rw [if_pos hasEtdCost_dualCcd, etdCost_eq_zero_iff, minLatency_eq_f64Max_iff (isSquare_onePair _),
    hlatencies]
  exact fun w hw => hw.ge

end OnePair

end Imperator
