import Imperator.EtdPairs

/-!
# The pairs between two LLCs

Where the sets of the LLCs share no CPU, a pair tells by its members which two LLCs it was taken
from. So what `select_etd_pairs` returns can be taken apart again, and for any two LLCs that have
CPUs the pairs between them are the ones that were taken there: three, or as many as the smaller of
them has CPUs. They rise from the first CPUs to the last in strict order on both sides, because the
indices are as many as the samples and spread over at least as many CPUs; no CPU is used twice.

## Main definitions

* `pairsBetween` — the pairs with the first member in one set and the second in another
* `SamplesLlcs` — what is asked of them

## Main results

* `spread_lt_spread` — the indices do not repeat
* `pairsBetween_selectEtdPairs` — the pairs between two LLCs are those taken from them
* `select_etd_pairs_spec` — all of it
-/

namespace Imperator

variable {len k i j : ℕ} {cpus cpusA cpusB : List ℕ} {llcs : List (List ℕ)} {info : TopologyInfo}
  {l l' : Llc}

/-! ### Indices -/

/-- **The indices do not repeat**: on at least as many CPUs as samples a step is at least one. -/
theorem spread_lt_spread (hk : k ≤ len) (hij : i < j) (hj : j < k) :
    i * (len - 1) / (k - 1) < j * (len - 1) / (k - 1) := by
  have hpos : 0 < k - 1 := by omega
  have hstep : i * (len - 1) + (k - 1) ≤ j * (len - 1) := by
    calc i * (len - 1) + (k - 1) ≤ i * (len - 1) + (len - 1) := by omega
      _ = (i + 1) * (len - 1) := (Nat.succ_mul i (len - 1)).symm
      _ ≤ j * (len - 1) := Nat.mul_le_mul_right _ hij
  calc i * (len - 1) / (k - 1) < i * (len - 1) / (k - 1) + 1 := Nat.lt_succ_self _
    _ = (i * (len - 1) + (k - 1)) / (k - 1) := (Nat.add_div_right _ hpos).symm
    _ ≤ j * (len - 1) / (k - 1) := Nat.div_le_div_right hstep

theorem getD_lt_getD (hsorted : cpus.Pairwise (· < ·)) (hij : i < j) (hj : j < cpus.length) :
    cpus.getD i 0 < cpus.getD j 0 := by
  rw [List.getD_eq_getElem _ _ (hij.trans hj), List.getD_eq_getElem _ _ hj]
  exact List.pairwise_iff_getElem.mp hsorted i j _ hj hij

/-- So the CPUs rise as well. -/
theorem getD_spread_lt (hsorted : cpus.Pairwise (· < ·)) (hk : k ≤ cpus.length) (hij : i < j)
    (hj : j < k) : cpus.getD (i * (cpus.length - 1) / (k - 1)) 0
      < cpus.getD (j * (cpus.length - 1) / (k - 1)) 0 := by
  refine getD_lt_getD hsorted (spread_lt_spread hk hij hj) ?_
  have hle := spread_le cpus.length hj
  omega

theorem getD_mem (h : i < cpus.length) : cpus.getD i 0 ∈ cpus := by
  rw [List.getD_eq_getElem _ _ h]
  exact List.getElem_mem h

/-! ### What is taken from two LLCs -/

theorem length_samplePairs (cpusA cpusB : List ℕ) :
    (samplePairs cpusA cpusB).length = min 3 (min cpusA.length cpusB.length) := by
  rw [samplePairs_eq, List.length_map, List.length_range, min_assoc]

theorem mem_of_mem_samplePairs {pair : ℕ × ℕ} (h : pair ∈ samplePairs cpusA cpusB) :
    pair.1 ∈ cpusA ∧ pair.2 ∈ cpusB := by
  obtain ⟨i, hi, rfl⟩ := mem_samplePairs.mp h
  have hA := spread_le cpusA.length hi
  have hB := spread_le cpusB.length hi
  exact ⟨getD_mem (by omega), getD_mem (by omega)⟩

/-- **The pairs rise on both sides.** -/
theorem pairwise_samplePairs (hsortedA : cpusA.Pairwise (· < ·))
    (hsortedB : cpusB.Pairwise (· < ·)) :
    (samplePairs cpusA cpusB).Pairwise fun p q => p.1 < q.1 ∧ p.2 < q.2 := by
  rw [samplePairs_eq, List.pairwise_map]
  refine List.pairwise_lt_range.imp_of_mem fun {i j} _ hj hij => ?_
  have hlt := List.mem_range.mp hj
  exact ⟨getD_spread_lt hsortedA (by omega) hij hlt, getD_spread_lt hsortedB (by omega) hij hlt⟩

/-- The first CPUs are a pair. -/
theorem first_mem_samplePairs (hA : cpusA ≠ []) (hB : cpusB ≠ []) :
    (cpusA.getD 0 0, cpusB.getD 0 0) ∈ samplePairs cpusA cpusB := by
  have hposA := List.length_pos_iff.mpr hA
  have hposB := List.length_pos_iff.mpr hB
  exact mem_samplePairs.mpr ⟨0, by omega, by simp⟩

/-- And where there is a second pair, so are the last ones. -/
theorem last_mem_samplePairs (h : 2 ≤ (samplePairs cpusA cpusB).length) :
    (cpusA.getD (cpusA.length - 1) 0, cpusB.getD (cpusB.length - 1) 0)
      ∈ samplePairs cpusA cpusB := by
  rw [length_samplePairs, ← min_assoc] at h
  have hpos : 0 < min (min 3 cpusA.length) cpusB.length - 1 := by omega
  refine mem_samplePairs.mpr ⟨min (min 3 cpusA.length) cpusB.length - 1, by omega, ?_⟩
  rw [Nat.mul_div_cancel_left _ hpos, Nat.mul_div_cancel_left _ hpos]

/-! ### Taking the pairs apart -/

/-- The pairs whose first member is in `cpusA` and whose second is in `cpusB`. -/
def pairsBetween (cpusA cpusB : List ℕ) (pairs : List (ℕ × ℕ)) : List (ℕ × ℕ) :=
  pairs.filter fun pair => pair.1 ∈ cpusA ∧ pair.2 ∈ cpusB

theorem pairsBetween_append (pairs pairs' : List (ℕ × ℕ)) :
    pairsBetween cpusA cpusB (pairs ++ pairs')
      = pairsBetween cpusA cpusB pairs ++ pairsBetween cpusA cpusB pairs' :=
  List.filter_append _ _

theorem pairsBetween_eq_nil {pairs : List (ℕ × ℕ)}
    (h : ∀ pair ∈ pairs, ¬ (pair.1 ∈ cpusA ∧ pair.2 ∈ cpusB)) :
    pairsBetween cpusA cpusB pairs = [] := by
  rw [pairsBetween, List.filter_eq_nil_iff]
  exact fun pair hpair => by simpa using h pair hpair

/-- What is taken from two LLCs is between them. -/
theorem pairsBetween_samplePairs :
    pairsBetween cpusA cpusB (samplePairs cpusA cpusB) = samplePairs cpusA cpusB := by
  rw [pairsBetween, List.filter_eq_self]
  exact fun pair hpair => decide_eq_true (mem_of_mem_samplePairs hpair)

/-- The pairs of one LLC with later ones: those between it and `cpusB` are taken there. -/
theorem pairsBetween_flatMap (cpusA : List ℕ) (hdisjoint : llcs.Pairwise List.Disjoint)
    (hB : cpusB ∈ llcs) :
    pairsBetween cpusA cpusB (llcs.flatMap (samplePairs cpusA)) = samplePairs cpusA cpusB := by
  induction llcs with
  | nil => cases hB
  | cons cpus later ih =>
    obtain ⟨hcpus, hlater⟩ := List.pairwise_cons.mp hdisjoint
    rw [List.flatMap_cons, pairsBetween_append]
    rcases List.mem_cons.mp hB with rfl | hmem
    · rw [pairsBetween_samplePairs, pairsBetween_eq_nil, List.append_nil]
      rintro pair hpair ⟨-, hsecond⟩
      obtain ⟨cpus', hcpus', hpair'⟩ := List.mem_flatMap.mp hpair
      exact hcpus cpus' hcpus' hsecond (mem_of_mem_samplePairs hpair').2
    · rw [pairsBetween_eq_nil, List.nil_append, ih hlater hmem]
      exact fun pair hpair hbetween =>
        hcpus cpusB hmem (mem_of_mem_samplePairs hpair).2 hbetween.2

theorem fst_mem_of_pairsOfLlcs {pair : ℕ × ℕ} (h : pair ∈ pairsOfLlcs llcs) :
    ∃ cpus ∈ llcs, pair.1 ∈ cpus := by
  induction llcs with
  | nil => cases h
  | cons cpusA later ih =>
    rw [pairsOfLlcs, List.mem_append] at h
    rcases h with hfirst | hlater
    · obtain ⟨cpusB, -, hpair⟩ := List.mem_flatMap.mp hfirst
      exact ⟨cpusA, List.mem_cons_self, (mem_of_mem_samplePairs hpair).1⟩
    · obtain ⟨cpus, hcpus, hmem⟩ := ih hlater
      exact ⟨cpus, List.mem_cons_of_mem _ hcpus, hmem⟩

/-- **The pairs between two LLCs are those taken from them.** By the first member no pair of later
LLCs is between the first LLC and another, and no pair of the first LLC is between later ones. -/
theorem pairsBetween_pairsOfLlcs (hdisjoint : llcs.Pairwise List.Disjoint) :
    llcs.Pairwise fun cpusA cpusB =>
      pairsBetween cpusA cpusB (pairsOfLlcs llcs) = samplePairs cpusA cpusB := by
  induction llcs with
  | nil => exact List.Pairwise.nil
  | cons cpus later ih =>
    obtain ⟨hcpus, hlater⟩ := List.pairwise_cons.mp hdisjoint
    refine List.pairwise_cons.mpr ⟨fun cpusB hB => ?_, (ih hlater).imp_of_mem ?_⟩
    · rw [pairsOfLlcs, pairsBetween_append, pairsBetween_flatMap cpus hlater hB,
        pairsBetween_eq_nil, List.append_nil]
      rintro pair hpair ⟨hfirst, -⟩
      obtain ⟨cpus', hcpus', hmem⟩ := fst_mem_of_pairsOfLlcs hpair
      exact hcpus cpus' hcpus' hfirst hmem
    · intro cpusA cpusB hA _ hbetween
      rw [pairsOfLlcs, pairsBetween_append, hbetween, pairsBetween_eq_nil, List.nil_append]
      rintro pair hpair ⟨hfirst, -⟩
      obtain ⟨cpusB', -, hpair'⟩ := List.mem_flatMap.mp hpair
      exact hcpus cpusA hA (mem_of_mem_samplePairs hpair').1 hfirst

/-! ### All LLCs -/

/-- No CPU is in two sets. -/
def LlcsDisjoint (info : TopologyInfo) : Prop :=
  ∀ l l' : Llc, l ≠ l' → info.llcCpuMask l &&& info.llcCpuMask l' = 0#64

/-- The pairs taken between two sets of CPUs: how many, that no CPU is used twice, and that they
reach from the lowest CPUs to the highest ones. -/
structure SamplesLlcs (cpusA cpusB : List ℕ) (pairs : List (ℕ × ℕ)) : Prop where
  count : pairs.length = min 3 (min cpusA.length cpusB.length)
  mem : ∀ pair ∈ pairs, pair.1 ∈ cpusA ∧ pair.2 ∈ cpusB
  firsts : (pairs.map Prod.fst).Nodup
  seconds : (pairs.map Prod.snd).Nodup
  lowest : ∃ pair ∈ pairs, IsLeast {c | c ∈ cpusA} pair.1 ∧ IsLeast {c | c ∈ cpusB} pair.2
  highest : 2 ≤ pairs.length →
    ∃ pair ∈ pairs, IsGreatest {c | c ∈ cpusA} pair.1 ∧ IsGreatest {c | c ∈ cpusB} pair.2

theorem samplesLlcs_samplePairs (hA : cpusA ≠ []) (hB : cpusB ≠ [])
    (hsortedA : cpusA.Pairwise (· < ·)) (hsortedB : cpusB.Pairwise (· < ·)) :
    SamplesLlcs cpusA cpusB (samplePairs cpusA cpusB) where
  count := length_samplePairs cpusA cpusB
  mem := fun _ => mem_of_mem_samplePairs
  firsts := List.pairwise_map.mpr
    ((pairwise_samplePairs hsortedA hsortedB).imp fun h => h.1.ne)
  seconds := List.pairwise_map.mpr
    ((pairwise_samplePairs hsortedA hsortedB).imp fun h => h.2.ne)
  lowest := ⟨_, first_mem_samplePairs hA hB, isLeast_getD hsortedA hA, isLeast_getD hsortedB hB⟩
  highest := fun h => ⟨_, last_mem_samplePairs h, isGreatest_getD hsortedA hA,
    isGreatest_getD hsortedB hB⟩

theorem members_ne_nil_of_ne_zero {x : U64} (h : x ≠ 0) : x.members ≠ [] := by
  rw [BitVec.members_of_ne_zero h]
  exact List.cons_ne_nil _ _

theorem ne_nil_of_mem_llcMembers (h : cpus ∈ llcMembers info) : cpus ≠ [] := by
  obtain ⟨x, hx, rfl⟩ := List.mem_map.mp h
  exact members_ne_nil_of_ne_zero (by simpa using (List.mem_filter.mp hx).2)

theorem length_llcMembers (info : TopologyInfo) :
    (llcMembers info).length = (List.finRange 8).countP fun l => info.llcCpuMask l ≠ 0 := by
  rw [llcMembers, List.length_map, ← List.countP_eq_length_filter, List.countP_map]
  rfl

/-- Two LLCs with CPUs have a pair. -/
theorem selectEtdPairs_eq_nil_iff (info : TopologyInfo) :
    selectEtdPairs info = [] ↔
      ((List.finRange 8).countP fun l => info.llcCpuMask l ≠ 0) < 2 := by
  rw [← length_llcMembers, selectEtdPairs]
  split
  · next hle => exact iff_of_true rfl (Nat.lt_succ_of_le hle)
  · next hgt =>
    refine iff_of_false (fun hnil => ?_) (by omega)
    cases hllcs : llcMembers info with
    | nil => simp [hllcs] at hgt
    | cons cpusA later =>
      cases later with
      | nil => simp [hllcs] at hgt
      | cons cpusB later =>
        have hA : cpusA ≠ [] := ne_nil_of_mem_llcMembers (by rw [hllcs]; exact List.mem_cons_self)
        have hB : cpusB ≠ [] := ne_nil_of_mem_llcMembers
          (by rw [hllcs]; exact List.mem_cons_of_mem _ List.mem_cons_self)
        rw [hllcs, pairsOfLlcs, List.append_eq_nil_iff, List.flatMap_eq_nil_iff] at hnil
        have hempty := hnil.1 cpusB List.mem_cons_self
        exact List.ne_nil_of_mem (first_mem_samplePairs hA hB) hempty

theorem disjoint_members (h : LlcsDisjoint info) (hne : l ≠ l') :
    (info.llcCpuMask l).members.Disjoint (info.llcCpuMask l').members := by
  intro c hc hc'
  rw [BitVec.mem_members] at hc hc'
  have hzero := BitVec.and_eq_zero_iff.mp (h l l' hne) c (BitVec.lt_of_getLsbD hc) hc
  exact Bool.false_ne_true (hzero.symm.trans hc')

theorem pairsBetween_selectEtdPairs (h : LlcsDisjoint info) (hlt : l < l')
    (hl : info.llcCpuMask l ≠ 0) (hl' : info.llcCpuMask l' ≠ 0) :
    pairsBetween (info.llcCpuMask l).members (info.llcCpuMask l').members (selectEtdPairs info)
      = samplePairs (info.llcCpuMask l).members (info.llcCpuMask l').members := by
  rw [selectEtdPairs_eq]
  have hdisjoint : (llcMembers info).Pairwise List.Disjoint :=
    (pairwise_llcMembers info).mpr fun l l' hlt _ _ => disjoint_members h hlt.ne
  exact (pairwise_llcMembers info).mp (pairsBetween_pairsOfLlcs hdisjoint) l l' hlt hl hl'

/-- Any two LLCs with CPUs are connected by a pair. -/
theorem exists_pair_between (h : LlcsDisjoint info) (hne : l ≠ l') (hl : info.llcCpuMask l ≠ 0)
    (hl' : info.llcCpuMask l' ≠ 0) :
    ∃ c ∈ (info.llcCpuMask l).members, ∃ c' ∈ (info.llcCpuMask l').members,
      (c, c') ∈ selectEtdPairs info ∨ (c', c) ∈ selectEtdPairs info := by
  have hfirst : ∀ {l l' : Llc}, l < l' → info.llcCpuMask l ≠ 0 → info.llcCpuMask l' ≠ 0 →
      ∃ c ∈ (info.llcCpuMask l).members, ∃ c' ∈ (info.llcCpuMask l').members,
        (c, c') ∈ selectEtdPairs info := by
    intro l l' hlt hl hl'
    have hmem := first_mem_samplePairs (members_ne_nil_of_ne_zero hl)
      (members_ne_nil_of_ne_zero hl')
    have hbetween := mem_of_mem_samplePairs hmem
    rw [← pairsBetween_selectEtdPairs h hlt hl hl'] at hmem
    exact ⟨_, hbetween.1, _, hbetween.2, (List.mem_filter.mp hmem).1⟩
  rcases lt_or_gt_of_ne hne with hlt | hgt
  · obtain ⟨c, hc, c', hc', hpair⟩ := hfirst hlt hl hl'
    exact ⟨c, hc, c', hc', Or.inl hpair⟩
  · obtain ⟨c', hc', c, hc, hpair⟩ := hfirst hgt hl' hl
    exact ⟨c, hc, c', hc', Or.inr hpair⟩

/-- On a machine no CPU is in two LLCs. -/
theorem llcsDisjoint_detect (topo : Topology) : LlcsDisjoint (detect topo) := by
  intro l l' hne
  refine BitVec.and_eq_zero_iff.mpr fun c hlt hc => ?_
  have hmem : ∀ l : Llc, ((detect topo).llcCpuMask l).getLsbD (⟨c, hlt⟩ : Cpu) = true ↔
      c ∈ topo.llc l := fun _ => mem_detect_llcCpuMask
  by_contra hc'
  exact hne (Fin.ext (Topology.llc_unique ((hmem l).mp hc)
    ((hmem l').mp (Bool.not_eq_false _ ▸ hc'))))

/-- Every pair comes from some two LLCs. -/
theorem exists_llcs_of_mem {pair : ℕ × ℕ} (h : pair ∈ selectEtdPairs info) :
    ∃ l l' : Llc, l < l' ∧ pair.1 ∈ (info.llcCpuMask l).members ∧
      pair.2 ∈ (info.llcCpuMask l').members := by
  rw [selectEtdPairs_eq] at h
  have hall := (forall_mem_pairsOfLlcs (P := fun pair => ∃ l l' : Llc, l < l' ∧
    pair.1 ∈ (info.llcCpuMask l).members ∧ pair.2 ∈ (info.llcCpuMask l').members)
    (llcMembers info)).mpr ((pairwise_llcMembers info).mpr ?_)
  · exact hall pair h
  · exact fun l l' hlt _ _ pair hpair => ⟨l, l', hlt, mem_of_mem_samplePairs hpair⟩

/-- **The pairs that are measured.** If no CPU is in two sets, then between any two LLCs with CPUs
there are three pairs, or as many as the smaller one has CPUs, from the lowest CPUs to the highest
and with no CPU twice; there are no other pairs; and there is none at all exactly if fewer than two
LLCs have CPUs. -/
theorem select_etd_pairs_spec (info : TopologyInfo) (h : LlcsDisjoint info) :
    (∀ l l' : Llc, l < l' → info.llcCpuMask l ≠ 0 → info.llcCpuMask l' ≠ 0 →
      SamplesLlcs (info.llcCpuMask l).members (info.llcCpuMask l').members
        (pairsBetween (info.llcCpuMask l).members (info.llcCpuMask l').members
          (selectEtdPairs info))) ∧
    (∀ pair ∈ selectEtdPairs info, ∃ l l' : Llc, l < l' ∧
      pair.1 ∈ (info.llcCpuMask l).members ∧ pair.2 ∈ (info.llcCpuMask l').members) ∧
    (selectEtdPairs info = [] ↔
      ((List.finRange 8).countP fun l => info.llcCpuMask l ≠ 0) < 2) := by
  refine ⟨fun l l' hlt hl hl' => ?_, fun _ => exists_llcs_of_mem, selectEtdPairs_eq_nil_iff info⟩
  rw [pairsBetween_selectEtdPairs h hlt hl hl']
  exact samplesLlcs_samplePairs (members_ne_nil_of_ne_zero hl) (members_ne_nil_of_ne_zero hl')
    (BitVec.pairwise_members _) (BitVec.pairwise_members _)

/-- Two LLCs of two CPUs each have two pairs. -/
theorem dualCcd_samples : (pairsBetween ((detect dualCcd).llcCpuMask 0).members
    ((detect dualCcd).llcCpuMask 1).members (selectEtdPairs (detect dualCcd))).length = 2 := by
  have hdisjoint : LlcsDisjoint (detect dualCcd) := by
    unfold LlcsDisjoint
    decide
  have hbetween := (select_etd_pairs_spec (detect dualCcd) hdisjoint).1 0 1 (by decide)
    (by decide) (by decide)
  exact hbetween.count.trans (by decide)

end Imperator
