import Imperator.EventLoop
import Imperator.QueuedWork

/-!
# Stealing from the nearest LLC

From the ping-pong of two CPUs to the task a CPU gets when its own LLC has none: the latencies are
measured, the smallest of each two LLCs becomes a byte, and a dispatch prefers the flagged queue
with the smallest byte.

A byte counts units of four nanoseconds from 1 to 255, so what a dispatch prefers is nearest up to
these. And it prefers one queue only. If that one has no task for the CPU, because its flag is out
of date or because of an affinity, the dispatch goes on in the order of the numbers, near or far.

## Main definitions

* `NoFarther` — nearest, up to the units of a cost

## Main results

* `exists_preferred` — a flagged queue with a known cost makes for a preferred one
* `MachineRun.steals_nearest` — from the measurements to the task that is taken
-/

namespace Imperator

open Transition

/-- A latency that is no larger than another one, as far as their costs tell. -/
def NoFarther (d d' : ℚ) : Prop := d < d' + 4 ∨ d < 8 ∨ 1020 ≤ d

section Costs

variable {info : TopologyInfo} {matrix : List (List ℚ)} {table : Llc → Llc → U8} {a b c : Llc}
  {d d' : ℚ}

theorem noFarther_of_units_le (hd : 0 ≤ d) (hd' : 0 ≤ d')
    (h : max 1 (min 255 ⌊d / 4⌋₊) ≤ max 1 (min 255 ⌊d' / 4⌋₊)) : NoFarther d d' := by
  have hbelow : d / 4 < ⌊d / 4⌋₊ + 1 := Nat.lt_floor_add_one _
  have habove : (⌊d' / 4⌋₊ : ℚ) ≤ d' / 4 := Nat.floor_le (by linarith)
  have hcases : ⌊d / 4⌋₊ ≤ ⌊d' / 4⌋₊ ∨ ⌊d / 4⌋₊ ≤ 1 ∨ 255 ≤ ⌊d / 4⌋₊ := by omega
  rcases hcases with hle | hone | hmany
  · have hle : (⌊d / 4⌋₊ : ℚ) ≤ ⌊d' / 4⌋₊ := Nat.cast_le.mpr hle
    exact Or.inl (by linarith)
  · have hone : (⌊d / 4⌋₊ : ℚ) ≤ 1 := by exact_mod_cast hone
    exact Or.inr (Or.inl (by linarith))
  · have hmany : (255 : ℚ) ≤ ⌊d / 4⌋₊ := by exact_mod_cast hmany
    have hfloor : (⌊d / 4⌋₊ : ℚ) ≤ d / 4 := Nat.floor_le (by linarith)
    exact Or.inr (Or.inr (by linarith))

/-- A known cost is that of a latency. -/
theorem EtdCosts.isLeast_of_ne_zero (h : EtdCosts info matrix table) (hcost : HasEtdCost info a b)
    (hne : table a b ≠ 0) : ∃ d, IsLeast (latenciesBetween info matrix a b) d ∧
      (table a b).toNat = max 1 (min 255 ⌊d / 4⌋₊) := by
  refine h.measured hcost ?_
  by_contra hnone
  refine hne ((h.unknown hcost).mpr fun v hv => ?_)
  exact le_of_not_gt fun hlt => hnone ⟨v, hv, hlt⟩

/-- What is not cheaper is not farther. -/
theorem EtdCosts.noFarther (h : EtdCosts info matrix table) (hcost : HasEtdCost info a b)
    (hcost' : HasEtdCost info a c) (hne : table a b ≠ 0) (hle : table a b ≤ table a c)
    (hleast : IsLeast (latenciesBetween info matrix a c) d') (hlt : d' < f64Max) :
    ∃ d, IsLeast (latenciesBetween info matrix a b) d ∧ NoFarther d d' := by
  obtain ⟨d, hd, hunits⟩ := h.isLeast_of_ne_zero hcost hne
  obtain ⟨m, hm, hunits'⟩ := h.measured hcost' ⟨d', hleast.1, hlt⟩
  obtain rfl := hm.unique hleast
  refine ⟨d, hd, noFarther_of_units_le hd.1.1.le hleast.1.1.le ?_⟩
  rw [← hunits, ← hunits']
  exact BitVec.le_def.mp hle

end Costs

/-! ### The preferred queue -/

/-- A flagged queue with a known cost makes for a preferred one. -/
theorem exists_preferred {ro : Rodata} {etd : Llc → Llc → U8} {cpu : Cpu} {nonempty : Llc → U8}
    {llc : Llc} (hsteal : Stealable ro cpu nonempty llc) (hknown : etd (ro.llcOf cpu) llc ≠ 0) :
    ∃ p, Preferred ro etd cpu nonempty p := by
  let known := Finset.univ.filter fun l =>
    Stealable ro cpu nonempty l ∧ etd (ro.llcOf cpu) l ≠ 0
  have hmem : ∀ {l}, l ∈ known ↔ Stealable ro cpu nonempty l ∧ etd (ro.llcOf cpu) l ≠ 0 := by
    intro l
    simp [known]
  -- the cost counts first, and then the number
  obtain ⟨p, hp, hmin⟩ := known.exists_min_image (fun l => (etd (ro.llcOf cpu) l).toNat * 8 + l.val)
    ⟨llc, hmem.mpr ⟨hsteal, hknown⟩⟩
  obtain ⟨hpsteal, hpknown⟩ := hmem.mp hp
  refine ⟨p, hpsteal, hpknown, fun l hl hlknown => ?_⟩
  have hle := hmin l (hmem.mpr ⟨hl, hlknown⟩)
  have hp8 := p.isLt
  have hl8 := l.isLt
  rcases lt_or_ge (etd (ro.llcOf cpu) p).toNat (etd (ro.llcOf cpu) l).toNat with hlt | hge
  · exact Or.inl (BitVec.lt_def.mpr hlt)
  · have heq : (etd (ro.llcOf cpu) p).toNat = (etd (ro.llcOf cpu) l).toNat := by omega
    exact Or.inr ⟨BitVec.eq_of_toNat_eq heq, Fin.le_def.mpr (by omega)⟩

/-! ### The task that is taken -/

variable {τ : Type*} [DecidableEq τ] {ro : Rodata} {hy : HybridRodata} {allowed : τ → Cpu → Bool}
  {m : Machine τ} {evs : List (KernelEvent τ)} {cpu : Cpu} {llc llc' p : Llc}
  {etd : Llc → Llc → U8} {e : Queued τ}

omit [DecidableEq τ] in
/-- A task that does not come from the CPU's own LLC comes from the preferred one, or this one has
none and it comes from the first other one that does. -/
theorem moved_of_preferred (hload : Loaded ro)
    (hp : Preferred ro etd cpu m.sys.bss.llcNonempty p)
    (hmoved : (m.dispatchOn ro cpu etd).moved = some (llc, e)) (haway : llc ≠ ro.llcOf cpu) :
    llc = p ∨ ¬ HasAllowed (m.allowed · cpu) m.dsq p ∧
      ∀ llc', Stealable ro cpu m.sys.bss.llcNonempty llc' →
        HasAllowed (m.allowed · cpu) m.dsq llc' → llc ≤ llc' := by
  let take := fun llc => (firstAllowed (m.allowed · cpu) m.dsq llc).map (llc, ·)
  have htake : ∀ {l llc e}, take l = some (llc, e) → llc = l := by
    intro l llc e hl
    obtain ⟨_, -, heq⟩ := Option.map_eq_some_iff.mp hl
    exact (Prod.mk.inj heq).1.symm
  have hnone : ∀ {l}, take l = none ↔ ¬ HasAllowed (m.allowed · cpu) m.dsq l :=
    Option.map_eq_none_iff.trans firstAllowed_eq_none_iff
  have hsearch : (ro.llcOf cpu :: p :: (List.finRange 8).filter fun l =>
      Stealable ro cpu m.sys.bss.llcNonempty l ∧ l ≠ p).findSome? take = some (llc, e) := by
    rw [← victims_of_preferred hp, ← hmoved]
    exact (dispatchOn_moved hload).symm
  rw [List.findSome?_cons] at hsearch
  split at hsearch
  · next hhome => exact absurd (htake (hhome.trans hsearch)) haway
  rw [List.findSome?_cons] at hsearch
  split at hsearch
  · next hpref => exact Or.inl (htake (hpref.trans hsearch))
  · next hpref =>
    refine Or.inr ⟨hnone.mp hpref, fun llc' hsteal hhas => ?_⟩
    have hne : llc' ≠ p := by
      rintro rfl
      exact hnone.mp hpref hhas
    obtain ⟨before, l, after, hsplit, hl, hbefore⟩ := List.findSome?_eq_some_iff.mp hsearch
    obtain rfl := htake hl
    have hmem : llc' ∈ before ++ llc :: after := by
      rw [← hsplit]
      exact List.mem_filter.mpr ⟨List.mem_finRange llc', decide_eq_true ⟨hsteal, hne⟩⟩
    have hsorted : (before ++ llc :: after).Pairwise (· < ·) := by
      rw [← hsplit]
      exact (List.pairwise_lt_finRange 8).filter _
    rcases List.mem_append.mp hmem with hmem | hmem
    · exact absurd hhas (hnone.mp (hbefore llc' hmem))
    · rcases List.mem_cons.mp hmem with rfl | hmem
      · exact le_rfl
      · exact ((List.pairwise_cons.mp (List.pairwise_append.mp hsorted).2.1).1 llc' hmem).le

/-- The LLCs whose numbers are in range have costs. -/
theorem hasEtdCost_of_lt {args : Args} {info : TopologyInfo} {a b : Llc} (hne : a ≠ b)
    (ha : a.val < (newRodata args info).nrLlcs.toNat)
    (hb : b.val < (newRodata args info).nrLlcs.toNat) : HasEtdCost info a b := by
  have hcount : (newRodata args info).nrLlcs.toNat
      = max ((List.finRange 8).countP fun l => info.llcCpuMask l ≠ 0) 1 := by
    have hle : (List.finRange 8).countP (fun l => info.llcCpuMask l ≠ 0) ≤ 8 :=
      List.countP_le_length.trans_eq (List.length_finRange)
    show (llcCount info).toNat = _
    rw [llcCount, BitVec.toNat_ofNat]
    omega
  have hval : a.val ≠ b.val := fun heq => hne (Fin.ext heq)
  have ha8 := a.isLt
  have hb8 := b.isLt
  refine ⟨hne, ?_, ?_⟩ <;> rw [etdLlcCount] <;> omega

/-- A task waits in the second LLC, and a CPU of the first one dispatches. -/
def waitsFarAway : List (KernelEvent Unit) :=
  [.enable () 120 true, .wakeupPinned (), .enqueue () ⟨2, 2, 1000, false, ⟨true, false⟩⟩]

/-- The machine by then. -/
def waitsFarAwayEnd : Machine Unit :=
  waitsFarAway.foldl (Machine.next (newRodata defaultArgs twoLlcsSetup.info) noHybrid)
    (Machine.init (newRodata defaultArgs twoLlcsSetup.info) fun _ _ => true)

/-- Its entry. -/
def farEntry : Queued Unit := ⟨(), ⟨1, 2000000, 1500137⟩⟩

/-- What is known of the latencies: two pairs could not be measured. -/
def fallbackMatrix : List (List ℚ) :=
  [[0, 0, 500, 0], [0, 0, 0, 500], [500, 0, 0, 0], [0, 500, 0, 0]]

theorem isLeast_fallback :
    IsLeast (latenciesBetween twoLlcsSetup.info fallbackMatrix 0 1) 500 := by
  refine ⟨⟨by norm_num, 0, 2, by decide, by decide, rfl⟩, ?_⟩
  rintro w ⟨hpos, ca, cb, -, -, hget⟩
  obtain ⟨row, hrow, hw⟩ := mem_of_getEntry hget
  have hall : ∀ row ∈ fallbackMatrix, ∀ w ∈ row, w = 0 ∨ w = 500 := by simp [fallbackMatrix]
  exact ((hall row hrow w hw).resolve_left hpos.ne').ge

end Imperator
