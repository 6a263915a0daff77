import Imperator.LlcNonempty

/-!
# Dispatching

`imperator_dispatch` as one step. It tries the queue of the CPU's own LLC, then the flagged queue of
another LLC that is cheapest to steal from, then the other flagged ones in the order of their
numbers, and moves the first task that may run on the CPU. A queue that was tried without success
and is empty loses its flag.

All of it is a search through a list of LLCs, the probe order. The mask arithmetic of the source
only serves to go through that list without building it, and `imperatorDispatch_eq` takes it away;
what a dispatch does is then read off the list.

## Main definitions

* `DispatchState.probe`, `imperatorDispatch`
* `probeAll`, `probeOrder` — the search it performs

## Main results

* `probeAll_moved`, `flagsCover_probeAll` — what a search does
* `stealScan_spec`, `stealLoop_eq` — what the masks stand for
* `imperatorDispatch_eq` — a dispatch is the search through the probe order
-/

namespace Imperator

variable {τ : Type*}

/-! ### The callback -/

/-- The queues and bytes of the LLCs, and what a dispatch has done so far: the task it has moved to
the local queue of the CPU, with the LLC it comes from, and the queues it has tried. -/
structure DispatchState (τ : Type*) where
  dsq : Llc → List (Queued τ)
  nonempty : Llc → U8
  moved : Option (Llc × Queued τ)
  probes : List Llc

/-- `scx_bpf_dsq_move_to_local`, and if it fails on an empty queue, the store of zero. `allowed`
says which tasks may run on the CPU. -/
def DispatchState.probe (allowed : τ → Bool) (s : DispatchState τ) (llc : Llc) : DispatchState τ :=
  match (s.dsq llc).find? fun e => allowed e.task with
  | some e =>
    { dsq := Function.update s.dsq llc ((s.dsq llc).eraseP fun e => allowed e.task)
      nonempty := s.nonempty
      moved := some (llc, e)
      probes := s.probes ++ [llc] }
  | none =>
    { s with
      nonempty :=
        if (s.dsq llc).length = 0 then Function.update s.nonempty llc 0 else s.nonempty
      probes := s.probes ++ [llc] }

/-- The scan that builds the steal mask. -/
def stealScan (ro : Rodata) (etd : Llc → Llc → U8) (cpu : Cpu) (nonempty : Llc → U8) (n : ℕ) :
    Scan :=
  (List.range n).foldl
    (fun l i =>
      scanRound ro cpu i (nonempty (Fin.ofNat 8 i)) (etd (ro.llcOf cpu) (Fin.ofNat 8 i)) l)
    ⟨0, ro.nrLlcs, 0⟩

/-- The last loop; the number is that of the rounds left. -/
def stealLoop (allowed : τ → Bool) : ℕ → U32 → DispatchState τ → DispatchState τ
  | 0, _, s => s
  | rounds + 1, stealMask, s =>
    if stealMask = 0 then s
    else
      let s := s.probe allowed (Fin.ofNat 8 stealMask.scanForward)
      if s.moved.isSome then s else stealLoop allowed rounds (stealMask &&& (stealMask - 1#32)) s

/-- `imperator_dispatch`. `etd` is `llc_etd_cost`; the loader numbers the LLC of every CPU below
`CAKE_MAX_LLCS`, so masking the number changes nothing. -/
def imperatorDispatch (ro : Rodata) (etd : Llc → Llc → U8) (allowed : τ → Bool) (cpu : Cpu)
    (dsq : Llc → List (Queued τ)) (nonempty : Llc → U8) : DispatchState τ :=
  let s := DispatchState.probe allowed ⟨dsq, nonempty, none, []⟩ (ro.llcOf cpu)
  if s.moved.isSome then s
  else if ro.nrLlcs ≤ 1 then s
  else
    let l := stealScan ro etd cpu s.nonempty ro.nrLlcs.toNat
    if l.cheapestLlc < ro.nrLlcs ∧ 0 < l.minCost then
      let stealMask := l.stealMask &&& ~~~(1#32 <<< l.cheapestLlc.toNat)
      let s := s.probe allowed (llcIdx l.cheapestLlc)
      if s.moved.isSome then s else stealLoop allowed ro.nrLlcs.toNat stealMask s
    else stealLoop allowed ro.nrLlcs.toNat l.stealMask s

/-! ### Searching a list of queues -/

/-- Probing one queue after the other until a task is moved. -/
def probeAll (allowed : τ → Bool) : List Llc → DispatchState τ → DispatchState τ
  | [], s => s
  | llc :: order, s =>
    let s := s.probe allowed llc
    if s.moved.isSome then s else probeAll allowed order s

/-- The first task of a queue that may run on the CPU. -/
def firstAllowed (allowed : τ → Bool) (dsq : Llc → List (Queued τ)) (llc : Llc) :
    Option (Queued τ) :=
  (dsq llc).find? fun e => allowed e.task

/-- The queues once a task is moved. -/
def takeMoved (allowed : τ → Bool) (dsq : Llc → List (Queued τ)) :
    Option (Llc × Queued τ) → Llc → List (Queued τ)
  | some (llc, _) => Function.update dsq llc ((dsq llc).eraseP fun e => allowed e.task)
  | none => dsq

/-- Every flag over a task is set. -/
def FlagsCover (ro : Rodata) (dsq : Llc → List (Queued τ)) (nonempty : Llc → U8) : Prop :=
  ∀ llc : Llc, llc.val < ro.nrLlcs.toNat → dsq llc ≠ [] → nonempty llc ≠ 0

section Probe

variable {ro : Rodata} {allowed : τ → Bool} {s : DispatchState τ} {llc : Llc} {order : List Llc}

theorem probe_of_some {e : Queued τ} (h : firstAllowed allowed s.dsq llc = some e) :
    s.probe allowed llc
      = { dsq := Function.update s.dsq llc ((s.dsq llc).eraseP fun e => allowed e.task)
          nonempty := s.nonempty
          moved := some (llc, e)
          probes := s.probes ++ [llc] } := by
  rw [DispatchState.probe, show (s.dsq llc).find? _ = _ from h]

theorem probe_of_none (h : firstAllowed allowed s.dsq llc = none) :
    s.probe allowed llc
      = { s with
          nonempty :=
            if (s.dsq llc).length = 0 then Function.update s.nonempty llc 0 else s.nonempty
          probes := s.probes ++ [llc] } := by
  rw [DispatchState.probe, show (s.dsq llc).find? _ = _ from h]

@[simp] theorem probe_probes : (s.probe allowed llc).probes = s.probes ++ [llc] := by
  rw [DispatchState.probe]
  split <;> rfl

/-- Probing other queues does not look at a byte. -/
theorem probe_nonempty_of_ne {llc' : Llc} (h : llc' ≠ llc) :
    (s.probe allowed llc).nonempty llc' = s.nonempty llc' := by
  rw [DispatchState.probe]
  split
  · rfl
  · dsimp only
    split
    · exact Function.update_of_ne h _ _
    · rfl

/-- **One probe** leaves every flag over a task set. -/
theorem flagsCover_probe (h : FlagsCover ro s.dsq s.nonempty) :
    FlagsCover ro (s.probe allowed llc).dsq (s.probe allowed llc).nonempty := by
  intro llc' hlt hq
  rcases hfirst : firstAllowed allowed s.dsq llc with _ | e
  · rw [probe_of_none hfirst] at hq ⊢
    have hbyte := h llc' hlt hq
    dsimp only
    split
    · next hempty =>
      have hne : llc' ≠ llc := by
        rintro rfl
        exact hq (List.eq_nil_of_length_eq_zero hempty)
      rwa [Function.update_of_ne hne]
    · exact hbyte
  · rw [probe_of_some hfirst] at hq ⊢
    refine h llc' hlt fun hempty => hq ?_
    dsimp only
    rcases eq_or_ne llc' llc with rfl | hne
    · rw [Function.update_self, hempty, List.eraseP_nil]
    · rw [Function.update_of_ne hne, hempty]

/-- A search. -/
theorem flagsCover_probeAll (h : FlagsCover ro s.dsq s.nonempty) :
    FlagsCover ro (probeAll allowed order s).dsq (probeAll allowed order s).nonempty := by
  induction order generalizing s with
  | nil => exact h
  | cons llc order ih =>
    rw [probeAll]
    split
    · exact flagsCover_probe h
    · exact ih (flagsCover_probe h)

/-- A search tries queues in their order. -/
theorem probeAll_probes : (probeAll allowed order s).probes <+: s.probes ++ order := by
  induction order generalizing s with
  | nil => rw [List.append_nil, probeAll]
  | cons llc order ih =>
    have happend : s.probes ++ llc :: order = (s.probe allowed llc).probes ++ order := by
      rw [probe_probes, List.append_assoc, List.singleton_append]
    rw [probeAll, happend]
    split
    · exact List.prefix_append _ _
    · exact ih

/-- A search moves the first task of the first queue that has one for the CPU. -/
theorem probeAll_moved (h : s.moved = none) :
    (probeAll allowed order s).moved
        = order.findSome? (fun llc => (firstAllowed allowed s.dsq llc).map (llc, ·)) ∧
      (probeAll allowed order s).dsq
        = takeMoved allowed s.dsq (probeAll allowed order s).moved := by
  induction order generalizing s with
  | nil => exact ⟨h, by rw [probeAll, h, takeMoved]⟩
  | cons llc order ih =>
    rw [probeAll, List.findSome?_cons]
    rcases hfirst : firstAllowed allowed s.dsq llc with _ | e
    · have hprobe := probe_of_none hfirst
      have hmoved : (s.probe allowed llc).moved = none := by rw [hprobe, h]
      have hdsq : (s.probe allowed llc).dsq = s.dsq := by rw [hprobe]
      rw [if_neg (by rw [hmoved]; exact Bool.false_ne_true)]
      have hrest := ih hmoved
      rw [hdsq] at hrest
      exact hrest
    · have hprobe := probe_of_some hfirst
      have hmoved : (s.probe allowed llc).moved = some (llc, e) := by rw [hprobe]
      rw [if_pos (by rw [hmoved]; rfl), hmoved]
      exact ⟨rfl, by rw [hprobe, takeMoved]⟩

end Probe

/-! ### The probe order -/

section Order

/-- The queue of another LLC with the flag set. -/
def Stealable (ro : Rodata) (cpu : Cpu) (nonempty : Llc → U8) (llc : Llc) : Prop :=
  llc.val < ro.nrLlcs.toNat ∧ llc ≠ ro.llcOf cpu ∧ nonempty llc ≠ 0

/-- The one with the smallest cost that is known, and the first of several. -/
def Preferred (ro : Rodata) (etd : Llc → Llc → U8) (cpu : Cpu) (nonempty : Llc → U8) (llc : Llc) :
    Prop :=
  Stealable ro cpu nonempty llc ∧ etd (ro.llcOf cpu) llc ≠ 0 ∧
    ∀ llc', Stealable ro cpu nonempty llc' → etd (ro.llcOf cpu) llc' ≠ 0 →
      etd (ro.llcOf cpu) llc < etd (ro.llcOf cpu) llc' ∨
        etd (ro.llcOf cpu) llc = etd (ro.llcOf cpu) llc' ∧ llc ≤ llc'

instance (ro : Rodata) (cpu : Cpu) (nonempty : Llc → U8) :
    DecidablePred (Stealable ro cpu nonempty) :=
  fun _ => inferInstanceAs (Decidable (_ ∧ _))

instance (ro : Rodata) (etd : Llc → Llc → U8) (cpu : Cpu) (nonempty : Llc → U8) :
    DecidablePred (Preferred ro etd cpu nonempty) :=
  fun _ => inferInstanceAs (Decidable (_ ∧ _))

/-- The queues of other LLCs, in the order in which a dispatch tries them. -/
def victims (ro : Rodata) (etd : Llc → Llc → U8) (cpu : Cpu) (nonempty : Llc → U8) : List Llc :=
  (List.finRange 8).filter (Preferred ro etd cpu nonempty) ++
    (List.finRange 8).filter fun llc =>
      Stealable ro cpu nonempty llc ∧ ¬ Preferred ro etd cpu nonempty llc

/-- The queues a dispatch tries, if none of them has a task for the CPU. -/
def probeOrder (ro : Rodata) (etd : Llc → Llc → U8) (cpu : Cpu) (nonempty : Llc → U8) : List Llc :=
  ro.llcOf cpu :: victims ro etd cpu nonempty

variable {ro : Rodata} {etd : Llc → Llc → U8} {cpu : Cpu} {nonempty : Llc → U8} {llc llc' : Llc}

theorem Preferred.unique (h : Preferred ro etd cpu nonempty llc)
    (h' : Preferred ro etd cpu nonempty llc') : llc = llc' := by
  rcases h.2.2 llc' h'.1 h'.2.1 with hlt | ⟨heq, hle⟩
  · rcases h'.2.2 llc h.1 h.2.1 with hlt' | ⟨heq', -⟩
    · exact absurd (BitVec.lt_trans hlt hlt') (BitVec.lt_irrefl _)
    · exact absurd (heq' ▸ hlt) (BitVec.lt_irrefl _)
  · rcases h'.2.2 llc h.1 h.2.1 with hlt' | ⟨-, hle'⟩
    · exact absurd (heq ▸ hlt') (BitVec.lt_irrefl _)
    · exact le_antisymm hle hle'

theorem mem_victims : llc ∈ victims ro etd cpu nonempty ↔ Stealable ro cpu nonempty llc := by
  rw [victims, List.mem_append, List.mem_filter, List.mem_filter, decide_eq_true_eq,
    decide_eq_true_eq]
  simp only [List.mem_finRange, true_and]
  constructor
  · rintro (h | h)
    · exact h.1
    · exact h.1
  · exact fun h => (em _).imp_right fun hnot => ⟨h, hnot⟩

/-- No queue is tried twice. -/
theorem nodup_probeOrder (ro : Rodata) (etd : Llc → Llc → U8) (cpu : Cpu) (nonempty : Llc → U8) :
    (probeOrder ro etd cpu nonempty).Nodup := by
  have hfilter : ∀ p : Llc → Bool, ((List.finRange 8).filter p).Nodup := fun p =>
    (List.nodup_finRange 8).filter p
  refine List.nodup_cons.mpr ⟨?_, List.nodup_append.mpr ⟨hfilter _, hfilter _, ?_⟩⟩
  · exact fun hmem => (mem_victims.mp hmem).2.1 rfl
  · rintro a ha b hb rfl
    exact (of_decide_eq_true (List.mem_filter.mp hb).2).2
      (of_decide_eq_true (List.mem_filter.mp ha).2)

/-- Only the flags of other LLCs matter. -/
theorem victims_congr {nonempty' : Llc → U8}
    (h : ∀ llc, llc ≠ ro.llcOf cpu → nonempty' llc = nonempty llc) :
    victims ro etd cpu nonempty' = victims ro etd cpu nonempty := by
  have hsteal : ∀ llc, Stealable ro cpu nonempty' llc ↔ Stealable ro cpu nonempty llc := by
    intro llc
    refine and_congr_right fun _ => and_congr_right fun hne => ?_
    rw [h llc hne]
  have hpref : ∀ llc, Preferred ro etd cpu nonempty' llc ↔ Preferred ro etd cpu nonempty llc := by
    intro llc
    refine and_congr (hsteal llc) (and_congr_right fun _ => ?_)
    exact forall_congr' fun llc' => imp_congr_left (hsteal llc')
  rw [victims, victims]
  congr 1
  · exact List.filter_congr fun llc _ => decide_eq_decide.mpr (hpref llc)
  · exact List.filter_congr fun llc _ =>
      decide_eq_decide.mpr (and_congr (hsteal llc) (not_congr (hpref llc)))

/-- Without a known cost, the order of the numbers. -/
theorem victims_of_unknown (h : ∀ llc, ¬ Preferred ro etd cpu nonempty llc) :
    victims ro etd cpu nonempty = (List.finRange 8).filter (Stealable ro cpu nonempty) := by
  have hnil : (List.finRange 8).filter (Preferred ro etd cpu nonempty) = [] :=
    List.filter_eq_nil_iff.mpr fun llc _ => by simpa using h llc
  rw [victims, hnil, List.nil_append]
  exact List.filter_congr fun llc _ => decide_eq_decide.mpr (and_iff_left (h llc))

/-- The cheapest one first. -/
theorem victims_of_preferred (h : Preferred ro etd cpu nonempty llc) :
    victims ro etd cpu nonempty
      = llc :: (List.finRange 8).filter fun llc' =>
          Stealable ro cpu nonempty llc' ∧ llc' ≠ llc := by
  have hiff : ∀ llc', Preferred ro etd cpu nonempty llc' ↔ llc' = llc := fun llc' =>
    ⟨fun h' => h'.unique h, fun heq => heq ▸ h⟩
  have hone : (List.finRange 8).filter (Preferred ro etd cpu nonempty) = [llc] := by
    refine ((List.pairwise_lt_finRange 8).filter _).eq_of_mem_iff (List.pairwise_singleton _ _) ?_
    intro llc'
    rw [List.mem_filter, decide_eq_true_eq, hiff, List.mem_singleton]
    exact and_iff_right (List.mem_finRange _)
  rw [victims, hone, List.singleton_append]
  congr 1
  exact List.filter_congr fun llc' _ =>
    decide_eq_decide.mpr (and_congr_right fun _ => not_congr (hiff llc'))

/-! ### The masks -/

/-- What the scan has found after `n` rounds. -/
structure ScanSpec (ro : Rodata) (etd : Llc → Llc → U8) (cpu : Cpu) (nonempty : Llc → U8) (n : ℕ)
    (l : Scan) : Prop where
  mask : ∀ i, l.stealMask.getLsbD i = true ↔
    ∃ h : i < 8, i < n ∧ Stealable ro cpu nonempty ⟨i, h⟩
  unknown : l.minCost = 0 → ∀ llc : Llc, llc.val < n → Stealable ro cpu nonempty llc →
    etd (ro.llcOf cpu) llc = 0
  known : l.minCost ≠ 0 → ∃ llc : Llc, l.cheapestLlc = BitVec.ofNat 32 llc ∧ llc.val < n ∧
    Stealable ro cpu nonempty llc ∧ etd (ro.llcOf cpu) llc = l.minCost ∧
    ∀ llc' : Llc, llc'.val < n → Stealable ro cpu nonempty llc' → etd (ro.llcOf cpu) llc' ≠ 0 →
      etd (ro.llcOf cpu) llc < etd (ro.llcOf cpu) llc' ∨
        etd (ro.llcOf cpu) llc = etd (ro.llcOf cpu) llc' ∧ llc ≤ llc'

/-- A round that passes by. -/
theorem ScanSpec.skip {n : ℕ} {l : Scan} (h : ScanSpec ro etd cpu nonempty n l)
    (hskip : ∀ llc : Llc, llc.val = n → ¬ Stealable ro cpu nonempty llc) :
    ScanSpec ro etd cpu nonempty (n + 1) l := by
  have hlt : ∀ llc : Llc, llc.val < n + 1 → Stealable ro cpu nonempty llc → llc.val < n := by
    intro llc hle hsteal
    exact lt_of_le_of_ne (Nat.le_of_lt_succ hle) fun heq => hskip llc heq hsteal
  refine ⟨fun i => ?_, fun hmin llc hle hsteal => h.unknown hmin llc (hlt llc hle hsteal) hsteal,
    fun hmin => ?_⟩
  · rw [h.mask]
    constructor
    · rintro ⟨hi, hn, hsteal⟩
      exact ⟨hi, Nat.lt_succ_of_lt hn, hsteal⟩
    · rintro ⟨hi, hn, hsteal⟩
      exact ⟨hi, hlt ⟨i, hi⟩ hn hsteal, hsteal⟩
  · obtain ⟨llc, hcheap, hn, hsteal, hcost, hall⟩ := h.known hmin
    exact ⟨llc, hcheap, Nat.lt_succ_of_lt hn, hsteal, hcost,
      fun llc' hle hsteal' => hall llc' (hlt llc' hle hsteal') hsteal'⟩

/-- Up to an LLC: it, and what comes before. -/
theorem lt_or_eq_of_lt_succ (h : llc'.val < llc.val + 1) : llc'.val < llc.val ∨ llc' = llc :=
  (Nat.lt_succ_iff_lt_or_eq.mp h).imp_right Fin.ext

theorem ScanSpec.mask_take {l : Scan} (h : ScanSpec ro etd cpu nonempty llc.val l)
    (hsteal : Stealable ro cpu nonempty llc) (i : ℕ) :
    (l.stealMask ||| 1#32 <<< llc.val).getLsbD i = true ↔
      ∃ h : i < 8, i < llc.val + 1 ∧ Stealable ro cpu nonempty ⟨i, h⟩ := by
  rw [BitVec.getLsbD_or_one_shiftLeft _ (llc.isLt.trans (by decide)), Bool.or_eq_true, h.mask,
    decide_eq_true_eq]
  constructor
  · rintro (⟨hi, hn, hsteal'⟩ | rfl)
    · exact ⟨hi, Nat.lt_succ_of_lt hn, hsteal'⟩
    · exact ⟨llc.isLt, Nat.lt_succ_self _, hsteal⟩
  · rintro ⟨hi, hn, hsteal'⟩
    exact (Nat.lt_succ_iff_lt_or_eq.mp hn).imp (fun hlt => ⟨hi, hlt, hsteal'⟩) id

/-- A cost below the minimum is below all that were known. -/
theorem ScanSpec.lt_of_cheaper {l : Scan} {n : ℕ} {cost : U8}
    (h : ScanSpec ro etd cpu nonempty n l) (hcheaper : l.minCost = 0 ∨ cost < l.minCost)
    (hlt : llc'.val < n) (hsteal : Stealable ro cpu nonempty llc')
    (hknown : etd (ro.llcOf cpu) llc' ≠ 0) : cost < etd (ro.llcOf cpu) llc' := by
  rcases hcheaper with hzero | hless
  · exact absurd (h.unknown hzero llc' hlt hsteal) hknown
  · have hmin : l.minCost ≠ 0 := fun hzero => BitVec.not_lt_zero (hzero ▸ hless : _ < 0#8)
    obtain ⟨best, -, -, -, hcost, hall⟩ := h.known hmin
    rcases hall llc' hlt hsteal hknown with hbest | ⟨hbest, -⟩
    · exact BitVec.lt_trans hless (hcost ▸ hbest)
    · exact hbest ▸ hcost ▸ hless

/-- A round that finds a queue. -/
theorem ScanSpec.take {l : Scan} (h : ScanSpec ro etd cpu nonempty llc.val l)
    (hsteal : Stealable ro cpu nonempty llc) :
    ScanSpec ro etd cpu nonempty (llc.val + 1) (scanRound ro cpu llc.val (nonempty llc)
      (etd (ro.llcOf cpu) llc) l) := by
  have hround : llc.val ≠ (ro.llcOf cpu).val ∧ nonempty llc ≠ 0 :=
    ⟨fun heq => hsteal.2.1 (Fin.ext heq), hsteal.2.2⟩
  rw [scanRound, if_pos hround]
  refine ⟨h.mask_take hsteal, fun hmin => ?_, fun hmin => ?_⟩
  · -- the minimum is still unknown, so this round did not know a cost either
    dsimp only at hmin
    split at hmin
    · next hcheaper =>
      rw [hmin] at hcheaper
      exact absurd hcheaper.1 (BitVec.lt_irrefl _)
    · next hcheaper =>
      intro llc' hle hsteal'
      rcases lt_or_eq_of_lt_succ hle with hlt | rfl
      · exact h.unknown hmin llc' hlt hsteal'
      · by_contra hne
        exact hcheaper ⟨(BitVec.pos_iff_ne_zero _).mpr hne, Or.inl hmin⟩
  · dsimp only at hmin ⊢
    split at hmin
    · next hcheaper =>
      rw [if_pos hcheaper, if_pos hcheaper]
      refine ⟨llc, rfl, Nat.lt_succ_self _, hsteal, rfl, fun llc' hle hsteal' hcost' => ?_⟩
      rcases lt_or_eq_of_lt_succ hle with hlt | rfl
      · exact Or.inl (h.lt_of_cheaper hcheaper.2 hlt hsteal' hcost')
      · exact Or.inr ⟨rfl, le_rfl⟩
    · next hcheaper =>
      rw [if_neg hcheaper, if_neg hcheaper]
      obtain ⟨best, hbest, hn, hsteal', hcost, hall⟩ := h.known hmin
      refine ⟨best, hbest, Nat.lt_succ_of_lt hn, hsteal', hcost, fun llc' hle hsteal'' hcost' => ?_⟩
      rcases lt_or_eq_of_lt_succ hle with hlt | rfl
      · exact hall llc' hlt hsteal'' hcost'
      · have hle' : l.minCost ≤ etd (ro.llcOf cpu) llc' := BitVec.not_lt.mp fun hless =>
          hcheaper ⟨(BitVec.pos_iff_ne_zero _).mpr hcost', Or.inr hless⟩
        rw [← hcost] at hle'
        rcases eq_or_ne (etd (ro.llcOf cpu) best) (etd (ro.llcOf cpu) llc') with heq | hne
        · exact Or.inr ⟨heq, Fin.le_def.mpr (Nat.le_of_lt hn)⟩
        · exact Or.inl (BitVec.lt_of_le_ne hle' hne)

/-- The scan, round by round. -/
theorem stealScan_spec (hnr : ro.nrLlcs.toNat ≤ 8) {n : ℕ} (hn : n ≤ ro.nrLlcs.toNat) :
    ScanSpec ro etd cpu nonempty n (stealScan ro etd cpu nonempty n) := by
  induction n with
  | zero =>
    refine ⟨fun i => ⟨fun hbit => ?_, fun ⟨_, hlt, _⟩ => absurd hlt (Nat.not_lt_zero _)⟩,
      fun _ llc hlt => absurd hlt (Nat.not_lt_zero _), fun hmin => absurd rfl hmin⟩
    exact absurd hbit (by simp [stealScan])
  | succ n ih =>
    have hspec := ih (Nat.le_of_succ_le hn)
    let llc : Llc := ⟨n, hn.trans hnr⟩
    have hidx : Fin.ofNat 8 n = llc := Fin.ofNat_val_eq_self llc
    have hround : stealScan ro etd cpu nonempty (n + 1)
        = scanRound ro cpu llc.val (nonempty llc) (etd (ro.llcOf cpu) llc)
            (stealScan ro etd cpu nonempty n) := by
      rw [stealScan, List.range_succ, List.foldl_append, List.foldl_cons, List.foldl_nil, hidx]
      rfl
    rw [hround]
    by_cases hsteal : Stealable ro cpu nonempty llc
    · exact hspec.take hsteal
    · have hpass : ¬ (llc.val ≠ (ro.llcOf cpu).val ∧ nonempty llc ≠ 0) := fun h =>
        hsteal ⟨hn, fun heq => h.1 (congrArg Fin.val heq), h.2⟩
      rw [scanRound, if_neg hpass]
      refine hspec.skip fun llc' heq => ?_
      obtain rfl : llc' = llc := Fin.ext heq
      exact hsteal

end Order

/-! ### The callback is the search -/

section Search

variable {ro : Rodata} {etd : Llc → Llc → U8} {allowed : τ → Bool} {cpu : Cpu}
  {dsq : Llc → List (Queued τ)} {nonempty : Llc → U8} {llc : Llc} {s : DispatchState τ}

/-- The members of a mask of LLCs. -/
theorem members_eq_filter {stealMask : U32} {p : Llc → Prop} [DecidablePred p]
    (h : ∀ i, stealMask.getLsbD i = true ↔ ∃ hi : i < 8, p ⟨i, hi⟩) :
    stealMask.members = ((List.finRange 8).filter p).map Fin.val := by
  refine (BitVec.pairwise_members _).eq_of_mem_iff ?_ fun i => ?_
  · refine List.pairwise_map.mpr ((List.Pairwise.filter _ ?_).imp fun hlt => hlt)
    exact List.pairwise_lt_finRange 8
  · rw [BitVec.mem_members, h, List.mem_map]
    constructor
    · rintro ⟨hi, hp⟩
      exact ⟨⟨i, hi⟩, List.mem_filter.mpr ⟨List.mem_finRange _, decide_eq_true hp⟩, rfl⟩
    · rintro ⟨llc, hmem, rfl⟩
      exact ⟨llc.isLt, of_decide_eq_true (List.mem_filter.mp hmem).2⟩

/-- The loop over a mask is a search through its members. -/
theorem stealLoop_eq_probeAll {rounds : ℕ} {stealMask : U32}
    (h : stealMask.members.length ≤ rounds) : stealLoop allowed rounds stealMask s
      = probeAll allowed (stealMask.members.map (Fin.ofNat 8)) s := by
  induction rounds generalizing stealMask s with
  | zero =>
    rw [List.eq_nil_of_length_eq_zero (Nat.le_zero.mp h), stealLoop]
    rfl
  | succ rounds ih =>
    rw [stealLoop]
    split
    · next hzero =>
      obtain rfl : stealMask = 0#32 := hzero
      rw [BitVec.members_zero]
      rfl
    · next hne =>
      rw [BitVec.members_of_ne_zero hne] at h ⊢
      rw [List.map_cons, probeAll, ← ih (Nat.le_of_succ_le_succ h)]

/-- The loop over a set of LLCs that are in use. -/
theorem stealLoop_eq {stealMask : U32} {p : Llc → Prop} [DecidablePred p]
    (h : ∀ i, stealMask.getLsbD i = true ↔ ∃ hi : i < 8, p ⟨i, hi⟩)
    (hp : ∀ llc, p llc → llc.val < ro.nrLlcs.toNat) :
    stealLoop allowed ro.nrLlcs.toNat stealMask s
      = probeAll allowed ((List.finRange 8).filter p) s := by
  have hmembers := members_eq_filter h
  have hlength : stealMask.members.length ≤ ro.nrLlcs.toNat := by
    refine BitVec.length_members_le_of_lt fun i hi => ?_
    obtain ⟨hlt, hpi⟩ := (h i).mp hi
    exact hp _ hpi
  have hval : Fin.ofNat 8 ∘ Fin.val = (id : Llc → Llc) := funext Fin.ofNat_val_eq_self
  rw [stealLoop_eq_probeAll hlength, hmembers, List.map_map, hval, List.map_id]

/-- The LLC numbers of a loaded program are not changed by masking. -/
theorem llcOf_val (hnr : ro.nrLlcs.toNat ≤ 8) (hhome : ro.cpuLlcId cpu < ro.nrLlcs) :
    (ro.llcOf cpu).val = (ro.cpuLlcId cpu).toNat := by
  rw [BitVec.lt_def] at hhome
  rw [Rodata.llcOf, llcIdx, Fin.val_ofNat, show 7#32 = BitVec.ofNat 32 (2 ^ 3 - 1) from rfl,
    BitVec.toNat_and_lowMask _ (by decide)]
  omega

theorem llcIdx_ofNat (llc : Llc) : llcIdx (BitVec.ofNat 32 llc) = llc := by
  revert llc
  decide

/-- A mask of LLCs without one of them. -/
theorem getLsbD_without {stealMask : U32} {p : Llc → Prop}
    (h : ∀ i, stealMask.getLsbD i = true ↔ ∃ hi : i < 8, p ⟨i, hi⟩) (llc : Llc) (i : ℕ) :
    (stealMask &&& ~~~(1#32 <<< llc.val)).getLsbD i = true ↔
      ∃ hi : i < 8, p ⟨i, hi⟩ ∧ (⟨i, hi⟩ : Llc) ≠ llc := by
  rw [BitVec.getLsbD_and_not_one_shiftLeft _ (llc.isLt.trans (by decide)), Bool.and_eq_true, h,
    Bool.not_eq_true', decide_eq_false_iff_not]
  constructor
  · rintro ⟨⟨hi, hp⟩, hne⟩
    exact ⟨hi, hp, fun heq => hne (congrArg Fin.val heq)⟩
  · rintro ⟨hi, hp, hne⟩
    exact ⟨⟨hi, hp⟩, fun heq => hne (Fin.ext heq)⟩

/-- The part after the first probe. -/
theorem steal_eq {l : Scan} (hspec : ScanSpec ro etd cpu nonempty ro.nrLlcs.toNat l) :
    (if l.cheapestLlc < ro.nrLlcs ∧ 0 < l.minCost then
      let stealMask := l.stealMask &&& ~~~(1#32 <<< l.cheapestLlc.toNat)
      let s := s.probe allowed (llcIdx l.cheapestLlc)
      if s.moved.isSome then s else stealLoop allowed ro.nrLlcs.toNat stealMask s
    else stealLoop allowed ro.nrLlcs.toNat l.stealMask s)
      = probeAll allowed (victims ro etd cpu nonempty) s := by
  have hmask : ∀ i, l.stealMask.getLsbD i = true ↔
      ∃ hi : i < 8, Stealable ro cpu nonempty ⟨i, hi⟩ := by
    intro i
    rw [hspec.mask]
    exact exists_congr fun hi => and_iff_right_of_imp fun hsteal => hsteal.1
  by_cases hmin : l.minCost = 0
  · have hunknown : ∀ llc, ¬ Preferred ro etd cpu nonempty llc := fun llc h =>
      h.2.1 (hspec.unknown hmin llc h.1.1 h.1)
    have hzero : ¬ 0 < l.minCost := by
      rw [hmin]
      exact BitVec.lt_irrefl _
    rw [if_neg fun h => hzero h.2, victims_of_unknown hunknown]
    exact stealLoop_eq hmask fun llc h => h.1
  · obtain ⟨best, hbest, hlt, hsteal, hcost, hall⟩ := hspec.known hmin
    have hpref : Preferred ro etd cpu nonempty best :=
      ⟨hsteal, hcost ▸ hmin, fun llc' h' => hall llc' h'.1 h'⟩
    have hnum : l.cheapestLlc.toNat = best.val := by
      have hlt8 := best.isLt
      rw [hbest, BitVec.toNat_ofNat]
      omega
    have hidx : llcIdx l.cheapestLlc = best := by rw [hbest, llcIdx_ofNat]
    have hrest := hnum ▸ getLsbD_without hmask best
    rw [if_pos ⟨BitVec.lt_def.mpr (hnum ▸ hlt), (BitVec.pos_iff_ne_zero _).mpr hmin⟩,
      victims_of_preferred hpref, probeAll, hidx,
      ← stealLoop_eq hrest fun llc h => h.1.1]

/-- **A dispatch is the search through the probe order.** -/
theorem imperatorDispatch_eq (hnr : ro.nrLlcs.toNat ≤ 8) (hhome : ro.cpuLlcId cpu < ro.nrLlcs) :
    imperatorDispatch ro etd allowed cpu dsq nonempty
      = probeAll allowed (probeOrder ro etd cpu nonempty) ⟨dsq, nonempty, none, []⟩ := by
  rw [imperatorDispatch, probeOrder, probeAll]
  have hsame : ∀ llc, llc ≠ ro.llcOf cpu →
      (DispatchState.probe allowed ⟨dsq, nonempty, none, []⟩ (ro.llcOf cpu)).nonempty llc
        = nonempty llc := fun llc hne => probe_nonempty_of_ne hne
  rw [← victims_congr hsame]
  dsimp only
  generalize DispatchState.probe allowed ⟨dsq, nonempty, none, []⟩ (ro.llcOf cpu) = s
  split
  · rfl
  · split
    · next hone =>
      have hnil : victims ro etd cpu s.nonempty = [] := by
        refine List.eq_nil_iff_forall_not_mem.mpr fun llc hmem => ?_
        obtain ⟨hlt, hne, -⟩ := mem_victims.mp hmem
        rw [BitVec.le_def] at hone
        rw [BitVec.lt_def] at hhome
        refine hne (Fin.ext ?_)
        rw [llcOf_val hnr hhome]
        have hone' : ro.nrLlcs.toNat ≤ 1 := hone
        omega
      rw [hnil, probeAll]
    · exact steal_eq (stealScan_spec hnr le_rfl)

end Search

end Imperator
