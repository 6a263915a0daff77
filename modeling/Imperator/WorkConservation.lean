import Imperator.Dispatch

/-!
# Dispatch conserves work

A dispatch that finds every flag over a task set moves exactly one task whenever some queue has one
that may run on the CPU: from the LLC of the CPU, else from the cheapest flagged one, else from the
flagged one with the lowest number. It tries no queue twice, and afterwards every flag over a task
is still set.

This is about a dispatch as one step. The last section shows that the interleaved machine, when no
other thread comes in between, goes through exactly these effects.

## Main definitions

* `DispatchSource` — which queue the task should come from
* `DispatchSpec` — what a dispatch should do

## Main results

* `imperatorDispatch_spec` — a dispatch conserves work
* `dispatchAlone_run` — without interleaving, the steps of a dispatch are `imperatorDispatch`
-/

namespace Imperator

open Transition

variable {τ : Type*}

/-! ### What a dispatch does -/

section Spec

variable {ro : Rodata} {etd : Llc → Llc → U8} {allowed : τ → Bool} {cpu : Cpu}
  {dsq : Llc → List (Queued τ)} {nonempty : Llc → U8} {llc : Llc}

/-- The queue has a task that may run on the CPU. -/
def HasAllowed (allowed : τ → Bool) (dsq : Llc → List (Queued τ)) (llc : Llc) : Prop :=
  ∃ e ∈ dsq llc, allowed e.task = true

theorem firstAllowed_eq_none_iff :
    firstAllowed allowed dsq llc = none ↔ ¬ HasAllowed allowed dsq llc := by
  rw [firstAllowed, List.find?_eq_none, HasAllowed]
  exact ⟨fun h ⟨e, he, ha⟩ => h e he ha, fun h e he ha => h ⟨e, he, ha⟩⟩

theorem hasAllowed_of_firstAllowed {e : Queued τ} (h : firstAllowed allowed dsq llc = some e) :
    HasAllowed allowed dsq llc := by
  obtain ⟨ha, -⟩ := List.find?_eq_some_iff_append.mp h
  exact ⟨e, List.mem_of_find?_eq_some h, ha⟩

/-- The queue the task should come from: that of the CPU's own LLC, else the cheapest flagged one,
else the flagged one with the lowest number, each if it has a task for the CPU. -/
inductive DispatchSource (ro : Rodata) (etd : Llc → Llc → U8) (allowed : τ → Bool) (cpu : Cpu)
    (dsq : Llc → List (Queued τ)) (nonempty : Llc → U8) (llc : Llc) : Prop
  | home (hllc : llc = ro.llcOf cpu) (h : HasAllowed allowed dsq llc)
  | cheapest (hhome : ¬ HasAllowed allowed dsq (ro.llcOf cpu))
      (hpref : Preferred ro etd cpu nonempty llc) (h : HasAllowed allowed dsq llc)
  | lowest (hhome : ¬ HasAllowed allowed dsq (ro.llcOf cpu))
      (hpref : ∀ best, Preferred ro etd cpu nonempty best → ¬ HasAllowed allowed dsq best)
      (hsteal : Stealable ro cpu nonempty llc) (h : HasAllowed allowed dsq llc)
      (hlow : ∀ llc' < llc, Stealable ro cpu nonempty llc' → ¬ HasAllowed allowed dsq llc')

/-- What a dispatch should do. -/
structure DispatchSpec (ro : Rodata) (etd : Llc → Llc → U8) (allowed : τ → Bool) (cpu : Cpu)
    (dsq : Llc → List (Queued τ)) (nonempty : Llc → U8) (r : DispatchState τ) : Prop where
  /-- a task is moved whenever some queue has one for the CPU, and otherwise none is -/
  moved_iff : r.moved.isSome ↔
    ∃ llc : Llc, llc.val < ro.nrLlcs.toNat ∧ HasAllowed allowed dsq llc
  /-- it is the first one for the CPU in the queue it should come from -/
  moved_source : ∀ llc e, r.moved = some (llc, e) →
    DispatchSource ro etd allowed cpu dsq nonempty llc ∧ firstAllowed allowed dsq llc = some e
  /-- it is taken out of that queue, and nothing else is -/
  dsq_eq : r.dsq = takeMoved allowed dsq r.moved
  /-- no queue is tried twice -/
  nodup : r.probes.Nodup
  /-- the flags still cover the queues -/
  flags : FlagsCover ro r.dsq r.nonempty

/-- The first hit in a set of LLCs is the lowest. -/
theorem findSome?_filter_lowest {β : Type*} {f : Llc → Option β} {p : Llc → Prop}
    [DecidablePred p] {b : β} (h : ((List.finRange 8).filter p).findSome? f = some b) :
    ∃ llc, p llc ∧ f llc = some b ∧ ∀ llc' < llc, p llc' → f llc' = none := by
  obtain ⟨before, llc, after, hsplit, hf, hnone⟩ := List.findSome?_eq_some_iff.mp h
  have hmem : ∀ {llc'}, llc' ∈ before ++ llc :: after ↔ p llc' := by
    intro llc'
    rw [← hsplit, List.mem_filter, decide_eq_true_eq]
    exact and_iff_right (List.mem_finRange _)
  have hsorted : (before ++ llc :: after).Pairwise (· < ·) := by
    rw [← hsplit]
    exact (List.pairwise_lt_finRange 8).filter _
  refine ⟨llc, hmem.mp (List.mem_append_right _ (List.mem_cons_self ..)), hf, ?_⟩
  intro llc' hlt hp
  refine hnone llc' ((List.mem_append.mp (hmem.mpr hp)).resolve_right fun hafter => ?_)
  rcases List.mem_cons.mp hafter with rfl | hafter
  · exact lt_irrefl _ hlt
  · have hgt := (List.pairwise_cons.mp (List.pairwise_append.mp hsorted).2.1).1 llc' hafter
    exact lt_asymm hlt hgt

/-- Where the search through the victims finds a task. -/
theorem victims_source {e : Queued τ} (hhome : ¬ HasAllowed allowed dsq (ro.llcOf cpu))
    (h : (victims ro etd cpu nonempty).findSome?
      (fun llc => (firstAllowed allowed dsq llc).map (llc, ·)) = some (llc, e)) :
    DispatchSource ro etd allowed cpu dsq nonempty llc ∧ firstAllowed allowed dsq llc = some e := by
  have hhit : ∀ {llc'}, (firstAllowed allowed dsq llc').map (llc', ·) = some (llc, e) →
      llc' = llc ∧ firstAllowed allowed dsq llc = some e := by
    intro llc' hmap
    obtain ⟨e', he', heq⟩ := Option.map_eq_some_iff.mp hmap
    obtain ⟨rfl, rfl⟩ := Prod.mk.inj heq
    exact ⟨rfl, he'⟩
  have hmiss : ∀ {llc'}, (firstAllowed allowed dsq llc').map (llc', ·) = none →
      ¬ HasAllowed allowed dsq llc' := fun hmap =>
    firstAllowed_eq_none_iff.mp (Option.map_eq_none_iff.mp hmap)
  by_cases hknown : ∃ best, Preferred ro etd cpu nonempty best
  · obtain ⟨best, hbest⟩ := hknown
    rw [victims_of_preferred hbest, List.findSome?_cons] at h
    split at h
    · next b hb =>
      rw [h] at hb
      obtain ⟨rfl, he⟩ := hhit hb
      exact ⟨.cheapest hhome hbest (hasAllowed_of_firstAllowed he), he⟩
    · next hb =>
      obtain ⟨llc', ⟨hsteal, -⟩, hmap, hlow⟩ := findSome?_filter_lowest h
      obtain ⟨rfl, he⟩ := hhit hmap
      refine ⟨.lowest hhome ?_ hsteal (hasAllowed_of_firstAllowed he) ?_, he⟩
      · rintro other hother
        exact hother.unique hbest ▸ hmiss hb
      · intro llc'' hlt hsteal'
        rcases eq_or_ne llc'' best with rfl | hne
        · exact hmiss hb
        · exact hmiss (hlow llc'' hlt ⟨hsteal', hne⟩)
  · have hunknown := not_exists.mp hknown
    rw [victims_of_unknown hunknown] at h
    obtain ⟨llc', hsteal, hmap, hlow⟩ := findSome?_filter_lowest h
    obtain ⟨rfl, he⟩ := hhit hmap
    refine ⟨.lowest hhome (fun best hbest => absurd hbest (hunknown best)) hsteal
      (hasAllowed_of_firstAllowed he) ?_, he⟩
    exact fun llc'' hlt hsteal' => hmiss (hlow llc'' hlt hsteal')

/-- **Dispatch conserves work.** If every flag over a task is set, one dispatch moves exactly one
task whenever a queue has one for the CPU, from the queue it should come from. -/
theorem imperatorDispatch_spec (ro : Rodata) (etd : Llc → Llc → U8) (allowed : τ → Bool) (cpu : Cpu)
    (dsq : Llc → List (Queued τ)) (nonempty : Llc → U8) (hnr : ro.nrLlcs.toNat ≤ 8)
    (hhome : ro.cpuLlcId cpu < ro.nrLlcs) (hflags : FlagsCover ro dsq nonempty) :
    DispatchSpec ro etd allowed cpu dsq nonempty
      (imperatorDispatch ro etd allowed cpu dsq nonempty) := by
  rw [imperatorDispatch_eq hnr hhome]
  obtain ⟨hmoved, hdsq⟩ :=
    @probeAll_moved τ allowed ⟨dsq, nonempty, none, []⟩ (probeOrder ro etd cpu nonempty) rfl
  refine ⟨?_, ?_, hdsq, ?_, flagsCover_probeAll hflags⟩
  · rw [hmoved, List.findSome?_isSome_iff]
    constructor
    · rintro ⟨llc, hmem, hsome⟩
      rw [Option.isSome_map] at hsome
      obtain ⟨e, he⟩ := Option.isSome_iff_exists.mp hsome
      refine ⟨llc, ?_, hasAllowed_of_firstAllowed he⟩
      rcases List.mem_cons.mp hmem with rfl | hvictim
      · rw [llcOf_val hnr hhome]
        exact BitVec.lt_def.mp hhome
      · exact (mem_victims.mp hvictim).1
    · rintro ⟨llc, hlt, e, he, ha⟩
      refine ⟨llc, ?_, ?_⟩
      · refine List.mem_cons.mpr ((eq_or_ne llc (ro.llcOf cpu)).imp_right fun hne => ?_)
        exact mem_victims.mpr ⟨hlt, hne, hflags llc hlt (List.ne_nil_of_mem he)⟩
      · rw [Option.isSome_map, Option.isSome_iff_ne_none]
        exact fun hnone => firstAllowed_eq_none_iff.mp hnone ⟨e, he, ha⟩
  · intro llc e hsome
    rw [hmoved, probeOrder, List.findSome?_cons] at hsome
    split at hsome
    · next b hb =>
      obtain ⟨e', he', heq⟩ := Option.map_eq_some_iff.mp (hb.trans hsome)
      obtain ⟨rfl, rfl⟩ := Prod.mk.inj heq
      exact ⟨.home rfl (hasAllowed_of_firstAllowed he'), he'⟩
    · next hb =>
      exact victims_source (firstAllowed_eq_none_iff.mp (Option.map_eq_none_iff.mp hb)) hsome
  · exact (nodup_probeOrder ro etd cpu nonempty).sublist probeAll_probes.sublist

end Spec

/-- A task that may not run on the CPU in its own LLC, and behind another such one in the second
LLC a task that may. -/
def pinnedQueues (llc : Llc) : List (Queued Bool) :=
  if llc = 0 then [⟨false, ⟨0, 0, 0⟩⟩]
  else if llc = 1 then [⟨false, ⟨1, 0, 0⟩⟩, ⟨true, ⟨1, 0, 1⟩⟩]
  else []

/-- The task is found behind the pinned ones. -/
theorem pinnedQueues_dispatch :
    DispatchSpec dualLlc (fun _ _ => 0) id 0 pinnedQueues (fun _ => 1)
      (imperatorDispatch dualLlc (fun _ _ => 0) id 0 pinnedQueues fun _ => 1) :=
  imperatorDispatch_spec dualLlc (fun _ _ => 0) id 0 pinnedQueues (fun _ => 1) (by decide)
    (by decide) fun _ _ _ => (by decide : (1 : U8) ≠ 0)

/-! ### Without interleaving -/

section Alone

variable {θ : Type*} [DecidableEq θ] {ro : Rodata} {etd : Llc → Llc → U8}
  {allowed : τ → Cpu → Bool} {t : θ} {cpu : Cpu} {llc : Llc} {probe : Probe}
  {pc pc' pc'' : Pc} {r r' r'' : DispatchState τ}

/-- The thread is at `pc`, and the queues and bytes are those of `r`. -/
structure Queues.At (t : θ) (pc : Pc) (r : DispatchState τ) (s : Queues θ τ) : Prop where
  dsq : s.dsq = r.dsq
  nonempty : s.nonempty = r.nonempty
  pc : s.pc t = pc

/-- While only the thread makes accesses, it comes from one point to another. -/
def Leads (ro : Rodata) (allowed : τ → Cpu → Bool) (t : θ) (etd : Llc → Llc → U8) (pc : Pc)
    (r : DispatchState τ) (pc' : Pc) (r' : DispatchState τ) : Prop :=
  ∀ s : Queues θ τ, s.At t pc r → ∃ n s',
    Run (QueueStep ro allowed) s (List.replicate n (.access t etd)) s' ∧ s'.At t pc' r'

theorem Leads.refl : Leads ro allowed t etd pc r pc r := fun s hs => ⟨0, s, .nil, hs⟩

theorem Leads.trans (h : Leads ro allowed t etd pc r pc' r')
    (h' : Leads ro allowed t etd pc' r' pc'' r'') : Leads ro allowed t etd pc r pc'' r'' := by
  intro s hs
  obtain ⟨n, s', hrun, hs'⟩ := h s hs
  obtain ⟨n', s'', hrun', hs''⟩ := h' s' hs'
  refine ⟨n + n', s'', ?_, hs''⟩
  rw [← List.replicate_append_replicate]
  exact hrun.append hrun'

/-- One access. -/
theorem Leads.access
    (h : ∀ s : Queues θ τ, s.At t pc r → (s.access ro allowed t etd).At t pc' r') :
    Leads ro allowed t etd pc r pc' r' :=
  fun s hs => ⟨1, _, Run.single_iff.mpr rfl, h s hs⟩

/-- A probe that moves a task is one access. -/
theorem leads_probe_of_some {e : Queued τ}
    (hfirst : firstAllowed (allowed · cpu) r.dsq llc = some e) :
    Leads ro allowed t etd (.move cpu llc probe) r .idle (r.probe (allowed · cpu) llc) := by
  have hany : (r.dsq llc).any (fun e => allowed e.task cpu) = true := by
    rw [← List.isSome_find?]
    exact Option.isSome_of_mem hfirst
  refine .access fun s hs => ?_
  rw [Queues.access, hs.pc, hs.dsq, probe_of_some hfirst]
  dsimp only
  rw [if_pos hany]
  exact ⟨by rw [← hs.dsq]; rfl, hs.nonempty, Queues.goto_pc_self ..⟩

/-- One that moves none goes on to count the queue, ... -/
theorem leads_count (hfirst : firstAllowed (allowed · cpu) r.dsq llc = none) :
    Leads ro allowed t etd (.move cpu llc probe) r (.count cpu llc probe) r := by
  have hany : (r.dsq llc).any (fun e => allowed e.task cpu) ≠ true := by
    have hnone : (r.dsq llc).find? (fun e => allowed e.task cpu) = none := hfirst
    rw [← List.isSome_find?, hnone]
    exact Bool.false_ne_true
  refine .access fun s hs => ?_
  rw [Queues.access, hs.pc, hs.dsq]
  dsimp only
  rw [if_neg hany]
  exact ⟨hs.dsq, hs.nonempty, Queues.goto_pc_self ..⟩

/-- ... and to store zero if it is empty. -/
theorem leads_probe_of_none (hfirst : firstAllowed (allowed · cpu) r.dsq llc = none) :
    Leads ro allowed t etd (.count cpu llc probe) r (afterProbe ro cpu probe)
      (r.probe (allowed · cpu) llc) := by
  have hprobe := probe_of_none hfirst
  by_cases hempty : (r.dsq llc).length = 0
  · have hcount : Leads ro allowed t etd (.count cpu llc probe) r (.clear cpu llc probe) r := by
      refine .access fun s hs => ?_
      rw [Queues.access, hs.pc, hs.dsq]
      dsimp only
      rw [if_pos hempty]
      exact ⟨hs.dsq, hs.nonempty, Queues.goto_pc_self ..⟩
    refine hcount.trans (.access fun s hs => ?_)
    rw [Queues.access, hs.pc, hprobe, if_pos hempty]
    exact ⟨hs.dsq, by rw [← hs.nonempty]; rfl, Queues.goto_pc_self ..⟩
  · refine .access fun s hs => ?_
    rw [Queues.access, hs.pc, hprobe, if_neg hempty, hs.dsq]
    dsimp only
    rw [if_neg hempty]
    exact ⟨hs.dsq, hs.nonempty, Queues.goto_pc_self ..⟩

/-- The accesses of a probe. -/
theorem leads_probe (hr : r.moved = none) :
    Leads ro allowed t etd (.move cpu llc probe) r
      (if (r.probe (allowed · cpu) llc).moved.isSome then .idle else afterProbe ro cpu probe)
      (r.probe (allowed · cpu) llc) := by
  cases hfirst : firstAllowed (allowed · cpu) r.dsq llc with
  | none =>
    have hmoved : (r.probe (allowed · cpu) llc).moved.isSome ≠ true := by
      rw [probe_of_none hfirst, hr]
      exact Bool.false_ne_true
    rw [if_neg hmoved]
    exact (leads_count hfirst).trans (leads_probe_of_none hfirst)
  | some e =>
    have hmoved : (r.probe (allowed · cpu) llc).moved.isSome = true := by
      rw [probe_of_some hfirst]
      rfl
    rw [if_pos hmoved]
    exact leads_probe_of_some hfirst

/-- The accesses of the last loop. -/
theorem leads_stealNext {rounds i : ℕ} {stealMask : U32} (hi : i + rounds = ro.nrLlcs.toNat)
    (hr : r.moved = none) : Leads ro allowed t etd (stealNext ro cpu stealMask i) r .idle
      (stealLoop (allowed · cpu) rounds stealMask r) := by
  induction rounds generalizing i stealMask r with
  | zero =>
    rw [stealNext, if_neg (fun h => by omega), stealLoop]
    exact .refl
  | succ rounds ih =>
    rw [stealLoop]
    split
    · next hzero =>
      rw [stealNext, if_neg fun h => h.1 hzero]
      exact .refl
    · next hne =>
      rw [stealNext, if_pos ⟨hne, by omega⟩]
      refine (leads_probe hr).trans ?_
      dsimp only
      split
      · exact .refl
      · next hmoved =>
        exact ih (by omega) (Option.not_isSome_iff_eq_none.mp hmoved)

/-- The accesses of the scan. -/
theorem leads_scanNext {rounds i : ℕ} (hi : i + rounds = ro.nrLlcs.toNat) :
    Leads ro allowed t etd (scanNext ro cpu i (stealScan ro etd cpu r.nonempty i)) r
      (stealFirst ro cpu (stealScan ro etd cpu r.nonempty ro.nrLlcs.toNat)) r := by
  induction rounds generalizing i with
  | zero =>
    obtain rfl : i = ro.nrLlcs.toNat := hi
    rw [scanNext, if_neg (Nat.lt_irrefl _)]
    exact .refl
  | succ rounds ih =>
    rw [scanNext, if_pos (by omega)]
    refine Leads.trans (.access fun s hs => ?_) (ih (i := i + 1) (by omega))
    rw [Queues.access, hs.pc]
    refine ⟨hs.dsq, hs.nonempty, (Queues.goto_pc_self ..).trans ?_⟩
    rw [hs.nonempty, stealScan, stealScan, List.range_succ, List.foldl_append]
    rfl

/-- The accesses after the scan. -/
theorem leads_stealFirst {l : Scan} (hr : r.moved = none) :
    Leads ro allowed t etd (stealFirst ro cpu l) r .idle
      (if l.cheapestLlc < ro.nrLlcs ∧ 0 < l.minCost then
        let stealMask := l.stealMask &&& ~~~(1#32 <<< l.cheapestLlc.toNat)
        let r := r.probe (allowed · cpu) (llcIdx l.cheapestLlc)
        if r.moved.isSome then r else stealLoop (allowed · cpu) ro.nrLlcs.toNat stealMask r
      else stealLoop (allowed · cpu) ro.nrLlcs.toNat l.stealMask r) := by
  rw [stealFirst]
  split
  · refine (leads_probe hr).trans ?_
    dsimp only
    split
    · exact .refl
    · next hmoved =>
      exact leads_stealNext (Nat.zero_add _) (Option.not_isSome_iff_eq_none.mp hmoved)
  · exact leads_stealNext (Nat.zero_add _) hr

/-- **Without interleaving the steps of a dispatch are the dispatch.** The thread comes to its end,
and leaves the queues and bytes that `imperator_dispatch` leaves when it runs as one step. -/
theorem dispatchAlone_run (ro : Rodata) (allowed : τ → Cpu → Bool) (etd : Llc → Llc → U8)
    (cpu : Cpu) {s : Queues θ τ} (hidle : s.pc t = .idle) :
    ∃ n s', Run (QueueStep ro allowed) s
        (.dispatch t cpu :: List.replicate n (.access t etd)) s' ∧
      s'.At t .idle (imperatorDispatch ro etd (allowed · cpu) cpu s.dsq s.nonempty) := by
  have hleads :
      Leads ro allowed t etd (.move cpu (ro.llcOf cpu) .home) ⟨s.dsq, s.nonempty, none, []⟩
      .idle (imperatorDispatch ro etd (allowed · cpu) cpu s.dsq s.nonempty) := by
    refine (leads_probe rfl).trans ?_
    rw [imperatorDispatch]
    dsimp only
    split
    · exact .refl
    · next hmoved =>
      rw [afterProbe]
      split
      · exact .refl
      · exact (leads_scanNext (Nat.zero_add _)).trans
          (leads_stealFirst (Option.not_isSome_iff_eq_none.mp hmoved))
  obtain ⟨n, s', hrun, hs'⟩ := hleads (s.goto t (.move cpu (ro.llcOf cpu) .home))
    ⟨rfl, rfl, Queues.goto_pc_self ..⟩
  refine ⟨n, s', ?_, hs'⟩
  rw [← List.singleton_append]
  refine (Run.single_iff.mpr ?_).append hrun
  exact (if_pos hidle).symm

end Alone

end Imperator
