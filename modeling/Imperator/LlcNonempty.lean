import Imperator.Enqueue
import Imperator.ForMathlib.Transition
import Mathlib.Data.List.Sort

/-!
# The non-empty bytes of the LLC queues

One byte per LLC tells the other LLCs whether its queue is worth a look. An enqueue sets it after
the insert, unless it reads that it is set already; a dispatch clears it when its move has failed
and it then reads a length of zero. None of this is atomic, so here every access to the queues and
to the bytes is a step of its own, and the callbacks of any number of threads interleave.

A set byte over an empty queue does no harm. A cleared byte over a task does: the steal scan of the
other LLCs passes by. It happens when an enqueue comes in between the reading of the length and the
store of the zero, reads the byte while it is still set, and leaves it at that.

## Main definitions

* `Pc` — where a thread is in `imperator_enqueue` or `imperator_dispatch`
* `Queues`, `Queues.next` — the machine
* `Marked` — every task in a queue is visible, or about to be
* `ClearsEmpty` — what a store of zero should find

## Main results

* `marked_next`, `clearsEmpty_of_marked` — one step
* `queued_visible_iff` — every interleaving
* `enqueueAlone_eq` — without interleaving, the steps of an enqueue are `imperator_enqueue`
-/

namespace Imperator

open Transition

variable {θ τ : Type*}

/-! ### The code between two accesses -/

/-- Which probe of `imperator_dispatch` it is, with the locals that are still needed after it. -/
inductive Probe
  /-- the LLC of the CPU -/
  | home
  /-- the cheapest LLC to steal from; `stealMask` has the others -/
  | cheapest (stealMask : U32)
  /-- a victim of the last loop; `i` counts its rounds -/
  | victim (stealMask : U32) (i : ℕ)
  deriving DecidableEq

/-- The locals of the scan that builds the steal mask. -/
structure Scan where
  stealMask : U32
  cheapestLlc : U32
  minCost : U8
  deriving DecidableEq

/-- The next access of a thread. -/
inductive Pc
  | idle
  /-- `llc_mark_nonempty`: load the byte -/
  | mark (llc : Llc)
  /-- `llc_mark_nonempty`: store one -/
  | store (llc : Llc)
  /-- `scx_bpf_dsq_move_to_local` -/
  | move (cpu : Cpu) (llc : Llc) (probe : Probe)
  /-- `scx_bpf_dsq_nr_queued` -/
  | count (cpu : Cpu) (llc : Llc) (probe : Probe)
  /-- store zero -/
  | clear (cpu : Cpu) (llc : Llc) (probe : Probe)
  /-- load the byte of LLC `i` for the steal mask -/
  | scan (cpu : Cpu) (i : ℕ) (locals : Scan)
  deriving DecidableEq

/-- The last loop of `imperator_dispatch`, before its next round. -/
def stealNext (ro : Rodata) (cpu : Cpu) (stealMask : U32) (i : ℕ) : Pc :=
  if stealMask ≠ 0 ∧ i < ro.nrLlcs.toNat then
    .move cpu (Fin.ofNat 8 stealMask.scanForward) (.victim (stealMask &&& (stealMask - 1)) (i + 1))
  else .idle

/-- After the scan: the cheapest LLC first, if there is one. -/
def stealFirst (ro : Rodata) (cpu : Cpu) (l : Scan) : Pc :=
  if l.cheapestLlc < ro.nrLlcs ∧ 0 < l.minCost then
    .move cpu (llcIdx l.cheapestLlc)
      (.cheapest (l.stealMask &&& ~~~(1#32 <<< l.cheapestLlc.toNat)))
  else stealNext ro cpu l.stealMask 0

/-- The scan before its next round. The loader counts at most `CAKE_MAX_LLCS` LLCs, so `i` is the
number of one. -/
def scanNext (ro : Rodata) (cpu : Cpu) (i : ℕ) (l : Scan) : Pc :=
  if i < ro.nrLlcs.toNat then .scan cpu i l else stealFirst ro cpu l

/-- What follows a probe that found nothing. -/
def afterProbe (ro : Rodata) (cpu : Cpu) : Probe → Pc
  | .home => if ro.nrLlcs ≤ 1 then .idle else scanNext ro cpu 0 ⟨0, ro.nrLlcs, 0⟩
  | .cheapest stealMask => stealNext ro cpu stealMask 0
  | .victim stealMask i => stealNext ro cpu stealMask i

/-- One round of the scan: `byte` is what the load gives, `cost` the entry of `llc_etd_cost`. -/
def scanRound (ro : Rodata) (cpu : Cpu) (i : ℕ) (byte cost : U8) (l : Scan) : Scan :=
  if i ≠ (ro.llcOf cpu).val ∧ byte ≠ 0 then
    let cheaper := 0 < cost ∧ (l.minCost = 0 ∨ cost < l.minCost)
    { stealMask := l.stealMask ||| 1#32 <<< i
      cheapestLlc := if cheaper then BitVec.ofNat 32 i else l.cheapestLlc
      minCost := if cheaper then cost else l.minCost }
  else l

/-! ### The machine -/

/-- A task in a queue. -/
structure Queued (τ : Type*) where
  task : τ
  insert : DsqInsert

/-- The queues and bytes of the LLCs, and what every thread does next. -/
structure Queues (θ τ : Type*) where
  dsq : Llc → List (Queued τ)
  nonempty : Llc → U8
  pc : θ → Pc

/-- `time_before64`, the order of a queue. -/
def timeBefore (a b : U64) : Prop := (a - b).msb = true

instance (a b : U64) : Decidable (timeBefore a b) := inferInstanceAs (Decidable (_ = _))

/-- `scx_bpf_dsq_insert_vtime`: before the first task that is later. -/
def dsqInsertVtime (e : Queued τ) (q : List (Queued τ)) : List (Queued τ) :=
  q.orderedInsert (fun a b => timeBefore a.insert.vtime b.insert.vtime) e

/-- What can happen. A thread that is busy starts nothing. -/
inductive QueueEvent (θ τ : Type*)
  /-- `imperator_enqueue` inserts a task -/
  | enqueue (t : θ) (p : τ) (ins : DsqInsert)
  /-- `imperator_dispatch` is called on a CPU -/
  | dispatch (t : θ) (cpu : Cpu)
  /-- the thread makes its next access; `etd` is `llc_etd_cost` at this time -/
  | access (t : θ) (etd : Llc → Llc → U8)

namespace Queues

/-- Nothing queued, all bytes zero, every thread idle. -/
def init : Queues θ τ := ⟨fun _ => [], fun _ => 0, fun _ => .idle⟩

/-- Writing the queue of an LLC. -/
def setDsq (s : Queues θ τ) (llc : Llc) (q : List (Queued τ)) : Queues θ τ :=
  { s with dsq := Function.update s.dsq llc q }

/-- Storing to the byte of an LLC. -/
def setByte (s : Queues θ τ) (llc : Llc) (byte : U8) : Queues θ τ :=
  { s with nonempty := Function.update s.nonempty llc byte }

theorem setDsq_dsq_self (s : Queues θ τ) (llc : Llc) (q : List (Queued τ)) :
    (s.setDsq llc q).dsq llc = q :=
  Function.update_self _ _ _

theorem setDsq_dsq_of_ne {s : Queues θ τ} {llc llc' : Llc} {q : List (Queued τ)} (h : llc' ≠ llc) :
    (s.setDsq llc q).dsq llc' = s.dsq llc' :=
  Function.update_of_ne h _ _

theorem setByte_nonempty_self (s : Queues θ τ) (llc : Llc) (byte : U8) :
    (s.setByte llc byte).nonempty llc = byte :=
  Function.update_self _ _ _

theorem setByte_nonempty_of_ne {s : Queues θ τ} {llc llc' : Llc} {byte : U8} (h : llc' ≠ llc) :
    (s.setByte llc byte).nonempty llc' = s.nonempty llc' :=
  Function.update_of_ne h _ _

variable [DecidableEq θ]

/-- The thread goes on to `pc`. -/
def goto (s : Queues θ τ) (t : θ) (pc : Pc) : Queues θ τ :=
  { s with pc := Function.update s.pc t pc }

@[simp] theorem goto_pc_self (s : Queues θ τ) (t : θ) (pc : Pc) : (s.goto t pc).pc t = pc :=
  Function.update_self _ _ _

@[simp] theorem goto_pc_of_ne {s : Queues θ τ} {t t' : θ} {pc : Pc} (h : t' ≠ t) :
    (s.goto t pc).pc t' = s.pc t' :=
  Function.update_of_ne h _ _

/-- The next access of a thread. `allowed` says which CPUs a task may run on. -/
def access (ro : Rodata) (allowed : τ → Cpu → Bool) (s : Queues θ τ) (t : θ)
    (etd : Llc → Llc → U8) : Queues θ τ :=
  match s.pc t with
  | .idle => s
  | .mark llc => s.goto t (if s.nonempty llc = 0 then .store llc else .idle)
  | .store llc => (s.setByte llc 1).goto t .idle
  | .move cpu llc probe =>
    if (s.dsq llc).any fun e => allowed e.task cpu then
      (s.setDsq llc ((s.dsq llc).eraseP fun e => allowed e.task cpu)).goto t .idle
    else s.goto t (.count cpu llc probe)
  | .count cpu llc probe =>
    s.goto t (if (s.dsq llc).length = 0 then .clear cpu llc probe else afterProbe ro cpu probe)
  | .clear cpu llc probe =>
    (s.setByte llc 0).goto t (afterProbe ro cpu probe)
  | .scan cpu i l =>
    s.goto t (scanNext ro cpu (i + 1) (scanRound ro cpu i (s.nonempty (Fin.ofNat 8 i))
      (etd (ro.llcOf cpu) (Fin.ofNat 8 i)) l))

/-- The machine after an event. -/
def next (ro : Rodata) (allowed : τ → Cpu → Bool) (s : Queues θ τ) : QueueEvent θ τ → Queues θ τ
  | .enqueue t p ins =>
    if s.pc t = .idle then
      (s.setDsq ins.llc (dsqInsertVtime ⟨p, ins⟩ (s.dsq ins.llc))).goto t (.mark ins.llc)
    else s
  | .dispatch t cpu =>
    if s.pc t = .idle then s.goto t (.move cpu (ro.llcOf cpu) .home) else s
  | .access t etd => s.access ro allowed t etd

end Queues

/-! ### Visible tasks -/

/-- The thread has inserted a task into the queue of the LLC and is not done marking it. -/
def Pc.Marks (llc : Llc) : Pc → Prop
  | .mark l | .store l => l = llc
  | _ => False

/-- Every task in a queue is visible to the other LLCs, or is about to be. -/
def Marked (s : Queues θ τ) : Prop :=
  ∀ llc, s.dsq llc ≠ [] → s.nonempty llc ≠ 0 ∨ ∃ t, (s.pc t).Marks llc

/-- No callback is midway. -/
def Quiescent (s : Queues θ τ) : Prop := ∀ t, s.pc t = .idle

/-- A store of zero finds the queue still empty, or an enqueue to it that is not done. -/
def ClearsEmpty (s : Queues θ τ) : QueueEvent θ τ → Prop
  | .access t _ => ∀ cpu llc probe, s.pc t = .clear cpu llc probe →
    s.dsq llc = [] ∨ ∃ t', (s.pc t').Marks llc
  | _ => True

section Dispatch

variable (ro : Rodata) (cpu : Cpu) (llc : Llc)

theorem stealNext_not_marks (stealMask : U32) (i : ℕ) :
    ¬ (stealNext ro cpu stealMask i).Marks llc := by
  rw [stealNext]
  split <;> exact id

theorem scanNext_not_marks (i : ℕ) (l : Scan) : ¬ (scanNext ro cpu i l).Marks llc := by
  rw [scanNext]
  split
  · exact id
  · rw [stealFirst]
    split
    · exact id
    · exact stealNext_not_marks ro cpu llc _ _

/-- A dispatch marks nothing. -/
theorem afterProbe_not_marks (probe : Probe) : ¬ (afterProbe ro cpu probe).Marks llc := by
  cases probe with
  | home =>
    rw [afterProbe]
    split
    · exact id
    · exact scanNext_not_marks ro cpu llc _ _
  | cheapest | victim => exact stealNext_not_marks ro cpu llc _ _

end Dispatch

/-! ### One step -/

variable [DecidableEq θ] {ro : Rodata} {allowed : τ → Cpu → Bool} {s : Queues θ τ} {t : θ} {pc : Pc}
  {e : QueueEvent θ τ}

/-- What is left to show after a step of one thread. -/
theorem marked_goto (h : ∀ llc, s.dsq llc ≠ [] →
    s.nonempty llc ≠ 0 ∨ pc.Marks llc ∨ ∃ t', t' ≠ t ∧ (s.pc t').Marks llc) :
    Marked (s.goto t pc) := by
  intro llc hq
  rcases h llc hq with hbyte | hpc | ⟨t', hne, ht'⟩
  · exact Or.inl hbyte
  · exact Or.inr ⟨t, by rwa [Queues.goto_pc_self]⟩
  · exact Or.inr ⟨t', by rwa [Queues.goto_pc_of_ne hne]⟩

omit [DecidableEq θ] in
/-- What is known before it. -/
theorem Marked.split (h : Marked s) (t : θ) (llc : Llc) (hq : s.dsq llc ≠ []) :
    s.nonempty llc ≠ 0 ∨ (s.pc t).Marks llc ∨ ∃ t', t' ≠ t ∧ (s.pc t').Marks llc := by
  refine (h llc hq).imp_right ?_
  rintro ⟨t', ht'⟩
  rcases eq_or_ne t' t with rfl | hne
  · exact Or.inl ht'
  · exact Or.inr ⟨t', hne, ht'⟩

/-- A thread that marks nothing may go on to anything. -/
theorem marked_goto_of_not_marks (h : Marked s) (hpc : ∀ llc, ¬ (s.pc t).Marks llc) :
    Marked (s.goto t pc) :=
  marked_goto fun llc hq =>
    (h.split t llc hq).imp_right fun hm => Or.inr (hm.resolve_left (hpc llc))

/-- A store of one marks what the thread has marked before. -/
theorem marked_store {l : Llc} (h : Marked s) (hpc : s.pc t = .store l) :
    Marked ((s.setByte l 1).goto t pc) := by
  refine marked_goto fun llc hq => ?_
  rcases eq_or_ne llc l with rfl | hne
  · refine Or.inl ?_
    rw [Queues.setByte_nonempty_self]
    decide
  · rw [Queues.setByte_nonempty_of_ne hne]
    refine (h.split t llc hq).imp_right fun hm => Or.inr (hm.resolve_left fun hmark => ?_)
    rw [hpc] at hmark
    exact hne hmark.symm

omit [DecidableEq θ] in
/-- Taking a task from a queue fills none. -/
theorem Marked.erase {l : Llc} {p : Queued τ → Bool} (h : Marked s) :
    Marked (s.setDsq l ((s.dsq l).eraseP p)) := by
  intro llc hq
  refine h llc fun hempty => hq ?_
  rcases eq_or_ne llc l with rfl | hne
  · rw [Queues.setDsq_dsq_self, hempty, List.eraseP_nil]
  · rw [Queues.setDsq_dsq_of_ne hne, hempty]

/-- A store of zero to the byte of an empty queue, or of one that another thread marks. -/
theorem marked_clear {cpu : Cpu} {l : Llc} {probe : Probe} (h : Marked s)
    (hpc : s.pc t = .clear cpu l probe)
    (hclear : s.dsq l = [] ∨ ∃ t', (s.pc t').Marks l) : Marked ((s.setByte l 0).goto t pc) := by
  refine marked_goto fun llc hq => ?_
  have hsplit := h.split t llc hq
  rw [hpc] at hsplit
  rcases eq_or_ne llc l with rfl | hne
  · obtain ⟨t', ht'⟩ := hclear.resolve_left hq
    refine Or.inr (Or.inr ⟨t', fun heq => ?_, ht'⟩)
    rw [heq, hpc] at ht'
    exact ht'
  · rw [Queues.setByte_nonempty_of_ne hne]
    exact hsplit.imp_right fun hm => Or.inr (hm.resolve_left id)

/-- The accesses, one by one. -/
theorem marked_access {etd : Llc → Llc → U8} (h : Marked s)
    (hclear : ClearsEmpty s (.access t etd)) : Marked (s.access ro allowed t etd) := by
  rw [Queues.access.eq_def]
  cases hpc : s.pc t with
  | idle => exact h
  | mark l =>
    refine marked_goto fun llc hq => ?_
    rcases h.split t llc hq with hbyte | hmark | hother
    · exact Or.inl hbyte
    · rw [hpc] at hmark
      obtain rfl : l = llc := hmark
      split
      · exact Or.inr (Or.inl rfl)
      · next hbyte => exact Or.inl hbyte
    · exact Or.inr (Or.inr hother)
  | store l => exact marked_store h hpc
  | move cpu l probe =>
    have hnot : ∀ llc, ¬ (s.pc t).Marks llc := fun llc => by rw [hpc]; exact id
    dsimp only
    split
    · exact marked_goto_of_not_marks h.erase hnot
    · exact marked_goto_of_not_marks h hnot
  | count cpu l probe =>
    exact marked_goto_of_not_marks h fun llc => by rw [hpc]; exact id
  | clear cpu l probe => exact marked_clear h hpc (hclear cpu l probe hpc)
  | scan cpu i l =>
    exact marked_goto_of_not_marks h fun llc => by rw [hpc]; exact id

/-- **One step** keeps every task visible, if a store of zero finds the queue empty. -/
theorem marked_next (h : Marked s) (hclear : ClearsEmpty s e) : Marked (s.next ro allowed e) := by
  cases e with
  | enqueue t p ins =>
    rw [Queues.next]
    split
    · next hidle =>
      refine marked_goto fun llc hq => ?_
      rcases eq_or_ne llc ins.llc with rfl | hne
      · exact Or.inr (Or.inl rfl)
      · rw [Queues.setDsq_dsq_of_ne hne] at hq
        have hsplit := h.split t llc hq
        rw [hidle] at hsplit
        exact hsplit.imp_right fun hm => Or.inr (hm.resolve_left id)
    · exact h
  | dispatch t cpu =>
    rw [Queues.next]
    split
    · next hidle => exact marked_goto_of_not_marks h fun llc => by rw [hidle]; exact id
    · exact h
  | access t etd => exact marked_access h hclear

/-- **And only then.** A store of zero that leaves every task visible found the queue empty or an
enqueue that is not done. -/
theorem clearsEmpty_of_marked (ro : Rodata) (allowed : τ → Cpu → Bool)
    (h : Marked (s.next ro allowed e)) : ClearsEmpty s e := by
  cases e with
  | enqueue | dispatch => trivial
  | access t etd =>
    intro cpu llc probe hpc
    have hnext : s.next ro allowed (.access t etd)
        = (s.setByte llc 0).goto t (afterProbe ro cpu probe) := by
      rw [Queues.next, Queues.access, hpc]
    rw [hnext] at h
    refine or_iff_not_imp_left.mpr fun hq => ?_
    rcases h llc hq with hbyte | ⟨t', ht'⟩
    · exact absurd (Queues.setByte_nonempty_self s llc 0) hbyte
    · rcases eq_or_ne t' t with rfl | hne
      · rw [Queues.goto_pc_self] at ht'
        exact absurd ht' (afterProbe_not_marks ro cpu llc probe)
      · rw [Queues.goto_pc_of_ne hne] at ht'
        exact ⟨t', ht'⟩

/-! ### Every interleaving -/

/-- The relation of the machine. -/
def QueueStep (ro : Rodata) (allowed : τ → Cpu → Bool) :
    Queues θ τ → QueueEvent θ τ → Queues θ τ → Prop :=
  ofNext (Queues.next ro allowed)

/-- **When `llc_nonempty` hides no work.** In every state an interleaving goes through, each task
in a queue is visible or about to be, so that all of them are once no callback is midway, exactly
when every store of zero finds the queue still empty or an enqueue to it that is not done. -/
theorem queued_visible_iff (ro : Rodata) (allowed : τ → Cpu → Bool) (es : List (QueueEvent θ τ)) :
    Throughout (QueueStep ro allowed) Queues.init es
      (fun s => Marked s ∧ (Quiescent s → ∀ llc, s.dsq llc ≠ [] → s.nonempty llc ≠ 0)) ↔
      AtEvents (QueueStep ro allowed) Queues.init es ClearsEmpty := by
  constructor
  · rintro h before e after s _ hes hrun rfl
    refine clearsEmpty_of_marked ro allowed ?_
    refine (h (before ++ [e]) after _ ?_ (hrun.snoc rfl)).1
    rw [hes, List.append_assoc, List.singleton_append]
  · intro h before after s hes hrun
    have hmarked : Marked s := by
      refine throughout_of_atEvents (I := Marked) (fun _ hq => absurd rfl hq) ?_ h before after s
        hes hrun
      rintro s e _ hs hclear rfl
      exact marked_next hs hclear
    refine ⟨hmarked, fun hquiet llc hq => (hmarked llc hq).resolve_right ?_⟩
    rintro ⟨t, ht⟩
    rw [hquiet t] at ht
    exact ht

/-- Two LLCs with eight CPUs each. -/
def dualLlc : Rodata :=
  { defaultRodata with nrLlcs := 2, nrCpus := 16, cpuLlcId := fun cpu => if cpu < 8 then 0 else 1 }

/-- The next access of a thread, before any calibration. -/
def go (t : Bool) : QueueEvent Bool Unit := .access t fun _ _ => 0

/-- A task is queued and taken. The second dispatch then finds the queue empty; before it stores
the zero, the next task is queued, and its enqueue sees the byte of the first one. -/
def hiddenTask : List (QueueEvent Bool Unit) :=
  [.enqueue true () ⟨0, 0, 0⟩, go true, go true, .dispatch false 0, go false,
    .dispatch false 0, go false, go false, .enqueue true () ⟨0, 0, 0⟩, go true,
    go false, go false, go false]

/-- In the end no callback is midway, and a queued task is invisible to the other LLC. -/
theorem hiddenTask_invisible : ∃ s,
    Run (QueueStep dualLlc fun _ _ => true) Queues.init hiddenTask s ∧ Quiescent s ∧
      s.dsq 0 ≠ [] ∧ s.nonempty 0 = 0 := by
  refine ⟨_, Run.foldl_ofNext _ _ _, ?_, ?_, by decide⟩
  · intro t
    cases t <;> decide
  · exact fun h => by cases h

/-! ### Without interleaving -/

section Accesses

variable {llc : Llc} {etd : Llc → Llc → U8}

theorem next_access_idle (h : s.pc t = .idle) : s.next ro allowed (.access t etd) = s := by
  rw [Queues.next, Queues.access, h]

theorem next_access_mark (h : s.pc t = .mark llc) : s.next ro allowed (.access t etd)
    = s.goto t (if s.nonempty llc = 0 then .store llc else .idle) := by
  rw [Queues.next, Queues.access, h]

theorem next_access_store (h : s.pc t = .store llc) :
    s.next ro allowed (.access t etd) = (s.setByte llc 1).goto t .idle := by
  rw [Queues.next, Queues.access, h]

/-- The steps of an enqueue, one after the other. The last one is there if the byte was zero, and
does nothing otherwise. -/
def Queues.enqueueAlone (ro : Rodata) (allowed : τ → Cpu → Bool) (t : θ) (p : τ) (ins : DsqInsert)
    (etd : Llc → Llc → U8) (s : Queues θ τ) : Queues θ τ :=
  [.enqueue t p ins, .access t etd, .access t etd].foldl (Queues.next ro allowed) s

/-- **Without interleaving the steps of an enqueue are the enqueue.** The thread is done, the task
is queued, and the bytes are those `imperator_enqueue` leaves when it runs as one step. -/
theorem enqueueAlone_eq {bss : Bss} {ins : DsqInsert} {p : τ} (hidle : s.pc t = .idle)
    (env : EnqueueEnv) (ctx : Option TaskCtx) (hbytes : bss.llcNonempty = s.nonempty)
    (hins : (imperatorEnqueue ro env ctx bss).insert = ins) :
    (s.enqueueAlone ro allowed t p ins etd).pc t = .idle ∧
      (s.enqueueAlone ro allowed t p ins etd).dsq ins.llc
        = dsqInsertVtime ⟨p, ins⟩ (s.dsq ins.llc) ∧
      (s.enqueueAlone ro allowed t p ins etd).nonempty
        = (imperatorEnqueue ro env ctx bss).bss.llcNonempty := by
  have hstart : s.next ro allowed (.enqueue t p ins)
      = (s.setDsq ins.llc (dsqInsertVtime ⟨p, ins⟩ (s.dsq ins.llc))).goto t (.mark ins.llc) :=
    if_pos hidle
  rw [imperatorEnqueue_llcNonempty, hins, Bss.llcMarkNonempty_llcNonempty, hbytes,
    Queues.enqueueAlone, List.foldl_cons, hstart, List.foldl_cons,
    next_access_mark (Queues.goto_pc_self ..), List.foldl_cons, List.foldl_nil]
  split
  · next hzero =>
    rw [next_access_store (Queues.goto_pc_self ..)]
    exact ⟨Queues.goto_pc_self .., Queues.setDsq_dsq_self .., (if_pos hzero).symm⟩
  · next hset =>
    rw [next_access_idle (Queues.goto_pc_self ..)]
    exact ⟨Queues.goto_pc_self .., Queues.setDsq_dsq_self .., (if_neg hset).symm⟩

end Accesses

end Imperator
