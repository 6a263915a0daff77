import Imperator.BurstCredit
import Imperator.Entries
import Imperator.Loader

/-!
# What the counters count

With `enable_stats` every CPU keeps counters, and two equations between them are relied upon. The
dispatches shown are the sum of the new and the old flows, and every one of them is in one tier; so
both sums should be the number of tasks that were queued or dispatched directly. And a preemption
that earns burst credit spends it in the same call, so as much is consumed as is earned.

The first holds as long as no enqueue takes one of its early exits, which insert the task and count
nothing. The second holds as long as the quantum is worth any credit: what a preemption earns are 16
bits of it, which are zero for a quantum of up to 4 microseconds and now and then above. Then it is
counted that credit was earned, and there is none to consume.

All four numbers of a CPU change in one way, which `ledger_enter` states once for all entries.

## Main definitions

* `Ledger`, `Entry.counts`, `Entry.earns`, `Entry.consumes` — the sums, and what adds to them
* `CountsInserts` — all dispatches are counted
* `CreditSettled` — no credit is left, and as much was consumed as was earned

## Main results

* `ledger_enter` — one entry
* `dispatches_counted_iff` — runs that count all dispatches
* `credit_settled_iff` — runs that consume all credit
-/

namespace Imperator

open Transition

/-! ### The ledger of a CPU -/

/-- The counters of one CPU, added up as they are shown. -/
@[ext] structure Ledger where
  /-- `nr_new_flow_dispatches` and `nr_old_flow_dispatches` -/
  dispatches : U64
  /-- `nr_tier_dispatches` of the four tiers -/
  tiers : U64
  /-- `nr_preempt_with_credit` -/
  earned : U64
  /-- `nr_burst_credit_consumed` -/
  consumed : U64
  deriving DecidableEq, Repr

def Stats.ledger (s : Stats) : Ledger where
  dispatches := s.nrNewFlowDispatches + s.nrOldFlowDispatches
  tiers := s.nrTierDispatches 0 + s.nrTierDispatches 1 + s.nrTierDispatches 2 + s.nrTierDispatches 3
  earned := s.nrPreemptWithCredit
  consumed := s.nrBurstCreditConsumed

/-- One dispatch more, one preemption more that earned or consumed credit, as the flags say. -/
def Ledger.post (l : Ledger) (counts earns consumes : Bool) : Ledger where
  dispatches := l.dispatches + if counts then 1 else 0
  tiers := l.tiers + if counts then 1 else 0
  earned := l.earned + if earns then 1 else 0
  consumed := l.consumed + if consumes then 1 else 0

@[simp] theorem Ledger.post_false (l : Ledger) : l.post false false false = l := by
  simp [Ledger.post]

variable {ro : Rodata} {cpu i : Cpu} {bss : Bss} {f : Stats → Stats}

/-- Storing other counters of one CPU. -/
theorem update_ledger {stats : Stats} (h : stats.ledger = (bss.globalStats cpu).ledger) :
    (Function.update bss.globalStats cpu stats i).ledger = (bss.globalStats i).ledger := by
  rcases eq_or_ne i cpu with rfl | hne
  · rw [Function.update_self, h]
  · rw [Function.update_of_ne hne]

/-- Counting others. -/
theorem count_ledger (hf : ∀ s, (f s).ledger = s.ledger) :
    ((bss.count ro cpu f).globalStats i).ledger = (bss.globalStats i).ledger := by
  obtain ⟨stats, h, rfl | rfl⟩ := Bss.count_eq ro cpu f bss
  · rw [h]
    exact update_ledger (hf _)
  · rw [h]
    exact update_ledger rfl

theorem count_globalStats (hstats : ro.enableStats = true) :
    (bss.count ro cpu f).globalStats i
      = if cpu = i then f (bss.globalStats i) else bss.globalStats i := by
  rw [Bss.count, if_pos hstats]
  split
  · next h => rw [h]; exact Function.update_self _ _ _
  · next h => exact Function.update_of_ne (Ne.symm h) _ _

@[simp] theorem llcMarkNonempty_globalStats (llc : Llc) :
    (bss.llcMarkNonempty llc).globalStats = bss.globalStats := by
  rw [Bss.llcMarkNonempty_eq]

/-- One tier more. -/
theorem tiers_update (n : Tier → U64) (t : Tier) :
    Function.update n t (n t + 1) 0 + Function.update n t (n t + 1) 1
        + Function.update n t (n t + 1) 2 + Function.update n t (n t + 1) 3
      = n 0 + n 1 + n 2 + n 3 + 1 := by
  match t with
  | 0 => simp [Function.update]; ac_rfl
  | 1 => simp [Function.update]; ac_rfl
  | 2 => simp [Function.update]; ac_rfl
  | 3 => simp [Function.update]; ac_rfl

/-! ### What an entry adds -/

variable {τ : Type*}

/-- The enqueue takes none of the early exits. -/
def EnqueueEnv.standard (env : EnqueueEnv) (ctx : Option TaskCtx) : Bool :=
  (env.flags.wakeup || env.flags.preempt) && ctx.isSome

/-- The entry counts a dispatch on the CPU. -/
def Entry.counts (cpu : Cpu) (s : System τ) : Entry τ → Bool
  | .callback (.enqueue p env) => decide (env.cpu = cpu) && env.standard (s.ctx p)
  | .selectCpu _ env => decide (env.cpu = cpu) && env.search.2
  | _ => false

/-- The entry counts, on the CPU, that credit was earned. -/
def Entry.earns (ro : Rodata) (cpu : Cpu) (s : System τ) : Entry τ → Bool
  | .callback (.enqueue p env) => decide (env.cpu = cpu) && env.standard (s.ctx p) &&
      (s.ctx p).any fun c => earnsCredit ro env.flags.preempt c.tier
  | _ => false

/-- The entry counts, on the CPU, that credit was consumed. -/
def Entry.consumes (ro : Rodata) (cpu : Cpu) (s : System τ) : Entry τ → Bool
  | .callback (.enqueue p env) => decide (env.cpu = cpu) && env.standard (s.ctx p) &&
      (s.ctx p).any fun c =>
        0#16 < (earnBurstCredit ro env.flags.preempt (recoveredCtx env c)).burstCredit
  | _ => false

theorem imperatorRunning_ledger (now : U64) (ctx : Option TaskCtx) :
    ((imperatorRunning ro cpu now ctx bss).2.globalStats i).ledger
      = (bss.globalStats i).ledger := by
  cases ctx with
  | none => rfl
  | some c =>
    obtain ⟨sum, count, h⟩ := imperatorRunning_bss ro cpu now c bss
    rw [h]
    exact update_ledger rfl

theorem imperatorTick_ledger (env : TickEnv) (ctx : Option TaskCtx) :
    ((imperatorTick ro env ctx bss).bss.globalStats i).ledger = (bss.globalStats i).ledger := by
  obtain ⟨m, skips, preempts, h⟩ := imperatorTick_bss ro env ctx bss
  rw [h]
  exact update_ledger rfl

theorem consumeIrqWakeGetTierSlice_ledger (ctx : Option TaskCtx) :
    ((consumeIrqWakeGetTierSlice ro cpu ctx bss).bss.globalStats i).ledger
      = (bss.globalStats i).ledger := by
  cases ctx with
  | none => rfl
  | some c =>
    rw [consumeIrqWakeGetTierSlice]
    split
    · exact count_ledger fun _ => rfl
    · rfl

/-- A new flow in tier `t` is one dispatch. -/
theorem ledger_newFlow (s : Stats) (t : Tier) :
    Stats.ledger { s with
      nrNewFlowDispatches := s.nrNewFlowDispatches + 1
      nrTierDispatches := Function.update s.nrTierDispatches t (s.nrTierDispatches t + 1) }
      = s.ledger.post true false false := by
  have hsum : s.nrNewFlowDispatches + 1 + s.nrOldFlowDispatches
      = s.nrNewFlowDispatches + s.nrOldFlowDispatches + 1 := by ac_rfl
  exact Ledger.ext hsum (tiers_update _ _) (BitVec.add_zero _).symm (BitVec.add_zero _).symm

/-- The direct dispatch counts one dispatch. -/
theorem imperatorSelectCpu_ledger (hstats : ro.enableStats = true) (hy : HybridRodata)
    (env : SelectEnv) (ctx : Option TaskCtx) :
    ((imperatorSelectCpu ro hy env ctx bss).bss.globalStats i).ledger
      = (bss.globalStats i).ledger.post (decide (env.cpu = i) && env.search.2) false false := by
  rw [imperatorSelectCpu]
  dsimp only
  split
  · next hidle =>
    dsimp only
    rw [count_globalStats hstats, hidle, Bool.and_true]
    split
    · next hcpu => rw [ledger_newFlow, consumeIrqWakeGetTierSlice_ledger, decide_eq_true hcpu]
    · next hcpu =>
      rw [consumeIrqWakeGetTierSlice_ledger, decide_eq_false hcpu, Ledger.post_false]
  · next hbusy =>
    rw [Bool.not_eq_true] at hbusy
    rw [hbusy, Bool.and_false, Ledger.post_false]

/-- The counters of the standard path. -/
theorem standardStats_ledger (hstats : ro.enableStats = true) (env : EnqueueEnv) (c : TaskCtx) :
    ((standardStats ro env c bss).globalStats i).ledger
      = (bss.globalStats i).ledger.post (decide (env.cpu = i))
          (decide (env.cpu = i) && earnsCredit ro env.flags.preempt c.tier)
          (decide (env.cpu = i) && decide
            (0#16 < (earnBurstCredit ro env.flags.preempt (recoveredCtx env c)).burstCredit)) := by
  rw [standardStats, count_globalStats hstats]
  split
  · next hcpu =>
    rw [decide_eq_true hcpu, recoveredCtx_tier]
    simp only [Stats.ledger, Ledger.post, tiers_update, Bool.true_and, decide_eq_true_eq, if_true,
      Ledger.mk.injEq, and_true]
    split
    · ac_rfl
    · simp [BitVec.add_assoc]
  · next hcpu => simp [hcpu]

/-- The enqueue counts on its standard path. -/
theorem imperatorEnqueue_ledger (hstats : ro.enableStats = true) (env : EnqueueEnv)
    (ctx : Option TaskCtx) : ((imperatorEnqueue ro env ctx bss).bss.globalStats i).ledger
      = (bss.globalStats i).ledger.post (decide (env.cpu = i) && env.standard ctx)
          (decide (env.cpu = i) && env.standard ctx &&
            ctx.any fun c => earnsCredit ro env.flags.preempt c.tier)
          (decide (env.cpu = i) && env.standard ctx && ctx.any fun c =>
            0#16 < (earnBurstCredit ro env.flags.preempt (recoveredCtx env c)).burstCredit) := by
  have hflat : ∀ t, ((queueFlat ro env ctx bss t).bss.globalStats i) = bss.globalStats i := by
    intro t
    rw [queueFlat, llcMarkNonempty_globalStats]
  rw [imperatorEnqueue.eq_def]
  split
  · next hkthread =>
    rw [hflat, hkthread.2]
    simp [EnqueueEnv.standard]
  · split
    · next hflags =>
      have hnot : env.standard ctx = false := by
        simpa [EnqueueEnv.standard] using fun h => absurd h hflags
      rw [hflat, hnot]
      simp
    · next hflags =>
      cases ctx with
      | none =>
        show ((queueFlat ro env none bss Tier.frame).bss.globalStats i).ledger = _
        rw [hflat]
        simp [EnqueueEnv.standard]
      | some c =>
        have hstandard : env.standard (some c) = true := by
          simpa [EnqueueEnv.standard, or_iff_not_imp_left] using hflags
        show (((standardStats ro env c bss).llcMarkNonempty _).globalStats i).ledger = _
        rw [llcMarkNonempty_globalStats, standardStats_ledger hstats, hstandard, Bool.and_true]
        rfl

variable [DecidableEq τ] {hy : HybridRodata} {s : System τ} {e : Entry τ} {es : List (Entry τ)}

/-- **What an entry adds to a ledger.** -/
theorem ledger_enter (hstats : ro.enableStats = true) (hy : HybridRodata) (s : System τ)
    (e : Entry τ) (i : Cpu) : ((s.enter ro hy e).bss.globalStats i).ledger
      = (s.bss.globalStats i).ledger.post (e.counts i s) (e.earns ro i s) (e.consumes ro i s) := by
  cases e with
  | callback cb =>
    cases cb with
    | enable p prio alloc => exact (Ledger.post_false _).symm
    | enqueue p env => exact imperatorEnqueue_ledger hstats env (s.ctx p)
    | running p cpu now =>
      exact (imperatorRunning_ledger now (s.ctx p)).trans (Ledger.post_false _).symm
    | tick p env => exact (imperatorTick_ledger env (s.ctx p)).trans (Ledger.post_false _).symm
    | stopping p cpu now runnable =>
      have hkept : (imperatorStopping ro cpu now runnable (s.ctx p) s.bss).2.globalStats
        = s.bss.globalStats := imperatorStopping_globalStats
      exact (congrArg (fun g => (g i).ledger) hkept).trans (Ledger.post_false _).symm
  | selectCpu p env => exact imperatorSelectCpu_ledger hstats hy env (s.ctx p)
  | dispatch | initTask | lockHolder => exact (Ledger.post_false _).symm

/-! ### Dispatches -/

/-- The entry is an enqueue that takes an early exit, on the CPU. -/
def Entry.LeavesEarly (cpu : Cpu) (s : System τ) : Entry τ → Prop
  | .callback (.enqueue p env) => env.cpu = cpu ∧ env.standard (s.ctx p) = false
  | _ => False

/-- The system after an entry, with the number of insertions made so far on every CPU. -/
def withInserts (ro : Rodata) (hy : HybridRodata) :
    System τ × (Cpu → ℕ) → Entry τ → System τ × (Cpu → ℕ) :=
  recording (System.enter ro hy) fun s n e cpu => n cpu + e.inserts ro hy cpu s

/-- All insertions made on the CPU are counted, as dispatches and in the tiers. -/
structure CountsInserts (cpu : Cpu) (q : System τ × (Cpu → ℕ)) : Prop where
  dispatches : (q.1.bss.globalStats cpu).ledger.dispatches = BitVec.ofNat 64 (q.2 cpu)
  tiers : (q.1.bss.globalStats cpu).ledger.tiers = BitVec.ofNat 64 (q.2 cpu)

omit [DecidableEq τ] in
/-- An early exit inserts and does not count. -/
theorem inserts_of_leavesEarly (ro : Rodata) (hy : HybridRodata) (h : e.LeavesEarly cpu s) :
    e.inserts ro hy cpu s = 1 ∧ e.counts cpu s = false := by
  cases e with
  | callback cb =>
    cases cb with
    | enqueue p env =>
      obtain ⟨hcpu, hearly⟩ := h
      refine ⟨if_pos hcpu, ?_⟩
      show (decide (env.cpu = cpu) && env.standard (s.ctx p)) = false
      rw [hearly, Bool.and_false]
    | enable | running | tick | stopping => exact h.elim
  | selectCpu | dispatch | initTask | lockHolder => exact h.elim

omit [DecidableEq τ] in
/-- Everything else inserts and counts, or does neither. -/
theorem inserts_of_not_leavesEarly (h : ¬ e.LeavesEarly cpu s) :
    e.inserts ro hy cpu s = if e.counts cpu s then 1 else 0 := by
  cases e with
  | callback cb =>
    cases cb with
    | enqueue p env =>
      show (if env.cpu = cpu then 1 else 0)
        = if decide (env.cpu = cpu) && env.standard (s.ctx p) then 1 else 0
      by_cases hcpu : env.cpu = cpu
      · have hstandard : env.standard (s.ctx p) = true :=
          Bool.not_eq_false _ ▸ fun hearly => h ⟨hcpu, hearly⟩
        rw [if_pos hcpu, decide_eq_true hcpu, hstandard, Bool.and_true, if_pos rfl]
      · rw [if_neg hcpu, decide_eq_false hcpu, Bool.false_and, if_neg Bool.false_ne_true]
    | enable | running | tick | stopping => rfl
  | selectCpu p env =>
    show (if env.cpu = cpu then _ else 0)
      = if decide (env.cpu = cpu) && env.search.2 then 1 else 0
    rw [imperatorSelectCpu]
    by_cases hcpu : env.cpu = cpu
    · cases env.search.2 <;> simp [hcpu]
    · simp [hcpu]
  | dispatch | initTask | lockHolder => rfl

/-- **One entry** keeps the count exactly if it does not leave early. -/
theorem countsInserts_enter_iff (hstats : ro.enableStats = true) {n : Cpu → ℕ}
    (h : CountsInserts cpu (s, n)) :
    CountsInserts cpu (withInserts ro hy (s, n) e) ↔ ¬ e.LeavesEarly cpu s := by
  have hledger := ledger_enter hstats hy s e cpu
  have hdispatches : ((s.enter ro hy e).bss.globalStats cpu).ledger.dispatches
      = BitVec.ofNat 64 (n cpu) + if e.counts cpu s then 1 else 0 := by
    rw [hledger, ← h.dispatches]
    rfl
  have htiers : ((s.enter ro hy e).bss.globalStats cpu).ledger.tiers
      = BitVec.ofNat 64 (n cpu) + if e.counts cpu s then 1 else 0 := by
    rw [hledger, ← h.tiers]
    rfl
  constructor
  · intro hu hearly
    obtain ⟨hinserts, hcounts⟩ := inserts_of_leavesEarly ro hy hearly
    have hu' : ((s.enter ro hy e).bss.globalStats cpu).ledger.dispatches
        = BitVec.ofNat 64 (n cpu + e.inserts ro hy cpu s) := hu.dispatches
    rw [hdispatches, hinserts, hcounts, if_neg Bool.false_ne_true, BitVec.ofNat_add] at hu'
    generalize BitVec.ofNat 64 (n cpu) = m at hu'
    bv_omega
  · intro hlate
    have hn : BitVec.ofNat 64 (n cpu + e.inserts ro hy cpu s)
        = BitVec.ofNat 64 (n cpu) + if e.counts cpu s then 1 else 0 := by
      rw [inserts_of_not_leavesEarly hlate, BitVec.ofNat_add]
      split <;> rfl
    exact ⟨hdispatches.trans hn.symm, htiers.trans hn.symm⟩

/-- Dispatches and tiers are counted together. -/
theorem dispatches_eq_tiers (hstats : ro.enableStats = true) (hy : HybridRodata)
    (es : List (Entry τ)) (cpu : Cpu) :
    Throughout (ofNext (withInserts ro hy)) (System.init ro, fun _ => 0) es fun q =>
      (q.1.bss.globalStats cpu).ledger.dispatches = (q.1.bss.globalStats cpu).ledger.tiers := by
  rintro before after t - hrun
  refine Run.invariant (I := fun q : System τ × (Cpu → ℕ) =>
    (q.1.bss.globalStats cpu).ledger.dispatches = (q.1.bss.globalStats cpu).ledger.tiers) ?_
    hrun rfl
  rintro ⟨s, n⟩ e _ heq rfl
  show ((s.enter ro hy e).bss.globalStats cpu).ledger.dispatches
    = ((s.enter ro hy e).bss.globalStats cpu).ledger.tiers
  rw [ledger_enter hstats]
  exact congrArg (· + if e.counts cpu s then 1 else 0) heq

/-- **When every dispatch is counted.** With `enable_stats`, in every state of a run the dispatches
counted on a CPU, which are always the sum of those counted in the tiers, are the insertions made
there, exactly if no enqueue on that CPU takes an early exit. -/
theorem dispatches_counted_iff (hstats : ro.enableStats = true) (hy : HybridRodata)
    (es : List (Entry τ)) (cpu : Cpu) :
    (Throughout (ofNext (withInserts ro hy)) (System.init ro, fun _ => 0) es (CountsInserts cpu) ↔
      AtEvents (ofNext (withInserts ro hy)) (System.init ro, fun _ => 0) es
        fun q e => ¬ e.LeavesEarly cpu q.1) ∧
    Throughout (ofNext (withInserts ro hy)) (System.init ro, fun _ => 0) es fun q =>
      (q.1.bss.globalStats cpu).ledger.dispatches
        = (q.1.bss.globalStats cpu).ledger.tiers := by
  refine ⟨throughout_iff_atEvents ⟨rfl, rfl⟩ ?_, dispatches_eq_tiers hstats hy es cpu⟩
  rintro ⟨s, n⟩ e _ h rfl
  exact countsInserts_enter_iff hstats h

/-- The globals of the default profile with `--stats`, and with another quantum if one is given. -/
def statsRodata (q : Option U64) : Rodata :=
  newRodata ⟨.default, q, none, none, false, true⟩ (detect dualCcd)

/-- A wakeup that finds CPU 0 idle. -/
def idleSelect : SelectEnv where
  cpu := 0
  prevCpu := 0
  inHardirqOrNmi := false
  inSoftirq := false
  wakeSync := false
  waker := none
  search := (0, true)
  searchFrom := fun _ => (0, true)
  allowed := fun _ => true

/-- A task is enabled, and dispatched directly on its first wakeup. -/
def directEntries : List (Entry Unit) := [.callback (.enable () 120 true), .selectCpu () idleSelect]

theorem directEntries_counted : Throughout (ofNext (withInserts (statsRodata none) noHybrid))
    (System.init (statsRodata none), fun _ => 0) directEntries (CountsInserts 0) := by
  refine (dispatches_counted_iff rfl noHybrid directEntries 0).1.mpr ?_
  rintro before e after q _ hes - -
  have hmem : e ∈ directEntries := hes ▸ List.mem_append_right _ List.mem_cons_self
  rcases List.mem_cons.mp hmem with rfl | hmem
  · exact id
  · obtain rfl := List.mem_singleton.mp hmem
    exact id

/-- The same task, which then runs until its slice is over and is enqueued with no flags. -/
def requeuedEntries : List (Entry Unit) := directEntries ++
  [.callback (.running () 0 1000000), .callback (.stopping () 0 3000000 true),
    .callback (.enqueue () ⟨0, 0, 3000000, false, ⟨false, false⟩⟩)]

/-- It was inserted twice, and counted once. -/
theorem requeuedEntries_uncounted : ∃ q,
    Run (ofNext (withInserts (statsRodata none) noHybrid))
      (System.init (statsRodata none), fun _ => 0) requeuedEntries q ∧
    q.2 0 = 2 ∧ (q.1.bss.globalStats 0).ledger.dispatches = 1 ∧
    (q.1.bss.globalStats 0).ledger.tiers = 1 :=
  ⟨_, Run.foldl_ofNext _ _ _, by decide, by decide, by decide⟩

/-! ### Credit -/

/-- `(u16)(quantum_ns >> 12)`, what a preemption earns. -/
def Rodata.creditUnits (ro : Rodata) : U16 := (ro.quantumNs >>> 12).setWidth 16

/-- No task has credit, and on every CPU as much was consumed as was earned. -/
structure CreditSettled (s : System τ) : Prop where
  spent : ∀ p c, s.ctx p = some c → c.burstCredit = 0
  consumed : ∀ cpu, (s.bss.globalStats cpu).ledger.consumed = (s.bss.globalStats cpu).ledger.earned

/-- Cutting off at a positive value leaves nothing only of nothing. -/
theorem pos_cutOff_iff {u m : U16} (hm : 0#16 < m) : 0#16 < (if u < m then u else m) ↔ u ≠ 0 := by
  have hpos : 0 < m.toNat := BitVec.lt_def.mp hm
  rw [ne_eq, ← BitVec.toNat_inj, BitVec.lt_def]
  show 0 < BitVec.toNat _ ↔ ¬ u.toNat = 0
  split
  · exact Nat.pos_iff_ne_zero
  · next hge =>
    rw [BitVec.lt_def] at hge
    exact iff_of_true hpos (by omega)

/-- A task without credit has some after it earned, unless the quantum is worth none. -/
theorem earnBurstCredit_pos_iff {c : TaskCtx} (ro : Rodata) (preempt : Bool)
    (hc : c.burstCredit = 0) :
    0#16 < (earnBurstCredit ro preempt c).burstCredit ↔
      earnsCredit ro preempt c.tier = true ∧ ro.creditUnits ≠ 0 := by
  rw [earnBurstCredit]
  split
  · next hearns =>
    have hcap : 0#16 < tierBurstCapKns ro.simMode c.tier := by
      rw [earnsCredit, Bool.and_eq_true, decide_eq_true_eq] at hearns
      exact hearns.2
    have hunits : c.burstCredit + (ro.quantumNs >>> 12).setWidth 16 = ro.creditUnits := by
      rw [hc]
      exact BitVec.zero_add _
    dsimp only
    rw [hunits, and_iff_right hearns]
    exact pos_cutOff_iff hcap
  · next hearns =>
    rw [hc]
    exact iff_of_false (BitVec.lt_irrefl _) fun h => hearns h.1

omit [DecidableEq τ] in
/-- An entry that finds no credit consumes what it earns. -/
theorem consumes_eq (h : ∀ p c, s.ctx p = some c → c.burstCredit = 0) (cpu : Cpu) :
    e.consumes ro cpu s = (e.earns ro cpu s && decide (ro.creditUnits ≠ 0)) := by
  cases e with
  | callback cb =>
    cases cb with
    | enqueue p env =>
      show (_ && Option.any _ (s.ctx p)) = (_ && Option.any _ (s.ctx p) && _)
      cases hctx : s.ctx p with
      | none => simp
      | some c =>
        have hzero : (recoveredCtx env c).burstCredit = 0 := by
          rw [recoveredCtx_burstCredit]
          exact h p c hctx
        have hiff := earnBurstCredit_pos_iff ro env.flags.preempt hzero
        rw [recoveredCtx_tier] at hiff
        rw [Option.any_some, Option.any_some, decide_eq_decide.mpr hiff, Bool.decide_and,
          Bool.decide_eq_true]
        exact (Bool.and_assoc _ _ _).symm
    | enable | running | tick | stopping => rfl
  | selectCpu | dispatch | initTask | lockHolder => rfl

/-- No entry leaves credit. -/
theorem spent_enter (h : ∀ p c, s.ctx p = some c → c.burstCredit = 0) (p : τ) (c : TaskCtx)
    (hc : (s.enter ro hy e).ctx p = some c) : c.burstCredit = 0 := by
  rcases enter_ctx ro hy s e p with hsame | ⟨op, hop⟩
  · exact h p c (hsame ▸ hc)
  · rw [hop] at hc
    cases hctx : s.ctx p with
    | none =>
      rw [hctx] at hc
      cases effect_of_apply hc with
      | created => rfl
    | some d =>
      rw [hctx] at hc
      exact burstCredit_of_apply (h p d hctx) hc

/-- **One entry** settles the credit exactly if it earns none, or the quantum is worth some. -/
theorem creditSettled_enter_iff (hstats : ro.enableStats = true) (h : CreditSettled s) :
    CreditSettled (s.enter ro hy e) ↔
      (ro.creditUnits ≠ 0 ∨ ∀ cpu, e.earns ro cpu s = false) := by
  have hone : ∀ cpu, ((s.enter ro hy e).bss.globalStats cpu).ledger.consumed
        = ((s.enter ro hy e).bss.globalStats cpu).ledger.earned ↔
      (ro.creditUnits ≠ 0 ∨ e.earns ro cpu s = false) := by
    intro cpu
    rw [ledger_enter hstats, consumes_eq h.spent]
    show (_ + if (e.earns ro cpu s && decide (ro.creditUnits ≠ 0)) then 1 else 0 : U64)
      = (_ + if e.earns ro cpu s then 1 else 0 : U64) ↔ _
    rw [h.consumed cpu]
    cases e.earns ro cpu s <;> by_cases hunits : ro.creditUnits = 0 <;> simp [hunits]
  constructor
  · intro hu
    by_cases hunits : ro.creditUnits = 0
    · exact Or.inr fun cpu => ((hone cpu).mp (hu.consumed cpu)).resolve_left (not_not.mpr hunits)
    · exact Or.inl hunits
  · exact fun hG => ⟨spent_enter h.spent, fun cpu => (hone cpu).mpr (hG.imp_right fun h => h cpu)⟩

/-- A task that is enabled at nice value 0, and preempted. -/
def preemptedEntries (p : τ) : List (Entry τ) :=
  [.callback (.enable p 120 true), .callback (.enqueue p preemptEnqueue)]

omit [DecidableEq τ] in
theorem creditSettled_init (ro : Rodata) : CreditSettled (System.init ro : System τ) :=
  ⟨fun _ _ hc => (Option.some_ne_none _ hc.symm).elim, fun _ => rfl⟩

/-- Whatever the configuration, the preemption earns. -/
theorem preemptedEntries_earns (ro : Rodata) (hy : HybridRodata) (p : τ) :
    Entry.earns ro 0 ((System.init ro).enter ro hy (.callback (.enable p 120 true)))
      (.callback (.enqueue p preemptEnqueue)) = true := by
  have hctx : ((System.init ro).enter ro hy (.callback (.enable p 120 true))).ctx p
      = some (allocTaskCtxCold ro 120) := Function.update_self _ _ _
  show (_ && EnqueueEnv.standard _ (System.ctx _ p) && Option.any _ (System.ctx _ p)) = true
  rw [hctx]
  show earnsCredit ro true (allocTaskCtxCold ro 120).tier = true
  rw [allocTaskCtxCold_tier, earnsCredit, tierBurstCapKns]
  cases ro.simMode <;> decide

/-- **When credit earned is credit consumed.** With `enable_stats`, in every state of a run no task
has credit and every CPU has consumed as much as it has earned, exactly if the quantum is worth
credit or no enqueue of the run earns any. So it is true of all runs exactly if the quantum is
worth credit. -/
theorem credit_settled_iff [Nonempty τ] (hstats : ro.enableStats = true) (hy : HybridRodata) :
    (∀ es : List (Entry τ),
      Throughout (ofNext (System.enter ro hy)) (System.init ro) es CreditSettled ↔
        AtEvents (ofNext (System.enter ro hy)) (System.init ro) es fun s e =>
          ro.creditUnits ≠ 0 ∨ ∀ cpu, e.earns ro cpu s = false) ∧
    ((∀ es : List (Entry τ),
      Throughout (ofNext (System.enter ro hy)) (System.init ro) es CreditSettled) ↔
        ro.creditUnits ≠ 0) := by
  have hrun : ∀ es : List (Entry τ),
      Throughout (ofNext (System.enter ro hy)) (System.init ro) es CreditSettled ↔
        AtEvents (ofNext (System.enter ro hy)) (System.init ro) es fun s e =>
          ro.creditUnits ≠ 0 ∨ ∀ cpu, e.earns ro cpu s = false := by
    intro es
    refine throughout_iff_atEvents (creditSettled_init ro) ?_
    rintro s e _ h rfl
    exact creditSettled_enter_iff hstats h
  refine ⟨hrun, fun h => ?_, fun hunits es => (hrun es).mpr fun _ _ _ _ _ _ _ _ => Or.inl hunits⟩
  obtain ⟨p⟩ := ‹Nonempty τ›
  have hevents := (hrun (preemptedEntries p)).mp (h _)
  have hsecond := hevents [.callback (.enable p 120 true)] _ [] _ _ rfl
    (Run.single_iff.mpr rfl) rfl
  refine hsecond.resolve_right fun hnone => ?_
  exact Bool.false_ne_true ((hnone 0).symm.trans (preemptedEntries_earns ro hy p))

/-- A task that is woken, runs, and is preempted. -/
def preemptedLife : List (Entry Unit) :=
  [.callback (.enable () 120 true),
    .callback (.enqueue () ⟨0, 0, 1000000, false, ⟨true, false⟩⟩),
    .callback (.running () 0 1100000), .callback (.stopping () 0 1200000 true),
    .callback (.enqueue () ⟨0, 0, 1200000, false, ⟨false, true⟩⟩)]

/-- With the default quantum its run is settled. -/
theorem defaultQuantum_settled :
    Throughout (ofNext (System.enter (statsRodata none) noHybrid))
      (System.init (statsRodata none)) preemptedLife CreditSettled :=
  (credit_settled_iff rfl noHybrid).2.mpr (by decide) preemptedLife

/-- With a quantum of 4 microseconds the preemption earns, and nothing is consumed. -/
theorem tinyQuantum_unsettled : ∃ s,
    Run (ofNext (System.enter (statsRodata (some 4)) noHybrid)) (System.init (statsRodata (some 4)))
      preemptedLife s ∧
    (s.bss.globalStats 0).ledger.earned = 1 ∧ (s.bss.globalStats 0).ledger.consumed = 0 :=
  ⟨_, Run.foldl_ofNext _ _ _, by decide, by decide⟩

end Imperator
