import Imperator.ForMathlib.Transition
import Imperator.Globals
import Mathlib.Algebra.BigOperators.Fin

/-!
# Rates and resets

The view of the statistics shows rates: how far a counter is from where the last snapshot has found
it, over the time since then. The user may set the counters to zero, and the snapshot is emptied
with them, so that the next window starts clean.

An iteration of the view reads the counters first, then handles a key, and then, if the window is
over, compares what it has read with the snapshot. A reset that is handled in the very iteration
that ends the window comes too late for this. What was read is older than the reset, and it is
compared with the snapshot the reset has emptied: everything counted so far is shown as the rate of
one window. In all other iterations a rate counts no event twice.

The number of events counted since the snapshot, or since the reset if that is later, is kept beside
the loop. Counters are numbers here, and do not wrap around.

## Main definitions

* `aggregateStats`, `tickStats`, `invalidateRates` — the functions of the view
* `TuiLoop`, `TuiLoop.iterate` — `run_tui`, iteration by iteration
* `countedAfter` — the events since snapshot or reset
* `Clean`, `Covered` — no rate is too high; and the condition for it, on a `LateReset`

## Main results

* `Accounted.iterate` — one iteration
* `rates_clean_of_no_lateReset` — the rates of a run are clean if no reset is late
* `rates_clean_iff` — and exactly when its late resets are covered
-/

namespace Imperator

open Transition

/-! ### The functions of the view -/

/-- The counters of `struct imperator_stats`. -/
inductive StatField
  | nrNewFlowDispatches
  | nrOldFlowDispatches
  | nrTierDispatches (t : Tier)
  | nrStarvationPreemptsTier (t : Tier)
  | nrLockHolderSkips
  | nrIrqWakeBoosts
  | nrWakerTierBoosts
  | nrPreemptWithCredit
  | nrBurstCreditConsumed
  | nrJitterEwmaSum
  | nrJitterEwmaCount
  deriving DecidableEq

/-- The values of all of them. -/
abbrev Counters := StatField → ℕ

/-- `aggregate_stats` -/
def aggregateStats (globalStats : Cpu → Counters) : Counters :=
  fun f => ∑ cpu, globalStats cpu f

/-- The fields of `StatsRates`. -/
inductive RateField
  | starvePerSec (t : Tier)
  | lockSkipPerSec
  | burstCreditPerSec

/-- The counter a rate is about. -/
def RateField.counter : RateField → StatField
  | .starvePerSec t => .nrStarvationPreemptsTier t
  | .lockSkipPerSec => .nrLockHolderSkips
  | .burstCreditPerSec => .nrPreemptWithCredit

/-- `tick_stats`: the differences it divides by the elapsed time, and the next snapshot. -/
def tickStats (current prevStats : Counters) : (RateField → ℕ) × Counters :=
  (fun r => current r.counter - prevStats r.counter, current)

/-- `invalidate_rates` -/
def invalidateRates : Counters := 0

/-! ### The loop -/

/-- The keys of the view. -/
inductive TuiKey
  | quit
  | copy
  | reset
  | other
  deriving DecidableEq

/-- What `run_tui` works on, between two iterations. -/
structure TuiLoop where
  globalStats : Cpu → Counters
  prevStats : Counters
  lastTick : ℕ
  running : Bool

/-- `run_tui` at its start, when nothing is counted yet. -/
def TuiLoop.init (start : ℕ) : TuiLoop := ⟨0, 0, start, true⟩

/-- One iteration, with the events the scheduler counts meanwhile. -/
structure Iteration where
  /-- up to `aggregate_stats`, ... -/
  earlier : Cpu → Counters
  /-- ... while the terminal is polled, ... -/
  polled : Cpu → Counters
  /-- ... and from there to the end of the window -/
  handled : Cpu → Counters
  key : Option TuiKey
  /-- the time at which the window is checked -/
  now : ℕ

/-- The scheduler counts events. -/
def TuiLoop.count (g : Cpu → Counters) (s : TuiLoop) : TuiLoop :=
  { s with globalStats := s.globalStats + g }

@[simp] theorem TuiLoop.count_globalStats (g : Cpu → Counters) (s : TuiLoop) :
    (s.count g).globalStats = s.globalStats + g := rfl

/-- A key is handled. -/
def TuiLoop.handleKey (key : Option TuiKey) (s : TuiLoop) : TuiLoop :=
  match key with
  | some .quit => { s with running := false }
  | some .reset => { s with globalStats := 0, prevStats := invalidateRates }
  | some .copy | some .other | none => s

/-- What an iteration reads. -/
def Iteration.stats (s : TuiLoop) (it : Iteration) : Counters :=
  aggregateStats (s.count it.earlier).globalStats

/-- Where it is when the key is handled. -/
def Iteration.handle (s : TuiLoop) (it : Iteration) : TuiLoop :=
  ((s.count it.earlier).count it.polled).handleKey it.key

/-- It takes a snapshot: the loop goes on, and the window is over. -/
def Iteration.Ticks (tickRate : ℕ) (s : TuiLoop) (it : Iteration) : Prop :=
  (it.handle s).running = true ∧ tickRate ≤ it.now - s.lastTick

instance (tickRate : ℕ) (s : TuiLoop) (it : Iteration) : Decidable (it.Ticks tickRate s) :=
  inferInstanceAs (Decidable (_ ∧ _))

/-- The rates it shows then. -/
def Iteration.rates (s : TuiLoop) (it : Iteration) : RateField → ℕ :=
  (tickStats (it.stats s) (it.handle s).prevStats).1

/-- An iteration of `run_tui`. -/
def TuiLoop.iterate (tickRate : ℕ) (s : TuiLoop) (it : Iteration) : TuiLoop :=
  let t := (it.handle s).count it.handled
  if it.Ticks tickRate s then
    { t with prevStats := (tickStats (it.stats s) t.prevStats).2, lastTick := it.now }
  else t

variable {tickRate : ℕ} {s : TuiLoop} {it : Iteration} {counted : Counters}

/-! ### What is counted -/

/-- The events since the last snapshot, or since the reset if that is later, at the end of an
iteration that takes no snapshot. -/
def countedBy (counted : Counters) (it : Iteration) : Counters :=
  if it.key = some .reset then aggregateStats it.handled
  else counted + aggregateStats it.earlier + aggregateStats it.polled + aggregateStats it.handled

/-- The events since then at its end. A snapshot is as old as what was read for it. -/
def countedAfter (tickRate : ℕ) (s : TuiLoop) (counted : Counters) (it : Iteration) : Counters :=
  if it.Ticks tickRate s ∧ it.key ≠ some .reset then
    aggregateStats it.polled + aggregateStats it.handled
  else countedBy counted it

/-- The loop, and what is counted beside it. Nothing comes after the last iteration. -/
def TuiStep (tickRate : ℕ) : TuiLoop × Counters → Iteration → TuiLoop × Counters → Prop :=
  Guarded (ofNext (recording (TuiLoop.iterate tickRate) (countedAfter tickRate)))
    fun s _ => s.1.running = true

/-- **No rate is too high**: the events of a rate are among those counted since the snapshot it is
computed from, and since the last reset. -/
def Clean (tickRate : ℕ) (s : TuiLoop × Counters) (it : Iteration) : Prop :=
  it.Ticks tickRate s.1 → ∀ r, it.rates s.1 r ≤ countedBy s.2 it r.counter

/-- The reset is handled in the iteration that ends the window. -/
def LateReset (tickRate : ℕ) (s : TuiLoop × Counters) (it : Iteration) : Prop :=
  it.key = some .reset ∧ tickRate ≤ it.now - s.1.lastTick

/-- A late reset comes when no more events were counted before the iteration reads the counters than
are counted after the reset. -/
def Covered (tickRate : ℕ) (s : TuiLoop × Counters) (it : Iteration) : Prop :=
  LateReset tickRate s it → ∀ r : RateField,
    aggregateStats s.1.globalStats r.counter + aggregateStats it.earlier r.counter
      ≤ aggregateStats it.handled r.counter

/-- The counters are accounted for: what is not in the snapshot was counted since. -/
def Accounted (s : TuiLoop × Counters) : Prop :=
  aggregateStats s.1.globalStats ≤ s.1.prevStats + s.2

/-! ### One iteration -/

theorem aggregateStats_add (a b : Cpu → Counters) :
    aggregateStats (a + b) = aggregateStats a + aggregateStats b := by
  funext f
  exact Finset.sum_add_distrib

theorem aggregateStats_zero : aggregateStats 0 = 0 := by
  funext f
  exact Finset.sum_const_zero

theorem Iteration.stats_eq (s : TuiLoop) (it : Iteration) :
    it.stats s = aggregateStats s.globalStats + aggregateStats it.earlier := by
  rw [stats, TuiLoop.count_globalStats, aggregateStats_add]

/-- A reset leaves nothing behind. -/
theorem Iteration.handle_of_reset (s : TuiLoop) (h : it.key = some .reset) :
    it.handle s = { s with globalStats := 0, prevStats := invalidateRates } := by
  rw [handle, h]
  rfl

/-- The other keys keep counters and snapshot. -/
theorem TuiLoop.handleKey_of_not_reset {key : Option TuiKey} (s : TuiLoop)
    (h : key ≠ some .reset) :
    (s.handleKey key).globalStats = s.globalStats ∧ (s.handleKey key).prevStats = s.prevStats := by
  match key with
  | some .reset => exact absurd rfl h
  | some .quit | some .copy | some .other | none => exact ⟨rfl, rfl⟩

/-- Without a reset, the counters have grown and the snapshot is still there. -/
theorem Iteration.handle_of_not_reset (s : TuiLoop) (h : it.key ≠ some .reset) :
    (it.handle s).prevStats = s.prevStats ∧ aggregateStats (it.handle s).globalStats
      = aggregateStats s.globalStats + aggregateStats it.earlier + aggregateStats it.polled := by
  obtain ⟨hcounters, hsnapshot⟩ :=
    ((s.count it.earlier).count it.polled).handleKey_of_not_reset h
  constructor
  · exact hsnapshot
  · rw [handle, hcounters, TuiLoop.count_globalStats, TuiLoop.count_globalStats,
      aggregateStats_add, aggregateStats_add]

/-- The counters after an iteration. -/
theorem TuiLoop.iterate_globalStats (tickRate : ℕ) (s : TuiLoop) (it : Iteration) :
    aggregateStats (s.iterate tickRate it).globalStats
      = aggregateStats (it.handle s).globalStats + aggregateStats it.handled := by
  rw [← aggregateStats_add, iterate]
  split <;> rfl

/-- The snapshot after it. -/
theorem TuiLoop.iterate_prevStats (tickRate : ℕ) (s : TuiLoop) (it : Iteration) :
    (s.iterate tickRate it).prevStats
      = if it.Ticks tickRate s then it.stats s else (it.handle s).prevStats := by
  rw [iterate]
  split <;> rfl

theorem countedBy_of_reset (counted : Counters) (h : it.key = some .reset) :
    countedBy counted it = aggregateStats it.handled :=
  if_pos h

/-- What is counted after an iteration with a reset, ... -/
theorem countedAfter_of_reset (tickRate : ℕ) (s : TuiLoop) (counted : Counters)
    (h : it.key = some .reset) :
    countedAfter tickRate s counted it = aggregateStats it.handled := by
  have hnot : ¬ (it.Ticks tickRate s ∧ it.key ≠ some .reset) := fun hboth => hboth.2 h
  rw [countedAfter, if_neg hnot, countedBy_of_reset counted h]

/-- ... with a snapshot, ... -/
theorem countedAfter_of_ticks (counted : Counters) (h : it.key ≠ some .reset)
    (hticks : it.Ticks tickRate s) : countedAfter tickRate s counted it
      = aggregateStats it.polled + aggregateStats it.handled :=
  if_pos ⟨hticks, h⟩

/-- ... and with neither. -/
theorem countedAfter_of_not_ticks (counted : Counters) (h : it.key ≠ some .reset)
    (hticks : ¬ it.Ticks tickRate s) : countedAfter tickRate s counted it
      = counted + aggregateStats it.earlier + aggregateStats it.polled
        + aggregateStats it.handled := by
  have hnot : ¬ (it.Ticks tickRate s ∧ it.key ≠ some .reset) := fun hboth => hticks hboth.1
  rw [countedAfter, if_neg hnot, countedBy, if_neg h]

/-- **One iteration.** Nothing is lost, with whatever keys. -/
theorem Accounted.iterate (h : Accounted (s, counted)) (tickRate : ℕ) (it : Iteration) :
    Accounted (s.iterate tickRate it, countedAfter tickRate s counted it) := by
  intro f
  have hf : aggregateStats s.globalStats f ≤ s.prevStats f + counted f := h f
  have hcounters := congrFun (s.iterate_globalStats tickRate it) f
  have hsnapshot := congrFun (s.iterate_prevStats tickRate it) f
  simp only [Pi.add_apply] at hcounters ⊢
  rw [hcounters, hsnapshot]
  by_cases hreset : it.key = some .reset
  · rw [countedAfter_of_reset tickRate s counted hreset, it.handle_of_reset s hreset,
      aggregateStats_zero]
    simp only [Pi.zero_apply]
    omega
  · obtain ⟨hkept, hgrown⟩ := it.handle_of_not_reset s hreset
    rw [hgrown]
    by_cases hticks : it.Ticks tickRate s
    · rw [if_pos hticks, countedAfter_of_ticks counted hreset hticks, it.stats_eq]
      simp only [Pi.add_apply]
      omega
    · rw [if_neg hticks, countedAfter_of_not_ticks counted hreset hticks, hkept]
      simp only [Pi.add_apply]
      omega

/-- **Without a reset** a rate counts events of its window. -/
theorem rates_le_of_not_reset (h : Accounted (s, counted)) (hreset : it.key ≠ some .reset)
    (r : RateField) : it.rates s r ≤ countedBy counted it r.counter := by
  have hf : aggregateStats s.globalStats r.counter ≤ s.prevStats r.counter + counted r.counter :=
    h r.counter
  rw [countedBy, if_neg hreset, Iteration.rates, tickStats, (it.handle_of_not_reset s hreset).1,
    it.stats_eq]
  simp only [Pi.add_apply]
  omega

/-- **With one** it counts everything that was read. -/
theorem rates_of_reset (s : TuiLoop) (hreset : it.key = some .reset) (r : RateField) :
    it.rates s r
      = aggregateStats s.globalStats r.counter + aggregateStats it.earlier r.counter := by
  rw [Iteration.rates, tickStats, it.handle_of_reset s hreset, it.stats_eq]
  exact Nat.sub_zero _

/-- So the rates of an iteration are clean exactly if a late reset is covered. -/
theorem clean_iff (h : Accounted (s, counted)) (hrunning : s.running = true) :
    Clean tickRate (s, counted) it ↔ Covered tickRate (s, counted) it := by
  by_cases hreset : it.key = some .reset
  · have hlate : it.Ticks tickRate s ↔ LateReset tickRate (s, counted) it := by
      rw [Iteration.Ticks, it.handle_of_reset s hreset, LateReset, and_iff_right hreset]
      exact and_iff_right hrunning
    simp only [Clean, Covered, hlate, countedBy_of_reset counted hreset, rates_of_reset s hreset]
  · exact ⟨fun _ hlate => absurd hlate.1 hreset, fun _ _ => rates_le_of_not_reset h hreset⟩

/-! ### Every run -/

theorem accounted_init (start : ℕ) : Accounted (TuiLoop.init start, 0) := by
  rw [Accounted, TuiLoop.init, aggregateStats_zero]
  exact fun _ => Nat.zero_le _

theorem Accounted.step {s t : TuiLoop × Counters} (h : Accounted s)
    (hstep : TuiStep tickRate s it t) : Accounted t := by
  obtain ⟨-, rfl⟩ := hstep
  exact Accounted.iterate h tickRate it

/-- **Without a late reset** every rate of a run is clean. -/
theorem rates_clean_of_no_lateReset (tickRate start : ℕ) (its : List Iteration)
    (h : AtEvents (TuiStep tickRate) (TuiLoop.init start, 0) its
      fun s it => ¬ LateReset tickRate s it) :
    AtEvents (TuiStep tickRate) (TuiLoop.init start, 0) its (Clean tickRate) :=
  h.imp (accounted_init start) (fun _ _ _ => Accounted.step) fun _ _ _ hs hstep hnot =>
    (clean_iff hs hstep.1).mpr fun hlate => absurd hlate hnot

/-- **A reset may produce a spike.** Along every run of the view, no rate counts more than the
events since the last snapshot, or since the last reset if that is later, exactly if no reset is
handled in an iteration that ends the window; unless what the iteration has read, for each counter
with a rate, is no more than what is counted between the reset and the end of the window. -/
theorem rates_clean_iff (tickRate start : ℕ) (its : List Iteration) :
    AtEvents (TuiStep tickRate) (TuiLoop.init start, 0) its (Clean tickRate) ↔
      AtEvents (TuiStep tickRate) (TuiLoop.init start, 0) its (Covered tickRate) :=
  atEvents_congr (accounted_init start) (fun _ _ _ => Accounted.step) fun _ _ _ hs hstep =>
    clean_iff hs hstep.1

/-- A thousand skips are read, and then, in the iteration that ends the first window, reset. -/
def lateReset : Iteration where
  earlier := fun cpu f => if cpu = 0 ∧ f = .nrLockHolderSkips then 1000 else 0
  polled := 0
  handled := 0
  key := some .reset
  now := 1000

/-- They are shown as the rate of a window without any. -/
theorem lateReset_spike :
    ¬ AtEvents (TuiStep 1000) (TuiLoop.init 0, 0) [lateReset] (Clean 1000) := by
  intro hclean
  have hticks : lateReset.Ticks 1000 (TuiLoop.init 0) := ⟨rfl, le_rfl⟩
  have hrate := hclean [] lateReset [] _ _ rfl .nil ⟨rfl, rfl⟩ hticks .lockSkipPerSec
  have hcounted : countedBy 0 lateReset .nrLockHolderSkips = 0 := by
    rw [countedBy_of_reset 0 rfl, lateReset, aggregateStats_zero]
    rfl
  have hread : aggregateStats (TuiLoop.init 0).globalStats .nrLockHolderSkips
      + aggregateStats lateReset.earlier .nrLockHolderSkips = 1000 := by
    rw [TuiLoop.init, aggregateStats_zero, Pi.zero_apply, zero_add]
    simp [aggregateStats, lateReset]
  rw [rates_of_reset _ rfl, RateField.counter, hcounted, hread] at hrate
  exact absurd hrate (by decide)

end Imperator
