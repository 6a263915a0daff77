import Imperator.LlcNonempty
import Imperator.Overtaking

/-!
# Bounded bypass

Tasks of all tiers wait in one queue, and newer ones may be queued ahead of an older one. The key
makes up for that: it contains the time of the enqueue, so from some time on every newcomer is
queued behind. This module says when, for a queue that is filled by any number of calls of
`imperator_enqueue` and drained by any number of moves.

The kernel compares two keys by the sign of their difference. That is the order of the numbers as
long as they stay below `2 ^ 63`, so the statement is for a clock that has not come that far.

## Main definitions

* `DsqEvent`, `DsqEvent.next` — what happens to one queue
* `Arrival.window` — the time after which nothing passes a task

## Main results

* `pairwise_dsqInsertVtime` — inserting keeps a queue sorted
* `run_pairwise_window` — in every run, who is ahead of a task came before the end of its window
-/

namespace Imperator

open Transition

/-! ### Arrivals -/

/-- A call of `imperator_enqueue`, by what it reads. -/
structure Arrival where
  env : EnqueueEnv
  ctx : Option TaskCtx
  bss : Bss

namespace Arrival

variable (ro : Rodata) (a : Arrival)

/-- The call. -/
def result : EnqueueResult := imperatorEnqueue ro a.env a.ctx a.bss

/-- Time plus budget stays in the range of signed differences. -/
def InRange : Prop :=
  a.env.now.toNat + (budget ro.tierConfigs (a.result ro).tier).toNat < 2 ^ 63

/-- The end of the window: the time of the enqueue, the budget of the tier and two bonuses. -/
def window : ℕ :=
  a.env.now.toNat + (budget ro.tierConfigs (a.result ro).tier).toNat
    + 2 * ro.newFlowBonusNs.toNat

instance : Decidable (a.InRange ro) := inferInstanceAs (Decidable (_ < _))

variable {ro a}

/-- The key as a number. -/
theorem vtime_toNat (h : a.InRange ro) : (a.result ro).insert.vtime.toNat
    = DeadlineOrder.key (natBudget ro.tierConfigs) a.env.now.toNat (a.result ro).tier
        (a.result ro).advance.toNat := by
  rw [InRange] at h
  rw [result, imperatorEnqueue_vtime]
  exact tierDeadline_toNat _ _ (by rw [result] at h; omega)

/-- No key leaves the range of signed differences. -/
theorem vtime_toNat_lt (h : a.InRange ro) : (a.result ro).insert.vtime.toNat < 2 ^ 63 := by
  have hkey := DeadlineOrder.key_le (natBudget ro.tierConfigs) a.env.now.toNat (a.result ro).tier
    (a.result ro).advance.toNat
  rw [natBudget_val] at hkey
  rw [vtime_toNat h]
  exact hkey.trans_lt h

/-- A task whose key is not larger came before the end of the window. -/
theorem now_le_window {b : Arrival} (ha : a.InRange ro) (hb : b.InRange ro)
    (hkey : (b.result ro).insert.vtime ≤ (a.result ro).insert.vtime) :
    b.env.now.toNat ≤ a.window ro := by
  rw [BitVec.le_def, vtime_toNat ha, vtime_toNat hb] at hkey
  have hle := DeadlineOrder.le_of_key_le_key hkey
  have hgranted : DeadlineOrder.granted (natBudget ro.tierConfigs) (b.result ro).tier
      (b.result ro).advance.toNat ≤ 2 * ro.newFlowBonusNs.toNat :=
    (DeadlineOrder.granted_le _ _ _).trans (advance_toNat_le ro b.env b.ctx b.bss)
  rw [natBudget_val, natBudget_val] at hle
  rw [window]
  omega

end Arrival

/-! ### The order of a queue -/

variable {τ : Type*} {ro : Rodata} {q : List (Queued τ)} {e : Queued τ}

/-- A difference of numbers below `2 ^ 63` has the sign of their order. -/
theorem timeBefore_iff_lt {x y : U64} (hx : x.toNat < 2 ^ 63) (hy : y.toNat < 2 ^ 63) :
    timeBefore x y ↔ x < y := by
  rw [timeBefore, BitVec.msb_eq_decide, decide_eq_true_eq, BitVec.toNat_sub, BitVec.lt_def]
  omega

/-- A queue in the order of its keys. -/
def KeySorted (q : List (Queued τ)) : Prop :=
  q.Pairwise fun e e' => e.insert.vtime ≤ e'.insert.vtime

theorem mem_dsqInsertVtime {x : Queued τ} : x ∈ dsqInsertVtime e q ↔ x = e ∨ x ∈ q := by
  rw [dsqInsertVtime, List.mem_orderedInsert]

/-- **Inserting keeps a queue sorted**, if no key leaves the range of signed differences. -/
theorem pairwise_dsqInsertVtime (hq : KeySorted q)
    (hrange : ∀ x ∈ dsqInsertVtime e q, x.insert.vtime.toNat < 2 ^ 63) :
    KeySorted (dsqInsertVtime e q) := by
  induction q with
  | nil => exact List.pairwise_singleton _ _
  | cons x q ih =>
    obtain ⟨hx, hq⟩ := List.pairwise_cons.mp hq
    have hltx : timeBefore e.insert.vtime x.insert.vtime ↔ e.insert.vtime < x.insert.vtime :=
      timeBefore_iff_lt (hrange e (mem_dsqInsertVtime.mpr (Or.inl rfl)))
        (hrange x (mem_dsqInsertVtime.mpr (Or.inr (List.mem_cons_self ..))))
    by_cases hlt : timeBefore e.insert.vtime x.insert.vtime
    · -- the new task goes to the front, and everything behind `x` is later still
      have hfront : dsqInsertVtime e (x :: q) = e :: x :: q :=
        List.orderedInsert_cons_of_le _ _ hlt
      have hle : e.insert.vtime ≤ x.insert.vtime := BitVec.le_of_lt (hltx.mp hlt)
      rw [hfront]
      refine List.pairwise_cons.mpr ⟨?_, List.pairwise_cons.mpr ⟨hx, hq⟩⟩
      intro y hy
      rcases List.mem_cons.mp hy with rfl | hy
      · exact hle
      · exact BitVec.le_trans hle (hx y hy)
    · have hback : dsqInsertVtime e (x :: q) = x :: dsqInsertVtime e q :=
        List.orderedInsert_of_not_le _ _ hlt
      rw [hback] at hrange ⊢
      refine List.pairwise_cons.mpr
        ⟨?_, ih hq fun y hy => hrange y (List.mem_cons_of_mem _ hy)⟩
      intro y hy
      rcases mem_dsqInsertVtime.mp hy with rfl | hy
      · exact BitVec.not_lt.mp (mt hltx.mpr hlt)
      · exact hx y hy

/-! ### Runs of one queue -/

/-- What happens to the queue of an LLC. -/
inductive DsqEvent
  /-- `imperator_enqueue` inserts a task -/
  | enqueue (a : Arrival)
  /-- `scx_bpf_dsq_move_to_local` takes the first task that is allowed on the CPU -/
  | move (allowed : Arrival → Bool)

/-- The queue after an event. -/
def DsqEvent.next (ro : Rodata) (q : List (Queued Arrival)) : DsqEvent → List (Queued Arrival)
  | .enqueue a => dsqInsertVtime ⟨a, (a.result ro).insert⟩ q
  | .move allowed => q.eraseP fun e => allowed e.task

/-- The events admitted: enqueues in range, and every move. -/
def DsqEvent.InRange (ro : Rodata) : DsqEvent → Prop
  | .enqueue a => a.InRange ro
  | .move _ => True

instance : DecidablePred (DsqEvent.InRange ro)
  | .enqueue a => inferInstanceAs (Decidable (a.InRange ro))
  | .move _ => inferInstanceAs (Decidable True)

/-- What is kept: the tasks are queued with the keys of their calls, and in order. -/
structure DsqSorted (ro : Rodata) (q : List (Queued Arrival)) : Prop where
  insert_eq : ∀ e ∈ q, e.insert = (e.task.result ro).insert
  inRange : ∀ e ∈ q, e.task.InRange ro
  sorted : KeySorted q

/-- One event. -/
theorem dsqSorted_next {q : List (Queued Arrival)} {ev : DsqEvent} (h : DsqSorted ro q)
    (hev : ev.InRange ro) : DsqSorted ro (ev.next ro q) := by
  cases ev with
  | enqueue a =>
    have hinsert : ∀ e ∈ dsqInsertVtime ⟨a, (a.result ro).insert⟩ q,
        e.insert = (e.task.result ro).insert := by
      intro e he
      rcases mem_dsqInsertVtime.mp he with rfl | he
      · rfl
      · exact h.insert_eq e he
    have hrange : ∀ e ∈ dsqInsertVtime ⟨a, (a.result ro).insert⟩ q, e.task.InRange ro := by
      intro e he
      rcases mem_dsqInsertVtime.mp he with rfl | he
      · exact hev
      · exact h.inRange e he
    refine ⟨hinsert, hrange, pairwise_dsqInsertVtime h.sorted ?_⟩
    intro e he
    rw [hinsert e he]
    exact Arrival.vtime_toNat_lt (hrange e he)
  | move allowed =>
    have hsub : (q.eraseP fun e => allowed e.task).Sublist q := List.eraseP_sublist
    exact ⟨fun e he => h.insert_eq e (hsub.mem he), fun e he => h.inRange e (hsub.mem he),
      h.sorted.sublist hsub⟩

/-- Any number of events. -/
theorem dsqSorted_foldl {events : List DsqEvent} (hrange : ∀ ev ∈ events, ev.InRange ro) :
    DsqSorted ro (events.foldl (DsqEvent.next ro) []) := by
  have hrun : Run (Guarded (ofNext (DsqEvent.next ro)) fun _ ev => ev.InRange ro) [] events
      (events.foldl (DsqEvent.next ro) []) := Run.foldl [] events fun _ => hrange
  have hempty : DsqSorted ro [] := by
    refine ⟨?_, ?_, List.Pairwise.nil⟩ <;> intro e he <;> cases he
  refine Run.invariant (I := DsqSorted ro) ?_ hrun hempty
  rintro q ev q' hq ⟨hev, rfl⟩
  exact dsqSorted_next hq hev

/-- **Bounded bypass.** However a queue is filled and drained, a task that is ahead of another one
was enqueued no later than the budget of the other one's tier and two bonuses after it. -/
theorem run_pairwise_window (ro : Rodata) (events : List DsqEvent)
    (hrange : ∀ ev ∈ events, ev.InRange ro) :
    (events.foldl (DsqEvent.next ro) []).Pairwise fun ahead e =>
      ahead.task.env.now.toNat ≤ e.task.window ro := by
  have h := dsqSorted_foldl hrange
  refine List.Pairwise.imp_of_mem ?_ h.sorted
  intro ahead e hahead he hkey
  rw [h.insert_eq _ hahead, h.insert_eq _ he] at hkey
  exact Arrival.now_le_window (h.inRange _ he) (h.inRange _ hahead) hkey

/-- A T3 task whose slice expired. -/
def bulkCall (now : U64) : Arrival :=
  ⟨⟨0, 0, now, false, ⟨false, false⟩⟩, some (allocTaskCtxCold defaultRodata 135),
    initBss defaultRodata⟩

/-- A wakeup of a new task with a negative nice value. -/
def newCriticalCall (now : U64) : Arrival :=
  ⟨⟨0, 0, now, false, ⟨true, false⟩⟩, some (allocTaskCtxCold defaultRodata 110),
    initBss defaultRodata⟩

/-- The newcomer is ahead although it came 47 ms later, and it came within the window. -/
theorem newcomer_ahead_in_window :
    (([.enqueue (bulkCall 1000000000), .enqueue (newCriticalCall 1047100000)] :
        List DsqEvent).foldl (DsqEvent.next defaultRodata) []).map (·.task.env.now)
        = [1047100000, 1000000000] ∧
      (([.enqueue (bulkCall 1000000000), .enqueue (newCriticalCall 1047100000)] :
        List DsqEvent).foldl (DsqEvent.next defaultRodata) []).Pairwise fun ahead e =>
          ahead.task.env.now.toNat ≤ e.task.window defaultRodata :=
  ⟨by decide, run_pairwise_window defaultRodata _ (by decide)⟩

/-- A task that waits for longer than `2 ^ 63` nanoseconds is passed after its window: the
difference of the two keys has the wrong sign. -/
theorem newcomer_ahead_after_window :
    ¬ (([.enqueue (bulkCall 0), .enqueue (newCriticalCall 9223372036954775808)] :
      List DsqEvent).foldl (DsqEvent.next defaultRodata) []).Pairwise fun ahead e =>
        ahead.task.env.now.toNat ≤ e.task.window defaultRodata := by
  decide

end Imperator
