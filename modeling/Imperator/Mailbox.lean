import Imperator.Tick
import Imperator.TierCpuMask

/-!
# The mailbox names the tier

A wakee may inherit the tier of its waker, which is the task that runs on the CPU of the enqueue.
The enqueue does not look at the waker. It reads a byte in the mailbox of the CPU, and takes what it
finds there for the tier of the waker, if the byte was ever written.

The byte is written when a task starts to run, by replacing two bits of it, and again by all exits
of the tick but the one that stamps the task, each of which puts it together afresh. No callback but
the stop changes the tier of a task, and after the stop the CPU has no task. So while a task runs
the byte is the valid bit and the tier of the task, whatever exits its ticks take, and afterwards it
stays what it was.

## Main definitions

* `Started`, `StartedRun` — which task started last on a CPU, and in which tier
* `NamesTiers`, `Inherits` — what the mailboxes hold, and what an enqueue gets from them

## Main results

* `imperatorTick_flags`, `imperatorRunning_flags` — the stores
* `namesTiers_next` — one callback
* `mailbox_names_tier` — every state of every run
-/

namespace Imperator

open Transition

variable {τ : Type*} {ro : Rodata} {env : TickEnv} {c : TaskCtx} {bss : Bss} {cpu i : Cpu}
  {t : Tier}

/-! ### The stores -/

theorem Bss.setMailbox_flags (m : MailboxEntry) : ((bss.setMailbox cpu m).megaMailbox i).flags
    = if i = cpu then m.flags else (bss.megaMailbox i).flags := by
  show (Function.update bss.megaMailbox cpu m i).flags = _
  rw [Function.update_apply, apply_ite MailboxEntry.flags]

/-- The valid bit and the tier. -/
theorem mboxFlags_eq : ∀ t : Tier, mboxFlags t = 0x80#8 ||| BitVec.ofNat 8 t := by decide

/-- It is read back, and is not the byte of a mailbox nobody wrote to. -/
theorem mboxGetTier_mboxFlags : ∀ t : Tier,
    mboxGetTier (mboxFlags t) = t ∧ mboxFlags t &&& mboxValidFlag ≠ 0 := by
  decide

/-- Replacing the two bits gives the byte of the new tier, in a fresh mailbox as in a used one. -/
theorem replaceTier_of_zero : ∀ t : Tier,
    mboxValidFlag ||| ((0 : U8) &&& ~~~mboxTierMask) ||| BitVec.ofNat 8 t = mboxFlags t := by
  decide

theorem replaceTier_of_mboxFlags : ∀ t' t : Tier,
    mboxValidFlag ||| (mboxFlags t' &&& ~~~mboxTierMask) ||| BitVec.ofNat 8 t = mboxFlags t := by
  decide

theorem imperatorRunning_flags (ro : Rodata) (cpu : Cpu) (now : U64) (c : TaskCtx) (bss : Bss)
    (i : Cpu) : ((imperatorRunning ro cpu now (some c) bss).2.megaMailbox i).flags
      = if i = cpu then
          mboxValidFlag ||| ((bss.megaMailbox i).flags &&& ~~~mboxTierMask) |||
            BitVec.ofNat 8 c.tier
        else (bss.megaMailbox i).flags := by
  rw [imperatorRunning_megaMailbox, Function.update_apply]
  split
  · next heq => rw [heq]
  · rfl

theorem preemptSelf_flags : ((preemptSelf cpu t c bss).bss.megaMailbox i).flags
    = if i = cpu then mboxFlags t else (bss.megaMailbox i).flags :=
  Bss.setMailbox_flags _

/-- All exits of the starvation check write the byte. -/
theorem starvationCheck_flags : ((starvationCheck ro env c bss).bss.megaMailbox i).flags
    = if i = env.cpu then mboxFlags c.tier else (bss.megaMailbox i).flags := by
  obtain ⟨m, skips, preempts, hflags, h⟩ := starvationCheck_bss ro env c bss
  rw [h, ← hflags]
  exact Bss.setMailbox_flags m

/-- **The stores of a tick.** Every exit writes the byte, except that of a task that was not
stamped. -/
theorem imperatorTick_flags (ro : Rodata) (env : TickEnv) (c : TaskCtx) (bss : Bss) (i : Cpu) :
    ((imperatorTick ro env (some c) bss).bss.megaMailbox i).flags
      = if i = env.cpu ∧ c.lastRunAt ≠ 0 then mboxFlags c.tier
        else (bss.megaMailbox i).flags := by
  by_cases hzero : c.lastRunAt = 0
  · rw [imperatorTick_of_zero hzero, if_neg fun h => h.2 hzero]
  · simp only [hzero, ne_eq, not_false_eq_true, and_true]
    by_cases hexp : SliceExpired env c
    · rw [imperatorTick_of_expired hzero hexp, preemptSelf_flags]
    · rw [imperatorTick_of_pastSlice ⟨hzero, hexp⟩, starvationCheck_flags]

/-! ### Who started last -/

/-- For each CPU, the task that started last on it and the tier it had then. -/
abbrev Started (τ : Type*) := Cpu → Option (τ × Tier)

/-- A start takes the place of the one before. -/
def Callback.startedAfter (ctx : τ → Option TaskCtx) (started : Started τ) :
    Callback τ → Started τ
  | running p cpu _ => Function.update started cpu ((ctx p).map fun c => (p, c.tier))
  | enable .. | enqueue .. | tick .. | stopping .. => started

variable [DecidableEq τ]

/-- The system with the list of starts beside it. -/
def nextStarted (ro : Rodata) (s : System τ × Started τ) (cb : Callback τ) :
    System τ × Started τ :=
  (s.1.next ro cb, cb.startedAfter s.1.ctx s.2)

/-- The runs in which the tasks are where the kernel puts them; the clock may do anything. -/
def StartedRun (ro : Rodata) (cbs : List (Callback τ)) (s : System τ × Started τ) : Prop :=
  Run (Guarded (ofNext (nextStarted ro)) fun s => InPlace s.1) (System.init ro, fun _ => none) cbs s

variable {s : System τ} {started : Started τ} {cb : Callback τ} {cbs : List (Callback τ)}

/-- Every run of the system has its list of starts. -/
theorem SystemRun.startedRun (h : SystemRun ro cbs s) :
    ∃ started, StartedRun ro cbs (s, started) := by
  induction h with
  | nil => exact ⟨_, .nil⟩
  | snoc _ hstep ih =>
    obtain ⟨started, hrun⟩ := ih
    obtain ⟨horder, rfl⟩ := hstep
    exact ⟨_, hrun.snoc ⟨horder.inPlace, rfl⟩⟩

/-! ### One callback -/

/-- What the mailboxes hold. -/
structure NamesTiers (s : System τ) (started : Started τ) : Prop where
  /-- nothing, where no task has started -/
  unwritten : ∀ i, started i = none → (s.bss.megaMailbox i).flags = 0
  /-- the tier the task that started last had, with the valid bit and no other -/
  written : ∀ i p t, started i = some (p, t) →
    (s.bss.megaMailbox i).flags = 0x80#8 ||| BitVec.ofNat 8 t
  /-- and while a task runs it is that task, still in that tier -/
  current : ∀ i p, s.onCpu i = some p → ∃ c, s.ctx p = some c ∧ started i = some (p, c.tier)

/-- Wherever an enqueue runs, it bounds the tier of the wakee by that of the running task. -/
def Inherits (s : System τ) : Prop :=
  ∀ i p c, s.onCpu i = some p → s.ctx p = some c →
    ∀ t, inheritWakerTier s.bss i t = min t (max c.tier Tier.interact)

/-- A task that goes on running stays in its tier. -/
theorem current_next (hnames : NamesTiers s started) (hplaced : Placed s) (hplace : InPlace s cb)
    {p : τ} (h : (s.next ro cb).onCpu i = some p) (hold : s.onCpu i = some p) :
    ∃ c, (s.next ro cb).ctx p = some c ∧ started i = some (p, c.tier) := by
  obtain ⟨c, hc, hlast⟩ := hnames.current i p hold
  rcases eq_or_ne p cb.task with heq | hne
  · have hkeep : cb.KeepsTier := by
      cases cb with
      | stopping q cpu now runnable =>
        obtain rfl : p = q := heq
        obtain rfl := hplaced.oneCpu i cpu p hold hplace
        rw [show (s.next ro (.stopping p i now runnable)).onCpu i = none from
          Function.update_self _ _ _] at h
        cases h
      | enable | enqueue | running | tick => trivial
    have htier : ((s.next ro cb).ctx p).map TaskCtx.tier = some c.tier := System.next_tier hkeep hc
    obtain ⟨c', hc', htier'⟩ := Option.map_eq_some_iff.mp htier
    exact ⟨c', hc', by rw [hlast, htier']⟩
  · exact ⟨c, by rw [System.next_ctx_of_ne hne, hc], hlast⟩

/-- Callbacks that write no byte but the one it holds. -/
theorem namesTiers_of_flags (hnames : NamesTiers s started) (hplaced : Placed s)
    (hplace : InPlace s cb)
    (hon : ∀ i p, (s.next ro cb).onCpu i = some p → s.onCpu i = some p)
    (hflags : ∀ i, ((s.next ro cb).bss.megaMailbox i).flags = (s.bss.megaMailbox i).flags) :
    NamesTiers (s.next ro cb) started where
  unwritten := fun i h => (hflags i).trans (hnames.unwritten i h)
  written := fun i p t h => (hflags i).trans (hnames.written i p t h)
  current := fun i p h => current_next hnames hplaced hplace h (hon i p h)

omit [DecidableEq τ] in
/-- The byte of a CPU before a start, whatever was there, becomes that of the task that starts. -/
theorem replaceTier_of_names (hnames : NamesTiers s started) (i : Cpu) (t : Tier) :
    mboxValidFlag ||| ((s.bss.megaMailbox i).flags &&& ~~~mboxTierMask) ||| BitVec.ofNat 8 t
      = mboxFlags t := by
  cases hlast : started i with
  | none => rw [hnames.unwritten i hlast, replaceTier_of_zero]
  | some last => rw [hnames.written i last.1 last.2 hlast, ← mboxFlags_eq, replaceTier_of_mboxFlags]

/-- The bytes after a start. -/
theorem next_running_flags {p : τ} {now : U64} (hnames : NamesTiers s started)
    (hc : s.ctx p = some c) (i : Cpu) :
    ((s.next ro (.running p cpu now)).bss.megaMailbox i).flags
      = if i = cpu then mboxFlags c.tier else (s.bss.megaMailbox i).flags := by
  show ((imperatorRunning ro cpu now (s.ctx p) s.bss).2.megaMailbox i).flags = _
  rw [hc, imperatorRunning_flags, replaceTier_of_names hnames]

theorem namesTiers_next_running {p : τ} {now : U64} (hnames : NamesTiers s started)
    (hplace : InPlace s (.running p cpu now)) :
    NamesTiers (s.next ro (.running p cpu now))
      (Callback.startedAfter s.ctx started (.running p cpu now)) := by
  obtain ⟨c, hc⟩ := Option.ne_none_iff_exists'.mp hplace.1
  have hstarts : Callback.startedAfter s.ctx started (.running p cpu now)
      = Function.update started cpu (some (p, c.tier)) := by
    rw [Callback.startedAfter, hc, Option.map_some]
  have hflags : ∀ i, ((s.next ro (.running p cpu now)).bss.megaMailbox i).flags
      = if i = cpu then mboxFlags c.tier else (s.bss.megaMailbox i).flags :=
    next_running_flags hnames hc
  rw [hstarts]
  constructor
  · intro i h
    rcases eq_or_ne i cpu with rfl | hne
    · rw [Function.update_self] at h
      cases h
    · rw [Function.update_of_ne hne] at h
      rw [hflags, if_neg hne, hnames.unwritten i h]
  · intro i q t h
    rcases eq_or_ne i cpu with rfl | hne
    · rw [Function.update_self] at h
      obtain ⟨rfl, rfl⟩ := Prod.mk.inj (Option.some.inj h)
      rw [hflags, if_pos rfl, mboxFlags_eq]
    · rw [Function.update_of_ne hne] at h
      rw [hflags, if_neg hne, hnames.written i q t h]
  · intro i q h
    rcases onCpu_of_next h with hold | ⟨_, hcb⟩
    · have hne : i ≠ cpu := by
        rintro rfl
        rw [hplace.2.1] at hold
        cases hold
      have hother : q ≠ p := by
        rintro rfl
        exact hplace.2.2 i hold
      rw [Function.update_of_ne hne, System.next_ctx_of_ne hother]
      exact hnames.current i q hold
    · obtain ⟨rfl, rfl, -⟩ := Callback.running.inj hcb
      obtain ⟨c', hc', htier⟩ := Option.map_eq_some_iff.mp
        (System.next_tier trivial hc : ((s.next ro (.running p cpu now)).ctx p).map _ = _)
      exact ⟨c', hc', by rw [Function.update_self, htier]⟩

/-- **One callback.** -/
theorem namesTiers_next (hnames : NamesTiers s started) (hplaced : Placed s)
    (hplace : InPlace s cb) :
    NamesTiers (s.next ro cb) (cb.startedAfter s.ctx started) := by
  cases cb with
  | running p cpu now => exact namesTiers_next_running hnames hplace
  | enable p prio alloc =>
    exact namesTiers_of_flags hnames hplaced hplace (fun _ _ h => h) fun _ => rfl
  | enqueue p env =>
    refine namesTiers_of_flags hnames hplaced hplace (fun _ _ h => h) fun i => ?_
    show ((imperatorEnqueue ro env (s.ctx p) s.bss).bss.megaMailbox i).flags = _
    rw [imperatorEnqueue_megaMailbox]
  | tick p env =>
    refine namesTiers_of_flags hnames hplaced hplace (fun _ _ h => h) fun i => ?_
    obtain ⟨c, hc, hlast⟩ := hnames.current env.cpu p hplace
    show ((imperatorTick ro env (s.ctx p) s.bss).bss.megaMailbox i).flags = _
    rw [hc, imperatorTick_flags]
    split
    · next h => rw [h.1, hnames.written env.cpu p c.tier hlast, mboxFlags_eq]
    · rfl
  | stopping p cpu now runnable =>
    refine namesTiers_of_flags hnames hplaced hplace (fun i q h => ?_) fun i => ?_
    · rcases onCpu_of_next h with hold | ⟨_, hcb⟩
      · exact hold
      · cases hcb
    · show ((imperatorStopping ro cpu now runnable (s.ctx p) s.bss).2.megaMailbox i).flags = _
      rw [imperatorStopping_megaMailbox]

/-! ### Runs -/

omit [DecidableEq τ] in
theorem namesTiers_init (ro : Rodata) :
    NamesTiers (System.init ro : System τ) fun _ => none where
  unwritten := fun _ _ => rfl
  written := fun _ _ _ h => by cases h
  current := fun _ _ h => by cases h

omit [DecidableEq τ] in
/-- **What an enqueue inherits** is the tier of the running task, but not T0. -/
theorem NamesTiers.inherits (h : NamesTiers s started) : Inherits s := by
  intro i p c hon hc t
  obtain ⟨c', hc', hlast⟩ := h.current i p hon
  obtain rfl := Option.some.inj (hc.symm.trans hc')
  have hbyte : (s.bss.megaMailbox i).flags = mboxFlags c.tier := by
    rw [h.written i p c.tier hlast, mboxFlags_eq]
  obtain ⟨hread, hvalid⟩ := mboxGetTier_mboxFlags c.tier
  rw [inheritWakerTier, hbyte, hread]
  dsimp only
  rw [if_pos hvalid]
  generalize c.tier = t'
  revert t t'
  decide

/-- **The mailbox names the tier.** After every callback of every run the byte of a CPU is zero if
no task has started on it, and otherwise the valid bit with the tier of the task that started last.
While that task runs it is its tier now, and what an enqueue on that CPU inherits. -/
theorem mailbox_names_tier (h : StartedRun ro cbs (s, started)) :
    NamesTiers s started ∧ Inherits s := by
  have hinv : Placed s ∧ NamesTiers s started := by
    refine Run.invariant (I := fun s => Placed s.1 ∧ NamesTiers s.1 s.2) ?_ h
      ⟨placed_init ro, namesTiers_init ro⟩
    rintro ⟨s, started⟩ cb _ ⟨hplaced, hnames⟩ ⟨hplace, rfl⟩
    exact ⟨placed_next hplaced hplace, namesTiers_next hnames hplaced hplace⟩
  exact ⟨hinv.2, hinv.2.inherits⟩

/-- A T3 task starts on CPU 0, is ticked there past its slice while another one waits, and wakes the
other one, of nice value 0. -/
def bulkWaker : List (Callback Bool) :=
  [.enable false 139 true, .enable true 120 true, .running false 0 1000000,
    .tick false ⟨0, 100000000, true, false, none, 1024⟩,
    .enqueue true ⟨0, 0, 100000000, false, ⟨true, false⟩⟩]

theorem bulkWaker_run : ∃ s started, StartedRun defaultRodata bulkWaker (s, started) ∧
    started 0 = some (false, Tier.bulk) ∧ started 1 = none :=
  have henabled : StartedRun defaultRodata [.enable false 139 true, .enable true 120 true] _ :=
    (Run.nil.snoc ⟨trivial, rfl⟩).snoc ⟨trivial, rfl⟩
  have hrunning := Run.snoc henabled (e := Callback.running false 0 1000000)
    ⟨⟨nofun, rfl, nofun⟩, rfl⟩
  have hticked := Run.snoc hrunning
    (e := Callback.tick false ⟨0, 100000000, true, false, none, 1024⟩) ⟨rfl, rfl⟩
  have hwoken := Run.snoc hticked
    (e := Callback.enqueue true ⟨0, 0, 100000000, false, ⟨true, false⟩⟩) ⟨trivial, rfl⟩
  ⟨_, _, hwoken, rfl, rfl⟩

/-- The mailbox of CPU 0 shows T3, and that of CPU 1 nothing. -/
theorem bulkWaker_named : ∃ s started, StartedRun defaultRodata bulkWaker (s, started) ∧
    (s.bss.megaMailbox 0).flags = 0x83 ∧ (s.bss.megaMailbox 1).flags = 0 := by
  obtain ⟨s, started, hrun, h0, h1⟩ := bulkWaker_run
  obtain ⟨hnames, -⟩ := mailbox_names_tier hrun
  exact ⟨s, started, hrun, hnames.written 0 false _ h0, hnames.unwritten 1 h1⟩

end Imperator
