import Imperator.Running

/-!
# Past the slice check

A tick that does not preempt its task for the slice goes on. If the confidence counter of the CPU
lets it, it looks at the run queue, and may then preempt the task for the starvation budget of its
tier.

The confidence counter grows with every such tick without contention, also with those that do not
look, and the larger it is the more of its low bits have to be zero. The mask has at most three
bits, so of eight successive values one passes. But the counter stops at 255, and there the values
do not succeed each other any more. The last value that passes is 248: a tick that finds no
contention there is the last one that looked.

## Main definitions

* `SliceExpired` — the slice check preempts
* `Tick`, `Chained` — the ticks of one CPU, with whatever happens in between

## Main results

* `Tick.next_of_reaches` — what a tick does to the counter
* `checks_within_iff` — when eight ticks in a row contain a check
-/

namespace Imperator

/-! ### The slice check -/

/-- The task has run for longer than its slice, and something is queued. -/
def SliceExpired (env : TickEnv) (c : TaskCtx) : Prop :=
  c.nextSlice < (env.now.setWidth 32 - c.lastRunAt).setWidth 64 ∧ (env.llcQueued ∨ env.localQueued)

instance (env : TickEnv) (c : TaskCtx) : Decidable (SliceExpired env c) :=
  inferInstanceAs (Decidable (_ ∧ _))

/-- The task is stamped, and it is not preempted for its slice. -/
def PastSlice (env : TickEnv) (c : TaskCtx) : Prop := c.lastRunAt ≠ 0 ∧ ¬ SliceExpired env c

instance (env : TickEnv) (c : TaskCtx) : Decidable (PastSlice env c) :=
  inferInstanceAs (Decidable (_ ∧ _))

section Cases

variable {ro : Rodata} {env : TickEnv} {c : TaskCtx} {bss : Bss}

theorem imperatorTick_of_zero (h : c.lastRunAt = 0) : imperatorTick ro env (some c) bss
    = ⟨some { c with lastRunAt := env.now.setWidth 32 }, bss, false, none⟩ := by
  rw [imperatorTick, if_pos h]

theorem imperatorTick_of_expired (hrun : c.lastRunAt ≠ 0) (h : SliceExpired env c) :
    imperatorTick ro env (some c) bss = preemptSelf env.cpu c.tier c bss := by
  rw [imperatorTick, if_neg hrun]
  exact if_pos h

theorem imperatorTick_of_pastSlice (h : PastSlice env c) :
    imperatorTick ro env (some c) bss = starvationCheck ro env c bss := by
  rw [imperatorTick, if_neg h.1]
  exact if_neg h.2

end Cases

/-! ### Mailboxes -/

section Mailbox

variable {ro : Rodata} {cpu : Cpu} {bss : Bss}

@[simp] theorem Bss.count_megaMailbox (f : Stats → Stats) :
    (bss.count ro cpu f).megaMailbox = bss.megaMailbox := by
  obtain ⟨stats, h⟩ := Bss.count_frame ro cpu f bss
  rw [h]

@[simp] theorem Bss.setMailbox_megaMailbox_self (m : MailboxEntry) :
    (bss.setMailbox cpu m).megaMailbox cpu = m :=
  Function.update_self _ _ _

@[simp] theorem mailboxDvfs_tickCounter (t : Tier) (target : U32) :
    ((mailboxDvfs cpu t target bss).1.megaMailbox cpu).tickCounter
      = (bss.megaMailbox cpu).tickCounter := by
  rw [mailboxDvfs_bss, Bss.setMailbox_megaMailbox_self]

@[simp] theorem preemptSelf_tickCounter (t : Tier) (c : TaskCtx) :
    ((preemptSelf cpu t c bss).bss.megaMailbox cpu).tickCounter
      = (bss.megaMailbox cpu).tickCounter := by
  rw [preemptSelf, Bss.setMailbox_megaMailbox_self]

/-- Between two ticks of a CPU its counter is not touched: of the other callbacks only
`imperator_running` writes a mailbox. -/
theorem imperatorRunning_tickCounter (cpu' : Cpu) (now : U64) (ctx : Option TaskCtx) :
    ((imperatorRunning ro cpu' now ctx bss).2.megaMailbox cpu).tickCounter
      = (bss.megaMailbox cpu).tickCounter := by
  cases ctx with
  | none => rfl
  | some c =>
    rw [imperatorRunning_megaMailbox, Function.update_apply]
    split
    · next heq => rw [heq]
    · rfl

end Mailbox

/-! ### Ticks of one CPU -/

/-- A tick, by what it reads. -/
structure Tick where
  env : TickEnv
  ctx : Option TaskCtx
  bss : Bss

namespace Tick

variable (ro : Rodata) (x : Tick)

/-- The confidence counter the tick finds. -/
def counter : U8 := (x.bss.megaMailbox x.env.cpu).tickCounter

/-- The confidence counter it leaves. -/
def next : U8 := ((imperatorTick ro x.env x.ctx x.bss).bss.megaMailbox x.env.cpu).tickCounter

/-- The tick gets past the slice check. -/
def reaches : Bool := x.ctx.any fun c => PastSlice x.env c

/-- The counter lets the tick look at the run queue. -/
def Checks : Prop := x.counter &&& skipMask x.counter = 0

/-- There is something to see there. -/
def contended : Bool := x.env.nrRunning.any fun n => 1 < n

/-- The tick gets past the slice check at the last value that passes, and finds no contention. -/
def Saturates : Prop := x.reaches = true ∧ x.counter = 248 ∧ x.contended = false

instance : DecidablePred Checks := fun _ => inferInstanceAs (Decidable (_ = _))

variable {ro x}

/-- A tick that gets no further than the slice check leaves the counter alone. -/
theorem next_of_not_reaches (h : x.reaches = false) : x.next ro = x.counter := by
  rw [reaches] at h
  rw [next, counter]
  cases hctx : x.ctx with
  | none => rw [imperatorTick]
  | some c =>
    rw [hctx, Option.any_some, decide_eq_false_iff_not] at h
    by_cases hrun : c.lastRunAt = 0
    · rw [imperatorTick_of_zero hrun]
    · have hexp : SliceExpired x.env c := not_not.mp fun hexp => h ⟨hrun, hexp⟩
      rw [imperatorTick_of_expired hrun hexp, preemptSelf_tickCounter]

/-- **What a tick does to the counter.** Contention that is seen takes a quarter away, every other
tick that gets this far adds one, up to 255. -/
theorem next_of_reaches (h : x.reaches = true) : x.next ro
    = if x.Checks ∧ x.contended = true then x.counter - x.counter >>> 2
      else growTickCounter x.counter := by
  rw [reaches] at h
  obtain ⟨c, hctx, hpast⟩ := (Option.any_eq_true _ _).mp h
  rw [next, hctx, imperatorTick_of_pastSlice (of_decide_eq_true hpast), starvationCheck]
  dsimp only
  -- the condition of the source is that of the statement
  have hcond : ((x.bss.megaMailbox x.env.cpu).tickCounter &&&
      skipMask (x.bss.megaMailbox x.env.cpu).tickCounter = 0 ∧
        (x.env.nrRunning.any fun n => 1 < n) = true) ↔ x.Checks ∧ x.contended = true := Iff.rfl
  by_cases hseen : x.Checks ∧ x.contended = true
  · rw [if_pos (hcond.mpr hseen), if_pos hseen]
    split
    · split
      · simp [counter]
      · simp [counter]
    · simp [counter]
  · rw [if_neg (mt hcond.mp hseen), if_neg hseen]
    simp [counter]

end Tick

/-! ### The backoff -/

/-- Ticks of one CPU, starting from a value of the counter. What happens between two of them does
not touch the counter, and may be anything else. -/
def Chained (ro : Rodata) (cpu : Cpu) : U8 → List Tick → Prop
  | _, [] => True
  | tc, x :: xs => x.env.cpu = cpu ∧ x.counter = tc ∧ Chained ro cpu (x.next ro) xs

/-- The counter in the end. -/
def endCounter (ro : Rodata) : U8 → List Tick → U8
  | tc, [] => tc
  | _, x :: xs => endCounter ro (x.next ro) xs

/-- How many increments it takes to a value that passes. -/
def untilCheck (tc : U8) : ℕ := (8 - tc.toNat % 8) % 8

theorem untilCheck_growTickCounter : ∀ tc : U8, tc ≤ 248 → tc &&& skipMask tc ≠ 0 →
    growTickCounter tc ≤ 248 ∧ untilCheck (growTickCounter tc) + 1 = untilCheck tc := by
  decide +kernel

/-- From 249 on no value passes. -/
theorem and_skipMask_ne_zero : ∀ tc : U8, 249 ≤ tc →
    tc &&& skipMask tc ≠ 0 ∧ 249 ≤ growTickCounter tc := by
  decide +kernel

theorem growTickCounter_le : ∀ tc : U8, tc ≤ 248 → tc ≠ 248 → growTickCounter tc ≤ 248 := by
  decide +kernel

theorem decay_le : ∀ tc : U8, tc ≤ 248 → tc - tc >>> 2 ≤ 248 := by decide +kernel

section Backoff

variable {ro : Rodata} {cpu : Cpu} {tc : U8} {x : Tick} {xs ys : List Tick}

theorem chained_append : Chained ro cpu tc (xs ++ ys) ↔
    Chained ro cpu tc xs ∧ Chained ro cpu (endCounter ro tc xs) ys := by
  induction xs generalizing tc with
  | nil => exact (and_iff_right trivial).symm
  | cons x xs ih => rw [List.cons_append, Chained, Chained, ih, endCounter, and_assoc, and_assoc]

/-- **One tick** keeps the counter where checks happen, unless it finds no contention at 248. -/
theorem next_le (h : x.counter ≤ 248) (hsat : ¬ x.Saturates) : x.next ro ≤ 248 := by
  by_cases hreach : x.reaches = true
  · rw [Tick.next_of_reaches hreach]
    split
    · exact decay_le _ h
    · next hseen =>
      refine growTickCounter_le _ h fun heq => hsat ⟨hreach, heq, ?_⟩
      refine eq_false_of_ne_true fun hcont => hseen ⟨?_, hcont⟩
      rw [Tick.Checks, heq]
      decide
  · rwa [Tick.next_of_not_reaches (eq_false_of_ne_true hreach)]

/-- Beyond 248 it goes on growing. -/
theorem le_next (h : 249 ≤ x.counter) : 249 ≤ x.next ro := by
  by_cases hreach : x.reaches = true
  · have hpass := and_skipMask_ne_zero _ h
    rw [Tick.next_of_reaches hreach, if_neg fun hseen => hpass.1 hseen.1]
    exact hpass.2
  · rwa [Tick.next_of_not_reaches (eq_false_of_ne_true hreach)]

theorem Tick.Saturates.le_next (h : x.Saturates) : 249 ≤ x.next ro := by
  obtain ⟨hreach, h248, hcont⟩ := h
  rw [Tick.next_of_reaches hreach, hcont, if_neg fun hseen => Bool.false_ne_true hseen.2, h248]
  decide

/-- A run. -/
theorem endCounter_le (h : Chained ro cpu tc xs) (htc : tc ≤ 248)
    (hsat : ∀ x ∈ xs, ¬ x.Saturates) : endCounter ro tc xs ≤ 248 := by
  induction xs generalizing tc with
  | nil => exact htc
  | cons x xs ih =>
    obtain ⟨-, rfl, hrest⟩ := h
    exact ih hrest (next_le htc (hsat x (List.mem_cons_self ..)))
      fun y hy => hsat y (List.mem_cons_of_mem x hy)

theorem le_endCounter (h : Chained ro cpu tc xs) (htc : 249 ≤ tc) :
    249 ≤ endCounter ro tc xs ∧ ∀ x ∈ xs, ¬ x.Checks := by
  induction xs generalizing tc with
  | nil => exact ⟨htc, nofun⟩
  | cons x xs ih =>
    obtain ⟨-, rfl, hrest⟩ := h
    obtain ⟨hend, hnone⟩ := ih hrest (le_next htc)
    refine ⟨hend, ?_⟩
    rintro y (_ | ⟨_, hy⟩)
    · exact (and_skipMask_ne_zero _ htc).1
    · exact hnone y hy

/-- Once the counter is past 248 it stays there. -/
theorem le_endCounter_of_saturates (h : Chained ro cpu tc xs) (hsat : ∃ x ∈ xs, x.Saturates) :
    249 ≤ endCounter ro tc xs := by
  induction xs generalizing tc with
  | nil => exact absurd hsat (by simp)
  | cons x xs ih =>
    obtain ⟨y, hy, hsat⟩ := hsat
    obtain ⟨-, rfl, hrest⟩ := h
    rcases List.mem_cons.mp hy with rfl | hy
    · exact (le_endCounter hrest hsat.le_next).1
    · exact ih hrest ⟨y, hy, hsat⟩

/-- As long as the counter is not past 248, the next value that passes is met. -/
theorem exists_checks (h : Chained ro cpu tc xs) (htc : tc ≤ 248)
    (hcount : untilCheck tc < xs.countP Tick.reaches) : ∃ x ∈ xs, x.reaches = true ∧ x.Checks := by
  induction xs generalizing tc with
  | nil => exact absurd hcount (Nat.not_lt_zero _)
  | cons x xs ih =>
    obtain ⟨-, rfl, hrest⟩ := h
    by_cases hreach : x.reaches = true
    · by_cases hcheck : x.Checks
      · exact ⟨x, List.mem_cons_self .., hreach, hcheck⟩
      · obtain ⟨hle, huntil⟩ := untilCheck_growTickCounter _ htc hcheck
        rw [Tick.next_of_reaches hreach, if_neg fun hseen => hcheck hseen.1] at hrest
        rw [List.countP_cons_of_pos hreach] at hcount
        obtain ⟨y, hy, hy'⟩ := ih hrest hle (by omega)
        exact ⟨y, List.mem_cons_of_mem x hy, hy'⟩
    · rw [Tick.next_of_not_reaches (eq_false_of_ne_true hreach)] at hrest
      rw [List.countP_cons_of_neg hreach] at hcount
      obtain ⟨y, hy, hy'⟩ := ih hrest htc hcount
      exact ⟨y, List.mem_cons_of_mem x hy, hy'⟩

end Backoff

/-- **When the starvation check goes on.** On a CPU whose counter starts at zero, a stretch with
eight ticks that get past the slice check contains one that looks at the run queue, exactly when
before the stretch no such tick found no contention at 248. -/
theorem checks_within_iff (ro : Rodata) (cpu : Cpu) (before window : List Tick)
    (h : Chained ro cpu 0 (before ++ window)) (h8 : 8 ≤ window.countP Tick.reaches) :
    (∃ x ∈ window, x.reaches = true ∧ x.Checks) ↔ ∀ x ∈ before, ¬ x.Saturates := by
  obtain ⟨hbefore, hwindow⟩ := chained_append.mp h
  constructor
  · rintro ⟨x, hx, -, hcheck⟩ y hy hsat
    have hend := le_endCounter_of_saturates hbefore ⟨y, hy, hsat⟩
    exact (le_endCounter hwindow hend).2 x hx hcheck
  · intro hsat
    have hend := endCounter_le hbefore (by decide) hsat
    have huntil : untilCheck (endCounter ro 0 before) < 8 := Nat.mod_lt _ (by decide)
    exact exists_checks hwindow hend (huntil.trans_le h8)

/-- A tick 1 ms after the start of a task that is alone with a second one that is not queued. -/
def quietTick (tc : U8) : Tick where
  env := ⟨0, 2000000, false, false, some 1, 512⟩
  ctx := some { allocTaskCtxCold defaultRodata 120 with lastRunAt := 1000000 }
  bss := (initBss defaultRodata).setMailbox 0 ⟨0, 0, tc⟩

/-- `n` of them, one after the other. -/
def quietTicks : ℕ → U8 → List Tick
  | 0, _ => []
  | n + 1, tc => quietTick tc :: quietTicks n (growTickCounter tc)

theorem quietTick_next (tc : U8) : (quietTick tc).next defaultRodata = growTickCounter tc := by
  have hcounter : (quietTick tc).counter = tc := rfl
  have hreach : (quietTick tc).reaches = (quietTick 0).reaches := rfl
  rw [Tick.next_of_reaches (hreach.trans (by decide)),
    if_neg fun hseen => Bool.false_ne_true hseen.2, hcounter]

theorem growTickCounter_toNat : ∀ tc : U8, (growTickCounter tc).toNat = min (tc.toNat + 1) 255 := by
  decide

theorem iterate_growTickCounter {n : ℕ} (h : n ≤ 255) :
    growTickCounter^[n] 0 = BitVec.ofNat 8 n := by
  induction n with
  | zero => rfl
  | succ n ih =>
    refine BitVec.eq_of_toNat_eq ?_
    rw [Function.iterate_succ_apply', ih (Nat.le_of_succ_le h), growTickCounter_toNat,
      BitVec.toNat_ofNat, BitVec.toNat_ofNat]
    omega

theorem quietTicks_chained (n : ℕ) (tc : U8) :
    Chained defaultRodata 0 tc (quietTicks n tc) ∧
      endCounter defaultRodata tc (quietTicks n tc) = growTickCounter^[n] tc := by
  induction n generalizing tc with
  | zero => exact ⟨trivial, rfl⟩
  | succ n ih =>
    obtain ⟨hchain, hend⟩ := ih (growTickCounter tc)
    refine ⟨⟨rfl, rfl, ?_⟩, ?_⟩
    · rwa [quietTick_next]
    · rw [quietTicks, endCounter, quietTick_next, hend, Function.iterate_succ_apply]

theorem quietTicks_check_within : ∃ x ∈ quietTicks 8 0, x.reaches = true ∧ x.Checks :=
  (checks_within_iff defaultRodata 0 [] (quietTicks 8 0) (quietTicks_chained 8 0).1 (by decide)).mpr
    nofun

/-- After 249 quiet ticks there are eight without a check. -/
theorem quietTicks_stop_checking : ∃ before window : List Tick,
    Chained defaultRodata 0 0 (before ++ window) ∧ 8 ≤ window.countP Tick.reaches ∧
      ∀ x ∈ window, ¬ x.Checks := by
  obtain ⟨hbefore, hend⟩ := quietTicks_chained 249 0
  rw [iterate_growTickCounter (by decide)] at hend
  have hwindow := (quietTicks_chained 8 249).1
  refine ⟨quietTicks 249 0, quietTicks 8 249, ?_, by decide, ?_⟩
  · exact chained_append.mpr ⟨hbefore, hend ▸ hwindow⟩
  · exact (le_endCounter hwindow (BitVec.le_refl _)).2

end Imperator
