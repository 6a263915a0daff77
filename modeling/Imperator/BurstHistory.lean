import Imperator.TaskRun

/-!
# The burst as a sum

A burst is the CPU time of a task between two blocks. A stop measures one bout of it and adds the
bout to an accumulator of 16 bits, which is cut off at the largest value on every addition. Cutting
off once at the end would give the same: after any run the accumulator is the sum of the bouts
since the last block, cut off.

The sample a stop feeds into the average is that sum with the current bout in it, whichever path
the stop takes. The deficit pays for every bout separately, blocked or not, and stops at zero.

Bouts are recorded beside the context, newest first. A stop that finds no time stamp accounts for
nothing and leaves no record.

## Main definitions

* `Bout`, `TaskOp.bouts` — the record
* `sinceBlock`, `boutSum` — the bouts of the current burst, and their length

## Main results

* `burst_is_saturated_sum` — accumulator, sample and deficit along every run
-/

namespace Imperator

open Transition

/-! ### The record -/

/-- A bout that was accounted for: its length, and whether it ended in a preemption. -/
structure Bout where
  runnable : Bool
  us : U16
  deriving DecidableEq, Repr

/-- The record after an event. -/
def TaskOp.bouts (ctx : Option TaskCtx) (l : List Bout) : TaskOp → List Bout
  | .stopping _ now runnable _ =>
    (ctx.bind (chargedBout (now.setWidth 32))).elim l fun bout => ⟨runnable, bout⟩ :: l
  | _ => l

/-- A context and its bouts after an event. -/
def withBouts (ro : Rodata) : Option TaskCtx × List Bout → TaskOp → Option TaskCtx × List Bout :=
  recording (TaskOp.apply ro) TaskOp.bouts

/-- The bouts since the task last blocked. -/
def sinceBlock (l : List Bout) : List Bout := l.takeWhile Bout.runnable

/-- The CPU time of some bouts. -/
def boutSum (l : List Bout) : ℕ := (l.map fun b => b.us.toNat).sum

variable {ro : Rodata} {ctx : Option TaskCtx} {c c' c₀ : TaskCtx} {op : TaskOp}
  {ops : List TaskOp} {runnable : Bool} {bout : U16} {l : List Bout}

@[simp] theorem boutSum_nil : boutSum [] = 0 := rfl

@[simp] theorem boutSum_cons (b : Bout) (l : List Bout) :
    boutSum (b :: l) = b.us.toNat + boutSum l := by
  simp [boutSum]

/-- A bout that ends in a block leaves an empty burst. -/
theorem boutSum_sinceBlock_cons (runnable : Bool) (bout : U16) (l : List Bout) :
    boutSum (sinceBlock (⟨runnable, bout⟩ :: l))
      = if runnable then boutSum (sinceBlock l) + bout.toNat else 0 := by
  cases runnable
  · rfl
  · show boutSum (⟨true, bout⟩ :: sinceBlock l) = _
    rw [boutSum_cons, Nat.add_comm, if_pos rfl]

/-- Only a stop that accounts for a bout is recorded. -/
theorem bouts_of_stop {now : U64} (cpu : Cpu) (bss : Bss) (l : List Bout)
    (h : chargedBout (now.setWidth 32) c = some bout) :
    (TaskOp.stopping cpu now runnable bss).bouts (some c) l = ⟨runnable, bout⟩ :: l := by
  show (chargedBout (now.setWidth 32) c).elim l _ = _
  rw [h]
  rfl

/-! ### The burst -/

/-- The accumulator is the burst, cut off. -/
def Accumulates (c : TaskCtx) (l : List Bout) : Prop :=
  c.burstAccUs.toNat = min 65535 (boutSum (sinceBlock l))

/-- Cutting off before the addition makes no difference after it. -/
theorem Accumulates.sample (h : Accumulates c l) (bout : U16) :
    (burstSample c bout).toNat = min 65535 (boutSum (sinceBlock l) + bout.toNat) := by
  rw [Accumulates] at h
  rw [burstSample_toNat, h]
  omega

theorem Accumulates.of_sameAccount (h : Accumulates c l) (hsame : SameAccount c c') :
    Accumulates c' l := by
  rw [Accumulates, hsame.burstAccUs]
  exact h

/-- **One stop.** -/
theorem Accumulates.accountBout (h : Accumulates c l) (ro : Rodata) (runnable : Bool) (bout : U16) :
    Accumulates (accountBout ro runnable bout c) (⟨runnable, bout⟩ :: l) := by
  rw [Accumulates, accountBout_burstAccUs, boutSum_sinceBlock_cons]
  cases runnable
  · rfl
  · exact h.sample bout

/-- **One event.** Nothing but a stop touches the accumulator, not even an exec or a fork. -/
theorem Accumulates.apply (h : Accumulates c l) (happly : op.apply ro (some c) = some c') :
    Accumulates c' (op.bouts (some c) l) := by
  cases op with
  | stopping cpu now runnable bss =>
    rcases apply_stopping_cases happly with ⟨hnone, rfl⟩ | ⟨bout, hsome, rfl⟩
    · show Accumulates c' ((chargedBout (now.setWidth 32) c').elim l _)
      rw [hnone]
      exact h
    · rw [bouts_of_stop cpu bss l hsome]
      have hstamped : Accumulates
        { c with sleepEntryTime := if runnable then 0 else now.setWidth 32 } l := h
      exact hstamped.accountBout ro runnable bout
  | initTask fork prio parent =>
    cases effect_of_apply happly with
    | kept hsame _ => exact h.of_sameAccount hsame
    | execed => exact h
    | forked => exact h
  | enable | selectCpu | enqueue | running | tick | lockHolder =>
    cases effect_of_apply happly with
    | kept hsame _ => exact h.of_sameAccount hsame

/-- **The accumulator is the burst**, in every run. -/
theorem accumulates_of_run (h : Run (ofNext (withBouts ro)) (none, []) ops (some c, l)) :
    Accumulates c l := by
  have hrun :
      Run (ofNext (recording (TaskOp.apply ro) TaskOp.bouts)) (none, []) ops (some c, l) := h
  refine recorded_invariant (I := Accumulates) ?_ ?_ ?_ hrun
  · rintro op -
    cases op <;> rfl
  · exact fun _ => rfl
  · exact fun _ _ _ _ hacc happly => hacc.apply happly

/-! ### The deficit -/

/-- The event does not seed the context with the deficit of a new task. -/
def NotForked : Option TaskCtx × List Bout → TaskOp → Prop
  | _, .initTask true _ (some _) => False
  | _, _ => True

/-- What is left of a deficit of `d` after some bouts. -/
def Pays (d : ℕ) (c : TaskCtx) (l : List Bout) : Prop := c.deficit.toNat = d - boutSum l

theorem Pays.of_eq {d : ℕ} (h : Pays d c l) (heq : c'.deficit = c.deficit) : Pays d c' l := by
  rw [Pays, heq]
  exact h

/-- **One stop** pays for its bout. -/
theorem Pays.accountBout {d : ℕ} (h : Pays d c l) (ro : Rodata) (runnable : Bool) (bout : U16) :
    Pays d (accountBout ro runnable bout c) (⟨runnable, bout⟩ :: l) := by
  rw [Pays] at h
  rw [Pays, accountBout_deficit, chargeDeficit_toNat, boutSum_cons, h, Nat.add_comm, Nat.sub_sub]

/-- **One event.** -/
theorem Pays.apply {d : ℕ} {l' : List Bout} (h : Pays d c l)
    (hop : NotForked (some c, l') op) (happly : op.apply ro (some c) = some c') :
    Pays d c' (op.bouts (some c) l) := by
  cases op with
  | stopping cpu now runnable bss =>
    rcases apply_stopping_cases happly with ⟨hnone, rfl⟩ | ⟨bout, hsome, rfl⟩
    · show Pays d c' ((chargedBout (now.setWidth 32) c').elim l _)
      rw [hnone]
      exact h
    · rw [bouts_of_stop cpu bss l hsome]
      have hstamped :
          Pays d { c with sleepEntryTime := if runnable then 0 else now.setWidth 32 } l :=
        h
      exact hstamped.accountBout ro runnable bout
  | initTask fork prio parent =>
    cases effect_of_apply happly with
    | kept hsame _ => exact h.of_eq hsame.deficit
    | execed => exact h.of_eq (extractDeficit_pack _ _)
    | forked => exact hop.elim
  | enable | selectCpu | enqueue | running | tick | lockHolder =>
    cases effect_of_apply happly with
    | kept hsame _ => exact h.of_eq hsame.deficit

/-- **The deficit pays for every bout**, until nothing is left. -/
theorem deficit_of_run
    (h : Run (Guarded (ofNext (withBouts ro)) NotForked) (some c, []) ops (some c', l)) :
    c'.deficit.toNat = c.deficit.toNat - boutSum l := by
  have hall : ∃ d, ((some c', l) : Option TaskCtx × List Bout).1 = some d ∧
      Pays c.deficit.toNat d l := by
    refine Run.invariant (I := fun s : Option TaskCtx × List Bout =>
      ∃ d, s.1 = some d ∧ Pays c.deficit.toNat d s.2) ?_ h ⟨c, rfl, rfl⟩
    rintro ⟨_, l⟩ op _ ⟨d, rfl, hpays⟩ ⟨hop, rfl⟩
    obtain ⟨d', hd'⟩ := apply_isSome ro d op
    exact ⟨d', hd', hpays.apply hop hd'⟩
  obtain ⟨d, hd, hpays⟩ := hall
  obtain rfl := Option.some.inj hd
  exact hpays

/-! ### Every stop -/

/-- **The burst is a sum that is cut off once.** Along every run the accumulator is the sum of the
bouts since the task last blocked, cut off at 65535. A stop that accounts for a bout feeds the sum
with this bout, cut off, into the average on either path, and leaves it in the accumulator, or zero
if the task blocks. From any context on, the deficit is what the bouts leave of it, unless a fork
seeds it. -/
theorem burst_is_saturated_sum (h : Run (ofNext (withBouts ro)) (none, []) ops (some c, l)) :
    (∀ cpu now runnable bss bout c', chargedBout (now.setWidth 32) c = some bout →
        TaskOp.apply ro (some c) (.stopping cpu now runnable bss) = some c' →
        (burstSample c bout).toNat = min 65535 (boutSum (sinceBlock l) + bout.toNat) ∧
        c'.avgRt = ewma runnable c.avgRt (burstSample c bout) ∧
        c'.burstAccUs.toNat
          = if runnable then min 65535 (boutSum (sinceBlock l) + bout.toNat) else 0) ∧
      c.burstAccUs.toNat = min 65535 (boutSum (sinceBlock l)) ∧
      ∀ ops' c' l',
        Run (Guarded (ofNext (withBouts ro)) NotForked) (some c, []) ops' (some c', l') →
        c'.deficit.toNat = c.deficit.toNat - boutSum l' := by
  have hacc := accumulates_of_run h
  refine ⟨fun cpu now runnable bss bout c' hbout hstop => ?_, hacc, fun _ _ _ => deficit_of_run⟩
  obtain ⟨stamp, rfl⟩ := accountBout_of_charged hbout hstop
  refine ⟨hacc.sample bout, accountBout_avgRt, ?_⟩
  rw [accountBout_burstAccUs]
  cases runnable
  · rfl
  · exact hacc.sample bout

/-- A task of nice value 0 that is preempted after 60000 units, and runs again. -/
def preemptedRun : List TaskOp :=
  [.enable 120 true, .running 0 1000000 (initBss defaultRodata),
    .stopping 0 (1000000 + 60000 <<< 10) true (initBss defaultRodata),
    .running 0 100000000 (initBss defaultRodata)]

theorem preemptedRun_ends : ∃ c l,
    Run (ofNext (withBouts defaultRodata)) (none, []) preemptedRun (some c, l) ∧
      l = [⟨true, 60000⟩] ∧ c.lastRunAt = 100000000 :=
  ⟨_, _, Run.foldl_ofNext (withBouts defaultRodata) (none, []) preemptedRun, by decide, by decide⟩

/-- The next 10000 units make a burst of 70000, which does not fit. -/
theorem preemptedRun_saturates : ∃ c c' l,
    Run (ofNext (withBouts defaultRodata)) (none, []) preemptedRun (some c, l) ∧
      TaskOp.apply defaultRodata (some c)
        (.stopping 0 (100000000 + 10000 <<< 10) true (initBss defaultRodata)) = some c' ∧
      c'.burstAccUs.toNat = 65535 := by
  obtain ⟨c, l, hrun, rfl, hlast⟩ := preemptedRun_ends
  have hbout : chargedBout ((100000000 + 10000 <<< 10 : U64).setWidth 32) c = some 10000 := by
    rw [chargedBout, hlast]
    decide
  obtain ⟨c', hc'⟩ := apply_isSome defaultRodata c
    (.stopping 0 (100000000 + 10000 <<< 10) true (initBss defaultRodata))
  obtain ⟨hstop, -⟩ := burst_is_saturated_sum hrun
  exact ⟨c, c', _, hrun, hc', (hstop _ _ _ _ _ _ hbout hc').2.2⟩

end Imperator
