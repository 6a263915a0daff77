import Imperator.Running

/-!
# Measuring a bout

A bout is measured as the difference of two truncated timestamps and clamped to 16 bits. The clamp
is meant to saturate, but the truncation comes first: 2³² ns after the stamp the difference starts
again at zero, and a longer bout then yields a smaller sample.

The stamp itself has a second flaw. Zero is read as "never ran", so a bout that starts when the low
32 bits of the clock are zero is unstamped until a tick stamps it again, and is measured from
there. Without such a tick the bout is not measured at all.

## Main results

* `boutCtx_lastRunAt` — the stamp a bout ends with is the first nonzero one
* `chargedBout_eq_saturated_iff` — which bouts are measured as a saturating clock would
-/

namespace Imperator

/-- The context at the end of a bout: `imperator_running` at `s`, then the ticks in order, each with
the shared state it finds. -/
def boutCtx (ro : Rodata) (s : U64) (ticks : List (TickEnv × Bss)) (c : TaskCtx) : TaskCtx :=
  ticks.foldl (fun c tick => ((imperatorTick ro tick.1 (some c) tick.2).ctx).getD c)
    (runningCtx s c)

/-- The first of the given times whose low 32 bits are not all zero. -/
def firstStamp (times : List U64) : Option U64 := times.find? fun t => t.setWidth 32 ≠ 0

/-- The sample of a saturating measurement: the duration in units of 1024 ns, at most 65535. -/
def saturatedUs (s e : U64) : U16 := BitVec.ofNat 16 (min ((e - s).toNat / 1024) 65535)

/-- The bout is stamped at some `τ`, and the time from there to its end is in the part of a 2³² ns
window where the clamp saturates, or in the first window with the time before `τ` lost in
rounding. -/
def InWindow (s : U64) (times : List U64) (e : U64) : Prop :=
  ∃ τ, firstStamp (s :: times) = some τ ∧ (65535 * 1024 ≤ (e - τ).toNat % 2 ^ 32 ∨
    (e - τ).toNat < 2 ^ 32 ∧ (e - τ).toNat / 1024 = (e - s).toNat / 1024)

variable {ro : Rodata} {c : TaskCtx} {s e τ : U64}

/-- A stamped task is not stamped again by a tick, an unstamped one is. -/
theorem tick_lastRunAt (ro : Rodata) (tick : TickEnv × Bss) (c : TaskCtx) :
    (((imperatorTick ro tick.1 (some c) tick.2).ctx).getD c).lastRunAt
      = if c.lastRunAt = 0 then tick.1.now.setWidth 32 else c.lastRunAt := by
  obtain ⟨skips, h⟩ := imperatorTick_ctx ro tick.1 c tick.2
  rw [h]
  rfl

theorem firstStamp_cons (t : U64) (times : List U64) :
    firstStamp (t :: times) = if t.setWidth 32 = 0 then firstStamp times else some t := by
  rw [firstStamp, firstStamp, List.find?_cons]
  split
  · next h => rw [if_neg (of_decide_eq_true h)]
  · next h => rw [if_pos (not_not.mp (of_decide_eq_false h))]

theorem foldl_tick_lastRunAt (ro : Rodata) (ticks : List (TickEnv × Bss)) :
    ∀ c : TaskCtx, (ticks.foldl
      (fun c tick => ((imperatorTick ro tick.1 (some c) tick.2).ctx).getD c) c).lastRunAt
      = if c.lastRunAt = 0 then
          (firstStamp (ticks.map fun tick => tick.1.now)).elim 0 (BitVec.setWidth 32)
        else c.lastRunAt := by
  induction ticks with
  | nil =>
    intro c
    split
    · next h => exact h
    · rfl
  | cons tick ticks ih =>
    intro c
    rw [List.foldl_cons, ih, tick_lastRunAt, List.map_cons, firstStamp_cons]
    by_cases hc : c.lastRunAt = 0
    · rw [if_pos hc, if_pos hc]
      by_cases htick : tick.1.now.setWidth 32 = 0
      · rw [if_pos htick, if_pos htick]
      · rw [if_neg htick, if_neg htick]
        rfl
    · rw [if_neg hc, if_neg hc, if_neg hc]

/-- The stamp a bout ends with: the first of its start and its ticks that is not zero. -/
theorem boutCtx_lastRunAt (ro : Rodata) (s : U64) (ticks : List (TickEnv × Bss)) (c : TaskCtx) :
    (boutCtx ro s ticks c).lastRunAt
      = (firstStamp (s :: ticks.map fun tick => tick.1.now)).elim 0 (BitVec.setWidth 32) := by
  rw [boutCtx, foldl_tick_lastRunAt, runningCtx_lastRunAt, firstStamp_cons]
  by_cases hs : s.setWidth 32 = 0
  · rw [if_pos hs, if_pos hs]
  · rw [if_neg hs, if_neg hs]
    rfl

theorem firstStamp_ne_zero {times : List U64} (h : firstStamp times = some τ) :
    τ.setWidth 32 ≠ 0 := by
  simpa using List.find?_some h

/-- Truncated timestamps measure a duration modulo 2³². -/
theorem setWidth_sub_setWidth_toNat (e τ : U64) :
    (e.setWidth 32 - τ.setWidth 32).toNat = (e - τ).toNat % 2 ^ 32 := by
  bv_omega

theorem saturatedUs_toNat (s e : U64) :
    (saturatedUs s e).toNat = min ((e - s).toNat / 1024) 65535 := by
  rw [saturatedUs, BitVec.toNat_ofNat]
  omega

/-- **Which bouts are measured by saturation.** For a bout from `s` to `e` with any ticks in
between, the sample that is charged is the saturated duration exactly when the bout is in a
window. -/
theorem chargedBout_eq_saturated_iff (ro : Rodata) (c : TaskCtx) {s e : U64}
    (ticks : List (TickEnv × Bss)) (hse : s ≤ e)
    (hticks : ∀ tick ∈ ticks, s ≤ tick.1.now ∧ tick.1.now ≤ e) :
    chargedBout (e.setWidth 32) (boutCtx ro s ticks c) = some (saturatedUs s e) ↔
      InWindow s (ticks.map fun tick => tick.1.now) e := by
  have hstamp := boutCtx_lastRunAt ro s ticks c
  rw [InWindow]
  cases hfirst : firstStamp (s :: ticks.map fun tick => tick.1.now) with
  | none =>
    rw [hfirst] at hstamp
    rw [chargedBout, if_pos (show (boutCtx ro s ticks c).lastRunAt = 0 from hstamp)]
    simp
  | some τ =>
    rw [hfirst] at hstamp
    have hne := firstStamp_ne_zero hfirst
    have hτ : s ≤ τ ∧ τ ≤ e := by
      rcases List.mem_cons.mp (List.mem_of_find?_eq_some hfirst) with rfl | hmem
      · exact ⟨BitVec.le_refl _, hse⟩
      · obtain ⟨tick, htick, rfl⟩ := List.mem_map.mp hmem
        exact hticks tick htick
    have hle : (e - τ).toNat ≤ (e - s).toNat := by
      obtain ⟨hsτ, hτe⟩ := hτ
      bv_omega
    rw [chargedBout, if_neg (by rw [hstamp]; exact hne), Option.some.injEq, ← BitVec.toNat_inj,
      boutUs_toNat, hstamp, Option.elim_some, setWidth_sub_setWidth_toNat, saturatedUs_toNat]
    constructor
    · intro h
      exact ⟨τ, rfl, by omega⟩
    · rintro ⟨τ', hτ', hwin⟩
      obtain rfl := Option.some.inj hτ'
      omega

/-- Two seconds with a tick in the middle are measured as 65535. -/
theorem chargedBout_two_seconds :
    chargedBout ((2000000007 : U64).setWidth 32) (boutCtx defaultRodata 7
      [(⟨0, 1000000007, false, false, none, 1024⟩, initBss defaultRodata)]
      (allocTaskCtxCold defaultRodata 120)) = some (saturatedUs 7 2000000007) :=
  (chargedBout_eq_saturated_iff defaultRodata (allocTaskCtxCold defaultRodata 120)
    [(⟨0, 1000000007, false, false, none, 1024⟩, initBss defaultRodata)] (by decide)
    (by simp)).mpr ⟨7, rfl, by decide⟩

/-- A bout of 2³² ns is measured as zero. -/
theorem chargedBout_of_wrapped :
    chargedBout ((4294967303 : U64).setWidth 32)
        (boutCtx defaultRodata 7 [] (allocTaskCtxCold defaultRodata 120)) = some 0 ∧
      saturatedUs 7 4294967303 = 65535 := by
  decide

end Imperator
