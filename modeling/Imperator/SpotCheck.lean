import Imperator.BurstCuts

/-!
# The early return against the full path

A settled task takes the early return on most of its stops. Two things should make this invisible.
The numbers, deficit and average, should not depend on the path. And since the early return keeps
the tier, it should notice when the full path would have changed it, and clear the stability
counter so that the next stop takes the full path.

The numbers agree. Nothing else in the context is looked at for them, so two contexts that differ
in tier, counters and history are billed alike.

The spot check agrees only half way. It compares the new average with the gates, as the full path
does, but the full path also records the outcome of the bout in the overrun history and demotes on
the fourth overrun. A task settles with the history it has, so three overruns recorded on the way
and a fourth one on the early return are a demotion the spot check does not see, as long as the
average stays in the band.

## Main definitions

* `billed` — the fused word after one charge and one step of the average
* `fullReclassify` — a stop without the early return
* `UnseenDemotion` — the fourth overrun of a task whose average stays in the band

## Main results

* `accounting_path_independent` — the numbers do not depend on the path
* `spotCheck_agrees_iff` — when the spot check agrees with the full path
-/

namespace Imperator

variable {ro : Rodata} {c c' : TaskCtx} {runnable : Bool} {bout rt : U16}

/-! ### The numbers -/

/-- The fused word after a bout: one charge of the deficit by the bout, and one step of the average
by the burst it belongs to. -/
def billed (runnable : Bool) (bout : U16) (c : TaskCtx) : U32 :=
  packDeficitAvg (chargeDeficit c.deficit bout) (ewma runnable c.avgRt (burstSample c bout))

@[simp] theorem quickPass_deficitAvgFused : (quickPass runnable bout rt c).deficitAvgFused
    = packDeficitAvg (chargeDeficit c.deficit bout) (ewma runnable c.avgRt rt) := by
  rw [quickPass]
  split <;> rfl

theorem accountBout_deficitAvgFused (ro : Rodata) (runnable : Bool) (bout : U16) (c : TaskCtx) :
    (accountBout ro runnable bout c).deficitAvgFused = billed runnable bout c := by
  by_cases h : TakesBackoff c
  · rw [accountBout_of_backoff ro runnable bout h, quickPass_deficitAvgFused]
    rfl
  · rw [accountBout_of_full ro runnable bout h]
    rfl

/-- A stamped task is billed once, on whichever path. -/
theorem reclassifyTaskCold_billed (ro : Rodata) (now : U32) (runnable : Bool)
    (h : c.lastRunAt ≠ 0) :
    (reclassifyTaskCold ro now runnable c).deficitAvgFused
        = billed runnable (boutUs now c.lastRunAt) c ∧
      (reclassifyTaskCold ro now runnable c).burstAccUs
        = if runnable then burstSample c (boutUs now c.lastRunAt) else 0 := by
  rw [reclassifyTaskCold, chargedBout, if_neg h]
  exact ⟨accountBout_deficitAvgFused ro runnable _ c, accountBout_burstAccUs⟩

/-- The bill only depends on the fused word and the burst so far. -/
theorem billed_congr (hfused : c.deficitAvgFused = c'.deficitAvgFused)
    (hacc : c.burstAccUs = c'.burstAccUs) : billed runnable bout c = billed runnable bout c' := by
  have hdeficit : c.deficit = c'.deficit := congrArg extractDeficit hfused
  have havg : c.avgRt = c'.avgRt := congrArg extractAvgRt hfused
  rw [billed, billed, hdeficit, havg, burstSample, burstSample, hacc]

/-- **Accounting does not depend on the path.** Two stamped contexts that agree on the fused word,
the burst so far and the stamp, and differ in anything else, are left with the same fused word and
the same burst: the deficit charged once, and the average moved by one step. -/
theorem accounting_path_independent (ro : Rodata) (now : U32) (runnable : Bool) (c c' : TaskCtx)
    (hfused : c.deficitAvgFused = c'.deficitAvgFused) (hacc : c.burstAccUs = c'.burstAccUs)
    (hstamp : c.lastRunAt = c'.lastRunAt) (hrun : c.lastRunAt ≠ 0) :
    (reclassifyTaskCold ro now runnable c).deficitAvgFused
        = (reclassifyTaskCold ro now runnable c').deficitAvgFused ∧
      (reclassifyTaskCold ro now runnable c).burstAccUs
        = (reclassifyTaskCold ro now runnable c').burstAccUs ∧
      (reclassifyTaskCold ro now runnable c).deficitAvgFused
        = packDeficitAvg (chargeDeficit c.deficit (boutUs now c.lastRunAt))
            (ewma runnable c.avgRt (burstSample c (boutUs now c.lastRunAt))) := by
  have hrun' : c'.lastRunAt ≠ 0 := hstamp ▸ hrun
  obtain ⟨hbill, hburst⟩ := reclassifyTaskCold_billed ro now runnable hrun
  obtain ⟨hbill', hburst'⟩ := reclassifyTaskCold_billed ro now runnable hrun'
  refine ⟨?_, ?_, hbill⟩
  · rw [hbill, hbill', ← hstamp]
    exact billed_congr hfused hacc
  · rw [hburst, hburst', ← hstamp, burstSample, burstSample, hacc]

/-- A task of nice value 0 that has just been stamped, and the same task settled in T0 with three
overruns recorded. -/
def stampedPair : TaskCtx × TaskCtx :=
  let fresh := { nice0Ctx with lastRunAt := 1000000 }
  (fresh, { fresh with packedInfo := setTierStable 0 3 0, reclassCounter := 4, overrunCount := 7 })

theorem stampedPair_billed_alike : ¬ TakesBackoff stampedPair.1 ∧ TakesBackoff stampedPair.2 ∧
    (reclassifyTaskCold defaultRodata 2075200 false stampedPair.1).deficitAvgFused
      = (reclassifyTaskCold defaultRodata 2075200 false stampedPair.2).deficitAvgFused :=
  ⟨by decide, by decide, (accounting_path_independent defaultRodata 2075200 false stampedPair.1
    stampedPair.2 rfl rfl rfl (by decide)).1⟩

/-! ### The tier -/

/-- A stop without the early return: the full path on the context as the stop has prepared it. -/
def fullReclassify (ro : Rodata) (runnable : Bool) (bout : U16) (c : TaskCtx) : TaskCtx :=
  fullPass ro runnable bout (burstSample c bout) (entered runnable bout c)

/-- The fourth overrun among the last eight outcomes, of a task whose average stays in the band. -/
structure UnseenDemotion (c : TaskCtx) (runnable : Bool) (rt : U16) : Prop where
  notBulk : c.tier < Tier.bulk
  overran : tierOverrunGate c.tier < rt
  history : popcount (c.overrunCount <<< 1) = 3
  inBand : ShiftEwma.asymmetric 2 4 runnable c.avgRt.toNat rt.toNat ∈ tierBand c.tier

theorem fullReclassify_tier (ro : Rodata) (runnable : Bool) (bout : U16) (c : TaskCtx) :
    (fullReclassify ro runnable bout c).tier
      = (verdict c (ewma runnable c.avgRt (burstSample c bout)) (burstSample c bout)).tier := by
  rw [fullReclassify, fullPass_tier]
  rfl

/-- A quiet history fires exactly on an overrun that is the fourth one left in it. -/
theorem overrunFires_iff_of_quiet {t : Tier} {hist : U8} (h : popcount hist ≤ 3) :
    OverrunFires t hist rt ↔
      t < Tier.bulk ∧ tierOverrunGate t < rt ∧ popcount (hist <<< 1) = 3 := by
  have hset : ∀ x : U8, popcount x ≤ 3 →
      (4 ≤ popcount (x <<< 1 ||| 1#8) ↔ popcount (x <<< 1) = 3) := by decide +kernel
  constructor
  · intro hfires
    have hover : tierOverrunGate t < rt := by
      by_contra hle
      exact not_overrunFires_of_le h (fun _ => BitVec.not_lt.mp hle) hfires
    obtain ⟨hbulk, hcount⟩ := hfires
    rw [overrunHist, if_pos hover] at hcount
    exact ⟨hbulk, hover, (hset hist h).mp hcount⟩
  · rintro ⟨hbulk, hover, hcount⟩
    refine ⟨hbulk, ?_⟩
    rw [overrunHist, if_pos hover]
    exact (hset hist h).mpr hcount

/-- The full path changes the tier if the gates do, or if the history fires. -/
theorem verdict_tier_ne_iff {a : U16} : (verdict c a rt).tier ≠ c.tier ↔
    classify c.tier a ≠ c.tier ∨ OverrunFires c.tier c.overrunCount rt := by
  by_cases hfires : OverrunFires c.tier c.overrunCount rt
  · exact iff_of_true (lt_verdict_of_fires hfires).ne' (Or.inr hfires)
  · rw [(verdict_of_not_fires hfires).1, or_iff_left hfires]

/-- The early return clears the counter when the gates put the new average in another tier. -/
theorem stopping_stable_of_backoff {cpu : Cpu} {now : U64} {bss : Bss} (hback : TakesBackoff c)
    (hbout : chargedBout (now.setWidth 32) c = some bout)
    (hstop : TaskOp.apply ro (some c) (.stopping cpu now runnable bss) = some c') :
    c'.stable = if classify c.tier (ewma runnable c.avgRt (burstSample c bout)) ≠ c.tier then 0
      else 3 := by
  obtain ⟨stamp, rfl⟩ := accountBout_of_charged hbout hstop
  have hback' : TakesBackoff { c with sleepEntryTime := stamp } := hback
  rw [accountBout_of_backoff ro runnable bout hback', quickPass_stable]
  show (if _ then 0 else c.stable) = _
  rw [hback.1]
  rfl

/-- **When the spot check agrees with the full path.** At a stop of a reachable context that takes
the early return, the stability counter is cleared if and only if the full path would have changed
the tier, except when the bout is a demotion by the overrun history that the average does not
show. -/
theorem spotCheck_agrees_iff {cpu : Cpu} {now : U64} {bss : Bss} (hreach : Reachable ro c)
    (hback : TakesBackoff c) (hbout : chargedBout (now.setWidth 32) c = some bout)
    (hstop : TaskOp.apply ro (some c) (.stopping cpu now runnable bss) = some c') :
    (c'.stable = 0 ↔ (fullReclassify ro runnable bout c).tier ≠ c.tier) ↔
      ¬ UnseenDemotion c runnable (burstSample c bout) := by
  have hquiet := historyQuiet_of_reachable hreach
  have hreset : c'.stable = 0 ↔
      classify c.tier (ewma runnable c.avgRt (burstSample c bout)) ≠ c.tier := by
    rw [stopping_stable_of_backoff hback hbout hstop]
    split
    · next hne => exact iff_of_true rfl hne
    · next heq => exact iff_of_false (by decide) heq
  rw [hreset, fullReclassify_tier, verdict_tier_ne_iff, overrunFires_iff_of_quiet hquiet]
  have hband : ShiftEwma.asymmetric 2 4 runnable c.avgRt.toNat (burstSample c bout).toNat
      ∈ tierBand c.tier ↔
        classify c.tier (ewma runnable c.avgRt (burstSample c bout)) = c.tier := by
    rw [classify_eq_self_iff, ewma_toNat]
  constructor
  · rintro hiff ⟨hbulk, hover, hcount, hin⟩
    exact hiff.mpr (Or.inr ⟨hbulk, hover, hcount⟩) (hband.mp hin)
  · intro hseen
    refine ⟨Or.inl, ?_⟩
    rintro (hne | ⟨hbulk, hover, hcount⟩)
    · exact hne
    · exact fun heq => hseen ⟨hbulk, hover, hcount, hband.mpr heq⟩

/-- Three bursts of three milliseconds settle a task of nice value 0 in T1, as overruns. Then it
starts to run again. -/
def overrunRun : List TaskOp :=
  .enable 120 true :: (burst 1000000 3100 ++ burst 10000000 3100 ++ burst 20000000 3100) ++
    [.running 0 30000000 (initBss defaultRodata)]

theorem overrunRun_ends : ∃ c, TaskRun defaultRodata anyOp overrunRun (some c) ∧
    TakesBackoff c ∧ c.tier = Tier.interact ∧ c.avgRt = 1410 ∧ c.burstAccUs = 0 ∧
      c.overrunCount = 7 ∧ c.lastRunAt = 30000000 :=
  ⟨_, taskRun_anyOp defaultRodata overrunRun, by decide, by decide, by decide, rfl, by decide,
    by decide⟩

/-- After another millisecond spot check and full path agree that nothing changes. -/
theorem overrunRun_spotCheck_agrees : ∃ c c', Reachable defaultRodata c ∧ TakesBackoff c ∧
    TaskOp.apply defaultRodata (some c) (.stopping 0 31024000 false (initBss defaultRodata))
      = some c' ∧
    (c'.stable = 0 ↔ (fullReclassify defaultRodata false 1000 c).tier ≠ c.tier) := by
  obtain ⟨c, hrun, hback, htier, -, hacc, -, hstamp⟩ := overrunRun_ends
  have hreach : Reachable defaultRodata c := ⟨_, hrun⟩
  have hbout : chargedBout ((31024000 : U64).setWidth 32) c = some 1000 := by
    rw [chargedBout, hstamp]
    decide
  obtain ⟨stamp, hstop⟩ := apply_stopping_of_charged defaultRodata 0 false (initBss defaultRodata)
    hbout
  refine ⟨c, _, hreach, hback, hstop, (spotCheck_agrees_iff hreach hback hbout hstop).mpr ?_⟩
  rintro ⟨-, hover, -, -⟩
  rw [htier, burstSample, hacc] at hover
  exact absurd hover (by decide)

/-- After another three milliseconds the full path demotes, and the spot check sees nothing: the
average is 1515. -/
theorem spotCheck_misses_overrun : ∃ c c', Reachable defaultRodata c ∧ TakesBackoff c ∧
    chargedBout ((33174400 : U64).setWidth 32) c = some 3100 ∧
    TaskOp.apply defaultRodata (some c) (.stopping 0 33174400 false (initBss defaultRodata))
      = some c' ∧
    c'.stable ≠ 0 ∧ (fullReclassify defaultRodata false 3100 c).tier ≠ c.tier := by
  obtain ⟨c, hrun, hback, htier, havg, hacc, hhist, hstamp⟩ := overrunRun_ends
  have hbout : chargedBout ((33174400 : U64).setWidth 32) c = some 3100 := by
    rw [chargedBout, hstamp]
    decide
  obtain ⟨stamp, hstop⟩ := apply_stopping_of_charged defaultRodata 0 false (initBss defaultRodata)
    hbout
  have hsample : burstSample c 3100 = 3100 := by
    rw [burstSample, hacc]
    decide
  refine ⟨c, _, ⟨_, hrun⟩, hback, hbout, hstop, ?_, ?_⟩
  · rw [stopping_stable_of_backoff hback hbout hstop, hsample, htier, havg]
    decide
  · rw [fullReclassify_tier, verdict_tier_ne_iff, hsample, htier, hhist]
    exact Or.inr (by decide)

end Imperator
