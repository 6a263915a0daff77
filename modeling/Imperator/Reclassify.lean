import Imperator.ForMathlib.Hysteresis
import Imperator.ForMathlib.ShiftEwma
import Imperator.TaskContext

/-!
# Reclassification on every stop

`reclassify_task_cold` measures the bout that just ended, charges it to the deficit, feeds the
burst it belongs to into the runtime average, and derives the tier from the average. A settled task
takes a short cut: while its stability counter is 3 the tier is only recomputed on every `n`-th
stop, and the stops in between update the numbers and check whether a change is due.

Both paths update deficit and average in the same way, and both use the same gates, so they are
built from the same pieces here: `ewma`, `chargeDeficit` and `classify`. In the terms of the two
libraries, the average is a `ShiftEwma` that is frozen downwards during a burst, and the gates form
a `Ladder`.

## Main definitions

* `boutUs`, `chargedBout`, `burstSample` — the measurement
* `quickPass`, `fullPass` — the early return of the graduated backoff, and the full path
* `accountBout` — everything after the measurement
* `reclassifyTaskCold`

## Main results

* `ewma_toNat`, `classify_val` — the pieces refine the two libraries
* `accountBout_avgRt`, `accountBout_deficit` — both paths agree on the numbers
* `accountBout_tier_of_backoff`, `accountBout_tier_of_full` — and what each does to the tier
-/

namespace Imperator

/-! ### Measurement -/

/-- The runtime of a bout in units of 1024 ns, clamped to 16 bits. -/
def boutUs (now lastRun : U32) : U16 :=
  let runtimeUs := (now - lastRun) >>> 10
  if 0xFFFF#32 < runtimeUs then 0xFFFF#16 else runtimeUs.setWidth 16

/-- The bout a stop at `now` accounts for. There is none when the timestamp is zero, which the
code takes to mean that the task never ran. -/
def chargedBout (now : U32) (c : TaskCtx) : Option U16 :=
  if c.lastRunAt = 0 then none else some (boutUs now c.lastRunAt)

/-- `rt_clamped`: the CPU time since the task last slept, this bout included. -/
def burstSample (c : TaskCtx) (bout : U16) : U16 :=
  let burstUs := c.burstAccUs.setWidth 32 + bout.setWidth 32
  if 0xFFFF#32 < burstUs then 0xFFFF#16 else burstUs.setWidth 16

theorem boutUs_toNat (now lastRun : U32) :
    (boutUs now lastRun).toNat = min ((now - lastRun).toNat / 1024) 65535 := by
  rw [boutUs]
  generalize now - lastRun = d
  have hshift : (d >>> 10).toNat = d.toNat / 1024 := by
    rw [BitVec.toNat_ushiftRight, Nat.shiftRight_eq_div_pow]
  have hd := d.isLt
  simp only [BitVec.lt_def, hshift]
  split
  · next h => rw [show (0xFFFF#16).toNat = 65535 from rfl]; simp at h; omega
  · next h => rw [BitVec.toNat_setWidth, hshift]; simp at h; omega

theorem burstSample_toNat (c : TaskCtx) (bout : U16) :
    (burstSample c bout).toNat = min (c.burstAccUs.toNat + bout.toNat) 65535 := by
  rw [burstSample]
  have hsum : (c.burstAccUs.setWidth 32 + bout.setWidth 32).toNat
      = c.burstAccUs.toNat + bout.toNat := by bv_omega
  have hacc := c.burstAccUs.isLt
  have hbout := bout.isLt
  simp only [BitVec.lt_def, hsum]
  split
  · next h => rw [show (0xFFFF#16).toNat = 65535 from rfl]; simp at h; omega
  · next h => rw [BitVec.toNat_setWidth, hsum]; simp at h; omega

/-! ### Average, deficit and gates -/

/-- The runtime average after a sample: down by a quarter step, up by a sixteenth step, and not
down at all while the task is still runnable, because its burst is not over. -/
def ewma (runnable : Bool) (avgRt rtClamped : U16) : U16 :=
  if rtClamped < avgRt then
    if runnable then avgRt else avgRt - avgRt >>> 2 + rtClamped >>> 2
  else avgRt - avgRt >>> 4 + rtClamped >>> 4

/-- The deficit after a bout. -/
def chargeDeficit (deficit bout : U16) : U16 := if deficit ≤ bout then 0#16 else deficit - bout

/-- `tier_gate_demote` -/
def tierGateDemote : Fin 3 → U16 := ![tierGateT0, tierGateT1, tierGateT2]

/-- `tier_gate_promote`, nine tenths of the gate. -/
def tierGatePromote : Fin 3 → U16 :=
  ![tierGateT0 - tierGateT0 / 10, tierGateT1 - tierGateT1 / 10, tierGateT2 - tierGateT2 / 10]

/-- `g0`, `g1`, `g2`: the gate a holder of tier `t` is measured against. -/
def gate (t : Tier) (i : Fin 3) : U16 :=
  if i.val < t.val then tierGatePromote i else tierGateDemote i

/-- The tier of an average, for a task whose tier is `t` now. -/
def classify (t : Tier) (avg : U16) : Tier :=
  if avg < gate t 0 then 0
  else if avg < gate t 1 then 1
  else if avg < gate t 2 then 2
  else 3

/-- The gates of the tiers, as a ladder. -/
def tierLadder : Ladder ℕ 3 where
  demote
    | 0 => 100
    | 1 => 2000
    | _ => 8000
  promote
    | 0 => 90
    | 1 => 1800
    | _ => 7200
  promote_le_demote i := by rcases i with _ | _ | i <;> simp
  promote_mono := monotone_nat_of_le_succ fun i => by rcases i with _ | _ | i <;> simp
  demote_mono := monotone_nat_of_le_succ fun i => by rcases i with _ | _ | i <;> simp

/-- The averages at which a task of tier `t` keeps its tier. -/
def tierBand (t : Tier) : Set ℕ := tierLadder.band t

/-- The running average is a shift average, frozen downwards while the task is runnable. -/
theorem ewma_toNat (runnable : Bool) (a x : U16) :
    (ewma runnable a x).toNat = ShiftEwma.asymmetric 2 4 runnable a.toNat x.toNat := by
  rw [ewma, ShiftEwma.asymmetric, ShiftEwma.step, ShiftEwma.step]
  simp only [BitVec.lt_def]
  cases runnable <;> simp only [Bool.false_eq_true, if_true, if_false] <;> split <;> bv_omega

theorem chargeDeficit_toNat (d b : U16) : (chargeDeficit d b).toNat = d.toNat - b.toNat := by
  rw [chargeDeficit]
  split <;> bv_omega

theorem chargeDeficit_eq_zero_iff (d b : U16) : chargeDeficit d b = 0#16 ↔ d ≤ b := by
  rw [← BitVec.toNat_inj, chargeDeficit_toNat, BitVec.toNat_zero, BitVec.le_def]
  omega

theorem gate_toNat (t : Tier) (i : Fin 3) : (gate t i).toNat = tierLadder.gate t i := by
  revert t i
  decide

/-- Classification is that of the ladder. -/
theorem classify_val (t : Tier) (avg : U16) :
    (classify t avg : ℕ) = tierLadder.classify t avg.toNat := by
  rw [classify, Ladder.classify]
  simp only [Ladder.scan, BitVec.lt_def, gate_toNat]
  split_ifs <;> first | rfl | contradiction

theorem classify_eq_self_iff (t : Tier) (avg : U16) :
    classify t avg = t ↔ avg.toNat ∈ tierBand t := by
  rw [tierBand, ← tierLadder.classify_eq_self_iff (Nat.le_of_lt_succ t.isLt), ← classify_val,
    Fin.ext_iff]

/-! ### Overrun history -/

/-- `__builtin_popcount` -/
def popcount (x : U8) : ℕ := x.cpop.toNat

/-- `tier_overrun_gate`, half above the gate; T3 is never checked against its entry. -/
def tierOverrunGate : Tier → U16 :=
  ![tierGateT0 + tierGateT0 / 2, tierGateT1 + tierGateT1 / 2, tierGateT2 + tierGateT2 / 2, 0]

/-- The history with the outcome of one more bout shifted in. -/
def overrunHist (t : Tier) (overrunCount : U8) (rtClamped : U16) : U8 :=
  overrunCount <<< 1 ||| if tierOverrunGate t < rtClamped then 1#8 else 0#8

/-- The forced demotion: four of the last eight bouts overran the gate. -/
def OverrunFires (t : Tier) (overrunCount : U8) (rtClamped : U16) : Prop :=
  t < Tier.bulk ∧ 4 ≤ popcount (overrunHist t overrunCount rtClamped)

instance (t : Tier) (h : U8) (rt : U16) : Decidable (OverrunFires t h rt) :=
  inferInstanceAs (Decidable (_ ∧ _))

/-! ### The two paths -/

/-- `tier_recheck_mask` -/
def tierRecheckMask : Fin 8 → U16 := ![1023, 127, 31, 15, 15, 15, 15, 15]

/-- A stop of a settled task that is not due for the full path. -/
def TakesBackoff (c : TaskCtx) : Prop :=
  c.stable = 3 ∧ (c.reclassCounter + 1#16) &&& tierRecheckMask (cakeTierIdx c.tier) ≠ 0#16

instance (c : TaskCtx) : Decidable (TakesBackoff c) := inferInstanceAs (Decidable (_ ∧ _))

/-- The early return of the graduated backoff. The tier is kept; if the new average belongs to
another tier, the stability counter is cleared so that the next stop takes the full path. -/
def quickPass (runnable : Bool) (bout rtClamped : U16) (c : TaskCtx) : TaskCtx :=
  let newAvg := ewma runnable c.avgRt rtClamped
  let c' := c.setDeficitAvg (chargeDeficit c.deficit bout) newAvg
  if classify c.tier newAvg ≠ c.tier then
    { c' with packedInfo := clearStable c.packedInfo, reclassCounter := 0 }
  else c'

/-- Tier, stability counter and overrun history as the full path arrives at them, before the
stability counter is advanced. -/
structure Verdict where
  tier : Tier
  stable : Fin 4
  overrunCount : U8

/-- The tier decision of the full path: gates, the cap for runaway tasks, the overrun history. -/
def verdict (c : TaskCtx) (newAvg rtClamped : U16) : Verdict :=
  let oldTier := c.tier
  let newTier := classify oldTier newAvg
  let newTier :=
    if tierGateT2 * 3 < newAvg ∧ c.stable = 3 ∧ newTier < Tier.bulk then Tier.bulk else newTier
  if oldTier < Tier.bulk then
    let hist := overrunHist oldTier c.overrunCount rtClamped
    if 4 ≤ popcount hist then
      let forced := oldTier + 1
      ⟨if newTier < forced then forced else newTier, 0, 0⟩
    else ⟨newTier, c.stable, hist⟩
  else ⟨newTier, c.stable, c.overrunCount⟩

/-- The stability counter after a stop on the full path. -/
def newStable (oldTier : Tier) (v : Verdict) : Fin 4 :=
  if v.tier ≠ oldTier then 0 else if v.stable < 3 then v.stable + 1 else 3

/-- The full path. -/
def fullPass (ro : Rodata) (runnable : Bool) (bout rtClamped : U16) (c : TaskCtx) : TaskCtx :=
  let newAvg := ewma runnable c.avgRt rtClamped
  let deficit := chargeDeficit c.deficit bout
  let deficitExhausted := deficit = 0#16 ∧ hasFlag c.packedInfo .new
  let v := verdict c newAvg rtClamped
  let tierChanged := v.tier ≠ c.tier
  let stable := newStable c.tier v
  let written := setTierStable c.packedInfo stable v.tier
  { c.setDeficitAvg deficit newAvg with
    overrunCount := v.overrunCount
    packedInfo :=
      if tierChanged ∨ deficitExhausted ∨ stable ≠ v.stable then
        if deficitExhausted then clearFlag written .new else written
      else c.packedInfo
    nextSlice := ro.tierSlice v.tier
    reclassCounter := if tierChanged then 0 else c.reclassCounter
    burstCredit := if tierChanged then 0 else c.burstCredit }

/-- Everything `reclassify_task_cold` does once the bout is measured. -/
def accountBout (ro : Rodata) (runnable : Bool) (bout : U16) (c : TaskCtx) : TaskCtx :=
  let rtClamped := burstSample c bout
  let c' := { c with burstAccUs := if runnable then rtClamped else 0 }
  if c.stable = 3 then
    let counted := { c' with reclassCounter := c.reclassCounter + 1 }
    if (c.reclassCounter + 1) &&& tierRecheckMask (cakeTierIdx c.tier) ≠ 0 then
      quickPass runnable bout rtClamped counted
    else fullPass ro runnable bout rtClamped counted
  else fullPass ro runnable bout rtClamped c'

/-- `reclassify_task_cold` -/
def reclassifyTaskCold (ro : Rodata) (now : U32) (runnable : Bool) (c : TaskCtx) : TaskCtx :=
  match chargedBout now c with
  | none => c
  | some bout => accountBout ro runnable bout c

/-! ### The tier decision -/

variable {c : TaskCtx} {a rt bout : U16} {runnable : Bool} {ro : Rodata}

/-- The cap for runaway tasks never fires: an average that far up is classified as T3 anyway. -/
theorem classify_of_cap (t : Tier) (h : tierGateT2 * 3 < a) : classify t a = Tier.bulk := by
  have hval : tierLadder.demote 2 ≤ a.toNat := by
    rw [show tierLadder.demote 2 = 8000 from rfl]
    bv_omega
  have hgate : tierLadder.gate t 2 ≤ a.toNat := by
    rcases Nat.lt_or_ge 2 t.val with ht | ht
    · rw [tierLadder.gate_of_lt ht]
      exact (tierLadder.promote_le_demote 2).trans hval
    · rw [tierLadder.gate_of_le ht]
      exact hval
  have hlt : 2 < tierLadder.classify t a.toNat := (tierLadder.lt_classify_iff (by decide)).mpr hgate
  rw [← classify_val] at hlt
  exact Fin.ext (show (classify t a).val = 3 by omega)

theorem capped_eq_classify (c : TaskCtx) (a : U16) :
    (if tierGateT2 * 3 < a ∧ c.stable = 3 ∧ classify c.tier a < Tier.bulk then Tier.bulk
      else classify c.tier a) = classify c.tier a := by
  split
  · next hc => exact (classify_of_cap c.tier hc.1).symm
  · rfl

theorem verdict_of_not_fires (h : ¬ OverrunFires c.tier c.overrunCount rt) :
    (verdict c a rt).tier = classify c.tier a ∧ (verdict c a rt).stable = c.stable := by
  simp only [verdict, capped_eq_classify]
  by_cases hbulk : c.tier < Tier.bulk
  · have hcount : ¬ 4 ≤ popcount (overrunHist c.tier c.overrunCount rt) := fun hc => h ⟨hbulk, hc⟩
    rw [if_pos hbulk, if_neg hcount]
    exact ⟨rfl, rfl⟩
  · rw [if_neg hbulk]
    exact ⟨rfl, rfl⟩

/-- A forced demotion goes to the next tier, or as far as the gates go. -/
theorem verdict_of_fires (h : OverrunFires c.tier c.overrunCount rt) :
    (verdict c a rt).tier = max (classify c.tier a) (c.tier + 1) := by
  obtain ⟨hbulk, hcount⟩ := h
  simp only [verdict, capped_eq_classify, if_pos hbulk, if_pos hcount]
  split
  · next hlt => exact (max_eq_right hlt.le).symm
  · next hge => exact (max_eq_left (not_lt.mp hge)).symm

theorem lt_tier_succ {t : Tier} (h : t < Tier.bulk) : t < t + 1 := by
  have hlt : t.val < 3 := h
  rw [Fin.lt_def, Fin.val_add_one_of_lt (show t < Fin.last 3 from h)]
  omega

/-- So it always changes the tier. -/
theorem lt_verdict_of_fires (h : OverrunFires c.tier c.overrunCount rt) :
    c.tier < (verdict c a rt).tier := by
  rw [verdict_of_fires h]
  exact (lt_tier_succ h.1).trans_le (le_max_right _ _)

/-- Where the tier is kept, the history has not fired and the gates kept it. -/
theorem verdict_eq_self (h : (verdict c a rt).tier = c.tier) :
    classify c.tier a = c.tier ∧ (verdict c a rt).stable = c.stable := by
  have hquiet : ¬ OverrunFires c.tier c.overrunCount rt := fun hf =>
    absurd h (lt_verdict_of_fires hf).ne'
  obtain ⟨htier, hstable⟩ := verdict_of_not_fires (a := a) hquiet
  exact ⟨htier.symm.trans h, hstable⟩

/-! ### What the two paths write -/

/-- The early return writes the fused word, and the counters where it found a new tier. -/
theorem quickPass_eq (runnable : Bool) (bout rt : U16) (c : TaskCtx) : ∃ fused packed counter,
    quickPass runnable bout rt c
      = { c with deficitAvgFused := fused, packedInfo := packed, reclassCounter := counter } := by
  rw [quickPass]
  split <;> exact ⟨_, _, _, rfl⟩

@[simp] theorem quickPass_avgRt :
    (quickPass runnable bout rt c).avgRt = ewma runnable c.avgRt rt := by
  rw [quickPass]
  split <;> exact extractAvgRt_pack _ _

@[simp] theorem quickPass_deficit :
    (quickPass runnable bout rt c).deficit = chargeDeficit c.deficit bout := by
  rw [quickPass]
  split <;> exact extractDeficit_pack _ _

@[simp] theorem quickPass_tier : (quickPass runnable bout rt c).tier = c.tier := by
  rw [quickPass]
  split
  · exact getTier_clearStable _
  · rfl

theorem quickPass_stable : (quickPass runnable bout rt c).stable
    = if classify c.tier (ewma runnable c.avgRt rt) ≠ c.tier then 0 else c.stable := by
  rw [quickPass]
  split
  · exact getStable_clearStable _
  · rfl

@[simp] theorem quickPass_hasFlag (f : FlowFlag) :
    hasFlag (quickPass runnable bout rt c).packedInfo f = hasFlag c.packedInfo f := by
  rw [quickPass]
  split
  · exact hasFlag_clearStable _ f
  · rfl

@[simp] theorem quickPass_burstAccUs :
    (quickPass runnable bout rt c).burstAccUs = c.burstAccUs := by
  obtain ⟨fused, packed, counter, h⟩ := quickPass_eq runnable bout rt c
  rw [h]

@[simp] theorem quickPass_overrunCount :
    (quickPass runnable bout rt c).overrunCount = c.overrunCount := by
  obtain ⟨fused, packed, counter, h⟩ := quickPass_eq runnable bout rt c
  rw [h]

@[simp] theorem quickPass_nextSlice : (quickPass runnable bout rt c).nextSlice = c.nextSlice := by
  obtain ⟨fused, packed, counter, h⟩ := quickPass_eq runnable bout rt c
  rw [h]

@[simp] theorem quickPass_burstCredit :
    (quickPass runnable bout rt c).burstCredit = c.burstCredit := by
  obtain ⟨fused, packed, counter, h⟩ := quickPass_eq runnable bout rt c
  rw [h]

@[simp] theorem fullPass_avgRt :
    (fullPass ro runnable bout rt c).avgRt = ewma runnable c.avgRt rt :=
  extractAvgRt_pack _ _

@[simp] theorem fullPass_deficit :
    (fullPass ro runnable bout rt c).deficit = chargeDeficit c.deficit bout :=
  extractDeficit_pack _ _

@[simp] theorem fullPass_burstAccUs :
    (fullPass ro runnable bout rt c).burstAccUs = c.burstAccUs := rfl

/-- The store of the packed word is skipped only when it would not change tier or counter. -/
theorem fullPass_packed_fields (runnable : Bool) (bout rt : U16) (c : TaskCtx) :
    (fullPass ro runnable bout rt c).tier = (verdict c (ewma runnable c.avgRt rt) rt).tier ∧
      (fullPass ro runnable bout rt c).stable
        = newStable c.tier (verdict c (ewma runnable c.avgRt rt) rt) := by
  generalize hv : verdict c (ewma runnable c.avgRt rt) rt = v
  have hself : v.tier = c.tier → v.stable = c.stable := fun h =>
    hv ▸ (verdict_eq_self (by rw [hv, h])).2
  rw [TaskCtx.tier, TaskCtx.stable]
  simp only [fullPass, hv]
  split
  · split <;> simp
  · next hskip =>
    push Not at hskip
    obtain ⟨htier, -, hstable⟩ := hskip
    exact ⟨htier.symm, (hself htier).symm.trans hstable.symm⟩

@[simp] theorem fullPass_tier : (fullPass ro runnable bout rt c).tier
    = (verdict c (ewma runnable c.avgRt rt) rt).tier :=
  (fullPass_packed_fields runnable bout rt c).1

@[simp] theorem fullPass_stable : (fullPass ro runnable bout rt c).stable
    = newStable c.tier (verdict c (ewma runnable c.avgRt rt) rt) :=
  (fullPass_packed_fields runnable bout rt c).2

/-- The full path clears `CAKE_FLOW_NEW` once the deficit is used up. -/
theorem fullPass_new : hasFlag (fullPass ro runnable bout rt c).packedInfo .new
    = (hasFlag c.packedInfo .new && !decide (chargeDeficit c.deficit bout = 0#16)) := by
  simp only [fullPass]
  by_cases hzero : chargeDeficit c.deficit bout = 0#16
  · cases hnew : hasFlag c.packedInfo .new
    · simp only [hzero, Bool.false_eq_true, and_false, if_false, false_or]
      split <;> simp [hnew]
    · simp [hzero, hnew]
  · simp only [hzero, false_and, if_false, false_or]
    split <;> simp

/-! ### A whole stop -/

/-- The context the two paths are entered with, after the burst and the backoff counter. -/
def entered (runnable : Bool) (bout : U16) (c : TaskCtx) : TaskCtx :=
  { c with
    burstAccUs := if runnable then burstSample c bout else 0
    reclassCounter := if c.stable = 3 then c.reclassCounter + 1 else c.reclassCounter }

theorem accountBout_of_backoff (ro : Rodata) (runnable : Bool) (bout : U16) (h : TakesBackoff c) :
    accountBout ro runnable bout c
      = quickPass runnable bout (burstSample c bout) (entered runnable bout c) := by
  simp only [accountBout, entered, h.1, if_true]
  exact if_pos h.2

theorem accountBout_of_full (ro : Rodata) (runnable : Bool) (bout : U16) (h : ¬ TakesBackoff c) :
    accountBout ro runnable bout c
      = fullPass ro runnable bout (burstSample c bout) (entered runnable bout c) := by
  by_cases hs : c.stable = 3
  · simp only [accountBout, entered, hs, if_true]
    exact if_neg fun hmask => h ⟨hs, hmask⟩
  · simp only [accountBout, entered, hs, if_false]

/-- Both paths move the average by the burst sample. -/
@[simp] theorem accountBout_avgRt : (accountBout ro runnable bout c).avgRt
    = ewma runnable c.avgRt (burstSample c bout) := by
  by_cases h : TakesBackoff c
  · rw [accountBout_of_backoff ro runnable bout h, quickPass_avgRt]
    rfl
  · rw [accountBout_of_full ro runnable bout h, fullPass_avgRt]
    rfl

/-- Both paths charge the bout, not the burst. -/
@[simp] theorem accountBout_deficit :
    (accountBout ro runnable bout c).deficit = chargeDeficit c.deficit bout := by
  by_cases h : TakesBackoff c
  · rw [accountBout_of_backoff ro runnable bout h, quickPass_deficit]
    rfl
  · rw [accountBout_of_full ro runnable bout h, fullPass_deficit]
    rfl

@[simp] theorem accountBout_burstAccUs : (accountBout ro runnable bout c).burstAccUs
    = if runnable then burstSample c bout else 0 := by
  by_cases h : TakesBackoff c
  · rw [accountBout_of_backoff ro runnable bout h, quickPass_burstAccUs]
    rfl
  · rw [accountBout_of_full ro runnable bout h, fullPass_burstAccUs]
    rfl

theorem accountBout_tier_of_backoff (h : TakesBackoff c) :
    (accountBout ro runnable bout c).tier = c.tier := by
  rw [accountBout_of_backoff ro runnable bout h, quickPass_tier]
  rfl

theorem accountBout_tier_of_full (h : ¬ TakesBackoff c) : (accountBout ro runnable bout c).tier
    = (verdict c (ewma runnable c.avgRt (burstSample c bout)) (burstSample c bout)).tier := by
  rw [accountBout_of_full ro runnable bout h, fullPass_tier]
  rfl

end Imperator
