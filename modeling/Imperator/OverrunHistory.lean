import Imperator.ForMathlib.BitHistory
import Imperator.SpotCheck

/-!
# What the overrun history remembers

The overrun history is a register of eight bits. A stop on the full path shifts in whether the
sample exceeded the overrun gate of the tier the task is in, and four set bits force the task one
tier down and clear the register.

So the register stands for a list of outcomes, and each outcome belongs to the tier it was measured
in. Two things follow that one might not expect. The outcomes of stops on the early return are
missing, so four overruns in a row are only noticed if enough of them are recorded. And the register
survives every change of tier that it did not force itself, so a task can be forced out of a tier
it has hardly overrun.

## Main definitions

* `Outcome`, `overruns` — the list the register stands for, and its overruns
* `ObservedRun` — runs of a task with the list beside the context
* `Overruns` — overruns in a row, with the number of those that were recorded

## Main results

* `remembers_of_observed` — the register is the list
* `forced_demotion_rests_on_record` — what a forced demotion says about the list
* `fourth_overrun_demotes_iff` — when the fourth overrun in a row demotes
-/

namespace Imperator

open Transition

variable {ro : Rodata} {ctx : Option TaskCtx} {c₀ c c' : TaskCtx} {op : TaskOp}
  {ops : List TaskOp} {runnable : Bool} {bout rt : U16} {t : Tier}

/-! ### Outcomes -/

/-- The outcome of a bout: the sample, and the tier it is measured in. -/
structure Outcome where
  tier : Tier
  sample : U16
  deriving DecidableEq, Repr

/-- The sample exceeds the overrun gate of that tier. -/
def Outcome.overran (o : Outcome) : Bool := tierOverrunGate o.tier < o.sample

/-- The overruns among the last eight outcomes of a list, newest first. -/
def overruns (l : List Outcome) : ℕ := (l.take 8).countP Outcome.overran

/-- The register that stands for a list of outcomes. -/
def registerOf (l : List Outcome) : U8 := BitVec.ofHistory 8 (l.map Outcome.overran)

/-- What a stop on the full path records below T3. The fourth overrun clears the list. -/
def recordOutcome (c : TaskCtx) (bout : U16) (l : List Outcome) : List Outcome :=
  if TakesBackoff c ∨ ¬ c.tier < Tier.bulk then l
  else if 4 ≤ overruns (⟨c.tier, burstSample c bout⟩ :: l) then []
  else ⟨c.tier, burstSample c bout⟩ :: l

/-- The list after an event. An exec clears it; a fork leaves the child its own. -/
def TaskOp.outcomes (ctx : Option TaskCtx) (l : List Outcome) : TaskOp → List Outcome
  | .initTask false _ _ => []
  | .stopping _ now _ _ =>
    match ctx with
    | none => l
    | some c =>
      match chargedBout (now.setWidth 32) c with
      | none => l
      | some bout => recordOutcome c bout l
  | _ => l

/-- A context with the list beside it. -/
def observe (ro : Rodata) (s : Option TaskCtx × List Outcome) (op : TaskOp) :
    Option TaskCtx × List Outcome :=
  (op.apply ro s.1, op.outcomes s.1 s.2)

/-- Runs of a task with its list of outcomes. -/
def ObservedRun (ro : Rodata) (ops : List TaskOp) (s : Option TaskCtx × List Outcome) : Prop :=
  Run (ofNext (observe ro)) (none, []) ops s

theorem overruns_eq (l : List Outcome) : overruns l = popcount (registerOf l) := by
  rw [popcount, registerOf, BitVec.toNat_cpop_ofHistory, ← List.map_take, overruns,
    List.countP_eq_length_filter, List.count_eq_countP, List.countP_map,
    List.countP_eq_length_filter]
  congr 2
  funext o
  simp

/-- The register takes in one outcome. -/
theorem overrunHist_registerOf (t : Tier) (l : List Outcome) (rt : U16) :
    overrunHist t (registerOf l) rt = registerOf (⟨t, rt⟩ :: l) := by
  rw [registerOf, registerOf, List.map_cons, BitVec.ofHistory,
    ← BitVec.shiftLeft_one_or_setWidth, overrunHist]
  congr 1
  show _ = (BitVec.ofBool (decide (tierOverrunGate t < rt))).setWidth 8
  split
  · next h => rw [decide_eq_true h]; rfl
  · next h => rw [decide_eq_false h]; rfl

/-- Every run of a task is observed by some list. -/
theorem observedRun_of_taskRun (h : TaskRun ro anyOp ops ctx) :
    ∃ l, ObservedRun ro ops (ctx, l) :=
  Run.exists_record h.ofGuarded []

/-! ### The register is the list -/

/-- The register stands for the list, which has fewer than four overruns among the last eight. -/
structure Remembers (c : TaskCtx) (l : List Outcome) : Prop where
  register : c.overrunCount = registerOf l
  quiet : overruns l ≤ 3

theorem Remembers.of_eq {l : List Outcome} (h : Remembers c l)
    (heq : c'.overrunCount = c.overrunCount) : Remembers c' l :=
  ⟨heq.trans h.register, h.quiet⟩

theorem remembers_nil (h : c.overrunCount = 0) : Remembers c [] := ⟨h, by decide⟩

/-- What the full path leaves in the register, below T3. -/
theorem verdict_overrunCount {a : U16} (hbulk : c.tier < Tier.bulk) :
    (verdict c a rt).overrunCount
      = if 4 ≤ popcount (overrunHist c.tier c.overrunCount rt) then 0
        else overrunHist c.tier c.overrunCount rt := by
  simp only [verdict, if_pos hbulk]
  split <;> rfl

theorem verdict_overrunCount_of_bulk {a : U16} (hbulk : ¬ c.tier < Tier.bulk) :
    (verdict c a rt).overrunCount = c.overrunCount := by
  simp only [verdict, if_neg hbulk]

/-- What a whole stop leaves in the register. -/
theorem accountBout_overrunCount (ro : Rodata) (runnable : Bool) (bout : U16) (c : TaskCtx) :
    (accountBout ro runnable bout c).overrunCount = if TakesBackoff c then c.overrunCount
      else
        (verdict c (ewma runnable c.avgRt (burstSample c bout))
          (burstSample c bout)).overrunCount := by
  by_cases hback : TakesBackoff c
  · rw [if_pos hback, accountBout_of_backoff ro runnable bout hback, quickPass_overrunCount]
    rfl
  · rw [if_neg hback, accountBout_of_full ro runnable bout hback]
    rfl

/-- **One stop** records what the list records. -/
theorem accountBout_remembers (ro : Rodata) (runnable : Bool) (bout : U16) {l : List Outcome}
    (h : Remembers c l) : Remembers (accountBout ro runnable bout c) (recordOutcome c bout l) := by
  have hcount := accountBout_overrunCount ro runnable bout c
  rw [recordOutcome]
  by_cases hback : TakesBackoff c
  · rw [if_pos hback] at hcount
    rw [if_pos (Or.inl hback)]
    exact h.of_eq hcount
  rw [if_neg hback] at hcount
  by_cases hbulk : c.tier < Tier.bulk
  · rw [if_neg (not_or.mpr ⟨hback, not_not.mpr hbulk⟩)]
    rw [verdict_overrunCount hbulk, h.register, overrunHist_registerOf, ← overruns_eq] at hcount
    split
    · next hfires =>
      rw [if_pos hfires] at hcount
      exact remembers_nil hcount
    · next hquiet =>
      rw [if_neg hquiet] at hcount
      exact ⟨hcount, by omega⟩
  · rw [if_pos (Or.inr hbulk)]
    rw [verdict_overrunCount_of_bulk hbulk] at hcount
    exact h.of_eq hcount

/-- **One event.** -/
theorem remembers_of_apply {l : List Outcome} (h : Remembers c l)
    (happly : op.apply ro (some c) = some c') : Remembers c' (op.outcomes (some c) l) := by
  cases leaves_of_apply happly with
  | @uncharged cpu now runnable bss hnone =>
    show Remembers c (match chargedBout (now.setWidth 32) c with
      | none => l
      | some bout => recordOutcome c bout l)
    rw [hnone]
    exact h
  | @accounted cpu now runnable bss bout hsome =>
    show Remembers _ (match chargedBout (now.setWidth 32) c with
      | none => l
      | some bout => recordOutcome c bout l)
    rw [hsome]
    exact accountBout_remembers ro runnable bout (c := { c with sleepEntryTime := _ })
      (h.of_eq rfl)
  | execed => exact remembers_nil rfl
  | orphaned => exact h
  | forked => exact h.of_eq rfl
  | enabled | selected | requeued | enqueued | ran | ticked | marked =>
    cases effect_of_apply happly with
    | kept hsame _ => exact h.of_eq hsame.overrunCount

/-- **The register is the list**, in every run. -/
theorem remembers_of_observed {l : List Outcome} (h : ObservedRun ro ops (some c, l)) :
    Remembers c l := by
  have hrun : Run (ofNext (recording (TaskOp.apply ro) TaskOp.outcomes)) (none, []) ops
    (some c, l) := h
  have hnil : ∀ op : TaskOp, op.outcomes none [] = [] := by
    intro op
    cases op with
    | initTask fork prio parent => cases fork <;> rfl
    | enable | selectCpu | enqueue | running | tick | stopping | lockHolder => rfl
  refine recorded_invariant (I := Remembers) ?_ ?_ ?_ hrun
  · exact fun op _ => hnil op
  · exact fun prio => remembers_nil rfl
  · exact fun _ _ _ _ hl happly => remembers_of_apply hl happly

/-! ### Forced demotions -/

/-- The stop of `c` that charges `bout` ends in a tier beyond the one the gates give: the overrun
history has forced it. -/
def ForcedDemotion (c : TaskCtx) (runnable : Bool) (bout : U16) (c' : TaskCtx) : Prop :=
  ¬ TakesBackoff c ∧ classify c.tier (ewma runnable c.avgRt (burstSample c bout)) < c'.tier

/-- Register and tier after a stop that accounts for a bout. -/
theorem stopping_overrunCount {cpu : Cpu} {now : U64} {bss : Bss}
    (hbout : chargedBout (now.setWidth 32) c = some bout)
    (hstop : TaskOp.apply ro (some c) (.stopping cpu now runnable bss) = some c') :
    c'.overrunCount = if TakesBackoff c then c.overrunCount
      else
        (verdict c (ewma runnable c.avgRt (burstSample c bout))
          (burstSample c bout)).overrunCount := by
  obtain ⟨stamp, rfl⟩ := accountBout_of_charged hbout hstop
  exact accountBout_overrunCount ro runnable bout { c with sleepEntryTime := stamp }

theorem stopping_tier {cpu : Cpu} {now : U64} {bss : Bss}
    (hbout : chargedBout (now.setWidth 32) c = some bout)
    (hstop : TaskOp.apply ro (some c) (.stopping cpu now runnable bss) = some c') :
    c'.tier = if TakesBackoff c then c.tier
      else (verdict c (ewma runnable c.avgRt (burstSample c bout)) (burstSample c bout)).tier := by
  obtain ⟨stamp, rfl⟩ := accountBout_of_charged hbout hstop
  by_cases hback : TakesBackoff c
  · rw [if_pos hback]
    exact accountBout_tier_of_backoff (c := { c with sleepEntryTime := stamp }) hback
  · rw [if_neg hback]
    exact accountBout_tier_of_full (c := { c with sleepEntryTime := stamp }) hback

theorem le_iff_lt_succ {t u : Tier} (h : t < Tier.bulk) : u ≤ t ↔ u < t + 1 := by
  have hlt : t.val < 3 := h
  rw [Fin.lt_def, Fin.le_def, Fin.val_add_one_of_lt (show t < Fin.last 3 from h)]
  omega

/-- That is a stop on the full path whose history fires, and whose gates would not demote. -/
theorem forcedDemotion_iff {cpu : Cpu} {now : U64} {bss : Bss}
    (hbout : chargedBout (now.setWidth 32) c = some bout)
    (hstop : TaskOp.apply ro (some c) (.stopping cpu now runnable bss) = some c') :
    ForcedDemotion c runnable bout c' ↔ ¬ TakesBackoff c ∧
      OverrunFires c.tier c.overrunCount (burstSample c bout) ∧
        classify c.tier (ewma runnable c.avgRt (burstSample c bout)) ≤ c.tier := by
  rw [ForcedDemotion, and_congr_right_iff]
  intro hback
  rw [stopping_tier hbout hstop, if_neg hback]
  by_cases hfires : OverrunFires c.tier c.overrunCount (burstSample c bout)
  · rw [verdict_of_fires hfires, lt_max_iff, or_iff_right (lt_irrefl _), le_iff_lt_succ hfires.1,
      and_iff_right hfires]
  · rw [(verdict_of_not_fires hfires).1]
    exact iff_of_false (lt_irrefl _) fun h => hfires h.1

/-- **What a forced demotion rests on.** In every run, a stop of a task in tier `t` that is forced
beyond what the gates give finds, with its own outcome, at least four overruns among the last eight
outcomes in the register. Each of them is a sample above the overrun gate of the tier the task was
in when it was recorded, and the last one is a sample of this stop above the gate of `t`. If the
task has been in `t` for all of them, they are all overruns of `t`. -/
theorem forced_demotion_rests_on_record {cpu : Cpu} {now : U64} {bss : Bss} {l : List Outcome}
    (hrun : ObservedRun ro ops (some c, l)) (hbout : chargedBout (now.setWidth 32) c = some bout)
    (hstop : TaskOp.apply ro (some c) (.stopping cpu now runnable bss) = some c')
    (hforced : ForcedDemotion c runnable bout c') :
    let recorded := (⟨c.tier, burstSample c bout⟩ :: l : List Outcome)
    overrunHist c.tier c.overrunCount (burstSample c bout) = registerOf recorded ∧
      4 ≤ overruns recorded ∧ tierOverrunGate c.tier < burstSample c bout ∧
      ((∀ o ∈ l.take 7, o.tier = c.tier) →
        4 ≤ (recorded.take 8).countP fun o =>
          o.tier = c.tier ∧ tierOverrunGate c.tier < o.sample) := by
  have hremembers := remembers_of_observed hrun
  have hhist : overrunHist c.tier c.overrunCount (burstSample c bout)
      = registerOf (⟨c.tier, burstSample c bout⟩ :: l) := by
    rw [hremembers.register, overrunHist_registerOf]
  obtain ⟨-, hfires, -⟩ := (forcedDemotion_iff hbout hstop).mp hforced
  have hfour : 4 ≤ overruns (⟨c.tier, burstSample c bout⟩ :: l) := by
    rw [overruns_eq, ← hhist]
    exact hfires.2
  have hquiet : popcount c.overrunCount ≤ 3 := by
    rw [hremembers.register, ← overruns_eq]
    exact hremembers.quiet
  refine ⟨hhist, hfour, ((overrunFires_iff_of_quiet hquiet).mp hfires).2.1, fun htier => ?_⟩
  refine hfour.trans (List.countP_mono_left fun o ho hover => ?_)
  have hsame : o.tier = c.tier := by
    rw [List.take_succ_cons] at ho
    rcases List.mem_cons.mp ho with rfl | hmem
    · rfl
    · exact htier o hmem
  rw [Outcome.overran, hsame] at hover
  simpa [hsame] using hover

/-- A task of nice value 0. One long burst takes it from T1 to T2 and is recorded as an overrun of
T1, two more are recorded in T2, where the average keeps it. -/
def mixedRun : List TaskOp :=
  .enable 120 true :: (burst 1000000 17000 ++ burst 100000000 13000 ++ burst 200000000 13000) ++
    [.running 0 300000000 (initBss defaultRodata)]

theorem mixedRun_ends : ∃ c l, ObservedRun defaultRodata mixedRun (some c, l) ∧
    c.tier = Tier.frame ∧ c.stable = 2 ∧ c.avgRt = 3374 ∧ c.burstAccUs = 0 ∧
      c.lastRunAt = 300000000 ∧
      l = [⟨Tier.frame, 13000⟩, ⟨Tier.frame, 13000⟩, ⟨Tier.interact, 17000⟩] :=
  ⟨_, _, Run.foldl_ofNext (observe defaultRodata) (none, []) mixedRun, by decide, by decide,
    by decide, by decide, by decide, by decide⟩

/-- The next burst is forced out of T2. -/
theorem mixedRun_forced : ∃ c c' l, ObservedRun defaultRodata mixedRun (some c, l) ∧
    c.tier = Tier.frame ∧ burstSample c 13000 = 13000 ∧
    l = [⟨Tier.frame, 13000⟩, ⟨Tier.frame, 13000⟩, ⟨Tier.interact, 17000⟩] ∧
    chargedBout ((313312000 : U64).setWidth 32) c = some 13000 ∧
    TaskOp.apply defaultRodata (some c) (.stopping 0 313312000 false (initBss defaultRodata))
      = some c' ∧ ForcedDemotion c false 13000 c' := by
  obtain ⟨c, l, hrun, htier, hstable, havg, hacc, hstamp, hl⟩ := mixedRun_ends
  have hbout : chargedBout ((313312000 : U64).setWidth 32) c = some 13000 := by
    rw [chargedBout, hstamp]
    decide
  have hsample : burstSample c 13000 = 13000 := by
    rw [burstSample, hacc]
    decide
  obtain ⟨stamp, hstop⟩ := apply_stopping_of_charged defaultRodata 0 false (initBss defaultRodata)
    hbout
  have hback : ¬ TakesBackoff c := fun h => by
    rw [TakesBackoff, hstable] at h
    exact absurd h.1 (by decide)
  have hfires : OverrunFires c.tier c.overrunCount (burstSample c 13000) := by
    rw [(remembers_of_observed hrun).register, htier, hsample, hl]
    decide
  have hgates : classify c.tier (ewma false c.avgRt (burstSample c 13000)) ≤ c.tier := by
    rw [htier, havg, hsample]
    decide
  exact ⟨c, _, l, hrun, htier, hsample, hl, hbout, hstop,
    (forcedDemotion_iff hbout hstop).mpr ⟨hback, hfires, hgates⟩⟩

/-- Only three of the last eight outcomes are overruns of T2. -/
theorem mixedRun_rests_on_other_gate : ∃ c c' l, ObservedRun defaultRodata mixedRun (some c, l) ∧
    TaskOp.apply defaultRodata (some c) (.stopping 0 313312000 false (initBss defaultRodata))
      = some c' ∧
    ForcedDemotion c false 13000 c' ∧
    ((⟨c.tier, burstSample c 13000⟩ :: l).take 8).countP
      (fun o => o.tier = c.tier ∧ tierOverrunGate c.tier < o.sample) < 4 := by
  obtain ⟨c, c', l, hrun, htier, hsample, hl, -, hstop, hforced⟩ := mixedRun_forced
  refine ⟨c, c', l, hrun, hstop, hforced, ?_⟩
  rw [htier, hsample, hl]
  decide

/-- With the one of T1 there are four overruns on record. -/
theorem mixedRun_rests_on_record : ∃ c l, ObservedRun defaultRodata mixedRun (some c, l) ∧
    4 ≤ overruns (⟨c.tier, burstSample c 13000⟩ :: l) := by
  obtain ⟨c, c', l, hrun, -, -, -, hbout, hstop, hforced⟩ := mixedRun_forced
  obtain ⟨-, hfour, -⟩ := forced_demotion_rests_on_record hrun hbout hstop hforced
  exact ⟨c, l, hrun, hfour⟩

/-! ### Overruns in a row -/

/-- The events that come between two stops: no stop that accounts for a bout, and no seeding. -/
def StopsNothing (c : TaskCtx) : TaskOp → Prop
  | .initTask .. => False
  | .stopping _ now _ _ => chargedBout (now.setWidth 32) c = none
  | _ => True

/-- The stop at `now` finds the task in tier `t` and is an overrun of it. -/
structure OverrunsAt (t : Tier) (c : TaskCtx) (now : U64) (bout : U16) : Prop where
  tier : c.tier = t
  charged : chargedBout (now.setWidth 32) c = some bout
  overran : tierOverrunGate t < burstSample c bout

/-- `Overruns ro t c₀ n hist k c`: since `c₀` all stops that accounted for a bout, `n` in number,
were overruns of tier `t`. The register held `hist` before them, or when the task was seeded in
between, and `k` of those that followed took the full path. -/
inductive Overruns (ro : Rodata) (t : Tier) (c₀ : TaskCtx) : ℕ → U8 → ℕ → TaskCtx → Prop
  | start : Overruns ro t c₀ 0 c₀.overrunCount 0 c₀
  | other {n k : ℕ} {hist : U8} {c c' : TaskCtx} {op : TaskOp} : Overruns ro t c₀ n hist k c →
      StopsNothing c op → op.apply ro (some c) = some c' → Overruns ro t c₀ n hist k c'
  | seeded {n k : ℕ} {hist : U8} {c c' : TaskCtx} {fork : Bool} {prio : U32}
      {parent : Option TaskCtx} : Overruns ro t c₀ n hist k c →
      TaskOp.apply ro (some c) (.initTask fork prio parent) = some c' →
      Overruns ro t c₀ n c'.overrunCount 0 c'
  | skipped {n k : ℕ} {hist : U8} {c c' : TaskCtx} {cpu : Cpu} {now : U64} {runnable : Bool}
      {bss : Bss} {bout : U16} : Overruns ro t c₀ n hist k c → OverrunsAt t c now bout →
      TakesBackoff c → TaskOp.apply ro (some c) (.stopping cpu now runnable bss) = some c' →
      Overruns ro t c₀ (n + 1) hist k c'
  | recorded {n k : ℕ} {hist : U8} {c c' : TaskCtx} {cpu : Cpu} {now : U64} {runnable : Bool}
      {bss : Bss} {bout : U16} : Overruns ro t c₀ n hist k c → OverrunsAt t c now bout →
      ¬ TakesBackoff c → TaskOp.apply ro (some c) (.stopping cpu now runnable bss) = some c' →
      Overruns ro t c₀ (n + 1) hist (k + 1) c'

/-- The register after one more overrun. -/
def shiftOverrun (hist : U8) : U8 := hist.shiftConcat true

theorem overrunHist_of_overran {hist : U8} (h : tierOverrunGate t < rt) :
    overrunHist t hist rt = shiftOverrun hist := by
  rw [overrunHist, if_pos h, shiftOverrun, ← BitVec.shiftLeft_one_or_setWidth]
  rfl

theorem sameAccount_of_stopsNothing (hop : StopsNothing c op)
    (h : op.apply ro (some c) = some c') : SameAccount c c' := by
  cases effect_of_apply h with
  | kept hsame _ => exact hsame
  | accounted hbout =>
    have hnone : chargedBout _ c = none := hop
    rw [hbout] at hnone
    cases hnone
  | execed | forked => exact hop.elim

/-- As long as the task is in `t`, the register holds the overruns that were recorded. A forced
demotion clears it, but then the task has left `t`, and only a seeding leads back. -/
theorem Overruns.register {n k : ℕ} {hist : U8} (ht : t < Tier.bulk)
    (h : Overruns ro t c₀ n hist k c) (htier : c.tier = t) :
    c.overrunCount = shiftOverrun^[k] hist := by
  induction h with
  | start => rfl
  | other _ hop happly ih =>
    have hsame := sameAccount_of_stopsNothing hop happly
    rw [hsame.overrunCount]
    exact ih (hsame.tier.symm.trans htier)
  | seeded => rfl
  | skipped _ hover hback happly ih =>
    rw [stopping_overrunCount hover.charged happly, if_pos hback]
    exact ih hover.tier
  | @recorded n k hist c c' cpu now runnable bss bout _ hover hback happly ih =>
    have hbulk : c.tier < Tier.bulk := hover.tier ▸ ht
    have hgate : tierOverrunGate c.tier < burstSample c bout := hover.tier ▸ hover.overran
    have hquiet : ¬ 4 ≤ popcount (overrunHist c.tier c.overrunCount (burstSample c bout)) := by
      intro hcount
      have hlt := lt_verdict_of_fires
        (a := ewma runnable c.avgRt (burstSample c bout)) ⟨hbulk, hcount⟩
      rw [stopping_tier hover.charged happly, if_neg hback] at htier
      exact absurd (htier.trans hover.tier.symm) hlt.ne'
    rw [stopping_overrunCount hover.charged happly, if_neg hback, verdict_overrunCount hbulk,
      if_neg hquiet, overrunHist_of_overran hgate, ih hover.tier, Function.iterate_succ_apply']

/-- **When the fourth overrun in a row demotes.** It has to take the full path, and either there are
four overruns in the register with those of the four that were recorded, or the average reaches the
gate of the tier. -/
theorem fourth_overrun_demotes_iff {hist : U8} {k : ℕ} {cpu : Cpu} {now : U64} {bss : Bss}
    (ht : t < Tier.bulk) (hthree : Overruns ro t c₀ 3 hist k c) (hfourth : OverrunsAt t c now bout)
    (hstop : TaskOp.apply ro (some c) (.stopping cpu now runnable bss) = some c') :
    t < c'.tier ↔ ¬ TakesBackoff c ∧ (4 ≤ popcount (shiftOverrun^[k + 1] hist) ∨
      tierLadder.demote t
        ≤ ShiftEwma.asymmetric 2 4 runnable c.avgRt.toNat (burstSample c bout).toNat) := by
  obtain rfl := hfourth.tier
  have hfires : OverrunFires c.tier c.overrunCount (burstSample c bout) ↔
      4 ≤ popcount (shiftOverrun^[k + 1] hist) := by
    rw [OverrunFires, and_iff_right ht, overrunHist_of_overran hfourth.overran,
      hthree.register ht rfl, Function.iterate_succ_apply']
  rw [stopping_tier hfourth.charged hstop, ← hfires]
  by_cases hback : TakesBackoff c
  · rw [if_pos hback]
    exact iff_of_false (lt_irrefl _) fun h => h.1 hback
  rw [if_neg hback, and_iff_right hback]
  by_cases hfire : OverrunFires c.tier c.overrunCount (burstSample c bout)
  · exact iff_of_true (lt_verdict_of_fires hfire) (Or.inl hfire)
  · rw [(verdict_of_not_fires hfire).1, or_iff_right hfire, Fin.lt_def, classify_val,
      tierLadder.self_lt_classify_iff ht, ewma_toNat]

/-- Four overruns that are all recorded, without a seeding in between, always demote. -/
theorem four_recorded_overruns_demote {cpu : Cpu} {now : U64} {bss : Bss} {hist : U8}
    (ht : t < Tier.bulk) (hthree : Overruns ro t c₀ 3 hist 3 c) (hfourth : OverrunsAt t c now bout)
    (hback : ¬ TakesBackoff c)
    (hstop : TaskOp.apply ro (some c) (.stopping cpu now runnable bss) = some c') :
    t < c'.tier := by
  have hfull : ∀ hist : U8, 4 ≤ popcount (shiftOverrun^[4] hist) := by decide +kernel
  have hfires : OverrunFires c.tier c.overrunCount (burstSample c bout) := by
    rw [OverrunFires, hfourth.tier, overrunHist_of_overran hfourth.overran,
      hthree.register ht hfourth.tier, ← Function.iterate_succ_apply' shiftOverrun 3 hist]
    exact ⟨ht, hfull hist⟩
  rw [stopping_tier hfourth.charged hstop, if_neg hback]
  exact hfourth.tier ▸ lt_verdict_of_fires hfires

/-- The task starts to run again. -/
theorem Overruns.running {n k : ℕ} {hist : U8} (h : Overruns ro t c₀ n hist k c) (start : U64) :
    Overruns ro t c₀ n hist k (runningCtx start c) :=
  h.other (show StopsNothing c (.running 0 start (initBss ro)) from trivial) rfl

/-- A burst from `start` to `now` that is an overrun. -/
theorem Overruns.burst {n k : ℕ} {hist : U8} (h : Overruns ro t c₀ n hist k c) (start now : U64)
    (bout : U16) (hstamp : (runningCtx start c).lastRunAt ≠ 0)
    (hover : OverrunsAt t (runningCtx start c) now bout) :
    Overruns ro t c₀ (n + 1) hist (if TakesBackoff (runningCtx start c) then k else k + 1)
      (stoppingCtx ro now false (runningCtx start c)) := by
  have hrun := h.running start
  have hstop := apply_stopping_eq_stoppingCtx ro 0 now false (initBss ro) hstamp
  split
  · next hback => exact hrun.skipped hover hback hstop
  · next hback => exact hrun.recorded hover hback hstop

/-- Three milliseconds four times in a row: the new task is settled by the first three, and the
fourth, on the early return, does not demote it. -/
theorem nice0_four_overruns : Reachable defaultRodata nice0Ctx ∧ ∃ c c',
    Overruns defaultRodata Tier.interact nice0Ctx 3 0 3 c ∧
    OverrunsAt Tier.interact c 33174400 3100 ∧
    TaskOp.apply defaultRodata (some c) (.stopping 0 33174400 false (initBss defaultRodata))
      = some c' ∧ ¬ Tier.interact < c'.tier := by
  have h₁ : Overruns defaultRodata Tier.interact nice0Ctx 1 0 1 _ :=
    Overruns.start.burst 1000000 4174400 3100 (by decide) ⟨by decide, by decide, by decide⟩
  have h₂ : Overruns defaultRodata Tier.interact nice0Ctx 2 0 2 _ :=
    h₁.burst 10000000 13174400 3100 (by decide) ⟨by decide, by decide, by decide⟩
  have h₃ : Overruns defaultRodata Tier.interact nice0Ctx 3 0 3 _ :=
    h₂.burst 20000000 23174400 3100 (by decide) ⟨by decide, by decide, by decide⟩
  exact ⟨nice0Ctx_reachable, _, _, h₃.running 30000000, ⟨by decide, by decide, by decide⟩,
    apply_stopping_eq_stoppingCtx defaultRodata 0 33174400 false _ (by decide), by decide⟩

/-- Three bursts of a millisecond settle the new task without an overrun. -/
def settledRun : List TaskOp :=
  .enable 120 true :: (burst 1000000 1050 ++ burst 10000000 1050 ++ burst 20000000 1050)

/-- Seven milliseconds four times in a row: none of the first three is recorded, but the third takes
the average out of the band, and the fourth, on the full path, demotes. -/
theorem settled_four_overruns : ∃ c₀ c c', TaskRun defaultRodata anyOp settledRun (some c₀) ∧
    Overruns defaultRodata Tier.interact c₀ 3 0 0 c ∧
    TaskOp.apply defaultRodata (some c) (.stopping 0 67168000 false (initBss defaultRodata))
      = some c' ∧ Tier.interact < c'.tier := by
  have h₀ : Overruns defaultRodata Tier.interact
      (stoppingCtx defaultRodata 21075200 false (runningCtx 20000000
        (stoppingCtx defaultRodata 11075200 false (runningCtx 10000000
          (stoppingCtx defaultRodata 2075200 false (runningCtx 1000000 nice0Ctx)))))) 0 0 0 _ :=
    .start
  have h₁ : Overruns defaultRodata Tier.interact _ 1 0 0 _ :=
    h₀.burst 30000000 37168000 7000 (by decide) ⟨by decide, by decide, by decide⟩
  have h₂ : Overruns defaultRodata Tier.interact _ 2 0 0 _ :=
    h₁.burst 40000000 47168000 7000 (by decide) ⟨by decide, by decide, by decide⟩
  have h₃ : Overruns defaultRodata Tier.interact _ 3 0 0 _ :=
    h₂.burst 50000000 57168000 7000 (by decide) ⟨by decide, by decide, by decide⟩
  have hstamp : ∀ c, (runningCtx 60000000 c).lastRunAt ≠ 0 := by
    intro c
    rw [runningCtx_lastRunAt]
    decide
  have hdemotes := fourth_overrun_demotes_iff (by decide) (h₃.running 60000000)
    (show OverrunsAt Tier.interact _ _ 7000 from ⟨by decide, by decide, by decide⟩)
    (apply_stopping_eq_stoppingCtx defaultRodata 0 67168000 false (initBss defaultRodata)
      (hstamp _))
  exact ⟨_, _, _, taskRun_anyOp defaultRodata settledRun, h₃.running 60000000,
    apply_stopping_eq_stoppingCtx defaultRodata 0 67168000 false _ (hstamp _),
    hdemotes.mpr ⟨by decide, Or.inr (by decide)⟩⟩

end Imperator
