import Imperator.Classification

/-!
# Cutting a burst

A burst is the CPU time between a wakeup and the next sleep. Preemption cuts it into bouts, and
every cut is a stop of its own: the running total is fed to the average as a lower bound of the
burst, and the tier is looked at again. How much of the result depends on where the cuts fall?

The final sample does not, nor does the deficit: the bouts add up. A lower bound below the average
changes nothing, so for a burst no longer than the average the average does not depend on the cuts
either. A longer burst raises the average at every cut, and the more cuts there are the closer it
gets to the sample. The tier is safe as long as the average, before and after the uncut burst, and
a sample above it are in the band.

## Main definitions

* `Burst` — a burst going on, with any other callbacks between its preempted stops
* `Cut` — a burst of a given total, up to the sleep that ends it

## Main results

* `Burst.account` — what the preempted stops of a burst have done to the context so far
* `cut_agree` — what two cuts of the same burst agree on
-/

namespace Imperator

/-- The callbacks that may come between two bouts of a burst. A task is queued again only after a
preempted stop, which leaves no sleep timestamp. -/
def StaysInBurst (c : TaskCtx) : TaskOp → Prop
  | .initTask .. => False
  | .stopping .. => False
  | .enqueue .. => c.sleepEntryTime = 0
  | _ => True

/-- `Burst ro c₀ p c`: since `c₀`, bouts of `p` microseconds in all have ended in preemption, and
the context is `c` now. -/
inductive Burst (ro : Rodata) (c₀ : TaskCtx) : ℕ → TaskCtx → Prop
  | start : Burst ro c₀ 0 c₀
  | other {p : ℕ} {c c' : TaskCtx} {op : TaskOp} : Burst ro c₀ p c → StaysInBurst c op →
      op.apply ro (some c) = some c' → Burst ro c₀ p c'
  | preempted {p : ℕ} {c c' : TaskCtx} {cpu : Cpu} {now : U64} {bss : Bss} {bout : U16} :
      Burst ro c₀ p c → chargedBout (now.setWidth 32) c = some bout →
      TaskOp.apply ro (some c) (.stopping cpu now true bss) = some c' →
      Burst ro c₀ (p + bout.toNat) c'

/-- `Cut ro c₀ r c'`: a burst of `r` microseconds from `c₀`, cut somehow, has ended in sleep and
left `c'`. -/
def Cut (ro : Rodata) (c₀ : TaskCtx) (r : ℕ) (c' : TaskCtx) : Prop :=
  ∃ p c cpu now bss bout, Burst ro c₀ p c ∧ chargedBout (now.setWidth 32) c = some bout ∧
    p + bout.toNat = r ∧ TaskOp.apply ro (some c) (.stopping cpu now false bss) = some c'

/-- The sample of a burst of `r` microseconds from `c`. -/
def burstTotal (c : TaskCtx) (r : ℕ) : ℕ := min (c.burstAccUs.toNat + r) 65535

variable {ro : Rodata} {c₀ c c' c₁ c₂ : TaskCtx} {p r : ℕ} {op : TaskOp}

/-! ### Steps -/

/-- Between two bouts, account and average are kept. -/
theorem sameAccount_of_staysInBurst (hop : StaysInBurst c op)
    (h : op.apply ro (some c) = some c') : SameAccount c c' ∧ c'.avgRt = c.avgRt := by
  cases effect_of_apply h with
  | kept hsame havg =>
    refine ⟨hsame, havg.resolve_right ?_⟩
    rintro ⟨⟨env, bss, rfl⟩, hsleep, -⟩
    exact hsleep hop
  | accounted _ => exact hop.elim
  | execed => exact hop.elim
  | forked => exact hop.elim

/-! ### The overrun history -/

/-- A recorded history has at most three overruns: the fourth clears it. -/
def HistoryQuiet (c : TaskCtx) : Prop := popcount c.overrunCount ≤ 3

theorem historyQuiet_of_eq_zero (h : c.overrunCount = 0#8) : HistoryQuiet c := by
  rw [HistoryQuiet, h]
  decide

theorem HistoryQuiet.of_sameAccount (h : HistoryQuiet c) (hsame : SameAccount c c') :
    HistoryQuiet c' := by
  rw [HistoryQuiet, hsame.overrunCount]
  exact h

theorem verdict_historyQuiet {a rt : U16} (h : HistoryQuiet c) :
    popcount (verdict c a rt).overrunCount ≤ 3 := by
  simp only [verdict]
  split
  · split
    · exact show popcount 0#8 ≤ 3 by decide
    · next hcount => exact Nat.le_of_lt_succ (Nat.not_le.mp hcount)
  · exact h

theorem accountBout_historyQuiet (ro : Rodata) (runnable : Bool) (bout : U16)
    (h : HistoryQuiet c) : HistoryQuiet (accountBout ro runnable bout c) := by
  by_cases hback : TakesBackoff c
  · rw [accountBout_of_backoff ro runnable bout hback, HistoryQuiet, quickPass_overrunCount]
    exact h
  · rw [accountBout_of_full ro runnable bout hback]
    exact verdict_historyQuiet (c := entered runnable bout c) h

theorem historyQuiet_of_reachable (h : Reachable ro c) : HistoryQuiet c := by
  obtain ⟨ops, hrun⟩ := h
  refine hrun.invariant (fun prio => historyQuiet_of_eq_zero rfl) fun c op c' hc _ heffect => ?_
  cases heffect with
  | kept hsame _ => exact hc.of_sameAccount hsame
  | accounted _ => exact accountBout_historyQuiet _ _ _ hc
  | execed => exact historyQuiet_of_eq_zero rfl
  | forked => exact hc

/-- A sample within the gate of the tier adds no overrun, so a quiet history does not fire. -/
theorem not_overrunFires_of_le {t : Tier} {hist : U8} {rt : U16} (h : popcount hist ≤ 3)
    (hrt : t < Tier.bulk → rt ≤ tierOverrunGate t) : ¬ OverrunFires t hist rt := by
  have hshift : ∀ x : U8, popcount (x <<< 1 ||| 0#8) ≤ popcount x := by decide +kernel
  rintro ⟨ht, hcount⟩
  rw [overrunHist, if_neg (BitVec.not_lt.mpr (hrt ht))] at hcount
  exact absurd (hcount.trans (hshift hist)) (by omega)

/-! ### The running burst -/

/-- One sample added to a burst total. -/
theorem burstSample_add (bout : U16) (h : c.burstAccUs.toNat = burstTotal c₀ p) :
    (burstSample c bout).toNat = burstTotal c₀ (p + bout.toNat) := by
  rw [burstSample_toNat, h, burstTotal, burstTotal]
  omega

theorem burstTotal_mono (c₀ : TaskCtx) (h : p ≤ r) : burstTotal c₀ p ≤ burstTotal c₀ r := by
  rw [burstTotal, burstTotal]
  omega

/-- **What the preempted stops have done so far.** The bouts are added up in the accumulator and
taken off the deficit, and the average has been raised, but not above the running total. -/
theorem Burst.account (h : Burst ro c₀ p c) : c.burstAccUs.toNat = burstTotal c₀ p ∧
    c.deficit.toNat = c₀.deficit.toNat - p ∧ c₀.avgRt.toNat ≤ c.avgRt.toNat ∧
    c.avgRt.toNat ≤ max c₀.avgRt.toNat (burstTotal c₀ p) := by
  induction h with
  | start =>
    have hacc := c₀.burstAccUs.isLt
    refine ⟨?_, (Nat.sub_zero _).symm, le_rfl, le_max_left _ _⟩
    rw [burstTotal]
    omega
  | other _ hop happly ih =>
    obtain ⟨hsame, havg⟩ := sameAccount_of_staysInBurst hop happly
    rw [hsame.burstAccUs, hsame.deficit, havg]
    exact ih
  | @preempted p c c' cpu now bss bout _ hbout happly ih =>
    obtain ⟨hacc, hdeficit, hlow, hhigh⟩ := ih
    obtain ⟨stamp, rfl⟩ := accountBout_of_charged hbout happly
    have hsample := burstSample_add bout hacc
    rw [accountBout_burstAccUs, if_pos rfl, accountBout_deficit, accountBout_avgRt,
      chargeDeficit_toNat, ewma_toNat]
    refine ⟨hsample, ?_, ?_, ?_⟩
    · exact (congrArg (· - bout.toNat) hdeficit).trans (Nat.sub_sub _ _ _)
    · exact hlow.trans ShiftEwma.le_asymmetric_frozen
    · refine ShiftEwma.asymmetric_le_max.trans (max_le (hhigh.trans ?_) ?_)
      · exact max_le_max le_rfl (burstTotal_mono _ (Nat.le_add_right p _))
      · exact (le_of_eq hsample).trans (le_max_right _ _)

/-- A stop that leaves the average in the band, with a quiet history, keeps the tier. -/
theorem accountBout_tier_of_mem_tierBand {runnable : Bool} {bout : U16}
    (hband : (accountBout ro runnable bout c).avgRt.toNat ∈ tierBand c.tier)
    (hquiet : ¬ OverrunFires c.tier c.overrunCount (burstSample c bout)) :
    (accountBout ro runnable bout c).tier = c.tier := by
  by_cases hback : TakesBackoff c
  · exact accountBout_tier_of_backoff hback
  · rw [accountBout_avgRt, ← classify_eq_self_iff] at hband
    rw [accountBout_tier_of_full hback, (verdict_of_not_fires hquiet).1, hband]

/-- A sample below the gate of a band is well below its overrun gate. -/
theorem le_tierOverrunGate {t : Tier} {rt : U16} {x : ℕ} (hx : x ∈ tierBand t)
    (hrt : rt.toNat ≤ x) (ht : t < Tier.bulk) : rt ≤ tierOverrunGate t := by
  have hgate : ∀ t : Tier, t < Tier.bulk →
      (![100, 2000, 8000, 0] : Fin 4 → ℕ) t ≤ (tierOverrunGate t).toNat := by decide
  have hlt := ((mem_tierBand t x).mp hx).2 ht
  rw [BitVec.le_def]
  exact hrt.trans (hlt.le.trans (hgate t ht))

/-- While the average a burst starts with and the larger of it and the total are both in the band,
so is everything in between, and the tier is kept. -/
theorem Burst.tier (h : Burst ro c₀ p c) (hpr : p ≤ r) (hquiet : HistoryQuiet c₀)
    (havg : c₀.avgRt.toNat ∈ tierBand c₀.tier)
    (hmax : max c₀.avgRt.toNat (burstTotal c₀ r) ∈ tierBand c₀.tier) :
    c.tier = c₀.tier ∧ HistoryQuiet c := by
  induction h with
  | start => exact ⟨rfl, hquiet⟩
  | other _ hop happly ih =>
    obtain ⟨hsame, -⟩ := sameAccount_of_staysInBurst hop happly
    obtain ⟨htier, hhist⟩ := ih hpr
    exact ⟨hsame.tier.trans htier, hhist.of_sameAccount hsame⟩
  | @preempted p c c' cpu now bss bout hburst hbout happly ih =>
    obtain ⟨htier, hhist⟩ := ih (by omega)
    obtain ⟨-, -, hlow, hhigh⟩ := (Burst.preempted hburst hbout happly).account
    obtain ⟨stamp, rfl⟩ := accountBout_of_charged hbout happly
    refine ⟨(accountBout_tier_of_mem_tierBand ?_ ?_).trans htier,
      accountBout_historyQuiet _ _ _ hhist⟩
    · rw [show ({ c with sleepEntryTime := stamp } : TaskCtx).tier = c.tier from rfl, htier]
      refine tierLadder.mem_band_of_mem_uIcc havg hmax (Set.mem_uIcc_of_le hlow ?_)
      exact hhigh.trans (max_le_max le_rfl (burstTotal_mono _ hpr))
    · refine not_overrunFires_of_le hhist fun ht => ?_
      rw [show ({ c with sleepEntryTime := stamp } : TaskCtx).tier = c.tier from rfl] at ht ⊢
      rw [htier] at ht ⊢
      refine le_tierOverrunGate hmax (le_max_of_le_right ?_) ht
      exact (le_of_eq (burstSample_add _ hburst.account.1)).trans (burstTotal_mono _ hpr)

/-! ### Whole bursts -/

/-- What a cut leaves: nothing accumulated, the total taken off the deficit, and an average that is
the one of the uncut burst if that is no longer than the old average, and between that one and the
sample otherwise. -/
theorem Cut.account (h : Cut ro c₀ r c') : c'.burstAccUs = 0 ∧
    c'.deficit.toNat = c₀.deficit.toNat - r ∧
    (burstTotal c₀ r ≤ c₀.avgRt.toNat →
      c'.avgRt.toNat = ShiftEwma.asymmetric 2 4 false c₀.avgRt.toNat (burstTotal c₀ r)) ∧
    (c₀.avgRt.toNat ≤ burstTotal c₀ r →
      ShiftEwma.asymmetric 2 4 false c₀.avgRt.toNat (burstTotal c₀ r) ≤ c'.avgRt.toNat ∧
        c'.avgRt.toNat ≤ burstTotal c₀ r) := by
  obtain ⟨p, c, cpu, now, bss, bout, hburst, hbout, rfl, happly⟩ := h
  obtain ⟨hacc, hdeficit, hlow, hhigh⟩ := hburst.account
  obtain ⟨stamp, rfl⟩ := accountBout_of_charged hbout happly
  have hsample := burstSample_add bout hacc
  have hmono := burstTotal_mono c₀ (Nat.le_add_right p bout.toNat)
  have havg : (accountBout ro false bout { c with sleepEntryTime := stamp }).avgRt.toNat
      = ShiftEwma.asymmetric 2 4 false c.avgRt.toNat (burstTotal c₀ (p + bout.toNat)) := by
    rw [accountBout_avgRt, ewma_toNat, ← hsample]
    rfl
  refine ⟨?_, ?_, fun hle => ?_, fun hge => ⟨?_, ?_⟩⟩
  · rw [accountBout_burstAccUs]
    rfl
  · rw [accountBout_deficit, chargeDeficit_toNat]
    exact (congrArg (· - bout.toNat) hdeficit).trans (Nat.sub_sub _ _ _)
  · rw [max_eq_left (hmono.trans hle)] at hhigh
    rw [havg, le_antisymm hhigh hlow]
  · rw [havg]
    exact ShiftEwma.asymmetric_mono hlow
  · rw [havg]
    exact ShiftEwma.asymmetric_le_sample (hhigh.trans (max_le hge hmono))

theorem Cut.tier (h : Cut ro c₀ r c') (hquiet : HistoryQuiet c₀)
    (havg : c₀.avgRt.toNat ∈ tierBand c₀.tier)
    (hmax : max c₀.avgRt.toNat (burstTotal c₀ r) ∈ tierBand c₀.tier)
    (huncut : ShiftEwma.asymmetric 2 4 false c₀.avgRt.toNat (burstTotal c₀ r) ∈ tierBand c₀.tier) :
    c'.tier = c₀.tier := by
  obtain ⟨-, -, heq, hbetween⟩ := h.account
  obtain ⟨p, c, cpu, now, bss, bout, hburst, hbout, rfl, happly⟩ := h
  obtain ⟨htier, hhist⟩ := hburst.tier (Nat.le_add_right p _) hquiet havg hmax
  obtain ⟨stamp, rfl⟩ := accountBout_of_charged hbout happly
  refine (accountBout_tier_of_mem_tierBand ?_ ?_).trans htier
  · rw [show ({ c with sleepEntryTime := stamp } : TaskCtx).tier = c.tier from rfl, htier]
    rcases Nat.le_total (burstTotal c₀ (p + bout.toNat)) c₀.avgRt.toNat with hle | hge
    · rw [heq hle]
      exact huncut
    · obtain ⟨hlow, hhigh⟩ := hbetween hge
      exact tierLadder.mem_band_of_mem_uIcc huncut hmax
        (Set.mem_uIcc_of_le hlow (hhigh.trans (le_max_right _ _)))
  · refine not_overrunFires_of_le hhist fun ht => ?_
    rw [show ({ c with sleepEntryTime := stamp } : TaskCtx).tier = c.tier from rfl] at ht ⊢
    rw [htier] at ht ⊢
    refine le_tierOverrunGate hmax (le_max_of_le_right ?_) ht
    exact le_of_eq (burstSample_add _ hburst.account.1)

/-- **What the cuts do not change.** Two cuts of the same burst from a reachable context agree on
the accumulator and the deficit. They agree on the average if the saturated total is not above the
average they start with; otherwise both averages lie between that of the uncut burst and the total.
They agree on the tier, and keep it, if the average they start with, the average of the uncut burst,
and the total if it is above the average are in the band of the tier. -/
theorem cut_agree (hreach : Reachable ro c₀) (h₁ : Cut ro c₀ r c₁) (h₂ : Cut ro c₀ r c₂) :
    c₁.burstAccUs = c₂.burstAccUs ∧ c₁.deficit = c₂.deficit ∧
    (burstTotal c₀ r ≤ c₀.avgRt.toNat → c₁.avgRt = c₂.avgRt) ∧
    (c₀.avgRt.toNat ≤ burstTotal c₀ r → ∀ c' ∈ [c₁, c₂],
      ShiftEwma.asymmetric 2 4 false c₀.avgRt.toNat (burstTotal c₀ r) ≤ c'.avgRt.toNat ∧
        c'.avgRt.toNat ≤ burstTotal c₀ r) ∧
    (c₀.avgRt.toNat ∈ tierBand c₀.tier →
      max c₀.avgRt.toNat (burstTotal c₀ r) ∈ tierBand c₀.tier →
      ShiftEwma.asymmetric 2 4 false c₀.avgRt.toNat (burstTotal c₀ r) ∈ tierBand c₀.tier →
      c₁.tier = c₀.tier ∧ c₂.tier = c₀.tier) := by
  obtain ⟨hacc₁, hdef₁, heq₁, hbetween₁⟩ := h₁.account
  obtain ⟨hacc₂, hdef₂, heq₂, hbetween₂⟩ := h₂.account
  have hquiet := historyQuiet_of_reachable hreach
  refine ⟨hacc₁.trans hacc₂.symm, BitVec.eq_of_toNat_eq (hdef₁.trans hdef₂.symm), fun hle => ?_,
    fun hge c' hc' => ?_, fun havg hmax huncut => ⟨h₁.tier hquiet havg hmax huncut,
      h₂.tier hquiet havg hmax huncut⟩⟩
  · exact BitVec.eq_of_toNat_eq ((heq₁ hle).trans (heq₂ hle).symm)
  · rcases List.mem_pair.mp hc' with rfl | rfl
    · exact hbetween₁ hge
    · exact hbetween₂ hge

/-- A task of nice value 0 before its first burst: it is in T1, with an average of 1050. -/
def nice0Ctx : TaskCtx := allocTaskCtxCold defaultRodata 120

theorem nice0Ctx_reachable : Reachable defaultRodata nice0Ctx :=
  ⟨_, taskRun_anyOp defaultRodata [.enable 120 true]⟩

/-- The next bout of a burst starts. -/
theorem Burst.running (h : Burst ro c₀ p c) (start : U64) :
    Burst ro c₀ p (runningCtx start c) := by
  have hrun : TaskOp.apply ro (some c) (.running 0 start (initBss ro))
    = some (runningCtx start c) := rfl
  exact .other h (show StaysInBurst c (.running 0 start (initBss ro)) from trivial) hrun

theorem apply_stopping_eq_stoppingCtx (ro : Rodata) (cpu : Cpu) (now : U64) (runnable : Bool)
    (bss : Bss) (h : c.lastRunAt ≠ 0) : TaskOp.apply ro (some c) (.stopping cpu now runnable bss)
      = some (stoppingCtx ro now runnable c) := by
  show (imperatorStopping ro cpu now runnable (some c) bss).1 = _
  rw [imperatorStopping, if_pos h]

/-- A bout from `start` to `now` is preempted. -/
theorem Burst.bout (h : Burst ro c₀ p c) (start now : U64) (bout : U16)
    (hrun : (runningCtx start c).lastRunAt ≠ 0)
    (hbout : chargedBout (now.setWidth 32) (runningCtx start c) = some bout) :
    Burst ro c₀ (p + bout.toNat) (stoppingCtx ro now true (runningCtx start c)) :=
  .preempted (h.running start) hbout (apply_stopping_eq_stoppingCtx ro 0 now true (initBss ro) hrun)

/-- The last bout of a burst goes from `start` to `now`. -/
theorem Burst.sleep (h : Burst ro c₀ p c) (start now : U64) (bout : U16)
    (hrun : (runningCtx start c).lastRunAt ≠ 0)
    (hbout : chargedBout (now.setWidth 32) (runningCtx start c) = some bout) :
    Cut ro c₀ (p + bout.toNat) (stoppingCtx ro now false (runningCtx start c)) :=
  ⟨p, _, 0, now, initBss ro, bout, h.running start, hbout, rfl,
    apply_stopping_eq_stoppingCtx ro 0 now false _ hrun⟩

/-- Its first burst is 900 units, in one bout or cut in the middle. -/
theorem short_burst_agree : ∃ c₁ c₂, Cut defaultRodata nice0Ctx 900 c₁ ∧
    Cut defaultRodata nice0Ctx 900 c₂ ∧ c₁.avgRt = c₂.avgRt ∧ c₁.tier = nice0Ctx.tier ∧
      c₂.tier = nice0Ctx.tier := by
  have h₁ : Cut defaultRodata nice0Ctx 900 _ :=
    Burst.start.sleep 1000000 1921600 900 (by decide) (by decide)
  have h₂ : Cut defaultRodata nice0Ctx 900 _ :=
    (Burst.start.bout 1000000 1460800 450 (by decide) (by decide)).sleep 2000000 2460800 450
      (by decide) (by decide)
  obtain ⟨-, -, havg, -, htier⟩ := cut_agree nice0Ctx_reachable h₁ h₂
  exact ⟨_, _, h₁, h₂, havg (by decide), htier (by decide) (by decide) (by decide)⟩

/-- Sixteen milliseconds: in one bout the task stays in T1, cut in the middle it ends in T2. -/
theorem long_burst_disagree : Reachable defaultRodata nice0Ctx ∧ ∃ c₁ c₂,
    Cut defaultRodata nice0Ctx 16000 c₁ ∧ Cut defaultRodata nice0Ctx 16000 c₂ ∧
      c₁.avgRt ≠ c₂.avgRt ∧ c₁.tier ≠ c₂.tier := by
  have h₁ : Cut defaultRodata nice0Ctx 16000 _ :=
    Burst.start.sleep 1000000 17384000 16000 (by decide) (by decide)
  have h₂ : Cut defaultRodata nice0Ctx 16000 _ :=
    (Burst.start.bout 1000000 9192000 8000 (by decide) (by decide)).sleep 11000000 19192000 8000
      (by decide) (by decide)
  exact ⟨nice0Ctx_reachable, _, _, h₁, h₂, by decide, by decide⟩

end Imperator
