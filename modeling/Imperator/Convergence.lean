import Imperator.BurstCuts

/-!
# Convergence of the classification

A task whose bursts are all of the same length `r` should end up in a tier that is meant for such
bursts, whatever it did before.

It ends up in one tier. Its average settles, since every stop that moves it brings it nearer to `r`,
and once it has settled two more stops decide: the first notices that the average is not in the band
of the tier, the second takes the full path. The overrun history cannot interfere, because a burst
that enters it is so long that the gates demand no less.

The tier is that of the settled average, though, and both steps of the average truncate. Coming from
below it settles up to fifteen units short of `r`, coming from above up to three units over it. Of
the six gates the demotion from T0 and the promotion from T1 are not multiples of the weights, so
around these two a tier can hold an average that is in its band for bursts that are not.

## Main definitions

* `SteadyRun` — bursts of one length, with any other callbacks between them
* `Settled` — the bursts do not move the average any more

## Main results

* `SteadyRun.settled`, `SteadyRun.mem_tierBand` — the average settles, then the tier does
* `classification_converges` — in which tier it settles
-/

namespace Imperator

variable {ro : Rodata} {r : U16} {c₀ c c' d : TaskCtx} {op : TaskOp} {n m : ℕ}

/-! ### Steady runs -/

/-- The enqueue applies the recovery after a long sleep. -/
def Recovers (env : EnqueueEnv) (c : TaskCtx) : Prop :=
  (env.flags.wakeup ∨ env.flags.preempt) ∧ c.sleepEntryTime ≠ 0 ∧
    500000000#32 < env.now.setWidth 32 - c.sleepEntryTime

instance (env : EnqueueEnv) (c : TaskCtx) : Decidable (Recovers env c) :=
  inferInstanceAs (Decidable (_ ∧ _))

/-- The callbacks that may come between two bursts: none that seeds the task again, no recovery, and
no stop but those that account for nothing. -/
def StaysSteady (c : TaskCtx) : TaskOp → Prop
  | .initTask .. => False
  | .stopping .. => c.lastRunAt = 0
  | .enqueue env _ => ¬ Recovers env c
  | _ => True

/-- `SteadyRun ro r c₀ n c`: since `c₀`, the task has slept `n` times, each time after a single bout
of `r` microseconds, and the context is `c` now. -/
inductive SteadyRun (ro : Rodata) (r : U16) (c₀ : TaskCtx) : ℕ → TaskCtx → Prop
  | start : SteadyRun ro r c₀ 0 c₀
  | other {n : ℕ} {c c' : TaskCtx} {op : TaskOp} : SteadyRun ro r c₀ n c → StaysSteady c op →
      op.apply ro (some c) = some c' → SteadyRun ro r c₀ n c'
  | slept {n : ℕ} {c c' : TaskCtx} {cpu : Cpu} {now : U64} {bss : Bss} : SteadyRun ro r c₀ n c →
      chargedBout (now.setWidth 32) c = some r →
      TaskOp.apply ro (some c) (.stopping cpu now false bss) = some c' →
      SteadyRun ro r c₀ (n + 1) c'

theorem enqueue_avgRt_of_not_recovers {env : EnqueueEnv} {bss : Bss} (h : ¬ Recovers env c)
    (happly : TaskOp.apply ro (some c) (.enqueue env bss) = some c') : c'.avgRt = c.avgRt := by
  have hctx : (if env.flags.wakeup ∨ env.flags.preempt then some (standardCtx ro env c) else some c)
      = some c' := (imperatorEnqueue_ctx_some ro env c bss).symm.trans happly
  split at hctx
  · next hflags =>
    obtain rfl := Option.some.inj hctx
    rw [standardCtx_avgRt, recoveredCtx, postSleepRecovery]
    split
    · next hsleep =>
      dsimp only
      rw [if_neg fun hlong => h ⟨hflags, hsleep, hlong⟩]
      rfl
    · rfl
  · obtain rfl := Option.some.inj hctx
    rfl

/-- Between two bursts, account and average are kept. -/
theorem sameAccount_of_staysSteady (hop : StaysSteady c op) (h : op.apply ro (some c) = some c') :
    SameAccount c c' ∧ c'.avgRt = c.avgRt := by
  cases effect_of_apply h with
  | kept hsame havg =>
    refine ⟨hsame, ?_⟩
    rcases havg with heq | ⟨⟨env, bss, rfl⟩, -⟩
    · exact heq
    · exact enqueue_avgRt_of_not_recovers hop h
  | accounted hbout =>
    rw [chargedBout, if_pos (show c.lastRunAt = 0 from hop)] at hbout
    cases hbout
  | execed => exact hop.elim
  | forked => exact hop.elim

namespace SteadyRun

/-- **Induction on steady runs**, for what depends on account and average alone. -/
theorem invariant {I : ℕ → TaskCtx → Prop} (hstart : I 0 c₀)
    (hother : ∀ n c c', I n c → SameAccount c c' → c'.avgRt = c.avgRt → I n c')
    (hslept : ∀ n c stamp, I n c →
      I (n + 1) (accountBout ro false r { c with sleepEntryTime := stamp }))
    (h : SteadyRun ro r c₀ n c) : I n c := by
  induction h with
  | start => exact hstart
  | other _ hop happly ih =>
    obtain ⟨hsame, havg⟩ := sameAccount_of_staysSteady hop happly
    exact hother _ _ _ ih hsame havg
  | slept _ hbout happly ih =>
    obtain ⟨stamp, rfl⟩ := accountBout_of_charged hbout happly
    exact hslept _ _ stamp ih

/-- A run of `m + n` bursts, cut after the first `m`. -/
theorem split {k : ℕ} (h : SteadyRun ro r c₀ k c) (hk : k = m + n) :
    ∃ d, SteadyRun ro r c₀ m d ∧ SteadyRun ro r d n c := by
  induction h generalizing n with
  | start =>
    obtain ⟨rfl, rfl⟩ := Nat.add_eq_zero_iff.mp hk.symm
    exact ⟨c₀, start, start⟩
  | other _ hop happly ih =>
    obtain ⟨d, hd, htail⟩ := ih hk
    exact ⟨d, hd, htail.other hop happly⟩
  | @slept k c c' cpu now bss hrun hbout happly ih =>
    cases n with
    | zero =>
      obtain rfl : k + 1 = m := hk
      exact ⟨c', hrun.slept hbout happly, start⟩
    | succ n =>
      obtain ⟨d, hd, htail⟩ := ih (Nat.succ.inj hk)
      exact ⟨d, hd, htail.slept hbout happly⟩

/-- There is always a next burst. -/
theorem exists_succ (h : SteadyRun ro r c₀ n c) : ∃ d, SteadyRun ro r c₀ (n + 1) d := by
  have hrunning : SteadyRun ro r c₀ n (runningCtx 1 c) :=
    h.other (show StaysSteady c (.running 0 1 (initBss ro)) from trivial) rfl
  have hstamp : (runningCtx 1 c).lastRunAt = 1#32 := runningCtx_lastRunAt 1 c
  have hbout : chargedBout ((1#64 + r.setWidth 64 <<< 10).setWidth 32) (runningCtx 1 c)
      = some r := by
    rw [chargedBout, if_neg (by rw [hstamp]; decide), hstamp]
    refine congrArg some (BitVec.eq_of_toNat_eq ?_)
    have hr := r.isLt
    have helapsed : ((1#64 + r.setWidth 64 <<< 10).setWidth 32 - 1#32).toNat
        = r.toNat * 1024 := by
      rw [BitVec.toNat_sub, BitVec.toNat_setWidth, BitVec.toNat_add, BitVec.toNat_shiftLeft,
        BitVec.toNat_setWidth, Nat.shiftLeft_eq, BitVec.toNat_ofNat, BitVec.toNat_ofNat]
      omega
    rw [boutUs_toNat, helapsed, Nat.mul_div_cancel _ (by decide)]
    omega
  obtain ⟨d, hd⟩ := apply_isSome ro (runningCtx 1 c)
    (.stopping 0 (1#64 + r.setWidth 64 <<< 10) false (initBss ro))
  exact ⟨d, hrunning.slept hbout hd⟩

/-- So there are steady runs of any length. -/
theorem exists_of_length (ro : Rodata) (r : U16) (c₀ : TaskCtx) (n : ℕ) :
    ∃ c, SteadyRun ro r c₀ n c := by
  induction n with
  | zero => exact ⟨c₀, start⟩
  | succ n ih =>
    obtain ⟨c, hc⟩ := ih
    exact hc.exists_succ

end SteadyRun

/-! ### The average -/

/-- Bursts of `r` do not move the average any more, and nothing is left of an earlier burst. -/
structure Settled (r : U16) (c : TaskCtx) : Prop where
  burstAccUs : c.burstAccUs = 0
  historyQuiet : HistoryQuiet c
  avgRt : ShiftEwma.Settled 2 4 c.avgRt.toNat r.toNat

/-- Without a remainder of an earlier burst, the sample is the bout. -/
theorem burstSample_of_burstAccUs_eq_zero (h : c.burstAccUs = 0) (bout : U16) :
    burstSample c bout = bout := by
  have hbout := bout.isLt
  have hzero : (0 : U16).toNat = 0 := rfl
  refine BitVec.eq_of_toNat_eq ?_
  rw [burstSample_toNat, h, hzero]
  omega

namespace SteadyRun

/-- The first burst leaves no remainder. -/
theorem burstAccUs (h : SteadyRun ro r c₀ n c) : n ≠ 0 → c.burstAccUs = 0 := by
  refine invariant (I := fun n c => n ≠ 0 → c.burstAccUs = 0) (fun hn => absurd rfl hn) ?_ ?_ h
  · intro n c c' ih hsame _ hn
    rw [hsame.burstAccUs]
    exact ih hn
  · intro n c stamp _ _
    rw [accountBout_burstAccUs, if_neg Bool.false_ne_true]

theorem historyQuiet (h : SteadyRun ro r c₀ n c) (hquiet : HistoryQuiet c₀) : HistoryQuiet c := by
  refine invariant (I := fun _ c => HistoryQuiet c) hquiet ?_ ?_ h
  · intro n c c' ih hsame _
    exact ih.of_sameAccount hsame
  · intro n c stamp ih
    exact accountBout_historyQuiet _ _ _ ih

/-- From then on every burst is one step of the average towards `r`. -/
theorem avgRt (h : SteadyRun ro r c₀ n c) (hacc : c₀.burstAccUs = 0) : c.burstAccUs = 0 ∧
    c.avgRt.toNat
      = (fun a => ShiftEwma.asymmetric 2 4 false a r.toNat)^[n] c₀.avgRt.toNat := by
  refine invariant (I := fun n c => c.burstAccUs = 0 ∧ c.avgRt.toNat
    = (fun a => ShiftEwma.asymmetric 2 4 false a r.toNat)^[n] c₀.avgRt.toNat) ⟨hacc, rfl⟩ ?_ ?_ h
  · intro n c c' ih hsame havg
    rw [hsame.burstAccUs, havg]
    exact ih
  · intro n c stamp ih
    have hsample : burstSample { c with sleepEntryTime := stamp } r = r :=
      burstSample_of_burstAccUs_eq_zero ih.1 r
    rw [accountBout_burstAccUs, if_neg Bool.false_ne_true, accountBout_avgRt, hsample, ewma_toNat,
      Function.iterate_succ_apply', ← ih.2]
    exact ⟨rfl, rfl⟩

/-- **The average settles**, 65,536 bursts after the start at the latest. -/
theorem settled (h : SteadyRun ro r c₀ n c) (hquiet : HistoryQuiet c₀) (hn : 65536 ≤ n) :
    Settled r c := by
  obtain ⟨d, hfirst, hrest⟩ := h.split (show n = 1 + (n - 1) by omega)
  obtain ⟨hacc, havg⟩ := hrest.avgRt (hfirst.burstAccUs one_ne_zero)
  refine ⟨hacc, h.historyQuiet hquiet, ?_⟩
  rw [havg]
  refine ShiftEwma.settled_iterate ?_
  have hd := d.avgRt.isLt
  have hr := r.isLt
  rw [Nat.dist]
  omega

end SteadyRun

/-! ### The tier -/

/-- Another callback leaves a settled context settled. -/
theorem Settled.of_sameAccount (h : Settled r c) (hsame : SameAccount c c')
    (havg : c'.avgRt = c.avgRt) : Settled r c' := by
  refine ⟨hsame.burstAccUs.trans h.burstAccUs, h.historyQuiet.of_sameAccount hsame, ?_⟩
  rw [havg]
  exact h.avgRt

namespace Settled

theorem ewma_eq (h : Settled r c) : ewma false c.avgRt r = c.avgRt := by
  refine BitVec.eq_of_toNat_eq ?_
  rw [ewma_toNat]
  exact h.avgRt

/-- A settled average is at most 15 units short of the bursts. -/
theorem lt_avgRt_add (h : Settled r c) : r.toNat < c.avgRt.toNat + 16 := by
  rcases ShiftEwma.settled_iff.mp h.avgRt with ⟨-, heq⟩ | ⟨hlt, -⟩ <;> omega

/-- **The overrun history does not interfere.** A burst that completes it is half as long again as
the gate, and the average of such bursts is above the gate. -/
theorem verdict_tier (h : Settled r c) :
    (verdict c c.avgRt r).tier = classify c.tier c.avgRt := by
  by_cases hfires : OverrunFires c.tier c.overrunCount r
  · have hover : tierOverrunGate c.tier < r := by
      by_contra hle
      exact not_overrunFires_of_le h.historyQuiet (fun _ => BitVec.not_lt.mp hle) hfires
    have hgate : ∀ t : Tier, t < Tier.bulk →
        tierLadder.demote t + 16 ≤ (tierOverrunGate t).toNat := by decide
    have hreach : tierLadder.demote c.tier ≤ c.avgRt.toNat := by
      have hfar := hgate c.tier hfires.1
      have hnear := h.lt_avgRt_add
      rw [BitVec.lt_def] at hover
      omega
    have hlt : c.tier < classify c.tier c.avgRt := by
      rw [Fin.lt_def, classify_val]
      exact (tierLadder.self_lt_classify_iff hfires.1).mpr hreach
    rw [verdict_of_fires hfires]
    refine max_eq_left ?_
    have hval : c.tier.val < (classify c.tier c.avgRt).val := hlt
    rw [Fin.le_def, Fin.val_add_one_of_lt (show c.tier < Fin.last 3 from hfires.1)]
    exact hval
  · exact (verdict_of_not_fires hfires).1

/-- What the next burst does: the average stays, and the tier stays or becomes that of the
average. -/
theorem accountBout (h : Settled r c) : Settled r (accountBout ro false r c) ∧
    (Imperator.accountBout ro false r c).avgRt = c.avgRt ∧
    (Imperator.accountBout ro false r c).tier
      = if TakesBackoff c then c.tier else classify c.tier c.avgRt := by
  have hsample := burstSample_of_burstAccUs_eq_zero h.burstAccUs r
  have havg : (Imperator.accountBout ro false r c).avgRt = c.avgRt := by
    rw [accountBout_avgRt, hsample, h.ewma_eq]
  refine ⟨⟨?_, accountBout_historyQuiet _ _ _ h.historyQuiet, ?_⟩, havg, ?_⟩
  · rw [accountBout_burstAccUs, if_neg Bool.false_ne_true]
  · rw [havg]
    exact h.avgRt
  · split
    · next hback => exact accountBout_tier_of_backoff hback
    · next hfull =>
      rw [accountBout_tier_of_full hfull, hsample, h.ewma_eq]
      exact h.verdict_tier

/-- An average in the band of the tier keeps the tier. -/
theorem accountBout_tier (h : Settled r c) (hband : c.avgRt.toNat ∈ tierBand c.tier) :
    (Imperator.accountBout ro false r c).tier = c.tier := by
  rw [h.accountBout.2.2]
  split
  · rfl
  · exact (classify_eq_self_iff _ _).mpr hband

/-- And a tier that is not kept is that of the average. Only a counter of 3 can put it off. -/
theorem accountBout_mem_tierBand (h : Settled r c)
    (hready : c.avgRt.toNat ∈ tierBand c.tier ∨ c.stable ≠ 3) :
    (Imperator.accountBout ro false r c).avgRt.toNat
      ∈ tierBand (Imperator.accountBout ro false r c).tier := by
  obtain ⟨havg, htier⟩ := (h.accountBout : Settled r (Imperator.accountBout ro false r c) ∧ _).2
  rw [havg, htier]
  split
  · next hback => exact hready.resolve_right fun hne => hne hback.1
  · rw [tierBand, classify_val]
    exact tierLadder.mem_band_classify _ _

/-- The counter is put back if the average does not fit. -/
theorem accountBout_ready (ro : Rodata) (r : U16) (c : TaskCtx) :
    (Imperator.accountBout ro false r c).avgRt.toNat
        ∈ tierBand (Imperator.accountBout ro false r c).tier ∨
      (Imperator.accountBout ro false r c).stable ≠ 3 := by
  refine or_iff_not_imp_right.mpr fun hthree => accountBout_stableInBand ro false r c ?_
  rw [not_not.mp hthree]
  decide

/-- **Which bursts a settled average stands for.** Those of the band of its tier, and the few around
the gates of T0 that the truncation cannot tell from them. -/
theorem mem_tierBand (h : Settled r c) (hband : c.avgRt.toNat ∈ tierBand c.tier) :
    r.toNat ∈ tierBand c.tier ∨
      (r.toNat = 88 ∨ r.toNat = 89) ∧ c.tier = Tier.interact ∨
      (100 ≤ r.toNat ∧ r.toNat ≤ 111) ∧ c.tier = Tier.critical := by
  have hfour : ∀ t : Tier,
      t = Tier.critical ∨ t = Tier.interact ∨ t = Tier.frame ∨ t = Tier.bulk := by decide
  have hset := ShiftEwma.settled_iff.mp h.avgRt
  rcases hfour c.tier with ht | ht | ht | ht <;> rw [ht] at hband ⊢
  · rw [mem_tierBand_critical] at hband ⊢
    rcases Nat.lt_or_ge r.toNat 100 with hlt | hge
    · exact Or.inl hlt
    · exact Or.inr (Or.inr ⟨⟨hge, by omega⟩, rfl⟩)
  · rw [mem_tierBand_interact] at hband ⊢
    rcases Nat.lt_or_ge r.toNat 90 with hlt | hge
    · exact Or.inr (Or.inl ⟨by omega, rfl⟩)
    · exact Or.inl ⟨hge, by omega⟩
  -- the other gates are multiples of 16, so the truncation does not see past them
  · rw [mem_tierBand_frame] at hband ⊢
    exact Or.inl (by omega)
  · rw [mem_tierBand_bulk] at hband ⊢
    exact Or.inl (by omega)

end Settled

namespace SteadyRun

/-- A settled average in the band of the tier stays there, and so does the tier. -/
theorem tier (h : SteadyRun ro r c₀ n c) (hset : Settled r c₀)
    (hband : c₀.avgRt.toNat ∈ tierBand c₀.tier) :
    Settled r c ∧ c.avgRt.toNat ∈ tierBand c.tier ∧ c.tier = c₀.tier := by
  refine invariant (I := fun _ c => Settled r c ∧ c.avgRt.toNat ∈ tierBand c.tier ∧
    c.tier = c₀.tier) ⟨hset, hband, rfl⟩ ?_ ?_ h
  · rintro n c c' ⟨hc, hin, htier⟩ hsame havg
    rw [havg, hsame.tier]
    exact ⟨hc.of_sameAccount hsame havg, hin, htier⟩
  · rintro n c stamp ⟨hc, hin, htier⟩
    have hc' : Settled r { c with sleepEntryTime := stamp } := ⟨hc.1, hc.2, hc.3⟩
    exact ⟨hc'.accountBout.1, hc'.accountBout_mem_tierBand (Or.inl hin),
      (hc'.accountBout_tier hin).trans htier⟩

/-- **The tier follows** a settled average within two bursts. -/
theorem mem_tierBand (h : SteadyRun ro r c₀ n c) (hset : Settled r c₀) (hn : 2 ≤ n) :
    Settled r c ∧ c.avgRt.toNat ∈ tierBand c.tier := by
  have hinv : Settled r c ∧ (1 ≤ n → c.avgRt.toNat ∈ tierBand c.tier ∨ c.stable ≠ 3) ∧
      (2 ≤ n → c.avgRt.toNat ∈ tierBand c.tier) := by
    refine invariant (I := fun n c => Settled r c ∧
      (1 ≤ n → c.avgRt.toNat ∈ tierBand c.tier ∨ c.stable ≠ 3) ∧
      (2 ≤ n → c.avgRt.toNat ∈ tierBand c.tier)) ?_ ?_ ?_ h
    · exact ⟨hset, fun h => absurd h (by decide), fun h => absurd h (by decide)⟩
    · rintro n c c' ⟨hc, hready, hin⟩ hsame havg
      rw [havg, hsame.tier, hsame.stable]
      exact ⟨hc.of_sameAccount hsame havg, hready, hin⟩
    · rintro n c stamp ⟨hc, hready, -⟩
      have hc' : Settled r { c with sleepEntryTime := stamp } := ⟨hc.1, hc.2, hc.3⟩
      exact ⟨hc'.accountBout.1, fun _ => Settled.accountBout_ready _ _ _,
        fun hle => hc'.accountBout_mem_tierBand (hready (Nat.le_of_succ_le_succ hle))⟩
  exact ⟨hinv.1, hinv.2.2 hn⟩

end SteadyRun

/-! ### Convergence -/

/-- Bursts of `r` do not change the tier any more. Its band contains `r`, unless `r` is next to one
of the gates between T0 and T1: bursts of 88 and 89 may be held in T1, and bursts of 100 to 111 may
be held in T0. -/
structure Converged (ro : Rodata) (r : U16) (c : TaskCtx) : Prop where
  tier : ∀ n d, SteadyRun ro r c n d → d.tier = c.tier
  band : r.toNat ∈ tierBand c.tier ∨
    (r.toNat = 88 ∨ r.toNat = 89) ∧ c.tier = Tier.interact ∨
    (100 ≤ r.toNat ∧ r.toNat ≤ 111) ∧ c.tier = Tier.critical

/-- **Classification converges.** Whatever a task did before, once its bursts all have the same
length its tier settles, and it is a tier for bursts of this length up to the truncation of the
average. -/
theorem classification_converges (hreach : Reachable ro c₀) (h : SteadyRun ro r c₀ n c)
    (hn : 65538 ≤ n) : Converged ro r c := by
  obtain ⟨d, hfirst, hrest⟩ := h.split (show n = 65536 + (n - 65536) by omega)
  have hd := hfirst.settled (historyQuiet_of_reachable hreach) le_rfl
  obtain ⟨hset, hband⟩ := hrest.mem_tierBand hd (by omega)
  exact ⟨fun m e he => (he.tier hset hband).2.2, hset.mem_tierBand hband⟩

/-- A task of nice value 0 with bursts of half a millisecond. -/
theorem nice0Ctx_converges : ∃ c, SteadyRun defaultRodata 500 nice0Ctx 65538 c ∧
    Converged defaultRodata 500 c := by
  obtain ⟨c, hc⟩ := SteadyRun.exists_of_length defaultRodata 500 nice0Ctx 65538
  exact ⟨c, hc, classification_converges nice0Ctx_reachable hc le_rfl⟩

/-! ### The dead zone of T0 -/

/-- A new task with a negative nice value: it is in T0, with an average of 50. -/
def niceMinusCtx : TaskCtx := allocTaskCtxCold defaultRodata 110

/-- What holds T0 under bursts of 105: up to 99, the average and the burst agree after the shift, or
the average is far enough below. -/
structure HeldInCritical (c : TaskCtx) : Prop where
  burstAccUs : c.burstAccUs = 0
  historyQuiet : HistoryQuiet c
  avgRt_le : c.avgRt.toNat ≤ 99
  tier : c.tier = Tier.critical

theorem HeldInCritical.accountBout (h : HeldInCritical c) :
    HeldInCritical (accountBout ro false 105 c) := by
  have hsample : burstSample c 105 = 105 := burstSample_of_burstAccUs_eq_zero h.burstAccUs 105
  have havg : (Imperator.accountBout ro false 105 c).avgRt.toNat ≤ 99 := by
    have hle := h.avgRt_le
    have hstep := ShiftEwma.step_eq 4 c.avgRt.toNat 105
    have hrise : (Imperator.accountBout ro false 105 c).avgRt.toNat
        = ShiftEwma.step 4 c.avgRt.toNat 105 := by
      rw [accountBout_avgRt, hsample, ewma_toNat]
      exact ShiftEwma.asymmetric_of_le (hle.trans (by decide))
    omega
  have hquiet : ¬ OverrunFires c.tier c.overrunCount (burstSample c 105) := by
    rw [hsample, h.tier]
    exact not_overrunFires_of_le h.historyQuiet fun _ => by decide
  refine ⟨?_, accountBout_historyQuiet _ _ _ h.historyQuiet, havg, ?_⟩
  · rw [accountBout_burstAccUs, if_neg Bool.false_ne_true]
  · refine (accountBout_tier_of_mem_tierBand ?_ hquiet).trans h.tier
    rw [h.tier, mem_tierBand_critical]
    exact Nat.lt_succ_of_le havg

/-- Bursts of 105 are too long for T0, but they never raise its average to the gate. -/
theorem niceMinusCtx_stays_critical (h : SteadyRun defaultRodata 105 niceMinusCtx n c) :
    HeldInCritical c := by
  refine SteadyRun.invariant (I := fun _ c => HeldInCritical c) ?_ ?_ ?_ h
  · exact ⟨rfl, historyQuiet_of_eq_zero rfl, by decide, by decide⟩
  · rintro n c c' hc hsame havg
    refine ⟨hsame.burstAccUs.trans hc.burstAccUs, hc.historyQuiet.of_sameAccount hsame, ?_,
      hsame.tier.trans hc.tier⟩
    rw [havg]
    exact hc.avgRt_le
  · intro n c stamp hc
    have hc' : HeldInCritical { c with sleepEntryTime := stamp } :=
      ⟨hc.burstAccUs, hc.historyQuiet, hc.avgRt_le, hc.tier⟩
    exact hc'.accountBout

/-- So no number of bursts leads to a tier whose band contains 105. -/
theorem niceMinusCtx_not_converges : Reachable defaultRodata niceMinusCtx ∧
    ¬ ∃ N, ∀ n c, N ≤ n → SteadyRun defaultRodata 105 niceMinusCtx n c →
      (∀ m d, SteadyRun defaultRodata 105 c m d → d.tier = c.tier) ∧
        (105#16).toNat ∈ tierBand c.tier := by
  refine ⟨⟨_, taskRun_anyOp defaultRodata [.enable 110 true]⟩, ?_⟩
  rintro ⟨N, hN⟩
  obtain ⟨c, hc⟩ := SteadyRun.exists_of_length defaultRodata 105 niceMinusCtx N
  have hband := (hN N c le_rfl hc).2
  rw [(niceMinusCtx_stays_critical hc).tier] at hband
  exact absurd hband (by decide)

end Imperator
