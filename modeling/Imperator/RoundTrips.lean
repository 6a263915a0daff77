import Imperator.PingPong

/-!
# What a sample measures

`measure_pair` returns a measurement or nothing, and a measurement is a list of one-way latencies:
the time of a sample, divided by two hops for each of its round trips.

It returns a measurement exactly if both threads could be pinned. Nobody else decides this: what a
thread has said before the barrier is all that is ever stored to `abort`, and it is said exactly by
a thread that could not be pinned.

And the divisor is right up to one hop. The clock is read by PING alone, before and after the inner
loop, and PONG goes on meanwhile. But where PING is in its loops tells how often it has set the
flag, and PONG is level or one ahead. So between any two readings around one sample PING has set the
flag once for each round trip, and PONG as often, one time more, or one time less.

## Main definitions

* `firstPinned` — what came of pinning a thread
* `Pinning`, `Said` — what a thread knows of it, and what it has said
* `PingAt` — the exchanges of PING, from where it is

## Main results

* `pinning_step`, `ThreadStep.pingAt` — one step
* `measure_pair_result` — what is returned
* `sample_hops` — what is measured
-/

namespace Imperator

open LoopNest Transition

variable {config : EtdConfig} {s s' u v : PairState} {ev : PairEvent} {evs evs' : List PairEvent}

/-! ### Pinning -/

/-- Whether `set_for_current` succeeds in a thread, which is its first step. -/
def firstPinned (t : Thread) (evs : List PairEvent) : Option Bool :=
  (evs.find? fun ev => ev.thread = t).map PairEvent.pinned

theorem firstPinned_concat (t : Thread) (evs : List PairEvent) (ev : PairEvent) :
    firstPinned t (evs ++ [ev])
      = (firstPinned t evs).or (if ev.thread = t then some ev.pinned else none) := by
  rw [firstPinned, firstPinned, List.find?_append, Option.map_or]
  congr 1
  by_cases heq : ev.thread = t <;> simp [heq]

section Threads

variable {L : Type*} {start : L} {round : L → Round L} {mine pinned : Bool}
  {sh sh' : SharedState} {pc pc' : ThreadPc L} {kind : StepKind} {first : Option Bool} {n : ℕ}

/-- What a thread knows of its pinning, from where it is. -/
def Pinning (first : Option Bool) : ThreadPc L → Prop
  | .affinity => first = none
  | .storeAbort => first = some false
  | .arrive | .wait | .loadAbort | .loop _ | .returned _ => first.isSome = true

/-- A thread that could not be pinned has said so. -/
def Said (first : Option Bool) : ThreadPc L → Prop
  | .affinity | .storeAbort => False
  | .arrive | .wait | .loadAbort | .loop _ | .returned _ => first = some false

/-- **One step** of a thread. The other one may have said something before. -/
theorem pinning_step (h : threadStep start round mine pinned sh pc = some ⟨pc', sh', kind⟩)
    (hat : Pinning first pc) : Pinning (first.or (some pinned)) pc' ∧
      ∀ other : Prop, (sh.abort = true ↔ Said first pc ∨ other) →
        (sh'.abort = true ↔ Said (first.or (some pinned)) pc' ∨ other) := by
  cases pc with
  | affinity =>
    obtain rfl : first = none := hat
    cases pinned <;> cases h
    · exact ⟨rfl, fun _ h => h⟩
    · refine ⟨rfl, fun other h => h.trans (or_congr_left ?_)⟩
      exact iff_of_false id nofun
  | storeAbort =>
    obtain rfl : first = some false := hat
    cases h
    exact ⟨rfl, fun other _ => iff_of_true rfl (Or.inl rfl)⟩
  | arrive | wait | loadAbort | loop | returned =>
    obtain ⟨b, rfl⟩ := Option.isSome_iff_exists.mp hat
    cases threadStep_cases h <;> exact ⟨rfl, fun _ h => h⟩

end Threads

/-- `abort` is what the threads have said. -/
structure AbortInv (evs : List PairEvent) (s : PairState) : Prop where
  pong : Pinning (firstPinned .pong evs) s.pong
  ping : Pinning (firstPinned .ping evs) s.ping
  abort : s.shared.abort = true ↔
    Said (firstPinned .pong evs) s.pong ∨ Said (firstPinned .ping evs) s.ping

theorem abortInv_of_run (h : PairRun config evs s) : AbortInv evs s := by
  induction h with
  | nil => exact ⟨rfl, rfl, iff_of_false Bool.false_ne_true fun h => h.elim id id⟩
  | @snoc evs s u ev _ hstep ih =>
    obtain ⟨kind, hnext⟩ := hstep
    obtain ⟨thread, pinned⟩ := ev
    cases thread with
    | pong =>
      obtain ⟨⟨pc, sh, _⟩, hout, heq⟩ := Option.map_eq_some_iff.mp hnext
      obtain ⟨rfl, rfl⟩ := Prod.mk.inj heq
      obtain ⟨hpinning, habort⟩ := pinning_step hout ih.pong
      have hpong : firstPinned .pong (evs ++ [⟨.pong, pinned⟩])
        = (firstPinned .pong evs).or (some pinned) := firstPinned_concat _ _ _
      have hping : firstPinned .ping (evs ++ [⟨.pong, pinned⟩]) = firstPinned .ping evs :=
        (firstPinned_concat _ _ _).trans (Option.or_none)
      refine ⟨?_, ?_, ?_⟩
      · rw [hpong]
        exact hpinning
      · rw [hping]
        exact ih.ping
      · rw [hpong, hping]
        exact habort _ ih.abort
    | ping =>
      obtain ⟨⟨pc, sh, _⟩, hout, heq⟩ := Option.map_eq_some_iff.mp hnext
      obtain ⟨rfl, rfl⟩ := Prod.mk.inj heq
      obtain ⟨hpinning, habort⟩ := pinning_step hout ih.ping
      have hping : firstPinned .ping (evs ++ [⟨.ping, pinned⟩])
        = (firstPinned .ping evs).or (some pinned) := firstPinned_concat _ _ _
      have hpong : firstPinned .pong (evs ++ [⟨.ping, pinned⟩]) = firstPinned .pong evs :=
        (firstPinned_concat _ _ _).trans (Option.or_none)
      refine ⟨?_, ?_, ?_⟩
      · rw [hpong]
        exact ih.pong
      · rw [hping]
        exact hpinning
      · rw [hpong, hping, or_comm]
        exact habort _ (ih.abort.trans or_comm)

/-- What every state of `measure_pair` has. -/
theorem exists_pairInv_of_run (h : PairRun config evs s) : ∃ m, PairInv config m s := by
  refine Run.invariant (I := fun s => ∃ m, PairInv config m s) ?_ h ⟨_, pairInv_init config⟩
  rintro s ev s' ⟨m, hinv⟩ ⟨kind, hstep⟩
  rcases pairInv_next hinv hstep with ⟨-, rfl⟩ | ⟨m', -, hinv'⟩
  · exact ⟨m, hinv⟩
  · exact ⟨m', hinv'⟩

theorem exists_of_isReturned {L : Type*} {pc : ThreadPc L} (h : pc.isReturned) :
    ∃ measured, pc = .returned measured := by
  cases pc with
  | returned measured => exact ⟨measured, rfl⟩
  | affinity | storeAbort | arrive | wait | loadAbort | loop => exact h.elim

/-- A thread that has returned was pinned or not, and says so. -/
theorem said_of_returned {L : Type*} {first : Option Bool} {pc : ThreadPc L} {measured : Bool}
    (hpc : pc = .returned measured) (h : Pinning first pc) :
    Said first pc ↔ ¬ first = some true := by
  subst hpc
  obtain ⟨b, rfl⟩ := Option.isSome_iff_exists.mp h
  cases b <;> simp [Said]

/-- **What is returned.** When both threads have returned, both have a measurement if both could be
pinned, and none has otherwise; and each has set the flag once for each trip, or not at all. -/
theorem measure_pair_result (h : PairRun config evs s) (hreturned : ∀ t, s.Returned t) :
    ∃ measured : Bool, s.pong = .returned measured ∧ s.ping = .returned measured ∧
      (measured = true ↔ ∀ t, firstPinned t evs = some true) ∧
      s.pongs = (if measured then config.exchanges else 0) ∧ s.pings = s.pongs := by
  obtain ⟨m, hinv⟩ := exists_pairInv_of_run h
  have habort := abortInv_of_run h
  obtain ⟨measured, hpong⟩ := exists_of_isReturned (hreturned .pong)
  obtain ⟨measured', hping⟩ := exists_of_isReturned (hreturned .ping)
  have hdecided : s.shared.abort = !measured :=
    hinv.met.decided measured (Or.inl (congrArg ThreadPc.decision hpong))
  have hdecided' : s.shared.abort = !measured' :=
    hinv.met.decided measured' (Or.inr (congrArg ThreadPc.decision hping))
  obtain rfl : measured = measured' := Bool.not_inj (hdecided.symm.trans hdecided')
  have hsaid : measured = false ↔
      ¬ firstPinned .pong evs = some true ∨ ¬ firstPinned .ping evs = some true := by
    rw [← said_of_returned hpong habort.pong, ← said_of_returned hping habort.ping, ← habort.abort,
      hdecided, Bool.not_eq_true']
  obtain ⟨_, _, hpongs, hpings, -⟩ := hinv.progressed
  rw [hpong] at hpongs
  rw [hping] at hpings
  refine ⟨measured, hpong, hping, ?_, hpongs.1, hpings.1.trans hpongs.1.symm⟩
  rw [← Bool.not_eq_false, hsaid, not_or, not_not, not_not]
  constructor
  · rintro ⟨hp, hq⟩ t
    cases t with
    | pong => exact hp
    | ping => exact hq
  · exact fun hall => ⟨hall .pong, hall .ping⟩

/-- A list of steps that can all be taken is a run. -/
theorem run_of_foldlM
    (h : evs.foldlM (fun s ev => (s.next config ev).map Prod.fst) s = some s') :
    Run (PairStep config) s evs s' := by
  induction evs generalizing s with
  | nil =>
    obtain rfl := Option.some.inj h
    exact .nil
  | cons ev evs ih =>
    obtain ⟨u, hstep, hrest⟩ := Option.bind_eq_some_iff.mp h
    obtain ⟨⟨_, kind⟩, hnext, rfl⟩ := Option.map_eq_some_iff.mp hstep
    exact (Run.single_iff.mpr ⟨kind, hnext⟩).append (ih hrest)

/-- Both threads can be pinned, take turns, and have one trip of warmup behind them: PING is about
to read the clock. -/
def warmRun : List PairEvent := (List.replicate 6 [⟨.pong, true⟩, ⟨.ping, true⟩]).flatten

/-- One round trip. -/
def tripRun : List PairEvent := [⟨.pong, true⟩, ⟨.ping, true⟩]

/-- The rest. -/
def lastRun : List PairEvent := [⟨.pong, true⟩, ⟨.ping, true⟩, ⟨.ping, true⟩]

/-- They return a measurement, after two exchanges each. -/
theorem lastRun_result : ∃ s, PairRun shortConfig (warmRun ++ tripRun ++ lastRun) s ∧
    s.ping = .returned true ∧ s.pings = 2 := by
  obtain ⟨s, hrun, hreturned⟩ : ∃ s, PairRun shortConfig (warmRun ++ tripRun ++ lastRun) s ∧
      ∀ t, s.Returned t := ⟨_, run_of_foldlM rfl, fun t => by cases t <;> trivial⟩
  obtain ⟨measured, -, hping, hiff, hpongs, hpings⟩ := measure_pair_result hrun hreturned
  obtain rfl : measured = true := hiff.mpr fun t => by cases t <;> rfl
  exact ⟨s, hrun, hping, hpings.trans hpongs⟩

/-! ### Round trips -/

/-- The exchanges of PING, from where it is in its loops. -/
def PingAt (config : EtdConfig) : ThreadPc PingLoop → ℕ → Prop
  | .loop (.warmup i), n => i ≤ config.warmup ∧ n = i
  | .loop (.sample j i), n => (j < config.samples ∨ j = config.samples ∧ i = 0) ∧
      i ≤ config.iterations ∧ n = config.warmup + j * config.iterations + i
  | .returned true, n => n = config.exchanges
  | .affinity, n | .storeAbort, n | .arrive, n | .wait, n | .loadAbort, n | .returned false, n =>
    n = 0

theorem ThreadStep.pingAt {sh sh' : SharedState} {pc pc' : ThreadPc PingLoop} {kind : StepKind}
    {n : ℕ} (h : ThreadStep (.warmup 0) (pingRound config) Imperator.ping sh pc pc' sh' kind)
    (hat : PingAt config pc n) : PingAt config pc' (n + kind.exchanges) := by
  cases h with
  | pinned | unpinned | aborting | arrived | released | aborted | spun => exact hat
  | started =>
    obtain rfl : n = 0 := hat
    exact ⟨Nat.zero_le _, rfl⟩
  | @exchanged l next hround =>
    cases l with
    | warmup i =>
      obtain ⟨-, rfl⟩ := hat
      rw [pingRound] at hround
      split at hround
      · next hlt =>
        cases hround
        exact ⟨hlt, rfl⟩
      · cases hround
    | sample j i =>
      obtain ⟨-, -, rfl⟩ := hat
      rw [pingRound] at hround
      split at hround
      · next hj' =>
        split at hround
        · next hlt =>
          cases hround
          exact ⟨Or.inl hj', hlt, rfl⟩
        · cases hround
      · cases hround
  | @worked l next hround =>
    cases l with
    | warmup i =>
      obtain ⟨hi, rfl⟩ := hat
      rw [pingRound] at hround
      split at hround
      · cases hround
      · cases hround
        refine ⟨(Nat.eq_zero_or_pos config.samples).symm.imp_right fun h => ⟨h.symm, rfl⟩,
          Nat.zero_le _, ?_⟩
        show n = config.warmup + 0 * config.iterations + 0
        omega
    | sample j i =>
      obtain ⟨-, hi, rfl⟩ := hat
      rw [pingRound] at hround
      split at hround
      · next hj =>
        split at hround
        · cases hround
        · cases hround
          refine ⟨(Nat.lt_or_eq_of_le hj).imp_right fun h => ⟨h, rfl⟩, Nat.zero_le _, ?_⟩
          show config.warmup + j * config.iterations + i
            = config.warmup + (j + 1) * config.iterations + 0
          rw [Nat.succ_mul]
          omega
      · cases hround
  | @left l hround =>
    cases l with
    | warmup i =>
      rw [pingRound] at hround
      split at hround <;> cases hround
    | sample j i =>
      obtain ⟨hj, -, rfl⟩ := hat
      rw [pingRound] at hround
      split at hround
      · split at hround <;> cases hround
      · next hge =>
        obtain ⟨rfl, rfl⟩ := hj.resolve_left hge
        show config.warmup + config.samples * config.iterations + 0 = config.exchanges
        rw [EtdConfig.exchanges, Nat.mul_comm config.iterations, Nat.add_zero]

theorem pingAt_of_run (h : PairRun config evs s) : PingAt config s.ping s.pings := by
  have hinit : PingAt config PairState.init.ping PairState.init.pings := rfl
  refine Run.invariant (I := fun s => PingAt config s.ping s.pings) ?_ h hinit
  rintro s ⟨thread, pinned⟩ s' hat ⟨kind, hnext⟩
  cases thread with
  | pong =>
    obtain ⟨out, hout, heq⟩ := Option.map_eq_some_iff.mp hnext
    obtain ⟨rfl, -⟩ := Prod.mk.inj heq
    exact hat
  | ping =>
    obtain ⟨⟨pc, sh, _⟩, hout, heq⟩ := Option.map_eq_some_iff.mp hnext
    obtain ⟨rfl, rfl⟩ := Prod.mk.inj heq
    exact (threadStep_cases hout).pingAt hat

/-- PONG is level or one ahead. -/
theorem pongs_of_run (h : PairRun config evs s) : s.pings ≤ s.pongs ∧ s.pongs ≤ s.pings + 1 := by
  obtain ⟨m, hinv⟩ := exists_pairInv_of_run h
  have hle := Bool.toNat_le s.shared.flag
  have hflag := hinv.flag
  omega

/-- **What is measured.** Between a reading of the clock before the round trips of a sample and one
after them, whenever exactly they are taken, PING sets the flag once for each round trip, and PONG
as often, or once more, or once less. -/
theorem sample_hops {j : ℕ} (hu : PairRun config evs u) (huv : Run (PairStep config) u evs' v)
    (hbefore : u.ping = .loop (.sample j 0))
    (hafter : v.ping = .loop (.sample j config.iterations)) :
    v.pings = u.pings + config.iterations ∧ v.pongs ≤ u.pongs + config.iterations + 1 ∧
      u.pongs + config.iterations ≤ v.pongs + 1 := by
  have hv : PairRun config (evs ++ evs') v := hu.append huv
  have hat := pingAt_of_run hu
  have hat' := pingAt_of_run hv
  rw [hbefore] at hat
  rw [hafter] at hat'
  have hpings : v.pings = u.pings + config.iterations := by
    rw [hat.2.2, hat'.2.2]
    rfl
  have hpongs := pongs_of_run hu
  have hpongs' := pongs_of_run hv
  omega

/-- The sample of one round trip is two hops, or one more. -/
theorem tripRun_hops : ∃ u v, PairRun shortConfig warmRun u ∧
    Run (PairStep shortConfig) u tripRun v ∧ v.pings = u.pings + 1 ∧ v.pongs ≤ u.pongs + 2 := by
  obtain ⟨u, v, hu, hv, hbefore, hafter⟩ : ∃ u v, PairRun shortConfig warmRun u ∧
      Run (PairStep shortConfig) u tripRun v ∧ u.ping = .loop (.sample 0 0) ∧
        v.ping = .loop (.sample 0 shortConfig.iterations) :=
    ⟨_, _, run_of_foldlM rfl, run_of_foldlM rfl, rfl, rfl⟩
  have hhops := sample_hops hu hv hbefore hafter
  exact ⟨u, v, hu, hv, hhops.1, hhops.2.1⟩

end Imperator
