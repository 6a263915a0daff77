import Imperator.ForMathlib.LoopNest
import Imperator.ForMathlib.Transition

/-!
# Two threads and a flag

The latency between two CPUs is measured by two threads, each pinned to one of them, that set a flag
back and forth. A thread that cannot be pinned says so, both meet at a barrier, and if one of them
has said so, both return. Otherwise each goes through its loops, and in the innermost body waits
until the flag has the other value and sets it to its own. The threads run at the highest real-time
priority, so one that waited forever would take its CPU with it.

Neither waits forever. What was said before the barrier is said before either looks, so both look at
the same. From then on the flag tells whose turn it is, and since it starts with the turn of PONG,
PONG is never behind and never more than one ahead. The loops of PONG are a warmup and one counted
loop, those of PING a warmup and a loop of samples with the round trips inside, but they go through
the body equally often. A thread that still has to set the flag after the other one has left is one
that finds it set by the other.

## Main definitions

* `threadStep`, `PairState.next` — the steps of one thread, and of both
* `pongRound`, `pingRound` — the loops
* `PairInv` — what every state has, with the number of steps left
* `NeverStuck`

## Main results

* `pairInv_next` — one step
* `advances_of_pairInv` — some thread can go on
* `measure_pair_never_stuck` — every state of every run
-/

namespace Imperator

open LoopNest Transition

/-! ### The loops -/

/-- `PING`, the value of the flag that PONG waits for. -/
def ping : Bool := false

/-- `PONG` -/
def pong : Bool := true

/-- `EtdConfig`, as far as `measure_pair` reads it. The product of two of them is taken as `usize`,
where it fits. -/
structure EtdConfig where
  iterations : ℕ
  samples : ℕ
  warmup : ℕ

/-- Where the PONG thread is in its loops. -/
inductive PongLoop
  | warmup (trips : ℕ)
  | measure (trips : ℕ)

/-- Where the PING thread is in its loops. -/
inductive PingLoop
  | warmup (trips : ℕ)
  | sample (samples trips : ℕ)

/-- The loops of PONG: `warmup_trips`, then `num_round_trips * num_samples`. -/
def pongRound (config : EtdConfig) : PongLoop → Round PongLoop
  | .warmup i => if i < config.warmup then .exchange (.warmup (i + 1)) else .work (.measure 0)
  | .measure i => if i < config.iterations * config.samples then .exchange (.measure (i + 1))
    else .leave

/-- The loops of PING: `warmup_trips`, then `num_samples` times `num_round_trips`. The time is taken
before and after the inner loop. -/
def pingRound (config : EtdConfig) : PingLoop → Round PingLoop
  | .warmup i => if i < config.warmup then .exchange (.warmup (i + 1)) else .work (.sample 0 0)
  | .sample j i =>
    if j < config.samples then
      if i < config.iterations then .exchange (.sample j (i + 1)) else .work (.sample (j + 1) 0)
    else .leave

/-! ### The steps of a thread -/

/-- Where a thread is. -/
inductive ThreadPc (L : Type*)
  /-- `set_for_current` -/
  | affinity
  /-- storing to `abort` -/
  | storeAbort
  /-- `barrier.wait()`, to be counted -/
  | arrive
  /-- `barrier.wait()`, to be released -/
  | wait
  /-- loading `abort` -/
  | loadAbort
  | loop (l : L)
  /-- the end, with a measurement or without -/
  | returned (measured : Bool)

/-- `SharedState`. Of the barrier it is the number of threads that have come to it. -/
structure SharedState where
  arrived : ℕ
  flag : Bool
  abort : Bool

/-- A round of the innermost loop sets the flag, or it spins. -/
inductive StepKind
  | plain
  | exchange
  | spin
  deriving DecidableEq

/-- What a step does to the thread and to the shared state. -/
structure Stepped (L : Type*) where
  pc : ThreadPc L
  shared : SharedState
  kind : StepKind

/-- One atomic step of a thread that sets the flag to `mine`; there is none while it is held at the
barrier, and after the end. `pinned` says whether `set_for_current` succeeds. -/
def threadStep {L : Type*} (start : L) (round : L → Round L) (mine pinned : Bool)
    (sh : SharedState) : ThreadPc L → Option (Stepped L)
  | .affinity => some ⟨if pinned then .arrive else .storeAbort, sh, .plain⟩
  | .storeAbort => some ⟨.arrive, { sh with abort := true }, .plain⟩
  | .arrive => some ⟨.wait, { sh with arrived := sh.arrived + 1 }, .plain⟩
  | .wait => if sh.arrived = 2 then some ⟨.loadAbort, sh, .plain⟩ else none
  | .loadAbort => some ⟨if sh.abort then .returned false else .loop start, sh, .plain⟩
  | .loop l =>
    match round l with
    | .exchange next =>
      -- `compare_exchange` from the other value
      if sh.flag = !mine then some ⟨.loop next, { sh with flag := mine }, .exchange⟩
      else some ⟨.loop l, sh, .spin⟩
    | .work next => some ⟨.loop next, sh, .plain⟩
    | .leave => some ⟨.returned true, sh, .plain⟩
  | .returned _ => none

/-! ### Both threads -/

inductive Thread
  | pong
  | ping
  deriving DecidableEq

/-- The two threads, what they share, and how often each has set the flag. -/
structure PairState where
  pong : ThreadPc PongLoop
  ping : ThreadPc PingLoop
  shared : SharedState
  pongs : ℕ
  pings : ℕ

/-- Which thread takes a step, and whether it can be pinned. -/
structure PairEvent where
  thread : Thread
  pinned : Bool

/-- The exchanges of a step. -/
def StepKind.exchanges : StepKind → ℕ
  | .exchange => 1
  | .plain | .spin => 0

/-- A step of the PONG thread. -/
def pongStep (config : EtdConfig) (pinned : Bool) (s : PairState) : Option (PairState × StepKind) :=
  (threadStep (.warmup 0) (pongRound config) pong pinned s.shared s.pong).map fun out =>
    ({ s with
        pong := out.pc
        shared := out.shared
        pongs := s.pongs + out.kind.exchanges }, out.kind)

/-- A step of the PING thread. -/
def pingStep (config : EtdConfig) (pinned : Bool) (s : PairState) : Option (PairState × StepKind) :=
  (threadStep (.warmup 0) (pingRound config) ping pinned s.shared s.ping).map fun out =>
    ({ s with
        ping := out.pc
        shared := out.shared
        pings := s.pings + out.kind.exchanges }, out.kind)

/-- A step of `measure_pair`. -/
def PairState.next (config : EtdConfig) (s : PairState) (ev : PairEvent) :
    Option (PairState × StepKind) :=
  match ev.thread with
  | .pong => pongStep config ev.pinned s
  | .ping => pingStep config ev.pinned s

/-- `measure_pair` when both threads are spawned. -/
def PairState.init : PairState := ⟨.affinity, .affinity, ⟨0, Imperator.ping, false⟩, 0, 0⟩

/-- Any thread may take the next step. -/
def PairStep (config : EtdConfig) (s : PairState) (ev : PairEvent) (s' : PairState) : Prop :=
  ∃ kind, s.next config ev = some (s', kind)

/-- The interleavings. -/
def PairRun (config : EtdConfig) (evs : List PairEvent) (s : PairState) : Prop :=
  Run (PairStep config) PairState.init evs s

/-- The thread has returned. -/
def ThreadPc.isReturned {L : Type*} : ThreadPc L → Prop
  | .returned _ => True
  | _ => False

/-- Whether the thread measures, once it has looked at `abort`. -/
def ThreadPc.decision {L : Type*} : ThreadPc L → Option Bool
  | .loop _ => some true
  | .returned measured => some measured
  | _ => none

def PairState.Returned (s : PairState) : Thread → Prop
  | .pong => s.pong.isReturned
  | .ping => s.ping.isReturned

/-- The thread has a step that is not a spin, whatever comes of pinning it. -/
def PairState.Advances (config : EtdConfig) (s : PairState) (t : Thread) : Prop :=
  ∀ pinned, ∃ s' kind, s.next config ⟨t, pinned⟩ = some (s', kind) ∧ kind ≠ .spin

/-- What keeps the threads from waiting for each other forever. -/
structure NeverStuck (config : EtdConfig) (s : PairState) : Prop where
  /-- both measure, or none does -/
  sameDecision : ∀ b b', s.pong.decision = some b → s.ping.decision = some b' → b = b'
  /-- PONG is level or one ahead -/
  balanced : s.pongs = s.pings ∨ s.pongs = s.pings + 1
  /-- unless both have returned, one that has not can go on -/
  progress : (∃ t, ¬ s.Returned t) → ∃ t, ¬ s.Returned t ∧ s.Advances config t
  /-- and if one has returned, that is the other one -/
  unstranded : ∀ t t', s.Returned t → ¬ s.Returned t' → s.Advances config t'
  /-- the threads can always be brought to their end -/
  completes : ∃ evs s', Run (PairStep config) s evs s' ∧ ∀ t, s'.Returned t

/-! ### One thread -/

section Threads

variable {L M : Type*} {start l next : L} {round : L → Round L} {mine pinned : Bool}
  {sh sh' : SharedState} {pc pc' : ThreadPc L} {qc : ThreadPc M} {kind : StepKind} {n r k m : ℕ}

/-- What a step can do. -/
inductive ThreadStep (start : L) (round : L → Round L) (mine : Bool) (sh : SharedState) :
    ThreadPc L → ThreadPc L → SharedState → StepKind → Prop
  | pinned : ThreadStep start round mine sh .affinity .arrive sh .plain
  | unpinned : ThreadStep start round mine sh .affinity .storeAbort sh .plain
  | aborting : ThreadStep start round mine sh .storeAbort .arrive { sh with abort := true } .plain
  | arrived :
      ThreadStep start round mine sh .arrive .wait { sh with arrived := sh.arrived + 1 } .plain
  | released : sh.arrived = 2 → ThreadStep start round mine sh .wait .loadAbort sh .plain
  | aborted : sh.abort = true →
      ThreadStep start round mine sh .loadAbort (.returned false) sh .plain
  | started : sh.abort = false → ThreadStep start round mine sh .loadAbort (.loop start) sh .plain
  | exchanged {l next : L} : round l = .exchange next → sh.flag = !mine →
      ThreadStep start round mine sh (.loop l) (.loop next) { sh with flag := mine } .exchange
  | spun {l : L} : ThreadStep start round mine sh (.loop l) (.loop l) sh .spin
  | worked {l next : L} : round l = .work next →
      ThreadStep start round mine sh (.loop l) (.loop next) sh .plain
  | left {l : L} : round l = .leave →
      ThreadStep start round mine sh (.loop l) (.returned true) sh .plain

theorem threadStep_cases (h : threadStep start round mine pinned sh pc = some ⟨pc', sh', kind⟩) :
    ThreadStep start round mine sh pc pc' sh' kind := by
  cases pc with
  | affinity =>
    cases pinned <;> cases h
    · exact .unpinned
    · exact .pinned
  | storeAbort => cases h; exact .aborting
  | arrive => cases h; exact .arrived
  | wait =>
    rw [threadStep] at h
    split at h
    · next htwo => cases h; exact .released htwo
    · cases h
  | loadAbort =>
    rw [threadStep] at h
    cases habort : sh.abort with
    | true => rw [habort] at h; cases h; exact .aborted habort
    | false => rw [habort] at h; cases h; exact .started habort
  | loop l =>
    rw [threadStep] at h
    cases hround : round l with
    | exchange next =>
      rw [hround] at h
      dsimp only at h
      split at h
      · next hturn => cases h; exact .exchanged hround hturn
      · cases h; exact .spun
    | work next => rw [hround] at h; cases h; exact .worked hround
    | leave => rw [hround] at h; cases h; exact .left hround
  | returned b => cases h

/-- The thread has been counted at the barrier. -/
def ThreadPc.hasArrived : ThreadPc L → ℕ
  | .affinity | .storeAbort | .arrive => 0
  | .wait | .loadAbort | .loop _ | .returned _ => 1

/-- The thread has been released from the barrier. -/
def ThreadPc.isReleased : ThreadPc L → Prop
  | .affinity | .storeAbort | .arrive | .wait => False
  | .loadAbort | .loop _ | .returned _ => True

/-- `Progressed round n r pc k m`: of the `n` exchanges in `r` steps that its loops are, the thread
has done `k`, and it returns in `m` steps. -/
def Progressed (round : L → Round L) (n r : ℕ) : ThreadPc L → ℕ → ℕ → Prop
  | .affinity, k, m => k = 0 ∧ m = r + 5
  | .storeAbort, k, m => k = 0 ∧ m = r + 4
  | .arrive, k, m => k = 0 ∧ m = r + 3
  | .wait, k, m => k = 0 ∧ m = r + 2
  | .loadAbort, k, m => k = 0 ∧ m = r + 1
  | .loop l, k, m => ∃ rest, Left round l rest m ∧ k + rest = n
  | .returned measured, k, m => k = (if measured then n else 0) ∧ m = 0

/-- A step that is not a spin brings the thread nearer to its end. -/
theorem ThreadStep.progressed (h : ThreadStep start round mine sh pc pc' sh' kind)
    (hstart : Left round start n r) (hat : Progressed round n r pc k m) :
    (kind = .spin ∧ pc' = pc ∧ sh' = sh) ∨
      ∃ m' < m, Progressed round n r pc' (k + kind.exchanges) m' := by
  cases h with
  | spun => exact Or.inl ⟨rfl, rfl, rfl⟩
  | pinned | unpinned | aborting | arrived | released | aborted =>
    obtain ⟨rfl, rfl⟩ := hat
    exact Or.inr ⟨_, by omega, rfl, rfl⟩
  | started =>
    obtain ⟨rfl, rfl⟩ := hat
    exact Or.inr ⟨r, Nat.lt_succ_self r, n, hstart, Nat.zero_add n⟩
  | exchanged hround =>
    obtain ⟨rest, hleft, rfl⟩ := hat
    obtain ⟨rest, m, rfl, rfl, hnext⟩ := hleft.of_exchange hround
    exact Or.inr ⟨m, Nat.lt_succ_self m, rest, hnext, Nat.add_right_comm k 1 rest⟩
  | worked hround =>
    obtain ⟨rest, hleft, rfl⟩ := hat
    obtain ⟨m, rfl, hnext⟩ := hleft.of_work hround
    exact Or.inr ⟨m, Nat.lt_succ_self m, rest, hnext, rfl⟩
  | left hround =>
    obtain ⟨rest, hleft, rfl⟩ := hat
    obtain ⟨rfl, rfl⟩ := hleft.of_leave hround
    exact Or.inr ⟨0, Nat.one_pos, rfl, rfl⟩

/-- What holds between two threads and the barrier: a thread is released when both have come, and
then both see the same in `abort`. -/
structure Met (sh : SharedState) (pc : ThreadPc L) (qc : ThreadPc M) : Prop where
  arrived : sh.arrived = pc.hasArrived + qc.hasArrived
  released : pc.isReleased ∨ qc.isReleased → sh.arrived = 2
  decided : ∀ b, pc.decision = some b ∨ qc.decision = some b → sh.abort = !b

theorem Met.symm (h : Met sh pc qc) : Met sh qc pc where
  arrived := h.arrived.trans (Nat.add_comm _ _)
  released := fun hor => h.released hor.symm
  decided := fun b hor => h.decided b hor.symm

theorem ThreadPc.hasArrived_le (qc : ThreadPc M) : qc.hasArrived ≤ 1 := by
  cases qc <;> simp [ThreadPc.hasArrived]

theorem ThreadPc.isReleased_of_decision {b : Bool} (h : qc.decision = some b) : qc.isReleased := by
  cases qc with
  | loop | returned => trivial
  | affinity | storeAbort | arrive | wait | loadAbort => cases h

/-- As long as one thread has not come to the barrier, the other one is held there. -/
theorem Met.not_isReleased (h : Met sh pc qc) (hpc : pc.hasArrived = 0) : ¬ qc.isReleased := by
  intro hreleased
  have htwo := h.released (Or.inr hreleased)
  have hcount := h.arrived
  have hle := qc.hasArrived_le
  omega

/-- A step of one of the threads keeps it. -/
theorem ThreadStep.met (h : ThreadStep start round mine sh pc pc' sh' kind) (hmet : Met sh pc qc) :
    Met sh' pc' qc := by
  cases h with
  | pinned | unpinned | exchanged | worked | left =>
    exact ⟨hmet.arrived, hmet.released, hmet.decided⟩
  | spun => exact hmet
  | aborting =>
    refine ⟨hmet.arrived, hmet.released, fun b hb => ?_⟩
    rcases hb with hb | hb
    · cases hb
    · exact absurd (ThreadPc.isReleased_of_decision hb) (hmet.not_isReleased rfl)
  | arrived =>
    refine ⟨?_, fun hreleased => ?_, hmet.decided⟩
    · show sh.arrived + 1 = 1 + qc.hasArrived
      rw [hmet.arrived, Nat.add_comm]
      exact congrArg (1 + ·) (Nat.zero_add _)
    · exact absurd (hreleased.resolve_left id) (hmet.not_isReleased rfl)
  | released htwo => exact ⟨hmet.arrived, fun _ => htwo, hmet.decided⟩
  | aborted habort =>
    refine ⟨hmet.arrived, fun _ => hmet.released (Or.inl trivial), fun b hb => ?_⟩
    rcases hb with hb | hb
    · obtain rfl := Option.some.inj hb
      exact habort
    · exact hmet.decided b (Or.inr hb)
  | started habort =>
    refine ⟨hmet.arrived, fun _ => hmet.released (Or.inl trivial), fun b hb => ?_⟩
    rcases hb with hb | hb
    · obtain rfl := Option.some.inj hb
      exact habort
    · exact hmet.decided b (Or.inr hb)

/-- The flag changes with an exchange, and with nothing else. -/
theorem ThreadStep.flag (h : ThreadStep start round mine sh pc pc' sh' kind) :
    (kind.exchanges = 1 ∧ sh.flag = (!mine) ∧ sh'.flag = mine) ∨
      (kind.exchanges = 0 ∧ sh'.flag = sh.flag) := by
  cases h with
  | exchanged _ hturn => exact Or.inl ⟨rfl, hturn, rfl⟩
  | pinned | unpinned | aborting | arrived | released | aborted | started | spun | worked | left =>
    exact Or.inr ⟨rfl, rfl⟩

/-- A thread that has returned has no step. -/
theorem not_isReturned_of_threadStep {out : Stepped L}
    (h : threadStep start round mine pinned sh pc = some out) : ¬ pc.isReturned := by
  cases pc with
  | returned => cases h
  | affinity | storeAbort | arrive | wait | loadAbort | loop => exact id

/-- What may keep a thread from going on. -/
inductive Held (round : L → Round L) (mine : Bool) (sh : SharedState) : ThreadPc L → Prop
  | barrier : sh.arrived ≠ 2 → Held round mine sh .wait
  | spinning {l next : L} : round l = .exchange next → sh.flag = mine →
      Held round mine sh (.loop l)
  | returned {measured : Bool} : Held round mine sh (.returned measured)

/-- Otherwise its next step is not a spin. -/
theorem threadStep_of_not_held (start : L) (pinned : Bool) (h : ¬ Held round mine sh pc) :
    ∃ out, threadStep start round mine pinned sh pc = some out ∧ out.kind ≠ .spin := by
  cases pc with
  | affinity | storeAbort | arrive | loadAbort => exact ⟨_, rfl, StepKind.noConfusion⟩
  | wait =>
    have htwo : sh.arrived = 2 := not_not.mp fun hne => h (.barrier hne)
    exact ⟨_, if_pos htwo, StepKind.noConfusion⟩
  | loop l =>
    rw [threadStep]
    cases hround : round l with
    | exchange next =>
      have hturn : sh.flag = !mine := by
        have hne : sh.flag ≠ mine := fun heq => h (.spinning hround heq)
        cases hflag : sh.flag <;> cases mine <;> simp_all
      exact ⟨_, if_pos hturn, StepKind.noConfusion⟩
    | work next => exact ⟨_, rfl, StepKind.noConfusion⟩
    | leave => exact ⟨_, rfl, StepKind.noConfusion⟩
  | returned measured => exact absurd .returned h

end Threads

/-! ### The number of exchanges -/

namespace EtdConfig

variable (config : EtdConfig)

/-- How often each thread sets the flag. -/
def exchanges : ℕ := config.warmup + config.iterations * config.samples

/-- How many steps the loops of PONG are, if it never spins. -/
def pongSteps : ℕ := config.warmup + (config.iterations * config.samples + 1 + 1)

/-- How many those of PING are. -/
def pingSteps : ℕ := config.warmup + (config.samples * (config.iterations + 1) + 1 + 1)

theorem pong_left : Left (pongRound config) (.warmup 0) config.exchanges config.pongSteps := by
  have hend : Left (pongRound config) (.measure (config.iterations * config.samples)) 0 1 :=
    .leave (if_neg (lt_irrefl _))
  have hmeasure := Left.count PongLoop.measure (fun i hi => if_pos hi) hend (Nat.zero_le _)
  have hwarm : Left (pongRound config) (.warmup config.warmup) _ _ :=
    .work (if_neg (lt_irrefl _)) hmeasure
  exact Left.count PongLoop.warmup (fun i hi => if_pos hi) hwarm (Nat.zero_le _)

theorem ping_left : Left (pingRound config) (.warmup 0) config.exchanges config.pingSteps := by
  have hend : Left (pingRound config) (.sample config.samples 0) 0 1 :=
    .leave (if_neg (lt_irrefl _))
  have hbody : ∀ j < config.samples, ∀ i < config.iterations,
      pingRound config (.sample j i) = .exchange (.sample j (i + 1)) := by
    intro j hj i hi
    rw [pingRound, if_pos hj, if_pos hi]
  have hpass : ∀ j < config.samples,
      pingRound config (.sample j config.iterations) = .work (.sample (j + 1) 0) := by
    intro j hj
    rw [pingRound, if_pos hj, if_neg (lt_irrefl _)]
  have hsamples := Left.nest PingLoop.sample hbody hpass hend (Nat.zero_le _)
  have hwarm : Left (pingRound config) (.warmup config.warmup) _ _ :=
    .work (if_neg (lt_irrefl _)) hsamples
  have hall := Left.count PingLoop.warmup (fun i hi => if_pos hi) hwarm (Nat.zero_le _)
  rw [exchanges, pingSteps, Nat.mul_comm config.iterations]
  exact hall

end EtdConfig

/-! ### Both threads -/

variable {config : EtdConfig} {s s' : PairState} {ev : PairEvent} {kind : StepKind} {m : ℕ}
  {evs : List PairEvent}

/-- What every state has. In `m` steps that are not spins both threads have returned. -/
structure PairInv (config : EtdConfig) (m : ℕ) (s : PairState) : Prop where
  met : Met s.shared s.pong s.ping
  flag : s.pongs = s.pings + s.shared.flag.toNat
  progressed : ∃ mpong mping,
    Progressed (pongRound config) config.exchanges config.pongSteps s.pong s.pongs mpong ∧
      Progressed (pingRound config) config.exchanges config.pingSteps s.ping s.pings mping ∧
        mpong + mping = m

theorem pairInv_init (config : EtdConfig) :
    PairInv config (config.pongSteps + 5 + (config.pingSteps + 5)) PairState.init where
  met := ⟨rfl, fun h => h.elim False.elim False.elim, fun _ h => by rcases h with h | h <;> cases h⟩
  flag := rfl
  progressed := ⟨_, _, ⟨rfl, rfl⟩, ⟨rfl, rfl⟩, rfl⟩

theorem pairInv_pongStep {pinned : Bool} (hinv : PairInv config m s)
    (h : pongStep config pinned s = some (s', kind)) :
    (kind = .spin ∧ s' = s) ∨ ∃ m' < m, PairInv config m' s' := by
  obtain ⟨⟨pc, sh, _⟩, hout, heq⟩ := Option.map_eq_some_iff.mp h
  obtain ⟨rfl, rfl⟩ := Prod.mk.inj heq
  have hstep := threadStep_cases hout
  obtain ⟨mpong, mping, hpong, hping, rfl⟩ := hinv.progressed
  rcases hstep.progressed config.pong_left hpong with ⟨rfl, rfl, rfl⟩ | ⟨m', hlt, hpong'⟩
  · exact Or.inl ⟨rfl, rfl⟩
  · refine Or.inr ⟨m' + mping, Nat.add_lt_add_right hlt _, hstep.met hinv.met, ?_, m', mping,
      hpong', hping, rfl⟩
    have hflag := hinv.flag
    rcases hstep.flag with ⟨hkind, hturn, hset⟩ | ⟨hkind, hkept⟩
    · -- it was PONG's turn, the threads were level, and PONG is one ahead now
      rw [hturn] at hflag
      rw [hkind, hset, hflag]
      rfl
    · rw [hkind, hkept]
      exact hflag

theorem pairInv_pingStep {pinned : Bool} (hinv : PairInv config m s)
    (h : pingStep config pinned s = some (s', kind)) :
    (kind = .spin ∧ s' = s) ∨ ∃ m' < m, PairInv config m' s' := by
  obtain ⟨⟨pc, sh, _⟩, hout, heq⟩ := Option.map_eq_some_iff.mp h
  obtain ⟨rfl, rfl⟩ := Prod.mk.inj heq
  have hstep := threadStep_cases hout
  obtain ⟨mpong, mping, hpong, hping, rfl⟩ := hinv.progressed
  rcases hstep.progressed config.ping_left hping with ⟨rfl, rfl, rfl⟩ | ⟨m', hlt, hping'⟩
  · exact Or.inl ⟨rfl, rfl⟩
  · refine Or.inr ⟨mpong + m', Nat.add_lt_add_left hlt _, (hstep.met hinv.met.symm).symm, ?_, mpong,
      m', hpong, hping', rfl⟩
    have hflag := hinv.flag
    rcases hstep.flag with ⟨hkind, hturn, hset⟩ | ⟨hkind, hkept⟩
    · -- it was PING's turn, PONG was one ahead, and the threads are level now
      rw [hturn] at hflag
      rw [hkind, hset, hflag]
      rfl
    · rw [hkind, hkept]
      exact hflag

/-- **One step** is a spin, or brings the threads nearer to their end. -/
theorem pairInv_next (hinv : PairInv config m s) (h : s.next config ev = some (s', kind)) :
    (kind = .spin ∧ s' = s) ∨ ∃ m' < m, PairInv config m' s' := by
  obtain ⟨thread, pinned⟩ := ev
  cases thread with
  | pong => exact pairInv_pongStep hinv h
  | ping => exact pairInv_pingStep hinv h

/-- **The threads do not hold each other up.** If none can go on, both have returned. -/
theorem returned_of_held (hinv : PairInv config m s)
    (hpong : Held (pongRound config) pong s.shared s.pong)
    (hping : Held (pingRound config) ping s.shared s.ping) : ∀ t, s.Returned t := by
  obtain ⟨pongPc, pingPc, sh, pongs, pings⟩ := s
  obtain ⟨hmet, hflag, _, _, hpongs, hpings, -⟩ := hinv
  dsimp only at hmet hflag hpongs hpings hpong hping
  cases hpong with
  | barrier hcount =>
    cases hping with
    | barrier => exact absurd hmet.arrived hcount
    | spinning | returned => exact absurd (hmet.released (Or.inr trivial)) hcount
  | spinning hround hturn =>
    cases hping with
    | barrier hcount => exact absurd (hmet.released (Or.inl trivial)) hcount
    | spinning _ hturn' =>
      rw [hturn] at hturn'
      cases hturn'
    | @returned measured =>
      -- PING has measured to the end, and PONG is one ahead, so PONG has no round left
      have hsame := (hmet.decided true (Or.inl rfl)).symm.trans (hmet.decided measured (Or.inr rfl))
      obtain rfl : true = measured := Bool.not_inj hsame
      obtain ⟨rest, hleft, hrest⟩ := hpongs
      obtain ⟨rest, -, rfl, -, -⟩ := hleft.of_exchange hround
      rw [hpings.1, hturn] at hflag
      have hahead : pongs = config.exchanges + 1 := hflag
      omega
  | @returned measured =>
    cases hping with
    | barrier hcount => exact absurd (hmet.released (Or.inl trivial)) hcount
    | spinning hround hturn =>
      -- PONG has measured to the end, and PING is level with it, so PING has no round left
      have hsame := (hmet.decided measured (Or.inl rfl)).symm.trans (hmet.decided true (Or.inr rfl))
      obtain rfl : measured = true := Bool.not_inj hsame
      obtain ⟨rest, hleft, hrest⟩ := hpings
      obtain ⟨rest, -, rfl, -, -⟩ := hleft.of_exchange hround
      rw [hpongs.1, hturn] at hflag
      have hlevel : config.exchanges = pings := hflag
      omega
    | returned => exact fun t => by cases t <;> trivial

theorem pong_advances (h : ¬ Held (pongRound config) pong s.shared s.pong) :
    s.Advances config .pong := by
  intro pinned
  obtain ⟨out, hout, hkind⟩ := threadStep_of_not_held (.warmup 0) pinned h
  exact ⟨_, out.kind, congrArg (Option.map _) hout, hkind⟩

theorem ping_advances (h : ¬ Held (pingRound config) ping s.shared s.ping) :
    s.Advances config .ping := by
  intro pinned
  obtain ⟨out, hout, hkind⟩ := threadStep_of_not_held (.warmup 0) pinned h
  exact ⟨_, out.kind, congrArg (Option.map _) hout, hkind⟩

theorem not_returned_of_advances {t : Thread} (h : s.Advances config t) : ¬ s.Returned t := by
  obtain ⟨s', kind, hstep, -⟩ := h true
  cases t with
  | pong =>
    obtain ⟨out, hout, -⟩ := Option.map_eq_some_iff.mp hstep
    exact not_isReturned_of_threadStep hout
  | ping =>
    obtain ⟨out, hout, -⟩ := Option.map_eq_some_iff.mp hstep
    exact not_isReturned_of_threadStep hout

/-- **Progress.** -/
theorem advances_of_pairInv (hinv : PairInv config m s) (h : ¬ ∀ t, s.Returned t) :
    ∃ t, s.Advances config t := by
  by_cases hpong : Held (pongRound config) pong s.shared s.pong
  · by_cases hping : Held (pingRound config) ping s.shared s.ping
    · exact absurd (returned_of_held hinv hpong hping) h
    · exact ⟨.ping, ping_advances hping⟩
  · exact ⟨.pong, pong_advances hpong⟩

/-- From every state there is a way to the end. -/
theorem completes_of_pairInv (hinv : PairInv config m s) :
    ∃ evs s', Run (PairStep config) s evs s' ∧ ∀ t, s'.Returned t := by
  refine Run.exists_of_variant (I := PairInv config) (fun m s hinv h => ?_) hinv
  obtain ⟨t, hadvances⟩ := advances_of_pairInv hinv h
  obtain ⟨s', kind, hstep, hkind⟩ := hadvances true
  rcases pairInv_next hinv hstep with ⟨hspin, -⟩ | ⟨m', hlt, hinv'⟩
  · exact absurd hspin hkind
  · exact ⟨⟨t, true⟩, s', m', ⟨kind, hstep⟩, hlt, hinv'⟩

/-- **The measurement never gets stuck.** For all numbers of trips and samples, whatever comes of
pinning the threads and however their steps are interleaved. -/
theorem measure_pair_never_stuck (h : PairRun config evs s) : NeverStuck config s := by
  obtain ⟨m, hinv⟩ : ∃ m, PairInv config m s := by
    refine Run.invariant (I := fun s => ∃ m, PairInv config m s) ?_ h ⟨_, pairInv_init config⟩
    rintro s ev s' ⟨m, hinv⟩ ⟨kind, hstep⟩
    rcases pairInv_next hinv hstep with ⟨-, rfl⟩ | ⟨m', -, hinv'⟩
    · exact ⟨m, hinv⟩
    · exact ⟨m', hinv'⟩
  have hprogress : (∃ t, ¬ s.Returned t) → ∃ t, ¬ s.Returned t ∧ s.Advances config t := by
    rintro ⟨t, ht⟩
    obtain ⟨t', hadvances⟩ := advances_of_pairInv hinv fun hall => ht (hall t)
    exact ⟨t', not_returned_of_advances hadvances, hadvances⟩
  constructor
  · intro b b' hpong hping
    have hsame := (hinv.met.decided b (Or.inl hpong)).symm.trans
      (hinv.met.decided b' (Or.inr hping))
    exact Bool.not_inj hsame
  · rw [hinv.flag]
    cases s.shared.flag with
    | false => exact Or.inl rfl
    | true => exact Or.inr rfl
  · exact hprogress
  · intro t t' ht ht'
    obtain ⟨t'', ht'', hadvances⟩ := hprogress ⟨t', ht'⟩
    obtain rfl : t'' = t' := by
      cases t <;> cases t' <;> cases t'' <;> first | rfl | contradiction
    exact hadvances
  · exact completes_of_pairInv hinv

/-- One sample of one round trip, after one of warmup. -/
def shortConfig : EtdConfig := ⟨1, 1, 1⟩

/-- PONG cannot be pinned, and both threads come to the barrier. -/
def unpinnedRun : List PairEvent :=
  [⟨.pong, false⟩, ⟨.ping, true⟩, ⟨.pong, true⟩, ⟨.ping, true⟩, ⟨.pong, true⟩]

theorem unpinnedRun_ends : ∃ s, PairRun shortConfig unpinnedRun s ∧ ¬ s.Returned .pong :=
  ⟨_, ((((Run.nil.snoc ⟨.plain, rfl⟩).snoc ⟨.plain, rfl⟩).snoc ⟨.plain, rfl⟩).snoc
    ⟨.plain, rfl⟩).snoc ⟨.plain, rfl⟩, id⟩

/-- They are not held there. -/
theorem unpinnedRun_completes : ∃ s, PairRun shortConfig unpinnedRun s ∧
    (∃ t, ¬ s.Returned t ∧ s.Advances shortConfig t) ∧
      ∃ evs s', Run (PairStep shortConfig) s evs s' ∧ ∀ t, s'.Returned t := by
  obtain ⟨s, hrun, hpong⟩ := unpinnedRun_ends
  have hsafe := measure_pair_never_stuck hrun
  exact ⟨s, hrun, hsafe.progress ⟨.pong, hpong⟩, hsafe.completes⟩

end Imperator
