import Imperator.CalibrationThread
import Imperator.ForMathlib.Transition

/-!
# The event loop and the calibration

Two threads share a matrix under a lock and an eventfd. The calibration thread stores its result in
the matrix, gives the lock back, writes to the eventfd and is done. The main thread attaches the
scheduler, shows a splash, and tries once to write the costs of stealing. Then it shows the view, or
it sleeps in `poll` and is woken by a signal, by the eventfd or after a minute, and tries again
where there is reason to.

Nothing forces an order on the two. The main thread may find the lock taken, the matrix in it while
the eventfd is still silent, or the eventfd at a time when it has written the costs long ago. All
that can go wrong is that it reads the eventfd, cannot write the costs then, and is not woken again.
This does not happen, because the thread gives the lock back before it writes to the eventfd.

Each access of a thread to what is shared is one step here. The main thread takes the lock only to
copy the matrix, which is one step as well. What the kernel returns from `poll` is not more than the
descriptors are ready for: `Possible` has the conditions.

## Main definitions

* `EtdState`, `EtdEvent`, `EtdState.next` — the two threads
* `Possible` — which step is possible when
* `Synchronized` — what holds in every state

## Main results

* `synchronized_next` — one step
* `EtdRun.costs` — the costs are nothing or those of the result, and do not change again
* `EtdRun.heard` — the result is not overlooked
* `EtdRun.exits` — why the loop ends
* `EtdRun.view_costs` — with the view there is one chance
-/

namespace Imperator

open Transition

/-! ### The threads -/

/-- Where the calibration thread is. -/
inductive CalibrationPc
  | absent
  | measuring
  /-- it has the lock -/
  | locked
  /-- and has stored the matrix -/
  | stored
  /-- and has given the lock back -/
  | unlocked
  /-- and has written to the eventfd -/
  | done
  deriving DecidableEq, Repr

/-- What `poll` returns. -/
inductive Polled
  | ready
  | timeout
  | eintr
  | error
  deriving DecidableEq, Repr

/-- Why `run` returns. -/
inductive Exit
  | failed
  | viewClosed
  | signal
  | signalError
  | pollError
  | bpfExited
  | interrupted
  | panicked
  deriving DecidableEq, Repr

/-- Where the main thread is in `run`. -/
inductive RunPc
  | starting
  | firstWrite
  /-- in `run_tui` -/
  | view
  /-- blocks the signals and makes the signalfd -/
  | preparing
  | poll
  /-- after a wakeup, at the eventfd -/
  | readEtd
  /-- at the call after eight bytes were read -/
  | write
  | readSignal
  /-- at the call after a timeout -/
  | timedOut
  | checkUei
  | ended (exit : Exit)
  deriving DecidableEq, Repr

/-- What the threads share, with the locals of `run`. -/
structure EtdState where
  latencyMatrix : List (List ℚ)
  llcEtdCost : Llc → Llc → U8
  /-- the value of the eventfd -/
  efd : ℕ
  calibration : CalibrationPc
  pc : RunPc
  etdWritten : Bool
  shutdown : Bool
  /-- SIGINT or SIGTERM is pending -/
  signalPending : Bool
  /-- `uei_exited` -/
  ueiExited : Bool

/-- The steps of the two threads, and what comes from outside. -/
inductive EtdEvent
  | lock
  | store
  | unlock
  | notify
  | signal
  | bpfExit
  /-- attaches the scheduler and shows the splash, with a copy of the matrix -/
  | started (ok : Bool)
  | firstWrite
  | viewClosed
  | prepared (ok : Bool)
  | polled (result : Polled)
  | readEtd
  | write
  | readSignal (ok : Bool)
  | timedOut
  | checkUei
  deriving DecidableEq, Repr

/-- The calibration thread has the lock. -/
def CalibrationPc.holdsLock : CalibrationPc → Bool
  | .locked | .stored => true
  | _ => false

/-- The matrix is that of the thread. -/
def CalibrationPc.hasStored : CalibrationPc → Bool
  | .stored | .unlocked | .done => true
  | _ => false

/-- And can be had. -/
def CalibrationPc.published : CalibrationPc → Bool
  | .unlocked | .done => true
  | _ => false

namespace EtdState

/-- Where `Scheduler::new` leaves off. -/
def init (setup : EtdSetup) : EtdState where
  latencyMatrix := setup.zeroMatrix
  llcEtdCost := fun _ _ => 0
  efd := 0
  calibration := if setup.etdPairs = [] then .absent else .measuring
  pc := .starting
  etdWritten := false
  shutdown := false
  signalPending := false
  ueiExited := false

/-- `etd_written = self.try_write_etd_costs()`, and what comes after. -/
def tryWrite (setup : EtdSetup) (s : EtdState) (pc : RunPc) : EtdState :=
  let matrix := if s.calibration.holdsLock then none else some s.latencyMatrix
  match tryWriteEtdCosts setup.info matrix (some s.llcEtdCost) with
  | none => { s with pc := .ended .panicked }
  | some (written, table) =>
    { s with etdWritten := written, llcEtdCost := table.getD s.llcEtdCost, pc := pc }

/-- `n_fds` -/
def nFds (setup : EtdSetup) (s : EtdState) : ℕ := if s.etdWritten || !setup.hasEfd then 1 else 2

/-- One of the descriptors that are polled is ready. -/
def Ready (setup : EtdSetup) (s : EtdState) : Prop :=
  s.signalPending = true ∨ s.nFds setup = 2 ∧ 0 < s.efd

instance (setup : EtdSetup) (s : EtdState) : Decidable (s.Ready setup) :=
  inferInstanceAs (Decidable (_ ∨ _))

/-- A step. -/
def next (setup : EtdSetup) (s : EtdState) : EtdEvent → EtdState
  | .lock => { s with calibration := .locked }
  | .store => { s with latencyMatrix := setup.result.getD s.latencyMatrix, calibration := .stored }
  | .unlock => { s with calibration := .unlocked }
  | .notify =>
    { s with efd := if setup.hasEfdWrite then s.efd + 1 else s.efd, calibration := .done }
  | .signal => { s with signalPending := true }
  | .bpfExit => { s with ueiExited := true }
  | .started ok => { s with pc := if ok then .firstWrite else .ended .failed }
  | .firstWrite => s.tryWrite setup (if setup.verbose then .view else .preparing)
  | .viewClosed => { s with pc := .ended .viewClosed }
  | .prepared ok => { s with pc := if ok then .poll else .ended .failed }
  | .polled .ready => { s with pc := .readEtd }
  | .polled .timeout => { s with pc := .timedOut }
  | .polled .eintr => { s with pc := if s.shutdown then .ended .interrupted else .poll }
  | .polled .error => { s with pc := .ended .pollError }
  | .readEtd =>
    if !s.etdWritten && setup.hasEfd then
      if 0 < s.efd then { s with efd := 0, pc := .write } else { s with pc := .readSignal }
    else { s with pc := .readSignal }
  | .write => s.tryWrite setup .readSignal
  | .readSignal ok =>
    if ok then
      if s.signalPending then
        { s with signalPending := false, shutdown := true, pc := .ended .signal }
      else { s with pc := .poll }
    else { s with pc := .ended .signalError }
  | .timedOut => if !s.etdWritten then s.tryWrite setup .checkUei else { s with pc := .checkUei }
  | .checkUei => { s with pc := if s.ueiExited then .ended .bpfExited else .poll }

end EtdState

/-- When a step is possible. The thread does not get to the lock if it has panicked, and the lock is
what the splash waits for. -/
def Possible (setup : EtdSetup) (s : EtdState) : EtdEvent → Prop
  | .lock => s.calibration = .measuring ∧ setup.result.isSome
  | .store => s.calibration = .locked
  | .unlock => s.calibration = .stored
  | .notify => s.calibration = .unlocked
  | .signal | .bpfExit => True
  | .started ok => s.pc = .starting ∧ (ok = true → s.calibration.holdsLock = false)
  | .firstWrite => s.pc = .firstWrite
  | .viewClosed => s.pc = .view
  | .prepared _ => s.pc = .preparing
  | .polled .ready => s.pc = .poll ∧ s.Ready setup
  | .polled .timeout => s.pc = .poll ∧ ¬ s.Ready setup
  | .polled .eintr | .polled .error => s.pc = .poll
  | .readEtd => s.pc = .readEtd
  | .write => s.pc = .write
  | .readSignal _ => s.pc = .readSignal
  | .timedOut => s.pc = .timedOut
  | .checkUei => s.pc = .checkUei

instance (setup : EtdSetup) (s : EtdState) : DecidablePred (Possible setup s)
  | .lock | .started _ | .polled .ready | .polled .timeout => inferInstanceAs (Decidable (_ ∧ _))
  | .signal | .bpfExit => inferInstanceAs (Decidable True)
  | .store | .unlock | .notify | .firstWrite | .viewClosed | .prepared _ | .polled .eintr
  | .polled .error | .readEtd | .write | .readSignal _ | .timedOut | .checkUei =>
    inferInstanceAs (Decidable (_ = _))

/-- One step. -/
def EtdStep (setup : EtdSetup) : EtdState → EtdEvent → EtdState → Prop :=
  Guarded (ofNext (EtdState.next setup)) (Possible setup)

/-- The runs of the two threads, in any order. -/
def EtdRun (setup : EtdSetup) (evs : List EtdEvent) (s : EtdState) : Prop :=
  Run (EtdStep setup) (EtdState.init setup) evs s

variable {setup : EtdSetup} {s s' : EtdState} {ev : EtdEvent} {evs evs' : List EtdEvent}
  {pc : RunPc}

/-! ### What holds in every state -/

/-- What the main thread knows where it is. It does not come to the last two exits. -/
def EtdState.InPlace (setup : EtdSetup) (s : EtdState) : Prop :=
  match s.pc with
  | .starting | .firstWrite => s.shutdown = false ∧ s.etdWritten = false
  | .readEtd => s.shutdown = false ∧
      (s.signalPending = true ∨ s.etdWritten = false ∧ setup.hasEfd = true ∧ 0 < s.efd)
  | .write => s.shutdown = false ∧ s.etdWritten = false ∧ s.calibration = .done
  | .readSignal => s.shutdown = false ∧ (s.signalPending = true ∨ s.etdWritten = true)
  | .ended .signal => True
  | .ended .interrupted | .ended .panicked => False
  | _ => s.shutdown = false

/-- The matrix is zero or the result, and the costs nothing or those of the result. A thread that is
done has been heard, or will be. -/
structure Synchronized (setup : EtdSetup) (s : EtdState) : Prop where
  pairs : s.calibration ≠ .absent → setup.etdPairs ≠ []
  result : s.calibration = .locked → setup.result.isSome
  matrix : if s.calibration.hasStored then setup.result = some s.latencyMatrix
    else s.latencyMatrix = setup.zeroMatrix
  efd : 0 < s.efd → s.calibration = .done
  heard : s.calibration = .done → setup.hasEfdWrite = true →
    s.etdWritten = true ∨ 0 < s.efd ∨ s.pc = .write
  costs : s.llcEtdCost = if s.etdWritten then setup.costs else fun _ _ => 0
  published : s.etdWritten = true → s.calibration.published = true
  place : s.InPlace setup

theorem synchronized_init (setup : EtdSetup) : Synchronized setup (EtdState.init setup) where
  pairs := fun h hnil => h (if_pos hnil)
  result := fun h => by
    rw [EtdState.init] at h
    split at h <;> cases h
  matrix := by
    rw [EtdState.init]
    split <;> rfl
  efd := fun h => absurd h (Nat.lt_irrefl 0)
  heard := fun h => by
    rw [EtdState.init] at h
    split at h <;> cases h
  costs := rfl
  published := nofun
  place := ⟨rfl, rfl⟩

/-- Nothing the main thread relies on is taken away by others. -/
theorem EtdState.InPlace.mono (h : s.InPlace setup) (hpc : s'.pc = s.pc)
    (hshutdown : s'.shutdown = s.shutdown) (hwritten : s'.etdWritten = s.etdWritten)
    (hsignal : s.signalPending = true → s'.signalPending = true) (hefd : 0 < s.efd → 0 < s'.efd)
    (hdone : s.calibration = .done → s'.calibration = .done) : s'.InPlace setup := by
  rw [InPlace] at h ⊢
  rw [hpc, hshutdown, hwritten]
  cases hs : s.pc with
  | readEtd =>
    rw [hs] at h
    exact ⟨h.1, h.2.imp hsignal fun h => ⟨h.1, h.2.1, hefd h.2.2⟩⟩
  | write =>
    rw [hs] at h
    exact ⟨h.1, h.2.1, hdone h.2.2⟩
  | readSignal =>
    rw [hs] at h
    exact ⟨h.1, h.2.imp_left hsignal⟩
  | ended exit =>
    rw [hs] at h
    cases exit <;> exact h
  | starting | firstWrite | view | preparing | poll | timedOut | checkUei =>
    rw [hs] at h
    exact h

/-- A call that finds the matrix writes the costs, and any other one does nothing. It does not
panic. -/
theorem tryWrite_eq (h : Synchronized setup s) (hwritten : s.etdWritten = false) :
    s.tryWrite setup pc = if s.calibration.published then
      { s with etdWritten := true, llcEtdCost := setup.costs, pc := pc }
    else { s with pc := pc } := by
  have hcosts := h.costs
  rw [hwritten, if_neg Bool.false_ne_true] at hcosts
  have hmatrix := h.matrix
  have hcall : tryWriteEtdCosts setup.info
      (if s.calibration.holdsLock then none else some s.latencyMatrix) (some s.llcEtdCost)
      = some (s.calibration.published,
          some (if s.calibration.published then setup.costs else s.llcEtdCost)) := by
    cases hs : s.calibration with
    | absent | measuring =>
      rw [hs] at hmatrix
      rw [show s.latencyMatrix = setup.zeroMatrix from hmatrix]
      exact EtdSetup.tryWriteEtdCosts_zeroMatrix setup _
    | locked | stored => rfl
    | unlocked | done =>
      rw [hs] at hmatrix
      rw [hcosts]
      exact EtdSetup.tryWriteEtdCosts_result (h.pairs (by rw [hs]; exact nofun)) hmatrix
  rw [EtdState.tryWrite, hcall]
  cases s.calibration.published with
  | true => rfl
  | false => rw [if_neg Bool.false_ne_true, if_neg Bool.false_ne_true, ← hwritten]; rfl

/-- The step of the thread that takes it further. -/
theorem synchronized_calibration {c : CalibrationPc} {matrix : List (List ℚ)} {efd : ℕ}
    (h : Synchronized setup s) (hpairs : setup.etdPairs ≠ [])
    (hresult : c = .locked → setup.result.isSome)
    (hmatrix : if c.hasStored then setup.result = some matrix else matrix = setup.zeroMatrix)
    (hdone : s.calibration = .done → c = .done) (hle : s.efd ≤ efd) (hefd : 0 < efd → c = .done)
    (hheard : c = .done → setup.hasEfdWrite = true → 0 < efd)
    (hpublished : s.calibration.published = true → c.published = true) :
    Synchronized setup { s with latencyMatrix := matrix, efd := efd, calibration := c } where
  pairs := fun _ => hpairs
  result := hresult
  matrix := hmatrix
  efd := hefd
  heard := fun hc hwrite => Or.inr (Or.inl (hheard hc hwrite))
  costs := h.costs
  published := fun hwritten => hpublished (h.published hwritten)
  place := h.place.mono rfl rfl rfl id (fun hpos => hpos.trans_le hle) hdone

/-- The step of the main thread that leaves what is shared alone. -/
theorem synchronized_main (h : Synchronized setup s) {t : EtdState}
    (hmatrix : t.latencyMatrix = s.latencyMatrix) (hcosts : t.llcEtdCost = s.llcEtdCost)
    (hefd : t.efd = s.efd) (hcalibration : t.calibration = s.calibration)
    (hwritten : t.etdWritten = s.etdWritten) (hnot : s.pc ≠ .write) (hplace : t.InPlace setup) :
    Synchronized setup t where
  pairs := by rw [hcalibration]; exact h.pairs
  result := by rw [hcalibration]; exact h.result
  matrix := by rw [hcalibration, hmatrix]; exact h.matrix
  efd := by rw [hcalibration, hefd]; exact h.efd
  heard := by
    rw [hcalibration, hefd, hwritten]
    intro hdone hwrite
    rcases h.heard hdone hwrite with hw | hpos | hpc
    · exact Or.inl hw
    · exact Or.inr (Or.inl hpos)
    · exact absurd hpc hnot
  costs := by rw [hcosts, hwritten]; exact h.costs
  published := by rw [hwritten, hcalibration]; exact h.published
  place := hplace

/-- A call of `try_write_etd_costs`. -/
theorem synchronized_tryWrite (h : Synchronized setup s) (hwritten : s.etdWritten = false)
    (hheard : s.pc = .write → s.calibration.published = true)
    (hplace : EtdState.InPlace setup
      { s with etdWritten := s.calibration.published, llcEtdCost := s.llcEtdCost, pc := pc }) :
    Synchronized setup (s.tryWrite setup pc) := by
  rw [tryWrite_eq h hwritten]
  cases hpub : s.calibration.published with
  | true =>
    rw [hpub] at hplace
    exact ⟨h.pairs, h.result, h.matrix, h.efd, fun _ _ => Or.inl rfl, rfl, fun _ => hpub, hplace⟩
  | false =>
    rw [hpub, ← hwritten] at hplace
    refine synchronized_main h rfl rfl rfl rfl rfl (fun hpc => ?_) hplace
    cases hpub.symm.trans (hheard hpc)

theorem nFds_eq_two_iff :
    s.nFds setup = 2 ↔ s.etdWritten = false ∧ setup.hasEfd = true := by
  rw [EtdState.nFds]
  cases s.etdWritten <;> cases setup.hasEfd <;> decide

/-- A step of the main thread to another place. -/
theorem synchronized_goto {pc₀ : RunPc} (h : Synchronized setup s) (hpc : s.pc = pc₀)
    (hnot : pc₀ ≠ .write) (hplace : EtdState.InPlace setup { s with pc := pc }) :
    Synchronized setup { s with pc := pc } :=
  synchronized_main h rfl rfl rfl rfl rfl (hpc ▸ hnot) hplace

/-! ### A step of the calibration thread -/

theorem synchronized_lock (h : Synchronized setup s) (hpc : s.calibration = .measuring)
    (hresult : setup.result.isSome) : Synchronized setup (s.next setup .lock) := by
  have hmatrix := h.matrix
  rw [hpc] at hmatrix
  refine synchronized_calibration h (h.pairs (by rw [hpc]; exact nofun)) (fun _ => hresult)
    hmatrix (by rw [hpc]; exact nofun) le_rfl (fun hpos => ?_) nofun (by rw [hpc]; exact nofun)
  cases hpc.symm.trans (h.efd hpos)

theorem synchronized_store (h : Synchronized setup s) (hpc : s.calibration = .locked) :
    Synchronized setup (s.next setup .store) := by
  obtain ⟨matrix, hresult⟩ := Option.isSome_iff_exists.mp (h.result hpc)
  refine synchronized_calibration h (h.pairs (by rw [hpc]; exact nofun)) nofun
    ?_ (by rw [hpc]; exact nofun) le_rfl (fun hpos => ?_) nofun (by rw [hpc]; exact nofun)
  · rw [hresult]
    rfl
  · cases hpc.symm.trans (h.efd hpos)

theorem synchronized_unlock (h : Synchronized setup s) (hpc : s.calibration = .stored) :
    Synchronized setup (s.next setup .unlock) := by
  have hmatrix := h.matrix
  rw [hpc] at hmatrix
  refine synchronized_calibration h (h.pairs (by rw [hpc]; exact nofun)) nofun
    hmatrix (by rw [hpc]; exact nofun) le_rfl (fun hpos => ?_) nofun (fun _ => rfl)
  cases hpc.symm.trans (h.efd hpos)

theorem synchronized_notify (h : Synchronized setup s) (hpc : s.calibration = .unlocked) :
    Synchronized setup (s.next setup .notify) := by
  have hmatrix := h.matrix
  rw [hpc] at hmatrix
  refine synchronized_calibration h (h.pairs (by rw [hpc]; exact nofun)) nofun
    hmatrix (fun _ => rfl) ?_ (fun _ => rfl) (fun _ hwrite => ?_) (fun _ => rfl)
  · split
    · exact Nat.le_succ _
    · exact le_rfl
  · rw [if_pos hwrite]
    exact Nat.succ_pos _

/-! ### A step from outside -/

theorem synchronized_signal (h : Synchronized setup s) :
    Synchronized setup (s.next setup .signal) :=
  { h with place := h.place.mono rfl rfl rfl (fun _ => rfl) id id }

theorem synchronized_bpfExit (h : Synchronized setup s) :
    Synchronized setup (s.next setup .bpfExit) :=
  { h with place := h.place.mono rfl rfl rfl id id id }

/-! ### A step of the main thread -/

theorem synchronized_started {ok : Bool} (h : Synchronized setup s) (hpc : s.pc = .starting) :
    Synchronized setup (s.next setup (.started ok)) := by
  have hplace := h.place
  rw [EtdState.InPlace, hpc] at hplace
  refine synchronized_goto h hpc nofun ?_
  cases ok with
  | true => exact hplace
  | false => exact hplace.1

theorem synchronized_firstWrite (h : Synchronized setup s) (hpc : s.pc = .firstWrite) :
    Synchronized setup (s.next setup .firstWrite) := by
  have hplace := h.place
  rw [EtdState.InPlace, hpc] at hplace
  refine synchronized_tryWrite h hplace.2 (by rw [hpc]; exact nofun) ?_
  split
  · exact hplace.1
  · exact hplace.1

theorem synchronized_prepared {ok : Bool} (h : Synchronized setup s) (hpc : s.pc = .preparing) :
    Synchronized setup (s.next setup (.prepared ok)) := by
  have hplace := h.place
  rw [EtdState.InPlace, hpc] at hplace
  refine synchronized_goto h hpc nofun ?_
  cases ok <;> exact hplace

theorem synchronized_polled {r : Polled} (h : Synchronized setup s)
    (hev : Possible setup s (.polled r)) : Synchronized setup (s.next setup (.polled r)) := by
  have hpc : s.pc = .poll := by
    cases r with
    | ready | timeout => exact hev.1
    | eintr | error => exact hev
  have hplace := h.place
  rw [EtdState.InPlace, hpc] at hplace
  cases r with
  | ready =>
    refine synchronized_goto h hpc nofun ⟨hplace, ?_⟩
    exact hev.2.imp_right fun hefd => ⟨(nFds_eq_two_iff.mp hefd.1).1,
      (nFds_eq_two_iff.mp hefd.1).2, hefd.2⟩
  | timeout | error => exact synchronized_goto h hpc nofun hplace
  | eintr =>
    refine synchronized_goto h hpc nofun ?_
    rw [if_neg (by rw [show s.shutdown = false from hplace]; exact Bool.false_ne_true)]
    exact hplace

theorem synchronized_readEtd (h : Synchronized setup s) (hpc : s.pc = .readEtd) :
    Synchronized setup (s.next setup .readEtd) := by
  have hplace := h.place
  rw [EtdState.InPlace, hpc] at hplace
  rw [EtdState.next]
  split
  · next hasks =>
    obtain ⟨hwritten, hfd⟩ := Bool.and_eq_true_iff.mp hasks
    have hwritten : s.etdWritten = false := by simpa using hwritten
    split
    · next hpos =>
      -- it will be heard at the call that comes now
      exact { h with
        efd := fun h => absurd h (Nat.lt_irrefl 0)
        heard := fun _ _ => Or.inr (Or.inr rfl)
        place := ⟨hplace.1, hwritten, h.efd hpos⟩ }
    · next hzero =>
      exact synchronized_goto h hpc nofun
        ⟨hplace.1, Or.inl (hplace.2.resolve_right fun hefd => hzero hefd.2.2)⟩
  · next hasks =>
    refine synchronized_goto h hpc nofun
      ⟨hplace.1, Or.inl (hplace.2.resolve_right fun hefd => hasks ?_)⟩
    rw [hefd.1, hefd.2.1]
    rfl

theorem synchronized_write (h : Synchronized setup s) (hpc : s.pc = .write) :
    Synchronized setup (s.next setup .write) := by
  have hplace := h.place
  rw [EtdState.InPlace, hpc] at hplace
  obtain ⟨hshutdown, hwritten, hdone⟩ := hplace
  have hpub : s.calibration.published = true := by rw [hdone]; rfl
  exact synchronized_tryWrite h hwritten (fun _ => hpub) ⟨hshutdown, Or.inr hpub⟩

theorem synchronized_readSignal {ok : Bool} (h : Synchronized setup s)
    (hpc : s.pc = .readSignal) : Synchronized setup (s.next setup (.readSignal ok)) := by
  have hplace := h.place
  rw [EtdState.InPlace, hpc] at hplace
  cases ok with
  | true =>
    rw [EtdState.next, if_pos rfl]
    split
    · exact synchronized_main h rfl rfl rfl rfl rfl (by rw [hpc]; exact nofun) trivial
    · exact synchronized_goto h hpc nofun hplace.1
  | false => exact synchronized_goto h hpc nofun hplace.1

theorem synchronized_timedOut (h : Synchronized setup s) (hpc : s.pc = .timedOut) :
    Synchronized setup (s.next setup .timedOut) := by
  have hplace := h.place
  rw [EtdState.InPlace, hpc] at hplace
  rw [EtdState.next]
  split
  · next hwritten =>
    exact synchronized_tryWrite h (by simpa using hwritten) (by rw [hpc]; exact nofun) hplace
  · exact synchronized_goto h hpc nofun hplace

theorem synchronized_checkUei (h : Synchronized setup s) (hpc : s.pc = .checkUei) :
    Synchronized setup (s.next setup .checkUei) := by
  have hplace := h.place
  rw [EtdState.InPlace, hpc] at hplace
  refine synchronized_goto h hpc nofun ?_
  split <;> exact hplace

/-! ### Any step -/

/-- **One step**, of either thread or from outside. -/
theorem synchronized_next (h : Synchronized setup s) (hev : Possible setup s ev) :
    Synchronized setup (s.next setup ev) := by
  cases ev with
  | lock => exact synchronized_lock h hev.1 hev.2
  | store => exact synchronized_store h hev
  | unlock => exact synchronized_unlock h hev
  | notify => exact synchronized_notify h hev
  | signal => exact synchronized_signal h
  | bpfExit => exact synchronized_bpfExit h
  | started ok => exact synchronized_started h hev.1
  | firstWrite => exact synchronized_firstWrite h hev
  | viewClosed =>
    have hplace := h.place
    rw [EtdState.InPlace, show s.pc = .view from hev] at hplace
    exact synchronized_goto h hev nofun hplace
  | prepared ok => exact synchronized_prepared h hev
  | polled r => exact synchronized_polled h hev
  | readEtd => exact synchronized_readEtd h hev
  | write => exact synchronized_write h hev
  | readSignal ok => exact synchronized_readSignal h hev
  | timedOut => exact synchronized_timedOut h hev
  | checkUei => exact synchronized_checkUei h hev

theorem synchronized_of_run (h : EtdRun setup evs s) : Synchronized setup s := by
  refine Run.invariant ?_ h (synchronized_init setup)
  rintro s ev _ hs ⟨hev, rfl⟩
  exact synchronized_next hs hev

/-! ### The costs -/

/-- Two LLCs, whose pairs cannot be measured. -/
def twoLlcsSetup : EtdSetup := ⟨dualCcd, false, false, true, true, fun _ => none⟩

/-- The thread ends while the loop starts. -/
def endsEarly : List EtdEvent :=
  [.started true, .firstWrite, .prepared true, .lock, .store, .unlock, .notify]

def endsEarlyEnd : EtdState :=
  endsEarly.foldl (EtdState.next twoLlcsSetup) (EtdState.init twoLlcsSetup)

theorem endsEarly_run : EtdRun twoLlcsSetup endsEarly endsEarlyEnd :=
  Run.foldl_of_admits (by decide +kernel)

/-- From there the loop is woken and comes back. -/
def wokenUp : List EtdEvent := [.readEtd, .write, .readSignal true]

def wokenUpEnd : EtdState :=
  wokenUp.foldl (EtdState.next twoLlcsSetup) (endsEarlyEnd.next twoLlcsSetup (.polled .ready))

theorem wokenUp_run : Run (EtdStep twoLlcsSetup)
    (endsEarlyEnd.next twoLlcsSetup (.polled .ready)) wokenUp wokenUpEnd :=
  Run.foldl_of_admits (by decide +kernel)

theorem wokenUp_etdRun :
    EtdRun twoLlcsSetup (endsEarly ++ .polled .ready :: wokenUp) wokenUpEnd :=
  Run.foldl_of_admits (by decide +kernel)

/-- Written costs stay. -/
theorem written_next (h : Synchronized setup s) (hev : Possible setup s ev)
    (hwritten : s.etdWritten = true) : (s.next setup ev).etdWritten = true := by
  have hplace := h.place
  rw [EtdState.InPlace] at hplace
  cases ev with
  | firstWrite | write =>
    rw [show s.pc = _ from hev] at hplace
    simp [hwritten] at hplace
  | timedOut =>
    rw [EtdState.next, hwritten]
    rfl
  | readEtd =>
    rw [EtdState.next, hwritten]
    rfl
  | readSignal ok =>
    rw [EtdState.next]
    split
    · split <;> exact hwritten
    · exact hwritten
  | polled r => cases r <;> exact hwritten
  | lock | store | unlock | notify | signal | bpfExit | started | viewClosed | prepared
  | checkUei => exact hwritten

theorem written_of_run (h : EtdRun setup evs s) (hrun : Run (EtdStep setup) s evs' s')
    (hwritten : s.etdWritten = true) : s'.etdWritten = true := by
  have hs := synchronized_of_run h
  refine (Run.invariant (I := fun t => Synchronized setup t ∧ t.etdWritten = true) ?_ hrun
    ⟨hs, hwritten⟩).2
  rintro t ev _ ⟨ht, hwritten⟩ ⟨hev, rfl⟩
  exact ⟨synchronized_next ht hev, written_next ht hev hwritten⟩

/-- **What the costs are.** In every state of every run they are all zero, or they are the costs of
the matrix the calibration has ended with. In the second case they are so from then on. -/
theorem EtdRun.costs (h : EtdRun setup evs s) (hrun : Run (EtdStep setup) s evs' s') :
    (s.etdWritten = false → s.llcEtdCost = fun _ _ => 0) ∧
      (s.etdWritten = true → s'.llcEtdCost = s.llcEtdCost ∧
        ∃ matrix, setup.result = some matrix ∧ EtdCosts setup.info matrix s.llcEtdCost ∧
          ∀ a b, ¬ HasEtdCost setup.info a b → s.llcEtdCost a b = 0) := by
  have hs := synchronized_of_run h
  have hs' := synchronized_of_run (h.append hrun)
  refine ⟨fun hwritten => by rw [hs.costs, hwritten]; rfl, fun hwritten => ?_⟩
  have hcosts : s.llcEtdCost = setup.costs := by rw [hs.costs, hwritten]; rfl
  have hstay : s'.llcEtdCost = setup.costs := by
    rw [hs'.costs, written_of_run h hrun hwritten]
    rfl
  have hstored : s.calibration.hasStored = true := by
    have hpub := hs.published hwritten
    cases hc : s.calibration <;> rw [hc] at hpub <;> first | rfl | cases hpub
  have hmatrix := hs.matrix
  rw [hstored, if_pos rfl] at hmatrix
  rw [hstay, hcosts]
  exact ⟨rfl, _, hmatrix, EtdSetup.etdCosts_costs hmatrix,
    fun _ _ => EtdSetup.costs_of_not_hasEtdCost⟩

/-- They are written. -/
theorem wokenUp_costs : ∃ matrix, twoLlcsSetup.result = some matrix ∧
    EtdCosts twoLlcsSetup.info matrix wokenUpEnd.llcEtdCost := by
  obtain ⟨-, hcosts⟩ := wokenUp_etdRun.costs Run.nil
  obtain ⟨-, matrix, hresult, hmatrix, -⟩ := hcosts (by decide +kernel)
  exact ⟨matrix, hresult, hmatrix⟩

/-! ### Nothing is overlooked -/

/-- What is published stays so. -/
theorem published_next (hev : Possible setup s ev) (hpub : s.calibration.published = true) :
    (s.next setup ev).calibration.published = true := by
  have hsame : ∀ pc, (s.tryWrite setup pc).calibration = s.calibration := fun pc => by
    rw [EtdState.tryWrite]
    split <;> rfl
  cases ev with
  | lock =>
    rw [hev.1] at hpub
    cases hpub
  | store | unlock =>
    rw [show s.calibration = _ from hev] at hpub
    cases hpub
  | notify => rfl
  | firstWrite | write => rw [EtdState.next, hsame]; exact hpub
  | timedOut =>
    rw [EtdState.next]
    split
    · rw [hsame]; exact hpub
    · exact hpub
  | readEtd =>
    rw [EtdState.next]
    split
    · split <;> exact hpub
    · exact hpub
  | readSignal ok =>
    rw [EtdState.next]
    split
    · split <;> exact hpub
    · exact hpub
  | polled r => cases r <;> exact hpub
  | signal | bpfExit | started | viewClosed | prepared | checkUei => exact hpub

/-- The costs are written, or the thread is between a wakeup and the next call of `poll`, at a place
that leads to the costs or out of the loop. -/
def EtdState.Settles (s : EtdState) : Prop :=
  s.etdWritten = true ∨ match s.pc with
    | .readEtd | .write | .readSignal | .timedOut | .ended _ => True
    | _ => False

theorem settles_next (h : Synchronized setup s) (hpub : s.calibration.published = true)
    (hsettles : s.Settles) (hev : Possible setup s ev) : (s.next setup ev).Settles := by
  rcases hsettles with hwritten | hpc
  · exact Or.inl (written_next h hev hwritten)
  cases hwritten : s.etdWritten with
  | true => exact Or.inl (written_next h hev hwritten)
  | false =>
    have hplace := h.place
    rw [EtdState.InPlace] at hplace
    have hwrites : ∀ pc, (s.tryWrite setup pc).Settles := fun pc => by
      rw [tryWrite_eq h hwritten, hpub, if_pos rfl]
      exact Or.inl rfl
    cases ev with
    | lock | store | unlock | notify | signal | bpfExit => exact Or.inr hpc
    | firstWrite | write => exact hwrites _
    | timedOut =>
      rw [EtdState.next, hwritten]
      exact hwrites _
    | readEtd =>
      rw [EtdState.next]
      split
      · split <;> exact Or.inr trivial
      · exact Or.inr trivial
    | readSignal ok =>
      rw [show s.pc = .readSignal from hev] at hplace
      have hsignal : s.signalPending = true :=
        hplace.2.resolve_right (by rw [hwritten]; exact Bool.false_ne_true)
      rw [EtdState.next, hsignal]
      cases ok <;> exact Or.inr trivial
    | polled r =>
      exfalso
      cases r with
      | ready | timeout => rw [hev.1] at hpc; exact hpc
      | eintr | error => rw [show s.pc = _ from hev] at hpc; exact hpc
    | started ok => rw [hev.1] at hpc; exact hpc.elim
    | viewClosed | prepared | checkUei =>
      rw [show s.pc = _ from hev] at hpc
      exact hpc.elim

/-- **The result is not overlooked.** Once the matrix is published, any return of `poll` that is not
an interruption leads to the costs or out of the loop: whenever the loop is at `poll` again, they
are written. If the thread can write to the eventfd, not even one minute passes in vain: `poll` does
not time out before they are. -/
theorem EtdRun.heard {r : Polled} (h : EtdRun setup evs s) (hpub : s.calibration.published = true)
    (hev : Possible setup s (.polled r)) (hr : r ≠ .eintr)
    (hrun : Run (EtdStep setup) (s.next setup (.polled r)) evs' s') (hpoll : s'.pc = .poll) :
    s'.etdWritten = true ∧ (r = .timeout → s.calibration = .done → setup.hasEfdWrite = true →
      s.etdWritten = true) := by
  have hs := synchronized_of_run h
  have hstart : (s.next setup (.polled r)).Settles := by
    cases r with
    | ready | timeout | error => exact Or.inr trivial
    | eintr => exact absurd rfl hr
  constructor
  · have hend := Run.invariant (I := fun t => Synchronized setup t ∧
        t.calibration.published = true ∧ t.Settles) ?_ hrun
      ⟨synchronized_next hs hev, published_next hev hpub, hstart⟩
    · rcases hend.2.2 with hwritten | hpc
      · exact hwritten
      · rw [hpoll] at hpc
        exact hpc.elim
    · rintro t ev _ ⟨ht, hpub, hsettles⟩ ⟨hev, rfl⟩
      exact ⟨synchronized_next ht hev, published_next hev hpub, settles_next ht hpub hsettles hev⟩
  · rintro rfl hdone hwrite
    rcases hs.heard hdone hwrite with hwritten | hefd | hpc
    · exact hwritten
    · by_contra hunwritten
      have hfd : setup.hasEfd = true := (Bool.and_eq_true_iff.mp hwrite).1
      exact hev.2 (Or.inr ⟨nFds_eq_two_iff.mpr ⟨by simpa using hunwritten, hfd⟩, hefd⟩)
    · rw [hev.1] at hpc
      cases hpc

/-- The wakeup by the eventfd leads to the costs. -/
theorem wokenUp_heard : wokenUpEnd.etdWritten = true ∧
    (Polled.ready = .timeout → endsEarlyEnd.calibration = .done →
      twoLlcsSetup.hasEfdWrite = true → endsEarlyEnd.etdWritten = true) :=
  endsEarly_run.heard (by decide +kernel) (by decide +kernel) nofun wokenUp_run (by decide +kernel)

/-! ### The way out -/

/-- What has happened when `run` returns. An interrupted call of `poll` is no reason, because
`shutdown` is only set on the way out. -/
def Exit.Cause (setup : EtdSetup) (evs : List EtdEvent) : Exit → Prop
  | .failed => .started false ∈ evs ∨ .prepared false ∈ evs
  | .viewClosed => setup.verbose = true ∧ .viewClosed ∈ evs
  | .signal => .signal ∈ evs
  | .signalError => .readSignal false ∈ evs
  | .pollError => .polled .error ∈ evs
  | .bpfExited => .bpfExit ∈ evs
  | .interrupted | .panicked => False

/-- A return of `poll` that leads out of the loop. -/
def EtdState.Leads (s : EtdState) : Polled → Prop
  | .ready => s.signalPending = true
  | .timeout => s.ueiExited = true
  | .error => True
  | .eintr => False

/-- The main thread is on its way out, or has a reason to go there. -/
def EtdState.Leaving (s : EtdState) : Prop :=
  match s.pc with
  | .readEtd | .write | .readSignal => s.signalPending = true
  | .timedOut | .checkUei => s.ueiExited = true
  | .ended _ => True
  | _ => False

theorem Exit.Cause.mono {e : Exit} (h : e.Cause setup evs) (hsub : evs ⊆ evs') :
    e.Cause setup evs' := by
  cases e with
  | failed => exact h.imp (fun h => hsub h) fun h => hsub h
  | viewClosed => exact h.imp_right fun h => hsub h
  | signal | signalError | pollError | bpfExited => exact hsub h
  | interrupted | panicked => exact h

/-- Everything has its cause in the past. -/
structure Explained (setup : EtdSetup) (evs : List EtdEvent) (s : EtdState) : Prop where
  signal : s.signalPending = true → .signal ∈ evs
  bpfExit : s.ueiExited = true → .bpfExit ∈ evs
  view : s.pc = .view → setup.verbose = true
  exit : ∀ e, s.pc = .ended e → e.Cause setup evs

/-- A step to another place of `run`. -/
theorem Explained.move (h : Explained setup evs s)
    (hsignal : s'.signalPending = true → s.signalPending = true)
    (huei : s'.ueiExited = true → s.ueiExited = true)
    (hview : s'.pc = .view → setup.verbose = true)
    (hexit : ∀ e, s'.pc = .ended e → e.Cause setup (evs ++ [ev])) :
    Explained setup (evs ++ [ev]) s' where
  signal := fun hs => List.mem_append_left _ (h.signal (hsignal hs))
  bpfExit := fun hs => List.mem_append_left _ (h.bpfExit (huei hs))
  view := hview
  exit := hexit

theorem tryWrite_cases (h : Synchronized setup s) (hwritten : s.etdWritten = false) (pc : RunPc) :
    (s.tryWrite setup pc).pc = pc ∧ (s.tryWrite setup pc).signalPending = s.signalPending ∧
      (s.tryWrite setup pc).ueiExited = s.ueiExited := by
  rw [tryWrite_eq h hwritten]
  split <;> exact ⟨rfl, rfl, rfl⟩

/-- A step to a place in the loop has nothing to explain. -/
theorem Explained.inside (h : Explained setup evs s) (hpc : s'.pc = pc)
    (hview : pc = .view → setup.verbose = true) (hne : ∀ e, pc ≠ .ended e)
    (hsignal : s'.signalPending = true → s.signalPending = true)
    (huei : s'.ueiExited = true → s.ueiExited = true) :
    Explained setup (evs ++ [ev]) s' := by
  subst hpc
  exact h.move hsignal huei hview fun e he => absurd he (hne e)

/-- A step out of the loop has a cause. -/
theorem Explained.leave {e : Exit} (h : Explained setup evs s) (hpc : s'.pc = .ended e)
    (hsignal : s'.signalPending = true → s.signalPending = true)
    (huei : s'.ueiExited = true → s.ueiExited = true) (hcause : e.Cause setup (evs ++ [ev])) :
    Explained setup (evs ++ [ev]) s' := by
  refine h.move hsignal huei (fun hview => ?_) fun e' he => ?_
  · cases hpc.symm.trans hview
  · cases hpc.symm.trans he
    exact hcause

/-- A call of `try_write_etd_costs` stays in the loop. -/
theorem Explained.tryWrite (h : Explained setup evs s) (hs : Synchronized setup s)
    (hwritten : s.etdWritten = false) (hview : pc = .view → setup.verbose = true)
    (hne : ∀ e, pc ≠ .ended e) : Explained setup (evs ++ [ev]) (s.tryWrite setup pc) := by
  obtain ⟨hpc, hsignal, huei⟩ := tryWrite_cases hs hwritten pc
  exact h.inside hpc hview hne (fun hp => hsignal ▸ hp) fun hp => huei ▸ hp

theorem explained_firstWrite (hs : Synchronized setup s) (h : Explained setup evs s)
    (hpc : s.pc = .firstWrite) : Explained setup (evs ++ [ev]) (s.next setup .firstWrite) := by
  have hplace := hs.place
  rw [EtdState.InPlace, hpc] at hplace
  refine h.tryWrite hs hplace.2 (fun hview => ?_) (fun e => ?_)
  · by_contra hverbose
    rw [if_neg hverbose] at hview
    cases hview
  · split <;> exact nofun

theorem explained_polled {r : Polled} (hs : Synchronized setup s) (h : Explained setup evs s)
    (hev : Possible setup s (.polled r)) :
    Explained setup (evs ++ [.polled r]) (s.next setup (.polled r)) := by
  cases r with
  | ready | timeout => exact h.inside rfl nofun nofun id id
  | eintr =>
    have hplace := hs.place
    rw [EtdState.InPlace, show s.pc = .poll from hev] at hplace
    have hpoll : (s.next setup (.polled .eintr)).pc = .poll :=
      if_neg (by rw [show s.shutdown = false from hplace]; exact Bool.false_ne_true)
    exact h.inside hpoll nofun nofun id id
  | error => exact h.leave rfl id id (List.mem_append_right _ (List.mem_singleton_self _))

theorem explained_readSignal {ok : Bool} (h : Explained setup evs s) :
    Explained setup (evs ++ [.readSignal ok]) (s.next setup (.readSignal ok)) := by
  cases ok with
  | true =>
    rw [EtdState.next, if_pos rfl]
    split
    · next hpending =>
      exact h.leave rfl (fun _ => hpending) id (List.mem_append_left _ (h.signal hpending))
    · exact h.inside rfl nofun nofun id id
  | false => exact h.leave rfl id id (List.mem_append_right _ (List.mem_singleton_self _))

theorem explained_checkUei (h : Explained setup evs s) :
    Explained setup (evs ++ [ev]) (s.next setup .checkUei) := by
  rw [EtdState.next]
  cases huei : s.ueiExited with
  | true => exact h.leave rfl id (fun _ => huei) (List.mem_append_left _ (h.bpfExit huei))
  | false => exact h.inside rfl nofun nofun id nofun

/-- **One step.** -/
theorem explained_next (hs : Synchronized setup s) (h : Explained setup evs s)
    (hev : Possible setup s ev) : Explained setup (evs ++ [ev]) (s.next setup ev) := by
  have hmem : ev ∈ evs ++ [ev] := List.mem_append_right _ (List.mem_singleton_self ev)
  have hkept : ∀ e, s.pc = .ended e → e.Cause setup (evs ++ [ev]) := fun e he =>
    (h.exit e he).mono (List.subset_append_left _ _)
  cases ev with
  | lock | store | unlock | notify => exact h.move id id h.view hkept
  | signal =>
    exact ⟨fun _ => hmem, fun huei => List.mem_append_left _ (h.bpfExit huei), h.view, hkept⟩
  | bpfExit =>
    exact ⟨fun hsig => List.mem_append_left _ (h.signal hsig), fun _ => hmem, h.view, hkept⟩
  | started ok =>
    cases ok with
    | true => exact h.inside rfl nofun nofun id id
    | false => exact h.leave rfl id id (Or.inl hmem)
  | firstWrite => exact explained_firstWrite hs h hev
  | viewClosed => exact h.leave rfl id id ⟨h.view hev, hmem⟩
  | prepared ok =>
    cases ok with
    | true => exact h.inside rfl nofun nofun id id
    | false => exact h.leave rfl id id (Or.inr hmem)
  | polled r => exact explained_polled hs h hev
  | readEtd =>
    rw [EtdState.next]
    split
    · split <;> exact h.inside rfl nofun nofun id id
    · exact h.inside rfl nofun nofun id id
  | write =>
    have hplace := hs.place
    rw [EtdState.InPlace, show s.pc = .write from hev] at hplace
    exact h.tryWrite hs hplace.2.1 nofun nofun
  | readSignal ok => exact explained_readSignal h
  | timedOut =>
    rw [EtdState.next]
    split
    · next hwritten => exact h.tryWrite hs (by simpa using hwritten) nofun nofun
    · exact h.inside rfl nofun nofun id id
  | checkUei => exact explained_checkUei h

theorem explained_of_run (h : EtdRun setup evs s) : Explained setup evs s := by
  induction h with
  | nil => exact ⟨nofun, nofun, nofun, nofun⟩
  | snoc hes hlast ih =>
    obtain ⟨hev, rfl⟩ := hlast
    exact explained_next (synchronized_of_run hes) ih hev

theorem EtdState.Leaving.mono (h : s.Leaving) (hpc : s'.pc = s.pc)
    (hsignal : s.signalPending = true → s'.signalPending = true)
    (huei : s.ueiExited = true → s'.ueiExited = true) : s'.Leaving := by
  rw [Leaving] at h ⊢
  rw [hpc]
  cases hs : s.pc with
  | readEtd | write | readSignal =>
    rw [hs] at h
    exact hsignal h
  | timedOut | checkUei =>
    rw [hs] at h
    exact huei h
  | starting | firstWrite | view | preparing | poll | ended =>
    rw [hs] at h
    exact h

/-- A thread that is leaving goes on. -/
theorem leaving_next (h : Synchronized setup s) (hleaving : s.Leaving) (hev : Possible setup s ev) :
    (s.next setup ev).Leaving := by
  have hplace := h.place
  rw [EtdState.InPlace] at hplace
  have hpc := hleaving
  rw [EtdState.Leaving] at hpc
  cases ev with
  | lock | store | unlock | notify => exact hleaving
  | signal => exact hleaving.mono rfl (fun _ => rfl) id
  | bpfExit => exact hleaving.mono rfl id fun _ => rfl
  | started ok =>
    rw [hev.1] at hpc
    exact hpc.elim
  | firstWrite | viewClosed | prepared =>
    rw [show s.pc = _ from hev] at hpc
    exact hpc.elim
  | polled r =>
    exfalso
    cases r with
    | ready | timeout => rw [hev.1] at hpc; exact hpc
    | eintr | error => rw [show s.pc = _ from hev] at hpc; exact hpc
  | readEtd =>
    rw [show s.pc = .readEtd from hev] at hpc
    rw [EtdState.next]
    split
    · split <;> exact hpc
    · exact hpc
  | write =>
    rw [show s.pc = .write from hev] at hpc hplace
    obtain ⟨hnext, hsignal, -⟩ := tryWrite_cases h hplace.2.1 .readSignal
    rw [EtdState.next, EtdState.Leaving, hnext]
    exact hsignal.trans hpc
  | readSignal ok =>
    rw [show s.pc = .readSignal from hev] at hpc
    rw [EtdState.next, show s.signalPending = true from hpc]
    cases ok <;> exact trivial
  | timedOut =>
    rw [show s.pc = .timedOut from hev] at hpc
    rw [EtdState.next]
    split
    · next hwritten =>
      obtain ⟨hnext, -, huei⟩ := tryWrite_cases h (by simpa using hwritten) .checkUei
      rw [EtdState.Leaving, hnext]
      exact huei.trans hpc
    · exact hpc
  | checkUei =>
    rw [show s.pc = .checkUei from hev] at hpc
    rw [EtdState.next, show s.ueiExited = true from hpc]
    exact trivial

/-- A signal at the end of it is the cause of the end. -/
def signalled : List EtdEvent :=
  endsEarly ++ .polled .ready :: wokenUp ++ [.signal, .polled .ready, .readEtd, .readSignal true]

def signalledEnd : EtdState :=
  signalled.foldl (EtdState.next twoLlcsSetup) (EtdState.init twoLlcsSetup)

/-- The main thread is in the view, or was. -/
def EtdState.Viewing (written : Bool) (s : EtdState) : Prop :=
  (s.pc = .view ∨ ∃ e, s.pc = .ended e) ∧ s.etdWritten = written

theorem viewing_next {written : Bool} (h : s.Viewing written) (hev : Possible setup s ev) :
    (s.next setup ev).Viewing written := by
  obtain ⟨hpc, hwritten⟩ := h
  have hnot : ∀ {pc : RunPc}, s.pc = pc → pc ≠ .view → (∀ e, pc ≠ .ended e) → False := by
    rintro _ rfl hview hended
    rcases hpc with hpc | ⟨e, hpc⟩
    · exact hview hpc
    · exact hended e hpc
  cases ev with
  | lock | store | unlock | notify | signal | bpfExit => exact ⟨hpc, hwritten⟩
  | viewClosed => exact ⟨Or.inr ⟨_, rfl⟩, hwritten⟩
  | started ok => exact (hnot hev.1 nofun nofun).elim
  | polled r =>
    cases r with
    | ready | timeout => exact (hnot hev.1 nofun nofun).elim
    | eintr | error => exact (hnot hev nofun nofun).elim
  | firstWrite | prepared | readEtd | write | readSignal | timedOut | checkUei =>
    exact (hnot hev nofun nofun).elim

/-- **With the view there is one chance.** The view does not look at the eventfd: the costs are
written exactly if the matrix is published by the call after the splash. -/
theorem EtdRun.view_costs (h : EtdRun setup evs s) (hview : setup.verbose = true)
    (hpc : s.pc = .firstWrite) (hrun : Run (EtdStep setup) (s.next setup .firstWrite) evs' s') :
    s'.llcEtdCost = if s.calibration.published then setup.costs else fun _ _ => 0 := by
  have hs := synchronized_of_run h
  have hplace := hs.place
  rw [EtdState.InPlace, hpc] at hplace
  have hfirst : (s.next setup .firstWrite).Viewing s.calibration.published := by
    rw [EtdState.next, tryWrite_eq hs hplace.2, hview, if_pos rfl]
    cases s.calibration.published with
    | true => exact ⟨Or.inl rfl, rfl⟩
    | false => exact ⟨Or.inl rfl, hplace.2⟩
  have hend := hrun.invariant (I := EtdState.Viewing s.calibration.published)
    (fun t ev _ ht hstep => by
      obtain ⟨hev, rfl⟩ := hstep
      exact viewing_next ht hev) hfirst
  have hstep : EtdStep setup s .firstWrite (s.next setup .firstWrite) := ⟨hpc, rfl⟩
  rw [(synchronized_of_run ((h.snoc hstep).append hrun)).costs, hend.2]

/-- The same machine with the view, and a thread that is late. -/
def viewSetup : EtdSetup := { twoLlcsSetup with verbose := true }

def lateThread : List EtdEvent := [.lock, .store, .unlock, .notify]

/-- It is overlooked. -/
theorem lateThread_costs :
    (lateThread.foldl (EtdState.next viewSetup)
      (EtdState.next viewSetup (EtdState.next viewSetup (EtdState.init viewSetup) (.started true))
        .firstWrite)).llcEtdCost = fun _ _ => 0 := by
  have h : EtdRun viewSetup [.started true]
      (EtdState.next viewSetup (EtdState.init viewSetup) (.started true)) :=
    Run.single_iff.mpr ⟨by decide +kernel, rfl⟩
  exact h.view_costs rfl rfl (Run.foldl_of_admits (by decide +kernel) :
    Run (EtdStep viewSetup) _ lateThread _)

end Imperator
