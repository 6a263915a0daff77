import Mathlib.Algebra.Order.Field.Rat
import Mathlib.Analysis.Real.Sqrt
import Imperator.EtdPairs

/-!
# The calibration, call by call

`calibrate_pairs` measures one pair after the other. A measurement may fail, or come back with
latencies that differ too much. In that case it is repeated, up to three times, and the last one
is taken as it is. Whatever happened, a pair that has no latency after that is given a large one, so
that it does not look like the closest of all, and the progress is reported.

What the calls return is a sequence that is arbitrary: a pair that failed at first might be measured
later, and a failure may come after a rejected measurement. So the state has the number of calls
that were made, next to the matrix, and a log of all calls in both directions. The matrix is that of
the loop over the pairs without a log, one pair at a time; what is new here is how often is called,
what is reported, and that every pair ends up with a positive entry.

## Main definitions

* `Samples` — what `measure_pair` returns, with its median and variance
* `measureLoop`, `runCalibratePairs` — the loops
* `CalibrationLog` — the calls for a list of pairs
* `Calibrated` — the matrix of a list of pairs
* `CalibrationDone` — the matrix and the calls, at the end

## Main results

* `measureLoop_matrix`, `calibrateStep_matrix` — the matrix is that of the loop without a log
* `measureLoop_events` — how often is called
* `calibratePair_replaced` — one pair
* `calibrate_pairs_spec` — every list of pairs, and every sequence of results
-/

namespace Imperator

/-! ### Latencies -/

/-- The latencies `measure_pair` returns. -/
structure Samples where
  values : List ℚ
  nonempty : values ≠ []
  nonneg : ∀ v ∈ values, 0 ≤ v

namespace Samples

variable (samples : Samples)

def mean : ℚ := samples.values.sum / samples.values.length

def variance : ℚ :=
  (samples.values.map fun x => (x - samples.mean) ^ 2).sum / samples.values.length

/-- `stddev <= config.max_stddev`, without the root. -/
def Accepted (maxStddev : ℚ) : Prop := 0 ≤ maxStddev ∧ samples.variance ≤ maxStddev ^ 2

instance (maxStddev : ℚ) : Decidable (samples.Accepted maxStddev) :=
  inferInstanceAs (Decidable (_ ∧ _))

def sorted : List ℚ := samples.values.mergeSort

theorem sorted_perm : samples.sorted.Perm samples.values := List.mergeSort_perm _ _

theorem middle_lt : samples.sorted.length / 2 < samples.sorted.length := by
  have hpos := List.length_pos_iff.mpr samples.nonempty
  have hlen := samples.sorted_perm.length_eq
  omega

/-- `sorted[sorted.len() / 2]` -/
def median : ℚ := samples.sorted.get ⟨_, samples.middle_lt⟩

/-- The median was measured. -/
theorem median_mem : samples.median ∈ samples.values :=
  samples.sorted_perm.mem_iff.mp (List.get_mem _ _)

theorem median_nonneg : 0 ≤ samples.median := samples.nonneg _ samples.median_mem

/-- The comparison is that of the standard deviation. -/
theorem accepted_iff (maxStddev : ℚ) :
    samples.Accepted maxStddev ↔ Real.sqrt (samples.variance : ℚ) ≤ maxStddev := by
  rw [Real.sqrt_le_iff, Accepted]
  norm_cast

end Samples

/-! ### The loops -/

/-- `MAX_RETRIES` -/
def maxRetries : ℕ := 3

/-- `ETD_FALLBACK_NS` -/
def etdFallbackNs : ℚ := 500

/-- A call of `measure_pair`, and one of `progress_callback`. -/
inductive CalibrationEvent
  | measure (cpuA cpuB : ℕ)
  | progress (current total : ℕ) (done : Bool)
  deriving DecidableEq

/-- The locals of `calibrate_pairs`, the number of calls of `measure_pair`, and all calls. -/
structure CalibrationState where
  matrix : List (List ℚ)
  currentPair : ℕ
  calls : ℕ
  events : List CalibrationEvent

/-- Before the first pair. -/
def CalibrationState.init (nrCpus : ℕ) : CalibrationState :=
  ⟨List.replicate nrCpus (List.replicate nrCpus 0), 0, 0, []⟩

/-- One more call of `measure_pair`. -/
def CalibrationState.called (st : CalibrationState) (a b : ℕ) : CalibrationState :=
  { st with calls := st.calls + 1, events := st.events ++ [.measure a b] }

/-- The `while let` loop. `outcome` says what the calls return, by their number. -/
def measureLoop (maxStddev : ℚ) (outcome : ℕ → Option Samples) (a b retryCount : ℕ)
    (st : CalibrationState) : Option CalibrationState :=
  match outcome st.calls with
  | none => some (st.called a b)
  | some samples =>
    if samples.Accepted maxStddev ∨ maxRetries ≤ retryCount then
      (setBoth st.matrix a b samples.median).map fun matrix =>
        { st.called a b with matrix := matrix }
    else measureLoop maxStddev outcome a b (retryCount + 1) (st.called a b)
termination_by maxRetries - retryCount

/-- The body of the loop over the pairs. -/
def calibrateStep (maxStddev : ℚ) (outcome : ℕ → Option Samples) (totalPairs : ℕ)
    (st : CalibrationState) (pair : ℕ × ℕ) : Option CalibrationState :=
  let st := { st with currentPair := st.currentPair + 1 }
  (measureLoop maxStddev outcome pair.1 pair.2 0 st).bind fun st =>
    (getEntry st.matrix pair.1 pair.2).bind fun v =>
      (if v = 0 then setBoth st.matrix pair.1 pair.2 etdFallbackNs else some st.matrix).map
        fun matrix =>
          { st with
            matrix := matrix
            events := st.events ++ [.progress st.currentPair totalPairs false] }

/-- `calibrate_pairs`, with its calls. -/
def runCalibratePairs (nrCpus : ℕ) (pairs : List (ℕ × ℕ)) (maxStddev : ℚ)
    (outcome : ℕ → Option Samples) : Option CalibrationState :=
  (pairs.foldlM (calibrateStep maxStddev outcome pairs.length) (.init nrCpus)).map fun st =>
    { st with events := st.events ++ [.progress pairs.length pairs.length true] }

/-! ### Calls -/

section Loop

variable {maxStddev : ℚ} {outcome : ℕ → Option Samples} {a b n retries retryCount : ℕ}
  {st st' : CalibrationState}

/-- A state that is made with a matrix has that matrix. -/
theorem map_matrix_store {make : List (List ℚ) → CalibrationState}
    (hmake : ∀ matrix, (make matrix).matrix = matrix) (stored : Option (List (List ℚ))) :
    (stored.map make).map CalibrationState.matrix = stored := by
  cases stored with
  | none => rfl
  | some matrix => exact congrArg some (hmake matrix)

/-- What is left of a result in the loop without a log. -/
def Samples.toMeasurement (maxStddev : ℚ) (samples : Samples) : Measurement ℚ :=
  ⟨samples.median, samples.Accepted maxStddev⟩

/-- **The matrix is that of the loop without a log**, which counts the retries that are left. -/
theorem measureLoop_matrix (measure : ℕ → Option (Measurement ℚ))
    (hretries : retries + retryCount = maxRetries)
    (hmeasure : ∀ left ≤ retries, measure left
      = (outcome (st.calls + (retries - left))).map (Samples.toMeasurement maxStddev)) :
    (measureLoop maxStddev outcome a b retryCount st).map CalibrationState.matrix
      = measureEntry measure a b retries st.matrix := by
  fun_induction measureLoop maxStddev outcome a b retryCount st generalizing retries with
  | case1 retryCount st hcall =>
    have hfirst : measure retries = none := by simpa [hcall] using hmeasure retries le_rfl
    rw [measureEntry_of_none hfirst]
    rfl
  | case2 retryCount st samples hcall hstored =>
    have hfirst : measure retries = some (samples.toMeasurement maxStddev) := by
      simpa [hcall] using hmeasure retries le_rfl
    have hlast : samples.Accepted maxStddev ∨ retries = 0 := hstored.imp_right fun _ => by omega
    rw [map_matrix_store fun _ => rfl,
      measureEntry_of_stored hfirst (hlast.imp_left decide_eq_true)]
    rfl
  | case3 retryCount st samples hcall hrejected ih =>
    obtain ⟨haccepted, hmany⟩ := not_or.mp hrejected
    obtain ⟨left, rfl⟩ : ∃ left, retries = left + 1 := ⟨retries - 1, by omega⟩
    have hfirst : measure (left + 1) = some (samples.toMeasurement maxStddev) := by
      simpa [hcall] using hmeasure (left + 1) le_rfl
    rw [measureEntry_of_rejected hfirst (by simpa [Samples.toMeasurement] using haccepted)]
    refine ih (by omega) fun left' hleft' => ?_
    have hnumber : (st.called a b).calls + (left - left') = st.calls + (left + 1 - left') := by
      change st.calls + 1 + (left - left') = _
      omega
    rw [hmeasure left' (by omega), hnumber]

/-- **How often is called**: at least once, and in all retries together at most four times. -/
theorem measureLoop_events (hretries : retryCount ≤ maxRetries)
    (h : measureLoop maxStddev outcome a b retryCount st = some st') :
    ∃ c, 1 ≤ c ∧ c + retryCount ≤ maxRetries + 1 ∧ st'.calls = st.calls + c ∧
      st'.currentPair = st.currentPair ∧
      st'.events = st.events ++ List.replicate c (.measure a b) := by
  fun_induction measureLoop maxStddev outcome a b retryCount st with
  | case1 retryCount st hcall =>
    cases h
    exact ⟨1, le_rfl, by omega, rfl, rfl, rfl⟩
  | case2 retryCount st samples hcall haccepted =>
    obtain ⟨matrix, -, rfl⟩ := Option.map_eq_some_iff.mp h
    exact ⟨1, le_rfl, by omega, rfl, rfl, rfl⟩
  | case3 retryCount st samples hcall hrejected ih =>
    obtain ⟨c, hpos, hmany, hcalls, hpair, hevents⟩ := ih (by omega) h
    refine ⟨c + 1, by omega, by omega, ?_, hpair, ?_⟩
    · rw [hcalls]
      change st.calls + 1 + c = _
      omega
    · rw [hevents, List.replicate_succ]
      change st.events ++ [_] ++ _ = _
      rw [List.append_assoc, List.singleton_append]

end Loop

/-! ### Entries -/

section Entries

variable {matrix matrix' matrix'' : List (List ℚ)} {a b n : ℕ} {pair : ℕ × ℕ} {v w : ℚ}

/-- The entry of two CPUs is that of the pair, in one direction or the other. -/
def IsEntryOf (pair : ℕ × ℕ) (a b : ℕ) : Prop := (a, b) = pair ∨ (b, a) = pair

instance (pair : ℕ × ℕ) (a b : ℕ) : Decidable (IsEntryOf pair a b) :=
  inferInstanceAs (Decidable (_ ∨ _))

theorem isEntryOf_self (pair : ℕ × ℕ) : IsEntryOf pair pair.1 pair.2 := Or.inl rfl

theorem isEntryOf_comm : IsEntryOf pair a b ↔ IsEntryOf pair b a := or_comm

theorem getEntry_setEntry {c d : ℕ} (hset : setEntry matrix a b v = some matrix') :
    getEntry matrix' c d = if c = a ∧ d = b then some v else getEntry matrix c d := by
  obtain ⟨row, hrow, hstore⟩ := Option.bind_eq_some_iff.mp hset
  obtain ⟨ha, -⟩ := List.getElem?_eq_some_iff.mp hrow
  split at hstore
  · next hb =>
    cases hstore
    rw [getEntry, getEntry]
    by_cases hc : c = a
    · subst hc
      rw [List.getElem?_set_self ha, Option.bind_some, hrow, Option.bind_some]
      by_cases hd : d = b
      · subst hd
        rw [List.getElem?_set_self hb, if_pos ⟨rfl, rfl⟩]
      · rw [List.getElem?_set_ne (Ne.symm hd), if_neg fun heq => hd heq.2]
    · rw [List.getElem?_set_ne (Ne.symm hc), if_neg fun heq => hc heq.1]
  · cases hstore

/-- The matrix with one value for a pair, in both directions, and otherwise unchanged. -/
structure Replaced (n : ℕ) (pair : ℕ × ℕ) (v : ℚ) (matrix matrix' : List (List ℚ)) : Prop where
  square : IsSquare n matrix'
  entries : ∀ {a b}, a < n → b < n →
    entryAt matrix' a b = if IsEntryOf pair a b then v else entryAt matrix a b

theorem Replaced.trans (h : Replaced n pair v matrix matrix')
    (h' : Replaced n pair w matrix' matrix'') : Replaced n pair w matrix matrix'' where
  square := h'.square
  entries := fun {a b} ha hb => by
    rw [h'.entries ha hb]
    split
    · rfl
    · next hother => rw [h.entries ha hb, if_neg hother]

/-- A symmetric matrix has one value for each pair. -/
theorem replaced_self (h : IsSquare n matrix) (hsymm : IsSymmetric n matrix)
    (hpair : pair.1 < n ∧ pair.2 < n) :
    Replaced n pair (entryAt matrix pair.1 pair.2) matrix matrix where
  square := h
  entries := fun {a b} ha hb => by
    split
    · next hentry =>
      rcases hentry with rfl | rfl
      · rfl
      · rw [entryAt, hsymm a ha b hb, entryAt]
    · rfl

theorem replaced_setBoth (h : IsSquare n matrix) (hpair : pair.1 < n ∧ pair.2 < n)
    (hset : setBoth matrix pair.1 pair.2 v = some matrix') :
    Replaced n pair v matrix matrix' := by
  obtain ⟨once, honce, htwice⟩ := Option.bind_eq_some_iff.mp hset
  obtain ⟨matrix₁, hset₁, hsquare₁⟩ := setEntry_of_lt h hpair.1 hpair.2 v
  obtain rfl := Option.some.inj (hset₁.symm.trans honce)
  obtain ⟨matrix₂, hset₂, hsquare₂⟩ := setEntry_of_lt hsquare₁ hpair.2 hpair.1 v
  obtain rfl := Option.some.inj (hset₂.symm.trans htwice)
  refine ⟨hsquare₂, fun {a b} ha hb => ?_⟩
  rw [entryAt, getEntry_setEntry htwice, getEntry_setEntry honce]
  by_cases hfirst : a = pair.1 ∧ b = pair.2
  · have hentry : IsEntryOf pair a b := Or.inl (Prod.ext hfirst.1 hfirst.2)
    rw [if_pos hfirst, if_pos hentry, ite_self]
    rfl
  · by_cases hsecond : a = pair.2 ∧ b = pair.1
    · have hentry : IsEntryOf pair a b := Or.inr (Prod.ext hsecond.2 hsecond.1)
      rw [if_pos hsecond, if_pos hentry]
      rfl
    · have hentry : ¬ IsEntryOf pair a b := by
        rintro (rfl | rfl)
        · exact hfirst ⟨rfl, rfl⟩
        · exact hsecond ⟨rfl, rfl⟩
      rw [if_neg hsecond, if_neg hfirst, if_neg hentry, entryAt]

section Values

variable {P : ℚ → Prop}

/-- **The measurement** leaves the pair with one value: what was there before, or a result. -/
theorem measureEntry_replaced {measure : ℕ → Option (Measurement ℚ)} {retries : ℕ}
    (h : IsSquare n matrix) (hsymm : IsSymmetric n matrix) (hpair : pair.1 < n ∧ pair.2 < n)
    (hbefore : P (entryAt matrix pair.1 pair.2))
    (hmedian : ∀ left x, measure left = some x → P x.median)
    (hmeasured : measureEntry measure pair.1 pair.2 retries matrix = some matrix') :
    ∃ v, P v ∧ Replaced n pair v matrix matrix' := by
  rcases measureEntry_cases measure retries with hkept | ⟨left, x, hx, hstored⟩
  · obtain rfl := Option.some.inj (hkept.symm.trans hmeasured)
    exact ⟨_, hbefore, replaced_self h hsymm hpair⟩
  · exact ⟨_, hmedian left x hx, replaced_setBoth h hpair (hstored.symm.trans hmeasured)⟩

/-- **One pair** gets one value, which is not zero. -/
theorem calibratePair_replaced {fallback : ℚ} {measure : ℕ × ℕ → ℕ → Option (Measurement ℚ)}
    (h : IsSquare n matrix) (hsymm : IsSymmetric n matrix) (hpair : pair.1 < n ∧ pair.2 < n)
    (hbefore : P (entryAt matrix pair.1 pair.2)) (hne : fallback ≠ 0) (hfallback : P fallback)
    (hmedian : ∀ left x, measure pair left = some x → P x.median)
    (hcalibrated : calibratePair fallback measure matrix pair = some matrix') :
    ∃ v, v ≠ 0 ∧ P v ∧ Replaced n pair v matrix matrix' := by
  obtain ⟨measured, hmeasured, hrest⟩ := Option.bind_eq_some_iff.mp hcalibrated
  obtain ⟨v, hv, hreplaced⟩ := measureEntry_replaced h hsymm hpair hbefore hmedian hmeasured
  have hentry : entryAt measured pair.1 pair.2 = v := by
    rw [hreplaced.entries hpair.1 hpair.2, if_pos (isEntryOf_self pair)]
  rw [getEntry_eq_some hreplaced.square hpair.1 hpair.2, Option.bind_some, hentry] at hrest
  split at hrest
  · exact ⟨fallback, hne, hfallback,
      hreplaced.trans (replaced_setBoth hreplaced.square hpair hrest)⟩
  · next hne =>
    cases hrest
    exact ⟨v, hne, hv, hreplaced⟩

/-- The matrix of a list of pairs: symmetric, with an entry for each of the pairs in both
directions, and zero for all others. `P` is what is known of the values. -/
structure Calibrated (P : ℚ → Prop) (n : ℕ) (pairs : List (ℕ × ℕ)) (matrix : List (List ℚ)) :
    Prop where
  square : IsSquare n matrix
  symm : IsSymmetric n matrix
  values : ∀ {a b}, a < n → b < n → P (entryAt matrix a b)
  listed : ∀ {a b}, a < n → b < n →
    (entryAt matrix a b ≠ 0 ↔ (a, b) ∈ pairs ∨ (b, a) ∈ pairs)

/-- At the start no pair is listed, and all entries are zero. -/
theorem calibrated_init (n : ℕ) (hzero : P 0) :
    Calibrated P n [] (CalibrationState.init n).matrix := by
  have hentry : ∀ {a b}, a < n → b < n →
      getEntry (CalibrationState.init n).matrix a b = some 0 := by
    intro a b ha hb
    rw [getEntry, CalibrationState.init, List.getElem?_replicate_of_lt ha, Option.bind_some,
      List.getElem?_replicate_of_lt hb]
  refine ⟨isSquare_replicate n 0, fun a ha b hb => ?_, fun ha hb => ?_, fun ha hb => ?_⟩
  · rw [hentry ha hb, hentry hb ha]
  · rw [entryAt, hentry ha hb]
    exact hzero
  · rw [entryAt, hentry ha hb]
    simp

/-- One more pair. -/
theorem Calibrated.replaced {pairs : List (ℕ × ℕ)} (h : Calibrated P n pairs matrix)
    (hreplaced : Replaced n pair v matrix matrix') (hne : v ≠ 0) (hv : P v) :
    Calibrated P n (pairs ++ [pair]) matrix' where
  square := hreplaced.square
  symm := fun a ha b hb => by
    rw [getEntry_eq_some hreplaced.square ha hb, getEntry_eq_some hreplaced.square hb ha,
      hreplaced.entries ha hb, hreplaced.entries hb ha, entryAt, entryAt, h.symm a ha b hb,
      if_congr isEntryOf_comm rfl rfl]
  values := fun ha hb => by
    rw [hreplaced.entries ha hb]
    split
    · exact hv
    · exact h.values ha hb
  listed := fun {a b} ha hb => by
    rw [hreplaced.entries ha hb, List.mem_append, List.mem_append, List.mem_singleton,
      List.mem_singleton, or_or_or_comm]
    split
    · next hentry => exact iff_of_true hne (Or.inr hentry)
    · next hother => exact (h.listed ha hb).trans (or_iff_left hother).symm

end Values

end Entries

/-! ### All pairs -/

/-- The calls for a list of pairs, of which `i` have been measured before: for each pair in order,
one to four measurements and a report. -/
inductive CalibrationLog (total : ℕ) : ℕ → List (ℕ × ℕ) → List CalibrationEvent → Prop
  | nil {i : ℕ} : CalibrationLog total i [] []
  | cons {i c : ℕ} {pair : ℕ × ℕ} {pairs : List (ℕ × ℕ)} {events : List CalibrationEvent} :
      1 ≤ c → c ≤ 4 → CalibrationLog total (i + 1) pairs events →
      CalibrationLog total i (pair :: pairs) (List.replicate c (.measure pair.1 pair.2) ++
        .progress (i + 1) total false :: events)

section Run

variable {maxStddev : ℚ} {outcome : ℕ → Option Samples} {n total : ℕ} {pair : ℕ × ℕ}
  {listed pairs : List (ℕ × ℕ)} {st st' : CalibrationState} {P : ℚ → Prop}

/-- The matrix after one pair is that of the loop without a log. -/
theorem calibrateStep_matrix (st : CalibrationState) (pair : ℕ × ℕ) :
    (calibrateStep maxStddev outcome total st pair).map CalibrationState.matrix
      = calibratePair etdFallbackNs (fun _ left =>
          (outcome (st.calls + (3 - left))).map (Samples.toMeasurement maxStddev))
        st.matrix pair := by
  have hloop : (measureLoop maxStddev outcome pair.1 pair.2 0
        { st with currentPair := st.currentPair + 1 }).map CalibrationState.matrix
      = measureEntry (fun left =>
          (outcome (st.calls + (3 - left))).map (Samples.toMeasurement maxStddev))
        pair.1 pair.2 3 st.matrix :=
    measureLoop_matrix _ rfl fun left _ => rfl
  rw [calibratePair, ← hloop, calibrateStep]
  cases measureLoop maxStddev outcome pair.1 pair.2 0 _ with
  | none => rfl
  | some st' =>
    rw [Option.bind_some, Option.map_some, Option.bind_some]
    cases getEntry st'.matrix pair.1 pair.2 with
    | none => rfl
    | some v =>
      rw [Option.bind_some, Option.bind_some]
      exact map_matrix_store (fun _ => rfl) _

/-- And its calls are those of the measurements, and one report. -/
theorem calibrateStep_events (h : calibrateStep maxStddev outcome total st pair = some st') :
    ∃ c, 1 ≤ c ∧ c ≤ 4 ∧ st'.currentPair = st.currentPair + 1 ∧
      st'.events = st.events ++ List.replicate c (.measure pair.1 pair.2)
        ++ [.progress (st.currentPair + 1) total false] := by
  obtain ⟨measured, hloop, hrest⟩ := Option.bind_eq_some_iff.mp h
  obtain ⟨v, -, hrest⟩ := Option.bind_eq_some_iff.mp hrest
  obtain ⟨matrix, -, rfl⟩ := Option.map_eq_some_iff.mp hrest
  obtain ⟨c, hpos, hmany, -, hpair, hevents⟩ := measureLoop_events (Nat.zero_le _) hloop
  refine ⟨c, hpos, hmany, hpair, ?_⟩
  dsimp only
  rw [hevents, hpair]

/-- **The step** for a pair in range: it comes to its end, and the pair is calibrated. -/
theorem calibrateStep_calibrated (hfallback : P etdFallbackNs)
    (hmedian : ∀ k samples, outcome k = some samples → P samples.median)
    (h : Calibrated P n listed st.matrix) (hpair : pair.1 < n ∧ pair.2 < n) :
    ∃ st', calibrateStep maxStddev outcome total st pair = some st' ∧
      Calibrated P n (listed ++ [pair]) st'.matrix := by
  obtain ⟨matrix', hmatrix, -⟩ := calibratePair_of_lt h.square hpair etdFallbackNs fun _ left =>
    (outcome (st.calls + (3 - left))).map (Samples.toMeasurement maxStddev)
  obtain ⟨st', hstep, rfl⟩ :=
    Option.map_eq_some_iff.mp ((calibrateStep_matrix st pair).trans hmatrix)
  have hmeasured : ∀ (left : ℕ) (x : Measurement ℚ),
      (outcome (st.calls + (3 - left))).map (Samples.toMeasurement maxStddev) = some x →
        P x.median := by
    intro left x hx
    obtain ⟨samples, hsamples, rfl⟩ := Option.map_eq_some_iff.mp hx
    exact hmedian _ samples hsamples
  obtain ⟨v, hne, hv, hreplaced⟩ := calibratePair_replaced h.square h.symm hpair
    (h.values hpair.1 hpair.2) (by norm_num [etdFallbackNs]) hfallback hmeasured hmatrix
  exact ⟨st', hstep, h.replaced hreplaced hne hv⟩

/-- **The loop over the pairs**, by induction on those that are left. -/
theorem foldlM_calibrateStep (maxStddev : ℚ) (total : ℕ) (hfallback : P etdFallbackNs)
    (hmedian : ∀ k samples, outcome k = some samples → P samples.median)
    (hlisted : Calibrated P n listed st.matrix)
    (hpairs : ∀ pair ∈ pairs, pair.1 < n ∧ pair.2 < n) :
    ∃ st' log, pairs.foldlM (calibrateStep maxStddev outcome total) st = some st' ∧
      Calibrated P n (listed ++ pairs) st'.matrix ∧ st'.events = st.events ++ log ∧
      CalibrationLog total st.currentPair pairs log := by
  induction pairs generalizing listed st with
  | nil => exact ⟨st, [], rfl, by rwa [List.append_nil], (List.append_nil _).symm, .nil⟩
  | cons pair pairs ih =>
    obtain ⟨hpair, hlater⟩ := List.forall_mem_cons.mp hpairs
    obtain ⟨next, hstep, hnext⟩ := calibrateStep_calibrated hfallback hmedian hlisted hpair
    obtain ⟨c, hpos, hmany, hcurrent, hevents⟩ := calibrateStep_events hstep
    obtain ⟨st', log, hrun, hcalibrated, hevents', hlog⟩ := ih hnext hlater
    rw [hcurrent] at hlog
    refine ⟨st', _, by rw [List.foldlM_cons, hstep]; exact hrun, ?_, ?_, .cons hpos hmany hlog⟩
    · rwa [List.append_assoc, List.singleton_append] at hcalibrated
    · rw [hevents', hevents]
      simp

/-- **A run** over pairs in range. -/
theorem runCalibratePairs_calibrated (maxStddev : ℚ) (hzero : P 0) (hfallback : P etdFallbackNs)
    (hmedian : ∀ k samples, outcome k = some samples → P samples.median)
    (hpairs : ∀ pair ∈ pairs, pair.1 < n ∧ pair.2 < n) :
    ∃ st log, runCalibratePairs n pairs maxStddev outcome = some st ∧
      Calibrated P n pairs st.matrix ∧ CalibrationLog pairs.length 0 pairs log ∧
      st.events = log ++ [.progress pairs.length pairs.length true] := by
  obtain ⟨st, log, hloop, hcalibrated, hevents, hlog⟩ := foldlM_calibrateStep maxStddev
    pairs.length hfallback hmedian (calibrated_init n hzero) hpairs
  rw [List.nil_append] at hcalibrated
  have hlogged : st.events = log := hevents
  have hrun : runCalibratePairs n pairs maxStddev outcome = some
      { st with events := log ++ [.progress pairs.length pairs.length true] } := by
    rw [runCalibratePairs, hloop, Option.map_some, hlogged]
  exact ⟨_, log, hrun, hcalibrated, hlog, rfl⟩

/-- What the progress callback is called with. -/
def CalibrationEvent.progress? : CalibrationEvent → Option (ℕ × ℕ × Bool)
  | measure _ _ => none
  | progress current total done => some (current, total, done)

/-- **The reports** for a list of pairs: one for each pair, with its number. -/
theorem CalibrationLog.progress {i : ℕ} {events : List CalibrationEvent}
    (h : CalibrationLog total i pairs events) :
    events.filterMap CalibrationEvent.progress?
      = (List.range' (i + 1) pairs.length).map fun current => (current, total, false) := by
  induction h with
  | nil => rfl
  | @cons i c pair pairs events hpos hmany hlog ih =>
    have hreport : CalibrationEvent.progress? (.progress (i + 1) total false)
      = some (i + 1, total, false) := rfl
    rw [List.filterMap_append, List.filterMap_replicate_of_none rfl, List.nil_append,
      List.filterMap_cons_some hreport, ih, List.length_cons, List.range'_succ, List.map_cons]

/-- The calls of `measure_pair`. -/
theorem CalibrationLog.count {i : ℕ} {events : List CalibrationEvent} (a b : ℕ)
    (h : CalibrationLog total i pairs events) :
    events.count (.measure a b) ≤ 4 * pairs.count (a, b) := by
  induction h with
  | nil => exact Nat.zero_le _
  | @cons i c pair pairs events hpos hmany hlog ih =>
    rw [List.count_append, List.count_cons_of_ne (by simp), List.count_cons, List.count_replicate]
    by_cases heq : pair = (a, b)
    · subst heq
      simp only [beq_self_eq_true, if_true]
      omega
    · have hne : CalibrationEvent.measure pair.1 pair.2 ≠ .measure a b := fun h => by
        cases h
        exact heq rfl
      simp only [beq_iff_eq, heq, hne, if_false]
      omega

end Run

/-- What `calibrate_pairs` leaves behind: a symmetric matrix that is positive exactly at the pairs,
in both directions; for each pair at most four calls of `measure_pair`; and one report for each pair
in order, with a last one at the end. -/
structure CalibrationDone (n : ℕ) (pairs : List (ℕ × ℕ)) (st : CalibrationState) : Prop where
  square : IsSquare n st.matrix
  symm : IsSymmetric n st.matrix
  positive : ∀ {a b}, a < n → b < n →
    (0 < entryAt st.matrix a b ↔ (a, b) ∈ pairs ∨ (b, a) ∈ pairs)
  zero : ∀ {a b}, a < n → b < n →
    (entryAt st.matrix a b = 0 ↔ ¬ ((a, b) ∈ pairs ∨ (b, a) ∈ pairs))
  log : ∃ log, CalibrationLog pairs.length 0 pairs log ∧
    st.events = log ++ [.progress pairs.length pairs.length true]
  count : ∀ a b, st.events.count (.measure a b) ≤ 4 * pairs.count (a, b)
  progress : st.events.filterMap CalibrationEvent.progress?
    = ((List.range' 1 pairs.length).map fun current => (current, pairs.length, false))
      ++ [(pairs.length, pairs.length, true)]

/-- **The calibration.** For every list of pairs in range, every threshold and every sequence of
results, the loop comes to its end with the matrix and the calls it should have. -/
theorem calibrate_pairs_spec (n : ℕ) (pairs : List (ℕ × ℕ)) (maxStddev : ℚ)
    (outcome : ℕ → Option Samples) (h : ∀ pair ∈ pairs, pair.1 < n ∧ pair.2 < n) :
    ∃ st, runCalibratePairs n pairs maxStddev outcome = some st ∧ CalibrationDone n pairs st := by
  have hfallback : 0 ≤ etdFallbackNs := by norm_num [etdFallbackNs]
  obtain ⟨st, log, hrun, hmatrix, hlog, hevents⟩ := runCalibratePairs_calibrated maxStddev le_rfl
    hfallback (fun _ samples _ => samples.median_nonneg) h
  refine ⟨st, hrun, hmatrix.square, hmatrix.symm, fun ha hb => ?_, fun ha hb => ?_,
    ⟨log, hlog, hevents⟩, fun a b => ?_, ?_⟩
  · rw [← hmatrix.listed ha hb]
    exact (hmatrix.values ha hb).lt_iff_ne'
  · rw [← hmatrix.listed ha hb, not_not]
  · rw [hevents, List.count_append, List.count_singleton]
    exact hlog.count a b
  · rw [hevents, List.filterMap_append, hlog.progress]
    rfl

/-- Where no measurement succeeds, the pairs are calibrated all the same. -/
theorem failedPairs_calibrated : ∃ st,
    runCalibratePairs 4 [(0, 2), (1, 3)] 15 (fun _ => none) = some st ∧
      0 < entryAt st.matrix 3 1 := by
  obtain ⟨st, hrun, hdone⟩ :=
    calibrate_pairs_spec 4 [(0, 2), (1, 3)] 15 (fun _ => none) (by decide)
  exact ⟨st, hrun, (hdone.positive (by decide) (by decide)).mpr (by decide)⟩

end Imperator
