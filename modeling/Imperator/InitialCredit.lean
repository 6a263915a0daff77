import Imperator.Loader
import Imperator.TaskContext

/-!
# The credit of a new task

A new task may run for a quantum and a bonus before it is treated like any other. The credit comes
from the command line in microseconds, becomes nanoseconds, then units of 1024 ns, and is stored in
16 bits of the context.

The last step keeps the low bits only. The bout of a stop is cut off at the largest value before it
is stored in as many bits; the credit is not. So from 65536 units on, which is 67 ms, a longer
quantum or a larger bonus leaves a new task with less.

## Main definitions

* `Args.creditUnits` — the credit the command line asks for
* `CreditExact`, `CreditMonotone` — the stored credit is that, cut off, and never falls

## Main results

* `initial_credit_iff` — every command line
-/

namespace Imperator

variable {args args' : Args} {info : TopologyInfo}

/-- The quantum and the bonus, in nanoseconds. -/
def Args.creditNs (args : Args) : ℕ :=
  args.effectiveValues.1.toNat * 1000 + args.effectiveValues.2.1.toNat * 1000

/-- The same in units of 1024 ns. -/
def Args.creditUnits (args : Args) : ℕ := args.creditNs / 1024

/-- The deficit of a new task under a command line. -/
def Args.initialCredit (args : Args) (info : TopologyInfo) (prio : U32) : ℕ :=
  (allocTaskCtxCold (newRodata args info) prio).deficit.toNat

/-- The credit is what the command line asks for, as far as it fits. -/
def CreditExact (args : Args) (info : TopologyInfo) : Prop :=
  ∀ prio, args.initialCredit info prio = min 65535 args.creditUnits

/-- No command line with a shorter quantum and a smaller bonus gives more. -/
def CreditMonotone (args : Args) (info : TopologyInfo) : Prop :=
  ∀ (args' : Args) (prio : U32), args'.effectiveValues.1 ≤ args.effectiveValues.1 →
    args'.effectiveValues.2.1 ≤ args.effectiveValues.2.1 →
    args'.initialCredit info prio ≤ args.initialCredit info prio

/-- The narrowing to 16 bits loses nothing, or happens to leave the largest value. -/
def Args.CreditFits (args : Args) : Prop :=
  args.creditUnits ≤ 65535 ∨ args.creditUnits % 65536 = 65535

/-- What is stored are the low 16 bits. -/
theorem initialCredit_eq (hfit : args.creditNs < 2 ^ 64) (info : TopologyInfo) (prio : U32) :
    args.initialCredit info prio = args.creditUnits % 65536 := by
  have hdeficit : (allocTaskCtxCold (newRodata args info) prio).deficit
      = (newRodata args info).initDeficit := extractDeficit_pack _ _
  have hsum : (args.effectiveValues.1 * 1000 + args.effectiveValues.2.1 * 1000).toNat
      = args.creditNs := by
    rw [Args.creditNs] at hfit ⊢
    rw [BitVec.toNat_add, BitVec.toNat_mul, BitVec.toNat_mul,
      show (1000 : U64).toNat = 1000 from rfl]
    omega
  rw [Args.initialCredit, hdeficit, Rodata.initDeficit, BitVec.toNat_setWidth,
    BitVec.toNat_ushiftRight, Nat.shiftRight_eq_div_pow]
  exact congrArg (· / 1024 % 65536) hsum

theorem creditNs_le (hq : args'.effectiveValues.1 ≤ args.effectiveValues.1)
    (hb : args'.effectiveValues.2.1 ≤ args.effectiveValues.2.1) :
    args'.creditNs ≤ args.creditNs := by
  rw [BitVec.le_def] at hq hb
  rw [Args.creditNs, Args.creditNs]
  omega

theorem creditExact_iff (hfit : args.creditNs < 2 ^ 64) :
    CreditExact args info ↔ args.CreditFits := by
  constructor
  · intro h
    have hexact := h 120
    rw [initialCredit_eq hfit] at hexact
    rw [Args.CreditFits]
    omega
  · intro h prio
    rw [Args.CreditFits] at h
    rw [initialCredit_eq hfit]
    omega

/-- Whoever asks for 65536 units or more asks for at least 67108 microseconds, and these give the
largest value there is. -/
theorem exists_full_credit (h : 65536 ≤ args.creditUnits) :
    ∃ args' : Args, args'.effectiveValues.1 ≤ args.effectiveValues.1 ∧
      args'.effectiveValues.2.1 ≤ args.effectiveValues.2.1 ∧ args'.creditNs = 67108000 := by
  rw [Args.creditUnits, Args.creditNs] at h
  generalize args.effectiveValues.1 = q at h ⊢
  generalize args.effectiveValues.2.1 = b at h ⊢
  have hq : (BitVec.ofNat 64 (min q.toNat 67108)).toNat = min q.toNat 67108 := by
    rw [BitVec.toNat_ofNat]
    omega
  have hb : (BitVec.ofNat 64 (67108 - min q.toNat 67108)).toNat = 67108 - min q.toNat 67108 := by
    rw [BitVec.toNat_ofNat]
    omega
  have hsum : 67108 ≤ q.toNat + b.toNat := by omega
  refine ⟨{ args with
    quantum := some (BitVec.ofNat 64 (min q.toNat 67108))
    newFlowBonus := some (BitVec.ofNat 64 (67108 - min q.toNat 67108)) }, ?_, ?_, ?_⟩
  · show BitVec.ofNat 64 (min q.toNat 67108) ≤ q
    rw [BitVec.le_def, hq]
    exact min_le_left _ _
  · show BitVec.ofNat 64 (67108 - min q.toNat 67108) ≤ b
    rw [BitVec.le_def, hb]
    omega
  · show (BitVec.ofNat 64 (min q.toNat 67108)).toNat * 1000
      + (BitVec.ofNat 64 (67108 - min q.toNat 67108)).toNat * 1000 = 67108000
    rw [hq, hb]
    omega

theorem creditMonotone_iff (hfit : args.creditNs < 2 ^ 64) :
    CreditMonotone args info ↔ args.CreditFits := by
  constructor
  · intro h
    rcases Nat.lt_or_ge args.creditUnits 65536 with hlt | hge
    · exact Or.inl (Nat.le_of_lt_succ hlt)
    · obtain ⟨args', hq, hb, hns⟩ := exists_full_credit hge
      have hle := h args' 120 hq hb
      rw [initialCredit_eq hfit, initialCredit_eq (by omega), Args.creditUnits, hns] at hle
      exact Or.inr (by omega)
  · intro h args' prio hq hb
    have hle := creditNs_le hq hb
    have hunits : args'.creditUnits ≤ args.creditUnits := Nat.div_le_div_right hle
    rw [initialCredit_eq hfit, initialCredit_eq (hle.trans_lt hfit)]
    rcases h with h | h <;> omega

/-- **When the credit of a new task is right.** For every quantum and bonus whose sum in nanoseconds
fits 64 bits, the stored credit is the one asked for, cut off at 65535, exactly if the narrowing
loses nothing or leaves all ones; and exactly then no command line that asks for less gets more. -/
theorem initial_credit_iff (args : Args) (info : TopologyInfo) (hfit : args.creditNs < 2 ^ 64) :
    (CreditExact args info ↔ args.CreditFits) ∧ (CreditMonotone args info ↔ args.CreditFits) :=
  ⟨creditExact_iff hfit, creditMonotone_iff hfit⟩

/-- The default command line with another quantum. -/
def withQuantum (q : U64) : Args := { defaultArgs with quantum := some q }

theorem defaultArgs_credit : CreditExact defaultArgs (detect dualCcd) ∧
    CreditMonotone defaultArgs (detect dualCcd) := by
  have hfit : defaultArgs.CreditFits := Or.inl (by decide)
  have h := initial_credit_iff defaultArgs (detect dualCcd) (by decide)
  exact ⟨h.1.mpr hfit, h.2.mpr hfit⟩

/-- A quantum of 60 ms instead of 2 ms leaves a new task with less than a tenth of the credit. -/
theorem longQuantum_loses_credit : (withQuantum 60000).creditNs < 2 ^ 64 ∧
    (withQuantum 60000).initialCredit (detect dualCcd) 120 = 870 ∧
    (withQuantum 2000).initialCredit (detect dualCcd) 120 = 9765 ∧
    ¬ CreditExact (withQuantum 60000) (detect dualCcd) ∧
    ¬ CreditMonotone (withQuantum 60000) (detect dualCcd) := by
  have hlong : (withQuantum 60000).initialCredit (detect dualCcd) 120 = 870 := by
    rw [initialCredit_eq (by decide)]
    decide
  have hshort : (withQuantum 2000).initialCredit (detect dualCcd) 120 = 9765 := by
    rw [initialCredit_eq (by decide)]
    decide
  refine ⟨by decide, hlong, hshort, fun h => ?_, fun h => ?_⟩
  · have hexact := h 120
    rw [hlong] at hexact
    exact absurd hexact (by decide)
  · have hle := h (withQuantum 2000) 120 (by decide) (by decide)
    rw [hlong, hshort] at hle
    exact absurd hle (by decide)

end Imperator
