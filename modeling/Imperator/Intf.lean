import Mathlib.Data.Fin.VecNotation
import Imperator.ForMathlib.BitField

/-!
# Shared data structures and constants

The BPF/userspace interface of the scheduler: the per-task context, the bit layout of its packed
word, the fused deficit and average, and the fused per-tier configuration. Everything here is read
off `intf.h`, whose names are kept; fixed-width integers are bit vectors of the same width, so
wrapping and truncation are those of the C types.

## The packed word

```
[stable:2][tier:2][flags:4][reserved:24]
 31-30     29-28   27-24    23-0
```

Tier, stability counter and flags share one `u32` and are written by several callbacks. Every
lemma about such a write goes through the bits: `getTier_eq_of_bits` and `getStable_eq_of_bits`
say that two words agreeing on two bits agree on the field, and the flags are single bits.

## Main definitions

* `TaskCtx` — the per-task context
* `getTier`, `getStable`, `hasFlag` — reading the packed word
* `setTierStable`, `setFlag`, `clearFlag` — writing it
* `packDeficitAvg`, `extractDeficit`, `extractAvgRt` — the fused deficit and average
* `packConfig`, `unpackMultiplier`, `unpackStarvationNs` — the fused tier configuration
-/

namespace Imperator

/-- `u8` -/
abbrev U8 := BitVec 8
/-- `u16` -/
abbrev U16 := BitVec 16
/-- `u32` -/
abbrev U32 := BitVec 32
/-- `u64` -/
abbrev U64 := BitVec 64

/-! ### Index types

Tiers, table entries and CPUs are numbers below 4, 8 and 64, gates below 3. A name for each of the
facts that there are such numbers keeps the literals of these types small. -/

instance neZero_three : NeZero 3 := ⟨by decide⟩

instance neZero_four : NeZero 4 := ⟨by decide⟩

instance neZero_eight : NeZero 8 := ⟨by decide⟩

instance neZero_sixtyFour : NeZero 64 := ⟨by decide⟩

/-! ### Tiers -/

/-- `enum imperator_tier`. All four values are used and no other value is ever stored: every
writer of the packed word masks the tier to two bits. -/
abbrev Tier := Fin 4

/-- `CAKE_TIER_CRITICAL` -/
abbrev Tier.critical : Tier := 0
/-- `CAKE_TIER_INTERACT` -/
abbrev Tier.interact : Tier := 1
/-- `CAKE_TIER_FRAME` -/
abbrev Tier.frame : Tier := 2
/-- `CAKE_TIER_BULK` -/
abbrev Tier.bulk : Tier := 3

/-- `CAKE_TIER_IDX(t) = t & 7`, the index of a tier in the eight-entry tables. The mask is the
identity on tiers, so the four padding entries are never read. -/
def cakeTierIdx (t : Tier) : Fin 8 := t.castLE (by decide)

/-- The tier as the word that is or-ed into the packed field. -/
def tierWord (t : Tier) : U32 := BitVec.ofNat 32 t

/-- `TIER_GATE_T0`, in microseconds like the two below. -/
abbrev tierGateT0 : U16 := 100
/-- `TIER_GATE_T1` -/
abbrev tierGateT1 : U16 := 2000
/-- `TIER_GATE_T2` -/
abbrev tierGateT2 : U16 := 8000

/-! ### The task context -/

/-- `struct imperator_task_ctx`, without its padding. `deficitAvgFused` is the union member the
code accesses; its two halves are read with `extractDeficit` and `extractAvgRt`. -/
structure TaskCtx where
  nextSlice : U64
  deficitAvgFused : U32
  packedInfo : U32
  lastRunAt : U32
  reclassCounter : U16
  overrunCount : U8
  lockSkipCount : U8
  pendingFutexOp : U8
  enqueueTime : U32
  jitterEwmaUs : U16
  burstCredit : U16
  sleepEntryTime : U32
  burstAccUs : U16
  deriving DecidableEq, Repr

/-- `CAKE_FUTEX_OP_UNSET` -/
def cakeFutexOpUnset : U8 := 0xFF#8

/-! ### The packed word -/

/-- `enum imperator_flow_flags`; the bit of the flag inside the flags nibble. -/
inductive FlowFlag
  | new
  | lockHolder
  | irqWake
  deriving DecidableEq, Repr

/-- The position of a flag in the packed word, counted from `SHIFT_FLAGS = 24`. -/
def FlowFlag.shift : FlowFlag → ℕ
  | .new => 24
  | .lockHolder => 25
  | .irqWake => 26

theorem FlowFlag.shift_lt (f : FlowFlag) : f.shift < 32 := by cases f <;> decide

/-- `EXTRACT_BITS_U32` -/
def extractBitsU32 (val : U32) (start len : ℕ) : U32 := (val >>> start) &&& (1#32 <<< len - 1#32)

/-- `GET_TIER_RAW`; also `(packed >> SHIFT_TIER) & MASK_TIER`. -/
def getTier (packed : U32) : Tier := Fin.ofNat 4 (extractBitsU32 packed 28 2).toNat

/-- `(packed >> SHIFT_STABLE) & 3` -/
def getStable (packed : U32) : Fin 4 := Fin.ofNat 4 (extractBitsU32 packed 30 2).toNat

/-- `packed & ((u32)flag << SHIFT_FLAGS)` as a condition. -/
def hasFlag (packed : U32) (f : FlowFlag) : Bool := packed &&& 1#32 <<< f.shift != 0#32

/-- `packed |= (u32)flag << SHIFT_FLAGS` -/
def setFlag (packed : U32) (f : FlowFlag) : U32 := packed ||| 1#32 <<< f.shift

/-- `packed &= ~((u32)flag << SHIFT_FLAGS)` -/
def clearFlag (packed : U32) (f : FlowFlag) : U32 := packed &&& ~~~(1#32 <<< f.shift)

/-- Replacing tier and stability counter at once, in bits 31–28. -/
def setTierStable (packed : U32) (stable : Fin 4) (tier : Tier) : U32 :=
  (packed &&& ~~~(0xF#32 <<< 28)) ||| ((BitVec.ofNat 32 stable <<< 2 ||| tierWord tier) <<< 28)

/-- Replacing the tier alone, in bits 29–28. -/
def setTier (packed : U32) (tier : Tier) : U32 :=
  (packed &&& ~~~(3#32 <<< 28)) ||| tierWord tier <<< 28

/-- Resetting the stability counter, `packed & ~((u32)3 << SHIFT_STABLE)`. -/
def clearStable (packed : U32) : U32 := packed &&& ~~~(3#32 <<< 30)

theorem getTier_val (p : U32) :
    (getTier p : ℕ) = 2 * (p.getLsbD 29).toNat + (p.getLsbD 28).toNat := by
  rw [getTier, Fin.val_ofNat, BitVec.toNat_mod_four, extractBitsU32,
    show 1#32 <<< 2 - 1#32 = BitVec.ofNat 32 (2 ^ 2 - 1) from rfl, BitVec.getLsbD_and_lowMask,
    BitVec.getLsbD_and_lowMask]
  simp

theorem getStable_val (p : U32) :
    (getStable p : ℕ) = 2 * (p.getLsbD 31).toNat + (p.getLsbD 30).toNat := by
  rw [getStable, Fin.val_ofNat, BitVec.toNat_mod_four, extractBitsU32,
    show 1#32 <<< 2 - 1#32 = BitVec.ofNat 32 (2 ^ 2 - 1) from rfl, BitVec.getLsbD_and_lowMask,
    BitVec.getLsbD_and_lowMask]
  simp

theorem hasFlag_eq (p : U32) (f : FlowFlag) : hasFlag p f = p.getLsbD f.shift :=
  BitVec.and_one_shiftLeft_ne_zero p f.shift_lt

/-- Words agreeing on bits 28 and 29 hold the same tier. -/
theorem getTier_eq_of_bits {p q : U32} (h28 : p.getLsbD 28 = q.getLsbD 28)
    (h29 : p.getLsbD 29 = q.getLsbD 29) : getTier p = getTier q := by
  refine Fin.ext ?_
  rw [getTier_val, getTier_val, h28, h29]

/-- Words agreeing on bits 30 and 31 hold the same stability counter. -/
theorem getStable_eq_of_bits {p q : U32} (h30 : p.getLsbD 30 = q.getLsbD 30)
    (h31 : p.getLsbD 31 = q.getLsbD 31) : getStable p = getStable q := by
  refine Fin.ext ?_
  rw [getStable_val, getStable_val, h30, h31]

@[simp] theorem getTier_setFlag (p : U32) (f : FlowFlag) : getTier (setFlag p f) = getTier p := by
  cases f <;> exact getTier_eq_of_bits (by simp [setFlag, FlowFlag.shift])
    (by simp [setFlag, FlowFlag.shift])

@[simp] theorem getTier_clearFlag (p : U32) (f : FlowFlag) :
    getTier (clearFlag p f) = getTier p := by
  cases f <;> exact getTier_eq_of_bits (by simp [clearFlag, FlowFlag.shift])
    (by simp [clearFlag, FlowFlag.shift])

@[simp] theorem getTier_clearStable (p : U32) : getTier (clearStable p) = getTier p :=
  getTier_eq_of_bits (by simp [clearStable]) (by simp [clearStable])

@[simp] theorem getTier_setTier (p : U32) (t : Tier) : getTier (setTier p t) = t := by
  have h : getTier (setTier p t) = getTier (tierWord t <<< 28) :=
    getTier_eq_of_bits (by simp [setTier]) (by simp [setTier])
  rw [h]
  clear h
  revert t
  decide

@[simp] theorem getTier_setTierStable (p : U32) (s : Fin 4) (t : Tier) :
    getTier (setTierStable p s t) = t := by
  have h : getTier (setTierStable p s t)
      = getTier ((BitVec.ofNat 32 s <<< 2 ||| tierWord t) <<< 28) :=
    getTier_eq_of_bits (by simp [setTierStable]) (by simp [setTierStable])
  rw [h]
  clear h
  revert s t
  decide

@[simp] theorem getStable_setFlag (p : U32) (f : FlowFlag) :
    getStable (setFlag p f) = getStable p := by
  cases f <;> exact getStable_eq_of_bits (by simp [setFlag, FlowFlag.shift])
    (by simp [setFlag, FlowFlag.shift])

@[simp] theorem getStable_clearFlag (p : U32) (f : FlowFlag) :
    getStable (clearFlag p f) = getStable p := by
  cases f <;> exact getStable_eq_of_bits (by simp [clearFlag, FlowFlag.shift])
    (by simp [clearFlag, FlowFlag.shift])

@[simp] theorem getStable_clearStable (p : U32) : getStable (clearStable p) = 0 := by
  rw [getStable_eq_of_bits (q := 0#32) (by simp [clearStable]) (by simp [clearStable])]
  decide

@[simp] theorem getStable_setTier (p : U32) (t : Tier) : getStable (setTier p t) = getStable p :=
  have hlow : ∀ t : Tier, (tierWord t <<< 28).getLsbD 30 = false ∧
      (tierWord t <<< 28).getLsbD 31 = false := by decide
  getStable_eq_of_bits (by rw [setTier, BitVec.getLsbD_or, (hlow t).1]; simp)
    (by rw [setTier, BitVec.getLsbD_or, (hlow t).2]; simp)

@[simp] theorem getStable_setTierStable (p : U32) (s : Fin 4) (t : Tier) :
    getStable (setTierStable p s t) = s := by
  have h : getStable (setTierStable p s t)
      = getStable ((BitVec.ofNat 32 s <<< 2 ||| tierWord t) <<< 28) :=
    getStable_eq_of_bits (by simp [setTierStable]) (by simp [setTierStable])
  rw [h]
  clear h
  revert s t
  decide

@[simp] theorem hasFlag_setTierStable (p : U32) (s : Fin 4) (t : Tier) (f : FlowFlag) :
    hasFlag (setTierStable p s t) f = hasFlag p f := by
  rw [hasFlag_eq, hasFlag_eq]
  cases f <;> simp [setTierStable, FlowFlag.shift]

@[simp] theorem hasFlag_setTier (p : U32) (t : Tier) (f : FlowFlag) :
    hasFlag (setTier p t) f = hasFlag p f := by
  rw [hasFlag_eq, hasFlag_eq]
  cases f <;> simp [setTier, FlowFlag.shift]

@[simp] theorem hasFlag_clearStable (p : U32) (f : FlowFlag) :
    hasFlag (clearStable p) f = hasFlag p f := by
  rw [hasFlag_eq, hasFlag_eq]
  cases f <;> simp [clearStable, FlowFlag.shift]

@[simp] theorem hasFlag_setFlag (p : U32) (f g : FlowFlag) :
    hasFlag (setFlag p f) g = (hasFlag p g || decide (g = f)) := by
  rw [hasFlag_eq, hasFlag_eq, setFlag, BitVec.getLsbD_or_one_shiftLeft p f.shift_lt]
  cases f <;> cases g <;> rfl

@[simp] theorem hasFlag_clearFlag (p : U32) (f g : FlowFlag) :
    hasFlag (clearFlag p f) g = (hasFlag p g && !decide (g = f)) := by
  rw [hasFlag_eq, hasFlag_eq, clearFlag, BitVec.getLsbD_and_not_one_shiftLeft p f.shift_lt]
  cases f <;> cases g <;> rfl

/-! ### Deficit and average -/

/-- `EXTRACT_DEFICIT` -/
def extractDeficit (fused : U32) : U16 := (fused &&& 0xFFFF#32).setWidth 16

/-- `EXTRACT_AVG_RT` -/
def extractAvgRt (fused : U32) : U16 := (fused >>> 16).setWidth 16

/-- `PACK_DEFICIT_AVG` -/
def packDeficitAvg (deficit avg : U16) : U32 :=
  (deficit.setWidth 32 &&& 0xFFFF#32) ||| avg.setWidth 32 <<< 16

@[simp] theorem extractDeficit_pack (d a : U16) : extractDeficit (packDeficitAvg d a) = d := by
  refine BitVec.eq_of_getLsbD_eq fun i hi => ?_
  rw [extractDeficit, packDeficitAvg, show 0xFFFF#32 = BitVec.ofNat 32 (2 ^ 16 - 1) from rfl,
    BitVec.getLsbD_setWidth, BitVec.getLsbD_and_lowMask, BitVec.getLsbD_or,
    BitVec.getLsbD_and_lowMask]
  simp [hi, show i < 32 by omega]

@[simp] theorem extractAvgRt_pack (d a : U16) : extractAvgRt (packDeficitAvg d a) = a := by
  refine BitVec.eq_of_getLsbD_eq fun i hi => ?_
  rw [extractAvgRt, packDeficitAvg, show 0xFFFF#32 = BitVec.ofNat 32 (2 ^ 16 - 1) from rfl,
    BitVec.getLsbD_setWidth, BitVec.getLsbD_ushiftRight, BitVec.getLsbD_or,
    BitVec.getLsbD_and_lowMask]
  simp [hi, show 16 + i < 32 by omega]

namespace TaskCtx

/-- `GET_TIER(ctx)` -/
def tier (c : TaskCtx) : Tier := getTier c.packedInfo

/-- The stability counter of the packed word. -/
def stable (c : TaskCtx) : Fin 4 := getStable c.packedInfo

/-- The DRR++ deficit, the low half of `deficit_avg_fused`. -/
def deficit (c : TaskCtx) : U16 := extractDeficit c.deficitAvgFused

/-- The EWMA runtime average, the high half of `deficit_avg_fused`. -/
def avgRt (c : TaskCtx) : U16 := extractAvgRt c.deficitAvgFused

end TaskCtx

/-! ### Fused tier configuration

`[mult:12][quantum:16][starve:20]`, 16 bits reserved. -/

/-- `fused_config_t` -/
abbrev FusedConfig := U64

/-- `tier_configs[8]`: one entry per tier and four padding entries. -/
abbrev TierConfigs := Fin 8 → FusedConfig

/-- `UNPACK_MULTIPLIER` -/
def unpackMultiplier (cfg : FusedConfig) : U64 := cfg &&& 0x0FFF#64

/-- `UNPACK_STARVATION_NS`. Nothing masks the field on the way out, so reserved bits above it
would be read as part of the budget. -/
def unpackStarvationNs (cfg : FusedConfig) : U64 := (cfg >>> 28) <<< 10

/-- `PACK_CONFIG` -/
def packConfig (quantumKns mult starvationKns : U64) : FusedConfig :=
  (mult &&& 0x0FFF#64) ||| (quantumKns &&& 0xFFFF#64) <<< 12 |||
    (starvationKns &&& 0xFFFFF#64) <<< 28

@[simp] theorem unpackMultiplier_pack (q m s : U64) :
    unpackMultiplier (packConfig q m s) = m &&& 0x0FFF#64 := by
  refine BitVec.eq_of_getLsbD_eq fun i _ => ?_
  rw [unpackMultiplier, packConfig, show 0x0FFF#64 = BitVec.ofNat 64 (2 ^ 12 - 1) from rfl,
    BitVec.getLsbD_and_lowMask, BitVec.getLsbD_or, BitVec.getLsbD_or, BitVec.getLsbD_and_lowMask]
  by_cases hi : i < 12
  · simp [hi, show i < 28 by omega]
  · simp [hi]

@[simp] theorem unpackStarvationNs_pack (q m s : U64) :
    unpackStarvationNs (packConfig q m s) = (s &&& 0xFFFFF#64) <<< 10 := by
  have hshift : packConfig q m s >>> 28 = s &&& 0xFFFFF#64 := by
    refine BitVec.eq_of_getLsbD_eq fun i hi => ?_
    rw [packConfig, show 0x0FFF#64 = BitVec.ofNat 64 (2 ^ 12 - 1) from rfl,
      show 0xFFFF#64 = BitVec.ofNat 64 (2 ^ 16 - 1) from rfl,
      show 0xFFFFF#64 = BitVec.ofNat 64 (2 ^ 20 - 1) from rfl, BitVec.getLsbD_ushiftRight,
      BitVec.getLsbD_or, BitVec.getLsbD_or, BitVec.getLsbD_and_lowMask, BitVec.getLsbD_shiftLeft,
      BitVec.getLsbD_shiftLeft, BitVec.getLsbD_and_lowMask, BitVec.getLsbD_and_lowMask,
      BitVec.getLsbD_and_lowMask]
    -- the multiplier ends below bit 12 and the quantum below bit 28
    have hmult : ¬ 28 + i < 12 := by omega
    have hquantum : ¬ 28 + i - 12 < 16 := by omega
    by_cases h20 : i < 20
    · simp [h20, hmult, hquantum, show 28 + i < 64 by omega]
    · simp [h20, hmult, hquantum]
  rw [unpackStarvationNs, hshift]

end Imperator
