/-
# ARM branches into the plugin

`plugin/source/main.c` (`make_arm_branch`, `make_arm_call`) writes the branches
that replace instructions of the system module, and `pc-debug/skylanders_lab.py`
(`decode_arm_branch`) reads them back.

A branch is `101` in bits 25 to 27 and a signed count of words in bits 0 to 23,
from the instruction two words on.  The encoder works modulo `2^32`, with a
logical shift; the decoder works in unbounded integers, extends the sign itself
and reduces the sum at the end.

| word | |
| --- | --- |
| `0xea......` | branch |
| `0xeb......` | branch with link |
-/

import Mathlib.Data.Int.Bitwise
import VirtualPortal.Lib.Bytes

namespace VirtualPortal

/-! ### Masks of unbounded integers -/

/-- The low `k` bits of an integer, negative ones in two's complement. -/
theorem land_two_pow_sub_one (x : ℤ) (k : ℕ) :
    Int.land x ((2 ^ k - 1 : ℕ) : ℤ) = x % ((2 ^ k : ℕ) : ℤ) := by
  cases x with
  | ofNat m =>
      show ((m &&& (2 ^ k - 1) : ℕ) : ℤ) = _
      rw [Nat.and_two_pow_sub_one_eq_mod]
      rfl
  | negSucc m =>
      have hlt : m % 2 ^ k < 2 ^ k := Nat.mod_lt _ (Nat.two_pow_pos k)
      have hldiff : Nat.ldiff (2 ^ k - 1) m = 2 ^ k - (m % 2 ^ k + 1) := by
        refine Nat.eq_of_testBit_eq fun i => ?_
        rw [Nat.testBit_ldiff, Nat.testBit_two_pow_sub_one, Nat.testBit_two_pow_sub_succ hlt,
          Nat.testBit_mod_two_pow]
        cases decide (i < k) <;> rfl
      show ((Nat.ldiff (2 ^ k - 1) m : ℕ) : ℤ) = _
      rw [hldiff, Int.negSucc_emod _ (by positivity), ← Int.natCast_mod]
      omega

/-! ### Encoder and decoder -/

/-- The words from the instruction two on to the target, in 24 bits. -/
def armOffset (site target : U32) : U32 := ((target - (site + 8)) >>> 2) &&& 0x00ffffff

/-- `make_arm_branch` -/
def makeArmBranch (site target : U32) : U32 := 0xea000000 ||| armOffset site target

/-- `make_arm_call` -/
def makeArmCall (site target : U32) : U32 := 0xeb000000 ||| armOffset site target

/-- `decode_arm_branch` -/
def decodeArmBranch (source instruction : ℤ) : Option ℤ :=
  if Int.land instruction 0x0E000000 ≠ 0x0A000000 then none
  else
    let delta := Int.land instruction 0x00FFFFFF
    let delta := if Int.land delta 0x00800000 ≠ 0 then delta - 0x01000000 else delta
    some (Int.land (source + 8 + delta <<< (2 : ℕ)) 0xFFFFFFFF)

/-! ### Round trip -/

section RoundTrip

variable {site target op : U32}

/-- The fields of a branch word, as the decoder masks them. -/
theorem land_branch (hop : op &&& 0x0E000000 = 0x0A000000) (hlow : op &&& 0x00ffffff = 0) :
    Int.land ((op ||| armOffset site target).toNat : ℤ) 0x0E000000 = 0x0A000000 ∧
      Int.land ((op ||| armOffset site target).toNat : ℤ) 0x00FFFFFF =
        (armOffset site target).toNat := by
  have hmask (k : U32) : Int.land ((op ||| armOffset site target).toNat : ℤ) (k.toNat : ℤ) =
      (((op ||| armOffset site target) &&& k).toNat : ℤ) := by
    rw [BitVec.toNat_and]
    rfl
  have hoff (k : U32) : armOffset site target &&& k =
      ((target - (site + 8)) >>> 2) &&& (0x00ffffff &&& k) := BitVec.and_assoc ..
  have hdist (k : U32) : (op ||| armOffset site target) &&& k =
      (op &&& k) ||| (armOffset site target &&& k) := BitVec.and_or_distrib_right
  constructor
  · refine (hmask 0x0E000000).trans ?_
    rw [hdist, hop, hoff, show (0x00ffffff : U32) &&& 0x0E000000 = 0#32 by decide,
      BitVec.and_zero, BitVec.or_zero]
    rfl
  · refine (hmask 0x00FFFFFF).trans ?_
    rw [hdist, hlow, hoff, BitVec.and_self]
    exact congrArg (fun w : U32 => (w.toNat : ℤ)) BitVec.zero_or

theorem toNat_armOffset :
    (armOffset site target).toNat = (target - (site + 8)).toNat / 4 % 2 ^ 24 := by
  rw [armOffset, BitVec.toNat_and, BitVec.toNat_ushiftRight, Nat.shiftRight_eq_div_pow]
  exact Nat.and_two_pow_sub_one_eq_mod _ 24

/-- Bit 23 is the sign of the offset. -/
theorem land_sign (n : ℕ) : Int.land (n : ℤ) 0x00800000 ≠ 0 ↔ n / 2 ^ 23 % 2 = 1 := by
  have hbit : Int.land (n : ℤ) 0x00800000 = ((n.testBit 23).toNat * 2 ^ 23 : ℕ) := by
    rw [← Nat.and_two_pow]
    rfl
  rw [hbit, Nat.testBit_eq_decide_div_mod_eq]
  simp

/-- A decoded branch leads where it was aimed. -/
theorem decode_branch (hop : op &&& 0x0E000000 = 0x0A000000) (hlow : op &&& 0x00ffffff = 0)
    (hsite : 4 ∣ site.toNat) (htarget : 4 ∣ target.toNat)
    (hlo : -2 ^ 25 ≤ (target - (site + 8)).toInt) (hhi : (target - (site + 8)).toInt < 2 ^ 25) :
    decodeArmBranch site.toNat (op ||| armOffset site target).toNat = some (target.toNat : ℤ) := by
  obtain ⟨hkind, hdelta⟩ := @land_branch site target op hop hlow
  have hd : (target - (site + 8)).toNat =
      (2 ^ 32 - (site.toNat + 8) % 2 ^ 32 + target.toNat) % 2 ^ 32 := by
    rw [BitVec.toNat_sub, BitVec.toNat_add]
    rfl
  have hint := BitVec.toInt_eq_toNat_cond (target - (site + 8))
  have hs := site.isLt
  have ht := target.isLt
  simp only [decodeArmBranch, hkind, hdelta, land_sign, ne_eq, not_true_eq_false, if_false,
    Option.some.injEq, Int.shiftLeft_eq, toNat_armOffset]
  rw [show (0xFFFFFFFF : ℤ) = ((2 ^ 32 - 1 : ℕ) : ℤ) by norm_num, land_two_pow_sub_one]
  generalize (target - (site + 8)).toNat = d at *
  generalize (target - (site + 8)).toInt = v at *
  split_ifs at hint ⊢ <;> omega

end RoundTrip

/-- A branch and a call written at a word-aligned site decode to their target, when
it is word-aligned and in reach. -/
theorem decode_makeArm {site target : U32} (hsite : 4 ∣ site.toNat) (htarget : 4 ∣ target.toNat)
    (hlo : -2 ^ 25 ≤ (target - (site + 8)).toInt) (hhi : (target - (site + 8)).toInt < 2 ^ 25) :
    decodeArmBranch site.toNat (makeArmBranch site target).toNat = some (target.toNat : ℤ) ∧
      decodeArmBranch site.toNat (makeArmCall site target).toNat = some (target.toNat : ℤ) :=
  ⟨decode_branch (by decide) (by decide) hsite htarget hlo hhi,
    decode_branch (by decide) (by decide) hsite htarget hlo hhi⟩

/-- A backward branch across address 0. -/
theorem decode_makeArm_backward :
    decodeArmBranch 0 (makeArmBranch 0 0xfffffff8).toNat = some 0xfffffff8 ∧
      decodeArmBranch 0 (makeArmCall 0 0xfffffff8).toNat = some 0xfffffff8 :=
  @decode_makeArm 0 0xfffffff8 (by decide) (by decide) (by decide) (by decide)

end VirtualPortal
