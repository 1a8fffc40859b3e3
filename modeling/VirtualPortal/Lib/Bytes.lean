/-
# Fixed-size byte buffers

A buffer of `n` bytes is a function on `Fin n`, and an address space or a
pointer into one is a function on `ℕ`.  A read at an offset (`byte`) is total:
outside the buffer it gives `0`, so a reader that stays inside, as every lemma
below asks for, cannot tell.

`copy` is the byte loop `while (n--) *to++ = *from++` at an offset, and
`be32` / `putBe32` are the big-endian 32-bit accessors.  What a copy leaves
alone (`copy_of_lt`, `copy_of_le`) and what it writes (`copy_of_mem`) is all
that the proofs about records use; `be32_putBe32` is the round trip of the
accessors.
-/

import Mathlib.Data.Fin.Basic
import Mathlib.Data.List.OfFn
import Mathlib.Tactic.SplitIfs
import Mathlib.Tactic.NormNum

namespace VirtualPortal

abbrev U8 := BitVec 8
abbrev U16 := BitVec 16
abbrev U32 := BitVec 32

/-! The sizes for which index literals are written. -/

instance neZero_two : NeZero 2 := ⟨by decide⟩
instance neZero_eight : NeZero 8 := ⟨by decide⟩
instance neZero_sixteen : NeZero 16 := ⟨by decide⟩
instance neZero_thirtyTwo : NeZero 32 := ⟨by decide⟩

/-- A number that fits is unchanged. -/
theorem toNat_ofNat_of_lt {w k : ℕ} (h : k < 2 ^ w) : (BitVec.ofNat w k).toNat = k := by
  rw [BitVec.toNat_ofNat, Nat.mod_eq_of_lt h]

/-- A buffer of `n` bytes. -/
abbrev Bytes (n : ℕ) := Fin n → U8

namespace Bytes

variable {n : ℕ}

/-- Byte `i` of a buffer, `0` outside it. -/
def byte (p : Bytes n) (i : ℕ) : U8 := if h : i < n then p ⟨i, h⟩ else 0

/-- The buffer with every byte zero. -/
def zero (n : ℕ) : Bytes n := fun _ => 0

/-- Overwrite `len` bytes from offset `off` with the bytes of `src`. -/
def copy (p : Bytes n) (off : ℕ) (src : ℕ → U8) (len : ℕ) : Bytes n := fun i =>
  if off ≤ i.val ∧ i.val < off + len then src (i.val - off) else p i

/-- Byte `k` of a 32-bit word in big-endian order. -/
def be32Byte (v : U32) (k : ℕ) : U8 := v.extractLsb' (24 - 8 * k) 8

/-- Store a 32-bit word at offset `off`, most significant byte first. -/
def putBe32 (p : Bytes n) (off : ℕ) (v : U32) : Bytes n := p.copy off (be32Byte v) 4

/-- A byte inside the array. -/
theorem byte_of_lt (p : Bytes n) {i : ℕ} (h : i < n) : p.byte i = p ⟨i, h⟩ := by
  simp only [byte, h, dite_true]

/-- A byte of the array by its index. -/
@[simp] theorem byte_val (p : Bytes n) (i : Fin n) : p.byte i.val = p i := p.byte_of_lt i.isLt

/-- An array of zeros. -/
@[simp] theorem byte_zero (n i : ℕ) : (zero n).byte i = 0 := by
  unfold byte zero; split_ifs <;> rfl

/-- Below its offset a copy changes nothing. -/
theorem byte_copy_of_lt (p : Bytes n) {off i len : ℕ} (src : ℕ → U8) (h : i < off) :
    (p.copy off src len).byte i = p.byte i := by
  have hn : ¬(off ≤ i ∧ i < off + len) := by omega
  simp only [byte, copy, hn, if_false]

/-- Past its last byte a copy changes nothing. -/
theorem byte_copy_of_le (p : Bytes n) {off i len : ℕ} (src : ℕ → U8) (h : off + len ≤ i) :
    (p.copy off src len).byte i = p.byte i := by
  have hn : ¬(off ≤ i ∧ i < off + len) := by omega
  simp only [byte, copy, hn, if_false]

/-- Inside its window a copy puts the source's bytes. -/
theorem byte_copy_of_mem (p : Bytes n) {off i len : ℕ} (src : ℕ → U8) (h₁ : off ≤ i)
    (h₂ : i < off + len) (hi : i < n) : (p.copy off src len).byte i = src (i - off) := by
  unfold byte copy
  simp only [hi, dite_true, h₁, h₂, and_self, if_true]

/-- Copying onto a whole buffer forgets what the buffer held. -/
theorem copy_congr {p : Bytes n} {off len : ℕ} {src src' : ℕ → U8}
    (h : ∀ k < len, src k = src' k) : p.copy off src len = p.copy off src' len := by
  funext i
  unfold copy
  split_ifs with hi
  · exact h _ (by omega)
  · rfl

/-- A copy over the whole array. -/
theorem copy_all (p : Bytes n) (src : ℕ → U8) : p.copy 0 src n = fun i => src i.val := by
  funext i
  simp only [copy, Nat.zero_le, Nat.zero_add, i.isLt, and_self, if_true, Nat.sub_zero]

end Bytes

/-- The big-endian 32-bit word at offset `o`. -/
def be32 (p : ℕ → U8) (o : ℕ) : U32 :=
  (p o).setWidth 32 <<< 24 ||| (p (o + 1)).setWidth 32 <<< 16 |||
    (p (o + 2)).setWidth 32 <<< 8 ||| (p (o + 3)).setWidth 32

/-- The big-endian 16-bit word at offset `o`. -/
def be16 (p : ℕ → U8) (o : ℕ) : U16 := (p o).setWidth 16 <<< 8 ||| (p (o + 1)).setWidth 16

/-- A word depends on its four bytes. -/
theorem be32_congr {p q : ℕ → U8} {o o' : ℕ} (h : ∀ k < 4, p (o + k) = q (o' + k)) :
    be32 p o = be32 q o' := by
  have h₀ := h 0 (by omega)
  simp only [Nat.add_zero] at h₀
  rw [be32, be32, h₀, h 1 (by omega), h 2 (by omega), h 3 (by omega)]

/-- Four bytes taken from a word in big-endian order are that word again. -/
theorem be32_be32Byte (v : U32) : be32 (Bytes.be32Byte v) 0 = v := by
  apply BitVec.eq_of_getLsbD_eq
  intro i hi
  simp only [be32, Bytes.be32Byte, BitVec.getLsbD_or, BitVec.getLsbD_shiftLeft,
    BitVec.getLsbD_setWidth, BitVec.getLsbD_extractLsb']
  rcases Nat.lt_or_ge i 8 with h | h
  · simp; grind
  · rcases Nat.lt_or_ge i 16 with h' | h'
    · simp; grind
    · rcases Nat.lt_or_ge i 24 with h'' | h''
      · simp; grind
      · simp; grind

namespace Bytes

variable {n : ℕ}

/-- Reading a word back where it was stored gives that word. -/
theorem be32_putBe32 (p : Bytes n) {o : ℕ} (v : U32) (h : o + 4 ≤ n) :
    be32 (p.putBe32 o v).byte o = v := by
  conv_rhs => rw [← be32_be32Byte v]
  refine be32_congr fun k hk => ?_
  rw [putBe32, byte_copy_of_mem _ _ (by omega) (by omega) (by omega)]
  congr 1
  omega

/-- A copy elsewhere does not change a word. -/
theorem be32_copy_of_disjoint (p : Bytes n) {o off len : ℕ} (src : ℕ → U8)
    (h : o + 4 ≤ off ∨ off + len ≤ o) : be32 (p.copy off src len).byte o = be32 p.byte o := by
  refine be32_congr fun k hk => ?_
  rcases h with h | h
  · exact byte_copy_of_lt _ _ (by omega)
  · exact byte_copy_of_le _ _ (by omega)

/-- A word stored elsewhere does not change a word. -/
theorem be32_putBe32_of_disjoint (p : Bytes n) {o o' : ℕ} (v : U32)
    (h : o + 4 ≤ o' ∨ o' + 4 ≤ o) : be32 (p.putBe32 o' v).byte o = be32 p.byte o :=
  be32_copy_of_disjoint p _ h

/-- The bytes before a word that is put. -/
theorem byte_putBe32_of_lt (p : Bytes n) {o i : ℕ} (v : U32) (h : i < o) :
    (p.putBe32 o v).byte i = p.byte i := p.byte_copy_of_lt _ h

/-- The bytes after a word that is put. -/
theorem byte_putBe32_of_le (p : Bytes n) {o i : ℕ} (v : U32) (h : o + 4 ≤ i) :
    (p.putBe32 o v).byte i = p.byte i := p.byte_copy_of_le _ h

end Bytes
end VirtualPortal
