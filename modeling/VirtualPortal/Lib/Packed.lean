/-
# Fields packed in a word

`pack k f` puts `n` fields of `k` bits each into a word, field 0 lowest.  When the
fields fit, each can be read back: bit `b` of field `i` is bit `i * k + b` of the word
(`getLsbD_pack`).
-/

import Mathlib.Data.Nat.Notation
import Mathlib.Data.List.FinRange

namespace VirtualPortal
namespace Packed

variable {w n : ℕ}

/-- `n` fields of `k` bits, field 0 lowest. -/
def pack (k : ℕ) (f : Fin n → BitVec w) : BitVec w :=
  (List.finRange n).foldl (fun word i => word ||| f i <<< (i.val * k)) 0

/-- A bit of a disjunction is set where it is set in one of the parts. -/
theorem getLsbD_foldl_or {ι : Type*} (f : ι → BitVec w) (l : List ι) (word : BitVec w) (b : ℕ) :
    (l.foldl (fun word i => word ||| f i) word).getLsbD b =
      (word.getLsbD b || l.any fun i => (f i).getLsbD b) := by
  induction l generalizing word with
  | nil => rw [List.foldl_nil, List.any_nil, Bool.or_false]
  | cons i l ih => rw [List.foldl_cons, ih, BitVec.getLsbD_or, List.any_cons, Bool.or_assoc]

/-- A field of `k` bits lies in its own part of the word. -/
theorem getLsbD_field {k : ℕ} {f : BitVec w} (hf : ∀ b, k ≤ b → f.getLsbD b = false) {i j b : ℕ}
    (hb : b < k) (hw : i * k + b < w) :
    (f <<< (j * k)).getLsbD (i * k + b) = (decide (i = j) && f.getLsbD b) := by
  rw [BitVec.getLsbD_shiftLeft]
  rcases Nat.lt_trichotomy i j with hij | rfl | hij
  · have hlow : i * k + b < j * k := by
      have := Nat.mul_le_mul_right k (show i + 1 ≤ j from hij)
      rw [Nat.add_mul, Nat.one_mul] at this
      omega
    simp [hlow, hij.ne]
  · simp [hw]
  · have hhigh : k ≤ i * k + b - j * k := by
      have := Nat.mul_le_mul_right k (show j + 1 ≤ i from hij)
      rw [Nat.add_mul, Nat.one_mul] at this
      omega
    rw [hf _ hhigh]
    simp [hij.ne']

/-- Fields that fit can be read back. -/
theorem getLsbD_pack {k : ℕ} {f : Fin n → BitVec w} (hf : ∀ i b, k ≤ b → (f i).getLsbD b = false)
    (hn : n * k ≤ w) (i : Fin n) {b : ℕ} (hb : b < k) :
    (pack k f).getLsbD (i.val * k + b) = (f i).getLsbD b := by
  have hw : i.val * k + b < w := by
    have := Nat.mul_le_mul_right k (show i.val + 1 ≤ n from i.isLt)
    rw [Nat.add_mul, Nat.one_mul] at this
    omega
  have hfield (j : Fin n) : (f j <<< (j.val * k)).getLsbD (i.val * k + b) =
      (decide (i = j) && (f j).getLsbD b) := by
    rw [getLsbD_field (hf j) hb hw]
    simp only [Fin.ext_iff]
  rw [pack, getLsbD_foldl_or]
  simp only [hfield]
  cases hbit : (f i).getLsbD b with
  | true =>
      rw [Bool.or_eq_true, List.any_eq_true]
      exact Or.inr ⟨i, List.mem_finRange i, by simp [hbit]⟩
  | false =>
      rw [Bool.or_eq_false_iff, List.any_eq_false]
      refine ⟨by simp, fun j _ => ?_⟩
      rintro h
      rw [Bool.and_eq_true, decide_eq_true_eq] at h
      obtain ⟨rfl, h⟩ := h
      rw [hbit] at h
      cases h

end Packed
end VirtualPortal
