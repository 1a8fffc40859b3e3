/-
# Pointers with bounds

A pointer into a range of `len` bytes reads `none` past the range.  A reader in the
`Option` monad that gets such pointers and gives a result has read nothing else, so
code is kept inside its ranges by showing that it gives one: the lemmas `be16At_eq`,
`be32At_eq` and `blockAt_eq` turn the reads that stay inside into the reads of the
memory itself, and `copyAt_eq` does so for a copy into a field of a buffer.
-/

import VirtualPortal.Lib.Bytes

namespace VirtualPortal

/-- The first `len` bytes at a pointer. -/
def bounded (len : ℕ) (p : ℕ → U8) (i : ℕ) : Option U8 := if i < len then some (p i) else none

/-- A byte inside the buffer. -/
theorem bounded_of_lt {len i : ℕ} (p : ℕ → U8) (h : i < len) : bounded len p i = some (p i) :=
  if_pos h

/-- The big-endian 16-bit word at offset `o`. -/
def be16At (p : ℕ → Option U8) (o : ℕ) : Option U16 := do
  let b₀ ← p o
  let b₁ ← p (o + 1)
  some (b₀.setWidth 16 <<< 8 ||| b₁.setWidth 16)

/-- The big-endian 32-bit word at offset `o`. -/
def be32At (p : ℕ → Option U8) (o : ℕ) : Option U32 := do
  let b₀ ← p o
  let b₁ ← p (o + 1)
  let b₂ ← p (o + 2)
  let b₃ ← p (o + 3)
  some (b₀.setWidth 32 <<< 24 ||| b₁.setWidth 32 <<< 16 ||| b₂.setWidth 32 <<< 8 ||| b₃.setWidth 32)

/-- The `n` bytes from offset `o` on. -/
def blockAt (p : ℕ → Option U8) (o : ℕ) : ℕ → Option (List U8)
  | 0 => some []
  | n + 1 => do
      let b ← p o
      let bs ← blockAt p (o + 1) n
      some (b :: bs)

variable {len o : ℕ} (p : ℕ → U8)

/-- Two bytes inside the buffer. -/
theorem be16At_eq (h : o + 2 ≤ len) : be16At (bounded len p) o = some (be16 p o) := by
  unfold be16At
  rw [bounded_of_lt p (by omega), bounded_of_lt p (by omega)]
  rfl

/-- The word at a pointer that gives the bytes of another one. -/
theorem be32At_of_eq {q : ℕ → Option U8} {o' : ℕ} (h : ∀ k < 4, q (o' + k) = some (p (o + k))) :
    be32At q o' = some (be32 p o) := by
  have h₀ := h 0 (by decide)
  rw [Nat.add_zero, Nat.add_zero] at h₀
  unfold be32At
  rw [h₀, h 1 (by decide), h 2 (by decide), h 3 (by decide)]
  rfl

/-- Four bytes inside the buffer. -/
theorem be32At_eq (h : o + 4 ≤ len) : be32At (bounded len p) o = some (be32 p o) :=
  be32At_of_eq p fun k _ => bounded_of_lt p (by omega)

/-- A block inside the buffer. -/
theorem blockAt_eq (n : ℕ) (h : o + n ≤ len) :
    blockAt (bounded len p) o n = some ((List.range n).map fun i => p (o + i)) := by
  induction n generalizing o with
  | zero => rfl
  | succ n ih =>
      have htail := @ih (o + 1) (by omega)
      have hcons : (List.range (n + 1)).map (fun i => p (o + i)) =
          p o :: (List.range n).map fun i => p (o + 1 + i) := by
        rw [List.range_succ_eq_map, List.map_cons, List.map_map]
        refine congrArg (p o :: ·) (List.map_congr_left fun i _ => ?_)
        rw [Function.comp, Nat.succ_eq_add_one, Nat.add_comm i 1, ← Nat.add_assoc]
      rw [blockAt, bounded_of_lt p (by omega), htail, hcons]
      rfl

/-- A block that is read gives its bytes back. -/
theorem getD_block (n : ℕ) {i : ℕ} (h : i < n) :
    ((List.range n).map fun i => p (o + i)).getD i 0 = p (o + i) := by
  rw [List.getD_eq_getElem?_getD, List.getElem?_map, List.getElem?_range h]
  rfl

/-! ### Writes -/

/-- Copy the first `len` bytes of a pointer to offset `o` of a buffer, byte by byte; only
the bytes from `lo` to `hi` may be written. -/
def copyAt {n : ℕ} (lo hi : ℕ) (dst : Bytes n) (o : ℕ) (src : ℕ → Option U8) : ℕ → Option (Bytes n)
  | 0 => some dst
  | len + 1 => do
      let dst ← copyAt lo hi dst o src len
      let b ← src len
      if lo ≤ o + len ∧ o + len < hi ∧ o + len < n then some (dst.copy (o + len) (fun _ => b) 1)
      else none

/-- A copy that stays inside its range is the copy of the bytes. -/
theorem copyAt_eq {n lo hi : ℕ} (dst : Bytes n) {src : ℕ → Option U8} {bytes : ℕ → U8}
    (hlo : lo ≤ o) (hhi : hi ≤ n) (h : o + len ≤ hi) (hsrc : ∀ k < len, src k = some (bytes k)) :
    copyAt lo hi dst o src len = some (dst.copy o bytes len) := by
  induction len with
  | zero =>
      refine congrArg some (funext fun i => ?_)
      exact (if_neg (by omega)).symm
  | succ len ih =>
      rw [copyAt, ih (by omega) fun k hk => hsrc k (by omega), hsrc len (by omega)]
      simp only [Option.bind_eq_bind, Option.bind_some]
      rw [if_pos ⟨by omega, by omega, by omega⟩]
      refine congrArg some (funext fun i => ?_)
      unfold Bytes.copy
      by_cases hlast : i.val = o + len
      · rw [if_pos (by omega), if_pos (by omega), hlast, Nat.add_sub_cancel_left]
      · rw [if_neg (by omega)]
        by_cases hin : o ≤ i.val ∧ i.val < o + len
        · rw [if_pos hin, if_pos (by omega)]
        · rw [if_neg hin, if_neg (by omega)]

/-- A loop whose steps have results has one. -/
theorem foldlM_eq_some {α β : Type*} {f : β → α → Option β} {g : β → α → β} {l : List α}
    (h : ∀ a ∈ l, ∀ b, f b a = some (g b a)) (b : β) : l.foldlM f b = some (l.foldl g b) := by
  induction l generalizing b with
  | nil => rfl
  | cons a l ih =>
      rw [List.foldlM_cons, h a List.mem_cons_self b]
      exact ih (fun a ha => h a (List.mem_cons_of_mem _ ha)) (g b a)

end VirtualPortal
