/-
# Lists related by index

Two lists of one length whose elements at each index are related, the index
counted from a base: what a loop `for i, a in enumerate(as)` that builds a second
list has checked.  The rules are those of such a loop: the empty list, one more
element in front with the base moved on, one loop after another.
-/

import Mathlib.Data.List.Basic

namespace VirtualPortal

/-- Two lists of one length, related element by element, with the index. -/
structure Indexed {α β : Type} (R : ℕ → α → β → Prop) (i : ℕ) (as : List α) (bs : List β) :
    Prop where
  length : as.length = bs.length
  rel : ∀ k a b, as[k]? = some a → bs[k]? = some b → R (i + k) a b

namespace Indexed

variable {α β : Type} {R S : ℕ → α → β → Prop} {i : ℕ} {a : α} {b : β} {as : List α} {bs : List β}

/-- Two empty lists. -/
theorem nil : Indexed R i [] ([] : List β) := ⟨rfl, by simp⟩

/-- The heads are related at the index, and the tails after it. -/
theorem cons_iff : Indexed R i (a :: as) (b :: bs) ↔ R i a b ∧ Indexed R (i + 1) as bs := by
  constructor
  · rintro ⟨hlen, h⟩
    refine ⟨h 0 a b rfl rfl, by simpa using hlen, fun k x y hx hy => ?_⟩
    rw [Nat.add_assoc, Nat.add_comm 1 k]
    exact h (k + 1) x y (by simpa using hx) (by simpa using hy)
  · rintro ⟨h₀, hlen, h⟩
    refine ⟨by simpa using hlen, fun k x y hx hy => ?_⟩
    cases k with
    | zero =>
        obtain rfl : a = x := by simpa using hx
        obtain rfl : b = y := by simpa using hy
        exact h₀
    | succ k =>
        rw [Nat.add_comm k 1, ← Nat.add_assoc]
        exact h k x y (by simpa using hx) (by simpa using hy)

/-- One loop after the other. -/
theorem append {as' : List α} {bs' : List β} (h : Indexed R i as bs)
    (h' : Indexed R (i + as.length) as' bs') : Indexed R i (as ++ as') (bs ++ bs') := by
  refine ⟨by simp [h.length, h'.length], fun k x y hx hy => ?_⟩
  rcases Nat.lt_or_ge k as.length with hk | hk
  · rw [List.getElem?_append_left hk] at hx
    rw [List.getElem?_append_left (h.length ▸ hk)] at hy
    exact h.rel k x y hx hy
  · rw [List.getElem?_append_right hk] at hx
    rw [List.getElem?_append_right (h.length ▸ hk), ← h.length] at hy
    have := h'.rel _ x y hx hy
    rwa [show i + as.length + (k - as.length) = i + k by omega] at this

/-- A weaker relation. -/
theorem mono (h : Indexed R i as bs) (hRS : ∀ k a b, R k a b → S k a b) : Indexed S i as bs :=
  ⟨h.length, fun k a b ha hb => hRS _ a b (h.rel k a b ha hb)⟩

/-- The element beside an element. -/
theorem exists_right (h : Indexed R i as bs) {k : ℕ} (ha : as[k]? = some a) :
    ∃ b, bs[k]? = some b ∧ R (i + k) a b := by
  have hk : k < bs.length := h.length ▸ (List.getElem?_eq_some_iff.mp ha).1
  exact ⟨bs[k], List.getElem?_eq_getElem hk, h.rel k a _ ha (List.getElem?_eq_getElem hk)⟩

end Indexed

end VirtualPortal
