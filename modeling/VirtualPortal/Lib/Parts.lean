/-
# A buffer written part by part

A loop that gives every element of a list its own part of a buffer.  What it writes for
an element stays in the part and depends on nothing outside (`Confined`), so the order
of the loop does not matter: in the part of an element the buffer is as if this element
had been the only one (`byte_foldl_self`), and outside the parts nothing has changed
(`byte_foldl_other`).
-/

import VirtualPortal.Lib.Bytes
import Mathlib.Data.List.Pairwise

namespace VirtualPortal
namespace Parts

variable {n : ℕ} {α : Type*} {part : α → ℕ → Prop}
  {put : Bytes n → α → Bytes n} {a : α} {as : List α}
  {p q : Bytes n} {x : ℕ}

/-- What is written for each element stays in its part. -/
structure Confined (part : α → ℕ → Prop) (put : Bytes n → α → Bytes n) (as : List α) : Prop where
  outside : ∀ a ∈ as, ∀ p x, ¬ part a x → (put p a).byte x = p.byte x
  inside : ∀ a ∈ as, ∀ p q, (∀ y, part a y → p.byte y = q.byte y) →
    ∀ x, part a x → (put p a).byte x = (put q a).byte x

/-- No byte is in the parts of two elements. -/
def Apart (part : α → ℕ → Prop) (as : List α) : Prop :=
  as.Pairwise fun a b => ∀ x, part a x → ¬ part b x

theorem Confined.tail (h : Confined part put (a :: as)) : Confined part put as where
  outside b hb := h.outside b (List.mem_cons_of_mem a hb)
  inside b hb := h.inside b (List.mem_cons_of_mem a hb)

/-- Outside the parts nothing changes. -/
theorem byte_foldl_other (h : Confined part put as) (hx : ∀ a ∈ as, ¬ part a x) :
    (as.foldl put p).byte x = p.byte x := by
  induction as generalizing p with
  | nil => rfl
  | cons b bs ih =>
      rw [List.foldl_cons, ih h.tail fun a ha => hx a (List.mem_cons_of_mem b ha)]
      exact h.outside b List.mem_cons_self p x (hx b List.mem_cons_self)

/-- In the part of an element only what is written for it counts. -/
theorem byte_foldl_self (h : Confined part put as) (hapart : Apart part as) (ha : a ∈ as)
    (hx : part a x) : (as.foldl put p).byte x = (put p a).byte x := by
  induction as generalizing p with
  | nil => exact absurd ha List.not_mem_nil
  | cons b bs ih =>
      obtain ⟨hb, hbs⟩ := List.pairwise_cons.mp hapart
      rw [List.foldl_cons]
      rcases List.mem_cons.mp ha with rfl | ha'
      · exact byte_foldl_other h.tail fun c hc => hb c hc x hx
      · rw [ih h.tail hbs ha']
        refine h.inside a ha _ _ (fun y hy => ?_) x hx
        refine h.outside b List.mem_cons_self p y fun hpart => ?_
        exact hb a ha' y hpart hy

/-- A byte after a copy depends on the byte before it only. -/
theorem byte_copy_congr {src : ℕ → U8} {off len : ℕ} (h : p.byte x = q.byte x) :
    (p.copy off src len).byte x = (q.copy off src len).byte x := by
  unfold Bytes.byte Bytes.copy at *
  split_ifs at h ⊢
  · rfl
  · exact h
  · rfl

end Parts
end VirtualPortal
