/-
# Cells that are replaced once

A memory `α → β` in which some cells, named by `κ`, each have an old and a new value.
`Replaced c w w'` says that `w'` is `w` but for named cells that held their old value and
hold their new one.  It is a preorder, a cell that holds its new value keeps it, and one
that holds neither value is never replaced.
-/

import Mathlib.Logic.Function.Basic

namespace VirtualPortal

/-- Where the named cells are, and their old and new values. -/
structure Cells (κ α β : Type*) where
  site : κ → α
  old : κ → β
  new : κ → β
  site_injective : Function.Injective site
  old_ne_new : ∀ k, old k ≠ new k

variable {κ α β : Type*} {c : Cells κ α β} {w w' w'' : α → β} {k : κ}

/-- Some of the named cells have been replaced. -/
def Replaced (c : Cells κ α β) (w w' : α → β) : Prop :=
  ∀ a, w' a = w a ∨ ∃ k, a = c.site k ∧ w a = c.old k ∧ w' a = c.new k

namespace Replaced

theorem refl (c : Cells κ α β) (w : α → β) : Replaced c w w := fun _ => Or.inl rfl

/-- A cell that holds its new value keeps it. -/
theorem keeps (h : Replaced c w w') (hk : w (c.site k) = c.new k) : w' (c.site k) = c.new k := by
  rcases h (c.site k) with hsame | ⟨k', hsite, hold, -⟩
  · exact hsame.trans hk
  · obtain rfl := c.site_injective hsite
    exact absurd (hold.symm.trans hk) (c.old_ne_new k)

/-- A cell that does not hold its old value is left alone. -/
theorem stays (h : Replaced c w w') (hk : w (c.site k) ≠ c.old k) :
    w' (c.site k) = w (c.site k) := by
  rcases h (c.site k) with hsame | ⟨k', hsite, hold, -⟩
  · exact hsame
  · obtain rfl := c.site_injective hsite
    exact absurd hold hk

/-- A cell that holds its old value has held it before. -/
theorem was_old (h : Replaced c w w') (hk : w' (c.site k) = c.old k) : w (c.site k) = c.old k := by
  by_contra hne
  exact hne ((h.stays hne).symm.trans hk)

theorem trans (h : Replaced c w w') (h' : Replaced c w' w'') : Replaced c w w'' := by
  intro a
  rcases h a with hsame | ⟨k, rfl, hold, hnew⟩
  · rcases h' a with hsame' | ⟨k, hsite, hold, hnew⟩
    · exact Or.inl (hsame'.trans hsame)
    · exact Or.inr ⟨k, hsite, hsame.symm.trans hold, hnew⟩
  · exact Or.inr ⟨k, rfl, hold, h'.keeps hnew⟩

/-- Replacing one cell. -/
theorem update [DecidableEq α] (hk : w (c.site k) = c.old k) :
    Replaced c w (Function.update w (c.site k) (c.new k)) := by
  intro a
  by_cases ha : a = c.site k
  · subst ha
    exact Or.inr ⟨k, rfl, hk, Function.update_self ..⟩
  · exact Or.inl (Function.update_of_ne ha ..)

end Replaced
end VirtualPortal
