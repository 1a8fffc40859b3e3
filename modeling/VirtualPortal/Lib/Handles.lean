/-
# Objects behind handles

A kernel keeps the objects of a program under handles.  A call that makes an object
returns its handle, or a negative number and no object; the handle of a new object is
not that of a living one (`Fresh`).

An object that is closed again leaves the table as it was (`close_open`).
-/

import Mathlib.Data.Int.Notation
import Mathlib.Data.List.Basic
import Mathlib.Tactic.SplitIfs

namespace VirtualPortal
namespace Handles

variable {α : Type*}

/-- The objects, each with its handle. -/
abbrev Table (α : Type*) := List (ℤ × α)

variable {t : Table α} {h : ℤ} {a : α} {f : α → α}

/-- A call that makes the object `a` and returns `h`. -/
def opened (t : Table α) (h : ℤ) (a : α) : Table α := if h < 0 then t else (h, a) :: t

/-- The object is gone. -/
def closed (t : Table α) (h : ℤ) : Table α := t.filter fun p => p.1 ≠ h

/-- The object is changed. -/
def changed (t : Table α) (h : ℤ) (f : α → α) : Table α :=
  t.map fun p => if p.1 = h then (p.1, f p.2) else p

/-- A call that makes an object returns no handle of another. -/
def Fresh (t : Table α) (h : ℤ) : Prop := 0 ≤ h → ∀ p ∈ t, p.1 ≠ h

instance (t : Table α) (h : ℤ) : Decidable (Fresh t h) :=
  inferInstanceAs (Decidable (0 ≤ h → ∀ p ∈ t, p.1 ≠ h))

/-- A call that has failed opens nothing. -/
theorem opened_of_neg (hh : h < 0) : opened t h a = t := if_pos hh

/-- A handle that is returned is open. -/
theorem opened_of_nonneg (hh : 0 ≤ h) : opened t h a = (h, a) :: t := if_neg (by omega)

/-- Closing a fresh handle that has been opened undoes it. -/
theorem closed_opened (hfresh : Fresh t h) (hh : 0 ≤ h) : closed (opened t h a) h = t := by
  have hkept : t.filter (fun p => p.1 ≠ h) = t :=
    List.filter_eq_self.mpr fun p hp => decide_eq_true (hfresh hh p hp)
  rw [opened_of_nonneg hh, closed, List.filter_cons_of_neg (by simp), hkept]

/-- A change of what was just opened is a change of what it is opened with. -/
theorem changed_opened (hfresh : Fresh t h) (hh : 0 ≤ h) :
    changed (opened t h a) h f = opened t h (f a) := by
  have hkept : t.map (fun p => if p.1 = h then (p.1, f p.2) else p) = t := by
    refine (List.map_congr_left fun p hp => ?_).trans (List.map_id t)
    rw [if_neg (hfresh hh p hp)]
    rfl
  rw [opened_of_nonneg hh, opened_of_nonneg hh, changed, List.map_cons, if_pos rfl, hkept]

end Handles
end VirtualPortal
