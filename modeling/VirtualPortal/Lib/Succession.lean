/-
# Observations in succession

An observer sees some of the outputs of a machine, at most one in a step.  When each
observation is in a relation to the one before it, given an invariant of the state and
of the last observation, the observations of a whole run form a chain
(`isChain_observed`), and the invariant holds of the last one (`observed_invariant`).

`observed_refines` is about two machines: what is observed of the first one is all that
the second one emits.
-/

import VirtualPortal.Lib.Run
import Mathlib.Data.List.Chain

namespace VirtualPortal
namespace Run

variable {σ α ε β : Type*}

/-- A step that shows nothing keeps the invariant of the last observation, and one that
shows `b'` after `b` makes it an invariant of `b'`. -/
def Succeeds (obs : ε → Option β) (R : β → β → Prop) (P : σ → β → Prop) (b : β) (out : List ε)
    (s' : σ) : Prop :=
  out.filterMap obs = [] ∧ P s' b ∨ ∃ b', out.filterMap obs = [b'] ∧ R b b' ∧ P s' b'

variable {step : σ → α → σ × List ε} {C : σ → α → Prop} {obs : ε → Option β} {R : β → β → Prop}
variable {P : σ → β → Prop}

/-- The observations of a run form a chain with the last one before it. -/
theorem isChain_observed
    (hstep : ∀ s a b, C s a → P s b → Succeeds obs R P b (step s a).2 (step s a).1)
    {s : σ} {as : List α} {b : β} (hC : Every step C s as) (hs : P s b) :
    (b :: (outputs step s as).filterMap obs).IsChain R := by
  induction as generalizing s b with
  | nil => exact List.isChain_singleton b
  | cons a as ih =>
      rw [outputs_cons, List.filterMap_append]
      rcases hstep s a b hC.1 hs with ⟨hnone, hnext⟩ | ⟨b', hone, hR, hnext⟩
      · rw [hnone, List.nil_append]
        exact ih hC.2 hnext
      · rw [hone, List.singleton_append, List.isChain_cons_cons]
        exact ⟨hR, ih hC.2 hnext⟩

/-- The invariant holds at the end of a run, of the last observation. -/
theorem observed_invariant
    (hstep : ∀ s a b, C s a → P s b → Succeeds obs R P b (step s a).2 (step s a).1)
    {s : σ} {as : List α} {b : β} (hC : Every step C s as) (hs : P s b) :
    P (final step s as) (((outputs step s as).filterMap obs).getLastD b) := by
  induction as generalizing s b with
  | nil => exact hs
  | cons a as ih =>
      rw [outputs_cons, List.filterMap_append, final_cons]
      rcases hstep s a b hC.1 hs with ⟨hnone, hnext⟩ | ⟨b', hone, -, hnext⟩
      · rw [hnone, List.nil_append]
        exact ih hC.2 hnext
      · rw [hone, List.singleton_append, List.getLastD_cons]
        exact ih hC.2 hnext

/-- A relation that steps meeting `C` preserve, when the second machine emits what is
observed of the first one. -/
theorem observed_refines {τ : Type*} {step' : τ → α → τ × List β} {Q : σ → τ → Prop}
    (hstep : ∀ s t a, C s a → Q s t →
      Q (step s a).1 (step' t a).1 ∧ (step s a).2.filterMap obs = (step' t a).2)
    {s : σ} {t : τ} {as : List α} (hC : Every step C s as) (h : Q s t) :
    Q (final step s as) (final step' t as) ∧
      (outputs step s as).filterMap obs = outputs step' t as := by
  induction as generalizing s t with
  | nil => exact ⟨h, rfl⟩
  | cons a as ih =>
      obtain ⟨hnext, hout⟩ := hstep s t a hC.1 h
      obtain ⟨hfinal, houts⟩ := ih hC.2 hnext
      refine ⟨hfinal, ?_⟩
      rw [outputs_cons, outputs_cons, List.filterMap_append, hout, houts]

end Run
end VirtualPortal
