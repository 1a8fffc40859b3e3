/-
# Conservation of queued entries

A machine with outputs takes entries in, holds some and gives some out, in order.
A step conserves the entries when those held before it, followed by those it takes
in, are those it gives out followed by those held after it.

Steps that conserve compose (`Conserves.trans`), and a step that loses an entry is
never made good later: a run conserves its entries exactly when none of its steps
loses one (`conserves_iff`).

Where a step may also change an entry it holds, entries are weighed instead: if no
step makes more of the weight and some steps make less, a run whose weights balance
has made none of those (`every_of_balance`).
-/

import VirtualPortal.Lib.Run

namespace VirtualPortal
namespace Run

variable {σ α ε β : Type*}

section Steps

variable (held : σ → List β) (taken given : ε → Option β)

/-- From `s` to `s'` the entries held and taken in are given out or held. -/
def Conserves (s : σ) (out : List ε) (s' : σ) : Prop :=
  held s ++ out.filterMap taken = out.filterMap given ++ held s'

/-- From `s` to `s'` fewer entries are given out and held than were held and taken
in. -/
def Loses (s : σ) (out : List ε) (s' : σ) : Prop :=
  (out.filterMap given).length + (held s').length < (held s).length + (out.filterMap taken).length

variable {held taken given} {s s' s'' : σ} {out out' : List ε}

/-- A step that does nothing conserves. -/
theorem conserves_refl (s : σ) : Conserves held taken given s ([] : List ε) s :=
  List.append_nil _

/-- Two steps that conserve are one. -/
theorem Conserves.trans (h : Conserves held taken given s out s')
    (h' : Conserves held taken given s' out' s'') :
    Conserves held taken given s (out ++ out') s'' := by
  unfold Conserves at *
  rw [List.filterMap_append, List.filterMap_append, ← List.append_assoc, h, List.append_assoc, h',
    List.append_assoc]

/-- Where nothing is lost the numbers add up. -/
theorem Conserves.length (h : Conserves held taken given s out s') :
    (held s).length + (out.filterMap taken).length =
      (out.filterMap given).length + (held s').length := by
  rw [← List.length_append, h, List.length_append]

/-- No step makes good what another one loses. -/
theorem Loses.trans (h : Loses held taken given s out s')
    (h' : Conserves held taken given s' out' s'' ∨ Loses held taken given s' out' s'') :
    Loses held taken given s (out ++ out') s'' := by
  have hle : (out'.filterMap given).length + (held s'').length ≤
      (held s').length + (out'.filterMap taken).length := by
    rcases h' with h' | h'
    · exact Nat.le_of_eq h'.length.symm
    · exact Nat.le_of_lt h'
  unfold Loses at *
  rw [List.filterMap_append, List.filterMap_append, List.length_append, List.length_append]
  omega

/-- What is lost after a step that conserves is lost. -/
theorem Conserves.trans_loses (h : Conserves held taken given s out s')
    (h' : Loses held taken given s' out' s'') : Loses held taken given s (out ++ out') s'' := by
  have hlength := h.length
  unfold Loses at *
  rw [List.filterMap_append, List.filterMap_append, List.length_append, List.length_append]
  omega

/-- A step that loses something does not conserve. -/
theorem Loses.not_conserves (h : Loses held taken given s out s') :
    ¬ Conserves held taken given s out s' := fun h' => Nat.ne_of_lt h h'.length.symm

end Steps

section Runs

variable {step : σ → α → σ × List ε} {held : σ → List β} {taken given : ε → Option β}
variable {C D : σ → α → Prop} {P : σ → Prop}

/-- A run of steps that conserve the entries conserves them. -/
theorem conserves_of_every
    (hkeep : ∀ s a, C s a → Conserves held taken given s (step s a).2 (step s a).1)
    {s : σ} {as : List α} (hC : Every step C s as) :
    Conserves held taken given s (outputs step s as) (final step s as) := by
  induction as generalizing s with
  | nil => exact conserves_refl s
  | cons a as ih => exact (hkeep s a hC.1).trans (ih hC.2)

/-- Where every step conserves the entries unless `D`, and loses one if `D`, a run
of steps without `D` conserves them and every other run loses one. -/
theorem conserves_or_loses (hstep : ∀ s a, C s a → P s → P (step s a).1)
    (hkeep : ∀ s a, C s a → P s → ¬ D s a → Conserves held taken given s (step s a).2 (step s a).1)
    (hdrop : ∀ s a, C s a → P s → D s a → Loses held taken given s (step s a).2 (step s a).1)
    {s : σ} {as : List α} (hC : Every step C s as) (hs : P s) :
    Every step (fun s a => ¬ D s a) s as ∧
        Conserves held taken given s (outputs step s as) (final step s as) ∨
      ¬ Every step (fun s a => ¬ D s a) s as ∧
        Loses held taken given s (outputs step s as) (final step s as) := by
  induction as generalizing s with
  | nil => exact Or.inl ⟨trivial, conserves_refl s⟩
  | cons a as ih =>
      have hrest := ih hC.2 (hstep s a hC.1 hs)
      by_cases hD : D s a
      · have hloses := (hdrop s a hC.1 hs hD).trans (hrest.imp And.right And.right)
        exact Or.inr ⟨fun h => h.1 hD, hloses⟩
      · have hfirst := hkeep s a hC.1 hs hD
        rcases hrest with ⟨hevery, hconserves⟩ | ⟨hevery, hloses⟩
        · exact Or.inl ⟨⟨hD, hevery⟩, hfirst.trans hconserves⟩
        · exact Or.inr ⟨fun h => hevery h.2, hfirst.trans_loses hloses⟩

/-- A run conserves its entries exactly when none of its steps loses one. -/
theorem conserves_iff (hstep : ∀ s a, C s a → P s → P (step s a).1)
    (hkeep : ∀ s a, C s a → P s → ¬ D s a → Conserves held taken given s (step s a).2 (step s a).1)
    (hdrop : ∀ s a, C s a → P s → D s a → Loses held taken given s (step s a).2 (step s a).1)
    {s : σ} {as : List α} (hC : Every step C s as) (hs : P s) :
    Conserves held taken given s (outputs step s as) (final step s as) ↔
      Every step (fun s a => ¬ D s a) s as := by
  rcases conserves_or_loses hstep hkeep hdrop hC hs with ⟨hevery, h⟩ | ⟨hevery, h⟩
  · exact iff_of_true h hevery
  · exact iff_of_false h.not_conserves hevery

end Runs

section Weights

variable {step : σ → α → σ × List ε} {held : σ → ℕ} {taken given : List ε → ℕ} {D : σ → α → Prop}

/-- Nothing is made along a run. -/
theorem balance_le (htaken : ∀ l l', taken (l ++ l') = taken l + taken l')
    (hgiven : ∀ l l', given (l ++ l') = given l + given l')
    (hle : ∀ s a, given (step s a).2 + held (step s a).1 ≤ held s + taken (step s a).2)
    (s : σ) (as : List α) :
    given (outputs step s as) + held (final step s as) ≤ held s + taken (outputs step s as) := by
  induction as generalizing s with
  | nil =>
      have hnil := hgiven [] []
      rw [List.append_nil] at hnil
      simp only [outputs_nil, final_nil]
      omega
  | cons a as ih =>
      have hfirst := hle s a
      have hrest := ih (step s a).1
      rw [outputs_cons, final_cons, htaken, hgiven]
      omega

/-- A run that balances has made no step that loses weight. -/
theorem every_of_balance (htaken : ∀ l l', taken (l ++ l') = taken l + taken l')
    (hgiven : ∀ l l', given (l ++ l') = given l + given l')
    (hle : ∀ s a, given (step s a).2 + held (step s a).1 ≤ held s + taken (step s a).2)
    (hlt : ∀ s a, D s a → given (step s a).2 + held (step s a).1 < held s + taken (step s a).2)
    {s : σ} {as : List α} (h : held s + taken (outputs step s as) =
      given (outputs step s as) + held (final step s as)) :
    Every step (fun s a => ¬ D s a) s as := by
  induction as generalizing s with
  | nil => trivial
  | cons a as ih =>
      have hfirst := hle s a
      have hrest := balance_le htaken hgiven hle (step s a).1 as
      rw [outputs_cons, final_cons, htaken, hgiven] at h
      refine ⟨fun hD => ?_, ih (by omega)⟩
      have hlost := hlt s a hD
      omega

end Weights
end Run
end VirtualPortal
