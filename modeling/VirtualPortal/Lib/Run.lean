/-
# Runs of a machine with outputs

A machine is a step function `σ → α → σ × List ε`: from a state and an input it
gives the next state and the list of effects the step emits.  A run feeds it a
list of inputs; `final` is the state it ends in and `outputs` everything it
emitted, in order.

`Every C` says that each step of a run meets the condition `C` on the state it
starts from and the input it takes.  The induction rules are `final_of_every`
(an invariant), `outputs_of_every` (a relation between the state and everything
emitted so far) and `every_of_every` (a step lemma turned into a fact about each
step of the run); `simulates` relates the runs of two machines.
-/

import Mathlib.Data.List.Basic

namespace VirtualPortal
namespace Run

variable {σ α ε : Type*}

/-- The state at the end of a run. -/
def final (step : σ → α → σ × List ε) (s : σ) : List α → σ
  | [] => s
  | a :: as => final step (step s a).1 as

/-- All effects of a run, oldest first. -/
def outputs (step : σ → α → σ × List ε) (s : σ) : List α → List ε
  | [] => []
  | a :: as => (step s a).2 ++ outputs step (step s a).1 as

/-- Each step of the run meets `C`. -/
def Every (step : σ → α → σ × List ε) (C : σ → α → Prop) (s : σ) : List α → Prop
  | [] => True
  | a :: as => C s a ∧ Every step C (step s a).1 as

variable {step : σ → α → σ × List ε} {C D : σ → α → Prop}

@[simp] theorem final_nil (s : σ) : final step s [] = s := rfl
@[simp] theorem final_cons (s : σ) (a : α) (as : List α) :
    final step s (a :: as) = final step (step s a).1 as := rfl
@[simp] theorem outputs_nil (s : σ) : outputs step s [] = [] := rfl
@[simp] theorem outputs_cons (s : σ) (a : α) (as : List α) :
    outputs step s (a :: as) = (step s a).2 ++ outputs step (step s a).1 as := rfl
@[simp] theorem every_nil (s : σ) : Every step C s [] := trivial
@[simp] theorem every_cons (s : σ) (a : α) (as : List α) :
    Every step C s (a :: as) ↔ C s a ∧ Every step C (step s a).1 as := Iff.rfl

/-- A run in two parts ends where the second part ends. -/
theorem final_append (s : σ) (as bs : List α) :
    final step s (as ++ bs) = final step (final step s as) bs := by
  induction as generalizing s with
  | nil => rfl
  | cons a as ih => simpa only [List.cons_append, final_cons] using ih (step s a).1

/-- The outputs of a run in two parts. -/
theorem outputs_append (s : σ) (as bs : List α) :
    outputs step s (as ++ bs) = outputs step s as ++ outputs step (final step s as) bs := by
  induction as generalizing s with
  | nil => rfl
  | cons a as ih =>
      simp only [List.cons_append, outputs_cons, final_cons, List.append_assoc, ih]

/-- A run in two parts meets a condition just if both parts do. -/
theorem every_append (s : σ) (as bs : List α) :
    Every step C s (as ++ bs) ↔ Every step C s as ∧ Every step C (final step s as) bs := by
  induction as generalizing s with
  | nil => simp only [List.nil_append, every_nil, final_nil, true_and]
  | cons a as ih => simp only [List.cons_append, every_cons, final_cons, ih, and_assoc]

instance instDecidableEvery [∀ s a, Decidable (C s a)] (s : σ) :
    (as : List α) → Decidable (Every step C s as)
  | [] => inferInstanceAs (Decidable True)
  | a :: as =>
      have := instDecidableEvery (step s a).1 as
      inferInstanceAs (Decidable (_ ∧ _))

/-- A condition on the inputs alone. -/
theorem every_of_mem {as : List α} (h : ∀ a ∈ as, ∀ s, C s a) (s : σ) : Every step C s as := by
  induction as generalizing s with
  | nil => trivial
  | cons a as ih =>
      exact ⟨h a List.mem_cons_self s, ih (fun b hb => h b (List.mem_cons_of_mem a hb)) _⟩

/-- Every run meets the condition that is always true. -/
theorem every_true (s : σ) (as : List α) : Every step (fun _ _ => True) s as :=
  every_of_mem (fun _ _ _ => trivial) s

/-- An invariant that every step meeting `C` preserves holds at the end of a
run of such steps. -/
theorem final_of_every {P : σ → Prop} (hstep : ∀ s a, C s a → P s → P (step s a).1)
    {s : σ} {as : List α} (hC : Every step C s as) (hs : P s) : P (final step s as) := by
  induction as generalizing s with
  | nil => exact hs
  | cons a as ih => exact ih hC.2 (hstep s a hC.1 hs)

/-- An invariant of the state and of everything emitted so far. -/
theorem outputs_of_every {P : σ → List ε → Prop}
    (hstep : ∀ s l a, C s a → P s l → P (step s a).1 (l ++ (step s a).2))
    {s : σ} {l : List ε} {as : List α} (hC : Every step C s as) (hs : P s l) :
    P (final step s as) (l ++ outputs step s as) := by
  induction as generalizing s l with
  | nil => simpa only [outputs_nil, List.append_nil, final_nil] using hs
  | cons a as ih =>
      rw [outputs_cons, ← List.append_assoc]
      exact ih hC.2 (hstep s l a hC.1 hs)

/-- What every step from a state of the invariant does, it does at each step of
the run. -/
theorem every_of_every {P : σ → Prop} (hstep : ∀ s a, C s a → P s → P (step s a).1)
    (hD : ∀ s a, C s a → P s → D s a) {s : σ} {as : List α} (hC : Every step C s as)
    (hs : P s) : Every step D s as := by
  induction as generalizing s with
  | nil => trivial
  | cons a as ih => exact ⟨hD s a hC.1 hs, ih hC.2 (hstep s a hC.1 hs)⟩

/-- The inputs of a run, translated beforehand or step by step. -/
theorem run_map {α' : Type*} (f : α' → α) (s : σ) (as : List α') :
    final step s (as.map f) = final (fun s a => step s (f a)) s as ∧
      outputs step s (as.map f) = outputs (fun s a => step s (f a)) s as := by
  induction as generalizing s with
  | nil => exact ⟨rfl, rfl⟩
  | cons a as ih => exact ⟨(ih _).1, congrArg ((step s (f a)).2 ++ ·) (ih _).2⟩

/-- A relation that steps with the same input and the same effects preserve: the
first machine simulates the second. -/
theorem simulates {τ : Type*} {step' : τ → α → τ × List ε} {R : σ → τ → Prop}
    (hstep : ∀ s t a, R s t → R (step s a).1 (step' t a).1 ∧ (step s a).2 = (step' t a).2)
    {s : σ} {t : τ} (as : List α) (h : R s t) :
    R (final step s as) (final step' t as) ∧ outputs step s as = outputs step' t as := by
  induction as generalizing s t with
  | nil => exact ⟨h, rfl⟩
  | cons a as ih =>
      obtain ⟨hnext, hout⟩ := hstep s t a h
      obtain ⟨hfinal, houts⟩ := ih hnext
      exact ⟨hfinal, by rw [outputs_cons, outputs_cons, hout, houts]⟩

/-- A run that meets a condition meets a weaker one. -/
theorem Every.mono (h : ∀ s a, C s a → D s a) {s : σ} {as : List α} (hC : Every step C s as) :
    Every step D s as := by
  induction as generalizing s with
  | nil => trivial
  | cons a as ih => exact ⟨h s a hC.1, ih hC.2⟩

end Run
end VirtualPortal
