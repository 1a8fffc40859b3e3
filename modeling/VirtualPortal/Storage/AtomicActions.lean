/-
# An action is all or nothing

`action_atomic` says that an action ends in one of two ways, whatever its disk
jobs return: the position shows the requested figure, as `e11_load` has produced
it, and the old figure was released with its last write saved; or everything is
as it was before, and the old figure is back on the portal.
-/

import VirtualPortal.Storage.SwapAction
import VirtualPortal.Storage.SecondFigure

namespace VirtualPortal

open Storage

/-- Step `a` begins an action from `σ₀`, which runs through the steps `as` and
ends with step `b`. -/
structure ActionSpan (σ₀ : System) (a : Action) (as : List Action) (b : Action) : Prop where
  idle : σ₀.hid.action = none
  running : Run.Every System.step (fun σ _ => σ.hid.action ≠ none) (σ₀.step a).1 (as ++ [b])
  ended : (Run.final System.step (σ₀.step a).1 (as ++ [b])).hid.action = none

/-- The old figure as it was, off the portal. -/
def OffPortal (st₀ : Storage) (u : Fin 16) (σ : System) : Prop :=
  ∀ o, st₀.ui u = some o → (σ.hid.slots o).present = false ∧
    (σ.hid.slots o).data = (st₀.slots o).data ∧
    (σ.hid.slots o).generation = (st₀.slots o).generation

section Runs

variable {st₀ : Storage} {u : Fin 16} {kind : Swap} {target : U32}

/-- A system in the middle of an action. -/
def System.Held (st₀ : Storage) (u : Fin 16) (kind : Swap) (target : U32) (σ : System)
    (l : List Effect) : Prop :=
  ∃ p, σ.HasPhase p ∧ (σ.core p).Coherent ∧ (σ.core p).Loading .any ∧
    Storage.Held st₀ u kind target (σ.core p) (figureEffects l)

theorem System.Held.offPortal {σ : System} {l : List Effect}
    (h : System.Held st₀ u kind target σ l) : OffPortal st₀ u σ := by
  obtain ⟨p, -, -, hloading, hheld⟩ := h
  exact fun o ho => ⟨hheld.not_present hloading.slots ho, (hheld.slot o ho).data,
    (hheld.slot o ho).generation⟩

/-- A block that is written is an effect on figures. -/
theorem wrote_mem_figureEffects {o : Fin 16} {l : List Effect} :
    .wrote o ∈ figureEffects l ↔ .wrote o ∈ l :=
  List.mem_filter.trans (and_iff_left rfl)

/-- One step in the middle of an action. -/
theorem System.Held.step {σ : System} {l : List Effect} (h : System.Held st₀ u kind target σ l)
    (a : Action) :
    System.Held st₀ u kind target (σ.step a).1 (l ++ (σ.step a).2) ∨
      (σ.step a).1.hid.action = none ∧ (∀ o, .wrote o ∉ (σ.step a).2) ∧
      (SwapSucceeded st₀ σ.hid.toStorage (σ.step a).1.hid.toStorage
        (σ.step a).1.disk u target kind ∨
        SwapFailed st₀ (σ.step a).1.hid.toStorage u (figureEffects (l ++ (σ.step a).2))) := by
  obtain ⟨p, hp, hc, hloading, hheld⟩ := h
  obtain ⟨p', hp', hs, -⟩ := σ.step_core_any a hp hc
  rcases hheld.step hc hloading hs with hnext | ⟨hnone, hwrote, hend⟩
  · left
    refine ⟨p', hp', hc.step hs, hloading.step hc hs, ?_⟩
    rw [figureEffects_append]
    exact hnext
  · right
    refine ⟨hnone, fun o ho => hwrote o (wrote_mem_figureEffects.mpr ho), ?_⟩
    rw [figureEffects_append]
    exact hend

/-- The steps in the middle of an action. -/
theorem System.Held.run {σ : System} {l : List Effect} (h : System.Held st₀ u kind target σ l)
    {as : List Action} {b : Action}
    (has : Run.Every System.step (fun σ _ => σ.hid.action ≠ none) σ (as ++ [b])) :
    System.Held st₀ u kind target (Run.final System.step σ as) (l ++ Run.outputs System.step σ as) ∧
      Run.Every System.step (fun σ _ => OffPortal st₀ u σ) σ (as ++ [b]) := by
  induction as generalizing σ l with
  | nil => exact ⟨by simpa using h, h.offPortal, trivial⟩
  | cons a as ih =>
      have hnext : (σ.step a).1.hid.action ≠ none := by
        cases as with
        | nil => exact has.2.1
        | cons => exact has.2.1
      rcases h.step a with hheld | ⟨hnone, -⟩
      · obtain ⟨hfinal, hevery⟩ := ih hheld has.2
        refine ⟨?_, h.offPortal, hevery⟩
        rw [Run.outputs_cons, ← List.append_assoc]
        exact hfinal
      · exact absurd hnone hnext

end Runs

theorem Storage.SwapFailed.of_figureEffects {st₀ st' : Storage} {u : Fin 16} {l : List Effect}
    (h : SwapFailed st₀ st' u (figureEffects l)) : SwapFailed st₀ st' u l :=
  ⟨h.ui, fun o ho => by have := h.slot o ho; rwa [savesOf_figureEffects] at this⟩

/-- A load cannot both succeed and fail, nor can the removal of a figure. -/
theorem swap_exclusive {st₀ st st' : Storage} {d : Disk} {u : Fin 16} {target : U32} {kind : Swap}
    {l : List Effect} (hnew : kind = .load → ∀ o, st₀.ui u = some o → (st₀.slots o).id ≠ target)
    (hkind : kind = .load ∨ st₀.ui u ≠ none) :
    ¬ (SwapSucceeded st₀ st st' d u target kind ∧ SwapFailed st₀ st' u l) := by
  rintro ⟨hsucc, hfail⟩
  cases kind with
  | load =>
      obtain ⟨slot, hui, -, -, hid, -⟩ := hsucc.shown
      have ho : st₀.ui u = some slot := by rw [← hfail.ui, hui, Function.update_self]
      exact hnew rfl slot ho ((hfail.slot slot ho).2.id.symm.trans hid)
  | remove =>
      have hnone : st₀.ui u = none := by rw [← hfail.ui, hsucc.empty, Function.update_self]
      rcases hkind with h | h
      · cases h
      · exact h hnone

/-- An action ends in exactly one of two ways, and while it runs no write
reaches the old figure.  (When there is neither a figure to load nor one to
remove the two ways are the same.) -/
def Atomic (σ₀ : System) (a : Action) (as : List Action) (b : Action) : Prop :=
  let σ₁ := (σ₀.step a).1
  let σ₂ := Run.final System.step σ₁ as
  let σ₃ := (σ₂.step b).1
  let u := σ₁.hid.actionUi
  let target := σ₁.hid.target
  let l := Run.outputs System.step σ₀ (a :: (as ++ [b]))
  ∃ kind, σ₁.hid.action = some kind ∧
    (SwapSucceeded σ₀.hid.toStorage σ₂.hid.toStorage σ₃.hid.toStorage σ₃.disk u target kind ∨
      SwapFailed σ₀.hid.toStorage σ₃.hid.toStorage u l) ∧
    (kind = .load ∨ σ₀.hid.ui u ≠ none →
      ¬ (SwapSucceeded σ₀.hid.toStorage σ₂.hid.toStorage σ₃.hid.toStorage σ₃.disk u target kind ∧
        SwapFailed σ₀.hid.toStorage σ₃.hid.toStorage u l)) ∧
    (∀ o, σ₀.hid.ui u = some o → .wrote o ∉ l) ∧
    Run.Every System.step (fun σ _ => OffPortal σ₀.hid.toStorage u σ) σ₁ (as ++ [b])

/-- Every action of every run is atomic, whatever its disk jobs return and
whatever the game does meanwhile. -/
theorem action_atomic {d : Disk} {io : StartIo} {as₀ : List Action} {a : Action} {as : List Action}
    {b : Action} (h : ActionSpan (Run.final System.step (System.init d io) as₀) a as b) :
    Atomic (Run.final System.step (System.init d io) as₀) a as b := by
  unfold Atomic
  extract_lets σ₁ σ₂ σ₃ u target l
  set σ₀ := Run.final System.step (System.init d io) as₀
  obtain ⟨p₀, hp₀, hc₀, hl₀⟩ := System.core_of_every (I := fun c _ => c.Loading .any)
    (fun _ _ _ _ hc h hs => h.step hc hs) (fun _ h => .initial h)
    (System.meets_any (System.init d io) as₀)
  obtain ⟨p₁, hp₁, hs₁, -⟩ := σ₀.step_core_any a hp₀ hc₀
  have hrun : σ₁.hid.action ≠ none := by
    cases as with
    | nil => exact h.running.1
    | cons => exact h.running.1
  obtain ⟨kind, hkind⟩ := Option.ne_none_iff_exists'.mp hrun
  have hheld₁ := Held.of_step hc₀ hl₀.slots hs₁ h.idle hkind
  have hl₁ := hl₀.step hc₀ hs₁
  have hsys : System.Held σ₀.hid.toStorage u kind target σ₁ (σ₀.step a).2 :=
    ⟨p₁, hp₁, hc₀.step hs₁, hl₁, hheld₁⟩
  obtain ⟨hheld₂, hevery⟩ := hsys.run h.running
  have hended : σ₃.hid.action = none := by
    have := h.ended
    rwa [Run.final_append] at this
  have hl : l = (σ₀.step a).2 ++ Run.outputs System.step σ₁ as ++ (σ₂.step b).2 := by
    show Run.outputs System.step σ₀ (a :: (as ++ [b])) = _
    rw [Run.outputs_cons, Run.outputs_append, Run.outputs_cons, Run.outputs_nil, List.append_nil,
      List.append_assoc]
  rcases hheld₂.step b with hheld₃ | ⟨-, hwrote, hend⟩
  · obtain ⟨p₃, -, -, -, hheld₃⟩ := hheld₃
    cases hended.symm.trans hheld₃.action
  · refine ⟨kind, hkind, ?_, ?_, ?_, hevery⟩
    · rcases hend with hsucc | hfail
      · exact Or.inl hsucc
      · right
        rw [← hl] at hfail
        exact hfail.of_figureEffects
    · refine swap_exclusive fun hload o ho => ?_
      have hslot := hheld₁.slot o ho
      have htarget := hl₁.slots.target (hkind.trans (by rw [hload])) o hslot.occupied
      exact fun hid => htarget (hslot.id.trans hid)
    · intro o ho hmem
      rw [hl] at hmem
      rcases List.mem_append.mp hmem with hmem | hmem
      · obtain ⟨p₂, -, -, -, hheld⟩ := hheld₂
        exact hheld.wrote o ho (wrote_mem_figureEffects.mpr hmem)
      · exact hwrote o hmem

/-- The swap of a written figure runs from the tick that hears the menu to the completion of
its load job. -/
theorem swap_span :
    ActionSpan (Run.final System.step (System.init twoFigureCard .ok) untilSwap) (hears 1)
      (swapSave ++ untilLoaded .ok) (.hid .idle) := by
  obtain ⟨out, hstep⟩ := swap_step
  obtain ⟨hsaved, -, hsaving⟩ := swapSave_run
  have haction : swapAsked.action = some .load := congrArg Storage.action swapAsked_storage
  have hloading : Run.Every System.step (fun σ _ => σ.hid.action ≠ none) (atRest swapSaved swapCard)
      (untilLoaded .ok) := (untilLoaded_run swapSaved_waiting swapSaved_start swapCard .ok).2.2
  refine ⟨?_, ?_, ?_⟩
  · rw [untilSwap_final]
    exact swapWritten_resting.action
  · rw [hstep, Run.every_append, Run.every_append, hsaved]
    refine ⟨⟨Run.Every.mono (fun _ _ hkept => ?_) hsaving, hloading⟩, ?_, trivial⟩
    · rw [hkept, haction]
      exact Option.some_ne_none _
    · rw [Run.final_append, hsaved,
        (untilLoaded_run swapSaved_waiting swapSaved_start swapCard .ok).1]
      have hkept := (swapSaved.shows_action swapCard .ok 0).1.trans swapSaved_waiting.action
      exact fun hnone => Option.some_ne_none _ (hkept.symm.trans hnone)
  · rw [hstep, List.append_assoc, ← swapLoad, Run.final_append, hsaved, swapLoad_run.1]
    exact (swapSaved.shows_action swapCard .ok 0).2

/-- The menu swaps a figure that the game has written for another one. -/
theorem action_atomic_swap :
    let σ := Run.final System.step (System.init twoFigureCard .ok) untilSwap
    σ.hid.ui 0 = some 0 ∧ (σ.hid.slots 0).changed = true ∧
      Atomic σ (hears 1) (swapSave ++ untilLoaded .ok) (.hid .idle) := by
  refine ⟨?_, ?_, action_atomic swap_span⟩
  · rw [untilSwap_final]
    exact swapWritten_ui
  · rw [untilSwap_final]
    exact swapWritten_changed

end VirtualPortal
