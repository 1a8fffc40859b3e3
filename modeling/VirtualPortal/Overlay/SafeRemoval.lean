/-
# When Minus removes a figure

`overlay/menu.h`: the action 3 of `menu_input`, over whole sequences of frames.

Minus is half of the chord, and on its own it removes the figure when it comes up.
`minus_armed` decides which of the two a release was.  It can outlive the hold it was
set in: a frame that releases Minus and presses `C` at once leaves it set.  What
makes the removal safe is not that it belongs to the hold that ends, but what its
being set says of every frame since (`Armed`): the menu has been open under one owner,
and the owner has held no Plus with Minus, since that would have been a chord.
-/

import Mathlib.Data.List.DropRight
import VirtualPortal.Overlay.Arbitration

namespace VirtualPortal

/-- The controller `o` holds Minus in a frame. -/
def holdsMinus (o : Fin 2) (f : MenuFrame) : Bool := f.keys o &&& menuMinus ≠ 0

/-- The uninterrupted hold of Minus by `o` at the end of the frames `fs`. -/
def minusHold (o : Fin 2) (fs : List MenuFrame) : List MenuFrame := fs.rtakeWhile (holdsMinus o)

/-- The frames before that hold. -/
def beforeHold (o : Fin 2) (fs : List MenuFrame) : List MenuFrame := fs.rdropWhile (holdsMinus o)

/-- The menu is open and stays open under its owner, who is `o`: a frame without a
close, an open or a claim. -/
structure Steady (o : Fin 2) (ui : MenuUi) (f : MenuFrame) : Prop where
  owner : ui.2.owner = o ∧ (menuFrame ui f).1.2.owner = o
  visible : ui.1.visible = true ∧ (menuFrame ui f).1.1.visible = true
  unclaimed : ¬ Opens (ui.given f) ui.2 f.keys

/-- The frame `f` after the frames `fs` removes a figure for a release of Minus that
is no part of a chord. -/
structure RemovesSafely (o : Fin 2) (fs : List MenuFrame) (f : MenuFrame) : Prop where
  /-- The owner releases Minus, without Plus. -/
  released : minusHold o fs ≠ [] ∧ f.keys o &&& menuMinus = 0 ∧ f.keys o &&& menuPlus = 0
  /-- It has held no Plus during the hold that ends. -/
  alone : ∀ g ∈ minusHold o fs, g.keys o &&& menuPlus = 0
  /-- The menu has been open under it since before that hold. -/
  steady : Run.Every menuFrame (Steady o) (menuAfter (beforeHold o fs)) (minusHold o fs ++ [f])

/-! ### Buttons -/

section Buttons

variable {old keys : U32}

/-- The mask for `+` is one bit of the keys. -/
theorem and_menuPlus (k : U32) :
    k &&& menuPlus = if k.getLsbD 4 then menuPlus else 0 := BitVec.and_twoPow k 4

/-- The mask for `-` is one bit of the keys. -/
theorem and_menuMinus (k : U32) :
    k &&& menuMinus = if k.getLsbD 12 then menuMinus else 0 := BitVec.and_twoPow k 12

/-- The chord is Plus and Minus. -/
theorem and_menuChord :
    keys &&& menuChord = menuChord ↔ keys &&& menuPlus ≠ 0 ∧ keys &&& menuMinus ≠ 0 := by
  have hchord : keys &&& menuChord = (keys &&& menuPlus) ||| (keys &&& menuMinus) := by
    rw [← BitVec.and_or_distrib_left]
    rfl
  rw [hchord, and_menuPlus, and_menuMinus]
  cases keys.getLsbD 4 <;> cases keys.getLsbD 12 <;> decide

/-- Minus goes down. -/
theorem minus_edge (h : (keys &&& ~~~old) &&& menuMinus ≠ 0) :
    old &&& menuMinus = 0 ∧ keys &&& menuMinus ≠ 0 := by
  rw [and_menuMinus, BitVec.getLsbD_and, BitVec.getLsbD_not] at h
  rw [and_menuMinus, and_menuMinus]
  revert h
  cases keys.getLsbD 12 <;> cases old.getLsbD 12 <;> decide

/-- Plus held with Minus is a chord, unless it was one in the frame before. -/
theorem plus_up (hchord : completesChord old keys = false) (hminus : keys &&& menuMinus ≠ 0)
    (hold : old &&& menuMinus ≠ 0 → old &&& menuPlus = 0) : keys &&& menuPlus = 0 := by
  by_contra hplus
  rw [completesChord, Bool.and_eq_false_iff, decide_eq_false_iff_not, decide_eq_false_iff_not,
    not_not, and_menuChord, and_menuChord] at hchord
  rcases hchord with h | ⟨h, h'⟩
  · exact h ⟨hplus, hminus⟩
  · exact h (hold h')

/-- The key is armed by a frame that presses it, or was so before. -/
theorem menuArm_eq_true {armed : Bool} (h : menuArm armed old keys = true) :
    armed = true ∨ old &&& menuMinus = 0 ∧ keys &&& menuMinus ≠ 0 ∧ keys &&& menuPlus = 0 := by
  unfold menuArm at h
  dsimp only at h
  by_cases hedge : (keys &&& ~~~old) &&& menuMinus ≠ 0 ∧ keys &&& menuPlus = 0
  · exact .inr ⟨(minus_edge hedge.1).1, (minus_edge hedge.1).2, hedge.2⟩
  · rw [if_neg hedge] at h
    split_ifs at h
    exact .inl h

end Buttons

/-! ### One frame -/

namespace MenuState

variable {s : MenuState} {keys n : U32}

/-- Minus is armed in an open menu, away from the chord. -/
structure Ready (s : MenuState) : Prop where
  visible : s.minusArmed = true → s.visible = true
  chordheld : s.minusArmed = true → s.chordheld = false

/-- The frames that leave Minus armed, and those that remove. -/
structure Undisturbed (s : MenuState) (keys : U32) (s' : MenuState) : Prop where
  chord : completesChord s.previous keys = false
  visible : s.visible = true ∧ s'.visible = true
  chordheld : s'.chordheld = false

/-- The keys inside the menu do not release the chord. -/
theorem menuKeys_chordheld (old : U32) : (s.menuKeys old keys n).2.chordheld = s.chordheld := by
  obtain ⟨slot, armed, selected, -, h⟩ := s.menuKeys_snd keys n old
  rw [h]

/-- Browsing asks for no removal. -/
theorem menuBrowse_fst (edge : U32) : (s.menuBrowse edge n).1 ≠ 3 := by
  unfold menuBrowse
  dsimp only
  split_ifs <;> dsimp only <;> decide

/-- What the keys do to `minus_armed` in an open menu. -/
theorem menuKeys_armed {old : U32} :
    ((s.menuKeys old keys n).2.minusArmed = true → s.minusArmed = true ∨
        old &&& menuMinus = 0 ∧ keys &&& menuMinus ≠ 0 ∧ keys &&& menuPlus = 0) ∧
      ((s.menuKeys old keys n).1 = 3 → s.minusArmed = true ∧ old &&& menuMinus ≠ 0 ∧
        keys &&& menuMinus = 0 ∧ keys &&& menuPlus = 0) := by
  have hother {a : U32} (ha : a ≠ 3) {P : Prop} (h : a = 3) : P := absurd h ha
  unfold menuKeys
  dsimp only
  split_ifs with hc hz hrelease hone htwo
  · exact ⟨.inl, hother (by decide : (4 : U32) ≠ 3)⟩
  · exact ⟨.inl, hother (by decide : (4 : U32) ≠ 3)⟩
  · refine ⟨fun h => absurd h (by decide), fun _ => ?_⟩
    obtain ⟨hold, hkeys, harm⟩ := hrelease
    obtain ⟨hplus, harmed⟩ := (menuArm_released _ _ hkeys).mp harm
    exact ⟨harmed, hold, hkeys, hplus⟩
  · exact ⟨menuArm_eq_true, hother (by decide : (5 : U32) ≠ 3)⟩
  · exact ⟨menuArm_eq_true, hother (by decide : (6 : U32) ≠ 3)⟩
  · refine ⟨fun h => menuArm_eq_true ?_, hother (menuBrowse_fst _)⟩
    rw [menuBrowse_snd] at h
    exact h

/-- A frame that leaves Minus armed or removes gets as far as the keys. -/
theorem menuInput_undisturbed (hs : s.Ready)
    (h : (s.menuInput keys n).2.minusArmed = true ∨ (s.menuInput keys n).1 = 3) :
    s.Undisturbed keys (s.menuInput keys n).2 ∧
      s.menuInput keys n =
        { s with previous := keys, swallow := true }.menuKeys s.previous keys n := by
  have hclosed : ¬ ((false = true) ∨ (0 : U32) = 3) := by decide
  unfold menuInput at h ⊢
  dsimp only at h ⊢
  by_cases hchord : completesChord s.previous keys = true
  · rw [if_pos hchord] at h
    rcases h with h | h
    · exact absurd h Bool.false_ne_true
    · dsimp only at h
      split_ifs at h <;> exact absurd h (by decide)
  rw [if_neg hchord] at h ⊢
  by_cases hheld : s.chordheld = true
  · rw [if_pos hheld] at h
    have harmed : s.minusArmed = true := by
      rcases h with h | h
      · split_ifs at h <;> exact h
      · exact absurd (show (0 : U32) = 3 from h) (by decide)
    exact absurd hheld (by rw [hs.chordheld harmed]; decide)
  rw [if_neg hheld] at h ⊢
  by_cases hvisible : s.visible = true
  swap
  · rw [if_pos hvisible] at h
    exact absurd h hclosed
  rw [if_neg (not_not_intro hvisible)] at h ⊢
  by_cases hb : (keys &&& ~~~s.previous) &&& menuB = 0
  swap
  · rw [if_pos hb] at h
    exact absurd h hclosed
  rw [if_neg (not_not_intro hb)] at h ⊢
  by_cases hpending : s.pending = true
  · rw [if_pos hpending] at h
    exact absurd h hclosed
  rw [if_neg hpending]
  exact ⟨⟨eq_false_of_ne_true hchord, ⟨hvisible, (menuKeys_visible _ keys n _).trans hvisible⟩,
    menuKeys_chordheld _ |>.trans (eq_false_of_ne_true hheld)⟩, rfl⟩

end MenuState

/-! ### One frame of both controllers -/

section Frame

variable {ui : MenuUi} {old : Fin 2 → U32} {f : MenuFrame}

/-- What a frame that leaves Minus armed or removes has been. -/
structure Untouched (old : Fin 2 → U32) (ui : MenuUi) (f : MenuFrame) : Prop where
  steady : Steady ui.2.owner ui f
  chord : completesChord (old ui.2.owner) (f.keys ui.2.owner) = false
  ready : (menuFrame ui f).1.1.Ready
  armed : (menuFrame ui f).1.1.minusArmed = true → ui.1.minusArmed = true ∨
    old ui.2.owner &&& menuMinus = 0 ∧ f.keys ui.2.owner &&& menuMinus ≠ 0 ∧
      f.keys ui.2.owner &&& menuPlus = 0
  removes : (menuFrame ui f).2 = [3] → ui.1.minusArmed = true ∧
    old ui.2.owner &&& menuMinus ≠ 0 ∧ f.keys ui.2.owner &&& menuMinus = 0 ∧
      f.keys ui.2.owner &&& menuPlus = 0

/-- A frame that leaves Minus armed, or removes, is steady and completes no chord. -/
theorem untouched (hui : TracksKeys old ui) (hs : ui.1.Ready)
    (h : (menuFrame ui f).1.1.minusArmed = true ∨ (menuFrame ui f).2 = [3]) :
    Untouched old ui f := by
  obtain ⟨rfl, hprevious, -⟩ := hui
  have haction : (menuFrame ui f).2 = [3] ↔
      (menuInputPlayers (ui.given f) ui.2 f.keys f.count).1 = 3 := List.singleton_inj
  rw [haction] at h
  have hunclaimed : ¬ Opens (ui.given f) ui.2 f.keys := by
    intro hopens
    obtain ⟨i, hchord, hclaim⟩ := claim_of_opens hopens
    have hready : (ui.given f).claimed.Ready :=
      ⟨fun h => absurd h Bool.false_ne_true, fun h => absurd h Bool.false_ne_true⟩
    unfold menuFrame menuInputPlayers at h
    dsimp only at h
    rw [hclaim] at h
    obtain ⟨⟨hno, -, -⟩, -⟩ := MenuState.menuInput_undisturbed hready h
    rw [completesChord, Bool.and_eq_true, decide_eq_true_iff] at hchord
    rw [completesChord, Bool.and_eq_false_iff, decide_eq_false_iff_not, decide_eq_false_iff_not]
      at hno
    exact hno.elim (fun h => h hchord.1)
      fun h => h (by decide : (0 : U32) &&& menuChord ≠ menuChord)
  have hclaim := claim_of_not_opens hunclaimed
  have hready : (ui.given f).Ready := ⟨hs.visible, hs.chordheld⟩
  have hframe : menuInputPlayers (ui.given f) ui.2 f.keys f.count =
      (((ui.given f).menuInput (f.keys ui.2.owner) f.count).1,
        ((ui.given f).menuInput (f.keys ui.2.owner) f.count).2, ⟨f.keys, ui.2.owner⟩) := by
    unfold menuInputPlayers
    rw [hclaim]
  have hnext : (menuFrame ui f).1 =
      (((ui.given f).menuInput (f.keys ui.2.owner) f.count).2, ⟨f.keys, ui.2.owner⟩) := by
    unfold menuFrame
    rw [hframe]
  rw [hnext, hframe] at h
  obtain ⟨⟨hchord, hvisible, hheld⟩, hkeys⟩ := MenuState.menuInput_undisturbed hready h
  have hgiven : (ui.given f).previous = ui.2.previous ui.2.owner := hprevious
  rw [hgiven] at hchord hkeys
  refine ⟨⟨⟨rfl, by rw [hnext]⟩, ⟨hvisible.1, by rw [hnext]; exact hvisible.2⟩, hunclaimed⟩, hchord,
    ?_, ?_, ?_⟩
  · rw [hnext]
    exact ⟨fun _ => hvisible.2, fun _ => hheld⟩
  · rw [hnext, hkeys]
    exact MenuState.menuKeys_armed.1
  · rw [haction, hframe, hkeys]
    exact MenuState.menuKeys_armed.2

end Frame

/-! ### Sequences of frames -/

/-- What an armed Minus says of the frames `fs`. -/
structure Armed (fs : List MenuFrame) : Prop where
  alone : ∀ g ∈ minusHold (menuAfter fs).2.owner fs,
    g.keys (menuAfter fs).2.owner &&& menuPlus = 0
  steady : Run.Every menuFrame (Steady (menuAfter fs).2.owner)
    (menuAfter (beforeHold (menuAfter fs).2.owner fs)) (minusHold (menuAfter fs).2.owner fs)

section Runs

variable {o : Fin 2} {fs : List MenuFrame} {f : MenuFrame}

/-- The frames before `-` is held and those while it is. -/
theorem beforeHold_append_minusHold (o : Fin 2) (fs : List MenuFrame) :
    beforeHold o fs ++ minusHold o fs = fs := List.rdropWhile_append_rtakeWhile

/-- The frames end with a hold of Minus if the last one has it. -/
theorem minusHold_eq_nil_iff : minusHold o fs = [] ↔ lastKeys fs o &&& menuMinus = 0 := by
  induction fs using List.reverseRecOn with
  | nil => exact ⟨fun _ => BitVec.zero_and, fun _ => rfl⟩
  | append_singleton fs f _ =>
      rw [lastKeys_concat, minusHold, List.rtakeWhile_concat, holdsMinus]
      by_cases h : f.keys o &&& menuMinus = 0 <;> simp [h]

/-- The last frame of a hold. -/
theorem lastKeys_of_hold {P : U32 → Prop} (h : ∀ g ∈ minusHold o fs, P (g.keys o))
    (hminus : lastKeys fs o &&& menuMinus ≠ 0) : P (lastKeys fs o) := by
  induction fs using List.reverseRecOn with
  | nil => exact absurd BitVec.zero_and hminus
  | append_singleton fs f _ =>
      rw [lastKeys_concat] at hminus ⊢
      refine h f ?_
      rw [minusHold, List.rtakeWhile_concat_pos _ _ _ (by simpa [holdsMinus] using hminus)]
      exact List.mem_concat_self

/-- A steady frame after a steady hold. -/
theorem steady_concat (h : Run.Every menuFrame (Steady o) (menuAfter (beforeHold o fs))
      (minusHold o fs)) (hf : Steady o (menuAfter fs) f) :
    Run.Every menuFrame (Steady o) (menuAfter (beforeHold o fs)) (minusHold o fs ++ [f]) := by
  have hfinal : Run.final menuFrame (menuAfter (beforeHold o fs)) (minusHold o fs) =
      menuAfter fs := by
    rw [menuAfter, ← Run.final_append, beforeHold_append_minusHold, menuAfter]
  exact (Run.every_append _ _ _).mpr ⟨h, hfinal ▸ ⟨hf, trivial⟩⟩

end Runs

/-- A frame that leaves Minus armed continues the hold, or starts it. -/
theorem Armed.concat {fs : List MenuFrame} {f : MenuFrame}
    (h : (menuAfter fs).1.minusArmed = true → Armed fs)
    (hf : Untouched (lastKeys fs) (menuAfter fs) f)
    (harmed : (menuFrame (menuAfter fs) f).1.1.minusArmed = true) : Armed (fs ++ [f]) := by
  have howner : (menuAfter (fs ++ [f])).2.owner = (menuAfter fs).2.owner := by
    rw [menuAfter_concat]
    exact hf.steady.owner.2
  by_cases hminus : holdsMinus (menuAfter fs).2.owner f = true
  · have hhold : minusHold (menuAfter fs).2.owner (fs ++ [f]) =
        minusHold (menuAfter fs).2.owner fs ++ [f] := List.rtakeWhile_concat_pos _ _ _ hminus
    have hbefore : beforeHold (menuAfter fs).2.owner (fs ++ [f]) =
        beforeHold (menuAfter fs).2.owner fs := List.rdropWhile_concat_pos _ _ _ hminus
    have hprior : (∀ g ∈ minusHold (menuAfter fs).2.owner fs,
          g.keys (menuAfter fs).2.owner &&& menuPlus = 0) ∧
        Run.Every menuFrame (Steady (menuAfter fs).2.owner)
          (menuAfter (beforeHold (menuAfter fs).2.owner fs))
          (minusHold (menuAfter fs).2.owner fs) := by
      rcases hf.armed harmed with hprior | ⟨hup, -, -⟩
      · exact ⟨(h hprior).alone, (h hprior).steady⟩
      · rw [minusHold_eq_nil_iff.mpr hup]
        exact ⟨fun g hg => absurd hg List.not_mem_nil, trivial⟩
    constructor
    · rw [howner, hhold]
      intro g hg
      rcases List.mem_append.mp hg with hg | hg
      · exact hprior.1 g hg
      · rw [List.mem_singleton.mp hg]
        exact plus_up hf.chord (by simpa [holdsMinus] using hminus)
          fun hold => lastKeys_of_hold (P := fun k => k &&& menuPlus = 0) hprior.1 hold
    · rw [howner, hhold, hbefore]
      exact steady_concat hprior.2 hf.steady
  · have hnil : minusHold (menuAfter fs).2.owner (fs ++ [f]) = [] :=
      List.rtakeWhile_concat_neg _ _ _ hminus
    constructor
    · rw [howner, hnil]
      exact fun g hg => absurd hg List.not_mem_nil
    · rw [howner, hnil]
      trivial

/-- After any frames an armed key has been pressed in one of them. -/
theorem menuAfter_armed (fs : List MenuFrame) :
    (menuAfter fs).1.Ready ∧ ((menuAfter fs).1.minusArmed = true → Armed fs) := by
  induction fs using List.reverseRecOn with
  | nil => exact ⟨⟨fun h => absurd h Bool.false_ne_true, fun h => absurd h Bool.false_ne_true⟩,
      fun h => absurd h Bool.false_ne_true⟩
  | append_singleton fs f ih =>
      by_cases harmed : (menuFrame (menuAfter fs) f).1.1.minusArmed = true
      · have hf := untouched (menuAfter_tracksKeys fs) ih.1 (.inl harmed)
        refine ⟨?_, fun _ => Armed.concat ih.2 hf harmed⟩
        rw [menuAfter_concat]
        exact hf.ready
      · rw [menuAfter_concat]
        exact ⟨⟨fun h => absurd h harmed, fun h => absurd h harmed⟩, fun h => absurd h harmed⟩

/-- **Safe removal.**  A figure is removed only when the owner releases Minus after
holding it alone, in a menu that has been open under it throughout. -/
theorem removal_safe (fs : List MenuFrame) (f : MenuFrame)
    (h : (menuFrame (menuAfter fs) f).2 = [3]) :
    RemovesSafely (menuAfter fs).2.owner fs f := by
  obtain ⟨hready, hguard⟩ := menuAfter_armed fs
  have hf := untouched (menuAfter_tracksKeys fs) hready (.inr h)
  obtain ⟨harmed, hheld, hreleased, hplus⟩ := hf.removes h
  have hhold := hguard harmed
  exact ⟨⟨fun hnil => hheld (minusHold_eq_nil_iff.mp hnil), hreleased, hplus⟩, hhold.alone,
    steady_concat hhold.steady hf.steady⟩

/-- A frame with the keys of both controllers, of a list of three figures. -/
def keyFrame (first second : U32) : MenuFrame :=
  ⟨false, 0, fun i => if i = 0 then first else second, 3⟩

/-- The second controller opens the menu, then presses Minus while the first one
presses Plus. -/
def minusPressed : List MenuFrame :=
  [keyFrame 0 menuChord, keyFrame 0 0, keyFrame menuPlus menuMinus]

/-- The removal asked for when `-` is released at once is a safe one. -/
theorem removal_safe_released :
    RemovesSafely (menuAfter minusPressed).2.owner minusPressed (keyFrame 0 0) :=
  removal_safe minusPressed (keyFrame 0 0) (by decide)

end VirtualPortal
