/-
# Two controllers, one menu

`overlay/menu.h` (`menu_input_players`), over whole sequences of frames.

The keys of the last frame are kept twice: for each controller, where the chord is
looked for, and in the menu, where the keys that go down are.  The second copy is
the owner's part of the first after every frame, since a claim that changes the
owner resets it and the frame ends by storing the keys it has seen
(`Arbitrated.previous`).  So a chord is always one controller's own, the menu opens
with the lowest controller that completes one, and nothing the other controller does
short of a chord reaches the menu (`chosen_of_quiet`).
-/

import Mathlib.Data.List.Induction
import VirtualPortal.Overlay.Menu
import VirtualPortal.Lib.Run

namespace VirtualPortal

/-- One call of `menu_input_players`, with what the rest of `update_menu` has made of
`pending` and `page` since the last one. -/
structure MenuFrame where
  pending : Bool
  page : U32
  keys : Fin 2 → U32
  count : U32

/-- The menu and its controllers. -/
abbrev MenuUi := MenuState × MenuPlayers

/-- The menu before the first frame. -/
def MenuUi.zero : MenuUi := (MenuState.zero, MenuPlayers.zero)

/-- The menu as a frame finds it. -/
def MenuUi.given (ui : MenuUi) (f : MenuFrame) : MenuState :=
  { ui.1 with pending := f.pending, page := f.page }

/-- One frame and the action it returns. -/
def menuFrame (ui : MenuUi) (f : MenuFrame) : MenuUi × List U32 :=
  let r := menuInputPlayers (ui.given f) ui.2 f.keys f.count
  ((r.2.1, r.2.2), [r.1])

/-- The menu after the frames `fs`. -/
def menuAfter (fs : List MenuFrame) : MenuUi := Run.final menuFrame .zero fs

/-- The keys of the last of the frames `fs`. -/
def lastKeys (fs : List MenuFrame) : Fin 2 → U32 := fs.getLast?.elim (fun _ => 0) MenuFrame.keys

/-- What a frame does, from the menu `ui` and the keys `old` of the frame before. -/
structure Arbitrated (old : Fin 2 → U32) (ui : MenuUi) (f : MenuFrame) : Prop where
  /-- The keys kept in the menu are those kept for its owner. -/
  previous : (menuFrame ui f).1.1.previous =
    (menuFrame ui f).1.2.previous (menuFrame ui f).1.2.owner
  /-- Only a chord of one controller opens the menu, and the lowest one owns it. -/
  opens : ui.1.visible = false → (menuFrame ui f).1.1.visible = true →
    ∃ i, completesChord (old i) (f.keys i) = true ∧ (menuFrame ui f).1.2.owner = i ∧
      ∀ j < i, completesChord (old j) (f.keys j) = false
  /-- Only the owner's chord or its `B` closes it. -/
  closes : ui.1.visible = true → (menuFrame ui f).1.1.visible = false →
    completesChord (old ui.2.owner) (f.keys ui.2.owner) = true ∨
      (f.keys ui.2.owner &&& ~~~old ui.2.owner) &&& menuB ≠ 0
  slot : (menuFrame ui f).1.1.slot < 16
  /-- A figure is loaded from inside the list. -/
  load : (menuFrame ui f).2 = [2] → (menuFrame ui f).1.1.selected < f.count

/-- The menu, its owner and the action after a frame. -/
def frameResult (s : MenuState) (p : MenuPlayers) (keys : Fin 2 → U32) (count : U32) :
    MenuState × Fin 2 × U32 :=
  let r := menuInputPlayers s p keys count
  (r.2.1, r.2.2.owner, r.1)

/-! ### One frame -/

namespace MenuState

variable (s : MenuState) (keys n : U32)

/-- The keys inside the menu do not close it. -/
theorem menuKeys_visible (old : U32) : (s.menuKeys old keys n).2.visible = s.visible := by
  obtain ⟨slot, armed, selected, -, h⟩ := s.menuKeys_snd keys n old
  rw [h]

/-- The menu stays as it is but for the chord and `B`. -/
theorem menuInput_toggles (h : (s.menuInput keys n).2.visible ≠ s.visible) :
    completesChord s.previous keys = true ∨
      s.visible = true ∧ (keys &&& ~~~s.previous) &&& menuB ≠ 0 := by
  by_contra hno
  push Not at hno
  obtain ⟨hchord, hb⟩ := hno
  apply h
  unfold menuInput
  dsimp only
  rw [if_neg hchord]
  by_cases hheld : s.chordheld = true
  · rw [if_pos hheld]
    split_ifs <;> rfl
  rw [if_neg hheld]
  by_cases hvisible : s.visible = true
  swap
  · rw [if_pos hvisible]
  rw [if_neg (not_not_intro hvisible), if_neg (not_not_intro (hb hvisible))]
  by_cases hpending : s.pending = true
  · rw [if_pos hpending]
  · rw [if_neg hpending]
    exact menuKeys_visible _ keys n _

/-- A position is below 16. -/
theorem slot_and (a : U32) : a &&& 15 < 16 := by
  rw [BitVec.lt_def, BitVec.toNat_and]
  exact Nat.lt_succ_of_le Nat.and_le_right

/-- The input keeps the position below 16. -/
theorem menuInput_slot (h : s.slot < 16) : (s.menuInput keys n).2.slot < 16 := by
  have hkeys (t : MenuState) (old : U32) (ht : t.slot < 16) :
      (t.menuKeys old keys n).2.slot < 16 := by
    obtain ⟨slot, armed, selected, hslot, h⟩ := t.menuKeys_snd keys n old
    rw [h]
    rcases hslot with rfl | ⟨a, rfl⟩
    · exact ht
    · exact slot_and a
  unfold menuInput
  dsimp only
  split_ifs
  all_goals first
    | exact h
    | exact hkeys _ _ h

/-- A load is asked for with the cursor in the list. -/
theorem menuInput_load (h : (s.menuInput keys n).1 = 2) :
    (s.menuInput keys n).2.selected < n := by
  have hframe := s.menuInput_frame keys n
  generalize s.menuInput keys n = r at h hframe
  cases hframe with
  | toggles =>
      dsimp only at h
      split_ifs at h <;> exact absurd h (by decide)
  | rests =>
      dsimp only at h
      exact absurd h (by decide)
  | asks _ _ ha =>
      dsimp only at h
      rw [h] at ha
      exact absurd ha (by decide)
  | @browses s' _ _ _ _ =>
      have hn : n ≠ 0 := by
        intro hn
        unfold menuBrowse at h
        rw [if_neg fun h => h.1 hn] at h
        dsimp only at h
        split_ifs at h <;> exact absurd h (by decide)
      have hselected : (s'.menuBrowse (keys &&& ~~~s.previous) n).2.selected =
          menuMove s'.selected (keys &&& ~~~s.previous) n := by
        rw [menuBrowse_snd]
        exact if_pos hn
      rw [hselected]
      exact menuMove_lt hn

end MenuState

section Players

variable {s : MenuState} {p : MenuPlayers} {keys : Fin 2 → U32} {count : U32}

/-- The lowest controller that completes the chord is chosen. -/
theorem chosen_eq_some {i : Fin 2} (h : p.chosen keys = some i) :
    completesChord (p.previous i) (keys i) = true ∧
      ∀ j < i, completesChord (p.previous j) (keys j) = false := by
  obtain ⟨hi, k, hk, hget, hbefore⟩ := List.find?_eq_some_iff_getElem.mp h
  rw [List.getElem_finRange] at hget
  subst hget
  refine ⟨hi, fun j hj => ?_⟩
  have := hbefore j.val hj
  rw [List.getElem_finRange] at this
  simpa using this

/-- Where no controller is chosen none completes the chord. -/
theorem chosen_eq_none (h : p.chosen keys = none) (i : Fin 2) :
    completesChord (p.previous i) (keys i) = false := by
  have := List.find?_eq_none.mp h i (List.mem_finRange i)
  simpa using this

/-- A frame in which the menu is opened or claimed ends with it open. -/
theorem menuInput_claimed_visible {k : U32} {old : U32} (h : completesChord old k = true) :
    (s.claimed.menuInput k count).2.visible = true := by
  have hclaimed := menuInput_claimed (s := s) count h
  exact s.claimed.menuInput_visible k count (by rw [hclaimed.1]; decide)

/-- The menu opens for the lowest controller that completes the chord. -/
theorem menuInputPlayers_opens (hprevious : s.previous = p.previous p.owner)
    (hclosed : s.visible = false) (hopen : (menuInputPlayers s p keys count).2.1.visible = true) :
    ∃ i, completesChord (p.previous i) (keys i) = true ∧
      (menuInputPlayers s p keys count).2.2.owner = i ∧
      ∀ j < i, completesChord (p.previous j) (keys j) = false := by
  by_cases hopens : Opens s p keys
  · obtain ⟨i, hi, hclaim⟩ := hopens
    obtain ⟨hchord, hlowest⟩ := chosen_eq_some hi
    refine ⟨i, hchord, ?_, hlowest⟩
    simp only [menuInputPlayers, MenuPlayers.claim, hi, if_pos hclaim]
  · exfalso
    unfold menuInputPlayers at hopen
    rw [claim_of_not_opens hopens] at hopen
    have htoggles := s.menuInput_toggles (keys p.owner) count
      (by rw [hclosed]; exact ne_of_eq_of_ne hopen (by decide))
    rcases htoggles with hchord | ⟨hvisible, -⟩
    · -- the owner itself completes the chord, so some controller is chosen
      rw [hprevious] at hchord
      cases hchosen : p.chosen keys with
      | none => exact absurd hchord (by rw [chosen_eq_none hchosen]; decide)
      | some i => exact hopens ⟨i, hchosen, .inl hclosed⟩
    · exact absurd hvisible (by rw [hclosed]; decide)

/-- The owner closes the menu, and nobody else. -/
theorem menuInputPlayers_closes (hprevious : s.previous = p.previous p.owner)
    (hopen : s.visible = true) (hclosed : (menuInputPlayers s p keys count).2.1.visible = false) :
    completesChord (p.previous p.owner) (keys p.owner) = true ∨
      (keys p.owner &&& ~~~p.previous p.owner) &&& menuB ≠ 0 := by
  by_cases hopens : Opens s p keys
  · obtain ⟨i, hchord, hclaim⟩ := claim_of_opens hopens
    unfold menuInputPlayers at hclosed
    rw [hclaim] at hclosed
    exact absurd ((menuInput_claimed_visible hchord).symm.trans hclosed) (by decide)
  · unfold menuInputPlayers at hclosed
    rw [claim_of_not_opens hopens] at hclosed
    rw [← hprevious]
    exact (s.menuInput_toggles (keys p.owner) count
      (by rw [hopen]; exact ne_of_eq_of_ne hclosed (by decide))).imp_right And.right

/-- The input of two controllers keeps the position below 16. -/
theorem menuInputPlayers_slot (h : s.slot < 16) :
    (menuInputPlayers s p keys count).2.1.slot < 16 := by
  refine (p.claim s keys).1.menuInput_slot _ count ?_
  unfold MenuPlayers.claim
  split
  · split_ifs <;> exact h
  · exact h

/-- The other controller does not matter, unless it completes a chord. -/
theorem chosen_of_quiet (h : ∀ i ≠ p.owner, completesChord (p.previous i) (keys i) = false) :
    p.chosen keys =
      if completesChord (p.previous p.owner) (keys p.owner) then some p.owner else none := by
  split_ifs with hchord
  · cases hchosen : p.chosen keys with
    | none => exact absurd hchord (by rw [chosen_eq_none hchosen]; decide)
    | some i =>
        by_contra hne
        have hi : i ≠ p.owner := fun hi => hne (congrArg some hi)
        exact absurd (chosen_eq_some hchosen).1 (by rw [h i hi]; decide)
  · cases hchosen : p.chosen keys with
    | none => rfl
    | some i =>
        have hi := (chosen_eq_some hchosen).1
        by_cases howner : i = p.owner
        · exact absurd (howner ▸ hi) hchord
        · exact absurd hi (by rw [h i howner]; decide)

end Players

/-! ### Sequences of frames -/

/-- What every frame leaves. -/
structure TracksKeys (old : Fin 2 → U32) (ui : MenuUi) : Prop where
  keys : ui.2.previous = old
  previous : ui.1.previous = ui.2.previous ui.2.owner
  slot : ui.1.slot < 16

/-- The menu after one more frame. -/
theorem menuAfter_concat (fs : List MenuFrame) (f : MenuFrame) :
    menuAfter (fs ++ [f]) = (menuFrame (menuAfter fs) f).1 := Run.final_append ..

/-- The keys of the last frame. -/
theorem lastKeys_concat (fs : List MenuFrame) (f : MenuFrame) : lastKeys (fs ++ [f]) = f.keys := by
  rw [lastKeys, List.getLast?_concat]
  rfl

/-- A frame remembers its keys. -/
theorem TracksKeys.frame {old : Fin 2 → U32} {ui : MenuUi} (h : TracksKeys old ui) (f : MenuFrame) :
    TracksKeys f.keys (menuFrame ui f).1 :=
  ⟨rfl, menuInputPlayers_previous f.count, menuInputPlayers_slot h.slot⟩

/-- After any frames the keys of the last one are remembered. -/
theorem menuAfter_tracksKeys (fs : List MenuFrame) : TracksKeys (lastKeys fs) (menuAfter fs) := by
  induction fs using List.reverseRecOn with
  | nil => exact ⟨rfl, rfl, by decide⟩
  | append_singleton fs f ih =>
      rw [menuAfter_concat, lastKeys_concat]
      exact ih.frame f

/-- Where the keys are remembered a frame is arbitrated. -/
theorem TracksKeys.arbitrated {old : Fin 2 → U32} {ui : MenuUi} (h : TracksKeys old ui)
    (f : MenuFrame) : Arbitrated old ui f := by
  obtain ⟨rfl, hprevious, hslot⟩ := h
  refine ⟨menuInputPlayers_previous f.count, fun hclosed hopen => ?_, fun hopen hclosed => ?_,
    menuInputPlayers_slot hslot, fun haction => ?_⟩
  · exact menuInputPlayers_opens (s := ui.given f) hprevious hclosed hopen
  · exact menuInputPlayers_closes (s := ui.given f) hprevious hopen hclosed
  · exact MenuState.menuInput_load _ _ f.count (List.singleton_inj.mp haction)

/-- **Controller arbitration.**  In every sequence of frames each frame is arbitrated
between the controllers, and a frame in which the controller that does not own the
menu completes no chord depends on the owner's keys alone. -/
theorem menu_arbitration :
    (∀ fs f, Arbitrated (lastKeys fs) (menuAfter fs) f) ∧
      ∀ (s : MenuState) (p p' : MenuPlayers) (keys keys' : Fin 2 → U32) (count : U32),
        p'.owner = p.owner → p'.previous p.owner = p.previous p.owner →
        keys' p.owner = keys p.owner →
        (∀ i ≠ p.owner, completesChord (p.previous i) (keys i) = false ∧
          completesChord (p'.previous i) (keys' i) = false) →
        frameResult s p' keys' count = frameResult s p keys count := by
  refine ⟨fun fs f => (menuAfter_tracksKeys fs).arbitrated f, ?_⟩
  intro s p p' keys keys' count howner hprevious hkeys hquiet
  have hchosen : p'.chosen keys' = p.chosen keys := by
    rw [chosen_of_quiet fun i hi => (hquiet i hi).1,
      chosen_of_quiet fun i hi => (hquiet i (howner ▸ hi)).2, howner, hprevious, hkeys]
  have hclaim : p'.claim s keys' = p.claim s keys := by
    rw [MenuPlayers.claim, MenuPlayers.claim, hchosen, howner]
  have hkeys' : keys' (p.claim s keys).2 = keys (p.claim s keys).2 := by
    by_cases hother : (p.claim s keys).2 = p.owner
    · rw [hother, hkeys]
    · -- a claim by the other controller would be a chord of its own
      by_cases hopens : Opens s p keys
      · obtain ⟨i, hchord, hclaimed⟩ := claim_of_opens hopens
        rw [hclaimed] at hother ⊢
        exact absurd hchord (by rw [(hquiet i hother).1]; decide)
      · exact absurd (congrArg Prod.snd (claim_of_not_opens hopens)) hother
  simp only [frameResult, menuInputPlayers, hclaim, hkeys']

end VirtualPortal
