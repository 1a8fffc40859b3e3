/-
# The buttons of the menu

`overlay/menu.h`: `menu_input` and `menu_input_players`, in the build with
`E12_MENU` defined.

The menu opens and closes with a chord, Plus and Minus held together on one
controller, and belongs to the controller that opened it last.  `menu_input`
looks at one frame of keys and returns the request it asks for:

| action | key | request |
| --- | --- | --- |
| 0 | | none |
| 1 | the chord, or the cursor leaves the page | show a page |
| 2 | `A` | load the figure under the cursor |
| 3 | Minus released | remove the figure |
| 4 | `C`, `Z` | show another position |
| 5, 6 | `1`, `2` | save now, announce the figures again |

While a request is pending only the chord and `B` do anything.  A chord that
opens the menu, or claims it from the other controller, asks for a page whether
a request is pending or not (`menuInputPlayers_pending`).
-/

import VirtualPortal.Lib.Bytes

namespace VirtualPortal

def menuUp : U32 := 0x0008
def menuDown : U32 := 0x0004
def menuLeft : U32 := 0x0001
def menuRight : U32 := 0x0002
def menuA : U32 := 0x0800
def menuB : U32 := 0x0400
def menuPlus : U32 := 0x0010
def menuChord : U32 := 0x1010
def menuC : U32 := 0x4000
def menuZ : U32 := 0x2000
def menuMinus : U32 := 0x1000
def menuOne : U32 := 0x0200
def menuTwo : U32 := 0x0100

/-- `menu_state` -/
structure MenuState where
  slot : U32
  chordheld : Bool
  minusArmed : Bool
  visible : Bool
  swallow : Bool
  previous : U32
  selected : U32
  seq : U32
  page : U32
  pending : Bool
  frames : U32

/-- `menu_players` -/
structure MenuPlayers where
  previous : Fin 2 → U32
  owner : Fin 2

/-- `static struct menu_state state` -/
def MenuState.zero : MenuState := ⟨0, false, false, false, false, 0, 0, 0, 0, false, 0⟩

/-- `static struct menu_players players` -/
def MenuPlayers.zero : MenuPlayers := ⟨fun _ => 0, 0⟩

/-- Plus and Minus are both down, and were not both down before. -/
def completesChord (old keys : U32) : Bool :=
  keys &&& menuChord = menuChord && old &&& menuChord ≠ menuChord

/-- The cursor after the keys that go down in a frame, of a list of `n`. -/
def menuMove (selected edge n : U32) : U32 :=
  let selected := if n ≤ selected then n - 1 else selected
  let selected :=
    if edge &&& menuUp ≠ 0 then if selected ≠ 0 then selected - 1 else n - 1 else selected
  let selected := if edge &&& menuDown ≠ 0 then (selected + 1) % n else selected
  let selected :=
    if edge &&& menuLeft ≠ 0 then if 8 ≤ selected then selected - 8 else 0 else selected
  if edge &&& menuRight ≠ 0 then if selected + 8 < n then selected + 8 else n - 1 else selected

/-- Minus is armed when it goes down alone, and Plus disarms it. -/
def menuArm (armed : Bool) (old keys : U32) : Bool :=
  let armed := if keys &&& menuPlus ≠ 0 then false else armed
  if (keys &&& ~~~old) &&& menuMinus ≠ 0 ∧ keys &&& menuPlus = 0 then true else armed

/-- The page an entry is on. -/
def pageOf (selected : U32) : U32 := selected / 8 * 8

namespace MenuState

variable (s : MenuState)

/-- The end of `menu_input`: the cursor, `A`, and the page. -/
def menuBrowse (edge n : U32) : U32 × MenuState :=
  let s := { s with selected := if n ≠ 0 then menuMove s.selected edge n else s.selected }
  if n ≠ 0 ∧ edge &&& menuA ≠ 0 then (2, s)
  else (if s.page ≠ pageOf s.selected then 1 else 0, s)

/-- `menu_input` with the menu open and no request pending. -/
def menuKeys (old keys n : U32) : U32 × MenuState :=
  let edge := keys &&& ~~~old
  if edge &&& menuC ≠ 0 then (4, { s with slot := (s.slot + 15) &&& 15 })
  else if edge &&& menuZ ≠ 0 then (4, { s with slot := (s.slot + 1) &&& 15 })
  else
    let s := { s with minusArmed := menuArm s.minusArmed old keys }
    if old &&& menuMinus ≠ 0 ∧ keys &&& menuMinus = 0 ∧ s.minusArmed then
      (3, { s with minusArmed := false })
    else if edge &&& menuOne ≠ 0 then (5, s)
    else if edge &&& menuTwo ≠ 0 then (6, s)
    else s.menuBrowse edge n

/-- `menu_input` -/
def menuInput (keys n : U32) : U32 × MenuState :=
  let old := s.previous
  let s := { s with previous := keys, swallow := if keys = 0 then false else s.swallow }
  if completesChord old keys then
    let s :=
      { s with visible := !s.visible, swallow := true, chordheld := true, minusArmed := false }
    (if s.visible then 1 else 0, s)
  else if s.chordheld then
    (0, if keys &&& menuChord = 0 then { s with chordheld := false } else s)
  else if ¬ s.visible then (0, { s with minusArmed := false })
  else
    let s := { s with swallow := true }
    if (keys &&& ~~~old) &&& menuB ≠ 0 then (0, { s with visible := false, minusArmed := false })
    else if s.pending then (0, { s with minusArmed := false })
    else s.menuKeys old keys n

/-- The menu is taken from its owner before the new one opens it. -/
def claimed : MenuState :=
  { s with visible := false, previous := 0, chordheld := false, minusArmed := false }

end MenuState

/-- The first controller that completes the chord. -/
def MenuPlayers.chosen (p : MenuPlayers) (keys : Fin 2 → U32) : Option (Fin 2) :=
  (List.finRange 2).find? fun i => completesChord (p.previous i) (keys i)

/-- The menu and its owner after a controller has opened it or claimed it from
the other one. -/
def MenuPlayers.claim (s : MenuState) (p : MenuPlayers) (keys : Fin 2 → U32) :
    MenuState × Fin 2 :=
  match p.chosen keys with
  | some i => if s.visible = false ∨ i ≠ p.owner then (s.claimed, i) else (s, p.owner)
  | none => (s, p.owner)

/-- `menu_input_players` -/
def menuInputPlayers (s : MenuState) (p : MenuPlayers) (keys : Fin 2 → U32) (count : U32) :
    U32 × MenuState × MenuPlayers :=
  let (s, owner) := p.claim s keys
  let (action, s) := s.menuInput (keys owner) count
  (action, s, ⟨keys, owner⟩)

/-! ### One frame -/

/-- While Minus is up, only Plus matters. -/
theorem menuArm_released (armed : Bool) (old : U32) {keys : U32} (h : keys &&& menuMinus = 0) :
    menuArm armed old keys = true ↔ keys &&& menuPlus = 0 ∧ armed = true := by
  have hedge : (keys &&& ~~~old) &&& menuMinus = 0 := by
    rw [BitVec.and_assoc, BitVec.and_comm (~~~old), ← BitVec.and_assoc, h]
    exact BitVec.zero_and
  unfold menuArm
  dsimp only
  rw [if_neg fun h => h.1 hedge]
  by_cases hplus : keys &&& menuPlus = 0
  · rw [if_neg (not_not_intro hplus)]
    exact ⟨fun h => ⟨hplus, h⟩, And.right⟩
  · rw [if_pos hplus]
    exact ⟨fun h => absurd h (by decide), fun h => absurd h.1 hplus⟩

namespace MenuState

variable (s : MenuState) (keys n : U32)

/-- The frame moves the cursor: the menu is open, nothing is pending, and no key
with a request of its own goes down or, for Minus, comes up. -/
structure Browses : Prop where
  chord : completesChord s.previous keys = false
  chordheld : s.chordheld = false
  visible : s.visible = true
  pending : s.pending = false
  closes : (keys &&& ~~~s.previous) &&& menuB = 0
  slots : (keys &&& ~~~s.previous) &&& menuC = 0 ∧ (keys &&& ~~~s.previous) &&& menuZ = 0
  removes : s.minusArmed = false ∨ keys &&& menuPlus ≠ 0 ∨ s.previous &&& menuMinus = 0 ∨
    keys &&& menuMinus ≠ 0
  saves : (keys &&& ~~~s.previous) &&& menuOne = 0 ∧ (keys &&& ~~~s.previous) &&& menuTwo = 0

/-- What a frame leaves alone. -/
structure Keeps (s s' : MenuState) : Prop where
  seq : s'.seq = s.seq
  page : s'.page = s.page
  pending : s'.pending = s.pending
  frames : s'.frames = s.frames

/-- The cursor moves, and nothing else does. -/
theorem menuBrowse_snd (edge : U32) :
    (s.menuBrowse edge n).2 =
      { s with selected := if n ≠ 0 then menuMove s.selected edge n else s.selected } := by
  unfold menuBrowse
  dsimp only
  split_ifs <;> rfl

/-- The keys of an open menu change the position shown, the arming of Minus and the
cursor, and nothing else. -/
theorem menuKeys_snd (old : U32) : ∃ slot armed selected,
    (slot = s.slot ∨ ∃ a : U32, slot = a &&& 15) ∧
      (s.menuKeys old keys n).2 =
        { s with slot := slot, minusArmed := armed, selected := selected } := by
  unfold menuKeys
  dsimp only
  split
  · exact ⟨_, _, _, .inr ⟨_, rfl⟩, rfl⟩
  split
  · exact ⟨_, _, _, .inr ⟨_, rfl⟩, rfl⟩
  split
  · exact ⟨_, _, _, .inl rfl, rfl⟩
  split
  · exact ⟨_, _, _, .inl rfl, rfl⟩
  split
  · exact ⟨_, _, _, .inl rfl, rfl⟩
  · exact ⟨_, _, _, .inl rfl, menuBrowse_snd _ n _⟩

/-- The keys inside the menu leave the request and its page. -/
theorem menuKeys_keeps (old : U32) : s.Keeps (s.menuKeys old keys n).2 := by
  obtain ⟨slot, armed, selected, -, h⟩ := s.menuKeys_snd keys n old
  rw [h]
  exact ⟨rfl, rfl, rfl, rfl⟩

/-- No frame changes the sequence number, the page or the pending flag. -/
theorem menuInput_keeps : s.Keeps (s.menuInput keys n).2 := by
  unfold menuInput
  dsimp only
  split_ifs
  all_goals first
    | exact ⟨rfl, rfl, rfl, rfl⟩
    | exact ⟨(menuKeys_keeps _ keys n _).seq, (menuKeys_keeps _ keys n _).page,
        (menuKeys_keeps _ keys n _).pending, (menuKeys_keeps _ keys n _).frames⟩

/-- The keys inside the menu leave the keys of the last frame. -/
theorem menuKeys_previous (old : U32) : (s.menuKeys old keys n).2.previous = s.previous := by
  obtain ⟨slot, armed, selected, -, h⟩ := s.menuKeys_snd keys n old
  rw [h]

/-- The input remembers the keys of its frame. -/
theorem menuInput_previous : (s.menuInput keys n).2.previous = keys := by
  unfold menuInput
  dsimp only
  split_ifs <;> first | rfl | exact menuKeys_previous _ keys n _

/-- What one frame can do. -/
inductive Frame : U32 × MenuState → Prop
  /-- The chord opens or closes the menu. -/
  | toggles {s' : MenuState} (hchord : completesChord s.previous keys = true)
      (hvisible : s'.visible = !s.visible) (hselected : s'.selected = s.selected) :
      Frame (if !s.visible then 1 else 0, s')
  /-- Nothing is asked for. -/
  | rests {s' : MenuState} (hchord : completesChord s.previous keys = false)
      (hbrowses : ¬ s.Browses keys) (hselected : s'.selected = s.selected) : Frame (0, s')
  /-- A key with a request of its own. -/
  | asks {a : U32} {s' : MenuState} (hchord : completesChord s.previous keys = false)
      (hbrowses : ¬ s.Browses keys) (ha : a ∈ [3, 4, 5, 6]) (hpending : s.pending = false)
      (hvisible : s'.visible = true) (hselected : s'.selected = s.selected) : Frame (a, s')
  /-- The cursor moves. -/
  | browses {s' : MenuState} (hbrowses : s.Browses keys) (hpage : s'.page = s.page)
      (hvisible : s'.visible = true) (hselected : s'.selected = s.selected) :
      Frame (s'.menuBrowse (keys &&& ~~~s.previous) n)

/-- The keys inside the menu do what a frame may. -/
theorem menuKeys_frame {s' : MenuState} (hchord : completesChord s.previous keys = false)
    (hheld : s.chordheld = false) (hvisible : s.visible = true) (hpending : s.pending = false)
    (hb : (keys &&& ~~~s.previous) &&& menuB = 0) (hpage : s'.page = s.page)
    (hvisible' : s'.visible = true) (hselected : s'.selected = s.selected)
    (harmed : s'.minusArmed = s.minusArmed) :
    s.Frame keys n (s'.menuKeys s.previous keys n) := by
  have hasks {a : U32} {s'' : MenuState} (ha : a ∈ [3, 4, 5, 6]) (hbrowses : ¬ s.Browses keys)
      (hv : s''.visible = s'.visible) (hs : s''.selected = s'.selected) : s.Frame keys n (a, s'') :=
    .asks hchord hbrowses ha hpending (hv.trans hvisible') (hs.trans hselected)
  unfold menuKeys
  dsimp only
  by_cases hc : (keys &&& ~~~s.previous) &&& menuC = 0
  swap
  · rw [if_pos hc]
    exact hasks (by decide) (fun h => hc h.slots.1) rfl rfl
  rw [if_neg (not_not_intro hc)]
  by_cases hz : (keys &&& ~~~s.previous) &&& menuZ = 0
  swap
  · rw [if_pos hz]
    exact hasks (by decide) (fun h => hz h.slots.2) rfl rfl
  rw [if_neg (not_not_intro hz)]
  by_cases hrelease : s.previous &&& menuMinus ≠ 0 ∧ keys &&& menuMinus = 0 ∧
      menuArm s'.minusArmed s.previous keys = true
  · rw [if_pos hrelease]
    refine hasks (by decide) (fun h => ?_) rfl rfl
    obtain ⟨hplus, harmed'⟩ := (menuArm_released _ _ hrelease.2.1).mp hrelease.2.2
    rw [harmed] at harmed'
    rcases h.removes with h | h | h | h
    · exact absurd harmed' (by rw [h]; decide)
    · exact h hplus
    · exact hrelease.1 h
    · exact h hrelease.2.1
  rw [if_neg hrelease]
  by_cases h₁ : (keys &&& ~~~s.previous) &&& menuOne = 0
  swap
  · rw [if_pos h₁]
    exact hasks (by decide) (fun h => h₁ h.saves.1) rfl rfl
  rw [if_neg (not_not_intro h₁)]
  by_cases h₂ : (keys &&& ~~~s.previous) &&& menuTwo = 0
  swap
  · rw [if_pos h₂]
    exact hasks (by decide) (fun h => h₂ h.saves.2) rfl rfl
  rw [if_neg (not_not_intro h₂)]
  refine .browses ⟨hchord, hheld, hvisible, hpending, hb, ⟨hc, hz⟩, ?_, h₁, h₂⟩ hpage hvisible'
    hselected
  by_contra hremoves
  push Not at hremoves
  obtain ⟨harmed', hplus, hold, hkeys⟩ := hremoves
  exact hrelease ⟨hold, hkeys,
    (menuArm_released _ _ hkeys).mpr ⟨hplus, harmed.trans (eq_true_of_ne_false harmed')⟩⟩

/-- The input does what a frame may. -/
theorem menuInput_frame : s.Frame keys n (s.menuInput keys n) := by
  unfold menuInput
  dsimp only
  by_cases hchord : completesChord s.previous keys = true
  · rw [if_pos hchord]
    exact .toggles hchord rfl rfl
  rw [if_neg hchord]
  have hchord := eq_false_of_ne_true hchord
  by_cases hheld : s.chordheld = true
  · rw [if_pos hheld]
    refine .rests hchord (fun h => absurd hheld (by rw [h.chordheld]; decide)) ?_
    split_ifs <;> rfl
  rw [if_neg hheld]
  by_cases hvisible : s.visible = true
  swap
  · rw [if_pos hvisible]
    exact .rests hchord (fun h => hvisible h.visible) rfl
  rw [if_neg (not_not_intro hvisible)]
  by_cases hb : (keys &&& ~~~s.previous) &&& menuB = 0
  swap
  · rw [if_pos hb]
    exact .rests hchord (fun h => hb h.closes) rfl
  rw [if_neg (not_not_intro hb)]
  by_cases hpending : s.pending = true
  · rw [if_pos hpending]
    exact .rests hchord (fun h => absurd hpending (by rw [h.pending]; decide)) rfl
  rw [if_neg hpending]
  exact menuKeys_frame s keys n hchord (eq_false_of_ne_true hheld) hvisible
    (eq_false_of_ne_true hpending) hb rfl hvisible rfl rfl
/-- A frame that asks for something leaves the menu open. -/
theorem menuInput_visible (h : (s.menuInput keys n).1 ≠ 0) :
    (s.menuInput keys n).2.visible = true := by
  have hframe := s.menuInput_frame keys n
  generalize s.menuInput keys n = r at h hframe
  cases hframe with
  | toggles _ hvisible _ =>
      rw [hvisible]
      by_contra hv
      exact h (if_neg hv)
  | rests => exact absurd rfl h
  | asks _ _ _ _ hvisible _ => exact hvisible
  | browses _ _ hvisible _ =>
      rw [menuBrowse_snd]
      exact hvisible

/-- The cursor stays in the list. -/
theorem menuMove_lt {selected edge n : U32} (hn : n ≠ 0) : menuMove selected edge n < n := by
  have hstart : (if n ≤ selected then n - 1 else selected) < n := by split_ifs <;> bv_omega
  have hup {a : U32} (ha : a < n) :
      (if edge &&& menuUp ≠ 0 then if a ≠ 0 then a - 1 else n - 1 else a) < n := by
    split_ifs
    · bv_omega
    · bv_omega
    · exact ha
  have hdown {a : U32} (ha : a < n) :
      (if edge &&& menuDown ≠ 0 then (a + 1) % n else a) < n := by
    split_ifs
    · exact BitVec.umod_lt _ (by bv_omega)
    · exact ha
  have hleft {a : U32} (ha : a < n) :
      (if edge &&& menuLeft ≠ 0 then if 8 ≤ a then a - 8 else 0 else a) < n := by
    split_ifs
    · bv_omega
    · bv_omega
    · exact ha
  have hright {a : U32} (ha : a < n) :
      (if edge &&& menuRight ≠ 0 then if a + 8 < n then a + 8 else n - 1 else a) < n := by
    split_ifs with _ h
    · exact h
    · bv_omega
    · exact ha
  exact hright (hleft (hdown (hup hstart)))

/-- Only a frame that moves the cursor changes it. -/
theorem Frame.selected {r : U32 × MenuState} (h : s.Frame keys n r) :
    r.2.selected = s.selected ∨
      s.Browses keys ∧ n ≠ 0 ∧ r.2.selected = menuMove s.selected (keys &&& ~~~s.previous) n ∧
        (r.1 = 2 ∧ (keys &&& ~~~s.previous) &&& menuA ≠ 0 ∨
          r.1 = if s.page ≠ pageOf r.2.selected then 1 else 0) := by
  cases h with
  | toggles _ _ hselected => exact .inl hselected
  | rests _ _ hselected => exact .inl hselected
  | asks _ _ _ _ _ hselected => exact .inl hselected
  | browses hbrowses hpage _ hselected =>
      unfold menuBrowse
      dsimp only
      rw [hselected, hpage]
      by_cases hn : n = 0
      · rw [if_neg fun h => h.1 hn, if_neg (not_not_intro hn)]
        exact .inl rfl
      rw [if_pos hn]
      right
      by_cases ha : (keys &&& ~~~s.previous) &&& menuA = 0
      · rw [if_neg fun h => h.2 ha]
        exact ⟨hbrowses, hn, rfl, .inr rfl⟩
      · rw [if_pos ⟨hn, ha⟩]
        exact ⟨hbrowses, hn, rfl, .inl ⟨rfl, ha⟩⟩

/-- While a request is pending, only the chord that opens the menu asks for one. -/
theorem menuInput_pending (hpending : s.pending = true) :
    (s.menuInput keys n).1 ≠ 0 ↔ completesChord s.previous keys = true ∧ s.visible = false := by
  have hframe := s.menuInput_frame keys n
  generalize s.menuInput keys n = r at hframe
  have hclash (h : s.pending = false) {P : Prop} : P := absurd hpending (by rw [h]; decide)
  cases hframe with
  | toggles hchord _ _ =>
      cases s.visible
      · exact ⟨fun _ => ⟨hchord, rfl⟩, fun _ => (by decide : (1 : U32) ≠ 0)⟩
      · exact ⟨fun h => absurd rfl h, fun h => absurd h.2 (by decide)⟩
  | rests hchord => exact ⟨fun h => absurd rfl h,
      fun h => absurd (hchord.symm.trans h.1) (by decide)⟩
  | asks _ _ _ h _ _ => exact hclash h
  | browses h _ _ _ => exact hclash h.pending

end MenuState

section Players

variable (s : MenuState) (p : MenuPlayers) (keys : Fin 2 → U32) (count : U32)

/-- The chosen controller opens the menu or claims it from the other one. -/
def Opens : Prop := ∃ i, p.chosen keys = some i ∧ (s.visible = false ∨ i ≠ p.owner)

instance : Decidable (Opens s p keys) := inferInstanceAs (Decidable (∃ _, _))

variable {s p keys}

/-- The controller that completes the chord takes the menu. -/
theorem claim_of_opens (h : Opens s p keys) :
    ∃ i, completesChord (p.previous i) (keys i) = true ∧ p.claim s keys = (s.claimed, i) := by
  obtain ⟨i, hi, hclaim⟩ := h
  refine ⟨i, List.find?_some (p := fun i => completesChord (p.previous i) (keys i)) hi, ?_⟩
  simp only [MenuPlayers.claim, hi, if_pos hclaim]

/-- Otherwise the owner stays. -/
theorem claim_of_not_opens (h : ¬ Opens s p keys) : p.claim s keys = (s, p.owner) := by
  unfold MenuPlayers.claim
  cases hi : p.chosen keys with
  | none => rfl
  | some i => exact if_neg fun hclaim => h ⟨i, hi, hclaim⟩

/-- A controller that opens the menu asks for a page at once. -/
theorem menuInput_claimed {old k : U32} (h : completesChord old k = true) :
    (s.claimed.menuInput k count).1 = 1 ∧
      (s.claimed.menuInput k count).2.selected = s.selected := by
  have hframe := s.claimed.menuInput_frame k count
  have hchord : completesChord s.claimed.previous k = true := by
    rw [completesChord, Bool.and_eq_true] at h ⊢
    exact ⟨h.1, (by decide : decide ((0 : U32) &&& menuChord ≠ menuChord) = true)⟩
  generalize s.claimed.menuInput k count = r at hframe
  cases hframe with
  | toggles _ _ hselected => exact ⟨rfl, hselected⟩
  | rests h => exact absurd (hchord.symm.trans h) (by decide)
  | asks h => exact absurd (hchord.symm.trans h) (by decide)
  | browses h => exact absurd (hchord.symm.trans h.chord) (by decide)

/-- What a frame does to the cursor. -/
theorem menuInputPlayers_selected :
    Opens s p keys ∧ (menuInputPlayers s p keys count).1 = 1 ∧
        (menuInputPlayers s p keys count).2.1.selected = s.selected ∨
      ¬ Opens s p keys ∧ s.Frame (keys p.owner) count
        ((menuInputPlayers s p keys count).1, (menuInputPlayers s p keys count).2.1) := by
  by_cases hopens : Opens s p keys
  · obtain ⟨i, hchord, hclaim⟩ := claim_of_opens hopens
    obtain ⟨haction, hselected⟩ := menuInput_claimed (s := s) count hchord
    left
    unfold menuInputPlayers
    rw [hclaim]
    exact ⟨hopens, haction, hselected⟩
  · right
    unfold menuInputPlayers
    rw [claim_of_not_opens hopens]
    exact ⟨hopens, s.menuInput_frame _ _⟩

/-- While a request is pending, exactly the frames that open or claim the menu ask
for one. -/
theorem menuInputPlayers_pending (hprevious : s.previous = p.previous p.owner)
    (hpending : s.pending = true) :
    (menuInputPlayers s p keys count).1 ≠ 0 ↔ Opens s p keys := by
  show ((p.claim s keys).1.menuInput (keys (p.claim s keys).2) count).1 ≠ 0 ↔ _
  by_cases hopens : Opens s p keys
  · obtain ⟨i, hchord, hclaim⟩ := claim_of_opens hopens
    rw [hclaim, (menuInput_claimed count hchord).1]
    exact ⟨fun _ => hopens, fun _ => by decide⟩
  · rw [claim_of_not_opens hopens, s.menuInput_pending _ _ hpending, hprevious]
    refine ⟨fun h => ?_, fun h => absurd h hopens⟩
    -- the owner itself completes the chord, so some controller is chosen
    have hsome : (p.chosen keys).isSome :=
      List.find?_isSome.mpr ⟨p.owner, List.mem_finRange _, h.1⟩
    obtain ⟨i, hi⟩ := Option.isSome_iff_exists.mp hsome
    exact ⟨i, hi, .inl h.2⟩

/-- The owner's keys of this frame are the ones the next frame starts from. -/
theorem menuInputPlayers_previous :
    (menuInputPlayers s p keys count).2.1.previous =
      (menuInputPlayers s p keys count).2.2.previous (menuInputPlayers s p keys count).2.2.owner :=
  (p.claim s keys).1.menuInput_previous (keys (p.claim s keys).2) count

/-- A claim leaves the request and its page, and the cursor. -/
theorem claim_keeps : s.Keeps (p.claim s keys).1 ∧ (p.claim s keys).1.selected = s.selected := by
  unfold MenuPlayers.claim
  split
  · split_ifs <;> exact ⟨⟨rfl, rfl, rfl, rfl⟩, rfl⟩
  · exact ⟨⟨rfl, rfl, rfl, rfl⟩, rfl⟩

/-- The input of two controllers leaves the request and its page. -/
theorem menuInputPlayers_keeps : s.Keeps (menuInputPlayers s p keys count).2.1 := by
  have h := (p.claim s keys).1.menuInput_keeps (keys (p.claim s keys).2) count
  obtain ⟨hclaim, -⟩ := @claim_keeps s p keys
  exact ⟨h.seq.trans hclaim.seq, h.page.trans hclaim.page, h.pending.trans hclaim.pending,
    h.frames.trans hclaim.frames⟩

end Players

end VirtualPortal
