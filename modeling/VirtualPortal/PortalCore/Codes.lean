/-
# The order of the status codes

What the host sees of a slot is the sequence of its codes in the status packets.  A
code is reported as present (1) only right after it has been reported as added (3) or
present, in every run of the service from its start (`codes_in_order`).  After the
first load a slot that was reported as anything else is never reported as empty (0)
again: a figure that leaves is reported as removed (2) from then on, unlike in the
packets of HIDv4, where removed is followed by empty.

The invariant (`SlotState.Sound`) lists the states of a slot with what is still to be
reported, and says which of them the last code reported allows.
-/

import VirtualPortal.PortalCore.Steps
import VirtualPortal.Lib.Succession
import Mathlib.Tactic.IntervalCases

namespace VirtualPortal

namespace SlotState

/-- The states of a slot with what is still to be reported. -/
def shapes : List (U8 × List U8) :=
  [(0, []), (1, []), (1, [3, 1]), (1, [2]), (1, [2, 3, 1]), (2, []), (2, [3, 1]), (3, [3, 1]),
    (3, [1]), (3, [2]), (3, [2, 3, 1])]

/-- A slot that is not empty may announce that it is present. -/
theorem shapes_present : ∀ p ∈ shapes, p.1 ≠ 0 → (p.1, [3, 1]) ∈ shapes := by decide

/-- A slot that is seen may announce that it leaves, and that it is replaced. -/
theorem shapes_leave : ∀ p ∈ shapes, p.1 ≠ 0 → p.1 ≠ 2 →
    (p.1, [2]) ∈ shapes ∧ (p.1, [2, 3, 1]) ∈ shapes := by decide

/-- A code is reported: 1 follows only itself or 3, and 0 only itself. -/
theorem shapes_advance : ∀ p ∈ shapes, (p.2.headD p.1, p.2.tail) ∈ shapes ∧
    (p.2.tail = [1] → p.2.headD p.1 = 3) ∧ p.2.headD p.1 &&& 3 = p.2.headD p.1 ∧
      (p.2.headD p.1 = 1 → p.1 = 1 ∧ p.2 = [] ∨ p.2 = [1]) ∧ (p.2.headD p.1 = 0 → p.1 = 0) := by
  decide

variable {s : SlotState} {last : U8}

/-- A slot is in one of these states, and the last code reported allows it. -/
structure Sound (s : SlotState) (last : U8) : Prop where
  count : s.pendingCount ≤ 3
  shape : (s.state, s.announcements) ∈ shapes
  present : s.state = 1 → last = 1
  added : s.announcements = [1] → last = 3

/-- A code that is reported is the state of the slot from then on. -/
theorem advance_announcements (h : s.pendingCount ≤ 3) :
    s.advance.announcements = s.announcements.tail ∧
      s.advance.state = s.announcements.headD s.state := by
  obtain ⟨state, pending, count⟩ := s
  dsimp only at h
  interval_cases count <;> exact ⟨rfl, rfl⟩

/-- One code less is to be reported. -/
theorem advance_count (s : SlotState) : s.advance.pendingCount = s.pendingCount - 1 := by
  unfold advance
  split_ifs with hcount
  · rfl
  · omega

/-- A slot that is not empty announces itself. -/
theorem queuePresent_of_ne (h : s.state ≠ 0) :
    s.queuePresent = { s with pending := ![3, 1, s.pending 2], pendingCount := 2 } := if_pos h

/-- An empty slot announces nothing. -/
theorem queuePresent_of_eq (h : s.state = 0) : s.queuePresent = s := if_neg (not_not.mpr h)

/-- What a message can do to a slot before a status is built; only a load clears one. -/
inductive Moves (loads : Prop) (s : SlotState) : SlotState → Prop
  | still : Moves loads s s
  | clear (h : loads) : Moves loads s .zero
  | insert (t : SlotState) : Moves loads s ({ t with state := 3 }).queuePresent
  | present : Moves loads s s.queuePresent
  | removed (h₀ : s.state ≠ 0) (h₂ : s.state ≠ 2) : Moves loads s s.queueRemoved
  | replaced (h₀ : s.state ≠ 0) (h₂ : s.state ≠ 2) : Moves loads s s.queueReplaced

/-- A slot whose script has just been written. -/
theorem Sound.script {l : List U8} (hcount : s.pendingCount = l.length) (hl : s.announcements = l)
    (hlength : l.length ≤ 3) (hshape : (s.state, l) ∈ shapes) (hpresent : s.state = 1 → last = 1)
    (hone : l ≠ [1]) : s.Sound last :=
  ⟨hcount.trans_le hlength, hl ▸ hshape, hpresent, fun h => absurd (hl.symm.trans h) hone⟩

/-- A weaker condition on the move. -/
theorem Moves.mono {p q : Prop} (hpq : p → q) {t : SlotState} (h : s.Moves p t) : s.Moves q t := by
  cases h with
  | still => exact .still
  | clear h => exact .clear (hpq h)
  | insert t => exact .insert t
  | present => exact .present
  | removed h₀ h₂ => exact .removed h₀ h₂
  | replaced h₀ h₂ => exact .replaced h₀ h₂

/-- A slot with nothing to report is sound. -/
theorem Sound.zero (last : U8) : SlotState.zero.Sound last where
  count := by decide
  shape := by decide
  present := fun h => absurd h (by decide)
  added := fun h => absurd h (by decide)

/-- The moves keep a slot in order. -/
theorem Sound.moves {loads : Prop} {t : SlotState} (h : s.Sound last) (ht : s.Moves loads t) :
    t.Sound last := by
  cases ht with
  | still => exact h
  | clear => exact .zero last
  | insert t =>
      rw [queuePresent_of_ne (s := { t with state := 3 }) (by decide : (3 : U8) ≠ 0)]
      exact .script (l := [3, 1]) rfl rfl (by decide)
        (by decide : ((3 : U8), ([3, 1] : List U8)) ∈ shapes)
        (fun hone => absurd hone (by decide : (3 : U8) ≠ 1)) (by decide)
  | present =>
      by_cases h₀ : s.state = 0
      · rwa [queuePresent_of_eq h₀]
      · rw [queuePresent_of_ne h₀]
        exact .script (l := [3, 1]) rfl rfl (by decide) (shapes_present _ h.shape h₀) h.present
          (by decide)
  | removed h₀ h₂ =>
      exact .script (l := [2]) rfl rfl (by decide) (shapes_leave _ h.shape h₀ h₂).1 h.present
        (by decide)
  | replaced h₀ h₂ =>
      exact .script (l := [2, 3, 1]) rfl rfl (by decide) (shapes_leave _ h.shape h₀ h₂).2 h.present
        (by decide)

/-- A move that is no load leaves no figure behind. -/
theorem Moves.state_ne_zero {loads : Prop} {t : SlotState} (ht : s.Moves loads t) (hloads : ¬ loads)
    (h : s.state ≠ 0) : t.state ≠ 0 := by
  cases ht with
  | still => exact h
  | clear hload => exact absurd hload hloads
  | insert t =>
      rw [queuePresent_of_ne (s := { t with state := 3 }) (by decide : (3 : U8) ≠ 0)]
      exact (by decide : (3 : U8) ≠ 0)
  | present => rwa [queuePresent_of_ne h]
  | removed => exact h
  | replaced => exact h

/-- A status keeps a slot in order, and its code follows the last one. -/
theorem Sound.advance (h : s.Sound last) :
    s.advance.Sound s.advance.state ∧ s.advance.state &&& 3 = s.advance.state ∧
      (s.advance.state = 1 → last = 1 ∨ last = 3) ∧ (s.advance.state = 0 → s.state = 0) := by
  obtain ⟨hann, hstate⟩ := advance_announcements h.count
  obtain ⟨hshape, hadded, hmask, hone, hzero⟩ := shapes_advance _ h.shape
  have hcount := s.advance_count
  have hle := h.count
  dsimp only at hshape hadded hmask hone hzero
  rw [← hstate] at hshape hadded hmask hone hzero
  rw [← hann] at hshape hadded
  refine ⟨⟨by omega, hshape, id, hadded⟩, hmask, fun h₁ => ?_, hzero⟩
  rcases hone h₁ with ⟨hs, -⟩ | hs
  · exact Or.inl (h.present hs)
  · exact Or.inr (h.added hs)

end SlotState

namespace PortalCore

variable (c : PortalCore) (v : CardView)

/-! ### What a message does to a slot -/

/-- The message loads the figures from the card. -/
def Loads (d : Delivery) : Prop :=
  ∃ io, d.message = .ioctl io ∧ (c.figuresLoaded = false ∨ io.command = skylandersReload)

/-- A queued answer leaves the slots. -/
@[simp] theorem queueResponse_slots (r : DeferredReport) :
    (c.queueResponse r).1.slots = c.slots := by
  unfold queueResponse
  split_ifs <;> rfl

/-- An answer that is taken leaves the slots. -/
@[simp] theorem nextResponse_slots : c.nextResponse.1.slots = c.slots := by
  unfold nextResponse
  split_ifs <;> rfl

/-- `build_write` leaves the slots. -/
@[simp] theorem buildWrite_slots (slot block : U8) (data : ℕ → U8) :
    (c.buildWrite slot block data).1.slots = c.slots := by
  unfold buildWrite
  dsimp only
  split_ifs <;> rfl

/-- The slot that is set, and the other one. -/
theorem setSlot_slots (slot i : Fin 2) (s : SlotState) :
    (c.setSlot slot s).slots i = if i = slot then s else c.slots i := Function.update_apply ..

/-- Loading a slot leaves it as it is or announces its figure. -/
theorem loadSlot_slots (slot i : Fin 2) : (c.loadSlot v slot).slots i = c.slots i ∨
    ∃ t : SlotState, (c.loadSlot v slot).slots i = ({ t with state := 3 }).queuePresent := by
  unfold loadSlot
  split
  · exact Or.inl rfl
  dsimp only
  split
  · exact Or.inl rfl
  rw [setSlot_slots]
  split_ifs
  · refine Or.inr ⟨c.slots slot, ?_⟩
    rw [SlotState.queuePresent_of_ne (s := { c.slots slot with state := 3 })
      (by decide : (3 : U8) ≠ 0)]
    rfl
  · exact Or.inl rfl

/-- Loading the figures may start a slot anew. -/
theorem loadFigures_moves (i : Fin 2) :
    (c.slots i).Moves True ((c.loadFigures v).slots i) := by
  unfold loadFigures
  split_ifs
  · exact .still
  have hfold : ∀ (l : List (Fin 2)) (c' : PortalCore), (c.slots i).Moves True (c'.slots i) →
      (c.slots i).Moves True ((l.foldl (fun c slot => c.loadSlot v slot) c').slots i) := by
    intro l
    induction l with
    | nil => exact fun _ h => h
    | cons slot l ih =>
        intro c' h
        refine ih _ ?_
        rcases c'.loadSlot_slots v slot i with hslot | ⟨t, hslot⟩
        · rwa [hslot]
        · rw [hslot]
          exact .insert t
  exact hfold _ _ (.clear trivial)

/-- `poll_one_figure` moves each slot as it may. -/
theorem pollOneFigure_moves (i : Fin 2) :
    (c.slots i).Moves False ((c.pollOneFigure v).slots i) := by
  unfold pollOneFigure
  dsimp only
  split
  · split_ifs with hleaves
    · rw [setSlot_slots]
      split_ifs with hi
      · rw [hi]
        exact .removed hleaves.1 hleaves.2
      · exact .still
    · exact .still
  split
  · exact .still
  split
  · rw [setSlot_slots]
    split_ifs with hi
    · exact .insert _
    · exact .still
  next hstate =>
  push Not at hstate
  split
  · rw [setSlot_slots]
    split_ifs with hi
    · rw [hi]
      exact .replaced hstate.1 hstate.2
    · exact .still
  · exact .still

/-- `poll_figures` moves each slot as it may. -/
theorem pollFigures_moves (i : Fin 2) : (c.slots i).Moves False ((c.pollFigures v).slots i) := by
  unfold pollFigures
  dsimp only
  split_ifs
  · exact .still
  · exact .still
  · exact pollOneFigure_moves { c with pollDelay := 0 } v i

/-- A report moves each slot as it may. -/
theorem applyReport_moves (data : ℕ → U8) (r : CoreReport) (i : Fin 2) :
    (c.slots i).Moves False ((c.applyReport data r).1.slots i) := by
  cases r with
  | activate b =>
      unfold applyReport
      dsimp only
      split_ifs
      · rw [queueResponse_slots]
        exact .present
      · rw [queueResponse_slots]
        exact .still
  | write slot block =>
      unfold applyReport
      rw [queueResponse_slots, buildWrite_slots]
      exact .still
  | light => rw [applyReport, queueResponse_slots]; exact .still
  | music b => rw [applyReport, queueResponse_slots]; exact .still
  | query slot block => rw [applyReport, queueResponse_slots]; exact .still
  | ready => rw [applyReport, queueResponse_slots]; exact .still
  | silent => exact .still

/-- The code of a slot in a status packet. -/
def codeOf (i : Fin 2) : CoreEffect → Option U8
  | .reported codes => some (codes i)
  | _ => none

/-- A queued answer reports no code. -/
theorem queueResponse_codes (r : DeferredReport) (i : Fin 2) :
    (c.queueResponse r).2.filterMap (codeOf i) = [] := by
  unfold queueResponse
  split_ifs <;> rfl

/-- A report of the host reports no code. -/
theorem applyReport_codes (data : ℕ → U8) (r : CoreReport) (i : Fin 2) :
    (c.applyReport data r).2.filterMap (codeOf i) = [] := by
  rcases c.applyReport_effects data r with h | ⟨c', a, h⟩
  · rw [h]
    rfl
  · rw [h]
    exact c'.queueResponse_codes a i

/-- An interrupt-IN transfer shows nothing of a slot or advances it and shows its code. -/
theorem interruptIn_slot (len : ℕ) (i : Fin 2) :
    (c.interruptIn v len).2.2.filterMap (codeOf i) = [] ∧
        (c.interruptIn v len).2.1.slots i = (c.pollFigures v).slots i ∨
      (c.interruptIn v len).2.2.filterMap (codeOf i) =
          [((c.pollFigures v).slots i).advance.state &&& 3] ∧
        (c.interruptIn v len).2.1.slots i = ((c.pollFigures v).slots i).advance := by
  have hslots := (c.pollFigures v).nextResponse_slots
  unfold interruptIn
  dsimp only
  split
  · next c' r hnext =>
    rw [hnext] at hslots
    exact Or.inl ⟨rfl, congrFun hslots i⟩
  · next c' hnext =>
    rw [hnext] at hslots
    rw [← hslots]
    exact Or.inr ⟨rfl, rfl⟩

/-- What a message shows of a slot, and what it does to it. -/
theorem handle_slot (d : Delivery) (i : Fin 2) :
    ∃ s, (c.slots i).Moves (c.Loads d) s ∧
      ((c.handle d).2.filterMap (codeOf i) = [] ∧ (c.handle d).1.slots i = s ∨
        (c.handle d).2.filterMap (codeOf i) = [s.advance.state &&& 3] ∧
          (c.handle d).1.slots i = s.advance) := by
  have hfirst {io : Ioctl} (h : d.message = .ioctl io) :
      (c.slots i).Moves (c.Loads d) ((c.loadFirst d.card io).slots i) := by
    unfold loadFirst
    split_ifs with hload
    · refine (c.loadFigures_moves d.card i).mono fun _ => ⟨io, h, Or.inl ?_⟩
      simpa using hload.1
    · exact .still
  have hcases := c.handle_cases d
  generalize c.handle d = out at hcases ⊢
  cases hcases with
  | still result => exact ⟨_, .still, Or.inl ⟨rfl, rfl⟩⟩
  | output addr bytes => exact ⟨_, .still, Or.inl ⟨rfl, rfl⟩⟩
  | ioctlRefused io h => exact ⟨_, hfirst h, Or.inl ⟨rfl, rfl⟩⟩
  | ioctl io h resumed written hfits result =>
      refine ⟨_, hfirst h, Or.inl ⟨?_, rfl⟩⟩
      cases written <;> rfl
  | reload io h hreload =>
      exact ⟨_, (loadFigures_moves { c with figuresLoaded := false } d.card i).mono fun _ =>
        ⟨io, h, Or.inr hreload⟩, Or.inl ⟨rfl, rfl⟩⟩
  | report addr len r hresumed hparse hfits =>
      refine ⟨_, (c.applyReport_moves _ r i).mono False.elim, Or.inl ⟨?_, rfl⟩⟩
      rw [List.filterMap_append, List.filterMap_cons_none rfl, applyReport_codes]
      rfl
  | read addr len hresumed hfits =>
      refine ⟨_, (c.pollFigures_moves d.card i).mono False.elim, ?_⟩
      rw [List.filterMap_append, List.filterMap_cons_none rfl]
      rcases c.interruptIn_slot d.card len i with ⟨hcodes, hslot⟩ | ⟨hcodes, hslot⟩
      · exact Or.inl ⟨by rw [hcodes]; rfl, hslot⟩
      · exact Or.inr ⟨by rw [hcodes]; rfl, hslot⟩

/-! ### Runs -/

/-- After one code the next is present only if this one is added or present. -/
def AddedFirst (r r' : U8) : Prop := r' = 1 → r = 1 ∨ r = 3

/-- After one code the next is empty only if this one is. -/
def StaysSeen (r r' : U8) : Prop := r' = 0 → r = 0

/-- A message keeps the slot sound, and the codes it reports follow one another. -/
theorem handle_sound (i : Fin 2) (d : Delivery) (last : U8) (h : (c.slots i).Sound last) :
    Run.Succeeds (codeOf i) AddedFirst (fun c last => (PortalCore.slots c i).Sound last) last
      (c.handle d).2 (c.handle d).1 := by
  obtain ⟨s, hmoves, ⟨hcodes, hslot⟩ | ⟨hcodes, hslot⟩⟩ := c.handle_slot d i
  · refine Or.inl ⟨hcodes, ?_⟩
    show ((c.handle d).1.slots i).Sound last
    rw [hslot]
    exact h.moves hmoves
  · obtain ⟨hsound, hmask, hone, -⟩ := (h.moves hmoves).advance
    rw [hmask] at hcodes
    refine Or.inr ⟨_, hcodes, hone, ?_⟩
    show ((c.handle d).1.slots i).Sound s.advance.state
    rw [hslot]
    exact hsound

/-- A slot is in order whatever was reported last, and an empty one was reported empty. -/
def Seen (i : Fin 2) (c : PortalCore) (last : U8) : Prop :=
  (∃ r, (c.slots i).Sound r) ∧ ((c.slots i).state = 0 → last = 0)

/-- A message that does not load the figures keeps a seen slot seen. -/
theorem handle_seen (i : Fin 2) (d : Delivery) (last : U8) (hloads : ¬ c.Loads d)
    (h : Seen i c last) :
    Run.Succeeds (codeOf i) StaysSeen (Seen i) last (c.handle d).2 (c.handle d).1 := by
  obtain ⟨⟨r, hsound⟩, hlast⟩ := h
  obtain ⟨s, hmoves, ⟨hcodes, hslot⟩ | ⟨hcodes, hslot⟩⟩ := c.handle_slot d i
  · refine Or.inl ⟨hcodes, ⟨r, ?_⟩, fun hzero => hlast ?_⟩
    · rw [hslot]
      exact hsound.moves hmoves
    · rw [hslot] at hzero
      by_contra hne
      exact hmoves.state_ne_zero hloads hne hzero
  · obtain ⟨hnext, hmask, -, hempty⟩ := (hsound.moves hmoves).advance
    rw [hmask] at hcodes
    refine Or.inr ⟨_, hcodes, fun hzero => hlast ?_, ⟨_, hslot ▸ hnext⟩, fun hzero => ?_⟩
    · by_contra hne
      exact hmoves.state_ne_zero hloads hne (hempty hzero)
    · rwa [hslot] at hzero

/-- The last code reported of a slot. -/
def lastCode (i : Fin 2) (ds : List Delivery) : U8 :=
  ((Run.outputs handle zero ds).filterMap (codeOf i)).getLastD 0

/-- In every run from the start a slot is in order after its last code. -/
theorem slot_sound (ds : List Delivery) (i : Fin 2) :
    ((Run.final handle zero ds).slots i).Sound (lastCode i ds) :=
  Run.observed_invariant (R := AddedFirst) (P := fun c last => (PortalCore.slots c i).Sound last)
    (fun c d last _ h => c.handle_sound i d last h) (Run.every_true _ ds) (SlotState.Sound.zero 0)

/-- The first byte of the status has the codes of both slots. -/
theorem statusWord_byte (slots : Fin 2 → SlotState) :
    (statusWord slots).setWidth 8 = (slots 0).state &&& 3 ||| ((slots 1).state &&& 3) <<< 2 := by
  show ((0 <<< 2 ||| ((slots 1).state &&& 3).setWidth 32) <<< 2 |||
    ((slots 0).state &&& 3).setWidth 32 : U32).setWidth 8 = _
  apply BitVec.eq_of_getLsbD_eq
  intro b hb
  simp only [BitVec.getLsbD_or, BitVec.getLsbD_shiftLeft, BitVec.getLsbD_setWidth]
  grind

/-- The packet starts with `S`, and the code of a slot is in its two bits of the second
byte. -/
theorem interruptIn_reported {len : ℕ} {codes : Fin 2 → U8}
    (h : .reported codes ∈ (c.interruptIn v len).2.2) :
    (c.interruptIn v len).1.take 2 = ([0x53, codes 0 ||| codes 1 <<< 2] : List U8).take len := by
  unfold interruptIn at h ⊢
  dsimp only at h ⊢
  split at h
  · exact absurd (List.mem_singleton.mp h) nofun
  · next c' hnext =>
    have hcodes : codes = fun slot => (c'.buildStatus.1.slots slot).state &&& 3 :=
      CoreEffect.reported.inj (List.mem_singleton.mp h)
    have hhead : (List.ofFn c'.buildStatus.2).take 2 =
        ([0x53, codes 0 ||| codes 1 <<< 2] : List U8) := by
      rw [hcodes]
      exact congrArg (fun b => [(0x53 : U8), b]) (statusWord_byte c'.buildStatus.1.slots)
    have hshort : min 2 (min 32 len) = min len 2 := by omega
    dsimp only
    rw [← hhead, List.take_take, List.take_take, hshort]

/-- The host asks for an interrupt transfer and gets a packet with these codes, as far as
its buffer goes. -/
def Delivery.Tells (d : Delivery) (out : List CoreEffect) (codes : Fin 2 → U8) : Prop :=
  ∃ addr len bytes, d.transfer = some (.read addr len) ∧ .write addr bytes ∈ out ∧
    bytes.take 2 = ([0x53, codes 0 ||| codes 1 <<< 2] : List U8).take len

/-- In every run from the start a slot is reported as present only right after it has
been reported as added or present; and as long as no message loads the figures, a slot
that is not reported as empty is not reported as empty again.  What is reported is what
the packets say. -/
theorem codes_in_order (ds : List Delivery) (i : Fin 2) :
    (0 :: (Run.outputs handle zero ds).filterMap (codeOf i)).IsChain AddedFirst ∧
      (∀ ds', Run.Every handle (fun c d => ¬ c.Loads d) (Run.final handle zero ds) ds' →
        ((Run.outputs handle (Run.final handle zero ds) ds').filterMap (codeOf i)).IsChain
          StaysSeen) ∧
      ∀ d codes, .reported codes ∈ ((Run.final handle zero ds).handle d).2 →
        d.Tells ((Run.final handle zero ds).handle d).2 codes := by
  refine ⟨?_, ?_, fun d codes hcodes => ?_⟩
  · exact Run.isChain_observed (fun c d last _ h => c.handle_sound i d last h)
      (Run.every_true _ ds) (SlotState.Sound.zero 0)
  · intro ds' hloads
    have hseen : Seen i (Run.final handle zero ds) 0 := ⟨⟨_, slot_sound ds i⟩, fun _ => rfl⟩
    exact (Run.isChain_observed (fun c d last h => c.handle_seen i d last h) hloads hseen).tail
  · obtain ⟨addr, len, htransfer, hreported, hwrite⟩ :=
      handle_ofRead _ (show OfRead (.reported codes) from trivial) hcodes
    exact ⟨addr, len, _, htransfer, hwrite, interruptIn_reported _ _ hreported⟩

end PortalCore
end VirtualPortal
