/-
# Slots and menu positions

Which portal slot belongs to which menu position.  `Consistent` is what holds in
every reachable state: a slot is shown at one position if it is occupied and at
none otherwise, it is on the portal unless it is the old slot of the running
action, no catalogue entry is in two slots, and no two slots remember the same
UID.  `Slotted` adds what the running action needs.

It follows that a loaded figure always finds a slot (`System.HasPhase.loadedFigure`):
the action's own position shows either nothing, and then 15 positions cannot
occupy 16 slots, or the old slot, which is free to the search.
-/

import VirtualPortal.Storage.OneJob
import Mathlib.Data.Fintype.EquivFin

namespace VirtualPortal

open Storage

namespace Storage

/-- What holds of the slots and the menu positions in every reachable state. -/
structure Consistent (st : Storage) : Prop where
  /-- No two positions show the same slot. -/
  ui_inj : ∀ u v i, st.ui u = some i → st.ui v = some i → u = v
  /-- The occupied slots are the ones shown. -/
  occupied : ∀ i, (st.slots i).occupied = true ↔ ∃ u, st.ui u = some i
  /-- A slot is present unless the running action has taken it out. -/
  present : ∀ i, (st.slots i).present = true ↔
    (st.slots i).occupied = true ∧ ¬ (st.action ≠ none ∧ st.old = some i)
  /-- No catalogue entry is in two slots. -/
  id_inj : ∀ i j, (st.slots i).occupied = true → (st.slots j).occupied = true →
    (st.slots i).id = (st.slots j).id → i = j
  /-- No two slots remember the same UID. -/
  uid_inj : ∀ i j, (st.slots i).seenUid = true → (st.slots j).seenUid = true →
    (st.slots i).lastUid = (st.slots j).lastUid → i = j

/-- `Consistent`, and what an action keeps until it ends. -/
structure Slotted (st : Storage) : Prop extends Consistent st where
  old : st.action ≠ none → st.old = st.ui st.actionUi
  target : st.action = some .load → ∀ i, (st.slots i).occupied = true → (st.slots i).id ≠ st.target

/-- The slot search may use this slot. -/
def Free (st : Storage) (i : Fin 16) : Prop := ¬ ((st.slots i).occupied = true ∧ some i ≠ st.old)

instance (st : Storage) (i : Fin 16) : Decidable (st.Free i) := inferInstanceAs (Decidable (¬ _))

variable {st st' : Storage}

/-! ### What leaves slots and positions alone -/

/-- Two slots that differ in the figure's bytes and its save state at most. -/
structure SameOwner (s s' : Slot) : Prop where
  id : s'.id = s.id
  occupied : s'.occupied = s.occupied
  present : s'.present = s.present
  seenUid : s'.seenUid = s.seenUid
  lastUid : s'.lastUid = s.lastUid

/-- The invariant does not see the figures' bytes and save states. -/
theorem Slotted.of_sameOwner (h : st.Slotted) (hslots : ∀ i, SameOwner (st.slots i) (st'.slots i))
    (hui : st'.ui = st.ui) (haction : st'.action = st.action)
    (hactionUi : st'.actionUi = st.actionUi)
    (hold : st'.old = st.old) (htarget : st'.target = st.target) : st'.Slotted where
  ui_inj := by rw [hui]; exact h.ui_inj
  occupied i := by rw [(hslots i).occupied, hui]; exact h.occupied i
  present i := by rw [(hslots i).present, (hslots i).occupied, haction, hold]; exact h.present i
  id_inj i j hi hj hid := by
    rw [(hslots i).occupied] at hi
    rw [(hslots j).occupied] at hj
    rw [(hslots i).id, (hslots j).id] at hid
    exact h.id_inj i j hi hj hid
  uid_inj i j hi hj huid := by
    rw [(hslots i).seenUid] at hi
    rw [(hslots j).seenUid] at hj
    rw [(hslots i).lastUid, (hslots j).lastUid] at huid
    exact h.uid_inj i j hi hj huid
  old := by rw [haction, hold, hui, hactionUi]; exact h.old
  target hload i hi := by
    rw [haction] at hload
    rw [(hslots i).occupied] at hi
    rw [(hslots i).id, htarget]
    exact h.target hload i hi

/-- The slot that is set, and the other ones. -/
theorem slots_setSlot (st : Storage) (i j : Fin 16) (s : Slot) :
    (st.setSlot i s).slots j = if j = i then s else st.slots j :=
  Function.update_apply ..

/-- Changing one slot in bytes and save state only. -/
theorem Slotted.setSlot (h : st.Slotted) (i : Fin 16) {s : Slot} (hs : SameOwner (st.slots i) s) :
    (st.setSlot i s).Slotted := by
  refine h.of_sameOwner (fun j => ?_) rfl rfl rfl rfl rfl
  rw [slots_setSlot]
  split_ifs with hj
  · rw [hj]; exact hs
  · exact ⟨rfl, rfl, rfl, rfl, rfl⟩

/-- A slot has its own owner. -/
theorem sameOwner_refl (s : Slot) : SameOwner s s := ⟨rfl, rfl, rfl, rfl, rfl⟩

/-! ### Moves -/

/-- Where an entry has no owner no slot holds it. -/
theorem owner_eq_none {id : U32} (h : st.owner id = none) (i : Fin 16)
    (hi : (st.slots i).occupied = true) : (st.slots i).id ≠ id := by
  have := List.find?_eq_none.mp h i (List.mem_finRange i)
  simpa [hi] using this

/-- An action that begins keeps the slots consistent. -/
theorem Slotted.startAction (h : st.Slotted) (haction : st.action = none) {ui : Fin 16} {id : U32}
    {action : Swap} (hload : action = .load → id < st.count ∧ st.owner id = none) :
    (st.startAction ui id action).Slotted where
  ui_inj := h.ui_inj
  occupied i := by
    have := h.occupied i
    simp only [Storage.startAction, setOldPresent]
    split_ifs <;> exact this
  present i := by
    have := h.present i
    simp only [Storage.startAction, setOldPresent]
    split_ifs with hold
    · simp [hold]
    · simp [hold, haction] at this ⊢
      exact this
  id_inj i j := by
    have := h.id_inj i j
    simp only [Storage.startAction, setOldPresent]
    split_ifs <;> exact this
  uid_inj i j := by
    have := h.uid_inj i j
    simp only [Storage.startAction, setOldPresent]
    split_ifs <;> exact this
  old _ := rfl
  target hload' i := by
    have := owner_eq_none (hload (Option.some.inj hload')).2 i
    simp only [Storage.startAction, setOldPresent]
    split_ifs <;> exact this

/-- What the menu asks for keeps the slots consistent. -/
theorem Slotted.begins (h : st.Slotted) (hb : Begins st st') : st'.Slotted := by
  cases hb with
  | keep => exact h
  | action ui id action haction hbusy hload => exact h.startAction haction hload

/-- `e12_restore` keeps the slots consistent: the old figure is back. -/
theorem Slotted.restore (h : st.Slotted) (haction : st.action ≠ none) : st.restore.Slotted where
  ui_inj := h.ui_inj
  occupied i := by
    have := h.occupied i
    simp only [Storage.restore, setOldPresent]
    split_ifs <;> exact this
  present i := by
    have hpresent := h.present i
    simp only [Storage.restore, setOldPresent]
    split_ifs with hold
    · -- the old slot is shown at the position of the action
      have hocc := (h.occupied i).mpr ⟨st.actionUi, by rw [← h.old haction, hold]⟩
      simp [hocc]
    · simpa [hold] using hpresent
  id_inj i j := by
    have := h.id_inj i j
    simp only [Storage.restore, setOldPresent]
    split_ifs <;> exact this
  uid_inj i j := by
    have := h.uid_inj i j
    simp only [Storage.restore, setOldPresent]
    split_ifs <;> exact this
  old haction' := absurd rfl haction'
  target hload := nomatch hload

/-- Positions after the action's own has been cleared. -/
theorem Slotted.shown_elsewhere (h : st.Slotted) (haction : st.action ≠ none) (i : Fin 16) :
    ((st.slots i).occupied = true ∧ st.old ≠ some i) ↔ ∃ u, u ≠ st.actionUi ∧ st.ui u = some i := by
  constructor
  · rintro ⟨hi, hold⟩
    obtain ⟨u, hu⟩ := (h.occupied i).mp hi
    refine ⟨u, fun hua => hold ?_, hu⟩
    rw [h.old haction, ← hua, hu]
  · rintro ⟨u, hua, hu⟩
    refine ⟨(h.occupied i).mpr ⟨u, hu⟩, fun hold => hua ?_⟩
    exact h.ui_inj u _ i hu (by rw [← h.old haction, hold])

/-- All slots but the old one stay occupied. -/
theorem occupied_releaseOld (st : Storage) (i : Fin 16) :
    (st.releaseOld.slots i).occupied = true ↔ (st.slots i).occupied = true ∧ st.old ≠ some i := by
  simp only [releaseOld]
  split_ifs with hold
  · simp [hold]
  · simp [hold]

/-- Freeing the old slot changes nothing else of a slot. -/
theorem releaseOld_slots (st : Storage) (i : Fin 16) :
    (st.releaseOld.slots i).id = (st.slots i).id ∧
      (st.releaseOld.slots i).present = (st.slots i).present ∧
      (st.releaseOld.slots i).seenUid = (st.slots i).seenUid ∧
      (st.releaseOld.slots i).lastUid = (st.slots i).lastUid := by
  simp only [releaseOld]
  split_ifs <;> exact ⟨rfl, rfl, rfl, rfl⟩

/-- The end of a removal keeps the slots consistent. -/
theorem Slotted.finishRemove (h : st.Slotted) (haction : st.action ≠ none) :
    st.finishRemove.Slotted := by
  have hocc (i : Fin 16) : (st.finishRemove.slots i).occupied = true ↔
      (st.slots i).occupied = true ∧ st.old ≠ some i := occupied_releaseOld st i
  have hslots (i : Fin 16) := releaseOld_slots st i
  constructor
  case toConsistent =>
    constructor
    case ui_inj =>
      intro u v i hu hv
      simp only [Storage.finishRemove, releaseOld, Function.update_apply] at hu hv
      split_ifs at hu hv
      exact h.ui_inj u v i hu hv
    case occupied =>
      intro i
      rw [hocc, h.shown_elsewhere haction]
      simp only [Storage.finishRemove, releaseOld, Function.update_apply]
      refine exists_congr fun u => ?_
      split_ifs with hu <;> simp [hu]
    case present =>
      intro i
      rw [hocc]
      have := h.present i
      rw [show (st.finishRemove.slots i).present = (st.slots i).present from (hslots i).2.1, this]
      simp [Storage.finishRemove, haction]
    case id_inj =>
      intro i j hi hj hid
      rw [hocc] at hi hj
      refine h.id_inj i j hi.1 hj.1 ?_
      rw [← (hslots i).1, ← (hslots j).1]
      exact hid
    case uid_inj =>
      intro i j hi hj huid
      refine h.uid_inj i j ?_ ?_ ?_
      · rw [← (hslots i).2.2.1]; exact hi
      · rw [← (hslots j).2.2.1]; exact hj
      · rw [← (hslots i).2.2.2, ← (hslots j).2.2.2]; exact huid
  case old => exact fun haction' => absurd rfl haction'
  case target => exact fun hload => nomatch hload

/-- Every move of the figures keeps the slots consistent. -/
theorem Slotted.move {out : List Effect} (h : st.Slotted) (hm : Move st st' out) : st'.Slotted := by
  cases hm with
  | begins hb => exact h.begins hb
  | write slot block bytes => exact h.setSlot slot ⟨rfl, rfl, rfl, rfl, rfl⟩
  | remove hbusy haction => exact h.finishRemove (by rw [haction]; simp)
  | job op sent hbusy hprepares =>
      cases hprepares with
      | catalog => exact h.of_sameOwner (fun i => sameOwner_refl _) rfl rfl rfl rfl rfl
      | save i => exact h.of_sameOwner (fun i => sameOwner_refl _) rfl rfl rfl rfl rfl
      | load => exact h.of_sameOwner (fun i => sameOwner_refl _) rfl rfl rfl rfl rfl

/-! ### The slot search -/

/-- A slot the search may use that remembers the UID. -/
def Remembers (st : Storage) (uid : U32) (i : Fin 16) : Prop :=
  (st.slots i).seenUid = true ∧ (st.slots i).lastUid = uid

instance (st : Storage) (uid : U32) (i : Fin 16) : Decidable (st.Remembers uid i) :=
  inferInstanceAs (Decidable (_ ∧ _))

/-- Without a duplicate no slot in use has the UID. -/
theorem duplicateUid_eq_false {uid : U32} (h : st.duplicateUid uid = false) {i : Fin 16}
    (hi : ¬ st.Free i) : (st.slots i).lastUid ≠ uid := by
  have := List.any_eq_false.mp h i (List.mem_finRange i)
  obtain ⟨hocc, hold⟩ := not_not.mp hi
  simpa [hocc, hold] using this

/-- Without a duplicate the search ends at the first usable slot that remembers
the UID, else at the first usable one. -/
theorem slotSearch_eq {uid : U32} (h : st.duplicateUid uid = false) (l : List (Fin 16))
    (slot : Option (Fin 16)) :
    st.slotSearch uid l slot =
      .ok ((l.find? fun i => st.Free i ∧ st.Remembers uid i).or
        (slot.or (l.find? fun i => st.Free i))) := by
  induction l generalizing slot with
  | nil => simp [slotSearch]
  | cons i l ih =>
      unfold slotSearch
      by_cases hfree : st.Free i
      · rw [if_neg hfree]
        by_cases hmem : st.Remembers uid i
        · rw [if_pos (show (st.slots i).seenUid = true ∧ (st.slots i).lastUid = uid from hmem)]
          simp [hfree, hmem]
        · rw [if_neg (show ¬ ((st.slots i).seenUid = true ∧ (st.slots i).lastUid = uid) from hmem),
            ih]
          simp [hfree, hmem]
      · rw [if_pos (not_not.mp hfree), if_neg (duplicateUid_eq_false h hfree), ih]
        simp [hfree]

/-- The slot found is usable, and it is the one that remembers the UID if a
usable one does. -/
theorem slotSearch_eq_some {uid : U32} (h : st.duplicateUid uid = false) {slot : Fin 16}
    (hs : st.slotSearch uid (List.finRange 16) none = .ok (some slot)) :
    st.Free slot ∧ ∀ i, st.Free i → st.Remembers uid i → st.Remembers uid slot := by
  rw [slotSearch_eq h, Except.ok.injEq, Option.none_or] at hs
  cases hfound : (List.finRange 16).find? fun i => st.Free i ∧ st.Remembers uid i with
  | some j =>
      rw [hfound, Option.some_or] at hs
      obtain rfl := Option.some.inj hs
      have hj : st.Free j ∧ st.Remembers uid j := by simpa using List.find?_some hfound
      exact ⟨hj.1, fun i _ _ => hj.2⟩
  | none =>
      rw [hfound, Option.none_or] at hs
      refine ⟨by simpa using List.find?_some hs, fun i hi hmem => ?_⟩
      have := List.find?_eq_none.mp hfound i (List.mem_finRange i)
      exact absurd (decide_eq_true (show _ ∧ _ from ⟨hi, hmem⟩)) this

/-- The one slot that remembers the UID is the slot found. -/
theorem Consistent.slotSearch_remembered (h : st.Consistent) {uid : U32}
    (hdup : st.duplicateUid uid = false) {i : Fin 16} (hi : st.Remembers uid i) :
    st.slotSearch uid (List.finRange 16) none = .ok (some i) := by
  have hfree : st.Free i := by
    by_contra hused
    exact duplicateUid_eq_false hdup hused hi.2
  rw [slotSearch_eq hdup]
  cases hfound : (List.finRange 16).find? fun i => st.Free i ∧ st.Remembers uid i with
  | some j =>
      have hj : st.Free j ∧ st.Remembers uid j := by simpa using List.find?_some hfound
      obtain rfl := h.uid_inj j i hj.2.1 hi.1 (hj.2.2.trans hi.2.symm)
      rfl
  | none =>
      have hnone := List.find?_eq_none.mp hfound i (List.mem_finRange i)
      exact absurd (decide_eq_true (show _ ∧ _ from ⟨hfree, hi⟩)) hnone

/-- The search finds a slot as soon as one is usable. -/
theorem slotSearch_ne_none {uid : U32} (h : st.duplicateUid uid = false) (hfree : ∃ i, st.Free i) :
    st.slotSearch uid (List.finRange 16) none ≠ .ok none := by
  obtain ⟨i, hi⟩ := hfree
  rw [slotSearch_eq h, Option.none_or]
  intro hnone
  have hf := (Option.or_eq_none_iff.mp (Except.ok.inj hnone)).2
  have := List.find?_eq_none.mp hf i (List.mem_finRange i)
  exact absurd hi (by simpa using this)

/-- While an action runs some slot is usable: if its position shows a slot, that
one, and if not, 15 positions do not fill 16 slots. -/
theorem Slotted.exists_free (h : st.Slotted) (haction : st.action ≠ none) : ∃ i, st.Free i := by
  by_contra hfull
  have hused (i : Fin 16) : ∃ u, u ≠ st.actionUi ∧ st.ui u = some i := by
    obtain ⟨hocc, hold⟩ := not_not.mp (not_exists.mp hfull i)
    exact (h.shown_elsewhere haction i).mp ⟨hocc, fun he => hold he.symm⟩
  choose pos hpos using hused
  have hinj : Function.Injective pos := fun i j hij => by
    have hi := (hpos i).2
    rw [hij, (hpos j).2] at hi
    exact (Option.some.inj hi).symm
  obtain ⟨i, hi⟩ := Finite.injective_iff_surjective.mp hinj st.actionUi
  exact (hpos i).1 hi

/-! ### Completions -/

/-- The loaded figure takes a usable slot. -/
theorem Slotted.install (h : st.Slotted) (haction : st.action = some .load)
    (hjob : st.jobSlot = st.target) {uid : U32} {slot : Fin 16} (hdup : st.duplicateUid uid = false)
    (hs : st.slotSearch uid (List.finRange 16) none = .ok (some slot)) :
    (st.install slot uid).Slotted := by
  obtain ⟨hfree, hmem⟩ := slotSearch_eq_some hdup hs
  have hact : st.action ≠ none := by rw [haction]; simp
  have hnew : (st.install slot uid).slots slot = st.releaseOld.loadedSlot uid := by
    simp only [Storage.install, slots_setSlot, if_true]
  have hkeep {i : Fin 16} (hi : i ≠ slot) :
      (st.install slot uid).slots i = st.releaseOld.slots i := by
    simp only [Storage.install, slots_setSlot, hi, if_false]
  have hslots (i : Fin 16) := releaseOld_slots st i
  have hui (u : Fin 16) : (st.install slot uid).ui u =
      if u = st.actionUi then some slot else st.ui u := Function.update_apply ..
  have helse {u : Fin 16} (hu : u ≠ st.actionUi) : st.ui u ≠ some slot := fun hus => by
    obtain ⟨hocc, hold⟩ := (h.shown_elsewhere hact slot).mpr ⟨u, hu, hus⟩
    exact hfree ⟨hocc, fun he => hold he.symm⟩
  constructor
  case toConsistent =>
    constructor
    case ui_inj =>
      intro u v i hu hv
      rw [hui] at hu hv
      split_ifs at hu hv with h₁ h₂ h₂
      · rw [h₁, h₂]
      · exact absurd (hv.trans hu.symm) (helse h₂)
      · exact absurd (hu.trans hv.symm) (helse h₁)
      · exact h.ui_inj u v i hu hv
    case occupied =>
      intro i
      by_cases hi : i = slot
      · subst hi
        rw [hnew]
        exact ⟨fun _ => ⟨st.actionUi, by rw [hui, if_pos rfl]⟩, fun _ => rfl⟩
      · rw [hkeep hi, occupied_releaseOld, h.shown_elsewhere hact]
        refine exists_congr fun u => ?_
        rw [hui]
        split_ifs with hu
        · simp [hu, Ne.symm hi]
        · simp [hu]
    case present =>
      intro i
      have hidle : (st.install slot uid).action = none := rfl
      by_cases hi : i = slot
      · subst hi
        rw [hnew, hidle]
        simp [loadedSlot]
      · rw [hkeep hi, (hslots i).2.1, occupied_releaseOld, h.present i, hidle]
        simp [hact]
    case id_inj =>
      intro i j hi hj hid
      by_cases hi' : i = slot <;> by_cases hj' : j = slot
      · rw [hi', hj']
      · subst hi'
        rw [hkeep hj', occupied_releaseOld] at hj
        rw [hnew, hkeep hj', (hslots j).1] at hid
        exact absurd (hid.symm.trans hjob) (h.target haction j hj.1)
      · subst hj'
        rw [hkeep hi', occupied_releaseOld] at hi
        rw [hnew, hkeep hi', (hslots i).1] at hid
        exact absurd (hid.trans hjob) (h.target haction i hi.1)
      · rw [hkeep hi', occupied_releaseOld] at hi
        rw [hkeep hj', occupied_releaseOld] at hj
        rw [hkeep hi', hkeep hj', (hslots i).1, (hslots j).1] at hid
        exact h.id_inj i j hi.1 hj.1 hid
    case uid_inj =>
      -- whoever remembers the UID is usable, so it is the slot found
      have honly {i : Fin 16} (hi : st.Remembers uid i) : i = slot := by
        have hfi : st.Free i := by
          by_contra hfi
          exact duplicateUid_eq_false hdup hfi hi.2
        have hs' := hmem i hfi hi
        exact h.uid_inj i slot hi.1 hs'.1 (hi.2.trans hs'.2.symm)
      intro i j hi hj huid
      by_cases hi' : i = slot <;> by_cases hj' : j = slot
      · rw [hi', hj']
      · subst hi'
        rw [hkeep hj', (hslots j).2.2.1] at hj
        rw [hnew, hkeep hj', (hslots j).2.2.2] at huid
        exact absurd (honly ⟨hj, huid.symm⟩) hj'
      · subst hj'
        rw [hkeep hi', (hslots i).2.2.1] at hi
        rw [hnew, hkeep hi', (hslots i).2.2.2] at huid
        exact absurd (honly ⟨hi, huid⟩) hi'
      · rw [hkeep hi', (hslots i).2.2.1] at hi
        rw [hkeep hj', (hslots j).2.2.1] at hj
        rw [hkeep hi', hkeep hj', (hslots i).2.2.2, (hslots j).2.2.2] at huid
        exact h.uid_inj i j hi hj huid
  case old => exact fun haction' => absurd rfl haction'
  case target => exact fun hload => nomatch hload

/-- Taking the result of a job keeps the slots consistent. -/
theorem Slotted.taken (h : st.Slotted) : st.taken.Slotted :=
  h.of_sameOwner (fun _ => sameOwner_refl _) rfl rfl rfl rfl rfl

/-- Every completion keeps the slots consistent. -/
theorem Slotted.completion {out : List Effect} (h : st.Slotted)
    (hload : st.op = .load → st.action = some .load ∧ st.jobSlot = st.target)
    (hc : Completion st st' out) : st'.Slotted := by
  cases hc with
  | failed _ =>
      split_ifs with haction
      · exact h.taken.restore haction
      · exact h.taken
  | catalog _ _ hb =>
      have hcounted : st.taken.counted.Slotted :=
        h.of_sameOwner (fun _ => sameOwner_refl _) rfl rfl rfl rfl rfl
      exact hcounted.begins hb
  | saved _ _ => exact h.taken.setSlot _ ⟨rfl, rfl, rfl, rfl, rfl⟩
  | rejected _ hop =>
      obtain ⟨haction, -⟩ := hload hop
      exact h.taken.restore (by rw [show st.taken.action = _ from haction]; simp)
  | installed slot _ hop hdup hslot =>
      obtain ⟨haction, hjob⟩ := hload hop
      exact h.taken.install haction hjob hdup hslot

end Storage

/-! ### Runs -/

/-- The slots are consistent, and a load job is the one of the running action. -/
structure Core.Slotted (c : Core) : Prop where
  slots : c.storage.Slotted
  load : c.phase ≠ .idle → c.storage.op = .load →
    c.storage.action = some .load ∧ c.storage.jobSlot = c.storage.target

/-- At the start all slots are free. -/
theorem Core.Slotted.initial {c : Core} {d : Disk} (h : c.Initial d) : c.Slotted := by
  have hslots (i : Fin 16) : c.storage.slots i = .zero := congrFun h.slots i
  have hui (u : Fin 16) : c.storage.ui u = none := congrFun h.ui u
  refine ⟨⟨⟨?_, ?_, ?_, ?_, ?_⟩, ?_, ?_⟩, ?_⟩
  · intro u v i hu
    rw [hui] at hu; cases hu
  · intro i
    simp [hslots, hui, Slot.zero]
  · intro i
    simp [hslots, Slot.zero]
  · intro i j hi
    rw [hslots] at hi; cases hi
  · intro i j hi
    rw [hslots] at hi; cases hi
  · exact fun haction => absurd h.action haction
  · intro hload
    rw [h.action] at hload; cases hload
  · intro _ hop
    rw [h.op] at hop; cases hop

/-- A job that is run changes no slot. -/
theorem Storage.Slotted.e11Worker {st : Storage} (h : st.Slotted) (d : Disk) (op : DiskOp)
    (io : JobIo) : (st.e11Worker d op io).1.Slotted := by
  cases op <;> exact h.of_sameOwner (fun _ => sameOwner_refl _) rfl rfl rfl rfl rfl

/-- Every step of the core keeps the slots consistent. -/
theorem Core.Slotted.step {calls : Calls} {c c' : Core} {out : List Effect} (hc : c.Coherent)
    (h : c.Slotted) (hs : Core.Step calls c c' out) : c'.Slotted := by
  cases hs with
  | @event st st₁ st' d p out hbegins hmove =>
      refine ⟨(h.slots.begins hbegins).move hmove, ?_⟩
      rcases hc.event hbegins hmove with ⟨op, st₂, rfl, hprepares, rfl⟩ | ⟨hafter, hkept⟩
      · intro _ hop
        cases hprepares with
        | catalog => cases hop
        | save => cases hop
        | load _ haction => exact ⟨haction, rfl⟩
      · rw [hafter]
        intro hp hop
        rcases hkept hp with rfl | ⟨slot, block, bytes, -, rfl⟩
        · exact h.load hp hop
        · exact h.load hp hop
  | complete hcomp => exact ⟨h.slots.completion (h.load (by simp)) hcomp, fun hp => absurd rfl hp⟩
  | @run st d op io =>
      refine ⟨h.slots.e11Worker d op io, fun _ hop => ?_⟩
      have hload := h.load (by simp)
      cases op <;> exact hload hop
  | lose => exact ⟨h.slots, fun _ hop => h.load (by simp) hop⟩

/-- Every run keeps the slots consistent. -/
theorem System.slotted_of_every {calls : Calls} {d : Disk} {io : StartIo} {as : List Action}
    (has : Run.Every System.step (System.Meets calls) (System.init d io) as) :
    ∃ p, (Run.final System.step (System.init d io) as).HasPhase p ∧
      ((Run.final System.step (System.init d io) as).core p).Coherent ∧
      ((Run.final System.step (System.init d io) as).core p).Slotted :=
  System.core_of_every (I := fun c _ => c.Slotted) (fun _ _ _ _ hc h hs => h.step hc hs)
    (fun _ h => .initial h) has

/-- A run whose calls return anything. -/
theorem System.meets_any (σ : System) (as : List Action) :
    Run.Every System.step (System.Meets .any) σ as :=
  (Run.every_true σ as).mono fun _ a _ => by cases a <;> simp [System.Meets, Calls.any]

/-- When the completion of a load that has succeeded is next, a slot is found. -/
theorem System.HasPhase.loadedFigure {σ : System} {p : Phase} (hp : σ.HasPhase p)
    (h : (σ.core p).Slotted) {events : List Event} (he : σ.events = .complete :: events)
    (hop : σ.hid.op = .load)
    (hdup : σ.hid.takeResult.duplicateUid (be32 σ.hid.job.byte 32) = false) :
    σ.hid.takeResult.slotSearch (be32 σ.hid.job.byte 32) (List.finRange 16) none ≠ .ok none := by
  have hne : p ≠ .idle := by
    rintro rfl
    have := hp.2.2
    rw [he] at this
    simp at this
  obtain ⟨haction, -⟩ := h.load hne hop
  exact slotSearch_ne_none hdup
    (h.slots.taken.exists_free
      (by rw [show (σ.core p).storage.taken.action = _ from haction]; simp))

/-- In every state the system can reach the slots and the menu positions are
consistent, and whenever a load that has succeeded is completed, the search for
its slot finds one: the slot that remembers the UID of the figure, if one does. -/
theorem slots_consistent (d : Disk) (io : StartIo) (as : List Action) :
    let σ := Run.final System.step (System.init d io) as
    σ.hid.Consistent ∧
      ∀ events, σ.events = .complete :: events → 0 ≤ σ.hid.result → σ.hid.op = .load →
        σ.hid.takeResult.duplicateUid (be32 σ.hid.job.byte 32) = false →
        σ.hid.takeResult.slotSearch (be32 σ.hid.job.byte 32) (List.finRange 16) none ≠ .ok none ∧
        ∀ i, σ.hid.Remembers (be32 σ.hid.job.byte 32) i →
          σ.hid.takeResult.slotSearch (be32 σ.hid.job.byte 32) (List.finRange 16) none =
            .ok (some i) := by
  obtain ⟨p, hp, -, h⟩ := System.slotted_of_every (System.meets_any (System.init d io) as)
  refine ⟨h.slots.toConsistent, fun events he _ hop hdup => ⟨hp.loadedFigure h he hop hdup, ?_⟩⟩
  exact fun i hi => h.slots.taken.toConsistent.slotSearch_remembered hdup hi

end VirtualPortal
