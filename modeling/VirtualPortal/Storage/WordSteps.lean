/-
# The functions over words have results

Each function of `Words` is run on the words of a machine, and its result is the words
of the machine that the model gives.  An access finds its element because the word is
one of an index (`dite_slotWord`); a request of the menu that carries another word is
refused before it is used (`beginAt_words`, `requestAt_words`).

The reads of the catalogue need `Storage.Recorded`: the counted records are in the
buffer, and the ids that are read are counted.  A menu request keeps it
(`Storage.Recorded.begins`), so that the poll after the mailbox has it too
(`pollAt_words`).
-/

import VirtualPortal.Storage.Words
import VirtualPortal.Storage.Moves

namespace VirtualPortal

/-! ### Words of indices -/

/-- The word of a slot is its number. -/
theorem toNat_slotWord (i : Fin 16) : (slotWord (some i)).toNat = i.val :=
  toNat_ofNat_of_lt (by omega)

/-- The words below 16 are those of slots. -/
theorem slotWord_lt {s : Option (Fin 16)} : slotWord s < 16 ↔ s.isSome = true := by
  cases s with
  | none => decide
  | some i =>
      refine ⟨fun _ => rfl, fun _ => ?_⟩
      rw [BitVec.lt_def, toNat_slotWord]
      exact i.isLt

/-- The word of a slot is not the one for none. -/
theorem slotWord_some_ne (i : Fin 16) : slotWord (some i) ≠ 255 := by
  intro h
  have hnat := toNat_slotWord i
  rw [h, show (255 : U32).toNat = 255 from rfl] at hnat
  omega

/-- Different slots have different words. -/
theorem slotWord_inj {s t : Option (Fin 16)} : slotWord s = slotWord t ↔ s = t := by
  refine ⟨fun h => ?_, fun h => by rw [h]⟩
  cases s with
  | none =>
      cases t with
      | none => rfl
      | some j => exact absurd h.symm (slotWord_some_ne j)
  | some i =>
      cases t with
      | none => exact absurd h (slotWord_some_ne i)
      | some j =>
          have hnat := congrArg BitVec.toNat h
          rw [toNat_slotWord, toNat_slotWord] at hnat
          rw [Fin.ext hnat]

/-- A slot survives the byte it is kept in. -/
theorem setWidth_slotWord (s : Option (Fin 16)) :
    ((slotWord s).setWidth 8).setWidth 32 = slotWord s := by
  cases s with
  | none => rfl
  | some i =>
      apply BitVec.eq_of_toNat_eq
      rw [BitVec.toNat_setWidth, BitVec.toNat_setWidth, toNat_slotWord]
      omega

/-- A word below 16 is that of its slot. -/
theorem eq_slotWord {u : U32} (h : u.toNat < 16) : u = slotWord (some ⟨u.toNat, h⟩) :=
  BitVec.eq_of_toNat_eq (toNat_slotWord ⟨u.toNat, h⟩).symm

/-- An access with the word of an index finds the element. -/
theorem dite_slotWord {α : Type*} (i : Fin 16) (f : Fin 16 → Option α) :
    (if h : (slotWord (some i)).toNat < 16 then f ⟨(slotWord (some i)).toNat, h⟩ else none)
      = f i := by
  have hi := toNat_slotWord i
  rw [dif_pos (hi ▸ i.isLt)]
  exact congrArg f (Fin.ext hi)

namespace Machine

/-- The machine with its indices forgotten. -/
def unindexed (m : Machine) : Machine :=
  { m with
    ui := fun _ => none, old := none, actionUi := 0, diskSlot := 0, view := 0, saveCursor := 0 }

/-- The machine with its indices written as words. -/
def words (m : Machine) : Words where
  ui u := (slotWord (m.ui u)).setWidth 8
  view := slotWord (some m.view)
  actionUi := slotWord (some m.actionUi)
  old := slotWord m.old
  diskSlot := slotWord (some m.diskSlot)
  saveCursor := slotWord (some m.saveCursor)
  rest := m.unindexed

variable (m : Machine)

/-! ### Accesses -/

/-- A position of `e12_ui` is read. -/
theorem uiAt_words (u : Fin 16) : m.words.uiAt (slotWord (some u)) = some (slotWord (m.ui u)) :=
  (dite_slotWord u fun u => some ((m.words.ui u).setWidth 32)).trans
    (congrArg some (setWidth_slotWord _))

/-- A position of `e12_ui` is written. -/
theorem setUiAt_words (u : Fin 16) (s : Option (Fin 16)) :
    m.words.setUiAt (slotWord (some u)) (slotWord s) =
      some ({ m with ui := Function.update m.ui u s } : Machine).words := by
  refine (dite_slotWord u fun u => some { m.words with
    ui := Function.update m.words.ui u ((slotWord s).setWidth 8) }).trans (congrArg some ?_)
  have hui : Function.update m.words.ui u ((slotWord s).setWidth 8) =
      fun v => (slotWord (Function.update m.ui u s v)).setWidth 8 := by
    funext v
    rw [Function.update_apply, Function.update_apply]
    split_ifs <;> rfl
  rw [hui]
  rfl

/-- A slot is read. -/
theorem slotAt_words (i : Fin 16) : m.words.slotAt (slotWord (some i)) = some (m.slots i) :=
  dite_slotWord i fun i => some (m.slots i)

/-- A slot is written. -/
theorem setSlotAt_words (i : Fin 16) (s : Slot) :
    m.words.setSlotAt (slotWord (some i)) s =
      some ({ m with toStorage := m.setSlot i s } : Machine).words :=
  dite_slotWord i fun i => some ({ m with toStorage := m.setSlot i s } : Machine).words

/-- `e12_event` of a slot in words. -/
theorem eventAt_words (i : Fin 16) (inserted : Bool) :
    m.words.eventAt (slotWord (some i)) inserted = some (m.e12Event i inserted).words :=
  dite_slotWord i fun i => some (m.e12Event i inserted).words

/-! ### Actions -/

section Old

variable {m}

/-- Without an old slot there is no event. -/
theorem oldEvent_of_none (h : m.old = none) (inserted : Bool) : m.oldEvent inserted = m := by
  unfold oldEvent
  rw [h]

/-- The event is one of the old slot. -/
theorem oldEvent_of_some {i : Fin 16} (h : m.old = some i) (inserted : Bool) :
    m.oldEvent inserted = m.e12Event i inserted := by
  unfold oldEvent
  rw [h]

end Old
end Machine

namespace Storage

variable {st : Storage}

/-- A change of the old slot of the action, if there is none. -/
theorem slots_old_of_none (h : st.old = none) (f : Slot → Slot) :
    (fun j => if st.old = some j then f (st.slots j) else st.slots j) = st.slots := by
  funext j
  rw [if_neg]
  rw [h]
  exact fun hnone => nomatch hnone

/-- A change of the old slot of the action. -/
theorem slots_old_of_some {i : Fin 16} (h : st.old = some i) (f : Slot → Slot) :
    (fun j => if st.old = some j then f (st.slots j) else st.slots j) =
      Function.update st.slots i (f (st.slots i)) := by
  funext j
  rw [Function.update_apply]
  by_cases hj : j = i
  · rw [if_pos (hj ▸ h), if_pos hj, hj]
  · rw [if_neg fun hold => hj (Option.some.inj (hold.symm.trans h)), if_neg hj]

/-- Without an old slot no figure is taken out or put back. -/
theorem setOldPresent_of_none (h : st.old = none) (present : Bool) :
    st.setOldPresent present = st :=
  congrArg (fun slots => { st with slots := slots })
    (slots_old_of_none h fun s => { s with present := present })

/-- The old slot is the one whose figure is taken out or put back. -/
theorem setOldPresent_of_some {i : Fin 16} (h : st.old = some i) (present : Bool) :
    st.setOldPresent present = st.setSlot i { st.slots i with present := present } :=
  congrArg (fun slots => { st with slots := slots })
    (slots_old_of_some h fun s => { s with present := present })

/-- Without an old slot none is freed. -/
theorem releaseOld_of_none (h : st.old = none) : st.releaseOld = st :=
  congrArg (fun slots => { st with slots := slots })
    (slots_old_of_none h fun s => { s with occupied := false })

/-- The old slot is the one that is freed. -/
theorem releaseOld_of_some {i : Fin 16} (h : st.old = some i) :
    st.releaseOld = st.setSlot i { st.slots i with occupied := false } :=
  congrArg (fun slots => { st with slots := slots })
    (slots_old_of_some h fun s => { s with occupied := false })

end Storage

namespace Machine

variable (m : Machine)

/-- The old figure is taken out or put back, in words. -/
theorem presentOldAt_words (present : Bool) :
    m.words.presentOldAt present =
      some (({ m with toStorage := m.setOldPresent present } : Machine).oldEvent present).words
    := by
  have hword : m.words.old = slotWord m.old := rfl
  unfold Words.presentOldAt
  rw [hword]
  cases hold : m.old with
  | none => rw [if_neg (by decide), Storage.setOldPresent_of_none hold, oldEvent_of_none hold]
  | some i =>
      have hevent := oldEvent_of_some
        (show ({ m with toStorage := m.setSlot i { m.slots i with present := present } } :
          Machine).old =
          some i from hold) present
      rw [if_pos (slotWord_lt.mpr rfl), slotAt_words, Storage.setOldPresent_of_some hold, hevent]
      simp only [Option.bind_eq_bind, Option.bind_some]
      rw [setSlotAt_words, Option.bind_some, eventAt_words]

/-- The old slot is freed, in words. -/
theorem releaseOldAt_words :
    m.words.releaseOldAt = some ({ m with toStorage := m.releaseOld } : Machine).words := by
  have hword : m.words.old = slotWord m.old := rfl
  unfold Words.releaseOldAt
  rw [hword]
  cases hold : m.old with
  | none => rw [if_neg (by decide), Storage.releaseOld_of_none hold]
  | some i =>
      rw [if_pos (slotWord_lt.mpr rfl), slotAt_words, Storage.releaseOld_of_some hold]
      simp only [Option.bind_eq_bind, Option.bind_some]
      rw [setSlotAt_words]

/-- The event of the old slot and the end of the action commute. -/
theorem oldEvent_action (inserted : Bool) :
    ({ m.oldEvent inserted with action := none } : Machine) =
      ({ m with action := none } : Machine).oldEvent inserted := by
  unfold oldEvent
  dsimp only
  split <;> rfl

/-- `e12_restore` in words. -/
theorem restoreAt_words (error : Int) :
    m.words.restoreAt error = some (m.e12Restore error).words := by
  have hpresent := presentOldAt_words { m with error := error } true
  unfold Words.restoreAt
  rw [show ({ m.words with rest := { m.words.rest with error := error } } : Words) =
    ({ m with error := error } : Machine).words from rfl, hpresent]
  simp only [Option.bind_eq_bind, Option.bind_some]
  exact congrArg (fun m => some (Machine.words m)) (oldEvent_action _ true)

/-- The end of `e12_begin` on words. -/
theorem startAction_words (ui : Fin 16) (id : U32) (action : Swap) :
    ({ m.words with
      old := slotWord (m.ui ui)
      actionUi := slotWord (some ui)
      rest := { m.words.rest with
        target := id, action := some action, removeTick := m.words.rest.ticks, error := 0 }
        } : Words).presentOldAt false = some (m.startAction ui id action).words :=
  presentOldAt_words { m with
    old := m.ui ui, actionUi := ui, target := id, action := some action
    removeTick := m.ticks, error := 0 } false

/-- `e12_begin` in words. -/
theorem beginAt_words (ui id : U32) (action : Swap) :
    m.words.beginAt ui id action =
      some ((m.e12Begin ui id action).1, (m.e12Begin ui id action).2.words) := by
  unfold Words.beginAt e12Begin
  by_cases hui : ui.toNat < 16
  · obtain ⟨pos, rfl⟩ : ∃ pos : Fin 16, ui = slotWord (some pos) := ⟨_, eq_slotWord hui⟩
    have hpos : (⟨(slotWord (some pos)).toNat, hui⟩ : Fin 16) = pos := Fin.ext (toNat_slotWord pos)
    have hle : ¬ (16 : U32) ≤ slotWord (some pos) := BitVec.not_le.mpr (slotWord_lt.mpr rfl)
    have hrest : m.words.rest.count = m.count ∧ m.words.rest.action = m.action ∧
        m.words.rest.busy = m.busy ∧ m.words.rest.owner id = m.owner id := ⟨rfl, rfl, rfl, rfl⟩
    rw [dif_pos hui, hpos, hrest.1, hrest.2.1, hrest.2.2.1, hrest.2.2.2, uiAt_words]
    simp only [hle, false_or, Option.bind_eq_bind, Option.bind_some]
    by_cases hload : action = .load ∧ m.count ≤ id
    · rw [if_pos hload, if_pos hload]
    rw [if_neg hload, if_neg hload]
    by_cases hfree : m.action ≠ none ∨ m.busy = true
    · rw [if_pos hfree, if_pos hfree]
    rw [if_neg hfree, if_neg hfree]
    cases (if action = .load then m.owner id else none : Option (Fin 16)) with
    | some i => simp only [slotWord_inj]
    | none =>
        dsimp only
        rw [startAction_words]
        rfl
  · have hle : (16 : U32) ≤ ui := BitVec.le_def.mpr (Nat.le_of_not_lt hui)
    rw [if_pos (Or.inl hle), dif_neg hui]

/-! ### Completions -/

/-- The first loop of `e09_complete` in words. -/
theorem duplicateUid_words (uid : U32) : m.words.duplicateUid uid = m.duplicateUid uid := by
  have hold : m.words.old = slotWord m.old := rfl
  have hslots : m.words.rest.slots = m.slots := rfl
  unfold Words.duplicateUid Storage.duplicateUid
  rw [hold, hslots]
  simp only [ne_eq, slotWord_inj]

/-- The slot search finds the same slot. -/
theorem slotSearch_words (uid : U32) (is : List (Fin 16)) (slot : Option (Fin 16)) :
    m.words.slotSearch uid is (slotWord slot) = (m.slotSearch uid is slot).map slotWord := by
  have hold : m.words.old = slotWord m.old := rfl
  have hslots : m.words.rest.slots = m.slots := rfl
  induction is generalizing slot with
  | nil => rfl
  | cons i is ih =>
      have hnext : (if slotWord slot = 255 then slotWord (some i) else slotWord slot) =
          slotWord (slot.or (some i)) := by
        cases slot with
        | none => rfl
        | some j => exact if_neg (slotWord_some_ne j)
      unfold Words.slotSearch Storage.slotSearch
      rw [hold, hslots, hnext]
      dsimp only
      rw [ih, ih]
      simp only [ne_eq, slotWord_inj]
      split_ifs <;> rfl

/-- The loaded figure is put in its slot, in words. -/
theorem installAt_words (slot : Fin 16) (uid : U32) :
    m.words.installAt (slotWord (some slot)) uid = some (m.install slot uid).words := by
  unfold Words.installAt
  rw [releaseOldAt_words]
  simp only [Option.bind_eq_bind, Option.bind_some]
  rw [setSlotAt_words, Option.bind_some]
  rw [show ∀ m : Machine, m.words.actionUi = slotWord (some m.actionUi) from fun _ => rfl,
    setUiAt_words, Option.bind_some, eventAt_words]
  rfl

/-- The success of a load job in words. -/
theorem loadDoneAt_words : m.words.loadDoneAt = some m.loadDone.1.words := by
  have hjob : m.words.rest.job = m.job := rfl
  unfold Words.loadDoneAt loadDone
  rw [hjob]
  dsimp only
  rw [duplicateUid_words]
  by_cases hdup : m.duplicateUid (be32 m.job.byte 32) = true
  · rw [if_pos hdup, if_pos hdup, restoreAt_words]
  rw [if_neg hdup, if_neg hdup]
  have hsearch := m.slotSearch_words (be32 m.job.byte 32) (List.finRange 16) none
  rw [show slotWord none = 255 from rfl] at hsearch
  rw [hsearch]
  cases m.slotSearch (be32 m.job.byte 32) (List.finRange 16) none with
  | error e => exact m.restoreAt_words e
  | ok slot =>
      cases slot with
      | none => exact m.restoreAt_words (-8)
      | some i =>
          show (if slotWord (some i) = 255 then _ else _) = _
          rw [if_neg (slotWord_some_ne i), installAt_words]

/-- The success of a save job in words. -/
theorem saveDoneAt_words :
    m.words.saveDoneAt = some ({ m with toStorage := m.toStorage.saveDone } : Machine).words := by
  have hslot : m.words.diskSlot = slotWord (some m.diskSlot) := rfl
  unfold Words.saveDoneAt
  rw [hslot, slotAt_words]
  simp only [Option.bind_eq_bind, Option.bind_some]
  rw [setSlotAt_words]
  rfl

/-- **A completion keeps to its arrays.** -/
theorem completeAt_words : m.words.completeAt = some m.e09Complete.1.words := by
  have hrest : m.words.rest.result = m.result ∧ m.words.rest.action = m.action ∧
      m.words.rest.op = m.op := ⟨rfl, rfl, rfl⟩
  have htaken : ({ m.words with rest := m.words.rest.takeResult } : Words) = m.takeResult.words :=
    rfl
  unfold Words.completeAt e09Complete
  rw [hrest.1, hrest.2.1, hrest.2.2, htaken]
  dsimp only
  by_cases hresult : m.result < 0
  · rw [if_pos hresult, if_pos hresult]
    by_cases haction : m.action ≠ none
    · rw [if_pos haction, if_pos haction, restoreAt_words]
    · rw [if_neg haction, if_neg haction]
  rw [if_neg hresult, if_neg hresult]
  unfold jobDone
  have hop : m.takeResult.op = m.op := rfl
  rw [hop]
  cases m.op with
  | catalog =>
      dsimp only
      rw [show ({ m.takeResult.words with rest := m.takeResult.words.rest.countEntries } : Words) =
        m.takeResult.countEntries.words from rfl, beginAt_words]
      rfl
  | save => exact m.takeResult.saveDoneAt_words
  | load => exact m.takeResult.loadDoneAt_words

end Machine

/-- What the reads of the catalogue rely on: the counted records are in the buffer, and
a figure that is shown or will be loaded has one. -/
structure Storage.Recorded (st : Storage) : Prop where
  fits : st.Fits
  shown : ∀ u i, st.ui u = some i → (st.slots i).id < st.count
  target : st.action = some .load → st.target < st.count

namespace Machine

variable {m : Machine}

/-! ### Publications -/

/-- The slot that the menu looks at, in words. -/
theorem shownAt_words (m : Machine) : m.words.shownAt = some ((m.ui m.view).map m.slots) := by
  have hview : m.words.view = slotWord (some m.view) := rfl
  unfold Words.shownAt
  rw [hview, uiAt_words]
  simp only [Option.bind_eq_bind, Option.bind_some]
  cases m.ui m.view with
  | none => rfl
  | some i => rw [if_pos (slotWord_lt.mpr rfl), slotAt_words]; rfl

/-- The labels of the page are inside their fields. -/
theorem labelLoop (h : m.Fits) (out : Bytes 416) :
    (List.range 8).foldlM (fun out i =>
      let n := m.page + BitVec.ofNat 32 i
      if n < m.count then m.labelAt out (32 + i * 48) 48 n else some out) out =
    some ((List.range 8).foldl (fun out i =>
      let n := m.page + BitVec.ofNat 32 i
      if n < m.count then e11Label out (32 + i * 48) m.catalog m.compact n else out) out) := by
  refine foldlM_eq_some (fun i hi out => ?_) out
  have hlt := List.mem_range.mp hi
  dsimp only
  split_ifs with hcount
  · exact h.labelAt hcount out (by omega) le_rfl
  · rfl

/-- The reply to the menu in words, when the count fits the catalogue. -/
theorem replyAt_words (h : m.Fits) : m.words.replyAt = some m.menuReply := by
  unfold Words.replyAt menuReply
  rw [shownAt_words]
  simp only [Option.bind_eq_bind, Option.bind_some]
  cases m.ui m.view with
  | none => exact labelLoop h _
  | some i => exact labelLoop h _

/-- The name of the figure shown in words, when its entry is in the catalogue. -/
theorem nameAt_words (h : m.Recorded) : m.words.nameAt = some m.menuName := by
  unfold Words.nameAt menuName
  rw [shownAt_words]
  simp only [Option.bind_eq_bind, Option.bind_some]
  cases hshown : m.ui m.view with
  | none => rfl
  | some i => exact h.fits.labelAt (h.shown _ i hshown) _ le_rfl (by decide)

/-- `e11_publish` in words. -/
theorem publishAt_words (h : m.Recorded) :
    m.words.publishAt = some (m.e11Publish.1.words, m.e11Publish.2) := by
  unfold Words.publishAt
  rw [replyAt_words h.fits, nameAt_words h]
  rfl

/-! ### The mailbox -/

/-- A load or a removal that the menu asks for, in words. -/
theorem swapAt_words (m : Machine) (arg : U32) (action : Swap) :
    m.words.swapAt arg action =
      some ((m.menuSwap arg action).1, (m.menuSwap arg action).2.words) := by
  unfold Words.swapAt menuSwap
  rw [beginAt_words]
  simp only [Option.bind_eq_bind, Option.bind_some]
  split_ifs <;> rfl

/-- A request of the menu in words. -/
theorem requestAt_words (m : Machine) (op arg : U32) :
    m.words.requestAt op arg = some ((m.menuRequest op arg).1, (m.menuRequest op arg).2.words) := by
  unfold Words.requestAt menuRequest
  rw [swapAt_words, swapAt_words]
  by_cases hview : arg.toNat < 16
  · have hlt : arg < 16 := BitVec.lt_def.mpr hview
    rw [if_pos hlt, dif_pos hview]
    have hword : ({ m.words with view := arg } : Words) =
        ({ m with view := ⟨arg.toNat, hview⟩ } : Machine).words :=
      congrArg (fun view => ({ m.words with view := view } : Words)) (eq_slotWord hview)
    rw [hword]
    split_ifs <;> rfl
  · have hge : ¬ arg < 16 := fun h => hview (BitVec.lt_def.mp h)
    rw [if_neg hge, dif_neg hview]
    split_ifs <;> rfl

/-- The execution of a request in words. -/
theorem executeAt_words (m : Machine) (seq op arg : U32) :
    m.words.executeAt seq op arg = some (m.menuExecute seq op arg).words := by
  unfold Words.executeAt menuExecute
  rw [show ({ m.words with rest := { m.words.rest with requestSeq := seq } } : Words) =
    ({ m with requestSeq := seq } : Machine).words from rfl, requestAt_words]
  simp only [Option.bind_eq_bind, Option.bind_some]
  split_ifs <;> rfl

end Machine

/-- A menu request keeps what the reads of the catalogue rely on. -/
theorem Storage.Recorded.begins {st st' : Storage} (h : st.Recorded) (hb : Storage.Begins st st') :
    st'.Recorded := by
  cases hb with
  | keep => exact h
  | action ui id action haction hbusy hload =>
      have hid (i : Fin 16) : ((st.startAction ui id action).slots i).id = (st.slots i).id := by
        simp only [Storage.startAction, Storage.setOldPresent]
        split_ifs <;> rfl
      refine ⟨h.fits, fun u i hi => ?_, fun h' => (hload (Option.some.inj h')).1⟩
      rw [hid]
      exact h.shown u i hi

namespace Machine

variable {m : Machine}

/-- The heartbeat is no index. -/
theorem menuAlive_words (m : Machine) (heartbeat : U32) :
    m.words.rest.menuAlive heartbeat = (m.menuAlive heartbeat).map unindexed ∧
      ∀ m', m.menuAlive heartbeat = some m' →
        Words.mk m.words.ui m.words.view m.words.actionUi m.words.old m.words.diskSlot
          m.words.saveCursor m'.unindexed = m'.words := by
  have hrest : m.words.rest.heartbeat = m.heartbeat ∧ m.words.rest.ticks = m.ticks ∧
      m.words.rest.heartbeatTick = m.heartbeatTick := ⟨rfl, rfl, rfl⟩
  unfold menuAlive
  rw [hrest.1, hrest.2.1, hrest.2.2]
  split_ifs
  · exact ⟨rfl, fun m' h => Option.some.inj h ▸ rfl⟩
  · exact ⟨rfl, fun m' h => nomatch h⟩
  · exact ⟨rfl, fun m' h => Option.some.inj h ▸ rfl⟩

/-- **The mailbox keeps to its arrays and to the records.** -/
theorem mailboxAt_words (h : m.Recorded) (line : RequestLine) :
    m.words.mailboxAt line = some ((m.e11Mailbox line).1.words, (m.e11Mailbox line).2) := by
  have hroute : m.words.rest.route = m.route := rfl
  obtain ⟨halive, hsame⟩ := m.menuAlive_words (line 5)
  unfold Words.mailboxAt e11Mailbox
  rw [hroute, halive]
  by_cases hactive : ¬ ∃ fd, m.route fd = true
  · rw [if_pos hactive, if_pos hactive]
  rw [if_neg hactive, if_neg hactive]
  by_cases hmagic : line 0 ≠ 0x4531324d ∨ line 4 ≠ 0x534b595a
  · rw [if_pos hmagic, if_pos hmagic]
  rw [if_neg hmagic, if_neg hmagic]
  cases hm' : m.menuAlive (line 5) with
  | none => rfl
  | some m' =>
      have h' : m'.Recorded := by
        rw [menuAlive_toStorage hm']
        exact h
      rw [Option.map_some]
      dsimp only
      by_cases hnew : line 1 ≠ m'.requestSeq ∧ ¬ m'.defers (line 2) = true
      · have hnew' : line 1 ≠ m'.unindexed.requestSeq ∧ ¬ m'.unindexed.defers (line 2) = true :=
          hnew
        have hexecuted := h'.begins (m'.menuExecute_begins (line 1) (line 2) (line 3))
        rw [if_pos hnew, if_pos hnew', hsame m' hm', executeAt_words]
        simp only [Option.bind_eq_bind, Option.bind_some]
        rw [publishAt_words hexecuted]
        rfl
      · have hnew' : ¬ (line 1 ≠ m'.unindexed.requestSeq ∧ ¬ m'.unindexed.defers (line 2) = true) :=
          hnew
        rw [if_neg hnew, if_neg hnew', hsame m' hm']
        exact publishAt_words h'

/-! ### The poll -/

/-- `e11_submit` in words. -/
theorem submit_words (m : Machine) (op : DiskOp) (send : Int) :
    m.words.submit op send = ((m.e11Submit op send).1.words, (m.e11Submit op send).2) := by
  unfold Words.submit e11Submit
  dsimp only
  split_ifs <;> rfl

/-- `e12_save_slot` in words. -/
theorem saveSlotAt_words (m : Machine) (i : Fin 16) (send : Int) :
    m.words.saveSlotAt (slotWord (some i)) send =
      some ((m.e12SaveSlot i send).1.words, (m.e12SaveSlot i send).2) := by
  unfold Words.saveSlotAt e12SaveSlot
  rw [slotAt_words, ← submit_words]
  rfl

/-- The test of the old figure for writes, in words. -/
theorem oldChangedAt_words (m : Machine) :
    m.words.oldChangedAt = some (m.old.filter fun i => (m.slots i).changed).isSome := by
  have hold : m.words.old = slotWord m.old := rfl
  unfold Words.oldChangedAt
  rw [hold]
  cases m.old with
  | none => rfl
  | some i =>
      rw [if_pos (slotWord_lt.mpr rfl), slotAt_words]
      cases hchanged : (m.slots i).changed <;> simp [Option.filter, hchanged]

/-- The end of a removal in words. -/
theorem finishRemoveAt_words (m : Machine) :
    m.words.finishRemoveAt = some ({ m with toStorage := m.finishRemove } : Machine).words := by
  unfold Words.finishRemoveAt
  rw [releaseOldAt_words]
  simp only [Option.bind_eq_bind, Option.bind_some]
  rw [show ∀ m : Machine, m.words.actionUi = slotWord (some m.actionUi) from fun _ => rfl,
    show (255 : U32) = slotWord none from rfl, setUiAt_words, Option.bind_some]
  rfl

/-- The target of a load job in words, when its entry is in the catalogue. -/
theorem aimLoadAt_words (h : m.Recorded) (haction : m.action = some .load) :
    m.words.aimLoadAt = some ({ m with toStorage := m.aimLoad } : Machine).words := by
  unfold Words.aimLoadAt
  rw [show m.words.rest.sourceHashAt m.words.rest.target = m.sourceHashAt m.target from rfl,
    h.fits.sourceHashAt (h.target haction)]
  rfl

/-- The poll of an action in words. -/
theorem pollActionAt_words (h : m.Recorded) {action : Swap} (haction : m.action = some action)
    (send : Int) :
    m.words.pollActionAt action send =
      some ((m.pollAction action send).1.words, (m.pollAction action send).2) := by
  have hticks : m.words.rest.ticks = m.ticks ∧ m.words.rest.removeTick = m.removeTick := ⟨rfl, rfl⟩
  unfold Words.pollActionAt pollAction
  rw [oldChangedAt_words, hticks.1, hticks.2]
  simp only [Option.bind_eq_bind, Option.bind_some]
  cases hold : m.old.filter fun i => (m.slots i).changed with
  | some i =>
      have hi : m.words.old = slotWord (some i) :=
        congrArg slotWord (Option.filter_eq_some_iff.mp hold).1
      rw [if_pos Option.isSome_some, hi, saveSlotAt_words]
  | none =>
      rw [if_neg (by simp)]
      dsimp only
      by_cases hearly : m.ticks - m.removeTick < 250
      · rw [if_pos hearly, if_pos hearly]
      rw [if_neg hearly, if_neg hearly]
      cases action with
      | remove =>
          rw [finishRemoveAt_words]
          rfl
      | load =>
          rw [aimLoadAt_words h haction, Option.map_some, submit_words]

/-- The turn of the saves, one further. -/
theorem slotWord_turn (cursor i : Fin 16) :
    (slotWord (some cursor) + BitVec.ofNat 32 i.val) &&& 15 = slotWord (some (cursor + i)) := by
  revert cursor i
  decide

/-- The search for a slot to save, in words. -/
theorem dirtyFrom_words (m : Machine) (is : List (Fin 16)) :
    m.words.dirtyFrom is =
      some ((is.find? fun i => (m.slots (m.saveCursor + i)).occupied &&
        (m.slots (m.saveCursor + i)).changed).map fun i => slotWord (some (m.saveCursor + i))) := by
  have hcursor : m.words.saveCursor = slotWord (some m.saveCursor) := rfl
  induction is with
  | nil => rfl
  | cons i is ih =>
      unfold Words.dirtyFrom
      dsimp only
      rw [hcursor, slotWord_turn, slotAt_words, ih]
      simp only [Option.bind_eq_bind, Option.bind_some]
      cases hdirty : ((m.slots (m.saveCursor + i)).occupied &&
        (m.slots (m.saveCursor + i)).changed) with
      | true =>
          simp only [List.find?_cons, hdirty]
          rfl
      | false =>
          simp only [List.find?_cons, hdirty]
          rfl

/-- A background save in words. -/
theorem pollSaveAt_words (m : Machine) (send : Int) :
    m.words.pollSaveAt send = some ((m.pollSave send).1.words, (m.pollSave send).2) := by
  unfold Words.pollSaveAt pollSave
  rw [dirtyFrom_words]
  simp only [Option.bind_eq_bind, Option.bind_some]
  cases (List.finRange 16).find? fun i => (m.slots (m.saveCursor + i)).occupied &&
      (m.slots (m.saveCursor + i)).changed with
  | none => rfl
  | some i =>
      have hnext : (slotWord (some (m.saveCursor + i)) + 1) &&& 15 =
          slotWord (some (m.saveCursor + i + 1)) := slotWord_turn (m.saveCursor + i) 1
      rw [Option.map_some]
      dsimp only
      rw [hnext]
      exact saveSlotAt_words { m with saveCursor := m.saveCursor + i + 1 } (m.saveCursor + i) send

/-- The rest of `e09_poll` in words. -/
theorem pollDiskAt_words (h : m.Recorded) (send : Int) :
    m.words.pollDiskAt send = some ((m.pollDisk send).1.words, (m.pollDisk send).2) := by
  have hrest : m.words.rest.busy = m.busy ∧ m.words.rest.queue = m.queue ∧
      m.words.rest.count = m.count ∧ m.words.rest.ticks = m.ticks ∧ m.words.rest.retry = m.retry ∧
      m.words.rest.action = m.action ∧ m.words.rest.autoload = m.autoload ∧
      m.words.rest.error = m.error ∧ m.words.rest.flush = m.flush :=
    ⟨rfl, rfl, rfl, rfl, rfl, rfl, rfl, rfl, rfl⟩
  obtain ⟨hbusy, hqueue, hcount, hticks, hretry, haction, hautoload, herror, hflush⟩ := hrest
  unfold Words.pollDiskAt pollDisk
  rw [hbusy, hqueue, hcount, hticks, hretry, haction, hautoload, herror, hflush, submit_words]
  by_cases hidle : m.busy = true ∨ m.queue < 0
  · rw [if_pos hidle, if_pos hidle]
  rw [if_neg hidle, if_neg hidle]
  by_cases hnone : m.count = 0
  · rw [if_pos hnone, if_pos hnone]
    split_ifs <;> rfl
  rw [if_neg hnone, if_neg hnone]
  cases hact : m.action with
  | some action => exact pollActionAt_words h hact send
  | none =>
      dsimp only
      by_cases hload : m.autoload = true ∧ 500 ≤ m.ticks - m.retry
      · rw [if_pos hload, if_pos hload, beginAt_words]
        rfl
      rw [if_neg hload, if_neg hload]
      by_cases hsave : m.error = 0 ∧ m.flush = true ∨ 500 ≤ m.ticks - m.retry
      · rw [if_pos hsave, if_pos hsave, pollSaveAt_words]
      · rw [if_neg hsave, if_neg hsave]

/-- **The poll keeps to its arrays and to the records.** -/
theorem pollAt_words (h : m.Recorded) (line : RequestLine) (send : Int) :
    m.words.pollAt line send = some ((m.e09Poll line send).1.words, (m.e09Poll line send).2) := by
  have hticks : m.words.rest.ticks = m.ticks := rfl
  unfold Words.pollAt e09Poll
  rw [hticks]
  by_cases hmail : m.ticks &&& 7 = 0
  · have hmailed := h.begins (m.e11Mailbox_begins line).1
    rw [if_pos hmail, if_pos hmail, mailboxAt_words h]
    simp only [Option.bind_eq_bind, Option.bind_some]
    rw [pollDiskAt_words hmailed]
    rfl
  · rw [if_neg hmail, if_neg hmail]
    simp only [Option.bind_eq_bind, Option.bind_some]
    rw [pollDiskAt_words h]
    rfl

/-- **A tick keeps to its arrays and to the records.** -/
theorem tickAt_words (m : Machine) (h : m.Recorded) (line : RequestLine) (send : Int) :
    m.words.tickAt line send = some ((m.v4Tick line send).1.words, (m.v4Tick line send).2) := by
  unfold Words.tickAt v4Tick
  rw [show
    ({ m.words with rest := { m.words.rest with ticks := m.words.rest.ticks + 1 } } : Words) =
    ({ m with ticks := m.ticks + 1 } : Machine).words from rfl,
    pollAt_words (show ({ m with ticks := m.ticks + 1 } : Machine).Recorded from h)]
  rfl

end Machine
end VirtualPortal
