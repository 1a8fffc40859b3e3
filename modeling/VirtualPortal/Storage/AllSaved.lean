/-
# Everything is saved in the end

While the game writes and the menu moves figures there is always something to save.
`writes_saved` says what happens when they stop: in a fair schedule whose file calls
succeed, a moment comes from which on every figure on the portal is saved, and loads
back as it is.

The dirty slots get fewer with each completed save, since nothing makes one dirty, and a
save is submitted at most 500 ticks after a completion (`Machine.saveRank`).  That takes
a job in flight to be of a slot as it still is (`Core.Drains`), so the run first waits for
the end of the action and of the job it starts with.
-/

import VirtualPortal.Storage.ActionsEnd
import VirtualPortal.Storage.Autoload
import VirtualPortal.Storage.CleanSlots
import VirtualPortal.Storage.Uids

namespace VirtualPortal

open Storage

/-! ### Nothing to save -/

/-- No slot has anything to save, and no save is under way. -/
structure Core.AllSaved (c : Core) : Prop where
  clean : ∀ i, c.storage.dirty i = false
  job : c.phase ≠ .idle → c.storage.op ≠ .save

/-- A slot that a change of presence leaves as dirty as it was. -/
theorem Storage.dirty_setOldPresent (st : Storage) (present : Bool) (i : Fin 16) :
    (st.setOldPresent present).dirty i = st.dirty i := by
  simp only [Storage.dirty, Slot.changed, setOldPresent]
  split_ifs <;> rfl

/-- Freeing the old slot makes nothing dirty. -/
theorem Storage.dirty_releaseOld {st : Storage} {i : Fin 16} (h : st.dirty i = false) :
    st.releaseOld.dirty i = false := by
  simp only [Storage.dirty, Slot.changed, releaseOld] at h ⊢
  split_ifs
  · rfl
  · exact h

/-- Setting a slot to a clean one makes nothing dirty. -/
theorem Storage.dirty_setSlot {st : Storage} {i j : Fin 16} {s : Slot}
    (hs : (s.occupied && s.changed) = false) (h : st.dirty j = false) :
    (st.setSlot i s).dirty j = false := by
  rw [Storage.dirty, slots_setSlot]
  split_ifs
  · exact hs
  · exact h

/-- Without writes nothing is dirty again. -/
theorem Core.AllSaved.step {calls : Calls} {c c' : Core} {out : List Effect} (h : c.AllSaved)
    (hc : c.Coherent) (hslots : c.storage.Slotted) (hs : Core.Step calls c c' out)
    (hquiet : ∀ slot, .wrote slot ∉ out) : c'.AllSaved := by
  cases hs with
  | @event st st₁ st' d p out hbegins hmove =>
      have hclean (i : Fin 16) : st₁.dirty i = false := (hbegins.dirty i).trans (h.clean i)
      cases hmove with
      | begins hb =>
          refine ⟨fun i => (hb.dirty i).trans (hclean i), fun hp hop => h.job hp ?_⟩
          rw [hb.op, hbegins.op] at hop
          exact hop
      | write slot => exact absurd (List.mem_singleton_self _) (hquiet slot)
      | remove hbusy =>
          refine ⟨fun i => Storage.dirty_releaseOld (hclean i), fun hp => ?_⟩
          have hidle := hc.idle (hbegins.busy.symm.trans hbusy)
          exact absurd hidle hp
      | @job st₂ op sent hbusy hprepares =>
          have hslots₁ : st₁.Slotted := hslots.begins hbegins
          cases hprepares with
          | catalog => exact ⟨hclean, fun _ hop => by cases hop⟩
          | load => exact ⟨hclean, fun _ hop => by cases hop⟩
          | save i _ hchanged hslot =>
              have hocc : (st₁.slots i).occupied = true := by
                rcases hslot with ⟨hocc, -⟩ | ⟨haction, hold⟩
                · exact hocc
                · exact (hslots₁.occupied i).mpr ⟨st₁.actionUi, by rw [← hslots₁.old haction, hold]⟩
              have hdirty := hclean i
              rw [Storage.dirty, hocc, hchanged] at hdirty
              cases hdirty
  | @complete st st' d out hcomp =>
      refine ⟨fun i => ?_, fun hp => absurd rfl hp⟩
      have hi : st.taken.dirty i = false := h.clean i
      cases hcomp with
      | failed =>
          split_ifs
          · exact (st.taken.dirty_setOldPresent true i).trans hi
          · exact hi
      | catalog _ _ hb => exact (hb.dirty i).trans hi
      | saved _ hop => exact absurd hop (h.job (by simp))
      | rejected => exact (st.taken.dirty_setOldPresent true i).trans hi
      | installed slot => exact Storage.dirty_setSlot rfl (Storage.dirty_releaseOld hi)
  | @run st d op io =>
      obtain ⟨hslots', hop, -⟩ := st.e11Worker_job d op io
      refine ⟨fun i => ?_, fun _ hsave => h.job (by simp) (hop.symm.trans hsave)⟩
      have hi := h.clean i
      dsimp only at hi ⊢
      rw [Storage.dirty, hslots']
      exact hi
  | lose => exact ⟨h.clean, fun _ => h.job (by simp)⟩

/-! ### One save after another -/

/-- The slots with something to save. -/
def Storage.dirtySlots (st : Storage) : Finset (Fin 16) := {i | st.dirty i = true}

/-- The dirty slots. -/
theorem Storage.mem_dirtySlots {st : Storage} {i : Fin 16} :
    i ∈ st.dirtySlots ↔ st.dirty i = true := by
  simp [Storage.dirtySlots]

/-- The dirty slots depend on the slots only. -/
theorem Storage.dirtySlots_congr {st st' : Storage} (h : st'.slots = st.slots) :
    st'.dirtySlots = st.dirtySlots :=
  Finset.ext fun i => by rw [mem_dirtySlots, mem_dirtySlots, Storage.dirty, Storage.dirty, h]

/-- No action runs, and a job in flight is the save of a dirty slot as it still is. -/
structure Core.Drains (c : Core) : Prop where
  action : c.storage.action = none
  own : c.phase ≠ .idle → c.storage.op = .save ∧
    c.storage.dirty c.storage.diskSlot = true ∧
    c.storage.snapshot = (c.storage.slots c.storage.diskSlot).generation
  done : c.phase = .done → 0 ≤ c.storage.result

/-- A completed save leaves one dirty slot less. -/
theorem Storage.saveDone_dirtySlots {st : Storage} (hdirty : st.dirty st.diskSlot = true)
    (hsnapshot : st.snapshot = (st.slots st.diskSlot).generation) :
    st.saveDone.dirtySlots.card < st.dirtySlots.card := by
  have hself : st.saveDone.dirty st.diskSlot = false := by
    rw [Storage.dirty, saveDone, slots_setSlot, if_pos rfl, hsnapshot]
    simp [Slot.changed]
  have hother {i : Fin 16} (hi : i ≠ st.diskSlot) : st.saveDone.dirty i = st.dirty i := by
    rw [Storage.dirty, saveDone, slots_setSlot, if_neg hi]
    rfl
  refine Finset.card_lt_card (Finset.ssubset_iff_of_subset (fun i hi => ?_) |>.mpr
    ⟨st.diskSlot, Storage.mem_dirtySlots.mpr hdirty, fun h => ?_⟩)
  · have hi' := Storage.mem_dirtySlots.mp hi
    have hne : i ≠ st.diskSlot := by
      rintro rfl
      rw [hself] at hi'
      cases hi'
    rw [hother hne] at hi'
    exact Storage.mem_dirtySlots.mpr hi'
  · have h' := Storage.mem_dirtySlots.mp h
    rw [hself] at h'
    cases h'

/-- A step during a save keeps it, or completes it. -/
theorem Core.Drains.step {calls : Calls} {c c' : Core} {out : List Effect} (h : c.Drains)
    (hc : c.Coherent) (hphase : c.phase ≠ .idle) (hs : Core.Step calls c c' out)
    (hcalls : (∀ io, calls.job io → io = .ok) ∧ ¬ calls.lossy)
    (hquiet : ∀ slot, .wrote slot ∉ out) :
    c'.Drains ∧ (c'.phase ≠ .idle ∧ c'.storage.dirtySlots = c.storage.dirtySlots ∨
      c'.phase = .idle ∧ c'.storage.dirtySlots.card < c.storage.dirtySlots.card) := by
  obtain ⟨hop, hdirty, hsnapshot⟩ := h.own hphase
  cases hs with
  | @event st st₁ st' d p out hbegins hmove =>
      have hbusy : st.busy = true := hc.busy.mpr hphase
      obtain rfl := hbegins.of_busy hbusy
      rcases hmove.of_busy hbusy with ⟨rfl, rfl⟩ | ⟨slot, block, bytes, -, -, rfl⟩
      · exact ⟨h, Or.inl ⟨hphase, rfl⟩⟩
      · exact absurd (List.mem_singleton_self _) (hquiet slot)
  | @complete st st' d out hcomp =>
      have hresult : 0 ≤ st.result := h.done rfl
      cases hcomp with
      | failed hfailed => exact absurd hresult (not_le.mpr hfailed)
      | catalog _ hop' => rw [hop] at hop'; cases hop'
      | rejected _ hop' => rw [hop] at hop'; cases hop'
      | installed slot _ hop' => rw [hop] at hop'; cases hop'
      | saved => exact ⟨⟨h.action, fun hp => absurd rfl hp, nofun⟩,
          Or.inr ⟨rfl, Storage.saveDone_dirtySlots hdirty hsnapshot⟩⟩
  | @run st d op io hio =>
      obtain rfl : op = .save := (hc.op op rfl).symm.trans hop
      obtain ⟨hslots, hop', -, -, hdisk, hsnapshot', -⟩ := st.e11Worker_job d .save io
      have haction : (st.e11Worker d .save io).1.action = st.action := rfl
      have hresult : (st.e11Worker d .save io).1.result = 0 := by
        rw [Storage.e11Worker_save, hcalls.1 io hio]
        exact e11Save_ok st.job st.check
      generalize (st.e11Worker d .save io).1 = st' at hslots hop' hdisk hsnapshot' haction hresult ⊢
      refine ⟨⟨haction.trans h.action, fun _ => ⟨hop'.trans hop, ?_, ?_⟩, fun _ => hresult.ge⟩,
        Or.inl ⟨nofun, Storage.dirtySlots_congr hslots⟩⟩
      · show st'.dirty st'.diskSlot = true
        rw [Storage.dirty, hslots, hdisk]
        exact hdirty
      · show st'.snapshot = (st'.slots st'.diskSlot).generation
        rw [hsnapshot', hslots, hdisk]
        exact hsnapshot
  | lose hlossy => exact absurd hlossy hcalls.2

namespace Machine

/-- The bound on what is left to do until everything is saved. -/
def saveRank (m : Machine) : ℕ :=
  502 * m.dirtySlots.card + if m.busy then 0 else 1 + (500 - (m.ticks + 1 - m.retry).toNat)

section Tick

variable {m m' : Machine} {line : RequestLine}

/-- While a job is under way only the dirty slots count. -/
theorem saveRank_busy (h : m.busy = true) : m.saveRank = 502 * m.dirtySlots.card := by
  unfold saveRank
  rw [h, if_pos rfl, Nat.add_zero]

/-- A bound of the rank by the number of dirty slots. -/
theorem saveRank_le (m : Machine) : m.saveRank ≤ 502 * m.dirtySlots.card + 501 := by
  unfold saveRank
  split_ifs <;> omega

/-- The rank depends on the figures, the menu and the ticks. -/
theorem saveRank_congr (hstorage : m'.toStorage = m.toStorage) (hmenu : m.SameMenu m') :
    m'.saveRank = m.saveRank := by
  have hretry : m'.retry = m.retry := (congrArg Menu.retry hmenu.1 :)
  unfold saveRank
  rw [hstorage, hretry, hmenu.2]

/-- A request other than a load or a removal. -/
theorem menuExecute_calm {op : U32} (hop : op ≠ 2 ∧ op ≠ 3) (m : Machine) (seq arg : U32) :
    (m.menuExecute seq op arg).toStorage = m.toStorage ∧
      (m.menuExecute seq op arg).autoload = m.autoload ∧
      (m.menuExecute seq op arg).ticks = m.ticks := by
  have hrequest (m : Machine) : (m.menuRequest op arg).2.toStorage = m.toStorage ∧
      (m.menuRequest op arg).2.autoload = m.autoload ∧
      (m.menuRequest op arg).2.ticks = m.ticks := by
    unfold menuRequest
    rw [if_neg hop.1, if_neg hop.2]
    split_ifs <;> exact ⟨rfl, rfl, rfl⟩
  unfold menuExecute
  dsimp only
  split_ifs <;> exact hrequest _

/-- The menu executes no load and no removal. -/
def Calm (out : List Effect) : Prop := ∀ op arg, .executed op arg ∈ out → op ≠ 2 ∧ op ≠ 3

/-- A calm tick polls the machine as it was. -/
theorem mailed_calm {send : Int} (hcalm : Calm (m.v4Tick line send).2) :
    (m.mailed line).toStorage = m.toStorage ∧ (m.mailed line).autoload = m.autoload ∧
      (m.mailed line).ticks = m.ticks + 1 := by
  have halive {m m' : Machine} (h : m.menuAlive (line 5) = some m') :
      m'.toStorage = m.toStorage ∧ m'.autoload = m.autoload ∧ m'.ticks = m.ticks := by
    unfold menuAlive at h
    split_ifs at h <;> cases h <;> exact ⟨rfl, rfl, rfl⟩
  have hmailbox (m : Machine) (hcalm : Calm (m.e11Mailbox line).2) :
      (m.e11Mailbox line).1.toStorage = m.toStorage ∧
        (m.e11Mailbox line).1.autoload = m.autoload ∧ (m.e11Mailbox line).1.ticks = m.ticks := by
    have h := m.e11Mailbox_step line
    generalize m.e11Mailbox line = out at h hcalm ⊢
    cases h with
    | idle => exact ⟨rfl, rfl, rfl⟩
    | @executes m' _ _ h _ =>
        obtain ⟨h₁, h₂, h₃⟩ := menuExecute_calm (hcalm _ _ List.mem_cons_self) m' (line 1) (line 3)
        obtain ⟨h₁', h₂', h₃'⟩ := halive h
        exact ⟨h₁.trans h₁', h₂.trans h₂', h₃.trans h₃'⟩
    | @publishes m' h => exact (halive h : m'.toStorage = _ ∧ m'.autoload = _ ∧ m'.ticks = _)
  have hmail (hnow : { m with ticks := m.ticks + 1 }.ticks &&& 7 = 0) :
      ∀ e ∈ ({ m with ticks := m.ticks + 1 }.e11Mailbox line).2, e ∈ (m.v4Tick line send).2 := by
    intro e he
    unfold v4Tick e09Poll
    dsimp only
    rw [if_pos hnow]
    exact List.mem_append_left _ (List.mem_append_left _ he)
  unfold mailed
  dsimp only
  split_ifs with hnow
  · exact hmailbox { m with ticks := m.ticks + 1 } fun op arg h => hcalm op arg (hmail hnow _ h)
  · exact ⟨rfl, rfl, rfl⟩

/-- A calm tick with something to save, and nothing else to do, submits the next save or
comes closer to it. -/
theorem v4Tick_saves {send : Int} (hcalm : Calm (m.v4Tick line send).2)
    (haction : m.action = none) (hbusy : m.busy = false) (hqueue : 0 ≤ m.queue)
    (hcount : m.count ≠ 0) (hautoload : m.autoload = false) (hsend : 0 ≤ send) {i : Fin 16}
    (hdirty : m.dirty i = true) :
    (m.v4Tick line send).1.saveRank < m.saveRank ∧
      ((m.v4Tick line send).1.toStorage = m.toStorage ∨ ∃ slot, m.dirty slot = true ∧
        (m.v4Tick line send).1.toStorage =
          (m.toStorage.takeSnapshot slot).submitJob .save true) := by
  obtain ⟨hstorage, hautoload', hticks⟩ := mailed_calm hcalm
  have hretry := m.mailed_retry line
  have hcursor := (m.mailed_turn line).cursor
  rw [v4Tick_mailed]
  generalize m.mailed line = m₁ at hstorage hautoload' hticks hretry hcursor
  have hrank : m.saveRank =
      502 * m₁.dirtySlots.card + (1 + (500 - (m₁.ticks - m₁.retry).toNat)) := by
    unfold saveRank
    rw [hbusy, if_neg Bool.false_ne_true, hstorage, hticks, hretry]
  have hpolls : m₁.pollDisk send =
      if (m₁.error = 0 ∧ m₁.flush) ∨ 500 ≤ m₁.ticks - m₁.retry then m₁.pollSave send
      else (m₁, []) := by
    unfold pollDisk
    rw [if_neg (by rw [hstorage, hbusy]; exact not_or.mpr ⟨Bool.false_ne_true, not_lt.mpr hqueue⟩),
      if_neg (by rw [hstorage]; exact hcount), hstorage, haction]
    dsimp only
    rw [if_neg (by rw [hautoload', hautoload]; exact fun h => Bool.false_ne_true h.1)]
  show (m₁.pollDisk send).1.saveRank < _ ∧ ((m₁.pollDisk send).1.toStorage = _ ∨ ∃ slot, _ ∧
    (m₁.pollDisk send).1.toStorage = _)
  rw [hpolls, hrank]
  split_ifs with hnow
  · have hnext : ∃ slot, nextFrom m₁.dirty m₁.saveCursor = some slot := by
      cases hnone : nextFrom m₁.dirty m₁.saveCursor with
      | some slot => exact ⟨slot, rfl⟩
      | none =>
          have hclean := nextFrom_eq_none hnone i
          rw [hstorage, hdirty] at hclean
          cases hclean
    obtain ⟨slot, hslot⟩ := hnext
    have hself := (nextFrom_eq_some hslot).1
    rw [pollSave_eq, hslot]
    unfold e12SaveSlot
    rw [e11Submit_sent _ _ hsend]
    refine ⟨?_, Or.inr ⟨slot, by rw [← hstorage]; exact hself, by rw [← hstorage]; rfl⟩⟩
    unfold saveRank
    rw [if_pos rfl]
    show 502 * m₁.dirtySlots.card + 0 < _
    omega
  · have hshorter := @wait_shorter m₁.ticks m₁.retry 500 le_rfl
      (BitVec.not_le.mp fun h => hnow (Or.inr h))
    refine ⟨?_, Or.inl hstorage⟩
    show m₁.saveRank < _
    unfold saveRank
    rw [hstorage, hbusy, if_neg Bool.false_ne_true]
    omega

end Tick

/-! ### Requests -/

/-- A request without a write of a block leaves the figures alone. -/
def Unwritten (m : Machine) (r : Machine × List Effect) : Prop :=
  r.1.toStorage = m.toStorage ∨ ∃ slot, .wrote slot ∈ r.2

/-- A command that writes no block makes nothing dirty. -/
theorem commandApply_unwritten (m : Machine) (fd : Fin 16) (data : ℕ → U8) (c : PortalCommand) :
    m.Unwritten (m.commandApply fd data c) := by
  cases c with
  | write slot block =>
      unfold commandApply
      dsimp only
      split_ifs
      · exact Or.inr ⟨slot, List.mem_singleton_self _⟩
      · exact Or.inl rfl
  | _ => exact Or.inl rfl

/-- A command with its reply that writes no block makes nothing dirty. -/
theorem runCommand_unwritten (m : Machine) (fd : Fin 16) (data : ℕ → U8) (c : PortalCommand)
    (ok : Int) : m.Unwritten (m.runCommand fd data c ok).2 := by
  unfold runCommand
  split
  · exact m.commandApply_unwritten fd data c
  · next reply _ =>
      dsimp only
      split_ifs
      · exact Or.inl rfl
      · exact (commandApply_unwritten _ fd data c).imp_right fun ⟨slot, h⟩ =>
          ⟨slot, List.mem_cons_of_mem _ h⟩

/-- A request that writes no block makes nothing dirty. -/
theorem v4Process_unwritten (m : Machine) (mem : Mem) (msg : Option IpcMessage) :
    m.Unwritten (m.v4Process mem msg) := by
  cases msg with
  | none => exact Or.inl rfl
  | some msg =>
      have h := m.v4Process_step mem msg
      generalize m.v4Process mem (some msg) = out at h ⊢
      cases h with
      | answer => exact Or.inl rfl
      | close => exact Or.inl rfl
      | ioctl fd hfd hioctl h =>
          cases h with
          | @transfer out r h =>
              have hout : m.Unwritten out := by
                cases h with
                | refused => exact Or.inl rfl
                | command _ _ _ data c ok => exact m.runCommand_unwritten fd data c ok
                | read => exact Or.inl rfl
              refine hout.imp_right fun ⟨slot, hslot⟩ => ⟨slot, ?_⟩
              dsimp only
              split_ifs
              · exact hslot
              · exact List.mem_append_left _ hslot
          | _ => exact Or.inl rfl

end Machine

/-! ### Steps of the system -/

/-- There are entries in the catalogue if there is a figure on the portal. -/
def Storage.Stocked (st : Storage) : Prop := ∀ i, (st.slots i).occupied = true → st.count ≠ 0

/-- A step of the core keeps entries in the catalogue while there is a figure. -/
theorem Core.Ending.stocked_step {calls : Calls} {c c' : Core} {out : List Effect} (he : c.Ending)
    (h : c.storage.Stocked) (hs : Core.Step calls c c' out) : c'.storage.Stocked := by
  -- a step that takes no slot
  have hkeep {st st' : Storage} (h : st.Stocked) (hcount : st'.count = st.count)
      (hslots : ∀ i, (st'.slots i).occupied = true → (st.slots i).occupied = true) :
      st'.Stocked := fun i hi => by rw [hcount]; exact h i (hslots i hi)
  have hpresent {st : Storage} (h : st.Stocked) (present : Bool) :
      (st.setOldPresent present).Stocked := by
    refine hkeep h rfl fun i hi => ?_
    simp only [setOldPresent] at hi
    split_ifs at hi <;> exact hi
  have hbegin {st st' : Storage} (hb : Begins st st') (h : st.Stocked) : st'.Stocked := by
    cases hb with
    | keep => exact h
    | action ui id action =>
        have htargeted : Storage.Stocked { st with
            old := st.ui ui, actionUi := ui, target := id, action := some action } := h
        exact hpresent htargeted false
  have hself {st : Storage} (h : st.Stocked) (i : Fin 16) {s : Slot}
      (hs : s.occupied = (st.slots i).occupied) : (st.setSlot i s).Stocked := by
    refine hkeep h rfl fun j hj => ?_
    rw [slots_setSlot] at hj
    split_ifs at hj with hij
    · rw [hij, ← hs]
      exact hj
    · exact hj
  have hrelease {st : Storage} (h : st.Stocked) : st.releaseOld.Stocked := by
    refine hkeep h rfl fun i hi => ?_
    simp only [releaseOld] at hi
    split_ifs at hi
    exact hi
  cases hs with
  | event hbegins hmove =>
      have h₁ := hbegin hbegins h
      cases hmove with
      | begins hb => exact hbegin hb h₁
      | write slot => exact hself h₁ slot rfl
      | remove => exact hrelease h₁
      | job op sent _ hprepares => cases hprepares <;> exact h₁
  | @complete st st' d out hcomp =>
      have h₁ : st.taken.Stocked := h
      cases hcomp with
      | failed =>
          split_ifs
          · exact hpresent h₁ true
          · exact h₁
      | catalog hresult hop hb => exact hbegin hb fun i _ => he.listed rfl hop hresult
      | saved => exact hself h₁ _ rfl
      | rejected => exact hpresent h₁ true
      | installed slot hresult hop =>
          have hcount : st.count ≠ 0 := mt (he.counted (by simp)).mpr (by rw [hop]; decide)
          exact fun _ _ => hcount
  | @run st d op io =>
      obtain ⟨hslots, -⟩ := st.e11Worker_job d op io
      refine hkeep h ?_ fun i hi => ?_
      · cases op <;> rfl
      · dsimp only at hi
        rw [hslots] at hi
        exact hi
  | lose => exact h

/-- While a job goes on no action begins or ends. -/
theorem Core.Step.action_kept {calls : Calls} {c c' : Core} {out : List Effect}
    (hs : Core.Step calls c c' out) (hc : c.Coherent) (hphase : c.phase ≠ .idle)
    (hphase' : c'.phase ≠ .idle) : c'.storage.action = c.storage.action := by
  cases hs with
  | event hbegins hmove =>
      have hbusy := hc.busy.mpr hphase
      obtain rfl := hbegins.of_busy hbusy
      rcases hmove.of_busy hbusy with ⟨rfl, -⟩ | ⟨slot, block, bytes, -, rfl, -⟩ <;> rfl
  | complete => exact absurd rfl hphase'
  | @run st d op io => cases op <;> rfl
  | lose => rfl

/-- After the completion of a job that was for no action none runs, unless it was the
catalogue, and then there is nothing to save. -/
theorem Core.Step.job_ended {calls : Calls} {c c' : Core} {out : List Effect}
    (hs : Core.Step calls c c' out) (he : c.Ending) (hstocked : c.storage.Stocked)
    (haction : c.storage.action = none) (hphase : c.phase ≠ .idle) (hphase' : c'.phase = .idle) :
    c'.Drains ∨ c'.AllSaved := by
  have hdrains {st : Storage} {d : Disk} (h : st.action = none) : Core.Drains ⟨st, d, .idle⟩ :=
    ⟨h, fun hp => absurd rfl hp, nofun⟩
  cases hs with
  | event => exact absurd (Phase.after_eq_idle hphase') hphase
  | run => cases hphase'
  | lose => cases hphase'
  | @complete st st' d out hcomp =>
      have hload (hop : st.op = .load) : False := by
        have hsome := (he.load nofun hop).1
        rw [haction] at hsome
        cases hsome
      cases hcomp with
      | failed =>
          refine Or.inl (hdrains ?_)
          rw [if_neg (not_not_intro haction)]
          exact haction
      | catalog _ hop hb =>
          have hempty (i : Fin 16) : (st.slots i).occupied = false :=
            eq_false_of_ne_true fun hi => hstocked i hi ((he.counted nofun).mp hop)
          refine Or.inr ⟨fun i => (hb.dirty i).trans ?_, fun hp => absurd rfl hp⟩
          show ((st.slots i).occupied && _) = false
          rw [hempty i, Bool.false_and]
      | saved => exact Or.inl (hdrains haction)
      | rejected _ hop => exact (hload hop).elim
      | installed slot _ hop => exact (hload hop).elim

/-- A step without a job leaves none that is already run. -/
theorem Core.Step.from_idle {calls : Calls} {c c' : Core} {out : List Effect}
    (hs : Core.Step calls c c' out) (hphase : c.phase = .idle) : c'.phase ≠ .done := by
  cases hs with
  | @event st st₁ st' d p out =>
      obtain rfl : p = .idle := hphase
      unfold Phase.after
      dsimp only
      split <;> exact nofun
  | complete => cases hphase
  | run => cases hphase
  | lose => cases hphase

namespace System

/-- A job is in one phase. -/
theorem HasPhase.unique {σ : System} {p q : Phase} (hp : σ.HasPhase p) (hq : σ.HasPhase q)
    (hp' : p ≠ .lost) (hq' : q ≠ .lost) : p = q := by
  have hnot {p : Phase} (hi : σ.HasPhase .idle) (hp : σ.HasPhase p) (hp' : p ≠ .lost) :
      p = .idle := by
    obtain ⟨hj, hw, hc⟩ := hi
    cases p with
    | idle => rfl
    | lost => exact absurd rfl hp'
    | queued op =>
        rcases hp.1 with ⟨hj', -⟩ | ⟨-, hw'⟩
        · rw [hj] at hj'; cases hj'
        · rw [hw] at hw'; cases hw'
    | done =>
        rcases hp.2 with ⟨hw', -⟩ | ⟨-, hc'⟩
        · rw [hw] at hw'; cases hw'
        · omega
  have hqueued {op : DiskOp} (hi : σ.HasPhase (.queued op)) (hp : σ.HasPhase .done) : False := by
    rcases hi.1 with ⟨hj, -⟩ | ⟨-, hw⟩
    · rw [hp.1] at hj; cases hj
    · rcases hp.2 with ⟨hw', -⟩ | ⟨hw', -⟩ <;> rw [hw] at hw' <;> cases hw'
  cases p with
  | lost => exact absurd rfl hp'
  | idle => exact (hnot hp hq hq').symm
  | done =>
      cases q with
      | lost => exact absurd rfl hq'
      | idle => exact hnot hq hp hp'
      | done => rfl
      | queued op => exact (hqueued hq hp).elim
  | queued op =>
      cases q with
      | lost => exact absurd rfl hq'
      | idle => exact hnot hq hp hp'
      | done => exact (hqueued hp hq).elim
      | queued op' =>
          rcases hp.1 with ⟨hj, hw⟩ | ⟨hj, hw⟩ <;> rcases hq.1 with ⟨hj', hw'⟩ | ⟨hj', hw'⟩
          · rw [hj] at hj'
            exact congrArg Phase.queued (List.cons.inj hj').1
          · rw [hw] at hw'; cases hw'
          · rw [hw] at hw'; cases hw'
          · rw [hw] at hw'
            exact congrArg Phase.queued (WorkerState.running.inj hw')

/-- What holds of the figures, the card and the disk job, none of which is lost. -/
def InPhase (σ : System) (P : Core → Prop) : Prop :=
  ∃ p, σ.HasPhase p ∧ (σ.core p).Coherent ∧ (σ.core p).Ending ∧ p ≠ .lost ∧ P (σ.core p)

/-- The game writes nothing, and the menu asks for no load and no removal. -/
structure Quiet (out : List Effect) : Prop where
  wrote : ∀ slot, .wrote slot ∉ out
  calm : Machine.Calm out

/-- Quiet effects write no block. -/
theorem Quiet.figures {out : List Effect} (h : Quiet out) (slot : Fin 16) :
    .wrote slot ∉ figureEffects out := fun hmem => h.wrote slot (List.mem_filter.mp hmem).1

section Step

variable {σ : System} {a : Action}

/-- The calls of a step succeed. -/
structure CallsOk (a : Action) : Prop where
  sends : SendsOk a
  run : ∀ io, a = .run io → io = .ok

/-- A step as one of the machine with one job, when its calls succeed. -/
structure Steps (σ : System) (a : Action) (P : Core → Prop) (p p' : Phase) : Prop where
  phase : σ.HasPhase p
  coherent : (σ.core p).Coherent
  ending : (σ.core p).Ending
  holds : P (σ.core p)
  coherent' : ((σ.step a).1.core p').Coherent
  into : ∀ {P' : Core → Prop}, P' ((σ.step a).1.core p') → (σ.step a).1.InPhase P'
  completes : p ≠ .idle → (p' = .idle ↔ σ.Completes a)
  step : Core.Step ⟨(· = .ok), False⟩ (σ.core p) ((σ.step a).1.core p') (figureEffects (σ.step a).2)

/-- A step whose calls succeed is one of the core. -/
theorem InPhase.step {P : Core → Prop} (h : σ.InPhase P) (ha : CallsOk a) :
    ∃ p p', Steps σ a P p p' := by
  obtain ⟨p, hp, hc, he, hlost, hP⟩ := h
  have hmeets : Meets ⟨(· = .ok), False⟩ σ a := by
    cases a with
    | completed send => exact fun _ => Or.inl ha.sends
    | run io => exact ha.run io rfl
    | _ => trivial
  obtain ⟨p', hp', hstep, hidle⟩ := σ.step_core a hp hc hmeets
  have hlost' : p' ≠ .lost := hstep.not_lost id hlost
  refine ⟨p, p', hp, hc, he, hP, hc.step hstep, fun h => ⟨p', hp', hc.step hstep,
    he.step hc hstep, hlost', h⟩, fun hphase => ⟨fun h => (hidle h).resolve_left hphase, ?_⟩, hstep⟩
  rintro ⟨⟨io, rfl⟩, hhead⟩
  obtain ⟨events, hevents⟩ := List.head?_eq_some_iff.mp hhead
  have hidle' := (@step_complete_core .any _ _ hevents io _ hp).1
  exact hp'.unique hidle' hlost' nofun

/-- A quiet step whose calls succeed keeps everything saved. -/
theorem InPhase.allSaved_step (h : σ.InPhase Core.AllSaved) (ha : CallsOk a)
    (hquiet : Quiet (σ.step a).2) : (σ.step a).1.InPhase Core.AllSaved := by
  obtain ⟨p, p', hs⟩ := h.step ha
  exact hs.into (hs.holds.step hs.coherent hs.ending.slots hs.step hquiet.figures)

/-- While a job goes on no action begins. -/
theorem InPhase.action_step {P : Core → Prop} (h : σ.InPhase P) (ha : CallsOk a)
    (haction : σ.hid.action = none) (hbusy : σ.hid.busy = true) (hnot : ¬ σ.Completes a) :
    (σ.step a).1.hid.action = none ∧ (σ.step a).1.hid.busy = true := by
  obtain ⟨p, p', hs⟩ := h.step ha
  have hphase : p ≠ .idle := hs.coherent.busy.mp hbusy
  have hphase' : p' ≠ .idle := fun h => hnot ((hs.completes hphase).mp h)
  exact ⟨(hs.step.action_kept hs.coherent hphase hphase').trans haction,
    hs.coherent'.busy.mpr hphase'⟩

/-- The completion of a job that was for no action. -/
theorem InPhase.completed_step {P : Core → Prop} (h : σ.InPhase P) (ha : CallsOk a)
    (hstocked : σ.hid.Stocked) (haction : σ.hid.action = none) (hbusy : σ.hid.busy = true)
    (hcompletes : σ.Completes a) :
    (σ.step a).1.InPhase fun c => c.Drains ∨ c.AllSaved := by
  obtain ⟨p, p', hs⟩ := h.step ha
  have hphase : p ≠ .idle := hs.coherent.busy.mp hbusy
  exact hs.into (hs.step.job_ended hs.ending hstocked haction hphase
    ((hs.completes hphase).mpr hcompletes))

/-- Without a job, a step submits the next save, or comes closer to it if it helps. -/
theorem Steps.drains_idle {p' : Phase} (hs : Steps σ a Core.Drains .idle p') (ha : CallsOk a)
    (hquiet : Quiet (σ.step a).2) (hqueue : 0 ≤ σ.hid.queue) (hfresh : σ.hid.Fresh)
    (hstocked : σ.hid.Stocked) {i : Fin 16} (hdirty : σ.hid.dirty i = true) :
    ((σ.step a).1.core p').Drains ∧ (σ.step a).1.hid.saveRank ≤ σ.hid.saveRank ∧
      (σ.Helps a → (σ.step a).1.hid.saveRank < σ.hid.saveRank) := by
  have hbusy : σ.hid.busy = false :=
    eq_false_of_ne_true fun h => absurd rfl (hs.coherent.busy.mp h)
  have haction : σ.hid.action = none := hs.holds.action
  have hdone : ((σ.step a).1.core p').phase ≠ .done := hs.step.from_idle rfl
  have hocc : (σ.hid.slots i).occupied = true := (Bool.and_eq_true_iff.mp hdirty).1
  -- a step that leaves the storage alone
  have hsame (hstorage : (σ.step a).1.hid.toStorage = σ.hid.toStorage) :
      ((σ.step a).1.core p').Drains := by
    refine ⟨(congrArg Storage.action hstorage).trans haction, fun hp => ?_,
      fun hp => absurd hp hdone⟩
    have hbusy' := hs.coherent'.busy.mpr hp
    rw [show ((σ.step a).1.core p').storage = _ from hstorage, hbusy] at hbusy'
    cases hbusy'
  by_cases hhid : ∃ io, a = .hid io
  · obtain ⟨io, rfl⟩ := hhid
    cases hevents : σ.events with
    | nil =>
        have hstep : σ.step (.hid io) = (σ, []) := by simp only [System.step, hevents]
        rw [hstep] at hsame ⊢
        refine ⟨hsame rfl, le_rfl, fun hhelps => ?_⟩
        rcases hhelps.2 with h | ⟨h, -⟩ <;> rw [hevents] at h <;> cases h
    | cons event events =>
        have hstep := step_event hevents io
        cases event with
        | tick =>
            have hhid : (σ.step (.hid io)).1.hid = (σ.hid.v4Tick io.line io.send).1 := by
              rw [hstep]; rfl
            have hcalm : Machine.Calm (σ.hid.v4Tick io.line io.send).2 := by
              have := hquiet.calm
              rw [hstep] at this
              exact this
            have hautoload : σ.hid.autoload = false := eq_false_of_ne_true fun h => by
              rw [hfresh h i] at hocc
              cases hocc
            obtain ⟨hless, hstorage⟩ := Machine.v4Tick_saves hcalm haction hbusy hqueue
              (hstocked i hocc) hautoload ha.sends hdirty
            rw [← hhid] at hless hstorage
            refine ⟨?_, hless.le, fun _ => hless⟩
            rcases hstorage with h | ⟨slot, hslot, h⟩
            · exact hsame h
            · have hcore : ((σ.step (.hid io)).1.core p').storage =
                  (σ.hid.toStorage.takeSnapshot slot).submitJob .save true := h
              exact ⟨by rw [hcore]; exact haction, fun _ => by rw [hcore]; exact ⟨rfl, hslot, rfl⟩,
                fun hp => absurd hp hdone⟩
        | complete =>
            have hbusy' : σ.hid.busy = true :=
              Sound.busy ⟨_, hs.phase, hs.coherent, hs.ending.toSlotted⟩ hevents
            rw [hbusy] at hbusy'
            cases hbusy'
        | request msg =>
            have hhid : (σ.step (.hid io)).1.hid = (σ.hid.v4Process io.mem msg).1 := by
              rw [hstep]; rfl
            have hout : (σ.step (.hid io)).2 = (σ.hid.v4Process io.mem msg).2 := by rw [hstep]; rfl
            have hstorage : (σ.step (.hid io)).1.hid.toStorage = σ.hid.toStorage := by
              rw [hhid]
              rcases σ.hid.v4Process_unwritten io.mem msg with h | ⟨slot, h⟩
              · exact h
              · rw [← hout] at h
                exact absurd h (hquiet.wrote slot)
            have hmenu : σ.hid.SameMenu (σ.step (.hid io)).1.hid := by
              rw [hhid]
              exact (σ.hid.v4Process_requests io.mem msg).menu
            refine ⟨hsame hstorage, (Machine.saveRank_congr hstorage hmenu).le, fun hhelps => ?_⟩
            rcases hhelps.2 with h | ⟨h, -⟩ <;> rw [hevents] at h <;> cases h
  · obtain ⟨hstorage, hmenu⟩ := step_outside_keeps (σ := σ) fun io h => hhid ⟨io, h⟩
    rcases hstorage with hstorage | ⟨op, io, hworker, -⟩
    · exact ⟨hsame hstorage, (Machine.saveRank_congr hstorage hmenu).le, fun h => absurd h.1 hhid⟩
    · exact absurd rfl (hs.phase.running hworker)

/-- A step while there is something to save keeps the saves going, and one that helps
leaves less to do. -/
theorem InPhase.drains_step (h : σ.InPhase Core.Drains) (ha : CallsOk a)
    (hquiet : Quiet (σ.step a).2) (hqueue : 0 ≤ σ.hid.queue) (hfresh : σ.hid.Fresh)
    (hstocked : σ.hid.Stocked) {i : Fin 16} (hdirty : σ.hid.dirty i = true) :
    (σ.step a).1.InPhase Core.Drains ∧ (σ.step a).1.hid.saveRank ≤ σ.hid.saveRank ∧
      (σ.Helps a → (σ.step a).1.hid.saveRank < σ.hid.saveRank) := by
  obtain ⟨p, p', hs⟩ := h.step ha
  by_cases hphase : p = .idle
  · subst hphase
    obtain ⟨hdrains, hrank⟩ := hs.drains_idle ha hquiet hqueue hfresh hstocked hdirty
    exact ⟨hs.into hdrains, hrank⟩
  · obtain ⟨hdrains, hcard⟩ := hs.holds.step hs.coherent hphase hs.step ⟨fun _ h => h, id⟩
      hquiet.figures
    have hbusy : σ.hid.busy = true := hs.coherent.busy.mpr hphase
    refine ⟨hs.into hdrains, ?_⟩
    rw [Machine.saveRank_busy hbusy]
    rcases hcard with ⟨hphase', hsame⟩ | ⟨-, hless⟩
    · have hsame' : (σ.step a).1.hid.dirtySlots = σ.hid.dirtySlots := hsame
      rw [Machine.saveRank_busy (hs.coherent'.busy.mpr hphase'), hsame']
      refine ⟨le_rfl, fun hhelps => ?_⟩
      rcases hhelps with ⟨hhid, hhead | ⟨-, hidle⟩⟩
      · exact absurd ((hs.completes hphase).mpr ⟨hhid, hhead⟩) hphase'
      · rw [hbusy] at hidle
        cases hidle
    · have hless' : (σ.step a).1.hid.dirtySlots.card < σ.hid.dirtySlots.card := hless
      have hle := (σ.step a).1.hid.saveRank_le
      exact ⟨by omega, fun _ => by omega⟩

end Step

/-! ### Endless runs -/

/-- From moment `n₀` on the file calls succeed, the game writes nothing, and the menu
asks for no load and no removal. -/
structure QuietFrom (σ₀ : System) (as : ℕ → Action) (n₀ : ℕ) : Prop where
  run : ∀ n, n₀ ≤ n → ∀ io, as n = .run io → io = .ok
  quiet : ∀ n, n₀ ≤ n → Quiet (Run.emits step σ₀ as n)

section Runs

variable {d : Disk} {io : StartIo} {as : ℕ → Action} {n₀ : ℕ}

/-- At the start no slot is occupied. -/
theorem init_occupied (d : Disk) (io : StartIo) (i : Fin 16) :
    ((init d io).hid.slots i).occupied = false := by
  obtain ⟨p, -, -, hi⟩ := init_core d io
  exact congrArg (fun slots => (slots i).occupied) hi.slots

/-- In every run the first figure is loaded by itself only while the portal is empty. -/
theorem fresh_along (d : Disk) (io : StartIo) (as : ℕ → Action) (n : ℕ) :
    (Run.along step (init d io) as n).hid.Fresh := by
  induction n with
  | zero => exact fun _ i => init_occupied d io i
  | succ n ih => exact fresh_step ih (as n)

/-- In a fair schedule there are entries in the catalogue while there is a figure. -/
theorem Fair.stocked (h : Fair as) (hqueue : 0 ≤ (init d io).hid.queue) (n : ℕ) :
    (Run.along step (init d io) as n).hid.Stocked := by
  induction n with
  | zero =>
      intro i hocc
      have hempty := init_occupied d io i
      exact absurd (hempty.symm.trans hocc) Bool.false_ne_true
  | succ n ih =>
      obtain ⟨p, hp, hc, he, -⟩ := h.alive hqueue n
      obtain ⟨p', -, hstep, -⟩ := step_core_any _ (as n) hp hc
      exact he.stocked_step ih hstep

/-- From the quiet moment on the calls succeed. -/
theorem QuietFrom.callsOk {σ₀ : System} (h : QuietFrom σ₀ as n₀) (hfair : Fair as) {n : ℕ}
    (hn : n₀ ≤ n) : CallsOk (as n) := ⟨hfair.sendsOk n, h.run n hn⟩

/-- A job that is for no action is completed, and saves follow each other from then on. -/
theorem QuietFrom.drains (h : QuietFrom (init d io) as n₀) (hfair : Fair as)
    (hqueue : 0 ≤ (init d io).hid.queue) :
    LeadsTo (fun n => n₀ ≤ n ∧ (Run.along step (init d io) as n).hid.action = none)
      fun n => n₀ ≤ n ∧
        (Run.along step (init d io) as n).InPhase fun c => c.Drains ∨ c.AllSaved := by
  have hcompleted : LeadsTo
      (fun n => n₀ ≤ n ∧ (Run.along step (init d io) as n).hid.action = none ∧
        (Run.along step (init d io) as n).hid.busy = true)
      fun n => n₀ ≤ n ∧
        (Run.along step (init d io) as n).InPhase fun c => c.Drains ∨ c.AllSaved := by
    refine (LeadsTo.persists (f := Takes (init d io) as .complete) ?_ ?_).trans (.next ?_)
    · rintro n ⟨-, -, hbusy⟩
      obtain ⟨p, hp, hc, -, hlost, -⟩ := hfair.alive hqueue n
      exact hfair.completes n ⟨p, hp, hc.busy.mp hbusy, hlost⟩
    · rintro n ⟨hn, haction, hbusy⟩ hnot
      obtain ⟨p, hp, hc, he, hlost, -⟩ := hfair.alive hqueue n
      have hphase : (Run.along step (init d io) as n).InPhase fun _ => True :=
        ⟨p, hp, hc, he, hlost, trivial⟩
      exact ⟨hn.trans (Nat.le_succ n), hphase.action_step (h.callsOk hfair hn) haction hbusy hnot⟩
    · rintro n ⟨⟨hn, haction, hbusy⟩, htakes⟩
      obtain ⟨p, hp, hc, he, hlost, -⟩ := hfair.alive hqueue n
      have hphase : (Run.along step (init d io) as n).InPhase fun _ => True :=
        ⟨p, hp, hc, he, hlost, trivial⟩
      exact ⟨hn.trans (Nat.le_succ n), hphase.completed_step (h.callsOk hfair hn)
        (hfair.stocked hqueue n) haction hbusy htakes⟩
  rintro n ⟨hn, haction⟩
  by_cases hbusy : (Run.along step (init d io) as n).hid.busy = true
  · exact hcompleted n ⟨hn, haction, hbusy⟩
  · obtain ⟨p, hp, hc, he, hlost, -⟩ := hfair.alive hqueue n
    have hidle : p = .idle := by_contra fun hne => hbusy (hc.busy.mpr hne)
    subst hidle
    exact ⟨n, le_rfl, hn, .idle, hp, hc, he, hlost,
      Or.inl ⟨haction, fun hp => absurd rfl hp, nofun⟩⟩

/-- Saves that follow each other come to an end. -/
theorem QuietFrom.allSaved_of_drains (h : QuietFrom (init d io) as n₀) (hfair : Fair as)
    (hqueue : 0 ≤ (init d io).hid.queue) :
    LeadsTo (fun n => n₀ ≤ n ∧ (Run.along step (init d io) as n).InPhase Core.Drains)
      fun n => n₀ ≤ n ∧ (Run.along step (init d io) as n).InPhase Core.AllSaved := by
  have hnext (n : ℕ) (hn : n₀ ≤ n) (hd : (Run.along step (init d io) as n).InPhase Core.Drains) :
      (Run.along step (init d io) as (n + 1)).InPhase Core.AllSaved ∨
        (Run.along step (init d io) as (n + 1)).InPhase Core.Drains ∧
        (Run.along step (init d io) as (n + 1)).hid.saveRank ≤
          (Run.along step (init d io) as n).hid.saveRank ∧
        ((Run.along step (init d io) as n).Helps (as n) →
          (Run.along step (init d io) as (n + 1)).hid.saveRank <
            (Run.along step (init d io) as n).hid.saveRank) := by
    by_cases hdirty : ∃ i, (Run.along step (init d io) as n).hid.dirty i = true
    · obtain ⟨i, hi⟩ := hdirty
      obtain ⟨p, -, -, -, -, hqueue'⟩ := hfair.alive hqueue n
      exact Or.inr (hd.drains_step (h.callsOk hfair hn) (h.quiet n hn) hqueue'
        (fresh_along d io as n) (hfair.stocked hqueue n) hi)
    · obtain ⟨p, hp, hc, he, hlost, hdrains⟩ := hd
      have hclean (i : Fin 16) : (Run.along step (init d io) as n).hid.dirty i = false :=
        eq_false_of_ne_true fun hi => hdirty ⟨i, hi⟩
      have hsaved : (Run.along step (init d io) as n).InPhase Core.AllSaved :=
        ⟨p, hp, hc, he, hlost, hclean, fun hphase =>
          absurd (hdrains.own hphase).2.1 (ne_true_of_eq_false (hclean _))⟩
      exact Or.inl (hsaved.allSaved_step (h.callsOk hfair hn) (h.quiet n hn))
  refine .of_rank (fun n => (Run.along step (init d io) as n).hid.saveRank)
    (hfair.helps hqueue).leadsTo ?_ ?_
  · rintro n ⟨hn, hd⟩ -
    have hn' := hn.trans (Nat.le_succ n)
    rcases hnext n hn hd with hsaved | ⟨hd', hle, -⟩
    · exact Or.inr ⟨hn', hsaved⟩
    · exact Or.inl ⟨⟨hn', hd'⟩, hle⟩
  · rintro n ⟨hn, hd⟩ hhelps
    have hn' := hn.trans (Nat.le_succ n)
    rcases hnext n hn hd with hsaved | ⟨hd', -, hlt⟩
    · exact Or.inr ⟨hn', hsaved⟩
    · exact Or.inl ⟨⟨hn', hd'⟩, hlt hhelps⟩

/-- A moment comes from which on nothing is left to save. -/
theorem QuietFrom.allSaved (h : QuietFrom (init d io) as n₀) (hfair : Fair as)
    (hqueue : 0 ≤ (init d io).hid.queue) :
    ∃ k, ∀ n, k ≤ n → (Run.along step (init d io) as n).InPhase Core.AllSaved := by
  obtain ⟨m, hm, haction⟩ := hfair.action_ends hqueue n₀
  have hleads := (h.drains hfair hqueue).trans (r := fun n => n₀ ≤ n ∧
      (Run.along step (init d io) as n).InPhase Core.AllSaved)
        fun n ⟨hn, p, hp, hc, he, hlost, hcore⟩ => by
    rcases hcore with hd | hsaved
    · exact h.allSaved_of_drains hfair hqueue n ⟨hn, p, hp, hc, he, hlost, hd⟩
    · exact ⟨n, le_rfl, hn, p, hp, hc, he, hlost, hsaved⟩
  obtain ⟨k, -, hk, hsaved⟩ := hleads m ⟨hm, haction⟩
  refine ⟨k, fun n hn => ?_⟩
  induction n, hn using Nat.le_induction with
  | base => exact hsaved
  | succ n hn ih => exact ih.allSaved_step (h.callsOk hfair (hk.trans hn)) (h.quiet n (hk.trans hn))

/-- **Everything is saved in the end.**  The queue of the storage worker has been created, and in
a fair schedule the game stops writing, the menu stops moving figures and the file calls stop
failing.  Then a moment comes from which on every figure on the portal is saved.

It also loads back as it is, if the file calls have been honest from the start, the journals
found then are what earlier runs have left, and the figure took fewer than `2^32` writes since
the snapshot of its last successful save. -/
theorem writes_saved (hqueue : 0 ≤ (init d io).hid.queue) (hfair : Fair as)
    (hquiet : QuietFrom (init d io) as n₀) :
    ∃ k, ∀ n, k ≤ n → ∀ i, ((Run.along step (init d io) as n).hid.slots i).occupied = true →
      ((Run.along step (init d io) as n).hid.slots i).generation =
        ((Run.along step (init d io) as n).hid.slots i).saved ∧
      ((∀ n io, as n = .run io → io.Honest) →
        (∀ id < e11Max, JournalsLeft d id (catalogSource d id)) →
        (ledger (Run.outputs step (init d io) (Run.before as n))).unsaved i < 2 ^ 32 →
          LoadsBack (Run.along step (init d io) as n).disk
            ((Run.along step (init d io) as n).hid.slots i)) := by
  obtain ⟨k, hk⟩ := hquiet.allSaved hfair hqueue
  refine ⟨k, fun n hn i hocc => ?_⟩
  obtain ⟨p, -, -, -, -, hsaved⟩ := hk n hn
  have hclean : ((Run.along step (init d io) as n).hid.slots i).generation =
      ((Run.along step (init d io) as n).hid.slots i).saved := by
    have hi : (((Run.along step (init d io) as n).hid.slots i).occupied &&
        ((Run.along step (init d io) as n).hid.slots i).changed) = false := hsaved.clean i
    rw [hocc, Bool.true_and] at hi
    exact of_not_not (of_decide_eq_false hi)
  refine ⟨hclean, fun hhonest hjournals hwrites => ?_⟩
  have hmeets (n : ℕ) : Meets .honest (Run.along step (init d io) as n) (as n) := by
    cases ha : as n with
    | run io => exact hhonest n io ha
    | completed send => exact fun _ => Or.inr trivial
    | _ => trivial
  obtain ⟨p, -, -, -, h⟩ := System.core_of_every
    (I := fun c l => c.Loading .honest ∧ c.OnCard d (ledger l))
    (fun c c' l out hc ⟨hl, h⟩ hs => ⟨hl.step hc hs, by
      rw [ledger, List.foldl_append]; exact h.step hc hl hs⟩)
    (fun c h => ⟨.initial h, .initial h (fun id hid => (hjournals id hid).current hid) _⟩)
    (Run.every_before hmeets n)
  rw [ledger_figureEffects, ← Run.along_eq_final] at h
  exact (h.slot i hocc).loadsBack hwrites hclean

/-- The workers by themselves ask for nothing. -/
theorem turns_requests {σ₀ : System} (h : σ₀.events = []) (n : ℕ) (msg : Option IpcMessage) :
    .request msg ∉ (Run.along step σ₀ turns n).events := by
  induction n with
  | zero =>
      show _ ∉ σ₀.events
      rw [h]
      exact List.not_mem_nil
  | succ n ih =>
      show _ ∉ (step (Run.along step σ₀ turns n) (turns n)).1.events
      generalize Run.along step σ₀ turns n = σ at ih ⊢
      have hposted {event : Event} (he : .request msg ≠ event) :
          .request msg ∉ σ.events ++ [event] :=
        List.not_mem_append ih (mt List.mem_singleton.mp he)
      unfold turns
      split
      · exact hposted (by simp)
      · cases hevents : σ.events with
        | nil => simp only [step, hevents, List.not_mem_nil, not_false_eq_true]
        | cons event events =>
            rw [step_event hevents]
            exact fun hmem => ih (by rw [hevents]; exact List.mem_cons_of_mem _ hmem)
      · unfold step
        dsimp only
        split <;> exact ih
      · unfold step
        dsimp only
        split <;> exact ih
      · unfold step
        dsimp only
        split
        · exact hposted (by simp)
        · exact ih

/-- A tick without a request of the menu. -/
theorem tick_quiet {m : Machine} {line : RequestLine} (hline : line 0 ≠ 0x4531324d) (send : Int) :
    Quiet (m.v4Tick line send).2 := by
  refine ⟨fun slot h => v4Tick_wrote m line send slot (List.mem_filter.mpr ⟨h, rfl⟩), ?_⟩
  intro op arg h
  unfold Machine.v4Tick Machine.e09Poll at h
  rw [Machine.e11Mailbox_silent _ hline, ite_self] at h
  rcases List.mem_append.mp h with hpolled | hdelivered
  · rcases List.mem_append.mp hpolled with hnone | hdisk
    · cases hnone
    · obtain ⟨job, hjob⟩ := pollDisk_effects _ send _ hdisk
      cases hjob
  · obtain ⟨fd, -, hfd⟩ := List.mem_flatMap.mp hdelivered
    rcases Session.v4Tick_cases _ _ with hnone | ⟨msg, -, -, hmsg⟩
    · rw [hnone] at hfd
      cases hfd
    · rw [hmsg] at hfd
      cases List.mem_singleton.mp hfd

/-- A completion writes no block and begins no action of the menu. -/
theorem complete_quiet (m : Machine) : Quiet m.e09Complete.2 := by
  have h := m.e09Complete_step
  generalize m.e09Complete = out at h
  cases h with
  | saved => exact ⟨fun _ h => (nomatch List.mem_singleton.mp h),
      fun _ _ h => (nomatch List.mem_singleton.mp h)⟩
  | installed => exact ⟨fun _ h => (nomatch List.mem_singleton.mp h),
      fun _ _ h => (nomatch List.mem_singleton.mp h)⟩
  | _ => exact ⟨nofun, nofun⟩

/-- The jobs of `turns` succeed. -/
theorem turns_run {n : ℕ} {io : JobIo} (h : turns n = .run io) : io = .ok := by
  unfold turns at h
  split at h <;> cases h
  rfl

/-- In `turns` nobody writes or uses the menu. -/
theorem turns_quiet {σ₀ : System} (h : σ₀.events = []) : QuietFrom σ₀ turns 0 where
  run _ _ _ ha := turns_run ha
  quiet n _ := by
    have hnone := turns_requests h n
    have hnil : Quiet [] := ⟨nofun, nofun⟩
    show Quiet (step (Run.along step σ₀ turns n) (turns n)).2
    generalize Run.along step σ₀ turns n = σ at hnone ⊢
    unfold turns
    split
    · exact hnil
    · cases hevents : σ.events with
      | nil => simpa only [step, hevents] using hnil
      | cons event events =>
          rw [step_event hevents]
          cases event with
          | tick => exact tick_quiet (by decide) 0
          | complete => exact complete_quiet σ.hid
          | request msg => exact absurd (hevents ▸ List.mem_cons_self) (hnone msg)
    · unfold step
      dsimp only
      split <;> exact hnil
    · unfold step
      dsimp only
      split <;> exact hnil
    · unfold step
      dsimp only
      split <;> exact hnil

/-- A schedule that is quiet is so after a run. -/
theorem QuietFrom.after {σ₀ : System} {as : List Action} {b : ℕ → Action}
    (h : QuietFrom (Run.final step σ₀ as) b 0) : QuietFrom σ₀ (Run.after as b) as.length where
  run n hn io ha := by
    obtain ⟨k, rfl⟩ := Nat.exists_eq_add_of_le hn
    rw [Run.after_add] at ha
    exact h.run k (Nat.zero_le k) io ha
  quiet n hn := by
    obtain ⟨k, rfl⟩ := Nat.exists_eq_add_of_le hn
    rw [Run.emits_after]
    exact h.quiet k (Nat.zero_le k)

/-- The game writes the first figure, and then the workers take turns. -/
def writtenTurns : ℕ → Action := Run.after writtenRun turns

/-- The schedule stays fair with the write before it. -/
theorem writtenTurns_fair : Fair writtenTurns := by
  exact turns_fair.after (fun io hmem => writtenRun_succeeds _ hmem)
    fun send hmem => writtenRun_succeeds _ hmem

/-- The first figure is loaded and written, and nothing else is asked for.  Then there is
something to save, and some time it is saved. -/
theorem writes_saved_turns :
    (Run.along step (init twoFigureCard .ok) writtenTurns writtenRun.length).hid.dirty 0 = true ∧
    ∃ k, ∀ n, k ≤ n → ∀ i,
      ((Run.along step (init twoFigureCard .ok) writtenTurns n).hid.slots i).occupied = true →
      ((Run.along step (init twoFigureCard .ok) writtenTurns n).hid.slots i).generation =
        ((Run.along step (init twoFigureCard .ok) writtenTurns n).hid.slots i).saved ∧
      ((ledger (Run.outputs step (init twoFigureCard .ok) (Run.before writtenTurns n))).unsaved i
          < 2 ^ 32 →
        LoadsBack (Run.along step (init twoFigureCard .ok) writtenTurns n).disk
          ((Run.along step (init twoFigureCard .ok) writtenTurns n).hid.slots i)) := by
  have hquiet : QuietFrom (Run.final step (init twoFigureCard .ok) writtenRun) turns 0 := by
    rw [writtenRun_final]
    exact turns_quiet rfl
  have hdirty : swapWritten.dirty 0 = true := by
    show ((swapWritten.slots 0).occupied && (swapWritten.slots 0).changed) = true
    rw [swapWritten_changed, swapWritten_slots, Function.update_self]
    rfl
  constructor
  · have halong := @Run.along_after _ _ _ step writtenRun turns (init twoFigureCard .ok) 0
    rw [Nat.add_zero, writtenRun_final] at halong
    rw [writtenTurns, halong]
    exact hdirty
  · obtain ⟨k, hk⟩ := writes_saved (by decide) writtenTurns_fair hquiet.after
    refine ⟨k, fun n hn i hocc => ⟨(hk n hn i hocc).1, (hk n hn i hocc).2 ?_ ?_⟩⟩
    · intro n io ha
      rcases @Run.after_cases _ writtenRun turns n with hmem | ⟨k, hk⟩
      · have hrun : Action.Succeeds (.run io) := by
          rw [← ha]
          exact writtenRun_succeeds _ hmem
        obtain rfl : io = .ok := hrun
        exact JobIo.ok_honest
      · obtain rfl := turns_run (hk.symm.trans ha)
        exact JobIo.ok_honest
    · exact fun id hid => .none (twoFigureCard_empty hid)

end Runs

end System

end VirtualPortal
