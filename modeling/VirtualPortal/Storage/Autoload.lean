/-
# The first figure

Until a figure has been loaded, or the menu has asked for something, `e09_poll` loads
the first catalogue entry into menu position 0 by itself, and tries again every 500
ticks.  It does so instead of a background save, so it must not go on when there is
something to save: `e12_autoload` is set only while no slot is occupied
(`System.fresh_step`).
-/

import VirtualPortal.Storage.RemovalDelay

namespace VirtualPortal

open Storage

namespace Machine

/-- The menu position 0 is loaded without being asked for only while the portal is
empty. -/
def Fresh (m : Machine) : Prop := m.autoload = true → ∀ i, (m.slots i).occupied = false

/-- A step after which the first figure is still to be loaded: it was so before, and no
slot is taken. -/
def StaysFresh (m m' : Machine) : Prop :=
  m'.autoload = true → m.autoload = true ∧
    ∀ i, (m'.slots i).occupied = true → (m.slots i).occupied = true

section Fresh

variable {m m₁ m' : Machine}

/-- A fresh machine stays fresh. -/
theorem StaysFresh.fresh (h : m.StaysFresh m') (hm : m.Fresh) : m'.Fresh := by
  intro hautoload i
  obtain ⟨hbefore, hslots⟩ := h hautoload
  refine eq_false_of_ne_true fun hi => ?_
  have hnot := hm hbefore i
  rw [hslots i hi] at hnot
  cases hnot

/-- Two such steps in a row are one. -/
theorem StaysFresh.trans (h : m.StaysFresh m₁) (h' : m₁.StaysFresh m') : m.StaysFresh m' := by
  intro hautoload
  obtain ⟨h₁, hslots₁⟩ := h' hautoload
  obtain ⟨h₀, hslots₀⟩ := h h₁
  exact ⟨h₀, fun i hi => hslots₀ i (hslots₁ i hi)⟩

/-- A step that takes no slot. -/
theorem StaysFresh.of_occupied (hautoload : m'.autoload = true → m.autoload = true)
    (hslots : ∀ i, (m'.slots i).occupied = (m.slots i).occupied) : m.StaysFresh m' :=
  fun h => ⟨hautoload h, fun i hi => (hslots i).symm.trans hi⟩

/-- What leaves the menu alone does not turn the automatic load on. -/
theorem SameMenu.autoload (h : m.SameMenu m') (ha : m'.autoload = true) : m.autoload = true :=
  (congrArg Menu.autoload h.1 :).symm.trans ha

/-- `e12_begin` leaves the flag of the automatic load as it is. -/
theorem e12Begin_autoload (m : Machine) (ui id : U32) (action : Swap) :
    (m.e12Begin ui id action).2.autoload = m.autoload := by
  rcases m.e12Begin_cases ui id action with h | ⟨pos, -, -, -, h⟩
  · rw [h]
  · rw [h]
    exact (congrArg Menu.autoload (m.startAction_menu pos id action).1 :)

/-- `e12_begin` takes no slot. -/
theorem e12Begin_fresh (m : Machine) (ui id : U32) (action : Swap) :
    m.StaysFresh (m.e12Begin ui id action).2 :=
  .of_occupied (fun h => (m.e12Begin_autoload ui id action).symm.trans h)
    (m.e12Begin_menuStep ui id action).occupied

/-- A request of the menu never turns the automatic load on. -/
theorem menuExecute_autoload (m : Machine) (seq op arg : U32) :
    (m.menuExecute seq op arg).autoload = true → m.autoload = true := by
  have hswap (m : Machine) (action : Swap) :
      (m.menuSwap arg action).2.autoload = true → m.autoload = true := by
    unfold menuSwap
    dsimp only
    split_ifs
    · exact nofun
    · exact (m.e12Begin_autoload _ _ _).symm.trans
  have hrequest (m : Machine) : (m.menuRequest op arg).2.autoload = true → m.autoload = true := by
    unfold menuRequest
    split_ifs
    · exact id
    · exact id
    · exact hswap m .load
    · exact hswap m .remove
    all_goals exact id
  unfold menuExecute
  dsimp only
  split_ifs <;> exact hrequest { m with requestSeq := seq }

/-- A look at the mailbox takes no slot. -/
theorem mailed_fresh (m : Machine) (line : RequestLine) : m.StaysFresh (m.mailed line) := by
  refine .of_occupied (fun h => ?_) (m.mailed_menuStep line).occupied
  have halive {m m' : Machine} (h : m.menuAlive (line 5) = some m') (ha : m'.autoload = true) :
      m.autoload = true := by
    unfold menuAlive at h
    split_ifs at h <;> cases h <;> exact ha
  have hmailbox (m : Machine) (ha : (m.e11Mailbox line).1.autoload = true) : m.autoload = true := by
    have h := m.e11Mailbox_step line
    generalize m.e11Mailbox line = out at h ha
    cases h with
    | idle => exact ha
    | @executes m' _ _ h _ => exact halive h (m'.menuExecute_autoload _ _ _ ha)
    | @publishes m' h => exact halive h ha
  unfold mailed at h
  dsimp only at h
  split_ifs at h
  · exact hmailbox { m with ticks := m.ticks + 1 } h
  · exact h

/-- A job that is submitted takes no slot. -/
theorem e11Submit_fresh (m : Machine) (op : DiskOp) (send : Int) :
    m.StaysFresh (m.e11Submit op send).1 := by
  unfold e11Submit
  dsimp only
  split_ifs <;> exact .of_occupied id fun _ => rfl

/-- A poll takes no slot. -/
theorem pollDisk_fresh (m : Machine) (send : Int) : m.StaysFresh (m.pollDisk send).1 := by
  have h := m.pollDisk_step send
  generalize m.pollDisk send = out at h ⊢
  have hprepared (st : Storage) (cursor : Fin 16) (hst : st.slots = m.slots) :
      m.StaysFresh { m with toStorage := st, saveCursor := cursor } :=
    .of_occupied id fun i => by rw [hst]
  cases h with
  | idle => exact .of_occupied id fun _ => rfl
  | catalog => exact m.e11Submit_fresh _ _
  | saveOld i => exact (hprepared _ _ rfl).trans (e11Submit_fresh _ .save send)
  | remove =>
      refine fun ha => ⟨ha, fun i hi => ?_⟩
      simp only [Storage.finishRemove, releaseOld] at hi
      split_ifs at hi
      exact hi
  | load => exact (hprepared _ _ rfl).trans (e11Submit_fresh _ .load send)
  | autoload => exact m.e12Begin_fresh 0 0 .load
  | save i => exact (hprepared _ _ rfl).trans (e11Submit_fresh _ .save send)
  | flushed => exact .of_occupied id fun _ => rfl

/-- The completion that takes a slot has turned the automatic load off. -/
theorem e09Complete_fresh (m : Machine) : m.StaysFresh m.e09Complete.1 := by
  have hrestore (m : Machine) (error : Int) : m.StaysFresh (m.e12Restore error) := by
    refine .of_occupied (fun h => ?_) fun i => ?_
    · exact (congrArg Menu.autoload (m.e12Restore_menu error).1 :).symm.trans h
    · rw [toStorage_e12Restore]
      simp only [Storage.restore, setOldPresent]
      split_ifs <;> rfl
  have htaken : m.StaysFresh m.takeResult := .of_occupied id fun _ => rfl
  have h := m.e09Complete_step
  generalize m.e09Complete = out at h ⊢
  cases h with
  | failed => exact htaken
  | abandoned => exact htaken.trans (hrestore _ _)
  | counted =>
      have hcounted : m.StaysFresh m.takeResult.countEntries := .of_occupied id fun _ => rfl
      exact hcounted.trans (e12Begin_fresh _ 0 0 .load)
  | saved =>
      refine .of_occupied id fun i => ?_
      show ((m.toStorage.taken.saveDone).slots i).occupied = _
      rw [saveDone, slots_setSlot]
      split_ifs with hi
      · rw [hi]
        rfl
      · rfl
  | rejected error => exact htaken.trans (hrestore _ _)
  | installed slot => exact fun h => by cases h

/-- A request of a game takes no slot. -/
theorem v4Process_fresh (m : Machine) (mem : Mem) (msg : Option IpcMessage) :
    m.StaysFresh (m.v4Process mem msg).1 := by
  obtain ⟨hmenu, hstorage⟩ := m.v4Process_requests mem msg
  refine .of_occupied hmenu.autoload fun i => ?_
  generalize (m.v4Process mem msg).1.toStorage = st at hstorage ⊢
  cases hstorage with
  | none => rfl
  | block slot block bytes =>
      rw [slots_setSlot]
      split_ifs with hi
      · rw [hi]
        rfl
      · rfl

end Fresh

end Machine

/-- Every step of the system keeps a fresh machine fresh. -/
theorem System.fresh_step {σ : System} (h : σ.hid.Fresh) (a : Action) : (σ.step a).1.hid.Fresh := by
  by_cases ha : ∃ io, a = .hid io
  · obtain ⟨io, rfl⟩ := ha
    cases hevents : σ.events with
    | nil =>
        have hstep : σ.step (.hid io) = (σ, []) := by simp only [System.step, hevents]
        rw [hstep]
        exact h
    | cons event events =>
        rw [System.step_event hevents]
        refine Machine.StaysFresh.fresh ?_ h
        cases event with
        | tick =>
            show σ.hid.StaysFresh (σ.hid.v4Tick io.line io.send).1
            rw [Machine.v4Tick_mailed]
            exact (σ.hid.mailed_fresh io.line).trans (Machine.pollDisk_fresh _ io.send)
        | complete => exact σ.hid.e09Complete_fresh
        | request msg => exact σ.hid.v4Process_fresh io.mem msg
  · obtain ⟨st, route, hhid, hslots, -⟩ := σ.step_outside fun io h => ha ⟨io, h⟩
    rw [hhid]
    have hstays : σ.hid.StaysFresh (σ.hid.hidStep (.outside st route)).1 :=
      .of_occupied id fun i => congrArg (fun slots => (slots i).occupied) hslots
    exact hstays.fresh h

end VirtualPortal
