/-
# Background saves take turns

When no action runs, `e09_poll` saves the first dirty slot from `e12_save_cursor`
on and puts the cursor behind it, whether the job can be sent or not.
`Machine.backgroundSlot` is the slot it saves (`pollDisk_background`); the saves of
an action go past the cursor (`pollDisk_turn`).

Nothing else moves the cursor, and what a slot holds is dirty for the poll when it
is dirty before the tick, since the menu request handled first changes neither
occupation nor data.  So the slots are served in turn (`System.roundRobin`), and
`background_fair` reads off what `RoundRobin` says of a slot that stays dirty.
-/

import VirtualPortal.Hid.MenuState
import VirtualPortal.Hid.Worker
import VirtualPortal.Lib.RoundRobin

namespace VirtualPortal

open Storage

/-- There is something to save in slot `i`. -/
def Storage.dirty (st : Storage) (i : Fin 16) : Bool :=
  (st.slots i).occupied && (st.slots i).changed

/-- An action that begins changes what is present, not what is dirty. -/
theorem Storage.Begins.dirty {st st' : Storage} (h : Begins st st') (i : Fin 16) :
    st'.dirty i = st.dirty i := by
  cases h with
  | keep => rfl
  | action ui id action haction hbusy hload =>
      simp only [Storage.dirty, Slot.changed, startAction, setOldPresent]
      split_ifs <;> rfl

/-- An action that begins leaves what the slots hold. -/
theorem Storage.Begins.generation {st st' : Storage} (h : Begins st st') (i : Fin 16) :
    (st'.slots i).generation = (st.slots i).generation := by
  cases h with
  | keep => rfl
  | action ui id action haction hbusy hload =>
      simp only [startAction, setOldPresent]
      split_ifs <;> rfl

namespace Machine

/-- The machine with which a tick polls: the tick is counted and the mailbox has
been looked at. -/
def mailed (m : Machine) (line : RequestLine) : Machine :=
  let m := { m with ticks := m.ticks + 1 }
  if m.ticks &&& 7 = 0 then (m.e11Mailbox line).1 else m

/-- The slot that `e09_poll` saves in the background. -/
def backgroundSlot (m : Machine) : Option (Fin 16) :=
  if m.busy ∨ m.queue < 0 ∨ m.count = 0 ∨ m.action ≠ none then none
  else if m.autoload ∧ 500 ≤ m.ticks - m.retry then none
  else if (m.error = 0 ∧ m.flush) ∨ 500 ≤ m.ticks - m.retry then nextFrom m.dirty m.saveCursor
  else none

/-- The cursor stays, and a flush that has been asked for stays asked for. -/
structure KeepsTurn (m m' : Machine) : Prop where
  cursor : m'.saveCursor = m.saveCursor
  flush : m.flush = true → m'.flush = true

/-- The turn is kept when nothing happens. -/
theorem KeepsTurn.refl (m : Machine) : m.KeepsTurn m := ⟨rfl, id⟩

/-- Two steps that keep the turn are one. -/
theorem KeepsTurn.trans {m m₁ m₂ : Machine} (h : m.KeepsTurn m₁) (h' : m₁.KeepsTurn m₂) :
    m.KeepsTurn m₂ := ⟨h'.cursor.trans h.cursor, fun hf => h'.flush (h.flush hf)⟩

/-- A step that leaves the menu alone keeps the turn. -/
theorem SameMenu.keepsTurn {m m' : Machine} (h : m.SameMenu m') : m.KeepsTurn m' :=
  ⟨(congrArg Menu.saveCursor h.1 :), fun hf => (congrArg Menu.flush h.1 :).trans hf⟩

/-! ### Outside the poll -/

/-- An action that begins keeps the turn. -/
theorem startAction_turn (m : Machine) (ui : Fin 16) (id : U32) (action : Swap) :
    m.KeepsTurn (m.startAction ui id action) := by
  have h := (m.startAction_menu ui id action).1
  exact ⟨(congrArg Menu.saveCursor h :), fun hf => (congrArg Menu.flush h :).trans hf⟩

/-- `e12_restore` keeps the turn. -/
theorem e12Restore_turn (m : Machine) (error : Int) : m.KeepsTurn (m.e12Restore error) := by
  have h := (m.e12Restore_menu error).1
  exact ⟨(congrArg Menu.saveCursor h :), fun hf => (congrArg Menu.flush h :).trans hf⟩

/-- A step of the menu keeps the turn. -/
theorem MenuStep.keepsTurn {m m' : Machine} (h : m.MenuStep m') : m.KeepsTurn m' := by
  have hidles {m m' : Machine} (h : m.Idles m') : m.KeepsTurn m' := ⟨h.saveCursor, h.flush⟩
  cases h with
  | idle h => exact hidles h
  | begin m₁ pos id action h _ _ h' =>
      exact ((hidles h).trans (m₁.startAction_turn pos id action)).trans (hidles h')

/-- A completion keeps the turn. -/
theorem e09Complete_turn (m : Machine) : m.KeepsTurn m.e09Complete.1 := by
  have htaken : m.KeepsTurn m.takeResult := ⟨rfl, id⟩
  have h := m.e09Complete_step
  generalize m.e09Complete = out at h ⊢
  cases h with
  | failed => exact htaken
  | abandoned => exact htaken.trans (e12Restore_turn _ _)
  | counted =>
      have hcounted : m.KeepsTurn m.takeResult.countEntries := ⟨rfl, id⟩
      exact hcounted.trans ((m.takeResult.countEntries.e12Begin_menuStep 0 0 .load).keepsTurn)
  | saved => exact ⟨rfl, id⟩
  | rejected error => exact htaken.trans (e12Restore_turn _ _)
  | installed => exact ⟨rfl, id⟩

/-- A look at the mailbox keeps the turn. -/
theorem mailed_turn (m : Machine) (line : RequestLine) : m.KeepsTurn (m.mailed line) := by
  have hcounted : m.KeepsTurn { m with ticks := m.ticks + 1 } := ⟨rfl, id⟩
  unfold mailed
  dsimp only
  split_ifs
  · exact hcounted.trans (e11Mailbox_menuStep _ line).keepsTurn
  · exact hcounted

/-- A look at the mailbox leaves what is dirty. -/
theorem mailed_dirty (m : Machine) (line : RequestLine) (i : Fin 16) :
    (m.mailed line).dirty i = m.dirty i := by
  unfold mailed
  dsimp only
  split_ifs
  · exact (e11Mailbox_begins { m with ticks := m.ticks + 1 } line).1.dirty i
  · rfl

/-- The mailbox leaves what the slots hold as it is. -/
theorem mailed_generation (m : Machine) (line : RequestLine) (i : Fin 16) :
    ((m.mailed line).slots i).generation = (m.slots i).generation := by
  unfold mailed
  dsimp only
  split_ifs
  · exact (e11Mailbox_begins { m with ticks := m.ticks + 1 } line).1.generation i
  · rfl

/-! ### The poll -/

/-- A submission keeps the turn. -/
theorem e11Submit_turn (m : Machine) (op : DiskOp) (send : Int) :
    m.KeepsTurn (m.e11Submit op send).1 := by
  unfold e11Submit
  dsimp only
  split_ifs <;> exact ⟨rfl, id⟩

/-- What a poll does after the mailbox, and the slot it saves in the background. -/
inductive Polls (m : Machine) (send : Int) : Option (Fin 16) → Machine × List Effect → Prop
  | idle : Polls m send none (m, [])
  | catalog : Polls m send none (m.e11Submit .catalog send)
  | action (action : Swap) (hbusy : m.busy = false) (haction : m.action = some action) :
      Polls m send none (m.pollAction action send)
  | autoload : Polls m send none ((m.e12Begin 0 0 .load).2, [])
  | save : Polls m send (nextFrom m.dirty m.saveCursor) (m.pollSave send)

/-- A poll does one of these things, and saves the slot that is due. -/
theorem pollDisk_polls (m : Machine) (send : Int) :
    Polls m send m.backgroundSlot (m.pollDisk send) := by
  unfold backgroundSlot pollDisk
  by_cases hbusy : m.busy ∨ m.queue < 0
  · rw [if_pos hbusy, if_pos (by tauto)]
    exact .idle
  have hbusy' : m.busy = false := by simpa using fun h => hbusy (Or.inl h)
  rw [if_neg hbusy]
  by_cases hcount : m.count = 0
  · rw [if_pos hcount, if_pos (by tauto)]
    split_ifs
    · exact .catalog
    · exact .idle
  rw [if_neg hcount]
  cases haction : m.action with
  | some action =>
      rw [if_pos (Or.inr (Or.inr (Or.inr (Option.some_ne_none _))))]
      exact .action action hbusy' haction
  | none =>
      rw [if_neg (by tauto)]
      dsimp only
      split_ifs
      · exact .autoload
      · exact .save
      · exact .idle

/-- The slot that is saved, with the cursor behind it. -/
theorem pollSave_eq (m : Machine) (send : Int) :
    m.pollSave send =
      match nextFrom m.dirty m.saveCursor with
      | some slot => { m with saveCursor := slot + 1 }.e12SaveSlot slot send
      | none => ({ m with flush := false }, []) := by
  unfold pollSave nextFrom Storage.dirty
  dsimp only
  cases (List.finRange 16).find? fun i =>
    (m.slots (m.saveCursor + i)).occupied && (m.slots (m.saveCursor + i)).changed <;> rfl

/-- A background save: the cursor goes behind the slot, and the save is submitted. -/
theorem pollDisk_background {m : Machine} {slot : Fin 16} (send : Int)
    (h : m.backgroundSlot = some slot) :
    m.pollDisk send = { m with saveCursor := slot + 1 }.e12SaveSlot slot send := by
  have hpolls := m.pollDisk_polls send
  generalize hr : m.pollDisk send = r at hpolls ⊢
  rw [h] at hpolls
  generalize hslot : some slot = o at hpolls
  cases hpolls with
  | save => rw [pollSave_eq, ← hslot]
  | _ => cases hslot

/-- The poll of an action keeps the turn. -/
theorem pollAction_turn (m : Machine) (action : Swap) (send : Int) :
    m.KeepsTurn (m.pollAction action send).1 := by
  have hprepared (st : Storage) : m.KeepsTurn { m with toStorage := st } := ⟨rfl, id⟩
  unfold pollAction
  split
  · exact (hprepared _).trans (e11Submit_turn _ .save send)
  · split_ifs
    · exact .refl m
    · cases action with
      | remove => exact hprepared _
      | load => exact (hprepared _).trans (e11Submit_turn _ .load send)

/-- The background saves take the first dirty slot from the cursor on. -/
theorem backgroundSlot_next {m : Machine} {slot : Fin 16} (h : m.backgroundSlot = some slot) :
    nextFrom m.dirty m.saveCursor = some slot := by
  unfold backgroundSlot at h
  split_ifs at h
  exact h

/-- The job of a save is a snapshot of its slot, sent or not. -/
theorem e12SaveSlot_snapshot (m : Machine) (slot : Fin 16) (send : Int) :
    (m.e12SaveSlot slot send).1.diskSlot = slot ∧
      (m.e12SaveSlot slot send).1.snapshot = (m.slots slot).generation := by
  unfold e12SaveSlot e11Submit
  dsimp only
  split_ifs <;> exact ⟨rfl, rfl⟩

/-- Any other poll keeps the cursor, saves for an action at most, and clears the
flush only when nothing is dirty. -/
theorem pollDisk_turn {m : Machine} (send : Int) (h : m.backgroundSlot = none) :
    (m.pollDisk send).1.saveCursor = m.saveCursor ∧
      (.submit .save ∈ (m.pollDisk send).2 → m.action ≠ none) ∧
      (m.flush = true → (m.pollDisk send).1.flush = true ∨
        (m.pollDisk send).1.toStorage = m.toStorage ∧ ∀ i, m.dirty i = false) := by
  have hpolls := m.pollDisk_polls send
  generalize m.pollDisk send = r at hpolls ⊢
  rw [h] at hpolls
  have hkeeps (hr : m.KeepsTurn r.1) :
      m.flush = true → r.1.flush = true ∨ r.1.toStorage = m.toStorage ∧ ∀ i, m.dirty i = false :=
    fun hf => Or.inl (hr.flush hf)
  generalize hslot : (none : Option (Fin 16)) = o at hpolls
  cases hpolls with
  | idle => exact ⟨rfl, fun he => absurd he List.not_mem_nil, hkeeps (.refl m)⟩
  | catalog =>
      have hturn := m.e11Submit_turn .catalog send
      refine ⟨hturn.cursor, fun he => ?_, hkeeps hturn⟩
      unfold e11Submit at he
      dsimp only at he
      split_ifs at he <;> simp at he
  | action action hbusy haction =>
      have hturn := m.pollAction_turn action send
      exact ⟨hturn.cursor, fun _ => by rw [haction]; exact Option.some_ne_none _, hkeeps hturn⟩
  | autoload =>
      have hturn := (m.e12Begin_menuStep 0 0 .load).keepsTurn
      exact ⟨hturn.cursor, fun he => absurd he List.not_mem_nil, hkeeps hturn⟩
  | save =>
      rw [pollSave_eq, ← hslot]
      exact ⟨rfl, fun he => absurd he List.not_mem_nil,
        fun _ => Or.inr ⟨rfl, nextFrom_eq_none hslot.symm⟩⟩

/-- A tick polls after the mailbox and then delivers reads. -/
theorem v4Tick_mailed (m : Machine) (line : RequestLine) (send : Int) :
    (m.v4Tick line send).1 = ((m.mailed line).pollDisk send).1.deliverReads.1 := by
  unfold v4Tick e09Poll mailed
  dsimp only
  split_ifs <;> rfl

/-- The mailbox and the deliveries have no effect on figures. -/
theorem figureEffects_mailed (m : Machine) (line : RequestLine) (send : Int) :
    figureEffects (m.v4Tick line send).2 =
      figureEffects ((m.mailed line).pollDisk send).2 := by
  unfold v4Tick
  rw [figureEffects_append, figureEffects_deliverReads, List.append_nil]
  unfold e09Poll mailed
  dsimp only
  split_ifs
  · rw [figureEffects_append, (e11Mailbox_begins _ line).2]
    rfl
  · rfl

/-- The jobs of a tick are those of its poll. -/
theorem submitted_mailed (m : Machine) (line : RequestLine) (send : Int) :
    submitted (m.v4Tick line send).2 = submitted ((m.mailed line).pollDisk send).2 := by
  rw [← submitted_figureEffects, figureEffects_mailed, submitted_figureEffects]

end Machine

/-! ### Runs -/

namespace System

/-- The machine with which a step polls, if it handles a tick. -/
def polling (σ : System) : Action → Option Machine
  | .hid io =>
      match σ.events with
      | .tick :: _ => some (σ.hid.mailed io.line)
      | _ => none
  | _ => none

/-- The slot that a step saves in the background. -/
def background (σ : System) (a : Action) : Option (Fin 16) :=
  (σ.polling a).bind Machine.backgroundSlot

/-- A step that polls. -/
theorem step_polling {σ : System} {a : Action} {m : Machine} (h : σ.polling a = some m) :
    ∃ io, a = .hid io ∧ m = σ.hid.mailed io.line ∧
      (σ.step a).1.hid = (m.pollDisk io.send).1.deliverReads.1 ∧
      submitted (σ.step a).2 = submitted (m.pollDisk io.send).2 := by
  cases a with
  | hid io =>
      unfold polling at h
      dsimp only at h
      split at h
      · next events hevents =>
          refine ⟨io, rfl, (Option.some.inj h).symm, ?_⟩
          rw [step_event hevents, ← Option.some.inj h]
          exact ⟨σ.hid.v4Tick_mailed io.line io.send, σ.hid.submitted_mailed io.line io.send⟩
      · cases h
  | _ => cases h

/-- A step that does not poll. -/
theorem step_not_polling {σ : System} {a : Action} (h : σ.polling a = none) :
    σ.hid.KeepsTurn (σ.step a).1.hid := by
  by_cases ha : ∃ io, a = .hid io
  · obtain ⟨io, rfl⟩ := ha
    cases hevents : σ.events with
    | nil =>
        have hstep : σ.step (.hid io) = (σ, []) := by simp only [step, hevents]
        rw [hstep]
        exact .refl _
    | cons event events =>
        rw [step_event hevents]
        cases event with
        | tick =>
            unfold polling at h
            rw [hevents] at h
            cases h
        | complete => exact σ.hid.e09Complete_turn
        | request msg => exact (σ.hid.v4Process_requests io.mem msg).menu.keepsTurn
  · obtain ⟨st, route, hhid, -⟩ := σ.step_outside fun io h => ha ⟨io, h⟩
    rw [hhid]
    exact ⟨rfl, id⟩

/-- A step that does not poll submits no job. -/
theorem submitted_not_polling {σ : System} {a : Action} (h : σ.polling a = none) :
    submitted (σ.step a).2 = [] := by
  by_cases ha : ∃ io, a = .hid io
  · obtain ⟨io, rfl⟩ := ha
    cases hevents : σ.events with
    | nil =>
        have hstep : σ.step (.hid io) = (σ, []) := by simp only [step, hevents]
        rw [hstep]
        rfl
    | cons event events =>
        rw [step_event hevents]
        cases event with
        | tick =>
            unfold polling at h
            rw [hevents] at h
            cases h
        | complete =>
            have hcomplete := (σ.hid.e09Complete_completion).submitted_eq
            rw [submitted_figureEffects] at hcomplete
            exact hcomplete
        | request msg => exact submitted_process σ.hid io.mem msg
  · exact σ.submitted_outside fun io h => ha ⟨io, h⟩

/-- Background saves are served in turn. -/
theorem roundRobin :
    RoundRobin System.step (fun σ => σ.hid.saveCursor) (fun σ i => σ.hid.dirty i = true)
      background where
  still σ a h := by
    cases hpoll : σ.polling a with
    | none => exact (step_not_polling hpoll).cursor
    | some m =>
        obtain ⟨io, -, rfl, hstep, -⟩ := step_polling hpoll
        have hslot : (σ.hid.mailed io.line).backgroundSlot = none := by
          rwa [background, hpoll] at h
        rw [hstep]
        exact (Machine.pollDisk_turn io.send hslot).1.trans (σ.hid.mailed_turn io.line).cursor
  turns σ a slot h := by
    obtain ⟨m, hpoll, hslot⟩ := Option.bind_eq_some_iff.mp h
    obtain ⟨io, -, -, hstep, -⟩ := step_polling hpoll
    rw [hstep, Machine.pollDisk_background io.send hslot]
    exact (Machine.e11Submit_turn _ .save io.send).cursor
  first σ a slot h j hj := by
    obtain ⟨m, hpoll, hslot⟩ := Option.bind_eq_some_iff.mp h
    obtain ⟨io, -, rfl, -⟩ := step_polling hpoll
    rw [← (σ.hid.mailed_turn io.line).cursor]
    exact (nextFrom_eq_some (Machine.backgroundSlot_next hslot)).2 j
      ((σ.hid.mailed_dirty io.line j).trans hj)

/-- The step takes the snapshot of a dirty slot and submits its save, unless the send of the
job fails. -/
structure SavesSlot (σ : System) (a : Action) (slot : Fin 16) : Prop where
  dirty : σ.hid.dirty slot = true
  diskSlot : (σ.step a).1.hid.diskSlot = slot
  snapshot : (σ.step a).1.hid.snapshot = (σ.hid.slots slot).generation
  sent : ∀ io, a = .hid io → (submitted (σ.step a).2 = if io.send < 0 then [] else [.save])

/-- A background save is a save of its slot. -/
theorem background_saves {σ : System} {a : Action} {slot : Fin 16}
    (h : σ.background a = some slot) : σ.SavesSlot a slot := by
  obtain ⟨m, hpoll, hslot⟩ := Option.bind_eq_some_iff.mp h
  obtain ⟨io, rfl, rfl, hstep, hsubmitted⟩ := step_polling hpoll
  have hpolled := Machine.pollDisk_background io.send hslot
  have hgeneration : ((σ.hid.mailed io.line).slots slot).generation =
      (σ.hid.slots slot).generation := σ.hid.mailed_generation io.line slot
  have hdirty : (σ.hid.mailed io.line).dirty slot = true :=
    (nextFrom_eq_some (Machine.backgroundSlot_next hslot)).1
  obtain ⟨hdisk, hsnapshot⟩ :=
    Machine.e12SaveSlot_snapshot { σ.hid.mailed io.line with saveCursor := slot + 1 } slot io.send
  rw [← hpolled] at hdisk hsnapshot
  refine ⟨(σ.hid.mailed_dirty io.line slot).symm.trans hdirty, ?_, ?_, ?_⟩
  · rw [hstep]
    exact hdisk
  · rw [hstep]
    exact hsnapshot.trans hgeneration
  · rintro io' h
    obtain rfl := Action.hid.inj h
    rw [hsubmitted, hpolled]
    unfold Machine.e12SaveSlot Machine.e11Submit
    dsimp only
    split_ifs <;> rfl

/-- Any other save is submitted for an action. -/
theorem save_of_action {σ : System} {a : Action} (h : σ.background a = none)
    (hsave : .save ∈ submitted (σ.step a).2) : ∃ m, σ.polling a = some m ∧ m.action ≠ none := by
  cases hpoll : σ.polling a with
  | some m =>
      obtain ⟨io, rfl, rfl, -, hsubmitted⟩ := step_polling hpoll
      have hslot : (σ.hid.mailed io.line).backgroundSlot = none := by
        rwa [background, hpoll] at h
      rw [hsubmitted] at hsave
      obtain ⟨e, he, heffect⟩ := List.mem_filterMap.mp hsave
      refine ⟨_, rfl, (Machine.pollDisk_turn io.send hslot).2.1 ?_⟩
      cases e with
      | submit op =>
          obtain rfl : op = .save := Option.some.inj heffect
          exact he
      | _ => cases heffect
  | none =>
      rw [submitted_not_polling hpoll] at hsave
      cases hsave

/-- A flush that has been asked for ends only when no slot is dirty. -/
theorem flush_ends {σ : System} {a : Action}
    (hflush : σ.hid.flush = true ∨ ∃ m, σ.polling a = some m ∧ m.flush = true)
    (hcleared : (σ.step a).1.hid.flush = false) (i : Fin 16) :
    σ.hid.dirty i = false ∧ (σ.step a).1.hid.dirty i = false := by
  cases hpoll : σ.polling a with
  | none =>
      have hset : σ.hid.flush = true := hflush.resolve_right fun ⟨m, hm, _⟩ => by
        rw [hpoll] at hm
        cases hm
      rw [(step_not_polling hpoll).flush hset] at hcleared
      cases hcleared
  | some m =>
      obtain ⟨io, -, rfl, hstep, -⟩ := step_polling hpoll
      have hset : (σ.hid.mailed io.line).flush = true := by
        rcases hflush with hset | ⟨m, hm, hset⟩
        · exact (σ.hid.mailed_turn io.line).flush hset
        · rwa [Option.some.inj (hpoll.symm.trans hm)]
      rw [hstep] at hcleared ⊢
      cases hslot : (σ.hid.mailed io.line).backgroundSlot with
      | some slot =>
          rw [Machine.pollDisk_background io.send hslot] at hcleared
          have hkept := (Machine.e11Submit_turn { σ.hid.mailed io.line with
            toStorage := (σ.hid.mailed io.line).toStorage.takeSnapshot slot
            saveCursor := slot + 1 } .save io.send).flush hset
          exact absurd (hkept.symm.trans hcleared) (by decide)
      | none =>
          rcases (Machine.pollDisk_turn io.send hslot).2.2 hset with hkept | ⟨hsame, hclean⟩
          · exact absurd (hkept.symm.trans hcleared) (by decide)
          · refine ⟨(σ.hid.mailed_dirty io.line i).symm.trans (hclean i), ?_⟩
            show ((σ.hid.mailed io.line).pollDisk io.send).1.toStorage.dirty i = false
            rw [hsame]
            exact hclean i

/-- **Background saving is fair.**  Between two background saves of a slot every
other slot that is dirty throughout is saved in the background too; a slot that
stays dirty waits for at most 15 such saves; and a flush that has been asked for
ends only when no slot is dirty.  A background save takes the snapshot of its slot and
submits it, and every other save is one of an action.  Whether a save is sent, and what
becomes of it, is up to the arguments of the steps. -/
theorem background_fair (σ : System) :
    (∀ (a a' : Action) (as : List Action) (slot j : Fin 16), j ≠ slot →
      σ.background a = some slot →
      Run.Every step (fun σ _ => σ.hid.dirty j = true) (σ.step a).1 (as ++ [a']) →
      (Run.final step (σ.step a).1 as).background a' = some slot →
        j ∈ servings step background (σ.step a).1 as) ∧
    (∀ (as : List Action) (j : Fin 16), Run.Every step (fun σ _ => σ.hid.dirty j = true) σ as →
      j ∉ servings step background σ as → (servings step background σ as).length ≤ 15) ∧
    (∀ a : Action, (σ.hid.flush = true ∨ ∃ m, σ.polling a = some m ∧ m.flush = true) →
      (σ.step a).1.hid.flush = false →
        ∀ i, σ.hid.dirty i = false ∧ (σ.step a).1.hid.dirty i = false) ∧
    (∀ (a : Action) (slot : Fin 16), σ.background a = some slot → σ.SavesSlot a slot) ∧
    (∀ a : Action, σ.background a = none → .save ∈ submitted (σ.step a).2 →
      ∃ m, σ.polling a = some m ∧ m.action ≠ none) := by
  refine ⟨fun a a' as slot j hne hslot hdirty hslot' => ?_, fun as j hdirty hj => ?_,
    fun _ => flush_ends, fun _ _ => background_saves, fun _ => save_of_action⟩
  · exact roundRobin.served_between hslot hne hdirty hslot'
  · exact roundRobin.servings_le hdirty hj

/-- Slots 0 and 1 are dirty, and there are ticks to come. -/
def twoDirty : System where
  hid := { Machine.zero with
    slots := fun i =>
      if i.val < 2 then { Slot.zero with occupied := true, generation := 1 } else .zero
    count := 1
    queue := 0
    autoload := false
    retry := 7
    route := fun _ => true
    ticks := 7 }
  disk := fun _ => none
  events := List.replicate 17 .tick
  jobs := []
  worker := .waiting

/-- A tick with the flush request `seq` of the menu; no save can be sent. -/
def flushTick (seq : U32) : Action :=
  .hid ⟨fun _ => 0, fun i => [0x4531324d, seq, 5, 0, 0x534b595a, seq, 0, 0].getD i.val 0, -1⟩

/-- Slot 0 is saved twice, and slot 1 between. -/
theorem background_fair_twoDirty :
    1 ∈ servings step background (twoDirty.step (flushTick 1)).1
      (List.replicate 7 (flushTick 1) ++ List.replicate 8 (flushTick 2)) :=
  (background_fair twoDirty).1 (flushTick 1) (flushTick 3)
    (List.replicate 7 (flushTick 1) ++ List.replicate 8 (flushTick 2)) 0 1 (by decide)
    (by decide +kernel) (by decide +kernel) (by decide +kernel)

end System
end VirtualPortal
