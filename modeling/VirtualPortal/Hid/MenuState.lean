/-
# Who writes the variables of the menu

`Menu` holds the variables of the mailbox, of the errors and of the timing.  A
request of a game writes none of them (`v4Process_requests`), and the tick counter
belongs to the tick.  An action that begins stamps its start
(`startAction_menu`), and all that a look at the mailbox does is to write
variables of its own around one such start at most (`e11Mailbox_menuStep`).
-/

import VirtualPortal.Storage.Moves

namespace VirtualPortal
namespace Machine

/-- Neither the variables of the menu nor the tick counter change. -/
def SameMenu (m m' : Machine) : Prop := m'.toMenu = m.toMenu ∧ m'.ticks = m.ticks

/-- An event of the old slot is one of the sessions only. -/
theorem sameMenu_oldEvent (m : Machine) (inserted : Bool) : m.SameMenu (m.oldEvent inserted) := by
  unfold oldEvent
  split <;> exact ⟨rfl, rfl⟩

/-! ### Requests of a game -/

/-- What a request of a game does to the figures: it writes a block of one that is
present, or nothing. -/
inductive Writes (m : Machine) : Storage → Prop
  | none : Writes m m.toStorage
  | block (slot : Fin 16) (block : ℕ) (bytes : ℕ → U8) (hpresent : (m.slots slot).present = true) :
      Writes m (m.toStorage.setSlot slot ((m.slots slot).writeBlock block bytes))

/-- What a request of a game does outside its session. -/
structure Requests (m m' : Machine) : Prop where
  menu : m.SameMenu m'
  storage : m.Writes m'.toStorage

/-- What changes sessions only does what requests may. -/
theorem Requests.of_same {m m' : Machine} (hmenu : m'.toMenu = m.toMenu)
    (hticks : m'.ticks = m.ticks)
    (hstorage : m'.toStorage = m.toStorage) : m.Requests m' :=
  ⟨⟨hmenu, hticks⟩, hstorage ▸ .none⟩

/-- The effect of a command outside its session is at most a block written. -/
theorem commandApply_requests (m : Machine) (fd : Fin 16) (data : ℕ → U8) (c : PortalCommand) :
    m.Requests (m.commandApply fd data c).1 := by
  cases c with
  | write slot block =>
      unfold commandApply
      dsimp only
      split_ifs with hpresent
      · exact ⟨⟨rfl, rfl⟩, .block slot _ _ hpresent⟩
      · exact .of_same rfl rfl rfl
  | _ => exact .of_same rfl rfl rfl

/-- A command with its reply writes at most a block outside its session. -/
theorem runCommand_requests (m : Machine) (fd : Fin 16) (data : ℕ → U8) (c : PortalCommand)
    (ok : Int) : m.Requests (m.runCommand fd data c ok).2.1 := by
  unfold runCommand
  split
  · exact m.commandApply_requests fd data c
  · dsimp only
    split_ifs
    · exact .of_same rfl rfl rfl
    · obtain ⟨hmenu, hstorage⟩ := commandApply_requests (m.setSession fd _) fd data c
      refine ⟨hmenu, ?_⟩
      generalize ((m.setSession fd _).commandApply fd data c).1.toStorage = st at hstorage ⊢
      cases hstorage with
      | none => exact .none
      | block slot block bytes hpresent => exact .block slot block bytes hpresent

/-- A control transfer writes at most a block outside its session. -/
theorem TransferStep.requests {m : Machine} {fd : Fin 16} {mem : Mem} {msg : IpcMessage}
    {out : Machine × List Effect} (h : m.TransferStep fd mem msg out) : m.Requests out.1 := by
  cases h with
  | refused => exact .of_same rfl rfl rfl
  | command _ _ _ data c ok => exact m.runCommand_requests fd data c ok
  | read => exact .of_same rfl rfl rfl

/-- A request of a game leaves the menu and the clock alone, and writes one block
at most. -/
theorem v4Process_requests (m : Machine) (mem : Mem) (msg : Option IpcMessage) :
    m.Requests (m.v4Process mem msg).1 := by
  cases msg with
  | none => exact .of_same rfl rfl rfl
  | some msg =>
      have h := m.v4Process_step mem msg
      generalize m.v4Process mem (some msg) = out at h ⊢
      cases h with
      | answer => exact .of_same rfl rfl rfl
      | close => exact .of_same rfl rfl rfl
      | ioctl fd hfd hioctl h =>
          cases h with
          | transfer r h => exact h.requests
          | _ => exact .of_same rfl rfl rfl

/-! ### Actions -/

/-- The start of an action is stamped. -/
theorem startAction_menu (m : Machine) (ui : Fin 16) (id : U32) (action : Swap) :
    (m.startAction ui id action).toMenu = { m.toMenu with removeTick := m.ticks, error := 0 } ∧
      (m.startAction ui id action).ticks = m.ticks :=
  sameMenu_oldEvent _ false

/-- The end of a failed action reports its error. -/
theorem e12Restore_menu (m : Machine) (error : Int) :
    (m.e12Restore error).toMenu = { m.toMenu with error := error } ∧
      (m.e12Restore error).ticks = m.ticks :=
  sameMenu_oldEvent _ true

/-! ### The mailbox -/

/-- Variables of the mailbox are written, and the sessions.  No figure moves, and
the variables of the poll keep their values, but that a flush may be asked for. -/
structure Idles (m m' : Machine) : Prop where
  storage : m'.toStorage = m.toStorage
  ticks : m'.ticks = m.ticks
  removeTick : m'.removeTick = m.removeTick
  saveCursor : m'.saveCursor = m.saveCursor
  flush : m.flush = true → m'.flush = true

/-- A step that does nothing idles. -/
theorem Idles.refl (m : Machine) : m.Idles m := ⟨rfl, rfl, rfl, rfl, id⟩

/-- Two steps that idle are one. -/
theorem Idles.trans {m m₁ m₂ : Machine} (h : m.Idles m₁) (h' : m₁.Idles m₂) : m.Idles m₂ where
  storage := h'.storage.trans h.storage
  ticks := h'.ticks.trans h.ticks
  removeTick := h'.removeTick.trans h.removeTick
  saveCursor := h'.saveCursor.trans h.saveCursor
  flush hf := h'.flush (h.flush hf)

/-- At most one action begins. -/
inductive MenuStep (m m' : Machine) : Prop
  | idle (h : m.Idles m')
  | begin (m₁ : Machine) (pos : Fin 16) (id : U32) (action : Swap) (h : m.Idles m₁)
      (haction : m₁.action = none) (hbusy : m₁.busy = false)
      (h' : (m₁.startAction pos id action).Idles m')

/-- At most one action begins when the menu idles afterwards. -/
theorem MenuStep.after {m m₁ m₂ : Machine} (h : m.MenuStep m₁) (h' : m₁.Idles m₂) :
    m.MenuStep m₂ := by
  cases h with
  | idle h => exact .idle (h.trans h')
  | begin m₀ pos id action h haction hbusy hidle =>
      exact .begin m₀ pos id action h haction hbusy (hidle.trans h')

/-- At most one action begins when the menu has idled before. -/
theorem MenuStep.before {m m₁ m₂ : Machine} (h : m.Idles m₁) (h' : m₁.MenuStep m₂) :
    m.MenuStep m₂ := by
  cases h' with
  | idle h' => exact .idle (h.trans h')
  | begin m₀ pos id action hidle haction hbusy h' =>
      exact .begin m₀ pos id action (h.trans hidle) haction hbusy h'

/-- `e12_begin` begins its action or idles. -/
theorem e12Begin_menuStep (m : Machine) (ui id : U32) (action : Swap) :
    m.MenuStep (m.e12Begin ui id action).2 := by
  rcases m.e12Begin_cases ui id action with h | ⟨pos, haction, hbusy, -, h⟩
  · rw [h]
    exact .idle (.refl m)
  · rw [h]
    exact .begin m pos id action (.refl m) haction hbusy (.refl _)

/-- A request of the menu begins at most one action. -/
theorem menuRequest_menuStep (m : Machine) (op arg : U32) :
    m.MenuStep (m.menuRequest op arg).2 := by
  have hswap (action : Swap) : m.MenuStep (m.menuSwap arg action).2 := by
    have h := m.e12Begin_menuStep (arg >>> 16) (arg &&& 65535) action
    unfold menuSwap
    dsimp only
    split_ifs
    · exact h.after ⟨rfl, rfl, rfl, rfl, id⟩
    · exact h
  unfold menuRequest
  split_ifs
  · exact .idle ⟨rfl, rfl, rfl, rfl, id⟩
  · exact .idle ⟨rfl, rfl, rfl, rfl, id⟩
  · exact hswap .load
  · exact hswap .remove
  · exact .idle ⟨rfl, rfl, rfl, rfl, id⟩
  · exact .idle (.refl m)
  · exact .idle ⟨rfl, rfl, rfl, rfl, fun _ => rfl⟩
  · exact .idle ⟨rfl, rfl, rfl, rfl, id⟩
  · exact .idle (.refl m)

/-- The execution of a request begins at most one action. -/
theorem menuExecute_menuStep (m : Machine) (seq op arg : U32) :
    m.MenuStep (m.menuExecute seq op arg) := by
  have hseq : m.Idles { m with requestSeq := seq } := ⟨rfl, rfl, rfl, rfl, id⟩
  have h := (menuRequest_menuStep _ op arg).before hseq
  unfold menuExecute
  dsimp only
  split_ifs
  · exact h.after ⟨rfl, rfl, rfl, rfl, id⟩
  · exact h

/-- A new heartbeat of the menu idles. -/
theorem menuAlive_idles {m m' : Machine} {heartbeat : U32}
    (h : m.menuAlive heartbeat = some m') : m.Idles m' := by
  unfold menuAlive at h
  split_ifs at h <;> cases h <;> exact ⟨rfl, rfl, rfl, rfl, id⟩

/-- A look at the mailbox begins at most one action. -/
theorem e11Mailbox_menuStep (m : Machine) (line : RequestLine) :
    m.MenuStep (m.e11Mailbox line).1 := by
  have h := m.e11Mailbox_step line
  generalize m.e11Mailbox line = out at h ⊢
  cases h with
  | idle => exact .idle (.refl m)
  | @executes m' hroute hmagic halive hnew =>
      exact ((m'.menuExecute_menuStep _ _ _).before (menuAlive_idles halive)).after
        ⟨rfl, rfl, rfl, rfl, id⟩
  | publishes halive => exact .idle ((menuAlive_idles halive).trans ⟨rfl, rfl, rfl, rfl, id⟩)

end Machine
end VirtualPortal
