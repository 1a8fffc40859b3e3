/-
# What one event does to the figures

The storage code seen as moves of `Storage`: `Begins` is all a menu request can
do, `Move` all an event of the HID worker can do other than a completion, and
`Completion` all a completion can do.  Each move carries the guards under which
the code makes it and the effects that the ledgers over runs count.

`v4Process_move`, `v4Tick_moves` and `e09Complete_completion` say that the code
makes no other moves.  The invariants of the figures, of the disk job and of the
card are derived from the moves alone.
-/

import VirtualPortal.System
import VirtualPortal.Hid.RequestSteps
import VirtualPortal.Storage.PollSteps

namespace VirtualPortal

/-- The effects the ledgers of the figures count. -/
def Effect.onFigures : Effect → Bool
  | .submit _ | .wrote _ | .saved _ | .installed _ => true
  | _ => false

/-- The effects of a step that concern figures. -/
def figureEffects (out : List Effect) : List Effect := out.filter Effect.onFigures

/-- The effects on figures of two lists. -/
theorem figureEffects_append (out out' : List Effect) :
    figureEffects (out ++ out') = figureEffects out ++ figureEffects out' := List.filter_append ..

/-- Effects that are none of figures are dropped. -/
theorem figureEffects_eq_nil {out : List Effect} (h : ∀ e ∈ out, e.onFigures = false) :
    figureEffects out = [] :=
  List.filter_eq_nil_iff.mpr fun e he => by rw [h e he]; decide

/-- Only effects on figures submit jobs. -/
theorem submitted_figureEffects (out : List Effect) :
    submitted (figureEffects out) = submitted out := by
  induction out with
  | nil => rfl
  | cons e out ih =>
      cases e with
      | submit op => exact congrArg (op :: ·) ih
      | _ => exact ih

namespace Storage

/-- What a menu request, or the end of the catalogue job, does to the figures. -/
inductive Begins : Storage → Storage → Prop
  | keep {st : Storage} : Begins st st
  | action {st : Storage} (ui : Fin 16) (id : U32) (action : Swap) (haction : st.action = none)
      (hbusy : st.busy = false) (hload : action = .load → id < st.count ∧ st.owner id = none) :
      Begins st (st.startAction ui id action)

/-- The old slot of the action, if there is one, has been saved. -/
def OldClean (st : Storage) : Prop := ∀ i, st.old = some i → (st.slots i).changed = false

/-- A job is prepared: its operation and the variables it will use. -/
inductive Prepares : Storage → DiskOp → Storage → Prop
  | catalog {st : Storage} (hcount : st.count = 0) : Prepares st .catalog st
  | save {st : Storage} (i : Fin 16) (hcount : st.count ≠ 0)
      (hchanged : (st.slots i).changed = true)
      (hslot : (st.slots i).occupied = true ∧ st.action = none ∨
        st.action ≠ none ∧ st.old = some i) : Prepares st .save (st.takeSnapshot i)
  | load {st : Storage} (hcount : st.count ≠ 0) (haction : st.action = some .load)
      (hclean : st.OldClean) : Prepares st .load st.aimLoad

/-- A job that is sent, or could not be. -/
def submitJob (st : Storage) (op : DiskOp) (sent : Bool) : Storage :=
  { st with op := op, busy := sent }

/-- What an event other than a completion does to the figures. -/
inductive Move : Storage → Storage → List Effect → Prop
  | begins {st st' : Storage} (h : Begins st st') : Move st st' []
  | write {st : Storage} (slot : Fin 16) (block : ℕ) (bytes : ℕ → U8)
      (hpresent : (st.slots slot).present = true) :
      Move st (st.setSlot slot ((st.slots slot).writeBlock block bytes)) [.wrote slot]
  | remove {st : Storage} (hbusy : st.busy = false) (haction : st.action = some .remove)
      (hclean : st.OldClean) : Move st st.finishRemove []
  | job {st st' : Storage} (op : DiskOp) (sent : Bool) (hbusy : st.busy = false)
      (hprepares : Prepares st op st') :
      Move st (st'.submitJob op sent) (if sent then [.submit op] else [])

/-- What a completion does to the figures. -/
inductive Completion : Storage → Storage → List Effect → Prop
  | failed {st : Storage} (hresult : st.result < 0) :
      Completion st (if st.action ≠ none then st.taken.restore else st.taken) []
  | catalog {st st' : Storage} (hresult : 0 ≤ st.result) (hop : st.op = .catalog)
      (h : Begins st.taken.counted st') : Completion st st' []
  | saved {st : Storage} (hresult : 0 ≤ st.result) (hop : st.op = .save) :
      Completion st st.taken.saveDone [.saved st.diskSlot]
  | rejected {st : Storage} (hresult : 0 ≤ st.result) (hop : st.op = .load) :
      Completion st st.taken.restore []
  | installed {st : Storage} (slot : Fin 16) (hresult : 0 ≤ st.result) (hop : st.op = .load)
      (hdup : st.taken.duplicateUid (be32 st.job.byte 32) = false)
      (hslot : st.taken.slotSearch (be32 st.job.byte 32) (List.finRange 16) none =
        .ok (some slot)) :
      Completion st (st.taken.install slot (be32 st.job.byte 32)) [.installed slot]

end Storage

open Storage

namespace Machine

/-- Setting a session moves no figure. -/
@[simp] theorem toStorage_setSession (m : Machine) (fd : Fin 16) (s : Session) :
    (m.setSession fd s).toStorage = m.toStorage := rfl

/-- An event of the old slot moves no figure. -/
@[simp] theorem toStorage_oldEvent (m : Machine) (inserted : Bool) :
    (m.oldEvent inserted).toStorage = m.toStorage := by
  unfold oldEvent; split <;> rfl

/-- What `e12_begin` does to the figures. -/
theorem toStorage_startAction (m : Machine) (ui : Fin 16) (id : U32) (action : Swap) :
    (m.startAction ui id action).toStorage = m.toStorage.startAction ui id action := by
  rw [startAction, toStorage_oldEvent]

/-- What `e12_restore` does to the figures. -/
theorem toStorage_e12Restore (m : Machine) (error : Int) :
    (m.e12Restore error).toStorage = m.toStorage.restore := by
  rw [e12Restore, toStorage_oldEvent]

/-- `e12_restore` ends the action. -/
theorem e12Restore_action (m : Machine) (error : Int) : (m.e12Restore error).action = none :=
  congrArg Storage.action (m.toStorage_e12Restore error)

/-! ### Beginning an action -/

/-- `e12_begin` starts an action or leaves the machine as it is. -/
theorem e12Begin_cases (m : Machine) (ui id : U32) (action : Swap) :
    (m.e12Begin ui id action).2 = m ∨
      ∃ pos : Fin 16, m.action = none ∧ m.busy = false ∧
        (action = .load → id < m.count ∧ m.owner id = none) ∧
        (m.e12Begin ui id action).2 = m.startAction pos id action := by
  unfold e12Begin
  split
  · next hui =>
      split
      · exact Or.inl rfl
      · next hcount =>
          split
          · exact Or.inl rfl
          · next hfree =>
              push Not at hfree hcount
              split
              · exact Or.inl rfl
              · next howner =>
                  refine Or.inr ⟨⟨ui.toNat, hui⟩, hfree.1, by simpa using hfree.2, fun hload => ?_,
                    rfl⟩
                  rw [if_pos hload] at howner
                  exact ⟨BitVec.not_le.mp fun hle => hcount hload hle, howner⟩
  · exact Or.inl rfl

/-- `e12_begin` begins an action of the figures or leaves them. -/
theorem e12Begin_begins (m : Machine) (ui id : U32) (action : Swap) :
    Begins m.toStorage (m.e12Begin ui id action).2.toStorage := by
  rcases m.e12Begin_cases ui id action with h | ⟨pos, haction, hbusy, hload, h⟩
  · rw [h]; exact .keep
  · rw [h, toStorage_startAction]; exact .action pos id action haction hbusy hload

/-! ### A tick -/

/-- A load or a removal of the menu begins an action or leaves the figures. -/
theorem menuSwap_begins (m : Machine) (arg : U32) (action : Swap) :
    Begins m.toStorage (m.menuSwap arg action).2.toStorage := by
  have h := m.e12Begin_begins (arg >>> 16) (arg &&& 65535) action
  unfold menuSwap
  dsimp only
  split_ifs <;> exact h

/-- A request of the menu begins an action or leaves the figures. -/
theorem menuRequest_begins (m : Machine) (op arg : U32) :
    Begins m.toStorage (m.menuRequest op arg).2.toStorage := by
  unfold menuRequest
  split_ifs
  · exact .keep
  · exact .keep
  · exact m.menuSwap_begins arg .load
  · exact m.menuSwap_begins arg .remove
  all_goals exact .keep

/-- The execution of a request begins an action or leaves the figures. -/
theorem menuExecute_begins (m : Machine) (seq op arg : U32) :
    Begins m.toStorage (m.menuExecute seq op arg).toStorage := by
  have h := menuRequest_begins { m with requestSeq := seq } op arg
  unfold menuExecute
  dsimp only
  split_ifs <;> exact h

/-- A new heartbeat leaves the figures. -/
theorem menuAlive_toStorage {m m' : Machine} {heartbeat : U32}
    (h : m.menuAlive heartbeat = some m') : m'.toStorage = m.toStorage := by
  unfold menuAlive at h
  split_ifs at h <;> cases h <;> rfl

/-- The mailbox begins at most one action. -/
theorem e11Mailbox_begins (m : Machine) (line : RequestLine) :
    Begins m.toStorage (m.e11Mailbox line).1.toStorage ∧
      figureEffects (m.e11Mailbox line).2 = [] := by
  have h := m.e11Mailbox_step line
  generalize m.e11Mailbox line = out at h ⊢
  cases h with
  | idle => exact ⟨.keep, rfl⟩
  | @executes m' hroute hmagic halive hnew =>
      rw [← menuAlive_toStorage halive]
      exact ⟨m'.menuExecute_begins _ _ _, rfl⟩
  | publishes halive =>
      rw [← menuAlive_toStorage halive]
      exact ⟨.keep, rfl⟩

/-- Submitting a prepared job is a move. -/
theorem e11Submit_move {m : Machine} {st : Storage} {op : DiskOp} (send : Int)
    (hbusy : st.busy = false) (hprepares : Prepares st op m.toStorage) :
    Move st (m.e11Submit op send).1.toStorage (figureEffects (m.e11Submit op send).2) := by
  unfold e11Submit
  dsimp only
  split_ifs
  · exact .job op false hbusy hprepares
  · exact .job op true hbusy hprepares

/-- A poll makes one of the moves of the figures. -/
theorem pollDisk_move (m : Machine) (send : Int) :
    Move m.toStorage (m.pollDisk send).1.toStorage (figureEffects (m.pollDisk send).2) := by
  have h := m.pollDisk_step send
  generalize m.pollDisk send = out at h ⊢
  cases h with
  | idle => exact .begins .keep
  | catalog hbusy hcount => exact e11Submit_move send hbusy (.catalog hcount)
  | saveOld i hbusy hcount haction hold hchanged =>
      exact e11Submit_move send hbusy (.save i hcount hchanged (Or.inr ⟨haction, hold⟩))
  | remove hbusy haction hclean => exact .remove hbusy haction hclean
  | load hbusy hcount haction hclean =>
      exact e11Submit_move send hbusy (.load hcount haction hclean)
  | autoload => exact .begins (m.e12Begin_begins 0 0 .load)
  | save i hbusy hcount haction hslot hchanged =>
      exact e11Submit_move send hbusy (.save _ hcount hchanged (Or.inl ⟨hslot, haction⟩))
  | flushed => exact .begins .keep

/-- Delivering reads does not concern figures. -/
theorem figureEffects_deliverReads (m : Machine) : figureEffects m.deliverReads.2 = [] := by
  refine figureEffects_eq_nil fun e he => ?_
  obtain ⟨fd, -, hfd⟩ := List.mem_flatMap.mp he
  unfold Session.v4Tick at hfd
  split at hfd
  · split_ifs at hfd
    · rw [List.mem_singleton.mp hfd]; rfl
    · cases hfd
  · cases hfd

/-- The poll is at most a menu request and one move. -/
theorem e09Poll_moves (m : Machine) (line : RequestLine) (send : Int) :
    ∃ st, Begins m.toStorage st ∧
      Move st (m.e09Poll line send).1.toStorage (figureEffects (m.e09Poll line send).2) := by
  unfold e09Poll
  by_cases hmail : m.ticks &&& 7 = 0
  · obtain ⟨hbegins, hout⟩ := m.e11Mailbox_begins line
    rw [if_pos hmail]
    refine ⟨_, hbegins, ?_⟩
    rw [figureEffects_append, hout, List.nil_append]
    exact pollDisk_move _ send
  · rw [if_neg hmail]
    exact ⟨_, .keep, m.pollDisk_move send⟩

/-- A tick is at most a menu request and one move of the poll. -/
theorem v4Tick_moves (m : Machine) (line : RequestLine) (send : Int) :
    ∃ st, Begins m.toStorage st ∧
      Move st (m.v4Tick line send).1.toStorage (figureEffects (m.v4Tick line send).2) := by
  obtain ⟨st, hbegins, hmove⟩ := e09Poll_moves { m with ticks := m.ticks + 1 } line send
  refine ⟨st, hbegins, ?_⟩
  unfold v4Tick
  rw [figureEffects_append, figureEffects_deliverReads, List.append_nil]
  exact hmove

/-! ### A completion -/

/-- A completion makes one of the moves of `Completion`. -/
theorem e09Complete_completion (m : Machine) :
    Completion m.toStorage m.e09Complete.1.toStorage (figureEffects m.e09Complete.2) := by
  have h := m.e09Complete_step
  generalize m.e09Complete = out at h ⊢
  cases h with
  | failed hresult haction =>
      have hfailed := Completion.failed hresult
      rw [if_neg (not_not_intro haction)] at hfailed
      exact hfailed
  | abandoned hresult haction =>
      have hfailed := Completion.failed hresult
      rw [if_pos haction] at hfailed
      rw [toStorage_e12Restore]
      exact hfailed
  | counted hresult hop =>
      exact .catalog hresult hop (m.takeResult.countEntries.e12Begin_begins 0 0 .load)
  | saved hresult hop => exact .saved hresult hop
  | rejected error hresult hop =>
      rw [toStorage_e12Restore]
      exact .rejected hresult hop
  | installed slot hresult hop hdup hslot => exact .installed slot hresult hop hdup hslot

/-! ### A request -/

/-- The effect of a command makes one of the moves of the figures. -/
theorem commandApply_move (m : Machine) (fd : Fin 16) (data : ℕ → U8) (c : PortalCommand) :
    Move m.toStorage (m.commandApply fd data c).1.toStorage
      (figureEffects (m.commandApply fd data c).2) := by
  cases c with
  | write slot block =>
      unfold commandApply
      dsimp only
      split_ifs with hpresent
      · exact .write slot _ _ hpresent
      · exact .begins .keep
  | _ => exact .begins .keep

/-- A command with its reply makes one of the moves of the figures. -/
theorem runCommand_move (m : Machine) (fd : Fin 16) (data : ℕ → U8) (c : PortalCommand) (ok : Int) :
    Move m.toStorage (m.runCommand fd data c ok).2.1.toStorage
      (figureEffects (m.runCommand fd data c ok).2.2) := by
  unfold runCommand
  split
  · exact m.commandApply_move fd data c
  · dsimp only
    split_ifs
    · exact .begins .keep
    · exact commandApply_move (m.setSession fd _) fd data c

/-- What a cancel acknowledges is no effect on figures. -/
theorem figureEffects_cancel (s : Session) : figureEffects s.cancelEffects = [] := by
  unfold Session.cancelEffects
  split <;> split <;> rfl

/-- A control transfer makes one of the moves of the figures. -/
theorem TransferStep.move {m : Machine} {fd : Fin 16} {mem : Mem} {msg : IpcMessage}
    {out : Machine × List Effect} (h : m.TransferStep fd mem msg out) :
    Move m.toStorage out.1.toStorage (figureEffects out.2) := by
  cases h with
  | refused => exact .begins .keep
  | command _ _ _ data c ok => exact m.runCommand_move fd data c ok
  | read => exact .begins .keep

/-- An ioctl makes one of the moves of the figures. -/
theorem IoctlStep.move {m : Machine} {fd : Fin 16} {mem : Mem} {msg : IpcMessage}
    {out : Machine × List Effect} (h : m.IoctlStep fd mem msg out) :
    Move m.toStorage out.1.toStorage (figureEffects out.2) := by
  have hkeep : Move m.toStorage m.toStorage [] := .begins .keep
  cases h with
  | version => rw [figureEffects_append, figureEffects_cancel]; exact hkeep
  | shutdown => rw [figureEffects_append, figureEffects_cancel]; exact hkeep
  | transfer r h =>
      split_ifs
      · exact h.move
      · rw [figureEffects_append]
        simpa [figureEffects, Effect.onFigures] using h.move
  | _ => exact hkeep

/-- A request writes at most one block of a slot that is present. -/
theorem v4Process_move (m : Machine) (mem : Mem) (msg : Option IpcMessage) :
    Move m.toStorage (m.v4Process mem msg).1.toStorage (figureEffects (m.v4Process mem msg).2) := by
  have hkeep : Move m.toStorage m.toStorage [] := .begins .keep
  cases msg with
  | none => exact hkeep
  | some msg =>
      have h := m.v4Process_step mem msg
      generalize m.v4Process mem (some msg) = out at h ⊢
      cases h with
      | answer r => exact hkeep
      | close => rw [figureEffects_append, figureEffects_cancel]; exact hkeep
      | ioctl fd hfd hioctl h => exact h.move

end Machine
end VirtualPortal
