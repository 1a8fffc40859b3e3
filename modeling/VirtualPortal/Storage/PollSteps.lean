/-
# What a poll and a completion can do

The branches of `e11_mailbox`, of `e09_poll` after the mailbox and of
`e09_complete`, each stated once: the outcome with the guards under which the code
reaches it.  `MailboxStep`, `DiskStep` and `CompletionStep` list them,
`e11Mailbox_step`, `pollDisk_step` and `e09Complete_step` say that the lists are
complete.
-/

import VirtualPortal.Storage.Poll

namespace VirtualPortal
namespace Machine

/-- What the mailbox can do: nothing, publish, or execute a request and publish. -/
inductive MailboxStep (m : Machine) (line : RequestLine) : Machine × List Effect → Prop
  | idle : MailboxStep m line (m, [])
  | executes {m' : Machine} (hroute : ∃ fd, m.route fd = true)
      (hmagic : line 0 = 0x4531324d ∧ line 4 = 0x534b595a)
      (halive : m.menuAlive (line 5) = some m') (hnew : line 1 ≠ m'.requestSeq) :
      MailboxStep m line ((m'.menuExecute (line 1) (line 2) (line 3)).e11Publish.1,
        .executed (line 2) (line 3) ::
          (m'.menuExecute (line 1) (line 2) (line 3)).e11Publish.2)
  | publishes {m' : Machine} (halive : m.menuAlive (line 5) = some m') :
      MailboxStep m line m'.e11Publish

/-- What a poll can do on the disk side: one job is submitted, or an action begins or
ends, or nothing happens. -/
inductive DiskStep (m : Machine) (send : Int) : Machine × List Effect → Prop
  | idle : DiskStep m send (m, [])
  | catalog (hbusy : m.busy = false) (hcount : m.count = 0) :
      DiskStep m send (m.e11Submit .catalog send)
  | saveOld (i : Fin 16) (hbusy : m.busy = false) (hcount : m.count ≠ 0) (haction : m.action ≠ none)
      (hold : m.old = some i) (hchanged : (m.slots i).changed = true) :
      DiskStep m send (m.e12SaveSlot i send)
  | remove (hbusy : m.busy = false) (haction : m.action = some .remove)
      (hclean : ∀ i, m.old = some i → (m.slots i).changed = false)
      (hwait : ¬ m.ticks - m.removeTick < 250) :
      DiskStep m send ({ m with toStorage := m.toStorage.finishRemove }, [])
  | load (hbusy : m.busy = false) (hcount : m.count ≠ 0) (haction : m.action = some .load)
      (hclean : ∀ i, m.old = some i → (m.slots i).changed = false)
      (hwait : ¬ m.ticks - m.removeTick < 250) :
      DiskStep m send ({ m with toStorage := m.toStorage.aimLoad }.e11Submit .load send)
  | autoload (haction : m.action = none) : DiskStep m send ((m.e12Begin 0 0 .load).2, [])
  | save (i : Fin 16) (hbusy : m.busy = false) (hcount : m.count ≠ 0) (haction : m.action = none)
      (hslot : (m.slots (m.saveCursor + i)).occupied = true)
      (hchanged : (m.slots (m.saveCursor + i)).changed = true) :
      DiskStep m send
        ({ m with saveCursor := m.saveCursor + i + 1 }.e12SaveSlot (m.saveCursor + i) send)
  | flushed (haction : m.action = none) : DiskStep m send ({ m with flush := false }, [])

/-- What a completion can do. -/
inductive CompletionStep (m : Machine) : Machine × List Effect → Prop
  | failed (hresult : m.result < 0) (haction : m.action = none) :
      CompletionStep m (m.takeResult, [])
  | abandoned (hresult : m.result < 0) (haction : m.action ≠ none) :
      CompletionStep m (m.takeResult.e12Restore m.result, [])
  | counted (hresult : 0 ≤ m.result) (hop : m.op = .catalog) :
      CompletionStep m ((m.takeResult.countEntries.e12Begin 0 0 .load).2, [])
  | saved (hresult : 0 ≤ m.result) (hop : m.op = .save) :
      CompletionStep m ({ m.takeResult with toStorage := m.toStorage.taken.saveDone },
        [.saved m.diskSlot])
  | rejected (error : Int) (hresult : 0 ≤ m.result) (hop : m.op = .load) :
      CompletionStep m (m.takeResult.e12Restore error, [])
  | installed (slot : Fin 16) (hresult : 0 ≤ m.result) (hop : m.op = .load)
      (hdup : m.takeResult.duplicateUid (be32 m.job.byte 32) = false)
      (hslot : m.takeResult.slotSearch (be32 m.job.byte 32) (List.finRange 16) none =
        .ok (some slot)) :
      CompletionStep m (m.takeResult.install slot (be32 m.job.byte 32), [.installed slot])

section Steps

variable (m : Machine)

/-- A look at the mailbox takes one of its steps. -/
theorem e11Mailbox_step (line : RequestLine) : m.MailboxStep line (m.e11Mailbox line) := by
  unfold e11Mailbox
  by_cases hroute : ¬ ∃ fd, m.route fd
  · rw [if_pos hroute]
    exact .idle
  rw [if_neg hroute]
  by_cases hmagic : line 0 ≠ 0x4531324d ∨ line 4 ≠ 0x534b595a
  · rw [if_pos hmagic]
    exact .idle
  rw [if_neg hmagic]
  cases halive : m.menuAlive (line 5) with
  | none => exact .idle
  | some m' =>
      dsimp only
      split
      · next hnew =>
          push Not at hmagic
          exact .executes (not_not.mp hroute) hmagic halive hnew.1
      · exact .publishes halive

/-- The poll of an action takes one of the steps of the disk. -/
theorem pollAction_step {action : Swap} (send : Int) (hbusy : m.busy = false)
    (hcount : m.count ≠ 0) (haction : m.action = some action) :
    m.DiskStep send (m.pollAction action send) := by
  unfold pollAction
  split
  · next i hi =>
      obtain ⟨hold, hchanged⟩ := Option.filter_eq_some_iff.mp hi
      exact .saveOld i hbusy hcount (by rw [haction]; simp) hold hchanged
  · next hnone =>
      have hclean (i : Fin 16) (hi : m.old = some i) : (m.slots i).changed = false := by
        simpa using Option.filter_eq_none_iff.mp hnone i hi
      split
      · exact .idle
      · next hwait =>
          cases action with
          | remove => exact .remove hbusy haction hclean hwait
          | load => exact .load hbusy hcount haction hclean hwait

/-- A background save takes one of the steps of the disk. -/
theorem pollSave_step (send : Int) (hbusy : m.busy = false) (hcount : m.count ≠ 0)
    (haction : m.action = none) : m.DiskStep send (m.pollSave send) := by
  unfold pollSave
  dsimp only
  split
  · next i hi =>
      have hslot := List.find?_some hi
      rw [Bool.and_eq_true] at hslot
      exact .save i hbusy hcount haction hslot.1 hslot.2
  · exact .flushed haction

/-- Every poll takes one of the steps of the disk. -/
theorem pollDisk_step (send : Int) : m.DiskStep send (m.pollDisk send) := by
  unfold pollDisk
  by_cases hbusy : m.busy ∨ m.queue < 0
  · rw [if_pos hbusy]
    exact .idle
  have hbusy' : m.busy = false := by simpa using fun h => hbusy (Or.inl h)
  rw [if_neg hbusy]
  by_cases hcount : m.count = 0
  · rw [if_pos hcount]
    split
    · exact .catalog hbusy' hcount
    · exact .idle
  rw [if_neg hcount]
  cases haction : m.action with
  | some action => exact m.pollAction_step send hbusy' hcount haction
  | none =>
      dsimp only
      split
      · exact .autoload haction
      split
      · exact m.pollSave_step send hbusy' hcount haction
      · exact .idle

/-- The success of a load takes one of the steps of a completion. -/
theorem loadDone_step (hresult : 0 ≤ m.result) (hop : m.op = .load) :
    m.CompletionStep m.takeResult.loadDone := by
  unfold loadDone
  dsimp only
  split
  · exact .rejected _ hresult hop
  next hdup =>
  split
  · exact .rejected _ hresult hop
  · exact .rejected _ hresult hop
  · next slot hslot => exact .installed slot hresult hop (eq_false_of_ne_true hdup) hslot

/-- Every completion takes one of its steps. -/
theorem e09Complete_step : m.CompletionStep m.e09Complete := by
  unfold e09Complete
  split
  · next hresult =>
      split
      · next haction => exact .abandoned hresult haction
      · next haction => exact .failed hresult (not_not.mp haction)
  · next hresult =>
      have hresult' : 0 ≤ m.result := Int.not_lt.mp hresult
      unfold jobDone
      split
      · next hop => exact .counted hresult' hop
      · next hop => exact .saved hresult' hop
      · next hop => exact m.loadDone_step hresult' hop

end Steps
end Machine
end VirtualPortal
