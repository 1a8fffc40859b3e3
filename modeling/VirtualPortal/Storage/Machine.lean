/-
# The state of the HID worker

The variables of `plugin/source/e12_storage.h` (`Storage` for the figures, the
action and the disk job, `Menu` for the mailbox and the timing) and of
`plugin/source/hidv4.h` (`Machine`), and the part of the storage code that moves
figures in and out of the 16 portal slots: `e12_restore`, `e12_begin` and
`e09_complete`.

The menu has 16 positions.  `ui` gives the slot a position shows, and 255 in the
source is `none` here, as it is for `e12_old`.  A figure is loaded, replaced or
removed by an action that runs over many ticks:

| | |
| --- | --- |
| `e12_begin` | the slot shown leaves the portal (`present = 0`) |
| `e09_poll` | saves it while it is dirty, then waits 250 ticks |
| `e09_poll` | removes it, or submits the load of the new figure |
| `e09_complete` | installs the new figure, or puts the old one back |

The counters `e09_status_empty` to `e09_last_command` are written and never
read, and `e11_path` is an argument of the file calls (`VirtualPortal.Storage.Disk`).
-/

import VirtualPortal.Hid.Session
import VirtualPortal.Storage.Journal

namespace VirtualPortal

/-- `e12_slot` -/
structure Slot where
  data : Bytes 1024
  id : U32
  source : U32
  sequence : U32
  generation : U32
  saved : U32
  lastUid : U32
  present : Bool
  occupied : Bool
  seenUid : Bool

/-- What an action does to its menu position (`e12_action`: 2, 3). -/
inductive Swap where
  | load
  | remove
deriving DecidableEq

/-- The variables of `e12_storage.h` for the figures, the running action and the
disk job. -/
structure Storage where
  slots : Fin 16 → Slot
  ui : Fin 16 → Option (Fin 16)
  target : U32
  action : Option Swap
  actionUi : Fin 16
  old : Option (Fin 16)
  queue : Int
  busy : Bool
  op : DiskOp
  jobSlot : U32
  jobSource : U32
  jobSequence : U32
  job : Bytes 1056
  check : Bytes 1056
  diskSlot : Fin 16
  snapshot : U32
  result : Int
  catalog : Bytes 16416
  compact : U32
  count : U32

/-- The variables of `e12_storage.h` for the mailbox, the last error and the
timing. -/
structure Menu where
  error : Int
  retry : U32
  requestSeq : U32
  page : U32
  revision : U32
  heartbeat : U32
  heartbeatTick : U32
  view : Fin 16
  removeTick : U32
  saveCursor : Fin 16
  flush : Bool
  autoload : Bool

/-- All variables of the HID worker. -/
structure Machine extends Storage, Menu where
  sessions : Fin 16 → Session
  route : Fin 16 → Bool
  ticks : U32

/-- `e12_slots[i]` at start. -/
def Slot.zero : Slot where
  data := Bytes.zero 1024
  id := 0
  source := 0
  sequence := 0
  generation := 0
  saved := 0
  lastUid := 0
  present := false
  occupied := false
  seenUid := false

/-- The initial values.  `e11_op` is not read before it is set. -/
def Storage.zero : Storage where
  slots := fun _ => .zero
  ui := fun _ => some 0
  target := 0
  action := none
  actionUi := 0
  old := some 0
  queue := -1
  busy := false
  op := .catalog
  jobSlot := 0
  jobSource := 0
  jobSequence := 0
  job := Bytes.zero 1056
  check := Bytes.zero 1056
  diskSlot := 0
  snapshot := 0
  result := 0
  catalog := Bytes.zero 16416
  compact := 0
  count := 0

def Menu.zero : Menu where
  error := 0
  retry := 0
  requestSeq := 0
  page := 0
  revision := 0
  heartbeat := 0
  heartbeatTick := 0
  view := 0
  removeTick := 0
  saveCursor := 0
  flush := false
  autoload := true

def Machine.zero : Machine :=
  { Storage.zero, Menu.zero with
    sessions := fun _ => .zero
    route := fun _ => false
    ticks := 0 }

namespace Slot

/-- The figure differs from what the last successful save has taken. -/
def changed (s : Slot) : Bool := s.generation ≠ s.saved

/-- The slot with a block of its data written (the `W` command). -/
def writeBlock (s : Slot) (block : ℕ) (bytes : ℕ → U8) : Slot :=
  { s with data := s.data.copy (16 * block) bytes 16, generation := s.generation + 1 }

end Slot

namespace Storage

/-- Change one slot. -/
def setSlot (st : Storage) (i : Fin 16) (s : Slot) : Storage :=
  { st with slots := Function.update st.slots i s }

/-- `e12_dirty` -/
def e12Dirty (st : Storage) : ℕ :=
  ((List.finRange 16).filter fun i => (st.slots i).occupied && (st.slots i).changed).length

/-- The first occupied slot that holds a catalogue entry. -/
def owner (st : Storage) (id : U32) : Option (Fin 16) :=
  (List.finRange 16).find? fun i => (st.slots i).occupied && (st.slots i).id = id

/-- The old slot of the action, if there is one, leaves the portal or comes
back. -/
def setOldPresent (st : Storage) (present : Bool) : Storage :=
  { st with
    slots := fun i =>
      if st.old = some i then { st.slots i with present := present } else st.slots i }

/-- `e12_slots[e12_old].occupied = 0`, if there is an old slot. -/
def releaseOld (st : Storage) : Storage :=
  { st with
    slots := fun i =>
      if st.old = some i then { st.slots i with occupied := false } else st.slots i }

/-- What the start of an action does to the figures. -/
def startAction (st : Storage) (ui : Fin 16) (id : U32) (action : Swap) : Storage :=
  { st with
    old := st.ui ui, actionUi := ui, target := id, action := some action }.setOldPresent false

/-- What `e12_restore` does to the figures. -/
def restore (st : Storage) : Storage := { st.setOldPresent true with action := none }

/-- What the end of a removal does to the figures. -/
def finishRemove (st : Storage) : Storage :=
  let st := st.releaseOld
  { st with ui := Function.update st.ui st.actionUi none, action := none }

/-- The figure in the job buffer, as the contents of a slot. -/
def loadedSlot (st : Storage) (uid : U32) : Slot where
  data := fun i => st.job ⟨32 + i.val, bodyByte_lt i⟩
  id := st.jobSlot
  source := st.jobSource
  sequence := st.jobSequence
  generation := 0
  saved := 0
  lastUid := uid
  seenUid := true
  present := true
  occupied := true

/-- What the end of a load does to the figures. -/
def install (st : Storage) (slot : Fin 16) (uid : U32) : Storage :=
  let st := st.releaseOld
  let st := st.setSlot slot (st.loadedSlot uid)
  { st with ui := Function.update st.ui st.actionUi (some slot), action := none }

/-- A completion takes the result of its job. -/
def taken (st : Storage) : Storage := { st with busy := false }

/-- The catalogue job has succeeded: its entries are counted. -/
def counted (st : Storage) : Storage := { st with count := be32 st.catalog.byte 4 }

/-- A save job has succeeded: its slot is as clean as the snapshot. -/
def saveDone (st : Storage) : Storage :=
  let s := st.slots st.diskSlot
  st.setSlot st.diskSlot { s with saved := st.snapshot, sequence := s.sequence + 1 }

/-- The first loop of `e09_complete` for a load: another occupied slot has the
UID of the figure. -/
def duplicateUid (st : Storage) (uid : U32) : Bool :=
  (List.finRange 16).any fun i =>
    (st.slots i).occupied && some i ≠ st.old && (st.slots i).lastUid = uid

/-- The second loop: the slot for the figure, from the slots still to be looked
at and the one found so far.  It is the one that remembers the UID, else the
first that is free or the old one. -/
def slotSearch (st : Storage) (uid : U32) : List (Fin 16) → Option (Fin 16) →
    Except Int (Option (Fin 16))
  | [], slot => .ok slot
  | i :: is, slot =>
      if (st.slots i).occupied ∧ some i ≠ st.old then
        if (st.slots i).lastUid = uid then .error (-17) else st.slotSearch uid is slot
      else if (st.slots i).seenUid ∧ (st.slots i).lastUid = uid then .ok (some i)
      else st.slotSearch uid is (slot.or (some i))

end Storage

namespace Machine

/-- Change one session. -/
def setSession (m : Machine) (fd : Fin 16) (s : Session) : Machine :=
  { m with sessions := Function.update m.sessions fd s }

/-- `e12_event` -/
def e12Event (m : Machine) (slot : Fin 16) (inserted : Bool) : Machine :=
  { m with sessions := fun fd => (m.sessions fd).e12Event slot inserted }

/-- `e12_event` for the old slot of the action, if there is one. -/
def oldEvent (m : Machine) (inserted : Bool) : Machine :=
  match m.old with
  | some i => m.e12Event i inserted
  | none => m

/-- `e12_restore` -/
def e12Restore (m : Machine) (error : Int) : Machine :=
  { m with toStorage := m.toStorage.restore, error := error }.oldEvent true

/-- The end of `e12_begin`: the action starts. -/
def startAction (m : Machine) (ui : Fin 16) (id : U32) (action : Swap) : Machine :=
  { m with
    toStorage := m.toStorage.startAction ui id action
    removeTick := m.ticks
    error := 0 }.oldEvent false

/-- `e12_begin` -/
def e12Begin (m : Machine) (ui id : U32) (action : Swap) : Int × Machine :=
  if h : ui.toNat < 16 then
    if action = .load ∧ m.count ≤ id then (-4, m)
    else if m.action ≠ none ∨ m.busy then (-8, m)
    else
      match if action = .load then m.owner id else none with
      | some i => (if m.ui ⟨ui.toNat, h⟩ = some i then 0 else -17, m)
      | none => (0, m.startAction ⟨ui.toNat, h⟩ id action)
  else (-4, m)

/-- The end of `e09_complete` for a load. -/
def install (m : Machine) (slot : Fin 16) (uid : U32) : Machine :=
  { m with toStorage := m.toStorage.install slot uid, autoload := false }.e12Event slot true

/-- The success of a load job. -/
def loadDone (m : Machine) : Machine × List Effect :=
  let uid := be32 m.job.byte 32
  if m.duplicateUid uid then (m.e12Restore (-17), [])
  else
    match m.slotSearch uid (List.finRange 16) none with
    | .error e => (m.e12Restore e, [])
    | .ok none => (m.e12Restore (-8), [])
    | .ok (some slot) => (m.install slot uid, [.installed slot])

/-- The first line of `e09_complete`. -/
def takeResult (m : Machine) : Machine :=
  { m with toStorage := m.toStorage.taken, error := m.result, retry := m.ticks }

/-- `e11_count=v4_be32(e11_catalog+4)` -/
def countEntries (m : Machine) : Machine := { m with toStorage := m.toStorage.counted }

/-- The end of `e09_complete`, for a job that has succeeded. -/
def jobDone (m : Machine) : Machine × List Effect :=
  match m.op with
  | .catalog => ((m.countEntries.e12Begin 0 0 .load).2, [])
  | .save => ({ m with toStorage := m.toStorage.saveDone }, [.saved m.diskSlot])
  | .load => m.loadDone

/-- `e09_complete` -/
def e09Complete (m : Machine) : Machine × List Effect :=
  if m.result < 0 then
    (if m.action ≠ none then m.takeResult.e12Restore m.result else m.takeResult, [])
  else m.takeResult.jobDone

end Machine
end VirtualPortal
