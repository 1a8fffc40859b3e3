/-
# The storage poll

`plugin/source/e12_storage.h`: `e11_submit`, `e09_start`, `e12_save_slot`,
`e11_publish`, `e11_mailbox`, `e09_poll` and `e09_status`.

The poll runs at every tick.  Each eighth tick it looks at the request line of
the menu; then, unless a disk job is running, it carries on with the action, or
saves a dirty slot, or retries what has failed.  `send` is what sending to the
queue of the storage worker returns, at the one place in a tick where a job can
be submitted; a negative one enqueues nothing.
-/

import VirtualPortal.Storage.Machine
import VirtualPortal.Storage.Catalog

namespace VirtualPortal

/-- The eight big-endian words of the request line the menu writes. -/
abbrev RequestLine := Fin 8 → U32

/-- What the calls of `e09_start` return. -/
structure StartIo where
  threadId : Int
  priority : Int
  queue : Int
  thread : Int
  resumed : Int
  send : Int

/-- Calls of `e09_start` that succeed. -/
def StartIo.ok : StartIo := ⟨0, 0, 0, 0, 0, 0⟩

namespace Storage

/-- The snapshot of a slot that `e12_save_slot` takes for its job. -/
def takeSnapshot (st : Storage) (i : Fin 16) : Storage :=
  let s := st.slots i
  { st with
    diskSlot := i
    snapshot := s.generation
    job := st.job.copy 32 s.data.byte 1024
    jobSlot := s.id
    jobSource := s.source
    jobSequence := s.sequence }

/-- The load job of the action is for its target. -/
def aimLoad (st : Storage) : Storage :=
  { st with jobSlot := st.target, jobSource := e11SourceHash st.catalog st.compact st.target }

end Storage

namespace Machine

/-- `e11_submit` -/
def e11Submit (m : Machine) (op : DiskOp) (send : Int) : Machine × List Effect :=
  let m := { m with op := op, busy := true }
  if send < 0 then ({ m with busy := false, error := send, retry := m.ticks }, [])
  else (m, [.submit op])

/-- `e09_start` -/
def e09Start (m : Machine) (io : StartIo) : Machine × List Effect :=
  let m := { m with ui := fun _ => none }
  if io.threadId < 0 then ({ m with error := io.threadId }, [])
  else if io.priority < 0 then ({ m with error := io.priority }, [])
  else if io.queue < 0 then ({ m with queue := io.queue, error := io.queue }, [])
  else if io.thread < 0 then ({ m with queue := -1, error := io.thread }, [])
  else if io.resumed < 0 then ({ m with queue := -1, error := io.resumed }, [])
  else { m with queue := io.queue }.e11Submit .catalog io.send

/-- `e12_save_slot` -/
def e12SaveSlot (m : Machine) (i : Fin 16) (send : Int) : Machine × List Effect :=
  { m with toStorage := m.toStorage.takeSnapshot i }.e11Submit .save send

/-- The reply buffer of a publication. -/
def menuReply (m : Machine) : Bytes 416 :=
  let slot := m.ui m.view
  let out := (Bytes.zero 416).putBe32 0 m.requestSeq
  let out := out.putBe32 4 (BitVec.ofInt 32 m.error)
  let out := out.putBe32 8 m.count
  let out := out.putBe32 12 m.page
  let out := out.putBe32 16 (slot.elim 0xffffffff fun i => (m.slots i).id)
  let out := out.putBe32 20 (slot.elim 0 fun i => if (m.slots i).present then 1 else 0)
  let out := out.putBe32 24 (BitVec.ofNat 32 m.e12Dirty)
  let out := out.putBe32 28 (if m.action ≠ none then 2 else if m.busy then 1 else 0)
  (List.range 8).foldl (fun out i =>
    let n := m.page + BitVec.ofNat 32 i
    if n < m.count then e11Label out (32 + i * 48) m.catalog m.compact n else out) out

/-- The name buffer of a publication. -/
def menuName (m : Machine) : Bytes 64 :=
  match m.ui m.view with
  | some i => e11Label (Bytes.zero 64) 0 m.catalog m.compact (m.slots i).id
  | none => Bytes.zero 64

/-- `e11_publish`: the revision is odd while the buffers are written. -/
def e11Publish (m : Machine) : Machine × List Effect :=
  ({ m with revision := m.revision + 2 }, [.publish ⟨m.revision + 2, m.menuReply, m.menuName⟩])

/-- The heartbeat check of `e11_mailbox`; `none` when the menu has been still
for more than 500 ticks. -/
def menuAlive (m : Machine) (heartbeat : U32) : Option Machine :=
  if heartbeat ≠ m.heartbeat then some { m with heartbeat := heartbeat, heartbeatTick := m.ticks }
  else if 500 < m.ticks - m.heartbeatTick then none
  else some m

/-- Loads and removals wait while an action or a disk job is running. -/
def defers (m : Machine) (op : U32) : Bool := (op = 2 || op = 3) && (m.action.isSome || m.busy)

/-- A load or a removal asked for by the menu: position and catalogue id. -/
def menuSwap (m : Machine) (arg : U32) (action : Swap) : Int × Machine :=
  let (r, m) := m.e12Begin (arg >>> 16) (arg &&& 65535) action
  (r, if r = 0 then { m with autoload := false } else m)

/-- The requests of the menu. -/
def menuRequest (m : Machine) (op arg : U32) : Int × Machine :=
  if op = 1 then (0, { m with page := if arg < e11Max then arg / 8 * 8 else 0 })
  else if op = 2 then m.menuSwap arg .load
  else if op = 3 then m.menuSwap arg .remove
  else if op = 4 then
    if h : arg.toNat < 16 then (0, { m with view := ⟨arg.toNat, h⟩ }) else (-4, m)
  else if op = 5 then (0, { m with flush := true, error := 0 })
  else if op = 6 then
    (0, { m with sessions := fun fd => (m.sessions fd).rescan fun i => (m.slots i).present })
  else (-4, m)

/-- A new request is executed. -/
def menuExecute (m : Machine) (seq op arg : U32) : Machine :=
  let (r, m) := { m with requestSeq := seq }.menuRequest op arg
  if r ≠ 0 then { m with error := r } else m

/-- `e11_mailbox` -/
def e11Mailbox (m : Machine) (line : RequestLine) : Machine × List Effect :=
  if ¬ ∃ fd, m.route fd then (m, [])
  else if line 0 ≠ 0x4531324d ∨ line 4 ≠ 0x534b595a then (m, [])
  else
    match m.menuAlive (line 5) with
    | none => (m, [])
    | some m =>
        if line 1 ≠ m.requestSeq ∧ ¬ m.defers (line 2) then
          let (m, published) := (m.menuExecute (line 1) (line 2) (line 3)).e11Publish
          (m, .executed (line 2) (line 3) :: published)
        else m.e11Publish

/-- `e09_poll` while an action runs: the old figure is saved while it is dirty;
250 ticks after the start the action ends or its load is submitted. -/
def pollAction (m : Machine) (action : Swap) (send : Int) : Machine × List Effect :=
  match m.old.filter fun i => (m.slots i).changed with
  | some i => m.e12SaveSlot i send
  | none =>
      if m.ticks - m.removeTick < 250 then (m, [])
      else
        match action with
        | .remove => ({ m with toStorage := m.toStorage.finishRemove }, [])
        | .load => { m with toStorage := m.toStorage.aimLoad }.e11Submit .load send

/-- The end of `e09_poll`: a snapshot of the next dirty slot is saved. -/
def pollSave (m : Machine) (send : Int) : Machine × List Effect :=
  let slot := fun i => m.slots (m.saveCursor + i)
  match (List.finRange 16).find? fun i => (slot i).occupied && (slot i).changed with
  | some i =>
      { m with saveCursor := m.saveCursor + i + 1 }.e12SaveSlot (m.saveCursor + i) send
  | none => ({ m with flush := false }, [])

/-- `e09_poll` after the mailbox. -/
def pollDisk (m : Machine) (send : Int) : Machine × List Effect :=
  if m.busy ∨ m.queue < 0 then (m, [])
  else if m.count = 0 then
    if 500 ≤ m.ticks - m.retry then m.e11Submit .catalog send else (m, [])
  else
    match m.action with
    | some action => m.pollAction action send
    | none =>
        if m.autoload ∧ 500 ≤ m.ticks - m.retry then ((m.e12Begin 0 0 .load).2, [])
        else if (m.error = 0 ∧ m.flush) ∨ 500 ≤ m.ticks - m.retry then m.pollSave send
        else (m, [])

/-- `e09_poll` -/
def e09Poll (m : Machine) (line : RequestLine) (send : Int) : Machine × List Effect :=
  let (m, published) := if m.ticks &&& 7 = 0 then m.e11Mailbox line else (m, [])
  let (m, submitted) := m.pollDisk send
  (m, published ++ submitted)

/-- `e09_status` -/
def e09Status (m : Machine) : Bytes 32 :=
  let out := (Bytes.zero 32).putBe32 0 0x45313231
  let out := out.putBe32 4 m.count
  let out := out.putBe32 8 (BitVec.ofNat 32 m.e12Dirty)
  let out := out.putBe32 20 (BitVec.ofInt 32 m.error)
  let out := out.putBe32 24 (if m.busy then 1 else 0)
  out.putBe32 28 (match m.action with
    | none => 0
    | some .load => 2
    | some .remove => 3)

end Machine
end VirtualPortal
