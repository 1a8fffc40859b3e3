/-
# Portal sessions

`plugin/source/hidv4.h` (`v4_session`, `v4_status`, `v4_push`, `v4_cancel`) and
the session half of `plugin/source/e12_storage.h` (`e12_event`, `e12_announce`,
`e12_status_packet`, `e12_status_commit`), in the build with `E09_STORAGE`,
`E11_MENU` and `E12_MENU` defined.

One session belongs to each of the 16 file descriptors.  It queues up to eight
command replies, holds at most one pending interrupt-IN read and one pending
device-change request, and keeps for each portal slot the status the game has
been given and a queue of transitions still to be shown: one nibble per
transition, next one lowest, each nibble the status plus 4.

| queue | statuses shown, in order |
| --- | --- |
| `0x57` | added (3), present (1) |
| `0x46` | removed (2), absent (0) |
| `0x574` | absent, added, present |
| `0x5746` | removed, absent, added, present |
-/

import VirtualPortal.Lib.Bytes
import VirtualPortal.Lib.Ring

namespace VirtualPortal

/-- The memory IOS reads requests and payloads from. -/
abbrev Mem := U32 → U8

/-- The bytes a pointer points at. -/
def Mem.bytesAt (mem : Mem) (p : U32) : ℕ → U8 := fun i => mem (p + BitVec.ofNat 32 i)

/-- The `ioctl` part of a request; a buffer is an address, `0` for none. -/
structure Ioctl where
  command : U32
  bufferIn : U32
  lengthIn : U32
  bufferIo : U32
  lengthIo : U32
deriving DecidableEq

/-- An IPC request.  `ptr` is the address of the message object itself. -/
structure IpcMessage where
  ptr : U32
  command : U32
  fd : U32
  ioctl : Ioctl
deriving DecidableEq

/-- The revision word and the reply and name buffers of one mailbox publication. -/
structure Publication where
  revision : U32
  reply : Bytes 416
  name : Bytes 64

/-- The operations of the storage worker (`e11_op`: 1, 2, 3). -/
inductive DiskOp where
  | catalog
  | load
  | save
deriving DecidableEq

/-- What a step of the HID worker does to the outside, and the events inside it
that the ledgers over runs count. -/
inductive Effect where
  /-- `os_message_queue_ack` -/
  | ack (m : IpcMessage) (result : Int)
  /-- The stock close handler takes the message. -/
  | stockClose (m : IpcMessage)
  /-- The stock ioctl handler takes the message. -/
  | stockIoctl
  /-- Bytes written to a buffer of the caller and synchronised. -/
  | write (addr : U32) (bytes : List U8)
  /-- A pending read completes: `packet` goes to its buffer and it is
  acknowledged with 32. -/
  | deliver (m : IpcMessage) (addr : U32) (packet : Bytes 32)
  /-- `e11_publish` rewrites the IOS half of the mailbox. -/
  | publish (p : Publication)
  /-- A request of the menu is executed. -/
  | executed (op arg : U32)
  /-- A disk job is enqueued. -/
  | submit (op : DiskOp)
  /-- A reply is queued in the session of `fd`. -/
  | queued (fd : Fin 16) (reply : Bytes 32)
  /-- A `W` command writes a block of a slot. -/
  | wrote (slot : Fin 16)
  /-- A save job of a slot has succeeded. -/
  | saved (slot : Fin 16)
  /-- A loaded figure is put in a slot. -/
  | installed (slot : Fin 16)

/-- `v4_session` -/
structure Session where
  transitions : Fin 16 → U16
  status : Fin 16 → U8
  epoch : U32
  readEpoch : U32
  change : Option IpcMessage
  read : Option IpcMessage
  readData : U32
  due : U32
  response : Bytes 32
  fifo : Fin 8 → Bytes 32
  head : ℕ
  count : ℕ
  discovered : Bool
  active : Bool
  counter : U8
  figureAdded : Bool
  pendingStatus : Bool

namespace Session

/-- `zero_bytes(s, sizeof(*s))` -/
def zero : Session where
  transitions := fun _ => 0
  status := fun _ => 0
  epoch := 0
  readEpoch := 0
  change := none
  read := none
  readData := 0
  due := 0
  response := Bytes.zero 32
  fifo := fun _ => Bytes.zero 32
  head := 0
  count := 0
  discovered := false
  active := false
  counter := 0
  figureAdded := false
  pendingStatus := false

/-- The transition queue of a slot after a figure comes or goes. -/
def eventQueue (q : U16) (inserted : Bool) : U16 :=
  if inserted then
    if q = 4 then 0x574
    else if q = 0x46 then 0x5746 -- finish remove before reinsert
    else 0x57
  else 0x46

/-- `e12_event` for one session. -/
def e12Event (s : Session) (slot : Fin 16) (inserted : Bool) : Session :=
  { s with
    epoch := s.epoch + 1
    transitions := Function.update s.transitions slot (eventQueue (s.transitions slot) inserted) }

/-- `e12_announce`: the session starts over from the slots that are present. -/
def e12Announce (s : Session) (present : Fin 16 → Bool) : Session :=
  { s with
    epoch := s.epoch + 1
    status := fun _ => 0
    transitions := fun i => if present i then 0x57 else 0 }

/-- The status code the next packet shows for a slot. -/
def statusCode (s : Session) (i : Fin 16) : U32 :=
  if s.transitions i ≠ 0 then (s.transitions i &&& 3).setWidth 32 else (s.status i).setWidth 32

/-- Two bits for each slot, slot 0 lowest. -/
def statusWord (s : Session) : U32 :=
  (List.finRange 16).foldl (fun word i => word ||| s.statusCode i <<< (i.val * 2)) 0

/-- What the rescan request does to a session: the slots that are present are
shown as absent and then added again. -/
def rescan (s : Session) (present : Fin 16 → Bool) : Session :=
  { s.e12Announce present with
    transitions := fun i => if present i then 0x574 else (s.e12Announce present).transitions i }

/-- `e12_status_packet`: the counter is put back, delivery counts it. -/
def e12StatusPacket (s : Session) (out : Bytes 32) : Session × Bytes 32 :=
  let counter := s.counter - 1
  let out := out.copy 5 (fun _ => counter) 1
  ({ s with counter := counter, readEpoch := s.epoch },
    out.copy 1 (fun i => (s.statusWord >>> (i * 8)).setWidth 8) 4)

/-- `v4_status`: the status packet of a session as it stands. -/
def v4Status (s : Session) : Session × Bytes 32 :=
  let out := ((Bytes.zero 32).copy 0 (fun _ => 0x53) 1).copy 5 (fun _ => s.counter) 1
  let out := out.copy 6 (fun _ => if s.active then 1 else 0) 1
  e12StatusPacket { s with counter := s.counter + 1 } out

/-- `e12_status_commit`: transitions are consumed when a packet built from them
is delivered, unless an event has edited a queue since. -/
def e12StatusCommit (s : Session) : Session :=
  let s := { s with counter := s.counter + 1 }
  if s.readEpoch ≠ s.epoch then s
  else
    { s with
      status := fun i =>
        if s.transitions i ≠ 0 then (s.transitions i &&& 3).setWidth 8 else s.status i
      transitions := fun i => if s.transitions i ≠ 0 then s.transitions i >>> 4 else 0 }

/-- The queue has places. -/
theorem fifo_pos : 0 < 8 := by decide

/-- `v4_push`: queue a reply, or refuse it when eight are queued. -/
def v4Push (s : Session) (response : Bytes 32) : Int × Session :=
  if s.count = 8 then (-8, s)
  else
    (0, { s with
      fifo := Function.update s.fifo (Ring.index fifo_pos s.head s.count) response
      count := (s.count + 1) % 256 })

/-- The effects of `v4_cancel`: whatever is pending is acknowledged. -/
def cancelEffects (s : Session) : List Effect :=
  (match s.read with
    | some m => [.ack m (-7022)]
    | none => []) ++
  (match s.change with
    | some m => [.write m.ioctl.bufferIo [0xff, 0xff, 0xff, 0xff], .ack m (-1)]
    | none => [])

/-- `v4_cancel` -/
def v4Cancel (s : Session) : Session × List Effect :=
  ({ s with read := none, change := none, head := 0, count := 0, discovered := false },
    s.cancelEffects)

/-- The replies queued for the game, oldest first. -/
def replies (s : Session) : List (Bytes 32) := Ring.contents (by decide) s.fifo s.head s.count

end Session
end VirtualPortal
