/-
# Requests and ticks

`plugin/source/hidv4.h`: `v4_version_request`, `v4_process` and `v4_tick`.

Every request is acknowledged while it is processed, but for two: an accepted
interrupt-IN read is parked in `read` until it is due, and a second
device-change request is parked in `change` until the session is cancelled.
-/

import VirtualPortal.Hid.Control
import VirtualPortal.Storage.Poll

namespace VirtualPortal

/-- `IOS_CLOSE` -/
def iosClose : U32 := 2

/-- `IOS_IOCTL` -/
def iosIoctl : U32 := 6

/-- The captured HIDv4 descriptors. -/
def v4Entry : List U8 :=
  [0, 0, 0, 0x44, 0, 0, 0, 0,
    0x12, 1, 2, 0, 0, 0, 0, 0x40, 0x14, 0x30, 1, 0x50, 1, 0, 1, 2, 0, 1, 0, 0,
    9, 2, 0, 0x29, 1, 1, 0, 0x80, 0xfa, 0, 0, 0,
    9, 4, 0, 0, 2, 3, 0, 0, 0, 0, 0, 0,
    7, 5, 0x81, 3, 0, 0x40, 1, 0,
    7, 5, 2, 3, 0, 0x40, 1, 0,
    0xff, 0xff, 0xff, 0xff]

/-- `v4_version_request` -/
def v4VersionRequest (msg : IpcMessage) : Bool :=
  msg.ioctl.command = 6 && msg.ioctl.lengthIn = 0 &&
    (msg.ioctl.lengthIo = 0 || msg.ioctl.lengthIo = 32 && msg.ioctl.bufferIo ≠ 0)

namespace Machine

/-- The session of a successful GETVERSION. -/
def versionSession (m : Machine) : Session :=
  { Session.zero with active := true, figureAdded := (m.slots 0).present }.e12Announce
    fun i => (m.slots i).present

/-- The first device-change request of a session is answered with the
descriptors, the next one is parked. -/
def deviceChange (m : Machine) (fd : Fin 16) (msg : IpcMessage) : Machine × List Effect :=
  let s := m.sessions fd
  if msg.ioctl.lengthIn ≠ 0 ∨ msg.ioctl.bufferIo = 0 ∨ msg.ioctl.lengthIo ≠ 0x600 then
    (m, [.ack msg (-4)])
  else if s.change.isSome then (m, [.ack msg (-8)])
  else if s.discovered then (m.setSession fd { s with change := some msg }, [])
  else
    (m.setSession fd { s with discovered := true },
      [.write msg.ioctl.bufferIo (v4Entry ++ List.replicate (0x600 - 72) 0), .ack msg 0])

/-- Ioctl 8: cancel an endpoint. -/
def cancelEndpoint (m : Machine) (fd : Fin 16) (mem : Mem) (msg : IpcMessage) :
    Machine × List Effect :=
  let p := mem.bytesAt msg.ioctl.bufferIn
  if msg.ioctl.bufferIn = 0 ∨ msg.ioctl.lengthIn ≠ 8 ∨ msg.ioctl.lengthIo ≠ 0 then
    (m, [.ack msg (-4)])
  else if be32 p 0 ≠ 0 then (m, [.ack msg (-6)])
  else if p 4 ≠ 0x81 ∧ p 4 ≠ 2 then (m, [.ack msg (-4)])
  else
    match (if p 4 = 0x81 then (m.sessions fd).read else none) with
    | some r =>
        (m.setSession fd { m.sessions fd with read := none }, [.ack r (-7022), .ack msg 0])
    | none => (m, [.ack msg 0])

/-- The `switch` of `v4_process`. -/
def v4Ioctl (m : Machine) (fd : Fin 16) (mem : Mem) (msg : IpcMessage) : Machine × List Effect :=
  let cmd := msg.ioctl.command
  if cmd = 0xe900 then
    if msg.ioctl.lengthIn ≠ 0 ∨ msg.ioctl.lengthIo ≠ 32 ∨ msg.ioctl.bufferIo = 0 then
      (m, [.ack msg (-4)])
    else (m, [.write msg.ioctl.bufferIo (List.ofFn m.e09Status), .ack msg 0])
  else if cmd = 6 then
    if v4VersionRequest msg then
      (m.setSession fd m.versionSession, (m.sessions fd).cancelEffects ++ [.ack msg 0x40001])
    else (m, [.ack msg (-4)])
  else if cmd = 0 then m.deviceChange fd msg
  else if cmd = 1 then (m, [.ack msg 0])
  else if cmd = 2 ∨ cmd = 3 ∨ cmd = 4 then
    let (r, m, effects) := m.v4Transfer fd mem msg
    if (m.sessions fd).read.map IpcMessage.ptr = some msg.ptr then (m, effects)
    else (m, effects ++ [.ack msg r])
  else if cmd = 7 then
    if msg.ioctl.lengthIn ≠ 0 ∨ msg.ioctl.lengthIo ≠ 0 then (m, [.ack msg (-4)])
    else
      let (s, effects) := (m.sessions fd).v4Cancel
      (m.setSession fd { s with active := false }, effects ++ [.ack msg 0])
  else if cmd = 8 then m.cancelEndpoint fd mem msg
  else (m, [.ack msg (-4)])

/-- `v4_process` -/
def v4Process (m : Machine) (mem : Mem) (msg : Option IpcMessage) : Machine × List Effect :=
  match msg with
  | none => (m, [])
  | some msg =>
      if h : msg.fd.toNat < 16 then
        let fd : Fin 16 := ⟨msg.fd.toNat, h⟩
        if msg.command = iosClose then
          ({ m.setSession fd .zero with route := Function.update m.route fd false },
            (m.sessions fd).cancelEffects ++ [.stockClose msg])
        else if msg.command ≠ iosIoctl then (m, [.ack msg (-4)])
        else m.v4Ioctl fd mem msg
      else (m, [.ack msg (-4)])

end Machine

namespace Session

/-- The delivery of a read that is due, in `v4_tick`. -/
def deliver (s : Session) (msg : IpcMessage) : Session × List Effect :=
  let s := { s with read := none }
  let s := if s.pendingStatus then { s.v4Status.1 with response := s.v4Status.2 } else s
  let s := { s with pendingStatus := false }
  (if s.response 0 = letter 'S' then s.e12StatusCommit else s,
    [.deliver msg s.readData s.response])

/-- The loop body of `v4_tick`. -/
def v4Tick (s : Session) (ticks : U32) : Session × List Effect :=
  match s.read with
  | some msg => if 0 ≤ (ticks - s.due).toInt then s.deliver msg else (s, [])
  | none => (s, [])

end Session

namespace Machine

/-- The loop of `v4_tick`. -/
def deliverReads (m : Machine) : Machine × List Effect :=
  ({ m with sessions := fun fd => ((m.sessions fd).v4Tick m.ticks).1 },
    (List.finRange 16).flatMap fun fd => ((m.sessions fd).v4Tick m.ticks).2)

/-- `v4_tick` -/
def v4Tick (m : Machine) (line : RequestLine) (send : Int) : Machine × List Effect :=
  let (m, polled) := { m with ticks := m.ticks + 1 }.e09Poll line send
  let (m, delivered) := m.deliverReads
  (m, polled ++ delivered)

end Machine
end VirtualPortal
