/-
# The HIDv5 portal

`plugin/source/main.c`: the handlers that take the place of the entry points of
IOS57, once all of them are installed.  Six of them take an ioctl request each, the
control and the interrupt handler take requests with two vectors.

A handler acknowledges what it does not accept with `-4`; what it accepts is a
predicate of its own here (`Hidv5Handler.accepts`).  The counters and copies of the
diagnostic snapshot are left out.
-/

import VirtualPortal.Hid.Process

namespace VirtualPortal

/-- `IOS_IOCTLV` -/
def iosIoctlv : U32 := 7

/-- `PORTAL_DEVICE_ID` -/
def portalDeviceId : U32 := 0x001f0021

/-- One vector of a request. -/
structure Ioctlv where
  data : U32
  len : U32
deriving DecidableEq

/-- A request with vectors; `vector` holds the first two, `none` for a null pointer. -/
structure IoctlvMessage where
  command : U32
  ioctlv : U32
  numIn : U32
  numIo : U32
  vector : Option (Ioctlv × Ioctlv)
deriving DecidableEq

/-- The variables of `main.c` that the handlers share. -/
structure Hidv5 where
  portalResumed : U8
  portalActivated : U8
  activationResponsePending : Bool
  resetResponsePending : Bool
  statusCounter : U8
  getdevicechangeInitialDelivered : Bool
deriving DecidableEq

/-- The variables as `main` leaves them. -/
def Hidv5.zero : Hidv5 := ⟨0, 0, false, false, 0, false⟩

/-- What a handler does to the outside. -/
inductive HandlerEffect where
  /-- Bytes written to a buffer of the caller and synchronised. -/
  | write (addr : U32) (bytes : List U8)
  /-- `os_message_queue_ack` -/
  | ack (result : Int)
deriving DecidableEq

/-- The bytes of big-endian words. -/
def beWords (words : List U32) : List U8 :=
  words.flatMap fun w => (List.range 4).map (Bytes.be32Byte w)

/-! ### The ioctl handlers -/

/-- The handlers of ioctl requests. -/
inductive Hidv5Handler where
  | getversion
  | getdevicechange
  | getdevparams
  | attachfinish
  | suspendResume
  | cancelEndpoint
deriving DecidableEq

namespace Hidv5Handler

/-- `IOCTL_USBV5_…`, the command of a handler's requests. -/
def command : Hidv5Handler → U32
  | getversion => 0
  | getdevicechange => 1
  | getdevparams => 3
  | attachfinish => 6
  | suspendResume => 16
  | cancelEndpoint => 17

/-- The lengths, buffers and contents a handler accepts, after its command. -/
def valid (mem : Mem) (io : Ioctl) : Hidv5Handler → Bool
  | getversion => io.lengthIn = 0 && io.lengthIo = 0x20 && io.bufferIo ≠ 0
  | getdevicechange => io.lengthIn = 0 && io.lengthIo = 0x180 && io.bufferIo ≠ 0
  | getdevparams =>
      io.lengthIn = 0x20 && io.lengthIo = 0x60 && io.bufferIn ≠ 0 && io.bufferIo ≠ 0 &&
        be32 (mem.bytesAt io.bufferIn) 0 = portalDeviceId
  | attachfinish => io.lengthIn = 0 && io.lengthIo = 0 && io.bufferIn = 0 && io.bufferIo = 0
  | suspendResume =>
      io.lengthIn = 0x20 && io.lengthIo = 0 && io.bufferIn ≠ 0 && io.bufferIo = 0 &&
        be32 (mem.bytesAt io.bufferIn) 0 = portalDeviceId && mem.bytesAt io.bufferIn 11 ≤ 1
  | cancelEndpoint =>
      io.lengthIn = 0x20 && io.lengthIo = 0 && io.bufferIn ≠ 0 && io.bufferIo = 0 &&
        be32 (mem.bytesAt io.bufferIn) 0 = portalDeviceId &&
          (mem.bytesAt io.bufferIn 8 = 1 || mem.bytesAt io.bufferIn 8 = 2)

/-- A handler accepts a request. -/
def accepts (mem : Mem) (m : IpcMessage) (h : Hidv5Handler) : Bool :=
  m.command = iosIoctl && m.ioctl.command = h.command && h.valid mem m.ioctl

end Hidv5Handler

namespace Hidv5

variable (σ : Hidv5)

/-- `getversion_handler` -/
def getversionHandler (mem : Mem) (m : IpcMessage) : List HandlerEffect :=
  if Hidv5Handler.getversion.accepts mem m then
    [.write m.ioctl.bufferIo ([0, 5, 0, 1] ++ List.replicate 28 0), .ack 0]
  else [.ack (-4)]

/-- `getdevicechange_handler`: the first accepted request is answered with the portal,
later ones are not acknowledged. -/
def getdevicechangeHandler (mem : Mem) (message : Option IpcMessage) :
    Hidv5 × List HandlerEffect :=
  match message with
  | none => (σ, [])
  | some m =>
      if Hidv5Handler.getdevicechange.accepts mem m then
        if ¬ σ.getdevicechangeInitialDelivered then
          ({ σ with getdevicechangeInitialDelivered := true },
            [.write m.ioctl.bufferIo (beWords [0x001f0021, 0x14300150, 0x00210001] ++
              List.replicate (0x180 - 12) 0), .ack 1])
        else (σ, [])
      else (σ, [.ack (-4)])

/-- `getdevparams_handler` -/
def getdevparamsHandler (mem : Mem) (message : Option IpcMessage) : List HandlerEffect :=
  match message with
  | none => []
  | some m =>
      if Hidv5Handler.getdevparams.accepts mem m then
        [.write m.ioctl.bufferIo (beWords
          [portalDeviceId, 1, 0, 0, 0, 0, 0, 0, 0, 0x12010002, 0x40, 0x30145001, 0x00010102,
            0x00010000, 0x09020029, 0x01010080, 0xfa000000, 0x09040000, 0x02030000, 0,
            0x07058103, 0x00400001, 0x07050203, 0x00400001]), .ack 0]
      else [.ack (-4)]

/-- `attachfinish_handler` -/
def attachfinishHandler (mem : Mem) (message : Option IpcMessage) : List HandlerEffect :=
  match message with
  | none => []
  | some m => if Hidv5Handler.attachfinish.accepts mem m then [.ack 0] else [.ack (-4)]

/-- `suspend_resume_handler` -/
def suspendResumeHandler (mem : Mem) (message : Option IpcMessage) : Hidv5 × List HandlerEffect :=
  match message with
  | none => (σ, [])
  | some m =>
      if Hidv5Handler.suspendResume.accepts mem m then
        ({ σ with portalResumed := mem.bytesAt m.ioctl.bufferIn 11 }, [.ack 0])
      else (σ, [.ack (-4)])

/-- `cancel_endpoint_handler` -/
def cancelEndpointHandler (mem : Mem) (message : Option IpcMessage) : List HandlerEffect :=
  match message with
  | none => []
  | some m => if Hidv5Handler.cancelEndpoint.accepts mem m then [.ack 0] else [.ack (-4)]

/-- An entry point is called with a request. -/
def handle (mem : Mem) (m : IpcMessage) : Hidv5Handler → Hidv5 × List HandlerEffect
  | .getversion => (σ, getversionHandler mem m)
  | .getdevicechange => σ.getdevicechangeHandler mem (some m)
  | .getdevparams => (σ, getdevparamsHandler mem (some m))
  | .attachfinish => (σ, attachfinishHandler mem (some m))
  | .suspendResume => σ.suspendResumeHandler mem (some m)
  | .cancelEndpoint => (σ, cancelEndpointHandler mem (some m))

/-- A request that writes a buffer and answers otherwise is not refused. -/
theorem ack_not_mem {addr : U32} {bytes : List U8} {r : Int} (hr : r ≠ -4) :
    HandlerEffect.ack (-4) ∉ [.write addr bytes, .ack r] := by
  simp [hr.symm]

/-- A handler acknowledges with `-4` what it does not accept, and nothing else. -/
theorem ack_iff_not_accepts (mem : Mem) (m : IpcMessage) (h : Hidv5Handler) :
    .ack (-4) ∈ (σ.handle mem m h).2 ↔ h.accepts mem m = false := by
  cases hacc : h.accepts mem m
  · refine iff_of_true ?_ rfl
    cases h <;> simp [handle, getversionHandler, getdevicechangeHandler, getdevparamsHandler,
      attachfinishHandler, suspendResumeHandler, cancelEndpointHandler, hacc]
  · refine iff_of_false ?_ nofun
    cases h with
    | getversion =>
        rw [handle, getversionHandler, if_pos hacc]
        exact ack_not_mem (by decide)
    | getdevicechange =>
        rw [handle, getdevicechangeHandler, if_pos hacc]
        split_ifs
        · exact List.not_mem_nil
        · exact ack_not_mem (by decide)
    | getdevparams =>
        rw [handle, getdevparamsHandler, if_pos hacc]
        exact ack_not_mem (by decide)
    | attachfinish => simp [handle, attachfinishHandler, hacc]
    | suspendResume => simp [handle, suspendResumeHandler, hacc]
    | cancelEndpoint => simp [handle, cancelEndpointHandler, hacc]

/-! ### The transfers -/

/-- `write_activation_response` -/
def writeActivationResponse (out : Ioctlv) : Hidv5 × List HandlerEffect × Int :=
  ({ σ with activationResponsePending := false },
    [.write out.data ([letter 'A', σ.portalActivated, 0xff, 0x77] ++
      List.replicate (out.len.toNat - 4) 0)], out.len.toNat)

/-- `write_reset_response` -/
def writeResetResponse (out : Ioctlv) : Hidv5 × List HandlerEffect × Int :=
  ({ σ with resetResponsePending := false },
    [.write out.data (beWords [0x52013d00, 0, 0, 0, 0, 0, 0, 0])], out.len.toNat)

/-- `write_status_response` -/
def writeStatusResponse (out : Ioctlv) : Hidv5 × List HandlerEffect × Int :=
  ({ σ with statusCounter := σ.statusCounter + 1 },
    [.write out.data (beWords [0x53000000,
      σ.statusCounter.setWidth 32 <<< 16 ||| σ.portalActivated.setWidth 32 <<< 8,
      0, 0, 0, 0, 0, 0])], out.len.toNat)

/-- `interrupt_transfer_handler`, on a message that is not null.  A transfer with one
vector of each kind is a read, one with two input vectors a write. -/
def interruptTransferHandler (mem : Mem) (m : IoctlvMessage) : Hidv5 × List HandlerEffect :=
  let (σ', effects, result) : Hidv5 × List HandlerEffect × Int :=
    match m.vector with
    | none => (σ, [], -4)
    | some (header, out) =>
        let h := mem.bytesAt header.data
        let data := mem.bytesAt out.data
        let portal := be32 h 0 = portalDeviceId ∧ σ.portalResumed ≠ 0
        if m.command ≠ iosIoctlv ∨ m.ioctlv ≠ 19 ∨
            ¬ ((m.numIn = 1 ∧ m.numIo = 1) ∨ (m.numIn = 2 ∧ m.numIo = 0)) then (σ, [], -4)
        else if header.data = 0 ∨ header.len ≠ 0x40 ∨ out.data = 0 ∨ out.len ≠ 0x20 then
          (σ, [], -4)
        else if m.numIn = 1 ∧ portal ∧ be32 h 8 = 0 ∧ σ.resetResponsePending then
          σ.writeResetResponse out
        else if m.numIn = 1 ∧ portal ∧ be32 h 8 = 0 ∧ σ.activationResponsePending then
          σ.writeActivationResponse out
        else if m.numIn = 1 ∧ portal ∧ be32 h 8 = 0 then σ.writeStatusResponse out
        else if m.numIn = 2 ∧ portal ∧ be32 h 8 ≠ 0 ∧ data 0 = letter 'L' ∧ data 1 ≤ 2 then
          (σ, [], out.len.toNat)
        else (σ, [], -4)
  (σ', effects ++ [.ack result])

/-- `control_transfer_handler`, on a message that is not null. -/
def controlTransferHandler (mem : Mem) (m : IoctlvMessage) : Hidv5 × List HandlerEffect :=
  match m.vector with
  | none => (σ, [.ack (-4)])
  | some (header, out) =>
      let h := mem.bytesAt header.data
      let data := mem.bytesAt out.data
      if m.command ≠ iosIoctlv ∨ m.ioctlv ≠ 18 ∨ m.numIn ≠ 2 ∨ m.numIo ≠ 0 then
        (σ, [.ack (-4)])
      else if header.data = 0 ∨ header.len ≠ 0x40 ∨ out.data = 0 ∨ out.len < 2 ∨
          0x20 < out.len then (σ, [.ack (-4)])
      else if be32 h 0 = portalDeviceId ∧ σ.portalResumed ≠ 0 ∧ h 8 = 0x21 ∧ h 9 = 9 ∧
          h 10 = 2 ∧ h 11 = data 0 ∧ h 12 = 0 ∧ h 13 = 0 ∧
          (((data 0 = letter 'A' ∧ data 1 ≤ 1) ∨ data 0 = letter 'R') ∧
              (out.len = 2 ∨ out.len = 0x20) ∨
            data 0 = letter 'C' ∧ (out.len = 4 ∨ out.len = 0x20)) then
        (if data 0 = letter 'R' then { σ with portalActivated := 0, resetResponsePending := true }
          else if data 0 = letter 'A' then
            { σ with portalActivated := data 1, activationResponsePending := true }
          else σ, [.ack (out.len.toNat + 8)])
      else (σ, [.ack (-4)])

end Hidv5
end VirtualPortal
