/-
# What a request can do

The branches of `v4_process`, `v4_transfer` and `v4_control`, each stated once: the
outcome with the guards under which the code reaches it.  `TransferStep`, `IoctlStep`
and `ProcessStep` list them, `v4Transfer_step`, `v4Ioctl_step` and `v4Process_step` say
that the lists are complete.  What is said of every request is proved from the lists,
one case for an outcome.
-/

import VirtualPortal.Hid.Process

namespace VirtualPortal
namespace Machine

/-- What `v4_transfer` can do: nothing, a portal command, or a read that is accepted. -/
inductive TransferStep (m : Machine) (fd : Fin 16) (mem : Mem) (msg : IpcMessage) :
    Machine × List Effect → Prop
  | refused : TransferStep m fd mem msg (m, [])
  | command (hcommand : msg.ioctl.command = 2)
      (hbuffers : msg.ioctl.bufferIn ≠ 0 ∧ msg.ioctl.lengthIn = 32 ∧ msg.ioctl.lengthIo = 0)
      (hdevice : be32 (mem.bytesAt msg.ioctl.bufferIn) 16 = 0)
      (data : ℕ → U8) (c : PortalCommand) (ok : Int) :
      TransferStep m fd mem msg (m.runCommand fd data c ok).2
  | read (data : U32) (hfree : (m.sessions fd).read = none)
      (hlength : be32 (mem.bytesAt msg.ioctl.bufferIn) 24 = 32)
      (haddress : v4Physical (be32 (mem.bytesAt msg.ioctl.bufferIn) 28)
        (be32 (mem.bytesAt msg.ioctl.bufferIn) 24) = data)
      (hchecked : data ≠ 0) :
      TransferStep m fd mem msg (m.startRead fd msg data, [])

/-- What the `switch` of `v4_process` can do. -/
inductive IoctlStep (m : Machine) (fd : Fin 16) (mem : Mem) (msg : IpcMessage) :
    Machine × List Effect → Prop
  | answer (r : Int) : IoctlStep m fd mem msg (m, [.ack msg r])
  | status (address : U32) (bytes : List U8) :
      IoctlStep m fd mem msg (m, [.write address bytes, .ack msg 0])
  | version (hversion : v4VersionRequest msg = true) :
      IoctlStep m fd mem msg (m.setSession fd m.versionSession,
        (m.sessions fd).cancelEffects ++ [.ack msg 0x40001])
  | discover (address : U32) (bytes : List U8) :
      IoctlStep m fd mem msg (m.setSession fd { m.sessions fd with discovered := true },
        [.write address bytes, .ack msg 0])
  | park (hchange : (m.sessions fd).change = none) :
      IoctlStep m fd mem msg (m.setSession fd { m.sessions fd with change := some msg }, [])
  | transfer {out : Machine × List Effect} (r : Int) (h : m.TransferStep fd mem msg out) :
      IoctlStep m fd mem msg (out.1,
        if (out.1.sessions fd).read.map IpcMessage.ptr = some msg.ptr then out.2
        else out.2 ++ [.ack msg r])
  | shutdown (hcommand : msg.ioctl.command = 7) (hin : msg.ioctl.lengthIn = 0)
      (hio : msg.ioctl.lengthIo = 0) :
      IoctlStep m fd mem msg
        (m.setSession fd { (m.sessions fd).v4Cancel.1 with active := false },
          (m.sessions fd).cancelEffects ++ [.ack msg 0])
  | cancel (req : IpcMessage) (hcommand : msg.ioctl.command = 8)
      (hbuffers : msg.ioctl.bufferIn ≠ 0 ∧ msg.ioctl.lengthIn = 8 ∧ msg.ioctl.lengthIo = 0)
      (hdevice : be32 (mem.bytesAt msg.ioctl.bufferIn) 0 = 0)
      (hendpoint : mem.bytesAt msg.ioctl.bufferIn 4 = 0x81)
      (hread : (m.sessions fd).read = some req) :
      IoctlStep m fd mem msg (m.setSession fd { m.sessions fd with read := none },
        [.ack req (-7022), .ack msg 0])

/-- What `v4_process` can do with a request. -/
inductive ProcessStep (m : Machine) (mem : Mem) (msg : IpcMessage) : Machine × List Effect → Prop
  | answer (r : Int) : ProcessStep m mem msg (m, [.ack msg r])
  | close (fd : Fin 16) (hfd : msg.fd.toNat = fd.val) (hclose : msg.command = iosClose) :
      ProcessStep m mem msg
        ({ m.setSession fd .zero with route := Function.update m.route fd false },
          (m.sessions fd).cancelEffects ++ [.stockClose msg])
  | ioctl (fd : Fin 16) (hfd : msg.fd.toNat = fd.val) (hioctl : msg.command = iosIoctl)
      {out : Machine × List Effect} (h : m.IoctlStep fd mem msg out) : ProcessStep m mem msg out

section Steps

variable (m : Machine) (fd : Fin 16) (mem : Mem) (msg : IpcMessage)

/-- A control transfer takes one of its steps. -/
theorem v4Control_step (hcommand : msg.ioctl.command = 2)
    (hbuffers : msg.ioctl.bufferIn ≠ 0 ∧ msg.ioctl.lengthIn = 32 ∧ msg.ioctl.lengthIo = 0)
    (hdevice : be32 (mem.bytesAt msg.ioctl.bufferIn) 16 = 0) (h : ℕ → U8) :
    m.TransferStep fd mem msg (m.v4Control fd mem h).2 := by
  unfold v4Control
  dsimp only
  split
  · exact .refused
  split
  · exact .refused
  split
  · exact .refused
  split
  · exact .refused
  split
  · exact .refused
  split
  · exact .refused
  · exact .command hcommand hbuffers hdevice _ _ _

/-- A transfer takes one of its steps. -/
theorem v4Transfer_step : m.TransferStep fd mem msg (m.v4Transfer fd mem msg).2 := by
  unfold v4Transfer
  dsimp only
  split
  · exact .refused
  next hbuffers =>
  push Not at hbuffers
  split
  · exact .refused
  next hdevice =>
  split
  · next hcommand => exact m.v4Control_step fd mem msg hcommand hbuffers (not_not.mp hdevice) _
  split
  · exact .refused
  split
  · exact .refused
  next hlength =>
  split
  · exact .refused
  next hchecked =>
  split
  · split <;> exact .refused
  split
  · exact .refused
  · next hfree =>
      refine .read _ ?_ (not_not.mp hlength) rfl hchecked
      simpa using fun h => hfree (Or.inr h)

/-- A device-change request takes one of the steps of an ioctl. -/
theorem deviceChange_step : m.IoctlStep fd mem msg (m.deviceChange fd msg) := by
  unfold deviceChange
  dsimp only
  split
  · exact .answer _
  split
  · exact .answer _
  next hchange =>
  split
  · exact .park (by simpa using hchange)
  · exact .discover _ _

/-- A cancel of an endpoint takes one of the steps of an ioctl. -/
theorem cancelEndpoint_step (hcommand : msg.ioctl.command = 8) :
    m.IoctlStep fd mem msg (m.cancelEndpoint fd mem msg) := by
  unfold cancelEndpoint
  dsimp only
  split
  · exact .answer _
  next hbuffers =>
  split
  · exact .answer _
  next hdevice =>
  split
  · exact .answer _
  split
  · next req hread =>
      push Not at hbuffers
      split_ifs at hread with hendpoint
      exact .cancel req hcommand hbuffers (not_not.mp hdevice) hendpoint hread
  · exact .answer _

/-- Every ioctl takes one of its steps. -/
theorem v4Ioctl_step : m.IoctlStep fd mem msg (m.v4Ioctl fd mem msg) := by
  unfold v4Ioctl
  dsimp only
  split
  · split
    · exact .answer _
    · exact .status _ _
  split
  · split
    · next hversion => exact .version hversion
    · exact .answer _
  split
  · exact m.deviceChange_step fd mem msg
  split
  · exact .answer _
  split
  · have h := IoctlStep.transfer (m.v4Transfer fd mem msg).1 (m.v4Transfer_step fd mem msg)
    split_ifs at h ⊢ <;> exact h
  split
  · next hcommand =>
      split
      · exact .answer _
      · next hbuffers =>
          push Not at hbuffers
          exact .shutdown hcommand hbuffers.1 hbuffers.2
  split
  · next hcommand => exact m.cancelEndpoint_step fd mem msg hcommand
  · exact .answer _

/-- Every message takes one of its steps. -/
theorem v4Process_step : m.ProcessStep mem msg (m.v4Process mem (some msg)) := by
  unfold v4Process
  dsimp only
  split
  · next hfd =>
      split
      · next hclose => exact .close ⟨msg.fd.toNat, hfd⟩ rfl hclose
      split
      · exact .answer _
      · next hioctl => exact .ioctl ⟨_, hfd⟩ rfl (not_not.mp hioctl) (m.v4Ioctl_step _ mem msg)
  · exact .answer _

end Steps
end Machine
end VirtualPortal
