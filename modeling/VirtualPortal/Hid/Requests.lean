/-
# What an event does to a session

The HID worker handles requests, ticks and completions, one at a time.  Polls and
completions touch a session only where it shows figures (`SameIo`), the delivery
loop of a tick is one `Session.v4Tick` for each session, and a request concerns
the session of its own descriptor alone.  `Handled` lists what it can do there:

| | session | acknowledged |
| --- | --- | --- |
| `answer` | as it was | the request, unless it is parked already |
| `describe` | the descriptors are given out | the request |
| `park` | the request waits in `change` | nothing |
| `command` | a reply is queued | the request |
| `startRead` | the request waits in `read` | nothing |
| `cancel` | the pending read is gone | that read, the request |
| `reset` | nothing is pending or queued | whatever was pending, the request |

`Machine.v4Process_handled` says that the list is complete.
-/

import VirtualPortal.Hid.Figures

namespace VirtualPortal

/-! ### What effects acknowledge, deliver and queue -/

/-- The message an effect acknowledges. -/
def Effect.acked : Effect → Option IpcMessage
  | .ack m _ => some m
  | .stockClose m => some m
  | .deliver m _ _ => some m
  | _ => none

/-- The packet an effect delivers to the descriptor `fd`. -/
def Effect.deliveredTo (fd : Fin 16) : Effect → Option (Bytes 32)
  | .deliver m _ packet => if m.fd.toNat = fd.val then some packet else none
  | _ => none

/-- The reply an effect queues for `fd`. -/
def Effect.queuedFor (fd : Fin 16) : Effect → Option (Bytes 32)
  | .queued fd' reply => if fd' = fd then some reply else none
  | _ => none

/-- The messages acknowledged, oldest first. -/
def acked (out : List Effect) : List IpcMessage := out.filterMap Effect.acked

/-- The packets delivered to `fd`, oldest first. -/
def deliveredTo (fd : Fin 16) (out : List Effect) : List (Bytes 32) :=
  out.filterMap (Effect.deliveredTo fd)

/-- The replies queued for `fd`, oldest first. -/
def queuedFor (fd : Fin 16) (out : List Effect) : List (Bytes 32) :=
  out.filterMap (Effect.queuedFor fd)

/-- An effect that acknowledges, delivers and queues nothing. -/
def Effect.Quiet (e : Effect) : Prop :=
  e.acked = none ∧ (∀ fd, e.deliveredTo fd = none) ∧ ∀ fd, e.queuedFor fd = none

section Observers

variable {fd : Fin 16}

/-- What is acknowledged in two lists of effects. -/
theorem acked_append (out out' : List Effect) : acked (out ++ out') = acked out ++ acked out' :=
  List.filterMap_append

/-- What is delivered in two lists of effects. -/
theorem deliveredTo_append (out out' : List Effect) :
    deliveredTo fd (out ++ out') = deliveredTo fd out ++ deliveredTo fd out' :=
  List.filterMap_append

/-- What is queued in two lists of effects. -/
theorem queuedFor_append (out out' : List Effect) :
    queuedFor fd (out ++ out') = queuedFor fd out ++ queuedFor fd out' :=
  List.filterMap_append

/-- Quiet effects acknowledge nothing. -/
theorem acked_of_quiet {out : List Effect} (h : ∀ e ∈ out, e.Quiet) : acked out = [] :=
  List.filterMap_eq_nil_iff.mpr fun e he => (h e he).1

/-- Quiet effects deliver nothing. -/
theorem deliveredTo_of_quiet {out : List Effect} (h : ∀ e ∈ out, e.Quiet) :
    deliveredTo fd out = [] :=
  List.filterMap_eq_nil_iff.mpr fun e he => (h e he).2.1 fd

/-- Quiet effects queue nothing. -/
theorem queuedFor_of_quiet {out : List Effect} (h : ∀ e ∈ out, e.Quiet) : queuedFor fd out = [] :=
  List.filterMap_eq_nil_iff.mpr fun e he => (h e he).2.2 fd

end Observers

/-- Where there are no effects all are quiet. -/
theorem quiet_nil : ∀ e ∈ ([] : List Effect), e.Quiet := fun _ he => nomatch he

/-! ### Polls and completions -/

/-- `s'` is `s` but for what it shows of the figures. -/
def Session.SameIo (s s' : Session) : Prop :=
  s' = { s with transitions := s'.transitions, status := s'.status, epoch := s'.epoch }

/-- A session with the same reads and replies differs in what it knows of figures. -/
theorem Session.SameIo.eq {s s' : Session} (h : s.SameIo s') :
    s' = { s with transitions := s'.transitions, status := s'.status, epoch := s'.epoch } := h

/-- A change of the figures leaves the reads and replies of every session. -/
theorem FigureChange.sameIo {sane rescans : Prop} {m m' : Machine}
    (h : FigureChange sane rescans m m') (fd : Fin 16) :
    (m.sessions fd).SameIo (m'.sessions fd) := by
  cases h with
  | keep hs => rw [hs]; rfl
  | event slot inserted hs => rw [hs]; rfl
  | rescan _ hs => rw [hs]; rfl

/-- Two such changes of a session are one. -/
theorem Session.SameIo.trans {s t u : Session} (h : s.SameIo t) (h' : t.SameIo u) : s.SameIo u := by
  unfold Session.SameIo at *
  rw [h'] at *
  rw [h]

namespace Machine

section Polls

variable (m : Machine)

/-- Publications and disk jobs are quiet. -/
theorem quiet_publish (p : Publication) : (Effect.publish p).Quiet :=
  ⟨rfl, fun _ => rfl, fun _ => rfl⟩

/-- One quiet effect. -/
theorem quiet_singleton {e : Effect} (h : e.Quiet) : ∀ e' ∈ [e], e'.Quiet := fun e' he => by
  rw [List.mem_singleton.mp he]
  exact h

/-- The effects of a look at the mailbox are quiet. -/
theorem e11Mailbox_quiet (line : RequestLine) : ∀ e ∈ (m.e11Mailbox line).2, e.Quiet := by
  have hpublish (m : Machine) : ∀ e ∈ m.e11Publish.2, e.Quiet :=
    quiet_singleton (quiet_publish _)
  have h := m.e11Mailbox_step line
  generalize m.e11Mailbox line = out at h ⊢
  cases h with
  | idle => exact quiet_nil
  | executes =>
      intro e he
      rcases List.mem_cons.mp he with rfl | he
      · exact ⟨rfl, fun _ => rfl, fun _ => rfl⟩
      · exact hpublish _ e he
  | publishes => exact hpublish _

/-- The effects of a submission are quiet. -/
theorem e11Submit_quiet (op : DiskOp) (send : Int) : ∀ e ∈ (m.e11Submit op send).2, e.Quiet := by
  unfold e11Submit
  dsimp only
  split_ifs
  · exact quiet_nil
  · exact quiet_singleton ⟨rfl, fun _ => rfl, fun _ => rfl⟩

/-- The effects of a poll are quiet. -/
theorem pollDisk_quiet (send : Int) : ∀ e ∈ (m.pollDisk send).2, e.Quiet := by
  have h := m.pollDisk_step send
  generalize m.pollDisk send = out at h ⊢
  cases h with
  | catalog => exact e11Submit_quiet _ _ _
  | saveOld => exact e11Submit_quiet _ _ _
  | load => exact e11Submit_quiet _ _ _
  | save => exact e11Submit_quiet _ _ _
  | _ => exact quiet_nil

/-- The effects of `e09_poll` are quiet. -/
theorem e09Poll_quiet (line : RequestLine) (send : Int) :
    ∀ e ∈ (m.e09Poll line send).2, e.Quiet := by
  unfold e09Poll
  split_ifs
  · intro e he
    exact (List.mem_append.mp he).elim (m.e11Mailbox_quiet line e) (pollDisk_quiet _ send e)
  · exact pollDisk_quiet m send

/-- `e09_poll` leaves the reads and replies of every session. -/
theorem e09Poll_sameIo (line : RequestLine) (send : Int) (fd : Fin 16) :
    (m.sessions fd).SameIo ((m.e09Poll line send).1.sessions fd) := by
  have hdisk (m : Machine) : (m.sessions fd).SameIo ((m.pollDisk send).1.sessions fd) :=
    (m.pollDisk_figures send : FigureChange _ False _ _).sameIo fd
  unfold e09Poll
  split_ifs
  · exact ((m.e11Mailbox_figures line).sameIo fd).trans (hdisk _)
  · exact hdisk m

/-- The effects of `e09_complete` are quiet. -/
theorem e09Complete_quiet : ∀ e ∈ m.e09Complete.2, e.Quiet := by
  have h := m.e09Complete_step
  generalize m.e09Complete = out at h ⊢
  cases h with
  | saved => exact quiet_singleton ⟨rfl, fun _ => rfl, fun _ => rfl⟩
  | installed slot => exact quiet_singleton ⟨rfl, fun _ => rfl, fun _ => rfl⟩
  | _ => exact quiet_nil

/-- `e09_complete` leaves the reads and replies of every session. -/
theorem e09Complete_sameIo (fd : Fin 16) : (m.sessions fd).SameIo (m.e09Complete.1.sessions fd) :=
  (m.e09Complete_figures : FigureChange _ False _ _).sameIo fd

end Polls
end Machine
/-! ### Requests -/

/-- An accepted cancel of the interrupt-IN endpoint. -/
structure CancelsRead (mem : Mem) (msg : IpcMessage) : Prop where
  ioctl : msg.command = iosIoctl ∧ msg.ioctl.command = 8
  buffers : msg.ioctl.bufferIn ≠ 0 ∧ msg.ioctl.lengthIn = 8 ∧ msg.ioctl.lengthIo = 0
  device : be32 (mem.bytesAt msg.ioctl.bufferIn) 0 = 0
  endpoint : mem.bytesAt msg.ioctl.bufferIn 4 = 0x81

/-- A successful GETVERSION, a shutdown or a close. -/
def Resets (msg : IpcMessage) : Prop :=
  msg.command = iosClose ∨ msg.command = iosIoctl ∧ (v4VersionRequest msg = true ∨
    msg.ioctl.command = 7 ∧ msg.ioctl.lengthIn = 0 ∧ msg.ioctl.lengthIo = 0)

namespace Session

/-- The session once a read has taken the oldest reply. -/
def takeReply (s : Session) (msg : IpcMessage) (data due : U32) : Session :=
  { s with
    read := some msg
    readData := data
    pendingStatus := false
    response := s.fifo (Ring.index fifo_pos s.head 0)
    head := (s.head + 1) % 8
    count := s.count - 1
    due := due }

/-- The session once a read has been given a status packet. -/
def takeStatus (s : Session) (msg : IpcMessage) (data due : U32) : Session :=
  let t := { s with read := some msg, readData := data, pendingStatus := false }
  { t.v4Status.1 with response := t.v4Status.2, due := due }

/-- A session that is active already is not activated again. -/
def Activated (s t : Session) : Prop :=
  t = { s with
    transitions := t.transitions, status := t.status, epoch := t.epoch
    active := t.active, figureAdded := t.figureAdded } ∧ (s.active = true → t = s)

/-- A session that is as it was. -/
theorem activated_refl (s : Session) : s.Activated s := ⟨rfl, fun _ => rfl⟩

end Session

/-- A request is acknowledged, unless its message object is the one parked in
`read` already. -/
def Session.Answered (s : Session) (msg : IpcMessage) (out : List Effect) : Prop :=
  (∃ r, out = [.ack msg r]) ∨ out = [] ∧ s.read.map IpcMessage.ptr = some msg.ptr

/-- The effects of a command but for its reply: a block is written, or nothing. -/
def WritesBlock (out : List Effect) : Prop := out = [] ∨ ∃ slot, out = [.wrote slot]

/-- The effect of a write is quiet. -/
theorem WritesBlock.quiet {out : List Effect} (h : WritesBlock out) : ∀ e ∈ out, e.Quiet := by
  rcases h with rfl | ⟨slot, rfl⟩
  · exact quiet_nil
  · exact Machine.quiet_singleton ⟨rfl, fun _ => rfl, fun _ => rfl⟩

/-- What the request `msg` can leave in the session of `fd`, and its effects. -/
inductive Handled (m : Machine) (fd : Fin 16) (mem : Mem) (msg : IpcMessage) :
    Session → List Effect → Prop
  | answer (answer : List Effect) (hanswer : (m.sessions fd).Answered msg answer) :
      Handled m fd mem msg (m.sessions fd) answer
  | describe (addr : U32) (bytes : List U8) (b : Bool) :
      Handled m fd mem msg { m.sessions fd with discovered := b } [.write addr bytes, .ack msg 0]
  | park (hchange : (m.sessions fd).change = none) :
      Handled m fd mem msg { m.sessions fd with change := some msg } []
  | command (reply : Bytes 32) (t : Session) (wrote answer : List Effect)
      (hroom : (m.sessions fd).count ≠ 8) (hreply : reply 0 ≠ letter 'S')
      (ht : ((m.sessions fd).v4Push reply).2.Activated t) (hwrote : WritesBlock wrote)
      (hanswer : (m.sessions fd).Answered msg answer) :
      Handled m fd mem msg t (.queued fd reply :: wrote ++ answer)
  | startReply (data : U32) (hread : (m.sessions fd).read = none)
      (hcount : (m.sessions fd).count ≠ 0) :
      Handled m fd mem msg ((m.sessions fd).takeReply msg data (m.ticks + 11)) []
  | startStatus (data : U32) (hread : (m.sessions fd).read = none)
      (hcount : (m.sessions fd).count = 0) :
      Handled m fd mem msg ((m.sessions fd).takeStatus msg data (m.ticks + 1)) []
  | cancel (req : IpcMessage) (hcancel : CancelsRead mem msg)
      (hread : (m.sessions fd).read = some req) :
      Handled m fd mem msg { m.sessions fd with read := none } [.ack req (-7022), .ack msg 0]
  | reset (hreset : Resets msg) (t : Session) (last : Effect) (hread : t.read = none)
      (hchange : t.change = none) (hcount : t.count = 0)
      (hpending : t.pendingStatus = true → (m.sessions fd).pendingStatus = true)
      (hlast : last = .stockClose msg ∨ ∃ r, last = .ack msg r) :
      Handled m fd mem msg t ((m.sessions fd).cancelEffects ++ [last])

namespace Machine

section Requests

variable (m : Machine) (fd : Fin 16) (mem : Mem) (msg : IpcMessage)

/-- What a transfer can leave in the session of `fd`, and its effects. -/
inductive Transferred : Session → List Effect → Prop
  | refused : Transferred (m.sessions fd) []
  | command (reply : Bytes 32) (t : Session) (wrote : List Effect)
      (hroom : (m.sessions fd).count ≠ 8) (hreply : reply 0 ≠ letter 'S')
      (ht : ((m.sessions fd).v4Push reply).2.Activated t) (hwrote : WritesBlock wrote) :
      Transferred t (.queued fd reply :: wrote)
  | startReply (data : U32) (hread : (m.sessions fd).read = none)
      (hcount : (m.sessions fd).count ≠ 0) :
      Transferred ((m.sessions fd).takeReply msg data (m.ticks + 11)) []
  | startStatus (data : U32) (hread : (m.sessions fd).read = none)
      (hcount : (m.sessions fd).count = 0) :
      Transferred ((m.sessions fd).takeStatus msg data (m.ticks + 1)) []

/-- A response begins with its letter. -/
theorem response_zero (b₀ b₁ b₂ b₃ : U8) : response b₀ b₁ b₂ b₃ 0 = b₀ := rfl

/-- No reply looks like a status packet. -/
theorem commandReply_ne_status {slots : Fin 16 → Slot} {c : PortalCommand} {reply : Bytes 32}
    (h : commandReply slots c = some reply) : reply 0 ≠ letter 'S' := by
  cases c with
  | silent => cases h
  | query slot block =>
      obtain rfl := Option.some.inj h
      split_ifs
      · show letter 'Q' ≠ letter 'S'
        decide
      · rw [response_zero]; decide
  | _ =>
      obtain rfl := Option.some.inj h
      rw [response_zero]; decide

/-- What a command does to the session once its reply is queued. -/
theorem commandApply_session (data : ℕ → U8) (c : PortalCommand) :
    (m.sessions fd).Activated ((m.commandApply fd data c).1.sessions fd) ∧
      WritesBlock (m.commandApply fd data c).2 ∧
      ∀ fd' ≠ fd, (m.commandApply fd data c).1.sessions fd' = m.sessions fd' := by
  cases c with
  | activate b =>
      refine ⟨?_, Or.inl rfl, fun fd' hne => Function.update_of_ne hne _ _⟩
      have hupdate : (m.commandApply fd data (.activate b)).1.sessions fd = _ :=
        Function.update_self ..
      rw [hupdate]
      by_cases hactive : (m.sessions fd).active = true
      · have hsame : { m.sessions fd with active := true } = m.sessions fd :=
          calc { m.sessions fd with active := true }
              = { m.sessions fd with active := (m.sessions fd).active } := by rw [hactive]
            _ = m.sessions fd := rfl
        simp only [hactive, if_true, not_true_eq_false, false_and, if_false, hsame]
        exact Session.activated_refl _
      · refine ⟨?_, fun h => absurd h hactive⟩
        simp only [hactive]
        split_ifs <;> rfl
  | write slot block =>
      refine ⟨?_, ?_, fun fd' _ => ?_⟩
      all_goals unfold commandApply; dsimp only; split_ifs
      · exact Session.activated_refl _
      · exact Session.activated_refl _
      · exact Or.inr ⟨slot, rfl⟩
      · exact Or.inl rfl
      · rfl
      · rfl
  | _ => exact ⟨Session.activated_refl _, Or.inl rfl, fun _ _ => rfl⟩

/-- The session that is set is there. -/
theorem sessions_setSession (s : Session) : (m.setSession fd s).sessions fd = s :=
  Function.update_self ..

/-- Setting a session leaves the others as they are. -/
theorem sessions_setSession_ne {fd' : Fin 16} (hne : fd' ≠ fd) (s : Session) :
    (m.setSession fd s).sessions fd' = m.sessions fd' := Function.update_of_ne hne _ _

/-- A command does what a control transfer may, to its own session. -/
theorem runCommand_transferred (data : ℕ → U8) (c : PortalCommand) (ok : Int) :
    m.Transferred fd msg ((m.runCommand fd data c ok).2.1.sessions fd)
      (m.runCommand fd data c ok).2.2 ∧
      ∀ fd' ≠ fd, (m.runCommand fd data c ok).2.1.sessions fd' = m.sessions fd' := by
  unfold runCommand
  split
  · next hreply =>
      -- only a command without a reply
      cases c with
      | silent => exact ⟨.refused, fun _ _ => rfl⟩
      | _ => cases hreply
  · next reply hreply =>
      by_cases hroom : (m.sessions fd).count = 8
      · rw [Session.v4Push, if_pos hroom]
        exact ⟨.refused, fun _ _ => rfl⟩
      · have hpush : (m.sessions fd).v4Push reply = (0, ((m.sessions fd).v4Push reply).2) := by
          rw [Session.v4Push, if_neg hroom]
        rw [hpush]
        obtain ⟨ht, hwrote, hframe⟩ :=
          commandApply_session (m.setSession fd ((m.sessions fd).v4Push reply).2) fd data c
        rw [sessions_setSession] at ht
        refine ⟨.command reply _ _ hroom (commandReply_ne_status hreply) ht hwrote,
          fun fd' hne => ?_⟩
        exact (hframe fd' hne).trans (m.sessions_setSession_ne fd hne _)

/-- A read that is parked does what an interrupt transfer may. -/
theorem startRead_transferred (data : U32) (hread : (m.sessions fd).read = none) :
    m.Transferred fd msg ((m.startRead fd msg data).sessions fd) [] := by
  unfold startRead
  rw [sessions_setSession]
  dsimp only
  split_ifs with hcount
  · exact .startReply data hread hcount
  · exact .startStatus data hread (not_not.mp hcount)

/-- A transfer is refused, queues a reply, or starts a read. -/
theorem TransferStep.transferred {m : Machine} {fd : Fin 16} {mem : Mem} {msg : IpcMessage}
    {out : Machine × List Effect} (h : m.TransferStep fd mem msg out) :
    m.Transferred fd msg (out.1.sessions fd) out.2 ∧
      ∀ fd' ≠ fd, out.1.sessions fd' = m.sessions fd' := by
  cases h with
  | refused => exact ⟨.refused, fun _ _ => rfl⟩
  | command _ _ _ data c ok => exact m.runCommand_transferred fd msg data c ok
  | read data hfree =>
      exact ⟨m.startRead_transferred fd msg data hfree,
        fun fd' hne => m.sessions_setSession_ne fd hne _⟩

/-- The acknowledgement that ends a transfer, unless the transfer has parked its
request. -/
theorem transfer_handled {t : Session} {out : List Effect} (r : Int)
    (h : m.Transferred fd msg t out) :
    Handled m fd mem msg t
      (if t.read.map IpcMessage.ptr = some msg.ptr then out else out ++ [.ack msg r]) := by
  cases h with
  | refused =>
      split_ifs with hparked
      · exact .answer [] (Or.inr ⟨rfl, hparked⟩)
      · exact .answer _ (Or.inl ⟨r, rfl⟩)
  | command reply t wrote hroom hreply ht hwrote =>
      have hread : t.read = (m.sessions fd).read := by
        rw [ht.1]
        show ((m.sessions fd).v4Push reply).2.read = _
        rw [Session.v4Push, if_neg hroom]
      rw [hread]
      split_ifs with hparked
      · rw [← List.append_nil (Effect.queued fd reply :: wrote)]
        exact .command reply t wrote [] hroom hreply ht hwrote (Or.inr ⟨rfl, hparked⟩)
      · exact .command reply t wrote _ hroom hreply ht hwrote (Or.inl ⟨r, rfl⟩)
  | startReply data hread hcount =>
      have hparked : ((m.sessions fd).takeReply msg data (m.ticks + 11)).read.map IpcMessage.ptr =
        some msg.ptr := rfl
      rw [if_pos hparked]
      exact .startReply data hread hcount
  | startStatus data hread hcount =>
      have hparked : ((m.sessions fd).takeStatus msg data (m.ticks + 1)).read.map IpcMessage.ptr =
        some msg.ptr := rfl
      rw [if_pos hparked]
      exact .startStatus data hread hcount

/-- An ioctl is handled in its own session. -/
theorem IoctlStep.handled {m : Machine} {fd : Fin 16} {mem : Mem} {msg : IpcMessage}
    {out : Machine × List Effect} (hcommand : msg.command = iosIoctl)
    (h : m.IoctlStep fd mem msg out) :
    Handled m fd mem msg (out.1.sessions fd) out.2 ∧
      ∀ fd' ≠ fd, out.1.sessions fd' = m.sessions fd' := by
  have hset {s : Session} {effects : List Effect} (h : Handled m fd mem msg s effects) :
      Handled m fd mem msg ((m.setSession fd s).sessions fd) effects ∧
        ∀ fd' ≠ fd, (m.setSession fd s).sessions fd' = m.sessions fd' :=
    ⟨(m.sessions_setSession fd s).symm ▸ h, fun fd' hne => m.sessions_setSession_ne fd hne s⟩
  cases h with
  | answer r => exact ⟨.answer _ (Or.inl ⟨r, rfl⟩), fun _ _ => rfl⟩
  | status address bytes => exact ⟨.describe address bytes _, fun _ _ => rfl⟩
  | version hversion =>
      exact hset (.reset (Or.inr ⟨hcommand, Or.inl hversion⟩) _ _ rfl rfl rfl nofun
        (Or.inr ⟨_, rfl⟩))
  | discover address bytes => exact hset (.describe address bytes true)
  | park hchange => exact hset (.park hchange)
  | transfer r h =>
      obtain ⟨htransfer, hframe⟩ := h.transferred
      exact ⟨m.transfer_handled fd mem msg r htransfer, hframe⟩
  | shutdown hseven hin hio =>
      exact hset (.reset (Or.inr ⟨hcommand, Or.inr ⟨hseven, hin, hio⟩⟩) _ _ rfl rfl rfl id
        (Or.inr ⟨_, rfl⟩))
  | cancel req height hbuffers hdevice hendpoint hread =>
      exact hset (.cancel req ⟨⟨hcommand, height⟩, hbuffers, hdevice, hendpoint⟩ hread)

/-- A request for the descriptor `fd` does one of the things listed to its
session, and nothing to the others. -/
theorem v4Process_handled (hfd : msg.fd.toNat = fd.val) :
    Handled m fd mem msg ((m.v4Process mem (some msg)).1.sessions fd)
        (m.v4Process mem (some msg)).2 ∧
      ∀ fd' ≠ fd, (m.v4Process mem (some msg)).1.sessions fd' = m.sessions fd' := by
  have h := m.v4Process_step mem msg
  generalize m.v4Process mem (some msg) = out at h ⊢
  cases h with
  | answer r => exact ⟨.answer _ (Or.inl ⟨r, rfl⟩), fun _ _ => rfl⟩
  | close fd' hfd' hclose =>
      obtain rfl : fd' = fd := Fin.ext (hfd'.symm.trans hfd)
      refine ⟨?_, fun fd' hne => m.sessions_setSession_ne _ hne _⟩
      rw [show ({ m.setSession fd' .zero with
        route := Function.update m.route fd' false } : Machine).sessions fd' = .zero from
          m.sessions_setSession fd' .zero]
      exact .reset (Or.inl hclose) _ _ rfl rfl rfl nofun (Or.inl rfl)
  | ioctl fd' hfd' hioctl h =>
      obtain rfl : fd' = fd := Fin.ext (hfd'.symm.trans hfd)
      exact h.handled hioctl

/-- A successful GETVERSION opens a new session. -/
theorem v4Ioctl_version (hversion : v4VersionRequest msg = true) :
    m.v4Ioctl fd mem msg =
      (m.setSession fd m.versionSession, (m.sessions fd).cancelEffects ++ [.ack msg 0x40001]) := by
  have hsix : msg.ioctl.command = 6 := by
    simp only [v4VersionRequest, Bool.and_eq_true, decide_eq_true_eq] at hversion
    exact hversion.1.1
  unfold v4Ioctl
  dsimp only
  rw [if_neg (by rw [hsix]; decide), if_pos hsix, if_pos hversion]

/-- A request for the version cancels what the session holds and starts it anew. -/
theorem v4Process_version (hfd : msg.fd.toNat = fd.val) (hioctl : msg.command = iosIoctl)
    (hversion : v4VersionRequest msg = true) :
    m.v4Process mem (some msg) =
      (m.setSession fd m.versionSession, (m.sessions fd).cancelEffects ++ [.ack msg 0x40001]) := by
  have hlt : msg.fd.toNat < 16 := hfd ▸ fd.isLt
  have hfin : (⟨msg.fd.toNat, hlt⟩ : Fin 16) = fd := Fin.ext hfd
  unfold v4Process
  dsimp only
  rw [dif_pos hlt, hfin, if_neg (by rw [hioctl]; decide), if_neg (not_not.mpr hioctl)]
  exact m.v4Ioctl_version fd mem msg hversion

/-- A successful GETVERSION, a shutdown and a close leave nothing pending. -/
theorem v4Process_reset (hfd : msg.fd.toNat = fd.val) (hreset : Resets msg) :
    ((m.v4Process mem (some msg)).1.sessions fd).read = none ∧
      ((m.v4Process mem (some msg)).1.sessions fd).change = none := by
  have hlt : msg.fd.toNat < 16 := hfd ▸ fd.isLt
  have hfin : (⟨msg.fd.toNat, hlt⟩ : Fin 16) = fd := Fin.ext hfd
  unfold v4Process
  dsimp only
  rw [dif_pos hlt, hfin]
  rcases hreset with hclose | ⟨hioctl, hversion | ⟨hseven, hin, hio⟩⟩
  · rw [if_pos hclose, show ({ m.setSession fd .zero with
      route := Function.update m.route fd false } : Machine).sessions fd = .zero from
        m.sessions_setSession fd .zero]
    exact ⟨rfl, rfl⟩
  · rw [if_neg (by rw [hioctl]; decide), if_neg (not_not.mpr hioctl),
      m.v4Ioctl_version fd mem msg hversion, sessions_setSession]
    exact ⟨rfl, rfl⟩
  · rw [if_neg (by rw [hioctl]; decide), if_neg (not_not.mpr hioctl), v4Ioctl]
    dsimp only
    rw [hseven]
    simp only [show ¬ (7 : U32) = 0xe900 by decide, show ¬ (7 : U32) = 6 by decide,
      show ¬ (7 : U32) = 0 by decide, show ¬ (7 : U32) = 1 by decide,
      show ¬ ((7 : U32) = 2 ∨ (7 : U32) = 3 ∨ (7 : U32) = 4) by decide, if_false, if_true]
    rw [if_neg (by rw [hin, hio]; simp), sessions_setSession]
    exact ⟨rfl, rfl⟩

/-- An accepted cancel takes the pending read, and does nothing else. -/
theorem v4Process_cancel (hfd : msg.fd.toNat = fd.val) (hcancel : CancelsRead mem msg) :
    m.v4Process mem (some msg) =
      match (m.sessions fd).read with
      | some req =>
          (m.setSession fd { m.sessions fd with read := none }, [.ack req (-7022), .ack msg 0])
      | none => (m, [.ack msg 0]) := by
  have hlt : msg.fd.toNat < 16 := hfd ▸ fd.isLt
  have hfin : (⟨msg.fd.toNat, hlt⟩ : Fin 16) = fd := Fin.ext hfd
  obtain ⟨⟨hioctl, height⟩, ⟨hin, hlength, hio⟩, hdevice, hendpoint⟩ := hcancel
  unfold v4Process
  dsimp only
  rw [dif_pos hlt, hfin, if_neg (by rw [hioctl]; decide), if_neg (not_not.mpr hioctl), v4Ioctl]
  dsimp only
  rw [height]
  simp only [show ¬ (8 : U32) = 0xe900 by decide, show ¬ (8 : U32) = 6 by decide,
    show ¬ (8 : U32) = 0 by decide, show ¬ (8 : U32) = 1 by decide,
    show ¬ ((8 : U32) = 2 ∨ (8 : U32) = 3 ∨ (8 : U32) = 4) by decide,
    show ¬ (8 : U32) = 7 by decide, if_false, if_true]
  unfold cancelEndpoint
  dsimp only
  refine (if_neg (by rw [hlength, hio]; simpa using hin)).trans ?_
  refine (if_neg (not_not.mpr hdevice)).trans ?_
  refine (if_neg (by rw [hendpoint]; decide)).trans ?_
  cases (m.sessions fd).read <;> simp only [if_pos hendpoint]

/-- A request for no descriptor is refused. -/
theorem v4Process_no_fd (hfd : 16 ≤ msg.fd.toNat) :
    m.v4Process mem (some msg) = (m, [.ack msg (-4)]) := by
  unfold v4Process
  dsimp only
  rw [dif_neg (by omega)]

end Requests
end Machine
end VirtualPortal
