/-
# The HID worker, event by event

`Machine.hidStep` is one event of the HID worker: a request given to
`v4_process`, a tick, the completion of a disk job, or a change of the variables
it shares with the storage worker and the dispatchers.  Every step of the whole
system is one such event for the worker (`System.step_hid`).

A tick is the poll followed by the delivery of the reads that are due, one
`Session.v4Tick` for each session.
-/

import VirtualPortal.Hid.Requests

namespace VirtualPortal

/-- An event of the HID worker. -/
inductive HidEvent where
  | process (mem : Mem) (msg : Option IpcMessage)
  | tick (line : RequestLine) (send : Int)
  | complete
  | outside (st : Storage) (route : Fin 16 → Bool)

namespace HidEvent

/-- The message an event gives to `v4_process`. -/
def given : HidEvent → Option IpcMessage
  | .process _ msg => msg
  | _ => none

/-- The event is a successful GETVERSION, a shutdown or a close of `fd`. -/
def Resets (fd : Fin 16) (e : HidEvent) : Prop :=
  ∃ mem msg, e = .process mem (some msg) ∧ msg.fd.toNat = fd.val ∧ VirtualPortal.Resets msg

/-- The event is an accepted cancel of the interrupt-IN endpoint of `fd`. -/
def CancelsRead (fd : Fin 16) (e : HidEvent) : Prop :=
  ∃ mem msg, e = .process mem (some msg) ∧ msg.fd.toNat = fd.val ∧ VirtualPortal.CancelsRead mem msg

end HidEvent

namespace Machine

/-- One event. -/
def hidStep (m : Machine) : HidEvent → Machine × List Effect
  | .process mem msg => m.v4Process mem msg
  | .tick line send => m.v4Tick line send
  | .complete => m.e09Complete
  | .outside st route => ({ m with toStorage := st, route := route }, [])

/-- The machine between the poll and the deliveries of a tick. -/
def polled (m : Machine) (line : RequestLine) (send : Int) : Machine :=
  ({ m with ticks := m.ticks + 1 }.e09Poll line send).1

section Tick

variable (m : Machine) (line : RequestLine) (send : Int)

/-- A poll leaves the reads and replies of every session. -/
theorem polled_sameIo (fd : Fin 16) : (m.sessions fd).SameIo ((m.polled line send).sessions fd) :=
  e09Poll_sameIo { m with ticks := m.ticks + 1 } line send fd

/-- After the poll a tick is one of each session. -/
theorem sessions_v4Tick (fd : Fin 16) :
    (m.v4Tick line send).1.sessions fd =
      (((m.polled line send).sessions fd).v4Tick (m.polled line send).ticks).1 := rfl

/-- The effects of a tick: quiet ones of the poll, then the deliveries. -/
theorem v4Tick_effects :
    ∃ quiet : List Effect, (∀ e ∈ quiet, e.Quiet) ∧
      (m.v4Tick line send).2 = quiet ++ (List.finRange 16).flatMap fun fd =>
        (((m.polled line send).sessions fd).v4Tick (m.polled line send).ticks).2 :=
  ⟨_, e09Poll_quiet { m with ticks := m.ticks + 1 } line send, rfl⟩

end Tick

end Machine

/-- A session delivers its read, or does nothing. -/
theorem Session.v4Tick_cases (s : Session) (ticks : U32) :
    s.v4Tick ticks = (s, []) ∨
      ∃ msg, s.read = some msg ∧ 0 ≤ (ticks - s.due).toInt ∧ s.v4Tick ticks = s.deliver msg := by
  unfold Session.v4Tick
  cases hread : s.read with
  | none => exact Or.inl rfl
  | some msg =>
      dsimp only
      split_ifs with hdue
      · exact Or.inr ⟨msg, rfl, hdue, rfl⟩
      · exact Or.inl rfl

/-- A delivery empties `read` and leaves the change request and the replies. -/
theorem Session.deliver_keeps (s : Session) (msg : IpcMessage) :
    (s.deliver msg).1.read = none ∧ (s.deliver msg).1.change = s.change ∧
      (s.deliver msg).1.fifo = s.fifo ∧ (s.deliver msg).1.head = s.head ∧
      (s.deliver msg).1.count = s.count ∧ (s.deliver msg).1.active = s.active := by
  have hcommit (s : Session) : s.e12StatusCommit.read = s.read ∧
    s.e12StatusCommit.change = s.change ∧
      s.e12StatusCommit.fifo = s.fifo ∧ s.e12StatusCommit.head = s.head ∧
      s.e12StatusCommit.count = s.count ∧ s.e12StatusCommit.active = s.active := by
    unfold Session.e12StatusCommit
    dsimp only
    split_ifs <;> exact ⟨rfl, rfl, rfl, rfl, rfl, rfl⟩
  unfold Session.deliver
  dsimp only
  split_ifs
  · exact hcommit _
  · exact ⟨rfl, rfl, rfl, rfl, rfl, rfl⟩
  · exact hcommit _
  · exact ⟨rfl, rfl, rfl, rfl, rfl, rfl⟩

/-- A step of another party touches the shared variables at most: no figure, no
session, and no packet. -/
theorem System.step_outside (σ : System) {a : Action} (ha : ∀ io, a ≠ .hid io) :
    ∃ st route, (σ.step a).1.hid = (σ.hid.hidStep (.outside st route)).1 ∧
      st.slots = σ.hid.slots ∧ ∀ fd, deliveredTo fd (σ.step a).2 = [] := by
  cases a with
  | hid io => exact absurd rfl (ha io)
  | timer => exact ⟨σ.hid.toStorage, σ.hid.route, rfl, rfl, fun _ => rfl⟩
  | ioctl msg send =>
      show ∃ st route, (σ.v4IoctlDispatch msg send).1.hid = _ ∧ _ ∧
        ∀ fd, deliveredTo fd (σ.v4IoctlDispatch msg send).2 = []
      unfold System.v4IoctlDispatch
      split
      · split_ifs <;> exact ⟨σ.hid.toStorage, _, rfl, rfl, fun _ => rfl⟩
      · exact ⟨σ.hid.toStorage, σ.hid.route, rfl, rfl, fun _ => rfl⟩
  | close msg send =>
      show ∃ st route, (σ.v4CloseDispatch msg send).1.hid = _ ∧ _ ∧
        ∀ fd, deliveredTo fd (σ.v4CloseDispatch msg send).2 = []
      unfold System.v4CloseDispatch
      split
      · split_ifs <;> exact ⟨σ.hid.toStorage, σ.hid.route, rfl, rfl, fun _ => rfl⟩
      · exact ⟨σ.hid.toStorage, σ.hid.route, rfl, rfl, fun _ => by cases msg <;> rfl⟩
  | receive =>
      unfold System.step
      dsimp only
      split <;> exact ⟨σ.hid.toStorage, σ.hid.route, rfl, rfl, fun _ => rfl⟩
  | run io =>
      unfold System.step
      dsimp only
      split
      · next event _ =>
          refine ⟨(σ.hid.e11Worker σ.disk event io).1, σ.hid.route, rfl, ?_, fun _ => rfl⟩
          cases event <;> rfl
      · exact ⟨σ.hid.toStorage, σ.hid.route, rfl, rfl, fun _ => rfl⟩
  | completed send =>
      unfold System.step
      dsimp only
      split <;> exact ⟨σ.hid.toStorage, σ.hid.route, rfl, rfl, fun _ => rfl⟩

/-- The HID worker handles the next event of its queue. -/
theorem System.step_event {σ : System} {event : Event} {events : List Event}
    (hevents : σ.events = event :: events) (io : HidIo) :
    σ.step (.hid io) =
      ({ σ with
        hid := (σ.hid.v4Worker event io).1
        events := events
        jobs := σ.jobs ++ submitted (σ.hid.v4Worker event io).2 },
        (σ.hid.v4Worker event io).2) := by
  simp only [System.step, hevents]

/-- For the HID worker every step of the system is one event. -/
theorem System.step_hid (σ : System) (a : Action) :
    ∃ e : HidEvent, (σ.step a).1.hid = (σ.hid.hidStep e).1 ∧
      ((∃ io, a = .hid io) → (σ.step a).2 = (σ.hid.hidStep e).2) := by
  by_cases ha : ∃ io, a = .hid io
  · obtain ⟨io, rfl⟩ := ha
    cases hevents : σ.events with
    | nil =>
        refine ⟨.outside σ.hid.toStorage σ.hid.route, ?_, fun _ => ?_⟩ <;>
          simp only [System.step, hevents] <;> rfl
    | cons event events =>
        rw [System.step_event hevents]
        cases event with
        | tick => exact ⟨.tick io.line io.send, rfl, fun _ => rfl⟩
        | complete => exact ⟨.complete, rfl, fun _ => rfl⟩
        | request msg => exact ⟨.process io.mem msg, rfl, fun _ => rfl⟩
  · obtain ⟨st, route, hhid, -⟩ := σ.step_outside fun io h => ha ⟨io, h⟩
    exact ⟨.outside st route, hhid, fun h => absurd h ha⟩

/-- A request submits no disk job. -/
theorem Handled.submitted {m : Machine} {fd : Fin 16} {mem : Mem} {msg : IpcMessage} {t : Session}
    {out : List Effect} (h : Handled m fd mem msg t out) : VirtualPortal.submitted out = [] := by
  have happend (out out' : List Effect) : VirtualPortal.submitted (out ++ out') =
      VirtualPortal.submitted out ++ VirtualPortal.submitted out' := List.filterMap_append
  have hanswered {s : Session} {answer : List Effect} (h : s.Answered msg answer) :
      VirtualPortal.submitted answer = [] := by
    rcases h with ⟨r, rfl⟩ | ⟨rfl, -⟩ <;> rfl
  cases h with
  | answer answer hanswer => exact hanswered hanswer
  | command reply t wrote answer _ _ _ hwrote hanswer =>
      rw [happend, hanswered hanswer]
      rcases hwrote with rfl | ⟨slot, rfl⟩ <;> rfl
  | reset _ t last _ _ _ _ hlast =>
      rw [happend]
      unfold Session.cancelEffects
      rcases hlast with rfl | ⟨r, rfl⟩ <;>
        cases (m.sessions fd).read <;> cases (m.sessions fd).change <;> rfl
  | _ => rfl

theorem submitted_process (m : Machine) (mem : Mem) (msg : Option IpcMessage) :
    submitted (m.v4Process mem msg).2 = [] := by
  cases msg with
  | none => rfl
  | some msg =>
      by_cases hlt : msg.fd.toNat < 16
      · exact (m.v4Process_handled ⟨msg.fd.toNat, hlt⟩ mem msg rfl).1.submitted
      · rw [m.v4Process_no_fd mem msg (by omega)]
        rfl

/-- Only the HID worker submits disk jobs. -/
theorem System.submitted_outside (σ : System) {a : Action} (ha : ∀ io, a ≠ .hid io) :
    submitted (σ.step a).2 = [] := by
  cases a with
  | hid io => exact absurd rfl (ha io)
  | timer => rfl
  | ioctl msg send =>
      show submitted (σ.v4IoctlDispatch msg send).2 = []
      unfold System.v4IoctlDispatch
      split
      · split_ifs <;> rfl
      · rfl
  | close msg send =>
      show submitted (σ.v4CloseDispatch msg send).2 = []
      unfold System.v4CloseDispatch
      split
      · split_ifs <;> rfl
      · cases msg <;> rfl
  | receive =>
      unfold System.step
      dsimp only
      split <;> rfl
  | run io =>
      unfold System.step
      dsimp only
      split <;> rfl
  | completed send =>
      unfold System.step
      dsimp only
      split <;> rfl

/-! ### Requests of a game -/

/-- An ioctl of descriptor 0 with `lengthIn` bytes of input at address 0x100. -/
def portalRequest (ptr command lengthIn : U32) : IpcMessage :=
  ⟨ptr, iosIoctl, 0, ⟨command, 0x100, lengthIn, 0, 0⟩⟩

/-- Memory that holds `bytes` at address 0x100. -/
def memoryAt (bytes : List U8) : Mem := fun p => bytes.getD (p - 0x100).toNat 0

/-- The input of an interrupt-IN read of 32 bytes to address 0x2000. -/
def readHeader : List U8 :=
  List.replicate 20 0 ++ [0, 0, 0, 0x81, 0, 0, 0, 32, 0, 0, 0x20, 0]

namespace HidEvent

/-- GETVERSION, as the message object at `ptr`. -/
def version (ptr : U32) : HidEvent := .process (memoryAt []) (some (portalRequest ptr 6 0))

/-- `SET_REPORT` with the command `R`. -/
def ready (ptr : U32) : HidEvent :=
  .process (memoryAt (List.replicate 20 0 ++
    [0x21, 9, 2, 0, 0, 0, 0, 2, 0, 0, 1, 0x20, letter 'R'])) (some (portalRequest ptr 2 32))

/-- An interrupt-IN read. -/
def readIn (ptr : U32) : HidEvent := .process (memoryAt readHeader) (some (portalRequest ptr 3 32))

/-- The cancel of the interrupt-IN endpoint. -/
def cancelIn (ptr : U32) : HidEvent :=
  .process (memoryAt [0, 0, 0, 0, 0x81, 0, 0, 0]) (some (portalRequest ptr 8 8))

end HidEvent

/-- The version, one command and the read of its reply. -/
def firstRead : List HidEvent := [.version 1, .ready 2, .readIn 3]

end VirtualPortal
