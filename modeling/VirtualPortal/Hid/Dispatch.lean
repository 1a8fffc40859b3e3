/-
# The dispatcher and the worker

`plugin/source/hidv4.h`: `v4_ioctl_dispatch`, `v4_close_dispatch` and
`v4_worker`, one store of a shared variable at a time.

IOS calls the dispatcher for each message of a descriptor.  The dispatcher reads
the route flag, and either hands the message to the stock handler or sends it to
the queue of the worker and then, for an ioctl, sets the flag.  The worker takes
the messages from the queue; for a close it zeroes the session, clears the flag
and calls the stock close handler, which acknowledges the message, in three
steps.  The timer and the storage worker post their events at any time.
-/

import VirtualPortal.Hid.MenuRequests

namespace VirtualPortal

/-- A message IOS hands to `v4_ioctl_dispatch` or `v4_close_dispatch`. -/
inductive Arrival where
  | ioctl (msg : Option IpcMessage)
  | close (msg : Option IpcMessage)
deriving DecidableEq

/-- The message of a call. -/
def Arrival.msg : Arrival → Option IpcMessage
  | .ioctl msg | .close msg => msg

/-- Where the dispatcher is: waiting for a message, before a send, or before it sets
the route flag. -/
inductive DispatchPoint where
  | waiting
  | sendIoctl (msg : IpcMessage) (fd : Fin 16)
  | setRoute (fd : Fin 16)
  | sendClose (msg : IpcMessage)
deriving DecidableEq

/-- Where the worker is: waiting for an event, or in a close whose session is zeroed,
or whose route flag is cleared as well. -/
inductive ClosePoint where
  | waiting
  | zeroed (msg : IpcMessage) (fd : Fin 16)
  | unrouted (msg : IpcMessage) (fd : Fin 16)

/-- The two threads and the queue between them. -/
structure Threads where
  hid : Machine
  queue : List Event
  dispatcher : DispatchPoint
  worker : ClosePoint

/-- A step of one of the threads, or of what surrounds them. -/
inductive ThreadStep where
  | arrive (a : Arrival)
  /-- `v4_start` returns `start`, and the send to the queue `send`. -/
  | dispatcher (start send : Int)
  | worker (io : HidIo)
  | post (event : Event)
  | storage (st : Storage)

/-- What happens to a message. -/
inductive RouteEvent where
  /-- The dispatcher hands it to the stock handler. -/
  | stock (a : Arrival)
  /-- The dispatcher has decided to send it to the worker. -/
  | routed (a : Arrival)
  /-- The dispatcher acknowledges it with an error. -/
  | refused (msg : IpcMessage)
  /-- The worker calls `v4_process`. -/
  | processed (msg : IpcMessage)
  /-- The stock close handler acknowledges a close that `v4_process` has carried out. -/
  | closed (msg : IpcMessage)
deriving DecidableEq

namespace Threads

variable (σ : Threads)

/-- The dispatcher is called. -/
def arrive (a : Arrival) : Threads × List RouteEvent :=
  match a with
  | .ioctl msg =>
      match System.portalFd msg with
      | some (m, fd) =>
          if m.command ≠ iosIoctl ∨ (¬ σ.hid.route fd ∧ ¬ v4VersionRequest m) then (σ, [.stock a])
          else ({ σ with dispatcher := .sendIoctl m fd }, [.routed a])
      | none => (σ, [.stock a])
  | .close msg =>
      match System.portalFd msg with
      | some (m, fd) =>
          if ¬ σ.hid.route fd then (σ, [.stock a])
          else ({ σ with dispatcher := .sendClose m }, [.routed a])
      | none => (σ, [.stock a])

/-- The dispatcher goes on with its message. -/
def dispatch (start send : Int) : Threads × List RouteEvent :=
  match σ.dispatcher with
  | .waiting => (σ, [])
  | .sendIoctl m fd =>
      if start < 0 ∨ send < 0 then ({ σ with dispatcher := .waiting }, [.refused m])
      else
        ({ σ with queue := σ.queue ++ [.request (some m)], dispatcher := .setRoute fd }, [])
  | .setRoute fd =>
      ({ σ with
        hid := { σ.hid with route := Function.update σ.hid.route fd true }
        dispatcher := .waiting }, [])
  | .sendClose m =>
      if send < 0 then ({ σ with dispatcher := .waiting }, [.refused m])
      else ({ σ with queue := σ.queue ++ [.request (some m)], dispatcher := .waiting }, [])

/-- The worker takes a request from the queue. -/
def process (mem : Mem) (msg : Option IpcMessage) (queue : List Event) :
    Threads × List RouteEvent :=
  match msg with
  | none => ({ σ with queue := queue }, [])
  | some msg =>
      if h : msg.fd.toNat < 16 ∧ msg.command = iosClose then
        ({ σ with
          hid := σ.hid.setSession ⟨msg.fd.toNat, h.1⟩ .zero
          queue := queue
          worker := .zeroed msg ⟨msg.fd.toNat, h.1⟩ }, [.processed msg])
      else
        ({ σ with hid := (σ.hid.v4Process mem (some msg)).1, queue := queue }, [.processed msg])

/-- The worker goes on. -/
def work (io : HidIo) : Threads × List RouteEvent :=
  match σ.worker with
  | .zeroed msg fd =>
      ({ σ with
        hid := { σ.hid with route := Function.update σ.hid.route fd false }
        worker := .unrouted msg fd }, [])
  | .unrouted msg _ => ({ σ with worker := .waiting }, [.closed msg])
  | .waiting =>
      match σ.queue with
      | [] => (σ, [])
      | .tick :: queue =>
          ({ σ with hid := (σ.hid.v4Tick io.line io.send).1, queue := queue }, [])
      | .complete :: queue => ({ σ with hid := σ.hid.e09Complete.1, queue := queue }, [])
      | .request msg :: queue => σ.process io.mem msg queue

/-- One step.  The timer and the storage worker post no request. -/
def step : ThreadStep → Threads × List RouteEvent
  | .arrive a => σ.arrive a
  | .dispatcher start send => σ.dispatch start send
  | .worker io => σ.work io
  | .post event =>
      match event with
      | .request _ => (σ, [])
      | _ => ({ σ with queue := σ.queue ++ [event] }, [])
  | .storage st => ({ σ with hid := { σ.hid with toStorage := st } }, [])

/-- The worker has been started, and no message has arrived. -/
def start (io : StartIo) : Threads := ⟨(Machine.zero.e09Start io).1, [], .waiting, .waiting⟩

/-- The three steps of a close are what `v4_process` does. -/
theorem close_steps (σ : Threads) {msg : IpcMessage} {queue : List Event} (io io' io'' : HidIo)
    (hworker : σ.worker = .waiting) (hqueue : σ.queue = .request (some msg) :: queue)
    (hfd : msg.fd.toNat < 16) (hclose : msg.command = iosClose) :
    Run.final step σ [.worker io, .worker io', .worker io''] =
      { σ with hid := (σ.hid.v4Process io.mem (some msg)).1, queue := queue } := by
  have hprocess : σ.process io.mem (some msg) queue =
      ({ σ with
        hid := σ.hid.setSession ⟨msg.fd.toNat, hfd⟩ .zero
        queue := queue
        worker := .zeroed msg ⟨msg.fd.toNat, hfd⟩ }, [.processed msg]) := by
    unfold process
    dsimp only
    rw [dif_pos ⟨hfd, hclose⟩]
  have hfirst : (σ.step (.worker io)).1 = (σ.process io.mem (some msg) queue).1 := by
    show (σ.work io).1 = _
    unfold work
    rw [hworker, hqueue]
  rw [Run.final_cons, hfirst, hprocess, σ.hid.v4Process_close hfd hclose]
  obtain ⟨hid, events, dispatcher, worker⟩ := σ
  cases hworker
  rfl

end Threads

end VirtualPortal
