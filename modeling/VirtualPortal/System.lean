/-
# The two workers and their queues

The HID worker (`v4_worker` of `plugin/source/hidv4.h`) takes timer ticks,
completions of disk jobs and IPC requests from one queue, the storage worker
(`e11_worker` of `plugin/source/e12_storage.h`) takes jobs from another.  They
share the variables of `Storage` without a lock.

A step of the system is the timer posting a tick, the IPC thread of IOS
dispatching a request, the HID worker handling its next event, or one of the
three steps of the storage worker: take a job, run it, send the completion.
Both queues are FIFO and a send that fails enqueues nothing.  What the calls of
a step return, the request line and the memory of the caller are arguments of
the step.
-/

import VirtualPortal.Hid.Process
import VirtualPortal.Storage.Journal
import VirtualPortal.Lib.Run

namespace VirtualPortal

/-- The entries of the HID worker's queue: `V4_TICK`, `2` and requests. -/
inductive Event where
  | tick
  | complete
  | request (msg : Option IpcMessage)
deriving DecidableEq

/-- What surrounds one event of the HID worker: the memory it reads, the request
line, and the result of sending to the storage worker. -/
structure HidIo where
  mem : Mem
  line : RequestLine
  send : Int

/-- The job `event` of `e11_worker`, on the card. -/
def Storage.e11Worker (st : Storage) (d : Disk) (event : DiskOp) (io : JobIo) : Storage × Disk :=
  match event with
  | .catalog =>
      let r := e11CatalogLoad d io st.catalog st.compact
      ({ st with result := r.result, catalog := r.catalog, compact := r.compact }, d)
  | .load =>
      let r := e11Load d st.jobSlot st.jobSource io st.job st.check st.jobSequence
      ({ st with result := r.result, job := r.job, check := r.check, jobSequence := r.sequence }, d)
  | .save =>
      let (r, d) := e11Save d st.jobSlot st.jobSource io st.job st.check st.jobSequence
      ({ st with result := r.result, job := r.job, check := r.check, jobSequence := r.sequence }, d)

namespace Machine

/-- The loop body of `v4_worker`. -/
def v4Worker (m : Machine) (event : Event) (io : HidIo) : Machine × List Effect :=
  match event with
  | .tick => m.v4Tick io.line io.send
  | .complete => m.e09Complete
  | .request msg => m.v4Process io.mem msg

end Machine

/-- Where `e11_worker` is in its loop. -/
inductive WorkerState where
  | waiting
  | running (event : DiskOp)
  | finished
deriving DecidableEq

/-- The workers, their queues and the card. -/
structure System where
  hid : Machine
  disk : Disk
  events : List Event
  jobs : List DiskOp
  worker : WorkerState

/-- A step of the system. -/
inductive Action where
  | timer
  | ioctl (msg : Option IpcMessage) (send : Int)
  | close (msg : Option IpcMessage) (send : Int)
  | hid (io : HidIo)
  | receive
  | run (io : JobIo)
  | completed (send : Int)

/-- The disk jobs among the effects of a step. -/
def submitted (out : List Effect) : List DiskOp :=
  out.filterMap fun
    | .submit op => some op
    | _ => none

namespace System

/-- The file descriptor of a request the virtual portal looks at. -/
def portalFd (msg : Option IpcMessage) : Option (IpcMessage × Fin 16) :=
  msg.bind fun msg => if h : msg.fd.toNat < 16 then some (msg, ⟨msg.fd.toNat, h⟩) else none

/-- `v4_ioctl_dispatch`, once the worker has been started. -/
def v4IoctlDispatch (σ : System) (msg : Option IpcMessage) (send : Int) : System × List Effect :=
  match portalFd msg with
  | some (msg, fd) =>
      if msg.command ≠ iosIoctl ∨ (¬ σ.hid.route fd ∧ ¬ v4VersionRequest msg) then
        (σ, [.stockIoctl])
      else if send < 0 then (σ, [.ack msg send])
      else
        ({ σ with
          events := σ.events ++ [.request (some msg)]
          hid := { σ.hid with route := Function.update σ.hid.route fd true } }, [])
  | none => (σ, [.stockIoctl])

/-- `v4_close_dispatch` -/
def v4CloseDispatch (σ : System) (msg : Option IpcMessage) (send : Int) : System × List Effect :=
  match portalFd msg with
  | some (msg, fd) =>
      if ¬ σ.hid.route fd then (σ, [.stockClose msg])
      else if send < 0 then (σ, [.ack msg send])
      else ({ σ with events := σ.events ++ [.request (some msg)] }, [])
  | none => (σ, msg.toList.map .stockClose)

/-- One step. -/
def step (σ : System) : Action → System × List Effect
  | .timer => ({ σ with events := σ.events ++ [.tick] }, [])
  | .ioctl msg send => σ.v4IoctlDispatch msg send
  | .close msg send => σ.v4CloseDispatch msg send
  | .hid io =>
      match σ.events with
      | [] => (σ, [])
      | event :: events =>
          let (m, out) := σ.hid.v4Worker event io
          ({ σ with hid := m, events := events, jobs := σ.jobs ++ submitted out }, out)
  | .receive =>
      match σ.worker, σ.jobs with
      | .waiting, event :: jobs => ({ σ with jobs := jobs, worker := .running event }, [])
      | _, _ => (σ, [])
  | .run io =>
      match σ.worker with
      | .running event =>
          let (st, d) := σ.hid.e11Worker σ.disk event io
          ({ σ with hid := { σ.hid with toStorage := st }, disk := d, worker := .finished }, [])
      | _ => (σ, [])
  | .completed send =>
      match σ.worker with
      | .finished =>
          ({ σ with
            events := if send < 0 then σ.events else σ.events ++ [.complete]
            worker := .waiting }, [])
      | _ => (σ, [])

/-- The system after `e09_start`. -/
def init (d : Disk) (io : StartIo) : System :=
  let (m, out) := Machine.zero.e09Start io
  { hid := m, disk := d, events := [], jobs := submitted out, worker := .waiting }

end System
end VirtualPortal
