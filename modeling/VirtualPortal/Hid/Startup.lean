/-
# Starting the workers

`plugin/source/hidv4.h`: `v4_start`, which the dispatcher calls before it hands a request
to the HID worker, and with which the worker, its queue and its timer come into being;
and `plugin/source/e12_storage.h`: what `e09_start`, with which the HID worker begins,
asks of the kernel for the storage worker.

Each queue and each thread works in static memory of the plugin, so no two may be alive
in the same.  A start that fails half-way takes back what it has made, and the next
request tries again; the one that succeeds is the last (`workers_in_order`).
-/

import VirtualPortal.Lib.Handles
import VirtualPortal.Storage.Poll
import VirtualPortal.Lib.Run

namespace VirtualPortal

open Handles

/-- The static memory that a kernel object works in. -/
inductive StaticMemory where
  | v4QueueStorage
  | v4Stack
  | e11QueueMem
  | e11Stack
deriving DecidableEq

/-- A thread on a stack. -/
structure Thread where
  stack : StaticMemory
  running : Bool
deriving DecidableEq

/-- The objects of the plugin that the kernel keeps; a timer posts to a queue. -/
structure Kernel where
  queues : Table StaticMemory
  threads : Table Thread
  timers : Table ℤ
deriving DecidableEq

namespace Kernel

variable (k : Kernel)

def osMessageQueueCreate (h : ℤ) (storage : StaticMemory) : Kernel :=
  { k with queues := opened k.queues h storage }

def osMessageQueueDestroy (h : ℤ) : Kernel := { k with queues := closed k.queues h }

def osThreadCreate (h : ℤ) (stack : StaticMemory) : Kernel :=
  { k with threads := opened k.threads h ⟨stack, false⟩ }

def osThreadCancel (h : ℤ) : Kernel := { k with threads := closed k.threads h }

/-- `os_thread_continue` that returns `r`. -/
def osThreadContinue (h r : ℤ) : Kernel :=
  if r < 0 then k
  else { k with threads := changed k.threads h fun t => { t with running := true } }

def osCreateTimer (h queue : ℤ) : Kernel := { k with timers := opened k.timers h queue }

def osDestroyTimer (h : ℤ) : Kernel := { k with timers := closed k.timers h }

end Kernel

/-- What the calls of `v4_start` return. -/
structure V4StartIo where
  threadId : Int
  priority : Int
  queue : Int
  thread : Int
  timer : Int
  resumed : Int

/-- `v4_queue`, `v4_timer` and `e11_queue`, what the kernel keeps, and whether the HID
worker has begun. -/
structure Startup where
  v4Queue : Int
  v4Timer : Int
  e11Queue : Int
  kernel : Kernel
  begun : Bool

namespace Startup

/-- The plugin is loaded. -/
def zero : Startup := ⟨-1, -1, -1, ⟨[], [], []⟩, false⟩

variable (s : Startup)

/-- `v4_start` -/
def v4Start (io : V4StartIo) : Startup × Int :=
  if 0 ≤ s.v4Queue then (s, 0)
  else if io.threadId < 0 then (s, io.threadId)
  else if io.priority < 0 then (s, io.priority)
  else
    let k := s.kernel.osMessageQueueCreate io.queue .v4QueueStorage
    if io.queue < 0 then ({ s with v4Queue := -1, kernel := k }, io.queue)
    else
      let k := k.osThreadCreate io.thread .v4Stack
      if io.thread < 0 then
        ({ s with v4Queue := -1, kernel := k.osMessageQueueDestroy io.queue }, io.thread)
      else
        let k := k.osCreateTimer io.timer io.queue
        if io.timer < 0 then
          ({ s with
            v4Queue := -1
            v4Timer := io.timer
            kernel := (k.osThreadCancel io.thread).osMessageQueueDestroy io.queue }, io.timer)
        else
          let k := k.osThreadContinue io.thread io.resumed
          if io.resumed < 0 then
            ({ s with
              v4Queue := -1
              v4Timer := -1
              kernel := ((k.osDestroyTimer io.timer).osThreadCancel io.thread).osMessageQueueDestroy
                io.queue }, io.resumed)
          else ({ s with v4Queue := io.queue, v4Timer := io.timer, kernel := k }, 0)

/-- What `e09_start` does to the kernel and to `e11_queue`. -/
def e09Start (io : StartIo) : Startup :=
  if io.threadId < 0 then s
  else if io.priority < 0 then s
  else
    let k := s.kernel.osMessageQueueCreate io.queue .e11QueueMem
    if io.queue < 0 then { s with e11Queue := io.queue, kernel := k }
    else
      let k := k.osThreadCreate io.thread .e11Stack
      if io.thread < 0 then { s with e11Queue := -1, kernel := k.osMessageQueueDestroy io.queue }
      else
        let k := k.osThreadContinue io.thread io.resumed
        if io.resumed < 0 then
          { s with
            e11Queue := -1
            kernel := (k.osThreadCancel io.thread).osMessageQueueDestroy io.queue }
        else { s with e11Queue := io.queue, kernel := k }

/-- A request for which the dispatcher calls `v4_start`, or the first instructions of the
HID worker. -/
inductive Step where
  | dispatch (io : V4StartIo)
  | begin (io : StartIo)

/-- One step; gives what `v4_start` returns. -/
def step : Step → Startup × List Int
  | .dispatch io => ((s.v4Start io).1, [(s.v4Start io).2])
  | .begin io =>
      if 0 ≤ s.v4Queue ∧ s.begun = false then ({ s.e09Start io with begun := true }, [])
      else (s, [])

/-- The kernel gives no handle twice. -/
def Fresh : Step → Prop
  | .dispatch io => Handles.Fresh s.kernel.queues io.queue ∧
      Handles.Fresh s.kernel.threads io.thread ∧
      Handles.Fresh s.kernel.timers io.timer
  | .begin io => Handles.Fresh s.kernel.queues io.queue ∧ Handles.Fresh s.kernel.threads io.thread

instance (s : Startup) : (e : Step) → Decidable (s.Fresh e)
  | .dispatch _ => inferInstanceAs (Decidable (_ ∧ _ ∧ _))
  | .begin _ => inferInstanceAs (Decidable (_ ∧ _))

/-- `e11_queue` is that of the machine. -/
theorem e09Start_machine (m : Machine) (io : StartIo) (h : s.e11Queue = m.queue) :
    (s.e09Start io).e11Queue = (m.e09Start io).1.queue := by
  unfold e09Start Machine.e09Start
  dsimp only
  split_ifs
  · exact h
  · exact h
  · rfl
  · rfl
  · rfl
  · unfold Machine.e11Submit
    split_ifs <;> rfl

/-! ### One start -/

section Cases

variable {s : Startup}

/-- `v4_start` when the worker is there; when a call fails; and when it starts the
worker. -/
theorem v4Start_cases {io : V4StartIo} (hfresh : s.Fresh (.dispatch io)) :
    (0 ≤ s.v4Queue ∧ s.v4Start io = (s, 0)) ∨
      (s.v4Queue < 0 ∧ (s.v4Start io).2 < 0 ∧ (s.v4Start io).1.v4Queue < 0 ∧
        (s.v4Start io).1.kernel = s.kernel ∧ (s.v4Start io).1.e11Queue = s.e11Queue ∧
        (s.v4Start io).1.begun = s.begun) ∨
      (s.v4Queue < 0 ∧ 0 ≤ io.queue ∧ s.v4Start io =
        ({ s with
          v4Queue := io.queue
          v4Timer := io.timer
          kernel :=
            ⟨(io.queue, .v4QueueStorage) :: s.kernel.queues,
              (io.thread, ⟨.v4Stack, true⟩) :: s.kernel.threads,
              (io.timer, io.queue) :: s.kernel.timers⟩ }, 0)) := by
  obtain ⟨hqueues, hthreads, htimers⟩ := hfresh
  unfold v4Start
  by_cases hstarted : 0 ≤ s.v4Queue
  · rw [if_pos hstarted]
    exact Or.inl ⟨hstarted, rfl⟩
  rw [if_neg hstarted]
  have hnone : s.v4Queue < 0 := by omega
  have hlost : (-1 : ℤ) < 0 := by decide
  refine Or.inr ?_
  dsimp only [Kernel.osMessageQueueCreate, Kernel.osThreadCreate, Kernel.osCreateTimer,
    Kernel.osThreadContinue, Kernel.osThreadCancel, Kernel.osMessageQueueDestroy,
    Kernel.osDestroyTimer]
  split_ifs with hid hpriority hqueue hthread htimer hresumed
  · exact Or.inl ⟨hnone, hid, hnone, rfl, rfl, rfl⟩
  · exact Or.inl ⟨hnone, hpriority, hnone, rfl, rfl, rfl⟩
  · refine Or.inl ⟨hnone, hqueue, hlost, ?_, rfl, rfl⟩
    rw [opened_of_neg hqueue]
  · refine Or.inl ⟨hnone, hthread, hlost, ?_, rfl, rfl⟩
    rw [opened_of_neg hthread, closed_opened hqueues (by omega)]
  · refine Or.inl ⟨hnone, htimer, hlost, ?_, rfl, rfl⟩
    rw [opened_of_neg htimer, closed_opened hthreads (by omega), closed_opened hqueues (by omega)]
  · refine Or.inl ⟨hnone, hresumed, hlost, ?_, rfl, rfl⟩
    rw [closed_opened htimers (by omega), closed_opened hthreads (by omega),
      closed_opened hqueues (by omega)]
  · refine Or.inr ⟨hnone, by omega, ?_⟩
    rw [changed_opened hthreads (by omega), opened_of_nonneg (by omega),
      opened_of_nonneg (by omega),
      opened_of_nonneg (by omega)]

/-- `e09_start` when a call fails, and when it starts the worker. -/
theorem e09Start_cases {io : StartIo} (hfresh : s.Fresh (.begin io)) :
    (∃ q, (q = s.e11Queue ∨ q < 0) ∧ s.e09Start io = { s with e11Queue := q }) ∨
      (0 ≤ io.queue ∧ s.e09Start io =
        { s with
          e11Queue := io.queue
          kernel :=
            ⟨(io.queue, .e11QueueMem) :: s.kernel.queues,
              (io.thread, ⟨.e11Stack, true⟩) :: s.kernel.threads, s.kernel.timers⟩ }) := by
  obtain ⟨hqueues, hthreads⟩ := hfresh
  unfold e09Start
  dsimp only [Kernel.osMessageQueueCreate, Kernel.osThreadCreate, Kernel.osThreadContinue,
    Kernel.osThreadCancel, Kernel.osMessageQueueDestroy]
  split_ifs with hid hpriority hqueue hthread hresumed
  · exact Or.inl ⟨_, Or.inl rfl, rfl⟩
  · exact Or.inl ⟨_, Or.inl rfl, rfl⟩
  · refine Or.inl ⟨_, Or.inr hqueue, ?_⟩
    rw [opened_of_neg hqueue]
  · refine Or.inl ⟨-1, Or.inr (by decide), ?_⟩
    rw [opened_of_neg hthread, closed_opened hqueues (by omega)]
  · refine Or.inl ⟨-1, Or.inr (by decide), ?_⟩
    rw [closed_opened hthreads (by omega), closed_opened hqueues (by omega)]
  · refine Or.inr ⟨by omega, ?_⟩
    rw [changed_opened hthreads (by omega), opened_of_nonneg (by omega),
      opened_of_nonneg (by omega)]

end Cases

/-! ### Every run -/

/-- The kernel keeps nothing before the HID worker is there, and then its queue, its
thread and its timer, and the queue and the thread of the storage worker once that is
there; both threads run. -/
structure InOrder : Prop where
  stopped : s.v4Queue < 0 → s.kernel = ⟨[], [], []⟩ ∧ s.begun = false
  unbegun : s.begun = false → s.e11Queue = -1
  queues : 0 ≤ s.v4Queue → s.kernel.queues =
    (if s.e11Queue < 0 then [] else [(s.e11Queue, .e11QueueMem)]) ++ [(s.v4Queue, .v4QueueStorage)]
  threads : 0 ≤ s.v4Queue → s.kernel.threads.map Prod.snd =
    (if s.e11Queue < 0 then [] else [⟨.e11Stack, true⟩]) ++ [⟨.v4Stack, true⟩]
  timers : 0 ≤ s.v4Queue → s.kernel.timers = [(s.v4Timer, s.v4Queue)]

section Runs

variable {s : Startup} {steps : List Step}

theorem InOrder.zero : InOrder .zero where
  stopped _ := ⟨rfl, rfl⟩
  unbegun _ := rfl
  queues h := absurd h (by decide)
  threads h := absurd h (by decide)
  timers h := absurd h (by decide)

/-- A request keeps the order. -/
theorem InOrder.dispatch (h : s.InOrder) {io : V4StartIo} (hfresh : s.Fresh (.dispatch io)) :
    (s.v4Start io).1.InOrder := by
  rcases v4Start_cases hfresh with ⟨-, hsame⟩ | ⟨hnone, -, hqueue, hkernel, he11, hbegun⟩ |
    ⟨hnone, hqueue, hstarted⟩
  · rw [hsame]
    exact h
  · refine ⟨fun _ => ?_, fun hb => ?_, fun hq => ?_, fun hq => ?_, fun hq => ?_⟩
    · rw [hkernel, hbegun]
      exact h.stopped hnone
    · rw [he11]
      exact h.unbegun (hbegun ▸ hb)
    · omega
    · omega
    · omega
  · obtain ⟨hkernel, hbegun⟩ := h.stopped hnone
    have he11 := h.unbegun hbegun
    rw [hstarted, hkernel]
    refine ⟨fun hq => ?_, fun _ => he11, fun _ => ?_, fun _ => ?_, fun _ => rfl⟩
    · dsimp only at hq
      omega
    · dsimp only
      rw [he11]
      rfl
    · dsimp only
      rw [he11]
      rfl

/-- So does the beginning of the HID worker. -/
theorem InOrder.begin (h : s.InOrder) {io : StartIo} (hfresh : s.Fresh (.begin io))
    (hqueue : 0 ≤ s.v4Queue) (hbegun : s.begun = false) :
    InOrder { s.e09Start io with begun := true } := by
  have he11 := h.unbegun hbegun
  rcases e09Start_cases hfresh with ⟨q, hq, hfailed⟩ | ⟨hio, hstarted⟩
  · have hneg : q < 0 := by omega
    have hsame : s.e11Queue < 0 := by omega
    have hqueues := h.queues hqueue
    have hthreads := h.threads hqueue
    rw [if_pos hsame] at hqueues hthreads
    rw [hfailed]
    refine ⟨fun hnone => ?_, fun hb => absurd (show true = false from hb) (by decide),
      fun _ => ?_, fun _ => ?_, h.timers⟩
    · dsimp only at hnone
      omega
    · dsimp only
      rw [if_pos hneg]
      exact hqueues
    · dsimp only
      rw [if_pos hneg]
      exact hthreads
  · have hsame : s.e11Queue < 0 := by omega
    have hqueues := h.queues hqueue
    have hthreads := h.threads hqueue
    rw [if_pos hsame] at hqueues hthreads
    rw [hstarted]
    refine ⟨fun hnone => ?_, fun hb => absurd (show true = false from hb) (by decide),
      fun _ => ?_, fun _ => ?_, h.timers⟩
    · dsimp only at hnone
      omega
    · dsimp only
      rw [if_neg (by omega), hqueues]
      rfl
    · dsimp only
      rw [if_neg (by omega), List.map_cons, hthreads]
      rfl

/-- A step keeps the order, and a worker that is there stays. -/
theorem InOrder.step (h : s.InOrder) {e : Step} (hfresh : s.Fresh e) :
    (s.step e).1.InOrder ∧ (0 ≤ s.v4Queue → (s.step e).1.v4Queue = s.v4Queue ∧
      (s.step e).1.v4Timer = s.v4Timer ∧ ∀ r ∈ (s.step e).2, r = 0) := by
  cases e with
  | dispatch io =>
      refine ⟨h.dispatch hfresh, fun hqueue => ?_⟩
      have hsame : s.v4Start io = (s, 0) := if_pos hqueue
      unfold Startup.step
      dsimp only
      rw [hsame]
      exact ⟨rfl, rfl, fun r hr => List.mem_singleton.mp hr⟩
  | begin io =>
      unfold Startup.step
      dsimp only
      split_ifs with hbegin
      · refine ⟨h.begin hfresh hbegin.1 hbegin.2, fun _ => ?_⟩
        rcases e09Start_cases hfresh with ⟨q, -, he⟩ | ⟨-, he⟩
        · rw [he]
          exact ⟨rfl, rfl, fun r hr => absurd hr List.not_mem_nil⟩
        · rw [he]
          exact ⟨rfl, rfl, fun r hr => absurd hr List.not_mem_nil⟩
      · exact ⟨h, fun _ => ⟨rfl, rfl, fun r hr => absurd hr List.not_mem_nil⟩⟩

/-- No two objects work in the same memory. -/
theorem InOrder.nodup (h : s.InOrder) :
    (s.kernel.queues.map Prod.snd).Nodup ∧ (s.kernel.threads.map fun t => t.2.stack).Nodup := by
  have hstacks : s.kernel.threads.map (fun t => t.2.stack) =
      (s.kernel.threads.map Prod.snd).map Thread.stack := by
    rw [List.map_map]
    rfl
  rw [hstacks]
  rcases lt_or_ge s.v4Queue 0 with hnone | hqueue
  · rw [(h.stopped hnone).1]
    exact ⟨List.nodup_nil, List.nodup_nil⟩
  · rw [h.queues hqueue, h.threads hqueue]
    split_ifs
    · exact ⟨by simp, by decide⟩
    · exact ⟨by simp, by decide⟩

/-- **The workers are in order.**  Whatever the calls of the kernel return, in every run
it keeps just the objects of the workers that are there, no two in the same memory; a
start that fails leaves nothing behind; and once the HID worker is there its queue and
its timer stay, and no request fails for the start. -/
theorem workers_in_order (hfresh : Run.Every step Fresh zero steps) :
    (Run.final step zero steps).InOrder ∧
      ((Run.final step zero steps).kernel.queues.map Prod.snd).Nodup ∧
      ((Run.final step zero steps).kernel.threads.map fun t => t.2.stack).Nodup ∧
      (∀ io, (Run.final step zero steps).Fresh (.dispatch io) →
        (((Run.final step zero steps).v4Start io).2 = 0 ∧
            0 ≤ ((Run.final step zero steps).v4Start io).1.v4Queue) ∨
          (((Run.final step zero steps).v4Start io).2 < 0 ∧
            ((Run.final step zero steps).v4Start io).1.v4Queue < 0 ∧
            ((Run.final step zero steps).v4Start io).1.kernel = ⟨[], [], []⟩)) ∧
      (0 ≤ (Run.final step zero steps).v4Queue → ∀ later,
        Run.Every step Fresh (Run.final step zero steps) later →
          (Run.final step (Run.final step zero steps) later).v4Queue =
              (Run.final step zero steps).v4Queue ∧
            (Run.final step (Run.final step zero steps) later).v4Timer =
              (Run.final step zero steps).v4Timer ∧
            ∀ r ∈ Run.outputs step (Run.final step zero steps) later, r = 0) := by
  have horder : (Run.final step zero steps).InOrder :=
    Run.final_of_every (fun _ _ hf h => (h.step hf).1) hfresh .zero
  generalize Run.final step zero steps = s at horder ⊢
  refine ⟨horder, horder.nodup.1, horder.nodup.2, fun io hio => ?_, fun hqueue later hlater => ?_⟩
  · rcases v4Start_cases hio with ⟨hqueue, hsame⟩ | ⟨hnone, hresult, hqueue, hkernel, -, -⟩ |
      ⟨-, hqueue, hstarted⟩
    · rw [hsame]
      exact Or.inl ⟨rfl, hqueue⟩
    · exact Or.inr ⟨hresult, hqueue, hkernel.trans (horder.stopped hnone).1⟩
    · rw [hstarted]
      exact Or.inl ⟨rfl, hqueue⟩
  · have hrun := Run.outputs_of_every (P := fun (s' : Startup) (out : List Int) => s'.InOrder ∧
        s'.v4Queue = s.v4Queue ∧ s'.v4Timer = s.v4Timer ∧ ∀ r ∈ out, r = 0)
      (fun s' e out hf h => ?_) hlater ⟨horder, rfl, rfl, fun r hr => absurd hr List.not_mem_nil⟩
    · exact ⟨hrun.2.1, hrun.2.2.1, hrun.2.2.2⟩
    · obtain ⟨hs', hq, ht, hout⟩ := h
      obtain ⟨hkept, hsame⟩ := hs'.step hf
      obtain ⟨hq', ht', hout'⟩ := hsame (by omega)
      refine ⟨hkept, hq'.trans hq, ht'.trans ht, fun r hr => ?_⟩
      rcases List.mem_append.mp hr with hr | hr
      · exact hout r hr
      · exact hout' r hr

/-- A start for which the kernel has no timer, one that succeeds, and the beginning of the
HID worker. -/
def secondStart : List Step :=
  [.dispatch ⟨0, 0, 3, 4, -22, 0⟩, .dispatch ⟨0, 0, 3, 4, 5, 0⟩, .begin ⟨0, 0, 6, 7, 0, 0⟩]

/-- After the start that succeeds the kernel has the queues of both workers, and no two threads
share a stack. -/
theorem workers_in_order_secondStart :
    (Run.final step zero secondStart).kernel.queues =
        [(6, .e11QueueMem), (3, .v4QueueStorage)] ∧
      ((Run.final step zero secondStart).kernel.threads.map fun t => t.2.stack).Nodup := by
  have hfresh : Run.Every step Fresh zero secondStart := ⟨by decide, by decide, by decide, trivial⟩
  obtain ⟨horder, -, hstacks, -⟩ := workers_in_order hfresh
  exact ⟨horder.queues (by decide), hstacks⟩

end Runs

end Startup
end VirtualPortal
