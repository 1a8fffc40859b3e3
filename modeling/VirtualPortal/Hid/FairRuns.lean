/-
# Fair schedules

An endless run of the workers in which the timer ticks again and again, each thread is
scheduled again and again, and no send to a queue fails (`System.Fair`).  What the
calls of the disk jobs return, what the game and the menu ask for, and in which order
the threads run is left open.

In such a run every event in the queue of the HID worker is handled (`Fair.handled`),
so ticks are handled again and again (`Fair.ticks`), and a disk job that exists is
completed (`Fair.completes`): the storage worker takes it, runs it and posts its
completion.
-/

import VirtualPortal.Lib.Schedule
import VirtualPortal.Storage.OneJob

namespace VirtualPortal
namespace System

/-- The timer and the threads go on for ever, and sends to the queues succeed. -/
structure Fair (as : ℕ → Action) : Prop where
  timer : Recurs fun n => as n = .timer
  hid : Recurs fun n => ∃ io, as n = .hid io
  receive : Recurs fun n => as n = .receive
  run : Recurs fun n => ∃ io, as n = .run io
  completed : Recurs fun n => ∃ send, as n = .completed send
  /-- The sends of jobs to the storage worker. -/
  sent : ∀ n io, as n = .hid io → 0 ≤ io.send
  /-- The sends of completions to the HID worker. -/
  posted : ∀ n send, as n = .completed send → 0 ≤ send

/-- The timer, the HID worker and the storage worker take turns. -/
def turns (n : ℕ) : Action :=
  match n % 5 with
  | 0 => .timer
  | 1 => .hid ⟨fun _ => 0, fun _ => 0, 0⟩
  | 2 => .receive
  | 3 => .run .ok
  | _ => .completed 0

/-- In `turns` everyone acts again and again and every send succeeds. -/
theorem turns_fair : Fair turns := by
  have hturn (n r : ℕ) (hr : r < 5) : n ≤ 5 * n + r ∧ (5 * n + r) % 5 = r := by omega
  constructor
  · exact fun n => ⟨5 * n, by omega, by simp [turns]⟩
  · exact fun n => ⟨5 * n + 1, by omega, _, by simp only [turns, (hturn n 1 (by omega)).2]; rfl⟩
  · exact fun n => ⟨5 * n + 2, by omega, by simp only [turns, (hturn n 2 (by omega)).2]⟩
  · exact fun n => ⟨5 * n + 3, by omega, _, by simp only [turns, (hturn n 3 (by omega)).2]; rfl⟩
  · exact fun n => ⟨5 * n + 4, by omega, _, by simp only [turns, (hturn n 4 (by omega)).2]; rfl⟩
  · intro n io h
    unfold turns at h
    split at h <;> cases h
    decide
  · intro n send h
    unfold turns at h
    split at h <;> cases h
    decide

/-- A fair schedule stays fair after a run whose sends succeed. -/
theorem Fair.after {b : ℕ → Action} (h : Fair b) {as : List Action}
    (hsent : ∀ io, .hid io ∈ as → 0 ≤ io.send) (hposted : ∀ send, .completed send ∈ as → 0 ≤ send) :
    Fair (Run.after as b) where
  timer := Run.recurs_after (p := fun a : Action => a = .timer) h.timer
  hid := Run.recurs_after (p := fun a : Action => ∃ io, a = .hid io) h.hid
  receive := Run.recurs_after (p := fun a : Action => a = .receive) h.receive
  run := Run.recurs_after (p := fun a : Action => ∃ io, a = .run io) h.run
  completed := Run.recurs_after (p := fun a : Action => ∃ send, a = .completed send) h.completed
  sent n io hn := by
    rcases @Run.after_cases _ as b n with hmem | ⟨k, hk⟩
    · exact hsent io (hn ▸ hmem)
    · exact h.sent k io (hk.symm.trans hn)
  posted n send hn := by
    rcases @Run.after_cases _ as b n with hmem | ⟨k, hk⟩
    · exact hposted send (hn ▸ hmem)
    · exact h.posted k send (hk.symm.trans hn)

section Runs

variable {σ₀ : System} {as : ℕ → Action} {calls : Calls}

/-- The HID worker handles the event at this moment. -/
def Takes (σ₀ : System) (as : ℕ → Action) (event : Event) (n : ℕ) : Prop :=
  (∃ io, as n = .hid io) ∧ (Run.along step σ₀ as n).events.head? = some event

/-! ### The queue of the HID worker -/

/-- Only the HID worker takes events from its queue. -/
theorem events_grow {σ : System} {a : Action} (ha : ¬ ∃ io, a = .hid io) :
    ∃ new, (σ.step a).1.events = σ.events ++ new := by
  cases a with
  | hid io => exact absurd ⟨io, rfl⟩ ha
  | timer => exact ⟨[.tick], rfl⟩
  | ioctl msg send =>
      show ∃ new, (σ.v4IoctlDispatch msg send).1.events = _
      unfold v4IoctlDispatch
      split
      · split_ifs
        · exact ⟨[], (List.append_nil _).symm⟩
        · exact ⟨[], (List.append_nil _).symm⟩
        · exact ⟨_, rfl⟩
      · exact ⟨[], (List.append_nil _).symm⟩
  | close msg send =>
      show ∃ new, (σ.v4CloseDispatch msg send).1.events = _
      unfold v4CloseDispatch
      split
      · split_ifs
        · exact ⟨[], (List.append_nil _).symm⟩
        · exact ⟨_, rfl⟩
        · exact ⟨[], (List.append_nil _).symm⟩
      · exact ⟨[], (List.append_nil _).symm⟩
  | receive =>
      unfold step
      dsimp only
      split <;> exact ⟨[], (List.append_nil _).symm⟩
  | run io =>
      unfold step
      dsimp only
      split <;> exact ⟨[], (List.append_nil _).symm⟩
  | completed send =>
      unfold step
      dsimp only
      split
      · dsimp only
        split_ifs
        · exact ⟨[], (List.append_nil _).symm⟩
        · exact ⟨_, rfl⟩
      · exact ⟨[], (List.append_nil _).symm⟩

/-- The events are a queue that the HID worker takes from. -/
theorem queues (σ₀ : System) (as : ℕ → Action) :
    Queues (fun n => (Run.along step σ₀ as n).events) fun n => ∃ io, as n = .hid io where
  pop n := by
    rintro ⟨io, ha⟩
    refine ⟨[], ?_⟩
    show (step (Run.along step σ₀ as n) (as n)).1.events = _
    rw [ha, List.append_nil]
    unfold step
    dsimp only
    split
    · next hevents => rw [hevents, List.tail_nil]
    · next event events hevents => rw [hevents, List.tail_cons]
  keep _ := events_grow

/-- An event in the queue is handled. -/
theorem Fair.handled (h : Fair as) (event : Event) :
    LeadsTo (fun n => event ∈ (Run.along step σ₀ as n).events) (Takes σ₀ as event) :=
  .popped (queues σ₀ as) h.hid event

/-- Ticks are handled again and again. -/
theorem Fair.ticks (h : Fair as) : Recurs (Takes σ₀ as .tick) := by
  have hposted : LeadsTo (fun n => as n = .timer)
      fun n => Event.tick ∈ (Run.along step σ₀ as n).events := by
    refine .next fun n hn => ?_
    show Event.tick ∈ (step (Run.along step σ₀ as n) (as n)).1.events
    rw [hn]
    exact List.mem_append_right _ (List.mem_singleton_self _)
  exact (hposted.trans (h.handled .tick)).recurs h.timer

/-! ### The storage worker -/

/-- What a step does to the storage worker and its queue. -/
inductive WorkerStep (σ σ' : System) : Action → Prop
  | stays {a : Action} (new : List DiskOp) (hworker : σ'.worker = σ.worker)
      (hjobs : σ'.jobs = σ.jobs ++ new) : WorkerStep σ σ' a
  | takes (op : DiskOp) (hwaits : σ.worker = .waiting) (hworker : σ'.worker = .running op) :
      WorkerStep σ σ' .receive
  | runs (io : JobIo) (op : DiskOp) (hruns : σ.worker = .running op)
      (hworker : σ'.worker = .finished) : WorkerStep σ σ' (.run io)
  | posts (send : Int) (hdone : σ.worker = .finished) : WorkerStep σ σ' (.completed send)

/-- A step moves the storage worker on or leaves it. -/
theorem step_worker (σ : System) (a : Action) : WorkerStep σ (σ.step a).1 a := by
  have hposts {σ' : System} (h : σ.Posts σ') : WorkerStep σ σ' a :=
    .stays [] h.worker (h.jobs.trans (List.append_nil _).symm)
  cases a with
  | timer => exact .stays [] rfl (List.append_nil _).symm
  | ioctl msg send => exact hposts (σ.v4IoctlDispatch_posts msg send).1
  | close msg send => exact hposts (σ.v4CloseDispatch_posts msg send).1
  | hid io =>
      unfold step
      dsimp only
      split
      · exact .stays [] rfl (List.append_nil _).symm
      · exact .stays _ rfl rfl
  | receive =>
      unfold step
      dsimp only
      split
      · next op jobs hworker hjobs => exact .takes op hworker rfl
      · exact .stays [] rfl (List.append_nil _).symm
  | run io =>
      unfold step
      dsimp only
      split
      · next op hworker => exact .runs io op hworker rfl
      · exact .stays [] rfl (List.append_nil _).symm
  | completed send =>
      unfold step
      dsimp only
      split
      · next hworker => exact .posts send hworker
      · exact .stays [] rfl (List.append_nil _).symm

/-- A finished job is completed. -/
theorem Fair.completes_finished (h : Fair as) :
    LeadsTo (fun n => (Run.along step σ₀ as n).worker = .finished) (Takes σ₀ as .complete) := by
  have hposted : LeadsTo (fun n => (Run.along step σ₀ as n).worker = .finished)
      fun n => Event.complete ∈ (Run.along step σ₀ as n).events := by
    refine (LeadsTo.persists h.completed.leadsTo fun n hn hother => ?_).trans (.next ?_)
    · have hstep := step_worker (Run.along step σ₀ as n) (as n)
      show (step (Run.along step σ₀ as n) (as n)).1.worker = _
      generalize as n = a at hstep hother ⊢
      cases hstep with
      | stays new hworker => exact hworker.trans hn
      | takes op hwaits => rw [hn] at hwaits; cases hwaits
      | runs io op hruns => rw [hn] at hruns; cases hruns
      | posts send => exact absurd ⟨send, rfl⟩ hother
    · rintro n ⟨hn, send, ha⟩
      show Event.complete ∈ (step (Run.along step σ₀ as n) (as n)).1.events
      simp only [ha, step, hn, if_neg (not_lt.mpr (h.posted n send ha))]
      exact List.mem_append_right _ (List.mem_singleton_self _)
  exact hposted.trans (h.handled .complete)

/-- A job that is run is completed. -/
theorem Fair.completes_running (h : Fair as) (op : DiskOp) :
    LeadsTo (fun n => (Run.along step σ₀ as n).worker = .running op) (Takes σ₀ as .complete) := by
  refine (LeadsTo.persists h.run.leadsTo fun n hn hother => ?_).trans
    ((LeadsTo.next ?_).trans h.completes_finished)
  · have hstep := step_worker (Run.along step σ₀ as n) (as n)
    show (step (Run.along step σ₀ as n) (as n)).1.worker = _
    generalize as n = a at hstep hother ⊢
    cases hstep with
    | stays new hworker => exact hworker.trans hn
    | takes op hwaits => rw [hn] at hwaits; cases hwaits
    | runs io => exact absurd ⟨io, rfl⟩ hother
    | posts send hdone => rw [hn] at hdone; cases hdone
  · rintro n ⟨hn, io, ha⟩
    show (step (Run.along step σ₀ as n) (as n)).1.worker = _
    simp only [ha, step, hn]

/-- A job that waits for the worker is completed. -/
theorem Fair.completes_queued (h : Fair as) (op : DiskOp) :
    LeadsTo (fun n => (Run.along step σ₀ as n).worker = .waiting ∧
      (Run.along step σ₀ as n).jobs.head? = some op) (Takes σ₀ as .complete) := by
  refine (LeadsTo.persists h.receive.leadsTo fun n hn hother => ?_).trans
    ((LeadsTo.next ?_).trans (h.completes_running op))
  · have hstep := step_worker (Run.along step σ₀ as n) (as n)
    show (step (Run.along step σ₀ as n) (as n)).1.worker = _ ∧
      (step (Run.along step σ₀ as n) (as n)).1.jobs.head? = _
    generalize as n = a at hstep hother ⊢
    cases hstep with
    | stays new hworker hjobs =>
        rw [hjobs, List.head?_append, hn.2]
        exact ⟨hworker.trans hn.1, rfl⟩
    | takes op => exact absurd rfl hother
    | runs io op hruns => rw [hn.1] at hruns; cases hruns
    | posts send hdone => rw [hn.1] at hdone; cases hdone
  · rintro n ⟨⟨hwaits, hjob⟩, ha⟩
    obtain ⟨jobs, hjobs⟩ := List.head?_eq_some_iff.mp hjob
    show (step (Run.along step σ₀ as n) (as n)).1.worker = _
    simp only [ha, step, hwaits, hjobs]

/-- A job in any phase but the lost one is completed. -/
theorem Fair.completes (h : Fair as) :
    LeadsTo (fun n => ∃ p, (Run.along step σ₀ as n).HasPhase p ∧ p ≠ .idle ∧ p ≠ .lost)
      (Takes σ₀ as .complete) := by
  rintro n ⟨p, hp, hidle, hlost⟩
  cases p with
  | idle => exact absurd rfl hidle
  | lost => exact absurd rfl hlost
  | queued op =>
      rcases hp.1 with ⟨hjobs, hwaits⟩ | ⟨-, hruns⟩
      · exact h.completes_queued op n ⟨hwaits, by rw [hjobs]; rfl⟩
      · exact h.completes_running op n hruns
  | done =>
      rcases hp.2 with ⟨hdone, -⟩ | ⟨-, hcount⟩
      · exact h.completes_finished n hdone
      · exact h.handled .complete n (List.count_pos_iff.mp (by omega))

end Runs
end System
end VirtualPortal
