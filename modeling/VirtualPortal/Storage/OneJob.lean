/-
# One disk job at a time

The two workers share the job variables without a lock and rely on `e09_busy`
alone.  Here they are seen as one machine (`Core`): the figures, the card, and
the phase the one disk job is in.

| phase | |
| --- | --- |
| `idle` | there is no job |
| `queued op` | submitted, not yet run |
| `done` | run, its completion not yet processed |
| `lost` | run, and sending its completion has failed |

`System.step_core` says that every step of the two workers and their queues is a
step of this machine.  It carries the invariant `Coherent`: a job is underway, or
lost, exactly while `busy` is set.  `System.core_of_every` is the induction rule
all results about runs of the system use.
-/

import VirtualPortal.Storage.Moves

namespace VirtualPortal

open Storage

/-- Where the one disk job is. -/
inductive Phase where
  | idle
  | queued (op : DiskOp)
  | done
  | lost
deriving DecidableEq

/-- The figures, the card and the disk job. -/
structure Core where
  storage : Storage
  disk : Disk
  phase : Phase

/-- The phase after an event with the effects `out`. -/
def Phase.after (p : Phase) (out : List Effect) : Phase :=
  match submitted out with
  | [] => p
  | op :: _ => .queued op

/-- What the calls of a run may return: those of a disk job, and whether sending
a completion may fail. -/
structure Calls where
  job : JobIo → Prop
  lossy : Prop

/-- Calls that may return anything. -/
def Calls.any : Calls := ⟨fun _ => True, True⟩

/-- The reads of the disk jobs are honest. -/
def Calls.honest : Calls := ⟨JobIo.Honest, True⟩

/-- The steps of the machine. -/
inductive Core.Step (calls : Calls) : Core → Core → List Effect → Prop
  | event {st st₁ st' : Storage} {d : Disk} {p : Phase} {out : List Effect}
      (hbegins : Begins st st₁)
      (hmove : Move st₁ st' out) : Step calls ⟨st, d, p⟩ ⟨st', d, p.after out⟩ out
  | complete {st st' : Storage} {d : Disk} {out : List Effect} (h : Completion st st' out) :
      Step calls ⟨st, d, .done⟩ ⟨st', d, .idle⟩ out
  | run {st : Storage} {d : Disk} {op : DiskOp} (io : JobIo) (hio : calls.job io) :
      Step calls ⟨st, d, .queued op⟩ ⟨(st.e11Worker d op io).1, (st.e11Worker d op io).2, .done⟩ []
  | lose {st : Storage} {d : Disk} (hlossy : calls.lossy) :
      Step calls ⟨st, d, .done⟩ ⟨st, d, .lost⟩ []

/-- `busy` is set exactly while there is a job, or its completion is lost, and a
job not yet run is the one the variables are for. -/
structure Core.Coherent (c : Core) : Prop where
  busy : c.storage.busy = true ↔ c.phase ≠ .idle
  op : ∀ op, c.phase = .queued op → c.storage.op = op

/-- Where the machine is not busy no job is under way. -/
theorem Core.Coherent.idle {c : Core} (h : c.Coherent) (hbusy : c.storage.busy = false) :
    c.phase = .idle := by
  by_contra hp
  rw [h.busy.mpr hp] at hbusy
  cases hbusy

/-! ### Jobs in flight -/

/-- The phase of a system. -/
def System.HasPhase (σ : System) : Phase → Prop
  | .idle | .lost => σ.jobs = [] ∧ σ.worker = .waiting ∧ σ.events.count .complete = 0
  | .queued op =>
      (σ.jobs = [op] ∧ σ.worker = .waiting ∨ σ.jobs = [] ∧ σ.worker = .running op) ∧
        σ.events.count .complete = 0
  | .done =>
      σ.jobs = [] ∧ (σ.worker = .finished ∧ σ.events.count .complete = 0 ∨
        σ.worker = .waiting ∧ σ.events.count .complete = 1)

/-- The system as a machine with one job. -/
def System.core (σ : System) (p : Phase) : Core := ⟨σ.hid.toStorage, σ.disk, p⟩

/-- The disk jobs that exist: queued, being run, or with a completion not yet
processed. -/
def System.jobsInFlight (σ : System) : ℕ :=
  σ.jobs.length + (if σ.worker = .waiting then 0 else 1) + σ.events.count .complete

/-- At most one job is on its way. -/
theorem System.HasPhase.jobsInFlight {σ : System} {p : Phase} (h : σ.HasPhase p) :
    σ.jobsInFlight = if p = .idle ∨ p = .lost then 0 else 1 := by
  unfold System.jobsInFlight
  cases p with
  | idle => obtain ⟨h₁, h₂, h₃⟩ := h; simp [h₁, h₂, h₃]
  | lost => obtain ⟨h₁, h₂, h₃⟩ := h; simp [h₁, h₂, h₃]
  | queued op => rcases h with ⟨⟨h₁, h₂⟩ | ⟨h₁, h₂⟩, h₃⟩ <;> simp [h₁, h₂, h₃]
  | done => rcases h with ⟨h₁, ⟨h₂, h₃⟩ | ⟨h₂, h₃⟩⟩ <;> simp [h₁, h₂, h₃]

/-- A step that at most posts to the HID worker, and no completion. -/
structure System.Posts (σ σ' : System) : Prop where
  storage : σ'.hid.toStorage = σ.hid.toStorage
  disk : σ'.disk = σ.disk
  jobs : σ'.jobs = σ.jobs
  worker : σ'.worker = σ.worker
  events : σ'.events.count .complete = σ.events.count .complete

/-- Nothing is posted. -/
theorem System.Posts.refl (σ : System) : σ.Posts σ := ⟨rfl, rfl, rfl, rfl, rfl⟩

/-- A message that is posted leaves the phase of the job. -/
theorem System.Posts.hasPhase {σ σ' : System} (h : σ.Posts σ') {p : Phase} (hp : σ.HasPhase p) :
    σ'.HasPhase p := by
  cases p <;> simpa only [System.HasPhase, h.jobs, h.worker, h.events] using hp

/-- A message that is posted leaves the core. -/
theorem System.Posts.core {σ σ' : System} (h : σ.Posts σ') (p : Phase) : σ'.core p = σ.core p := by
  simp only [System.core, h.storage, h.disk]

/-- An event that is no completion does not count as one. -/
theorem count_complete_append (events : List Event) {e : Event} (he : e ≠ .complete) :
    (events ++ [e]).count .complete = events.count .complete := by
  rw [List.count_append, List.count_singleton, if_neg (by simpa using he), Nat.add_zero]

/-- The dispatcher of ioctls posts a message at most. -/
theorem System.v4IoctlDispatch_posts (σ : System) (msg : Option IpcMessage) (send : Int) :
    σ.Posts (σ.v4IoctlDispatch msg send).1 ∧ figureEffects (σ.v4IoctlDispatch msg send).2 = [] := by
  unfold System.v4IoctlDispatch
  split
  · split_ifs
    · exact ⟨.refl σ, rfl⟩
    · exact ⟨.refl σ, rfl⟩
    · exact ⟨⟨rfl, rfl, rfl, rfl, count_complete_append _ (by simp)⟩, rfl⟩
  · exact ⟨.refl σ, rfl⟩

/-- The dispatcher of closes posts a message at most. -/
theorem System.v4CloseDispatch_posts (σ : System) (msg : Option IpcMessage) (send : Int) :
    σ.Posts (σ.v4CloseDispatch msg send).1 ∧ figureEffects (σ.v4CloseDispatch msg send).2 = [] := by
  unfold System.v4CloseDispatch
  split
  · split_ifs
    · exact ⟨.refl σ, rfl⟩
    · exact ⟨⟨rfl, rfl, rfl, rfl, count_complete_append _ (by simp)⟩, rfl⟩
    · exact ⟨.refl σ, rfl⟩
  · cases msg <;> exact ⟨.refl σ, rfl⟩

/-! ### One step -/

/-- An action that begins sends no job. -/
theorem Storage.Begins.busy {st st' : Storage} (h : Begins st st') : st'.busy = st.busy := by
  cases h with
  | keep => rfl
  | action ui id action => rfl

/-- An action that begins leaves the kind of the job. -/
theorem Storage.Begins.op {st st' : Storage} (h : Begins st st') : st'.op = st.op := by
  cases h with
  | keep => rfl
  | action ui id action => rfl

/-- A move either submits its job, from an idle machine, or leaves `busy` and
the operation of a running job alone. -/
theorem Storage.Move.busy {st st' : Storage} {out : List Effect} (h : Move st st' out) :
    (∃ op, out = [.submit op] ∧ st.busy = false ∧ st'.busy = true ∧ st'.op = op) ∨
      (submitted out = [] ∧ st'.busy = st.busy ∧ (st.busy = true → st'.op = st.op)) := by
  cases h with
  | begins h => exact Or.inr ⟨rfl, h.busy, fun _ => h.op⟩
  | write slot block bytes => exact Or.inr ⟨rfl, rfl, fun _ => rfl⟩
  | remove hbusy =>
      refine Or.inr ⟨rfl, rfl, fun hb => ?_⟩
      rw [hbusy] at hb; cases hb
  | job op sent hbusy hprepares =>
      cases sent with
      | true => exact Or.inl ⟨op, rfl, hbusy, rfl, rfl⟩
      | false =>
          refine Or.inr ⟨rfl, hbusy.symm, fun hb => ?_⟩
          rw [hbusy] at hb; cases hb

/-- While a job is running no action begins. -/
theorem Storage.Begins.of_busy {st st' : Storage} (h : Begins st st') (hbusy : st.busy = true) :
    st' = st := by
  cases h with
  | keep => rfl
  | action ui id action haction hidle => rw [hbusy] at hidle; cases hidle

/-- While a job is running an event writes at most one block of a slot. -/
theorem Storage.Move.of_busy {st st' : Storage} {out : List Effect} (h : Move st st' out)
    (hbusy : st.busy = true) :
    (st' = st ∧ out = []) ∨ ∃ slot block bytes, (st.slots slot).present = true ∧
      st' = st.setSlot slot ((st.slots slot).writeBlock block bytes) ∧ out = [.wrote slot] := by
  cases h with
  | begins h => exact Or.inl ⟨h.of_busy hbusy, rfl⟩
  | write slot block bytes hpresent => exact Or.inr ⟨slot, block, bytes, hpresent, rfl, rfl⟩
  | remove hidle => rw [hbusy] at hidle; cases hidle
  | job op sent hidle => rw [hbusy] at hidle; cases hidle

/-- A submitted job has been prepared. -/
theorem Storage.Move.of_submit {st st' : Storage} {op : DiskOp} (h : Move st st' [.submit op]) :
    ∃ st₁, Prepares st op st₁ ∧ st' = st₁.submitJob op true := by
  generalize hout : [Effect.submit op] = out at h
  cases h with
  | begins => cases hout
  | write => cases hout
  | remove => cases hout
  | @job st₁ op' sent hidle hprepares =>
      cases sent with
      | true => obtain rfl : op = op' := by simpa using hout
                exact ⟨st₁, hprepares, rfl⟩
      | false => cases hout

/-- An event submits a job that has been prepared, or leaves the phase alone and, while
a job is under way, writes a block at most. -/
theorem Core.Coherent.event {st st₁ st' : Storage} {d : Disk} {p : Phase} {out : List Effect}
    (h : Core.Coherent ⟨st, d, p⟩) (hbegins : Begins st st₁) (hmove : Move st₁ st' out) :
    (∃ op st₂, out = [.submit op] ∧ Prepares st₁ op st₂ ∧ st' = st₂.submitJob op true) ∨
      p.after out = p ∧ (p ≠ .idle → st' = st ∨ ∃ slot block bytes,
        (st.slots slot).present = true ∧
          st' = st.setSlot slot ((st.slots slot).writeBlock block bytes)) := by
  rcases hmove.busy with ⟨op, rfl, -, -, -⟩ | ⟨hout, -, -⟩
  · obtain ⟨st₂, hprepares, hst'⟩ := hmove.of_submit
    exact Or.inl ⟨op, st₂, rfl, hprepares, hst'⟩
  · refine Or.inr ⟨by rw [Phase.after, hout], fun hp => ?_⟩
    have hb : st.busy = true := h.busy.mpr hp
    obtain rfl := hbegins.of_busy hb
    rcases hmove.of_busy hb with ⟨hst', -⟩ | ⟨slot, block, bytes, hpresent, hst', -⟩
    · exact Or.inl hst'
    · exact Or.inr ⟨slot, block, bytes, hpresent, hst'⟩

/-- A completion leaves the machine ready for the next job. -/
theorem Storage.Completion.busy {st st' : Storage} {out : List Effect} (h : Completion st st' out) :
    st'.busy = false := by
  cases h with
  | failed _ => split_ifs <;> rfl
  | catalog _ _ h => rw [h.busy]; rfl
  | saved _ _ => rfl
  | rejected _ _ => rfl
  | installed slot _ _ _ _ => rfl

/-- A completion submits no job. -/
theorem Storage.Completion.submitted_eq {st st' : Storage} {out : List Effect}
    (h : Completion st st' out) : submitted out = [] := by
  cases h <;> rfl

/-- Every step keeps the core coherent. -/
theorem Core.Coherent.step {calls : Calls} {c c' : Core} {out : List Effect}
    (h : c.Coherent) (hs : Core.Step calls c c' out) : c'.Coherent := by
  cases hs with
  | @event st st₁ st' d p out hbegins hmove =>
      rcases hmove.busy with ⟨op, rfl, -, hbusy, hop⟩ | ⟨hout, hbusy, hop⟩
      · exact ⟨by simp [hbusy, Phase.after, submitted], fun op' hp => by
          simp [Phase.after, submitted] at hp; rw [hop, hp]⟩
      · have hp : p.after out = p := by rw [Phase.after, hout]
        refine ⟨?_, fun op hq => ?_⟩
        · rw [hp, hbusy, hbegins.busy]; exact h.busy
        · rw [hp] at hq
          have hb : st.busy = true := h.busy.mpr (by rw [hq]; simp)
          rw [hop (by rw [hbegins.busy, hb]), hbegins.op]
          exact h.op op hq
  | complete hc => exact ⟨by simp [hc.busy], fun op hp => nomatch hp⟩
  | @run st d op io =>
      refine ⟨?_, fun op hp => nomatch hp⟩
      have hb : st.busy = true := h.busy.mpr (by simp)
      have hb' : (st.e11Worker d op io).1.busy = st.busy := by
        unfold Storage.e11Worker; split <;> rfl
      simp [hb', hb]
  | lose => exact ⟨by simpa using h.busy, fun op hp => nomatch hp⟩

/-- The calls of a step return what `calls` allows. -/
def System.Meets (calls : Calls) (σ : System) : Action → Prop
  | .run io => calls.job io
  | .completed send => σ.worker = .finished → 0 ≤ send ∨ calls.lossy
  | _ => True

/-- An event of the HID worker other than a completion is at most a menu request
and one move. -/
theorem v4Worker_moves (m : Machine) {event : Event} (he : event ≠ .complete) (io : HidIo) :
    ∃ st, Begins m.toStorage st ∧
      Move st (m.v4Worker event io).1.toStorage (figureEffects (m.v4Worker event io).2) := by
  cases event with
  | complete => exact absurd rfl he
  | tick => exact m.v4Tick_moves io.line io.send
  | request msg => exact ⟨_, .keep, m.v4Process_move io.mem msg⟩

/-- A step that does nothing to the figures, the card and the job. -/
theorem Core.Step.keep {calls : Calls} (c : Core) : Core.Step calls c c [] :=
  .event .keep (.begins .keep)

/-- A message that is posted is a step of the core that does nothing. -/
theorem System.Posts.step {calls : Calls} {σ σ' : System} (h : σ.Posts σ') (p : Phase) :
    Core.Step calls (σ.core p) (σ'.core p) [] := by
  rw [h.core]; exact .keep _

/-- The HID worker processes a completion: there was one job and it was done. -/
theorem System.step_complete_core {calls : Calls} {σ : System} {events : List Event}
    (he : σ.events = .complete :: events) (io : HidIo) {p : Phase} (hp : σ.HasPhase p) :
    (σ.step (.hid io)).1.HasPhase .idle ∧
      Core.Step calls (σ.core p) ((σ.step (.hid io)).1.core .idle)
        (figureEffects (σ.step (.hid io)).2) := by
  obtain ⟨m, d, es, jobs, worker⟩ := σ
  obtain rfl : es = .complete :: events := he
  obtain ⟨rfl, rfl, rfl, hz⟩ :
      p = .done ∧ jobs = [] ∧ worker = .waiting ∧ events.count .complete = 0 := by
    cases p with
    | done =>
        obtain ⟨hj, ⟨-, hz⟩ | ⟨hw, hz⟩⟩ := hp
        · simp at hz
        · exact ⟨rfl, hj, hw, by simpa using hz⟩
    | idle => simpa using hp.2.2
    | lost => simpa using hp.2.2
    | queued op => simpa using hp.2
  have h := m.e09Complete_completion
  refine ⟨⟨?_, rfl, hz⟩, .complete h⟩
  have hsub := h.submitted_eq
  rwa [submitted_figureEffects] at hsub

/-- The HID worker handles another event. -/
theorem System.step_event_core {calls : Calls} {σ : System} {event : Event}
    {events : List Event} (he : σ.events = event :: events) (hne : event ≠ .complete) (io : HidIo)
    {p : Phase} (hp : σ.HasPhase p) (hc : (σ.core p).Coherent) :
    (σ.step (.hid io)).1.HasPhase (p.after (figureEffects (σ.step (.hid io)).2)) ∧
      Core.Step calls (σ.core p)
        ((σ.step (.hid io)).1.core (p.after (figureEffects (σ.step (.hid io)).2)))
        (figureEffects (σ.step (.hid io)).2) := by
  obtain ⟨m, d, es, jobs, worker⟩ := σ
  obtain rfl : es = event :: events := he
  obtain ⟨st, hbegins, hmove⟩ := v4Worker_moves m hne io
  refine ⟨?_, .event hbegins hmove⟩
  have hcount : (event :: events).count .complete = events.count .complete :=
    List.count_cons_of_ne hne
  have hjobs := submitted_figureEffects (m.v4Worker event io).2
  rcases hmove.busy with ⟨op, hout, hbusy, -, -⟩ | ⟨hout, -, -⟩
  · obtain rfl : p = .idle := hc.idle (hbegins.busy.symm.trans hbusy)
    obtain ⟨rfl, rfl, hz⟩ := hp
    rw [hout] at hjobs
    show System.HasPhase _ (Phase.after _ (figureEffects (m.v4Worker event io).2))
    rw [hout]
    refine ⟨Or.inl ⟨?_, rfl⟩, hcount ▸ hz⟩
    show [] ++ submitted (m.v4Worker event io).2 = [op]
    rw [← hjobs]; rfl
  · show System.HasPhase _ (Phase.after _ (figureEffects (m.v4Worker event io).2))
    rw [Phase.after, hout]
    have hjobs' : jobs ++ submitted (m.v4Worker event io).2 = jobs := by
      rw [← hjobs, hout, List.append_nil]
    cases p <;> simpa only [System.HasPhase, System.step, hjobs', hcount] using hp

/-- The storage worker takes a job. -/
theorem System.step_receive_hasPhase (σ : System) {p : Phase} (hp : σ.HasPhase p) :
    (σ.step .receive).1.HasPhase p ∧ (σ.step .receive).1.core p = σ.core p ∧
      (σ.step .receive).2 = [] := by
  obtain ⟨m, d, events, jobs, worker⟩ := σ
  cases worker with
  | running op => exact ⟨hp, rfl, rfl⟩
  | finished => exact ⟨hp, rfl, rfl⟩
  | waiting =>
      cases jobs with
      | nil => exact ⟨hp, rfl, rfl⟩
      | cons op jobs =>
          refine ⟨?_, rfl, rfl⟩
          cases p with
          | idle => exact absurd hp.1 (by simp)
          | lost => exact absurd hp.1 (by simp)
          | done => exact absurd hp.1 (by simp)
          | queued op' =>
              obtain ⟨⟨hj, -⟩ | ⟨hj, -⟩, hz⟩ := hp
              · obtain ⟨rfl, rfl⟩ := List.cons.inj hj
                exact ⟨Or.inr ⟨rfl, rfl⟩, hz⟩
              · cases hj

/-- The step is the HID worker processing a completion. -/
def System.Completes (σ : System) (a : Action) : Prop :=
  (∃ io, a = .hid io) ∧ σ.events.head? = some .complete

/-- Where no job is under way after the effects none was before. -/
theorem Phase.after_eq_idle {p : Phase} {out : List Effect} (h : p.after out = .idle) :
    p = .idle := by
  unfold Phase.after at h
  split at h
  · exact h
  · cases h

/-- Every step of the system is a step of the machine with one job, and only a
completion ends a job. -/
theorem System.step_core {calls : Calls} (σ : System) (a : Action) {p : Phase}
    (hp : σ.HasPhase p) (hc : (σ.core p).Coherent) (ha : System.Meets calls σ a) :
    ∃ p', (σ.step a).1.HasPhase p' ∧
      Core.Step calls (σ.core p) ((σ.step a).1.core p') (figureEffects (σ.step a).2) ∧
      (p' = .idle → p = .idle ∨ σ.Completes a) := by
  cases a with
  | timer =>
      have h : σ.Posts (σ.step .timer).1 :=
        ⟨rfl, rfl, rfl, rfl, count_complete_append _ (by decide)⟩
      exact ⟨p, h.hasPhase hp, h.step p, Or.inl⟩
  | ioctl msg send =>
      obtain ⟨h, hout⟩ := σ.v4IoctlDispatch_posts msg send
      refine ⟨p, h.hasPhase hp, ?_, Or.inl⟩
      rw [show (σ.step (.ioctl msg send)) = σ.v4IoctlDispatch msg send from rfl, hout]
      exact h.step p
  | close msg send =>
      obtain ⟨h, hout⟩ := σ.v4CloseDispatch_posts msg send
      refine ⟨p, h.hasPhase hp, ?_, Or.inl⟩
      rw [show (σ.step (.close msg send)) = σ.v4CloseDispatch msg send from rfl, hout]
      exact h.step p
  | hid io =>
      cases he : σ.events with
      | nil =>
          have hstep : σ.step (.hid io) = (σ, []) := by simp only [System.step, he]
          rw [hstep]
          exact ⟨p, hp, .keep _, Or.inl⟩
      | cons event events =>
          by_cases hne : event = .complete
          · subst hne
            obtain ⟨hp', hs⟩ := System.step_complete_core he io hp
            exact ⟨.idle, hp', hs, fun _ => Or.inr ⟨⟨io, rfl⟩, by rw [he]; rfl⟩⟩
          · obtain ⟨hp', hs⟩ := System.step_event_core he hne io hp hc
            exact ⟨_, hp', hs, fun h => Or.inl (Phase.after_eq_idle h)⟩
  | receive =>
      obtain ⟨hp', hcore, hout⟩ := σ.step_receive_hasPhase hp
      rw [← hcore, hout]
      exact ⟨p, hp', .keep _, Or.inl⟩
  | run io =>
      obtain ⟨m, d, events, jobs, worker⟩ := σ
      cases worker with
      | waiting => exact ⟨p, hp, .keep _, Or.inl⟩
      | finished => exact ⟨p, hp, .keep _, Or.inl⟩
      | running op =>
          cases p with
          | idle => exact absurd hp.2.1 (by simp)
          | lost => exact absurd hp.2.1 (by simp)
          | done => exact absurd hp.2 (by simp)
          | queued op' =>
              obtain ⟨⟨-, hw⟩ | ⟨hj, hw⟩, hz⟩ := hp
              · cases hw
              · obtain rfl := WorkerState.running.inj hw
                exact ⟨.done, ⟨hj, Or.inl ⟨rfl, hz⟩⟩, .run io ha, fun h => nomatch h⟩
  | completed send =>
      obtain ⟨m, d, events, jobs, worker⟩ := σ
      cases worker with
      | waiting => exact ⟨p, hp, .keep _, Or.inl⟩
      | running op => exact ⟨p, hp, .keep _, Or.inl⟩
      | finished =>
          cases p with
          | idle => exact absurd hp.2.1 (by simp)
          | lost => exact absurd hp.2.1 (by simp)
          | queued op => exact absurd hp.1 (by simp)
          | done =>
              obtain ⟨hj, ⟨-, hz⟩ | ⟨hw, -⟩⟩ := hp
              · by_cases hsend : send < 0
                · refine ⟨.lost, ?_, .lose ((ha rfl).resolve_left (by omega)), fun h => nomatch h⟩
                  simp only [System.step, hsend, if_true]
                  exact ⟨hj, rfl, hz⟩
                · refine ⟨.done, ⟨hj, Or.inr ⟨rfl, ?_⟩⟩, .keep _, fun h => nomatch h⟩
                  simp only [System.step, hsend, if_false]
                  rw [List.count_append, hz]; rfl
              · cases hw

/-- The same, for calls that may return anything. -/
theorem System.step_core_any (σ : System) (a : Action) {p : Phase} (hp : σ.HasPhase p)
    (hc : (σ.core p).Coherent) :
    ∃ p', (σ.step a).1.HasPhase p' ∧
      Core.Step .any (σ.core p) ((σ.step a).1.core p') (figureEffects (σ.step a).2) ∧
      (p' = .idle → p = .idle ∨ σ.Completes a) :=
  σ.step_core a hp hc (by cases a <;> simp [System.Meets, Calls.any])

/-! ### Runs -/

/-- The machine before its first step. -/
structure Core.Initial (c : Core) (d : Disk) : Prop where
  slots : c.storage.slots = fun _ => .zero
  ui : c.storage.ui = fun _ => none
  action : c.storage.action = none
  count : c.storage.count = 0
  op : c.storage.op = .catalog
  disk : c.disk = d
  phase : c.phase = .idle ∨ c.phase = .queued .catalog

/-- `e09_start` submits the catalogue job or nothing. -/
theorem System.init_core (d : Disk) (io : StartIo) :
    ∃ p, (System.init d io).HasPhase p ∧ ((System.init d io).core p).Coherent ∧
      ((System.init d io).core p).Initial d := by
  unfold System.init Machine.e09Start Machine.e11Submit
  dsimp only
  split_ifs
  case neg =>
    exact ⟨.queued .catalog, ⟨Or.inl ⟨rfl, rfl⟩, rfl⟩,
      ⟨by simp [System.core], fun op hp => Phase.queued.inj hp⟩, rfl, rfl, rfl, rfl, rfl, rfl,
      Or.inr rfl⟩
  all_goals
    exact ⟨.idle, ⟨rfl, rfl, rfl⟩, ⟨by simp [System.core, Machine.zero, Storage.zero],
      fun op hp => nomatch hp⟩, rfl, rfl, rfl, rfl, rfl, rfl, Or.inl rfl⟩

/-- An invariant of the machine with one job, and of the effects so far, holds
after every run of the system. -/
theorem System.core_of_every {calls : Calls} {I : Core → List Effect → Prop}
    (hstep : ∀ c c' l out, c.Coherent → I c l → Core.Step calls c c' out → I c' (l ++ out))
    {d : Disk} {io : StartIo} (hinit : ∀ c, c.Initial d → I c []) {as : List Action}
    (has : Run.Every System.step (System.Meets calls) (System.init d io) as) :
    ∃ p, (Run.final System.step (System.init d io) as).HasPhase p ∧
      ((Run.final System.step (System.init d io) as).core p).Coherent ∧
      I ((Run.final System.step (System.init d io) as).core p)
        (figureEffects (Run.outputs System.step (System.init d io) as)) := by
  obtain ⟨p, hp, hc, hi⟩ := System.init_core d io
  refine Run.outputs_of_every (l := [])
    (P := fun σ l => ∃ p, σ.HasPhase p ∧ (σ.core p).Coherent ∧ I (σ.core p) (figureEffects l))
    (fun σ l a ha ⟨p, hp, hc, hI⟩ => ?_) has ⟨p, hp, hc, hinit _ hi⟩
  obtain ⟨p', hp', hs, -⟩ := σ.step_core a hp hc ha
  rw [figureEffects_append]
  exact ⟨p', hp', hc.step hs, hstep _ _ _ _ hc hI hs⟩

end VirtualPortal
