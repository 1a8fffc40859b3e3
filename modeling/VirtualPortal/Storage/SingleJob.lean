/-
# The job a completion is for

`e09_busy` protects the job variables.  `one_job_iff` says how far: at most one disk
job exists, from its submission to its completion the HID worker leaves its
variables alone, and a save job's slot still holds the figure it was submitted
for.

`busy` is set exactly while a job exists, provided the storage worker's send of
a completion never fails: the result of that send is ignored, other than that of
`e11_submit`, and after a failure `busy` stays set for good (`stuck_worker`).
-/

import VirtualPortal.Storage.Slots

namespace VirtualPortal

open Storage

/-- Every completion the storage worker sends is enqueued. -/
def System.CompletionSent (σ : System) : Action → Prop
  | .completed send => σ.worker = .finished → 0 ≤ send
  | _ => True

/-- What the HID worker does not touch while a job exists. -/
structure System.JobKept (m m' : Machine) : Prop where
  op : m'.op = m.op
  jobSlot : m'.jobSlot = m.jobSlot
  jobSource : m'.jobSource = m.jobSource
  job : m'.job = m.job
  diskSlot : m'.diskSlot = m.diskSlot
  snapshot : m'.snapshot = m.snapshot
  catalog : m'.catalog = m.catalog

/-- An event handled while a job exists, other than its completion, keeps the
job. -/
def System.KeepsJob (σ : System) (a : Action) : Prop :=
  (∃ io, a = .hid io) → σ.jobsInFlight = 1 → ¬ σ.Completes a → JobKept σ.hid (σ.step a).1.hid

/-- The slot of a save job holds the figure the job is for. -/
structure Storage.SavesOwn (st : Storage) : Prop where
  occupied : (st.slots st.diskSlot).occupied = true
  id : (st.slots st.diskSlot).id = st.jobSlot
  source : (st.slots st.diskSlot).source = st.jobSource
  sequence : (st.slots st.diskSlot).sequence = st.jobSequence

/-- The slots are consistent, and an unfinished save job is for the figure its
slot holds. -/
structure Core.Saving (c : Core) : Prop extends Core.Slotted c where
  save : c.phase ≠ .idle → c.storage.op = .save → c.storage.SavesOwn

/-! ### One step -/

/-- `e11_save` keeps the sequence number. -/
theorem e11Save_sequence {d : Disk} {slot source sequence : U32} {io : JobIo}
    {job check : Bytes 1056} :
    (e11Save d slot source io job check sequence).1.sequence = sequence := by
  unfold e11Save
  dsimp only
  split_ifs <;> rfl

/-- Running a job leaves the variables that say what it is for. -/
theorem Storage.e11Worker_job (st : Storage) (d : Disk) (op : DiskOp) (io : JobIo) :
    (st.e11Worker d op io).1.slots = st.slots ∧ (st.e11Worker d op io).1.op = st.op ∧
      (st.e11Worker d op io).1.jobSlot = st.jobSlot ∧
      (st.e11Worker d op io).1.jobSource = st.jobSource ∧
      (st.e11Worker d op io).1.diskSlot = st.diskSlot ∧
      (st.e11Worker d op io).1.snapshot = st.snapshot ∧
      (op = .save → (st.e11Worker d op io).1.jobSequence = st.jobSequence) := by
  cases op with
  | catalog => exact ⟨rfl, rfl, rfl, rfl, rfl, rfl, fun h => nomatch h⟩
  | load => exact ⟨rfl, rfl, rfl, rfl, rfl, rfl, fun h => nomatch h⟩
  | save => exact ⟨rfl, rfl, rfl, rfl, rfl, rfl, fun _ => e11Save_sequence⟩

/-- The result of a save job is that of `e11_save`. -/
theorem Storage.e11Worker_save (st : Storage) (d : Disk) (io : JobIo) :
    (st.e11Worker d .save io).1.result =
      (e11Save d st.jobSlot st.jobSource io st.job st.check st.jobSequence).1.result := rfl

/-- A write does not change whose figure a slot holds. -/
theorem Storage.SavesOwn.write {st : Storage} (h : st.SavesOwn) (slot : Fin 16) (block : ℕ)
    (bytes : ℕ → U8) : (st.setSlot slot ((st.slots slot).writeBlock block bytes)).SavesOwn := by
  obtain ⟨hocc, hid, hsource, hseq⟩ := h
  constructor <;> rw [slots_setSlot] <;> split_ifs with hs
  · rw [← hs]; exact hocc
  · exact hocc
  · rw [← hs]; exact hid
  · exact hid
  · rw [← hs]; exact hsource
  · exact hsource
  · rw [← hs]; exact hseq
  · exact hseq

theorem Core.Saving.initial {c : Core} {d : Disk} (h : c.Initial d) : c.Saving :=
  ⟨.initial h, fun _ hop => by rw [h.op] at hop; cases hop⟩

theorem Core.Saving.step {calls : Calls} {c c' : Core} {out : List Effect} (hc : c.Coherent)
    (h : c.Saving) (hs : Core.Step calls c c' out) : c'.Saving := by
  refine ⟨h.toSlotted.step hc hs, ?_⟩
  cases hs with
  | @event st st₁ st' d p out hbegins hmove =>
      rcases hc.event hbegins hmove with ⟨op, st₂, rfl, hprepares, rfl⟩ | ⟨hafter, hkept⟩
      · intro _ hop
        cases hprepares with
        | catalog => cases hop
        | load => cases hop
        | save i _ _ hslot =>
            refine ⟨?_, rfl, rfl, rfl⟩
            rcases hslot with ⟨hocc, -⟩ | ⟨haction, hold⟩
            · exact hocc
            · -- the old slot is shown at the position of the action
              have hslotted := h.slots.begins hbegins
              exact (hslotted.occupied i).mpr ⟨st₁.actionUi, by rw [← hslotted.old haction, hold]⟩
      · rw [hafter]
        intro hp hop
        rcases hkept hp with rfl | ⟨slot, block, bytes, -, rfl⟩
        · exact h.save hp hop
        · exact (h.save hp hop).write slot block bytes
  | complete hcomp => exact fun hp => absurd rfl hp
  | @run st d op io =>
      intro _ hop
      obtain ⟨hslots, hop', hslot, hsource, hdisk, -, hseq⟩ := st.e11Worker_job d op io
      have hsave := h.save (by simp) (hop'.symm.trans hop)
      have hop'' : op = .save := (hc.op op rfl).symm.trans (hop'.symm.trans hop)
      refine ⟨?_, ?_, ?_, ?_⟩ <;> dsimp only
      · rw [hslots, hdisk]; exact hsave.occupied
      · rw [hslots, hdisk, hslot]; exact hsave.id
      · rw [hslots, hdisk, hsource]; exact hsave.source
      · rw [hslots, hdisk, hseq hop'']; exact hsave.sequence
  | lose => exact fun _ hop => h.save (by simp) hop

/-- While a job exists the HID worker keeps it until its completion. -/
theorem System.keepsJob {σ : System} {p : Phase} (hp : σ.HasPhase p) (hc : (σ.core p).Coherent)
    (a : Action) : σ.KeepsJob a := by
  rintro ⟨io, rfl⟩ hjobs hne
  have hb : σ.hid.busy = true := by
    refine hc.busy.mpr fun hidle => ?_
    rw [hp.jobsInFlight, show p = .idle from hidle] at hjobs
    simp at hjobs
  cases he : σ.events with
  | nil =>
      simp only [System.step, he]
      exact ⟨rfl, rfl, rfl, rfl, rfl, rfl, rfl⟩
  | cons event events =>
      have hne' : event ≠ .complete := by
        rintro rfl
        exact hne ⟨⟨io, rfl⟩, by rw [he]; rfl⟩
      simp only [System.step, he]
      obtain ⟨st, hbegins, hmove⟩ := v4Worker_moves σ.hid hne' io
      obtain rfl := hbegins.of_busy hb
      rcases hmove.of_busy hb with ⟨hst, -⟩ | ⟨slot, block, bytes, -, hst, -⟩
      · constructor <;> rw [hst]
      · constructor <;> rw [hst] <;> rfl

/-! ### From the submission to the completion -/

/-- Job `t` is still the job `s` was submitted as. -/
structure Storage.SameJob (s t : Storage) : Prop where
  op : t.op = s.op
  jobSlot : t.jobSlot = s.jobSlot
  jobSource : t.jobSource = s.jobSource
  diskSlot : t.diskSlot = s.diskSlot
  snapshot : t.snapshot = s.snapshot

/-- A step that is no completion keeps what the job is for. -/
theorem Core.Step.sameJob {calls : Calls} {c c' : Core} {out : List Effect} (hc : c.Coherent)
    (hs : Core.Step calls c c' out) (hp : c.phase ≠ .idle) (hp' : c'.phase ≠ .idle) :
    SameJob c.storage c'.storage := by
  cases hs with
  | event hbegins hmove =>
      have hb := hc.busy.mpr hp
      obtain rfl := hbegins.of_busy hb
      rcases hmove.of_busy hb with ⟨rfl, -⟩ | ⟨slot, block, bytes, -, rfl, -⟩
      · exact ⟨rfl, rfl, rfl, rfl, rfl⟩
      · exact ⟨rfl, rfl, rfl, rfl, rfl⟩
  | complete => exact absurd rfl hp'
  | @run st d op io =>
      obtain ⟨-, hop, hslot, hsource, hdisk, hsnapshot, -⟩ := st.e11Worker_job d op io
      exact ⟨hop, hslot, hsource, hdisk, hsnapshot⟩
  | lose => exact ⟨rfl, rfl, rfl, rfl, rfl⟩

/-- A run without completions keeps what the job is for. -/
theorem System.sameJob_run {σ : System} {p : Phase} (hp : σ.HasPhase p)
    (hc : (σ.core p).Coherent) (hne : p ≠ .idle) {as : List Action}
    (has : Run.Every System.step (fun σ a => ¬ σ.Completes a) σ as) :
    SameJob σ.hid.toStorage (Run.final System.step σ as).hid.toStorage := by
  have h := Run.final_of_every
    (P := fun τ : System => ∃ q, τ.HasPhase q ∧ (τ.core q).Coherent ∧ q ≠ .idle ∧
      SameJob σ.hid.toStorage τ.hid.toStorage)
    (fun τ a ha ⟨q, hq, hcq, hqne, hsame⟩ => ?_) has ⟨p, hp, hc, hne, rfl, rfl, rfl, rfl, rfl⟩
  · obtain ⟨-, -, -, -, hsame⟩ := h
    exact hsame
  · obtain ⟨q', hq', hs, hidle⟩ := τ.step_core_any a hq hcq
    have hqne' : q' ≠ .idle := fun h => (hidle h).elim hqne ha
    have hkept := hs.sameJob hcq hqne hqne'
    exact ⟨q', hq', hcq.step hs, hqne', hkept.op.trans hsame.op, hkept.jobSlot.trans hsame.jobSlot,
      hkept.jobSource.trans hsame.jobSource, hkept.diskSlot.trans hsame.diskSlot,
      hkept.snapshot.trans hsame.snapshot⟩

/-- A step that submits a job leaves it queued. -/
theorem Core.Step.submits {calls : Calls} {c c' : Core} {out : List Effect} {op : DiskOp}
    (hs : Core.Step calls c c' out) (hout : .submit op ∈ out) :
    c'.phase = .queued op ∧ c'.storage.op = op := by
  cases hs with
  | event hbegins hmove =>
      rcases hmove.busy with ⟨op', rfl, -, -, hop⟩ | ⟨hnone, -, -⟩
      · obtain rfl : op = op' := by simpa using hout
        exact ⟨rfl, hop⟩
      · have : op ∈ submitted out := List.mem_filterMap.mpr ⟨_, hout, rfl⟩
        rw [hnone] at this; cases this
  | complete hcomp =>
      have : op ∈ submitted out := List.mem_filterMap.mpr ⟨_, hout, rfl⟩
      rw [hcomp.submitted_eq] at this; cases this
  | run io => cases hout
  | lose => cases hout

/-! ### A completion that is lost -/

/-- A lost completion stays lost. -/
theorem Core.Step.lost {calls : Calls} {c c' : Core} {out : List Effect}
    (hs : Core.Step calls c c' out) (hp : c.phase = .lost) (hb : c.storage.busy = true) :
    c'.phase = .lost := by
  cases hs with
  | event hbegins hmove =>
      obtain rfl := hbegins.of_busy hb
      rcases hmove.of_busy hb with ⟨-, rfl⟩ | ⟨slot, block, bytes, -, -, rfl⟩ <;> exact hp
  | complete => cases hp
  | run => cases hp
  | lose => rfl

/-- The storage worker waits for a job and the HID worker for a completion. -/
def System.Stuck (σ : System) : Prop := σ.HasPhase .lost ∧ σ.hid.busy = true

theorem System.Stuck.step {σ : System} (h : σ.Stuck) (a : Action) : (σ.step a).1.Stuck := by
  have hc : (σ.core .lost).Coherent := ⟨by simp [System.core, h.2], fun op hp => nomatch hp⟩
  obtain ⟨p', hp', hs, -⟩ := σ.step_core_any a h.1 hc
  have hc' := hc.step hs
  obtain rfl : p' = .lost := hs.lost rfl h.2
  exact ⟨hp', hc'.busy.mpr (by simp [System.core])⟩

/-- A run in which sending a completion fails ends stuck. -/
theorem stuck_worker {σ : System} {p : Phase} (hp : σ.HasPhase p) (hc : (σ.core p).Coherent)
    {as : List Action} (has : ¬ Run.Every System.step System.CompletionSent σ as) :
    (Run.final System.step σ as).Stuck := by
  induction as generalizing σ p with
  | nil => exact absurd trivial has
  | cons a as ih =>
      by_cases ha : σ.CompletionSent a
      · obtain ⟨p', hp', hs, -⟩ := σ.step_core_any a hp hc
        exact ih hp' (hc.step hs) fun h => has ⟨ha, h⟩
      · rw [Run.final_cons]
        refine Run.final_of_every (C := fun _ _ => True) (P := System.Stuck)
          (fun σ a _ h => h.step a) (Run.every_true _ as) ?_
        cases a with
        | completed send =>
            simp only [System.CompletionSent, not_forall] at ha
            obtain ⟨hw, hsend⟩ := ha
            obtain ⟨m, d, events, jobs, worker⟩ := σ
            obtain rfl : worker = .finished := hw
            have hsend' : send < 0 := by omega
            cases p with
            | idle => exact absurd hp.2.1 (by simp)
            | lost => exact absurd hp.2.1 (by simp)
            | queued op => exact absurd hp.1 (by simp)
            | done =>
                obtain ⟨hj, ⟨-, hz⟩ | ⟨hw, -⟩⟩ := hp
                · have hb : m.busy = true := hc.busy.mpr (by simp [System.core])
                  simp only [System.step, hsend', if_true]
                  exact ⟨⟨hj, rfl, hz⟩, hb⟩
                · cases hw
        | _ => exact absurd trivial ha

theorem System.Stuck.not_iff {σ : System} (h : σ.Stuck) :
    ¬ (σ.jobsInFlight = 1 ↔ σ.hid.busy = true) := fun hiff => by
  have := hiff.mpr h.2
  rw [h.1.jobsInFlight] at this
  simp at this

/-- While no completion has been lost, `busy` says whether a job exists. -/
theorem busy_iff_of_sent {d : Disk} {io : StartIo} {as : List Action}
    (has : Run.Every System.step System.CompletionSent (System.init d io) as) :
    (Run.final System.step (System.init d io) as).jobsInFlight = 1 ↔
      (Run.final System.step (System.init d io) as).hid.busy = true := by
  have hmeets : Run.Every System.step (System.Meets ⟨fun _ => True, False⟩) (System.init d io) as :=
    has.mono fun σ a ha => by cases a <;> simp_all [System.Meets, System.CompletionSent]
  obtain ⟨p, hp, hc, hlost⟩ := System.core_of_every (I := fun c _ => c.phase ≠ .lost)
    (fun c c' l out _ hI hs => by
      cases hs with
      | @event st st₁ st' d p out =>
          simp only [Phase.after]
          split
          · exact hI
          · simp
      | complete => simp
      | run => simp
      | lose hlossy => exact hlossy.elim)
    (fun c h => by rcases h.phase with h | h <;> simp [h]) hmeets
  have hlost' : p ≠ .lost := hlost
  rw [hp.jobsInFlight]
  have := hc.busy
  simp only [System.core] at this
  rw [this]
  by_cases hidle : p = .idle <;> simp [hidle, hlost']

/-! ### The result -/

/-- What a run keeps to when the disk job is never doubled or mixed up. -/
structure OneJobRun (σ₀ : System) (as : List Action) : Prop where
  /-- At most one disk job exists. -/
  le_one : (Run.final System.step σ₀ as).jobsInFlight ≤ 1
  /-- One exists if and only if `busy` is set. -/
  busy : (Run.final System.step σ₀ as).jobsInFlight = 1 ↔
    (Run.final System.step σ₀ as).hid.busy = true
  /-- The HID worker keeps its variables until it processes the completion. -/
  kept : Run.Every System.step System.KeepsJob σ₀ as
  /-- A save job's slot holds the figure the job is for. -/
  saves : (Run.final System.step σ₀ as).jobsInFlight = 1 →
    (Run.final System.step σ₀ as).hid.op = .save → (Run.final System.step σ₀ as).hid.SavesOwn
  /-- A job submitted in the run and not completed since is the job it was. -/
  same : ∀ as₁ a as₂ op, as = as₁ ++ a :: as₂ →
    .submit op ∈ (System.step (Run.final System.step σ₀ as₁) a).2 →
    Run.Every System.step (fun σ a => ¬ σ.Completes a)
      (System.step (Run.final System.step σ₀ as₁) a).1 as₂ →
    (Run.final System.step σ₀ as).hid.op = op ∧
      SameJob (System.step (Run.final System.step σ₀ as₁) a).1.hid.toStorage
        (Run.final System.step σ₀ as).hid.toStorage

/-- The system keeps to one disk job exactly in the runs in which sending a
completion never fails. -/
theorem one_job_iff (d : Disk) (io : StartIo) (as : List Action) :
    OneJobRun (System.init d io) as ↔
      Run.Every System.step System.CompletionSent (System.init d io) as := by
  have hreach (as : List Action) := System.core_of_every (I := fun c _ => c.Saving)
    (fun _ _ _ _ hc h hs => h.step hc hs) (fun _ h => .initial h)
    (System.meets_any (System.init d io) as)
  constructor
  · intro h
    by_contra hsent
    obtain ⟨p, hp, hc, -⟩ := System.init_core d io
    exact (stuck_worker hp hc hsent).not_iff h.busy
  · intro hsent
    obtain ⟨p, hp, hc, hsaving⟩ := hreach as
    refine ⟨?_, busy_iff_of_sent hsent, ?_, ?_, ?_⟩
    · rw [hp.jobsInFlight]; split_ifs <;> decide
    · refine Run.every_of_every (C := fun _ _ => True)
        (P := fun σ : System => ∃ p, σ.HasPhase p ∧ (σ.core p).Coherent)
        (fun σ a _ ⟨p, hp, hc⟩ => ?_) (fun σ a _ ⟨p, hp, hc⟩ => System.keepsJob hp hc a)
        (Run.every_true _ as) ?_
      · obtain ⟨p', hp', hs, -⟩ := σ.step_core_any a hp hc
        exact ⟨p', hp', hc.step hs⟩
      · obtain ⟨p, hp, hc, -⟩ := System.init_core d io
        exact ⟨p, hp, hc⟩
    · intro hjobs hop
      refine hsaving.save (fun hidle => ?_) hop
      rw [hp.jobsInFlight, show p = .idle from hidle] at hjobs
      simp at hjobs
    · rintro as₁ a as₂ op rfl hsub hnc
      obtain ⟨p₁, hp₁, hc₁, -⟩ := hreach as₁
      obtain ⟨p₂, hp₂, hs, -⟩ := System.step_core_any _ a hp₁ hc₁
      obtain ⟨hq, hop⟩ := hs.submits (List.mem_filter.mpr ⟨hsub, rfl⟩)
      have hsame := System.sameJob_run hp₂ (hc₁.step hs) (by rw [show p₂ = _ from hq]; simp) hnc
      rw [Run.final_append, Run.final_cons]
      exact ⟨hsame.op.trans hop, hsame⟩

/-- A run in which reading the thread id fails and then the completion cannot be
sent: the job is gone and `busy` is set. -/
theorem busy_without_job :
    ¬ ∀ (d : Disk) (io : StartIo) (as : List Action),
      (Run.final System.step (System.init d io) as).jobsInFlight = 1 ↔
        (Run.final System.step (System.init d io) as).hid.busy = true := by
  intro h
  have h' := h (fun _ => none) ⟨0, 0, 0, 0, 0, 0⟩
    [.receive, .run { JobIo.ok with threadId := -1 }, .completed (-1)]
  exact absurd (h'.mpr rfl) (by decide)

end VirtualPortal
