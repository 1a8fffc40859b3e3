/-
# A removal is seen before it is final

An action takes the figure shown off the portal at once and stamps the tick; the game
is given 250 ticks to notice before the figure leaves its slot or its successor is
loaded.  `e09_poll` compares an unsigned difference of two tick counters, and that
difference is at most the number of ticks that have passed, whether the counter has
wrapped or not.  So it is enough to follow an upper bound (`Machine.Timed`): every tick
raises it by one, and an action that begins starts it again.

A load job is `250` ticks late when it is submitted, and only one that has been
submitted can be completed, where the new figure takes the slot of the old one.

`deadlines` puts this together with the deadlines of reads.
-/

import VirtualPortal.Hid.ReadDeadlines
import VirtualPortal.Hid.StatusStream
import VirtualPortal.Storage.BackgroundSaves

namespace VirtualPortal

open Storage

namespace Machine

/-- A figure leaves its slot. -/
def Vacates (m m' : Machine) : Prop :=
  ∃ i, (m.slots i).occupied = true ∧ (m'.slots i).occupied = false

/-- At most `k` ticks have passed since the last action began, and a load job
exists only after 250. -/
structure Timed (m : Machine) (k : ℕ) : Prop where
  elapsed : (m.ticks - m.removeTick).toNat ≤ k
  load : m.busy = true → m.op = .load → 250 ≤ k

/-- A step after which `k` ticks have passed: nothing is final before 250. -/
structure OnTime (m : Machine) (r : Machine × List Effect) (k : ℕ) : Prop where
  timed : r.1.Timed k
  final : .submit .load ∈ r.2 ∨ m.Vacates r.1 → 250 ≤ k

variable {m m' : Machine} {k : ℕ}

/-- Where the same slots are taken none is left. -/
theorem not_vacates (h : ∀ i, (m'.slots i).occupied = (m.slots i).occupied) : ¬ m.Vacates m' := by
  rintro ⟨i, hi, hi'⟩
  rw [h, hi] at hi'
  cases hi'

/-- A step that does nothing final. -/
theorem OnTime.of_timed {r : Machine × List Effect} (h : r.1.Timed k) (hout : .submit .load ∉ r.2)
    (hslots : ∀ i, (r.1.slots i).occupied = (m.slots i).occupied) : m.OnTime r k :=
  ⟨h, fun hfinal => absurd hfinal (not_or.mpr ⟨hout, not_vacates hslots⟩)⟩

/-! ### Beginning an action -/

/-- An action that begins takes and frees no slot. -/
theorem startAction_occupied (m : Machine) (pos : Fin 16) (id : U32) (action : Swap) (i : Fin 16) :
    ((m.startAction pos id action).slots i).occupied = (m.slots i).occupied := by
  rw [toStorage_startAction]
  simp only [Storage.startAction, setOldPresent]
  split_ifs <;> rfl

/-- The wait starts when an action begins. -/
theorem startAction_timed (m : Machine) (pos : Fin 16) (id : U32) (action : Swap)
    (hbusy : m.busy = false) : (m.startAction pos id action).Timed 0 := by
  obtain ⟨hmenu, hticks⟩ := m.startAction_menu pos id action
  refine ⟨?_, fun hb => ?_⟩
  · rw [hticks, (congrArg Menu.removeTick hmenu :)]
    show (m.ticks - m.ticks).toNat ≤ 0
    rw [BitVec.sub_self]
    exact le_rfl
  · rw [toStorage_startAction] at hb
    rw [show (m.toStorage.startAction pos id action).busy = m.busy from rfl, hbusy] at hb
    cases hb

/-- The age of an action is kept by steps that leave its tick. -/
theorem Idles.timed (h : m.Idles m') (hm : m.Timed k) : m'.Timed k := by
  refine ⟨by rw [h.ticks, h.removeTick]; exact hm.elapsed, fun hb hop => hm.load ?_ ?_⟩
  · rw [h.storage] at hb
    exact hb
  · rw [h.storage] at hop
    exact hop

/-- A bound on the age holds for every larger one. -/
theorem Timed.mono {k' : ℕ} (h : m.Timed k) (hle : k ≤ k') : m.Timed k' :=
  ⟨h.elapsed.trans hle, fun hb hop => (h.load hb hop).trans hle⟩

/-- A step of the menu keeps the bound: a new action is of age 0. -/
theorem MenuStep.timed (h : m.MenuStep m') (hm : m.Timed k) : m'.Timed k := by
  cases h with
  | idle h => exact h.timed hm
  | begin m₁ pos id action _ _ hbusy h' =>
      exact (h'.timed (m₁.startAction_timed pos id action hbusy)).mono (Nat.zero_le k)

/-- The wait starts again if an action begins. -/
theorem MenuStep.timed_begin (h : m.MenuStep m') (hnone : m.action = none)
    (hsome : m'.action ≠ none) : m'.Timed 0 := by
  cases h with
  | idle h =>
      rw [h.storage] at hsome
      exact absurd hnone hsome
  | begin m₁ pos id action _ _ hbusy h' =>
      exact h'.timed (m₁.startAction_timed pos id action hbusy)

/-- A step of the menu takes and frees no slot. -/
theorem MenuStep.occupied (h : m.MenuStep m') (i : Fin 16) :
    (m'.slots i).occupied = (m.slots i).occupied := by
  cases h with
  | idle h => rw [h.storage]
  | begin m₁ pos id action h _ _ h' =>
      rw [h'.storage, startAction_occupied, h.storage]

/-- A look at the mailbox is a step of the menu on the next tick. -/
theorem mailed_menuStep (m : Machine) (line : RequestLine) :
    { m with ticks := m.ticks + 1 }.MenuStep (m.mailed line) := by
  unfold mailed
  dsimp only
  split_ifs
  · exact e11Mailbox_menuStep _ line
  · exact .idle (.refl _)

/-- A tick more has passed. -/
theorem Timed.count (h : m.Timed k) : { m with ticks := m.ticks + 1 }.Timed (k + 1) := by
  refine ⟨?_, fun hb hop => (h.load hb hop).trans (Nat.le_succ k)⟩
  have hle := h.elapsed
  show (m.ticks + 1 - m.removeTick).toNat ≤ k + 1
  generalize m.ticks = a at hle ⊢
  generalize m.removeTick = b at hle ⊢
  bv_omega

/-! ### The poll -/

/-- A submission keeps the bound, for a load when it is large enough. -/
theorem e11Submit_timed {op : DiskOp} (send : Int) (hm : m.Timed k) (hop : op = .load → 250 ≤ k) :
    (m.e11Submit op send).1.Timed k := by
  unfold e11Submit
  dsimp only
  split_ifs
  · exact ⟨hm.elapsed, fun hb => by cases hb⟩
  · exact ⟨hm.elapsed, fun _ h => hop h⟩

/-- A submission is on time when no slot is left. -/
theorem e11Submit_onTime {op : DiskOp} (send : Int) (hm : m.Timed k) (hop : op = .load → 250 ≤ k)
    (hslots : ∀ i, (m.slots i).occupied = (m'.slots i).occupied) :
    m'.OnTime (m.e11Submit op send) k := by
  refine ⟨e11Submit_timed send hm hop, fun hfinal => hop ?_⟩
  unfold e11Submit at hfinal
  dsimp only at hfinal
  split_ifs at hfinal
  · exact absurd hfinal (not_or.mpr ⟨List.not_mem_nil, not_vacates hslots⟩)
  · rcases hfinal with h | h
    · simpa [eq_comm] using h
    · exact absurd h (not_vacates hslots)

/-- The poll of an action is on time. -/
theorem pollAction_onTime {action : Swap} (send : Int) (hm : m.Timed k) :
    m.OnTime (m.pollAction action send) k := by
  unfold pollAction
  split
  · exact e11Submit_onTime send ⟨hm.elapsed, hm.load⟩ (fun h => by cases h) fun _ => rfl
  · split_ifs with hwait
    · exact .of_timed hm List.not_mem_nil fun _ => rfl
    · have hlate : 250 ≤ k := le_trans (by simpa [BitVec.lt_def] using hwait) hm.elapsed
      cases action with
      | remove => exact ⟨⟨hm.elapsed, hm.load⟩, fun _ => hlate⟩
      | load => exact ⟨e11Submit_timed send ⟨hm.elapsed, hm.load⟩ fun _ => hlate, fun _ => hlate⟩

/-- A background save is on time. -/
theorem pollSave_onTime (send : Int) (hm : m.Timed k) : m.OnTime (m.pollSave send) k := by
  rw [pollSave_eq]
  split
  · exact e11Submit_onTime send ⟨hm.elapsed, hm.load⟩ (fun h => by cases h) fun _ => rfl
  · exact .of_timed ⟨hm.elapsed, hm.load⟩ List.not_mem_nil fun _ => rfl

/-- Every poll is on time. -/
theorem pollDisk_onTime (send : Int) (hm : m.Timed k) : m.OnTime (m.pollDisk send) k := by
  have hpolls := m.pollDisk_polls send
  generalize m.backgroundSlot = slot at hpolls
  generalize m.pollDisk send = r at hpolls ⊢
  cases hpolls with
  | idle => exact .of_timed hm List.not_mem_nil fun _ => rfl
  | catalog => exact e11Submit_onTime send hm (fun h => by cases h) fun _ => rfl
  | action action => exact pollAction_onTime send hm
  | autoload =>
      have hstep := m.e12Begin_menuStep 0 0 .load
      exact .of_timed (hstep.timed hm) List.not_mem_nil hstep.occupied
  | save => exact pollSave_onTime send hm

/-- A tick is the poll of the machine after the mailbox. -/
theorem v4Tick_onTime {line : RequestLine} {send : Int} {n : ℕ}
    (h : (m.mailed line).OnTime ((m.mailed line).pollDisk send) n) :
    m.OnTime (m.v4Tick line send) n := by
  have hsubmit : .submit .load ∈ (m.v4Tick line send).2 →
      .submit .load ∈ ((m.mailed line).pollDisk send).2 := by
    intro hmem
    have hfigure : Effect.submit .load ∈ figureEffects (m.v4Tick line send).2 :=
      List.mem_filter.mpr ⟨hmem, rfl⟩
    rw [figureEffects_mailed] at hfigure
    exact (List.mem_filter.mp hfigure).1
  refine ⟨?_, fun hfinal => h.final ?_⟩
  · rw [v4Tick_mailed]
    exact ⟨h.timed.elapsed, h.timed.load⟩
  · rw [v4Tick_mailed] at hfinal
    refine hfinal.imp hsubmit fun ⟨i, hi, hi'⟩ => ⟨i, ?_, hi'⟩
    exact ((m.mailed_menuStep line).occupied i).trans hi

/-! ### Completions and requests -/

/-- A completion follows its job. -/
theorem e09Complete_onTime (hm : m.Timed k) (hbusy : m.busy = true) :
    m.OnTime m.e09Complete k := by
  have hrestore (m' : Machine) (error : Int) (htaken : m'.Timed k)
      (hsame : ∀ i, (m'.slots i).occupied = (m.slots i).occupied) :
      m.OnTime (m'.e12Restore error, []) k := by
    obtain ⟨hmenu, hticks⟩ := m'.e12Restore_menu error
    have hstorage := m'.toStorage_e12Restore error
    refine .of_timed ⟨?_, fun hb hop => htaken.load ?_ ?_⟩ List.not_mem_nil fun i => ?_
    · rw [hticks, (congrArg Menu.removeTick hmenu :)]
      exact htaken.elapsed
    · rw [hstorage] at hb
      exact hb
    · rw [hstorage] at hop
      exact hop
    · rw [hstorage, ← hsame]
      simp only [Storage.restore, setOldPresent]
      split_ifs <;> rfl
  have htaken : m.takeResult.Timed k := ⟨hm.elapsed, fun hb => by cases hb⟩
  have h := m.e09Complete_step
  generalize m.e09Complete = out at h ⊢
  cases h with
  | failed => exact .of_timed htaken List.not_mem_nil fun _ => rfl
  | abandoned => exact hrestore _ _ htaken fun _ => rfl
  | counted =>
      have hstep := m.takeResult.countEntries.e12Begin_menuStep 0 0 .load
      exact .of_timed (hstep.timed ⟨hm.elapsed, fun hb => by cases hb⟩) List.not_mem_nil
        hstep.occupied
  | saved =>
      refine .of_timed ⟨hm.elapsed, fun hb => by cases hb⟩ (by simp) fun i => ?_
      show ((m.toStorage.taken.saveDone).slots i).occupied = (m.slots i).occupied
      rw [saveDone, slots_setSlot]
      split_ifs with hi
      · rw [hi]
        rfl
      · rfl
  | rejected error => exact hrestore _ error htaken fun _ => rfl
  | installed slot hresult hop =>
      exact ⟨⟨hm.elapsed, fun hb => by cases hb⟩, fun _ => hm.load hbusy hop⟩

/-- A request of a game is on time. -/
theorem v4Process_onTime (hm : m.Timed k) (mem : Mem) (msg : Option IpcMessage) :
    m.OnTime (m.v4Process mem msg) k := by
  obtain ⟨⟨hmenu, hticks⟩, hstorage⟩ := m.v4Process_requests mem msg
  have hsame : (m.v4Process mem msg).1.busy = m.busy ∧ (m.v4Process mem msg).1.op = m.op ∧
      ∀ i, ((m.v4Process mem msg).1.slots i).occupied = (m.slots i).occupied := by
    generalize (m.v4Process mem msg).1.toStorage = st at hstorage ⊢
    cases hstorage with
    | none => exact ⟨rfl, rfl, fun _ => rfl⟩
    | block slot block bytes hpresent =>
        refine ⟨rfl, rfl, fun i => ?_⟩
        rw [slots_setSlot]
        split_ifs with hi
        · rw [hi]
          rfl
        · rfl
  obtain ⟨hbusy, hop, hslots⟩ := hsame
  refine .of_timed ⟨?_, ?_⟩ (fun hmem => ?_) hslots
  · rw [hticks, (congrArg Menu.removeTick hmenu :)]
    exact hm.elapsed
  · rw [hbusy, hop]
    exact hm.load
  · have hsubmitted := submitted_process m mem msg
    have hload : DiskOp.load ∈ submitted (m.v4Process mem msg).2 :=
      List.mem_filterMap.mpr ⟨_, hmem, rfl⟩
    rw [hsubmitted] at hload
    cases hload

/-! ### A step that begins an action -/

/-- A poll that begins an action is on time for its age 0. -/
theorem pollDisk_begin (send : Int) (hm : m.action ≠ none → m.Timed 0)
    (hsome : (m.pollDisk send).1.action ≠ none) : m.OnTime (m.pollDisk send) 0 := by
  by_cases hnone : m.action = none
  · have hpolls := m.pollDisk_polls send
    have hsubmit (m : Machine) (op : DiskOp) : (m.e11Submit op send).1.action = m.action := by
      unfold e11Submit
      dsimp only
      split_ifs <;> rfl
    generalize m.backgroundSlot = slot at hpolls
    generalize m.pollDisk send = r at hpolls hsome ⊢
    cases hpolls with
    | idle => exact absurd hnone hsome
    | catalog => exact absurd ((hsubmit m _).trans hnone) hsome
    | action action _ haction => rw [hnone] at haction; cases haction
    | autoload =>
        have hstep := m.e12Begin_menuStep 0 0 .load
        exact .of_timed (hstep.timed_begin hnone hsome) List.not_mem_nil hstep.occupied
    | save =>
        rw [pollSave_eq] at hsome
        split at hsome
        · next slot _ =>
            have hkept : ({ m with saveCursor := slot + 1 }.e12SaveSlot slot send).1.action =
                m.action :=
              hsubmit { m with
                toStorage := m.toStorage.takeSnapshot slot, saveCursor := slot + 1 } .save
            exact absurd (hkept.trans hnone) hsome
        · exact absurd hnone hsome
  · exact pollDisk_onTime send (hm hnone)

/-- A tick that begins an action is on time for its age 0. -/
theorem v4Tick_begin {line : RequestLine} {send : Int} (hnone : m.action = none)
    (hsome : (m.v4Tick line send).1.action ≠ none) : m.OnTime (m.v4Tick line send) 0 := by
  refine v4Tick_onTime (pollDisk_begin send (fun h => ?_) ?_)
  · exact (m.mailed_menuStep line).timed_begin hnone h
  · rw [v4Tick_mailed] at hsome
    exact hsome

/-- A completion that begins an action is on time for its age 0. -/
theorem e09Complete_begin (hnone : m.action = none) (hsome : m.e09Complete.1.action ≠ none) :
    m.OnTime m.e09Complete 0 := by
  have htaken : m.takeResult.action = none := hnone
  have h := m.e09Complete_step
  generalize m.e09Complete = out at h hsome ⊢
  cases h with
  | failed => exact absurd htaken hsome
  | abandoned => exact absurd (m.takeResult.e12Restore_action _) hsome
  | counted =>
      have hstep := m.takeResult.countEntries.e12Begin_menuStep 0 0 .load
      exact .of_timed (hstep.timed_begin htaken hsome) List.not_mem_nil hstep.occupied
  | saved => exact absurd htaken hsome
  | rejected error => exact absurd (m.takeResult.e12Restore_action error) hsome
  | installed => exact absurd rfl hsome

end Machine

/-! ### Runs -/

namespace System

/-- The event that the HID worker handles in a step. -/
def handles (σ : System) : Action → Option HidEvent
  | .hid io =>
      match σ.events with
      | .tick :: _ => some (.tick io.line io.send)
      | .complete :: _ => some .complete
      | .request msg :: _ => some (.process io.mem msg)
      | [] => none
  | _ => none

/-- The number of ticks that a run handles. -/
def ticksOf (σ : System) (as : List Action) : ℕ :=
  ticksIn (Run.outputs (fun σ a => ((step σ a).1, (σ.handles a).toList)) σ as)

/-- The ticks of a run are those of its first step and of the rest. -/
theorem ticksOf_cons (σ : System) (a : Action) (as : List Action) :
    σ.ticksOf (a :: as) = ticksIn (σ.handles a).toList + (σ.step a).1.ticksOf as :=
  ticksIn_append _ _

/-- The step begins an action; the figure shown leaves the portal. -/
def BeginsAction (σ : System) (a : Action) : Prop :=
  σ.hid.action = none ∧ (σ.step a).1.hid.action ≠ none

/-- The step submits a load job, or a figure leaves its slot. -/
def IsFinal (σ : System) (a : Action) : Prop :=
  .submit .load ∈ (σ.step a).2 ∨ σ.hid.Vacates (σ.step a).1.hid

section Step

variable {σ : System} {a : Action} {k : ℕ}

/-- A step of another party is not about time. -/
theorem outside_onTime (ha : ∀ io, a ≠ .hid io) :
    σ.handles a = none ∧ (σ.step a).1.hid.action = σ.hid.action ∧
      (σ.hid.Timed k → σ.hid.OnTime ((σ.step a).1.hid, (σ.step a).2) k) := by
  have hkeep {m : Machine} {out : List Effect} (haction : m.action = σ.hid.action)
      (htime : m.ticks = σ.hid.ticks ∧ m.removeTick = σ.hid.removeTick)
      (hjob : m.busy = σ.hid.busy ∧ m.op = σ.hid.op) (hslots : m.slots = σ.hid.slots)
      (hout : .submit .load ∉ out) :
      m.action = σ.hid.action ∧ (σ.hid.Timed k → σ.hid.OnTime (m, out) k) := by
    refine ⟨haction, fun hm => .of_timed ⟨?_, ?_⟩ hout fun i => by rw [hslots]⟩
    · show (m.ticks - m.removeTick).toNat ≤ k
      rw [htime.1, htime.2]
      exact hm.elapsed
    · show m.busy = true → m.op = .load → 250 ≤ k
      rw [hjob.1, hjob.2]
      exact hm.load
  cases a with
  | hid io => exact absurd rfl (ha io)
  | timer => exact ⟨rfl, hkeep rfl ⟨rfl, rfl⟩ ⟨rfl, rfl⟩ rfl List.not_mem_nil⟩
  | ioctl msg send =>
      refine ⟨rfl, ?_⟩
      show (σ.v4IoctlDispatch msg send).1.hid.action = _ ∧ (_ → σ.hid.OnTime
        ((σ.v4IoctlDispatch msg send).1.hid, (σ.v4IoctlDispatch msg send).2) k)
      unfold v4IoctlDispatch
      split
      · split_ifs <;> exact hkeep rfl ⟨rfl, rfl⟩ ⟨rfl, rfl⟩ rfl (by simp)
      · exact hkeep rfl ⟨rfl, rfl⟩ ⟨rfl, rfl⟩ rfl (by simp)
  | close msg send =>
      refine ⟨rfl, ?_⟩
      show (σ.v4CloseDispatch msg send).1.hid.action = _ ∧ (_ → σ.hid.OnTime
        ((σ.v4CloseDispatch msg send).1.hid, (σ.v4CloseDispatch msg send).2) k)
      unfold v4CloseDispatch
      split
      · split_ifs <;> exact hkeep rfl ⟨rfl, rfl⟩ ⟨rfl, rfl⟩ rfl (by simp)
      · exact hkeep rfl ⟨rfl, rfl⟩ ⟨rfl, rfl⟩ rfl (by cases msg <;> simp)
  | receive =>
      refine ⟨rfl, ?_⟩
      unfold step
      dsimp only
      split <;> exact hkeep rfl ⟨rfl, rfl⟩ ⟨rfl, rfl⟩ rfl List.not_mem_nil
  | run io =>
      refine ⟨rfl, ?_⟩
      unfold step
      dsimp only
      split
      · next event _ =>
          cases event <;> exact hkeep rfl ⟨rfl, rfl⟩ ⟨rfl, rfl⟩ rfl List.not_mem_nil
      · exact hkeep rfl ⟨rfl, rfl⟩ ⟨rfl, rfl⟩ rfl List.not_mem_nil
  | completed send =>
      refine ⟨rfl, ?_⟩
      unfold step
      dsimp only
      split <;> exact hkeep rfl ⟨rfl, rfl⟩ ⟨rfl, rfl⟩ rfl List.not_mem_nil

/-- A completion is handled only while a job exists. -/
theorem Sound.busy {events : List Event} (h : σ.Sound) (hevents : σ.events = .complete :: events) :
    σ.hid.busy = true := by
  obtain ⟨p, hp, hc, -⟩ := h
  refine hc.busy.mpr fun hidle => ?_
  have hp' : σ.HasPhase .idle := (show p = .idle from hidle) ▸ hp
  have hcount := hp'.2.2
  rw [hevents, List.count_cons_self] at hcount
  omega

/-- Every step is on time. -/
theorem step_onTime (hsound : σ.Sound) (hm : σ.hid.Timed k) (a : Action) :
    σ.hid.OnTime ((σ.step a).1.hid, (σ.step a).2) (k + ticksIn (σ.handles a).toList) := by
  by_cases ha : ∃ io, a = .hid io
  · obtain ⟨io, rfl⟩ := ha
    cases hevents : σ.events with
    | nil =>
        have hstep : σ.step (.hid io) = (σ, []) := by simp only [step, hevents]
        have hhandles : σ.handles (.hid io) = none := by simp only [handles, hevents]
        rw [hstep, hhandles]
        exact .of_timed hm List.not_mem_nil fun _ => rfl
    | cons event events =>
        rw [step_event hevents]
        cases event with
        | tick =>
            have hhandles : σ.handles (.hid io) = some (.tick io.line io.send) := by
              simp only [handles, hevents]
            rw [hhandles]
            exact Machine.v4Tick_onTime (Machine.pollDisk_onTime io.send
              ((σ.hid.mailed_menuStep io.line).timed hm.count))
        | complete =>
            have hhandles : σ.handles (.hid io) = some .complete := by simp only [handles, hevents]
            rw [hhandles]
            exact Machine.e09Complete_onTime hm (hsound.busy hevents)
        | request msg =>
            have hhandles : σ.handles (.hid io) = some (.process io.mem msg) := by
              simp only [handles, hevents]
            rw [hhandles]
            exact Machine.v4Process_onTime hm io.mem msg
  · obtain ⟨hhandles, -, htime⟩ := @outside_onTime σ a k fun io h => ha ⟨io, h⟩
    rw [hhandles]
    exact htime hm

/-- A step that begins an action starts the wait. -/
theorem begin_onTime (hbegin : σ.BeginsAction a) :
    σ.hid.OnTime ((σ.step a).1.hid, (σ.step a).2) 0 := by
  obtain ⟨hnone, hsome⟩ := hbegin
  by_cases ha : ∃ io, a = .hid io
  · obtain ⟨io, rfl⟩ := ha
    cases hevents : σ.events with
    | nil =>
        have hstep : σ.step (.hid io) = (σ, []) := by simp only [step, hevents]
        rw [hstep] at hsome
        exact absurd hnone hsome
    | cons event events =>
        rw [step_event hevents] at hsome ⊢
        cases event with
        | tick => exact Machine.v4Tick_begin hnone hsome
        | complete => exact Machine.e09Complete_begin hnone hsome
        | request msg =>
            have hstorage := (σ.hid.v4Process_requests io.mem msg).storage
            have hkept : (σ.hid.v4Process io.mem msg).1.action = σ.hid.action := by
              generalize (σ.hid.v4Process io.mem msg).1.toStorage = st at hstorage ⊢
              cases hstorage <;> rfl
            exact absurd (hkept.trans hnone) hsome
  · obtain ⟨-, hkept, -⟩ := @outside_onTime σ a 0 fun io h => ha ⟨io, h⟩
    exact absurd (hkept.trans hnone) hsome

/-- From the beginning of an action on, the bound counts the ticks. -/
theorem run_timed (hsound : σ.Sound) (hm : σ.hid.Timed k) (as : List Action) :
    (Run.final step σ as).Sound ∧ (Run.final step σ as).hid.Timed (k + σ.ticksOf as) := by
  induction as generalizing σ k with
  | nil => exact ⟨hsound, hm⟩
  | cons a as ih =>
      have hnext := ih (hsound.step a) (step_onTime hsound hm a).timed
      rw [ticksOf_cons, ← Nat.add_assoc]
      exact hnext

end Step

/-- The ticks of a run in two parts. -/
theorem ticksOf_append (σ : System) (as bs : List Action) :
    σ.ticksOf (as ++ bs) = σ.ticksOf as + (Run.final step σ as).ticksOf bs := by
  induction as generalizing σ with
  | nil => exact (Nat.zero_add _).symm
  | cons a as ih =>
      rw [List.cons_append, ticksOf_cons, ticksOf_cons, ih, Nat.add_assoc]
      rfl

/-- Nothing is final before 250 ticks have passed since an action began. -/
theorem removal_delay {σ : System} {a a' : Action} {as : List Action} (hsound : σ.Sound)
    (hbegin : σ.BeginsAction a) :
    ¬ σ.IsFinal a ∧ ((Run.final step (σ.step a).1 as).IsFinal a' →
      250 ≤ (σ.step a).1.ticksOf (as ++ [a'])) := by
  have hzero := begin_onTime hbegin
  refine ⟨fun hfinal => absurd (hzero.final hfinal) (by decide), fun hfinal => ?_⟩
  obtain ⟨hsound', htimed⟩ := run_timed (hsound.step a) hzero.timed as
  have hlate := (step_onTime hsound' htimed a').final hfinal
  rw [Nat.zero_add] at hlate
  rw [ticksOf_append, ticksOf_cons]
  exact hlate

end System

/-- **Deadlines are exact at every value of the tick counter.**  Let the counter start
at any `t`.  A read that is accepted, and neither cancelled nor reset, completes by the
11th tick if it carries a reply and by the first if it carries a status packet.  The
step that begins an action is not final, and a later one is final only if 250 ticks
have passed. -/
theorem deadlines (d : Disk) (io : StartIo) (t : U32) :
    (∀ (es₀ es : List HidEvent) (mem : Mem) (req : Option IpcMessage) (fd : Fin 16)
        (msg : IpcMessage),
      let m := Run.final Machine.hidStep { Machine.start io with ticks := t } es₀
      (m.sessions fd).read = none →
      ((m.hidStep (.process mem req)).1.sessions fd).read = some msg →
      (∀ e ∈ es, e.Spares fd) →
        (m.hidStep (.process mem req)).1.Completes fd msg
          (if (m.sessions fd).count ≠ 0 then 11 else 1) es) ∧
    (∀ (as₀ as : List Action) (a a' : Action),
      let σ := Run.final System.step
        { System.init d io with hid := { (System.init d io).hid with ticks := t } } as₀
      σ.BeginsAction a → ¬ σ.IsFinal a ∧
        ((Run.final System.step (σ.step a).1 as).IsFinal a' →
          250 ≤ (σ.step a).1.ticksOf (as ++ [a']))) := by
  refine ⟨fun es₀ es mem req fd msg => ?_, fun as₀ as a a' => ?_⟩
  · intro m hnone hread hes
    have hstart := Machine.AtSubmission.start io
    have hm : m.AtSubmission := Run.final_of_every (fun m e _ h => h.step e) (Run.every_true _ es₀)
      ⟨hstart.own, hstart.pending⟩
    exact read_deadline hm hnone hread hes
  · intro σ hbegin
    have hstart : System.Sound
        { System.init d io with hid := { (System.init d io).hid with ticks := t } } := by
      obtain ⟨p, hp, hc, hs⟩ := System.sound d io []
      exact ⟨p, hp, hc, hs⟩
    have hsound : σ.Sound :=
      Run.final_of_every (fun σ a _ h => h.step a) (Run.every_true _ as₀) hstart
    exact System.removal_delay hsound hbegin

/-- A reply that waits while the counter wraps. -/
theorem deadlines_wrap :
    ((Run.final Machine.hidStep { Machine.start .ok with ticks := 0xfffffffc }
      [.version 1, .ready 2]).hidStep (.readIn 3)).1.Completes 0 (portalRequest 3 3 32) 11
        (List.replicate 10 (.tick (fun _ => 0) 0)) :=
  (deadlines (fun _ => none) .ok 0xfffffffc).1 [.version 1, .ready 2] _ (memoryAt readHeader)
    (some (portalRequest 3 3 32)) 0 _ (by decide) (by decide) fun e he => by
      rw [List.eq_of_mem_replicate he]
      exact ⟨fun ⟨_, _, h, _⟩ => (nomatch h), fun ⟨_, _, h, _⟩ => (nomatch h)⟩

end VirtualPortal
