/-
# Every action ends

An action of the menu waits for the disk: the figure shown is saved while it is dirty,
250 ticks pass, the new figure is loaded.  `Machine.actionRank` is the number of events
that can still pass before it ends, counting the completions of disk jobs and the ticks
that find no job running; no other step raises it (`System.step_rank`).  It is at most
756: 500 ticks before the catalogue is asked for again, its completion, the save of the
old figure and its completion, 250 ticks, and the completion of the load.

So an action that is never over would have to be kept from such events, and in a fair
schedule they come again and again: `actions_end`.
-/

import VirtualPortal.Hid.FairRuns
import VirtualPortal.Storage.RemovalDelay
import VirtualPortal.Storage.SecondFigure
import VirtualPortal.Storage.SingleJob

namespace VirtualPortal

open Storage

/-! ### The job of an action -/

/-- The slots are consistent, and an unfinished job leaves the running action something
to go on with. -/
structure Core.Ending (c : Core) : Prop extends Core.Slotted c where
  /-- A save is of the old slot as it still is. -/
  own : c.storage.action ≠ none → c.phase ≠ .idle → c.storage.op = .save →
    c.storage.old = some c.storage.diskSlot ∧
      c.storage.snapshot = (c.storage.slots c.storage.diskSlot).generation
  /-- The catalogue that a job has read has entries. -/
  listed : c.phase = .done → c.storage.op = .catalog → 0 ≤ c.storage.result →
    be32 c.storage.catalog.byte 4 ≠ 0
  counted : c.phase ≠ .idle → (c.storage.op = .catalog ↔ c.storage.count = 0)

/-- At the start no action is under way. -/
theorem Core.Ending.initial {c : Core} {d : Disk} (h : c.Initial d) : c.Ending where
  toSlotted := .initial h
  own haction := absurd h.action haction
  listed hp := by rcases h.phase with hq | hq <;> rw [hq] at hp <;> cases hp
  counted _ := iff_of_true h.op h.count

/-- Every step of the core leaves a running action something to go on with. -/
theorem Core.Ending.step {calls : Calls} {c c' : Core} {out : List Effect} (hc : c.Coherent)
    (h : c.Ending) (hs : Core.Step calls c c' out) : c'.Ending := by
  have hslotted := h.toSlotted.step hc hs
  cases hs with
  | @event st st₁ st' d p out hbegins hmove =>
      rcases hc.event hbegins hmove with ⟨op, st₂, rfl, hprepares, rfl⟩ | ⟨hafter, hkept⟩
      · -- a job is submitted
        refine ⟨hslotted, fun haction _ hop => ?_, fun hp => ?_, fun _ => ?_⟩
        · cases hprepares with
          | catalog => cases hop
          | load => cases hop
          | save i _ _ hslot =>
              rcases hslot with ⟨-, hnone⟩ | ⟨-, hold⟩
              · exact absurd hnone haction
              · exact ⟨hold, rfl⟩
        · simp [Phase.after, submitted] at hp
        · cases hprepares with
          | catalog hcount => exact iff_of_true rfl hcount
          | load hcount => exact iff_of_false (fun h => by cases h) hcount
          | save i hcount => exact iff_of_false (fun h => by cases h) hcount
      · -- the phase stays, and a job under way sees a block written at most
        rw [hafter] at hslotted ⊢
        refine ⟨hslotted, fun haction hp hop => ?_, fun hp hop => ?_, fun hp => ?_⟩
        · rcases hkept hp with rfl | ⟨slot, block, bytes, hpresent, rfl⟩
          · exact h.own haction hp hop
          · obtain ⟨hold, hsnapshot⟩ := h.own haction hp hop
            -- the old slot is off the portal
            have hne : st.diskSlot ≠ slot := by
              rintro rfl
              exact ((h.slots.present _).mp hpresent).2 ⟨haction, hold⟩
            refine ⟨hold, ?_⟩
            show st.snapshot = ((st.setSlot slot _).slots st.diskSlot).generation
            rw [slots_setSlot, if_neg hne]
            exact hsnapshot
        · have hne : p ≠ .idle := fun hidle => by
            rw [hidle] at hp
            cases hp
          rcases hkept hne with rfl | ⟨slot, block, bytes, -, rfl⟩
          · exact h.listed hp hop
          · exact h.listed hp hop
        · rcases hkept hp with rfl | ⟨slot, block, bytes, -, rfl⟩
          · exact h.counted hp
          · exact h.counted hp
  | complete =>
      exact ⟨hslotted, fun _ hp => absurd rfl hp, (fun hp => by cases hp), fun hp => absurd rfl hp⟩
  | @run st d op io =>
      obtain ⟨hslots, hop', -, -, hdisk, hsnapshot, -⟩ := st.e11Worker_job d op io
      have hop : st.op = op := hc.op op rfl
      refine ⟨hslotted, fun haction _ hsave => ?_, fun _ hcatalog hresult => ?_, fun _ => ?_⟩
      · have haction' : st.action ≠ none := by
          cases op <;> exact haction
        have hold : (st.e11Worker d op io).1.old = st.old := by cases op <;> rfl
        dsimp only at *
        rw [hold, hdisk, hsnapshot, hslots]
        exact h.own haction' (by simp) (hop'.symm.trans hsave)
      · obtain rfl : op = .catalog := hop.symm.trans (hop'.symm.trans hcatalog)
        obtain ⟨hcat, -, hvalid⟩ := e11CatalogLoad_eq_zero hresult
        show be32 (e11CatalogLoad d io st.catalog st.compact).catalog.byte 4 ≠ 0
        rw [hcat]
        exact hvalid.count.1
      · have hcount : (st.e11Worker d op io).1.count = st.count := by cases op <;> rfl
        dsimp only at *
        rw [hcount, hop']
        exact h.counted (by simp)
  | lose =>
      exact ⟨hslotted, fun haction _ hop => h.own haction (by simp) hop, (fun hp => by cases hp),
        fun _ => h.counted (by simp)⟩

/-! ### The rank -/

namespace Machine

/-- The figure that the action takes off the portal has unsaved writes. -/
def oldChanged (m : Machine) : Bool := m.old.any fun i => (m.slots i).changed

/-- What the action still has to wait for, if the next poll is at `now`. -/
def rankAt (m : Machine) (now : U32) : ℕ :=
  if m.busy then
    match m.op with
    | .catalog => 255
    | .save => 252
    | .load => 0
  else if m.count = 0 then 256 + (500 - (now - m.retry).toNat)
  else if m.oldChanged then 253
  else 1 + (250 - (now - m.removeTick).toNat)

def actionRank (m : Machine) : ℕ := m.rankAt (m.ticks + 1)

section Rank

variable {m m' : Machine} {now : U32}

/-- The rank while a job runs. -/
def jobRank : DiskOp → ℕ
  | .catalog => 255
  | .save => 252
  | .load => 0

/-- While a job is under way the rank is that of its kind. -/
theorem rankAt_job (h : m.busy = true) : m.rankAt now = jobRank m.op := by
  unfold rankAt jobRank
  rw [if_pos h]

/-- Without a catalogue the action waits until it is asked for again. -/
theorem rankAt_uncounted (h : m.busy = false) (hcount : m.count = 0) :
    m.rankAt now = 256 + (500 - (now - m.retry).toNat) := by
  unfold rankAt
  rw [h, if_neg Bool.false_ne_true, if_pos hcount]

/-- While the old figure is dirty the action waits for its save. -/
theorem rankAt_changed (h : m.busy = false) (hcount : m.count ≠ 0) (hold : m.oldChanged = true) :
    m.rankAt now = 253 := by
  unfold rankAt
  rw [h, if_neg Bool.false_ne_true, if_neg hcount, if_pos hold]

/-- When the old figure is clean the action waits for its 250 ticks. -/
theorem rankAt_clean (h : m.busy = false) (hcount : m.count ≠ 0) (hold : m.oldChanged = false) :
    m.rankAt now = 1 + (250 - (now - m.removeTick).toNat) := by
  unfold rankAt
  rw [h, if_neg Bool.false_ne_true, if_neg hcount, hold, if_neg Bool.false_ne_true]

/-- The rank is at most 756. -/
theorem rankAt_le (m : Machine) (now : U32) : m.rankAt now ≤ 756 := by
  unfold rankAt
  split_ifs
  · split <;> omega
  all_goals omega

/-- The rank with a catalogue and without a job. -/
theorem rankAt_idle (h : m.busy = false) (hcount : m.count ≠ 0) : m.rankAt now ≤ 253 := by
  by_cases hold : m.oldChanged = true
  · rw [rankAt_changed h hcount hold]
  · rw [rankAt_clean h hcount (eq_false_of_ne_true hold)]
    omega

/-- The rank looks at the storage and at two stamps. -/
theorem rankAt_congr (hstorage : m'.toStorage = m.toStorage) (hretry : m'.retry = m.retry)
    (hremove : m'.removeTick = m.removeTick) : m'.rankAt now = m.rankAt now := by
  unfold rankAt oldChanged
  rw [hstorage, hretry, hremove]

/-! ### A poll -/

/-- A wait that is not over gets shorter. -/
theorem wait_shorter {stamp : U32} {n : ℕ} (hn : n ≤ 500)
    (hwait : now - stamp < BitVec.ofNat 32 n) :
    n - (now + 1 - stamp).toNat < n - (now - stamp).toNat := by
  bv_omega

/-- A job that can be sent is under way. -/
theorem e11Submit_sent (m : Machine) (op : DiskOp) {send : Int} (hsend : 0 ≤ send) :
    (m.e11Submit op send).1 = { m with op := op, busy := true } := by
  unfold e11Submit
  rw [if_neg (not_lt.mpr hsend)]

/-- A job that is submitted for the action. -/
theorem e11Submit_rank (m : Machine) (op : DiskOp) {send : Int} (hsend : 0 ≤ send) :
    (m.e11Submit op send).1.action = m.action ∧
      (m.e11Submit op send).1.actionRank = jobRank op := by
  rw [e11Submit_sent m op hsend]
  exact ⟨rfl, rankAt_job rfl⟩

/-- The poll of an action ends it or lowers its rank. -/
theorem pollAction_rank {k : Swap} {send : Int} (haction : m.action = some k)
    (hbusy : m.busy = false) (hcount : m.count ≠ 0) (hsend : 0 ≤ send) :
    (m.pollAction k send).1.action = none ∨ (m.pollAction k send).1.action = some k ∧
      (m.pollAction k send).1.actionRank < m.rankAt m.ticks := by
  unfold pollAction
  split
  · next i hi =>
      have hold : m.oldChanged = true := by
        obtain ⟨hsome, hchanged⟩ := Option.filter_eq_some_iff.mp hi
        rw [oldChanged, hsome]
        exact hchanged
      obtain ⟨hkept, hrank⟩ :=
        e11Submit_rank { m with toStorage := m.toStorage.takeSnapshot i } .save hsend
      refine Or.inr ⟨hkept.trans haction, ?_⟩
      rw [rankAt_changed hbusy hcount hold]
      exact lt_of_eq_of_lt hrank (by decide)
  · next hnone =>
      have hclean : m.oldChanged = false := by
        rw [oldChanged]
        cases hold : m.old with
        | none => rfl
        | some i =>
            rw [hold] at hnone
            simpa using Option.filter_eq_none_iff.mp hnone i rfl
      rw [rankAt_clean hbusy hcount hclean]
      split_ifs with hwait
      · have hshorter := @wait_shorter m.ticks m.removeTick 250 (by omega) hwait
        refine Or.inr ⟨haction, ?_⟩
        show m.actionRank < _
        rw [actionRank, rankAt_clean hbusy hcount hclean]
        omega
      · cases k with
        | remove => exact Or.inl rfl
        | load =>
            obtain ⟨hkept, hrank⟩ :=
              e11Submit_rank { m with toStorage := m.toStorage.aimLoad } .load hsend
            refine Or.inr ⟨hkept.trans haction, ?_⟩
            rw [hrank, jobRank]
            omega

/-- A poll that finds no job brings the action closer to its end. -/
theorem pollDisk_rank {k : Swap} {send : Int} (haction : m.action = some k) (hbusy : m.busy = false)
    (hqueue : 0 ≤ m.queue) (hsend : 0 ≤ send) :
    (m.pollDisk send).1.action = none ∨ (m.pollDisk send).1.action = some k ∧
      (m.pollDisk send).1.actionRank < m.rankAt m.ticks := by
  have hidle : ¬ (m.busy = true ∨ m.queue < 0) := by
    rw [hbusy]
    exact not_or.mpr ⟨Bool.false_ne_true, not_lt.mpr hqueue⟩
  unfold pollDisk
  rw [if_neg hidle, haction]
  by_cases hcount : m.count = 0
  · rw [if_pos hcount, rankAt_uncounted hbusy hcount]
    split_ifs with hretry
    · obtain ⟨hkept, hrank⟩ := e11Submit_rank m .catalog hsend
      refine Or.inr ⟨hkept.trans haction, ?_⟩
      rw [hrank, jobRank]
      omega
    · have hshorter := @wait_shorter m.ticks m.retry 500 le_rfl (BitVec.not_le.mp hretry)
      refine Or.inr ⟨haction, ?_⟩
      show m.actionRank < _
      rw [actionRank, rankAt_uncounted hbusy hcount]
      omega
  · rw [if_neg hcount]
    exact pollAction_rank haction hbusy hcount hsend

/-! ### Ticks, completions and requests -/

/-- `e12_begin` leaves the tick of the last attempt. -/
theorem e12Begin_retry (m : Machine) (ui id : U32) (action : Swap) :
    (m.e12Begin ui id action).2.retry = m.retry := by
  rcases m.e12Begin_cases ui id action with h | ⟨pos, -, -, -, h⟩
  · rw [h]
  · rw [h]
    exact (congrArg Menu.retry (m.startAction_menu pos id action).1 :)

/-- A request of the menu leaves the tick of the last attempt. -/
theorem menuExecute_retry (m : Machine) (seq op arg : U32) :
    (m.menuExecute seq op arg).retry = m.retry := by
  have hswap (m : Machine) (action : Swap) : (m.menuSwap arg action).2.retry = m.retry := by
    have h := m.e12Begin_retry (arg >>> 16) (arg &&& 65535) action
    unfold menuSwap
    dsimp only
    split_ifs <;> exact h
  have hrequest (m : Machine) : (m.menuRequest op arg).2.retry = m.retry := by
    unfold menuRequest
    split_ifs
    · rfl
    · rfl
    · exact hswap m .load
    · exact hswap m .remove
    all_goals rfl
  unfold menuExecute
  dsimp only
  split_ifs <;> exact hrequest _

/-- The menu does not stamp the completion of a job. -/
theorem mailed_retry (m : Machine) (line : RequestLine) : (m.mailed line).retry = m.retry := by
  have halive {m m' : Machine} (h : m.menuAlive (line 5) = some m') : m'.retry = m.retry := by
    unfold menuAlive at h
    split_ifs at h <;> cases h <;> rfl
  have hmailbox (m : Machine) : (m.e11Mailbox line).1.retry = m.retry := by
    have h := m.e11Mailbox_step line
    generalize m.e11Mailbox line = out at h ⊢
    cases h with
    | idle => rfl
    | @executes m' _ _ h _ => exact (m'.menuExecute_retry _ _ _).trans (halive h)
    | @publishes m' h => exact (halive h : m'.retry = m.retry)
  unfold mailed
  dsimp only
  split_ifs
  · exact hmailbox _
  · rfl

/-- A tick during an action polls the machine as it was. -/
theorem mailed_of_action (line : RequestLine) (haction : m.action ≠ none) :
    (m.mailed line).toStorage = m.toStorage ∧ (m.mailed line).ticks = m.ticks + 1 ∧
      (m.mailed line).rankAt (m.mailed line).ticks = m.actionRank := by
  have hretry := m.mailed_retry line
  have hstep := m.mailed_menuStep line
  generalize m.mailed line = m' at hretry hstep ⊢
  cases hstep with
  | idle h => exact ⟨h.storage, h.ticks,
      by rw [h.ticks]; exact rankAt_congr h.storage hretry h.removeTick⟩
  | begin m₁ pos id action h hnone =>
      rw [h.storage] at hnone
      exact absurd hnone haction

/-- A tick brings the action closer to its end unless a job runs. -/
theorem v4Tick_rank {line : RequestLine} {send : Int} (haction : m.action ≠ none)
    (hqueue : 0 ≤ m.queue) (hsend : 0 ≤ send) :
    (m.v4Tick line send).1.action = none ∨ (m.v4Tick line send).1.action ≠ none ∧
      (m.v4Tick line send).1.actionRank ≤ m.actionRank ∧
      (m.busy = false → (m.v4Tick line send).1.actionRank < m.actionRank) := by
  obtain ⟨hstorage, hticks, hrank⟩ := mailed_of_action line haction
  rw [v4Tick_mailed]
  rw [← hrank]
  generalize m.mailed line = m₁ at *
  have hdelivered (m : Machine) : m.deliverReads.1.actionRank = m.actionRank := rfl
  show (m₁.pollDisk send).1.action = none ∨ (m₁.pollDisk send).1.action ≠ none ∧
    (m₁.pollDisk send).1.actionRank ≤ _ ∧ (_ → (m₁.pollDisk send).1.actionRank < _)
  rw [← hstorage] at haction
  by_cases hbusy : m₁.busy = true
  · have hidle : m₁.pollDisk send = (m₁, []) := by
      unfold pollDisk
      rw [if_pos (Or.inl hbusy)]
    rw [hidle]
    refine Or.inr ⟨haction, ?_, fun hnot => ?_⟩
    · exact (rankAt_job hbusy).trans_le (rankAt_job hbusy).ge
    · rw [← hstorage, hbusy] at hnot
      cases hnot
  · obtain ⟨k, hk⟩ := Option.ne_none_iff_exists'.mp haction
    rcases pollDisk_rank hk (eq_false_of_ne_true hbusy) (by rwa [hstorage]) hsend with
      hend | ⟨hkept, hlt⟩
    · exact Or.inl hend
    · exact Or.inr ⟨by rw [hkept]; exact Option.some_ne_none k, hlt.le, fun _ => hlt⟩

/-- A completion brings the action closer to its end. -/
theorem e09Complete_rank (haction : m.action ≠ none) (hbusy : m.busy = true)
    (hown : m.op = .save → m.old = some m.diskSlot ∧ m.snapshot = (m.slots m.diskSlot).generation)
    (hlisted : m.op = .catalog → 0 ≤ m.result → be32 m.catalog.byte 4 ≠ 0)
    (hcounted : m.op ≠ .catalog → m.count ≠ 0) :
    m.e09Complete.1.action = none ∨ m.e09Complete.1.action ≠ none ∧
      m.e09Complete.1.actionRank < m.actionRank := by
  have h := m.e09Complete_step
  generalize m.e09Complete = out at h ⊢
  cases h with
  | failed _ hnone => exact absurd hnone haction
  | abandoned => exact Or.inl (m.takeResult.e12Restore_action _)
  | counted hresult hop =>
      have hkept : (m.takeResult.countEntries.e12Begin 0 0 .load).2 =
          m.takeResult.countEntries := by
        rcases m.takeResult.countEntries.e12Begin_cases 0 0 .load with h | ⟨pos, hnone, -⟩
        · exact h
        · exact absurd hnone haction
      rw [hkept, actionRank, actionRank, rankAt_job hbusy, hop]
      exact Or.inr ⟨haction, lt_of_le_of_lt (rankAt_idle rfl (hlisted hop hresult)) (by decide)⟩
  | saved hresult hop =>
      obtain ⟨hold, hsnapshot⟩ := hown hop
      have hcount : m.count ≠ 0 := hcounted (by rw [hop]; decide)
      have hclean : Slot.changed ((m.toStorage.taken.saveDone).slots m.diskSlot) = false := by
        rw [saveDone, show m.toStorage.taken.diskSlot = m.diskSlot from rfl, slots_setSlot,
          if_pos rfl]
        show decide ((m.slots m.diskSlot).generation ≠ m.snapshot) = false
        rw [hsnapshot]
        exact decide_eq_false (not_not_intro rfl)
      have hclean' : oldChanged { m.takeResult with toStorage := m.toStorage.taken.saveDone } =
          false := by
        show (m.old.any fun i => ((m.toStorage.taken.saveDone).slots i).changed) = false
        rw [hold]
        exact hclean
      refine Or.inr ⟨haction, lt_of_eq_of_lt (rankAt_clean rfl hcount hclean') ?_⟩
      rw [actionRank, rankAt_job hbusy, hop, jobRank]
      omega
  | rejected error => exact Or.inl (m.takeResult.e12Restore_action error)
  | installed => exact Or.inl rfl

/-- A write misses the old figure, which is off the portal. -/
theorem v4Process_rank (hs : m.toStorage.Slotted) (haction : m.action ≠ none) (mem : Mem)
    (msg : Option IpcMessage) :
    (m.v4Process mem msg).1.action ≠ none ∧ (m.v4Process mem msg).1.actionRank = m.actionRank := by
  obtain ⟨⟨hmenu, hticks⟩, hstorage⟩ := m.v4Process_requests mem msg
  generalize (m.v4Process mem msg).1 = m' at hmenu hticks hstorage ⊢
  have hretry : m'.retry = m.retry := (congrArg Menu.retry hmenu :)
  have hremove : m'.removeTick = m.removeTick := (congrArg Menu.removeTick hmenu :)
  unfold actionRank
  rw [hticks]
  generalize hst : m'.toStorage = st at hstorage
  cases hstorage with
  | none => exact ⟨haction, rankAt_congr hst hretry hremove⟩
  | block slot block bytes hpresent =>
      refine ⟨haction, ?_⟩
      have hold : m'.oldChanged = m.oldChanged := by
        unfold oldChanged
        rw [hst]
        show (m.old.any _) = _
        cases ho : m.old with
        | none => rfl
        | some o =>
            have hne : o ≠ slot := by
              rintro rfl
              exact ((hs.present _).mp hpresent).2 ⟨haction, ho⟩
            show Slot.changed ((m.toStorage.setSlot slot _).slots o) = _
            rw [slots_setSlot, if_neg hne]
            rfl
      unfold rankAt
      rw [hold, hretry, hremove, hst]
      rfl

end Rank

end Machine

/-! ### Steps of the system -/

/-- An action that begins leaves the queue of the storage worker. -/
theorem Storage.Begins.queue {st st' : Storage} (h : Begins st st') : st'.queue = st.queue := by
  cases h <;> rfl

/-- Only the start of the storage worker sets its queue. -/
theorem Core.Step.queue {calls : Calls} {c c' : Core} {out : List Effect}
    (h : Core.Step calls c c' out) : c'.storage.queue = c.storage.queue := by
  cases h with
  | event hbegins hmove =>
      rw [← hbegins.queue]
      cases hmove with
      | begins hb => exact hb.queue
      | write => rfl
      | remove => rfl
      | job op sent _ hprepares => cases hprepares <;> rfl
  | complete hcomp =>
      cases hcomp with
      | failed => split_ifs <;> rfl
      | catalog _ _ hb => exact hb.queue
      | saved => rfl
      | rejected => rfl
      | installed => rfl
  | @run st d op io => cases op <;> rfl
  | lose => rfl

/-- A completion is lost only by a send that fails. -/
theorem Core.Step.not_lost {calls : Calls} {c c' : Core} {out : List Effect}
    (h : Core.Step calls c c' out) (hlossy : ¬ calls.lossy) (hphase : c.phase ≠ .lost) :
    c'.phase ≠ .lost := by
  cases h with
  | @event st st₁ st' d p out =>
      unfold Phase.after
      dsimp only
      split
      · exact hphase
      · exact nofun
  | complete => exact nofun
  | run => exact nofun
  | lose h => exact absurd h hlossy

namespace System

/-- The storage worker has been started, and no completion has been lost. -/
def Alive (σ : System) : Prop :=
  ∃ p, σ.HasPhase p ∧ (σ.core p).Coherent ∧ (σ.core p).Ending ∧ p ≠ .lost ∧ 0 ≤ σ.hid.queue

/-- The sends of the step succeed. -/
def SendsOk : Action → Prop
  | .hid io => 0 ≤ io.send
  | .completed send => 0 ≤ send
  | _ => True

/-- The HID worker handles a completion, or a tick while no job runs. -/
def Helps (σ : System) (a : Action) : Prop :=
  (∃ io, a = .hid io) ∧
    (σ.events.head? = some .complete ∨ σ.events.head? = some .tick ∧ σ.hid.busy = false)

/-- The system is alive at the start when the queue has been created. -/
theorem Alive.init {d : Disk} {io : StartIo} (hqueue : 0 ≤ (init d io).hid.queue) :
    (init d io).Alive := by
  obtain ⟨p, hp, hc, hi⟩ := init_core d io
  refine ⟨p, hp, hc, .initial hi, ?_, hqueue⟩
  rintro rfl
  rcases hi.phase with h | h <;> cases h

section Step

variable {σ : System} {a : Action}

/-- Every step whose sends succeed keeps the system alive. -/
theorem Alive.step (h : σ.Alive) (ha : SendsOk a) : (σ.step a).1.Alive := by
  obtain ⟨p, hp, hc, he, hlost, hqueue⟩ := h
  have hmeets : Meets ⟨fun _ => True, False⟩ σ a := by
    cases a with
    | completed send => exact fun _ => Or.inl ha
    | _ => trivial
  obtain ⟨p', hp', hstep, -⟩ := σ.step_core a hp hc hmeets
  exact ⟨p', hp', hc.step hstep, he.step hc hstep, hstep.not_lost id hlost,
    hqueue.trans_eq hstep.queue.symm⟩

/-- A step of another party leaves the clock and the menu alone, and the storage too
unless it runs a disk job. -/
theorem step_outside_keeps (ha : ∀ io, a ≠ .hid io) :
    ((σ.step a).1.hid.toStorage = σ.hid.toStorage ∨ ∃ op io, σ.worker = .running op ∧
      a = .run io ∧ (σ.step a).1.hid.toStorage = (σ.hid.e11Worker σ.disk op io).1) ∧
      σ.hid.SameMenu (σ.step a).1.hid := by
  cases a with
  | hid io => exact absurd rfl (ha io)
  | timer => exact ⟨Or.inl rfl, rfl, rfl⟩
  | ioctl msg send =>
      show ((σ.v4IoctlDispatch msg send).1.hid.toStorage = _ ∨ _) ∧
        σ.hid.SameMenu (σ.v4IoctlDispatch msg send).1.hid
      unfold v4IoctlDispatch
      split
      · split_ifs <;> exact ⟨Or.inl rfl, rfl, rfl⟩
      · exact ⟨Or.inl rfl, rfl, rfl⟩
  | close msg send =>
      show ((σ.v4CloseDispatch msg send).1.hid.toStorage = _ ∨ _) ∧
        σ.hid.SameMenu (σ.v4CloseDispatch msg send).1.hid
      unfold v4CloseDispatch
      split
      · split_ifs <;> exact ⟨Or.inl rfl, rfl, rfl⟩
      · exact ⟨Or.inl rfl, rfl, rfl⟩
  | receive =>
      unfold step
      dsimp only
      split <;> exact ⟨Or.inl rfl, rfl, rfl⟩
  | completed send =>
      unfold step
      dsimp only
      split <;> exact ⟨Or.inl rfl, rfl, rfl⟩
  | run io =>
      unfold step
      dsimp only
      split
      · next op hworker => exact ⟨Or.inr ⟨op, io, hworker, rfl, rfl⟩, rfl, rfl⟩
      · exact ⟨Or.inl rfl, rfl, rfl⟩

/-- A job that is run was submitted, and not completed since. -/
theorem HasPhase.running {p : Phase} {op : DiskOp} (hp : σ.HasPhase p)
    (hworker : σ.worker = .running op) : p ≠ .idle := by
  rintro rfl
  rw [hp.2.1] at hworker
  cases hworker

/-- A step of another party leaves the rank. -/
theorem outside_rank (h : σ.Alive) (ha : ∀ io, a ≠ .hid io) (haction : σ.hid.action ≠ none) :
    (σ.step a).1.hid.action ≠ none ∧ (σ.step a).1.hid.actionRank = σ.hid.actionRank := by
  obtain ⟨p, hp, hc, -, hlost, -⟩ := h
  obtain ⟨hstorage, hmenu, hticks⟩ := step_outside_keeps (σ := σ) ha
  generalize (σ.step a).1.hid = m at hstorage hmenu hticks ⊢
  unfold Machine.actionRank
  rw [hticks]
  rcases hstorage with hsame | ⟨op, io, hworker, -, hrun⟩
  · exact ⟨by rw [hsame]; exact haction, Machine.rankAt_congr hsame (congrArg Menu.retry hmenu :)
      (congrArg Menu.removeTick hmenu :)⟩
  · have hbusy : σ.hid.busy = true := hc.busy.mpr (hp.running hworker)
    have hkept : m.busy = σ.hid.busy ∧ m.op = σ.hid.op ∧ m.action = σ.hid.action := by
      rw [hrun]
      cases op <;> exact ⟨rfl, rfl, rfl⟩
    refine ⟨fun hnone => haction (hkept.2.2.symm.trans hnone), ?_⟩
    rw [Machine.rankAt_job hbusy, Machine.rankAt_job (hkept.1.trans hbusy), hkept.2.1]

/-- No step takes the action further from its end, and each one that helps brings it
closer. -/
theorem step_rank (h : σ.Alive) (ha : SendsOk a) (haction : σ.hid.action ≠ none) :
    (σ.step a).1.hid.action = none ∨ (σ.step a).1.hid.action ≠ none ∧
      (σ.step a).1.hid.actionRank ≤ σ.hid.actionRank ∧
      (σ.Helps a → (σ.step a).1.hid.actionRank < σ.hid.actionRank) := by
  by_cases hhid : ∃ io, a = .hid io
  · obtain ⟨io, rfl⟩ := hhid
    obtain ⟨p, hp, hc, he, hlost, hqueue⟩ := h
    cases hevents : σ.events with
    | nil =>
        have hstep : σ.step (.hid io) = (σ, []) := by simp only [step, hevents]
        rw [hstep]
        refine Or.inr ⟨haction, le_rfl, fun hhelps => ?_⟩
        rcases hhelps.2 with h | ⟨h, -⟩ <;> rw [hevents] at h <;> cases h
    | cons event events =>
        rw [step_event hevents]
        cases event with
        | tick =>
            rcases Machine.v4Tick_rank haction hqueue ha with hend | ⟨hkept, hle, hlt⟩
            · exact Or.inl hend
            · refine Or.inr ⟨hkept, hle, fun hhelps => hlt ?_⟩
              rcases hhelps.2 with h | ⟨-, h⟩
              · rw [hevents] at h
                cases h
              · exact h
        | complete =>
            have hbusy : σ.hid.busy = true := Sound.busy ⟨p, hp, hc, he.toSlotted⟩ hevents
            have hphase : p ≠ .idle := hc.busy.mp hbusy
            have hdone : p = .done := by
              have hcount : σ.events.count .complete ≠ 0 := by
                rw [hevents, List.count_cons_self]
                exact Nat.succ_ne_zero _
              cases p with
              | idle => exact absurd rfl hphase
              | lost => exact absurd rfl hlost
              | done => rfl
              | queued op => exact absurd hp.2 hcount
            rcases Machine.e09Complete_rank haction hbusy (he.own haction hphase)
              (he.listed hdone) (mt (he.counted hphase).mpr) with hend | ⟨hkept, hlt⟩
            · exact Or.inl hend
            · exact Or.inr ⟨hkept, hlt.le, fun _ => hlt⟩
        | request msg =>
            obtain ⟨hkept, hrank⟩ := Machine.v4Process_rank he.slots haction io.mem msg
            refine Or.inr ⟨hkept, hrank.le, fun hhelps => ?_⟩
            rcases hhelps.2 with h | ⟨h, -⟩ <;> rw [hevents] at h <;> cases h
  · obtain ⟨hkept, hrank⟩ := outside_rank h (fun io h => hhid ⟨io, h⟩) haction
    exact Or.inr ⟨hkept, hrank.le, fun hhelps => absurd hhelps.1 hhid⟩

end Step

/-! ### Endless runs -/

instance (a : Action) : Decidable (∃ io, a = .hid io) :=
  match a with
  | .hid io => isTrue ⟨io, rfl⟩
  | .timer | .ioctl _ _ | .close _ _ | .receive | .run _ | .completed _ => isFalse nofun

instance (σ : System) : DecidablePred σ.Helps := fun _ => inferInstanceAs (Decidable (_ ∧ _))

section Runs

variable {d : Disk} {io : StartIo} {as : ℕ → Action}

/-- In a fair schedule every send succeeds. -/
theorem Fair.sendsOk (h : Fair as) (n : ℕ) : SendsOk (as n) := by
  cases ha : as n with
  | hid io => exact h.sent n io ha
  | completed send => exact h.posted n send ha
  | _ => trivial

/-- In a fair schedule the system stays alive. -/
theorem Fair.alive (h : Fair as) (hqueue : 0 ≤ (init d io).hid.queue) (n : ℕ) :
    (Run.along step (init d io) as n).Alive := by
  induction n with
  | zero => exact .init hqueue
  | succ n ih => exact ih.step (h.sendsOk n)

/-- What brings actions to their end comes again and again. -/
theorem Fair.helps (h : Fair as) (hqueue : 0 ≤ (init d io).hid.queue) :
    Recurs fun n => (Run.along step (init d io) as n).Helps (as n) := by
  have hcompletes : LeadsTo (fun n => (Run.along step (init d io) as n).hid.busy = true)
      fun n => (Run.along step (init d io) as n).Helps (as n) := by
    intro n hbusy
    obtain ⟨p, hp, hc, -, hlost, -⟩ := h.alive hqueue n
    obtain ⟨k, hk, hhid, hhead⟩ := h.completes n ⟨p, hp, hc.busy.mp hbusy, hlost⟩
    exact ⟨k, hk, hhid, Or.inl hhead⟩
  have htick : LeadsTo (Takes (init d io) as .tick)
      fun n => (Run.along step (init d io) as n).Helps (as n) := by
    rintro n ⟨hhid, hhead⟩
    by_cases hbusy : (Run.along step (init d io) as n).hid.busy = true
    · exact hcompletes n hbusy
    · exact ⟨n, le_rfl, hhid, Or.inr ⟨hhead, eq_false_of_ne_true hbusy⟩⟩
  exact htick.recurs h.ticks

/-- An action comes to its end. -/
theorem Fair.action_ends (hfair : Fair as) (hqueue : 0 ≤ (init d io).hid.queue) :
    Recurs fun n => (Run.along step (init d io) as n).hid.action = none := by
  have hstep (n : ℕ) := step_rank (hfair.alive hqueue n) (hfair.sendsOk n)
  have hends : LeadsTo (fun n => (Run.along step (init d io) as n).hid.action ≠ none)
      fun n => (Run.along step (init d io) as n).hid.action = none := by
    refine .of_rank (fun n => (Run.along step (init d io) as n).hid.actionRank)
      (hfair.helps hqueue).leadsTo (fun n hn _ => ?_) fun n hn hhelps => ?_
    · rcases hstep n hn with hend | ⟨hkept, hle, -⟩
      · exact Or.inr hend
      · exact Or.inl ⟨hkept, hle⟩
    · rcases hstep n hn with hend | ⟨hkept, -, hlt⟩
      · exact Or.inr hend
      · exact Or.inl ⟨hkept, hlt hhelps⟩
  intro n
  by_cases hn : (Run.along step (init d io) as n).hid.action = none
  · exact ⟨n, le_rfl, hn⟩
  · exact hends n hn

/-- **Every action ends.**  Once the queue of the storage worker has been created, in a
fair schedule no action goes on for ever, and while one goes on at most 757 completions
and ticks without a job are handled: whatever the disk jobs return, whatever the game and
the menu ask for, and at every value of the tick counter. -/
theorem actions_end (hqueue : 0 ≤ (init d io).hid.queue) (hfair : Fair as) :
    (Recurs fun n => (Run.along step (init d io) as n).hid.action = none) ∧
      ∀ n l, (∀ i < l, (Run.along step (init d io) as (n + i)).hid.action ≠ none) →
        (List.range l).countP (fun i => (Run.along step (init d io) as (n + i)).Helps (as (n + i)))
          ≤ 757 := by
  have hstep (n : ℕ) := step_rank (hfair.alive hqueue n) (hfair.sendsOk n)
  refine ⟨hfair.action_ends hqueue, fun n l hl => ?_⟩
  have hcount := counted_le (p := fun n => (Run.along step (init d io) as n).hid.action ≠ none)
    (f := fun n => (Run.along step (init d io) as n).Helps (as n))
    (fun n => (Run.along step (init d io) as n).hid.actionRank)
    (fun n hn hnext => ((hstep n hn).resolve_left hnext).2.1)
    (fun n hn hhelps hnext => ((hstep n hn).resolve_left hnext).2.2 hhelps) hl
  exact hcount.trans (Nat.succ_le_succ (Machine.rankAt_le _ _))

/-- The turns of `turns` on a card with two figures: the catalogue is read, the first figure
is loaded, and nobody uses the menu. -/
theorem actions_end_turns :
    Recurs fun n => (Run.along step (init twoFigureCard .ok) turns n).hid.action = none :=
  (actions_end (by decide) turns_fair).1

end Runs

end System

end VirtualPortal
