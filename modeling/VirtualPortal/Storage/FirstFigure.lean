/-
# The first figure

After start the storage worker reads the catalogue and the poll then loads entry
0 into the first menu position.  On a card with a valid catalogue this takes one
catalogue job, 250 ticks and one load job; `firstFigure_shown` says what it ends in.

While an action whose old figure is saved waits for its 250 ticks nothing but the clock
changes (`v4Tick_waits`), and the 250th tick submits its load (`untilLoaded_run`).
-/

import VirtualPortal.Storage.Slots
import VirtualPortal.Storage.CrashSafety

namespace VirtualPortal

open Storage

/-- Calls of the HID worker that return nothing of interest. -/
def HidIo.idle : HidIo := ⟨fun _ => 0, fun _ => 0, 0⟩

/-- `n` ticks with nothing else to do. -/
def wait : ℕ → List Action
  | 0 => []
  | n + 1 => .timer :: .hid .idle :: wait n

/-- While time passes only the timer and the HID worker act. -/
theorem mem_wait {n : ℕ} {a : Action} (h : a ∈ wait n) : a = .timer ∨ a = .hid .idle := by
  induction n with
  | zero => cases h
  | succ n ih =>
      rcases List.mem_cons.mp h with h | h
      · exact Or.inl h
      · exact (List.mem_cons.mp h).elim Or.inr ih

/-- The calls of an action succeed. -/
def Action.Succeeds : Action → Prop
  | .hid io => 0 ≤ io.send
  | .run io => io = .ok
  | .completed send => 0 ≤ send
  | _ => True

/-- An action whose calls succeed is honest. -/
theorem Action.Succeeds.honest {a : Action} (h : a.Succeeds) (σ : System) :
    System.Meets .honest σ a := by
  cases a with
  | run io =>
      obtain rfl : io = .ok := h
      exact JobIo.ok_honest
  | completed => exact fun _ => Or.inr trivial
  | _ => trivial

/-- A disk job from its submission to its completion. -/
def runJob (io : JobIo) : List Action := [.receive, .run io, .completed 0]

/-! ### Waiting -/

/-- An action runs that has no old figure, or a saved one, and no read is parked. -/
structure Machine.Waiting (m : Machine) (kind : Swap) : Prop where
  read : ∀ fd, (m.sessions fd).read = none
  busy : m.busy = false
  queue : ¬ m.queue < 0
  count : m.count ≠ 0
  action : m.action = some kind
  saved : (m.old.filter fun i => (m.slots i).changed) = none

/-- The machine `n` ticks later. -/
def Machine.later (m : Machine) (n : ℕ) : Machine := { m with ticks := m.ticks + BitVec.ofNat 32 n }

section Waiting

variable {m : Machine} {kind : Swap}

/-- Time that passes leaves an action waiting. -/
theorem Machine.Waiting.later (h : m.Waiting kind) (n : ℕ) : (m.later n).Waiting kind :=
  ⟨h.read, h.busy, h.queue, h.count, h.action, h.saved⟩

/-- One tick more. -/
theorem Machine.later_succ (m : Machine) (n : ℕ) : (m.later n).later 1 = m.later (n + 1) := by
  unfold Machine.later
  rw [BitVec.ofNat_add, ← BitVec.add_assoc]

/-- With no read parked no tick delivers anything. -/
theorem deliverReads_of_none (hread : ∀ fd, (m.sessions fd).read = none) :
    m.deliverReads = (m, []) := by
  have htick (fd : Fin 16) : (m.sessions fd).v4Tick m.ticks = (m.sessions fd, []) := by
    rw [Session.v4Tick, hread fd]
  simp only [Machine.deliverReads, htick]
  rw [List.flatMap_eq_nil_iff.mpr fun _ _ => rfl]

/-- Without the menu's mark on the request line the mailbox is left alone. -/
theorem Machine.e11Mailbox_silent (m : Machine) {line : RequestLine} (hline : line 0 ≠ 0x4531324d) :
    m.e11Mailbox line = (m, []) := by
  unfold Machine.e11Mailbox
  rw [if_pos (Or.inl hline), ite_self]

/-- A tick with a silent menu and no read parked is the poll of the disk side. -/
theorem Machine.v4Tick_silent {m' : Machine} {out : List Effect}
    (hpoll : (m.later 1).pollDisk 0 = (m', out)) (hread : ∀ fd, (m'.sessions fd).read = none) :
    m.v4Tick (fun _ => 0) 0 = (m', out) := by
  have hpolled : (m.later 1).e09Poll (fun _ => 0) 0 = (m', out) := by
    unfold Machine.e09Poll
    rw [(m.later 1).e11Mailbox_silent (by decide), ite_self]
    dsimp only
    rw [hpoll]
    rfl
  show (((m.later 1).e09Poll (fun _ => 0) 0).1.deliverReads.1,
    ((m.later 1).e09Poll (fun _ => 0) 0).2 ++
      ((m.later 1).e09Poll (fun _ => 0) 0).1.deliverReads.2) = _
  rw [hpolled, deliverReads_of_none hread, List.append_nil]

/-- The poll of a machine with an action and no job. -/
theorem Machine.pollDisk_action (hbusy : m.busy = false) (hqueue : ¬ m.queue < 0)
    (hcount : m.count ≠ 0) (haction : m.action = some kind) :
    m.pollDisk 0 = m.pollAction kind 0 := by
  unfold Machine.pollDisk
  rw [if_neg (not_or.mpr ⟨ne_true_of_eq_false hbusy, hqueue⟩), if_neg hcount, haction]

/-- The poll while the action waits. -/
theorem Machine.Waiting.pollDisk (h : m.Waiting kind) :
    m.pollDisk 0 = if m.ticks - m.removeTick < 250 then (m, [])
      else match kind with
        | .remove => ({ m with toStorage := m.toStorage.finishRemove }, [])
        | .load => { m with toStorage := m.toStorage.aimLoad }.e11Submit .load 0 := by
  rw [Machine.pollDisk_action h.busy h.queue h.count h.action]
  unfold Machine.pollAction
  dsimp only
  cases kind with
  | load => rw [h.saved]
  | remove => rw [h.saved]

/-- While it is less than 250 ticks old the action only waits. -/
theorem Machine.Waiting.v4Tick_waits (h : m.Waiting kind)
    (hwait : (m.later 1).ticks - m.removeTick < 250) :
    m.v4Tick (fun _ => 0) 0 = (m.later 1, []) :=
  Machine.v4Tick_silent ((h.later 1).pollDisk.trans (if_pos hwait)) (h.later 1).read

/-- The machine with the load job of its action submitted, 250 ticks after the start. -/
def Machine.loading (m : Machine) : Machine :=
  { m.later 250 with
    toStorage := { (m.later 250).toStorage.aimLoad with op := .load, busy := true } }

/-- The age of an action is the number of ticks since. -/
theorem Machine.later_age (hstart : m.ticks = m.removeTick) (n : ℕ) :
    (m.later n).ticks - m.removeTick = BitVec.ofNat 32 n := by
  show m.ticks + BitVec.ofNat 32 n - m.removeTick = _
  rw [hstart, BitVec.add_comm, BitVec.add_sub_cancel]

/-- The tick at which a load is due submits it. -/
theorem Machine.Waiting.v4Tick_due (h : m.Waiting .load) (hstart : m.ticks = m.removeTick) :
    (m.later 249).v4Tick (fun _ => 0) 0 = (m.loading, [.submit .load]) := by
  have hdue : ¬ ((m.later 249).later 1).ticks - (m.later 249).removeTick < 250 := by
    rw [Machine.later_succ]
    show ¬ (m.later 250).ticks - m.removeTick < 250
    rw [Machine.later_age hstart]
    decide
  refine Machine.v4Tick_silent
    ((((h.later 249).later 1).pollDisk.trans (if_neg hdue)).trans ?_) h.read
  rw [Machine.later_succ]
  rfl

/-- The system in which the storage worker has nothing to do. -/
def atRest (m : Machine) (d : Disk) : System := ⟨m, d, [], [], .waiting⟩

/-- One tick. -/
theorem tick_step (m : Machine) (d : Disk) :
    ((atRest m d).step .timer).1.step (.hid .idle) =
      (⟨(m.v4Tick (fun _ => 0) 0).1, d, [], submitted (m.v4Tick (fun _ => 0) 0).2, .waiting⟩,
        (m.v4Tick (fun _ => 0) 0).2) := rfl

/-- Ticks that change the clock only. -/
theorem silent_run {d : Disk} {k n : ℕ}
    (h : ∀ j < n, (m.later (k + j)).v4Tick (fun _ => 0) 0 = (m.later (k + j + 1), [])) :
    Run.final System.step (atRest (m.later k) d) (wait n) = atRest (m.later (k + n)) d ∧
      Run.outputs System.step (atRest (m.later k) d) (wait n) = [] ∧
      Run.Every System.step (fun σ _ => σ.hid.action = m.action) (atRest (m.later k) d)
        (wait n) := by
  induction n generalizing k with
  | zero => exact ⟨rfl, rfl, trivial⟩
  | succ n ih =>
      have hstep : ((atRest (m.later k) d).step .timer).1.step (.hid .idle) =
          (atRest (m.later (k + 1)) d, []) := by
        rw [tick_step, show (m.later k).v4Tick _ 0 = _ from h 0 (Nat.succ_pos n)]
        rfl
      obtain ⟨hfinal, hout, hevery⟩ := ih (k := k + 1) fun j hj => by
        rw [Nat.add_assoc, Nat.add_comm 1]
        exact h (j + 1) (Nat.succ_lt_succ hj)
      refine ⟨?_, ?_, rfl, rfl, ?_⟩
      · show
          Run.final System.step (((atRest (m.later k) d).step .timer).1.step (.hid .idle)).1 _ = _
        rw [hstep, hfinal, Nat.add_assoc, Nat.add_comm 1 n]
      · show [] ++ ((((atRest (m.later k) d).step .timer).1.step (.hid .idle)).2 ++
          Run.outputs System.step (((atRest (m.later k) d).step .timer).1.step (.hid .idle)).1 _)
            = []
        rw [hstep, hout]
        rfl
      · show Run.Every _ _ (((atRest (m.later k) d).step .timer).1.step (.hid .idle)).1 _
        rw [hstep]
        exact hevery

/-- No time passes. -/
theorem Machine.later_zero (m : Machine) : m.later 0 = m := by
  unfold Machine.later
  rw [BitVec.add_zero]

/-- Ticks of an action younger than 250 ticks change the clock. -/
theorem wait_run {d : Disk} (h : m.Waiting kind) (hstart : m.ticks = m.removeTick) {n : ℕ}
    (hn : n < 250) :
    Run.final System.step (atRest m d) (wait n) = atRest (m.later n) d ∧
      Run.outputs System.step (atRest m d) (wait n) = [] ∧
      Run.Every System.step (fun σ _ => σ.hid.action ≠ none) (atRest m d) (wait n) := by
  have haction : m.action ≠ none := by rw [h.action]; exact Option.some_ne_none _
  have hrun := silent_run (m := m) (d := d) (k := 0) (n := n) fun j hj => by
    have hage : ((m.later (0 + j)).later 1).ticks - (m.later (0 + j)).removeTick < 250 := by
      rw [m.later_succ]
      show (m.later (0 + j + 1)).ticks - m.removeTick < 250
      rw [Machine.later_age hstart, BitVec.lt_def, toNat_ofNat_of_lt (by omega)]
      exact show 0 + j + 1 < 250 by omega
    rw [(h.later (0 + j)).v4Tick_waits hage, m.later_succ]
  rw [m.later_zero, Nat.zero_add] at hrun
  exact ⟨hrun.1, hrun.2.1, Run.Every.mono (fun _ _ hkept => hkept ▸ haction) hrun.2.2⟩

/-- A job of an idle storage worker, from its submission to its completion. -/
theorem runJob_run (m : Machine) (d : Disk) (op : DiskOp) (io : JobIo) :
    Run.final System.step ⟨m, d, [], [op], .waiting⟩ (runJob io) =
        ⟨{ m with toStorage := (m.e11Worker d op io).1 }, (m.e11Worker d op io).2, [.complete], [],
          .waiting⟩ ∧
      Run.outputs System.step ⟨m, d, [], [op], .waiting⟩ (runJob io) = [] ∧
      Run.Every System.step (fun σ _ => σ.hid.action = m.action) ⟨m, d, [], [op], .waiting⟩
        (runJob io) := by
  have haction : (m.e11Worker d op io).1.action = m.action := by cases op <;> rfl
  exact ⟨rfl, rfl, rfl, rfl, haction, trivial⟩

/-- The HID worker takes the completion of a job. -/
theorem completes_run {m m' : Machine} {d : Disk} {out : List Effect}
    (hdone : m.e09Complete = (m', out)) (hnone : submitted out = []) :
    Run.final System.step ⟨m, d, [.complete], [], .waiting⟩ [.hid .idle] = atRest m' d ∧
      Run.outputs System.step ⟨m, d, [.complete], [], .waiting⟩ [.hid .idle] = out := by
  constructor
  · show System.mk m.e09Complete.1 d [] ([] ++ submitted m.e09Complete.2) .waiting = _
    rw [hdone]
    show System.mk m' d [] (submitted out) .waiting = _
    rw [hnone]
    rfl
  · show m.e09Complete.2 ++ [] = out
    rw [hdone, List.append_nil]

/-- The machine when a job of the storage worker is done. -/
def Machine.worked (m : Machine) (d : Disk) (op : DiskOp) (io : JobIo) : Machine :=
  { m with toStorage := (m.e11Worker d op io).1 }

/-- The machine that shows in `slot` the figure it has waited for. -/
def Machine.shows (m : Machine) (d : Disk) (io : JobIo) (slot : Fin 16) : Machine :=
  (m.loading.worked d .load io).takeResult.install slot
    (be32 (m.loading.worked d .load io).job.byte 32)

/-- What that machine has kept. -/
theorem Machine.shows_kept (m : Machine) (d : Disk) (io : JobIo) (slot : Fin 16) :
    (m.shows d io slot).catalog = m.catalog ∧ (m.shows d io slot).compact = m.compact ∧
      (m.shows d io slot).count = m.count ∧
      (m.shows d io slot).ui = Function.update m.ui m.actionUi (some slot) ∧
      (m.shows d io slot).route = m.route := ⟨rfl, rfl, rfl, rfl, rfl⟩

/-- The action lasts until the figure is shown. -/
theorem Machine.shows_action (m : Machine) (d : Disk) (io : JobIo) (slot : Fin 16) :
    (m.loading.worked d .load io).action = m.action ∧ (m.shows d io slot).action = none :=
  ⟨rfl, rfl⟩

/-- It shows the figure 250 ticks after the action began. -/
theorem Machine.shows_ticks (m : Machine) (d : Disk) (io : JobIo) (slot : Fin 16) :
    (m.shows d io slot).ticks = (m.later 250).ticks ∧
      (m.shows d io slot).retry = (m.later 250).ticks := ⟨rfl, rfl⟩

/-- Its sessions have no other request parked, and the same replies queued. -/
theorem Machine.shows_session (m : Machine) (d : Disk) (io : JobIo) (slot fd : Fin 16) :
    ((m.shows d io slot).sessions fd).read = (m.sessions fd).read ∧
      ((m.shows d io slot).sessions fd).count = (m.sessions fd).count := ⟨rfl, rfl⟩

/-- The slot of the figure is filled, the old one released. -/
theorem Machine.shows_slots (m : Machine) (d : Disk) (io : JobIo) (slot : Fin 16) :
    (m.shows d io slot).slots = Function.update m.releaseOld.slots slot
      ((m.loading.worked d .load io).loadedSlot (be32 (m.loading.worked d .load io).job.byte 32)) :=
  rfl

/-- The steps of a waiting action up to the completion of its load job. -/
def untilLoaded (io : JobIo) : List Action := wait 249 ++ .timer :: .hid .idle :: runJob io

/-- A load that waits, up to the completion of its job. -/
theorem untilLoaded_run (h : m.Waiting .load) (hstart : m.ticks = m.removeTick) (d : Disk)
    (io : JobIo) :
    Run.final System.step (atRest m d) (untilLoaded io) =
        ⟨m.loading.worked d .load io, d, [.complete], [], .waiting⟩ ∧
      Run.outputs System.step (atRest m d) (untilLoaded io) = [.submit .load] ∧
      Run.Every System.step (fun σ _ => σ.hid.action ≠ none) (atRest m d) (untilLoaded io) := by
  obtain ⟨hfinal, hout, hevery⟩ := wait_run (d := d) (n := 249) h hstart (by omega)
  have hstep : ((atRest (m.later 249) d).step .timer).1.step (.hid .idle) =
      (⟨m.loading, d, [], [.load], .waiting⟩, [.submit .load]) := by
    rw [tick_step, h.v4Tick_due hstart]
    rfl
  have haction : m.action ≠ none := by rw [h.action]; exact Option.some_ne_none _
  have hload := runJob_run m.loading d .load io
  rw [untilLoaded, Run.final_append, Run.outputs_append, Run.every_append, hfinal, hout]
  refine ⟨?_, ?_, hevery, haction, haction, ?_⟩
  · show Run.final _ (((atRest (m.later 249) d).step .timer).1.step (.hid .idle)).1 _ = _
    rw [hstep]
    exact hload.1
  · show [] ++ ([] ++ ((((atRest (m.later 249) d).step .timer).1.step (.hid .idle)).2 ++
      Run.outputs _ (((atRest (m.later 249) d).step .timer).1.step (.hid .idle)).1 _)) = _
    rw [hstep, hload.2.1]
    rfl
  · show Run.Every _ _ (((atRest (m.later 249) d).step .timer).1.step (.hid .idle)).1 _
    rw [hstep]
    exact Run.Every.mono (fun _ _ hkept => hkept ▸ haction) hload.2.2

end Waiting

/-! ### From the start to the end of the first load -/

/-- The machine while the catalogue job runs. -/
def started : Machine := (Machine.zero.e09Start .ok).1

/-- The machine when the catalogue job is done. -/
def catalogDone (d : Disk) : Machine := started.worked d .catalog .ok

/-- The machine at the start of the first action. -/
def firstAction (d : Disk) : Machine :=
  (catalogDone d).takeResult.countEntries.startAction 0 0 .load

/-- The machine when the first load job is done. -/
def firstLoaded (d : Disk) (io : JobIo) : Machine := (firstAction d).loading.worked d .load io

section First

variable {d : Disk}

/-- In empty slots no entry has an owner. -/
theorem owner_of_empty {st : Storage} (h : ∀ i, st.slots i = .zero) (id : U32) :
    st.owner id = none := by
  refine List.find?_eq_none.mpr fun i _ => ?_
  rw [h i]
  simp [Slot.zero]

/-- Among empty slots the search gives the one found before, or the first one. -/
theorem slotSearch_of_empty {st : Storage} (uid : U32) {l : List (Fin 16)}
    (h : ∀ i ∈ l, st.slots i = .zero) (found : Option (Fin 16)) :
    st.slotSearch uid l found = .ok (found.or l.head?) := by
  induction l generalizing found with
  | nil => simp [Storage.slotSearch]
  | cons i l ih =>
      rw [List.forall_mem_cons] at h
      rw [Storage.slotSearch, h.1, if_neg (by simp [Slot.zero]), if_neg (by simp [Slot.zero]),
        ih h.2]
      cases found <;> rfl

/-- A load that finds a slot for its figure shows it there. -/
theorem Machine.loadComplete_shown {m : Machine} (hop : m.op = .load) (hresult : m.result = 0)
    (hdup : m.takeResult.duplicateUid (be32 m.job.byte 32) = false) {i : Fin 16}
    (hsearch : m.takeResult.slotSearch (be32 m.job.byte 32) (List.finRange 16) none =
      .ok (some i)) :
    m.e09Complete = (m.takeResult.install i (be32 m.job.byte 32), [.installed i]) := by
  have hdone : m.takeResult.jobDone = m.takeResult.loadDone := by
    unfold Machine.jobDone
    rw [show m.takeResult.op = .load from hop]
  rw [Machine.e09Complete, if_neg (by rw [hresult]; decide), hdone, Machine.loadDone]
  show (if m.takeResult.duplicateUid (be32 m.job.byte 32) = true then _ else _) = _
  rw [hdup, if_neg Bool.false_ne_true]
  rw [show m.takeResult.slotSearch (be32 m.takeResult.job.byte 32) (List.finRange 16) none = _
    from hsearch]
  rfl

/-- A save that has succeeded makes its slot as clean as the snapshot. -/
theorem Machine.saveComplete_saved {m : Machine} (hop : m.op = .save) (hresult : m.result = 0) :
    m.e09Complete =
      ({ m.takeResult with toStorage := m.takeResult.toStorage.saveDone },
        [.saved m.diskSlot]) := by
  rw [Machine.e09Complete, if_neg (by rw [hresult]; decide), Machine.jobDone,
    show m.takeResult.op = .save from hop]
  rfl

/-- When the catalogue has been read the load of entry 0 begins. -/
theorem catalogDone_complete (h : CatalogOnCard d) :
    (catalogDone d).e09Complete = (firstAction d, []) := by
  have hload := h.load Machine.zero.catalog Machine.zero.compact
  have hresult : (catalogDone d).result = 0 := congrArg CatalogResult.result hload
  have hcatalog : (catalogDone d).catalog = catalogFile d := congrArg CatalogResult.catalog hload
  have hcount : ¬ (catalogDone d).takeResult.countEntries.count ≤ 0 := by
    show ¬ be32 (catalogDone d).catalog.byte 4 ≤ 0
    rw [hcatalog]
    intro hle
    exact h.valid.count.1 (BitVec.le_zero_iff.mp hle)
  have howner : (catalogDone d).takeResult.countEntries.owner 0 = none :=
    owner_of_empty (fun _ => rfl) 0
  have hidle : ¬ ((catalogDone d).takeResult.countEntries.action ≠ none ∨
      (catalogDone d).takeResult.countEntries.busy) := by
    rintro (haction | hbusy)
    · exact haction rfl
    · cases hbusy
  have hbegin : (catalogDone d).takeResult.countEntries.e12Begin 0 0 .load =
      (0, firstAction d) := by
    rw [Machine.e12Begin, dif_pos (by decide), if_neg (fun hc => hcount hc.2), if_neg hidle,
      if_pos rfl, howner]
    rfl
  have hdone : (catalogDone d).takeResult.jobDone =
      (((catalogDone d).takeResult.countEntries.e12Begin 0 0 .load).2, []) := rfl
  rw [Machine.e09Complete, if_neg (by rw [hresult]; decide), hdone, hbegin]

/-- The first action waits to load its figure. -/
theorem firstAction_waiting (h : CatalogOnCard d) : (firstAction d).Waiting .load where
  read _ := rfl
  busy := rfl
  queue := lt_irrefl (0 : ℤ)
  count := by
    have hcatalog : (catalogDone d).catalog = catalogFile d :=
      congrArg CatalogResult.catalog (h.load Machine.zero.catalog Machine.zero.compact)
    show be32 (catalogDone d).catalog.byte 4 ≠ 0
    rw [hcatalog]
    exact h.valid.count.1
  action := rfl
  saved := rfl

/-- The steps from the start to the completion of the catalogue job. -/
def untilAction : List Action := runJob .ok

/-- The catalogue job, from the start. -/
theorem untilAction_run (d : Disk) :
    Run.final System.step (System.init d .ok) untilAction =
        ⟨catalogDone d, d, [.complete], [], .waiting⟩ ∧
      Run.outputs System.step (System.init d .ok) untilAction = [] :=
  have hrun := runJob_run started d .catalog .ok
  ⟨hrun.1, hrun.2.1⟩

/-- The completion of the catalogue job begins the first action. -/
theorem untilAction_step (h : CatalogOnCard d) :
    (Run.final System.step (System.init d .ok) untilAction).step (.hid .idle) =
      (atRest (firstAction d) d, []) := by
  rw [(untilAction_run d).1]
  show (System.mk (catalogDone d).e09Complete.1 d [] (submitted (catalogDone d).e09Complete.2) _,
    (catalogDone d).e09Complete.2) = _
  rw [catalogDone_complete h]
  rfl

/-- The steps of the first action of a portal whose calls all succeed, from the
start. -/
def firstFigureRun : List Action := untilAction ++ .hid .idle :: (untilLoaded .ok ++ [.hid .idle])

/-- The load job of an action is for the figure the catalogue lists. -/
theorem Machine.loading_source {m : Machine} (hcatalog : m.catalog = catalogFile d)
    (hcompact : m.compact = catalogCompact (be32 (catalogFile d).byte 0)) :
    m.loading.jobSource = catalogSource d m.target := by
  show e11SourceHash m.catalog m.compact m.target = _
  rw [hcatalog, hcompact]
  rfl

/-- What the load job of an action has read. -/
theorem Machine.loading_job {m : Machine} (hcatalog : m.catalog = catalogFile d)
    (hcompact : m.compact = catalogCompact (be32 (catalogFile d).byte 0)) {d' : Disk}
    {dump x : Bytes 1024} {t : U32} (hfig : FigIntact d' m.target (catalogSource d m.target) dump)
    (hrecover : Alternating.recover dump (journalCopy d' m.target (catalogSource d m.target)) =
      some (t, x)) :
    (m.loading.worked d' .load .ok).result = 0 ∧
      (m.loading.worked d' .load .ok).jobSequence = t ∧
      journalBody (m.loading.worked d' .load .ok).job = x := by
  have hload := e11Load_ok hfig m.loading.job m.loading.check m.loading.jobSequence
  rw [hrecover, ← Machine.loading_source hcatalog hcompact] at hload
  exact hload

/-- The machine keeps the catalogue on the card. -/
theorem firstAction_catalog (h : CatalogOnCard d) : (firstAction d).catalog = catalogFile d ∧
    (firstAction d).compact = catalogCompact (be32 (catalogFile d).byte 0) :=
  have hread := h.load Machine.zero.catalog Machine.zero.compact
  ⟨congrArg CatalogResult.catalog hread, congrArg CatalogResult.compact hread⟩

/-- The load job looks for the hash of the first entry. -/
theorem firstLoaded_source (h : CatalogOnCard d) (io : JobIo) :
    (firstLoaded d io).jobSource = catalogSource d 0 :=
  Machine.loading_source (firstAction_catalog h).1 (firstAction_catalog h).2

/-- What the load job of the first action has read. -/
theorem firstLoaded_job (h : CatalogOnCard d) {dump x : Bytes 1024} {t : U32}
    (hfig : FigIntact d 0 (catalogSource d 0) dump)
    (hrecover : Alternating.recover dump (journalCopy d 0 (catalogSource d 0)) = some (t, x)) :
    (firstLoaded d .ok).result = 0 ∧ (firstLoaded d .ok).jobSequence = t ∧
      journalBody (firstLoaded d .ok).job = x :=
  Machine.loading_job (firstAction_catalog h).1 (firstAction_catalog h).2 hfig hrecover

/-- The machine with its first figure. -/
def firstShown (d : Disk) : Machine := (firstAction d).shows d .ok 0

/-- The first load ends with its figure in slot 0. -/
theorem firstFigureRun_final (h : CatalogOnCard d) {dump x : Bytes 1024} {t : U32}
    (hfig : FigIntact d 0 (catalogSource d 0) dump)
    (hrecover : Alternating.recover dump (journalCopy d 0 (catalogSource d 0)) = some (t, x)) :
    Run.final System.step (System.init d .ok) firstFigureRun = atRest (firstShown d) d := by
  have hempty (i : Fin 16) : (firstLoaded d .ok).takeResult.slots i = .zero := rfl
  have hdup (uid : U32) : (firstLoaded d .ok).takeResult.duplicateUid uid = false := by
    unfold Storage.duplicateUid
    simp [hempty, Slot.zero]
  have hdone : (firstLoaded d .ok).e09Complete = (firstShown d, [.installed 0]) :=
    Machine.loadComplete_shown rfl (firstLoaded_job h hfig hrecover).1 (hdup _)
      (slotSearch_of_empty _ (fun i _ => hempty i) none)
  rw [firstFigureRun, Run.final_append, Run.final_cons, untilAction_step h, Run.final_append,
    (untilLoaded_run (firstAction_waiting h) rfl d .ok).1]
  exact (completes_run hdone rfl).1

/-- The first figure is in slot 0, and the other slots are empty. -/
theorem firstShown_slots (d : Disk) :
    (firstShown d).slots = Function.update (fun _ => .zero) 0
      ((firstLoaded d .ok).loadedSlot (be32 (firstLoaded d .ok).job.byte 32)) := by
  have hreleased : (firstAction d).releaseOld.slots = fun _ => .zero := funext fun _ => rfl
  rw [firstShown, Machine.shows_slots, hreleased]
  rfl

/-- Slot 0 has the figure that has been loaded. -/
theorem firstShown_slot (d : Disk) :
    (firstShown d).slots 0 =
      (firstLoaded d .ok).loadedSlot (be32 (firstLoaded d .ok).job.byte 32) := by
  rw [firstShown_slots, Function.update_self]

/-- Only the first position shows a figure. -/
theorem firstShown_ui (d : Disk) : (firstShown d).ui = Function.update (fun _ => none) 0 (some 0) :=
  ((firstAction d).shows_kept d .ok 0).2.2.2.1

/-- The machine goes on with the catalogue on the card. -/
theorem firstShown_catalog (h : CatalogOnCard d) : (firstShown d).catalog = catalogFile d ∧
    (firstShown d).compact = catalogCompact (be32 (catalogFile d).byte 0) ∧
    (firstShown d).count = be32 (catalogFile d).byte 4 := by
  obtain ⟨hcatalog, hcompact⟩ := firstAction_catalog h
  obtain ⟨hcatalog', hcompact', hcount', -⟩ := (firstAction d).shows_kept d .ok 0
  have hread : (catalogDone d).catalog = catalogFile d :=
    congrArg CatalogResult.catalog (h.load Machine.zero.catalog Machine.zero.compact)
  refine ⟨hcatalog'.trans hcatalog, hcompact'.trans hcompact, hcount'.trans ?_⟩
  show be32 (catalogDone d).catalog.byte 4 = _
  rw [hread]

/-- The first load ends with the figure of entry 0 on the portal: slot 0 holds
the newest version on the card. -/
theorem firstFigure_shown (h : CatalogOnCard d) {dump x : Bytes 1024} {t : U32}
    (hfig : FigIntact d 0 (catalogSource d 0) dump)
    (hrecover : Alternating.recover dump (journalCopy d 0 (catalogSource d 0)) = some (t, x)) :
    let σ := Run.final System.step (System.init d .ok) firstFigureRun
    σ.hid.ui 0 = some 0 ∧ (σ.hid.slots 0).occupied = true ∧ (σ.hid.slots 0).present = true ∧
      (σ.hid.slots 0).id = 0 ∧ (σ.hid.slots 0).data = x ∧ (σ.hid.slots 0).sequence = t ∧
      (σ.hid.slots 0).generation = (σ.hid.slots 0).saved := by
  obtain ⟨-, hsequence, hbody⟩ := firstLoaded_job h hfig hrecover
  intro σ
  rw [show σ = _ from firstFigureRun_final h hfig hrecover]
  refine ⟨?_, ?_⟩
  · show Function.update (firstLoaded d .ok).ui 0 (some 0) 0 = some 0
    exact Function.update_self ..
  rw [show (atRest (firstShown d) d).hid.slots 0 = _ from firstShown_slot d]
  exact ⟨rfl, rfl, rfl, hbody, hsequence, rfl⟩

/-- The storage worker runs the job without an error. -/
theorem runJob_succeeds : ∀ a ∈ runJob .ok, a.Succeeds := by
  simp only [runJob, List.forall_mem_cons, List.not_mem_nil, false_imp_iff, implies_true, and_true]
  exact ⟨trivial, rfl, le_rfl⟩

/-- Nothing fails while time passes. -/
theorem wait_succeeds {n : ℕ} : ∀ a ∈ wait n, a.Succeeds := by
  intro a ha
  rcases mem_wait ha with rfl | rfl
  · trivial
  · exact le_rfl

/-- Nothing fails until the figure is loaded. -/
theorem untilLoaded_succeeds : ∀ a ∈ untilLoaded .ok, a.Succeeds := by
  simp only [untilLoaded, List.mem_append, List.mem_cons]
  rintro a (h | rfl | rfl | h)
  · exact wait_succeeds a h
  · trivial
  · exact le_rfl
  · exact runJob_succeeds a h

/-- All calls of that run succeed. -/
theorem firstFigureRun_succeeds : ∀ a ∈ firstFigureRun, a.Succeeds := by
  simp only [firstFigureRun, untilAction, List.mem_append, List.mem_cons, List.not_mem_nil,
    or_false]
  rintro a (h | rfl | h | rfl)
  · exact runJob_succeeds a h
  · exact le_rfl
  · exact untilLoaded_succeeds a h
  · exact le_rfl

end First

/-! ### A card with one figure -/

/-- Entries of 24 bytes under the header of a catalogue. -/
def listed (entries : Bytes 16416) (n : U32) : Bytes 16416 :=
  let headed := (entries.putBe32 0 0x45313543).putBe32 4 n
  headed.putBe32 8 (e11Hash (fun i => headed.byte (32 + i)) (n.toNat * 24))

section Listed

variable (entries : Bytes 16416) {n : U32}

/-- The magic number of the catalogue and its count. -/
theorem be32_listed :
    be32 (listed entries n).byte 0 = 0x45313543 ∧ be32 (listed entries n).byte 4 = n := by
  unfold listed
  dsimp only
  constructor
  · rw [Bytes.be32_putBe32_of_disjoint _ _ (by omega),
      Bytes.be32_putBe32_of_disjoint _ _ (by omega),
      Bytes.be32_putBe32 _ _ (by omega)]
  · rw [Bytes.be32_putBe32_of_disjoint _ _ (by omega), Bytes.be32_putBe32 _ _ (by omega)]

/-- The header leaves the entries as they are. -/
theorem byte_listed (i : ℕ) : (listed entries n).byte (32 + i) = entries.byte (32 + i) := by
  unfold listed
  rw [Bytes.byte_putBe32_of_le _ _ (by omega), Bytes.byte_putBe32_of_le _ _ (by omega),
    Bytes.byte_putBe32_of_le _ _ (by omega)]

/-- Such a catalogue is valid if its labels end. -/
theorem listed_valid (hn : n ≠ 0) (hle : n ≤ 640)
    (hends : ∀ i < n.toNat, entries.byte (32 + (i * 24 + 23)) = 0) :
    catalogValid (listed entries n) := by
  obtain ⟨hmagic, hcount⟩ := be32_listed entries (n := n)
  refine ⟨⟨?_, ?_, ?_, ?_⟩, fun i hi => ⟨?_, ?_⟩⟩
  · rw [hmagic]
    decide
  · rwa [hcount]
  · rwa [hcount, hmagic]
  · rw [hcount, hmagic]
    have hhash : be32 (listed entries n).byte 8 =
        e11Hash (fun i => ((entries.putBe32 0 0x45313543).putBe32 4 n).byte (32 + i))
          (n.toNat * 24) := Bytes.be32_putBe32 _ _ (by omega)
    rw [hhash]
    refine e11Hash_congr fun i _ => ?_
    rw [byte_listed, Bytes.byte_putBe32_of_le _ _ (by omega),
      Bytes.byte_putBe32_of_le _ _ (by omega)]
  · rw [hmagic]
    exact Or.inl (by decide)
  · rw [hmagic]
    show (listed entries n).byte (32 + i * 24 + 24 - 1) = 0
    rw [show 32 + i * 24 + 24 - 1 = 32 + (i * 24 + 23) by omega, byte_listed]
    rw [hcount] at hi
    exact hends i hi

end Listed

/-- The card with this catalogue. -/
def withCatalog (d : Disk) (catalog : Bytes 16416) : Disk :=
  Function.update d catalogPath (some (List.ofFn catalog))

/-- The catalogue put on a card is the one found. -/
theorem catalogFile_withCatalog (d : Disk) (catalog : Bytes 16416) :
    catalogFile (withCatalog d catalog) = catalog := by
  funext i
  rw [catalogFile, withCatalog, Function.update_self, Option.getD_some, List.getD_eq_getElem?_getD,
    List.getElem?_ofFn, dif_pos i.isLt]
  rfl

/-- A valid catalogue put on a card is accepted. -/
theorem withCatalog_onCard (d : Disk) {catalog : Bytes 16416} (h : catalogValid catalog) :
    CatalogOnCard (withCatalog d catalog) where
  file := ⟨_, Function.update_self .., (List.length_ofFn (f := catalog)).ge⟩
  valid := by rwa [catalogFile_withCatalog]

/-- The files of the figures are those of the card. -/
theorem withCatalog_name (d : Disk) (catalog : Bytes 16416) {id : U32} (hid : id < e11Max)
    (k : Option Bool) : withCatalog d catalog (e11Name id k) = d (e11Name id k) :=
  Function.update_of_ne (catalogPath_ne hid k) _ _

end VirtualPortal
