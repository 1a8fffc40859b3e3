/-
# A second figure

The portal shows the figure of entry 0 when the game opens it and writes a block, and the
menu asks for entry 1.  `Machine.asked` is the machine after the tick that hears the menu.
If the figure shown has been written, this tick submits its save (`saving`); the new one
then waits for its 250 ticks, is loaded and shown.

`swapRun` does this in the position of the first figure, which is saved and taken off the
portal; `besideRun` shows the second figure in the next position.
-/

import VirtualPortal.Storage.FirstFigure
import VirtualPortal.Storage.SingleJob
import Mathlib.Data.Fin.VecNotation

namespace VirtualPortal

open Storage

/-! ### The game -/

/-- GETVERSION on descriptor 0, which opens the session. -/
def openPortal : IpcMessage := ⟨0x100, iosIoctl, 0, ⟨6, 0, 0, 0, 0⟩⟩

/-- A control transfer on descriptor 0 whose header is at `0x1000`. -/
def controlPortal : IpcMessage := ⟨0x200, iosIoctl, 0, ⟨2, 0x1000, 32, 0, 0⟩⟩

/-- The header is a `SET_REPORT` of the 19 bytes at `0x2000`: `W`, slot 0, the block, and 16
bytes `01`. -/
def writeMem (block : U8) : Mem := fun a =>
  if a = 0x1014 then 0x21
  else if a = 0x1015 then 9
  else if a = 0x1016 then 2
  else if a = 0x101b then 19
  else if a = 0x101e then 0x20
  else if a = 0x2000 then letter 'W'
  else if a = 0x2001 then 0x10
  else if a = 0x2002 then block
  else if 0x2003 ≤ a ∧ a < 0x2013 then 1
  else 0

/-- The bytes of the block. -/
def written (block : U8) (i : ℕ) : U8 := (writeMem block).bytesAt 0x2000 (3 + i)

/-- The machine when the game has opened the portal. -/
def Machine.opened (m : Machine) : Machine :=
  { m with route := Function.update m.route 0 true }.setSession 0
    { m with route := Function.update m.route 0 true }.versionSession

/-- The machine when the game has written the block. -/
def Machine.wrote (m : Machine) (block : U8) : Machine :=
  { m.setSession 0 ((m.sessions 0).v4Push (response (letter 'W') (slotReply 0 true) block 0)).2 with
    toStorage := m.setSlot 0 ((m.slots 0).writeBlock block.toNat (written block)) }

/-- A write moves no figure. -/
theorem Machine.wrote_kept (m : Machine) (block : U8) : (m.wrote block).catalog = m.catalog ∧
    (m.wrote block).compact = m.compact ∧ (m.wrote block).ui = m.ui := ⟨rfl, rfl, rfl⟩

/-- The game opens the portal. -/
def opens : List Action := [.ioctl (some openPortal) 0, .hid .idle]

/-- The game writes the block. -/
def writes (block : U8) : List Action :=
  [.ioctl (some controlPortal) 0, .hid ⟨writeMem block, fun _ => 0, 0⟩]

section Game

variable {m : Machine} {d : Disk}

/-- A request on descriptor 0 that the dispatcher takes. -/
theorem dispatched (m : Machine) (d : Disk) (msg : IpcMessage)
    (hportal : System.portalFd (some msg) = some (msg, 0)) (hioctl : msg.command = iosIoctl)
    (htaken : m.route 0 = true ∨ v4VersionRequest msg = true) :
    ((atRest m d).step (.ioctl (some msg) 0)).1 =
      ⟨{ m with route := Function.update m.route 0 true }, d, [.request (some msg)], [],
        .waiting⟩ := by
  show ((atRest m d).v4IoctlDispatch (some msg) 0).1 = _
  unfold System.v4IoctlDispatch
  rw [hportal]
  dsimp only
  rw [if_neg (by
    rintro (hne | ⟨hnot, hversion⟩)
    · exact hne hioctl
    · exact htaken.elim hnot hversion)]
  rfl

/-- What opening the portal leaves. -/
theorem opens_run (m : Machine) (d : Disk) :
    Run.final System.step (atRest m d) opens = atRest m.opened d := by
  let routed : Machine := { m with route := Function.update m.route 0 true }
  have hversion : routed.v4Process HidIo.idle.mem (some openPortal) =
      (m.opened, (m.sessions 0).cancelEffects ++ [.ack openPortal 0x40001]) := rfl
  rw [opens, Run.final_cons, dispatched m d _ rfl rfl (Or.inr rfl), Run.final_cons, Run.final_nil]
  show System.mk (routed.v4Process HidIo.idle.mem (some openPortal)).1 d []
    ([] ++ submitted (routed.v4Process HidIo.idle.mem (some openPortal)).2) .waiting = _
  rw [hversion, ← submitted_figureEffects, figureEffects_append, Machine.figureEffects_cancel]
  rfl

/-- The write is a command on descriptor 0. -/
theorem v4Process_writes {block : U8} (hblock : block = 0 ∨ block = 1) :
    m.v4Process (writeMem block) (some controlPortal) =
      let out := m.runCommand 0 ((writeMem block).bytesAt 0x2000) (.write 0 block) 27
      if (out.2.1.sessions 0).read.map IpcMessage.ptr = some 0x200 then (out.2.1, out.2.2)
      else (out.2.1, out.2.2 ++ [.ack controlPortal out.1]) := by
  rcases hblock with rfl | rfl <;> rfl

/-- What a write of block 0 or 1 leaves. -/
theorem writes_run {block : U8} (hblock : block = 0 ∨ block = 1) (hroute : m.route 0 = true)
    (hpresent : (m.slots 0).present = true) (hcount : (m.sessions 0).count ≠ 8)
    (hread : (m.sessions 0).read = none) :
    Run.final System.step (atRest m d) (writes block) = atRest (m.wrote block) d := by
  have hrouted : { m with route := Function.update m.route 0 true } = m := by
    rw [← hroute, Function.update_eq_self]
  have hdispatch := dispatched m d controlPortal rfl rfl (Or.inl hroute)
  rw [hrouted] at hdispatch
  let reply : Bytes 32 := response (letter 'W') (slotReply 0 true) block 0
  have hreply : commandReply m.slots (.write 0 block) = some reply := by
    show some (response (letter 'W') (slotReply 0 (m.slots 0).present) block 0) = _
    rw [hpresent]
  have hpushed : (m.sessions 0).v4Push reply = (0, ((m.sessions 0).v4Push reply).2) := by
    refine Prod.ext ?_ rfl
    unfold Session.v4Push
    rw [if_neg hcount]
  have happly : (m.setSession 0 ((m.sessions 0).v4Push reply).2).commandApply 0
      ((writeMem block).bytesAt 0x2000) (.write 0 block) = (m.wrote block, [.wrote 0]) :=
    if_pos hpresent
  have hcommand : m.runCommand 0 ((writeMem block).bytesAt 0x2000) (.write 0 block) 27 =
      (27, m.wrote block, [.queued 0 reply, .wrote 0]) := by
    unfold Machine.runCommand
    rw [hreply]
    dsimp only
    rw [hpushed]
    dsimp only
    rw [if_neg (lt_irrefl _), happly]
  have hparked : ¬ ((m.wrote block).sessions 0).read.map IpcMessage.ptr = some 0x200 := by
    have hnone : ((m.wrote block).sessions 0).read = none := by
      show (Function.update m.sessions 0 ((m.sessions 0).v4Push reply).2 0).read = none
      rw [Function.update_self]
      unfold Session.v4Push
      split_ifs <;> exact hread
    rw [hnone]
    exact (Option.some_ne_none _).symm
  rw [writes, Run.final_cons, hdispatch, Run.final_cons, Run.final_nil]
  show System.mk (m.v4Process (writeMem block) (some controlPortal)).1 d []
    ([] ++ submitted (m.v4Process (writeMem block) (some controlPortal)).2) .waiting = _
  rw [v4Process_writes hblock, hcommand]
  dsimp only
  rw [if_neg hparked]
  rfl

end Game

/-! ### The menu -/

/-- The request line of a menu whose first request this is. -/
def menuLine (op arg : U32) : RequestLine := ![0x4531324d, 1, op, arg, 0x534b595a, 1, 0, 0]

/-- The menu asks for a figure. -/
def hears (arg : U32) : Action := .hid ⟨fun _ => 0, menuLine 2 arg, 0⟩

/-- The portal is open, nothing runs, and the menu has not been heard yet. -/
structure Machine.Resting (m : Machine) : Prop where
  read : ∀ fd, (m.sessions fd).read = none
  busy : m.busy = false
  queue : ¬ m.queue < 0
  count : m.count ≠ 0
  action : m.action = none
  calm : m.autoload = false ∧ m.flush = false
  route : m.route 0 = true
  unheard : m.requestSeq = 0 ∧ m.heartbeat = 0

/-- The machine that has noticed the menu. -/
def Machine.noticed (m : Machine) : Machine := { m with heartbeat := 1, heartbeatTick := m.ticks }

/-- The machine that has heard the menu ask for entry `id` at position `u`. -/
def Machine.heard (m : Machine) (u : Fin 16) (id : U32) : Machine :=
  { { m.noticed with requestSeq := 1 }.startAction u id .load with autoload := false }

/-- The machine that has published the answer. -/
def Machine.asked (m : Machine) (u : Fin 16) (id : U32) : Machine :=
  { m.heard u id with revision := (m.heard u id).revision + 2 }

/-- The machine with the save of the slot submitted. -/
def Machine.saving (m : Machine) (i : Fin 16) : Machine :=
  { m with toStorage := { m.toStorage.takeSnapshot i with op := .save, busy := true } }

/-- The card when that save is done. -/
def Machine.savedCard (m : Machine) (i : Fin 16) (d : Disk) (io : JobIo) : Disk :=
  ((m.saving i).e11Worker d .save io).2

/-- The machine when that save is done. -/
def Machine.savedSlot (m : Machine) (d : Disk) (io : JobIo) : Machine :=
  { (m.worked d .save io).takeResult with
    toStorage := (m.worked d .save io).takeResult.toStorage.saveDone }

section Menu

variable {m : Machine} {d : Disk}

/-- Time that passes does not wake a machine at rest. -/
theorem Machine.Resting.later (h : m.Resting) (n : ℕ) : (m.later n).Resting :=
  ⟨h.read, h.busy, h.queue, h.count, h.action, h.calm, h.route, h.unheard⟩

/-- At rest a job can be sent. -/
theorem Machine.Resting.free (h : m.Resting) : ¬ (m.busy = true ∨ m.queue < 0) :=
  not_or.mpr ⟨ne_true_of_eq_false h.busy, h.queue⟩

/-- A tick with nothing to do. -/
theorem Machine.Resting.v4Tick (h : m.Resting) (hrecent : (m.later 1).ticks - m.retry < 500) :
    m.v4Tick (fun _ => 0) 0 = (m.later 1, []) := by
  have hnext := h.later 1
  have hshort : ¬ 500 ≤ (m.later 1).ticks - (m.later 1).retry := BitVec.not_le.mpr hrecent
  refine Machine.v4Tick_silent ?_ h.read
  unfold Machine.pollDisk
  rw [if_neg hnext.free, if_neg hnext.count, hnext.action]
  dsimp only
  rw [if_neg fun hload => hshort hload.2, if_neg]
  rintro (⟨-, hflush⟩ | hold)
  · exact ne_true_of_eq_false hnext.calm.2 hflush
  · exact hshort hold

/-- An action begins on an idle machine for a figure that no slot holds. -/
theorem Machine.e12Begin_load {u : Fin 16} {ui id : U32} (hui : ui.toNat = u.val)
    (hcount : id < m.count) (hidle : m.action = none) (hbusy : m.busy = false)
    (howner : m.owner id = none) : m.e12Begin ui id .load = (0, m.startAction u id .load) := by
  have hlt : ui.toNat < 16 := hui ▸ u.isLt
  have hposition : (⟨ui.toNat, hlt⟩ : Fin 16) = u := Fin.ext hui
  unfold Machine.e12Begin
  rw [dif_pos hlt, if_neg fun hbad => absurd hcount (BitVec.not_lt.mpr hbad.2),
    if_neg (not_or.mpr ⟨not_not.mpr hidle, ne_true_of_eq_false hbusy⟩), if_pos rfl, howner,
    hposition]

/-- The mailbox starts the action the menu asks for. -/
theorem Machine.Resting.e11Mailbox (h : m.Resting) {u : Fin 16} {id arg : U32}
    (hu : (arg >>> 16).toNat = u.val) (hid : arg &&& 65535 = id) (hcount : id < m.count)
    (howner : m.owner id = none) :
    m.e11Mailbox (menuLine 2 arg) =
      (m.asked u id, .executed 2 arg :: (m.heard u id).e11Publish.2) := by
  have halive : m.menuAlive (menuLine 2 arg 5) = some m.noticed := by
    refine if_pos ?_
    rw [h.unheard.2]
    exact show (1 : U32) ≠ 0 by decide
  have hmarked : ¬ (menuLine 2 arg 0 ≠ 0x4531324d ∨ menuLine 2 arg 4 ≠ 0x534b595a) :=
    not_or.mpr ⟨not_not.mpr rfl, not_not.mpr rfl⟩
  have hnew : menuLine 2 arg 1 ≠ m.noticed.requestSeq ∧
      ¬ m.noticed.defers (menuLine 2 arg 2) = true := by
    rw [show m.noticed.requestSeq = 0 from h.unheard.1]
    refine ⟨show (1 : U32) ≠ 0 by decide, ?_⟩
    show ¬ (true && (m.action.isSome || m.busy)) = true
    rw [h.action, h.busy]
    decide
  have hbegin : { m.noticed with requestSeq := 1 }.e12Begin (arg >>> 16) (arg &&& 65535) .load =
      (0, { m.noticed with requestSeq := 1 }.startAction u id .load) := by
    rw [hid]
    exact Machine.e12Begin_load hu hcount h.action h.busy howner
  have hrequest : { m.noticed with requestSeq := 1 }.menuRequest 2 arg = (0, m.heard u id) := by
    show Machine.menuSwap _ arg .load = _
    unfold Machine.menuSwap
    rw [hbegin]
    rfl
  have hexecute : m.noticed.menuExecute (menuLine 2 arg 1) (menuLine 2 arg 2) (menuLine 2 arg 3) =
      m.heard u id := by
    show m.noticed.menuExecute 1 2 arg = _
    unfold Machine.menuExecute
    rw [hrequest]
    rfl
  unfold Machine.e11Mailbox
  rw [if_neg (not_not.mpr ⟨0, h.route⟩), if_neg hmarked, halive]
  dsimp only
  rw [if_pos hnew, hexecute]
  rfl

/-- What hearing the menu leaves of the machine. -/
theorem Machine.asked_eq (m : Machine) (u : Fin 16) (id : U32) :
    (m.asked u id).toStorage = m.toStorage.startAction u id .load ∧
      (m.asked u id).removeTick = m.ticks ∧ (m.asked u id).ticks = m.ticks ∧
      ∀ fd, ((m.asked u id).sessions fd).read = (m.sessions fd).read := by
  unfold Machine.asked Machine.heard Machine.startAction Machine.oldEvent
  dsimp only
  split
  · exact ⟨rfl, rfl, rfl, fun _ => rfl⟩
  · exact ⟨rfl, rfl, rfl, fun _ => rfl⟩

/-- The menu leaves the replies and the routes of the game alone. -/
theorem Machine.asked_game (m : Machine) (u : Fin 16) (id : U32) :
    (m.asked u id).route = m.route ∧
      ∀ fd, ((m.asked u id).sessions fd).count = (m.sessions fd).count := by
  unfold Machine.asked Machine.heard Machine.startAction Machine.oldEvent
  dsimp only
  split
  · exact ⟨rfl, fun _ => rfl⟩
  · exact ⟨rfl, fun _ => rfl⟩

/-- A tick that hears the menu polls the action it has begun. -/
theorem Machine.Resting.v4Tick_asks (h : m.Resting) (hmail : (m.later 1).ticks &&& 7 = 0)
    {u : Fin 16} {id arg : U32} (hu : (arg >>> 16).toNat = u.val) (hid : arg &&& 65535 = id)
    (hcount : id < m.count) (howner : m.owner id = none) {m' : Machine} {out : List Effect}
    (hpoll : ((m.later 1).asked u id).pollAction .load 0 = (m', out))
    (hread : ∀ fd, (m'.sessions fd).read = none) :
    m.v4Tick (menuLine 2 arg) 0 =
      (m', (.executed 2 arg :: ((m.later 1).heard u id).e11Publish.2) ++ out) := by
  have hmailbox := (h.later 1).e11Mailbox hu hid hcount howner
  have hdisk : ((m.later 1).asked u id).pollDisk 0 = (m', out) := by
    rw [← hpoll]
    refine Machine.pollDisk_action ?_ ?_ ?_ ?_ <;> rw [((m.later 1).asked_eq u id).1]
    · exact h.busy
    · exact h.queue
    · exact h.count
    · rfl
  have hpolled : (m.later 1).e09Poll (menuLine 2 arg) 0 =
      (m', (.executed 2 arg :: ((m.later 1).heard u id).e11Publish.2) ++ out) := by
    unfold Machine.e09Poll
    rw [if_pos hmail, hmailbox]
    dsimp only
    rw [hdisk]
  show (((m.later 1).e09Poll (menuLine 2 arg) 0).1.deliverReads.1,
    ((m.later 1).e09Poll (menuLine 2 arg) 0).2 ++
      ((m.later 1).e09Poll (menuLine 2 arg) 0).1.deliverReads.2) = _
  rw [hpolled, deliverReads_of_none hread, List.append_nil]

/-- A figure for a free position waits at once. -/
theorem Machine.Resting.asked_beside (h : m.Resting) {u : Fin 16} (hfree : m.ui u = none)
    (id : U32) :
    (m.asked u id).Waiting .load ∧
      (m.asked u id).pollAction .load 0 = (m.asked u id, []) := by
  obtain ⟨hstorage, hremove, hticks, hread⟩ := m.asked_eq u id
  have hwaiting : (m.asked u id).Waiting .load := by
    refine ⟨fun fd => (hread fd).trans (h.read fd), ?_, ?_, ?_, ?_, ?_⟩ <;> rw [hstorage]
    · exact h.busy
    · exact h.queue
    · exact h.count
    · rfl
    · show (m.ui u).filter _ = none
      rw [hfree]
      rfl
  refine ⟨hwaiting, ?_⟩
  rw [← Machine.pollDisk_action hwaiting.busy hwaiting.queue hwaiting.count hwaiting.action,
    hwaiting.pollDisk, hremove, hticks, BitVec.sub_self]
  exact if_pos (by decide)

/-- A figure in place of a written one has that one saved first. -/
theorem Machine.asked_inPlace {u i : Fin 16} (hold : m.ui u = some i)
    (hchanged : (m.slots i).changed = true) (id : U32) :
    (m.asked u id).pollAction .load 0 = ((m.asked u id).saving i, [.submit .save]) := by
  have hsaves : ((m.asked u id).old.filter fun i => ((m.asked u id).slots i).changed) = some i := by
    rw [(m.asked_eq u id).1]
    show (m.ui u).filter _ = some i
    rw [hold]
    refine if_pos ?_
    show (if m.ui u = some i then { m.slots i with present := false } else m.slots i).changed = true
    rw [if_pos hold]
    exact hchanged
  unfold Machine.pollAction
  rw [hsaves]
  rfl

/-- Running a save job leaves the figures and the action as they are. -/
theorem Storage.e11Worker_action (st : Storage) (d : Disk) (io : JobIo) :
    (st.e11Worker d .save io).1.ui = st.ui ∧ (st.e11Worker d .save io).1.queue = st.queue ∧
      (st.e11Worker d .save io).1.count = st.count ∧
      (st.e11Worker d .save io).1.catalog = st.catalog ∧
      (st.e11Worker d .save io).1.compact = st.compact ∧
      (st.e11Worker d .save io).1.target = st.target ∧
      (st.e11Worker d .save io).1.action = st.action ∧
      (st.e11Worker d .save io).1.actionUi = st.actionUi ∧
      (st.e11Worker d .save io).1.old = st.old := ⟨rfl, rfl, rfl, rfl, rfl, rfl, rfl, rfl, rfl⟩

/-- A save whose calls all succeed. -/
theorem Machine.saving_ok (m : Machine) (i : Fin 16) (d : Disk) :
    ((m.saving i).e11Worker d .save .ok).1.result = 0 :=
  ((m.saving i).e11Worker_save d .ok).trans (e11Save_ok _ _)

/-- The save job of an action, from its submission to its completion. -/
theorem saving_run (m : Machine) (d : Disk) (i : Fin 16) {io : JobIo}
    (hresult : ((m.saving i).e11Worker d .save io).1.result = 0) :
    Run.final System.step ⟨m.saving i, d, [], [.save], .waiting⟩ (runJob io ++ [.hid .idle]) =
        atRest ((m.saving i).savedSlot d io) (m.savedCard i d io) ∧
      Run.outputs System.step ⟨m.saving i, d, [], [.save], .waiting⟩ (runJob io ++ [.hid .idle]) =
        [.saved i] ∧
      Run.Every System.step (fun σ _ => σ.hid.action = m.action)
        ⟨m.saving i, d, [], [.save], .waiting⟩ (runJob io ++ [.hid .idle]) := by
  obtain ⟨-, hop, -, -, hslot, -⟩ := (m.saving i).e11Worker_job d .save io
  obtain ⟨-, -, -, -, -, -, haction, -⟩ := (m.saving i).e11Worker_action d io
  have hdone : ((m.saving i).worked d .save io).e09Complete =
      ((m.saving i).savedSlot d io, [.saved i]) := by
    rw [Machine.saveComplete_saved (m := (m.saving i).worked d .save io) hop hresult,
      show ((m.saving i).worked d .save io).diskSlot = i from hslot]
    rfl
  obtain ⟨hfinal, hout, hevery⟩ := runJob_run (m.saving i) d .save io
  obtain ⟨hlast, hlastout⟩ :=
    completes_run (d := m.savedCard i d io) hdone rfl
  rw [Run.final_append, Run.outputs_append, Run.every_append, hfinal, hout]
  exact ⟨hlast, hlastout, hevery, haction, trivial⟩

/-- The slot that has been saved. -/
def Slot.afterSave (s : Slot) : Slot := { s with saved := s.generation, sequence := s.sequence + 1 }

/-- The save of a slot that succeeds leaves it saved. -/
theorem Machine.savedSlot_slots (m : Machine) (i : Fin 16) (d : Disk) (io : JobIo) :
    ((m.saving i).savedSlot d io).slots = Function.update m.slots i (m.slots i).afterSave := by
  obtain ⟨hslots, -, -, -, hdisk, hsnapshot, -⟩ := (m.saving i).e11Worker_job d .save io
  have hdone (st : Storage) : st.taken.saveDone.slots = Function.update st.slots st.diskSlot
      { st.slots st.diskSlot with
        saved := st.snapshot, sequence := (st.slots st.diskSlot).sequence + 1 } := rfl
  refine (hdone ((m.saving i).e11Worker d .save io).1).trans ?_
  rw [hslots, hdisk, hsnapshot]
  rfl

/-- What the end of that save leaves. -/
theorem Machine.savedSlot_kept (m : Machine) (i : Fin 16) (d : Disk) (io : JobIo) :
    ((m.saving i).savedSlot d io).catalog = m.catalog ∧
      ((m.saving i).savedSlot d io).compact = m.compact ∧
      ((m.saving i).savedSlot d io).target = m.target ∧
      ((m.saving i).savedSlot d io).old = m.old ∧ ((m.saving i).savedSlot d io).ticks = m.ticks ∧
      ((m.saving i).savedSlot d io).removeTick = m.removeTick := ⟨rfl, rfl, rfl, rfl, rfl, rfl⟩

/-- The files of other figures are left as they are. -/
theorem Machine.saving_card (m : Machine) (i : Fin 16) (d : Disk) (io : JobIo) {id : U32}
    (hid : id < e11Max) (hslot : (m.slots i).id < e11Max) (hne : id ≠ (m.slots i).id)
    (k : Option Bool) :
    m.savedCard i d io (e11Name id k) = d (e11Name id k) := by
  have hcard : m.savedCard i d io =
      (e11Save d (m.slots i).id (m.slots i).source io (m.saving i).job m.check
        (m.slots i).sequence).2 := rfl
  rw [hcard, (e11Save_disk io _ _).1]
  split_ifs
  · rfl
  · refine Function.update_of_ne (fun h => hne ?_) _ _
    rw [e11SavePath] at h
    exact (e11Name_inj hid hslot h).1

/-- After its save the old figure is waited for no longer. -/
theorem Machine.Resting.saved_waits (h : m.Resting) {u i : Fin 16} (hold : m.ui u = some i)
    (id : U32) (d : Disk) (io : JobIo) :
    (((m.asked u id).saving i).savedSlot d io).Waiting .load := by
  obtain ⟨hstorage, -, -, hread⟩ := m.asked_eq u id
  obtain ⟨-, hqueue, hcount, -, -, -, haction, -, holds⟩ :=
    ((m.asked u id).saving i).e11Worker_action d io
  have hclean : (((m.asked u id).saving i).savedSlot d io).slots i =
      ((m.asked u id).slots i).afterSave := by
    rw [(m.asked u id).savedSlot_slots, Function.update_self]
  refine ⟨fun fd => (hread fd).trans (h.read fd), rfl, ?_, ?_, ?_, ?_⟩
  · intro hlt
    have hkept : ((m.asked u id).saving i).queue = m.queue :=
      (congrArg Storage.queue hstorage).trans rfl
    exact h.queue (by rw [← hkept, ← hqueue]; exact hlt)
  · have hkept : ((m.asked u id).saving i).count = m.count :=
      (congrArg Storage.count hstorage).trans rfl
    exact fun hzero => h.count (by rw [← hkept, ← hcount]; exact hzero)
  · have hkept : ((m.asked u id).saving i).action = some .load := congrArg Storage.action hstorage
    exact haction.trans hkept
  · have hkept : ((m.asked u id).saving i).old = some i :=
      (congrArg Storage.old hstorage).trans hold
    have hsaved : (((m.asked u id).saving i).savedSlot d io).old = some i := holds.trans hkept
    rw [hsaved]
    refine if_neg ?_
    dsimp only
    rw [hclean]
    simp [Slot.changed, Slot.afterSave]

/-- Ticks of a machine with nothing to do change the clock. -/
theorem Machine.Resting.wait_run (h : m.Resting) (hretry : m.ticks = m.retry) {n : ℕ}
    (hn : n < 500) :
    Run.final System.step (atRest m d) (VirtualPortal.wait n) = atRest (m.later n) d := by
  have hrun := silent_run (m := m) (d := d) (k := 0) (n := n) fun j hj => by
    have hrecent : ((m.later (0 + j)).later 1).ticks - (m.later (0 + j)).retry < 500 := by
      rw [m.later_succ]
      show m.ticks + BitVec.ofNat 32 (0 + j + 1) - m.retry < 500
      rw [hretry, BitVec.add_comm, BitVec.add_sub_cancel, BitVec.lt_def,
        toNat_ofNat_of_lt (by omega)]
      exact show 0 + j + 1 < 500 by omega
    rw [(h.later (0 + j)).v4Tick hrecent, m.later_succ]
  rw [m.later_zero, Nat.zero_add] at hrun
  exact hrun.1

/-- The tick at which the menu is heard. -/
theorem Machine.Resting.asks_step (h : m.Resting) (hclock : m.ticks = 250) {u : Fin 16}
    {id : U32} (arg : U32) (hu : (arg >>> 16).toNat = u.val) (hid : arg &&& 65535 = id)
    (hcount : id < m.count) (howner : m.owner id = none) {m' : Machine} {out : List Effect}
    (hpoll : ((m.later 6).asked u id).pollAction .load 0 = (m', out))
    (hread : ∀ fd, (m'.sessions fd).read = none) :
    ((atRest (m.later 5) d).step .timer).1.step (hears arg) =
      (⟨m', d, [], submitted out, .waiting⟩,
        (.executed 2 arg :: ((m.later 6).heard u id).e11Publish.2) ++ out) := by
  have hmail : ((m.later 5).later 1).ticks &&& 7 = 0 := by
    rw [m.later_succ]
    show (m.ticks + BitVec.ofNat 32 6) &&& 7 = 0
    rw [hclock]
    decide
  have htick : (m.later 5).v4Tick (menuLine 2 arg) 0 =
      (m', (.executed 2 arg :: ((m.later 6).heard u id).e11Publish.2) ++ out) := by
    rw [← m.later_succ 5] at hpoll ⊢
    exact (h.later 5).v4Tick_asks hmail hu hid hcount howner hpoll hread
  show (System.mk ((m.later 5).v4Tick (menuLine 2 arg) 0).1 d []
    ([] ++ submitted ((m.later 5).v4Tick (menuLine 2 arg) 0).2) .waiting,
      ((m.later 5).v4Tick (menuLine 2 arg) 0).2) = _
  rw [htick]
  rfl

/-- The search for a slot when only slot 0 is in use, with another UID. -/
theorem search_beside {st : Storage} {uid : U32} (hslot : (st.slots 0).lastUid ≠ uid)
    (hempty : ∀ i ≠ 0, st.slots i = .zero) :
    st.duplicateUid uid = false ∧
      st.slotSearch uid (List.finRange 16) none =
        .ok (some (if (st.slots 0).occupied = true ∧ some 0 ≠ st.old then 1 else 0)) := by
  have hrest (found : Option (Fin 16)) : st.slotSearch uid ((List.finRange 16).tail) found =
      .ok (found.or (some 1)) :=
    slotSearch_of_empty uid
      (fun i hi => hempty i (by rintro rfl; exact absurd hi (by decide))) found
  constructor
  · refine List.any_eq_false.mpr fun i _ => ?_
    by_cases hi : i = 0
    · rw [hi]
      simp [hslot]
    · simp [hempty i hi, Slot.zero]
  · have hunseen : ¬ ((st.slots 0).seenUid = true ∧ (st.slots 0).lastUid = uid) :=
      fun hseen => hslot hseen.2
    show st.slotSearch uid (0 :: (List.finRange 16).tail) none = _
    rw [Storage.slotSearch, hrest, hrest, if_neg hslot, if_neg hunseen]
    split_ifs <;> rfl

end Menu

/-! ### A card with two figures -/

/-- The second figure: all bytes one. -/
def otherFigure : Bytes 1024 := fun _ => 1

/-- The hash of that figure. -/
def otherSource : U32 := e11Hash otherFigure.byte 1024

/-- A catalogue with both figures. -/
def twoEntryCatalog : Bytes 16416 :=
  listed (((Bytes.zero 16416).putBe32 32 oneFigureSource).putBe32 56 otherSource) 2

/-- The card with both figures and that catalogue. -/
def twoFigureCard : Disk :=
  withCatalog (Function.update oneFigureCard (e11Name 1 none) (some (List.ofFn otherFigure)))
    twoEntryCatalog

/-- The catalogue of the card is accepted. -/
theorem twoFigureCard_catalog : CatalogOnCard twoFigureCard := by
  refine withCatalog_onCard _ (listed_valid _ (by decide) (by decide) fun i hi => ?_)
  obtain rfl | rfl : i = 0 ∨ i = 1 := by
    have hi : i < 2 := hi
    omega
  · rw [Bytes.byte_putBe32_of_lt _ _ (by omega), Bytes.byte_putBe32_of_le _ _ (by omega),
      Bytes.byte_zero]
  · rw [Bytes.byte_putBe32_of_le _ _ (by omega), Bytes.byte_putBe32_of_le _ _ (by omega),
      Bytes.byte_zero]

/-- The hashes in that catalogue. -/
theorem catalogSource_twoFigureCard :
    catalogSource twoFigureCard 0 = oneFigureSource ∧
      catalogSource twoFigureCard 1 = otherSource := by
  have hentry (o : ℕ) : be32 twoEntryCatalog.byte (32 + o) =
      be32 (((Bytes.zero 16416).putBe32 32 oneFigureSource).putBe32 56 otherSource).byte (32 + o) :=
    be32_congr fun k _ => by rw [Nat.add_assoc, twoEntryCatalog, byte_listed]
  unfold catalogSource
  rw [twoFigureCard, catalogFile_withCatalog,
    show be32 twoEntryCatalog.byte 0 = _ from (be32_listed _).1]
  refine ⟨(hentry 0).trans ?_, (hentry 24).trans ?_⟩
  · rw [Bytes.be32_putBe32_of_disjoint _ _ (by omega), Bytes.be32_putBe32 _ _ (by omega)]
  · rw [Bytes.be32_putBe32 _ _ (by omega)]

/-- The first figure is on the card. -/
theorem twoFigureCard_first : FigIntact twoFigureCard 0 oneFigureSource (Bytes.zero 1024) := by
  obtain ⟨⟨file, hf, hn, hdump⟩, hhash⟩ := oneFigureCard_intact
  refine ⟨⟨file, ?_, hn, hdump⟩, hhash⟩
  rw [twoFigureCard, withCatalog_name _ _ (by decide), Function.update_of_ne, hf]
  exact fun h => absurd (e11Name_inj (by decide) (by decide) h).1 (by decide)

/-- The second figure is on the card. -/
theorem twoFigureCard_second : FigIntact twoFigureCard 1 otherSource otherFigure := by
  refine ⟨⟨List.ofFn otherFigure, ?_, (List.length_ofFn (f := otherFigure)).ge, ?_⟩, rfl⟩
  · rw [twoFigureCard, withCatalog_name _ _ (by decide), Function.update_self]
  · funext i
    rw [List.getD_eq_getElem?_getD, List.getElem?_ofFn, dif_pos i.isLt]
    rfl

/-- There are no journals on the card. -/
theorem twoFigureCard_empty {id : U32} (hid : id < e11Max) (k : Bool) :
    twoFigureCard (e11Name id (some k)) = none := by
  rw [twoFigureCard, withCatalog_name _ _ hid, Function.update_of_ne]
  · exact if_neg fun h => absurd (e11Name_inj hid (by decide) h).2 (by simp)
  · exact fun h => absurd (e11Name_inj hid (by decide) h).2 (by simp)

/-! ### The game opens the portal -/

/-- A slot in which a figure has just been installed. -/
def Slot.loaded (x : Bytes 1024) (id source sequence : U32) : Slot where
  data := x
  id := id
  source := source
  sequence := sequence
  generation := 0
  saved := 0
  lastUid := be32 x.byte 0
  present := true
  occupied := true
  seenUid := true

/-- A job that has read a figure loads it with its UID. -/
theorem Storage.loadedSlot_eq {st : Storage} {x : Bytes 1024} (hbody : journalBody st.job = x) :
    st.loadedSlot (be32 st.job.byte 32) = .loaded x st.jobSlot st.jobSource st.jobSequence := by
  have huid : be32 st.job.byte 32 = be32 x.byte 0 := by
    rw [← hbody]
    refine be32_congr fun k hk => ?_
    rw [Bytes.byte_of_lt _ (by omega), Bytes.byte_of_lt _ (by omega)]
    exact congrArg st.job (Fin.ext (by simp))
  rw [huid, ← hbody]
  rfl

/-- The first figure in its slot. -/
def firstSlot : Slot := .loaded (Bytes.zero 1024) 0 oneFigureSource 0

/-- The second figure in its slot. -/
def otherSlot : Slot := .loaded otherFigure 1 otherSource 0

/-- The portal shows the first figure. -/
def shownFirst : Machine := (firstShown twoFigureCard).opened

/-- The first figure is loaded and the game opens the portal. -/
def openRun : List Action := firstFigureRun ++ opens

/-- The first figure is recovered as it is in its file. -/
theorem twoFigureCard_loads :
    FigIntact twoFigureCard 0 (catalogSource twoFigureCard 0) (Bytes.zero 1024) ∧
    Alternating.recover (Bytes.zero 1024)
      (journalCopy twoFigureCard 0 (catalogSource twoFigureCard 0)) =
        some (0, Bytes.zero 1024) := by
  rw [catalogSource_twoFigureCard.1]
  exact ⟨twoFigureCard_first, recover_of_empty (twoFigureCard_empty (by decide)) _⟩

/-- The first figure is shown and the portal is open. -/
theorem openRun_final : Run.final System.step (System.init twoFigureCard .ok) openRun =
    atRest shownFirst twoFigureCard := by
  rw [openRun, Run.final_append,
    firstFigureRun_final twoFigureCard_catalog twoFigureCard_loads.1 twoFigureCard_loads.2,
      opens_run]
  rfl

/-- The portal opens with the figures and the clock as they are. -/
theorem Machine.opened_kept (m : Machine) : m.opened.toStorage = m.toStorage ∧
    m.opened.ticks = m.ticks ∧ m.opened.retry = m.retry := ⟨rfl, rfl, rfl⟩

/-- The first figure is in slot 0 and the other slots are empty. -/
theorem shownFirst_slots : shownFirst.slots = Function.update (fun _ => .zero) 0 firstSlot := by
  obtain ⟨-, hsequence, hbody⟩ :=
    firstLoaded_job twoFigureCard_catalog twoFigureCard_loads.1 twoFigureCard_loads.2
  have hslot := Storage.loadedSlot_eq hbody
  rw [hsequence, firstLoaded_source twoFigureCard_catalog, catalogSource_twoFigureCard.1] at hslot
  rw [shownFirst, ((firstShown twoFigureCard).opened_kept).1, firstShown_slots, hslot]
  rfl

/-- Opening the portal has changed nothing of the figures. -/
theorem shownFirst_storage : shownFirst.toStorage = (firstShown twoFigureCard).toStorage :=
  (firstShown twoFigureCard).opened_kept.1

/-- The first figure is shown at tick 250. -/
theorem shownFirst_clock : shownFirst.ticks = 250 ∧ shownFirst.retry = 250 := by
  obtain ⟨-, hticks, hretry⟩ := (firstShown twoFigureCard).opened_kept
  obtain ⟨hticks', hretry'⟩ := (firstAction twoFigureCard).shows_ticks twoFigureCard .ok 0
  have hstart : ((firstAction twoFigureCard).later 250).ticks = 250 := rfl
  exact ⟨hticks.trans (hticks'.trans hstart), hretry.trans (hretry'.trans hstart)⟩

/-- The second entry is in no slot. -/
theorem shownFirst_owner : shownFirst.owner 1 = none := by
  refine List.find?_eq_none.mpr fun i _ => ?_
  rw [shownFirst_slots]
  by_cases hi : i = 0
  · rw [hi, Function.update_self]
    decide
  · rw [Function.update_of_ne hi]
    decide

/-- No replies wait. -/
theorem shownFirst_replies : (shownFirst.sessions 0).count = 0 := by
  show (Function.update (firstShown twoFigureCard).sessions 0 _ 0).count = 0
  rw [Function.update_self]
  rfl

/-- The catalogue has a second entry. -/
theorem shownFirst_count : (1 : U32) < shownFirst.count := by
  rw [shownFirst_storage, (firstShown_catalog twoFigureCard_catalog).2.2, twoFigureCard,
    catalogFile_withCatalog, twoEntryCatalog, (be32_listed _).2]
  decide

/-- The machine is at rest then. -/
theorem shownFirst_resting : shownFirst.Resting where
  read fd := by
    show (Function.update (firstShown twoFigureCard).sessions 0 _ fd).read = none
    rw [Function.update_apply]
    split_ifs <;> rfl
  busy := rfl
  queue := lt_irrefl (0 : ℤ)
  count := (firstAction_waiting twoFigureCard_catalog).count
  action := rfl
  calm := ⟨rfl, rfl⟩
  route := show Function.update (firstShown twoFigureCard).route 0 true 0 = true from
    Function.update_self ..
  unheard := ⟨rfl, rfl⟩

/-! ### The second figure is loaded -/

/-- A load of the second figure that waits, up to its end. -/
theorem otherLoad_run {m : Machine} {d : Disk} (slot : Fin 16) (h : m.Waiting .load)
    (hstart : m.ticks = m.removeTick) (hcatalog : m.catalog = catalogFile twoFigureCard)
    (hcompact : m.compact = catalogCompact (be32 (catalogFile twoFigureCard).byte 0))
    (htarget : m.target = 1) (hfig : FigIntact d 1 otherSource otherFigure)
    (hempty : ∀ k, d (e11Name 1 (some k)) = none)
    (huid : (m.slots 0).lastUid ≠ be32 otherFigure.byte 0) (hothers : ∀ i ≠ 0, m.slots i = .zero)
    (hslot : (if (m.slots 0).occupied = true ∧ some 0 ≠ m.old then 1 else 0) = slot) :
    Run.final System.step (atRest m d) (untilLoaded .ok ++ [.hid .idle]) =
      atRest (m.shows d .ok slot) d ∧
      Run.outputs System.step (atRest m d) (untilLoaded .ok ++ [.hid .idle]) =
        [.submit .load, .installed slot] ∧
      (m.shows d .ok slot).slots = Function.update m.releaseOld.slots slot otherSlot := by
  have hsource : m.loading.jobSource = otherSource := by
    rw [Machine.loading_source hcatalog hcompact, htarget]
    exact catalogSource_twoFigureCard.2
  have hrecover : Alternating.recover otherFigure (journalCopy d 1 otherSource) =
      some (0, otherFigure) := recover_of_empty hempty _
  rw [← catalogSource_twoFigureCard.2, ← htarget] at hrecover
  obtain ⟨hresult, hsequence, hbody⟩ := Machine.loading_job hcatalog hcompact
    (by rw [htarget, catalogSource_twoFigureCard.2]; exact hfig) hrecover
  have hloaded : (m.loading.worked d .load .ok).loadedSlot
      (be32 (m.loading.worked d .load .ok).job.byte 32) = otherSlot := by
    rw [Storage.loadedSlot_eq hbody, hsequence]
    show Slot.loaded otherFigure m.target m.loading.jobSource 0 = _
    rw [htarget, hsource]
    rfl
  have hread : be32 (m.loading.worked d .load .ok).job.byte 32 = be32 otherFigure.byte 0 :=
    congrArg Slot.lastUid hloaded
  have hne : (m.slots 0).lastUid ≠ be32 (m.loading.worked d .load .ok).job.byte 32 := by
    rw [hread]
    exact huid
  obtain ⟨hdup, hsearch⟩ :=
    @search_beside (m.loading.worked d .load .ok).takeResult.toStorage _ hne hothers
  have hfound : (m.loading.worked d .load .ok).takeResult.slotSearch
      (be32 (m.loading.worked d .load .ok).job.byte 32) (List.finRange 16) none =
        .ok (some slot) :=
    hsearch.trans (congrArg (fun i => Except.ok (some i)) hslot)
  have hdone : (m.loading.worked d .load .ok).e09Complete =
      (m.shows d .ok slot, [.installed slot]) :=
    Machine.loadComplete_shown rfl hresult hdup hfound
  obtain ⟨hfinal, hout, -⟩ := untilLoaded_run h hstart d .ok
  obtain ⟨hlast, hlastout⟩ := completes_run (d := d) hdone rfl
  refine ⟨?_, ?_, ?_⟩
  · rw [Run.final_append, hfinal]
    exact hlast
  · rw [Run.outputs_append, hfinal, hout, hlastout]
    rfl
  · rw [m.shows_slots, hloaded]

/-! ### Beside the first figure -/

/-- The machine that waits for the second figure in the second position. -/
def besideAsked : Machine := (shownFirst.later 6).asked 1 1

/-- The machine that shows both figures. -/
def besideShown : Machine := besideAsked.shows twoFigureCard .ok 1

/-- The menu asks for the second figure in the second position, and it is loaded. -/
def besideRun : List Action :=
  openRun ++ (wait 5 ++ .timer :: hears 0x10001 :: (untilLoaded .ok ++ [.hid .idle]))

/-- What the start of an action sets, and what it keeps. -/
theorem startAction_kept (st : Storage) (u : Fin 16) (id : U32) (kind : Swap) :
    (st.startAction u id kind).catalog = st.catalog ∧
      (st.startAction u id kind).compact = st.compact ∧ (st.startAction u id kind).target = id ∧
      (st.startAction u id kind).old = st.ui u := ⟨rfl, rfl, rfl, rfl⟩

/-- An action at a position that shows nothing leaves the slots as they are. -/
theorem startAction_slots_of_free {st : Storage} {u : Fin 16} (hfree : st.ui u = none) (id : U32)
    (kind : Swap) : (st.startAction u id kind).slots = st.slots := by
  funext i
  unfold Storage.startAction Storage.setOldPresent
  dsimp only
  rw [hfree]
  rfl

/-- Where there is no old slot none is freed. -/
theorem releaseOld_slots_of_none {st : Storage} (hold : st.old = none) :
    st.releaseOld.slots = st.slots := by
  funext i
  unfold Storage.releaseOld
  dsimp only
  rw [hold]
  rfl

/-- The second figure is shown beside the first. -/
theorem besideRun_final : Run.final System.step (System.init twoFigureCard .ok) besideRun =
      atRest besideShown twoFigureCard ∧
    besideShown.slots = Function.update
      (Function.update (fun _ => .zero) 0 firstSlot) 1 otherSlot := by
  have hfree : shownFirst.ui 1 = none := by
    rw [shownFirst_storage, firstShown_ui]
    rfl
  obtain ⟨hwaiting, hpoll⟩ := (shownFirst_resting.later 6).asked_beside hfree 1
  obtain ⟨hstorage, hstart, hticks, -⟩ := (shownFirst.later 6).asked_eq 1 1
  have hstorage : besideAsked.toStorage = shownFirst.toStorage.startAction 1 1 .load := hstorage
  have hslots : besideAsked.slots = Function.update (fun _ => .zero) 0 firstSlot := by
    rw [hstorage, startAction_slots_of_free hfree, shownFirst_slots]
  obtain ⟨hcatalog, hcompact, htarget, hold⟩ := startAction_kept shownFirst.toStorage 1 1 .load
  rw [← hstorage, shownFirst_storage, (firstShown_catalog twoFigureCard_catalog).1] at hcatalog
  rw [← hstorage, shownFirst_storage, (firstShown_catalog twoFigureCard_catalog).2.1] at hcompact
  rw [← hstorage] at htarget
  rw [← hstorage, hfree] at hold
  have hasked := shownFirst_resting.asks_step (d := twoFigureCard) shownFirst_clock.1 0x10001
    (by decide)
    (by decide) shownFirst_count shownFirst_owner hpoll hwaiting.read
  obtain ⟨hfinal, -, hshows⟩ := otherLoad_run (d := twoFigureCard) (m := besideAsked) 1 hwaiting
    (hticks.trans hstart.symm) hcatalog hcompact htarget twoFigureCard_second
    (twoFigureCard_empty (by decide)) (by rw [hslots]; decide)
    (fun i hi => by rw [hslots, Function.update_of_ne hi]) (by rw [hslots, hold]; rfl)
  constructor
  · rw [besideRun, Run.final_append, openRun_final, Run.final_append,
      shownFirst_resting.wait_run (shownFirst_clock.1.trans shownFirst_clock.2.symm) (by decide)]
    rw [Run.final_cons, Run.final_cons, hasked]
    exact hfinal
  · rw [besideShown, hshows, releaseOld_slots_of_none hold, hslots]

/-- The game can go on with both figures on the portal. -/
theorem besideShown_game : besideShown.route 0 = true ∧ (besideShown.sessions 0).count = 0 ∧
    (besideShown.sessions 0).read = none := by
  obtain ⟨-, -, -, -, hroute⟩ := besideAsked.shows_kept twoFigureCard .ok 1
  obtain ⟨hread, hcount⟩ := besideAsked.shows_session twoFigureCard .ok 1 0
  obtain ⟨hroute', hcount'⟩ := (shownFirst.later 6).asked_game 1 1
  obtain ⟨-, -, -, hread'⟩ := (shownFirst.later 6).asked_eq 1 1
  refine ⟨?_, (hcount.trans (hcount' 0)).trans shownFirst_replies,
    (hread.trans (hread' 0)).trans (shownFirst_resting.read 0)⟩
  rw [besideShown, hroute]
  exact (congrFun hroute' 0).trans shownFirst_resting.route

/-! ### In place of the first figure -/

/-- The machine in which the first figure has been written. -/
def swapWritten : Machine := shownFirst.wrote 1

/-- The machine that has heard the menu ask for the other figure. -/
def swapAsked : Machine := (swapWritten.later 6).asked 0 1

/-- The machine that has saved the first figure. -/
def swapSaved : Machine := (swapAsked.saving 0).savedSlot twoFigureCard .ok

/-- The card with that save. -/
def swapCard : Disk := swapAsked.savedCard 0 twoFigureCard .ok

/-- The machine that shows the other figure. -/
def swapShown : Machine := swapSaved.shows swapCard .ok 0

/-- The first figure is loaded and the game writes it. -/
def writtenRun : List Action := openRun ++ writes 1

/-- Ticks pass until the menu is looked at. -/
def untilSwap : List Action := writtenRun ++ (wait 5 ++ [.timer])

/-- The job that saves the first figure. -/
def swapSave : List Action := runJob .ok ++ [.hid .idle]

/-- The wait and the load of the other figure. -/
def swapLoad : List Action := untilLoaded .ok ++ [.hid .idle]

/-- The first figure after the write, off the portal. -/
def removedSlot : Slot := { firstSlot.writeBlock 1 (written 1) with present := false }

/-- A write does not wake a machine at rest. -/
theorem Machine.Resting.wrote {m : Machine} (h : m.Resting) (block : U8) :
    (m.wrote block).Resting where
  read fd := by
    show (Function.update m.sessions 0 _ fd).read = none
    rw [Function.update_apply]
    split_ifs
    · unfold Session.v4Push
      split_ifs <;> exact h.read 0
    · exact h.read fd
  busy := h.busy
  queue := h.queue
  count := h.count
  action := h.action
  calm := h.calm
  route := h.route
  unheard := h.unheard

/-- The machine is at rest when the figure has been written. -/
theorem swapWritten_resting : swapWritten.Resting := shownFirst_resting.wrote 1

/-- Writing takes no tick. -/
theorem swapWritten_clock : swapWritten.ticks = 250 ∧ swapWritten.retry = 250 := shownFirst_clock

/-- Block 1 of the figure in slot 0 is written. -/
theorem swapWritten_slots :
    swapWritten.slots = Function.update (fun _ => .zero) 0
      (firstSlot.writeBlock 1 (written 1)) := by
  show Function.update shownFirst.slots 0 ((shownFirst.slots 0).writeBlock 1 (written 1)) = _
  rw [shownFirst_slots, Function.update_self, Function.update_idem]

/-- The slot shown at the position leaves the portal. -/
theorem startAction_slots_of_only {st : Storage} {u : Fin 16} {s : Slot} (hshown : st.ui u = some 0)
    (hslots : st.slots = Function.update (fun _ => .zero) 0 s) (id : U32) (kind : Swap) :
    (st.startAction u id kind).slots =
      Function.update (fun _ => .zero) 0 { s with present := false } := by
  funext j
  unfold Storage.startAction Storage.setOldPresent
  dsimp only
  rw [hshown, hslots]
  by_cases hj : j = 0
  · rw [hj, if_pos rfl, Function.update_self, Function.update_self]
  · rw [if_neg fun heq => hj (Option.some.inj heq).symm, Function.update_of_ne hj,
      Function.update_of_ne hj]

/-- The old slot is released. -/
theorem releaseOld_slots_of_only {st : Storage} {s : Slot} (hold : st.old = some 0)
    (hslots : st.slots = Function.update (fun _ => .zero) 0 s) :
    st.releaseOld.slots = Function.update (fun _ => .zero) 0 { s with occupied := false } := by
  funext j
  unfold Storage.releaseOld
  dsimp only
  rw [hold, hslots]
  by_cases hj : j = 0
  · rw [hj, if_pos rfl, Function.update_self, Function.update_self]
  · rw [if_neg fun heq => hj (Option.some.inj heq).symm, Function.update_of_ne hj,
      Function.update_of_ne hj]

/-- The first position shows slot 0. -/
theorem swapWritten_ui : swapWritten.ui 0 = some 0 := by
  rw [swapWritten, (shownFirst.wrote_kept 1).2.2, shownFirst_storage, firstShown_ui,
    Function.update_self]

/-- The swap has begun. -/
theorem swapAsked_storage : swapAsked.toStorage = swapWritten.toStorage.startAction 0 1 .load :=
  ((swapWritten.later 6).asked_eq 0 1).1

/-- The action is for the other figure, in place of the first one. -/
theorem swapAsked_action : swapAsked.catalog = catalogFile twoFigureCard ∧
    swapAsked.compact = catalogCompact (be32 (catalogFile twoFigureCard).byte 0) ∧
    swapAsked.target = 1 ∧ swapAsked.old = some 0 ∧ swapAsked.ticks = swapAsked.removeTick := by
  obtain ⟨hcatalog, hcompact, htarget, hold⟩ := startAction_kept swapWritten.toStorage 0 1 .load
  obtain ⟨hread, hread', -⟩ := firstShown_catalog twoFigureCard_catalog
  obtain ⟨-, hstart, hticks, -⟩ := (swapWritten.later 6).asked_eq 0 1
  obtain ⟨hkept, hkept', -⟩ := shownFirst.wrote_kept 1
  rw [← swapWritten, shownFirst_storage] at hkept hkept'
  rw [swapAsked_storage]
  exact ⟨hcatalog.trans (hkept.trans hread), hcompact.trans (hkept'.trans hread'), htarget,
    hold.trans swapWritten_ui, hticks.trans hstart.symm⟩

/-- The figure in slot 0 is taken off the portal. -/
theorem swapAsked_slots : swapAsked.slots = Function.update (fun _ => .zero) 0 removedSlot := by
  rw [swapAsked_storage]
  exact startAction_slots_of_only swapWritten_ui swapWritten_slots 1 .load

/-- The first figure is shown and block 1 of it is written. -/
theorem writtenRun_final : Run.final System.step (System.init twoFigureCard .ok) writtenRun =
    atRest swapWritten twoFigureCard := by
  have hpresent : (shownFirst.slots 0).present = true := by
    rw [shownFirst_slots, Function.update_self]
    rfl
  have hcount : (shownFirst.sessions 0).count ≠ 8 := by
    rw [shownFirst_replies]
    decide
  rw [writtenRun, Run.final_append, openRun_final, swapWritten]
  exact writes_run (Or.inr rfl) shownFirst_resting.route hpresent hcount (shownFirst_resting.read 0)

/-- The tick at which the swap is asked for is the next event. -/
theorem untilSwap_final : Run.final System.step (System.init twoFigureCard .ok) untilSwap =
    ((atRest (swapWritten.later 5) twoFigureCard).step .timer).1 := by
  rw [untilSwap, Run.final_append, writtenRun_final, Run.final_append,
    swapWritten_resting.wait_run (swapWritten_clock.1.trans swapWritten_clock.2.symm) (by decide)]
  rfl

/-- The first figure is to be saved. -/
theorem swapWritten_changed : (swapWritten.slots 0).changed = true := by
  rw [swapWritten_slots, Function.update_self]
  exact show decide ((0 : U32) + 1 ≠ 0) = true by decide

/-- The second entry is in no slot when the figure has been written. -/
theorem swapWritten_owner : swapWritten.owner 1 = none := by
  refine List.find?_eq_none.mpr fun i _ => ?_
  rw [swapWritten_slots]
  by_cases hi : i = 0
  · rw [hi, Function.update_self]
    exact show ¬ (true && decide ((0 : U32) = 1)) = true by decide
  · rw [Function.update_of_ne hi]
    decide

/-- The action begins with the save of the figure it takes off the portal. -/
theorem swap_step : ∃ out, (Run.final System.step (System.init twoFigureCard .ok) untilSwap).step
    (hears 1) = (⟨swapAsked.saving 0, twoFigureCard, [], [.save], .waiting⟩,
      out ++ [.submit .save]) := by
  have hread : ∀ fd, ((swapAsked.saving 0).sessions fd).read = none := fun fd =>
    (((swapWritten.later 6).asked_eq 0 1).2.2.2 fd).trans (swapWritten_resting.read fd)
  have hpoll : ((swapWritten.later 6).asked 0 1).pollAction .load 0 =
      (swapAsked.saving 0, [.submit .save]) :=
    Machine.asked_inPlace (m := swapWritten.later 6) swapWritten_ui swapWritten_changed 1
  rw [untilSwap_final]
  exact ⟨_, swapWritten_resting.asks_step swapWritten_clock.1 1 (by decide) (by decide)
    shownFirst_count swapWritten_owner hpoll hread⟩

/-- The first figure is saved while the swap goes on. -/
theorem swapSave_run :
    Run.final System.step ⟨swapAsked.saving 0, twoFigureCard, [], [.save], .waiting⟩ swapSave =
        atRest swapSaved swapCard ∧
      Run.outputs System.step ⟨swapAsked.saving 0, twoFigureCard, [], [.save], .waiting⟩ swapSave =
        [.saved 0] ∧
      Run.Every System.step (fun σ _ => σ.hid.action = swapAsked.action)
        ⟨swapAsked.saving 0, twoFigureCard, [], [.save], .waiting⟩ swapSave := by
  rw [swapSaved, swapCard, swapSave]
  exact saving_run swapAsked twoFigureCard 0 (swapAsked.saving_ok 0 twoFigureCard)

/-- The figure in slot 0 is saved, and still off the portal. -/
theorem swapSaved_slots :
    swapSaved.slots = Function.update (fun _ => .zero) 0 removedSlot.afterSave := by
  rw [swapSaved, swapAsked.savedSlot_slots, swapAsked_slots, Function.update_self,
    Function.update_idem]

/-- The save has not touched the files of the second figure. -/
theorem swapCard_other (k : Option Bool) :
    swapCard (e11Name 1 k) = twoFigureCard (e11Name 1 k) := by
  have hid : (swapAsked.slots 0).id = 0 := by
    rw [swapAsked_slots, Function.update_self]
    rfl
  rw [swapCard]
  refine swapAsked.saving_card 0 twoFigureCard .ok (by decide) ?_ ?_ k
  · rw [hid]
    decide
  · rw [hid]
    decide

/-- The swap waits to load the second figure. -/
theorem swapSaved_waiting : swapSaved.Waiting .load :=
  (swapWritten_resting.later 6).saved_waits swapWritten_ui 1 twoFigureCard .ok

/-- No tick has passed since the swap began. -/
theorem swapSaved_start : swapSaved.ticks = swapSaved.removeTick := by
  obtain ⟨-, -, -, -, hticks, hremove⟩ := swapAsked.savedSlot_kept 0 twoFigureCard .ok
  exact hticks.trans (swapAsked_action.2.2.2.2.trans hremove.symm)

/-- The other figure takes the slot of the first one. -/
theorem swapLoad_run :
    Run.final System.step (atRest swapSaved swapCard) swapLoad = atRest swapShown swapCard ∧
      Run.outputs System.step (atRest swapSaved swapCard) swapLoad =
        [.submit .load, .installed 0] ∧
      swapShown.slots = Function.update (fun _ => .zero) 0 otherSlot := by
  obtain ⟨hcatalog, hcompact, htarget, hold, -⟩ := swapAsked.savedSlot_kept 0 twoFigureCard .ok
  rw [← swapSaved] at hcatalog hcompact htarget hold
  obtain ⟨hcatalog', hcompact', htarget', hold', -⟩ := swapAsked_action
  have huid : (swapSaved.slots 0).lastUid ≠ be32 otherFigure.byte 0 := by
    rw [swapSaved_slots, Function.update_self]
    exact show be32 (Bytes.zero 1024).byte 0 ≠ be32 otherFigure.byte 0 by decide
  have hfig : FigIntact swapCard 1 otherSource otherFigure := by
    obtain ⟨⟨file, hf, hn, hdump⟩, hhash⟩ := twoFigureCard_second
    exact ⟨⟨file, (swapCard_other none).trans hf, hn, hdump⟩, hhash⟩
  have hfree : ¬ ((swapSaved.slots 0).occupied = true ∧ some 0 ≠ swapSaved.old) :=
    fun hother => hother.2 (hold.trans hold').symm
  obtain ⟨hfinal, hout, hslots⟩ := otherLoad_run (d := swapCard) (m := swapSaved) 0
    swapSaved_waiting swapSaved_start (hcatalog.trans hcatalog') (hcompact.trans hcompact')
      (htarget.trans htarget') hfig
    (fun k => (swapCard_other (some k)).trans (twoFigureCard_empty (by decide) k))
    huid (fun i hi => by rw [swapSaved_slots, Function.update_of_ne hi])
    (if_neg hfree)
  refine ⟨hfinal, hout, ?_⟩
  rw [swapShown, hslots, releaseOld_slots_of_only (hold.trans hold') swapSaved_slots,
    Function.update_idem]

/-- The whole swap: the write, its save, and the load of the other figure. -/
def swapRun : List Action := untilSwap ++ hears 1 :: (swapSave ++ swapLoad)

/-- The swap up to the end of the save. -/
theorem swapSaved_final :
    Run.final System.step (System.init twoFigureCard .ok) (untilSwap ++ hears 1 :: swapSave) =
        atRest swapSaved swapCard ∧
      ∃ out, Run.outputs System.step (System.init twoFigureCard .ok)
        (untilSwap ++ hears 1 :: swapSave) = out ++ [.submit .save] ++ [.saved 0] := by
  obtain ⟨out, hstep⟩ := swap_step
  obtain ⟨hfinal, hout, -⟩ := swapSave_run
  refine ⟨?_, Run.outputs System.step (System.init twoFigureCard .ok) untilSwap ++ out, ?_⟩
  · rw [Run.final_append, Run.final_cons, hstep, hfinal]
  · rw [Run.outputs_append, Run.outputs_cons, hstep, hout]
    simp only [List.append_assoc]

/-- The swap up to its end. -/
theorem swapRun_final :
    Run.final System.step (System.init twoFigureCard .ok) swapRun = atRest swapShown swapCard ∧
      ∃ out, Run.outputs System.step (System.init twoFigureCard .ok) swapRun =
        out ++ [.installed 0] := by
  obtain ⟨hsaved, before, hbefore⟩ := swapSaved_final
  obtain ⟨hfinal, hout, -⟩ := swapLoad_run
  have hrun : swapRun = (untilSwap ++ hears 1 :: swapSave) ++ swapLoad := by
    rw [swapRun, List.append_assoc, List.cons_append]
  rw [hrun, Run.final_append, Run.outputs_append, hsaved, hfinal, hout, hbefore]
  refine ⟨rfl, before ++ [.submit .save] ++ [.saved 0] ++ [.submit .load], ?_⟩
  simp only [List.append_assoc, List.singleton_append]

/-- The calls up to the write succeed. -/
theorem writtenRun_succeeds : ∀ a ∈ writtenRun, a.Succeeds := by
  simp only [writtenRun, openRun, opens, writes, List.mem_append, List.mem_cons, List.not_mem_nil,
    or_false]
  rintro a ((h | rfl | rfl) | rfl | rfl)
  · exact firstFigureRun_succeeds a h
  · trivial
  · exact le_rfl
  · trivial
  · exact le_rfl

/-- All calls of that run succeed. -/
theorem swapRun_succeeds : ∀ a ∈ swapRun, a.Succeeds := by
  simp only [swapRun, untilSwap, swapSave, swapLoad, List.mem_append, List.mem_cons,
    List.not_mem_nil, or_false]
  rintro a ((h | h | rfl) | rfl | (h | rfl) | h | rfl)
  · exact writtenRun_succeeds a h
  · exact wait_succeeds a h
  · trivial
  · exact le_rfl
  · exact runJob_succeeds a h
  · exact le_rfl
  · exact untilLoaded_succeeds a h
  · exact le_rfl

/-- The part of the run up to the save belongs to it. -/
theorem mem_swapRun {a : Action} (h : a ∈ untilSwap ++ hears 1 :: swapSave) : a ∈ swapRun := by
  have hrun : swapRun = (untilSwap ++ hears 1 :: swapSave) ++ swapLoad := by
    rw [swapRun, List.append_assoc, List.cons_append]
  rw [hrun]
  exact List.mem_append_left _ h

end VirtualPortal
