/-
# The indices as words

`plugin/source/e12_storage.h` keeps the slot of a menu position, the position the menu
shows, the position and the old slot of the running action, the slot of the disk job and
the turn of the background saves in words, of which 255 stands for no slot, and indexes
`e12_ui[16]`, `e12_slots[16]` and the queues of a session with them.

`Words` has these words, and `uiAt`, `slotAt` and `eventAt` are its array accesses: past
the end of an array there is no result.  The functions of the storage code are here once
more, each in the order of the source, over such accesses and the reads of the catalogue
of `Storage.catalogAt`.  `Machine.words` writes the indices of a machine as words, and
the equations `Machine.*_words` say that the functions then have results: the words of
the machine that the model gives, and the same effects.
-/

import VirtualPortal.Storage.Records
import VirtualPortal.Hid.Process

namespace VirtualPortal

/-- The variables of the HID worker with the indices as words; the indices of `rest`
itself are not used. -/
structure Words where
  ui : Fin 16 → U8
  view : U32
  actionUi : U32
  old : U32
  diskSlot : U32
  saveCursor : U32
  rest : Machine

/-- A slot as the source writes it. -/
def slotWord : Option (Fin 16) → U32
  | none => 255
  | some i => BitVec.ofNat 32 i.val

namespace Words

/-! ### Accesses -/

/-- `e12_ui[u]` -/
def uiAt (w : Words) (u : U32) : Option U32 :=
  if h : u.toNat < 16 then some ((w.ui ⟨u.toNat, h⟩).setWidth 32) else none

/-- `e12_ui[u]=slot` -/
def setUiAt (w : Words) (u slot : U32) : Option Words :=
  if h : u.toNat < 16 then
    some { w with ui := Function.update w.ui ⟨u.toNat, h⟩ (slot.setWidth 8) }
  else none

/-- `e12_slots[i]` -/
def slotAt (w : Words) (i : U32) : Option Slot :=
  if h : i.toNat < 16 then some (w.rest.slots ⟨i.toNat, h⟩) else none

/-- `e12_slots[i]=s` -/
def setSlotAt (w : Words) (i : U32) (s : Slot) : Option Words :=
  if h : i.toNat < 16 then
    some { w with rest := { w.rest with toStorage := w.rest.setSlot ⟨i.toNat, h⟩ s } }
  else none

/-- `e12_event` -/
def eventAt (w : Words) (i : U32) (inserted : Bool) : Option Words :=
  if h : i.toNat < 16 then some { w with rest := w.rest.e12Event ⟨i.toNat, h⟩ inserted } else none

/-! ### Actions -/

/-- `if(e12_old<16){e12_slots[e12_old].present=present;e12_event(e12_old,present);}` -/
def presentOldAt (w : Words) (present : Bool) : Option Words :=
  if w.old < 16 then do
    let s ← w.slotAt w.old
    let w' ← w.setSlotAt w.old { s with present := present }
    w'.eventAt w.old present
  else some w

/-- `if(e12_old<16)e12_slots[e12_old].occupied=0;` -/
def releaseOldAt (w : Words) : Option Words :=
  if w.old < 16 then do
    let s ← w.slotAt w.old
    w.setSlotAt w.old { s with occupied := false }
  else some w

/-- `e12_restore` -/
def restoreAt (w : Words) (error : Int) : Option Words := do
  let w ← { w with rest := { w.rest with error := error } }.presentOldAt true
  some { w with rest := { w.rest with action := none } }

/-- `e12_begin` -/
def beginAt (w : Words) (ui id : U32) (action : Swap) : Option (Int × Words) :=
  if 16 ≤ ui ∨ action = .load ∧ w.rest.count ≤ id then some (-4, w)
  else if w.rest.action ≠ none ∨ w.rest.busy then some (-8, w)
  else do
    let shown ← w.uiAt ui
    match if action = .load then w.rest.owner id else none with
    | some i => some (if shown = slotWord (some i) then 0 else -17, w)
    | none => do
        let w ← { w with
          old := shown
          actionUi := ui
          rest := { w.rest with
            target := id, action := some action, removeTick := w.rest.ticks, error := 0 }
            }.presentOldAt false
        some (0, w)

/-! ### Completions -/

/-- The first loop of `e09_complete` for a load. -/
def duplicateUid (w : Words) (uid : U32) : Bool :=
  (List.finRange 16).any fun i =>
    (w.rest.slots i).occupied && slotWord (some i) ≠ w.old && (w.rest.slots i).lastUid = uid

/-- The second loop: `slot` is 255 until a slot is found. -/
def slotSearch (w : Words) (uid : U32) : List (Fin 16) → U32 → Except Int U32
  | [], slot => .ok slot
  | i :: is, slot =>
      if (w.rest.slots i).occupied ∧ slotWord (some i) ≠ w.old then
        if (w.rest.slots i).lastUid = uid then .error (-17) else w.slotSearch uid is slot
      else
        let slot := if slot = 255 then slotWord (some i) else slot
        if (w.rest.slots i).seenUid ∧ (w.rest.slots i).lastUid = uid then .ok (slotWord (some i))
        else w.slotSearch uid is slot

/-- The end of `e09_complete` for a load. -/
def installAt (w : Words) (slot uid : U32) : Option Words := do
  let w ← w.releaseOldAt
  let w ← w.setSlotAt slot (w.rest.loadedSlot uid)
  let w ← w.setUiAt w.actionUi slot
  let w ← w.eventAt slot true
  some { w with rest := { w.rest with action := none, autoload := false } }

/-- The success of a load job. -/
def loadDoneAt (w : Words) : Option Words :=
  let uid := be32 w.rest.job.byte 32
  if w.duplicateUid uid then w.restoreAt (-17)
  else
    match w.slotSearch uid (List.finRange 16) 255 with
    | .error e => w.restoreAt e
    | .ok slot => if slot = 255 then w.restoreAt (-8) else w.installAt slot uid

/-- A save job has succeeded. -/
def saveDoneAt (w : Words) : Option Words := do
  let s ← w.slotAt w.diskSlot
  w.setSlotAt w.diskSlot { s with saved := w.rest.snapshot, sequence := s.sequence + 1 }

/-- `e09_complete` -/
def completeAt (w : Words) : Option Words :=
  let taken := { w with rest := w.rest.takeResult }
  if w.rest.result < 0 then
    if w.rest.action ≠ none then taken.restoreAt w.rest.result else some taken
  else
    match w.rest.op with
    | .catalog => ({ taken with rest := taken.rest.countEntries }.beginAt 0 0 .load).map Prod.snd
    | .save => taken.saveDoneAt
    | .load => taken.loadDoneAt

/-! ### Publications -/

/-- The slot that the menu shows, if there is one. -/
def shownAt (w : Words) : Option (Option Slot) := do
  let slot ← w.uiAt w.view
  if slot < 16 then (w.slotAt slot).map some else some none

/-- The reply buffer of `e11_publish`. -/
def replyAt (w : Words) : Option (Bytes 416) := do
  let shown ← w.shownAt
  let out := (Bytes.zero 416).putBe32 0 w.rest.requestSeq
  let out := out.putBe32 4 (BitVec.ofInt 32 w.rest.error)
  let out := out.putBe32 8 w.rest.count
  let out := out.putBe32 12 w.rest.page
  let out := out.putBe32 16 (shown.elim 0xffffffff fun s => s.id)
  let out := out.putBe32 20 (shown.elim 0 fun s => if s.present then 1 else 0)
  let out := out.putBe32 24 (BitVec.ofNat 32 w.rest.e12Dirty)
  let out := out.putBe32 28 (if w.rest.action ≠ none then 2 else if w.rest.busy then 1 else 0)
  (List.range 8).foldlM (fun out i =>
    let n := w.rest.page + BitVec.ofNat 32 i
    if n < w.rest.count then w.rest.labelAt out (32 + i * 48) 48 n else some out) out

/-- The name buffer of `e11_publish`. -/
def nameAt (w : Words) : Option (Bytes 64) := do
  match ← w.shownAt with
  | some s => w.rest.labelAt (Bytes.zero 64) 0 64 s.id
  | none => some (Bytes.zero 64)

/-- `e11_publish` -/
def publishAt (w : Words) : Option (Words × List Effect) := do
  let reply ← w.replyAt
  let name ← w.nameAt
  some ({ w with rest := { w.rest with revision := w.rest.revision + 2 } },
    [.publish ⟨w.rest.revision + 2, reply, name⟩])

/-! ### The mailbox -/

/-- A load or a removal asked for by the menu. -/
def swapAt (w : Words) (arg : U32) (action : Swap) : Option (Int × Words) := do
  let (r, w) ← w.beginAt (arg >>> 16) (arg &&& 65535) action
  some (r, if r = 0 then { w with rest := { w.rest with autoload := false } } else w)

/-- The requests of the menu. -/
def requestAt (w : Words) (op arg : U32) : Option (Int × Words) :=
  if op = 1 then
    some (0, { w with rest := { w.rest with page := if arg < e11Max then arg / 8 * 8 else 0 } })
  else if op = 2 then w.swapAt arg .load
  else if op = 3 then w.swapAt arg .remove
  else if op = 4 then some (if arg < 16 then (0, { w with view := arg }) else (-4, w))
  else if op = 5 then some (0, { w with rest := { w.rest with flush := true, error := 0 } })
  else if op = 6 then
    some (0, { w with
      rest := { w.rest with
        sessions := fun fd => (w.rest.sessions fd).rescan fun i => (w.rest.slots i).present } })
  else some (-4, w)

/-- A new request is executed. -/
def executeAt (w : Words) (seq op arg : U32) : Option Words := do
  let (r, w) ← { w with rest := { w.rest with requestSeq := seq } }.requestAt op arg
  some (if r ≠ 0 then { w with rest := { w.rest with error := r } } else w)

/-- `e11_mailbox` -/
def mailboxAt (w : Words) (line : RequestLine) : Option (Words × List Effect) :=
  if ¬ ∃ fd, w.rest.route fd then some (w, [])
  else if line 0 ≠ 0x4531324d ∨ line 4 ≠ 0x534b595a then some (w, [])
  else
    match w.rest.menuAlive (line 5) with
    | none => some (w, [])
    | some rest =>
        let w := { w with rest := rest }
        if line 1 ≠ w.rest.requestSeq ∧ ¬ w.rest.defers (line 2) then do
          let w ← w.executeAt (line 1) (line 2) (line 3)
          let (w, published) ← w.publishAt
          some (w, .executed (line 2) (line 3) :: published)
        else w.publishAt

/-! ### The poll -/

/-- `e11_submit` -/
def submit (w : Words) (op : DiskOp) (send : Int) : Words × List Effect :=
  let (rest, out) := w.rest.e11Submit op send
  ({ w with rest := rest }, out)

/-- `e12_save_slot` -/
def saveSlotAt (w : Words) (i : U32) (send : Int) : Option (Words × List Effect) := do
  let s ← w.slotAt i
  some ({ w with
    diskSlot := i
    rest := { w.rest with
      snapshot := s.generation
      job := w.rest.job.copy 32 s.data.byte 1024
      jobSlot := s.id
      jobSource := s.source
      jobSequence := s.sequence } }.submit .save send)

/-- The old slot of the action is dirty. -/
def oldChangedAt (w : Words) : Option Bool :=
  if w.old < 16 then (w.slotAt w.old).map Slot.changed else some false

/-- The end of a removal. -/
def finishRemoveAt (w : Words) : Option Words := do
  let w ← w.releaseOldAt
  let w ← w.setUiAt w.actionUi 255
  some { w with rest := { w.rest with action := none } }

/-- The load job of the action is for its target. -/
def aimLoadAt (w : Words) : Option Words := do
  let source ← w.rest.sourceHashAt w.rest.target
  some { w with rest := { w.rest with jobSlot := w.rest.target, jobSource := source } }

/-- `e09_poll` while an action runs. -/
def pollActionAt (w : Words) (action : Swap) (send : Int) : Option (Words × List Effect) := do
  if ← w.oldChangedAt then w.saveSlotAt w.old send
  else if w.rest.ticks - w.rest.removeTick < 250 then some (w, [])
  else
    match action with
    | .remove => w.finishRemoveAt.map fun w => (w, [])
    | .load => w.aimLoadAt.map fun w => w.submit .load send

/-- The loop at the end of `e09_poll`: the first dirty slot from the cursor on. -/
def dirtyFrom (w : Words) : List (Fin 16) → Option (Option U32)
  | [] => some none
  | i :: is => do
      let n := (w.saveCursor + BitVec.ofNat 32 i.val) &&& 15
      let s ← w.slotAt n
      if s.occupied && s.changed then some (some n) else w.dirtyFrom is

/-- The end of `e09_poll`. -/
def pollSaveAt (w : Words) (send : Int) : Option (Words × List Effect) := do
  match ← w.dirtyFrom (List.finRange 16) with
  | some n => ({ w with saveCursor := (n + 1) &&& 15 } : Words).saveSlotAt n send
  | none => some ({ w with rest := { w.rest with flush := false } }, [])

/-- `e09_poll` after the mailbox. -/
def pollDiskAt (w : Words) (send : Int) : Option (Words × List Effect) :=
  if w.rest.busy ∨ w.rest.queue < 0 then some (w, [])
  else if w.rest.count = 0 then
    some (if 500 ≤ w.rest.ticks - w.rest.retry then w.submit .catalog send else (w, []))
  else
    match w.rest.action with
    | some action => w.pollActionAt action send
    | none =>
        if w.rest.autoload ∧ 500 ≤ w.rest.ticks - w.rest.retry then do
          let (_, w) ← w.beginAt 0 0 .load
          some (w, [])
        else if (w.rest.error = 0 ∧ w.rest.flush) ∨ 500 ≤ w.rest.ticks - w.rest.retry then
          w.pollSaveAt send
        else some (w, [])

/-- `e09_poll` -/
def pollAt (w : Words) (line : RequestLine) (send : Int) : Option (Words × List Effect) := do
  let (w, published) ← if w.rest.ticks &&& 7 = 0 then w.mailboxAt line else some (w, [])
  let (w, submitted) ← w.pollDiskAt send
  some (w, published ++ submitted)

/-- `v4_tick`; the deliveries use no index of the menu. -/
def tickAt (w : Words) (line : RequestLine) (send : Int) : Option (Words × List Effect) := do
  let (w, polled) ←
    { w with rest := { w.rest with ticks := w.rest.ticks + 1 } }.pollAt line send
  let (rest, delivered) := w.rest.deliverReads
  some ({ w with rest := rest }, polled ++ delivered)

end Words
end VirtualPortal
