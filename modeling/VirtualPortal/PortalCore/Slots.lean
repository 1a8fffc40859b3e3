/-
# The slots of the portal service

`portal-core/portal_core.c`: `slot_state` with its announcements (`queue_present`,
`queue_removed`, `queue_replaced`), the passes over the card (`load_slot`,
`load_figures`, `poll_one_figure`, `poll_figures`), `build_status`, `build_query`
and `build_write`.

The service `/dev/usb/hid` shows two slots.  Each has a figure of 1024 bytes, the
status code that was last reported and up to three codes still to be reported:

| codes | queued by | meaning |
| --- | --- | --- |
| 3, 1 | `queue_present` | added, present |
| 2 | `queue_removed` | removed |
| 2, 3, 1 | `queue_replaced` | removed, added, present |

The figures come from `/skylanders/slot00.bin` and `/skylanders/slot01.bin`.  What
the calls on the card return is an argument (`CardView`), as it is for the jobs of
the storage worker.
-/

import VirtualPortal.Storage.Disk
import Mathlib.Data.Fin.VecNotation

namespace VirtualPortal

/-- `slot_state` -/
structure SlotState where
  state : U8
  pending : Fin 3 → U8
  pendingCount : ℕ

namespace SlotState

/-- The slot after `mem_zero(slots, sizeof(slots))`. -/
def zero : SlotState := ⟨0, fun _ => 0, 0⟩

variable (s : SlotState)

/-- `queue_present` -/
def queuePresent : SlotState :=
  if s.state ≠ 0 then { s with pending := ![3, 1, s.pending 2], pendingCount := 2 } else s

/-- `queue_removed` -/
def queueRemoved : SlotState :=
  { s with pending := ![2, s.pending 1, s.pending 2], pendingCount := 1 }

/-- `queue_replaced` -/
def queueReplaced : SlotState := { s with pending := ![2, 3, 1], pendingCount := 3 }

/-- The loop body of `build_status`: the next code takes effect. -/
def advance : SlotState :=
  if s.pendingCount ≠ 0 then
    { state := s.pending 0
      pending := ![s.pending 1, s.pending 2, s.pending 2]
      pendingCount := s.pendingCount - 1 }
  else s

/-- The codes still to be reported, next one first. -/
def announcements : List U8 := (List.ofFn s.pending).take s.pendingCount

end SlotState

/-- The card during one pass over it: its files, the result of `ISFS_SetMode` and
what the calls on the file of a slot return. -/
structure CardView where
  disk : Disk
  setMode : Int
  read : Fin 2 → ReadIo

/-- `/skylanders/slot00.bin` with the number of the slot. -/
def slotPath (slot : Fin 2) : List U8 :=
  ascii "/skylanders/slot" ++
    [digit (BitVec.ofNat 32 (slot.val / 10)), digit (BitVec.ofNat 32 (slot.val % 10))] ++
    ascii ".bin"

/-- `os_open`, `os_read` and `os_close` on the file of a slot: `none` if it does not
open, else the result of the read and the buffer it leaves. -/
def CardView.readSlot (v : CardView) (slot : Fin 2) (p : Bytes 1024) :
    Option (Int × Bytes 1024) :=
  if (v.read slot).opened < 0 then none
  else
    match v.disk (slotPath slot) with
    | none => none
    | some file => some (osRead (v.read slot) file p 0 1024)

/-- A row of `deferred` with its length in `deferred_lengths`. -/
structure DeferredReport where
  report : Bytes 64
  length : ℕ

/-- The variables of `portal_core.c`. -/
structure PortalCore where
  resumed : Bool
  activated : Bool
  figuresLoaded : Bool
  interruptCounter : U8
  figures : Fin 2 → Bytes 1024
  figureProbe : Bytes 1024
  slots : Fin 2 → SlotState
  deferred : Fin 24 → DeferredReport
  deferredHead : ℕ
  deferredTail : ℕ
  deferredCount : ℕ
  pollDelay : ℕ
  pollSlot : Fin 2

namespace PortalCore

/-- The initial values. -/
def zero : PortalCore where
  resumed := false
  activated := true
  figuresLoaded := false
  interruptCounter := 0
  figures := fun _ => .zero 1024
  figureProbe := .zero 1024
  slots := fun _ => .zero
  deferred := fun _ => ⟨.zero 64, 0⟩
  deferredHead := 0
  deferredTail := 0
  deferredCount := 0
  pollDelay := 0
  pollSlot := 0

variable (c : PortalCore)

/-- Change the figure of a slot. -/
def setFigure (slot : Fin 2) (p : Bytes 1024) : PortalCore :=
  { c with figures := Function.update c.figures slot p }

/-- Change the state of a slot. -/
def setSlot (slot : Fin 2) (s : SlotState) : PortalCore :=
  { c with slots := Function.update c.slots slot s }

/-! ### The card -/

/-- `load_slot` -/
def loadSlot (v : CardView) (slot : Fin 2) : PortalCore :=
  match v.readSlot slot (c.figures slot) with
  | none => c
  | some (read, figure) =>
      let c := c.setFigure slot figure
      if read ≠ 1024 then c
      else
        c.setSlot slot { c.slots slot with
          state := 3, pending := ![3, 1, (c.slots slot).pending 2], pendingCount := 2 }

/-- `load_figures` -/
def loadFigures (v : CardView) : PortalCore :=
  if v.setMode < 0 then c
  else
    let c := { c with figures := fun _ => .zero 1024, slots := fun _ => .zero }
    { (List.finRange 2).foldl (fun c slot => c.loadSlot v slot) c with figuresLoaded := true }

/-- `poll_one_figure` -/
def pollOneFigure (v : CardView) : PortalCore :=
  let slot := c.pollSlot
  match v.readSlot slot c.figureProbe with
  | none =>
      if (c.slots slot).state ≠ 0 ∧ (c.slots slot).state ≠ 2 then
        (c.setFigure slot (.zero 1024)).setSlot slot (c.slots slot).queueRemoved
      else c
  | some (read, probe) =>
      let c := { c with figureProbe := probe }
      if read ≠ 1024 then c
      else if (c.slots slot).state = 0 ∨ (c.slots slot).state = 2 then
        (c.setFigure slot probe).setSlot slot ({ c.slots slot with state := 3 }).queuePresent
      else if ¬ ∀ i, c.figures slot i = probe i then
        (c.setFigure slot probe).setSlot slot (c.slots slot).queueReplaced
      else c

/-- `poll_figures`: every eighth call looks at one slot. -/
def pollFigures (v : CardView) : PortalCore :=
  let c := { c with pollDelay := c.pollDelay + 1 }
  if c.pollDelay < 8 then c
  else
    let c := { c with pollDelay := 0 }
    if v.setMode < 0 then c
    else
      let c := c.pollOneFigure v
      { c with pollSlot := c.pollSlot + 1 }

/-! ### Reports -/

/-- The codes of the slots in one word, slot 0 lowest. -/
def statusWord (slots : Fin 2 → SlotState) : U32 :=
  (List.finRange 2).reverse.foldl
    (fun status slot => status <<< 2 ||| ((slots slot).state &&& 3).setWidth 32) 0

/-- `build_status` -/
def buildStatus : PortalCore × Bytes 64 :=
  let c := { c with slots := fun slot => (c.slots slot).advance }
  let status := statusWord c.slots
  let out := (Bytes.zero 64).copy 0 (fun i => [0x53, status.setWidth 8, (status >>> 8).setWidth 8,
    (status >>> 16).setWidth 8, (status >>> 24).setWidth 8, c.interruptCounter,
    if c.activated then 1 else 0].getD i 0) 7
  ({ c with interruptCounter := c.interruptCounter + 1 }, out)

/-- A report that starts with three bytes. -/
def reportHead (b₀ b₁ b₂ : U8) : Bytes 64 :=
  (Bytes.zero 64).copy 0 (fun i => [b₀, b₁, b₂].getD i 0) 3

/-- `build_query` -/
def buildQuery (slot block : U8) : Bytes 64 :=
  if h : slot.toNat < 2 then
    let i : Fin 2 := ⟨slot.toNat, h⟩
    if block < 64 ∧ (c.slots i).state = 1 then
      (reportHead 0x51 (0x10 ||| slot) block).copy 3
        (fun k => (c.figures i).byte (block.toNat * 16 + k)) 16
    else reportHead 0x51 1 block
  else reportHead 0x51 1 block

/-- `build_write` -/
def buildWrite (slot block : U8) (data : ℕ → U8) : PortalCore × Bytes 64 :=
  if h : slot.toNat < 2 then
    let i : Fin 2 := ⟨slot.toNat, h⟩
    if block < 64 ∧ ((c.slots i).state = 1 ∨ (c.slots i).state = 3) then
      (c.setFigure i ((c.figures i).copy (block.toNat * 16) data 16),
        reportHead 0x57 (0x10 ||| slot) block)
    else (c, reportHead 0x57 1 block)
  else (c, reportHead 0x57 1 block)

end PortalCore
end VirtualPortal
