/-
# Commands and transfers

`plugin/source/hidv4.h`: `v4_physical`, `v4_control` and `v4_transfer`, in the
build with `E09_STORAGE`, `E11_MENU` and `E12_MENU` defined.

A `SET_REPORT` transfer carries a portal command.  Its first byte names it:

| command | length | reply |
| --- | --- | --- |
| `R` ready | 2 | `R 02 1b` |
| `A` activate | 2 | `A b ff 77` |
| `Q` query a block | 3 | `Q 1s b` and the block, `Q 01 b` if the slot is empty |
| `W` write a block | 19 | `W 1s b`, `W 01 b` if the slot is empty |
| `J` light | 7 | `J` |
| `M` music | 2 | `M b 00 19` |
| `V`, `C`, `S`, `L` | 4, 4, 1, 5 | none |

(or length 32 for each).  A command whose reply does not fit in the queue is
refused and changes nothing.  An interrupt-IN read takes the oldest reply at
once, or a status packet if there is none, and completes at a later tick.
-/

import VirtualPortal.Storage.Machine

namespace VirtualPortal

/-- `v4_physical`: the address in MEM1 or MEM2, `0` if the range does not fit. -/
def v4Physical (address length : U32) : U32 :=
  let high := address &&& 0xc0000000
  let address := if high = 0x80000000 ∨ high = 0xc0000000 then address &&& 0x3fffffff else address
  if length = 0 ∨ address = 0 then 0
  else if address < 0x01800000 ∧ length ≤ 0x01800000 - address then address
  else if 0x10000000 ≤ address ∧ address < 0x14000000 ∧ length ≤ 0x14000000 - address then address
  else 0

/-- The commands of `v4_control`. -/
inductive PortalCommand where
  | ready
  | activate (b : U8)
  | query (slot : Fin 16) (block : U8)
  | write (slot : Fin 16) (block : U8)
  | light
  | music (b : U8)
  | silent

/-- The letter of a command. -/
def letter (c : Char) : U8 := BitVec.ofNat 8 c.toNat

/-- The slot number in a query or a write. -/
def commandSlot (b : U8) : Fin 16 := ⟨(b &&& 15).toNat % 16, Nat.mod_lt _ (by decide)⟩

/-- The checks of the `switch` of `v4_control`: `none` is the error `-4`. -/
def parseCommand (data : ℕ → U8) (len : U32) : Option PortalCommand :=
  if data 0 = letter 'R' then if len ≠ 2 ∧ len ≠ 32 then none else some .ready
  else if data 0 = letter 'A' then
    if (len ≠ 2 ∧ len ≠ 32) ∨ 1 < data 1 then none else some (.activate (data 1))
  else if data 0 = letter 'Q' then
    if len ≠ 3 ∧ len ≠ 32 then none
    else if 64 ≤ data 2 then none else some (.query (commandSlot (data 1)) (data 2))
  else if data 0 = letter 'W' then
    if len ≠ 19 ∧ len ≠ 32 then none
    else if 64 ≤ data 2 then none else some (.write (commandSlot (data 1)) (data 2))
  else if data 0 = letter 'J' then if len ≠ 7 ∧ len ≠ 32 then none else some .light
  else if data 0 = letter 'M' then if len ≠ 2 ∧ len ≠ 32 then none else some (.music (data 1))
  else if data 0 = letter 'V' then if len ≠ 4 ∧ len ≠ 32 then none else some .silent
  else if data 0 = letter 'C' then if len ≠ 4 ∧ len ≠ 32 then none else some .silent
  else if data 0 = letter 'S' then if len ≠ 1 ∧ len ≠ 32 then none else some .silent
  else if data 0 = letter 'L' then if len ≠ 5 ∧ len ≠ 32 then none else some .silent
  else none

/-- Byte 1 of the reply to a query or a write. -/
def slotReply (slot : Fin 16) (present : Bool) : U8 :=
  if present then 0x10 ||| BitVec.ofNat 8 slot.val else 1

/-- A response whose first four bytes are given. -/
def response (b₀ b₁ b₂ b₃ : U8) : Bytes 32 :=
  (Bytes.zero 32).copy 0 (fun i => [b₀, b₁, b₂, b₃].getD i 0) 4

/-- The reply to a command. -/
def commandReply (slots : Fin 16 → Slot) : PortalCommand → Option (Bytes 32)
  | .ready => some (response (letter 'R') 2 0x1b 0)
  | .activate b => some (response (letter 'A') b 0xff 0x77)
  | .query slot block =>
      let out := response (letter 'Q') (slotReply slot (slots slot).present) block 0
      some (if (slots slot).present then
        out.copy 3 (fun i => (slots slot).data.byte (16 * block.toNat + i)) 16 else out)
  | .write slot block =>
      some (response (letter 'W') (slotReply slot (slots slot).present) block 0)
  | .light => some (response (letter 'J') 0 0 0)
  | .music b => some (response (letter 'M') b 0 0x19)
  | .silent => none

namespace Machine

/-- What a command does once its reply is queued. -/
def commandApply (m : Machine) (fd : Fin 16) (data : ℕ → U8) :
    PortalCommand → Machine × List Effect
  | .activate b =>
      let s := m.sessions fd
      let s := if s.active then s else s.e12Announce fun i => (m.slots i).present
      -- `e09_loaded` is the first slot
      let s := if ¬ s.active ∧ b ≠ 0 then { s with figureAdded := (m.slots 0).present } else s
      (m.setSession fd { s with active := true }, [])
  | .write slot block =>
      if (m.slots slot).present then
        ({ m with
          toStorage := m.setSlot slot
            ((m.slots slot).writeBlock block.toNat fun i => data (3 + i)) },
          [.wrote slot])
      else (m, [])
  | _ => (m, [])

/-- Queue the reply of a command, then carry it out; refused when the queue is
full. -/
def runCommand (m : Machine) (fd : Fin 16) (data : ℕ → U8) (c : PortalCommand) (ok : Int) :
    Int × Machine × List Effect :=
  match commandReply m.slots c with
  | none => (ok, m.commandApply fd data c)
  | some reply =>
      let (r, s) := (m.sessions fd).v4Push reply
      if r < 0 then (-8, m, [])
      else
        let (m, effects) := (m.setSession fd s).commandApply fd data c
        (ok, m, .queued fd reply :: effects)

/-- `v4_control`; `h` is the request of the caller. -/
def v4Control (m : Machine) (fd : Fin 16) (mem : Mem) (h : ℕ → U8) : Int × Machine × List Effect :=
  let len : U32 := (be16 h 26).setWidth 32
  let address := be32 h 28
  let value := be16 h 22
  if h 20 ≠ 0x21 ∨ be16 h 24 ≠ 0 then (-4, m, [])
  else if (h 21 = 0x0a ∨ h 21 = 0x0b) ∧ len = 0 ∧ value = 0 then (8, m, [])
  else if h 21 ≠ 9 ∨ len = 0 ∨ 32 < len then (-4, m, [])
  else if v4Physical address len = 0 then (-4, m, [])
  else
    let data := mem.bytesAt (v4Physical address len)
    if value ≠ 0x0200 ∧ value ≠ 0x0200 ||| (data 0).setWidth 16 then (-4, m, [])
    else
      match parseCommand data len with
      | none => (-4, m, [])
      | some c => m.runCommand fd data c (len.toNat + 8)

/-- An interrupt-IN read is accepted: its packet is the oldest reply, or the
status if no reply is queued. -/
def startRead (m : Machine) (fd : Fin 16) (msg : IpcMessage) (data : U32) : Machine :=
  let s := { m.sessions fd with read := some msg, readData := data, pendingStatus := false }
  m.setSession fd
    (if s.count ≠ 0 then
      { s with
        response := s.fifo (Ring.index Session.fifo_pos s.head 0)
        head := (s.head + 1) % 8
        count := s.count - 1
        due := m.ticks + 11 }
    else
      let (s, packet) := s.v4Status
      { s with response := packet, due := m.ticks + 1 })

/-- `v4_transfer` -/
def v4Transfer (m : Machine) (fd : Fin 16) (mem : Mem) (msg : IpcMessage) :
    Int × Machine × List Effect :=
  if msg.ioctl.bufferIn = 0 ∨ msg.ioctl.lengthIn ≠ 32 ∨ msg.ioctl.lengthIo ≠ 0 then (-4, m, [])
  else
    let h := mem.bytesAt msg.ioctl.bufferIn
    if be32 h 16 ≠ 0 then (-6, m, [])
    else if msg.ioctl.command = 2 then m.v4Control fd mem h
    else
      let len := be32 h 24
      let endpoint := be32 h 20
      let data := v4Physical (be32 h 28) len
      if msg.ioctl.command = 4 ∧ endpoint = 2 ∧ 32 < len ∧ len ≤ 64 then
        (if data = 0 then -4 else len.toNat, m, [])
      else if len ≠ 32 then (-4, m, [])
      else if data = 0 then (-4, m, [])
      else if msg.ioctl.command = 4 then
        if endpoint ≠ 2 then (-4, m, [])
        else (if mem data = letter 'L' then 32 else -4, m, [])
      else if endpoint ≠ 0x81 ∨ (m.sessions fd).read.isSome then (-4, m, [])
      else (0, m.startRead fd msg data, [])

end Machine
end VirtualPortal
