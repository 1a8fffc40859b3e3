/-
# The memory of the host

IOS hands requests to the worker with addresses and lengths the game has chosen.
`v4Physical_ne_zero` says which ranges `v4_physical` lets through: those that lie in
MEM1 or MEM2 as integers, so no sum of 32-bit words is involved that could wrap.

`v4TransferAt` is `v4_transfer` once more with every read of the caller's memory
written out: the 32 bytes of the header and the payload are pointers with the bounds
that have been checked, and a read past a bound has no result.  There always is one,
the one of `v4_transfer` (`v4TransferAt_eq`).  A read that is accepted keeps the
address that was checked for its 32 bytes until a tick writes there (`reads_checked`).
-/

import VirtualPortal.Lib.Bounded
import VirtualPortal.Hid.Commands
import Mathlib.Order.Interval.Set.LinearOrder

namespace VirtualPortal

/-! ### Ranges of addresses -/

/-- An address without its `0x80000000` or `0xc0000000` alias. -/
def unaliased (address : U32) : U32 :=
  if address &&& 0xc0000000 = 0x80000000 ∨ address &&& 0xc0000000 = 0xc0000000 then
    address &&& 0x3fffffff
  else address

/-- The addresses of a range, as integers. -/
def addresses (p len : U32) : Set ℕ := Set.Ico p.toNat (p.toNat + len.toNat)

/-- The range lies in MEM1 or in MEM2. -/
def InHostMemory (p len : U32) : Prop :=
  addresses p len ⊆ Set.Ico 0 0x01800000 ∨ addresses p len ⊆ Set.Ico 0x10000000 0x14000000

/-- A buffer is in the memory of the host just if it ends there. -/
theorem inHostMemory_iff {p len : U32} (hlen : 0 < len.toNat) :
    InHostMemory p len ↔ p.toNat + len.toNat ≤ 0x01800000 ∨
      0x10000000 ≤ p.toNat ∧ p.toNat + len.toNat ≤ 0x14000000 := by
  have hlt : p.toNat < p.toNat + len.toNat := Nat.lt_add_of_pos_right hlen
  unfold InHostMemory addresses
  rw [Set.Ico_subset_Ico_iff hlt, Set.Ico_subset_Ico_iff hlt]
  simp only [Nat.zero_le, true_and]

/-- The comparison with the end of a region, which does not wrap. -/
theorem fits_iff {p len c : U32} (hlen : 0 < len.toNat) :
    p < c ∧ len ≤ c - p ↔ p.toNat + len.toNat ≤ c.toNat := by
  constructor
  · rintro ⟨hp, hle⟩
    bv_omega
  · intro h
    constructor <;> bv_omega

/-- **`v4_physical` lets a range through exactly when it lies in memory**, and then
gives its physical address. -/
theorem v4Physical_ne_zero (address len : U32) :
    (v4Physical address len ≠ 0 ↔
      unaliased address ≠ 0 ∧ 0 < len.toNat ∧ InHostMemory (unaliased address) len) ∧
    (v4Physical address len ≠ 0 → v4Physical address len = unaliased address) := by
  have hunfold : v4Physical address len =
      if len = 0 ∨ unaliased address = 0 then 0
      else if unaliased address < 0x01800000 ∧ len ≤ 0x01800000 - unaliased address then
        unaliased address
      else if 0x10000000 ≤ unaliased address ∧ unaliased address < 0x14000000 ∧
          len ≤ 0x14000000 - unaliased address then unaliased address
      else 0 := rfl
  rw [hunfold]
  generalize unaliased address = p
  by_cases hzero : len = 0 ∨ p = 0
  · rw [if_pos hzero]
    refine ⟨⟨fun h => absurd rfl h, fun ⟨hp, hlen, _⟩ => ?_⟩, fun h => absurd rfl h⟩
    rcases hzero with rfl | rfl
    · exact absurd hlen (by decide)
    · exact absurd rfl hp
  rw [if_neg hzero]
  obtain ⟨hlen, hp⟩ := not_or.mp hzero
  have hpos : 0 < len.toNat := Nat.pos_of_ne_zero fun h => hlen (BitVec.eq_of_toNat_eq h)
  rw [inHostMemory_iff hpos]
  have hmem₁ := @fits_iff p len 0x01800000 hpos
  have hmem₂ := @fits_iff p len 0x14000000 hpos
  have hbase : (0x10000000 : U32) ≤ p ↔ 0x10000000 ≤ p.toNat := BitVec.le_def
  split_ifs with h₁ h₂
  · exact ⟨⟨fun _ => ⟨hp, hpos, Or.inl (hmem₁.mp h₁)⟩, fun _ => hp⟩, fun _ => rfl⟩
  · exact ⟨⟨fun _ => ⟨hp, hpos, Or.inr ⟨hbase.mp h₂.1, hmem₂.mp h₂.2⟩⟩, fun _ => hp⟩, fun _ => rfl⟩
  · refine ⟨⟨fun h => absurd rfl h, fun ⟨_, _, hin⟩ => ?_⟩, fun h => absurd rfl h⟩
    rcases hin with hin | ⟨hlow, hin⟩
    · exact absurd (hmem₁.mpr hin) h₁
    · exact absurd ⟨hbase.mpr hlow, hmem₂.mpr hin⟩ h₂

/-- Byte `i` of a range that is let through lies in it: the address does not wrap. -/
theorem v4Physical_byte {address len : U32} (h : v4Physical address len ≠ 0) {i : ℕ}
    (hi : i < len.toNat) :
    (v4Physical address len + BitVec.ofNat 32 i).toNat ∈
      addresses (v4Physical address len) len := by
  obtain ⟨hiff, heq⟩ := v4Physical_ne_zero address len
  obtain ⟨-, hpos, hin⟩ := hiff.mp h
  rw [inHostMemory_iff hpos] at hin
  rw [heq h]
  generalize unaliased address = p at hin ⊢
  have hsum : (p + BitVec.ofNat 32 i).toNat = p.toNat + i := by
    rw [BitVec.toNat_add, BitVec.toNat_ofNat, Nat.mod_eq_of_lt (by omega : i < 2 ^ 32),
      Nat.mod_eq_of_lt (by omega)]
  rw [hsum]
  exact ⟨Nat.le_add_right _ _, by omega⟩

/-! ### The reads of a transfer -/

/-- The checks of the `switch` of `v4_control`, on a payload with bounds. -/
def parseCommandAt (data : ℕ → Option U8) (len : U32) : Option (Option PortalCommand) := do
  let command ← data 0
  if command = letter 'R' then some (if len ≠ 2 ∧ len ≠ 32 then none else some .ready)
  else if command = letter 'A' then
    if len ≠ 2 ∧ len ≠ 32 then some none
    else do
      let b ← data 1
      some (if 1 < b then none else some (.activate b))
  else if command = letter 'Q' then
    if len ≠ 3 ∧ len ≠ 32 then some none
    else do
      let slot ← data 1
      let block ← data 2
      some (if 64 ≤ block then none else some (.query (commandSlot slot) block))
  else if command = letter 'W' then
    if len ≠ 19 ∧ len ≠ 32 then some none
    else do
      let slot ← data 1
      let block ← data 2
      some (if 64 ≤ block then none else some (.write (commandSlot slot) block))
  else if command = letter 'J' then some (if len ≠ 7 ∧ len ≠ 32 then none else some .light)
  else if command = letter 'M' then
    if len ≠ 2 ∧ len ≠ 32 then some none
    else do
      let b ← data 1
      some (some (.music b))
  else if command = letter 'V' then some (if len ≠ 4 ∧ len ≠ 32 then none else some .silent)
  else if command = letter 'C' then some (if len ≠ 4 ∧ len ≠ 32 then none else some .silent)
  else if command = letter 'S' then some (if len ≠ 1 ∧ len ≠ 32 then none else some .silent)
  else if command = letter 'L' then some (if len ≠ 5 ∧ len ≠ 32 then none else some .silent)
  else some none

namespace Machine

/-- What a command does once its reply is queued: only a write reads the payload. -/
def commandApplyAt (m : Machine) (fd : Fin 16) (data : ℕ → Option U8) (c : PortalCommand) :
    Option (Machine × List Effect) :=
  match c with
  | .write slot block =>
      if (m.slots slot).present then do
        let bytes ← blockAt data 3 16
        some (m.commandApply fd (fun i => bytes.getD (i - 3) 0) (.write slot block))
      else some (m, [])
  | c => some (m.commandApply fd (fun _ => 0) c)

/-- Queue the reply of a command, then carry it out. -/
def runCommandAt (m : Machine) (fd : Fin 16) (data : ℕ → Option U8) (c : PortalCommand) (ok : Int) :
    Option (Int × Machine × List Effect) :=
  match commandReply m.slots c with
  | none => do
      let (m, effects) ← m.commandApplyAt fd data c
      some (ok, m, effects)
  | some reply =>
      let (r, s) := (m.sessions fd).v4Push reply
      if r < 0 then some (-8, m, [])
      else do
        let (m, effects) ← (m.setSession fd s).commandApplyAt fd data c
        some (ok, m, .queued fd reply :: effects)

/-- `v4_control` on a header with bounds; the payload gets the bounds that
`v4_physical` has checked. -/
def v4ControlAt (m : Machine) (fd : Fin 16) (mem : Mem) (h : ℕ → Option U8) :
    Option (Int × Machine × List Effect) := do
  let len16 ← be16At h 26
  let address ← be32At h 28
  let value ← be16At h 22
  let type ← h 20
  let index ← be16At h 24
  let request ← h 21
  let len : U32 := len16.setWidth 32
  if type ≠ 0x21 ∨ index ≠ 0 then some (-4, m, [])
  else if (request = 0x0a ∨ request = 0x0b) ∧ len = 0 ∧ value = 0 then some (8, m, [])
  else if request ≠ 9 ∨ len = 0 ∨ 32 < len then some (-4, m, [])
  else if v4Physical address len = 0 then some (-4, m, [])
  else do
    let data := bounded len.toNat (mem.bytesAt (v4Physical address len))
    let command ← data 0
    if value ≠ 0x0200 ∧ value ≠ 0x0200 ||| command.setWidth 16 then some (-4, m, [])
    else do
      let parsed ← parseCommandAt data len
      match parsed with
      | none => some (-4, m, [])
      | some c => m.runCommandAt fd data c (len.toNat + 8)

/-- `v4_transfer` with its reads: the header is 32 bytes, and a payload has the bounds
that have been checked. -/
def v4TransferAt (m : Machine) (fd : Fin 16) (mem : Mem) (msg : IpcMessage) :
    Option (Int × Machine × List Effect) :=
  if msg.ioctl.bufferIn = 0 ∨ msg.ioctl.lengthIn ≠ 32 ∨ msg.ioctl.lengthIo ≠ 0 then some (-4, m, [])
  else do
    let h := bounded msg.ioctl.lengthIn.toNat (mem.bytesAt msg.ioctl.bufferIn)
    let device ← be32At h 16
    if device ≠ 0 then some (-6, m, [])
    else if msg.ioctl.command = 2 then m.v4ControlAt fd mem h
    else do
      let len ← be32At h 24
      let endpoint ← be32At h 20
      let address ← be32At h 28
      let data := v4Physical address len
      if msg.ioctl.command = 4 ∧ endpoint = 2 ∧ 32 < len ∧ len ≤ 64 then
        some (if data = 0 then -4 else len.toNat, m, [])
      else if len ≠ 32 then some (-4, m, [])
      else if data = 0 then some (-4, m, [])
      else if msg.ioctl.command = 4 then
        if endpoint ≠ 2 then some (-4, m, [])
        else do
          let command ← bounded len.toNat (mem.bytesAt data) 0
          some (if command = letter 'L' then 32 else -4, m, [])
      else if endpoint ≠ 0x81 ∨ (m.sessions fd).read.isSome then some (-4, m, [])
      else some (0, m.startRead fd msg data, [])

end Machine

section Reads

variable {m : Machine} {fd : Fin 16} {data : ℕ → U8} {len : U32}

/-- The checks of a command read the bytes that its length covers. -/
theorem parseCommandAt_eq (hlen : 0 < len.toNat) :
    parseCommandAt (bounded len.toNat data) len = some (parseCommand data len) := by
  have hread {i : ℕ} (hi : i < len.toNat) : bounded len.toNat data i = some (data i) :=
    bounded_of_lt data hi
  have hcovers {a : U32} (h : ¬ (len ≠ a ∧ len ≠ 32)) : a.toNat ≤ len.toNat ∨ len = 32 := by
    by_cases ha : len = a
    · exact Or.inl (by rw [ha])
    · exact Or.inr (by tauto)
  unfold parseCommandAt parseCommand
  rw [hread hlen]
  simp only [Option.bind_eq_bind, Option.bind_some]
  by_cases hR : data 0 = letter 'R'
  · rw [if_pos hR, if_pos hR]
  rw [if_neg hR, if_neg hR]
  by_cases hA : data 0 = letter 'A'
  · rw [if_pos hA, if_pos hA]
    by_cases hl : len ≠ 2 ∧ len ≠ 32
    · rw [if_pos hl, if_pos (Or.inl hl)]
    · have htwo : 1 < len.toNat := by rcases hcovers hl with h | rfl <;> [exact h; decide]
      rw [if_neg hl, hread htwo, Option.bind_some]
      simp only [hl, false_or]
  rw [if_neg hA, if_neg hA]
  by_cases hQ : data 0 = letter 'Q'
  · rw [if_pos hQ, if_pos hQ]
    by_cases hl : len ≠ 3 ∧ len ≠ 32
    · rw [if_pos hl, if_pos hl]
    · have hthree : 2 < len.toNat := by rcases hcovers hl with h | rfl <;> [exact h; decide]
      rw [if_neg hl, if_neg hl, hread (by omega), hread hthree, Option.bind_some, Option.bind_some]
  rw [if_neg hQ, if_neg hQ]
  by_cases hW : data 0 = letter 'W'
  · rw [if_pos hW, if_pos hW]
    by_cases hl : len ≠ 19 ∧ len ≠ 32
    · rw [if_pos hl, if_pos hl]
    · have hthree : 2 < len.toNat := by
        rcases hcovers hl with h | rfl
        · exact lt_of_lt_of_le (by decide) h
        · decide
      rw [if_neg hl, if_neg hl, hread (by omega), hread hthree, Option.bind_some, Option.bind_some]
  rw [if_neg hW, if_neg hW]
  by_cases hJ : data 0 = letter 'J'
  · rw [if_pos hJ, if_pos hJ]
  rw [if_neg hJ, if_neg hJ]
  by_cases hM : data 0 = letter 'M'
  · rw [if_pos hM, if_pos hM]
    by_cases hl : len ≠ 2 ∧ len ≠ 32
    · rw [if_pos hl, if_pos hl]
    · have htwo : 1 < len.toNat := by rcases hcovers hl with h | rfl <;> [exact h; decide]
      rw [if_neg hl, if_neg hl, hread htwo, Option.bind_some]
  rw [if_neg hM, if_neg hM]
  split_ifs <;> rfl

/-- A write is long enough for its block. -/
theorem ParsedAs.covers {c : PortalCommand} (h : ParsedAs data len c) {slot : Fin 16} {block : U8}
    (hc : c = .write slot block) : 19 ≤ len.toNat := by
  subst hc
  cases h with
  | write _ hlen => rcases hlen with rfl | rfl <;> decide

/-- The checked effect of a command is the effect. -/
theorem commandApplyAt_eq {c : PortalCommand} (h : ParsedAs data len c) :
    m.commandApplyAt fd (bounded len.toNat data) c = some (m.commandApply fd data c) := by
  cases c with
  | write slot block =>
      have hlen : 3 + 16 ≤ len.toNat := h.covers rfl
      unfold Machine.commandApplyAt
      dsimp only
      by_cases hpresent : (m.slots slot).present = true
      · rw [if_pos hpresent, blockAt_eq data 16 hlen]
        simp only [Option.bind_eq_bind, Option.bind_some]
        unfold Machine.commandApply
        dsimp only
        rw [if_pos hpresent, if_pos hpresent]
        have hblock : (m.slots slot).writeBlock block.toNat
              (fun i => ((List.range 16).map fun i => data (3 + i)).getD (3 + i - 3) 0) =
            (m.slots slot).writeBlock block.toNat fun i => data (3 + i) := by
          unfold Slot.writeBlock Bytes.copy
          dsimp only
          congr 1
          funext i
          split_ifs with hi
          · rw [Nat.add_sub_cancel_left, getD_block data 16 (by omega)]
          · rfl
        rw [hblock]
      · rw [if_neg hpresent]
        unfold Machine.commandApply
        dsimp only
        rw [if_neg hpresent]
  | _ => rfl

/-- A checked command with its reply is the command. -/
theorem runCommandAt_eq {c : PortalCommand} (h : ParsedAs data len c) (ok : Int) :
    m.runCommandAt fd (bounded len.toNat data) c ok = some (m.runCommand fd data c ok) := by
  unfold Machine.runCommandAt Machine.runCommand
  cases commandReply m.slots c with
  | none =>
      dsimp only
      rw [commandApplyAt_eq h]
      rfl
  | some reply =>
      dsimp only
      split_ifs
      · rfl
      · rw [commandApplyAt_eq h]
        rfl

/-- **`v4_control` stays inside the header and the payload.** -/
theorem v4ControlAt_eq (m : Machine) (fd : Fin 16) (mem : Mem) (h : ℕ → U8) :
    m.v4ControlAt fd mem (bounded 32 h) = some (m.v4Control fd mem h) := by
  unfold Machine.v4ControlAt Machine.v4Control
  rw [be16At_eq h (by decide), be32At_eq h (by decide), be16At_eq h (by decide),
    bounded_of_lt h (by decide), be16At_eq h (by decide), bounded_of_lt h (by decide)]
  simp only [Option.bind_eq_bind, Option.bind_some]
  generalize (be16 h 26).setWidth 32 = len
  generalize v4Physical (be32 h 28) len = address
  generalize mem.bytesAt address = data
  by_cases htype : h 20 ≠ 0x21 ∨ be16 h 24 ≠ 0
  · rw [if_pos htype, if_pos htype]
  rw [if_neg htype, if_neg htype]
  by_cases hidle : (h 21 = 0x0a ∨ h 21 = 0x0b) ∧ len = 0 ∧ be16 h 22 = 0
  · rw [if_pos hidle, if_pos hidle]
  rw [if_neg hidle, if_neg hidle]
  by_cases hreport : h 21 ≠ 9 ∨ len = 0 ∨ 32 < len
  · rw [if_pos hreport, if_pos hreport]
  rw [if_neg hreport, if_neg hreport]
  by_cases haddress : address = 0
  · rw [if_pos haddress, if_pos haddress]
  rw [if_neg haddress, if_neg haddress]
  have hlen : 0 < len.toNat := Nat.pos_of_ne_zero fun hz =>
    hreport (Or.inr (Or.inl (BitVec.eq_of_toNat_eq hz)))
  rw [bounded_of_lt data hlen, Option.bind_some]
  by_cases hvalue : be16 h 22 ≠ 0x0200 ∧ be16 h 22 ≠ 0x0200 ||| (data 0).setWidth 16
  · rw [if_pos hvalue, if_pos hvalue]
  rw [if_neg hvalue, if_neg hvalue, parseCommandAt_eq hlen, Option.bind_some]
  cases hparse : parseCommand data len with
  | none => rfl
  | some c => exact runCommandAt_eq (parseCommand_parsed hparse) _

/-- **`v4_transfer` stays inside the header and the payload.** -/
theorem v4TransferAt_eq (m : Machine) (fd : Fin 16) (mem : Mem) (msg : IpcMessage) :
    m.v4TransferAt fd mem msg = some (m.v4Transfer fd mem msg) := by
  unfold Machine.v4TransferAt Machine.v4Transfer
  dsimp only
  by_cases hshape : msg.ioctl.bufferIn = 0 ∨ msg.ioctl.lengthIn ≠ 32 ∨ msg.ioctl.lengthIo ≠ 0
  · rw [if_pos hshape, if_pos hshape]
  rw [if_neg hshape, if_neg hshape]
  rw [not_or, not_or, not_not] at hshape
  rw [hshape.2.1, show (32 : U32).toNat = 32 from rfl]
  generalize mem.bytesAt msg.ioctl.bufferIn = h
  rw [be32At_eq h (by decide), be32At_eq h (by decide), be32At_eq h (by decide),
    be32At_eq h (by decide), v4ControlAt_eq]
  simp only [Option.bind_eq_bind, Option.bind_some]
  generalize v4Physical (be32 h 28) (be32 h 24) = data
  have hletter (hlen : ¬ be32 h 24 ≠ 32) :
      bounded (be32 h 24).toNat (mem.bytesAt data) 0 = some (mem data) := by
    rw [not_not.mp hlen, bounded_of_lt _ (by decide)]
    exact congrArg (fun p => some (mem p)) (BitVec.add_zero data)
  by_cases hdevice : be32 h 16 ≠ 0
  · rw [if_pos hdevice, if_pos hdevice]
  rw [if_neg hdevice, if_neg hdevice]
  by_cases hcontrol : msg.ioctl.command = 2
  · rw [if_pos hcontrol, if_pos hcontrol]
  rw [if_neg hcontrol, if_neg hcontrol]
  by_cases hsound : msg.ioctl.command = 4 ∧ be32 h 20 = 2 ∧ 32 < be32 h 24 ∧ be32 h 24 ≤ 64
  · rw [if_pos hsound, if_pos hsound]
  rw [if_neg hsound, if_neg hsound]
  by_cases hlen : be32 h 24 ≠ 32
  · rw [if_pos hlen, if_pos hlen]
  rw [if_neg hlen, if_neg hlen, hletter hlen]
  simp only [Option.bind_some]
  split_ifs <;> rfl

end Reads

/-! ### The buffer of a pending read -/

/-- The request asks for 32 bytes at `data`, and `v4_transfer` has checked the range. -/
structure ReadsTo (mem : Mem) (msg : IpcMessage) (data : U32) : Prop where
  length : be32 (mem.bytesAt msg.ioctl.bufferIn) 24 = 32
  address : v4Physical (be32 (mem.bytesAt msg.ioctl.bufferIn) 28)
    (be32 (mem.bytesAt msg.ioctl.bufferIn) 24) = data
  checked : data ≠ 0

/-- The 32 bytes of a packet go into the range that was checked. -/
theorem ReadsTo.byte {mem : Mem} {msg : IpcMessage} {data : U32} (h : ReadsTo mem msg data) {i : ℕ}
    (hi : i < 32) :
    (data + BitVec.ofNat 32 i).toNat ∈
      addresses data (be32 (mem.bytesAt msg.ioctl.bufferIn) 24) := by
  have hne := h.checked
  have hlen : i < (be32 (mem.bytesAt msg.ioctl.bufferIn) 24).toNat := by
    rw [h.length]
    exact hi
  rw [← h.address] at hne ⊢
  exact v4Physical_byte hne hlen

section Pending

variable {m : Machine} {fd : Fin 16} {mem : Mem} {msg req : IpcMessage}

/-- A command leaves the pending read alone. -/
theorem runCommand_read (data : ℕ → U8) (c : PortalCommand) (ok : Int) :
    ((m.runCommand fd data c ok).2.1.sessions fd).read = (m.sessions fd).read := by
  have happly (m : Machine) :
      ((m.commandApply fd data c).1.sessions fd).read = (m.sessions fd).read :=
    (congrArg Session.read (m.commandApply_session fd data c).1.1 :)
  unfold Machine.runCommand
  cases commandReply m.slots c with
  | none => exact happly m
  | some reply =>
      dsimp only
      split_ifs
      · rfl
      · have hpush : ((m.sessions fd).v4Push reply).2.read = (m.sessions fd).read := by
          unfold Session.v4Push
          split_ifs <;> rfl
        exact (happly _).trans ((congrArg Session.read (m.sessions_setSession fd _)).trans hpush)

/-- A read that is parked has its buffer. -/
theorem Machine.startRead_readData (m : Machine) (fd : Fin 16) (msg : IpcMessage) (data : U32) :
    ((m.startRead fd msg data).sessions fd).readData = data := by
  unfold startRead
  rw [sessions_setSession]
  dsimp only
  split_ifs <;> rfl

/-- A session without a read has none pending. -/
theorem setSession_no_read {s : Session} (hs : s.read = none)
    (hread : ((m.setSession fd s).sessions fd).read = some req) : False := by
  rw [m.sessions_setSession fd, hs] at hread
  cases hread

/-- A transfer that parks a read has checked its buffer. -/
theorem Machine.TransferStep.readsTo {out : Machine × List Effect}
    (h : m.TransferStep fd mem msg out) (hnone : (m.sessions fd).read = none)
    (hread : (out.1.sessions fd).read = some req) :
    ReadsTo mem msg (out.1.sessions fd).readData := by
  cases h with
  | refused =>
      rw [hnone] at hread
      cases hread
  | command _ _ _ data c ok =>
      rw [runCommand_read, hnone] at hread
      cases hread
  | read data hfree hlength haddress hchecked =>
      rw [m.startRead_readData fd msg]
      exact ⟨hlength, haddress, hchecked⟩

/-- An ioctl that parks a read has checked its buffer. -/
theorem Machine.IoctlStep.readsTo {out : Machine × List Effect}
    (h : m.IoctlStep fd mem msg out) (hnone : (m.sessions fd).read = none)
    (hread : (out.1.sessions fd).read = some req) :
    ReadsTo mem msg (out.1.sessions fd).readData := by
  have hkept (hread : (m.sessions fd).read = some req) : False := by
    rw [hnone] at hread
    cases hread
  cases h with
  | answer r => exact (hkept hread).elim
  | status address bytes => exact (hkept hread).elim
  | version hversion => exact (setSession_no_read rfl hread).elim
  | discover address bytes =>
      exact (setSession_no_read (s := { m.sessions fd with discovered := true }) hnone hread).elim
  | park hchange =>
      exact (setSession_no_read (s := { m.sessions fd with change := some msg }) hnone hread).elim
  | transfer r h => exact h.readsTo hnone hread
  | shutdown => exact (setSession_no_read rfl hread).elim
  | cancel => exact (setSession_no_read rfl hread).elim

/-- A request that starts a read has checked its buffer. -/
theorem v4Process_readsTo (hfd : msg.fd.toNat = fd.val) (hnone : (m.sessions fd).read = none)
    (hread : ((m.v4Process mem (some msg)).1.sessions fd).read = some req) :
    ReadsTo mem msg ((m.v4Process mem (some msg)).1.sessions fd).readData := by
  have h := m.v4Process_step mem msg
  generalize m.v4Process mem (some msg) = out at h hread ⊢
  cases h with
  | answer r =>
      rw [hnone] at hread
      cases hread
  | close fd' hfd' =>
      obtain rfl : fd' = fd := Fin.ext (hfd'.symm.trans hfd)
      exact (setSession_no_read (s := .zero) rfl hread).elim
  | ioctl fd' hfd' hioctl h =>
      obtain rfl : fd' = fd := Fin.ext (hfd'.symm.trans hfd)
      exact h.readsTo hnone hread

/-- The read that is pending after an event, if there is one, was pending before it
with the same buffer, or the event has started it. -/
theorem hidStep_readData (e : HidEvent)
    (hread : ((m.hidStep e).1.sessions fd).read = some msg) :
    ((m.sessions fd).read = some msg ∧
      ((m.hidStep e).1.sessions fd).readData = (m.sessions fd).readData) ∨
    ∃ mem, e = .process mem (some msg) ∧
      ReadsTo mem msg ((m.hidStep e).1.sessions fd).readData := by
  cases e with
  | process mem req =>
      rcases m.process_cases fd mem req with ⟨req', rfl, hfd, h⟩ | ⟨h, -⟩
      · have hnew (hnone : (m.sessions fd).read = none) (he : req' = msg) :
            ∃ mem', HidEvent.process mem (some req') = .process mem' (some msg) ∧ ReadsTo mem' msg
              ((m.v4Process mem (some req')).1.sessions fd).readData := by
          subst he
          exact ⟨mem, rfl, v4Process_readsTo hfd hnone hread⟩
        have hread' : ((m.v4Process mem (some req')).1.sessions fd).read = some msg := hread
        show (_ ∧ ((m.v4Process mem (some req')).1.sessions fd).readData = _) ∨
          ∃ mem', HidEvent.process mem (some req') = .process mem' (some msg) ∧ ReadsTo mem' msg
            ((m.v4Process mem (some req')).1.sessions fd).readData
        generalize (m.v4Process mem (some req')).1.sessions fd = t at h hread' hnew ⊢
        generalize (m.v4Process mem (some req')).2 = out at h
        cases h with
        | startReply _ hnone => exact Or.inr (hnew hnone (Option.some.inj hread'))
        | startStatus _ hnone => exact Or.inr (hnew hnone (Option.some.inj hread'))
        | command reply t wrote answer hroom hreply ht =>
            have hpush : ((m.sessions fd).v4Push reply).2.read = (m.sessions fd).read ∧
                ((m.sessions fd).v4Push reply).2.readData = (m.sessions fd).readData := by
              rw [Session.v4Push, if_neg hroom]
              exact ⟨rfl, rfl⟩
            have hsame : t.read = (m.sessions fd).read := (congrArg Session.read ht.1).trans hpush.1
            exact Or.inl ⟨hsame ▸ hread', (congrArg Session.readData ht.1).trans hpush.2⟩
        | cancel => cases hread'
        | reset _ t last hgone => rw [hgone] at hread'; cases hread'
        | _ => exact Or.inl ⟨hread', rfl⟩
      · have hsame : (m.hidStep (.process mem req)).1.sessions fd = m.sessions fd := h
        rw [hsame] at hread ⊢
        exact Or.inl ⟨hread, rfl⟩
  | tick line send =>
      have hpolled := m.polled_sameIo line send fd
      have hsession : (m.hidStep (.tick line send)).1.sessions fd = _ :=
        m.sessions_v4Tick line send fd
      rw [hsession] at hread ⊢
      rcases ((m.polled line send).sessions fd).v4Tick_cases (m.polled line send).ticks with
        h | ⟨msg', -, -, h⟩
      · rw [h] at hread ⊢
        exact Or.inl ⟨hpolled.read ▸ hread, (congrArg Session.readData hpolled.eq :)⟩
      · rw [h, (Session.deliver_keeps _ msg').1] at hread
        cases hread
  | complete =>
      have hsame := m.e09Complete_sameIo fd
      exact Or.inl ⟨hsame.read ▸ hread, (congrArg Session.readData hsame.eq :)⟩
  | outside st route => exact Or.inl ⟨hread, rfl⟩

/-- In every run the buffer of a pending read is one that its request has asked for. -/
theorem reads_checked (io : StartIo) {es : List HidEvent}
    (hread : ((Run.final Machine.hidStep (Machine.start io) es).sessions fd).read = some msg) :
    ∃ mem, .process mem (some msg) ∈ es ∧
      ReadsTo mem msg ((Run.final Machine.hidStep (Machine.start io) es).sessions fd).readData := by
  induction es using List.reverseRecOn with
  | nil =>
      have hnone : ((Machine.start io).sessions fd).read = none := by
        rw [start_sessions]
        rfl
      exact absurd (hnone.symm.trans hread) (by simp)
  | append_singleton es e ih =>
      rw [Run.final_append] at hread ⊢
      rcases hidStep_readData e hread with ⟨hold, hdata⟩ | ⟨mem, rfl, hnew⟩
      · obtain ⟨mem, hmem, hto⟩ := ih hold
        rw [Run.final_cons, Run.final_nil, hdata]
        exact ⟨mem, List.mem_append_left _ hmem, hto⟩
      · exact ⟨mem, List.mem_append_right _ (List.mem_singleton_self _), hnew⟩

/-- A packet of a tick goes to the buffer of a read that was pending. -/
theorem mem_v4Tick_deliver {line : RequestLine} {send : Int} {addr : U32} {packet : Bytes 32}
    (h : .deliver msg addr packet ∈ (m.v4Tick line send).2) :
    ∃ fd, (m.sessions fd).read = some msg ∧ (m.sessions fd).readData = addr := by
  obtain ⟨quiet, hquiet, hout⟩ := m.v4Tick_effects line send
  rw [hout] at h
  rcases List.mem_append.mp h with h | h
  · exact absurd (hquiet _ h).1 (by simp [Effect.acked])
  · obtain ⟨fd, -, hfd⟩ := List.mem_flatMap.mp h
    have hpolled := m.polled_sameIo line send fd
    have hdata : ((m.polled line send).sessions fd).readData = (m.sessions fd).readData :=
      (congrArg Session.readData hpolled.eq :)
    rcases ((m.polled line send).sessions fd).v4Tick_cases (m.polled line send).ticks with
      hnone | ⟨msg', hread, -, hdeliver⟩
    · rw [hnone] at hfd
      cases hfd
    · rw [hdeliver] at hfd
      obtain ⟨data, packet', heq, hto⟩ : ∃ data packet',
          (((m.polled line send).sessions fd).deliver msg').2 = [.deliver msg' data packet'] ∧
            data = ((m.polled line send).sessions fd).readData := by
        refine ⟨_, _, rfl, ?_⟩
        dsimp only
        split_ifs <;> rfl
      rw [heq] at hfd
      obtain ⟨rfl, rfl, rfl⟩ := Effect.deliver.inj (List.mem_singleton.mp hfd)
      exact ⟨fd, hpolled.read ▸ hread, (hto.trans hdata).symm⟩

/-- **Memory of the host is read and written in the ranges that were checked.**
`v4_physical` is exact, whatever 32-bit words it gets.  A control or interrupt transfer
reads its payload within the length that it was checked for, and in every run a tick
writes a packet where the request for it, an earlier event, has had the range of its 32
bytes checked. -/
theorem memory_confined :
    (∀ address len,
      (v4Physical address len ≠ 0 ↔
        unaliased address ≠ 0 ∧ 0 < len.toNat ∧ InHostMemory (unaliased address) len) ∧
      (v4Physical address len ≠ 0 → v4Physical address len = unaliased address ∧
        ∀ i < len.toNat, (v4Physical address len + BitVec.ofNat 32 i).toNat ∈
          addresses (v4Physical address len) len)) ∧
    (∀ (m : Machine) fd mem h,
      m.v4ControlAt fd mem (bounded 32 h) = some (m.v4Control fd mem h)) ∧
    (∀ (m : Machine) fd mem msg, m.v4TransferAt fd mem msg = some (m.v4Transfer fd mem msg)) ∧
    ∀ io es line send msg addr packet,
      .deliver msg addr packet ∈
          ((Run.final Machine.hidStep (Machine.start io) es).v4Tick line send).2 →
        ∃ mem, .process mem (some msg) ∈ es ∧ ReadsTo mem msg addr ∧
          ∀ i < 32, (addr + BitVec.ofNat 32 i).toNat ∈
            addresses addr (be32 (mem.bytesAt msg.ioctl.bufferIn) 24) := by
  refine ⟨fun address len => ?_, fun m fd mem h => v4ControlAt_eq m fd mem h,
    fun m fd mem msg => v4TransferAt_eq m fd mem msg, fun io es line send msg addr packet h => ?_⟩
  · obtain ⟨hiff, heq⟩ := v4Physical_ne_zero address len
    exact ⟨hiff, fun h => ⟨heq h, fun i hi => v4Physical_byte h hi⟩⟩
  · obtain ⟨fd, hread, hdata⟩ := mem_v4Tick_deliver h
    obtain ⟨mem, hmem, hto⟩ := reads_checked io hread
    rw [hdata] at hto
    exact ⟨mem, hmem, hto, fun i hi => hto.byte hi⟩

end Pending
end VirtualPortal
