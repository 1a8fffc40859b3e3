/-
# A command is carried out whole or not at all

`v4_control` checks a request, queues the reply and only then touches a slot, so a
command that is refused, or whose reply finds no room, leaves everything as it was
(`v4Control_cases`).  `Accepted` is what a command does otherwise, by its letter:

| letter | reply | slots |
| --- | --- | --- |
| `R`, `A`, `J`, `M` | one | kept |
| `Q` | one, with the block of a slot that is present | kept |
| `W` | one | the block of a slot that is present is overwritten |
| `V`, `C`, `S`, `L` | none | kept |

Requests in any number write what their `W` commands carry, so a block holds the
bytes of the last one executed for it (`block_after_requests`), and a `Q` answers with
them.
-/

import VirtualPortal.Hid.Deliveries
import VirtualPortal.Storage.Uids

namespace VirtualPortal

open Storage

/-- The letters of the commands with a reply. -/
def answeredLetters : List U8 :=
  [letter 'R', letter 'A', letter 'Q', letter 'W', letter 'J', letter 'M']

/-- The letters of the commands without a reply. -/
def silentLetters : List U8 := [letter 'V', letter 'C', letter 'S', letter 'L']

/-- What `v4_control` takes a payload for. -/
inductive ParsedAs (data : ℕ → U8) (len : U32) : PortalCommand → Prop
  | ready (h : data 0 = letter 'R') (hlen : len = 2 ∨ len = 32) : ParsedAs data len .ready
  | activate (h : data 0 = letter 'A') (hlen : len = 2 ∨ len = 32) (hb : data 1 ≤ 1) :
      ParsedAs data len (.activate (data 1))
  | query (h : data 0 = letter 'Q') (hlen : len = 3 ∨ len = 32) (hblock : data 2 < 64) :
      ParsedAs data len (.query (commandSlot (data 1)) (data 2))
  | write (h : data 0 = letter 'W') (hlen : len = 19 ∨ len = 32) (hblock : data 2 < 64) :
      ParsedAs data len (.write (commandSlot (data 1)) (data 2))
  | light (h : data 0 = letter 'J') (hlen : len = 7 ∨ len = 32) : ParsedAs data len .light
  | music (h : data 0 = letter 'M') (hlen : len = 2 ∨ len = 32) :
      ParsedAs data len (.music (data 1))
  | silent (h : data 0 ∈ silentLetters) : ParsedAs data len .silent

theorem parseCommand_parsed {data : ℕ → U8} {len : U32} {c : PortalCommand}
    (h : parseCommand data len = some c) : ParsedAs data len c := by
  have hlength {a b : U32} (h : ¬ (len ≠ a ∧ len ≠ b)) : len = a ∨ len = b := by tauto
  unfold parseCommand at h
  by_cases hR : data 0 = letter 'R'
  · rw [if_pos hR] at h
    split_ifs at h with hlen
    obtain rfl := Option.some.inj h
    exact .ready hR (hlength hlen)
  rw [if_neg hR] at h
  by_cases hA : data 0 = letter 'A'
  · rw [if_pos hA] at h
    split_ifs at h with hlen
    obtain rfl := Option.some.inj h
    rw [not_or] at hlen
    exact .activate hA (hlength hlen.1) (BitVec.not_lt.mp hlen.2)
  rw [if_neg hA] at h
  by_cases hQ : data 0 = letter 'Q'
  · rw [if_pos hQ] at h
    split_ifs at h with hlen hblock
    obtain rfl := Option.some.inj h
    exact .query hQ (hlength hlen) (BitVec.not_le.mp hblock)
  rw [if_neg hQ] at h
  by_cases hW : data 0 = letter 'W'
  · rw [if_pos hW] at h
    split_ifs at h with hlen hblock
    obtain rfl := Option.some.inj h
    exact .write hW (hlength hlen) (BitVec.not_le.mp hblock)
  rw [if_neg hW] at h
  by_cases hJ : data 0 = letter 'J'
  · rw [if_pos hJ] at h
    split_ifs at h with hlen
    obtain rfl := Option.some.inj h
    exact .light hJ (hlength hlen)
  rw [if_neg hJ] at h
  by_cases hM : data 0 = letter 'M'
  · rw [if_pos hM] at h
    split_ifs at h with hlen
    obtain rfl := Option.some.inj h
    exact .music hM (hlength hlen)
  rw [if_neg hM] at h
  -- the four silent commands differ in their lengths only
  split_ifs at h with hV hlen hC hlen hS hlen hL hlen
  all_goals
    obtain rfl := Option.some.inj h
    exact .silent (by simp [silentLetters, *])

/-! ### The queue -/

/-- `reply` is appended to the queue of a session. -/
structure Session.Appends (s t : Session) (reply : Bytes 32) : Prop where
  room : s.count ≠ 8
  fifo : t.fifo = Function.update s.fifo (Ring.index fifo_pos s.head s.count) reply
  head : t.head = s.head
  count : t.count = (s.count + 1) % 256
  replies : s.count ≤ 8 → t.replies = s.replies ++ [reply]

theorem Session.appends_of_activated {s t : Session} {reply : Bytes 32} (hroom : s.count ≠ 8)
    (ht : (s.v4Push reply).2.Activated t) : s.Appends t reply := by
  rw [Session.v4Push, if_neg hroom] at ht
  have hfifo : t.fifo = Function.update s.fifo (Ring.index fifo_pos s.head s.count) reply :=
    (congrArg Session.fifo ht.1 :)
  have hhead : t.head = s.head := (congrArg Session.head ht.1 :)
  have hcount : t.count = (s.count + 1) % 256 := (congrArg Session.count ht.1 :)
  refine ⟨hroom, hfifo, hhead, hcount, fun hle => ?_⟩
  have hlt : s.count < 8 := lt_of_le_of_ne hle hroom
  rw [Session.replies, hfifo, hhead, hcount, Nat.mod_eq_of_lt (by omega)]
  exact Ring.contents_push _ s.fifo s.head hlt reply

/-! ### One command -/

/-- What an accepted command does to the machine `m`, from its payload. -/
structure Accepted (m : Machine) (fd : Fin 16) (data : ℕ → U8) (len : U32)
    (r : Int × Machine × List Effect) : Prop where
  result : r.1 = len.toNat + 8
  letters : data 0 ∈ answeredLetters ∨ data 0 ∈ silentLetters
  /-- Nothing goes to a buffer of the caller. -/
  payload : (∀ addr bytes, .write addr bytes ∉ r.2.2) ∧
    ∀ msg addr packet, .deliver msg addr packet ∉ r.2.2
  others : ∀ fd' ≠ fd, r.2.1.sessions fd' = m.sessions fd'
  silent : data 0 ∈ silentLetters → r.2 = (m, [])
  answered : data 0 ∈ answeredLetters → ∃ reply, reply 0 = data 0 ∧
    queuedFor fd r.2.2 = [reply] ∧ (m.sessions fd).Appends (r.2.1.sessions fd) reply ∧
    (data 0 = letter 'Q' → (m.slots (commandSlot (data 1))).present = true → data 2 < 64 ∧
      ∀ i < 16, reply.byte (3 + i) =
        (m.slots (commandSlot (data 1))).data.byte (16 * (data 2).toNat + i))
  kept : ∀ j, ¬ (data 0 = letter 'W' ∧ j = commandSlot (data 1) ∧ (m.slots j).present = true) →
    r.2.1.slots j = m.slots j
  written : data 0 = letter 'W' → (m.slots (commandSlot (data 1))).present = true → data 2 < 64 ∧
    ∃ bytes : Bytes 1024, r.2.1.slots (commandSlot (data 1)) =
        { m.slots (commandSlot (data 1)) with
          data := bytes, generation := (m.slots (commandSlot (data 1))).generation + 1 } ∧
      ∀ i < 1024, bytes.byte i =
        if 16 * (data 2).toNat ≤ i ∧ i < 16 * (data 2).toNat + 16 then
          data (3 + (i - 16 * (data 2).toNat))
        else (m.slots (commandSlot (data 1))).data.byte i

namespace Machine

variable {m : Machine} {fd : Fin 16} {mem : Mem} {h : ℕ → U8}

/-- A command with a reply is refused when the queue is full, else queued and carried
out. -/
theorem runCommand_reply {data : ℕ → U8} {c : PortalCommand} {ok : Int} {reply : Bytes 32}
    (hreply : commandReply m.slots c = some reply) :
    (m.sessions fd).count = 8 ∧ m.runCommand fd data c ok = (-8, m, []) ∨
      (m.sessions fd).count ≠ 8 ∧
        m.runCommand fd data c ok =
          (ok, ((m.setSession fd ((m.sessions fd).v4Push reply).2).commandApply fd data c).1,
            .queued fd reply ::
              ((m.setSession fd ((m.sessions fd).v4Push reply).2).commandApply fd data c).2) := by
  unfold runCommand
  rw [hreply]
  dsimp only
  by_cases hroom : (m.sessions fd).count = 8
  · left
    rw [Session.v4Push, if_pos hroom]
    exact ⟨hroom, rfl⟩
  · right
    rw [Session.v4Push, if_neg hroom]
    exact ⟨hroom, rfl⟩

/-- The effects of an accepted command do not write to the caller's memory. -/
theorem commandApply_payload (m : Machine) (fd : Fin 16) (data : ℕ → U8) (c : PortalCommand) :
    (∀ addr bytes, .write addr bytes ∉ (m.commandApply fd data c).2) ∧
      ∀ msg addr packet, .deliver msg addr packet ∉ (m.commandApply fd data c).2 := by
  have hwrites := (m.commandApply_session fd data c).2.1
  rcases hwrites with h | ⟨slot, h⟩ <;> rw [h] <;> simp

/-- Of the slots a command changes at most one that is present, by a write. -/
theorem commandApply_slots (m : Machine) (fd : Fin 16) (data : ℕ → U8) (c : PortalCommand) :
    (m.commandApply fd data c).1.slots =
      match c with
      | .write slot block =>
          if (m.slots slot).present = true then
            Function.update m.slots slot
              ((m.slots slot).writeBlock block.toNat fun i => data (3 + i))
          else m.slots
      | _ => m.slots := by
  cases c with
  | write slot block =>
      unfold commandApply
      dsimp only
      split_ifs <;> rfl
  | _ => rfl

/-- What a write leaves in its slot. -/
theorem writeBlock_bytes (s : Slot) (block : U8) (data : ℕ → U8) {i : ℕ} (hi : i < 1024) :
    (s.writeBlock block.toNat fun i => data (3 + i)).data.byte i =
      if 16 * block.toNat ≤ i ∧ i < 16 * block.toNat + 16 then data (3 + (i - 16 * block.toNat))
      else s.data.byte i := by
  unfold Slot.writeBlock
  dsimp only
  split_ifs with hwindow
  · rw [Bytes.byte_copy_of_mem _ _ hwindow.1 hwindow.2 hi]
  · by_cases hlow : i < 16 * block.toNat
    · exact Bytes.byte_copy_of_lt _ _ hlow
    · exact Bytes.byte_copy_of_le _ _ (by omega)

/-- The reply to a query of a slot that is present holds the block. -/
theorem query_reply {slots : Fin 16 → Slot} {slot : Fin 16} {block : U8} {reply : Bytes 32}
    (h : commandReply slots (.query slot block) = some reply)
    (hpresent : (slots slot).present = true) {i : ℕ} (hi : i < 16) :
    reply.byte (3 + i) = (slots slot).data.byte (16 * block.toNat + i) := by
  obtain rfl := Option.some.inj h
  rw [if_pos hpresent, Bytes.byte_copy_of_mem _ _ (by omega) (by omega) (by omega),
    Nat.add_sub_cancel_left]

/-- The first byte of a reply is the letter of its command. -/
theorem commandReply_letter {slots : Fin 16 → Slot} {data : ℕ → U8} {len : U32} {c : PortalCommand}
    {reply : Bytes 32} (hparsed : ParsedAs data len c) (h : commandReply slots c = some reply) :
    reply 0 = data 0 ∧ data 0 ∈ answeredLetters := by
  cases hparsed with
  | silent => cases h
  | query hletter =>
      obtain rfl := Option.some.inj h
      rw [hletter]
      refine ⟨?_, by decide⟩
      split_ifs <;> rfl
  | ready hletter | activate hletter | write hletter | light hletter | music hletter =>
      obtain rfl := Option.some.inj h
      rw [hletter, response_zero]
      exact ⟨rfl, by decide⟩

theorem not_silent_of_answered {b : U8} (h : b ∈ answeredLetters) : b ∉ silentLetters := by
  have hdisjoint : ∀ b ∈ answeredLetters, b ∉ silentLetters := by decide
  exact hdisjoint b h

/-- A command with a reply that has room is accepted. -/
theorem accepted_reply {data : ℕ → U8} {len : U32} {c : PortalCommand} {reply : Bytes 32}
    (hparsed : ParsedAs data len c) (hreply : commandReply m.slots c = some reply)
    (hroom : (m.sessions fd).count ≠ 8) :
    Accepted m fd data len
      (len.toNat + 8, ((m.setSession fd ((m.sessions fd).v4Push reply).2).commandApply fd data c).1,
        .queued fd reply ::
          ((m.setSession fd ((m.sessions fd).v4Push reply).2).commandApply fd data c).2) := by
  obtain ⟨hfirst, hletter⟩ := commandReply_letter hparsed hreply
  set m₁ := m.setSession fd ((m.sessions fd).v4Push reply).2 with hm₁
  have hslots₁ : m₁.slots = m.slots := rfl
  obtain ⟨hactivated, hwrites, hothers⟩ := m₁.commandApply_session fd data c
  have hslots := m₁.commandApply_slots fd data c
  rw [hslots₁] at hslots
  obtain ⟨hwritten, hdelivered⟩ := m₁.commandApply_payload fd data c
  refine ⟨rfl, Or.inl hletter, ⟨fun addr bytes hmem => ?_, fun msg addr packet hmem => ?_⟩,
    fun fd' hne => ?_,
    fun hsilent => absurd hsilent (not_silent_of_answered hletter),
    fun _ => ⟨reply, hfirst, ?_, ?_, fun hQ hpresent => ?_⟩, fun j hj => ?_, fun hW hpresent => ?_⟩
  · rcases List.mem_cons.mp hmem with hmem | hmem
    · cases hmem
    · exact hwritten addr bytes hmem
  · rcases List.mem_cons.mp hmem with hmem | hmem
    · cases hmem
    · exact hdelivered msg addr packet hmem
  · exact (hothers fd' hne).trans (m.sessions_setSession_ne fd hne _)
  · show queuedFor fd (.queued fd reply :: (m₁.commandApply fd data c).2) = [reply]
    rw [← List.singleton_append, queuedFor_append, queuedFor_queued, if_pos rfl,
      queuedFor_of_quiet hwrites.quiet]
    rfl
  · rw [hm₁, m.sessions_setSession fd] at hactivated
    exact Session.appends_of_activated hroom hactivated
  · cases hparsed with
    | query _ _ hblock => exact ⟨hblock, fun i hi => query_reply hreply hpresent hi⟩
    | ready hother | activate hother | write hother | light hother | music hother =>
        exact absurd (hother.symm.trans hQ) (by decide)
    | silent => cases hreply
  · show (m₁.commandApply fd data c).1.slots j = m.slots j
    rw [hslots]
    cases hparsed with
    | write hletter' =>
        dsimp only
        split_ifs with hpresent
        · refine Function.update_of_ne (fun he => hj ⟨hletter', he, ?_⟩) _ _
          rw [he]
          exact hpresent
        · rfl
    | _ => rfl
  · show data 2 < 64 ∧ ∃ bytes : Bytes 1024, (m₁.commandApply fd data c).1.slots _ = _ ∧ _
    rw [hslots]
    cases hparsed with
    | write _ _ hblock =>
        dsimp only
        rw [if_pos hpresent]
        exact ⟨hblock, _, Function.update_self .., fun i hi => writeBlock_bytes _ _ data hi⟩
    | ready hother | activate hother | query hother | light hother | music hother =>
        exact absurd (hother.symm.trans hW) (by decide)
    | silent => cases hreply

/-- A command without a reply does nothing. -/
theorem accepted_silent {data : ℕ → U8} {len : U32} (hsilent : data 0 ∈ silentLetters) :
    Accepted m fd data len (len.toNat + 8, m, []) := by
  have hletter : data 0 ∉ answeredLetters := fun h => not_silent_of_answered h hsilent
  have hnot : data 0 ≠ letter 'W' := fun h => hletter (by rw [h]; decide)
  exact ⟨rfl, Or.inr hsilent, ⟨fun _ _ => List.not_mem_nil, fun _ _ _ => List.not_mem_nil⟩,
    fun _ _ => rfl, fun _ => rfl,
    fun h => absurd h hletter, fun _ _ => rfl, fun h => absurd h hnot⟩

/-- The payload of a transfer and its length. -/
def payload (mem : Mem) (h : ℕ → U8) : ℕ → U8 :=
  mem.bytesAt (v4Physical (be32 h 28) ((be16 h 26).setWidth 32))

def payloadLength (h : ℕ → U8) : U32 := (be16 h 26).setWidth 32

/-- `v4_control` refuses a request, takes it for `SET_IDLE` or `SET_PROTOCOL`, or runs
the command of its payload. -/
theorem v4Control_cases (m : Machine) (fd : Fin 16) (mem : Mem) (h : ℕ → U8) :
    m.v4Control fd mem h = (-4, m, []) ∨
      (h 21 = 0x0a ∨ h 21 = 0x0b) ∧ m.v4Control fd mem h = (8, m, []) ∨
      h 21 = 9 ∧ ∃ c, ParsedAs (payload mem h) (payloadLength h) c ∧
        setReport mem h = some (c, payload mem h) ∧
        m.v4Control fd mem h =
          m.runCommand fd (payload mem h) c ((payloadLength h).toNat + 8) := by
  unfold v4Control setReport payload payloadLength
  dsimp only
  generalize (be16 h 26).setWidth 32 = len
  generalize v4Physical (be32 h 28) len = address
  generalize mem.bytesAt address = data
  by_cases htype : h 20 ≠ 0x21 ∨ be16 h 24 ≠ 0
  · rw [if_pos htype]
    exact Or.inl rfl
  rw [if_neg htype]
  by_cases hidle : (h 21 = 0x0a ∨ h 21 = 0x0b) ∧ len = 0 ∧ be16 h 22 = 0
  · rw [if_pos hidle]
    exact Or.inr (Or.inl ⟨hidle.1, rfl⟩)
  rw [if_neg hidle]
  by_cases hreport : h 21 ≠ 9 ∨ len = 0 ∨ 32 < len
  · rw [if_pos hreport]
    exact Or.inl rfl
  rw [if_neg hreport]
  by_cases haddress : address = 0
  · rw [if_pos haddress]
    exact Or.inl rfl
  rw [if_neg haddress]
  by_cases hvalue : be16 h 22 ≠ 0x0200 ∧ be16 h 22 ≠ 0x0200 ||| (data 0).setWidth 16
  · rw [if_pos hvalue]
    exact Or.inl rfl
  rw [if_neg hvalue]
  cases hparse : parseCommand data len with
  | none => exact Or.inl rfl
  | some c =>
      rw [not_or, not_not, not_not] at htype
      rw [not_or, not_or, not_not, BitVec.not_lt] at hreport
      refine Or.inr (Or.inr ⟨hreport.1, c, parseCommand_parsed hparse, ?_, rfl⟩)
      rw [if_pos ⟨htype.1, htype.2, hreport.1, hreport.2.1, hreport.2.2, haddress, by tauto⟩]
      rfl

/-- **A command is atomic**: refused, it does nothing; accepted, it does what its letter
says and nothing else. -/
theorem v4Control_atomic (m : Machine) (fd : Fin 16) (mem : Mem) (h : ℕ → U8) :
    ((m.v4Control fd mem h).1 < 0 → (m.v4Control fd mem h).2 = (m, [])) ∧
      (0 ≤ (m.v4Control fd mem h).1 →
        (h 21 = 0x0a ∨ h 21 = 0x0b) ∧ m.v4Control fd mem h = (8, m, []) ∨
        h 21 = 9 ∧ Accepted m fd (payload mem h) (payloadLength h) (m.v4Control fd mem h)) := by
  rcases m.v4Control_cases fd mem h with hr | ⟨hidle, hr⟩ | ⟨hreport, c, hparsed, -, hr⟩
  · rw [hr]
    exact ⟨fun _ => rfl, fun hle => absurd hle (by decide : ¬ (0 : Int) ≤ -4)⟩
  · rw [hr]
    exact ⟨fun _ => rfl, fun _ => Or.inl ⟨hidle, rfl⟩⟩
  · rw [hr]
    cases hreply : commandReply m.slots c with
    | none =>
        cases hparsed with
        | silent hsilent =>
            have hrun : m.runCommand fd (payload mem h) .silent ((payloadLength h).toNat + 8) =
              (((payloadLength h).toNat : Int) + 8, m, []) := rfl
            rw [hrun]
            exact ⟨fun hneg => by dsimp only at hneg; omega,
              fun _ => Or.inr ⟨hreport, accepted_silent hsilent⟩⟩
        | _ => cases hreply
    | some reply =>
        rcases runCommand_reply hreply with ⟨-, hrun⟩ | ⟨hroom, hrun⟩
        · rw [hrun]
          exact ⟨fun _ => rfl, fun hle => absurd hle (by decide : ¬ (0 : Int) ≤ -8)⟩
        · rw [hrun]
          exact ⟨fun hneg => by dsimp only at hneg; omega,
            fun _ => Or.inr ⟨hreport, accepted_reply hparsed hreply hroom⟩⟩

/-! ### Many requests -/

/-- A request, and the write it executes. -/
def requestStep (m : Machine) (r : Mem × Option IpcMessage) :
    Machine × List (Fin 16 × U8 × (ℕ → U8)) :=
  ((m.v4Process r.1 r.2).1, (m.executedWrite r.1 r.2).toList)

/-- The bytes of the last write that a run executes for a block. -/
def lastWrite (m : Machine) (requests : List (Mem × Option IpcMessage)) (slot : Fin 16)
    (block : U8) :
    Option (ℕ → U8) :=
  (((Run.outputs requestStep m requests).filter fun w => w.1 = slot ∧ w.2.1 = block).getLast?).map
    fun w => w.2.2

/-- One more request. -/
theorem lastWrite_snoc (m : Machine) (requests : List (Mem × Option IpcMessage))
    (r : Mem × Option IpcMessage) (slot : Fin 16) (block : U8) :
    m.lastWrite (requests ++ [r]) slot block =
      match (Run.final requestStep m requests).executedWrite r.1 r.2 with
      | some (slot', block', bytes) =>
          if slot' = slot ∧ block' = block then some bytes else m.lastWrite requests slot block
      | none => m.lastWrite requests slot block := by
  have hout : Run.outputs requestStep m (requests ++ [r]) = Run.outputs requestStep m requests ++
      ((Run.final requestStep m requests).executedWrite r.1 r.2).toList := by
    rw [Run.outputs_append, Run.outputs_cons, Run.outputs_nil, List.append_nil]
    rfl
  unfold lastWrite
  rw [hout, List.filter_append]
  cases (Run.final requestStep m requests).executedWrite r.1 r.2 with
  | none => rw [Option.toList_none, List.filter_nil, List.append_nil]
  | some w =>
      obtain ⟨slot', block', bytes⟩ := w
      rw [Option.toList_some, List.filter_singleton]
      dsimp only
      by_cases hw : slot' = slot ∧ block' = block
      · rw [if_pos hw, decide_eq_true hw]
        simp
      · rw [if_neg hw, decide_eq_false hw]
        simp

/-- A block holds the bytes of the last write for it. -/
theorem block_after_requests (m : Machine) (requests : List (Mem × Option IpcMessage))
    (slot : Fin 16) {block : U8} (hblock : block < 64) {i : ℕ} (hi : i < 16) :
    ((Run.final requestStep m requests).slots slot).data.byte (16 * block.toNat + i) =
      (m.lastWrite requests slot block).elim ((m.slots slot).data.byte (16 * block.toNat + i))
        (· i) := by
  have hlt : block.toNat < 64 := BitVec.lt_def.mp hblock
  induction requests using List.reverseRecOn with
  | nil => rfl
  | append_singleton requests r ih =>
      rw [Run.final_append, Run.final_cons, Run.final_nil, lastWrite_snoc]
      generalize Run.final requestStep m requests = m' at ih ⊢
      show ((m'.v4Process r.1 r.2).1.slots slot).data.byte _ = _
      rw [v4Process_storage]
      cases m'.executedWrite r.1 r.2 with
      | none => exact ih
      | some w =>
          obtain ⟨slot', block', bytes⟩ := w
          dsimp only
          rw [slots_setSlot]
          by_cases hslot : slot = slot'
          · rw [if_pos hslot]
            by_cases hsame : block' = block
            · rw [if_pos ⟨hslot.symm, hsame⟩, Slot.writeBlock, hsame]
              dsimp only
              rw [Bytes.byte_copy_of_mem _ _ (by omega) (by omega) (by omega),
                Nat.add_sub_cancel_left]
              rfl
            · have hne : block'.toNat ≠ block.toNat := fun h => hsame (BitVec.eq_of_toNat_eq h)
              rw [if_neg fun h => hsame h.2, ← ih, Slot.writeBlock, hslot]
              dsimp only
              rcases Nat.lt_or_ge block.toNat block'.toNat with hlow | hhigh
              · exact Bytes.byte_copy_of_lt _ _ (by omega)
              · exact Bytes.byte_copy_of_le _ _ (by omega)
          · rw [if_neg hslot, if_neg fun h => hslot h.1.symm]
            exact ih

end Machine

/-- **Commands are atomic and isolated.**  What `v4_control` does to any machine with
any request is all of `Accepted`, or nothing; and after any requests, whatever was
accepted or refused among them, an accepted `Q` for a slot that is present answers with
the bytes of the last `W` executed for its block. -/
theorem control_atomic (m : Machine) :
    (∀ (fd : Fin 16) (mem : Mem) (h : ℕ → U8),
      ((m.v4Control fd mem h).1 < 0 → (m.v4Control fd mem h).2 = (m, [])) ∧
      (0 ≤ (m.v4Control fd mem h).1 →
        (h 21 = 0x0a ∨ h 21 = 0x0b) ∧ m.v4Control fd mem h = (8, m, []) ∨
        h 21 = 9 ∧ Accepted m fd (Machine.payload mem h) (Machine.payloadLength h)
          (m.v4Control fd mem h))) ∧
    (∀ (requests : List (Mem × Option IpcMessage)) (fd : Fin 16) (mem : Mem) (h : ℕ → U8),
      let m' := Run.final Machine.requestStep m requests
      let data := Machine.payload mem h
      let slot := commandSlot (data 1)
      0 ≤ (m'.v4Control fd mem h).1 → h 21 = 9 → data 0 = letter 'Q' →
      (m'.slots slot).present = true →
        ∃ reply, queuedFor fd (m'.v4Control fd mem h).2.2 = [reply] ∧
          ∀ i < 16, reply.byte (3 + i) =
            (m.lastWrite requests slot (data 2)).elim
              ((m.slots slot).data.byte (16 * (data 2).toNat + i)) (· i)) := by
  refine ⟨m.v4Control_atomic, fun requests fd mem h => ?_⟩
  intro m' data slot hle hreport hQ hpresent
  rcases (m'.v4Control_atomic fd mem h).2 hle with ⟨hidle, -⟩ | ⟨-, haccepted⟩
  · rw [hreport] at hidle
    exact absurd hidle (by decide)
  · obtain ⟨reply, -, hqueued, -, hquery⟩ := haccepted.answered (by
      show data 0 ∈ answeredLetters
      rw [hQ]
      decide)
    obtain ⟨hblock, hbytes⟩ := hquery hQ hpresent
    refine ⟨reply, hqueued, fun i hi => ?_⟩
    rw [hbytes i hi]
    exact m.block_after_requests requests slot hblock hi

/-- The memory of a `SET_REPORT` transfer: its header and its payload. -/
def reportMemory (payload : List U8) : Mem :=
  memoryAt (List.replicate 20 0 ++
    [0x21, 9, 2, 0, 0, 0, 0, BitVec.ofNat 8 payload.length, 0, 0, 1, 0x20] ++ payload)

/-- A machine with a figure in every slot. -/
def allPresent : Machine :=
  { Machine.zero with slots := fun _ => { Slot.zero with present := true } }

/-- Block 5 of slot 0 is written. -/
def blockFive : List (Mem × Option IpcMessage) :=
  [(reportMemory ([letter 'W', 0, 5] ++ List.replicate 16 7), some (portalRequest 1 2 32))]

/-- A query of block 5 after that. -/
theorem control_atomic_blockFive :
    ∃ reply,
      queuedFor 0 ((Run.final Machine.requestStep allPresent blockFive).v4Control 0
        (reportMemory [letter 'Q', 0, 5])
        ((reportMemory [letter 'Q', 0, 5]).bytesAt 0x100)).2.2 = [reply] ∧
      ∀ i < 16, reply.byte (3 + i) = (allPresent.lastWrite blockFive 0 5).elim 0 (· i) :=
  (control_atomic allPresent).2 blockFive 0 (reportMemory [letter 'Q', 0, 5])
    ((reportMemory [letter 'Q', 0, 5]).bytesAt 0x100) (by decide +kernel) (by decide) (by decide)
    (by decide +kernel)

end VirtualPortal
