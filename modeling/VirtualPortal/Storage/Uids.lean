/-
# The UIDs the game sees

A figure is told from another by its UID, the first four bytes of its block 0.
`e09_complete` refuses a figure whose UID is already on the portal, and looks for
it in `last_uid`, which is set when a figure is installed.  The `W` command of
`v4_control` writes any block of a present slot and does not touch `last_uid`:

| operation | bytes of the slot | `last_uid` |
| --- | --- | --- |
| `e09_complete`, load | the loaded figure | its UID |
| `e09_complete`, save | kept | kept |
| `W`, block 1 to 63 | UID kept | kept |
| `W`, block 0 | UID overwritten | kept |

`uids_unique_iff` says that the last line is all that can go wrong: in every state
of a run the occupied slots remember the UIDs they hold, and the present ones
answer with different UIDs, if and only if every write of block 0 that the run
executes carries the UID the slot already has.
-/

import VirtualPortal.Storage.SecondFigure

namespace VirtualPortal

open Storage

/-! ### The portal command of a request -/

/-- The command of a `SET_REPORT` transfer and its payload: the checks of
`v4_control`. -/
def setReport (mem : Mem) (h : ℕ → U8) : Option (PortalCommand × (ℕ → U8)) :=
  let len : U32 := (be16 h 26).setWidth 32
  let address := v4Physical (be32 h 28) len
  let data := mem.bytesAt address
  let value := be16 h 22
  if h 20 = 0x21 ∧ be16 h 24 = 0 ∧ h 21 = 9 ∧ len ≠ 0 ∧ len ≤ 32 ∧ address ≠ 0 ∧
      (value = 0x0200 ∨ value = 0x0200 ||| (data 0).setWidth 16) then
    (parseCommand data len).map (·, data)
  else none

/-- The command of a request and the session it is for: the checks of `v4_process`
and `v4_transfer`. -/
def requestCommand (mem : Mem) (msg : Option IpcMessage) :
    Option (Fin 16 × PortalCommand × (ℕ → U8)) :=
  (System.portalFd msg).bind fun (msg, fd) =>
    let h := mem.bytesAt msg.ioctl.bufferIn
    if msg.command = iosIoctl ∧ msg.ioctl.command = 2 ∧ msg.ioctl.bufferIn ≠ 0 ∧
        msg.ioctl.lengthIn = 32 ∧ msg.ioctl.lengthIo = 0 ∧ be32 h 16 = 0 then
      (setReport mem h).map (fd, ·)
    else none

/-- The write a request executes: the slot, the block and the bytes.  The slot is
present and its reply has room in the queue. -/
def Machine.executedWrite (m : Machine) (mem : Mem) (msg : Option IpcMessage) :
    Option (Fin 16 × U8 × (ℕ → U8)) :=
  match requestCommand mem msg with
  | some (fd, .write slot block, data) =>
      if (m.slots slot).present = true ∧ (m.sessions fd).count ≠ 8 then
        some (slot, block, fun i => data (3 + i))
      else none
  | _ => none

namespace Machine

/-- What a command does does not depend on the result it returns. -/
theorem runCommand_snd (m : Machine) (fd : Fin 16) (data : ℕ → U8) (c : PortalCommand)
    (ok ok' : Int) : (m.runCommand fd data c ok).2 = (m.runCommand fd data c ok').2 := by
  unfold runCommand
  split
  · rfl
  · dsimp only
    split_ifs <;> rfl

/-- `v4_control` carries out the command of the transfer, or does nothing. -/
theorem v4Control_setReport (m : Machine) (fd : Fin 16) (mem : Mem) (h : ℕ → U8) :
    (m.v4Control fd mem h).2 =
      match setReport mem h with
      | some (c, data) => (m.runCommand fd data c 0).2
      | none => (m, []) := by
  unfold setReport
  dsimp only
  split_ifs with hguard
  · obtain ⟨htype, hindex, hrequest, hzero, hlen, haddress, hvalue⟩ := hguard
    unfold v4Control
    dsimp only
    rw [if_neg (by simp [htype, hindex]), if_neg (by simp [hrequest]),
      if_neg (by rw [not_or, not_or, not_not, BitVec.not_lt]; exact ⟨hrequest, hzero, hlen⟩),
      if_neg haddress, if_neg (or_iff_not_and_not.mp hvalue)]
    cases hparse : parseCommand
        (mem.bytesAt (v4Physical (be32 h 28) ((be16 h 26).setWidth 32)))
          ((be16 h 26).setWidth 32) with
    | none => rfl
    | some c => exact m.runCommand_snd fd _ c _ 0
  · unfold v4Control
    dsimp only
    split
    · rfl
    split
    · rfl
    split
    · rfl
    split
    · rfl
    split
    · rfl
    next htype _ hrequest haddress hvalue =>
      refine absurd ?_ hguard
      rw [not_or, not_not, not_not] at htype
      rw [not_or, not_or, not_not, BitVec.not_lt] at hrequest
      exact ⟨htype.1, htype.2, hrequest.1, hrequest.2.1, hrequest.2.2, haddress,
        or_iff_not_and_not.mpr hvalue⟩

/-- Only a transfer that is addressed to the portal does anything to the figures. -/
theorem TransferStep.storage {m : Machine} {fd : Fin 16} {mem : Mem} {msg : IpcMessage}
    {out : Machine × List Effect} (h : m.TransferStep fd mem msg out)
    (hguard : ¬ (msg.ioctl.command = 2 ∧ msg.ioctl.bufferIn ≠ 0 ∧ msg.ioctl.lengthIn = 32 ∧
      msg.ioctl.lengthIo = 0 ∧ be32 (mem.bytesAt msg.ioctl.bufferIn) 16 = 0)) :
    out.1.toStorage = m.toStorage := by
  cases h with
  | refused => rfl
  | command hcommand hbuffers hdevice =>
      exact absurd ⟨hcommand, hbuffers.1, hbuffers.2.1, hbuffers.2.2, hdevice⟩ hguard
  | read => rfl

/-- Only a transfer, ioctl 2, does anything to the figures. -/
theorem v4Ioctl_storage (m : Machine) (fd : Fin 16) (mem : Mem) (msg : IpcMessage) :
    (m.v4Ioctl fd mem msg).1.toStorage =
      if msg.ioctl.command = 2 ∧ msg.ioctl.bufferIn ≠ 0 ∧ msg.ioctl.lengthIn = 32 ∧
          msg.ioctl.lengthIo = 0 ∧ be32 (mem.bytesAt msg.ioctl.bufferIn) 16 = 0 then
        (m.v4Control fd mem (mem.bytesAt msg.ioctl.bufferIn)).2.1.toStorage
      else m.toStorage := by
  split
  · next hguard =>
      obtain ⟨hcommand, hin, hlength, hio, hdevice⟩ := hguard
      have htransfer : m.v4Transfer fd mem msg =
          m.v4Control fd mem (mem.bytesAt msg.ioctl.bufferIn) := by
        unfold v4Transfer
        dsimp only
        rw [if_neg (by rw [hlength, hio]; simpa using hin), if_neg (not_not_intro hdevice),
          if_pos hcommand]
      unfold v4Ioctl
      dsimp only
      rw [if_neg (by rw [hcommand]; decide), if_neg (by rw [hcommand]; decide),
        if_neg (by rw [hcommand]; decide), if_neg (by rw [hcommand]; decide),
        if_pos (Or.inl hcommand), htransfer]
      split <;> rfl
  · next hguard =>
      have h := m.v4Ioctl_step fd mem msg
      generalize m.v4Ioctl fd mem msg = out at h ⊢
      cases h with
      | transfer r h => exact h.storage hguard
      | _ => rfl

/-- The figures after a command. -/
theorem runCommand_storage (m : Machine) (fd : Fin 16) (data : ℕ → U8) (c : PortalCommand)
    (ok : Int) :
    (m.runCommand fd data c ok).2.1.toStorage =
      match c with
      | .write slot block =>
          if (m.slots slot).present = true ∧ (m.sessions fd).count ≠ 8 then
            m.setSlot slot ((m.slots slot).writeBlock block.toNat fun i => data (3 + i))
          else m.toStorage
      | _ => m.toStorage := by
  cases c with
  | write slot block =>
      unfold runCommand commandReply Session.v4Push
      dsimp only
      by_cases hroom : (m.sessions fd).count = 8
      · rw [if_pos hroom]
        dsimp only
        rw [if_pos (by decide), if_neg (by tauto)]
      · rw [if_neg hroom]
        dsimp only
        rw [if_neg (by decide)]
        unfold commandApply
        dsimp only
        rw [toStorage_setSession]
        by_cases hpresent : (m.slots slot).present = true
        · rw [if_pos hpresent, if_pos ⟨hpresent, hroom⟩]
        · rw [if_neg hpresent, if_neg (by tauto)]
          rfl
  | silent => rfl
  | _ =>
      unfold runCommand commandReply
      dsimp only
      split_ifs <;> rfl

/-- A request writes the block it carries, and does nothing else to the figures. -/
theorem v4Process_storage (m : Machine) (mem : Mem) (msg : Option IpcMessage) :
    (m.v4Process mem msg).1.toStorage =
      match m.executedWrite mem msg with
      | some (slot, block, bytes) =>
          m.setSlot slot ((m.slots slot).writeBlock block.toNat bytes)
      | none => m.toStorage := by
  cases msg with
  | none => rfl
  | some msg =>
      unfold v4Process executedWrite requestCommand System.portalFd
      dsimp only [Option.bind_some]
      split
      · next hfd =>
          dsimp only [Option.bind_some]
          split
          · next hclose => rw [if_neg (by rw [hclose]; simp [iosClose, iosIoctl])]; rfl
          next hclose =>
          split
          · next hioctl => rw [if_neg (by tauto)]
          next hioctl =>
          rw [v4Ioctl_storage, not_not.mp hioctl]
          by_cases hguard : msg.ioctl.command = 2 ∧ msg.ioctl.bufferIn ≠ 0 ∧
              msg.ioctl.lengthIn = 32 ∧ msg.ioctl.lengthIo = 0 ∧
              be32 (mem.bytesAt msg.ioctl.bufferIn) 16 = 0
          · rw [if_pos hguard, if_pos ⟨rfl, hguard⟩, v4Control_setReport]
            cases setReport mem (mem.bytesAt msg.ioctl.bufferIn) with
            | none => rfl
            | some command =>
                obtain ⟨c, data⟩ := command
                dsimp only
                rw [runCommand_storage]
                cases c with
                | write slot block =>
                    dsimp only [Option.map_some]
                    split_ifs <;> rfl
                | _ => rfl
          · rw [if_neg hguard, if_neg fun h => hguard h.2]
      · rfl

end Machine

/-! ### The UID a slot remembers -/

namespace Storage

variable {st st' : Storage}

/-- Every occupied slot remembers the UID it holds. -/
def UidCached (st : Storage) : Prop :=
  ∀ i, (st.slots i).occupied = true →
    (st.slots i).seenUid = true ∧ (st.slots i).lastUid = be32 (st.slots i).data.byte 0

/-- A slot of which the figure, and what is remembered of it, has not changed, or
that is no longer occupied. -/
structure KeepsFigure (s s' : Slot) : Prop where
  occupied : s'.occupied = true → s.occupied = true
  seenUid : s'.seenUid = s.seenUid
  lastUid : s'.lastUid = s.lastUid
  uid : be32 s'.data.byte 0 = be32 s.data.byte 0

/-- A slot keeps its own figure. -/
theorem keepsFigure_refl (s : Slot) : KeepsFigure s s := ⟨id, rfl, rfl, rfl⟩

/-- Where every slot keeps its figure the UIDs stay cached. -/
theorem UidCached.of_keepsFigure (h : st.UidCached)
    (hslots : ∀ i, KeepsFigure (st.slots i) (st'.slots i)) : st'.UidCached := by
  intro i hi
  rw [(hslots i).seenUid, (hslots i).lastUid, (hslots i).uid]
  exact h i ((hslots i).occupied hi)

/-- Setting a slot whose UID is cached. -/
theorem UidCached.setSlot (h : st.UidCached) {i : Fin 16} {s : Slot}
    (hs : s.occupied = true → s.seenUid = true ∧ s.lastUid = be32 s.data.byte 0) :
    (st.setSlot i s).UidCached := by
  intro j hj
  rw [slots_setSlot] at hj ⊢
  split_ifs at hj ⊢
  · exact hs hj
  · exact h j hj

/-- Taking the old figure out or putting it back leaves the UIDs cached. -/
theorem UidCached.setOldPresent (h : st.UidCached) (present : Bool) :
    (st.setOldPresent present).UidCached := by
  refine h.of_keepsFigure fun i => ?_
  unfold Storage.setOldPresent
  dsimp only
  split_ifs
  · exact ⟨id, rfl, rfl, rfl⟩
  · exact keepsFigure_refl _

/-- Freeing the old slot leaves the UIDs cached. -/
theorem UidCached.releaseOld (h : st.UidCached) : st.releaseOld.UidCached := by
  refine h.of_keepsFigure fun i => ?_
  unfold Storage.releaseOld
  dsimp only
  split_ifs
  · exact ⟨(nomatch ·), rfl, rfl, rfl⟩
  · exact keepsFigure_refl _

/-- What the menu asks for leaves the UIDs cached. -/
theorem UidCached.begins (h : st.UidCached) (hb : Begins st st') : st'.UidCached := by
  cases hb with
  | keep => exact h
  | action ui id action =>
      have hst : ({ st with
          old := st.ui ui, actionUi := ui, target := id, action := some action } :
          Storage).UidCached := h
      exact hst.setOldPresent false

/-- An event that writes no block. -/
theorem UidCached.move {out : List Effect} (h : st.UidCached) (hm : Move st st' out)
    (hout : ∀ slot, .wrote slot ∉ out) : st'.UidCached := by
  cases hm with
  | begins hb => exact h.begins hb
  | write slot => exact absurd List.mem_cons_self (hout slot)
  | remove => exact h.releaseOld
  | job op sent hbusy hprepares => cases hprepares <;> exact h

/-- A loaded figure is installed with its own UID. -/
theorem UidCached.install (h : st.UidCached) (slot : Fin 16) :
    (st.install slot (be32 st.job.byte 32)).UidCached := by
  refine h.releaseOld.setSlot fun _ => ⟨rfl, be32_congr fun k hk => ?_⟩
  rw [Bytes.byte_of_lt _ (by omega), Bytes.byte_of_lt _ (by omega)]
  exact congrArg st.job (Fin.ext (by simp))

/-- Every completion leaves the UIDs cached. -/
theorem UidCached.completion {out : List Effect} (h : st.UidCached)
    (hc : Completion st st' out) : st'.UidCached := by
  have htaken : st.taken.UidCached := h
  have hcounted : st.taken.counted.UidCached := h
  have hrestore : st.taken.restore.UidCached := htaken.setOldPresent true
  cases hc with
  | failed =>
      split_ifs
      · exact hrestore
      · exact h
  | catalog _ _ hb => exact hcounted.begins hb
  | saved => exact htaken.setSlot (h st.diskSlot)
  | rejected => exact hrestore
  | installed slot => exact htaken.install slot

/-- The UID of a slot with a block written. -/
theorem uid_writeBlock (s : Slot) (block : ℕ) (bytes : ℕ → U8) :
    be32 (s.writeBlock block bytes).data.byte 0 =
      if block = 0 then be32 bytes 0 else be32 s.data.byte 0 := by
  unfold Slot.writeBlock
  dsimp only
  split_ifs with hblock
  · refine be32_congr fun k hk => ?_
    rw [hblock, Bytes.byte_copy_of_mem _ _ (by omega) (by omega) (by omega)]
    congr 1
  · exact Bytes.be32_copy_of_disjoint _ _ (Or.inl (by omega))

/-- Writing a block that keeps the UID. -/
theorem UidCached.writeBlock (h : st.UidCached) {slot : Fin 16} {block : ℕ} {bytes : ℕ → U8}
    (hkeeps : block = 0 → be32 bytes 0 = be32 (st.slots slot).data.byte 0) :
    (st.setSlot slot ((st.slots slot).writeBlock block bytes)).UidCached := by
  refine h.setSlot fun hocc => ?_
  obtain ⟨hseen, hlast⟩ := h slot hocc
  refine ⟨hseen, hlast.trans ?_⟩
  rw [uid_writeBlock]
  split_ifs with hblock
  · exact (hkeeps hblock).symm
  · rfl

end Storage

/-! ### Steps -/

/-- The poll of the disk side only submits jobs. -/
theorem pollDisk_effects (m : Machine) (send : Int) :
    ∀ e ∈ (m.pollDisk send).2, ∃ op, e = .submit op := by
  have hsubmit (m : Machine) (op : DiskOp) :
      ∀ e ∈ (m.e11Submit op send).2, ∃ op, e = .submit op := by
    unfold Machine.e11Submit
    dsimp only
    split_ifs <;> simp
  have h := m.pollDisk_step send
  generalize m.pollDisk send = out at h ⊢
  cases h with
  | catalog => exact hsubmit _ _
  | saveOld => exact hsubmit _ _
  | load => exact hsubmit _ _
  | save => exact hsubmit _ _
  | _ => exact nofun

/-- A tick writes no block. -/
theorem v4Tick_wrote (m : Machine) (line : RequestLine) (send : Int) (slot : Fin 16) :
    .wrote slot ∉ figureEffects (m.v4Tick line send).2 := by
  unfold Machine.v4Tick Machine.e09Poll
  rw [figureEffects_append, Machine.figureEffects_deliverReads, List.append_nil,
    figureEffects_append]
  have hdisk (m : Machine) : .wrote slot ∉ figureEffects (m.pollDisk send).2 := fun hmem => by
    obtain ⟨op, hop⟩ := pollDisk_effects m send _ (List.mem_filter.mp hmem).1
    cases hop
  split_ifs
  · rw [(Machine.e11Mailbox_begins _ line).2]
    exact hdisk _
  · exact hdisk _

/-- The condition: a write of block 0 that is executed carries the UID the slot
already has. -/
def System.KeepsUid (σ : System) (a : Action) : Prop :=
  match a, σ.events with
  | .hid io, .request msg :: _ =>
      ∀ slot bytes, σ.hid.executedWrite io.mem msg = some (slot, 0, bytes) →
        be32 bytes 0 = be32 (σ.hid.slots slot).data.byte 0
  | _, _ => True

/-- The slot of an executed write is present. -/
theorem executedWrite_present {m : Machine} {mem : Mem} {msg : Option IpcMessage} {slot : Fin 16}
    {block : U8} {bytes : ℕ → U8} (h : m.executedWrite mem msg = some (slot, block, bytes)) :
    (m.slots slot).present = true := by
  unfold Machine.executedWrite at h
  split at h
  · split_ifs at h with hpresent
    obtain ⟨rfl, -⟩ := Prod.mk.inj (Option.some.inj h)
    exact hpresent.1
  · cases h

/-- A step that meets the condition keeps what the slots remember right. -/
theorem System.uidCached_step {σ : System} (h : σ.hid.UidCached) {a : Action}
    (ha : σ.KeepsUid a) : (σ.step a).1.hid.UidCached := by
  cases a with
  | timer => exact h
  | ioctl msg send =>
      show (σ.v4IoctlDispatch msg send).1.hid.UidCached
      rw [UidCached, (σ.v4IoctlDispatch_posts msg send).1.storage]
      exact h
  | close msg send =>
      show (σ.v4CloseDispatch msg send).1.hid.UidCached
      rw [UidCached, (σ.v4CloseDispatch_posts msg send).1.storage]
      exact h
  | receive =>
      obtain ⟨m, d, events, jobs, worker⟩ := σ
      cases worker <;> cases jobs <;> exact h
  | run io =>
      obtain ⟨m, d, events, jobs, worker⟩ := σ
      cases worker with
      | running op => cases op <;> exact h
      | _ => exact h
  | completed send =>
      obtain ⟨m, d, events, jobs, worker⟩ := σ
      cases worker <;> exact h
  | hid io =>
      obtain ⟨m, d, events, jobs, worker⟩ := σ
      cases events with
      | nil => exact h
      | cons event events =>
          cases event with
          | tick =>
              obtain ⟨st, hbegins, hmove⟩ := m.v4Tick_moves io.line io.send
              exact (h.begins hbegins).move hmove (v4Tick_wrote m io.line io.send)
          | complete => exact h.completion m.e09Complete_completion
          | request msg =>
              show (m.v4Process io.mem msg).1.UidCached
              rw [m.v4Process_storage io.mem msg]
              cases hwrite : m.executedWrite io.mem msg with
              | none => exact h
              | some write =>
                  obtain ⟨slot, block, bytes⟩ := write
                  refine h.writeBlock fun hblock => ha slot bytes ?_
                  rw [hwrite, show block = 0 from BitVec.eq_of_toNat_eq hblock]

/-- A step between two states in which the occupied slots remember the UIDs they
hold meets the condition. -/
theorem System.keepsUid_of_cached {σ : System} (hσ : σ.hid.Consistent)
    (h : ∀ i, (σ.hid.slots i).occupied = true →
      (σ.hid.slots i).lastUid = be32 (σ.hid.slots i).data.byte 0)
    {a : Action} (ha : ∀ i, ((σ.step a).1.hid.slots i).occupied = true →
      ((σ.step a).1.hid.slots i).lastUid = be32 ((σ.step a).1.hid.slots i).data.byte 0) :
    σ.KeepsUid a := by
  obtain ⟨m, d, events, jobs, worker⟩ := σ
  unfold System.KeepsUid
  split
  · next io msg events heq =>
      obtain rfl : _ = _ := heq
      intro slot bytes hwrite
      have hocc := ((hσ.present slot).mp (executedWrite_present hwrite)).1
      have hstep : (System.step ⟨m, d, .request msg :: events, jobs, worker⟩
        (.hid io)).1.hid.slots =
          (m.setSlot slot ((m.slots slot).writeBlock 0 bytes)).slots := by
        show (m.v4Process io.mem msg).1.toStorage.slots = _
        rw [m.v4Process_storage io.mem msg, hwrite]
        rfl
      have hslot := ha slot
      rw [hstep, slots_setSlot, if_pos rfl, uid_writeBlock, if_pos rfl] at hslot
      rw [← hslot hocc]
      exact h slot hocc
  · trivial

/-! ### Runs -/

/-- The UID in the reply to a query of block 0. -/
def answeredUid (slots : Fin 16 → Slot) (i : Fin 16) : Option U32 :=
  (commandReply slots (.query i 0)).map fun out => be32 out.byte 3

/-- A slot that is present answers with the UID in its bytes. -/
theorem answeredUid_of_present {slots : Fin 16 → Slot} {i : Fin 16}
    (h : (slots i).present = true) : answeredUid slots i = some (be32 (slots i).data.byte 0) := by
  unfold answeredUid commandReply
  rw [Option.map_some, if_pos h]
  refine congrArg some (be32_congr fun k hk => ?_)
  rw [Bytes.byte_copy_of_mem _ _ (by omega) (by omega) (by omega)]
  congr 1
  simp

/-- What the game may rely on: an occupied slot remembers the UID it holds, and no
two present slots answer a query of block 0 with the same UID. -/
structure Storage.UidsUnique (st : Storage) : Prop where
  cached : ∀ i, (st.slots i).occupied = true → (st.slots i).lastUid = be32 (st.slots i).data.byte 0
  answered : ∀ i j, (st.slots i).present = true → (st.slots j).present = true →
    answeredUid st.slots i = answeredUid st.slots j → i = j

/-- Where the UIDs are cached no two are the same. -/
theorem Storage.UidCached.unique {st : Storage} (hst : st.Consistent) (h : st.UidCached) :
    st.UidsUnique where
  cached i hi := (h i hi).2
  answered i j hi hj heq := by
    rw [answeredUid_of_present hi, answeredUid_of_present hj] at heq
    obtain ⟨hseen, hlast⟩ := h i ((hst.present i).mp hi).1
    obtain ⟨hseen', hlast'⟩ := h j ((hst.present j).mp hj).1
    exact hst.uid_inj i j hseen hseen' (hlast.trans ((Option.some.inj heq).trans hlast'.symm))

/-- In every run the slots are consistent. -/
theorem System.consistent_run (d : Disk) (io : StartIo) (as : List Action) :
    (Run.final System.step (System.init d io) as).hid.Consistent := by
  obtain ⟨p, -, -, h⟩ := System.slotted_of_every (System.meets_any (System.init d io) as)
  exact h.slots.toConsistent

/-- At the start no slot is occupied. -/
theorem System.uidCached_init (d : Disk) (io : StartIo) : (System.init d io).hid.UidCached := by
  obtain ⟨p, -, -, h⟩ := System.init_core d io
  intro i hi
  rw [show (System.init d io).hid.slots = _ from h.slots] at hi
  cases hi

/-- In a run whose steps keep the UIDs they stay cached. -/
theorem System.uidCached_run {d : Disk} {io : StartIo} {as : List Action}
    (has : Run.Every System.step System.KeepsUid (System.init d io) as) :
    (Run.final System.step (System.init d io) as).hid.UidCached :=
  Run.final_of_every (P := fun σ : System => σ.hid.UidCached)
    (fun _ _ ha h => System.uidCached_step h ha) has (System.uidCached_init d io)

/-- In every state of a run the occupied slots remember the UIDs they hold, and the
present slots answer with different UIDs, exactly if every executed write of block
0 carries the UID of its slot. -/
theorem uids_unique_iff (d : Disk) (io : StartIo) (as : List Action) :
    (∀ as₁ as₂, as = as₁ ++ as₂ →
        (Run.final System.step (System.init d io) as₁).hid.UidsUnique) ↔
      Run.Every System.step System.KeepsUid (System.init d io) as := by
  constructor
  · intro h
    induction as using List.reverseRecOn with
    | nil => trivial
    | append_singleton as a ih =>
        have hbefore := ih fun as₁ as₂ heq => h as₁ (as₂ ++ [a]) (by rw [heq, List.append_assoc])
        have hlast := (h (as ++ [a]) [] (List.append_nil _).symm).cached
        rw [Run.final_append] at hlast
        rw [Run.every_append]
        exact ⟨hbefore, System.keepsUid_of_cached (System.consistent_run d io as)
          (h as [a] rfl).cached hlast, trivial⟩
  · rintro h as₁ as₂ rfl
    rw [Run.every_append] at h
    exact (System.uidCached_run h.1).unique (System.consistent_run d io as₁)

/-! ### A figure given another UID -/

/-- Both figures are shown, and the game writes block 0 of the first one. -/
def uidRun : List Action := besideRun ++ writes 0

/-- After that run both slots hold the UID of the second figure. -/
theorem uidRun_slots :
    let st := (Run.final System.step (System.init twoFigureCard .ok) uidRun).hid.toStorage
    st.slots 0 = firstSlot.writeBlock 0 (written 0) ∧ st.slots 1 = otherSlot := by
  obtain ⟨hfinal, hslots⟩ := besideRun_final
  obtain ⟨hroute, hcount, hread⟩ := besideShown_game
  have hpresent : (besideShown.slots 0).present = true := by
    rw [hslots]
    rfl
  intro st
  have hst : st = (besideShown.wrote 0).toStorage := by
    show (Run.final System.step (System.init twoFigureCard .ok) uidRun).hid.toStorage = _
    rw [uidRun, Run.final_append, hfinal,
      writes_run (Or.inl rfl) hroute hpresent (by rw [hcount]; decide) hread]
    rfl
  have hwrote : st.slots = Function.update besideShown.slots 0
      ((besideShown.slots 0).writeBlock 0 (written 0)) := congrArg Storage.slots hst
  rw [hwrote, hslots]
  exact ⟨rfl, rfl⟩

/-- The game gives the first figure the UID of the second one: the slot remembers the old
UID, and two present slots answer with one UID. -/
theorem uidWritten_not_unique :
    (¬ ∀ (d : Disk) (io : StartIo) (as : List Action) (i : Fin 16),
      let st := (Run.final System.step (System.init d io) as).hid.toStorage
      (st.slots i).occupied = true → (st.slots i).lastUid = be32 (st.slots i).data.byte 0) ∧
    ¬ ∀ (d : Disk) (io : StartIo) (as : List Action) (i j : Fin 16),
      let st := (Run.final System.step (System.init d io) as).hid.toStorage
      (st.slots i).present = true → (st.slots j).present = true →
        answeredUid st.slots i = answeredUid st.slots j → i = j := by
  obtain ⟨hfirst, hother⟩ := uidRun_slots
  have huid : be32 (firstSlot.writeBlock 0 (written 0)).data.byte 0 =
      be32 otherSlot.data.byte 0 := by
    decide
  constructor
  · intro h
    have hcached := h twoFigureCard .ok uidRun 0
    dsimp only at hcached
    rw [hfirst] at hcached
    exact absurd (hcached rfl) (by decide)
  · intro h
    have hanswered := h twoFigureCard .ok uidRun 0 1
    dsimp only at hanswered
    have hpresent : (firstSlot.writeBlock 0 (written 0)).present = true := rfl
    have hpresent' : otherSlot.present = true := rfl
    rw [← hfirst] at hpresent
    rw [← hother] at hpresent'
    refine absurd (hanswered hpresent hpresent' ?_) (by decide)
    rw [answeredUid_of_present hpresent, answeredUid_of_present hpresent', hfirst, hother, huid]

end VirtualPortal
