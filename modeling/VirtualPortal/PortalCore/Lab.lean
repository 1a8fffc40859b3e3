/-
# The portal of the lab

`pc-debug/skylanders_lab.py`, class `Portal`: two figures, of which `query` reads and
`write` changes a block.  The service is tested against it.

`core_refines_lab`: in every run of the service in which queries and writes are for
blocks of figures that are present and find room for their answers, and in which no
poll finds anything new on the card, the answers it queues to queries and writes are, in
order and up to the end of the shorter reply, those of the lab, and the figures in memory
stay the lab's.  What the lab does in turn is plain: `query_write`.

The two differ on everything else.  The lab leaves the slot and the block of a refusal
zero, where the service answers `01` and the block.
-/

import VirtualPortal.PortalCore.Replies

namespace VirtualPortal

/-- `Portal` -/
structure LabPortal where
  figures : Fin 2 → Bytes 1024

namespace LabPortal

variable (P : LabPortal)

/-- The first bytes of a reply. -/
def head (command : U8) (slot block : ℤ) : Bytes 32 :=
  (Bytes.zero 32).copy 0
    (fun i => [command, 0x10 ||| BitVec.ofInt 8 slot, BitVec.ofInt 8 block].getD i 0) 3

/-- A reply to a block that is not there. -/
def refusal (command : U8) : Bytes 32 := (Bytes.zero 32).copy 0 (fun _ => command) 1

/-- The slot and the block are there. -/
def There (slot block : ℤ) : Prop := (0 ≤ slot ∧ slot < 2) ∧ 0 ≤ block ∧ block < 64

instance (slot block : ℤ) : Decidable (There slot block) := inferInstanceAs (Decidable (_ ∧ _))

/-- The slot of an index in range. -/
def There.slot {slot block : ℤ} (h : There slot block) : Fin 2 :=
  ⟨slot.toNat, by have := h.1; omega⟩

/-- `query` -/
def query (slot block : ℤ) : Bytes 32 :=
  if h : There slot block then
    (head (letter 'Q') slot block).copy 3
      (fun k => (P.figures h.slot).byte (block.toNat * 16 + k)) 16
  else refusal (letter 'Q')

/-- `write`, for a block of 16 bytes. -/
def write (slot block : ℤ) (data : ℕ → U8) : LabPortal × Bytes 32 :=
  if h : There slot block then
    (⟨Function.update P.figures h.slot ((P.figures h.slot).copy (block.toNat * 16) data 16)⟩,
      head (letter 'W') slot block)
  else (P, refusal (letter 'W'))

/-- Slots of the lab are the same just if their numbers are. -/
theorem There.slot_inj {slot block slot' block' : ℤ} (h : There slot block)
    (h' : There slot' block') : h'.slot = h.slot ↔ slot' = slot := by
  have h₀ := h.1.1
  have h₀' := h'.1.1
  rw [Fin.ext_iff]
  show slot'.toNat = slot.toNat ↔ _
  omega

/-- After a write the block it was for is read as written, and every other block, of
either figure, as before. -/
theorem query_write {slot block : ℤ} (h : There slot block) (data : ℕ → U8) (slot' block' : ℤ) :
    (P.write slot block data).1.query slot' block' =
      if slot' = slot ∧ block' = block then (head (letter 'Q') slot block).copy 3 data 16
      else P.query slot' block' := by
  have hwrite : (P.write slot block data).1.figures =
      Function.update P.figures h.slot ((P.figures h.slot).copy (block.toNat * 16) data 16) := by
    rw [write, dif_pos h]
  unfold query
  rw [hwrite]
  by_cases h' : There slot' block'
  · rw [dif_pos h', dif_pos h', Function.update_apply]
    have hblock := h.2
    have hblock' := h'.2
    split_ifs with hslot hsame hsame
    · obtain ⟨rfl, rfl⟩ := hsame
      refine Bytes.copy_congr fun k hk => ?_
      rw [Bytes.byte_copy_of_mem _ _ (by omega) (by omega) (by omega), Nat.add_sub_cancel_left]
    · have hne : block' ≠ block := fun hb => hsame ⟨(There.slot_inj h h').mp hslot, hb⟩
      rw [hslot]
      refine Bytes.copy_congr fun k hk => ?_
      rcases lt_or_gt_of_ne hne with hlt | hlt
      · exact Bytes.byte_copy_of_lt _ _ (by omega)
      · exact Bytes.byte_copy_of_le _ _ (by omega)
    · exact absurd ((There.slot_inj h h').mpr hsame.1) hslot
    · rfl
  · rw [dif_neg h', dif_neg h', if_neg]
    rintro ⟨rfl, rfl⟩
    exact h' h

end LabPortal

/-- The answer to a query or a write, as long as a reply of the lab. -/
def blockReply : CoreEffect → Option (Bytes 32)
  | .queued r => if r.length = 64 then some fun i => r.report.byte i.val else none
  | _ => none

namespace PortalCore

variable {c : PortalCore} {P : LabPortal}

/-- What the lab makes of a report. -/
def labStep (P : LabPortal) (d : Delivery) : LabPortal × List (Bytes 32) :=
  match d.transfer with
  | some (.report _ _ (.query slot block)) => (P, [P.query slot.toNat block.toNat])
  | some (.report addr _ (.write slot block)) =>
      let (P, reply) := P.write slot.toNat block.toNat fun i => d.mem.bytesAt addr (3 + i)
      (P, [reply])
  | _ => (P, [])

/-- The slot is there, in one of these states, and there is room for an answer. -/
def Serves (c : PortalCore) (states : List U8) (slot block : U8) : Prop :=
  c.deferredCount ≠ 24 ∧ block < 64 ∧ ∃ i : Fin 2, slot.toNat = i.val ∧ (c.slots i).state ∈ states

/-- The service has an answer that the lab has too, and leaves the figures if the lab
does. -/
def Comparable (c : PortalCore) (d : Delivery) : Prop :=
  c.resumed = true ∧ ¬ c.Loads d ∧
    match d.transfer with
    | some (.report _ _ (.query slot block)) => c.Serves [1] slot block
    | some (.report _ _ (.write slot block)) => c.Serves [1, 3] slot block
    | some (.read _ _) => (c.pollFigures d.card).figures = c.figures
    | _ => True

/-- The answer to a query or a write, in the shape of the lab. -/
theorem blockReply_queued {r : DeferredReport} (hroom : c.deferredCount ≠ 24) :
    (c.queueResponse r).2.filterMap blockReply = (blockReply (.queued r)).toList ∧
      (c.queueResponse r).1.figures = c.figures := by
  unfold queueResponse
  rw [if_neg hroom]
  refine ⟨?_, rfl⟩
  cases hr : blockReply (.queued r) with
  | none => exact List.filterMap_cons_none hr
  | some reply => exact List.filterMap_cons_some hr

/-- A block that the core serves is there in the lab. -/
theorem Serves.there {states : List U8} {slot block : U8} (h : c.Serves states slot block) :
    LabPortal.There slot.toNat block.toNat := by
  obtain ⟨-, hblock, i, hslot, -⟩ := h
  have hi := i.isLt
  have hlt : block.toNat < 64 := BitVec.lt_def.mp hblock
  exact ⟨by omega, by omega⟩

/-- An answer of a few bytes is none to a query or a write. -/
theorem shortReply_queued (c : PortalCore) (bytes : List U8) (h : bytes.length ≠ 64) :
    (c.queueResponse (shortReply bytes)).2.filterMap blockReply = [] ∧
      (c.queueResponse (shortReply bytes)).1.figures = c.figures := by
  have hnone : blockReply (.queued (shortReply bytes)) = none := if_neg h
  unfold queueResponse
  split_ifs
  · exact ⟨rfl, rfl⟩
  · exact ⟨List.filterMap_cons_none hnone, rfl⟩

/-- The shorter reply is the beginning of the report. -/
def Begins (p : Bytes 64) (q : Bytes 32) : Prop := ∀ k : Fin 32, p.byte k.val = q k

/-- The same bytes put into both keep the beginning. -/
theorem Begins.copy {p : Bytes 64} {q : Bytes 32} (h : Begins p q) (off len : ℕ) {src src' : ℕ → U8}
    (hsrc : ∀ k < len, src k = src' k) : Begins (p.copy off src len) (q.copy off src' len) := by
  intro k
  have hk : k.val < 64 := by omega
  rw [Bytes.byte_of_lt _ hk]
  unfold Bytes.copy
  dsimp only
  split_ifs with hmem
  · exact hsrc _ (by omega)
  · exact (p.byte_of_lt hk).symm.trans (h k)

/-- The heads of the two replies are the same. -/
theorem reportHead_begins (command slot block : U8) :
    Begins (reportHead command (0x10 ||| slot) block)
      (LabPortal.head command slot.toNat block.toNat) := by
  refine Begins.copy (fun k => Bytes.byte_zero 64 k) 0 3 fun k _ => ?_
  rw [BitVec.ofInt_natCast, BitVec.ofInt_natCast, BitVec.ofNat_toNat, BitVec.ofNat_toNat,
    BitVec.setWidth_eq, BitVec.setWidth_eq]

/-- A queued report is the reply of the lab that it begins with. -/
theorem blockReply_of_begins {p : Bytes 64} {q : Bytes 32} (h : Begins p q) :
    blockReply (.queued ⟨p, 64⟩) = some q := congrArg some (funext h)

/-- A query of a present figure is answered as by the lab. -/
theorem query_reply {slot block : U8} (h : c.Serves [1] slot block) (hP : c.figures = P.figures) :
    blockReply (.queued ⟨c.buildQuery slot block, 64⟩) =
      some (P.query slot.toNat block.toNat) := by
  have hthere := h.there
  obtain ⟨-, hblock, i, hslot, hstate⟩ := h
  have hlt : slot.toNat < 2 := hslot ▸ i.isLt
  obtain rfl : i = ⟨slot.toNat, hlt⟩ := Fin.ext hslot.symm
  have hquery : c.buildQuery slot block = (reportHead 0x51 (0x10 ||| slot) block).copy 3
      (fun k => (c.figures ⟨slot.toNat, hlt⟩).byte (block.toNat * 16 + k)) 16 := by
    unfold buildQuery
    rw [dif_pos hlt]
    exact if_pos ⟨hblock, List.mem_singleton.mp hstate⟩
  refine blockReply_of_begins ?_
  rw [hquery, LabPortal.query, dif_pos hthere, ← hP]
  exact (reportHead_begins 0x51 slot block).copy 3 16 fun k _ => rfl

/-- A write to a figure that is there does to it what it does in the lab. -/
theorem write_reply {slot block : U8} (h : c.Serves [1, 3] slot block) (hP : c.figures = P.figures)
    (data : ℕ → U8) :
    blockReply (.queued ⟨(c.buildWrite slot block data).2, 64⟩) =
        some (P.write slot.toNat block.toNat data).2 ∧
      (c.buildWrite slot block data).1.figures = (P.write slot.toNat block.toNat data).1.figures ∧
        (c.buildWrite slot block data).1.deferredCount = c.deferredCount := by
  have hthere := h.there
  obtain ⟨-, hblock, i, hslot, hstate⟩ := h
  have hlt : slot.toNat < 2 := hslot ▸ i.isLt
  obtain rfl : i = ⟨slot.toNat, hlt⟩ := Fin.ext hslot.symm
  have hwrite : c.buildWrite slot block data = (c.setFigure ⟨slot.toNat, hlt⟩
      ((c.figures ⟨slot.toNat, hlt⟩).copy (block.toNat * 16) data 16),
        reportHead 0x57 (0x10 ||| slot) block) := by
    unfold buildWrite
    rw [dif_pos hlt]
    exact if_pos ⟨hblock, List.mem_pair.mp hstate⟩
  rw [hwrite, LabPortal.write, dif_pos hthere]
  refine ⟨blockReply_of_begins (reportHead_begins 0x57 slot block), ?_, rfl⟩
  rw [← hP]
  rfl

/-- An interrupt transfer changes figures by its poll only, and queues no reply. -/
theorem pollFigures_next (c : PortalCore) (v : CardView) (len : ℕ) :
    (c.interruptIn v len).2.1.figures = (c.pollFigures v).figures ∧
      (c.interruptIn v len).2.2.filterMap blockReply = [] := by
  unfold interruptIn nextResponse
  dsimp only
  split_ifs <;> exact ⟨rfl, rfl⟩

/-- Loading is what `Loads` says. -/
theorem loadFirst_of_not_loads {d : Delivery} {io : Ioctl} (h : d.message = .ioctl io)
    (hloads : ¬ c.Loads d) : c.loadFirst d.card io = c := by
  unfold loadFirst
  rw [if_neg]
  rintro ⟨hfirst, -⟩
  exact hloads ⟨io, h, Or.inl (by simpa using hfirst)⟩

/-- A message does to the figures what it does in the lab, and its answer to a query or a
write is the lab's. -/
theorem labStep_step {d : Delivery} (hd : c.Comparable d) (hP : c.figures = P.figures) :
    (c.handle d).1.figures = (labStep P d).1.figures ∧
      (c.handle d).2.filterMap blockReply = (labStep P d).2 := by
  obtain ⟨hresumed, hloads, hcompare⟩ := hd
  have hquiet (h : c.resumed = true → d.transfer = none) : labStep P d = (P, []) := by
    unfold labStep
    rw [h hresumed]
  have hioctl {io : Ioctl} (h : d.message = .ioctl io) : labStep P d = (P, []) :=
    hquiet fun _ => transfer_ioctl h
  have hcases := c.handle_cases d
  generalize c.handle d = out at hcases ⊢
  cases hcases with
  | still result h =>
      rw [hquiet h]
      exact ⟨hP, rfl⟩
  | output addr bytes hfits h =>
      rw [hquiet h]
      exact ⟨hP, rfl⟩
  | ioctlRefused io h =>
      rw [hioctl h, loadFirst_of_not_loads h hloads]
      exact ⟨hP, rfl⟩
  | ioctl io h resumed written hfits result =>
      rw [hioctl h, loadFirst_of_not_loads h hloads]
      refine ⟨hP, ?_⟩
      cases written <;> rfl
  | reload io h hreload => exact absurd ⟨io, h, Or.inr hreload⟩ hloads
  | report addr len r _ htransfer hfits =>
      rw [List.filterMap_append, List.filterMap_cons_none rfl]
      unfold labStep
      rw [htransfer] at hcompare ⊢
      rw [show ([.ack (len + 8 : ℕ)] : List CoreEffect).filterMap blockReply = [] from rfl,
        List.append_nil]
      cases r with
      | query slot block =>
          obtain ⟨hreply, hfigures⟩ := blockReply_queued (r := ⟨c.buildQuery slot block, 64⟩)
            hcompare.1
          rw [query_reply hcompare hP] at hreply
          exact ⟨hfigures.trans hP, hreply⟩
      | write slot block =>
          obtain ⟨hanswer, hwritten, hcount⟩ := write_reply hcompare hP
            fun i => d.mem.bytesAt addr (3 + i)
          have hroom := hcompare.1
          rw [← hcount] at hroom
          obtain ⟨hreply, hfigures⟩ := blockReply_queued hroom
          rw [hanswer] at hreply
          exact ⟨hfigures.trans hwritten, hreply⟩
      | activate b =>
          obtain ⟨hreply, hfigures⟩ := shortReply_queued { c with activated := b ≠ 0 }
            [letter 'A', b, 0xff, 0x77] nofun
          exact ⟨hfigures.trans hP, hreply⟩
      | light =>
          obtain ⟨hreply, hfigures⟩ := shortReply_queued c [letter 'J'] (by decide)
          exact ⟨hfigures.trans hP, hreply⟩
      | music b =>
          obtain ⟨hreply, hfigures⟩ := shortReply_queued c [letter 'M', b, 0, 0x19] nofun
          exact ⟨hfigures.trans hP, hreply⟩
      | ready =>
          obtain ⟨hreply, hfigures⟩ := shortReply_queued c [letter 'R', 2, 0x1b] (by decide)
          exact ⟨hfigures.trans hP, hreply⟩
      | silent => exact ⟨hP, rfl⟩
  | read addr len _ htransfer hfits =>
      unfold labStep
      rw [htransfer] at hcompare ⊢
      obtain ⟨hfigures, hreplies⟩ := pollFigures_next c d.card len
      refine ⟨(hfigures.trans hcompare).trans hP, ?_⟩
      rw [List.filterMap_append, List.filterMap_cons_none rfl, hreplies]
      rfl

/-- The service as the lab has it: as long as it has answers that the lab has too, and the
card brings nothing new, the answers it queues to queries and writes are those of the
lab, in order, and so are the figures in its memory. -/
theorem core_refines_lab {c : PortalCore} {P : LabPortal} {ds : List Delivery}
    (hP : c.figures = P.figures) (hds : Run.Every handle Comparable c ds) :
    (Run.final handle c ds).figures = (Run.final labStep P ds).figures ∧
      (Run.outputs handle c ds).filterMap blockReply = Run.outputs labStep P ds := by
  refine Run.observed_refines (Q := fun (c : PortalCore) (P : LabPortal) => c.figures = P.figures)
    ?_ hds hP
  intro c P d hd hP
  exact labStep_step hd hP

/-- A figure is present in each slot. -/
def bothPresent : PortalCore :=
  { zero with resumed := true, slots := fun _ => ⟨1, fun _ => 0, 0⟩ }

/-- A control transfer with a header at `0x1000` and the start of a report at `0x2000`. -/
def reportMem (b₀ b₁ b₂ : U8) : Mem := fun a =>
  if a = 0x1003 then 1 else if a = 0x1008 then 0x21 else if a = 0x1009 then 9
  else if a = 0x2000 then b₀ else if a = 0x2001 then b₁ else if a = 0x2002 then b₂ else 0x5a

def reportDelivery (mem : Mem) (len : U32) : Delivery :=
  ⟨.ioctlv ⟨18, 1, 1, some (⟨0x1000, 16⟩, ⟨0x2000, len⟩)⟩, fun a =>
    if a = 0x1000 ∨ a = 0x1001 ∨ a = 0x1002 then 0 else mem a, ⟨fun _ => none, 0, fun _ => .ok⟩⟩

/-- A write to block 4 of the second figure, and a query of it. -/
def writeThenQuery : List Delivery :=
  [reportDelivery (reportMem (letter 'W') 1 4) 19, reportDelivery (reportMem (letter 'Q') 1 4) 3]

/-- The figure after a write and a query is that of the lab. -/
theorem core_refines_lab_writeThenQuery :
    (Run.final handle bothPresent writeThenQuery).figures 1 =
      (Run.final labStep ⟨fun _ => .zero 1024⟩ writeThenQuery).figures 1 := by
  have hloads (c : PortalCore) (mem : Mem) (len : U32) : ¬ c.Loads (reportDelivery mem len) := by
    rintro ⟨io, h, -⟩
    exact nomatch h
  have hwrite : bothPresent.Comparable (reportDelivery (reportMem (letter 'W') 1 4) 19) :=
    ⟨rfl, hloads _ _ _, by decide, by decide, 1, by decide, by decide⟩
  have hquery : (bothPresent.handle (reportDelivery (reportMem (letter 'W') 1 4) 19)).1.Comparable
      (reportDelivery (reportMem (letter 'Q') 1 4) 3) :=
    ⟨rfl, hloads _ _ _, by decide, by decide, 1, by decide, by decide⟩
  exact congrFun (@core_refines_lab bothPresent ⟨fun _ => .zero 1024⟩ writeThenQuery rfl
    ⟨hwrite, hquery, trivial⟩).1 1

end PortalCore
end VirtualPortal
