/-
# Hot swapping

Every eighth interrupt transfer looks at one of the two slots on the card and compares
its file with the figure in memory.  What it finds shows only after the answers that
wait and the codes that are still to be reported, and a poll that falls between two of
these codes can miss a change: a slot whose removal has just been reported is not looked
at as one that has a figure to lose.

`hot_swap`: once the card stays as it is, 45 interrupt transfers suffice, from any state
the service can be in.  A slot whose file does not open is not reported as present.  One
whose file gives 1024 bytes is, with these bytes as its figure whatever the host has
written before.  One whose file opens but does not give 1024 bytes, because it is shorter
or because the read fails, keeps the figure it had and comes to the code it was to come
to: an old figure stays reported as present, and an empty slot is never reported so.  The
same holds of every slot where `ISFS_SetMode` fails.

The count: 24 transfers empty the queue.  From then on every transfer takes a code, so
three transfers bring any slot to the end of its codes, and a slot that is polled there
is set right (`poll_turn`).  A slot waits at most 16 transfers for its poll, and at most
3 of its codes can be left when it comes, in which case the next poll counts.
-/

import VirtualPortal.PortalCore.Replies
import VirtualPortal.Lib.Settling
import VirtualPortal.Lib.RoundRobin

namespace VirtualPortal

namespace SlotState

/-- The code a slot comes to when its codes have been reported. -/
def goal (s : SlotState) : U8 := s.announcements.getLastD s.state

/-- Reporting the first code leaves the one a slot comes to. -/
theorem shapes_goal : ∀ p ∈ shapes, p.2.tail.getLastD (p.2.headD p.1) = p.2.getLastD p.1 := by
  decide

/-- A slot that has a figure to lose and is to come to another code has a code left. -/
theorem shapes_leaving : ∀ p ∈ shapes, p.1 ≠ 0 → p.1 ≠ 2 → p.2.getLastD p.1 ≠ 1 →
    1 ≤ p.2.length := by decide

/-- A slot that has none and is to come to code 1 has two codes left. -/
theorem shapes_coming : ∀ p ∈ shapes, p.1 = 0 ∨ p.1 = 2 → p.2.getLastD p.1 = 1 →
    2 ≤ p.2.length := by decide

/-- A slot with no codes left is empty, removed or present. -/
theorem shapes_rest : ∀ p ∈ shapes, p.2 = [] → p.1 ≠ 0 → p.1 ≠ 2 → p.1 = 1 := by decide

/-- At most three codes are announced. -/
theorem shapes_length : ∀ p ∈ shapes, p.2.length ≤ 3 := by decide

variable {s : SlotState} {last : U8}

/-- A sound slot that reports a code comes to the same code. -/
theorem Sound.advance_goal (h : s.Sound last) : s.advance.goal = s.goal := by
  obtain ⟨hann, hstate⟩ := advance_announcements h.count
  rw [goal, goal, hann, hstate]
  exact shapes_goal _ h.shape

/-- Reporting a code leaves one less. -/
theorem Sound.advance_length (h : s.Sound last) :
    s.advance.announcements.length = s.announcements.length - 1 := by
  rw [(advance_announcements h.count).1, List.length_tail]

end SlotState

/-- What the file of a slot says. -/
inductive SlotFile where
  /-- It does not open. -/
  | missing
  /-- It opens, and does not give 1024 bytes. -/
  | unreadable
  /-- It gives the bytes of a figure. -/
  | figure (f : Bytes 1024)

namespace SlotFile

/-- The bytes of a file that says this. -/
def content : SlotFile → Option (List U8)
  | missing => none
  | unreadable => some []
  | figure f => some (List.ofFn f)

/-- What opening and reading the file gives. -/
def Gives (file : SlotFile) (got : Option (Int × Bytes 1024)) : Prop :=
  match file with
  | missing => got = none
  | unreadable => ∃ read p, got = some (read, p) ∧ read ≠ 1024
  | figure f => got = some (1024, f)

/-- The figure and the code of a slot agree with its file; a file that cannot be read says
that they are the old ones. -/
def Sets (file : SlotFile) (old new : Bytes 1024 × U8) : Prop :=
  match file with
  | missing => new.2 ≠ 1
  | unreadable => new = old
  | figure f => new = (f, 1)

end SlotFile

/-- The files of the slots say this; where `ISFS_SetMode` fails none can be read. -/
def CardView.Shows (v : CardView) (files : Fin 2 → SlotFile) : Prop :=
  v.setMode < 0 ∧ (∀ slot, files slot = .unreadable) ∨
    0 ≤ v.setMode ∧ ∀ slot p, (files slot).Gives (v.readSlot slot p)

/-- Where a file can be read `ISFS_SetMode` has succeeded. -/
theorem CardView.Shows.setMode {v : CardView} {files : Fin 2 → SlotFile} (h : v.Shows files)
    {i : Fin 2} (hread : files i ≠ .unreadable) : 0 ≤ v.setMode := by
  rcases h with ⟨-, hnone⟩ | ⟨hmode, -⟩
  · exact absurd (hnone i) hread
  · exact hmode

namespace PortalCore

variable {c c₀ : PortalCore} {v : CardView} {files : Fin 2 → SlotFile} {i : Fin 2}

/-- The figure of a slot with the code it is to come to. -/
def heading (c : PortalCore) (i : Fin 2) : Bytes 1024 × U8 := (c.figures i, (c.slots i).goal)

/-- The slot is to come to what its file says, from what it was heading for in `c₀`. -/
def Aligned (files : Fin 2 → SlotFile) (c₀ c : PortalCore) (i : Fin 2) : Prop :=
  (files i).Sets (c₀.heading i) (c.heading i)

/-- The number of codes still to be reported of a slot. -/
def left (c : PortalCore) (i : Fin 2) : ℕ := (c.slots i).announcements.length

/-- The interrupt transfers up to the one that polls the slot. -/
def untilPoll (c : PortalCore) (i : Fin 2) : ℕ := 8 - c.pollDelay + 8 * ahead c.pollSlot i

/-- The interrupt transfers up to one that polls the slot at the end of its codes. -/
def untilRight (c : PortalCore) (i : Fin 2) : ℕ :=
  if c.left i < c.untilPoll i then c.untilPoll i else c.untilPoll i + 16

/-- Every slot is in order, and the poll counter counts to eight. -/
structure Polling (c : PortalCore) : Prop where
  delay : c.pollDelay < 8
  sound : ∀ i, ∃ last, (c.slots i).Sound last

/-- Whether a slot is aligned depends on its figure and the code it comes to. -/
theorem Aligned.congr {c' : PortalCore} (hfigures : c'.figures i = c.figures i)
    (hgoal : (c'.slots i).goal = (c.slots i).goal) (h : Aligned files c₀ c i) :
    Aligned files c₀ c' i := by
  unfold Aligned heading at *
  rwa [hfigures, hgoal]

/-- A slot whose file cannot be read is where it was to come to from the start. -/
theorem Aligned.of_unreadable (h : files i = .unreadable) : Aligned files c c i := by
  rw [Aligned, h]
  rfl

/-! ### A poll -/

/-- `poll_one_figure` leaves the cursor. -/
theorem pollOneFigure_cursor (c : PortalCore) (v : CardView) :
    (c.pollOneFigure v).pollSlot = c.pollSlot ∧ (c.pollOneFigure v).pollDelay = c.pollDelay := by
  unfold pollOneFigure
  dsimp only
  split
  · split_ifs <;> exact ⟨rfl, rfl⟩
  · split
    · exact ⟨rfl, rfl⟩
    split
    · exact ⟨rfl, rfl⟩
    split <;> exact ⟨rfl, rfl⟩

/-- The figure and the state that are set are there. -/
theorem setFigure_setSlot (c : PortalCore) (slot : Fin 2) (p : Bytes 1024) (s : SlotState) :
    ((c.setFigure slot p).setSlot slot s).figures slot = p ∧
      ((c.setFigure slot p).setSlot slot s).slots slot = s :=
  ⟨Function.update_self .., Function.update_self ..⟩

/-- The other slot is not touched. -/
theorem pollOneFigure_other (c : PortalCore) (v : CardView) (hi : i ≠ c.pollSlot) :
    (c.pollOneFigure v).figures i = c.figures i ∧ (c.pollOneFigure v).slots i = c.slots i := by
  have hset (c' : PortalCore) (p : Bytes 1024) (s : SlotState) (hf : c'.figures = c.figures)
      (hs : c'.slots = c.slots) :
      ((c'.setFigure c.pollSlot p).setSlot c.pollSlot s).figures i = c.figures i ∧
        ((c'.setFigure c.pollSlot p).setSlot c.pollSlot s).slots i = c.slots i :=
    ⟨(Function.update_of_ne hi _ _).trans (congrFun hf i),
      (Function.update_of_ne hi _ _).trans (congrFun hs i)⟩
  unfold pollOneFigure
  dsimp only
  split
  · split_ifs
    · exact hset c _ _ rfl rfl
    · exact ⟨rfl, rfl⟩
  · split
    · exact ⟨rfl, rfl⟩
    split
    · exact hset _ _ _ rfl rfl
    split
    · exact hset _ _ _ rfl rfl
    · exact ⟨rfl, rfl⟩

/-- A poll of a file that cannot be read finds nothing. -/
theorem pollOneFigure_unreadable {read : Int} {p : Bytes 1024}
    (h : v.readSlot c.pollSlot c.figureProbe = some (read, p)) (hread : read ≠ 1024) :
    c.pollOneFigure v = { c with figureProbe := p } := by
  unfold pollOneFigure
  dsimp only
  rw [h]
  exact if_pos hread

/-- A poll that finds no file.  A slot with nothing left to report is not to come to code 1,
and one that is not to come to it stays so and gets no more codes. -/
theorem poll_missing {last : U8} (hs : (c.slots c.pollSlot).Sound last)
    (hread : v.readSlot c.pollSlot c.figureProbe = none) :
    ((c.slots c.pollSlot).announcements = [] →
        ((c.pollOneFigure v).slots c.pollSlot).goal ≠ 1) ∧
      ((c.slots c.pollSlot).goal ≠ 1 → ((c.pollOneFigure v).slots c.pollSlot).goal ≠ 1 ∧
        (c.pollOneFigure v).left c.pollSlot ≤ c.left c.pollSlot) := by
  unfold pollOneFigure
  dsimp only
  rw [hread]
  dsimp only
  split
  · next hleaves =>
    unfold left
    rw [(setFigure_setSlot c c.pollSlot (.zero 1024) (c.slots c.pollSlot).queueRemoved).2]
    refine ⟨fun _ => (by decide : (2 : U8) ≠ 1),
      fun hgoal => ⟨(by decide : (2 : U8) ≠ 1), ?_⟩⟩
    exact SlotState.shapes_leaving _ hs.shape hleaves.1 hleaves.2 hgoal
  · next hstays =>
    refine ⟨fun hnil hgoal => ?_, fun hgoal => ⟨hgoal, le_rfl⟩⟩
    have hstate : (c.slots c.pollSlot).state = 1 := by
      rw [← hgoal, SlotState.goal, hnil]
      rfl
    exact hstays ⟨by rw [hstate]; decide, by rw [hstate]; decide⟩

/-- A poll that finds a figure.  A slot with nothing left to report comes to the figure and
to code 1, and one that does already stays so and gets no more codes. -/
theorem poll_figure {last : U8} (hs : (c.slots c.pollSlot).Sound last) {f : Bytes 1024}
    (hread : v.readSlot c.pollSlot c.figureProbe = some (1024, f)) :
    ((c.slots c.pollSlot).announcements = [] →
        (c.pollOneFigure v).heading c.pollSlot = (f, 1)) ∧
      (c.heading c.pollSlot = (f, 1) → (c.pollOneFigure v).heading c.pollSlot = (f, 1) ∧
        (c.pollOneFigure v).left c.pollSlot ≤ c.left c.pollSlot) := by
  unfold pollOneFigure
  dsimp only
  rw [hread]
  dsimp only
  rw [if_neg (not_not.mpr rfl)]
  unfold left heading
  split
  · next habsent =>
    obtain ⟨hfigure, hslot⟩ := setFigure_setSlot { c with figureProbe := f } c.pollSlot f
      ({ c.slots c.pollSlot with state := 3 }).queuePresent
    rw [hfigure, hslot]
    refine ⟨fun _ => rfl, fun hset => ⟨rfl, ?_⟩⟩
    exact SlotState.shapes_coming _ hs.shape habsent (congrArg Prod.snd hset)
  next hthere =>
  push Not at hthere
  split
  · next hdiffers =>
    obtain ⟨hfigure, hslot⟩ := setFigure_setSlot { c with figureProbe := f } c.pollSlot f
      (c.slots c.pollSlot).queueReplaced
    rw [hfigure, hslot]
    refine ⟨fun _ => rfl, fun hset => absurd (fun k => ?_) hdiffers⟩
    exact congrFun (congrArg Prod.fst hset) k
  · next hequal =>
    have hsame : c.figures c.pollSlot = f := funext (not_not.mp hequal)
    refine ⟨fun hnil => Prod.ext hsame ?_, fun h => ⟨h, le_rfl⟩⟩
    show (c.slots c.pollSlot).announcements.getLastD (c.slots c.pollSlot).state = 1
    rw [hnil]
    exact SlotState.shapes_rest _ hs.shape hnil hthere.1 hthere.2

/-- What a poll makes of its slot: one without codes left is set right if its file can be
read, and one that is right stays so and gets no more codes. -/
theorem poll_turn (c₀ : PortalCore) (hv : ∀ slot p, (files slot).Gives (v.readSlot slot p))
    {last : U8} (hs : (c.slots c.pollSlot).Sound last) :
    (files c.pollSlot ≠ .unreadable → (c.slots c.pollSlot).announcements = [] →
        Aligned files c₀ (c.pollOneFigure v) c.pollSlot) ∧
      (Aligned files c₀ c c.pollSlot → Aligned files c₀ (c.pollOneFigure v) c.pollSlot ∧
        (c.pollOneFigure v).left c.pollSlot ≤ c.left c.pollSlot) := by
  have hread := hv c.pollSlot c.figureProbe
  unfold Aligned
  cases hfile : files c.pollSlot with
  | missing =>
      rw [hfile] at hread
      exact ⟨fun _ => (poll_missing hs hread).1, (poll_missing hs hread).2⟩
  | unreadable =>
      rw [hfile] at hread
      obtain ⟨read, p, hgot, hshort⟩ := hread
      rw [pollOneFigure_unreadable hgot hshort]
      exact ⟨fun hno => absurd rfl hno, fun h => ⟨h, le_rfl⟩⟩
  | figure f =>
      rw [hfile] at hread
      exact ⟨fun _ => (poll_figure hs hread).1, (poll_figure hs hread).2⟩

/-- Seven of eight interrupt transfers leave the figures alone. -/
theorem pollFigures_wait (h : c.pollDelay + 1 < 8) (v : CardView) :
    c.pollFigures v = { c with pollDelay := c.pollDelay + 1 } := by
  unfold pollFigures
  exact if_pos h

/-- The eighth one polls a slot. -/
theorem pollFigures_turn (h : c.pollDelay = 7) (hv : 0 ≤ v.setMode) :
    c.pollFigures v = { ({ c with pollDelay := 0 }).pollOneFigure v with
      pollSlot := c.pollSlot + 1 } := by
  unfold pollFigures
  dsimp only
  rw [h, if_neg (by decide), if_neg (not_lt.mpr hv), (pollOneFigure_cursor _ v).1]

/-- Where `ISFS_SetMode` fails it polls none. -/
theorem pollFigures_refused (h : c.pollDelay = 7) (hv : v.setMode < 0) :
    c.pollFigures v = { c with pollDelay := 0 } := by
  unfold pollFigures
  dsimp only
  rw [h, if_neg (by decide), if_pos hv]

/-- A call of `poll_figures` keeps a slot right. -/
theorem pollFigures_keeps (hc : c.Polling) (hv : v.Shows files) (i : Fin 2)
    (h : Aligned files c₀ c i) :
    Aligned files c₀ (c.pollFigures v) i ∧ (c.pollFigures v).left i ≤ c.left i := by
  have hdelay := hc.delay
  by_cases hwait : c.pollDelay + 1 < 8
  · rw [pollFigures_wait hwait]
    exact ⟨h, le_rfl⟩
  have hseven : c.pollDelay = 7 := by omega
  rcases hv with ⟨hmode, -⟩ | ⟨hmode, hgives⟩
  · rw [pollFigures_refused hseven hmode]
    exact ⟨h, le_rfl⟩
  rw [pollFigures_turn hseven hmode]
  obtain ⟨last, hsound⟩ := hc.sound c.pollSlot
  by_cases hi : i = c.pollSlot
  · subst hi
    exact (poll_turn (c := { c with pollDelay := 0 }) c₀ hgives hsound).2 h
  · obtain ⟨hfigures, hslots⟩ := pollOneFigure_other { c with pollDelay := 0 } v hi
    refine ⟨h.congr hfigures (congrArg SlotState.goal hslots), ?_⟩
    exact le_of_eq (congrArg (fun s => (SlotState.announcements s).length) hslots)

/-- It brings a slot whose file can be read nearer to a poll at the end of its codes. -/
theorem pollFigures_nearer (c₀ : PortalCore) (hc : c.Polling) (hv : v.Shows files) {i : Fin 2}
    (hfile : files i ≠ .unreadable) :
    Aligned files c₀ (c.pollFigures v) i ∨
      1 ≤ (c.pollFigures v).untilPoll i ∧
          (c.pollFigures v).untilPoll i + 1 = c.untilPoll i ∧
          (c.pollFigures v).left i = c.left i ∨
      c.untilPoll i = 1 ∧ 1 ≤ c.left i ∧ (c.pollFigures v).untilPoll i = 16 := by
  have hdelay := hc.delay
  have hmode := hv.setMode hfile
  have hgives := (hv.resolve_left fun h => absurd h.1 (not_lt.mpr hmode)).2
  by_cases hwait : c.pollDelay + 1 < 8
  · rw [pollFigures_wait hwait]
    refine Or.inr (Or.inl ⟨?_, ?_, rfl⟩)
    · show 1 ≤ 8 - (c.pollDelay + 1) + 8 * ahead c.pollSlot i
      omega
    · show 8 - (c.pollDelay + 1) + 8 * ahead c.pollSlot i + 1 =
        8 - c.pollDelay + 8 * ahead c.pollSlot i
      omega
  have hseven : c.pollDelay = 7 := by omega
  rw [pollFigures_turn hseven hmode]
  have huntil : c.untilPoll i = 1 + 8 * ahead c.pollSlot i := by rw [untilPoll, hseven]
  obtain ⟨last, hsound⟩ := hc.sound c.pollSlot
  by_cases hi : i = c.pollSlot
  · subst hi
    have hahead : ∀ k : Fin 2, ahead k k = 0 ∧ ahead (k + 1) k = 1 := by decide
    rw [(hahead _).1] at huntil
    have hrest := (poll_turn (c := { c with pollDelay := 0 }) c₀ hgives hsound).1
    by_cases hleft : c.left c.pollSlot = 0
    · exact Or.inl (hrest hfile (List.eq_nil_of_length_eq_zero hleft))
    · refine Or.inr (Or.inr ⟨huntil, Nat.one_le_iff_ne_zero.mpr hleft, ?_⟩)
      show 8 - (({ c with pollDelay := 0 } : PortalCore).pollOneFigure v).pollDelay +
        8 * ahead (c.pollSlot + 1) c.pollSlot = 16
      rw [(pollOneFigure_cursor _ v).2, (hahead _).2]
      rfl
  · have hahead : ∀ j k : Fin 2, j ≠ k → ahead k j = 1 ∧ ahead (k + 1) j = 0 := by decide
    rw [(hahead _ _ hi).1] at huntil
    obtain ⟨-, hslots⟩ := pollOneFigure_other { c with pollDelay := 0 } v hi
    have hnext : untilPoll { ({ c with pollDelay := 0 }).pollOneFigure v with
        pollSlot := c.pollSlot + 1 } i = 8 := by
      rw [untilPoll, (hahead _ _ hi).2, (pollOneFigure_cursor _ v).2]
      rfl
    refine Or.inr (Or.inl ?_)
    rw [hnext, huntil]
    exact ⟨by decide, rfl, congrArg (fun s => (SlotState.announcements s).length) hslots⟩

/-! ### An interrupt transfer -/

/-- A message that asks for an interrupt transfer gets one. -/
theorem handle_read {d : Delivery} {addr : U32} {len : ℕ} (hresumed : c.resumed = true)
    (htransfer : d.transfer = some (.read addr len)) :
    c.handle d = ((c.interruptIn d.card len).2.1,
      .write addr (c.interruptIn d.card len).1 :: (c.interruptIn d.card len).2.2 ++
        [.ack (c.interruptIn d.card len).1.length]) := by
  have hcases := c.handle_cases d
  generalize c.handle d = out at hcases ⊢
  cases hcases with
  | still result h => exact nomatch (h hresumed).symm.trans htransfer
  | output addr bytes hfits h => exact nomatch (h hresumed).symm.trans htransfer
  | ioctlRefused io h => exact nomatch (transfer_ioctl h).symm.trans htransfer
  | ioctl io h => exact nomatch (transfer_ioctl h).symm.trans htransfer
  | reload io h => exact nomatch (transfer_ioctl h).symm.trans htransfer
  | report addr len r hresumed h => cases h.symm.trans htransfer
  | read addr len hresumed h =>
      cases h.symm.trans htransfer
      rfl

/-- `poll_figures` leaves the portal core resumed. -/
theorem pollFigures_resumed (c : PortalCore) (v : CardView) :
    (c.pollFigures v).resumed = c.resumed := by
  unfold pollFigures pollOneFigure
  dsimp only
  split
  · rfl
  split
  · rfl
  split
  · split_ifs <;> rfl
  split
  · rfl
  split
  · rfl
  split <;> rfl

/-- `load_figures` leaves the delay of the poll. -/
theorem loadFigures_delay (c : PortalCore) (v : CardView) :
    (c.loadFigures v).pollDelay = c.pollDelay := by
  have hload (c' : PortalCore) (slot : Fin 2) : (c'.loadSlot v slot).pollDelay = c'.pollDelay := by
    unfold loadSlot
    split
    · rfl
    · split_ifs <;> rfl
  unfold loadFigures
  split_ifs
  · rfl
  · exact (hload _ 1).trans (hload _ 0)

/-- A report leaves the delay of the poll. -/
theorem applyReport_delay (c : PortalCore) (data : ℕ → U8) (r : CoreReport) :
    (c.applyReport data r).1.pollDelay = c.pollDelay := by
  have hqueue (c' : PortalCore) (a : DeferredReport) :
      (c'.queueResponse a).1.pollDelay = c'.pollDelay := by
    unfold queueResponse
    split_ifs <;> rfl
  cases r with
  | activate b => exact hqueue { c with activated := b ≠ 0 } _
  | light => exact hqueue c _
  | music b => exact hqueue c _
  | query slot block => exact hqueue c _
  | ready => exact hqueue c _
  | write slot block =>
      have hwrite (data : ℕ → U8) : (c.buildWrite slot block data).1.pollDelay = c.pollDelay := by
        unfold buildWrite
        dsimp only
        split_ifs <;> rfl
      exact (hqueue _ _).trans (hwrite _)
  | silent => rfl

/-- After `poll_figures` the delay is below 8. -/
theorem pollFigures_delay (c : PortalCore) (v : CardView) : (c.pollFigures v).pollDelay < 8 := by
  unfold pollFigures
  dsimp only
  split
  · assumption
  split
  · exact (by decide : 0 < 8)
  · rw [(pollOneFigure_cursor _ v).2]
    exact (by decide : 0 < 8)

/-- An interrupt transfer with no answer waiting: the slots are polled and advance. -/
theorem interruptIn_idle (h : c.deferredCount = 0) (v : CardView) (len : ℕ) :
    (c.interruptIn v len).2 = (((c.pollFigures v).buildStatus).1,
      [.reported fun i => ((c.pollFigures v).slots i).advance.state &&& 3]) := by
  have hcount := (pollFigures_sameQueue v c).count.trans h
  unfold interruptIn
  dsimp only
  rw [show (c.pollFigures v).nextResponse = (c.pollFigures v, none) by
    unfold nextResponse; rw [if_pos hcount]]
  rfl

/-- An interrupt transfer with an answer waiting: the slots are polled, an answer goes. -/
theorem interruptIn_busy (h : c.deferredCount ≠ 0) (v : CardView) (len : ℕ) :
    (c.interruptIn v len).2.1 = ((c.pollFigures v).nextResponse).1 ∧
      (c.interruptIn v len).2.1.deferredCount = c.deferredCount - 1 := by
  have hcount := (pollFigures_sameQueue v c).count
  have hne : (c.pollFigures v).deferredCount ≠ 0 := by rwa [hcount]
  unfold interruptIn nextResponse
  dsimp only
  rw [if_neg hne]
  exact ⟨rfl, by rw [← hcount]⟩

/-- The message asks for an interrupt transfer while the files of the slots say this. -/
def Delivery.Reads (files : Fin 2 → SlotFile) (d : Delivery) : Prop :=
  (∃ addr len, d.transfer = some (.read addr len)) ∧ d.card.Shows files

/-- An interrupt transfer moves the cursor by its poll. -/
theorem interruptIn_cursor (c : PortalCore) (v : CardView) (len : ℕ) :
    (c.interruptIn v len).2.1.resumed = c.resumed ∧
      (c.interruptIn v len).2.1.pollDelay = (c.pollFigures v).pollDelay ∧
        (c.interruptIn v len).2.1.pollSlot = (c.pollFigures v).pollSlot := by
  by_cases h : c.deferredCount = 0
  · rw [interruptIn_idle h]
    exact ⟨pollFigures_resumed c v, rfl, rfl⟩
  · rw [(interruptIn_busy h v len).1]
    unfold nextResponse
    split_ifs <;> exact ⟨pollFigures_resumed c v, rfl, rfl⟩

/-- An interrupt transfer keeps the service resumed and its slots in order. -/
theorem reads_polling {d : Delivery} (hresumed : c.resumed = true) (hc : c.Polling)
    (hd : d.Reads files) : (c.handle d).1.resumed = true ∧ (c.handle d).1.Polling := by
  obtain ⟨addr, len, htransfer⟩ := hd.1
  obtain ⟨h₁, h₂, -⟩ := interruptIn_cursor c d.card len
  have hsound (i : Fin 2) : ∃ last, ((c.handle d).1.slots i).Sound last := by
    obtain ⟨last, hlast⟩ := hc.sound i
    rcases c.handle_sound i d last hlast with ⟨-, h⟩ | ⟨last', -, -, h⟩
    · exact ⟨last, h⟩
    · exact ⟨last', h⟩
  have hstate := congrArg Prod.fst (handle_read hresumed htransfer)
  refine ⟨?_, ?_, hsound⟩
  · rw [hstate]
    exact h₁.trans hresumed
  · rw [hstate]
    show (c.interruptIn d.card len).2.1.pollDelay < 8
    rw [h₂]
    exact pollFigures_delay c d.card

/-- With an answer waiting an interrupt transfer takes one. -/
theorem reads_busy {d : Delivery} (hresumed : c.resumed = true) (hd : d.Reads files)
    (h : c.deferredCount ≠ 0) : (c.handle d).1.deferredCount = c.deferredCount - 1 := by
  obtain ⟨addr, len, htransfer⟩ := hd.1
  rw [congrArg Prod.fst (handle_read hresumed htransfer)]
  exact (interruptIn_busy h d.card len).2

/-- With none waiting the slots advance after the poll. -/
theorem reads_idle {d : Delivery} (hresumed : c.resumed = true) (hd : d.Reads files)
    (h : c.deferredCount = 0) : (c.handle d).1.deferredCount = 0 ∧ ∀ i,
      (c.handle d).1.figures i = (c.pollFigures d.card).figures i ∧
        (c.handle d).1.slots i = ((c.pollFigures d.card).slots i).advance ∧
          (c.handle d).1.untilPoll i = (c.pollFigures d.card).untilPoll i := by
  obtain ⟨addr, len, htransfer⟩ := hd.1
  obtain ⟨-, h₂, h₃⟩ := interruptIn_cursor c d.card len
  have hstate := congrArg Prod.fst (handle_read hresumed htransfer)
  dsimp only at hstate
  rw [hstate]
  refine ⟨?_, fun i => ⟨?_, ?_, ?_⟩⟩
  · rw [interruptIn_idle h]
    exact (pollFigures_sameQueue d.card c).count.trans h
  · rw [interruptIn_idle h]
    rfl
  · rw [interruptIn_idle h]
    rfl
  · rw [untilPoll, h₂, h₃]
    rfl

/-- An interrupt transfer keeps a slot right. -/
theorem reads_keeps {d : Delivery} (hresumed : c.resumed = true) (hc : c.Polling)
    (hd : d.Reads files) (h : Aligned files c₀ c i) : Aligned files c₀ (c.handle d).1 i := by
  obtain ⟨addr, len, htransfer⟩ := hd.1
  obtain ⟨last, hlast⟩ := hc.sound i
  have hpolled := hlast.moves (c.pollFigures_moves d.card i)
  refine (pollFigures_keeps hc hd.2 i h).1.congr ?_ ?_
  · by_cases hcount : c.deferredCount = 0
    · exact ((reads_idle hresumed hd hcount).2 i).1
    · rw [congrArg Prod.fst (handle_read hresumed htransfer)]
      show (c.interruptIn d.card len).2.1.figures i = _
      rw [(interruptIn_busy hcount d.card len).1]
      unfold nextResponse
      split_ifs <;> rfl
  · by_cases hcount : c.deferredCount = 0
    · rw [((reads_idle hresumed hd hcount).2 i).2.1, hpolled.advance_goal]
    · rw [congrArg Prod.fst (handle_read hresumed htransfer)]
      show ((c.interruptIn d.card len).2.1.slots i).goal = _
      rw [(interruptIn_busy hcount d.card len).1, nextResponse_slots]

/-! ### Settling -/

/-- The queue empties within `m` interrupt transfers, and the slots whose files cannot be
read are as in `c₀`. -/
structure Draining (files : Fin 2 → SlotFile) (c₀ : PortalCore) (m : ℕ) (c : PortalCore) :
    Prop where
  resumed : c.resumed = true
  polling : c.Polling
  count : c.deferredCount ≤ m
  kept : ∀ i, files i = .unreadable → Aligned files c₀ c i

/-- The queue is empty, and every slot is right and has reported its codes within `n`
interrupt transfers. -/
structure Righting (files : Fin 2 → SlotFile) (c₀ : PortalCore) (n : ℕ) (c : PortalCore) :
    Prop where
  resumed : c.resumed = true
  polling : c.Polling
  count : c.deferredCount = 0
  slots : ∀ i, Aligned files c₀ c i ∧ c.left i ≤ n ∨ files i ≠ .unreadable ∧ c.untilRight i + 2 ≤ n

/-- Interrupt transfers drain the queue of answers. -/
theorem draining (files : Fin 2 → SlotFile) (c₀ : PortalCore) :
    Settling handle (fun _ d => d.Reads files) (Draining files c₀) := by
  have hstep {m n : ℕ} {c : PortalCore} {d : Delivery} (hd : d.Reads files)
      (hc : Draining files c₀ m c) (hmn : m - 1 ≤ n) : Draining files c₀ n (c.handle d).1 := by
    obtain ⟨h₁, h₂⟩ := reads_polling hc.resumed hc.polling hd
    refine ⟨h₁, h₂, ?_, fun i hi => reads_keeps hc.resumed hc.polling hd (hc.kept i hi)⟩
    have hcount := hc.count
    by_cases hzero : c.deferredCount = 0
    · rw [(reads_idle hc.resumed hd hzero).1]
      exact Nat.zero_le n
    · rw [reads_busy hc.resumed hd hzero]
      omega
  exact ⟨fun n c d hd hc => hstep hd hc (by omega), fun c d hd hc => hstep hd hc (by omega)⟩

/-- One interrupt transfer with an empty queue takes a code of each slot. -/
theorem left_idle {d : Delivery} (hc : c.Polling) (hresumed : c.resumed = true)
    (hcount : c.deferredCount = 0) (hd : d.Reads files) (i : Fin 2) :
    (c.handle d).1.left i = (c.pollFigures d.card).left i - 1 ∧
      (c.pollFigures d.card).left i ≤ 3 := by
  obtain ⟨last, hlast⟩ := hc.sound i
  have hpolled := hlast.moves (c.pollFigures_moves d.card i)
  refine ⟨?_, SlotState.shapes_length _ hpolled.shape⟩
  rw [left, ((reads_idle hresumed hd hcount).2 i).2.1, hpolled.advance_length]
  rfl

/-- It brings a slot whose file can be read nearer to a poll at the end of its codes. -/
theorem righting_slot (c₀ : PortalCore) {d : Delivery} (hc : c.Polling)
    (hresumed : c.resumed = true)
    (hcount : c.deferredCount = 0) (hd : d.Reads files) {i : Fin 2}
    (hfile : files i ≠ .unreadable) :
    Aligned files c₀ (c.handle d).1 i ∧ (c.handle d).1.left i ≤ 2 ∨
      (c.handle d).1.untilRight i + 1 = c.untilRight i := by
  obtain ⟨hfigures, hslot, huntil⟩ := (reads_idle hresumed hd hcount).2 i
  obtain ⟨hleft, hthree⟩ := left_idle hc hresumed hcount hd i
  obtain ⟨last, hlast⟩ := hc.sound i
  have hpolled := hlast.moves (c.pollFigures_moves d.card i)
  have hgoal : ((c.handle d).1.slots i).goal = ((c.pollFigures d.card).slots i).goal := by
    rw [hslot, hpolled.advance_goal]
  have hthree' : c.left i ≤ 3 := SlotState.shapes_length _ hlast.shape
  rcases pollFigures_nearer c₀ hc hd.2 hfile with hnext | ⟨hpos, hstep, hsame⟩ |
    ⟨hone, hmore, hfar⟩
  · exact Or.inl ⟨hnext.congr hfigures hgoal, by omega⟩
  · refine Or.inr ?_
    unfold untilRight
    rw [huntil, hleft, hsame]
    split_ifs <;> omega
  · refine Or.inr ?_
    unfold untilRight
    rw [huntil, hfar, hone, if_pos (by omega), if_neg (by omega)]

/-- Interrupt transfers settle the slots. -/
theorem righting (files : Fin 2 → SlotFile) (c₀ : PortalCore) :
    Settling handle (fun _ d => d.Reads files) (Righting files c₀) := by
  have hpos (c : PortalCore) (i : Fin 2) (hc : c.Polling) : 1 ≤ c.untilRight i := by
    have hdelay := hc.delay
    unfold untilRight untilPoll
    split_ifs <;> omega
  have hkeep {n : ℕ} {c : PortalCore} {d : Delivery} (hc : Righting files c₀ n c)
      (hd : d.Reads files) {i : Fin 2} (h : Aligned files c₀ c i) :
      Aligned files c₀ (c.handle d).1 i ∧ (c.handle d).1.left i ≤ c.left i - 1 := by
    have hle := (pollFigures_keeps hc.polling hd.2 i h).2
    have hless := (left_idle hc.polling hc.resumed hc.count hd i).1
    exact ⟨reads_keeps hc.resumed hc.polling hd h, by omega⟩
  constructor
  · intro n c d hd hc
    obtain ⟨h₁, h₂⟩ := reads_polling hc.resumed hc.polling hd
    refine ⟨h₁, h₂, (reads_idle hc.resumed hd hc.count).1, fun i => ?_⟩
    have hone := hpos c i hc.polling
    rcases hc.slots i with ⟨haligned, hle⟩ | ⟨hfile, hle⟩
    · obtain ⟨hnext, hless⟩ := hkeep hc hd haligned
      exact Or.inl ⟨hnext, by omega⟩
    · rcases righting_slot c₀ hc.polling hc.resumed hc.count hd hfile with
        ⟨hnext, htwo⟩ | hstep
      · exact Or.inl ⟨hnext, by omega⟩
      · exact Or.inr ⟨hfile, by omega⟩
  · intro c d hd hc
    obtain ⟨h₁, h₂⟩ := reads_polling hc.resumed hc.polling hd
    refine ⟨h₁, h₂, (reads_idle hc.resumed hd hc.count).1, fun i => ?_⟩
    rcases hc.slots i with ⟨haligned, hle⟩ | ⟨-, hle⟩
    · obtain ⟨hnext, hless⟩ := hkeep hc hd haligned
      exact Or.inl ⟨hnext, by omega⟩
    · omega

/-! ### Runs -/

/-- The loading on first use leaves the delay of the poll. -/
theorem loadFirst_delay (c : PortalCore) (v : CardView) (io : Ioctl) :
    (c.loadFirst v io).pollDelay = c.pollDelay := by
  unfold loadFirst
  split_ifs
  · exact loadFigures_delay c v
  · rfl

/-- The poll counter counts to eight in every run. -/
theorem handle_delay (c : PortalCore) (d : Delivery) (h : c.pollDelay < 8) :
    (c.handle d).1.pollDelay < 8 := by
  have hcases := c.handle_cases d
  generalize c.handle d = out at hcases ⊢
  cases hcases with
  | still => exact h
  | output => exact h
  | ioctlRefused io => exact (loadFirst_delay c d.card io).trans_lt h
  | ioctl io => exact (loadFirst_delay c d.card io).trans_lt h
  | reload io => exact (loadFigures_delay { c with figuresLoaded := false } d.card).trans_lt h
  | report addr len r => exact (applyReport_delay c _ r).trans_lt h
  | read addr len =>
      rw [(interruptIn_cursor c d.card len).2.1]
      exact pollFigures_delay c d.card

/-- Every run from the start ends with the queue and the slots in order. -/
theorem draining_final (ds : List Delivery) (h : (Run.final handle zero ds).resumed = true) :
    Draining files (Run.final handle zero ds) 24 (Run.final handle zero ds) where
  resumed := h
  polling :=
    ⟨Run.final_of_every (P := fun c => PortalCore.pollDelay c < 8)
        (fun c d _ => handle_delay c d) (Run.every_true _ ds) (by decide),
      fun i => ⟨_, slot_sound ds i⟩⟩
  count := (queued_final ds).ring.count
  kept := fun _ hi => .of_unreadable hi

/-- The slot has settled: its codes are reported, and its figure and its code are what
its file says, from what the slot was heading for in `c₀`. -/
def Settled (files : Fin 2 → SlotFile) (c₀ c : PortalCore) (i : Fin 2) : Prop :=
  (c.slots i).announcements = [] ∧
    (files i).Sets (c₀.heading i) (c.figures i, (c.slots i).state)

/-- A slot with nothing left to do has settled. -/
theorem Righting.settled (h : Righting files c₀ 0 c) (i : Fin 2) : Settled files c₀ c i := by
  have haligned : Aligned files c₀ c i ∧ c.left i ≤ 0 := by
    rcases h.slots i with h | ⟨-, h⟩
    · exact h
    · omega
  have hnil : (c.slots i).announcements = [] :=
    List.eq_nil_of_length_eq_zero (Nat.le_zero.mp haligned.2)
  have hgoal : (c.slots i).goal = (c.slots i).state := by
    rw [SlotState.goal, hnil]
    rfl
  have hsets := haligned.1
  rw [Aligned, heading.eq_1 c, hgoal] at hsets
  exact ⟨hnil, hsets⟩

/-- 45 interrupt transfers on a card that stays as it is settle every slot. -/
theorem righting_of_reads {ds : List Delivery} (hc : Draining files c₀ 24 c)
    (hreads : ∀ d ∈ ds, d.Reads files) (hlength : 45 ≤ ds.length) :
    Righting files c₀ 0 (Run.final handle c ds) := by
  refine (draining files c₀).then_settles (righting files c₀) (m := 24) (n := 21)
    (Run.every_of_mem (fun d hd _ => hreads d hd) c) hlength hc fun bs hbs hzero => ?_
  refine ⟨hzero.resumed, hzero.polling, Nat.le_zero.mp hzero.count, fun i => ?_⟩
  have hkept := hzero.kept i
  generalize Run.final handle c bs = c' at hzero hkept ⊢
  have hahead : ∀ k j : Fin 2, ahead k j ≤ 1 := by decide
  have hwait := hahead c'.pollSlot i
  obtain ⟨last, hlast⟩ := hzero.polling.sound i
  have hleft : c'.left i ≤ 3 := SlotState.shapes_length _ hlast.shape
  rcases Classical.em (files i = .unreadable) with hfile | hfile
  · exact Or.inl ⟨hkept hfile, by omega⟩
  · refine Or.inr ⟨hfile, ?_⟩
    unfold untilRight untilPoll
    split_ifs <;> omega

/-- The packet of an interrupt transfer reports settled slots as they are. -/
theorem Righting.reported (h : Righting files c₀ 0 c) {d : Delivery} (hd : d.Reads files) :
    ∃ codes, d.Tells (c.handle d).2 codes ∧
      ∀ i, (files i).Sets (c₀.heading i) ((c.handle d).1.figures i, codes i) := by
  obtain ⟨addr, len, htransfer⟩ := hd.1
  let codes : Fin 2 → U8 := fun i => ((c.pollFigures d.card).slots i).advance.state &&& 3
  have hreported : .reported codes ∈ (c.interruptIn d.card len).2.2 := by
    rw [interruptIn_idle h.count]
    exact List.mem_singleton_self _
  have hwritten : .write addr (c.interruptIn d.card len).1 ∈ (c.handle d).2 := by
    rw [handle_read h.resumed htransfer]
    exact List.mem_cons_self
  refine ⟨codes, ⟨addr, len, _, htransfer, hwritten, interruptIn_reported _ _ hreported⟩,
    fun i => ?_⟩
  have hslot := ((reads_idle h.resumed hd h.count).2 i).2.1
  have hsettled := (((righting files c₀).rests c d hd h).settled i).2
  obtain ⟨last, hlast⟩ := h.polling.sound i
  obtain ⟨-, hmask, -⟩ := (hlast.moves (c.pollFigures_moves d.card i)).advance
  have hcode : codes i = ((c.pollFigures d.card).slots i).advance.state := hmask
  rwa [hslot, ← hcode] at hsettled

/-- Once the card stays as it is, 45 interrupt transfers settle every slot, whatever has
happened before, and the packet of every later one reports the slots as they are. -/
theorem hot_swap {ds₀ ds : List Delivery} {files : Fin 2 → SlotFile}
    (hresumed : (Run.final handle zero ds₀).resumed = true) (hreads : ∀ d ∈ ds, d.Reads files)
    (hlength : 45 ≤ ds.length) :
    (∀ i, Settled files (Run.final handle zero ds₀)
        (Run.final handle (Run.final handle zero ds₀) ds) i) ∧
      ∀ d, d.Reads files → ∃ codes,
        d.Tells ((Run.final handle (Run.final handle zero ds₀) ds).handle d).2 codes ∧
          ∀ i, (files i).Sets ((Run.final handle zero ds₀).heading i)
            (((Run.final handle (Run.final handle zero ds₀) ds).handle d).1.figures i,
              codes i) := by
  have hright := righting_of_reads (draining_final ds₀ hresumed) hreads hlength
  exact ⟨hright.settled, fun d hd => hright.reported hd⟩

/-- A card whose files say this; one that cannot be read is empty. -/
def cardHolding (files : Fin 2 → SlotFile) : CardView where
  disk := fun path =>
    if path = slotPath 0 then (files 0).content
    else if path = slotPath 1 then (files 1).content
    else none
  setMode := 0
  read := fun _ => .ok

/-- A read of a file that holds a figure gives the figure. -/
theorem osRead_file (f p : Bytes 1024) : osRead .ok (List.ofFn f) p 0 1024 = (1024, f) := by
  have hlength : (List.ofFn f).length = 1024 := List.length_ofFn
  have hgot : ¬ ReadIo.ok.got < 0 := lt_irrefl 0
  have hbytes : (fun k : Fin 1024 => (List.ofFn f).getD k.val 0) = f := by
    funext k
    rw [List.getD_eq_getElem?_getD, List.getElem?_ofFn, dif_pos k.isLt]
    rfl
  unfold osRead
  rw [if_neg hgot, hlength, Nat.min_self, Bytes.copy_all, hbytes]
  rfl

/-- The card says what its files say. -/
theorem cardHolding_shows (files : Fin 2 → SlotFile) : (cardHolding files).Shows files := by
  refine Or.inr ⟨le_rfl, fun slot p => ?_⟩
  have hfile : (cardHolding files).disk (slotPath slot) = (files slot).content := by
    have hne : slotPath 1 ≠ slotPath 0 := by decide
    unfold cardHolding
    dsimp only
    match slot with
    | 0 => exact if_pos rfl
    | 1 => rw [if_neg hne, if_pos rfl]
  have hopened : ¬ ((cardHolding files).read slot).opened < 0 := lt_irrefl 0
  unfold CardView.readSlot
  rw [hfile, if_neg hopened]
  cases files slot with
  | missing => rfl
  | unreadable => exact ⟨0, p.copy 0 (fun i => [].getD i 0) 0, rfl, by decide⟩
  | figure f => exact congrArg some (osRead_file f p)

/-- Loading the figures of the card sets every slot on its way to code 1. -/
theorem loadFigures_heading {f : Bytes 1024} (hmode : 0 ≤ v.setMode)
    (hread : ∀ slot p, v.readSlot slot p = some (1024, f)) (i : Fin 2) :
    (c.loadFigures v).heading i = (f, 1) := by
  have hload (c' : PortalCore) (slot : Fin 2) :
      c'.loadSlot v slot = (c'.setFigure slot f).setSlot slot { c'.slots slot with
        state := 3, pending := ![3, 1, (c'.slots slot).pending 2], pendingCount := 2 } := by
    unfold loadSlot
    rw [hread]
    exact if_neg (not_not.mpr rfl)
  unfold loadFigures
  rw [if_neg (not_lt.mpr hmode)]
  show heading (loadSlot (loadSlot _ v 0) v 1) i = (f, 1)
  rw [hload, hload]
  match i with
  | 0 => rfl
  | 1 => rfl

/-- The id of the device at `0x1000`, with the endpoint of interrupt transfers. -/
def hostMem : Mem := fun a => if a = 0x1003 then 1 else if a = 0x100e then 0x81 else 0

/-- The host resumes the device while both slots have figures on the card. -/
def hostResume : Delivery :=
  ⟨.ioctl ⟨16, 0x1000, 0x20, 0, 0⟩, hostMem, cardHolding fun _ => .figure (.zero 1024)⟩

/-- The slot has loaded a figure of zeros and comes to be present. -/
theorem hostResume_heading (i : Fin 2) :
    (Run.final handle zero [hostResume]).heading i = (.zero 1024, 1) := by
  have hstate : Run.final handle zero [hostResume] =
      { zero.loadFigures hostResume.card with resumed := true } := by rfl
  have hheading (c : PortalCore) : heading { c with resumed := true } i = c.heading i := rfl
  have hshows : hostResume.card.Shows fun _ => .figure (.zero 1024) := cardHolding_shows _
  rw [hstate, hheading]
  exact loadFigures_heading (hshows.setMode (i := 0) nofun)
    (hshows.resolve_left fun h => absurd h.1 (lt_irrefl 0)).2 i

/-- Then the file of slot 0 holds another figure, and the one of slot 1 is cut short. -/
def swapped : Fin 2 → SlotFile := ![.figure fun _ => 1, .unreadable]

/-- The host asks for an interrupt transfer. -/
def hostRead : Delivery :=
  ⟨.ioctlv ⟨19, 1, 1, some (⟨0x1000, 16⟩, ⟨0x2000, 32⟩)⟩, hostMem, cardHolding swapped⟩

/-- The transfer finds the swapped files. -/
theorem hostRead_reads : hostRead.Reads swapped := ⟨⟨0x2000, 32, by rfl⟩, cardHolding_shows _⟩

/-- Slot 0 comes to its new figure, and slot 1, whose file is cut short while its figure is
still being announced, stays with the old one; the next packet reports both as present. -/
theorem hot_swap_after_resume :
    ∃ c, c = Run.final handle (Run.final handle zero [hostResume]) (List.replicate 45 hostRead) ∧
      ((c.figures 0, (c.slots 0).state) = (fun _ => 1, 1)) ∧
        ((c.figures 1, (c.slots 1).state) = (.zero 1024, 1)) ∧
          hostRead.Tells (c.handle hostRead).2 fun _ => 1 := by
  have hreads : ∀ d ∈ List.replicate 45 hostRead, d.Reads swapped := fun d hd => by
    rw [List.eq_of_mem_replicate hd]
    exact hostRead_reads
  have hlength : 45 ≤ (List.replicate 45 hostRead).length := by rw [List.length_replicate]
  obtain ⟨hsettled, htold⟩ := @hot_swap [hostResume] _ swapped (by rfl) hreads hlength
  obtain ⟨codes, htells, hsets⟩ := htold hostRead hostRead_reads
  have hfirst : codes 0 = 1 := congrArg Prod.snd (hsets 0)
  have hsecond : codes 1 = 1 := congrArg Prod.snd ((hsets 1).trans (hostResume_heading 1))
  have hcodes : codes = fun _ => 1 := funext (Fin.forall_fin_two.mpr ⟨hfirst, hsecond⟩)
  exact ⟨_, rfl, (hsettled 0).2, (hsettled 1).2.trans (hostResume_heading 1), hcodes ▸ htells⟩

end PortalCore
end VirtualPortal
