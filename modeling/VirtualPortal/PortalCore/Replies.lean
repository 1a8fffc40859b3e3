/-
# The answers of the portal service

`deferred`, `deferred_head`, `deferred_tail` and `deferred_count` are a ring of 24
rows.  A report of the host is acknowledged whether or not its answer finds a place,
and interrupt transfers take the answers one by one.

`answers_kept_iff`: in every run from the start the answers are taken in the order of
their reports, each once, exactly when no report that has an answer comes while 24
answers wait, and an answer that is taken is what the host gets, cut to the length of
its buffer.  `queue_response` does not tell that an answer is
dropped, so the write of a block is carried out without one; the worker of HIDv4 queues
the reply first and refuses such a write.
-/

import VirtualPortal.PortalCore.Codes
import VirtualPortal.Lib.Conservation

namespace VirtualPortal

/-- An answer that a report calls for, whether or not it is queued. -/
def CoreEffect.due : CoreEffect → Option DeferredReport
  | .queued r => some r
  | .dropped r => some r
  | _ => none

/-- An answer that an interrupt transfer takes. -/
def CoreEffect.given : CoreEffect → Option DeferredReport
  | .answered r => some r
  | _ => none

namespace PortalCore

variable (c : PortalCore) (v : CardView)

/-- The queue as a ring buffer. -/
def ring : Ring.State 24 DeferredReport := ⟨c.deferred, c.deferredHead, c.deferredCount⟩

/-- The answers that wait, oldest first. -/
def answers : List DeferredReport := c.ring.queue queueSize_pos

/-- The queue is in order: the ring is valid and the tail is behind its last row. -/
structure Queued : Prop where
  ring : c.ring.Valid
  tail : c.deferredTail = (c.deferredHead + c.deferredCount) % 24

/-- Two states with the same queue. -/
structure SameQueue (c c' : PortalCore) : Prop where
  rows : c'.deferred = c.deferred
  head : c'.deferredHead = c.deferredHead
  tail : c'.deferredTail = c.deferredTail
  count : c'.deferredCount = c.deferredCount

variable {c}

/-- The queue is as it was. -/
theorem SameQueue.refl (c : PortalCore) : SameQueue c c := ⟨rfl, rfl, rfl, rfl⟩

/-- Two steps that leave the queue are one. -/
theorem SameQueue.trans {c' c'' : PortalCore} (h : SameQueue c c') (h' : SameQueue c' c'') :
    SameQueue c c'' :=
  ⟨h'.rows.trans h.rows, h'.head.trans h.head, h'.tail.trans h.tail, h'.count.trans h.count⟩

/-- The same queue is the same ring. -/
theorem SameQueue.ring {c' : PortalCore} (h : SameQueue c c') : c'.ring = c.ring := by
  rw [PortalCore.ring, PortalCore.ring, h.rows, h.head, h.count]

/-- The same queue has the same answers. -/
theorem SameQueue.answers {c' : PortalCore} (h : SameQueue c c') : c'.answers = c.answers := by
  rw [PortalCore.answers, PortalCore.answers, h.ring]

/-- A queue that stays is in order as before. -/
theorem SameQueue.queued {c' : PortalCore} (h : SameQueue c c') (hc : c.Queued) : c'.Queued :=
  ⟨h.ring ▸ hc.ring, by rw [h.tail, h.head, h.count, hc.tail]⟩

/-- The count is the number of answers. -/
theorem length_answers : c.answers.length = c.deferredCount := Ring.length_queue queueSize_pos

/-- Queueing an answer appends it, or drops it when 24 wait. -/
theorem queueResponse_queue (hc : c.Queued) (r : DeferredReport) :
    (c.queueResponse r).1.Queued ∧
      (c.answers.length = 24 ∧ (c.queueResponse r).2 = [.dropped r] ∧
          (c.queueResponse r).1.answers = c.answers ∨
        c.answers.length < 24 ∧ (c.queueResponse r).2 = [.queued r] ∧
          (c.queueResponse r).1.answers = c.answers ++ [r]) := by
  rw [length_answers]
  unfold queueResponse
  split_ifs with hfull
  · exact ⟨hc, Or.inl ⟨hfull, rfl, rfl⟩⟩
  · have hle : c.deferredCount ≤ 24 := hc.ring.count
    have hroom : c.deferredCount < 24 := lt_of_le_of_ne hle hfull
    have hcell : Ring.index queueSize_pos c.deferredTail 0 =
        Ring.index queueSize_pos c.deferredHead c.deferredCount := by
      apply Fin.ext
      show (c.deferredTail + 0) % 24 = (c.deferredHead + c.deferredCount) % 24
      rw [Nat.add_zero, hc.tail, Nat.mod_mod]
    refine ⟨⟨⟨hc.ring.head, hroom⟩, ?_⟩, Or.inr ⟨hroom, rfl, ?_⟩⟩
    · show (c.deferredTail + 1) % 24 = (c.deferredHead + (c.deferredCount + 1)) % 24
      rw [hc.tail, Nat.mod_add_mod, Nat.add_assoc]
    · show Ring.contents _ (Function.update c.deferred _ r) _ _ = _
      rw [hcell]
      exact Ring.contents_push queueSize_pos c.deferred c.deferredHead hroom r

/-- Taking an answer drops the oldest one from the queue. -/
theorem nextResponse_queue (hc : c.Queued) :
    c.nextResponse.1.Queued ∧
      (c.answers = [] ∧ c.nextResponse = (c, none) ∨
        ∃ r, c.nextResponse.2 = some r ∧ c.answers = r :: c.nextResponse.1.answers) := by
  unfold nextResponse
  split_ifs with hempty
  · exact ⟨hc, Or.inl ⟨List.eq_nil_of_length_eq_zero (length_answers.trans hempty), rfl⟩⟩
  · obtain ⟨count, hcount⟩ := Nat.exists_eq_succ_of_ne_zero hempty
    have hle : c.deferredCount ≤ 24 := hc.ring.count
    refine ⟨⟨⟨Nat.mod_lt _ queueSize_pos, ?_⟩, ?_⟩, Or.inr ⟨_, rfl, ?_⟩⟩
    · show c.deferredCount - 1 ≤ 24
      omega
    · show c.deferredTail = ((c.deferredHead + 1) % 24 + (c.deferredCount - 1)) % 24
      rw [hc.tail, Nat.mod_add_mod]
      congr 1
      omega
    · show Ring.contents _ c.deferred c.deferredHead c.deferredCount =
        _ :: Ring.contents _ c.deferred _ (c.deferredCount - 1)
      rw [hcount]
      exact Ring.contents_pop queueSize_pos c.deferred c.deferredHead count

/-! ### The queue under the other parts of the service -/

/-- `load_slot` leaves the queue. -/
theorem loadSlot_sameQueue (c : PortalCore) (slot : Fin 2) : SameQueue c (c.loadSlot v slot) := by
  unfold loadSlot
  dsimp only
  split
  · exact .refl c
  · split_ifs <;> exact ⟨rfl, rfl, rfl, rfl⟩

/-- `load_figures` leaves the queue. -/
theorem loadFigures_sameQueue (c : PortalCore) : SameQueue c (c.loadFigures v) := by
  unfold loadFigures
  split_ifs
  · exact .refl c
  have hfold (l : List (Fin 2)) (c' : PortalCore) :
      SameQueue c' (l.foldl (fun c slot => c.loadSlot v slot) c') := by
    induction l generalizing c' with
    | nil => exact .refl c'
    | cons slot l ih => exact (loadSlot_sameQueue v c' slot).trans (ih _)
  have hall := hfold (List.finRange 2)
    { c with figures := fun _ => .zero 1024, slots := fun _ => .zero }
  exact ⟨hall.rows, hall.head, hall.tail, hall.count⟩

/-- The loading on first use leaves the queue. -/
theorem loadFirst_sameQueue (c : PortalCore) (io : Ioctl) : SameQueue c (c.loadFirst v io) := by
  unfold loadFirst
  split_ifs
  · exact loadFigures_sameQueue v c
  · exact .refl c

/-- `poll_one_figure` leaves the queue. -/
theorem pollOneFigure_sameQueue (c : PortalCore) : SameQueue c (c.pollOneFigure v) := by
  unfold pollOneFigure
  dsimp only
  split
  · split_ifs <;> exact ⟨rfl, rfl, rfl, rfl⟩
  · split
    · exact ⟨rfl, rfl, rfl, rfl⟩
    split
    · exact ⟨rfl, rfl, rfl, rfl⟩
    split <;> exact ⟨rfl, rfl, rfl, rfl⟩

/-- `poll_figures` leaves the queue. -/
theorem pollFigures_sameQueue (c : PortalCore) : SameQueue c (c.pollFigures v) := by
  unfold pollFigures
  dsimp only
  split_ifs
  · exact ⟨rfl, rfl, rfl, rfl⟩
  · exact ⟨rfl, rfl, rfl, rfl⟩
  · obtain ⟨h₁, h₂, h₃, h₄⟩ := pollOneFigure_sameQueue v { c with pollDelay := 0 }
    exact ⟨h₁, h₂, h₃, h₄⟩

/-- `build_write` leaves the queue. -/
theorem buildWrite_sameQueue (c : PortalCore) (slot block : U8) (data : ℕ → U8) :
    SameQueue c (c.buildWrite slot block data).1 := by
  unfold buildWrite
  dsimp only
  split_ifs <;> exact ⟨rfl, rfl, rfl, rfl⟩

/-- What a report does to the queue: nothing, or it queues or drops its answer. -/
theorem applyReport_queue (hc : c.Queued) (data : ℕ → U8) (r : CoreReport) :
    (c.applyReport data r).1.Queued ∧
      (r = .silent ∧ (c.applyReport data r).2 = [] ∧
          (c.applyReport data r).1.answers = c.answers ∨
        ∃ a, r ≠ .silent ∧
          (c.answers.length = 24 ∧ (c.applyReport data r).2 = [.dropped a] ∧
              (c.applyReport data r).1.answers = c.answers ∨
            c.answers.length < 24 ∧ (c.applyReport data r).2 = [.queued a] ∧
              (c.applyReport data r).1.answers = c.answers ++ [a])) := by
  have hqueue {c' : PortalCore} (hsame : SameQueue c c') (a : DeferredReport) :
      (c'.queueResponse a).1.Queued ∧
        (c.answers.length = 24 ∧ (c'.queueResponse a).2 = [.dropped a] ∧
            (c'.queueResponse a).1.answers = c.answers ∨
          c.answers.length < 24 ∧ (c'.queueResponse a).2 = [.queued a] ∧
            (c'.queueResponse a).1.answers = c.answers ++ [a]) := by
    rw [← hsame.answers]
    exact queueResponse_queue (hsame.queued hc) a
  cases r with
  | activate b =>
      obtain ⟨h₁, h₂⟩ := @hqueue { c with activated := b ≠ 0 } ⟨rfl, rfl, rfl, rfl⟩
        (shortReply [letter 'A', b, 0xff, 0x77])
      exact ⟨⟨h₁.ring, h₁.tail⟩, Or.inr ⟨_, nofun, h₂⟩⟩
  | light => exact ⟨(hqueue (.refl c) _).1, Or.inr ⟨_, nofun, (hqueue (.refl c) _).2⟩⟩
  | music b => exact ⟨(hqueue (.refl c) _).1, Or.inr ⟨_, nofun, (hqueue (.refl c) _).2⟩⟩
  | query slot block => exact ⟨(hqueue (.refl c) _).1, Or.inr ⟨_, nofun, (hqueue (.refl c) _).2⟩⟩
  | ready => exact ⟨(hqueue (.refl c) _).1, Or.inr ⟨_, nofun, (hqueue (.refl c) _).2⟩⟩
  | write slot block =>
      have hsame := buildWrite_sameQueue c slot block fun i => data (3 + i)
      exact ⟨(hqueue hsame _).1, Or.inr ⟨_, nofun, (hqueue hsame _).2⟩⟩
  | silent => exact ⟨hc, Or.inl ⟨rfl, rfl, rfl⟩⟩

/-! ### Runs -/

/-- The message is a report that has an answer, and 24 answers wait. -/
def Drops (c : PortalCore) (d : Delivery) : Prop :=
  c.resumed = true ∧ c.answers.length = 24 ∧
    ∃ addr len r, d.transfer = some (.report addr len r) ∧ r ≠ .silent

/-- An interrupt-IN transfer takes the oldest answer, or none if no answer waits. -/
theorem interruptIn_queue (hc : c.Queued) (len : ℕ) :
    (c.interruptIn v len).2.1.Queued ∧
      (c.answers = [] ∧ (c.interruptIn v len).2.2.filterMap CoreEffect.given = [] ∧
          (c.interruptIn v len).2.1.answers = [] ∨
        ∃ r, (c.interruptIn v len).2.2.filterMap CoreEffect.given = [r] ∧
          c.answers = r :: (c.interruptIn v len).2.1.answers) := by
  have hsame := pollFigures_sameQueue v c
  have hnext := nextResponse_queue (hsame.queued hc)
  rw [hsame.answers] at hnext
  unfold interruptIn
  dsimp only
  obtain ⟨hqueued, ⟨hempty, hnone⟩ | ⟨r, hsome, hcons⟩⟩ := hnext
  · rw [hnone] at hqueued ⊢
    exact ⟨⟨hqueued.ring, hqueued.tail⟩, Or.inl ⟨hempty, rfl, hsame.answers.trans hempty⟩⟩
  · rw [show (c.pollFigures v).nextResponse = ((c.pollFigures v).nextResponse.1, some r) from
      Prod.ext rfl hsome]
    exact ⟨hqueued, Or.inr ⟨r, rfl, hcons⟩⟩

/-- The host gets the answer that is taken, as far as its buffer goes. -/
theorem interruptIn_answered {len : ℕ} {r : DeferredReport}
    (h : .answered r ∈ (c.interruptIn v len).2.2) :
    (c.interruptIn v len).1 = (List.ofFn r.report).take (min r.length len) := by
  unfold interruptIn at h ⊢
  dsimp only at h ⊢
  split at h
  · cases List.mem_singleton.mp h
    rfl
  · exact nomatch List.mem_singleton.mp h

/-- An interrupt transfer asks for no answer. -/
theorem interruptIn_due (len : ℕ) :
    (c.interruptIn v len).2.2.filterMap CoreEffect.due = [] := by
  unfold interruptIn
  dsimp only
  split <;> rfl

/-- A report takes no answer. -/
theorem applyReport_given (c : PortalCore) (data : ℕ → U8) (r : CoreReport) :
    (c.applyReport data r).2.filterMap CoreEffect.given = [] := by
  rcases c.applyReport_effects data r with h | ⟨c', a, h⟩
  · rw [h]
    rfl
  · rw [h]
    unfold queueResponse
    split_ifs <;> rfl

/-- A step that leaves the queue alone keeps the answers. -/
theorem conserves_of_sameQueue {c' : PortalCore} {out : List CoreEffect} (h : SameQueue c c')
    (hdue : out.filterMap CoreEffect.due = []) (hgiven : out.filterMap CoreEffect.given = []) :
    Run.Conserves answers CoreEffect.due CoreEffect.given c out c' := by
  show c.answers ++ _ = _ ++ c'.answers
  rw [hdue, hgiven, h.answers, List.append_nil, List.nil_append]

/-- A message keeps the queue in order, and keeps the answers unless it drops one. -/
theorem handle_queue (hc : c.Queued) (d : Delivery) :
    (c.handle d).1.Queued ∧
      (¬ Drops c d →
        Run.Conserves answers CoreEffect.due CoreEffect.given c (c.handle d).2 (c.handle d).1) ∧
      (Drops c d →
        Run.Loses answers CoreEffect.due CoreEffect.given c (c.handle d).2 (c.handle d).1) := by
  have hcases := c.handle_cases d
  have hother {c' : PortalCore} {out : List CoreEffect} (hsame : SameQueue c c')
      (hdue : out.filterMap CoreEffect.due = []) (hgiven : out.filterMap CoreEffect.given = [])
      (hno : ¬ Drops c d) : c'.Queued ∧
        (¬ Drops c d → Run.Conserves answers CoreEffect.due CoreEffect.given c out c') ∧
        (Drops c d → Run.Loses answers CoreEffect.due CoreEffect.given c out c') :=
    ⟨hsame.queued hc, fun _ => conserves_of_sameQueue hsame hdue hgiven, fun h => absurd h hno⟩
  have hquiet (h : c.resumed = true → d.transfer = none) : ¬ Drops c d := by
    rintro ⟨hresumed, -, addr, len, r, htransfer, -⟩
    rw [h hresumed] at htransfer
    exact nomatch htransfer
  have hioctl {io : Ioctl} (h : d.message = .ioctl io) : ¬ Drops c d :=
    hquiet fun _ => transfer_ioctl h
  generalize c.handle d = out at hcases ⊢
  cases hcases with
  | still result h => exact hother (.refl c) rfl rfl (hquiet h)
  | output addr bytes hfits h => exact hother (.refl c) rfl rfl (hquiet h)
  | ioctlRefused io h => exact hother (loadFirst_sameQueue _ c io) rfl rfl (hioctl h)
  | ioctl io h resumed written hfits result =>
      obtain ⟨h₁, h₂, h₃, h₄⟩ := loadFirst_sameQueue d.card c io
      exact hother ⟨h₁, h₂, h₃, h₄⟩ (by cases written <;> rfl) (by cases written <;> rfl) (hioctl h)
  | reload io h hreload =>
      obtain ⟨h₁, h₂, h₃, h₄⟩ := loadFigures_sameQueue d.card { c with figuresLoaded := false }
      exact hother ⟨h₁, h₂, h₃, h₄⟩ rfl rfl (hioctl h)
  | report addr len r hresumed htransfer hfits =>
      have hgiven := c.applyReport_given (d.mem.bytesAt addr) r
      have hdrops : Drops c d ↔ c.answers.length = 24 ∧ r ≠ .silent := by
        constructor
        · rintro ⟨-, hfull, addr', len', r', htransfer', hr'⟩
          cases htransfer.symm.trans htransfer'
          exact ⟨hfull, hr'⟩
        · rintro ⟨hfull, hr⟩
          exact ⟨hresumed, hfull, addr, len, r, htransfer, hr⟩
      obtain ⟨hqueued, hqueue⟩ := applyReport_queue hc (d.mem.bytesAt addr) r
      refine ⟨hqueued, ?_⟩
      show (_ → c.answers ++ ((c.applyReport _ r).2 ++ [_]).filterMap CoreEffect.due =
          ((c.applyReport _ r).2 ++ [_]).filterMap CoreEffect.given ++ _) ∧
        (_ → (((c.applyReport _ r).2 ++ [_]).filterMap CoreEffect.given).length + _ <
          c.answers.length + (((c.applyReport _ r).2 ++ [_]).filterMap CoreEffect.due).length)
      rw [List.filterMap_append, List.filterMap_append, hgiven, hdrops]
      rcases hqueue with ⟨hr, heffects, hanswers⟩ | ⟨a, hr, ⟨hfull, heffects, hanswers⟩ |
        ⟨hroom, heffects, hanswers⟩⟩
      · rw [heffects, hanswers]
        exact ⟨fun _ => List.append_nil _, fun h => absurd hr h.2⟩
      · rw [heffects, hanswers]
        exact ⟨fun h => absurd ⟨hfull, hr⟩ h, fun _ => by
          show 0 + c.answers.length < c.answers.length + 1
          omega⟩
      · rw [heffects, hanswers]
        exact ⟨fun _ => rfl, fun h => absurd h.1 (Nat.ne_of_lt hroom)⟩
  | read addr len hresumed htransfer hfits =>
      have hno : ¬ Drops c d := by
        rintro ⟨-, -, addr', len', r', htransfer', -⟩
        cases htransfer.symm.trans htransfer'
      obtain ⟨hqueued, hqueue⟩ := interruptIn_queue d.card hc len
      refine ⟨hqueued, fun _ => ?_, fun h => absurd h hno⟩
      show c.answers ++ ((c.interruptIn d.card len).2.2 ++ [_]).filterMap CoreEffect.due =
        ((c.interruptIn d.card len).2.2 ++ [_]).filterMap CoreEffect.given ++ _
      rw [List.filterMap_append, List.filterMap_append, interruptIn_due]
      rcases hqueue with ⟨hempty, hgiven, hanswers⟩ | ⟨r, hgiven, hcons⟩
      · rw [hgiven, hempty, hanswers]
        rfl
      · rw [hgiven, hcons]
        exact List.append_nil _

/-- The empty queue is in order. -/
theorem Queued.zero : PortalCore.zero.Queued := ⟨⟨by decide, by decide⟩, rfl⟩

/-- The queue is in order in every run from the start. -/
theorem queued_final (ds : List Delivery) : (Run.final handle zero ds).Queued :=
  Run.final_of_every (P := Queued) (fun _ d _ hc => (handle_queue hc d).1) (Run.every_true _ ds)
    .zero

/-- The host asks for an interrupt transfer and gets the answer, as far as its buffer
goes. -/
def Delivery.Gets (d : Delivery) (out : List CoreEffect) (r : DeferredReport) : Prop :=
  ∃ addr len, d.transfer = some (.read addr len) ∧
    .write addr ((List.ofFn r.report).take (min r.length len)) ∈ out

/-- In every run the answers are taken in the order of their reports, each once, exactly
when no report that has an answer comes while 24 answers wait; and an answer that is
taken is what the host gets. -/
theorem answers_kept_iff (ds₀ ds : List Delivery) :
    (Run.Conserves answers CoreEffect.due CoreEffect.given (Run.final handle zero ds₀)
          (Run.outputs handle (Run.final handle zero ds₀) ds)
          (Run.final handle (Run.final handle zero ds₀) ds) ↔
        Run.Every handle (fun c d => ¬ Drops c d) (Run.final handle zero ds₀) ds) ∧
      ∀ d r, .answered r ∈ ((Run.final handle zero ds₀).handle d).2 →
        d.Gets ((Run.final handle zero ds₀).handle d).2 r := by
  constructor
  · exact Run.conserves_iff (fun _ d _ hc => (handle_queue hc d).1)
      (fun _ d _ hc => (handle_queue hc d).2.1) (fun _ d _ hc => (handle_queue hc d).2.2)
      (Run.every_true _ ds) (queued_final ds₀)
  · intro d r hr
    obtain ⟨addr, len, htransfer, hanswered, hwrite⟩ :=
      handle_ofRead _ (show OfRead (.answered r) from trivial) hr
    exact ⟨addr, len, htransfer, interruptIn_answered _ hanswered ▸ hwrite⟩

end PortalCore
end VirtualPortal
