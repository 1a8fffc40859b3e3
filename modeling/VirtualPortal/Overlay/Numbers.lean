/-
# The numbers of the requests

Each call of `request` takes the next sequence number.  IOS executes the request
in the line if its number is not the one executed last, and the overlay ends
`pending` when the reply has the number it has given out last.  `Numbered` is
what holds of the numbers at every step: the last number in the reply has been
executed, and while `request` stores its words the line still has an old number
until the new one is stored.

This rests on the next number being new to IOS and to the copied reply.  It is,
unless the menu is reopened while a request is pending and the numbers have gone
all the way round since (`Wraps`).
-/

import VirtualPortal.Overlay.Mailbox

namespace VirtualPortal

/-- The next number is another one. -/
theorem nextSeq_ne (seq : U32) : nextSeq seq ≠ seq := by
  unfold nextSeq
  split_ifs with h
  · intro hseq
    rw [← hseq] at h
    exact absurd h (by decide)
  · bv_omega

/-- The words `request` stores. -/
def requestWords (op arg seq : U32) : List (Fin 8 × U32) :=
  [(2, op), (3, arg), (4, 0x534b595a), (1, seq), (0, 0x4531324d)]

/-- The first three words leave the number in the line. -/
theorem requestWords_ne {op arg seq : U32} {k : ℕ} {w : Fin 8 × U32} (hk : k < 3)
    (hw : (requestWords op arg seq)[k]? = some w) : 1 ≠ w.1 := by
  obtain rfl | rfl | rfl : k = 0 ∨ k = 1 ∨ k = 2 := by omega
  · obtain rfl := Option.some.inj hw
    exact (by decide : (1 : Fin 8) ≠ 2)
  · obtain rfl := Option.some.inj hw
    exact (by decide : (1 : Fin 8) ≠ 3)
  · obtain rfl := Option.some.inj hw
    exact (by decide : (1 : Fin 8) ≠ 4)

/-- The words stored for a request. -/
theorem requestStores_eq (s : MenuState) (op : U32) :
    s.requestStores op = requestWords op (s.requestArg op) s.seq := rfl

/-- The overlay is not in `request`. -/
def UpdatePoint.Idle : UpdatePoint → Prop
  | .stores _ => False
  | _ => True

instance : (point : UpdatePoint) → Decidable point.Idle
  | .stores _ => inferInstanceAs (Decidable False)
  | .heartbeat | .reply | .input => inferInstanceAs (Decidable True)

namespace Overlay

variable (o : Overlay)

/-- The check of the reply changes the pending flag and the frame counter only. -/
theorem checked_eq : ∃ frames pending,
    o.checked = { o.state with frames := frames, pending := pending } := by
  unfold checked MenuState.checkReply
  split_ifs <;> exact ⟨_, _, rfl⟩

/-- Looking at the reply does not change who opens the menu. -/
theorem opens_checked (keys : Fin 2 → U32) :
    Opens o.checked o.players keys ↔ Opens o.state o.players keys := by
  obtain ⟨frames, pending, hchecked⟩ := o.checked_eq
  rw [hchecked]
  exact Iff.rfl

/-- A request is pending until its number is answered. -/
theorem checked_pending :
    o.checked.pending = false ↔ o.state.pending = false ∨ o.answered = o.state.seq := by
  unfold checked MenuState.checkReply
  by_cases hpending : o.state.pending = true
  · rw [if_pos hpending]
    by_cases hanswered : o.answered = o.state.seq
    · rw [if_pos hanswered]
      exact ⟨fun _ => .inr hanswered, fun _ => rfl⟩
    · rw [if_neg hanswered]
      exact ⟨.inl, fun h => h.resolve_right hanswered⟩
  · rw [if_neg hpending]
    exact ⟨.inl, fun _ => eq_false_of_ne_true hpending⟩

variable (keys : Fin 2 → U32)

/-- The input leaves the request and its page. -/
theorem input_keeps : o.checked.Keeps (o.input keys).2.1 := menuInputPlayers_keeps o.menuCount

/-- The input leaves the number. -/
theorem input_seq : (o.input keys).2.1.seq = o.state.seq := by
  obtain ⟨frames, pending, hchecked⟩ := o.checked_eq
  rw [(o.input_keeps keys).seq, hchecked]

/-- A frame that asks for nothing ends `update_menu`. -/
theorem updateInput_of_eq (h : (o.input keys).1 = 0) :
    o.updateInput keys =
      ({ o with state := (o.input keys).2.1, players := (o.input keys).2.2, point := .heartbeat },
        if o.Clears then [.cleared] else []) := by
  unfold updateInput
  dsimp only
  rw [if_neg (not_not_intro h)]

/-- Any other frame calls `request`. -/
theorem updateInput_of_ne (h : (o.input keys).1 ≠ 0) :
    o.updateInput keys =
      ({ o with
        state := (o.input keys).2.1.requested
        players := (o.input keys).2.2
        point := .stores (requestWords (o.input keys).1
          ((o.input keys).2.1.requested.requestArg (o.input keys).1) (nextSeq o.state.seq)) },
        (if o.Clears then [.cleared] else []) ++
          [.issued (o.input keys).1
            ((o.input keys).2.1.requested.requestArg (o.input keys).1)]) := by
  unfold updateInput
  dsimp only
  rw [if_pos h, requestStores_eq, MenuState.requested, o.input_seq keys]

end Overlay

namespace Mailbox

/-- The overlay has stored `k` words of a request. -/
structure Storing (c : Mailbox) (op arg : U32) (k : ℕ) : Prop where
  point : c.overlay.point = .stores ((requestWords op arg c.overlay.state.seq).drop k)
  le : k ≤ 5
  stored : ∀ w ∈ (requestWords op arg c.overlay.state.seq).take k, c.line w.1 = w.2

/-- A controller opens the menu or claims it while a request is pending and not
answered. -/
def Reopens (c : Mailbox) : MailboxStep → Prop
  | .overlay _ keys =>
      c.overlay.point = .input ∧ c.overlay.state.pending = true ∧
        c.overlay.answered ≠ c.overlay.state.seq ∧ Opens c.overlay.state c.overlay.players keys
  | .ios _ => False

instance (c : Mailbox) : (a : MailboxStep) → Decidable (c.Reopens a)
  | .overlay _ _ => inferInstanceAs (Decidable (_ ∧ _ ∧ _ ∧ _))
  | .ios _ => inferInstanceAs (Decidable False)

/-- The menu is reopened, and the next number is the one IOS or the copied reply
has. -/
def Wraps (c : Mailbox) (a : MailboxStep) : Prop :=
  c.Reopens a ∧ (nextSeq c.overlay.state.seq = c.ios.requestSeq ∨
    nextSeq c.overlay.state.seq = c.overlay.answered)

section Storing

variable {c : Mailbox} {op arg : U32} {k : ℕ}

/-- Once the number is stored, the line has it. -/
theorem Storing.line (h : c.Storing op arg k) (hk : 3 < k) :
    c.line 1 = c.overlay.state.seq := by
  refine h.stored (1, c.overlay.state.seq) ?_
  have hle := h.le
  obtain rfl | rfl : k = 4 ∨ k = 5 := by omega
  · simp [requestWords]
  · simp [requestWords]

/-- The state after word `k` is stored. -/
def storeWord (c : Mailbox) (w : Fin 8 × U32) (words : List (Fin 8 × U32)) : Mailbox :=
  { c with
    overlay := { c.overlay with point := .stores words }
    line := Function.update c.line w.1 w.2 }

/-- The next word of a request is stored. -/
theorem Storing.store (h : c.Storing op arg k) (hk : k < 5) (fresh : Bool) (keys : Fin 2 → U32) :
    ∃ w, (requestWords op arg c.overlay.state.seq)[k]? = some w ∧
      c.step (.overlay fresh keys) =
        (c.storeWord w ((requestWords op arg c.overlay.state.seq).drop (k + 1)), []) ∧
      (c.storeWord w ((requestWords op arg c.overlay.state.seq).drop (k + 1))).Storing op arg
        (k + 1) := by
  have hlength : (requestWords op arg c.overlay.state.seq).length = 5 := rfl
  have hget : (requestWords op arg c.overlay.state.seq)[k]? =
      some (requestWords op arg c.overlay.state.seq)[k] := List.getElem?_eq_getElem (by omega)
  refine ⟨_, hget, ?_, rfl, by omega, ?_⟩
  · have hpoint := h.point
    rw [List.drop_eq_getElem_cons (by omega)] at hpoint
    show c.updateMenu fresh keys = _
    unfold updateMenu
    rw [hpoint]
    rfl
  · -- each word goes to a place of its own
    have hnodup : (requestWords op arg c.overlay.state.seq).Pairwise fun w w' => w.1 ≠ w'.1 := by
      simp [requestWords]
    intro w hw
    change w ∈ (requestWords op arg c.overlay.state.seq).take (k + 1) at hw
    rw [List.take_succ_eq_append_getElem (by omega)] at hw
    rcases List.mem_append.mp hw with hw | hw
    · obtain ⟨i, hi, rfl⟩ := List.mem_take_iff_getElem.mp hw
      refine (Function.update_of_ne ?_ _ _).trans (h.stored _ hw)
      exact List.pairwise_iff_getElem.mp hnodup i k (by omega) (by omega) (by omega)
    · rw [List.mem_singleton.mp hw]
      exact Function.update_self ..

end Storing

/-! ### Events of IOS -/

section Events

variable (c : Mailbox) (e : HidEvent)

/-- An event of the HID worker executes the request in the line, or none. -/
theorem hidEvent_cases :
    (c.ios.ServesTick c.line ∧ c.ios.Served c.line (c.ios.hidStep (reading c.line e))) ∨
      c.ios.Unserved (c.ios.hidStep (reading c.line e)) := by
  by_cases hserves : c.ios.ServesTick c.line
  · cases e with
    | tick line send => exact .inl ⟨hserves, Machine.hidStep_served hserves⟩
    | process mem msg => exact .inr (Machine.hidStep_unserved fun _ _ h => nomatch h)
    | complete => exact .inr (Machine.hidStep_unserved fun _ _ h => nomatch h)
    | outside st route => exact .inr (Machine.hidStep_unserved fun _ _ h => nomatch h)
  · refine .inr (Machine.hidStep_unserved fun line send h => ?_)
    cases e <;> cases h
    exact hserves

/-- What the mailbox shows is what IOS has. -/
def Shows : Prop :=
  be32 c.published.byte 0 = c.ios.requestSeq ∧ be32 c.published.byte 12 = c.ios.page

variable {c}

/-- An event of the plugin keeps what the mailbox shows. -/
theorem Shows.hidEvent (h : c.Shows) : (c.hidEvent e).1.Shows := by
  show be32 ((publishedIn (c.ios.hidStep (reading c.line e)).2).getLastD c.published).byte 0 =
      (c.ios.hidStep (reading c.line e)).1.requestSeq ∧
    be32 ((publishedIn (c.ios.hidStep (reading c.line e)).2).getLastD c.published).byte 12 =
      (c.ios.hidStep (reading c.line e)).1.page
  rcases List.eq_nil_or_concat (publishedIn (c.ios.hidStep (reading c.line e)).2) with
    hnone | ⟨before, reply, hlast⟩
  · rcases c.hidEvent_cases e with ⟨-, hserved⟩ | hunserved
    · exact absurd hnone hserved.published
    · rw [hnone, hunserved.seq, hunserved.page]
      exact h
  · obtain ⟨m₀, hreports, hsame, -⟩ := Machine.hidStep_published c.ios (reading c.line e) reply
      (by rw [hlast]; simp)
    rw [hlast, List.concat_eq_append, List.getLastD_concat, hreports.seq, hreports.page]
    exact ⟨hsame.seq, hsame.page⟩

end Events

/-! ### The invariant -/

/-- Where the number of the last request is: in the line, or still to be stored. -/
inductive Numbering (c : Mailbox) : Prop
  | idle (hidle : c.overlay.point.Idle) (hline : c.line 1 = c.overlay.state.seq)
  | unsent (op arg : U32) (k : ℕ) (hk : k ≤ 3) (hstoring : c.Storing op arg k)
      (hline : c.line 1 ≠ c.overlay.state.seq) (hios : c.ios.requestSeq ≠ c.overlay.state.seq)
  | sent (op arg : U32) (k : ℕ) (hk : 3 < k) (hstoring : c.Storing op arg k)

/-- What holds of the numbers. -/
structure Numbered (c : Mailbox) : Prop where
  previous : c.overlay.state.previous = c.overlay.players.previous c.overlay.players.owner
  shows : c.Shows
  answered : c.overlay.answered = c.overlay.state.seq → c.ios.requestSeq = c.overlay.state.seq
  settled : c.overlay.point.Idle → c.overlay.state.pending = false →
    c.overlay.answered = c.overlay.state.seq
  numbering : c.Numbering

section Steps

variable {c : Mailbox}

/-- While the overlay waits for its keys, the reply of a request that is no longer
pending has been copied. -/
theorem Numbered.answered_of_checked (h : c.Numbered) (hpoint : c.overlay.point = .input)
    (hpending : c.overlay.checked.pending = false) : c.overlay.answered = c.overlay.state.seq :=
  (c.overlay.checked_pending.mp hpending).elim
    (h.settled (by rw [hpoint]; trivial)) id

/-- A call of `request` while a request is pending is a menu that is reopened. -/
theorem Numbered.reopens (h : c.Numbered) (fresh : Bool) {keys : Fin 2 → U32}
    (hpoint : c.overlay.point = .input) (haction : (c.overlay.input keys).1 ≠ 0)
    (hpending : c.overlay.checked.pending = true) : c.Reopens (.overlay fresh keys) := by
  obtain ⟨frames, pending, hchecked⟩ := c.overlay.checked_eq
  have hprevious : c.overlay.checked.previous =
      c.overlay.players.previous c.overlay.players.owner := by
    rw [hchecked]
    exact h.previous
  have hopens := (menuInputPlayers_pending c.overlay.menuCount hprevious hpending).mp haction
  have hunanswered := mt c.overlay.checked_pending.mpr (ne_of_eq_of_ne hpending (by decide))
  push Not at hunanswered
  exact ⟨hpoint, eq_true_of_ne_false hunanswered.1, hunanswered.2,
    (c.overlay.opens_checked keys).mp hopens⟩

/-- The next number is new. -/
theorem Numbered.next_ne (h : c.Numbered) {fresh : Bool} {keys : Fin 2 → U32}
    (hw : ¬ c.Wraps (.overlay fresh keys)) (hpoint : c.overlay.point = .input)
    (haction : (c.overlay.input keys).1 ≠ 0) :
    nextSeq c.overlay.state.seq ≠ c.ios.requestSeq ∧
      nextSeq c.overlay.state.seq ≠ c.overlay.answered := by
  by_cases hpending : c.overlay.checked.pending = true
  · have hreopens := h.reopens fresh hpoint haction hpending
    exact ⟨fun hseq => hw ⟨hreopens, .inl hseq⟩, fun hseq => hw ⟨hreopens, .inr hseq⟩⟩
  · have hanswered := h.answered_of_checked hpoint (eq_false_of_ne_true hpending)
    rw [h.answered hanswered, hanswered]
    exact ⟨nextSeq_ne _, nextSeq_ne _⟩

/-- The line has the number of the last request while the overlay is not in
`request`. -/
theorem Numbering.line_of_idle (h : c.Numbering) (hidle : c.overlay.point.Idle) :
    c.line 1 = c.overlay.state.seq := by
  cases h with
  | idle _ hline => exact hline
  | unsent op arg k _ hstoring => rw [hstoring.point] at hidle; exact absurd hidle id
  | sent op arg k _ hstoring => rw [hstoring.point] at hidle; exact absurd hidle id

/-- At the start no number is in use. -/
theorem Numbered.start (io : StartIo) : (Mailbox.start io).Numbered := by
  have hios := start_request io
  have hzero : be32 (Bytes.zero 416).byte 0 = 0 ∧ be32 (Bytes.zero 416).byte 12 = 0 := by decide
  exact ⟨rfl, ⟨hzero.1.trans hios.1.symm, hzero.2.trans hios.2.symm⟩, fun _ => hios.1,
    fun _ _ => hzero.1, .idle trivial rfl⟩

/-- An event of the plugin keeps the numbers in order. -/
theorem Numbered.hidEvent (h : c.Numbered) (e : HidEvent) : (c.hidEvent e).1.Numbered := by
  have hseq : (c.hidEvent e).1.ios.requestSeq = c.ios.requestSeq ∨
      (c.hidEvent e).1.ios.requestSeq = c.line 1 := by
    rcases c.hidEvent_cases e with ⟨-, hserved⟩ | hunserved
    · exact .inr hserved.seq
    · exact .inl hunserved.seq
  refine ⟨h.previous, h.shows.hidEvent e, fun hanswered => ?_, h.settled, ?_⟩
  · rcases hseq with hseq | hseq
    · exact hseq.trans (h.answered hanswered)
    · rw [hseq]
      cases h.numbering with
      | idle _ hline => exact hline
      | unsent op arg k _ _ _ hios => exact absurd (h.answered hanswered) hios
      | sent op arg k hk hstoring => exact hstoring.line hk
  · cases h.numbering with
    | idle hidle hline => exact .idle hidle hline
    | unsent op arg k hk hstoring hline hios =>
        refine .unsent op arg k hk ⟨hstoring.point, hstoring.le, hstoring.stored⟩ hline ?_
        rcases hseq with hseq | hseq
        · rw [hseq]
          exact hios
        · rw [hseq]
          exact hline
    | sent op arg k hk hstoring =>
        exact .sent op arg k hk ⟨hstoring.point, hstoring.le, hstoring.stored⟩

/-- A frame keeps the numbers, if the next one is new. -/
theorem Numbered.input (h : c.Numbered) {fresh : Bool} {keys : Fin 2 → U32}
    (hw : ¬ c.Wraps (.overlay fresh keys)) (hpoint : c.overlay.point = .input) :
    ({ c with overlay := (c.overlay.updateInput keys).1 } : Mailbox).Numbered := by
  have hline := h.numbering.line_of_idle (by rw [hpoint]; trivial)
  have hprevious : (c.overlay.input keys).2.1.previous =
      (c.overlay.input keys).2.2.previous (c.overlay.input keys).2.2.owner :=
    menuInputPlayers_previous _
  by_cases haction : (c.overlay.input keys).1 = 0
  · rw [c.overlay.updateInput_of_eq keys haction]
    have hseq := c.overlay.input_seq keys
    refine ⟨hprevious, h.shows, fun hanswered => ?_, fun _ hpending => ?_, .idle trivial ?_⟩
    · exact (h.answered (hanswered.trans hseq)).trans hseq.symm
    · refine (h.answered_of_checked hpoint ?_).trans hseq.symm
      exact (c.overlay.input_keeps keys).pending.symm.trans hpending
    · exact hline.trans hseq.symm
  · rw [c.overlay.updateInput_of_ne keys haction]
    have hseq : (c.overlay.input keys).2.1.requested.seq = nextSeq c.overlay.state.seq :=
      congrArg nextSeq (c.overlay.input_seq keys)
    obtain ⟨hios, hanswered⟩ := h.next_ne hw hpoint haction
    refine ⟨hprevious, h.shows, fun h => ?_, fun hidle => absurd hidle id,
      .unsent (c.overlay.input keys).1
        ((c.overlay.input keys).2.1.requested.requestArg (c.overlay.input keys).1) 0 (by omega)
        ⟨?_, by omega, fun w hw => absurd hw List.not_mem_nil⟩ ?_ ?_⟩
    · exact absurd (h.trans hseq).symm hanswered
    · show UpdatePoint.stores _ = .stores _
      rw [hseq]
      rfl
    · rw [hline]
      exact fun h => nextSeq_ne _ (h.trans hseq).symm
    · exact fun h => hios (h.trans hseq).symm

/-- The overlay but for `pending`, the frame counter and its place in `update_menu`. -/
structure SameRequest (o o' : Overlay) : Prop where
  seq : o'.state.seq = o.state.seq
  page : o'.state.page = o.state.page
  selected : o'.state.selected = o.state.selected
  reply : o'.reply = o.reply

/-- Once the number is stored, `request` stores the last word and sets `pending`. -/
theorem Numbered.stores (h : c.Numbered) (hstores : ¬ c.overlay.point.Idle)
    (hseq : c.line 1 = c.overlay.state.seq) (fresh : Bool) (keys : Fin 2 → U32) :
    ∃ o line, c.step (.overlay fresh keys) = ({ c with overlay := o, line := line }, []) ∧
      SameRequest c.overlay o ∧ (∀ i ≠ 0, line i = c.line i) ∧
      (o.point.Idle → line 0 = 0x4531324d) := by
  cases h.numbering with
  | idle hidle => exact absurd hidle hstores
  | unsent _ _ _ _ _ hline => exact absurd hseq hline
  | sent op arg k hk hstoring =>
      rcases Nat.lt_or_ge k 5 with hlt | hge
      · obtain rfl : k = 4 := by omega
        obtain ⟨w, hword, hstep, -⟩ := hstoring.store hlt fresh keys
        obtain rfl := Option.some.inj hword
        exact ⟨_, _, hstep, ⟨rfl, rfl, rfl, rfl⟩, fun i hi => Function.update_of_ne hi _ _,
          fun hidle => absurd hidle id⟩
      · have hle := hstoring.le
        obtain rfl : k = 5 := by omega
        have hpoint : c.overlay.point = .stores [] := hstoring.point
        refine ⟨{ c.overlay with state := c.overlay.state.sent, point := .heartbeat }, c.line, ?_,
          ⟨rfl, rfl, rfl, rfl⟩, fun _ _ => rfl,
          fun _ => hstoring.stored (0, 0x4531324d) (by simp [requestWords])⟩
        show c.updateMenu fresh keys = _
        unfold updateMenu
        rw [hpoint]

/-- Every step keeps the numbers. -/
theorem Numbered.step (h : c.Numbered) {a : MailboxStep} (hw : ¬ c.Wraps a) :
    (c.step a).1.Numbered := by
  cases a with
  | ios e => exact h.hidEvent e
  | overlay fresh keys =>
      cases h.numbering with
      | idle hidle hline =>
          show (c.updateMenu fresh keys).1.Numbered
          unfold updateMenu
          split
          · next hpoint =>
              refine ⟨h.previous, h.shows, h.answered, fun _ => h.settled hidle, .idle trivial ?_⟩
              exact (Function.update_of_ne (by decide : (1 : Fin 8) ≠ 5) (c.line 5 + 1)
                c.line).trans hline
          · next hpoint =>
              have hsettled := h.settled hidle
              cases fresh with
              | false => exact ⟨h.previous, h.shows, h.answered, fun _ => hsettled,
                  .idle trivial hline⟩
              | true =>
                  -- the reply that is copied has the number of the request IOS has executed last
                  refine ⟨h.previous, h.shows, fun hanswered => ?_, fun _ hpending => ?_,
                    .idle trivial hline⟩
                  · exact h.shows.1.symm.trans hanswered
                  · exact h.shows.1.trans (h.answered (hsettled hpending))
          · next hpoint => exact h.input hw hpoint
          · next hpoint => rw [hpoint] at hidle; exact absurd hidle id
          · next hpoint => rw [hpoint] at hidle; exact absurd hidle id
      | unsent op arg k hk hstoring hline hios =>
          obtain ⟨w, hword, hstep, hstored⟩ := hstoring.store (by omega) fresh keys
          rw [hstep]
          refine ⟨h.previous, h.shows, h.answered, fun hidle => absurd hidle id, ?_⟩
          rcases Nat.lt_or_ge k 3 with hlt | hge
          · refine .unsent op arg (k + 1) hlt hstored ?_ hios
            have hkeep : Function.update c.line w.1 w.2 1 = c.line 1 :=
              Function.update_of_ne (requestWords_ne hlt hword) _ _
            exact fun hseq => hline (hkeep.symm.trans hseq)
          · exact .sent op arg (k + 1) (by omega) hstored
      | sent op arg k hk hstoring =>
          rcases Nat.lt_or_ge k 5 with hlt | hge
          · obtain ⟨w, -, hstep, hstored⟩ := hstoring.store hlt fresh keys
            rw [hstep]
            exact ⟨h.previous, h.shows, h.answered, fun hidle => absurd hidle id,
              .sent op arg (k + 1) (by omega) hstored⟩
          · have hle := hstoring.le
            obtain rfl : k = 5 := by omega
            have hpoint : c.overlay.point = .stores [] := hstoring.point
            show (c.updateMenu fresh keys).1.Numbered
            unfold updateMenu
            rw [hpoint]
            exact ⟨h.previous, h.shows, h.answered,
              fun _ hpending => absurd hpending (by decide : ¬ (true = false)),
              .idle trivial (hstoring.line hk)⟩

end Steps

end Mailbox
end VirtualPortal
