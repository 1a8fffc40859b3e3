/-
# The labels the menu draws

The page is kept three times: by the overlay, by IOS, and in the reply whose
labels are drawn.  Only request 1 tells IOS the page, but `request` sets the
page of the overlay for each request.  They agree whenever nothing is pending,
in every run in which no load is asked for by a frame that also moves the cursor
to another page (`Strays`): such a frame draws the labels of the old page in the
rows of the new one (`strayLoad_mismatch`).
-/

import VirtualPortal.Overlay.Numbers

namespace VirtualPortal
namespace Mailbox

/-- `A` goes down in a frame whose other keys take the cursor to another page. -/
def Strays (c : Mailbox) : MailboxStep → Prop
  | .overlay _ keys =>
      let edge := keys c.overlay.players.owner &&& ~~~c.overlay.state.previous
      c.overlay.point = .input ∧ ¬ Opens c.overlay.state c.overlay.players keys ∧
        c.overlay.checked.Browses (keys c.overlay.players.owner) ∧ c.overlay.menuCount ≠ 0 ∧
        edge &&& menuA ≠ 0 ∧
        pageOf (menuMove c.overlay.state.selected edge c.overlay.menuCount) ≠ c.overlay.state.page
  | .ios _ => False

/-- The page of IOS and the request that stands in the line. -/
inductive Due (c : Mailbox) : Prop
  | unsent (op arg : U32) (k : ℕ) (hk : k ≤ 3) (hstoring : c.Storing op arg k)
      (hline : c.line 1 ≠ c.overlay.state.seq)
      (hpage : op = 1 ∧ arg = c.overlay.state.page ∨
        op ≠ 1 ∧ c.ios.page = c.overlay.state.page ∧ c.ios.requestSeq = c.line 1)
  | sent (hline : c.line 1 = c.overlay.state.seq)
      (hpage : c.ios.requestSeq ≠ c.overlay.state.seq →
        c.line 2 = 1 ∧ c.line 3 = c.overlay.state.page ∨
          c.line 2 ≠ 1 ∧ c.ios.page = c.overlay.state.page)

/-- What holds of the pages. -/
structure Paged (c : Mailbox) : Prop where
  numbered : c.Numbered
  cursor : c.overlay.state.page = pageOf c.overlay.state.selected
  bound : c.overlay.state.selected < e11Max
  ios : c.ios.requestSeq = c.overlay.state.seq → c.ios.page = c.overlay.state.page
  reply : c.overlay.answered = c.overlay.state.seq →
    be32 c.overlay.reply.byte 12 = c.overlay.state.page
  due : c.Due

section Steps

variable {c : Mailbox}

/-- The page of an entry is its number rounded down to a multiple of 8. -/
theorem toNat_pageOf (selected : U32) : (pageOf selected).toNat = selected.toNat / 8 * 8 := by
  have hlt := selected.isLt
  unfold pageOf
  rw [BitVec.toNat_mul, BitVec.toNat_udiv, show (8 : U32).toNat = 8 from rfl]
  omega

/-- The first entry of a page is on it. -/
theorem pageOf_pageOf (selected : U32) : pageOf (pageOf selected) = pageOf selected := by
  apply BitVec.eq_of_toNat_eq
  rw [toNat_pageOf, toNat_pageOf]
  omega

/-- The page of an entry of the catalogue is below the limit. -/
theorem pageOf_lt {selected : U32} (h : selected < e11Max) : pageOf selected < e11Max := by
  rw [BitVec.lt_def, toNat_pageOf]
  have := BitVec.lt_def.mp h
  omega

/-- IOS takes the page of request 1 as it is. -/
theorem Paged.pageAfter (h : c.Paged) {op arg : U32}
    (hpage : op = 1 ∧ arg = c.overlay.state.page ∨
      op ≠ 1 ∧ c.ios.page = c.overlay.state.page) :
    c.ios.pageAfter op arg = c.overlay.state.page := by
  unfold Machine.pageAfter
  rcases hpage with ⟨rfl, rfl⟩ | ⟨hop, hpage⟩
  · rw [if_pos rfl, h.cursor, if_pos (pageOf_lt h.bound)]
    exact pageOf_pageOf _
  · rw [if_neg hop]
    exact hpage

/-- An event of the plugin keeps page and cursor together. -/
theorem Paged.hidEvent (h : c.Paged) (e : HidEvent) : (c.hidEvent e).1.Paged := by
  have hnumbered := h.numbered.hidEvent e
  rcases c.hidEvent_cases e with ⟨hserves, hserved⟩ | hunserved
  · have hnew := hserves.2.new
    have hseq : (c.hidEvent e).1.ios.requestSeq = c.line 1 := hserved.seq
    have hpage : (c.hidEvent e).1.ios.page = c.ios.pageAfter (c.line 2) (c.line 3) := hserved.page
    cases h.due with
    | unsent op arg k hk hstoring hline hdue =>
        refine ⟨hnumbered, h.cursor, h.bound, fun hios => ?_, h.reply, ?_⟩
        · exact absurd (hseq.symm.trans hios) hline
        · refine .unsent op arg k hk ⟨hstoring.point, hstoring.le, hstoring.stored⟩ hline ?_
          exact hdue.imp id fun hother => absurd hother.2.2.symm hnew
    | sent hline hdue =>
        refine ⟨hnumbered, h.cursor, h.bound, fun _ => ?_, h.reply, ?_⟩
        · exact hpage.trans (h.pageAfter (hdue fun hios => hnew (hline.trans hios.symm)))
        · exact .sent hline fun hios => absurd (hseq.trans hline) hios
  · have hseq : (c.hidEvent e).1.ios.requestSeq = c.ios.requestSeq := hunserved.seq
    have hpage : (c.hidEvent e).1.ios.page = c.ios.page := hunserved.page
    refine ⟨hnumbered, h.cursor, h.bound, fun hios => ?_, h.reply, ?_⟩
    · exact hpage.trans (h.ios (hseq.symm.trans hios))
    · cases h.due with
      | unsent op arg k hk hstoring hline hdue =>
          refine .unsent op arg k hk ⟨hstoring.point, hstoring.le, hstoring.stored⟩ hline ?_
          exact hdue.imp id fun ⟨hop, hios, hsame⟩ => ⟨hop, hpage.trans hios, hseq.trans hsame⟩
      | sent hline hdue =>
          refine .sent hline fun hios => ?_
          exact (hdue fun h => hios (hseq.trans h)).imp id fun ⟨hop, h⟩ => ⟨hop, hpage.trans h⟩

/-- The page and the line outside `request`. -/
theorem Paged.idle (h : c.Paged) (hidle : c.overlay.point.Idle) :
    c.line 1 = c.overlay.state.seq ∧ (c.ios.requestSeq ≠ c.overlay.state.seq →
      c.line 2 = 1 ∧ c.line 3 = c.overlay.state.page ∨
        c.line 2 ≠ 1 ∧ c.ios.page = c.overlay.state.page) := by
  cases h.due with
  | unsent op arg k _ hstoring => rw [hstoring.point] at hidle; exact absurd hidle id
  | sent hline hdue => exact ⟨hline, hdue⟩

/-- The menu never has more entries than the catalogue may. -/
theorem menuCount_le (o : Overlay) : o.menuCount ≤ e11Max := by
  unfold Overlay.menuCount e11Max
  split_ifs with h
  · decide
  · exact BitVec.not_lt.mp h

/-- Where the cursor is after a frame: a frame that asks for anything but its page
leaves it on the page. -/
theorem Paged.cursor_input (h : c.Paged) {fresh : Bool} {keys : Fin 2 → U32}
    (hs : ¬ c.Strays (.overlay fresh keys)) (hpoint : c.overlay.point = .input) :
    (c.overlay.input keys).2.1.selected < e11Max ∧
      ((c.overlay.input keys).1 ≠ 1 →
        pageOf (c.overlay.input keys).2.1.selected = c.overlay.state.page) := by
  obtain ⟨frames, pending, hchecked⟩ := c.overlay.checked_eq
  have hprevious : c.overlay.checked.previous = c.overlay.state.previous := by rw [hchecked]
  have hselected : c.overlay.checked.selected = c.overlay.state.selected := by rw [hchecked]
  have hpage : c.overlay.checked.page = c.overlay.state.page := by rw [hchecked]
  have hsame (heq : (c.overlay.input keys).2.1.selected = c.overlay.checked.selected) :
      (c.overlay.input keys).2.1.selected < e11Max ∧
        pageOf (c.overlay.input keys).2.1.selected = c.overlay.state.page := by
    rw [heq, hselected]
    exact ⟨h.bound, h.cursor.symm⟩
  rcases @menuInputPlayers_selected c.overlay.checked c.overlay.players keys
    c.overlay.menuCount with ⟨-, -, heq⟩ | ⟨hopens, hframe⟩
  · exact ⟨(hsame heq).1, fun _ => (hsame heq).2⟩
  · rcases hframe.selected with heq | ⟨hbrowses, hn, hmove, haction⟩
    · exact ⟨(hsame heq).1, fun _ => (hsame heq).2⟩
    · refine ⟨?_, fun hone => ?_⟩
      · rw [show (c.overlay.input keys).2.1.selected = _ from hmove]
        exact BitVec.lt_def.mpr (Nat.lt_of_lt_of_le (BitVec.lt_def.mp (MenuState.menuMove_lt hn))
          (BitVec.le_def.mp (menuCount_le _)))
      · rcases haction with ⟨-, ha⟩ | haction
        · by_contra hstray
          refine hs ⟨hpoint, (not_congr (c.overlay.opens_checked keys)).mp hopens, hbrowses, hn,
            ?_, ?_⟩
          · rw [← hprevious]
            exact ha
          · rw [← hprevious, ← hselected, ← hmove]
            exact hstray
        · by_contra hstray
          refine hone (haction.trans (if_pos fun heq => hstray ?_))
          exact (hpage.symm.trans heq).symm

/-- The input of a frame keeps page and cursor together, unless it strays or wraps. -/
theorem Paged.input (h : c.Paged) {fresh : Bool} {keys : Fin 2 → U32}
    (hw : ¬ c.Wraps (.overlay fresh keys)) (hs : ¬ c.Strays (.overlay fresh keys))
    (hpoint : c.overlay.point = .input) :
    ({ c with overlay := (c.overlay.updateInput keys).1 } : Mailbox).Paged := by
  have hnumbered := h.numbered.input hw hpoint
  have hidle : c.overlay.point.Idle := by rw [hpoint]; trivial
  obtain ⟨hline, hdue⟩ := h.idle hidle
  obtain ⟨hbound, hpage⟩ := h.cursor_input hs hpoint
  have hkeeps : (c.overlay.input keys).2.1.page = c.overlay.state.page := by
    obtain ⟨frames, pending, hchecked⟩ := c.overlay.checked_eq
    rw [(c.overlay.input_keeps keys).page, hchecked]
  have hseq := c.overlay.input_seq keys
  by_cases haction : (c.overlay.input keys).1 = 0
  · rw [c.overlay.updateInput_of_eq keys haction] at hnumbered ⊢
    refine ⟨hnumbered, ?_, hbound, fun hios => ?_, fun hanswered => ?_, .sent ?_ fun hios => ?_⟩
    · exact hkeeps.trans (hpage (by rw [haction]; decide)).symm
    · exact (h.ios (hios.trans hseq)).trans hkeeps.symm
    · exact (h.reply (hanswered.trans hseq)).trans hkeeps.symm
    · exact hline.trans hseq.symm
    · exact (hdue fun h => hios (h.trans hseq.symm)).imp
        (fun h => ⟨h.1, h.2.trans hkeeps.symm⟩) fun h => ⟨h.1, h.2.trans hkeeps.symm⟩
  · obtain ⟨hios, hanswered⟩ := h.numbered.next_ne hw hpoint haction
    rw [c.overlay.updateInput_of_ne keys haction] at hnumbered ⊢
    have hseq : (c.overlay.input keys).2.1.requested.seq = nextSeq c.overlay.state.seq :=
      congrArg nextSeq hseq
    refine ⟨hnumbered, rfl, hbound, fun h => absurd (h.trans hseq).symm hios,
      fun h => absurd (h.trans hseq).symm hanswered,
      .unsent (c.overlay.input keys).1
        ((c.overlay.input keys).2.1.requested.requestArg (c.overlay.input keys).1) 0 (by omega)
        ⟨?_, by omega, fun w hw => absurd hw List.not_mem_nil⟩ ?_ ?_⟩
    · show UpdatePoint.stores _ = .stores _
      rw [hseq]
      rfl
    · intro heq
      exact nextSeq_ne _ (hline.symm.trans (heq.trans hseq)).symm
    · by_cases hone : (c.overlay.input keys).1 = 1
      · refine .inl ⟨hone, ?_⟩
        rw [hone]
        rfl
      · right
        -- only the menu that is reopened calls `request` while one is pending
        have hpending : c.overlay.checked.pending = false := by
          by_contra hpending
          obtain ⟨-, -, -, hopens⟩ :=
            h.numbered.reopens fresh hpoint haction (eq_true_of_ne_false hpending)
          rcases @menuInputPlayers_selected c.overlay.checked c.overlay.players keys
            c.overlay.menuCount with ⟨-, h, -⟩ | ⟨h, -⟩
          · exact hone h
          · exact h ((c.overlay.opens_checked keys).mpr hopens)
        have hsettled := h.numbered.answered (h.numbered.answered_of_checked hpoint hpending)
        exact ⟨hone, (h.ios hsettled).trans (hpage hone).symm, hsettled.trans hline.symm⟩

/-- A step keeps page and cursor together, unless it strays or wraps. -/
theorem Paged.step (h : c.Paged) {a : MailboxStep} (hw : ¬ c.Wraps a) (hs : ¬ c.Strays a) :
    (c.step a).1.Paged := by
  have hnumbered := h.numbered.step hw
  cases a with
  | ios e => exact h.hidEvent e
  | overlay fresh keys =>
      by_cases hidle : c.overlay.point.Idle
      · obtain ⟨hline, hdue⟩ := h.idle hidle
        show (c.updateMenu fresh keys).1.Paged
        have hnumbered : (c.updateMenu fresh keys).1.Numbered := hnumbered
        unfold updateMenu at hnumbered ⊢
        split at hnumbered
        · next hpoint =>
            have hkeep {i : Fin 8} (hi : i ≠ 5) :
                Function.update c.line 5 (c.line 5 + 1) i = c.line i := Function.update_of_ne hi _ _
            refine ⟨hnumbered, h.cursor, h.bound, h.ios, h.reply, .sent ?_ fun hios => ?_⟩
            · exact (hkeep (by decide)).trans hline
            · exact (hdue hios).imp
                (fun h => ⟨(hkeep (by decide)).trans h.1, (hkeep (by decide)).trans h.2⟩)
                fun h => ⟨fun hop => h.1 ((hkeep (by decide)).symm.trans hop), h.2⟩
        · next hpoint =>
            refine ⟨hnumbered, h.cursor, h.bound, h.ios, ?_, .sent hline hdue⟩
            cases fresh with
            | false => exact h.reply
            | true =>
                -- the reply that is copied has the page of IOS
                intro hanswered
                have hios := h.numbered.shows.1.symm.trans hanswered
                exact h.numbered.shows.2.trans (h.ios hios)
        · next hpoint => exact h.input hw hs hpoint
        · next hpoint => rw [hpoint] at hidle; exact absurd hidle id
        · next hpoint => rw [hpoint] at hidle; exact absurd hidle id
      · cases h.due with
        | unsent op arg k hk hstoring hline hdue =>
            obtain ⟨w, hword, hstep, hstored⟩ := hstoring.store (by omega) fresh keys
            rw [hstep] at hnumbered ⊢
            refine ⟨hnumbered, h.cursor, h.bound, h.ios, h.reply, ?_⟩
            rcases Nat.lt_or_ge k 3 with hlt | hge
            · have hkeep : Function.update c.line w.1 w.2 1 = c.line 1 :=
                Function.update_of_ne (requestWords_ne hlt hword) _ _
              exact .unsent op arg (k + 1) hlt hstored (fun hseq => hline (hkeep.symm.trans hseq))
                (hdue.imp id fun ⟨hop, hpage, hseq⟩ => ⟨hop, hpage, hseq.trans hkeep.symm⟩)
            · obtain rfl : k = 3 := by omega
              refine .sent (hstored.line (by omega)) fun _ => ?_
              have hop := hstored.stored (2, op) (by simp [requestWords])
              have harg := hstored.stored (3, arg) (by simp [requestWords])
              exact hdue.imp (fun h => ⟨hop.trans h.1, harg.trans h.2⟩)
                fun h => ⟨fun h' => h.1 (hop.symm.trans h'), h.2.1⟩
        | sent hline hdue =>
            obtain ⟨o, line, hstep, ho, hkeep, -⟩ := h.numbered.stores hidle hline fresh keys
            rw [hstep] at hnumbered ⊢
            have hcursor := h.cursor
            refine ⟨hnumbered, ?_, ?_, fun hios => ?_, fun hanswered => ?_, .sent ?_ fun hios => ?_⟩
            · exact ho.page.trans (hcursor.trans (congrArg pageOf ho.selected.symm))
            · exact ho.selected.symm ▸ h.bound
            · exact (h.ios (hios.trans ho.seq)).trans ho.page.symm
            · refine (congrArg (fun reply => be32 (Bytes.byte reply) 12) ho.reply).trans ?_
              refine (h.reply ?_).trans ho.page.symm
              exact (congrArg (fun reply => be32 (Bytes.byte reply) 0) ho.reply).symm.trans
                (hanswered.trans ho.seq)
            · exact (hkeep 1 (by decide)).trans (hline.trans ho.seq.symm)
            · exact (hdue fun h => hios (h.trans ho.seq.symm)).imp
                (fun h => ⟨(hkeep 2 (by decide)).trans h.1,
                  (hkeep 3 (by decide)).trans (h.2.trans ho.page.symm)⟩)
                fun h => ⟨fun hop => h.1 ((hkeep 2 (by decide)).symm.trans hop),
                  h.2.trans ho.page.symm⟩

end Steps

/-! ### The rows -/

/-- The catalogue of IOS at some moment of a run. -/
def Printed (io : StartIo) (as : List MailboxStep) (catalog : Bytes 16416) (compact count : U32) :
    Prop :=
  ∃ before e after, as = before ++ .ios e :: after ∧
    catalog = (Run.final step (start io) before).ios.catalog ∧
    compact = (Run.final step (start io) before).ios.compact ∧
    count = (Run.final step (start io) before).ios.count

/-- The rows of a reply are the labels of its page. -/
def Rows (reply : Bytes 416) (catalog : Bytes 16416) (compact count : U32) : Prop :=
  be32 reply.byte 8 = count ∧ ∀ i < 8, be32 reply.byte 12 + BitVec.ofNat 32 i < count →
    ∀ k < 48, reply.byte (32 + i * 48 + k) =
      (labelText catalog compact (be32 reply.byte 12 + BitVec.ofNat 32 i)).byte k

/-- A reply is blank, or its rows are the labels of a catalogue IOS has had. -/
def FromRun (io : StartIo) (as : List MailboxStep) (reply : Bytes 416) : Prop :=
  reply = Bytes.zero 416 ∨ ∃ catalog compact count, Printed io as catalog compact count ∧
    Rows reply catalog compact count

/-- What has been printed is still so after one more step. -/
theorem Printed.append {io : StartIo} {as : List MailboxStep} {catalog : Bytes 16416}
    {compact count : U32} (h : Printed io as catalog compact count) (a : MailboxStep) :
    Printed io (as ++ [a]) catalog compact count := by
  obtain ⟨before, e, after, has, hcatalog⟩ := h
  refine ⟨before, e, after ++ [a], ?_, hcatalog⟩
  rw [has, List.append_assoc, List.cons_append]

/-- A reply of the run is one of the longer run. -/
theorem FromRun.append {io : StartIo} {as : List MailboxStep} {reply : Bytes 416}
    (h : FromRun io as reply) (a : MailboxStep) : FromRun io (as ++ [a]) reply :=
  h.imp id fun ⟨catalog, compact, count, hprinted, hrows⟩ =>
    ⟨catalog, compact, count, hprinted.append a, hrows⟩

/-- The overlay never changes what IOS has published, and copies it as it is. -/
theorem updateMenu_reply (c : Mailbox) (fresh : Bool) (keys : Fin 2 → U32) :
    (c.updateMenu fresh keys).1.published = c.published ∧
      ((c.updateMenu fresh keys).1.overlay.reply = c.overlay.reply ∨
        (c.updateMenu fresh keys).1.overlay.reply = c.published) := by
  unfold updateMenu
  split
  · exact ⟨rfl, .inl rfl⟩
  · cases fresh
    · exact ⟨rfl, .inl rfl⟩
    · exact ⟨rfl, .inr rfl⟩
  · refine ⟨rfl, .inl ?_⟩
    show (c.overlay.updateInput keys).1.reply = _
    unfold Overlay.updateInput
    dsimp only
    split_ifs <;> rfl
  · exact ⟨rfl, .inl rfl⟩
  · exact ⟨rfl, .inl rfl⟩

/-- Every reply comes from a publication of IOS. -/
theorem fromRun (io : StartIo) (as : List MailboxStep) :
    FromRun io as (Run.final step (start io) as).published ∧
      FromRun io as (Run.final step (start io) as).overlay.reply := by
  induction as using List.reverseRecOn with
  | nil => exact ⟨.inl rfl, .inl rfl⟩
  | append_singleton as a ih =>
      rw [Run.final_append, Run.final_cons, Run.final_nil]
      obtain ⟨hpublished, hreply⟩ := ih
      cases a with
      | overlay fresh keys =>
          obtain ⟨hsame, hcopied⟩ :=
            (Run.final step (start io) as).updateMenu_reply fresh keys
          refine ⟨?_, ?_⟩
          · show FromRun io _ ((Run.final step (start io) as).updateMenu fresh keys).1.published
            rw [hsame]
            exact hpublished.append _
          · show FromRun io _ ((Run.final step (start io) as).updateMenu fresh keys).1.overlay.reply
            rcases hcopied with h | h
            · rw [h]
              exact hreply.append _
            · rw [h]
              exact hpublished.append _
      | ios e =>
          refine ⟨?_, hreply.append _⟩
          generalize hc : Run.final step (start io) as = c at hpublished
          show FromRun io _
            ((publishedIn (c.ios.hidStep (reading c.line e)).2).getLastD c.published)
          rcases List.eq_nil_or_concat (publishedIn (c.ios.hidStep (reading c.line e)).2) with
            hnone | ⟨before, reply, hlast⟩
          · rw [hnone]
            exact hpublished.append _
          · obtain ⟨m₀, hreports, -, hcatalog, hcompact, hcount⟩ :=
              Machine.hidStep_published c.ios (reading c.line e) reply (by rw [hlast]; simp)
            rw [hlast, List.concat_eq_append, List.getLastD_concat]
            refine .inr ⟨m₀.catalog, m₀.compact, m₀.count,
              ⟨as, e, [], rfl, by rw [hc, hcatalog], by rw [hc, hcompact], by rw [hc, hcount]⟩,
              hreports.count, ?_⟩
            rw [hreports.page]
            exact hreports.label

/-! ### Runs -/

/-- What the menu shows while nothing is pending: the reply is of its page, the cursor
is on it, each row has the label of its entry, and a load that `A` asks for is the
one of an entry of the page, the one under the cursor. -/
structure Labelled (c : Mailbox) (printed : Bytes 16416 → U32 → U32 → Prop) : Prop where
  page : be32 c.overlay.reply.byte 12 = c.overlay.state.page
  cursor : c.overlay.state.page = pageOf c.overlay.state.selected
  rows : c.overlay.menuCount ≠ 0 → ∃ catalog compact count, printed catalog compact count ∧
    c.overlay.menuCount = count ∧ ∀ i < 8, c.overlay.state.page + BitVec.ofNat 32 i < count →
      ∀ k < 48, c.overlay.reply.byte (32 + i * 48 + k) =
        (labelText catalog compact (c.overlay.state.page + BitVec.ofNat 32 i)).byte k
  loads : ∀ fresh keys arg, ¬ c.Strays (.overlay fresh keys) →
    .issued 2 arg ∈ (c.step (.overlay fresh keys)).2 →
      arg &&& 65535 = (c.step (.overlay fresh keys)).1.overlay.state.selected ∧
        pageOf (arg &&& 65535) = c.overlay.state.page

/-- At the start page and cursor are together. -/
theorem Paged.start (io : StartIo) : (Mailbox.start io).Paged := by
  have hios := start_request io
  have hzero : be32 (Bytes.zero 416).byte 12 = 0 := by decide
  exact ⟨.start io, (by decide : (0 : U32) = pageOf 0), (by decide : (0 : U32) < e11Max),
    fun _ => hios.2, fun _ => hzero, .sent rfl fun h => absurd hios.1 h⟩

/-- The low half of the argument of a load is the entry. -/
theorem and_requestArg {slot selected : U32} (h : selected < e11Max) :
    (slot <<< 16 ||| selected) &&& 65535 = selected := by
  apply BitVec.eq_of_toNat_eq
  have hlt := BitVec.lt_def.mp h
  rw [show e11Max.toNat = 640 from rfl] at hlt
  have hhigh : slot.toNat <<< 16 % 2 ^ 32 % 2 ^ 16 = 0 := by
    rw [Nat.shiftLeft_eq]
    omega
  rw [BitVec.toNat_and, BitVec.toNat_or, BitVec.toNat_shiftLeft,
    show (65535 : U32).toNat = 2 ^ 16 - 1 from rfl, Nat.and_two_pow_sub_one_eq_mod,
    Nat.or_mod_two_pow, hhigh, Nat.zero_or, Nat.mod_eq_of_lt (by omega)]

/-- Where page and cursor are together the menu shows the labels of its page. -/
theorem Paged.labelled {io : StartIo} {as : List MailboxStep} {c : Mailbox} (h : c.Paged)
    (hreply : FromRun io as c.overlay.reply) (hidle : c.overlay.point.Idle)
    (hpending : c.overlay.state.pending = false) : c.Labelled (Printed io as) := by
  have hpage := h.reply (h.numbered.settled hidle hpending)
  refine ⟨hpage, h.cursor, fun hcount => ?_, fun fresh keys arg hs hissued => ?_⟩
  · rcases hreply with hzero | ⟨catalog, compact, count, hprinted, hcount', hrows⟩
    · refine absurd ?_ hcount
      unfold Overlay.menuCount
      rw [hzero]
      decide
    · refine ⟨catalog, compact, count, hprinted, ?_, ?_⟩
      · unfold Overlay.menuCount at hcount ⊢
        rw [hcount'] at hcount ⊢
        by_cases hbig : 640 < count
        · rw [if_pos hbig] at hcount
          exact absurd rfl hcount
        · rw [if_neg hbig]
      · rw [← hpage]
        exact hrows
  · by_cases hpoint : c.overlay.point = .input
    · obtain ⟨hbound, hmoved⟩ := h.cursor_input hs hpoint
      have hstep : c.step (.overlay fresh keys) =
          ({ c with overlay := (c.overlay.updateInput keys).1 },
            (c.overlay.updateInput keys).2) := by
        show c.updateMenu fresh keys = _
        unfold updateMenu
        rw [hpoint]
      rw [hstep] at hissued ⊢
      by_cases haction : (c.overlay.input keys).1 = 0
      · rw [c.overlay.updateInput_of_eq keys haction] at hissued
        dsimp only at hissued
        split_ifs at hissued <;> simp at hissued
      · rw [c.overlay.updateInput_of_ne keys haction] at hissued ⊢
        have hevent : MailboxEvent.issued 2 arg = .issued (c.overlay.input keys).1
            ((c.overlay.input keys).2.1.requested.requestArg (c.overlay.input keys).1) := by
          rcases List.mem_append.mp hissued with hcleared | hlast
          · split_ifs at hcleared <;> simp at hcleared
          · exact List.mem_singleton.mp hlast
        obtain ⟨hop, harg⟩ := MailboxEvent.issued.inj hevent
        rw [← hop] at harg
        have harg : arg = (c.overlay.input keys).2.1.slot <<< 16 |||
            (c.overlay.input keys).2.1.selected := harg
        rw [harg, and_requestArg hbound]
        exact ⟨rfl, hmoved (by rw [← hop]; decide)⟩
    · -- only the step that looks at the keys calls `request`
      have hnone : (c.updateMenu fresh keys).2 = [] := by
        unfold updateMenu
        split
        · rfl
        · rfl
        · next h => exact absurd h hpoint
        · rfl
        · rfl
      rw [show (c.step (.overlay fresh keys)).2 = [] from hnone] at hissued
      exact absurd hissued List.not_mem_nil

/-- In every run in which no load is asked for by a frame that moves the cursor to
another page, and no number wraps round, the menu shows the page and the labels of
its cursor whenever nothing is pending.  The direction keys of a frame act before its
`A`, so the entry that is loaded is the one under the cursor as the frame leaves it. -/
theorem labels_match {io : StartIo} {as : List MailboxStep}
    (h : Run.Every step (fun c a => ¬ c.Strays a ∧ ¬ c.Wraps a) (start io) as)
    (hidle : (Run.final step (start io) as).overlay.point.Idle)
    (hpending : (Run.final step (start io) as).overlay.state.pending = false) :
    (Run.final step (start io) as).Labelled (Printed io as) := by
  have hpaged := Run.final_of_every (P := fun c => c.Paged)
    (fun c a ha hc => hc.step ha.2 ha.1) h (Paged.start io)
  exact hpaged.labelled (fromRun io as).2 hidle hpending

instance (s : MenuState) (keys : U32) : Decidable (s.Browses keys) :=
  decidable_of_iff (completesChord s.previous keys = false ∧ s.chordheld = false ∧
      s.visible = true ∧ s.pending = false ∧ (keys &&& ~~~s.previous) &&& menuB = 0 ∧
      ((keys &&& ~~~s.previous) &&& menuC = 0 ∧ (keys &&& ~~~s.previous) &&& menuZ = 0) ∧
      (s.minusArmed = false ∨ keys &&& menuPlus ≠ 0 ∨ s.previous &&& menuMinus = 0 ∨
        keys &&& menuMinus ≠ 0) ∧
      ((keys &&& ~~~s.previous) &&& menuOne = 0 ∧ (keys &&& ~~~s.previous) &&& menuTwo = 0))
    ⟨fun ⟨h₁, h₂, h₃, h₄, h₅, h₆, h₇, h₈⟩ => ⟨h₁, h₂, h₃, h₄, h₅, h₆, h₇, h₈⟩,
      fun ⟨h₁, h₂, h₃, h₄, h₅, h₆, h₇, h₈⟩ => ⟨h₁, h₂, h₃, h₄, h₅, h₆, h₇, h₈⟩⟩

instance (c : Mailbox) : (a : MailboxStep) → Decidable (c.Strays a)
  | .overlay _ _ => inferInstanceAs (Decidable (_ ∧ _ ∧ _ ∧ _ ∧ _ ∧ _))
  | .ios _ => inferInstanceAs (Decidable False)

instance (c : Mailbox) (a : MailboxStep) : Decidable (c.Wraps a) :=
  inferInstanceAs (Decidable (_ ∧ _))

/-- The catalogue of nine figures that the storage worker has read. -/
def nineFigures : Storage :=
  { (Machine.start .ok).toStorage with
    catalog := (Bytes.zero 16416).putBe32 4 9
    compact := 2 }

/-- The catalogue is there, and the load of the first figure is running. -/
def catalogueRead : List MailboxStep :=
  .ios (.outside nineFigures fun fd => fd = 0) :: .ios .complete :: ticksOf 250

/-- The storage worker has not found the first figure. -/
def figureMissing : Storage :=
  { (Run.final step (start .ok) catalogueRead).ios.toStorage with result := -106 }

/-- The load has failed, and the first controller opens the menu. -/
def menuOfNine : List MailboxStep :=
  catalogueRead ++ .ios (.outside figureMissing fun fd => fd = 0) :: .ios .complete ::
    frame menuChord 0 ++ requestSteps ++ ticksOf 8 ++ frame 0 0

/-- The menu of a catalogue with nine entries, opened on its first page. -/
theorem labels_match_menuOfNine :
    (Run.final step (start .ok) menuOfNine).Labelled (Printed .ok menuOfNine) ∧
      (Run.final step (start .ok) menuOfNine).overlay.menuCount = 9 :=
  ⟨labels_match (by decide +kernel) (by decide +kernel) (by decide +kernel), by decide +kernel⟩

/-- Right and `A` go down together: the cursor leaves the first page, and the figure
under it is loaded. -/
def strayLoad : List MailboxStep :=
  menuOfNine ++ frame (menuRight ||| menuA) 0 ++ requestSteps ++ ticksOf 8 ++ frame 0 0

/-- The rows of page 8 have the labels of page 0. -/
theorem strayLoad_mismatch :
    (Run.final step (start .ok) strayLoad).overlay.point.Idle ∧
      (Run.final step (start .ok) strayLoad).overlay.state.pending = false ∧
      (Run.final step (start .ok) strayLoad).overlay.state.visible = true ∧
      (Run.final step (start .ok) strayLoad).overlay.menuCount = 9 ∧
      ¬ (Run.final step (start .ok) strayLoad).Labelled (Printed .ok strayLoad) := by
  refine ⟨by decide +kernel, by decide +kernel, by decide +kernel, by decide +kernel, fun h => ?_⟩
  exact absurd h.page (by decide +kernel)

end Mailbox
end VirtualPortal
