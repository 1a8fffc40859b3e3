/-
# Requests are executed exactly once

Over a run, the requests IOS executes are the requests the overlay issues, in
order, but for the last one while it is still in the mailbox, and `pending` ends
only when none is left there (`ExactlyOnce`).  A poll that is not held back by an
action or a disk job takes what is left.

This holds in every run in which the menu is not reopened over a request that
IOS has not executed yet (`Overwrites`).  `menu_input` looks at the chord before
it looks at `pending`, so a load or a removal that waits for an action or a disk
job to end is lost when the menu is opened or claimed meanwhile: `request`
stores the words of another request over it (`deferredRemove_lost`).
-/

import VirtualPortal.Overlay.Numbers

namespace VirtualPortal

/-- The requests the overlay has issued. -/
def issuedIn (events : List MailboxEvent) : List (U32 × U32) :=
  events.filterMap fun
    | .issued op arg => some (op, arg)
    | _ => none

/-- The requests IOS has executed. -/
def doneIn (events : List MailboxEvent) : List (U32 × U32) :=
  events.filterMap fun
    | .executed op arg => some (op, arg)
    | _ => none

/-- Whenever `pending` has ended, every request issued before was executed. -/
def ClearsDone (events : List MailboxEvent) : Prop :=
  ∀ before after, events = before ++ .cleared :: after → issuedIn before = doneIn before

section Events

variable {l out : List MailboxEvent}

/-- The requests issued in two lists. -/
theorem issuedIn_append (l out : List MailboxEvent) :
    issuedIn (l ++ out) = issuedIn l ++ issuedIn out := List.filterMap_append

/-- The requests done in two lists. -/
theorem doneIn_append (l out : List MailboxEvent) :
    doneIn (l ++ out) = doneIn l ++ doneIn out := List.filterMap_append

/-- Events that clear nothing. -/
theorem ClearsDone.append (h : ClearsDone l) (hout : .cleared ∉ out) : ClearsDone (l ++ out) := by
  intro before after heq
  rcases List.append_eq_append_iff.mp heq with ⟨between, -, hsplit⟩ | ⟨between, hl, hsplit⟩
  · exact absurd (by rw [hsplit]; simp) hout
  · cases between with
    | nil => exact absurd (by rw [List.nil_append] at hsplit; rw [← hsplit]; simp) hout
    | cons e between =>
        obtain ⟨rfl, -⟩ := List.cons.inj hsplit
        exact h before between hl

/-- A request is cleared when all that were issued are done. -/
theorem ClearsDone.cleared (h : ClearsDone l) (hdone : issuedIn l = doneIn l) :
    ClearsDone (l ++ [.cleared]) := by
  intro before after heq
  rcases List.append_eq_append_iff.mp heq with ⟨between, hbefore, hsplit⟩ | ⟨between, hl, hsplit⟩
  · cases between with
    | nil => rw [hbefore, List.append_nil]; exact hdone
    | cons e between =>
        obtain ⟨-, hnil⟩ := List.cons.inj hsplit
        exact absurd hnil (by simp)
  · cases between with
    | nil => rw [List.append_nil] at hl; rw [← hl]; exact hdone
    | cons e between =>
        obtain ⟨rfl, -⟩ := List.cons.inj hsplit
        exact h before between hl

end Events

namespace Mailbox

/-- The menu is reopened over a request that IOS has not executed, or when the next
number is still the one of the copied reply. -/
def Overwrites (c : Mailbox) (a : MailboxStep) : Prop :=
  c.Reopens a ∧ (c.ios.requestSeq ≠ c.overlay.state.seq ∨
    nextSeq c.overlay.state.seq = c.overlay.answered)

instance (c : Mailbox) (a : MailboxStep) : Decidable (c.Overwrites a) :=
  inferInstanceAs (Decidable (_ ∧ _))

/-- A request that overwrites none does not wrap its number. -/
theorem Numbered.not_wraps {c : Mailbox} {a : MailboxStep} (h : ¬ c.Overwrites a) :
    ¬ c.Wraps a := by
  rintro ⟨hreopens, hseq | hseq⟩
  · refine h ⟨hreopens, .inl fun hsame => ?_⟩
    exact nextSeq_ne _ (hseq.trans hsame)
  · exact h ⟨hreopens, .inr hseq⟩

/-- What the overlay has issued and IOS has not executed. -/
inductive Owed (c : Mailbox) (l : List MailboxEvent) : Prop
  /-- One request, whose number is still to be stored. -/
  | unsent (op arg : U32) (k : ℕ) (hk : k ≤ 3) (hstoring : c.Storing op arg k)
      (hnew : c.ios.requestSeq ≠ c.overlay.state.seq) (hios : c.ios.requestSeq = c.line 1)
      (hl : issuedIn l = doneIn l ++ [(op, arg)])
  /-- One request, which stands in the line. -/
  | sent (op arg : U32) (hnew : c.ios.requestSeq ≠ c.overlay.state.seq)
      (hseq : c.line 1 = c.overlay.state.seq) (hop : c.line 2 = op) (harg : c.line 3 = arg)
      (hsky : c.line 4 = 0x534b595a) (hmagic : c.overlay.point.Idle → c.line 0 = 0x4531324d)
      (hl : issuedIn l = doneIn l ++ [(op, arg)])
  | nothing (hseq : c.line 1 = c.overlay.state.seq)
      (hios : c.ios.requestSeq = c.overlay.state.seq) (hl : issuedIn l = doneIn l)

/-- What holds of the requests. -/
structure Ledger (c : Mailbox) (l : List MailboxEvent) : Prop where
  numbered : c.Numbered
  owed : c.Owed l
  cleared : ClearsDone l

/-- The requests have been executed once each and in order, but for one that IOS
executes as soon as it may. -/
structure ExactlyOnce (c : Mailbox) (l : List MailboxEvent) : Prop where
  inOrder : ∃ rest, issuedIn l = doneIn l ++ rest ∧ rest.length ≤ 1
  cleared : ClearsDone l
  ready : c.overlay.point.Idle → ∀ op arg, issuedIn l = doneIn l ++ [(op, arg)] →
    (c.ios.ticks + 1) &&& 7 = 0 → (∃ fd, c.ios.route fd = true) →
      (c.ios.ticked.menuAlive (c.line 5)).isSome = true → c.ios.ticked.defers op = false →
        ∀ line send, doneIn (c.step (.ios (.tick line send))).2 = [(op, arg)]

section Steps

variable {c : Mailbox} {l : List MailboxEvent}

/-- Requests that are executed are done, and none is issued. -/
theorem doneIn_executed (requests : List (U32 × U32)) :
    doneIn (requests.map fun request => .executed request.1 request.2) = requests ∧
      issuedIn (requests.map fun request => .executed request.1 request.2) = [] := by
  induction requests with
  | nil => exact ⟨rfl, rfl⟩
  | cons request requests ih => exact ⟨congrArg (request :: ·) ih.1, ih.2⟩

/-- An event of IOS that executes nothing emits nothing, one that executes the line
emits its request. -/
theorem hidEvent_done (c : Mailbox) (e : HidEvent) :
    doneIn (c.hidEvent e).2 = executedIn (c.ios.hidStep (reading c.line e)).2 ∧
      issuedIn (c.hidEvent e).2 = [] := doneIn_executed _

/-- The plugin clears no request. -/
theorem hidEvent_not_cleared (c : Mailbox) (e : HidEvent) : .cleared ∉ (c.hidEvent e).2 := by
  intro h
  obtain ⟨request, -, heq⟩ := List.mem_map.mp h
  cases heq

/-- An event of the plugin keeps the requests owed. -/
theorem Owed.hidEvent (h : c.Owed l) (e : HidEvent) :
    (c.hidEvent e).1.Owed (l ++ (c.hidEvent e).2) := by
  obtain ⟨hdone, hissued⟩ := c.hidEvent_done e
  have hl (hnone : executedIn (c.ios.hidStep (reading c.line e)).2 = []) :
      issuedIn (l ++ (c.hidEvent e).2) = issuedIn l ∧
        doneIn (l ++ (c.hidEvent e).2) = doneIn l := by
    rw [issuedIn_append, doneIn_append, hdone, hissued, hnone, List.append_nil, List.append_nil]
    exact ⟨rfl, rfl⟩
  rcases c.hidEvent_cases e with ⟨hserves, hserved⟩ | hunserved
  · -- only the request that stands in the line can be executed
    have hnew := hserves.2.new
    cases h with
    | unsent op arg k _ _ _ hios => exact absurd hios.symm hnew
    | nothing hseq hios => exact absurd (hseq.trans hios.symm) hnew
    | sent op arg _ hseq hop harg _ _ howed =>
        refine .nothing hseq (hserved.seq.trans hseq) ?_
        rw [issuedIn_append, doneIn_append, hdone, hissued, hserved.executed, hop, harg,
          List.append_nil, howed]
  · obtain ⟨hissued, hdone⟩ := hl hunserved.executed
    have hsame : (c.hidEvent e).1.ios.requestSeq = c.ios.requestSeq := hunserved.seq
    cases h with
    | unsent op arg k hk hstoring hnew hios howed =>
        refine .unsent op arg k hk ⟨hstoring.point, hstoring.le, hstoring.stored⟩
          (ne_of_eq_of_ne hsame hnew) (hsame.trans hios) ?_
        rw [hissued, hdone, howed]
    | sent op arg hnew hseq hop harg hsky hmagic howed =>
        refine .sent op arg (ne_of_eq_of_ne hsame hnew) hseq hop harg hsky hmagic ?_
        rw [hissued, hdone, howed]
    | nothing hseq hios hl =>
        refine .nothing hseq (hsame.trans hios) ?_
        rw [hissued, hdone, hl]

/-- A step of `request` stores a word or sets `pending`. -/
theorem Owed.stores (h : c.Owed l) (hnumbered : c.Numbered) (hstores : ¬ c.overlay.point.Idle)
    (fresh : Bool) (keys : Fin 2 → U32) :
    (c.step (.overlay fresh keys)).1.Owed l ∧ (c.step (.overlay fresh keys)).2 = [] := by
  cases h with
  | unsent op arg k hk hstoring hnew hios hl =>
      obtain ⟨w, hword, hstep, hstored⟩ := hstoring.store (by omega) fresh keys
      rw [hstep]
      refine ⟨?_, rfl⟩
      rcases Nat.lt_or_ge k 3 with hlt | hge
      · refine .unsent op arg (k + 1) hlt hstored hnew (hios.trans ?_) hl
        exact (Function.update_of_ne (requestWords_ne hlt hword) w.2 c.line).symm
      · obtain rfl : k = 3 := by omega
        exact .sent op arg hnew (hstored.line (by omega))
          (hstored.stored (2, op) (by simp [requestWords]))
          (hstored.stored (3, arg) (by simp [requestWords]))
          (hstored.stored (4, 0x534b595a) (by simp [requestWords]))
            (fun hidle => absurd hidle id) hl
  | sent op arg hnew hseq hop harg hsky _ hl =>
      obtain ⟨o, line, hstep, ho, hline, hmagic⟩ := hnumbered.stores hstores hseq fresh keys
      rw [hstep]
      exact ⟨.sent op arg (ne_of_ne_of_eq hnew ho.seq.symm)
        ((hline 1 (by decide)).trans (hseq.trans ho.seq.symm)) ((hline 2 (by decide)).trans hop)
        ((hline 3 (by decide)).trans harg) ((hline 4 (by decide)).trans hsky) hmagic hl, rfl⟩
  | nothing hseq hios hl =>
      obtain ⟨o, line, hstep, ho, hline, -⟩ := hnumbered.stores hstores hseq fresh keys
      rw [hstep]
      exact ⟨.nothing ((hline 1 (by decide)).trans (hseq.trans ho.seq.symm))
        (hios.trans ho.seq.symm) hl, rfl⟩

/-- A request that is no longer pending has been executed. -/
theorem Owed.done (h : c.Owed l) (hios : c.ios.requestSeq = c.overlay.state.seq) :
    issuedIn l = doneIn l := by
  cases h with
  | unsent _ _ _ _ _ hnew => exact absurd hios hnew
  | sent _ _ hnew => exact absurd hios hnew
  | nothing _ _ hl => exact hl

/-- The input of a frame issues a request only when none is owed. -/
theorem Ledger.input (h : c.Ledger l) {fresh : Bool} {keys : Fin 2 → U32}
    (ho : ¬ c.Overwrites (.overlay fresh keys)) (hpoint : c.overlay.point = .input) :
    ({ c with overlay := (c.overlay.updateInput keys).1 } : Mailbox).Owed
        (l ++ (c.overlay.updateInput keys).2) ∧
      ClearsDone (l ++ (c.overlay.updateInput keys).2) := by
  have hidle : c.overlay.point.Idle := by rw [hpoint]; trivial
  have hline := h.numbered.numbering.line_of_idle hidle
  -- the end of `pending` is the answer to the last request
  have hclears : ClearsDone (l ++ if c.overlay.Clears then [.cleared] else []) := by
    split_ifs with hclears
    · exact h.cleared.cleared (h.owed.done (h.numbered.answered hclears.2))
    · rw [List.append_nil]
      exact h.cleared
  have hquiet : issuedIn (l ++ if c.overlay.Clears then [.cleared] else []) = issuedIn l ∧
      doneIn (l ++ if c.overlay.Clears then [.cleared] else []) = doneIn l := by
    rw [issuedIn_append, doneIn_append]
    split_ifs <;> exact ⟨List.append_nil _, List.append_nil _⟩
  by_cases haction : (c.overlay.input keys).1 = 0
  · rw [c.overlay.updateInput_of_eq keys haction]
    refine ⟨?_, hclears⟩
    have hseq := c.overlay.input_seq keys
    cases h.owed with
    | unsent op arg k _ hstoring => rw [hstoring.point] at hidle; exact absurd hidle id
    | sent op arg hnew hseq' hop harg hsky hmagic hl =>
        refine .sent op arg (ne_of_ne_of_eq hnew hseq.symm) (hseq'.trans hseq.symm) hop harg hsky
          (fun _ => hmagic hidle) ?_
        rw [hquiet.1, hquiet.2, hl]
    | nothing hseq' hios hl =>
        refine .nothing (hseq'.trans hseq.symm) (hios.trans hseq.symm) ?_
        rw [hquiet.1, hquiet.2, hl]
  · rw [c.overlay.updateInput_of_ne keys haction, ← List.append_assoc]
    refine ⟨?_, hclears.append (by simp)⟩
    have hios : c.ios.requestSeq = c.overlay.state.seq := by
      by_cases hpending : c.overlay.checked.pending = true
      · by_contra hios
        exact ho ⟨h.numbered.reopens fresh hpoint haction hpending, .inl hios⟩
      · exact h.numbered.answered
          (h.numbered.answered_of_checked hpoint (eq_false_of_ne_true hpending))
    have hseq : (c.overlay.input keys).2.1.requested.seq = nextSeq c.overlay.state.seq :=
      congrArg nextSeq (c.overlay.input_seq keys)
    refine .unsent (c.overlay.input keys).1
      ((c.overlay.input keys).2.1.requested.requestArg (c.overlay.input keys).1) 0 (by omega)
      ⟨?_, by omega, fun w hw => absurd hw List.not_mem_nil⟩ ?_ (hios.trans hline.symm) ?_
    · show UpdatePoint.stores _ = .stores _
      rw [hseq]
      rfl
    · show c.ios.requestSeq ≠ (c.overlay.input keys).2.1.requested.seq
      rw [hseq, hios]
      exact (nextSeq_ne _).symm
    · rw [issuedIn_append, doneIn_append, hquiet.1, hquiet.2, h.owed.done hios]
      exact congrArg (· ++ [_]) (List.append_nil _).symm

/-- Outside `request` the overlay changes neither its number nor what the line says
of the request. -/
theorem Owed.idle (h : c.Owed l) (hidle : c.overlay.point.Idle) {o : Overlay} {line : RequestLine}
    (hseq : o.state.seq = c.overlay.state.seq) (hline : ∀ i ≠ 5, line i = c.line i) :
    ({ c with overlay := o, line := line } : Mailbox).Owed l := by
  cases h with
  | unsent op arg k _ hstoring => rw [hstoring.point] at hidle; exact absurd hidle id
  | sent op arg hnew hseq' hop harg hsky hmagic hl =>
      exact .sent op arg (ne_of_ne_of_eq hnew hseq.symm)
        ((hline 1 (by decide)).trans (hseq'.trans hseq.symm)) ((hline 2 (by decide)).trans hop)
        ((hline 3 (by decide)).trans harg) ((hline 4 (by decide)).trans hsky)
        (fun _ => (hline 0 (by decide)).trans (hmagic hidle)) hl
  | nothing hseq' hios hl =>
      exact .nothing ((hline 1 (by decide)).trans (hseq'.trans hseq.symm)) (hios.trans hseq.symm) hl

/-- Every step keeps the ledger. -/
theorem Ledger.step (h : c.Ledger l) {a : MailboxStep} (ho : ¬ c.Overwrites a) :
    (c.step a).1.Ledger (l ++ (c.step a).2) := by
  have hnumbered := h.numbered.step (Numbered.not_wraps ho)
  cases a with
  | ios e =>
      exact ⟨hnumbered, h.owed.hidEvent e, h.cleared.append (c.hidEvent_not_cleared e)⟩
  | overlay fresh keys =>
      by_cases hidle : c.overlay.point.Idle
      · show (c.updateMenu fresh keys).1.Ledger (l ++ (c.updateMenu fresh keys).2)
        have hnumbered : (c.updateMenu fresh keys).1.Numbered := hnumbered
        unfold updateMenu at hnumbered ⊢
        split at hnumbered
        · next hpoint =>
            rw [List.append_nil]
            exact ⟨hnumbered, h.owed.idle hidle rfl fun i hi => Function.update_of_ne hi _ _,
              h.cleared⟩
        · next hpoint =>
            rw [List.append_nil]
            exact ⟨hnumbered, h.owed.idle hidle rfl fun _ _ => rfl, h.cleared⟩
        · next hpoint =>
            obtain ⟨howed, hcleared⟩ := h.input ho hpoint
            exact ⟨hnumbered, howed, hcleared⟩
        · next hpoint => rw [hpoint] at hidle; exact absurd hidle id
        · next hpoint => rw [hpoint] at hidle; exact absurd hidle id
      · obtain ⟨howed, hout⟩ := h.owed.stores h.numbered hidle fresh keys
        rw [hout, List.append_nil]
        exact ⟨hnumbered, howed, h.cleared⟩

/-- The ledger of a run: what it says at its end. -/
theorem Ledger.exactlyOnce (h : c.Ledger l) : c.ExactlyOnce l := by
  refine ⟨?_, h.cleared, fun hidle op arg hl hturn hroute halive hready line send => ?_⟩
  · cases h.owed with
    | unsent op arg _ _ _ _ _ hl => exact ⟨[(op, arg)], hl, by simp⟩
    | sent op arg _ _ _ _ _ _ hl => exact ⟨[(op, arg)], hl, by simp⟩
    | nothing _ _ hl => exact ⟨[], by rw [hl, List.append_nil], by simp⟩
  · cases h.owed with
    | unsent _ _ _ _ hstoring => rw [hstoring.point] at hidle; exact absurd hidle id
    | nothing _ _ hdone => rw [hdone] at hl; simp at hl
    | sent op' arg' hnew hseq hop harg hsky hmagic hl' =>
        obtain ⟨rfl, rfl⟩ := Prod.mk.inj (List.singleton_inj.mp
          (List.append_cancel_left (hl'.symm.trans hl)))
        have hserves : c.ios.ServesTick c.line :=
          ⟨hturn, hroute, ⟨hmagic hidle, hsky⟩, halive,
            fun heq => hnew (heq.symm.trans hseq), by rw [hop]; exact hready⟩
        have hserved : c.ios.Served c.line (c.ios.hidStep (.tick c.line send)) :=
          Machine.hidStep_served hserves
        show doneIn (c.hidEvent (.tick line send)).2 = _
        rw [(c.hidEvent_done _).1, ← hop, ← harg]
        exact hserved.executed

end Steps

/-! ### Runs -/

/-- At the start nothing is owed. -/
theorem Ledger.start (io : StartIo) : (Mailbox.start io).Ledger [] :=
  ⟨.start io, .nothing rfl (start_request io).1 rfl, fun before after h => by simp at h⟩

/-- In every run in which the menu is never reopened over a request that IOS has not
executed, every request is executed exactly once and in order, as it was issued,
and `pending` ends only after that. -/
theorem exactly_once {io : StartIo} {as : List MailboxStep}
    (h : Run.Every Mailbox.step (fun c a => ¬ c.Overwrites a) (Mailbox.start io) as) :
    (Run.final Mailbox.step (Mailbox.start io) as).ExactlyOnce
      (Run.outputs Mailbox.step (Mailbox.start io) as) := by
  have hledger := Run.outputs_of_every (P := fun c l => c.Ledger l)
    (fun c l a ho hc => hc.step ho) h (Ledger.start io)
  exact hledger.exactlyOnce

end Mailbox

/-- A game has opened the portal, and the first controller opens the menu. -/
def openMenu : List MailboxStep :=
  .ios (.outside (Machine.start .ok).toStorage fun fd => fd = 0) ::
    frame menuChord 0 ++ requestSteps ++ ticksOf 8 ++ frame 0 0

/-- The menu is opened: its request for the page is executed once and cleared. -/
theorem exactly_once_openMenu :
    (Run.final Mailbox.step (Mailbox.start .ok) openMenu).ExactlyOnce
        (Run.outputs Mailbox.step (Mailbox.start .ok) openMenu) ∧
      Run.outputs Mailbox.step (Mailbox.start .ok) openMenu =
        [.issued 1 0, .executed 1 0, .cleared] :=
  ⟨Mailbox.exactly_once (by decide +kernel), by decide⟩

/-- Minus is released while the catalogue is being loaded, and the second controller
claims the menu before the removal is executed. -/
def deferredRemove : List MailboxStep :=
  openMenu ++ frame menuMinus 0 ++ frame 0 0 ++ requestSteps ++ ticksOf 8 ++
    frame 0 menuChord ++ requestSteps ++ ticksOf 8

/-- The removal is lost. -/
theorem deferredRemove_lost :
    ¬ (Run.final Mailbox.step (Mailbox.start .ok) deferredRemove).ExactlyOnce
      (Run.outputs Mailbox.step (Mailbox.start .ok) deferredRemove) := by
  have hissued : issuedIn (Run.outputs Mailbox.step (Mailbox.start .ok) deferredRemove) =
      [(1, 0), (3, 0), (1, 0)] := by decide
  have hdone : doneIn (Run.outputs Mailbox.step (Mailbox.start .ok) deferredRemove) =
      [(1, 0), (1, 0)] := by decide
  rintro ⟨⟨rest, hrest, -⟩, -, -⟩
  rw [hissued, hdone] at hrest
  simp at hrest

end VirtualPortal
