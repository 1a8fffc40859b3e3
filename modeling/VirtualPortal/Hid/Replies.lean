/-
# Replies are delivered in order, but for a cancelled read

The replies queued for a session wait in its queue, the oldest of them in the
pending read once one has taken it (`Session.owed`).  A command appends one, a read
moves the oldest from the queue to the read, a tick delivers it: each of these
conserves them.  A cancel of the endpoint drops the read, and with it the reply it
has taken, while a status packet dropped with its read consumes no transition.

`replies_kept_iff`: over a run without a reset the host is given the replies once
and in order exactly when no cancel falls between the read that takes a reply and
its delivery.
-/

import VirtualPortal.Hid.Deliveries
import VirtualPortal.Lib.Conservation

namespace VirtualPortal

namespace Session

/-- The reply that the pending read has taken. -/
def held (s : Session) : List (Bytes 32) :=
  if s.read.isSome ∧ s.response 0 ≠ letter 'S' then [s.response] else []

/-- The replies the host has still to be given, oldest first. -/
def owed (s : Session) : List (Bytes 32) := s.held ++ s.replies

/-- The queue is not overfull, and no reply in it looks like a status packet. -/
structure Orderly (s : Session) : Prop where
  count : s.count ≤ 8
  replies : ∀ r ∈ s.replies, r 0 ≠ letter 'S'

end Session

/-- The reply an effect delivers to `fd`. -/
def Effect.replyTo (fd : Fin 16) (e : Effect) : Option (Bytes 32) :=
  (e.deliveredTo fd).filter fun packet => packet 0 ≠ letter 'S'

/-- The packets delivered to `fd` that are not status packets, oldest first. -/
def repliesTo (fd : Fin 16) (out : List Effect) : List (Bytes 32) :=
  out.filterMap (Effect.replyTo fd)

/-- A cancel drops a read that has taken a reply. -/
def DropsReply (fd : Fin 16) (m : Machine) (e : HidEvent) : Prop :=
  e.CancelsRead fd ∧ (m.sessions fd).held ≠ []

/-- A cancel leaves the replies and what is shown of the figures as they are. -/
structure CancelKeeps (fd : Fin 16) (m : Machine) (e : HidEvent) : Prop where
  owed : e.CancelsRead fd → ((m.hidStep e).1.sessions fd).owed = (m.sessions fd).owed
  transitions : e.CancelsRead fd →
    ((m.hidStep e).1.sessions fd).transitions = (m.sessions fd).transitions ∧
      ((m.hidStep e).1.sessions fd).status = (m.sessions fd).status

/-- The host is given the replies of a run once and in order, and no cancelled read
consumes a reply or a transition. -/
structure RepliesKept (fd : Fin 16) (m : Machine) (es : List HidEvent) : Prop where
  inOrder : (m.sessions fd).owed ++ queuedFor fd (Run.outputs Machine.hidStep m es) =
    repliesTo fd (Run.outputs Machine.hidStep m es) ++
      ((Run.final Machine.hidStep m es).sessions fd).owed
  cancelled : Run.Every Machine.hidStep (CancelKeeps fd) m es

/-! ### One session -/

section Session

variable {s t : Session}

/-- Without a read nothing is held. -/
theorem held_of_none (h : s.read = none) : s.held = [] := by
  unfold Session.held
  rw [h]
  simp

/-- The replies depend on the queue only. -/
theorem replies_congr (hfifo : t.fifo = s.fifo) (hhead : t.head = s.head)
    (hcount : t.count = s.count) :
    t.replies = s.replies := by
  unfold Session.replies
  rw [hfifo, hhead, hcount]

/-- Order depends on the queue only. -/
theorem Session.Orderly.congr (h : s.Orderly) (hcount : t.count = s.count)
    (hreplies : t.replies = s.replies) : t.Orderly := by
  constructor
  · rw [hcount]; exact h.count
  · rw [hreplies]; exact h.replies

/-- A session with the same reads and replies has the same replies queued. -/
theorem Session.SameIo.replies (h : s.SameIo t) : t.replies = s.replies :=
  (congrArg Session.replies h.eq :)

/-- A session with the same reads and replies owes the same. -/
theorem Session.SameIo.owed (h : s.SameIo t) : t.owed = s.owed := (congrArg Session.owed h.eq :)

/-- A session with the same reads and replies is in order as before. -/
theorem Session.SameIo.orderly (h : s.SameIo t) (hs : s.Orderly) : t.Orderly :=
  hs.congr (congrArg Session.count h.eq :) h.replies

/-- An empty queue is in order. -/
theorem orderly_of_empty (h : s.count = 0) : s.Orderly := by
  have hreplies : s.replies = [] := by
    unfold Session.replies
    rw [h, Ring.contents_zero]
  constructor
  · omega
  · rw [hreplies]
    exact fun r hr => nomatch hr

/-- A reply that is queued comes last. -/
theorem replies_v4Push (hs : s.Orderly) (hroom : s.count ≠ 8) (reply : Bytes 32) :
    (s.v4Push reply).2.replies = s.replies ++ [reply] := by
  have hcount := hs.count
  rw [Session.v4Push, if_neg hroom]
  unfold Session.replies
  dsimp only
  rw [Nat.mod_eq_of_lt (by omega)]
  exact Ring.contents_push (by decide) s.fifo s.head (by omega) reply

/-- A reply that is queued keeps the order. -/
theorem orderly_v4Push (hs : s.Orderly) (hroom : s.count ≠ 8) {reply : Bytes 32}
    (hreply : reply 0 ≠ letter 'S') : (s.v4Push reply).2.Orderly := by
  have hcount := hs.count
  constructor
  · rw [Session.v4Push, if_neg hroom]
    dsimp only
    omega
  · intro r hr
    rw [replies_v4Push hs hroom] at hr
    rcases List.mem_append.mp hr with hr | hr
    · exact hs.replies r hr
    · rw [List.mem_singleton.mp hr]
      exact hreply

/-- The oldest reply comes first. -/
theorem replies_takeReply (hcount : s.count ≠ 0) (msg : IpcMessage) (data due : U32) :
    s.replies = (s.takeReply msg data due).response :: (s.takeReply msg data due).replies := by
  obtain ⟨count, hsucc⟩ := Nat.exists_eq_succ_of_ne_zero hcount
  unfold Session.takeReply Session.replies
  dsimp only
  rw [hsucc, Nat.succ_sub_one]
  exact Ring.contents_pop (by decide) s.fifo s.head count

/-- A reply that is taken keeps the order. -/
theorem orderly_takeReply (hs : s.Orderly) (hcount : s.count ≠ 0) (msg : IpcMessage)
    (data due : U32) : (s.takeReply msg data due).Orderly := by
  have hle := hs.count
  constructor
  · show s.count - 1 ≤ 8
    omega
  · intro r hr
    refine hs.replies r ?_
    rw [replies_takeReply hcount msg data due]
    exact List.mem_cons_of_mem _ hr

/-- A read that takes a reply owes it still. -/
theorem owed_takeReply (hs : s.Orderly) (hread : s.read = none) (hcount : s.count ≠ 0)
    (msg : IpcMessage) (data due : U32) : (s.takeReply msg data due).owed = s.owed := by
  have hreplies := replies_takeReply hcount msg data due
  have hheld : (s.takeReply msg data due).held = [(s.takeReply msg data due).response] := by
    refine if_pos ⟨rfl, hs.replies _ ?_⟩
    rw [hreplies]
    exact List.mem_cons_self
  rw [Session.owed, Session.owed, hheld, held_of_none hread, hreplies]
  rfl

/-- Its status packet is no reply. -/
theorem held_takeStatus (msg : IpcMessage) (data due : U32) :
    (s.takeStatus msg data due).held = [] := by
  refine if_neg ?_
  rintro ⟨-, h⟩
  exact h rfl

/-- A delivery gives out the reply the read has taken. -/
theorem owed_deliver {msg : IpcMessage} (hread : s.read = some msg) :
    s.owed = (if s.response 0 ≠ letter 'S' then [s.response] else []) ++
      (s.deliver msg).1.owed := by
  obtain ⟨hnone, -, hfifo, hhead, hcount, -⟩ := s.deliver_keeps msg
  have hheld : s.held = if s.response 0 ≠ letter 'S' then [s.response] else [] := by
    unfold Session.held
    rw [hread]
    simp
  rw [Session.owed, Session.owed, held_of_none hnone, replies_congr hfifo hhead hcount, hheld]
  rfl

end Session

/-! ### One event -/

section Event

variable {m : Machine} {fd : Fin 16}

/-- The replies among the packets are those that are no status. -/
theorem repliesTo_eq (fd : Fin 16) (out : List Effect) :
    repliesTo fd out = (deliveredTo fd out).filter fun packet => packet 0 ≠ letter 'S' := by
  induction out with
  | nil => rfl
  | cons e out ih =>
      unfold repliesTo deliveredTo at *
      rw [List.filterMap_cons, List.filterMap_cons, Effect.replyTo]
      cases e.deliveredTo fd with
      | none => exact ih
      | some packet =>
          rw [List.filter_cons, Option.filter_some]
          split_ifs with h
          · exact congrArg (packet :: ·) ih
          · exact ih

/-- The queues of a machine are in order. -/
structure Machine.Orderly (m : Machine) (fd : Fin 16) : Prop extends m.AtSubmission where
  orderly : (m.sessions fd).Orderly

/-- A request keeps its session in order. -/
theorem Handled.orderly {mem : Mem} {msg : IpcMessage} {t : Session} {out : List Effect}
    (h : Handled m fd mem msg t out) (hs : (m.sessions fd).Orderly) : t.Orderly := by
  cases h with
  | command reply t wrote answer hroom hreply ht hwrote hanswer =>
      exact (orderly_v4Push hs hroom hreply).congr (congrArg Session.count ht.1 :)
        (congrArg Session.replies ht.1 :)
  | startReply data hread hcount => exact orderly_takeReply hs hcount msg data _
  | reset _ t last _ _ hcount => exact orderly_of_empty hcount
  | _ => exact hs.congr rfl rfl

/-- Every event keeps the session in order. -/
theorem Machine.Orderly.step (hm : m.Orderly fd) (e : HidEvent) : (m.hidStep e).1.Orderly fd := by
  refine ⟨hm.toAtSubmission.step e, ?_⟩
  cases e with
  | process mem msg =>
      rcases m.process_cases fd mem msg with ⟨req, -, -, h⟩ | ⟨h, -⟩
      · exact h.orderly hm.orderly
      · show ((m.v4Process mem msg).1.sessions fd).Orderly
        rw [h]
        exact hm.orderly
  | tick line send =>
      have hpolled := (m.polled_sameIo line send fd).orderly hm.orderly
      show ((m.v4Tick line send).1.sessions fd).Orderly
      rw [Machine.sessions_v4Tick]
      rcases ((m.polled line send).sessions fd).v4Tick_cases (m.polled line send).ticks with
        h | ⟨msg, -, -, h⟩
      · rw [h]
        exact hpolled
      · obtain ⟨-, -, hfifo, hhead, hcount, -⟩ :=
          ((m.polled line send).sessions fd).deliver_keeps msg
        rw [h]
        exact hpolled.congr hcount (replies_congr hfifo hhead hcount)
  | complete => exact (m.e09Complete_sameIo fd).orderly hm.orderly
  | outside st route => exact hm.orderly

/-- At the start every session is in order. -/
theorem Machine.Orderly.start (io : StartIo) (fd : Fin 16) : (Machine.start io).Orderly fd := by
  refine ⟨.start io, ?_⟩
  rw [start_sessions]
  exact orderly_of_empty rfl

/-- A request conserves the replies, unless it is a reset or a cancel that drops
one. -/
theorem Handled.owed {mem : Mem} {msg : IpcMessage} {t : Session} {out : List Effect}
    (h : Handled m fd mem msg t out) (hs : (m.sessions fd).Orderly) (hreset : ¬ Resets msg)
    (hdrop : CancelsRead mem msg → (m.sessions fd).held = []) :
    (m.sessions fd).owed ++ queuedFor fd out = t.owed := by
  cases h with
  | answer answer hanswer => rw [(hanswer.quiet fd).2, List.append_nil]
  | describe => exact List.append_nil _
  | park => exact List.append_nil _
  | command reply t wrote answer hroom hreply ht hwrote hanswer =>
      have hqueued : queuedFor fd (.queued fd reply :: wrote ++ answer) = [reply] := by
        rw [List.cons_append, ← List.singleton_append, queuedFor_append, queuedFor_append,
          queuedFor_of_quiet hwrote.quiet, (hanswer.quiet fd).2, queuedFor_queued, if_pos rfl]
        rfl
      have ht' : t.owed = ((m.sessions fd).v4Push reply).2.owed := (congrArg Session.owed ht.1 :)
      have hheld : ((m.sessions fd).v4Push reply).2.held = (m.sessions fd).held := by
        rw [Session.v4Push, if_neg hroom]
        rfl
      rw [hqueued, ht', Session.owed, Session.owed, hheld, replies_v4Push hs hroom,
        List.append_assoc]
  | startReply data hread hcount =>
      rw [owed_takeReply hs hread hcount]
      exact List.append_nil _
  | startStatus data hread hcount =>
      rw [Session.owed, Session.owed, held_takeStatus, held_of_none hread]
      exact List.append_nil _
  | cancel req hcancel hread =>
      rw [Session.owed, Session.owed, hdrop hcancel]
      exact List.append_nil _
  | reset hr => exact absurd hr hreset

/-- A cancel drops the reply that the pending read has taken. -/
theorem process_cancel {mem : Mem} {msg : IpcMessage} (hfd : msg.fd.toNat = fd.val)
    (hcancel : CancelsRead mem msg) :
    ∃ t, (m.v4Process mem (some msg)).1.sessions fd = t ∧
      t.transitions = (m.sessions fd).transitions ∧
      t.status = (m.sessions fd).status ∧ (m.sessions fd).owed = (m.sessions fd).held ++ t.owed ∧
        queuedFor fd (m.v4Process mem (some msg)).2 = [] := by
  rw [m.v4Process_cancel fd mem msg hfd hcancel]
  cases hread : (m.sessions fd).read with
  | none =>
      refine ⟨_, rfl, rfl, rfl, ?_, rfl⟩
      rw [held_of_none hread]
      rfl
  | some req =>
      refine ⟨_, m.sessions_setSession fd _, rfl, rfl, ?_, rfl⟩
      rw [Session.owed, Session.owed, held_of_none (s := { m.sessions fd with read := none }) rfl]
      rfl

/-- Every event but a reset conserves the replies, unless it drops one. -/
theorem hidStep_conserves (hm : m.Orderly fd) {e : HidEvent} (hreset : ¬ e.Resets fd)
    (hdrop : ¬ DropsReply fd m e) :
    Run.Conserves (fun m : Machine => (m.sessions fd).owed) (Effect.queuedFor fd)
      (Effect.replyTo fd) m (m.hidStep e).2 (m.hidStep e).1 := by
  show (m.sessions fd).owed ++ queuedFor fd (m.hidStep e).2 =
    repliesTo fd (m.hidStep e).2 ++ ((m.hidStep e).1.sessions fd).owed
  rw [repliesTo_eq]
  cases e with
  | process mem msg =>
      rw [show m.hidStep (.process mem msg) = m.v4Process mem msg from rfl, deliveredTo_process]
      rcases m.process_cases fd mem msg with ⟨req, rfl, hfd, h⟩ | ⟨hs, hqueued, -, -⟩
      · refine h.owed hm.orderly (fun hr => hreset ⟨mem, req, rfl, hfd, hr⟩) fun hc => ?_
        by_contra hheld
        exact hdrop ⟨⟨mem, req, rfl, hfd, hc⟩, hheld⟩
      · rw [hs, hqueued, List.append_nil]
        rfl
  | tick line send =>
      rw [show m.hidStep (.tick line send) = m.v4Tick line send from rfl, queuedFor_tick,
        deliveredTo_tick hm.toAtSubmission, Machine.sessions_v4Tick, List.append_nil,
        ← (m.polled_sameIo line send fd).owed]
      rcases ((m.polled line send).sessions fd).v4Tick_cases (m.polled line send).ticks with
        h | ⟨msg, hread, -, h⟩
      · rw [h]
        rfl
      · have hown : msg.fd.toNat = fd.val := by
          rw [(m.polled_sameIo line send fd).read] at hread
          exact hm.own fd msg hread
        have hpending : ((m.polled line send).sessions fd).pendingStatus = false :=
          (m.polled_sameIo line send fd).pendingStatus.trans (hm.pending fd)
        have hout := congrArg Prod.snd (Session.deliver_eq hpending msg)
        rw [h, hout, deliveredTo_deliver, if_pos hown, List.filter_singleton, Bool.cond_decide]
        exact owed_deliver hread
  | complete =>
      rw [show m.hidStep .complete = m.e09Complete from rfl, queuedFor_of_quiet m.e09Complete_quiet,
        deliveredTo_of_quiet m.e09Complete_quiet, (m.e09Complete_sameIo fd).owed]
      exact List.append_nil _
  | outside st route => exact List.append_nil _

/-- A cancel that drops a reply loses it. -/
theorem hidStep_loses (m : Machine) {e : HidEvent} (hdrop : DropsReply fd m e) :
    Run.Loses (fun m : Machine => (m.sessions fd).owed) (Effect.queuedFor fd) (Effect.replyTo fd) m
      (m.hidStep e).2 (m.hidStep e).1 := by
  obtain ⟨⟨mem, msg, rfl, hfd, hcancel⟩, hheld⟩ := hdrop
  obtain ⟨t, ht, -, -, howed, hqueued⟩ := process_cancel (m := m) hfd hcancel
  have hlength := List.length_pos_of_ne_nil hheld
  show (repliesTo fd (m.v4Process mem (some msg)).2).length +
    ((m.v4Process mem (some msg)).1.sessions fd).owed.length <
      (m.sessions fd).owed.length + (queuedFor fd (m.v4Process mem (some msg)).2).length
  rw [repliesTo_eq, deliveredTo_process, ht, howed, hqueued]
  simp only [List.filter_nil, List.length_nil, List.length_append]
  omega

/-- A cancel that drops no reply keeps what is owed, and no cancel consumes a
transition. -/
theorem hidStep_cancelKeeps (m : Machine) {e : HidEvent} (hdrop : ¬ DropsReply fd m e) :
    CancelKeeps fd m e := by
  have hcases (h : e.CancelsRead fd) : ∃ t, (m.hidStep e).1.sessions fd = t ∧
      t.transitions = (m.sessions fd).transitions ∧ t.status = (m.sessions fd).status ∧
        (m.sessions fd).owed = (m.sessions fd).held ++ t.owed := by
    obtain ⟨mem, msg, rfl, hfd, hcancel⟩ := h
    obtain ⟨t, ht, htransitions, hstatus, howed, -⟩ := process_cancel (m := m) hfd hcancel
    exact ⟨t, ht, htransitions, hstatus, howed⟩
  constructor
  · intro h
    obtain ⟨t, ht, -, -, howed⟩ := hcases h
    have hheld : (m.sessions fd).held = [] := by
      by_contra hheld
      exact hdrop ⟨h, hheld⟩
    rw [ht, howed, hheld, List.nil_append]
  · intro h
    obtain ⟨t, ht, htransitions, hstatus, -⟩ := hcases h
    rw [ht]
    exact ⟨htransitions, hstatus⟩

end Event

/-! ### Runs -/

/-- Over every run without a reset, from any state the worker can be in, the replies
are given to the host once and in order exactly when no cancel falls on a read that
has taken a reply and not delivered it. -/
theorem replies_kept_iff {io : StartIo} {fd : Fin 16} {es₀ es : List HidEvent}
    (hreset : ∀ e ∈ es, ¬ e.Resets fd) :
    RepliesKept fd (Run.final Machine.hidStep (Machine.start io) es₀) es ↔
      Run.Every Machine.hidStep (fun m e => ¬ DropsReply fd m e)
        (Run.final Machine.hidStep (Machine.start io) es₀) es := by
  have hstart : (Run.final Machine.hidStep (Machine.start io) es₀).Orderly fd :=
    Run.final_of_every (P := fun m : Machine => m.Orderly fd) (fun m e _ hm => hm.step e)
      (Run.every_true _ es₀) (.start io fd)
  have hiff := Run.conserves_iff (fun m e _ hm => Machine.Orderly.step hm e)
    (fun m e hreset hm hdrop => hidStep_conserves hm hreset hdrop)
    (fun m e _ _ hdrop => hidStep_loses m hdrop)
    (Run.every_of_mem (fun e he _ => hreset e he) _) hstart
  constructor
  · intro h
    exact hiff.mp h.inOrder
  · intro h
    exact ⟨hiff.mpr h, h.mono fun m e hdrop => hidStep_cancelKeeps m hdrop⟩

/-- A message that does not end sessions does not end this one. -/
theorem HidEvent.not_resets {mem : Mem} {msg : IpcMessage} (h : ¬ VirtualPortal.Resets msg)
    (fd : Fin 16) :
    ¬ (HidEvent.process mem (some msg)).Resets fd := by
  rintro ⟨mem', msg', he, -, hreset⟩
  cases he
  exact h hreset

/-- A status read is cancelled, then a reply is queued and read. -/
def cancelledStatus : List HidEvent := [.readIn 2, .cancelIn 3, .ready 4, .readIn 5]

/-- A read that is cancelled while its status waits loses no reply. -/
theorem cancelledStatus_kept :
    RepliesKept 0 (Run.final Machine.hidStep (Machine.start .ok) [.version 1]) cancelledStatus := by
  refine (replies_kept_iff fun e he => ?_).mpr ⟨?_, ?_, ?_, ?_, trivial⟩
  · simp only [cancelledStatus, List.mem_cons, List.not_mem_nil, or_false] at he
    rcases he with rfl | rfl | rfl | rfl <;> exact HidEvent.not_resets (by unfold Resets; decide) 0
  · exact fun h => h.2 (by decide)
  · exact fun h => h.2 (by decide)
  · exact fun h => h.2 (by decide)
  · exact fun h => h.2 (by decide)

/-- A reply is queued and read, and the read is cancelled. -/
def cancelledReply : List HidEvent := [.ready 2, .readIn 3, .cancelIn 4]

/-- The reply is lost. -/
theorem cancelledReply_lost : (∀ e ∈ cancelledReply, ¬ e.Resets 0) ∧
    ¬ RepliesKept 0 (Run.final Machine.hidStep (Machine.start .ok) [.version 1])
        cancelledReply := by
  constructor
  · intro e he
    simp only [cancelledReply, List.mem_cons, List.not_mem_nil, or_false] at he
    rcases he with rfl | rfl | rfl <;> exact HidEvent.not_resets (by unfold Resets; decide) 0
  · rintro ⟨h, -⟩
    exact absurd (congrArg List.length h) (by decide)

end VirtualPortal
