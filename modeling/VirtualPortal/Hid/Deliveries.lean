/-
# What is delivered to a descriptor

A packet reaches the host when a tick completes the pending read of a session, and
nothing else delivers.  Reads wait in the session of their own descriptor, so the
packets delivered to `fd` by a tick are those of one `Session.v4Tick`
(`deliveredTo_tick`), and the packet is the response the read was given when it was
accepted: in this build `pending_status` is never set (`Machine.AtSubmission`).
-/

import VirtualPortal.Hid.Worker

namespace VirtualPortal

/-- Reads wait in the session of their own descriptor, with the packet they were
given when they were accepted. -/
structure Machine.AtSubmission (m : Machine) : Prop where
  own : ∀ fd msg, (m.sessions fd).read = some msg → msg.fd.toNat = fd.val
  pending : ∀ fd, (m.sessions fd).pendingStatus = false

/-- The machine when `e09_start` returns. -/
def Machine.start (io : StartIo) : Machine := (Machine.zero.e09Start io).1

/-- At the start every session is empty. -/
theorem start_sessions (io : StartIo) (fd : Fin 16) : (Machine.start io).sessions fd = .zero := by
  unfold Machine.start Machine.e09Start Machine.e11Submit
  dsimp only
  split_ifs <;> rfl

/-- IOS has seen no request, and has no page of the library. -/
theorem start_request (io : StartIo) :
    (Machine.start io).requestSeq = 0 ∧ (Machine.start io).page = 0 := by
  unfold Machine.start Machine.e09Start Machine.e11Submit
  dsimp only
  split_ifs <;> exact ⟨rfl, rfl⟩

/-- At the start no read is parked. -/
theorem Machine.AtSubmission.start (io : StartIo) : (Machine.start io).AtSubmission := by
  constructor
  · intro fd msg h
    rw [start_sessions] at h
    cases h
  · intro fd
    rw [start_sessions]
    rfl

section Session

variable {s t : Session} {msg : IpcMessage} {fd : Fin 16} {ticks : U32}

/-- A session with the same reads and replies has the same read parked. -/
theorem Session.SameIo.read (h : s.SameIo t) : t.read = s.read := (congrArg Session.read h.eq :)

/-- A session with the same reads and replies owes the same status. -/
theorem Session.SameIo.pendingStatus (h : s.SameIo t) : t.pendingStatus = s.pendingStatus :=
  (congrArg Session.pendingStatus h.eq :)

/-- A delivery is the packet given to the read, and a status packet is committed. -/
theorem Session.deliver_eq (h : s.pendingStatus = false) (msg : IpcMessage) :
    s.deliver msg =
      (if s.response 0 = letter 'S' then { s with read := none }.e12StatusCommit
        else { s with read := none }, [.deliver msg s.readData s.response]) := by
  have hsame : { s with read := none, pendingStatus := false } = { s with read := none } :=
    calc { s with read := none, pendingStatus := false }
        = { s with read := none, pendingStatus := s.pendingStatus } := by rw [h]
      _ = { s with read := none } := rfl
  unfold Session.deliver
  simp only [h, Bool.false_eq_true, if_false, hsame]

/-- After a delivery no status is owed. -/
theorem Session.deliver_pending (s : Session) (msg : IpcMessage) :
    (s.deliver msg).1.pendingStatus = false := by
  have hcommit (s : Session) : s.e12StatusCommit.pendingStatus = s.pendingStatus := by
    unfold Session.e12StatusCommit
    dsimp only
    split_ifs <;> rfl
  unfold Session.deliver
  dsimp only
  split_ifs
  · exact hcommit _
  · rfl
  · exact hcommit _
  · rfl

/-- A delivery goes to the descriptor of its message. -/
theorem deliveredTo_deliver (msg : IpcMessage) (data : U32) (packet : Bytes 32) :
    deliveredTo fd [.deliver msg data packet] = if msg.fd.toNat = fd.val then [packet] else [] := by
  show List.filterMap (Effect.deliveredTo fd) [Effect.deliver msg data packet] = _
  split_ifs with h
  · exact List.filterMap_cons_some (if_pos h)
  · exact List.filterMap_cons_none (if_neg h)

/-- A reply is queued for its descriptor. -/
theorem queuedFor_queued (fd' : Fin 16) (reply : Bytes 32) :
    queuedFor fd [.queued fd' reply] = if fd' = fd then [reply] else [] := by
  show List.filterMap (Effect.queuedFor fd) [Effect.queued fd' reply] = _
  split_ifs with h
  · exact List.filterMap_cons_some (if_pos h)
  · exact List.filterMap_cons_none (if_neg h)

/-- The packets of a tick go to the descriptor of the read. -/
theorem deliveredTo_v4Tick_ne (hown : ∀ msg, s.read = some msg → msg.fd.toNat ≠ fd.val) :
    deliveredTo fd (s.v4Tick ticks).2 = [] := by
  rcases s.v4Tick_cases ticks with h | ⟨msg, hread, -, h⟩
  · rw [h]; rfl
  · obtain ⟨data, packet, hout⟩ : ∃ data packet, (s.deliver msg).2 = [.deliver msg data packet] :=
      ⟨_, _, rfl⟩
    rw [h, hout, deliveredTo_deliver, if_neg (hown msg hread)]

end Session

/-! ### Requests -/

section Requests

variable {m : Machine} {fd : Fin 16} {mem : Mem} {msg : IpcMessage} {t : Session}
variable {out : List Effect}

/-- An answer delivers and queues nothing. -/
theorem Session.Answered.quiet {s : Session} {answer : List Effect} (h : s.Answered msg answer)
    (fd : Fin 16) : deliveredTo fd answer = [] ∧ queuedFor fd answer = [] := by
  rcases h with ⟨r, rfl⟩ | ⟨rfl, -⟩ <;> exact ⟨rfl, rfl⟩

/-- What a cancel acknowledges delivers and queues nothing. -/
theorem cancelEffects_quiet (s : Session) (fd : Fin 16) :
    deliveredTo fd s.cancelEffects = [] ∧ queuedFor fd s.cancelEffects = [] := by
  unfold Session.cancelEffects
  cases s.read <;> cases s.change <;> exact ⟨rfl, rfl⟩

/-- No request delivers a packet. -/
theorem Handled.deliveredTo (h : Handled m fd mem msg t out) (fd' : Fin 16) :
    VirtualPortal.deliveredTo fd' out = [] := by
  cases h with
  | answer answer hanswer => exact (hanswer.quiet fd').1
  | command reply t wrote answer _ _ _ hwrote hanswer =>
      rw [List.cons_append, ← List.singleton_append, deliveredTo_append, deliveredTo_append,
        deliveredTo_of_quiet hwrote.quiet, (hanswer.quiet fd').1]
      rfl
  | reset _ t last _ _ _ _ hlast =>
      rw [deliveredTo_append, (cancelEffects_quiet _ fd').1]
      rcases hlast with rfl | ⟨r, rfl⟩ <;> rfl
  | _ => rfl

/-- A request queues replies for its own descriptor alone. -/
theorem Handled.queuedFor_ne (h : Handled m fd mem msg t out) {fd' : Fin 16} (hne : fd' ≠ fd) :
    queuedFor fd' out = [] := by
  cases h with
  | answer answer hanswer => exact (hanswer.quiet fd').2
  | command reply t wrote answer _ _ _ hwrote hanswer =>
      rw [List.cons_append, ← List.singleton_append, queuedFor_append, queuedFor_append,
        queuedFor_of_quiet hwrote.quiet, (hanswer.quiet fd').2, queuedFor_queued, if_neg hne.symm]
      rfl
  | reset _ t last _ _ _ _ hlast =>
      rw [queuedFor_append, (cancelEffects_quiet _ fd').2]
      rcases hlast with rfl | ⟨r, rfl⟩ <;> rfl
  | _ => rfl

/-- What is pending after a request was pending before it, or is the request. -/
theorem Handled.read (h : Handled m fd mem msg t out) {req : IpcMessage}
    (hread : t.read = some req) :
    req = msg ∨ (m.sessions fd).read = some req := by
  cases h with
  | answer => exact Or.inr hread
  | describe => exact Or.inr hread
  | park => exact Or.inr hread
  | command reply t wrote answer hroom hreply ht hwrote hanswer =>
      have hpush : ((m.sessions fd).v4Push reply).2.read = (m.sessions fd).read := by
        rw [Session.v4Push, if_neg hroom]
      rw [← hpush]
      exact Or.inr ((congrArg Session.read ht.1).symm.trans hread :)
  | startReply => exact Or.inl (Option.some.inj hread).symm
  | startStatus => exact Or.inl (Option.some.inj hread).symm
  | cancel => cases hread
  | reset _ t last hnone => rw [hnone] at hread; cases hread

/-- A request handled where no status is owed leaves none owed. -/
theorem Handled.pending (h : Handled m fd mem msg t out)
    (hpending : (m.sessions fd).pendingStatus = false) : t.pendingStatus = false := by
  cases h with
  | command reply t wrote answer hroom hreply ht hwrote hanswer =>
      have hpush : ((m.sessions fd).v4Push reply).2.pendingStatus =
          (m.sessions fd).pendingStatus := by
        rw [Session.v4Push, if_neg hroom]
      exact (congrArg Session.pendingStatus ht.1 :).trans (hpush.trans hpending)
  | startReply => rfl
  | startStatus => rfl
  | reset _ t last _ _ _ ht =>
      by_contra h
      rw [ht (eq_true_of_ne_false h)] at hpending
      cases hpending
  | _ => exact hpending

end Requests
/-! ### Events -/

section Events

variable {m : Machine} {fd : Fin 16}

/-- A message given to the worker concerns the session of its descriptor, or none. -/
theorem Machine.process_cases (m : Machine) (fd : Fin 16) (mem : Mem) (msg : Option IpcMessage) :
    (∃ req, msg = some req ∧ req.fd.toNat = fd.val ∧
        Handled m fd mem req ((m.v4Process mem msg).1.sessions fd) (m.v4Process mem msg).2) ∨
      (m.v4Process mem msg).1.sessions fd = m.sessions fd ∧
        queuedFor fd (m.v4Process mem msg).2 = [] ∧ deliveredTo fd (m.v4Process mem msg).2 = [] ∧
        ∀ req, msg = some req → req.fd.toNat ≠ fd.val := by
  cases msg with
  | none => exact Or.inr ⟨rfl, rfl, rfl, nofun⟩
  | some req =>
      by_cases hfd : req.fd.toNat = fd.val
      · exact Or.inl ⟨req, rfl, hfd, (m.v4Process_handled fd mem req hfd).1⟩
      · have hne (req' : IpcMessage) (h : some req = some req') : req'.fd.toNat ≠ fd.val :=
          Option.some.inj h ▸ hfd
        by_cases hlt : req.fd.toNat < 16
        · obtain ⟨hhandled, hframe⟩ := m.v4Process_handled ⟨req.fd.toNat, hlt⟩ mem req rfl
          have hfd' : fd ≠ ⟨req.fd.toNat, hlt⟩ := fun h => hfd (congrArg Fin.val h).symm
          exact Or.inr ⟨hframe fd hfd', hhandled.queuedFor_ne hfd', hhandled.deliveredTo fd, hne⟩
        · rw [m.v4Process_no_fd mem req (by omega)]
          exact Or.inr ⟨rfl, rfl, rfl, hne⟩

/-- A message delivers nothing: reads are delivered at a tick. -/
theorem deliveredTo_process (m : Machine) (fd : Fin 16) (mem : Mem) (msg : Option IpcMessage) :
    deliveredTo fd (m.v4Process mem msg).2 = [] := by
  rcases m.process_cases fd mem msg with ⟨req, -, -, h⟩ | ⟨-, -, h, -⟩
  · exact h.deliveredTo fd
  · exact h

/-- Where `f` gives something for one element only, that is all it gives. -/
theorem flatMap_eq_of_ne {α β : Type*} {f : α → List β} {a : α} {l : List α} (hnodup : l.Nodup)
    (hmem : a ∈ l) (h : ∀ b ≠ a, f b = []) : l.flatMap f = f a := by
  induction l with
  | nil => cases hmem
  | cons b l ih =>
      obtain ⟨hnot, hl⟩ := List.nodup_cons.mp hnodup
      rw [List.flatMap_cons]
      rcases List.mem_cons.mp hmem with rfl | hmem
      · rw [List.flatMap_eq_nil_iff.mpr fun b hb => h b fun he => hnot (he ▸ hb), List.append_nil]
      · rw [h b fun he => hnot (he ▸ hmem), List.nil_append]
        exact ih hl hmem

/-- The packets of a tick are those of the session. -/
theorem deliveredTo_tick (hm : m.AtSubmission) (line : RequestLine) (send : Int) :
    deliveredTo fd (m.v4Tick line send).2 =
      deliveredTo fd (((m.polled line send).sessions fd).v4Tick (m.polled line send).ticks).2 := by
  obtain ⟨quiet, hquiet, hout⟩ := m.v4Tick_effects line send
  rw [hout, deliveredTo_append, deliveredTo_of_quiet hquiet, List.nil_append, deliveredTo,
    List.filterMap_flatMap]
  refine flatMap_eq_of_ne (List.nodup_finRange 16) (List.mem_finRange fd) fun fd' hne =>
    deliveredTo_v4Tick_ne fun msg hread => ?_
  rw [(m.polled_sameIo line send fd').read] at hread
  rw [hm.own fd' msg hread]
  exact fun h => hne (Fin.ext h)

/-- A tick queues no reply. -/
theorem queuedFor_tick (line : RequestLine) (send : Int) :
    queuedFor fd (m.v4Tick line send).2 = [] := by
  obtain ⟨quiet, hquiet, hout⟩ := m.v4Tick_effects line send
  rw [hout, queuedFor_append, queuedFor_of_quiet hquiet, List.nil_append, queuedFor,
    List.filterMap_flatMap]
  refine List.flatMap_eq_nil_iff.mpr fun fd' _ => ?_
  rcases ((m.polled line send).sessions fd').v4Tick_cases (m.polled line send).ticks with
    h | ⟨msg, -, -, h⟩ <;> rw [h] <;> rfl

/-- Every event keeps what is known of parked reads. -/
theorem Machine.AtSubmission.step (hm : m.AtSubmission) (e : HidEvent) :
    (m.hidStep e).1.AtSubmission := by
  cases e with
  | process mem msg =>
      constructor
      · intro fd req hread
        rcases m.process_cases fd mem msg with ⟨req', rfl, hfd, h⟩ | ⟨h, -⟩
        · rcases h.read hread with rfl | hread
          · exact hfd
          · exact hm.own fd req hread
        · exact hm.own fd req (h ▸ hread)
      · intro fd
        rcases m.process_cases fd mem msg with ⟨req', rfl, -, h⟩ | ⟨h, -⟩
        · exact h.pending (hm.pending fd)
        · exact (congrArg Session.pendingStatus h).trans (hm.pending fd)
  | tick line send =>
      have hpolled (fd : Fin 16) := m.polled_sameIo line send fd
      constructor
      · intro fd req hread
        have hread' : ((m.v4Tick line send).1.sessions fd).read = some req := hread
        rw [Machine.sessions_v4Tick] at hread'
        rcases ((m.polled line send).sessions fd).v4Tick_cases (m.polled line send).ticks with
          h | ⟨msg, -, -, h⟩
        · rw [h, (hpolled fd).read] at hread'
          exact hm.own fd req hread'
        · rw [h, (Session.deliver_keeps _ msg).1] at hread'
          cases hread'
      · intro fd
        show ((m.v4Tick line send).1.sessions fd).pendingStatus = false
        rw [Machine.sessions_v4Tick]
        rcases ((m.polled line send).sessions fd).v4Tick_cases (m.polled line send).ticks with
          h | ⟨msg, -, -, h⟩
        · rw [h, (hpolled fd).pendingStatus]
          exact hm.pending fd
        · rw [h, Session.deliver_pending]
  | complete =>
      constructor
      · intro fd req hread
        rw [show (m.hidStep .complete).1.sessions fd = m.e09Complete.1.sessions fd from rfl,
          (m.e09Complete_sameIo fd).read] at hread
        exact hm.own fd req hread
      · intro fd
        exact (m.e09Complete_sameIo fd).pendingStatus.trans (hm.pending fd)
  | outside st route => exact ⟨hm.own, hm.pending⟩

end Events
end VirtualPortal
