/-
# When a read completes

A read that is accepted gets a time of `v4_ticks` at which it is due, 11 ticks later
for a queued reply and one for a status packet, and a tick delivers it once the signed
difference of the two is not negative.  The counter wraps modulo 2^32, but a pending
read is never more than 11 ticks away from its time (`Session.Awaits`), so the
difference is small and its sign is right (`due_iff`).

`read_deadline` counts the ticks: none before the last one completes the read, and
that one does.
-/

import VirtualPortal.Hid.Deliveries
import VirtualPortal.Hid.MenuState

namespace VirtualPortal

/-- The number of ticks in a run. -/
def ticksIn (es : List HidEvent) : ℕ :=
  es.countP fun
    | .tick _ _ => true
    | _ => false

/-- The ticks in two lists of events. -/
theorem ticksIn_append (es es' : List HidEvent) : ticksIn (es ++ es') = ticksIn es + ticksIn es' :=
  List.countP_append

/-- The ticks a read waits for that a session accepts. -/
def Session.readDelay (s : Session) : ℕ := if s.count ≠ 0 then 11 else 1

/-- The event leaves the pending read of `fd` alone. -/
def HidEvent.Spares (fd : Fin 16) (e : HidEvent) : Prop := ¬ e.CancelsRead fd ∧ ¬ e.Resets fd

/-- The session waits for `k` more ticks before it delivers `msg`. -/
structure Session.Awaits (s : Session) (ticks : U32) (msg : IpcMessage) (data : U32) (k : ℕ) :
    Prop where
  read : s.read = some msg
  data : s.readData = data
  due : s.due = ticks + BitVec.ofNat 32 k
  le : k ≤ 11

/-- The signed comparison of `v4_tick`, at any value of the counter. -/
theorem due_iff (ticks : U32) {k : ℕ} (hk : k ≤ 11) :
    0 ≤ (ticks - (ticks + BitVec.ofNat 32 k)).toInt ↔ k = 0 := by
  have hsub : ticks - (ticks + BitVec.ofNat 32 k) = 0 - BitVec.ofNat 32 k := by
    generalize BitVec.ofNat 32 k = x
    bv_omega
  have hsmall : ∀ k : Fin 12, 0 ≤ ((0 : U32) - BitVec.ofNat 32 k.val).toInt ↔ k.val = 0 := by decide
  rw [hsub]
  exact hsmall ⟨k, by omega⟩

section Session

variable {s t : Session} {ticks data : U32} {msg : IpcMessage} {k : ℕ}

/-- What a read waits for depends on the read and its due tick. -/
theorem Session.Awaits.congr (h : s.Awaits ticks msg data k) (hread : t.read = s.read)
    (hdata : t.readData = s.readData) (hdue : t.due = s.due) : t.Awaits ticks msg data k :=
  ⟨hread.trans h.read, hdata.trans h.data, hdue.trans h.due, h.le⟩

/-- A session with the same reads waits as before. -/
theorem Session.SameIo.awaits (h : s.SameIo t) (hs : s.Awaits ticks msg data k) :
    t.Awaits ticks msg data k :=
  hs.congr h.read (congrArg Session.readData h.eq :) (congrArg Session.due h.eq :)

/-- The counter counts the wait down. -/
theorem Session.Awaits.next (h : s.Awaits ticks msg data (k + 1)) :
    s.Awaits (ticks + 1) msg data k := by
  refine ⟨h.read, h.data, ?_, Nat.le_of_succ_le h.le⟩
  have hone : BitVec.ofNat 32 (k + 1) = 1 + BitVec.ofNat 32 k := by
    rw [Nat.add_comm, BitVec.ofNat_add]
    rfl
  rw [h.due, hone, BitVec.add_assoc]

/-- A tick delivers the read when the wait is over, and not before. -/
theorem Session.Awaits.v4Tick (h : s.Awaits ticks msg data k) :
    s.v4Tick ticks = if k = 0 then s.deliver msg else (s, []) := by
  unfold Session.v4Tick
  rw [h.read]
  dsimp only
  rw [h.due]
  by_cases hk : k = 0
  · rw [if_pos hk, if_pos ((due_iff ticks h.le).mpr hk)]
  · rw [if_neg hk, if_neg fun hdue => hk ((due_iff ticks h.le).mp hdue)]

end Session

section Events

/-- A change of the figures takes no tick. -/
theorem FigureChange.ticks {m m' : Machine} {sane rescans : Prop}
    (h : FigureChange sane rescans m m') : m'.ticks = m.ticks := by
  cases h with
  | keep _ ht => exact ht
  | event _ _ _ ht => exact ht
  | rescan _ _ ht => exact ht

/-- A tick counts before it polls. -/
theorem Machine.polled_ticks (m : Machine) (line : RequestLine) (send : Int) :
    (m.polled line send).ticks = m.ticks + 1 := by
  have hdisk (m : Machine) : (m.pollDisk send).1.ticks = m.ticks :=
    (m.pollDisk_figures send : FigureChange _ False _ _).ticks
  unfold polled e09Poll
  split_ifs
  · exact (hdisk _).trans (e11Mailbox_figures { m with ticks := m.ticks + 1 } line).ticks
  · exact hdisk _

variable {m : Machine} {fd : Fin 16} {msg : IpcMessage} {data : U32} {k : ℕ}

/-- A request that does not release the read of its descriptor leaves it pending. -/
theorem Handled.awaits {mem : Mem} {req : IpcMessage} {t : Session} {out : List Effect}
    (h : Handled m fd mem req t out) (hcancel : ¬ CancelsRead mem req) (hreset : ¬ Resets req)
    (hs : (m.sessions fd).Awaits m.ticks msg data k) : t.Awaits m.ticks msg data k := by
  cases h with
  | answer => exact hs
  | describe => exact hs.congr rfl rfl rfl
  | park => exact hs.congr rfl rfl rfl
  | command reply t wrote answer hroom hreply ht hwrote hanswer =>
      have hpush : ((m.sessions fd).v4Push reply).2.Awaits m.ticks msg data k := by
        rw [Session.v4Push, if_neg hroom]
        exact hs.congr rfl rfl rfl
      exact hpush.congr (congrArg Session.read ht.1 :) (congrArg Session.readData ht.1 :)
        (congrArg Session.due ht.1 :)
  | startReply data' hread => rw [hs.read] at hread; cases hread
  | startStatus data' hread => rw [hs.read] at hread; cases hread
  | cancel req' hcancel' => exact absurd hcancel' hcancel
  | reset hreset' => exact absurd hreset' hreset

/-- An event that is not a tick leaves the read pending. -/
theorem Session.Awaits.step (hs : (m.sessions fd).Awaits m.ticks msg data k) {e : HidEvent}
    (he : e.Spares fd) (htick : ∀ line send, e ≠ .tick line send) :
    ((m.hidStep e).1.sessions fd).Awaits (m.hidStep e).1.ticks msg data k ∧
      deliveredTo fd (m.hidStep e).2 = [] := by
  cases e with
  | tick line send => exact absurd rfl (htick line send)
  | process mem req =>
      refine ⟨?_, deliveredTo_process m fd mem req⟩
      show ((m.v4Process mem req).1.sessions fd).Awaits (m.v4Process mem req).1.ticks msg data k
      rw [(m.v4Process_requests mem req).menu.2]
      rcases m.process_cases fd mem req with ⟨req', rfl, hfd, h⟩ | ⟨h, -⟩
      · exact h.awaits (fun hc => he.1 ⟨mem, req', rfl, hfd, hc⟩)
          (fun hr => he.2 ⟨mem, req', rfl, hfd, hr⟩) hs
      · rw [h]
        exact hs
  | complete =>
      have hticks : m.e09Complete.1.ticks = m.ticks :=
        (m.e09Complete_figures : FigureChange _ False _ _).ticks
      refine ⟨?_, deliveredTo_of_quiet m.e09Complete_quiet⟩
      show (m.e09Complete.1.sessions fd).Awaits m.e09Complete.1.ticks msg data k
      rw [hticks]
      exact (m.e09Complete_sameIo fd).awaits hs
  | outside st route => exact ⟨hs, rfl⟩

/-- A tick that is not the last leaves the read pending; the last one delivers it. -/
theorem Session.Awaits.tick (hm : m.AtSubmission)
    (hs : (m.sessions fd).Awaits m.ticks msg data (k + 1)) (line : RequestLine) (send : Int) :
    (k ≠ 0 → ((m.v4Tick line send).1.sessions fd).Awaits (m.v4Tick line send).1.ticks msg data k ∧
      deliveredTo fd (m.v4Tick line send).2 = []) ∧
    (k = 0 → ((m.v4Tick line send).1.sessions fd).read = none ∧
      ∃ packet, deliveredTo fd (m.v4Tick line send).2 = [packet] ∧
        .deliver msg data packet ∈ (m.v4Tick line send).2) := by
  have hpolled : ((m.polled line send).sessions fd).Awaits
      (m.polled line send).ticks msg data k := by
    rw [m.polled_ticks]
    exact (m.polled_sameIo line send fd).awaits hs.next
  have hdelivered := @deliveredTo_tick m fd hm line send
  rw [hpolled.v4Tick] at hdelivered
  have hsession := m.sessions_v4Tick line send fd
  rw [hpolled.v4Tick] at hsession
  refine ⟨fun hk => ?_, fun hk => ?_⟩
  · rw [if_neg hk] at hdelivered hsession
    refine ⟨?_, hdelivered⟩
    rw [hsession]
    exact hpolled
  · rw [if_pos hk] at hdelivered hsession
    obtain ⟨packet, hpacket⟩ : ∃ packet,
        (((m.polled line send).sessions fd).deliver msg).2 = [.deliver msg data packet] :=
      ⟨_, by rw [Session.deliver_eq ((m.polled_sameIo line send fd).pendingStatus.trans
        (hm.pending fd)), ← hpolled.data]⟩
    refine ⟨by rw [hsession, (Session.deliver_keeps _ msg).1], packet, ?_, ?_⟩
    · rw [hdelivered, hpacket, deliveredTo_deliver, if_pos (hm.own fd msg hs.read)]
    · obtain ⟨quiet, -, hout⟩ := m.v4Tick_effects line send
      rw [hout]
      refine List.mem_append_right _ (List.mem_flatMap.mpr ⟨fd, List.mem_finRange fd, ?_⟩)
      rw [hpolled.v4Tick, if_pos hk, hpacket]
      exact List.mem_singleton_self _

/-- Fewer ticks than the read waits for leave it pending. -/
theorem Session.Awaits.run (hm : m.AtSubmission) (hs : (m.sessions fd).Awaits m.ticks msg data k)
    {es : List HidEvent} (hes : ∀ e ∈ es, e.Spares fd) (hticks : ticksIn es < k) :
    (Run.final Machine.hidStep m es).AtSubmission ∧
      ((Run.final Machine.hidStep m es).sessions fd).Awaits (Run.final Machine.hidStep m es).ticks
        msg data (k - ticksIn es) ∧
      deliveredTo fd (Run.outputs Machine.hidStep m es) = [] := by
  induction es generalizing m k with
  | nil => exact ⟨hm, hs, rfl⟩
  | cons e es ih =>
      rw [Run.final_cons, Run.outputs_cons, deliveredTo_append]
      obtain ⟨he, htail⟩ := List.forall_mem_cons.mp hes
      by_cases htick : ∃ line send, e = .tick line send
      · obtain ⟨line, send, rfl⟩ := htick
        have hcount : ticksIn (.tick line send :: es) = ticksIn es + 1 :=
          List.countP_cons_of_pos rfl
        obtain ⟨k, rfl⟩ := Nat.exists_eq_succ_of_ne_zero (by omega : k ≠ 0)
        obtain ⟨hnext, hnone⟩ := (hs.tick hm line send).1 (by omega)
        obtain ⟨hm', hs', hout⟩ := ih (hm.step (.tick line send)) hnext htail (by omega)
        have hsub : k + 1 - ticksIn (.tick line send :: es) = k - ticksIn es := by omega
        rw [hsub]
        exact ⟨hm', hs', List.append_eq_nil_iff.mpr ⟨hnone, hout⟩⟩
      · have hcount : ticksIn (e :: es) = ticksIn es := by
          refine List.countP_cons_of_neg fun h => ?_
          cases e with
          | tick line send => exact htick ⟨line, send, rfl⟩
          | _ => cases h
        rw [hcount] at hticks ⊢
        obtain ⟨hnext, hnone⟩ := hs.step he fun line send h => htick ⟨line, send, h⟩
        obtain ⟨hm', hs', hout⟩ := ih (hm.step e) hnext htail hticks
        exact ⟨hm', hs', List.append_eq_nil_iff.mpr ⟨hnone, hout⟩⟩

/-- A read that is accepted waits from then on. -/
theorem Session.awaits_accepted {mem : Mem} {req : Option IpcMessage}
    (hnone : (m.sessions fd).read = none)
    (hread : ((m.hidStep (.process mem req)).1.sessions fd).read = some msg) :
    ((m.hidStep (.process mem req)).1.sessions fd).Awaits (m.hidStep (.process mem req)).1.ticks msg
      ((m.hidStep (.process mem req)).1.sessions fd).readData (m.sessions fd).readDelay := by
  have hticks : (m.hidStep (.process mem req)).1.ticks = m.ticks :=
    (m.v4Process_requests mem req).menu.2
  rw [hticks]
  rcases m.process_cases fd mem req with ⟨req', rfl, -, h⟩ | ⟨h, -⟩
  · have hnew : ((m.v4Process mem (some req')).1.sessions fd).read = some msg := hread
    show ((m.v4Process mem (some req')).1.sessions fd).Awaits m.ticks msg
      ((m.v4Process mem (some req')).1.sessions fd).readData (m.sessions fd).readDelay
    generalize (m.v4Process mem (some req')).1.sessions fd = t at h hnew ⊢
    generalize (m.v4Process mem (some req')).2 = out at h
    unfold Session.readDelay
    cases h with
    | startReply data hread' hcount =>
        refine ⟨hnew, rfl, ?_, by rw [if_pos hcount]⟩
        rw [if_pos hcount]
        rfl
    | startStatus data hread' hcount =>
        refine ⟨hnew, rfl, ?_, by split_ifs <;> omega⟩
        rw [if_neg (not_not.mpr hcount)]
        rfl
    | command reply t wrote answer hroom hreply ht =>
        have hpush : ((m.sessions fd).v4Push reply).2.read = (m.sessions fd).read := by
          rw [Session.v4Push, if_neg hroom]
        rw [(congrArg Session.read ht.1 :), hpush, hnone] at hnew
        cases hnew
    | cancel => cases hnew
    | reset _ t last hgone => rw [hgone] at hnew; cases hnew
    | _ => exact absurd (hnone.symm.trans hnew) (by simp)
  · have hold : ((m.v4Process mem req).1.sessions fd).read = some msg := hread
    rw [h, hnone] at hold
    cases hold

/-- In the run `es` the read `msg` is pending for `n - 1` ticks, and the tick after
them completes it. -/
structure Machine.Completes (m : Machine) (fd : Fin 16) (msg : IpcMessage) (n : ℕ)
    (es : List HidEvent) : Prop where
  pending : ticksIn es < n →
    ((Run.final Machine.hidStep m es).sessions fd).read = some msg ∧
      deliveredTo fd (Run.outputs Machine.hidStep m es) = []
  last : ticksIn es + 1 = n → ∀ line send,
    (((Run.final Machine.hidStep m es).hidStep (.tick line send)).1.sessions fd).read = none ∧
      ∃ packet,
        deliveredTo fd ((Run.final Machine.hidStep m es).hidStep (.tick line send)).2 = [packet] ∧
          .deliver msg (m.sessions fd).readData packet ∈
            ((Run.final Machine.hidStep m es).hidStep (.tick line send)).2

/-- A read completes by the tick that it was accepted for. -/
theorem read_deadline (hm : m.AtSubmission) {mem : Mem} {req : Option IpcMessage}
    (hnone : (m.sessions fd).read = none)
    (hread : ((m.hidStep (.process mem req)).1.sessions fd).read = some msg) {es : List HidEvent}
    (hes : ∀ e ∈ es, e.Spares fd) :
    (m.hidStep (.process mem req)).1.Completes fd msg (m.sessions fd).readDelay es := by
  have hawaits := Session.awaits_accepted hnone hread
  have hm' := hm.step (.process mem req)
  refine ⟨fun hfew => ?_, fun hlast line send => ?_⟩
  · obtain ⟨-, hpending, hout⟩ := hawaits.run hm' hes hfew
    exact ⟨hpending.read, hout⟩
  · obtain ⟨hfinal, hpending, -⟩ := hawaits.run hm' hes (by omega)
    have hone : (m.sessions fd).readDelay - ticksIn es = 0 + 1 := by omega
    rw [hone] at hpending
    exact (hpending.tick hfinal line send).2 rfl

end Events
end VirtualPortal
