/-
# The reply queue of a session

`fifo`, `head` and `count` of a session are a ring buffer of eight cells
(`Session.ring`), and the three calls that touch them are its operations:
`v4_push`, an accepted read of `v4_transfer`, which takes the oldest reply if there
is one, and `v4_cancel`.  The counts are kept in bytes, which nothing in a queue of
eight overflows.

`reply_queue`: from a zeroed session on, any sequence of these calls answers as a
queue of capacity eight does.
-/

import VirtualPortal.Hid.Control

namespace VirtualPortal

/-- A call that touches the queue of a session. -/
inductive SessionCall where
  /-- `v4_push` -/
  | push (response : Bytes 32)
  /-- An interrupt-IN read that `v4_transfer` accepts. -/
  | read (msg : IpcMessage) (data : U32)
  /-- `v4_cancel` -/
  | cancel

/-- The operation on the queue that a call is. -/
def SessionCall.op : SessionCall → QueueOp (Bytes 32)
  | .push response => .push response
  | .read _ _ => .pop
  | .cancel => .reset

/-- One call for the session of `fd`, with what it answers: whether `v4_push`
returns 0, the reply a read takes. -/
def Machine.call (fd : Fin 16) (m : Machine) :
    SessionCall → Machine × List (QueueAnswer (Bytes 32))
  | .push response =>
      let (r, s) := (m.sessions fd).v4Push response
      (m.setSession fd s, [.pushed (r = 0)])
  | .read msg data =>
      let next := m.startRead fd msg data
      (next, [.popped (if (m.sessions fd).count = 0 then none
        else some (next.sessions fd).response)])
  | .cancel => (m.setSession fd (m.sessions fd).v4Cancel.1, [])

/-- The queue of a session as a ring buffer. -/
def Session.ring (s : Session) : Ring.State 8 (Bytes 32) := ⟨s.fifo, s.head, s.count⟩

/-- What a call leaves as it is: a push that finds eight replies changes nothing, and
no queued reply is overwritten. -/
structure CallKeeps (fd : Fin 16) (m : Machine) (c : SessionCall) : Prop where
  refused : ∀ response, c = .push response →
    (((m.sessions fd).v4Push response).1 = -8 ↔ (m.sessions fd).replies.length = 8) ∧
      ((m.sessions fd).replies.length = 8 →
        (m.sessions fd).v4Push response = (-8, m.sessions fd))
  entries : ∀ i < (m.sessions fd).count,
    ((m.call fd c).1.sessions fd).fifo (Ring.index Session.fifo_pos (m.sessions fd).head i) =
      (m.sessions fd).fifo (Ring.index Session.fifo_pos (m.sessions fd).head i)

section Calls

variable {m : Machine} {fd : Fin 16}

/-- The session that is set is the one read. -/
theorem sessions_setSession_self (s : Session) : (m.setSession fd s).sessions fd = s :=
  Function.update_self ..

/-- Each call is its operation on the ring buffer. -/
theorem call_ring (h : (m.sessions fd).ring.Valid) (c : SessionCall) :
    ((m.call fd c).1.sessions fd).ring =
        (Ring.step Session.fifo_pos (m.sessions fd).ring c.op).1 ∧
      (m.call fd c).2 = (Ring.step Session.fifo_pos (m.sessions fd).ring c.op).2 := by
  have hcount : (m.sessions fd).count ≤ 8 := h.count
  cases c with
  | push response =>
      by_cases hfull : (m.sessions fd).count = 8
      · have hpush : (m.sessions fd).v4Push response = (-8, m.sessions fd) := if_pos hfull
        have hstep : Ring.step Session.fifo_pos (m.sessions fd).ring (.push response) =
            ((m.sessions fd).ring, [.pushed false]) := if_pos hfull
        simp only [Machine.call, SessionCall.op, hpush, hstep, sessions_setSession_self]
        exact ⟨trivial, rfl⟩
      · have hring : (m.sessions fd).ring.count ≠ 8 := hfull
        -- a byte holds the new count
        have hmod : ((m.sessions fd).count + 1) % 256 = (m.sessions fd).count + 1 :=
          Nat.mod_eq_of_lt (by omega)
        simp only [Machine.call, SessionCall.op, Ring.step, Session.v4Push, if_neg hfull,
          if_neg hring, sessions_setSession_self, hmod]
        exact ⟨rfl, rfl⟩
  | read msg data =>
      simp only [Machine.call, SessionCall.op, Ring.step, Machine.startRead,
        sessions_setSession_self]
      by_cases hempty : (m.sessions fd).count = 0
      · rw [if_neg (not_not_intro hempty), if_pos hempty,
          if_pos (show (m.sessions fd).ring.count = 0 from hempty)]
        exact ⟨rfl, rfl⟩
      · rw [if_pos hempty, if_neg hempty,
          if_neg (show ¬ (m.sessions fd).ring.count = 0 from hempty)]
        exact ⟨rfl, rfl⟩
  | cancel =>
      simp only [Machine.call, SessionCall.op, Ring.step, sessions_setSession_self]
      exact ⟨rfl, trivial⟩

/-- A push that finds eight replies changes nothing, and no call overwrites a reply. -/
theorem call_keeps (h : (m.sessions fd).ring.Valid) (c : SessionCall) : CallKeeps fd m c := by
  constructor
  · rintro response rfl
    have hlength : (m.sessions fd).replies.length = (m.sessions fd).count :=
      Ring.length_contents ..
    unfold Session.v4Push
    rw [hlength]
    split_ifs with hfull
    · exact ⟨⟨fun _ => hfull, fun _ => rfl⟩, fun _ => rfl⟩
    · exact ⟨⟨fun h => absurd h (by decide), fun h => absurd h hfull⟩, fun h => absurd h hfull⟩
  · intro i hi
    have hcells := congrArg Ring.State.cells (call_ring h c).1
    have hkept := Ring.step_cells Session.fifo_pos h c.op hi
    exact (congrFun hcells _).trans hkept

end Calls

/-- **The replies of a session are a queue of capacity eight.**  From a zeroed
session on, `head` and `count` stay in bounds, the queue and the answers are those of
the queue `Fifo.step 8`, a push is refused with `-8` exactly when eight replies are
queued, and no queued reply is overwritten. -/
theorem reply_queue (m : Machine) (fd : Fin 16) (calls : List SessionCall) :
    let m₀ := m.setSession fd .zero
    let s := (Run.final (Machine.call fd) m₀ calls).sessions fd
    (s.head < 8 ∧ s.count ≤ 8) ∧
      s.replies = Run.final (Fifo.step 8) [] (calls.map SessionCall.op) ∧
      Run.outputs (Machine.call fd) m₀ calls =
        Run.outputs (Fifo.step 8) [] (calls.map SessionCall.op) ∧
      Run.Every (Machine.call fd) (CallKeeps fd) m₀ calls := by
  intro m₀ s
  have hzero : (m₀.sessions fd).ring = ⟨fun _ => .zero 32, 0, 0⟩ :=
    congrArg Session.ring (sessions_setSession_self Session.zero)
  have hvalid : (m₀.sessions fd).ring.Valid := by
    rw [hzero]
    exact ⟨by decide, by decide⟩
  have hstep (m : Machine) (q : List (Bytes 32)) (c : SessionCall)
      (hR : (m.sessions fd).ring.Valid ∧ (m.sessions fd).replies = q) :
      (((m.call fd c).1.sessions fd).ring.Valid ∧
          ((m.call fd c).1.sessions fd).replies = (Fifo.step 8 q c.op).1) ∧
        (m.call fd c).2 = (Fifo.step 8 q c.op).2 := by
    obtain ⟨hr, rfl⟩ := hR
    obtain ⟨hring, hanswer⟩ := call_ring hr c
    obtain ⟨hnext, hqueue, hout⟩ := Ring.step_refines Session.fifo_pos hr c.op
    exact ⟨⟨hring ▸ hnext, (congrArg (Ring.State.queue Session.fifo_pos) hring).trans hqueue⟩,
      hanswer.trans hout⟩
  obtain ⟨⟨hfinal, hqueue⟩, hout⟩ := Run.simulates hstep calls ⟨hvalid, rfl⟩
  have hnil : (m₀.sessions fd).replies = [] := congrArg (Ring.State.queue Session.fifo_pos) hzero
  have hmap := @Run.run_map _ _ _ (Fifo.step 8) _ SessionCall.op (m₀.sessions fd).replies calls
  rw [hnil] at hqueue hout hmap
  refine ⟨⟨hfinal.head, hfinal.count⟩, hqueue.trans hmap.1.symm, hout.trans hmap.2.symm, ?_⟩
  exact Run.every_of_every (P := fun m => (m.sessions fd).ring.Valid)
    (fun m c _ h => (hstep m _ c ⟨h, rfl⟩).1.1) (fun _ c _ h => call_keeps h c)
    (Run.every_true _ calls) hvalid

end VirtualPortal
