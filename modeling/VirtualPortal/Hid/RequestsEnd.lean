/-
# Every request is answered

A caller sleeps until its message object is acknowledged.  `requests_answered` says
that it wakes up: in a fair schedule a request that is dispatched to the HID worker is
handled, and then acknowledged at once, or as a read when the time of the read has come
or the session ends.  The one request that may sleep for ever is a device-change request
whose session never ends: it stays parked until a GETVERSION, a shutdown or a close of its
descriptor acknowledges it (`parked_step`).

`v4_process` answers a request unless its object is the one parked in `read`
(`Machine.v4Process_answers`), and a pending read is at most 11 ticks away from its time
(`Machine.Waits`), whose number is the rank of the argument.
-/

import VirtualPortal.Hid.FairRuns
import VirtualPortal.Hid.ReadDeadlines

namespace VirtualPortal

/-! ### Requests -/

/-- What is acknowledged last is acknowledged. -/
theorem mem_acked_ack {msg : IpcMessage} {r : Int} {out : List Effect} :
    msg ∈ acked (out ++ [.ack msg r]) := by
  rw [acked_append]
  exact List.mem_append_right _ (List.mem_singleton_self _)

namespace Machine

variable (m : Machine) (fd : Fin 16) (mem : Mem) (msg : IpcMessage)

/-- What becomes of a request: it is acknowledged, or its object is parked. -/
def Answers (out : Machine × List Effect) : Prop :=
  msg ∈ acked out.2 ∨ (out.1.sessions fd).read.map IpcMessage.ptr = some msg.ptr ∨
    msg.ioctl.command = 0 ∧ (out.1.sessions fd).change = some msg

/-- A device-change request is acknowledged or parked. -/
theorem deviceChange_answers (hcommand : msg.ioctl.command = 0) :
    Answers fd msg (m.deviceChange fd msg) := by
  unfold deviceChange
  dsimp only
  split_ifs
  · exact Or.inl (List.mem_singleton_self _)
  · exact Or.inl (List.mem_singleton_self _)
  · refine Or.inr (Or.inr ⟨hcommand, ?_⟩)
    show ((m.setSession fd _).sessions fd).change = _
    rw [sessions_setSession]
  · exact Or.inl (List.mem_singleton_self _)

/-- A cancel of an endpoint is acknowledged. -/
theorem cancelEndpoint_answers : Answers fd msg (m.cancelEndpoint fd mem msg) := by
  unfold cancelEndpoint
  dsimp only
  split_ifs
  · exact Or.inl (List.mem_singleton_self _)
  · exact Or.inl (List.mem_singleton_self _)
  · exact Or.inl (List.mem_singleton_self _)
  all_goals
    split
    · exact Or.inl (List.mem_cons_of_mem _ (List.mem_singleton_self _))
    · exact Or.inl (List.mem_singleton_self _)

/-- Every ioctl is acknowledged or parked. -/
theorem v4Ioctl_answers : Answers fd msg (m.v4Ioctl fd mem msg) := by
  unfold v4Ioctl
  dsimp only
  split
  · split_ifs
    · exact Or.inl (List.mem_singleton_self _)
    · exact Or.inl (List.mem_singleton_self _)
  split
  · split_ifs
    · exact Or.inl mem_acked_ack
    · exact Or.inl (List.mem_singleton_self _)
  split
  · next hcommand => exact m.deviceChange_answers fd msg hcommand
  split
  · exact Or.inl (List.mem_singleton_self _)
  split
  · split_ifs with hread
    · exact Or.inr (Or.inl hread)
    · exact Or.inl mem_acked_ack
  split
  · split_ifs
    · exact Or.inl (List.mem_singleton_self _)
    · exact Or.inl mem_acked_ack
  split
  · exact m.cancelEndpoint_answers fd mem msg
  · exact Or.inl (List.mem_singleton_self _)

/-- Every message is acknowledged, parked or handed on. -/
theorem v4Process_answers (hfd : msg.fd.toNat = fd.val) :
    Answers fd msg (m.v4Process mem (some msg)) := by
  have hlt : msg.fd.toNat < 16 := hfd ▸ fd.isLt
  have hfin : (⟨msg.fd.toNat, hlt⟩ : Fin 16) = fd := Fin.ext hfd
  unfold v4Process
  dsimp only
  rw [dif_pos hlt, hfin]
  split_ifs
  · refine Or.inl ?_
    rw [acked_append]
    exact List.mem_append_right _ (List.mem_singleton_self _)
  · exact Or.inl (List.mem_singleton_self _)
  · exact m.v4Ioctl_answers fd mem msg

end Machine

/-! ### Pending reads -/

section Pending

variable {m : Machine} {fd : Fin 16} {msg : IpcMessage} {data : U32} {k : ℕ}

/-- A request acknowledges the pending read of its descriptor, or leaves it pending. -/
theorem acked_or_awaits {mem : Mem} {req : IpcMessage} {t : Session} {out : List Effect}
    (h : Handled m fd mem req t out) (hs : (m.sessions fd).Awaits m.ticks msg data k) :
    t.read = none ∧ msg ∈ acked out ∨ t.Awaits m.ticks msg data k := by
  cases h with
  | answer => exact Or.inr hs
  | describe => exact Or.inr (hs.congr rfl rfl rfl)
  | park => exact Or.inr (hs.congr rfl rfl rfl)
  | command reply t wrote answer hroom hreply ht =>
      have hpush : ((m.sessions fd).v4Push reply).2.Awaits m.ticks msg data k := by
        rw [Session.v4Push, if_neg hroom]
        exact hs.congr rfl rfl rfl
      exact Or.inr (hpush.congr (congrArg Session.read ht.1 :) (congrArg Session.readData ht.1 :)
        (congrArg Session.due ht.1 :))
  | startReply data' hread => rw [hs.read] at hread; cases hread
  | startStatus data' hread => rw [hs.read] at hread; cases hread
  | cancel req' hcancel hread =>
      obtain rfl : msg = req' := Option.some.inj (hs.read.symm.trans hread)
      exact Or.inl ⟨rfl, List.mem_cons_self⟩
  | reset hreset t last hnone =>
      refine Or.inl ⟨hnone, ?_⟩
      rw [acked_append]
      unfold Session.cancelEffects
      rw [hs.read]
      exact List.mem_cons_self

/-- A tick acknowledges the pending read, or comes closer to its time. -/
theorem Session.Awaits.tick_pending (hs : (m.sessions fd).Awaits m.ticks msg data (k + 1))
    (line : RequestLine) (send : Int) :
    ((m.v4Tick line send).1.sessions fd).read = none ∧ msg ∈ acked (m.v4Tick line send).2 ∨
      ∃ k', k = k' + 1 ∧
        ((m.v4Tick line send).1.sessions fd).Awaits (m.v4Tick line send).1.ticks msg data k := by
  have hpolled : ((m.polled line send).sessions fd).Awaits
      (m.polled line send).ticks msg data k := by
    rw [m.polled_ticks]
    exact (m.polled_sameIo line send fd).awaits hs.next
  have hsession := m.sessions_v4Tick line send fd
  rw [hpolled.v4Tick] at hsession
  cases k with
  | zero =>
      refine Or.inl ⟨?_, ?_⟩
      · rw [hsession, if_pos rfl]
        exact (Session.deliver_keeps _ msg).1
      · have hdelivered : msg ∈
            acked (((m.polled line send).sessions fd).v4Tick (m.polled line send).ticks).2 := by
          rw [hpolled.v4Tick, if_pos rfl]
          exact List.mem_singleton_self _
        obtain ⟨quiet, -, hout⟩ := m.v4Tick_effects line send
        rw [hout, acked_append, acked, acked, List.filterMap_flatMap]
        exact List.mem_append_right _
          (List.mem_flatMap.mpr ⟨fd, List.mem_finRange fd, hdelivered⟩)
  | succ k =>
      refine Or.inr ⟨k, rfl, ?_⟩
      rw [hsession, if_neg (Nat.succ_ne_zero k)]
      exact hpolled

/-- The event is a tick. -/
def HidEvent.Ticks (e : HidEvent) : Prop := ∃ line send, e = .tick line send

/-- An event acknowledges the pending read, or leaves it pending; a tick brings it
closer to its time. -/
theorem Session.Awaits.pending (hs : (m.sessions fd).Awaits m.ticks msg data (k + 1))
    (e : HidEvent) :
    ((m.hidStep e).1.sessions fd).read = none ∧ msg ∈ acked (m.hidStep e).2 ∨
      ∃ k', ((m.hidStep e).1.sessions fd).Awaits (m.hidStep e).1.ticks msg data (k' + 1) ∧
        k' ≤ k ∧ (e.Ticks → k' < k) := by
  have hkeep {e : HidEvent} (he : ¬ e.Ticks)
      (h : ((m.hidStep e).1.sessions fd).Awaits (m.hidStep e).1.ticks msg data (k + 1)) :
      ∃ k', ((m.hidStep e).1.sessions fd).Awaits (m.hidStep e).1.ticks msg data (k' + 1) ∧
        k' ≤ k ∧ (e.Ticks → k' < k) := ⟨k, h, le_rfl, fun hticks => absurd hticks he⟩
  cases e with
  | tick line send =>
      rcases hs.tick_pending line send with hdone | ⟨k', rfl, h⟩
      · exact Or.inl hdone
      · exact Or.inr ⟨k', h, Nat.le_succ k', fun _ => Nat.lt_succ_self k'⟩
  | process mem req =>
      have hticks : (m.hidStep (.process mem req)).1.ticks = m.ticks :=
        (m.v4Process_requests mem req).menu.2
      have hnot : ¬ HidEvent.Ticks (.process mem req) := by
        rintro ⟨line, send, h⟩
        cases h
      rcases m.process_cases fd mem req with ⟨req', rfl, -, h⟩ | ⟨h, -⟩
      · rcases acked_or_awaits h hs with hdone | h'
        · exact Or.inl hdone
        · exact Or.inr (hkeep hnot (by rw [hticks]; exact h'))
      · refine Or.inr (hkeep hnot ?_)
        rw [hticks, show (m.hidStep (.process mem req)).1.sessions fd = _ from h]
        exact hs
  | complete =>
      have hticks : (m.hidStep .complete).1.ticks = m.ticks :=
        (m.e09Complete_figures : FigureChange _ False _ _).ticks
      refine Or.inr (hkeep (by rintro ⟨line, send, h⟩; cases h) ?_)
      rw [hticks]
      exact (m.e09Complete_sameIo fd).awaits hs
  | outside st route => exact Or.inr (hkeep (by rintro ⟨line, send, h⟩; cases h) hs)

/-- Every pending read is at most 11 ticks away from its time. -/
def Machine.Waits (m : Machine) : Prop :=
  ∀ fd msg, (m.sessions fd).read = some msg →
    ∃ k, (m.sessions fd).Awaits m.ticks msg (m.sessions fd).readData (k + 1)

/-- The ticks the pending read of `fd` still waits for. -/
def Machine.wait (m : Machine) (fd : Fin 16) : ℕ := ((m.sessions fd).due - m.ticks).toNat

/-- Every event keeps what is known of the reads that wait. -/
theorem Machine.Waits.step (h : m.Waits) (e : HidEvent) : (m.hidStep e).1.Waits := by
  intro fd msg hread
  cases hold : (m.sessions fd).read with
  | some msg' =>
      obtain ⟨k, hk⟩ := h fd msg' hold
      rcases hk.pending e with ⟨hnone, -⟩ | ⟨k', hk', -⟩
      · rw [hnone] at hread
        cases hread
      · obtain rfl : msg' = msg := Option.some.inj (hk'.read.symm.trans hread)
        exact ⟨k', hk'.read, rfl, hk'.due, hk'.le⟩
  | none =>
      cases e with
      | tick line send =>
          have hpolled : ((m.polled line send).sessions fd).read = none := by
            rw [(m.polled_sameIo line send fd).read]
            exact hold
          rw [show (m.hidStep (.tick line send)).1.sessions fd = _ from
            m.sessions_v4Tick line send fd] at hread
          rcases Session.v4Tick_cases _ (m.polled line send).ticks with h | ⟨msg', hsome, -⟩
          · rw [h, hpolled] at hread
            cases hread
          · rw [hpolled] at hsome
            cases hsome
      | process mem req =>
          have haccepted := Session.awaits_accepted hold hread
          unfold Session.readDelay at haccepted
          split_ifs at haccepted
          · exact ⟨10, haccepted⟩
          · exact ⟨0, haccepted⟩
      | complete =>
          rw [show ((m.hidStep .complete).1.sessions fd).read = _ from
            (m.e09Complete_sameIo fd).read] at hread
          rw [hold] at hread
          cases hread
      | outside st route =>
          rw [show ((m.hidStep (.outside st route)).1.sessions fd).read = _ from hold] at hread
          cases hread

/-- The signed wait of a session, as a number. -/
theorem Session.Awaits.wait {s : Session} {ticks : U32} (h : s.Awaits ticks msg data k) :
    (s.due - ticks).toNat = k := by
  rw [h.due, show ticks + BitVec.ofNat 32 k - ticks = BitVec.ofNat 32 k by
    generalize BitVec.ofNat 32 k = x
    bv_omega]
  exact toNat_ofNat_of_lt (by have := h.le; omega)

end Pending

/-! ### Parked requests -/

/-- A device-change request stays parked, or the end of its session acknowledges it. -/
theorem Handled.change_parked {m : Machine} {fd : Fin 16} {mem : Mem} {req msg : IpcMessage}
    {t : Session} {out : List Effect} (h : Handled m fd mem req t out)
    (hchange : (m.sessions fd).change = some msg) :
    t.change = some msg ∨ Resets req ∧ msg ∈ VirtualPortal.acked out := by
  cases h with
  | answer => exact Or.inl hchange
  | describe => exact Or.inl hchange
  | park hnone =>
      rw [hnone] at hchange
      cases hchange
  | command reply t wrote answer hroom hreply ht =>
      refine Or.inl ?_
      rw [show t.change = _ from (congrArg Session.change ht.1 :), Session.v4Push, if_neg hroom]
      exact hchange
  | startReply => exact Or.inl hchange
  | startStatus =>
      refine Or.inl ?_
      unfold Session.takeStatus Session.v4Status
      exact hchange
  | cancel => exact Or.inl hchange
  | reset hreset =>
      refine Or.inr ⟨hreset, ?_⟩
      rw [acked_append]
      refine List.mem_append_left _ ?_
      unfold Session.cancelEffects
      rw [hchange, acked_append]
      exact List.mem_append_right _ (List.mem_singleton_self _)

/-- An event leaves a device-change request parked, or ends its session. -/
theorem Machine.change_event {m : Machine} {fd : Fin 16} {msg : IpcMessage}
    (hchange : (m.sessions fd).change = some msg) (e : HidEvent) :
    ((m.hidStep e).1.sessions fd).change = some msg ∨
      e.Resets fd ∧ msg ∈ acked (m.hidStep e).2 := by
  cases e with
  | process mem req =>
      rcases m.process_cases fd mem req with ⟨req', rfl, hfd, h⟩ | ⟨h, -⟩
      · rcases h.change_parked hchange with hkept | ⟨hreset, hacked⟩
        · exact Or.inl hkept
        · exact Or.inr ⟨⟨mem, req', rfl, hfd, hreset⟩, hacked⟩
      · exact Or.inl ((congrArg Session.change h).trans hchange)
  | tick line send =>
      refine Or.inl ?_
      have hpolled : ((m.polled line send).sessions fd).change = some msg :=
        (congrArg Session.change (m.polled_sameIo line send fd).eq :).trans hchange
      rw [show (m.hidStep (.tick line send)).1.sessions fd = _ from m.sessions_v4Tick line send fd]
      rcases Session.v4Tick_cases ((m.polled line send).sessions fd) (m.polled line send).ticks with
        h | ⟨msg', -, -, h⟩
      · rw [h]
        exact hpolled
      · rw [h, (Session.deliver_keeps _ msg').2.1]
        exact hpolled
  | complete =>
      exact Or.inl ((congrArg Session.change (m.e09Complete_sameIo fd).eq :).trans hchange)
  | outside st route => exact Or.inl hchange

/-! ### Steps of the system -/

namespace System

section Step

variable {σ : System} {a : Action} {fd : Fin 16} {msg : IpcMessage} {data : U32} {k : ℕ}

/-- The HID worker handles a tick. -/
def HandlesTick (σ : System) (a : Action) : Prop :=
  (∃ io, a = .hid io) ∧ σ.events.head? = some .tick

/-- A step acknowledges the pending read, or leaves it pending; a handled tick brings it
closer to its time. -/
theorem pending_step (hs : (σ.hid.sessions fd).Awaits σ.hid.ticks msg data (k + 1)) (a : Action) :
    msg ∈ acked (σ.step a).2 ∨
      ∃ k', ((σ.step a).1.hid.sessions fd).Awaits (σ.step a).1.hid.ticks msg data (k' + 1) ∧
        k' ≤ k ∧ (σ.HandlesTick a → k' < k) := by
  by_cases ha : ∃ io, a = .hid io
  · obtain ⟨io, rfl⟩ := ha
    cases hevents : σ.events with
    | nil =>
        have hstep : σ.step (.hid io) = (σ, []) := by simp only [step, hevents]
        rw [hstep]
        refine Or.inr ⟨k, hs, le_rfl, fun h => ?_⟩
        have hhead := h.2
        rw [hevents] at hhead
        cases hhead
    | cons event events =>
        have hpending (e : HidEvent) (he : σ.step (.hid io) = ({ σ with
            hid := (σ.hid.hidStep e).1
            events := events
            jobs := σ.jobs ++ submitted (σ.hid.hidStep e).2 }, (σ.hid.hidStep e).2))
            (htick : event = .tick → e.Ticks) :
            msg ∈ acked (σ.step (.hid io)).2 ∨
              ∃ k', ((σ.step (.hid io)).1.hid.sessions fd).Awaits (σ.step (.hid io)).1.hid.ticks
                msg data (k' + 1) ∧ k' ≤ k ∧ (σ.HandlesTick (.hid io) → k' < k) := by
          rw [he]
          rcases hs.pending e with ⟨-, hacked⟩ | ⟨k', h, hle, hlt⟩
          · exact Or.inl hacked
          · refine Or.inr ⟨k', h, hle, fun hhandles => hlt (htick ?_)⟩
            have hhead := hhandles.2
            rw [hevents] at hhead
            exact Option.some.inj hhead
        have hstep := step_event hevents io
        cases event with
        | tick => exact hpending (.tick io.line io.send) hstep fun _ => ⟨_, _, rfl⟩
        | complete => exact hpending .complete hstep fun h => by cases h
        | request req => exact hpending (.process io.mem req) hstep fun h => by cases h
  · obtain ⟨st, route, hhid, -⟩ := σ.step_outside fun io h => ha ⟨io, h⟩
    rw [hhid]
    exact Or.inr ⟨k, hs, le_rfl, fun h => absurd h.1 ha⟩

/-- The HID worker handles a successful GETVERSION, a shutdown or a close of `fd`. -/
def EndsSession (σ : System) (fd : Fin 16) (a : Action) : Prop :=
  (∃ io, a = .hid io) ∧ ∃ req, σ.events.head? = some (.request (some req)) ∧
    req.fd.toNat = fd.val ∧ Resets req

/-- A step leaves a device-change request parked, or ends its session and acknowledges it. -/
theorem parked_step (hchange : (σ.hid.sessions fd).change = some msg) (a : Action) :
    ((σ.step a).1.hid.sessions fd).change = some msg ∨
      σ.EndsSession fd a ∧ msg ∈ acked (σ.step a).2 := by
  by_cases ha : ∃ io, a = .hid io
  · obtain ⟨io, rfl⟩ := ha
    cases hevents : σ.events with
    | nil =>
        have hstep : σ.step (.hid io) = (σ, []) := by simp only [step, hevents]
        rw [hstep]
        exact Or.inl hchange
    | cons event events =>
        have hstep := step_event hevents io
        cases event with
        | tick =>
            rw [hstep]
            rcases Machine.change_event hchange (.tick io.line io.send) with h | ⟨⟨_, _, h, -⟩, -⟩
            · exact Or.inl h
            · cases h
        | complete =>
            rw [hstep]
            rcases Machine.change_event hchange .complete with h | ⟨⟨_, _, h, -⟩, -⟩
            · exact Or.inl h
            · cases h
        | request req =>
            rw [hstep]
            rcases Machine.change_event hchange (.process io.mem req) with
              h | ⟨⟨mem, req', h, hfd, hreset⟩, hacked⟩
            · exact Or.inl h
            · obtain ⟨rfl, rfl⟩ := HidEvent.process.inj h
              exact Or.inr ⟨⟨⟨io, rfl⟩, req', by rw [hevents]; rfl, hfd, hreset⟩, hacked⟩
  · obtain ⟨st, route, hhid, -⟩ := σ.step_outside fun io h => ha ⟨io, h⟩
    rw [hhid]
    exact Or.inl hchange

/-- Every step keeps what is known of the reads that wait. -/
theorem waits_step (h : σ.hid.Waits) (a : Action) : (σ.step a).1.hid.Waits := by
  obtain ⟨e, he, -⟩ := σ.step_hid a
  rw [he]
  exact h.step e

end Step

/-! ### Endless runs -/

section Runs

variable {d : Disk} {io : StartIo} {as : ℕ → Action} {fd : Fin 16} {msg : IpcMessage}

/-- It is known in every run. -/
theorem waits_along (d : Disk) (io : StartIo) (as : ℕ → Action) (n : ℕ) :
    (Run.along step (init d io) as n).hid.Waits := by
  induction n with
  | zero =>
      intro fd msg hread
      rw [show (Run.along step (init d io) as 0).hid.sessions fd = _ from
        start_sessions io fd] at hread
      cases hread
  | succ n ih => exact waits_step ih (as n)

/-- A pending read is acknowledged. -/
theorem Fair.read_acked (h : Fair as) (fd : Fin 16) (msg : IpcMessage) :
    LeadsTo (fun n => ((Run.along step (init d io) as n).hid.sessions fd).read = some msg)
      fun n => msg ∈ acked (Run.emits step (init d io) as n) := by
  have hnext (n : ℕ) (hread : ((Run.along step (init d io) as n).hid.sessions fd).read = some msg)
      (hnot : msg ∉ acked (Run.emits step (init d io) as n)) :
      ((Run.along step (init d io) as (n + 1)).hid.sessions fd).read = some msg ∧
        (Run.along step (init d io) as (n + 1)).hid.wait fd ≤
          (Run.along step (init d io) as n).hid.wait fd ∧
        (Takes (init d io) as .tick n → (Run.along step (init d io) as (n + 1)).hid.wait fd <
          (Run.along step (init d io) as n).hid.wait fd) := by
    obtain ⟨k, hk⟩ := waits_along d io as n fd msg hread
    obtain ⟨k', hk', hle, hlt⟩ := (pending_step hk (as n)).resolve_left hnot
    have hwait : (Run.along step (init d io) as n).hid.wait fd = k + 1 := hk.wait
    have hwait' : (Run.along step (init d io) as (n + 1)).hid.wait fd = k' + 1 := hk'.wait
    rw [hwait, hwait']
    exact ⟨hk'.read, Nat.succ_le_succ hle, fun htakes => Nat.succ_lt_succ (hlt htakes)⟩
  have hleads : LeadsTo
      (fun n => ((Run.along step (init d io) as n).hid.sessions fd).read = some msg ∧
        msg ∉ acked (Run.emits step (init d io) as n))
      fun n => msg ∈ acked (Run.emits step (init d io) as n) := by
    refine .of_rank (f := Takes (init d io) as .tick)
      (fun n => (Run.along step (init d io) as n).hid.wait fd) h.ticks.leadsTo ?_ ?_
    · rintro n ⟨hread, hnot⟩ -
      obtain ⟨hread', hle, -⟩ := hnext n hread hnot
      exact (em (msg ∈ acked (Run.emits step (init d io) as (n + 1)))).symm.imp_left
        fun hnot' => ⟨⟨hread', hnot'⟩, hle⟩
    · rintro n ⟨hread, hnot⟩ htick
      obtain ⟨hread', -, hlt⟩ := hnext n hread hnot
      exact (em (msg ∈ acked (Run.emits step (init d io) as (n + 1)))).symm.imp_left
        fun hnot' => ⟨⟨hread', hnot'⟩, hlt htick⟩
  intro n hread
  by_cases hnow : msg ∈ acked (Run.emits step (init d io) as n)
  · exact ⟨n, le_rfl, hnow⟩
  · exact hleads n ⟨hread, hnow⟩

/-- The object of the request is acknowledged. -/
def AckedAt (d : Disk) (io : StartIo) (as : ℕ → Action) (msg : IpcMessage) (n : ℕ) : Prop :=
  ∃ r ∈ acked (Run.emits step (init d io) as n), r.ptr = msg.ptr

/-- The request waits for the end of the session of its descriptor. -/
def ParkedAt (d : Disk) (io : StartIo) (as : ℕ → Action) (msg : IpcMessage) (n : ℕ) : Prop :=
  msg.ioctl.command = 0 ∧ ∃ fd : Fin 16, msg.fd.toNat = fd.val ∧
    ((Run.along step (init d io) as n).hid.sessions fd).change = some msg

/-- A request that is handled is answered. -/
theorem Fair.request_answered (h : Fair as) (hfd : msg.fd.toNat = fd.val) :
    LeadsTo (Takes (init d io) as (.request (some msg)))
      fun n => AckedAt d io as msg n ∨ ParkedAt d io as msg n := by
  rintro n ⟨⟨hio, ha⟩, hhead⟩
  obtain ⟨events, hevents⟩ := List.head?_eq_some_iff.mp hhead
  have hstep := step_event hevents hio
  rw [← ha] at hstep
  have hout : Run.emits step (init d io) as n =
      ((Run.along step (init d io) as n).hid.v4Process hio.mem (some msg)).2 :=
    congrArg Prod.snd hstep
  have hhid : (Run.along step (init d io) as (n + 1)).hid =
      ((Run.along step (init d io) as n).hid.v4Process hio.mem (some msg)).1 :=
    congrArg (fun out => out.1.hid) hstep
  rcases (Run.along step (init d io) as n).hid.v4Process_answers fd hio.mem msg hfd with
    hacked | hread | ⟨hcommand, hchange⟩
  · exact ⟨n, le_rfl, Or.inl ⟨msg, by rw [hout]; exact hacked, rfl⟩⟩
  · rw [← hhid] at hread
    obtain ⟨r, hr, hptr⟩ := Option.map_eq_some_iff.mp hread
    obtain ⟨k, hk, hacked⟩ := h.read_acked fd r (n + 1) hr
    exact ⟨k, (Nat.le_succ n).trans hk, Or.inl ⟨r, hacked, hptr⟩⟩
  · rw [← hhid] at hchange
    exact ⟨n + 1, Nat.le_succ n, Or.inr ⟨hcommand, fd, hfd, hchange⟩⟩

/-- The session of the request ends at this moment. -/
def EndsAt (d : Disk) (io : StartIo) (as : ℕ → Action) (msg : IpcMessage) (n : ℕ) : Prop :=
  ∃ fd : Fin 16, msg.fd.toNat = fd.val ∧
    (Run.along step (init d io) as n).EndsSession fd (as n)

/-- A parked request stays parked until the end of its session acknowledges it. -/
theorem parked_until {n : ℕ} (h : ParkedAt d io as msg n) :
    ParkedAt d io as msg (n + 1) ∨ EndsAt d io as msg n ∧ AckedAt d io as msg n := by
  obtain ⟨hcommand, fd, hfd, hchange⟩ := h
  rcases parked_step hchange (as n) with hkept | ⟨hends, hacked⟩
  · exact Or.inl ⟨hcommand, fd, hfd, hkept⟩
  · exact Or.inr ⟨⟨fd, hfd, hends⟩, msg, hacked, rfl⟩

/-- An ioctl or a close in a fair schedule is taken, acknowledged or parked. -/
theorem Fair.request_ends (hfair : Fair as) {n : ℕ} {send : Int}
    (hmsg : as n = .ioctl (some msg) send ∨ as n = .close (some msg) send) :
    .stockIoctl ∈ Run.emits step (init d io) as n ∨
      ∃ k, n ≤ k ∧ (AckedAt d io as msg k ∨ ParkedAt d io as msg k) := by
  have hanswered (hlt : msg.fd.toNat < 16)
      (hqueued : .request (some msg) ∈ (Run.along step (init d io) as (n + 1)).events) :
      ∃ k, n ≤ k ∧ (AckedAt d io as msg k ∨ ParkedAt d io as msg k) := by
    let fd : Fin 16 := ⟨msg.fd.toNat, hlt⟩
    have hfd : msg.fd.toNat = fd.val := rfl
    obtain ⟨k, hk, h⟩ :=
      (hfair.handled _).trans (hfair.request_answered hfd) (n + 1) hqueued
    exact ⟨k, (Nat.le_succ n).trans hk, h⟩
  have hnow (hacked : msg ∈ acked (Run.emits step (init d io) as n)) :
      ∃ k, n ≤ k ∧ (AckedAt d io as msg k ∨ ParkedAt d io as msg k) :=
    ⟨n, le_rfl, Or.inl ⟨msg, hacked, rfl⟩⟩
  rw [show (Run.along step (init d io) as (n + 1)).events =
    (step (Run.along step (init d io) as n) (as n)).1.events from rfl] at hanswered
  rw [show Run.emits step (init d io) as n =
    (step (Run.along step (init d io) as n) (as n)).2 from rfl] at hnow ⊢
  generalize Run.along step (init d io) as n = σ at hanswered hnow ⊢
  by_cases hlt : msg.fd.toNat < 16
  · have hportal : portalFd (some msg) = some (msg, ⟨msg.fd.toNat, hlt⟩) := dif_pos hlt
    rcases hmsg with ha | ha
    · have hstep : step σ (as n) = σ.v4IoctlDispatch (some msg) send := by rw [ha]; rfl
      rw [hstep] at hanswered hnow ⊢
      unfold v4IoctlDispatch at hanswered hnow ⊢
      rw [hportal] at hanswered hnow ⊢
      dsimp only at hanswered hnow ⊢
      split_ifs at hanswered hnow ⊢
      · exact Or.inl (List.mem_singleton_self _)
      · exact Or.inr (hnow (List.mem_singleton_self _))
      · exact Or.inr (hanswered hlt (List.mem_append_right _ (List.mem_singleton_self _)))
    · have hstep : step σ (as n) = σ.v4CloseDispatch (some msg) send := by rw [ha]; rfl
      rw [hstep] at hanswered hnow ⊢
      unfold v4CloseDispatch at hanswered hnow ⊢
      rw [hportal] at hanswered hnow ⊢
      dsimp only at hanswered hnow ⊢
      split_ifs at hanswered hnow ⊢
      · exact Or.inr (hnow (List.mem_singleton_self _))
      · exact Or.inr (hanswered hlt (List.mem_append_right _ (List.mem_singleton_self _)))
      · exact Or.inr (hnow (List.mem_singleton_self _))
  · have hportal : portalFd (some msg) = none := dif_neg hlt
    rcases hmsg with ha | ha
    · refine Or.inl ?_
      rw [ha, show step σ (.ioctl (some msg) send) = σ.v4IoctlDispatch (some msg) send from rfl,
        v4IoctlDispatch, hportal]
      exact List.mem_singleton_self _
    · refine Or.inr (hnow ?_)
      rw [ha, show step σ (.close (some msg) send) = σ.v4CloseDispatch (some msg) send from rfl,
        v4CloseDispatch, hportal]
      exact List.mem_singleton_self _

/-- **Every request is answered.**  In a fair schedule an ioctl or a close of a game is
taken by the stock module, or its object is acknowledged, or it is a device-change
request that is parked, and stays so until the end of its session acknowledges it:
whatever the other requests are, whatever is on the card, and at every value of the tick
counter. -/
theorem requests_answered (hfair : Fair as) {n : ℕ} {send : Int}
    (hmsg : as n = .ioctl (some msg) send ∨ as n = .close (some msg) send) :
    (.stockIoctl ∈ Run.emits step (init d io) as n ∨
      ∃ k, n ≤ k ∧ (AckedAt d io as msg k ∨ ParkedAt d io as msg k)) ∧
    ∀ k, ParkedAt d io as msg k →
      ParkedAt d io as msg (k + 1) ∨ EndsAt d io as msg k ∧ AckedAt d io as msg k :=
  ⟨hfair.request_ends hmsg, fun _ => parked_until⟩

/-- The workers take turns once the game has asked for the version. -/
def askedTurns : ℕ → Action := Run.after [.ioctl (some (portalRequest 7 6 0)) 0] turns

/-- The schedule stays fair with the request before it. -/
theorem askedTurns_fair : Fair askedTurns :=
  turns_fair.after (by simp) (by simp)

/-- On an empty card a game asks for the version and the workers take turns: the request is
not for the stock module, nor is it parked, so it is acknowledged. -/
theorem requests_answered_version :
    ∃ k, AckedAt (fun _ => none) .ok askedTurns (portalRequest 7 6 0) k := by
  have hasked : askedTurns 0 = .ioctl (some (portalRequest 7 6 0)) 0 := rfl
  have hanswered := @requests_answered (fun _ => none) .ok _ _ askedTurns_fair 0 _ (Or.inl hasked)
  rcases hanswered.1 with hstock | ⟨k, -, hacked | hparked⟩
  · have hnone : Run.emits step (init (fun _ => none) .ok) askedTurns 0 = [] := rfl
    rw [hnone] at hstock
    cases hstock
  · exact ⟨k, hacked⟩
  · exact absurd hparked.1 (by decide)

end Runs
end System
end VirtualPortal
