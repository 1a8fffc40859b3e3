/-
# Every request is acknowledged exactly once

IOS hands a message object to the HID worker and takes it back with the
acknowledgement, so a missing acknowledgement hangs the caller and a second one
corrupts the queue.  `acked_exactly_once` counts both over whole runs: the
messages given are, with multiplicity, the ones acknowledged and the ones still
parked in `read` or `change` of their own session.

The count is kept by every event (`hidStep_acked`), provided a message object is
submitted again only after its acknowledgement (`FreshSubmissions`): `v4_process`
compares the pending read with the message it has been given by address, and a
second submission of a parked message would look parked.
-/

import VirtualPortal.Hid.Deliveries
import Mathlib.Algebra.BigOperators.Fin
import Mathlib.Algebra.Order.BigOperators.Group.Multiset
import Mathlib.Data.Multiset.Count

namespace VirtualPortal

/-- The messages a session holds. -/
def Session.parked (s : Session) : Multiset IpcMessage := ↑(s.read.toList ++ s.change.toList)

/-- The messages all sessions hold. -/
def Machine.parked (m : Machine) : Multiset IpcMessage := ∑ fd, (m.sessions fd).parked

/-- The messages given to `v4_process`, oldest first. -/
def given (es : List HidEvent) : List IpcMessage := es.filterMap HidEvent.given

/-- The messages given and not yet acknowledged in a run from `m`. -/
def unacked (m : Machine) (es : List HidEvent) : Multiset IpcMessage :=
  ↑(given es) - ↑(acked (Run.outputs Machine.hidStep m es))

/-- A message object is submitted again only after its acknowledgement. -/
def FreshSubmissions (m : Machine) (es : List HidEvent) : Prop :=
  ∀ es₁ mem msg es₂, es = es₁ ++ .process mem (some msg) :: es₂ →
    ∀ r ∈ unacked m es₁, r.ptr ≠ msg.ptr

/-- The event may acknowledge what the session of `fd` holds. -/
def HidEvent.Releases (fd : Fin 16) (e : HidEvent) : Prop :=
  (∃ line send, e = .tick line send) ∨ e.CancelsRead fd ∨ e.Resets fd

/-- What an event acknowledges it was given, or a session held it and the event
releases what that session holds; a reset leaves nothing behind. -/
structure Releasing (m : Machine) (e : HidEvent) : Prop where
  released : ∀ r ∈ acked (m.hidStep e).2, e.given = some r ∨
    ∃ fd, r ∈ (m.sessions fd).parked ∧ e.Releases fd
  reset : ∀ fd, e.Resets fd → ((m.hidStep e).1.sessions fd).parked = 0

/-! ### One session -/

section Session

variable {s t : Session}

/-- What is parked depends on the read and the device change. -/
theorem parked_congr (hread : t.read = s.read) (hchange : t.change = s.change) :
    t.parked = s.parked := by
  rw [Session.parked, Session.parked, hread, hchange]

/-- A session with the same reads has the same parked. -/
theorem Session.SameIo.parked (h : s.SameIo t) : t.parked = s.parked :=
  parked_congr (congrArg Session.read h.eq :) (congrArg Session.change h.eq :)

/-- `v4_cancel` acknowledges what a session holds. -/
theorem acked_cancelEffects (s : Session) : (↑(acked s.cancelEffects) : Multiset _) = s.parked := by
  unfold Session.cancelEffects Session.parked
  cases s.read <;> cases s.change <;> rfl

/-- A delivery acknowledges the read. -/
theorem acked_v4Tick (s : Session) (ticks : U32) :
    ↑(acked (s.v4Tick ticks).2) + (s.v4Tick ticks).1.parked = s.parked := by
  rcases s.v4Tick_cases ticks with h | ⟨msg, hread, -, h⟩
  · rw [h]
    exact zero_add _
  · have hdeliver : acked (s.deliver msg).2 = [msg] := rfl
    obtain ⟨hnone, hchange, -⟩ := s.deliver_keeps msg
    have hparked : (s.deliver msg).1.parked = ↑s.change.toList := by
      rw [Session.parked, hnone, hchange]
      rfl
    rw [h, hdeliver, hparked, Session.parked, hread]
    rfl

/-- A message that is not parked is answered with its acknowledgement. -/
theorem Session.Answered.acked {msg : IpcMessage} {answer : List Effect} (h : s.Answered msg answer)
    (hfresh : s.read.map IpcMessage.ptr ≠ some msg.ptr) : VirtualPortal.acked answer = [msg] := by
  rcases h with ⟨r, rfl⟩ | ⟨-, hparked⟩
  · rfl
  · exact absurd hparked hfresh

/-- A request is acknowledged, or parked; what a session held is acknowledged, or
held on to. -/
theorem Handled.acked {m : Machine} {fd : Fin 16} {mem : Mem} {msg : IpcMessage} {out : List Effect}
    (h : Handled m fd mem msg t out)
    (hfresh : (m.sessions fd).read.map IpcMessage.ptr ≠ some msg.ptr) :
    ↑(acked out) + t.parked = (m.sessions fd).parked + {msg} := by
  have hread (s : Session) (hread : s.read = none) : s.parked = ↑s.change.toList := by
    rw [Session.parked, hread]; rfl
  cases h with
  | answer answer hanswer => rw [hanswer.acked hfresh, add_comm]; rfl
  | describe addr bytes b => rw [add_comm]; rfl
  | park hchange =>
      rw [Session.parked, Session.parked, hchange, Option.toList_none, List.append_nil,
        ← Multiset.coe_add]
      exact zero_add _
  | command reply t wrote answer hroom hreply ht hwrote hanswer =>
      have hack : VirtualPortal.acked (.queued fd reply :: wrote ++ answer) = [msg] := by
        rw [List.cons_append, ← List.singleton_append, acked_append, acked_append,
          acked_of_quiet hwrote.quiet, hanswer.acked hfresh]
        rfl
      have hparked : t.parked = (m.sessions fd).parked := by
        have hpush : ((m.sessions fd).v4Push reply).2.parked = (m.sessions fd).parked := by
          rw [Session.v4Push, if_neg hroom]; rfl
        rw [← hpush]
        exact parked_congr (congrArg Session.read ht.1 :) (congrArg Session.change ht.1 :)
      rw [hack, hparked, add_comm]
      rfl
  | startReply data hnone hcount =>
      have hparked : ((m.sessions fd).takeReply msg data (m.ticks + 11)).parked =
        {msg} + ↑(m.sessions fd).change.toList := rfl
      rw [hread _ hnone, hparked, add_comm ({msg} : Multiset IpcMessage)]
      exact zero_add _
  | startStatus data hnone hcount =>
      have hparked : ((m.sessions fd).takeStatus msg data (m.ticks + 1)).parked =
        {msg} + ↑(m.sessions fd).change.toList := rfl
      rw [hread _ hnone, hparked, add_comm ({msg} : Multiset IpcMessage)]
      exact zero_add _
  | cancel req hcancel hsome =>
      rw [Session.parked, Session.parked, hsome]
      refine Multiset.coe_eq_coe.mpr (List.Perm.cons req ?_)
      exact List.perm_append_comm
  | reset hreset t last hnone hchange hcount hpending hlast =>
      have hlast' : VirtualPortal.acked [last] = [msg] := by
        rcases hlast with rfl | ⟨r, rfl⟩ <;> rfl
      rw [acked_append, hlast', hread t hnone, hchange, ← Multiset.coe_add, acked_cancelEffects]
      exact add_zero _

/-- What a session holds for its own descriptor it goes on holding for it. -/
theorem Handled.parked_le {m : Machine} {fd : Fin 16} {mem : Mem} {msg : IpcMessage}
    {out : List Effect} (h : Handled m fd mem msg t out)
    (hfresh : (m.sessions fd).read.map IpcMessage.ptr ≠ some msg.ptr) :
    t.parked ≤ (m.sessions fd).parked + {msg} := by
  rw [← h.acked hfresh]
  exact Multiset.le_add_left _ _

end Session

/-! ### One event -/

section Event

variable {m : Machine}

/-- A sum over the sessions changes as its one changed summand does. -/
theorem sum_change {f g : Fin 16 → Multiset IpcMessage} {fd : Fin 16} {a b : Multiset IpcMessage}
    (hne : ∀ fd' ≠ fd, g fd' = f fd') (h : a + g fd = f fd + b) : a + ∑ i, g i = ∑ i, f i + b := by
  have hrest : ∑ i ∈ Finset.univ.erase fd, g i = ∑ i ∈ Finset.univ.erase fd, f i :=
    Finset.sum_congr rfl fun i hi => hne i (Finset.ne_of_mem_erase hi)
  rw [← Finset.add_sum_erase _ g (Finset.mem_univ fd),
    ← Finset.add_sum_erase _ f (Finset.mem_univ fd),
    hrest, ← add_assoc, h, add_assoc, add_assoc, add_comm b]

theorem coe_flatMap_finRange (f : Fin 16 → List IpcMessage) :
    (↑((List.finRange 16).flatMap f) : Multiset IpcMessage) = ∑ fd, ↑(f fd) := by
  rw [Fin.sum_univ_def]
  induction List.finRange 16 with
  | nil => rfl
  | cons fd l ih =>
      rw [List.flatMap_cons, List.map_cons, List.sum_cons, ← Multiset.coe_add, ih]

/-- Where no session changes its reads the same is parked. -/
theorem parked_of_sameIo {m' : Machine} (h : ∀ fd, (m.sessions fd).SameIo (m'.sessions fd)) :
    m'.parked = m.parked :=
  Finset.sum_congr rfl fun fd _ => (h fd).parked

/-- A tick acknowledges what it takes out of the sessions. -/
theorem acked_tick (line : RequestLine) (send : Int) :
    ↑(acked (m.v4Tick line send).2) + (m.v4Tick line send).1.parked = m.parked := by
  obtain ⟨quiet, hquiet, hout⟩ := m.v4Tick_effects line send
  rw [hout, acked_append, acked_of_quiet hquiet, List.nil_append, acked, List.filterMap_flatMap,
    coe_flatMap_finRange, Machine.parked, ← Finset.sum_add_distrib]
  refine (Finset.sum_congr rfl fun fd _ => ?_).trans
    (parked_of_sameIo (m.polled_sameIo line send))
  exact acked_v4Tick _ _

/-- The message given is not held by its session. -/
theorem fresh_read {msg : IpcMessage} {fd : Fin 16}
    (hfresh : ∀ r ∈ m.parked, r.ptr ≠ msg.ptr) :
    (m.sessions fd).read.map IpcMessage.ptr ≠ some msg.ptr := by
  intro hptr
  obtain ⟨r, hr, hrptr⟩ := Option.map_eq_some_iff.mp hptr
  refine hfresh r (Multiset.mem_sum.mpr ⟨fd, Finset.mem_univ _, ?_⟩) hrptr
  rw [Session.parked, hr]
  exact List.mem_cons_self

/-- A request is acknowledged or parked, as is what was parked before it. -/
theorem acked_process (mem : Mem) (msg : IpcMessage) (hfresh : ∀ r ∈ m.parked, r.ptr ≠ msg.ptr) :
    ↑(acked (m.v4Process mem (some msg)).2) + (m.v4Process mem (some msg)).1.parked =
      m.parked + {msg} := by
  by_cases hlt : msg.fd.toNat < 16
  · obtain ⟨hhandled, hframe⟩ := m.v4Process_handled ⟨msg.fd.toNat, hlt⟩ mem msg rfl
    refine sum_change (fun fd' hne => ?_) (hhandled.acked (fresh_read hfresh))
    rw [hframe fd' hne]
  · rw [m.v4Process_no_fd mem msg (by omega), add_comm]
    rfl

/-- Every event keeps the count. -/
theorem hidStep_acked (e : HidEvent) (hfresh : ∀ msg, e.given = some msg →
    ∀ r ∈ m.parked, r.ptr ≠ msg.ptr) :
    ↑(acked (m.hidStep e).2) + (m.hidStep e).1.parked = m.parked + ↑e.given.toList := by
  cases e with
  | process mem msg =>
      cases msg with
      | none => exact add_comm _ _
      | some msg => exact acked_process mem msg (hfresh msg rfl)
  | tick line send => exact (acked_tick line send).trans (add_zero _).symm
  | complete =>
      rw [show (m.hidStep .complete) = m.e09Complete from rfl, acked_of_quiet m.e09Complete_quiet,
        parked_of_sameIo m.e09Complete_sameIo]
      exact add_comm _ _
  | outside st route => exact add_comm _ _

/-- Messages are held by the session of their own descriptor. -/
def Machine.HoldsOwn (m : Machine) : Prop :=
  ∀ fd, ∀ r ∈ (m.sessions fd).parked, r.fd.toNat = fd.val

/-- A message that is not parked yet keeps what is parked in its own session. -/
theorem Machine.HoldsOwn.step (h : m.HoldsOwn) (e : HidEvent) (hfresh : ∀ msg, e.given = some msg →
    ∀ r ∈ m.parked, r.ptr ≠ msg.ptr) : (m.hidStep e).1.HoldsOwn := by
  intro fd r hr
  cases e with
  | process mem msg =>
      cases msg with
      | none => exact h fd r hr
      | some msg =>
          by_cases hlt : msg.fd.toNat < 16
          · obtain ⟨hhandled, hframe⟩ := m.v4Process_handled ⟨msg.fd.toNat, hlt⟩ mem msg rfl
            by_cases hfd : fd = ⟨msg.fd.toNat, hlt⟩
            · subst hfd
              have hle := hhandled.parked_le (fresh_read (hfresh msg rfl))
              rcases Multiset.mem_add.mp (Multiset.mem_of_le hle hr) with hr | hr
              · exact h _ r hr
              · rw [Multiset.mem_singleton.mp hr]
            · rw [show ((m.hidStep (.process mem (some msg))).1.sessions fd) = _ from
                hframe fd hfd] at hr
              exact h fd r hr
          · rw [show m.hidStep (.process mem (some msg)) = _ from
              m.v4Process_no_fd mem msg (by omega)] at hr
            exact h fd r hr
  | tick line send =>
      refine h fd r ?_
      rw [← (m.polled_sameIo line send fd).parked, ← acked_v4Tick _ (m.polled line send).ticks]
      exact Multiset.mem_add.mpr (Or.inr hr)
  | complete =>
      rw [show ((m.hidStep .complete).1.sessions fd).parked = _ from
        (m.e09Complete_sameIo fd).parked] at hr
      exact h fd r hr
  | outside st route => exact h fd r hr

/-- What a tick acknowledges was held by a session. -/
theorem released_tick (line : RequestLine) (send : Int) :
    ∀ r ∈ acked (m.v4Tick line send).2, ∃ fd, r ∈ (m.sessions fd).parked := by
  obtain ⟨quiet, hquiet, hout⟩ := m.v4Tick_effects line send
  intro r hr
  rw [hout, acked_append, acked_of_quiet hquiet, List.nil_append, acked,
    List.filterMap_flatMap] at hr
  obtain ⟨fd, -, hr⟩ := List.mem_flatMap.mp hr
  refine ⟨fd, ?_⟩
  rw [← (m.polled_sameIo line send fd).parked, ← acked_v4Tick _ (m.polled line send).ticks]
  exact Multiset.mem_add.mpr (Or.inl hr)

/-- What a request acknowledges is itself, or its session held it and the request
is a cancel or a reset. -/
theorem Handled.released {fd : Fin 16} {mem : Mem} {msg : IpcMessage} {t : Session}
    {out : List Effect} (h : Handled m fd mem msg t out)
    (hfresh : (m.sessions fd).read.map IpcMessage.ptr ≠ some msg.ptr) :
    ∀ r ∈ VirtualPortal.acked out, r = msg ∨
      r ∈ (m.sessions fd).parked ∧ (CancelsRead mem msg ∨ Resets msg) := by
  intro r hr
  have hsum : r ∈ (↑(VirtualPortal.acked out) + t.parked : Multiset IpcMessage) :=
    Multiset.mem_add.mpr (Or.inl hr)
  rw [h.acked hfresh] at hsum
  have hheld : r ∈ (m.sessions fd).parked ∨ r = msg :=
    (Multiset.mem_add.mp hsum).imp_right Multiset.mem_singleton.mp
  cases h with
  | answer answer hanswer =>
      rw [hanswer.acked hfresh] at hr
      exact Or.inl (List.mem_singleton.mp hr)
  | describe => exact Or.inl (List.mem_singleton.mp hr)
  | park => cases hr
  | command reply t wrote answer hroom hreply ht hwrote hanswer =>
      rw [List.cons_append, ← List.singleton_append, acked_append, acked_append,
        acked_of_quiet hwrote.quiet, hanswer.acked hfresh] at hr
      exact Or.inl (List.mem_singleton.mp hr)
  | startReply => cases hr
  | startStatus => cases hr
  | cancel req hcancel hread => exact hheld.symm.imp_right fun h => ⟨h, Or.inl hcancel⟩
  | reset hreset => exact hheld.symm.imp_right fun h => ⟨h, Or.inr hreset⟩

/-- Every event releases as it should. -/
theorem hidStep_releasing (e : HidEvent) (hfresh : ∀ msg, e.given = some msg →
    ∀ r ∈ m.parked, r.ptr ≠ msg.ptr) : Releasing m e where
  released r hr := by
    cases e with
    | process mem msg =>
        cases msg with
        | none => cases hr
        | some msg =>
            by_cases hlt : msg.fd.toNat < 16
            · obtain ⟨hhandled, -⟩ := m.v4Process_handled ⟨msg.fd.toNat, hlt⟩ mem msg rfl
              rcases hhandled.released (fresh_read (hfresh msg rfl)) r hr with
                rfl | ⟨hheld, hreleases⟩
              · exact Or.inl rfl
              · refine Or.inr ⟨_, hheld, Or.inr (hreleases.imp ?_ ?_)⟩
                · exact fun h => ⟨mem, msg, rfl, rfl, h⟩
                · exact fun h => ⟨mem, msg, rfl, rfl, h⟩
            · rw [show m.hidStep (.process mem (some msg)) = _ from
                m.v4Process_no_fd mem msg (by omega)] at hr
              exact Or.inl (congrArg some (List.mem_singleton.mp hr).symm)
    | tick line send =>
        obtain ⟨fd, hheld⟩ := released_tick line send r hr
        exact Or.inr ⟨fd, hheld, Or.inl ⟨line, send, rfl⟩⟩
    | complete =>
        rw [show m.hidStep .complete = m.e09Complete from rfl,
          acked_of_quiet m.e09Complete_quiet] at hr
        cases hr
    | outside st route => cases hr
  reset := by
    rintro fd ⟨mem, msg, rfl, hfd, hreset⟩
    obtain ⟨hread, hchange⟩ := m.v4Process_reset fd mem msg hfd hreset
    rw [Session.parked, show (m.hidStep (.process mem (some msg))).1 = _ from rfl]
    rw [show ((m.hidStep (.process mem (some msg))).1.sessions fd).read = none from hread,
      show ((m.hidStep (.process mem (some msg))).1.sessions fd).change = none from hchange]
    rfl

end Event

/-! ### Runs -/

/-- What holds of a run of the HID worker when every message is acknowledged
exactly once. -/
structure AckedOnce (m : Machine) (es : List HidEvent) : Prop where
  /-- Each message given is acknowledged once, or parked once. -/
  once : (↑(given es) : Multiset IpcMessage) =
    ↑(acked (Run.outputs Machine.hidStep m es)) + (Run.final Machine.hidStep m es).parked
  /-- The messages not acknowledged are the parked ones. -/
  remaining : unacked m es = (Run.final Machine.hidStep m es).parked
  /-- Parked messages are different objects, in the session of their own
  descriptor. -/
  distinct : ((Run.final Machine.hidStep m es).parked.map IpcMessage.ptr).Nodup
  own : (Run.final Machine.hidStep m es).HoldsOwn
  /-- A parked message is acknowledged by a tick, a cancel or a reset, and no
  message is parked after a reset. -/
  releasing : Run.Every Machine.hidStep Releasing m es

/-- The messages of one more event. -/
theorem given_append_singleton (es : List HidEvent) (e : HidEvent) :
    given (es ++ [e]) = given es ++ e.given.toList := by
  rw [given, given, List.filterMap_append]
  congr 1

/-- Fresh submissions are so up to any event. -/
theorem FreshSubmissions.init {m : Machine} {es : List HidEvent} {e : HidEvent}
    (h : FreshSubmissions m (es ++ [e])) : FreshSubmissions m es := by
  rintro es₁ mem msg es₂ rfl
  exact h es₁ mem msg (es₂ ++ [e]) (by rw [List.append_assoc]; rfl)

/-- Submissions are fresh when every message has an object of its own. -/
theorem FreshSubmissions.of_nodup {m : Machine} {es : List HidEvent}
    (h : ((given es).map IpcMessage.ptr).Nodup) : FreshSubmissions m es := by
  rintro es₁ mem msg es₂ rfl r hr hptr
  have hgiven : r ∈ given es₁ :=
    Multiset.mem_coe.mp (Multiset.mem_of_le (Multiset.sub_le_self _ _) hr)
  have hsplit : given (es₁ ++ .process mem (some msg) :: es₂) = given es₁ ++ msg :: given es₂ :=
    List.filterMap_append
  rw [hsplit, List.map_append, List.map_cons, List.nodup_append] at h
  exact h.2.2 _ (List.mem_map_of_mem hgiven) _ List.mem_cons_self hptr

/-- The last message of a run with fresh submissions is not parked. -/
theorem FreshSubmissions.last {m : Machine} {es : List HidEvent} {e : HidEvent}
    (h : FreshSubmissions m (es ++ [e])) {msg : IpcMessage} (hgiven : e.given = some msg) :
    ∀ r ∈ unacked m es, r.ptr ≠ msg.ptr := by
  cases e with
  | process mem msg' =>
      obtain rfl : msg' = some msg := hgiven
      exact h es mem msg [] rfl
  | _ => cases hgiven

/-- Parked messages stay different objects. -/
theorem nodup_parked {p p' : Multiset IpcMessage} {msg : Option IpcMessage}
    (hp : (p.map IpcMessage.ptr).Nodup) (hfresh : ∀ g, msg = some g → ∀ r ∈ p, r.ptr ≠ g.ptr)
    (hle : p' ≤ p + ↑msg.toList) : (p'.map IpcMessage.ptr).Nodup := by
  refine Multiset.nodup_of_le (Multiset.map_le_map hle) ?_
  cases msg with
  | none => simpa using hp
  | some g =>
      rw [Multiset.map_add, Multiset.nodup_add]
      refine ⟨hp, Multiset.nodup_singleton _, ?_⟩
      rw [Multiset.disjoint_left]
      intro ptr hptr hg
      obtain ⟨r, hr, rfl⟩ := Multiset.mem_map.mp hptr
      exact hfresh g rfl r hr (Multiset.mem_singleton.mp hg)

/-- One more event after a run in which every message was acknowledged once. -/
theorem AckedOnce.snoc {m : Machine} {es : List HidEvent} {e : HidEvent} (h : AckedOnce m es)
    (hfresh : ∀ msg, e.given = some msg → ∀ r ∈ unacked m es, r.ptr ≠ msg.ptr) :
    AckedOnce m (es ++ [e]) := by
  obtain ⟨honce, hunacked, hdistinct, hown, hreleasing⟩ := h
  rw [hunacked] at hfresh
  have hcount := hidStep_acked e hfresh
  have honce' : (↑(given (es ++ [e])) : Multiset IpcMessage) =
      ↑(acked (Run.outputs Machine.hidStep m (es ++ [e]))) +
        (Run.final Machine.hidStep m (es ++ [e])).parked := by
    rw [given_append_singleton, Run.outputs_append, Run.final_append, acked_append]
    simp only [← Multiset.coe_add, Run.outputs_cons, Run.outputs_nil, Run.final_cons, Run.final_nil,
      List.append_nil]
    rw [honce, add_assoc, add_assoc, hcount]
  refine ⟨honce', ?_, ?_, ?_, ?_⟩
  · rw [unacked, honce', add_tsub_cancel_left]
  · rw [Run.final_append]
    refine nodup_parked hdistinct hfresh ?_
    rw [← hcount]
    exact Multiset.le_add_left _ _
  · rw [Run.final_append]
    exact hown.step e hfresh
  · rw [Run.every_append]
    exact ⟨hreleasing, hidStep_releasing e hfresh, trivial⟩

/-- Every message given to the HID worker is acknowledged exactly once, in its
own call or later, and until then it is parked. -/
theorem acked_exactly_once {io : StartIo} {es : List HidEvent}
    (hfresh : FreshSubmissions (Machine.start io) es) : AckedOnce (Machine.start io) es := by
  induction es using List.reverseRecOn with
  | nil =>
      have hempty (fd : Fin 16) : ((Machine.start io).sessions fd).parked = 0 := by
        rw [start_sessions]; rfl
      have hparked : (Machine.start io).parked = 0 := Finset.sum_eq_zero fun fd _ => hempty fd
      refine ⟨?_, ?_, ?_, fun fd r hr => ?_, trivial⟩
      · exact ((zero_add _).trans hparked).symm
      · exact hparked.symm
      · rw [show (Run.final Machine.hidStep (Machine.start io) []).parked = 0 from hparked]
        exact Multiset.nodup_zero
      · rw [show ((Run.final Machine.hidStep (Machine.start io) []).sessions fd).parked = 0 from
          hempty fd] at hr
        exact absurd hr (Multiset.notMem_zero r)
  | append_singleton es e ih => exact (ih hfresh.init).snoc fun msg hgiven => hfresh.last hgiven

/-- The requests acknowledged in a run, by their objects. -/
def ackedPtrs (es : List HidEvent) : List U32 :=
  (acked (Run.outputs Machine.hidStep (Machine.start .ok) es)).map IpcMessage.ptr

/-- The two requests before the first read are acknowledged and the read is parked; then a
cancel acknowledges the read and itself. -/
theorem acked_exactly_once_firstRead :
    ackedPtrs firstRead = [1, 2] ∧ ackedPtrs (firstRead ++ [.cancelIn 4]) = [1, 2, 3, 4] ∧
      AckedOnce (Machine.start .ok) (firstRead ++ [.cancelIn 4]) :=
  ⟨by decide, by decide, acked_exactly_once (.of_nodup (by decide))⟩

end VirtualPortal
