/-
# The status stream

What a game sees of a portal slot is the sequence of its codes in the status packets
delivered.  `status_stream` is the law of this sequence for a session from its
GETVERSION on: every code follows the one before it (`Follows`), so a figure seen is
removed before the slot is empty and before another one is added, and the packets are
numbered without a gap.  It holds under any order of requests, ticks and completions
as long as the session is not reset and the menu asks for no rescan.

`Core.Slotted` is used here: a figure that is told to leave was there, and one that is
told to come was not.
-/

import VirtualPortal.Hid.Showing
import VirtualPortal.Storage.Slots
import Mathlib.Data.List.Chain

namespace VirtualPortal

namespace System

/-- The step is a GETVERSION, a shutdown or a close of `fd`. -/
def Resets (fd : Fin 16) (σ : System) (a : Action) : Prop :=
  ∃ io msg events, a = .hid io ∧ σ.events = .request (some msg) :: events ∧
    msg.fd.toNat = fd.val ∧ VirtualPortal.Resets msg

/-- The step is a successful GETVERSION of `fd`. -/
def GetsVersion (fd : Fin 16) (σ : System) (a : Action) : Prop :=
  ∃ io msg events, a = .hid io ∧ σ.events = .request (some msg) :: events ∧
    msg.fd.toNat = fd.val ∧ msg.command = iosIoctl ∧ v4VersionRequest msg = true

/-- The step is a tick whose mailbox poll takes a rescan request. -/
def Rescans (σ : System) (a : Action) : Prop :=
  ∃ io events, a = .hid io ∧ σ.events = .tick :: events ∧ σ.hid.ticks + 1 &&& 7 = 0 ∧
    { σ.hid with ticks := σ.hid.ticks + 1 }.Rescans io.line

/-- The figures are in order and at most one disk job exists. -/
def Sound (σ : System) : Prop :=
  ∃ p, σ.HasPhase p ∧ (σ.core p).Coherent ∧ (σ.core p).Slotted

/-- Every step keeps the system sound. -/
theorem Sound.step {σ : System} (h : σ.Sound) (a : Action) : (σ.step a).1.Sound := by
  obtain ⟨p, hp, hc, hs⟩ := h
  obtain ⟨p', hp', hstep, -⟩ := σ.step_core_any a hp hc
  exact ⟨p', hp', hc.step hstep, hs.step hc hstep⟩

/-- In a sound system slots and positions are consistent. -/
theorem Sound.slotted {σ : System} (h : σ.Sound) : σ.hid.toStorage.Slotted := by
  obtain ⟨p, -, -, hs⟩ := h
  exact hs.slots

end System

/-! ### One step -/

section Step

variable {σ : System} {a : Action} {fd : Fin 16} {c : Fin 16 → U8} {n : U8}

/-- Without a disk job a step that is no tick makes none. -/
theorem System.idle_outside (ha : ∀ io, a ≠ .hid io) (h : σ.HasPhase .idle) :
    (σ.step a).1.HasPhase .idle := by
  obtain ⟨hjobs, hworker, hevents⟩ := h
  cases a with
  | hid io => exact absurd rfl (ha io)
  | timer =>
      exact ⟨hjobs, hworker, (count_complete_append _ (by decide)).trans hevents⟩
  | ioctl msg send => exact (σ.v4IoctlDispatch_posts msg send).1.hasPhase ⟨hjobs, hworker, hevents⟩
  | close msg send => exact (σ.v4CloseDispatch_posts msg send).1.hasPhase ⟨hjobs, hworker, hevents⟩
  | receive =>
      simp only [System.step, hworker, hjobs]
      exact ⟨hjobs, hworker, hevents⟩
  | run io =>
      simp only [System.step, hworker]
      exact ⟨hjobs, hworker, hevents⟩
  | completed send =>
      simp only [System.step, hworker]
      exact ⟨hjobs, hworker, hevents⟩

/-- A request of a game begins no disk job. -/
theorem System.idle_request {msg : Option IpcMessage} {events : List Event}
    (hevents : σ.events = .request msg :: events) (io : HidIo) (h : σ.HasPhase .idle) :
    (σ.step (.hid io)).1.HasPhase .idle := by
  obtain ⟨hjobs, hworker, hcount⟩ := h
  rw [System.step_event hevents]
  refine ⟨?_, hworker, ?_⟩
  · show σ.jobs ++ submitted (σ.hid.v4Process io.mem msg).2 = []
    rw [submitted_process, hjobs, List.append_nil]
  · rw [hevents, List.count_cons_of_ne (by simp)] at hcount
    exact hcount

/-- Only a load job is completed with an action running, and only once a job exists. -/
theorem System.Sound.completes {events : List Event} (h : σ.Sound)
    (hevents : σ.events = .complete :: events) (io : HidIo) :
    ¬ σ.HasPhase .idle ∧ (σ.step (.hid io)).1.HasPhase .idle ∧
      (σ.hid.op = .load → σ.hid.action ≠ none) := by
  obtain ⟨p, hp, hc, hs⟩ := h
  have hnot : ¬ σ.HasPhase .idle := by
    rintro ⟨-, -, hcount⟩
    rw [hevents, List.count_cons_self] at hcount
    omega
  refine ⟨hnot, (@System.step_complete_core .any _ _ hevents io _ hp).1, fun hop => ?_⟩
  obtain ⟨haction, -⟩ := hs.load (fun hidle => hnot (hidle ▸ hp)) hop
  rw [show σ.hid.action = _ from haction]
  simp

/-- A completion keeps the stream of status packets. -/
theorem System.streams_complete {events : List Event} (hsound : σ.Sound)
    (hm : σ.hid.Streaming fd (σ.HasPhase .idle) c n) (hevents : σ.events = .complete :: events)
    (io : HidIo) :
    Machine.Streams fd ((σ.step (.hid io)).1.HasPhase .idle) c n σ.hid (σ.step (.hid io)).1.hid
      (statusesTo fd (σ.step (.hid io)).2) := by
  obtain ⟨hnot, hidle, hload⟩ := hsound.completes hevents io
  have htold :=
    (σ.hid.e09Complete_figures : FigureChange _ False _ _).told ⟨hsound.slotted, hload⟩ id fd
  have horderly : σ.hid.e09Complete.1.Orderly fd := hm.toOrderly.step .complete
  have hquiet : statusesTo fd σ.hid.e09Complete.2 = [] := by
    rw [statusesTo, deliveredTo_of_quiet σ.hid.e09Complete_quiet]
    rfl
  have hstreams := Machine.Streams.none (hm.told horderly htold hnot hidle) htold.queue
  rw [← hquiet] at hstreams
  have hstep := System.step_event hevents io
  rw [hstep] at hstreams ⊢
  exact hstreams

/-- A request that does not end the session keeps the stream. -/
theorem System.streams_request {msg : Option IpcMessage} {events : List Event}
    (hm : σ.hid.Streaming fd (σ.HasPhase .idle) c n) (hevents : σ.events = .request msg :: events)
    {io : HidIo} (hreset : ¬ σ.Resets fd (.hid io)) :
    Machine.Streams fd ((σ.step (.hid io)).1.HasPhase .idle) c n σ.hid (σ.step (.hid io)).1.hid
      (statusesTo fd (σ.step (.hid io)).2) := by
  have hquiet : statusesTo fd (σ.hid.v4Process io.mem msg).2 = [] := by
    rw [statusesTo, deliveredTo_process]
    rfl
  have hreset' : ¬ (HidEvent.process io.mem msg).Resets fd := by
    rintro ⟨mem, req, he, hfd, hreq⟩
    obtain ⟨rfl, rfl⟩ := HidEvent.process.inj he
    exact hreset ⟨io, req, events, rfl, hevents, hfd, hreq⟩
  have hstreams := Machine.Streams.none
    (hm.process io.mem msg hreset' (System.idle_request hevents io))
    (hm.evolves_process io.mem msg hreset')
  rw [← hquiet] at hstreams
  have hstep := System.step_event hevents io
  rw [hstep] at hstreams ⊢
  exact hstreams

/-- A tick that does not rescan delivers the next status packet at most. -/
theorem System.streams_tick {events : List Event} (hsound : σ.Sound)
    (hm : σ.hid.Streaming fd (σ.HasPhase .idle) c n) (hevents : σ.events = .tick :: events)
    {io : HidIo} (hrescans : ¬ σ.Rescans (.hid io)) :
    Machine.Streams fd ((σ.step (.hid io)).1.HasPhase .idle) c n σ.hid (σ.step (.hid io)).1.hid
      (statusesTo fd (σ.step (.hid io)).2) := by
  have hstep := System.step_event hevents io
  rw [hstep]
  exact hm.tick hsound.slotted
    (fun hpoll h => hrescans ⟨io, events, rfl, hevents, hpoll, h⟩) io.send

/-- Every step without a reset of `fd` and without a rescan keeps the stream. -/
theorem System.streams_step (hsound : σ.Sound)
    (hm : σ.hid.Streaming fd (σ.HasPhase .idle) c n) (hreset : ¬ σ.Resets fd a)
    (hrescans : ¬ σ.Rescans a) :
    Machine.Streams fd ((σ.step a).1.HasPhase .idle) c n σ.hid (σ.step a).1.hid
      (statusesTo fd (σ.step a).2) := by
  by_cases ha : ∃ io, a = .hid io
  · obtain ⟨io, rfl⟩ := ha
    cases hevents : σ.events with
    | nil =>
        have hstep : σ.step (.hid io) = (σ, []) := by simp only [System.step, hevents]
        rw [hstep]
        exact .none hm fun _ => .refl
    | cons event events =>
        cases event with
        | tick => exact System.streams_tick hsound hm hevents hrescans
        | complete => exact System.streams_complete hsound hm hevents io
        | request msg => exact System.streams_request hm hevents hreset
  · have ha' (io : HidIo) : a ≠ .hid io := fun h => ha ⟨io, h⟩
    obtain ⟨st, route, hhid, hslots, hquiet⟩ := σ.step_outside ha'
    have horderly := hm.toOrderly.step (.outside st route)
    rw [statusesTo, hquiet fd, List.filter_nil, hhid]
    refine .none (hm.of_keepsStatus horderly ⟨rfl, fun i => ?_⟩ (keepsStatus_refl _)
      (System.idle_outside ha')) fun i => ?_
    · show (st.slots i).present = _
      rw [hslots]
    · show Evolves _ _ _ ((σ.hid.sessions fd).transitions i) (st.slots i).present
      rw [hslots]
      exact .refl

end Step
/-! ### Runs -/

/-- The code of a slot in the last packet delivered, 0 before the first. -/
def lastCode (packets : List (Bytes 32)) (i : Fin 16) : U8 :=
  (packets.map (code · i)).getLast?.getD 0

/-- The codes of each slot follow each other, from 0 on, and the packets are numbered
without a gap, from 0 on. -/
structure StatusLaw (packets : List (Bytes 32)) : Prop where
  codes : ∀ i, (0 :: packets.map (code · i)).IsChain Follows
  counters : packets.map (· 5) = (List.range packets.length).map (BitVec.ofNat 8)

/-- One more packet that follows the others keeps the law. -/
theorem StatusLaw.snoc {packets : List (Bytes 32)} (h : StatusLaw packets) {packet : Bytes 32}
    (hfollows : ∀ i, Follows (lastCode packets i) (code packet i))
    (hcounter : packet 5 = BitVec.ofNat 8 packets.length) : StatusLaw (packets ++ [packet]) := by
  constructor
  · intro i
    rw [List.map_append, ← List.cons_append, List.isChain_append]
    refine ⟨h.codes i, List.isChain_singleton _, fun x hx y hy => ?_⟩
    rw [List.getLast?_cons, Option.mem_some_iff] at hx
    rw [← hx, ← Option.mem_some_iff.mp hy]
    exact hfollows i
  · rw [List.map_append, h.counters, List.length_append, List.length_singleton, List.range_succ,
      List.map_append, List.map_singleton, List.map_singleton, hcounter]

/-- The last code is that of the last packet. -/
theorem lastCode_snoc (packets : List (Bytes 32)) (packet : Bytes 32) :
    lastCode (packets ++ [packet]) = code packet := by
  funext i
  rw [lastCode, List.map_append, List.map_singleton, List.getLast?_append]
  rfl

/-- From `σ₀`, where `packets₀` had been delivered, to `σ` the session has been
streaming, and `packets` were delivered. -/
structure Streamed (fd : Fin 16) (σ₀ σ : System) (packets₀ packets : List (Bytes 32)) : Prop where
  sound : σ.Sound
  law : StatusLaw (packets₀ ++ packets)
  streaming : σ.hid.Streaming fd (σ.HasPhase .idle) (lastCode (packets₀ ++ packets))
    (BitVec.ofNat 8 (packets₀ ++ packets).length)
  queue : σ₀.hid.Evolves σ.hid fd packets

section Runs

variable {fd : Fin 16} {σ₀ σ : System} {packets₀ packets : List (Bytes 32)}

/-- A step that neither ends the session nor rescans keeps the stream. -/
theorem Streamed.step {a : Action} (h : Streamed fd σ₀ σ packets₀ packets)
    (hreset : ¬ σ.Resets fd a)
    (hrescans : ¬ σ.Rescans a) :
    Streamed fd σ₀ (σ.step a).1 packets₀ (packets ++ statusesTo fd (σ.step a).2) := by
  have hstreams := System.streams_step h.sound h.streaming hreset hrescans
  have hsound := h.sound.step a
  generalize statusesTo fd (σ.step a).2 = new at hstreams ⊢
  have hqueue {new : List (Bytes 32)} (hnew : σ.hid.Evolves (σ.step a).1.hid fd new) :
      σ₀.hid.Evolves (σ.step a).1.hid fd (packets ++ new) := fun i => by
    rw [List.map_append]
    exact (h.queue i).trans (hnew i)
  cases hstreams with
  | none hm hnew =>
      refine ⟨hsound, ?_, ?_, hqueue hnew⟩
      · rw [List.append_nil]
        exact h.law
      · rw [List.append_nil]
        exact hm
  | one packet hfollows hcounter hm hnew =>
      refine ⟨hsound, ?_, ?_, hqueue hnew⟩
      · rw [← List.append_assoc]
        exact h.law.snoc hfollows hcounter
      · rw [← List.append_assoc, lastCode_snoc, List.length_append, List.length_singleton,
          BitVec.ofNat_add]
        exact hm

/-- A run without a reset of `fd` and without a rescan goes on streaming. -/
theorem Streamed.run {as : List Action} (h : Streamed fd σ₀ σ₀ packets₀ [])
    (has : Run.Every System.step (fun σ a => ¬ σ.Resets fd a ∧ ¬ σ.Rescans a) σ₀ as) :
    Streamed fd σ₀ (Run.final System.step σ₀ as) packets₀
      (statusesTo fd (Run.outputs System.step σ₀ as)) := by
  refine Run.outputs_of_every (l := [])
    (P := fun σ out => Streamed fd σ₀ σ packets₀ (statusesTo fd out)) (fun σ out a ha h => ?_) has h
  rw [statusesTo_append]
  exact h.step ha.1 ha.2

/-- A later part of a run streams on its own. -/
theorem Streamed.restart (h : Streamed fd σ₀ σ packets₀ packets) :
    Streamed fd σ σ (packets₀ ++ packets) [] := by
  refine ⟨h.sound, ?_, ?_, fun _ => .refl⟩
  · rw [List.append_nil]
    exact h.law
  · rw [List.append_nil]
    exact h.streaming

/-- The queues of every session are in order in every run. -/
theorem System.orderly (d : Disk) (io : StartIo) (as : List Action) (fd : Fin 16) :
    (Run.final System.step (System.init d io) as).hid.Orderly fd := by
  refine Run.final_of_every (P := fun σ : System => σ.hid.Orderly fd) (fun σ a _ h => ?_)
    (Run.every_true _ as) (.start io fd)
  obtain ⟨e, he, -⟩ := σ.step_hid a
  rw [he]
  exact h.step e

/-- Every state that is reached is sound. -/
theorem System.sound (d : Disk) (io : StartIo) (as : List Action) :
    (Run.final System.step (System.init d io) as).Sound :=
  System.slotted_of_every (System.meets_any (System.init d io) as)

/-- The slots that are present are queued to be shown to a session that a GETVERSION
opens. -/
theorem Streamed.start {a : Action} (hsound : σ.Sound) (horderly : σ.hid.Orderly fd)
    (hversion : σ.GetsVersion fd a) :
    Streamed fd (σ.step a).1 (σ.step a).1 [] [] := by
  obtain ⟨io, msg, events, rfl, hevents, hfd, hioctl, hversion⟩ := hversion
  have hsound' := hsound.step (.hid io)
  have hprocess := σ.hid.v4Process_version fd io.mem msg hfd hioctl hversion
  have horderly' : (σ.hid.v4Process io.mem (some msg)).1.Orderly fd :=
    horderly.step (.process io.mem (some msg))
  have hsession : (σ.hid.v4Process io.mem (some msg)).1.sessions fd = σ.hid.versionSession := by
    rw [hprocess]
    exact σ.hid.sessions_setSession fd _
  have hstep := System.step_event hevents io
  have hhid : (σ.step (.hid io)).1.hid = (σ.hid.v4Process io.mem (some msg)).1 := by
    rw [hstep]
    rfl
  have hread (req : IpcMessage) : ((σ.step (.hid io)).1.hid.sessions fd).read ≠ some req := by
    rw [hhid, hsession]
    exact nofun
  refine ⟨hsound', ⟨fun i => List.isChain_singleton _, rfl⟩, ⟨?_, ?_, ?_, fun i => ?_,
    fun req h => absurd h (hread req), fun req h => absurd h (hread req)⟩, fun _ => .refl⟩
  · rw [hhid]
    exact horderly'
  · rw [hhid, hsession]
    rfl
  · rw [hhid, hsession]
    rfl
  · rw [hhid, hsession, (σ.hid.v4Process_sameFigures io.mem (some msg)).present]
    exact .announced _

/-- What the host sees of the slots in a run of a session. -/
structure StatusStream (fd : Fin 16) (σ : System) (as : List Action) : Prop where
  law : StatusLaw (statusesTo fd (Run.outputs System.step σ as))
  /-- A figure seen is removed before its slot is empty. -/
  removed : ∀ i l₁ c l₂ l₃, (statusesTo fd (Run.outputs System.step σ as)).map (code · i) =
    l₁ ++ c :: l₂ ++ 0 :: l₃ → c = 1 ∨ c = 3 → 2 ∈ l₂
  /-- A figure seen is removed, and its slot empty, before a figure is added. -/
  replaced : ∀ i l₁ c l₂ b l₃, (statusesTo fd (Run.outputs System.step σ as)).map (code · i) =
    l₁ ++ c :: l₂ ++ b :: 3 :: l₃ → c = 1 ∨ c = 3 → b ≠ 3 → [2, 0].Sublist (l₂ ++ [b])
  /-- Once a figure seen has gone, no packet shows the next one as added before the host
  has been given both. -/
  gone : ∀ i as₁ as₂, as = as₁ ++ as₂ →
    ((Run.final System.step σ as₁).hid.slots i).present = false →
    lastCode (statusesTo fd (Run.outputs System.step σ as₁)) i = 1 ∨
      lastCode (statusesTo fd (Run.outputs System.step σ as₁)) i = 3 →
    ((Run.final System.step σ as).hid.sessions fd).statusCode i = 3 →
    [2, 0].Sublist
      ((statusesTo fd (Run.outputs System.step (Run.final System.step σ as₁) as₂)).map (code · i))
  /-- With an empty queue the committed status tells whether the slot is present. -/
  settled : ∀ i, ((Run.final System.step σ as).hid.sessions fd).transitions i = 0 →
    (((Run.final System.step σ as).hid.sessions fd).status i = 1 ↔
      ((Run.final System.step σ as).hid.slots i).present = true)

/-- A slot last reported as present whose figure is gone is to report its leaving. -/
theorem Shows.gone {q : U16} {s c : U8} {present : Bool} (h : Shows q s present c)
    (hpresent : present = false) (hc : c = 1 ∨ c = 3) : q = 0x46 := by
  cases h with
  | settled => subst hpresent; rcases hc with hc | hc <;> exact absurd hc (by decide)
  | removing => rfl
  | removed s c h =>
      rcases h with rfl | rfl <;> rcases hc with hc | hc <;> exact absurd hc (by decide)
  | _ => cases hpresent

/-- A part of a chain is a chain. -/
theorem isChain_middle {l l₁ l₂ l₃ : List U8} (h : l.IsChain Follows) (hl : l = l₁ ++ l₂ ++ l₃) :
    l₂.IsChain Follows := by
  rw [hl] at h
  exact h.left_of_append.right_of_append

/-- From a GETVERSION on, in every run without a reset of the session and without a
rescan, the host sees the slots as it should. -/
theorem status_stream {d : Disk} {io : StartIo} {as₀ as : List Action} {a : Action} {fd : Fin 16}
    (hversion : (Run.final System.step (System.init d io) as₀).GetsVersion fd a)
    (has : Run.Every System.step (fun σ a => ¬ σ.Resets fd a ∧ ¬ σ.Rescans a)
      ((Run.final System.step (System.init d io) as₀).step a).1 as) :
    StatusStream fd ((Run.final System.step (System.init d io) as₀).step a).1 as := by
  have hstart := Streamed.start (System.sound d io as₀) (System.orderly d io as₀ fd) hversion
  generalize ((Run.final System.step (System.init d io) as₀).step a).1 = σ at has hstart ⊢
  have hrun := hstart.run has
  have hlaw : StatusLaw (statusesTo fd (Run.outputs System.step σ as)) := hrun.law
  refine ⟨hlaw, fun i l₁ c l₂ l₃ hl hc => ?_, fun i l₁ c l₂ b l₃ hl hc hb => ?_,
    fun i as₁ as₂ has₁₂ hpresent hlast hshown => ?_, fun i hempty => ?_⟩
  · refine two_before_zero (@isChain_middle _ l₁ _ l₃ (hlaw.codes i).tail ?_) hc
    rw [List.tail_cons, hl]
    simp
  · refine two_zero_before_three (@isChain_middle _ l₁ _ l₃ (hlaw.codes i).tail ?_) hc hb
    rw [List.tail_cons, hl]
    simp
  · subst has₁₂
    rw [Run.every_append] at has
    have hfirst := hstart.run has.1
    have hsecond := hfirst.restart.run has.2
    have hq := (hfirst.streaming.showing i).gone hpresent hlast
    have hstage := hsecond.queue i
    rw [hq, hpresent] at hstage
    rw [Run.final_append] at hshown
    exact hstage.stage.added (shownCode_of_statusCode hshown)
  · exact (hrun.streaming.showing i).status hempty

/-- A status read and the tick that delivers its packet. -/
def firstStatus : List Action :=
  [.ioctl (some (portalRequest 2 3 32)) 0, .hid ⟨memoryAt readHeader, fun _ => 0, 0⟩, .timer,
    .hid ⟨memoryAt [], fun _ => 0, 0⟩]

/-- The first status packet after a GETVERSION. -/
theorem status_stream_firstStatus :
    StatusStream 0 ((Run.final System.step (System.init (fun _ => none) .ok)
      [.ioctl (some (portalRequest 1 6 0)) 0]).step (.hid ⟨memoryAt [], fun _ => 0, 0⟩)).1
      firstStatus := by
  refine status_stream ⟨_, portalRequest 1 6 0, [], rfl, rfl, rfl, rfl, rfl⟩ ⟨⟨?_, ?_⟩, ⟨?_, ?_⟩,
    ⟨?_, ?_⟩, ⟨?_, ?_⟩, trivial⟩
  · exact fun ⟨_, _, _, h, _⟩ => nomatch h
  · exact fun ⟨_, _, h, _⟩ => nomatch h
  · rintro ⟨io, msg, events, -, hevents, -, hreset⟩
    have hmsg : [Event.request (some (portalRequest 2 3 32))] = .request (some msg) :: events :=
      hevents
    obtain rfl : portalRequest 2 3 32 = msg := by simpa using (List.cons.inj hmsg).1
    revert hreset
    unfold Resets
    decide
  · rintro ⟨io, events, -, hevents, -⟩
    have htick : [Event.request (some (portalRequest 2 3 32))] = .tick :: events := hevents
    cases htick
  · exact fun ⟨_, _, _, h, _⟩ => nomatch h
  · exact fun ⟨_, _, h, _⟩ => nomatch h
  · rintro ⟨io, msg, events, -, hevents, -⟩
    have hmsg : [Event.tick] = .request (some msg) :: events := hevents
    cases hmsg
  · rintro ⟨io, events, -, -, hpoll, -⟩
    exact absurd hpoll (by decide)

end Runs
end VirtualPortal
