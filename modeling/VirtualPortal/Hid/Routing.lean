/-
# Which messages reach the worker

The dispatcher and the worker (`Dispatch`) share the route flags.  Both write them:
the dispatcher sets a flag after the message is in the queue, and perhaps after the
worker has processed it, and the worker clears the flag when it takes a close.

`Opened` says what the flag is for: a descriptor is open from a GETVERSION to the
next close, and the messages of an open descriptor go to the worker.  A `Lane` is
what the two threads and the queue hold of one descriptor.  While IOS has no message
for a descriptor that is being closed, the lane of an open descriptor has its flag set
or about to be set, and the close of a descriptor is the last message of its lane.
-/

import VirtualPortal.Hid.Dispatch

namespace VirtualPortal

namespace Arrival

/-- The request is a GETVERSION on a descriptor. -/
def Opens (fd : Fin 16) : Arrival → Prop
  | .ioctl (some m) => m.fd.toNat = fd ∧ m.command = iosIoctl ∧ v4VersionRequest m
  | _ => False

/-- The message closes a descriptor. -/
def Closes (fd : Fin 16) : Arrival → Prop
  | .close (some m) => m.fd.toNat = fd
  | _ => False

/-- The message is for a descriptor. -/
def On (fd : Fin 16) : Arrival → Prop
  | .ioctl (some m) | .close (some m) => m.fd.toNat = fd
  | _ => False

/-- `v4_close_dispatch` is called with closes. -/
def Proper : Arrival → Prop
  | .close (some m) => m.command = iosClose
  | _ => True

end Arrival

/-- A GETVERSION has opened the descriptor and no close has come since. -/
def Opened (as : List Arrival) (fd : Fin 16) : Prop :=
  ∃ before a after, as = before ++ a :: after ∧ a.Opens fd ∧ ∀ b ∈ after, ¬ b.Closes fd

/-- At the start no descriptor is open. -/
theorem not_opened_nil (fd : Fin 16) : ¬ Opened [] fd := by
  rintro ⟨before, a, after, h, -⟩
  simp at h

/-- One more arrival opens, closes or leaves a descriptor. -/
theorem opened_snoc (as : List Arrival) (a : Arrival) (fd : Fin 16) :
    Opened (as ++ [a]) fd ↔ a.Opens fd ∨ (Opened as fd ∧ ¬ a.Closes fd) := by
  constructor
  · rintro ⟨before, b, after, has, hopens, hafter⟩
    rcases List.eq_nil_or_concat after with rfl | ⟨after, c, rfl⟩
    · obtain ⟨-, rfl⟩ := List.append_inj' has rfl |>.imp_right List.singleton_inj.mp
      exact .inl hopens
    · rw [List.concat_eq_append, ← List.cons_append, ← List.append_assoc] at has
      obtain ⟨rfl, hac⟩ := List.append_inj' has rfl
      obtain rfl := List.singleton_inj.mp hac
      rw [List.concat_eq_append] at hafter
      refine .inr ⟨⟨before, b, after, rfl, hopens, fun c hc => ?_⟩, ?_⟩
      · exact hafter c (List.mem_append_left _ hc)
      · exact hafter a (List.mem_append_right _ List.mem_cons_self)
  · rintro (hopens | ⟨⟨before, b, after, rfl, hopens, hafter⟩, hcloses⟩)
    · exact ⟨as, a, [], rfl, hopens, fun b hb => absurd hb List.not_mem_nil⟩
    · refine ⟨before, b, after ++ [a], by simp, hopens, fun c hc => ?_⟩
      rcases List.mem_append.mp hc with hc | hc
      · exact hafter c hc
      · rwa [List.mem_singleton.mp hc]

/-! ### What is on its way to the worker -/

/-- The request of an event. -/
def Event.message : Event → Option IpcMessage
  | .request msg => msg
  | _ => none

namespace DispatchPoint

/-- The message the dispatcher still has to send. -/
def unsent : DispatchPoint → List IpcMessage
  | .sendIoctl m _ | .sendClose m => [m]
  | _ => []

/-- The dispatcher is going to set the route flag of a descriptor. -/
def opening (fd : Fin 16) : DispatchPoint → Bool
  | .sendIoctl _ fd' | .setRoute fd' => fd' = fd
  | _ => false

end DispatchPoint

/-- How far the worker is with the close of one descriptor. -/
inductive CloseStage where
  | idle
  | zeroed
  | unrouted
deriving DecidableEq

/-- The worker's stage for a descriptor. -/
def ClosePoint.stage (fd : Fin 16) : ClosePoint → CloseStage
  | .waiting => .idle
  | .zeroed _ fd' => if fd' = fd then .zeroed else .idle
  | .unrouted _ fd' => if fd' = fd then .unrouted else .idle

/-- What the two threads and the queue hold of one descriptor. -/
structure Lane where
  flag : Bool
  opening : Bool
  pending : List IpcMessage
  stage : CloseStage

/-- The messages sent, or about to be sent, that the worker has not taken. -/
def Threads.inFlight (σ : Threads) : List IpcMessage :=
  σ.queue.filterMap Event.message ++ σ.dispatcher.unsent

/-- The lane of a descriptor. -/
def Threads.lane (σ : Threads) (fd : Fin 16) : Lane where
  flag := σ.hid.route fd
  opening := σ.dispatcher.opening fd
  pending := σ.inFlight.filter fun m => m.fd.toNat = fd
  stage := σ.worker.stage fd

namespace Lane

/-- The lane of an open descriptor: the flag is set or about to be set. -/
structure IsOpen (l : Lane) : Prop where
  flag : l.opening = false → l.flag = true
  pending : ∀ m ∈ l.pending, m.command ≠ iosClose
  stage : l.stage = .idle

/-- The lane of a descriptor whose last close has been dispatched: the close is the
last message on its way, or the worker is clearing the flag, or the flag is clear. -/
inductive IsShut (l : Lane) : Prop where
  | closing (before : List IpcMessage) (m : IpcMessage) (hopening : l.opening = false)
      (hpending : l.pending = before ++ [m]) (hbefore : ∀ m ∈ before, m.command ≠ iosClose)
      (hclose : m.command = iosClose) (hstage : l.stage = .idle)
  | zeroed (hopening : l.opening = false) (hpending : l.pending = []) (hstage : l.stage = .zeroed)
  | shut (hopening : l.opening = false) (hpending : l.pending = []) (hflag : l.flag = false)
      (hstage : l.stage ≠ .zeroed)

/-- The lane agrees with the messages that have arrived. -/
structure Tracks (l : Lane) (opened : Prop) : Prop where
  isOpen : opened → l.IsOpen
  isShut : ¬ opened → l.IsShut

variable {l : Lane} {opened : Prop} {m : IpcMessage} {rest : List IpcMessage}

/-- A lane that is shut opens nothing. -/
theorem IsShut.opening (h : l.IsShut) : l.opening = false := by
  cases h <;> assumption

/-- The worker takes a message that is no close. -/
theorem Tracks.pop (h : l.Tracks opened) (hpending : l.pending = m :: rest)
    (hm : m.command ≠ iosClose) : ({ l with pending := rest } : Lane).Tracks opened where
  isOpen ho :=
    have ho := h.isOpen ho
    ⟨ho.flag, fun m' hm' => ho.pending m' (hpending ▸ List.mem_cons_of_mem m hm'), ho.stage⟩
  isShut ho := by
    cases h.isShut ho with
    | closing before m' hopening hpending' hbefore hclose hstage =>
        rw [hpending'] at hpending
        cases before with
        | nil =>
            obtain ⟨rfl, -⟩ := List.cons.inj hpending
            exact absurd hclose hm
        | cons m'' before =>
            obtain ⟨-, rfl⟩ := List.cons.inj hpending
            have hbefore : ∀ m ∈ before, m.command ≠ iosClose :=
              fun m hm => hbefore m (List.mem_cons_of_mem _ hm)
            exact .closing before m' hopening rfl hbefore hclose hstage
    | zeroed _ hnil => simp [hnil] at hpending
    | shut _ hnil => simp [hnil] at hpending

/-- The worker takes a close: it is the last message of the lane. -/
theorem Tracks.take (h : l.Tracks opened) (hpending : l.pending = m :: rest)
    (hm : m.command = iosClose) : ¬ opened ∧ l.opening = false ∧ rest = [] := by
  have ho : ¬ opened := fun ho => (h.isOpen ho).pending m (hpending ▸ List.mem_cons_self) hm
  cases h.isShut ho with
  | closing before m' hopening hpending' hbefore hclose hstage =>
      rw [hpending'] at hpending
      cases before with
      | nil => exact ⟨ho, hopening, (List.cons.inj hpending).2.symm⟩
      | cons m'' before =>
          obtain ⟨rfl, -⟩ := List.cons.inj hpending
          exact absurd hm (hbefore m'' List.mem_cons_self)
  | zeroed _ hnil => simp [hnil] at hpending
  | shut _ hnil => simp [hnil] at hpending

/-- The dispatcher is going to send a request of an open descriptor. -/
theorem Tracks.sendIoctl (h : l.Tracks opened) {opened' : Prop} (hm : m.command ≠ iosClose)
    (hstage : l.stage = .idle) (hpending : ¬ opened → l.pending = []) (ho : opened') :
    ({ l with opening := true, pending := l.pending ++ [m] } : Lane).Tracks opened' where
  isOpen _ := by
    refine ⟨(nomatch ·), fun m' hm' => ?_, hstage⟩
    rcases List.mem_append.mp hm' with hm' | hm'
    · by_cases ho : opened
      · exact (h.isOpen ho).pending m' hm'
      · exact absurd (hpending ho ▸ hm') List.not_mem_nil
    · rwa [List.mem_singleton.mp hm']
  isShut ho' := absurd ho ho'

/-- The dispatcher is going to send the close of an open descriptor. -/
theorem Tracks.sendClose (h : l.Tracks opened) {opened' : Prop} (hm : m.command = iosClose)
    (ho : opened) (ho' : ¬ opened') :
    ({ l with opening := false, pending := l.pending ++ [m] } : Lane).Tracks opened' where
  isOpen ho := absurd ho ho'
  isShut _ := .closing l.pending m rfl rfl (h.isOpen ho).pending hm (h.isOpen ho).stage

end Lane

namespace Threads

/-- A close of the descriptor has been dispatched and not yet acknowledged. -/
def Closing (σ : Threads) (fd : Fin 16) : Prop :=
  (∃ m ∈ σ.inFlight, m.fd.toNat = fd ∧ m.command = iosClose) ∨ σ.worker.stage fd ≠ .idle

/-- IOS calls the dispatcher for one message at a time, calls `v4_close_dispatch` with
closes, and has no message for a descriptor that is being closed.  The worker starts,
and the sends to its queue succeed. -/
def Delivers (σ : Threads) : ThreadStep → Prop
  | .arrive a =>
      σ.dispatcher = .waiting ∧ a.Proper ∧ ∀ fd, a.On fd → ¬ σ.Closing fd
  | .dispatcher start send => 0 ≤ start ∧ 0 ≤ send
  | _ => True

/-- What holds of the two threads after the messages `as` have arrived. -/
structure Coherent (σ : Threads) (as : List Arrival) : Prop where
  lanes : ∀ fd, (σ.lane fd).Tracks (Opened as fd)
  closing : ∀ m fd, σ.worker = .zeroed m fd ∨ σ.worker = .unrouted m fd →
    m.fd.toNat = fd ∧ σ.hid.sessions fd = .zero

variable {σ : Threads} {as : List Arrival}

/-- A step that leaves all lanes as they are. -/
theorem Coherent.of_lanes {σ' : Threads} (h : σ.Coherent as) (hlanes : ∀ fd, σ'.lane fd = σ.lane fd)
    (hclosing : ∀ m fd, σ'.worker = .zeroed m fd ∨ σ'.worker = .unrouted m fd →
      m.fd.toNat = fd ∧ σ'.hid.sessions fd = .zero) : σ'.Coherent as :=
  ⟨fun fd => hlanes fd ▸ h.lanes fd, hclosing⟩

/-- An arrival on another descriptor changes nothing about this one. -/
theorem opened_snoc_of_not_on {a : Arrival} {fd : Fin 16} (h : ¬ a.On fd) :
    Opened (as ++ [a]) fd ↔ Opened as fd := by
  have hopens : ¬ a.Opens fd := fun ho => by
    rcases a with ((_ | m) | (_ | m))
    · exact ho
    · exact h ho.1
    · exact ho
    · exact ho
  have hcloses : ¬ a.Closes fd := fun hc => by
    rcases a with ((_ | m) | (_ | m))
    · exact hc
    · exact hc
    · exact hc
    · exact h hc
  rw [opened_snoc]
  exact ⟨fun ho => ho.elim (absurd · hopens) And.left, fun ho => .inr ⟨ho, hcloses⟩⟩

/-! ### The dispatcher -/

/-- The messages the dispatcher hands to the worker. -/
def ToWorker (before : List Arrival) : Arrival → Prop
  | .ioctl (some m) =>
      m.command = iosIoctl ∧
        ∃ fd : Fin 16, m.fd.toNat = fd ∧ (Opened before fd ∨ v4VersionRequest m)
  | .close (some m) => ∃ fd : Fin 16, m.fd.toNat = fd ∧ Opened before fd
  | _ => False

/-- A message of a descriptor that the portal may have. -/
theorem portalFd_eq_some {m : IpcMessage} {fd : Fin 16} (h : m.fd.toNat = fd) :
    System.portalFd (some m) = some (m, fd) := by
  have hfd : m.fd.toNat < 16 := h ▸ fd.isLt
  unfold System.portalFd
  rw [Option.bind_some, dif_pos hfd]
  simp only [h, Fin.eta]

/-- A message of any other descriptor. -/
theorem portalFd_eq_none {m : IpcMessage} (h : ∀ fd : Fin 16, m.fd.toNat ≠ fd) :
    System.portalFd (some m) = none := by
  unfold System.portalFd
  rw [Option.bind_some, dif_neg fun hfd : m.fd.toNat < 16 => h ⟨m.fd.toNat, hfd⟩ rfl]

/-- While the dispatcher waits, the flag of a descriptor that is not being closed says
whether it is open. -/
theorem Coherent.flag (h : σ.Coherent as) (hwaiting : σ.dispatcher = .waiting) {fd : Fin 16}
    (hclosing : ¬ σ.Closing fd) : σ.hid.route fd = true ↔ Opened as fd := by
  have hopening : (σ.lane fd).opening = false := by
    show σ.dispatcher.opening fd = false
    rw [hwaiting]
    rfl
  constructor
  · intro hflag
    by_contra ho
    cases (h.lanes fd).isShut ho with
    | closing before m _ hpending _ hclose _ =>
        have hm : m ∈ (σ.lane fd).pending := hpending ▸ by simp
        obtain ⟨hm, hfd⟩ := List.mem_filter.mp hm
        exact hclosing (.inl ⟨m, hm, of_decide_eq_true hfd, hclose⟩)
    | zeroed _ _ hstage => exact hclosing (.inr fun hidle => nomatch hstage.symm.trans hidle)
    | shut _ _ hflag' _ => exact absurd (hflag.symm.trans hflag') (by decide)
  · exact fun ho => ((h.lanes fd).isOpen ho).flag hopening

/-- A descriptor that is shut and not being closed has nothing on its way. -/
theorem Coherent.lane_shut (h : σ.Coherent as) {fd : Fin 16} (hclosing : ¬ σ.Closing fd)
    (ho : ¬ Opened as fd) : (σ.lane fd).pending = [] := by
  cases (h.lanes fd).isShut ho with
  | closing before m _ hpending _ hclose _ =>
      have hm : m ∈ (σ.lane fd).pending := hpending ▸ by simp
      obtain ⟨hm, hfd⟩ := List.mem_filter.mp hm
      exact absurd (.inl ⟨m, hm, of_decide_eq_true hfd, hclose⟩) hclosing
  | zeroed _ hpending _ => exact hpending
  | shut _ hpending _ _ => exact hpending

/-- A message is handed to the stock handler, or the dispatcher goes on to send it. -/
theorem Coherent.arrive_cases {a : Arrival} (h : σ.Coherent as) (hd : σ.Delivers (.arrive a)) :
    (¬ ToWorker as a ∧ σ.arrive a = (σ, [.stock a])) ∨
      ∃ (m : IpcMessage) (fd : Fin 16), m.fd.toNat = fd ∧ ¬ σ.Closing fd ∧ ToWorker as a ∧
        ((a = .ioctl (some m) ∧ m.command = iosIoctl ∧
          σ.arrive a = ({ σ with dispatcher := .sendIoctl m fd }, [.routed a])) ∨
        (a = .close (some m) ∧ m.command = iosClose ∧ Opened as fd ∧
          σ.arrive a = ({ σ with dispatcher := .sendClose m }, [.routed a]))) := by
  obtain ⟨hwaiting, hproper, hclosing⟩ := hd
  rcases a with ((_ | m) | (_ | m))
  · exact .inl ⟨id, rfl⟩
  · by_cases hfd : ∃ fd : Fin 16, m.fd.toNat = fd
    · obtain ⟨fd, hfd⟩ := hfd
      have hflag := h.flag hwaiting (hclosing fd hfd)
      have hunique : ∀ fd' : Fin 16, m.fd.toNat = fd' → fd' = fd :=
        fun fd' hfd' => Fin.ext (hfd'.symm.trans hfd)
      unfold arrive
      dsimp only
      rw [portalFd_eq_some hfd]
      dsimp only
      by_cases hto : m.command ≠ iosIoctl ∨ (¬ σ.hid.route fd ∧ ¬ v4VersionRequest m)
      · rw [if_pos hto]
        refine .inl ⟨?_, rfl⟩
        rintro ⟨hioctl, fd', hfd', ho⟩
        rw [hunique fd' hfd', ← hflag] at ho
        rcases hto with hto | ⟨hroute, hversion⟩
        · exact hto hioctl
        · exact ho.elim hroute hversion
      · rw [if_neg hto]
        rw [not_or, not_not, not_and_or, not_not, not_not, hflag] at hto
        exact .inr ⟨m, fd, hfd, hclosing fd hfd, ⟨hto.1, fd, hfd, hto.2⟩, .inl ⟨rfl, hto.1, rfl⟩⟩
    · unfold arrive
      dsimp only
      rw [portalFd_eq_none fun fd hm => hfd ⟨fd, hm⟩]
      exact .inl ⟨fun hto => hfd (hto.2.imp fun _ => And.left), rfl⟩
  · exact .inl ⟨id, rfl⟩
  · by_cases hfd : ∃ fd : Fin 16, m.fd.toNat = fd
    · obtain ⟨fd, hfd⟩ := hfd
      have hflag := h.flag hwaiting (hclosing fd hfd)
      unfold arrive
      dsimp only
      rw [portalFd_eq_some hfd]
      dsimp only
      by_cases ho : Opened as fd
      · rw [if_neg (not_not.mpr (hflag.mpr ho))]
        exact .inr ⟨m, fd, hfd, hclosing fd hfd, ⟨fd, hfd, ho⟩,
          .inr ⟨rfl, hproper, ho, rfl⟩⟩
      · rw [if_pos (hflag.not.mpr ho)]
        refine .inl ⟨?_, rfl⟩
        rintro ⟨fd', hfd', ho'⟩
        exact ho (Fin.ext (hfd'.symm.trans hfd) ▸ ho')
    · unfold arrive
      dsimp only
      rw [portalFd_eq_none fun fd hm => hfd ⟨fd, hm⟩]
      exact .inl ⟨fun hto => hfd (hto.imp fun _ => And.left), rfl⟩

/-- The dispatcher gets a message to send. -/
theorem lane_send (hwaiting : σ.dispatcher = .waiting) (next : DispatchPoint) (fd : Fin 16) :
    ({ σ with dispatcher := next } : Threads).lane fd =
      { σ.lane fd with
        opening := next.opening fd
        pending :=
          (σ.lane fd).pending ++ next.unsent.filter fun m : IpcMessage => m.fd.toNat = fd } := by
  unfold lane inFlight
  rw [hwaiting]
  dsimp only
  rw [List.filter_append, List.filter_append]
  simp only [DispatchPoint.unsent, List.filter_nil, List.append_nil]

/-- What the dispatcher is about to do for one descriptor concerns no other lane. -/
theorem lane_send_of_ne (hwaiting : σ.dispatcher = .waiting) {next : DispatchPoint}
    {fd fd' : Fin 16}
    (hunsent : ∀ m ∈ next.unsent, m.fd.toNat = fd) (hopening : next.opening fd' = false)
    (hne : fd' ≠ fd) : ({ σ with dispatcher := next } : Threads).lane fd' = σ.lane fd' := by
  have hnil : (next.unsent.filter fun m : IpcMessage => m.fd.toNat = fd') = [] := by
    refine List.filter_eq_nil_iff.mpr fun m hm hfd' => hne (Fin.ext ?_)
    exact (of_decide_eq_true hfd').symm.trans (hunsent m hm)
  rw [lane_send hwaiting, hopening, hnil, List.append_nil]
  unfold lane
  rw [hwaiting]
  rfl

/-- A stock message opens and closes nothing. -/
theorem opened_snoc_of_stock {a : Arrival} (hto : ¬ ToWorker as a) (fd : Fin 16) :
    Opened (as ++ [a]) fd ↔ Opened as fd := by
  rw [opened_snoc]
  refine ⟨fun ho => ho.elim (fun hopens => absurd ?_ hto) And.left, fun ho => .inr ⟨ho, ?_⟩⟩
  · rcases a with ((_ | m) | (_ | m))
    · exact hopens.elim
    · exact ⟨hopens.2.1, fd, hopens.1, .inr hopens.2.2⟩
    · exact hopens.elim
    · exact hopens.elim
  · intro hcloses
    rcases a with ((_ | m) | (_ | m))
    · exact hcloses
    · exact hcloses
    · exact hcloses
    · exact hto ⟨fd, hcloses, ho⟩

/-- A request for the worker leaves its descriptor open. -/
theorem opened_snoc_ioctl {m : IpcMessage} {fd : Fin 16} (hfd : m.fd.toNat = fd)
    (hto : ToWorker as (.ioctl (some m))) : Opened (as ++ [.ioctl (some m)]) fd := by
  obtain ⟨hioctl, fd', hfd', ho⟩ := hto
  obtain rfl : fd' = fd := Fin.ext (hfd'.symm.trans hfd)
  rw [opened_snoc]
  exact ho.elim (fun ho => .inr ⟨ho, id⟩) (fun hversion => .inl ⟨hfd, hioctl, hversion⟩)

/-- The one message of a descriptor. -/
theorem filter_singleton_fd {m : IpcMessage} {fd : Fin 16} (hfd : m.fd.toNat = fd) :
    ([m].filter fun m : IpcMessage => m.fd.toNat = fd) = [m] := by
  simp only [hfd, decide_true, List.filter_cons_of_pos, List.filter_nil]

/-- The lane of `fd` gets a message, the other lanes stay as they are. -/
theorem Coherent.send {a : Arrival} (h : σ.Coherent as) (hwaiting : σ.dispatcher = .waiting)
    {next : DispatchPoint} {m : IpcMessage} {fd : Fin 16} (hfd : m.fd.toNat = fd)
    (hunsent : next.unsent = [m]) (hopening : ∀ fd', fd' ≠ fd → next.opening fd' = false)
    (hother : ∀ fd', fd' ≠ fd → ¬ a.On fd')
    (hlane : ({ σ.lane fd with
        opening := next.opening fd
        pending := (σ.lane fd).pending ++ [m] } : Lane).Tracks (Opened (as ++ [a]) fd)) :
    ({ σ with dispatcher := next } : Threads).Coherent (as ++ [a]) := by
  refine ⟨fun fd' => ?_, h.closing⟩
  by_cases hne : fd' = fd
  · subst hne
    rwa [lane_send hwaiting, hunsent, filter_singleton_fd hfd]
  · have hopened : Opened (as ++ [a]) fd' ↔ Opened as fd' := opened_snoc_of_not_on (hother fd' hne)
    rw [lane_send_of_ne hwaiting (hunsent ▸ by simpa using hfd) (hopening fd' hne) hne]
    exact ⟨fun ho => (h.lanes fd').isOpen (hopened.mp ho),
      fun ho => (h.lanes fd').isShut (hopened.not.mp ho)⟩

/-- An arrival keeps the threads coherent. -/
theorem Coherent.arrive {a : Arrival} (h : σ.Coherent as) (hd : σ.Delivers (.arrive a)) :
    (σ.arrive a).1.Coherent (as ++ [a]) := by
  have hwaiting := hd.1
  obtain ⟨hto, hstep⟩ | ⟨m, fd, hfd, hclosing, hto, hstep⟩ := h.arrive_cases hd
  · rw [hstep]
    refine ⟨fun fd => ?_, h.closing⟩
    have hopened := opened_snoc_of_stock hto fd
    have hlane := h.lanes fd
    exact ⟨fun ho => hlane.isOpen (hopened.mp ho), fun ho => hlane.isShut (hopened.not.mp ho)⟩
  · have hother : ∀ fd', fd' ≠ fd → ¬ m.fd.toNat = fd' :=
      fun fd' hne hfd' => hne (Fin.ext (hfd'.symm.trans hfd))
    obtain ⟨rfl, hioctl, hstep⟩ | ⟨rfl, hclose, ho, hstep⟩ := hstep
    · have hnotclose : m.command ≠ iosClose := by
        rw [hioctl]
        decide
      have hstage : (σ.lane fd).stage = .idle := not_not.mp fun hstage => hclosing (.inr hstage)
      have hlane := (h.lanes fd).sendIoctl hnotclose hstage (h.lane_shut hclosing)
        (opened_snoc_ioctl hfd hto)
      rw [hstep]
      refine h.send hwaiting hfd rfl (fun fd' hne => decide_eq_false (Ne.symm hne)) hother ?_
      simpa only [DispatchPoint.opening, decide_true] using hlane
    · have hshut : ¬ Opened (as ++ [.close (some m)]) fd := by
        rw [opened_snoc]
        exact fun ho => ho.elim id fun ho => ho.2 hfd
      rw [hstep]
      exact h.send hwaiting hfd rfl (fun _ _ => rfl) hother ((h.lanes fd).sendClose hclose ho hshut)

/-- The dispatcher sends its message, or sets the flag. -/
theorem dispatch_eq (σ : Threads) {start send : Int} (hd : σ.Delivers (.dispatcher start send)) :
    σ.dispatch start send =
      (match σ.dispatcher with
        | .waiting => σ
        | .sendIoctl m fd =>
            { σ with queue := σ.queue ++ [.request (some m)], dispatcher := .setRoute fd }
        | .setRoute fd =>
            { σ with
              hid := { σ.hid with route := Function.update σ.hid.route fd true }
              dispatcher := .waiting }
        | .sendClose m =>
            { σ with queue := σ.queue ++ [.request (some m)], dispatcher := .waiting }, []) := by
  obtain ⟨hstart, hsend⟩ := hd
  obtain ⟨hid, queue, dispatcher, worker⟩ := σ
  unfold dispatch
  cases dispatcher with
  | waiting => rfl
  | sendIoctl m fd => exact if_neg (not_or.mpr ⟨not_lt.mpr hstart, not_lt.mpr hsend⟩)
  | setRoute fd => rfl
  | sendClose m => exact if_neg (not_lt.mpr hsend)

/-- A step of the dispatcher puts nothing in flight. -/
theorem dispatch_inFlight (σ : Threads) {start send : Int}
    (hd : σ.Delivers (.dispatcher start send)) :
    (σ.dispatch start send).1.inFlight = σ.inFlight := by
  rw [σ.dispatch_eq hd]
  obtain ⟨hid, queue, dispatcher, worker⟩ := σ
  unfold inFlight
  cases dispatcher with
  | waiting => rfl
  | sendIoctl m fd => simp [DispatchPoint.unsent, Event.message]
  | setRoute fd => rfl
  | sendClose m => simp [DispatchPoint.unsent, Event.message]

/-- The dispatcher sets the flag of an open descriptor. -/
theorem Coherent.dispatch {start send : Int} (h : σ.Coherent as)
    (hd : σ.Delivers (.dispatcher start send)) : (σ.dispatch start send).1.Coherent as := by
  have hflight := σ.dispatch_inFlight hd
  rw [σ.dispatch_eq hd] at hflight ⊢
  obtain ⟨hid, queue, dispatcher, worker⟩ := σ
  cases dispatcher with
  | waiting => exact h
  | sendIoctl m fd =>
      refine h.of_lanes (fun fd' => ?_) h.closing
      unfold lane
      rw [hflight]
      rfl
  | sendClose m =>
      refine h.of_lanes (fun fd' => ?_) h.closing
      unfold lane
      rw [hflight]
      rfl
  | setRoute fd =>
      refine ⟨fun fd' => ?_, h.closing⟩
      have hlane := h.lanes fd'
      by_cases hne : fd' = fd
      · subst hne
        have ho : Opened as fd' := by
          by_contra ho
          have hopening := (hlane.isShut ho).opening
          exact absurd (hopening.symm.trans (decide_eq_true rfl)) (by decide)
        have hopen := hlane.isOpen ho
        exact ⟨fun _ => ⟨fun _ => Function.update_self .., hopen.pending, hopen.stage⟩,
          fun ho' => absurd ho ho'⟩
      · have hlane' : lane ⟨{ hid with route := Function.update hid.route fd true }, queue,
            .waiting, worker⟩ fd' = lane ⟨hid, queue, .setRoute fd, worker⟩ fd' := by
          simp only [lane, inFlight, DispatchPoint.unsent, DispatchPoint.opening,
            Function.update_of_ne hne, Ne.symm hne, decide_false]
        exact hlane' ▸ hlane

/-! ### The worker -/

end Threads

namespace Machine

variable (m : Machine)

/-- A request of the menu leaves the routes. -/
theorem menuRequest_route (op arg : U32) : (m.menuRequest op arg).2.route = m.route := by
  unfold menuRequest
  by_cases h₁ : op = 1
  · rw [if_pos h₁]
  rw [if_neg h₁]
  split_ifs
  · exact (m.menuSwap_sameMail arg .load).route
  · exact (m.menuSwap_sameMail arg .remove).route
  all_goals rfl

/-- The execution of a request leaves the routes. -/
theorem menuExecute_route (seq op arg : U32) : (m.menuExecute seq op arg).route = m.route := by
  have h := menuRequest_route { m with requestSeq := seq } op arg
  unfold menuExecute
  dsimp only
  split_ifs <;> exact h

/-- A look at the mailbox leaves the routes. -/
theorem e11Mailbox_route (line : RequestLine) : (m.e11Mailbox line).1.route = m.route := by
  by_cases hlooked : (∃ fd, m.route fd = true) ∧ (line 0 = 0x4531324d ∧ line 4 = 0x534b595a) ∧
      (m.menuAlive (line 5)).isSome = true
  · obtain ⟨hroute, hmagic, hsome⟩ := hlooked
    obtain ⟨m', halive⟩ := Option.isSome_iff_exists.mp hsome
    have hsame := (menuAlive_sameMail halive).route
    rw [m.e11Mailbox_alive line hroute hmagic halive]
    split_ifs
    · exact (m'.menuExecute_route ..).trans hsame
    · exact hsame
  · rw [m.e11Mailbox_idle line hlooked]

/-- A tick leaves the routes. -/
theorem v4Tick_route (line : RequestLine) (send : Int) :
    (m.v4Tick line send).1.route = m.route := by
  by_cases hturn : (m.ticks + 1) &&& 7 = 0
  · obtain ⟨rest, hrest, htick⟩ := m.v4Tick_mail line send hturn
    rw [htick]
    exact hrest.same.route.trans (m.ticked.e11Mailbox_route line)
  · exact (m.v4Tick_unmailed line send hturn).same.route

/-- A request that closes no descriptor of the portal leaves the routes. -/
theorem v4Process_route {mem : Mem} {msg : IpcMessage}
    (hclose : ¬ (msg.fd.toNat < 16 ∧ msg.command = iosClose)) :
    (m.v4Process mem (some msg)).1.route = m.route := by
  by_cases hcommand : msg.command = iosClose
  · unfold v4Process
    dsimp only
    rw [dif_neg fun hfd => hclose ⟨hfd, hcommand⟩]
  · exact (v4Process_unmailed hcommand).same.route

end Machine

namespace Threads

variable {σ : Threads} {as : List Arrival}

/-- The worker handles an event that is no message. -/
theorem Coherent.pop_event {event : Event} {queue : List Event} {m : Machine} (h : σ.Coherent as)
    (hworker : σ.worker = .waiting) (hqueue : σ.queue = event :: queue)
    (hmessage : event.message = none) (hroute : m.route = σ.hid.route) :
    ({ σ with hid := m, queue := queue } : Threads).Coherent as := by
  refine h.of_lanes (fun fd => ?_) fun m fd hm => ?_
  · unfold lane inFlight
    rw [hqueue, List.filterMap_cons_none hmessage, hroute]
  · rw [hworker] at hm
    exact hm.elim nofun nofun

/-- The worker takes a message: it was the first of its lane. -/
theorem pending_pop {msg : IpcMessage} {queue : List Event}
    (hqueue : σ.queue = .request (some msg) :: queue) (hid : Machine) (worker : ClosePoint)
    (fd : Fin 16) :
    (σ.lane fd).pending =
      if msg.fd.toNat = fd then msg :: (lane ⟨hid, queue, σ.dispatcher, worker⟩ fd).pending
      else (lane ⟨hid, queue, σ.dispatcher, worker⟩ fd).pending := by
  unfold lane inFlight
  dsimp only
  rw [hqueue,
    List.filterMap_cons_some (show Event.message (.request (some msg)) = some msg from rfl),
    List.cons_append, List.filter_cons]
  simp only [decide_eq_true_eq]

/-- The worker handles a message that is no close of a descriptor of the portal. -/
theorem Coherent.pop_message {msg : IpcMessage} {queue : List Event} {m : Machine}
    (h : σ.Coherent as) (hworker : σ.worker = .waiting)
    (hqueue : σ.queue = .request (some msg) :: queue)
    (hclose : ¬ (msg.fd.toNat < 16 ∧ msg.command = iosClose)) (hroute : m.route = σ.hid.route) :
    ({ σ with hid := m, queue := queue } : Threads).Coherent as := by
  refine ⟨fun fd => ?_, fun m fd hm => ?_⟩
  · have hpending := pending_pop hqueue m σ.worker fd
    have hlane : ({ σ with hid := m, queue := queue } : Threads).lane fd =
        { σ.lane fd with
          pending := (({ σ with hid := m, queue := queue } : Threads).lane fd).pending } := by
      unfold lane
      rw [hroute]
    rw [hlane]
    split_ifs at hpending with hfd
    · exact (h.lanes fd).pop hpending fun hm => hclose ⟨hfd ▸ fd.isLt, hm⟩
    · rw [← hpending]
      exact h.lanes fd
  · rw [hworker] at hm
    exact hm.elim nofun nofun

/-- The worker takes a close. -/
theorem Coherent.pop_close {msg : IpcMessage} {queue : List Event} {fd : Fin 16}
    (h : σ.Coherent as) (hworker : σ.worker = .waiting)
    (hqueue : σ.queue = .request (some msg) :: queue) (hfd : msg.fd.toNat = fd)
    (hclose : msg.command = iosClose) :
    ({ σ with
      hid := σ.hid.setSession fd .zero
      queue := queue
      worker := .zeroed msg fd } : Threads).Coherent as := by
  refine ⟨fun fd' => ?_, fun m fd' hm => ?_⟩
  · have hpending := pending_pop hqueue (σ.hid.setSession fd .zero) (.zeroed msg fd) fd'
    by_cases hne : fd' = fd
    · subst hne
      rw [if_pos hfd] at hpending
      obtain ⟨ho, hopening, hnil⟩ := (h.lanes fd').take hpending hclose
      exact ⟨fun ho' => absurd ho' ho, fun _ => .zeroed hopening hnil (if_pos rfl)⟩
    · rw [if_neg fun hfd' => hne (Fin.ext (hfd'.symm.trans hfd))] at hpending
      have hlane : lane ⟨σ.hid.setSession fd .zero, queue, σ.dispatcher, .zeroed msg fd⟩ fd' =
          σ.lane fd' := by
        have hstage : ClosePoint.stage fd' (.zeroed msg fd) = .idle := if_neg (Ne.symm hne)
        unfold lane at hpending ⊢
        dsimp only at hpending ⊢
        rw [hpending, hstage, hworker]
        rfl
      exact hlane ▸ h.lanes fd'
  · obtain hm | hm := hm
    · obtain ⟨rfl, rfl⟩ := ClosePoint.zeroed.inj hm
      exact ⟨hfd, Function.update_self ..⟩
    · exact nomatch hm

/-- A request of the queue is handled, or begins a close. -/
theorem Coherent.process {mem : Mem} {msg : Option IpcMessage} {queue : List Event}
    (h : σ.Coherent as) (hworker : σ.worker = .waiting)
    (hqueue : σ.queue = .request msg :: queue) : (σ.process mem msg queue).1.Coherent as := by
  cases msg with
  | none => exact h.pop_event hworker hqueue rfl rfl
  | some msg =>
      unfold Threads.process
      dsimp only
      by_cases hclose : msg.fd.toNat < 16 ∧ msg.command = iosClose
      · rw [dif_pos hclose]
        exact h.pop_close hworker hqueue rfl hclose.2
      · rw [dif_neg hclose]
        refine h.pop_message hworker hqueue hclose ?_
        exact σ.hid.v4Process_route hclose

/-- The worker clears the flag of the descriptor it closes. -/
theorem Coherent.unroute {msg : IpcMessage} {fd : Fin 16} (h : σ.Coherent as)
    (hworker : σ.worker = .zeroed msg fd) :
    ({ σ with
      hid := { σ.hid with route := Function.update σ.hid.route fd false }
      worker := .unrouted msg fd } : Threads).Coherent as := by
  refine ⟨fun fd' => ?_, fun m fd' hm => ?_⟩
  · have hlane := h.lanes fd'
    have hstage : (σ.lane fd').stage = if fd = fd' then .zeroed else .idle :=
      congrArg (ClosePoint.stage fd') hworker
    by_cases hne : fd' = fd
    · subst hne
      rw [if_pos rfl] at hstage
      have ho : ¬ Opened as fd' := fun ho => nomatch hstage.symm.trans (hlane.isOpen ho).stage
      refine ⟨fun ho' => absurd ho' ho, fun _ => ?_⟩
      have hidle : ClosePoint.stage fd' (.unrouted msg fd') ≠ .zeroed := by
        show (if fd' = fd' then CloseStage.unrouted else .idle) ≠ .zeroed
        rw [if_pos rfl]
        exact nofun
      cases hlane.isShut ho with
      | closing _ _ _ _ _ _ hidle => exact nomatch hstage.symm.trans hidle
      | zeroed hopening hpending _ =>
          exact .shut hopening hpending (Function.update_self ..) hidle
      | shut _ _ _ hne => exact absurd hstage hne
    · have hlane' : lane ⟨{ σ.hid with route := Function.update σ.hid.route fd false }, σ.queue,
          σ.dispatcher, .unrouted msg fd⟩ fd' = σ.lane fd' := by
        unfold lane inFlight
        simp only [hworker, ClosePoint.stage, Function.update_of_ne hne, if_neg (Ne.symm hne)]
      exact hlane' ▸ hlane
  · obtain hm | hm := hm
    · exact nomatch hm
    · obtain ⟨rfl, rfl⟩ := ClosePoint.unrouted.inj hm
      exact h.closing _ _ (.inl hworker)

/-- The close has been acknowledged. -/
theorem Coherent.acknowledge {msg : IpcMessage} {fd : Fin 16} (h : σ.Coherent as)
    (hworker : σ.worker = .unrouted msg fd) :
    ({ σ with worker := .waiting } : Threads).Coherent as := by
  refine ⟨fun fd' => ?_, fun m fd' hm => hm.elim nofun nofun⟩
  have hlane := h.lanes fd'
  have hstage : (σ.lane fd').stage = if fd = fd' then .unrouted else .idle :=
    congrArg (ClosePoint.stage fd') hworker
  constructor
  · exact fun ho => ⟨(hlane.isOpen ho).flag, (hlane.isOpen ho).pending, rfl⟩
  · intro ho
    cases hlane.isShut ho with
    | closing before m hopening hpending hbefore hclose _ =>
        exact .closing before m hopening hpending hbefore hclose rfl
    | zeroed _ _ hzeroed =>
        rw [hzeroed] at hstage
        split_ifs at hstage
    | shut hopening hpending hflag _ => exact .shut hopening hpending hflag nofun

/-- A step of the worker keeps the threads coherent. -/
theorem Coherent.work {io : HidIo} (h : σ.Coherent as) : (σ.work io).1.Coherent as := by
  obtain ⟨hid, queue, dispatcher, worker⟩ := σ
  cases worker with
  | waiting =>
      cases queue with
      | nil => exact h
      | cons event queue =>
          cases event with
          | tick => exact h.pop_event rfl rfl rfl (hid.v4Tick_route _ _)
          | complete => exact h.pop_event rfl rfl rfl hid.e09Complete_unmailed.same.route
          | request msg => exact h.process rfl rfl
  | zeroed msg fd => exact h.unroute rfl
  | unrouted msg fd => exact h.acknowledge rfl

end Threads

/-! ### Runs -/

/-- The messages that have arrived. -/
def arrivals (steps : List ThreadStep) : List Arrival :=
  steps.filterMap fun
    | .arrive a => some a
    | _ => none

/-- The messages the dispatcher has decided about. -/
def decidedIn (out : List RouteEvent) : List Arrival :=
  out.filterMap fun
    | .stock a | .routed a => some a
    | _ => none

/-- The messages the dispatcher has decided to send to the worker. -/
def routedIn (out : List RouteEvent) : List IpcMessage :=
  out.filterMap fun
    | .routed a => a.msg
    | _ => none

/-- The messages `v4_process` has been called with. -/
def processedIn (out : List RouteEvent) : List IpcMessage :=
  out.filterMap fun
    | .processed msg => some msg
    | _ => none

namespace Threads

variable {σ : Threads} {as : List Arrival}

/-- An arrival is decided at once. -/
theorem arrive_decided (σ : Threads) (a : Arrival) : decidedIn (σ.arrive a).2 = [a] := by
  unfold arrive
  cases a with
  | ioctl msg =>
      dsimp only
      split
      · split <;> rfl
      · rfl
  | close msg =>
      dsimp only
      split
      · split <;> rfl
      · rfl

/-- A step of the dispatcher decides nothing. -/
theorem dispatch_decided (σ : Threads) (start send : Int) :
    decidedIn (σ.dispatch start send).2 = [] := by
  unfold dispatch
  split
  · rfl
  · split <;> rfl
  · rfl
  · split <;> rfl

/-- A message that is processed is reported as such. -/
theorem process_out (σ : Threads) (mem : Mem) (msg : Option IpcMessage) (queue : List Event) :
    (σ.process mem msg queue).2 = msg.toList.map .processed := by
  cases msg with
  | none => rfl
  | some msg =>
      unfold process
      dsimp only
      split <;> rfl

/-- What the worker emits is no decision, and it takes what it processes from the queue. -/
theorem work_out (σ : Threads) (io : HidIo) :
    decidedIn (σ.work io).2 = [] ∧ routedIn (σ.work io).2 = [] ∧
      σ.inFlight = processedIn (σ.work io).2 ++ (σ.work io).1.inFlight := by
  obtain ⟨hid, queue, dispatcher, worker⟩ := σ
  cases worker with
  | waiting =>
      cases queue with
      | nil => exact ⟨rfl, rfl, rfl⟩
      | cons event queue =>
          cases event with
          | tick => exact ⟨rfl, rfl, rfl⟩
          | complete => exact ⟨rfl, rfl, rfl⟩
          | request msg =>
              show decidedIn (process _ _ msg queue).2 = [] ∧
                routedIn (process _ _ msg queue).2 = [] ∧
                _ = processedIn (process _ _ msg queue).2 ++ (process _ _ msg queue).1.inFlight
              rw [process_out]
              cases msg with
              | none => exact ⟨rfl, rfl, rfl⟩
              | some msg =>
                  refine ⟨rfl, rfl, ?_⟩
                  unfold process
                  dsimp only
                  split <;> rfl
  | zeroed msg fd => exact ⟨rfl, rfl, rfl⟩
  | unrouted msg fd => exact ⟨rfl, rfl, rfl⟩

/-- What a step decides is what arrives in it. -/
theorem step_decided (σ : Threads) (s : ThreadStep) : decidedIn (σ.step s).2 = arrivals [s] := by
  cases s with
  | arrive a => exact σ.arrive_decided a
  | dispatcher start send => exact σ.dispatch_decided start send
  | worker io => exact (σ.work_out io).1
  | post event => cases event <;> rfl
  | storage st => rfl

/-- Each arrival is decided about once. -/
theorem run_decided (σ : Threads) (steps : List ThreadStep) :
    decidedIn (Run.outputs step σ steps) = arrivals steps := by
  induction steps generalizing σ with
  | nil => rfl
  | cons s steps ih =>
      rw [Run.outputs_cons, decidedIn, List.filterMap_append]
      show decidedIn (σ.step s).2 ++ decidedIn _ = _
      rw [σ.step_decided, ih]
      exact (List.filterMap_append (l := [s])).symm

/-- Every step keeps the threads coherent. -/
theorem Coherent.step {s : ThreadStep} (h : σ.Coherent as) (hd : σ.Delivers s) :
    (σ.step s).1.Coherent (as ++ decidedIn (σ.step s).2) := by
  rw [σ.step_decided]
  cases s with
  | arrive a => exact h.arrive hd
  | dispatcher start send => exact (List.append_nil as).symm ▸ h.dispatch hd
  | worker io => exact (List.append_nil as).symm ▸ h.work
  | post event =>
      refine (List.append_nil as).symm ▸ ?_
      have hpost : ∀ event : Event, event.message = none →
          ({ σ with queue := σ.queue ++ [event] } : Threads).Coherent as := by
        intro event hmessage
        refine h.of_lanes (fun fd => ?_) h.closing
        unfold lane inFlight
        simp only [List.filterMap_append, List.filterMap_cons_none hmessage, List.filterMap_nil,
          List.append_nil]
      cases event with
      | tick => exact hpost .tick rfl
      | complete => exact hpost .complete rfl
      | request msg => exact h
  | storage st => exact (List.append_nil as).symm ▸ h.of_lanes (fun _ => rfl) h.closing

/-- What is on its way to the worker has been routed and not yet processed. -/
theorem Coherent.step_inFlight {s : ThreadStep} (h : σ.Coherent as) (hd : σ.Delivers s) :
    σ.inFlight ++ routedIn (σ.step s).2 = processedIn (σ.step s).2 ++ (σ.step s).1.inFlight := by
  cases s with
  | arrive a =>
      have hwaiting := hd.1
      show _ ++ routedIn (σ.arrive a).2 = processedIn (σ.arrive a).2 ++ (σ.arrive a).1.inFlight
      obtain ⟨-, hstep⟩ | ⟨m, fd, -, -, -, ⟨rfl, -, hstep⟩ | ⟨rfl, -, -, hstep⟩⟩ :=
        h.arrive_cases hd
      · rw [hstep]
        exact List.append_nil _
      all_goals
        rw [hstep]
        unfold inFlight
        rw [hwaiting]
        simp [routedIn, processedIn, DispatchPoint.unsent, Arrival.msg]
  | dispatcher start send =>
      show _ ++ routedIn (σ.dispatch start send).2 =
        processedIn (σ.dispatch start send).2 ++ (σ.dispatch start send).1.inFlight
      rw [σ.dispatch_inFlight hd, σ.dispatch_eq hd]
      exact List.append_nil _
  | worker io =>
      obtain ⟨-, hrouted, hflight⟩ := σ.work_out io
      show _ ++ routedIn (σ.work io).2 = processedIn (σ.work io).2 ++ (σ.work io).1.inFlight
      rw [hrouted, List.append_nil, hflight]
  | post event =>
      cases event with
      | request msg => exact List.append_nil _
      | _ => simp [Threads.step, inFlight, routedIn, processedIn, Event.message]
  | storage st => exact List.append_nil _

/-! ### The worker drains its queue -/

/-- The steps the worker needs for what is in its queue. -/
def backlog (σ : Threads) : ℕ :=
  3 * σ.queue.length +
    match σ.worker with
    | .waiting => 0
    | .zeroed _ _ => 2
    | .unrouted _ _ => 1

/-- Processing leaves a bounded backlog. -/
theorem process_backlog (σ : Threads) (mem : Mem) (msg : Option IpcMessage) (queue : List Event)
    (hworker : σ.worker = .waiting) :
    (σ.process mem msg queue).1.backlog ≤ 3 * queue.length + 2 ∧
      (σ.process mem msg queue).1.dispatcher = σ.dispatcher := by
  obtain ⟨hid, events, dispatcher, worker⟩ := σ
  cases hworker
  cases msg with
  | none => exact ⟨Nat.le_add_right _ 2, rfl⟩
  | some msg =>
      unfold process
      dsimp only
      split
      · exact ⟨le_refl _, rfl⟩
      · exact ⟨Nat.le_add_right _ 2, rfl⟩

/-- A step of the worker shortens the backlog. -/
theorem work_backlog (σ : Threads) (io : HidIo) :
    (σ.work io).1.backlog ≤ σ.backlog - 1 ∧ (σ.work io).1.dispatcher = σ.dispatcher := by
  obtain ⟨hid, queue, dispatcher, worker⟩ := σ
  cases worker with
  | waiting =>
      cases queue with
      | nil => exact ⟨le_refl _, rfl⟩
      | cons event queue =>
          have hlength : backlog ⟨hid, event :: queue, dispatcher, .waiting⟩ - 1 =
              3 * queue.length + 2 := by
            simp only [backlog, List.length_cons]
            omega
          rw [hlength]
          cases event with
          | tick => exact ⟨Nat.le_add_right _ 2, rfl⟩
          | complete => exact ⟨Nat.le_add_right _ 2, rfl⟩
          | request msg => exact process_backlog _ io.mem msg queue rfl
  | zeroed msg fd => exact ⟨le_refl _, rfl⟩
  | unrouted msg fd => exact ⟨le_refl _, rfl⟩

/-- Some steps of the worker shorten the backlog by as many. -/
theorem final_work_backlog (ios : List HidIo) (σ : Threads) :
    (Run.final step σ (ios.map .worker)).backlog ≤ σ.backlog - ios.length ∧
      (Run.final step σ (ios.map .worker)).dispatcher = σ.dispatcher := by
  induction ios generalizing σ with
  | nil => exact ⟨le_refl _, rfl⟩
  | cons io ios ih =>
      obtain ⟨hbacklog, hdispatcher⟩ := σ.work_backlog io
      obtain ⟨hbacklog', hdispatcher'⟩ := ih (σ.work io).1
      refine ⟨hbacklog'.trans ?_, hdispatcher'.trans hdispatcher⟩
      rw [List.length_cons]
      omega

/-- Two steps of the dispatcher end its message and add a bounded backlog. -/
theorem dispatch_backlog (σ : Threads) :
    (Run.final step σ [.dispatcher 0 0, .dispatcher 0 0]).dispatcher = .waiting ∧
      (Run.final step σ [.dispatcher 0 0, .dispatcher 0 0]).backlog ≤
        3 * (σ.queue.length + 1) + 2 := by
  have hd : ∀ σ : Threads, σ.Delivers (.dispatcher 0 0) := fun _ => ⟨le_refl _, le_refl _⟩
  simp only [Run.final_cons, Run.final_nil, step, dispatch_eq _ (hd _)]
  obtain ⟨hid, queue, dispatcher, worker⟩ := σ
  cases dispatcher with
  | setRoute fd => cases worker <;> exact ⟨rfl, by simp [backlog]; try omega⟩
  | _ => cases worker <;> exact ⟨rfl, by simp [backlog]; try omega⟩

/-- The dispatcher finishes its message, and the worker everything on its way. -/
theorem drains (σ : Threads) {ios : List HidIo} (h : 3 * (σ.queue.length + 2) ≤ ios.length) :
    (Run.final step σ ([.dispatcher 0 0, .dispatcher 0 0] ++ ios.map .worker)).inFlight = [] := by
  obtain ⟨hwaiting, hbacklog⟩ := σ.dispatch_backlog
  rw [Run.final_append]
  generalize Run.final step σ [.dispatcher 0 0, .dispatcher 0 0] = σ' at hwaiting hbacklog
  obtain ⟨hbacklog', hdispatcher⟩ := final_work_backlog ios σ'
  generalize Run.final step σ' (ios.map .worker) = σ'' at hbacklog' hdispatcher
  have hzero : σ''.backlog = 0 := by omega
  have hqueue : σ''.queue = [] := by
    unfold backlog at hzero
    exact List.eq_nil_of_length_eq_zero (by omega)
  unfold inFlight
  rw [hqueue, hdispatcher, hwaiting]
  rfl

/-! ### The routing -/

/-- How the messages of a run are routed. -/
structure Routes (σ₀ : Threads) (steps : List ThreadStep) : Prop where
  /-- The dispatcher decides once about each message. -/
  decided : decidedIn (Run.outputs step σ₀ steps) = arrivals steps
  /-- The messages of an open descriptor and GETVERSION go to the worker, all others to
  the stock handler. -/
  routed : ∀ before a after, steps = before ++ .arrive a :: after →
    (((Run.final step σ₀ before).step (.arrive a)).2 = [.routed a] ∧
        ToWorker (arrivals before) a) ∨
      (((Run.final step σ₀ before).step (.arrive a)).2 = [.stock a] ∧
        ¬ ToWorker (arrivals before) a)
  /-- `v4_process` is called with the messages for the worker, in their order. -/
  processed : routedIn (Run.outputs step σ₀ steps) =
    processedIn (Run.outputs step σ₀ steps) ++ (Run.final step σ₀ steps).inFlight
  /-- No message is on its way for ever. -/
  drains : ∀ ios : List HidIo, 3 * ((Run.final step σ₀ steps).queue.length + 2) ≤ ios.length →
    (Run.final step σ₀
      (steps ++ ([.dispatcher 0 0, .dispatcher 0 0] ++ ios.map .worker))).inFlight = []
  /-- A close that is acknowledged has left nothing behind. -/
  closed : ∀ before s after, steps = before ++ s :: after →
    ∀ m : IpcMessage, .closed m ∈ ((Run.final step σ₀ before).step s).2 →
      ∃ fd : Fin 16, m.fd.toNat = fd ∧
        ((Run.final step σ₀ before).step s).1.hid.route fd = false ∧
        ((Run.final step σ₀ before).step s).1.hid.sessions fd = .zero ∧
        ∀ m' ∈ ((Run.final step σ₀ before).step s).1.inFlight, m'.fd.toNat ≠ fd

/-- The threads are coherent at the start. -/
theorem Coherent.start (io : StartIo) : (Threads.start io).Coherent [] := by
  have hroute : (Threads.start io).hid.route = fun _ => false := by
    unfold Threads.start Machine.e09Start Machine.e11Submit
    dsimp only
    split_ifs <;> rfl
  refine ⟨fun fd => ⟨fun ho => absurd ho (not_opened_nil fd), fun _ => ?_⟩,
    fun m fd hm => hm.elim nofun nofun⟩
  exact .shut rfl rfl (congrFun hroute fd) nofun

/-- The worker acknowledges a close after the flag has been cleared. -/
theorem Coherent.closed {s : ThreadStep} {m : IpcMessage} (h : σ.Coherent as)
    (hm : .closed m ∈ (σ.step s).2) :
    ∃ fd : Fin 16, m.fd.toNat = fd ∧ (σ.step s).1.hid.route fd = false ∧
      (σ.step s).1.hid.sessions fd = .zero ∧ ∀ m' ∈ (σ.step s).1.inFlight, m'.fd.toNat ≠ fd := by
  cases s with
  | arrive a =>
      have hm : RouteEvent.closed m ∈ (σ.arrive a).2 := hm
      unfold Threads.arrive at hm
      split at hm <;> (try split at hm) <;> (try split at hm) <;> simp at hm
  | dispatcher start send =>
      have hm : RouteEvent.closed m ∈ (σ.dispatch start send).2 := hm
      unfold Threads.dispatch at hm
      split at hm <;> (try split at hm) <;> simp at hm
  | post event => cases event <;> exact absurd hm List.not_mem_nil
  | storage st => exact absurd hm List.not_mem_nil
  | worker io =>
      obtain ⟨hid, queue, dispatcher, worker⟩ := σ
      cases worker with
      | waiting =>
          cases queue with
          | nil => exact absurd hm List.not_mem_nil
          | cons event queue =>
              cases event with
              | request msg =>
                  have hm : RouteEvent.closed m ∈ (Threads.process _ io.mem msg queue).2 := hm
                  rw [process_out] at hm
                  simp at hm
              | _ => exact absurd hm List.not_mem_nil
      | zeroed msg fd => exact absurd hm List.not_mem_nil
      | unrouted msg fd =>
          obtain rfl := RouteEvent.closed.inj (List.mem_singleton.mp hm)
          obtain ⟨hfd, hsession⟩ := h.closing _ _ (.inr rfl)
          have hstage : (lane ⟨hid, queue, dispatcher, .unrouted m fd⟩ fd).stage = .unrouted :=
            if_pos rfl
          have ho : ¬ Opened as fd :=
            fun ho => nomatch hstage.symm.trans ((h.lanes fd).isOpen ho).stage
          cases (h.lanes fd).isShut ho with
          | closing _ _ _ _ _ _ hidle => exact nomatch hstage.symm.trans hidle
          | zeroed _ _ hzeroed => exact nomatch hstage.symm.trans hzeroed
          | shut _ hpending hflag _ =>
              refine ⟨fd, hfd, hflag, hsession, fun m' hm' hfd' => ?_⟩
              have hmem : m' ∈ (lane ⟨hid, queue, dispatcher, .unrouted m fd⟩ fd).pending :=
                List.mem_filter.mpr ⟨hm', decide_eq_true hfd'⟩
              exact absurd (hpending ▸ hmem) List.not_mem_nil

/-- In every run of the two threads the messages are routed so. -/
theorem routing {io : StartIo} {steps : List ThreadStep}
    (h : Run.Every step Delivers (start io) steps) : Routes (start io) steps := by
  have hrun : ∀ before after, steps = before ++ after →
      (Run.final step (start io) before).Coherent (arrivals before) ∧
        routedIn (Run.outputs step (start io) before) =
          processedIn (Run.outputs step (start io) before) ++
            (Run.final step (start io) before).inFlight := by
    intro before after hsteps
    rw [hsteps, Run.every_append] at h
    have hboth := Run.outputs_of_every
      (P := fun σ out => σ.Coherent (decidedIn out) ∧ routedIn out = processedIn out ++ σ.inFlight)
      (fun σ out s hd hσ => ?_) (s := start io) (l := []) h.1 ⟨Coherent.start io, rfl⟩
    · rw [List.nil_append, run_decided] at hboth
      exact hboth
    · have hflight := hσ.1.step_inFlight hd
      refine ⟨?_, ?_⟩
      · rw [decidedIn, List.filterMap_append]
        exact hσ.1.step hd
      · rw [routedIn, processedIn, List.filterMap_append, List.filterMap_append]
        show routedIn out ++ routedIn _ = processedIn out ++ processedIn _ ++ _
        rw [hσ.2, List.append_assoc, hflight, List.append_assoc]
  refine ⟨run_decided _ steps, fun before a after hsteps => ?_, (hrun steps [] (by simp)).2,
    fun ios hios => ?_, fun before s after hsteps m hm => ?_⟩
  · obtain ⟨hcoherent, -⟩ := hrun before _ hsteps
    rw [hsteps, Run.every_append] at h
    obtain ⟨hto, hstep⟩ | ⟨m, fd, -, -, hto, ⟨-, -, hstep⟩ | ⟨-, -, -, hstep⟩⟩ :=
      hcoherent.arrive_cases h.2.1
    · exact .inr ⟨congrArg Prod.snd hstep, hto⟩
    · exact .inl ⟨congrArg Prod.snd hstep, hto⟩
    · exact .inl ⟨congrArg Prod.snd hstep, hto⟩
  · rw [Run.final_append]
    exact Threads.drains _ hios
  · exact (hrun before _ hsteps).1.closed hm

end Threads

instance (fd : Fin 16) (a : Arrival) : Decidable (a.On fd) :=
  match a with
  | .ioctl none | .close none => inferInstanceAs (Decidable False)
  | .ioctl (some m) | .close (some m) => inferInstanceAs (Decidable (m.fd.toNat = fd))

instance (a : Arrival) : Decidable a.Proper :=
  match a with
  | .ioctl _ | .close none => inferInstanceAs (Decidable True)
  | .close (some m) => inferInstanceAs (Decidable (m.command = iosClose))

instance (σ : Threads) (fd : Fin 16) : Decidable (σ.Closing fd) :=
  inferInstanceAs (Decidable (_ ∨ _))

instance (σ : Threads) (s : ThreadStep) : Decidable (σ.Delivers s) :=
  match s with
  | .arrive _ | .dispatcher _ _ => inferInstanceAs (Decidable (_ ∧ _))
  | .worker _ | .post _ | .storage _ => inferInstanceAs (Decidable True)

/-- GETVERSION on descriptor 3. -/
def getVersion : IpcMessage := ⟨0x100, iosIoctl, 3, ⟨6, 0, 0, 0, 0⟩⟩

/-- The close of descriptor 3. -/
def closeThree : IpcMessage := ⟨0x200, iosClose, 3, ⟨0, 0, 0, 0, 0⟩⟩

/-- A suspend request on descriptor 3. -/
def suspendThree : IpcMessage := ⟨0x300, iosIoctl, 3, ⟨1, 0, 0, 0, 0⟩⟩

/-- The worker has processed the GETVERSION before the dispatcher sets the flag; the
descriptor is closed and then used again. -/
def reusedDescriptor (io : HidIo) : List ThreadStep :=
  [.arrive (.ioctl (some getVersion)), .dispatcher 0 0, .worker io, .dispatcher 0 0,
    .arrive (.ioctl (some suspendThree)), .dispatcher 0 0, .dispatcher 0 0,
    .arrive (.close (some closeThree)), .dispatcher 0 0, .worker io, .worker io, .worker io,
    .worker io, .arrive (.ioctl (some suspendThree))]

/-- A descriptor that is closed and opened again is routed each time. -/
theorem routing_reusedDescriptor :
    (Threads.start .ok).Routes (reusedDescriptor ⟨fun _ => 0, fun _ => 0, 0⟩) ∧
      Run.outputs Threads.step (Threads.start .ok) (reusedDescriptor ⟨fun _ => 0, fun _ => 0, 0⟩) =
        [.routed (.ioctl (some getVersion)), .processed getVersion,
          .routed (.ioctl (some suspendThree)), .routed (.close (some closeThree)),
          .processed suspendThree, .processed closeThree, .closed closeThree,
          .stock (.ioctl (some suspendThree))] :=
  ⟨Threads.routing (by decide +kernel), by decide +kernel⟩

end VirtualPortal
