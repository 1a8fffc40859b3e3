/-
# A session follows the figures

`Machine.Streaming m fd idle c n` says that the session of `fd` is open, that its
queues are those of the table `Shows` for the codes `c` delivered last, and that its
counter is `n`.  A status packet that waits in the pending read (`InFlight`) was built
from the queues as they stood when the read was accepted: it is delivered at the next
tick, its codes may follow `c`, and the session's epoch tells whether a figure has come
or gone since.  Until that tick at most one completion can tell the sessions of a
figure, so the epoch cannot have wrapped around to the packet's.

Each event of the HID worker but a reset and a rescan keeps this, and delivers at most
one status packet, which follows (`Streams`).
-/

import VirtualPortal.Hid.StatusCodes
import VirtualPortal.Hid.Replies

namespace VirtualPortal

/-- The status packets delivered to `fd`, oldest first. -/
def statusesTo (fd : Fin 16) (out : List Effect) : List (Bytes 32) :=
  (deliveredTo fd out).filter fun packet => packet 0 = letter 'S'

/-- The status packets in two lists of effects. -/
theorem statusesTo_append (fd : Fin 16) (out out' : List Effect) :
    statusesTo fd (out ++ out') = statusesTo fd out ++ statusesTo fd out' := by
  unfold statusesTo
  rw [deliveredTo_append, List.filter_append]

/-- `e` figures have come or gone since the packet in flight was built. -/
structure Session.Since (s : Session) (e : ℕ) : Prop where
  epoch : s.epoch = s.readEpoch + BitVec.ofNat 32 e
  current : e = 0 → ∀ i, code s.response i = shownCode (s.transitions i) (s.status i)

namespace Machine

/-- The session of `fd` has still to show the slots to a host whose last codes were
`c`. -/
def Showing (m : Machine) (fd : Fin 16) (c : Fin 16 → U8) : Prop :=
  ∀ i, Shows ((m.sessions fd).transitions i) ((m.sessions fd).status i) (m.slots i).present (c i)

/-- A status packet in flight, built at most `events` events ago. -/
structure InFlight (m : Machine) (fd : Fin 16) (events : ℕ) (c : Fin 16 → U8) (n : U8) : Prop where
  counter : (m.sessions fd).response 5 = n
  follows : ∀ i, Follows (c i) (code (m.sessions fd).response i)
  showing : m.Showing fd (code (m.sessions fd).response)
  since : ∃ e ≤ events, (m.sessions fd).Since e

/-- The session of `fd` is open and follows the figures; `idle` says that no disk job
exists. -/
structure Streaming (m : Machine) (fd : Fin 16) (idle : Prop) (c : Fin 16 → U8) (n : U8) : Prop
    extends m.Orderly fd where
  active : (m.sessions fd).active = true
  counter : (m.sessions fd).counter = n
  showing : m.Showing fd c
  due : ∀ msg, (m.sessions fd).read = some msg → (m.sessions fd).response 0 = letter 'S' →
    (m.sessions fd).due = m.ticks + 1
  inFlight : ∀ msg, (m.sessions fd).read = some msg → (m.sessions fd).response 0 = letter 'S' →
    m.InFlight fd 1 c n ∧ (¬ idle → m.InFlight fd 0 c n)

/-- The queues of `fd` go from those of `m` to those of `m'`, and `packets` are
delivered. -/
def Evolves (m m' : Machine) (fd : Fin 16) (packets : List (Bytes 32)) : Prop :=
  ∀ i, VirtualPortal.Evolves ((m.sessions fd).transitions i) (m.slots i).present
    (packets.map (code · i)) ((m'.sessions fd).transitions i) (m'.slots i).present

/-- A step delivers no status packet, or one that follows. -/
inductive Streams (fd : Fin 16) (idle : Prop) (c : Fin 16 → U8) (n : U8) (m m' : Machine) :
    List (Bytes 32) → Prop
  | none (h : m'.Streaming fd idle c n) (hqueue : m.Evolves m' fd []) : Streams fd idle c n m m' []
  | one (packet : Bytes 32) (hfollows : ∀ i, Follows (c i) (code packet i))
      (hcounter : packet 5 = n) (h : m'.Streaming fd idle (code packet) (n + 1))
      (hqueue : m.Evolves m' fd [packet]) : Streams fd idle c n m m' [packet]

end Machine

/-! ### Requests leave the figures alone -/

namespace Machine

/-- The clock and the presence of figures are as they were. -/
structure SameFigures (m m' : Machine) : Prop where
  ticks : m'.ticks = m.ticks
  present : ∀ i, (m'.slots i).present = (m.slots i).present

variable (m : Machine)

/-- A machine has its own figures. -/
theorem sameFigures_refl : m.SameFigures m := ⟨rfl, fun _ => rfl⟩

/-- The effect of a command takes no figure off the portal. -/
theorem commandApply_sameFigures (fd : Fin 16) (data : ℕ → U8) (c : PortalCommand) :
    m.SameFigures (m.commandApply fd data c).1 := by
  cases c with
  | write slot block =>
      unfold commandApply
      dsimp only
      split_ifs
      · refine ⟨rfl, fun i => ?_⟩
        show ((m.toStorage.setSlot slot _).slots i).present = _
        rw [Storage.slots_setSlot]
        split_ifs with hi
        · rw [hi]
          rfl
        · rfl
      · exact m.sameFigures_refl
  | _ => exact ⟨rfl, fun _ => rfl⟩

/-- A command with its reply takes no figure off the portal. -/
theorem runCommand_sameFigures (fd : Fin 16) (data : ℕ → U8) (c : PortalCommand) (ok : Int) :
    m.SameFigures (m.runCommand fd data c ok).2.1 := by
  unfold runCommand
  split
  · exact m.commandApply_sameFigures fd data c
  · dsimp only
    split_ifs
    · exact m.sameFigures_refl
    · obtain ⟨hticks, hpresent⟩ := commandApply_sameFigures (m.setSession fd _) fd data c
      exact ⟨hticks, hpresent⟩

/-- A control transfer takes no figure off the portal. -/
theorem TransferStep.sameFigures {fd : Fin 16} {mem : Mem} {msg : IpcMessage}
    {out : Machine × List Effect} (h : m.TransferStep fd mem msg out) : m.SameFigures out.1 := by
  cases h with
  | refused => exact m.sameFigures_refl
  | command _ _ _ data c ok => exact m.runCommand_sameFigures fd data c ok
  | read => exact ⟨rfl, fun _ => rfl⟩

/-- No request changes the presence of a figure. -/
theorem v4Process_sameFigures (mem : Mem) (msg : Option IpcMessage) :
    m.SameFigures (m.v4Process mem msg).1 := by
  cases msg with
  | none => exact m.sameFigures_refl
  | some msg =>
      have h := m.v4Process_step mem msg
      generalize m.v4Process mem (some msg) = out at h ⊢
      cases h with
      | answer => exact m.sameFigures_refl
      | close => exact ⟨rfl, fun _ => rfl⟩
      | ioctl fd hfd hioctl h =>
          cases h with
          | transfer r h => exact h.sameFigures
          | _ => exact ⟨rfl, fun _ => rfl⟩

end Machine
/-! ### One session -/

section Session

variable {s t : Session}

/-- What the session shows is as it was, and so is a status packet in flight. -/
structure Session.KeepsStatus (s t : Session) : Prop where
  transitions : t.transitions = s.transitions
  status : t.status = s.status
  epoch : t.epoch = s.epoch
  readEpoch : t.readEpoch = s.readEpoch
  counter : t.counter = s.counter
  active : t.active = s.active
  flight : ∀ msg, t.read = some msg → t.response 0 = letter 'S' →
    s.read = some msg ∧ t.response = s.response ∧ t.due = s.due

/-- A session keeps its own status. -/
theorem keepsStatus_refl (s : Session) : s.KeepsStatus s :=
  ⟨rfl, rfl, rfl, rfl, rfl, rfl, fun _ hread _ => ⟨hread, rfl, rfl⟩⟩

/-- A request that is no reset starts a status read, or keeps what is shown. -/
theorem Handled.keepsStatus {m : Machine} {fd : Fin 16} {mem : Mem} {msg : IpcMessage}
    {out : List Effect} (h : Handled m fd mem msg t out) (hs : (m.sessions fd).Orderly)
    (hactive : (m.sessions fd).active = true) (hreset : ¬ Resets msg) :
    (m.sessions fd).KeepsStatus t ∨
      ∃ data, t = (m.sessions fd).takeStatus msg data (m.ticks + 1) := by
  cases h with
  | answer => exact Or.inl (keepsStatus_refl _)
  | describe => exact Or.inl ⟨rfl, rfl, rfl, rfl, rfl, rfl, fun _ hread _ => ⟨hread, rfl, rfl⟩⟩
  | park => exact Or.inl ⟨rfl, rfl, rfl, rfl, rfl, rfl, fun _ hread _ => ⟨hread, rfl, rfl⟩⟩
  | command reply t wrote answer hroom hreply ht hwrote hanswer =>
      rw [Session.v4Push, if_neg hroom] at ht
      rw [ht.2 hactive]
      exact Or.inl ⟨rfl, rfl, rfl, rfl, rfl, rfl, fun _ hread _ => ⟨hread, rfl, rfl⟩⟩
  | startReply data hread hcount =>
      refine Or.inl ⟨rfl, rfl, rfl, rfl, rfl, rfl, fun msg' _ hletter => ?_⟩
      have hreplies := replies_takeReply hcount msg data (m.ticks + 11)
      exact absurd hletter (hs.replies _ (by rw [hreplies]; exact List.mem_cons_self))
  | startStatus data hread hcount => exact Or.inr ⟨data, rfl⟩
  | cancel req => exact Or.inl ⟨rfl, rfl, rfl, rfl, rfl, rfl,
      fun _ hread _ => absurd hread (by simp)⟩
  | reset hr => exact absurd hr hreset

/-- Fewer than 2³² events after a packet was built the epochs differ. -/
theorem Session.Since.readEpoch_eq {e : ℕ} (h : s.Since e) (he : e < 2 ^ 32) :
    s.readEpoch = s.epoch ↔ e = 0 := by
  rw [h.epoch]
  constructor
  · intro heq
    have hzero : BitVec.ofNat 32 e = 0 := by grind
    have hnat := congrArg BitVec.toNat hzero
    rw [toNat_ofNat_of_lt he] at hnat
    exact hnat
  · rintro rfl
    exact (BitVec.add_zero _).symm

/-- A status packet that is delivered is committed, unless a figure has come or gone
since it was built; either way the table holds for its codes. -/
theorem deliver_shows (hpending : s.pendingStatus = false) (hletter : s.response 0 = letter 'S')
    {e : ℕ} (hsince : s.Since e) (he : e < 2 ^ 32) (msg : IpcMessage) {i : Fin 16} {present : Bool}
    (h : Shows (s.transitions i) (s.status i) present (code s.response i)) :
    Shows ((s.deliver msg).1.transitions i) ((s.deliver msg).1.status i) present
      (code s.response i) := by
  rw [Session.deliver_eq hpending, if_pos hletter]
  unfold Session.e12StatusCommit
  dsimp only
  by_cases hzero : e = 0
  · rw [if_neg (not_not.mpr ((hsince.readEpoch_eq he).mpr hzero))]
    have hcode := hsince.current hzero i
    rw [hcode] at h ⊢
    exact h.commit
  · rw [if_pos fun heq => hzero ((hsince.readEpoch_eq he).mp heq)]
    exact h

/-- The queue after the delivery of a status packet. -/
theorem deliver_evolves (hpending : s.pendingStatus = false) (hletter : s.response 0 = letter 'S')
    {e : ℕ} (hsince : s.Since e) (he : e < 2 ^ 32) (msg : IpcMessage) (i : Fin 16)
    (present : Bool) :
    Evolves (s.transitions i) present [code s.response i]
      ((s.deliver msg).1.transitions i) present := by
  rw [Session.deliver_eq hpending, if_pos hletter]
  unfold Session.e12StatusCommit
  dsimp only
  have hdelivered : Evolves (s.transitions i) present [code s.response i]
      (s.transitions i) present :=
    .delivered _ .refl
  by_cases hzero : e = 0
  · rw [if_neg (not_not.mpr ((hsince.readEpoch_eq he).mpr hzero))]
    have hcode := hsince.current hzero i
    dsimp only
    split_ifs with hq
    · rw [hcode, shownCode, if_pos hq]
      exact .committed hq .refl
    · rw [not_not.mp hq] at hdelivered ⊢
      exact hdelivered
  · rw [if_pos fun heq => hzero ((hsince.readEpoch_eq he).mp heq)]
    exact hdelivered

/-- The delivery of a status counts it. -/
theorem deliver_counter (hpending : s.pendingStatus = false) (hletter : s.response 0 = letter 'S')
    (msg : IpcMessage) : (s.deliver msg).1.counter = s.counter + 1 := by
  rw [Session.deliver_eq hpending, if_pos hletter]
  unfold Session.e12StatusCommit
  dsimp only
  split_ifs <;> rfl

end Session

/-! ### Figures come and go -/

section Told

variable {m m' m'' : Machine} {fd : Fin 16} {c : Fin 16 → U8} {n : U8}

/-- The session of `fd` has been told of what happened to the figures, in at most `k`
events. -/
structure Machine.Told (m m' : Machine) (fd : Fin 16) (k : ℕ) : Prop where
  ticks : m'.ticks = m.ticks
  sameIo : (m.sessions fd).SameIo (m'.sessions fd)
  showing : ∀ c, m.Showing fd c → m'.Showing fd c
  since : ∀ e, (m.sessions fd).Since e → ∃ e' ≤ e + k, (m'.sessions fd).Since e'
  queue : m.Evolves m' fd []

/-- What is told in two steps. -/
theorem Machine.Told.trans {k k' : ℕ} (h : m.Told m' fd k) (h' : m'.Told m'' fd k') :
    m.Told m'' fd (k + k') := by
  refine ⟨h'.ticks.trans h.ticks, h.sameIo.trans h'.sameIo,
    fun c hc => h'.showing c (h.showing c hc),
    fun e he => ?_, fun i => (h.queue i).trans (h'.queue i)⟩
  obtain ⟨e', hle, hsince⟩ := h.since e he
  obtain ⟨e'', hle', hsince'⟩ := h'.since e' hsince
  exact ⟨e'', by omega, hsince'⟩

/-- In a sane state every change but a rescan tells the sessions of at most one
figure. -/
theorem FigureChange.told {sane rescans : Prop} (h : FigureChange sane rescans m m') (hsane : sane)
    (hrescans : ¬ rescans) (fd : Fin 16) : m.Told m' fd 1 := by
  have hio := h.sameIo fd
  cases h with
  | keep hs ht hp =>
      refine ⟨ht, hio, fun c hc i => ?_, fun e he => ⟨e, by omega, by rw [hs]; exact he⟩,
        fun i => ?_⟩
      · rw [hs, hp]
        exact hc i
      · rw [hs, hp]
        exact .refl
  | event slot inserted hs ht hp hbefore =>
      refine ⟨ht, hio, fun c hc i => ?_, fun e he => ⟨e + 1, le_rfl, ?_, fun hzero => by omega⟩,
        fun i => ?_⟩
      · rw [hs, hp]
        show Shows (Function.update (m.sessions fd).transitions slot _ i) _ _ _
        by_cases hi : i = slot
        · subst hi
          rw [Function.update_self, if_pos rfl]
          refine Shows.event ?_
          rw [← hbefore hsane]
          exact hc i
        · rw [Function.update_of_ne hi, if_neg hi]
          exact hc i
      · rw [hs]
        show (m.sessions fd).epoch + 1 = (m.sessions fd).readEpoch + BitVec.ofNat 32 (e + 1)
        rw [he.epoch, BitVec.ofNat_add, ← BitVec.add_assoc]
        rfl
      · rw [hs, hp]
        show VirtualPortal.Evolves _ _ _ (Function.update (m.sessions fd).transitions slot _ i) _
        by_cases hi : i = slot
        · subst hi
          rw [Function.update_self, if_pos rfl, hbefore hsane]
          exact .event inserted .refl
        · rw [Function.update_of_ne hi, if_neg hi]
          exact .refl
  | rescan hr => exact absurd hr hrescans

/-- A packet in flight goes on matching what is shown. -/
theorem Machine.Told.inFlight {k events : ℕ} (h : m.Told m' fd k) (hm : m.InFlight fd events c n) :
    m'.InFlight fd (events + k) c n := by
  have hresponse : (m'.sessions fd).response = (m.sessions fd).response :=
    (congrArg Session.response h.sameIo.eq :)
  obtain ⟨e, hle, hsince⟩ := hm.since
  obtain ⟨e', hle', hsince'⟩ := h.since e hsince
  refine ⟨?_, ?_, ?_, e', by omega, hsince'⟩
  · rw [hresponse]; exact hm.counter
  · rw [hresponse]; exact hm.follows
  · rw [hresponse]; exact h.showing _ hm.showing

/-- A poll tells of at most two figures. -/
theorem e09Poll_told (hslotted : m.toStorage.Slotted) {line : RequestLine}
    (hrescans : m.ticks &&& 7 = 0 → ¬ m.Rescans line) (send : Int) :
    m.Told (m.e09Poll line send).1 fd 2 := by
  have hdisk (m : Machine) (h : m.toStorage.Slotted) : m.Told (m.pollDisk send).1 fd 1 :=
    (m.pollDisk_figures send : FigureChange _ False _ _).told h id fd
  unfold Machine.e09Poll
  split_ifs with hmail
  · refine ((m.e11Mailbox_figures line).told hslotted (hrescans hmail) fd).trans (hdisk _ ?_)
    exact hslotted.begins (m.e11Mailbox_begins line).1
  · obtain ⟨ht, hio, hshow, hsince, hqueue⟩ := hdisk m hslotted
    refine ⟨ht, hio, hshow, fun e he => ?_, hqueue⟩
    obtain ⟨e', hle, hsince'⟩ := hsince e he
    exact ⟨e', by omega, hsince'⟩

end Told

/-! ### Events -/

namespace Machine

variable {m m' : Machine} {fd : Fin 16} {idle idle' : Prop} {c : Fin 16 → U8} {n : U8}

/-- Steps that leave the figures, the clock and what the session shows. -/
theorem Streaming.of_keepsStatus (hm : m.Streaming fd idle c n) (horderly : m'.Orderly fd)
    (hfigures : m.SameFigures m') (hs : (m.sessions fd).KeepsStatus (m'.sessions fd))
    (hidle : idle → idle') : m'.Streaming fd idle' c n := by
  have hshowing {c : Fin 16 → U8} (hc : m.Showing fd c) : m'.Showing fd c := fun i => by
    rw [hs.transitions, hs.status, hfigures.present]
    exact hc i
  have hflight {events : ℕ} (hresponse : (m'.sessions fd).response = (m.sessions fd).response)
      (h : m.InFlight fd events c n) : m'.InFlight fd events c n := by
    obtain ⟨e, hle, hsince⟩ := h.since
    refine ⟨by rw [hresponse]; exact h.counter, by rw [hresponse]; exact h.follows,
      by rw [hresponse]; exact hshowing h.showing, e, hle, ?_, fun hzero i => ?_⟩
    · rw [hs.epoch, hs.readEpoch, hsince.epoch]
    · rw [hresponse, hs.transitions, hs.status]
      exact hsince.current hzero i
  refine ⟨horderly, hs.active.trans hm.active, hs.counter.trans hm.counter, hshowing hm.showing,
    fun msg hread hletter => ?_, fun msg hread hletter => ?_⟩
  · obtain ⟨hread', hresponse, hdue⟩ := hs.flight msg hread hletter
    rw [hdue, hfigures.ticks]
    exact hm.due msg hread' (hresponse ▸ hletter)
  · obtain ⟨hread', hresponse, -⟩ := hs.flight msg hread hletter
    obtain ⟨hone, hnone⟩ := hm.inFlight msg hread' (hresponse ▸ hletter)
    exact ⟨hflight hresponse hone, fun hbusy => hflight hresponse (hnone fun h => hbusy (hidle h))⟩

/-- A status read is given the packet of the session as it stands. -/
theorem Streaming.startStatus (hm : m.Streaming fd idle c n) (horderly : m'.Orderly fd)
    (hfigures : m.SameFigures m') {msg : IpcMessage} {data : U32}
    (hs : m'.sessions fd = (m.sessions fd).takeStatus msg data (m.ticks + 1)) :
    m'.Streaming fd idle' c n := by
  have hcounter : (m.sessions fd).counter + 1 - 1 = (m.sessions fd).counter :=
    BitVec.add_sub_cancel _ _
  have hcode (i : Fin 16) : code (m'.sessions fd).response i =
      shownCode ((m.sessions fd).transitions i) ((m.sessions fd).status i) := by
    rw [hs]
    exact code_v4Status (s := { m.sessions fd with read := some msg, readData := data })
      (fun i => (hm.showing i).next.2.lt) i
  have hflight (events : ℕ) : m'.InFlight fd events c n := by
    refine ⟨?_, fun i => ?_, fun i => ?_, 0, Nat.zero_le _, ?_, fun _ i => ?_⟩
    · rw [hs]
      exact (v4Status_counter _).trans hm.counter
    · rw [hcode]
      exact (hm.showing i).next.1
    · rw [hcode, hs, hfigures.present]
      exact (hm.showing i).next.2
    · rw [hs]
      exact (BitVec.add_zero _).symm
    · rw [hcode, hs]
      rfl
  refine ⟨horderly, ?_, ?_, fun i => ?_, fun _ _ _ => ?_,
    fun _ _ _ => ⟨hflight 1, fun _ => hflight 0⟩⟩
  · rw [hs]
    exact hm.active
  · rw [hs]
    exact hcounter.trans hm.counter
  · rw [hs, hfigures.present]
    exact hm.showing i
  · rw [hs, hfigures.ticks]
    rfl

/-- A request that is no reset keeps the stream. -/
theorem Streaming.process (hm : m.Streaming fd idle c n) (mem : Mem) (msg : Option IpcMessage)
    (hreset : ¬ (HidEvent.process mem msg).Resets fd) (hidle : idle → idle') :
    (m.v4Process mem msg).1.Streaming fd idle' c n := by
  have horderly : (m.v4Process mem msg).1.Orderly fd := hm.toOrderly.step (.process mem msg)
  have hfigures := m.v4Process_sameFigures mem msg
  rcases m.process_cases fd mem msg with ⟨req, rfl, hfd, h⟩ | ⟨hs, -⟩
  · rcases h.keepsStatus hm.orderly hm.active (fun hr => hreset ⟨mem, req, rfl, hfd, hr⟩) with
      hs | ⟨data, hs⟩
    · exact hm.of_keepsStatus horderly hfigures hs hidle
    · exact hm.startStatus horderly hfigures hs
  · refine hm.of_keepsStatus horderly hfigures ?_ hidle
    rw [hs]
    exact keepsStatus_refl _

/-- A request that does not end the session delivers no status. -/
theorem Streaming.evolves_process (hm : m.Streaming fd idle c n) (mem : Mem)
    (msg : Option IpcMessage) (hreset : ¬ (HidEvent.process mem msg).Resets fd) :
    m.Evolves (m.v4Process mem msg).1 fd [] := by
  have hqueue : ((m.v4Process mem msg).1.sessions fd).transitions =
      (m.sessions fd).transitions := by
    rcases m.process_cases fd mem msg with ⟨req, rfl, hfd, h⟩ | ⟨hs, -⟩
    · rcases h.keepsStatus hm.orderly hm.active (fun hr => hreset ⟨mem, req, rfl, hfd, hr⟩) with
        hs | ⟨data, hs⟩
      · exact hs.transitions
      · rw [hs]
        rfl
    · rw [hs]
  intro i
  rw [hqueue, (m.v4Process_sameFigures mem msg).present]
  exact .refl

/-- A completion tells of at most one figure, and there is no other before the next
tick. -/
theorem Streaming.told (hm : m.Streaming fd idle c n) (horderly : m'.Orderly fd)
    (htold : m.Told m' fd 1) (hidle : ¬ idle) (hidle' : idle') : m'.Streaming fd idle' c n := by
  have hio := htold.sameIo.eq
  have hresponse : (m'.sessions fd).response = (m.sessions fd).response :=
    (congrArg Session.response hio :)
  refine ⟨horderly, (congrArg Session.active hio :).trans hm.active,
    (congrArg Session.counter hio :).trans hm.counter, htold.showing c hm.showing,
    fun msg hread hletter => ?_, fun msg hread hletter => ?_⟩
  · rw [show (m'.sessions fd).due = (m.sessions fd).due from (congrArg Session.due hio :),
      htold.ticks]
    exact hm.due msg (htold.sameIo.read ▸ hread) (hresponse ▸ hletter)
  · obtain ⟨-, hflight⟩ := hm.inFlight msg (htold.sameIo.read ▸ hread) (hresponse ▸ hletter)
    exact ⟨htold.inFlight (hflight hidle), fun h => absurd hidle' h⟩

/-- The machine between the poll and the deliveries of a tick: a status packet in
flight is due. -/
structure Ready (m : Machine) (fd : Fin 16) (c : Fin 16 → U8) (n : U8) : Prop
    extends m.AtSubmission where
  active : (m.sessions fd).active = true
  counter : (m.sessions fd).counter = n
  showing : m.Showing fd c
  flight : ∀ msg, (m.sessions fd).read = some msg → (m.sessions fd).response 0 = letter 'S' →
    (m.sessions fd).due = m.ticks ∧ m.InFlight fd 3 c n

/-- After the poll the session has been told of the figures. -/
theorem Streaming.polled (hm : m.Streaming fd idle c n) (hslotted : m.toStorage.Slotted)
    {line : RequestLine} (hrescans : m.ticks + 1 &&& 7 = 0 →
      ¬ { m with ticks := m.ticks + 1 }.Rescans line) (send : Int) :
    (m.polled line send).Ready fd c n ∧ m.Evolves (m.polled line send) fd [] := by
  have htold : { m with ticks := m.ticks + 1 }.Told (m.polled line send) fd 2 :=
    e09Poll_told (m := { m with ticks := m.ticks + 1 }) hslotted hrescans send
  have hio := htold.sameIo.eq
  have hresponse : ((m.polled line send).sessions fd).response = (m.sessions fd).response :=
    (congrArg Session.response hio :)
  refine ⟨⟨⟨fun fd' msg hread => ?_, fun fd' => ?_⟩,
    (congrArg Session.active hio :).trans hm.active,
    (congrArg Session.counter hio :).trans hm.counter, htold.showing c hm.showing,
    fun msg hread hletter => ?_⟩, htold.queue⟩
  · exact hm.own fd' msg ((m.polled_sameIo line send fd').read ▸ hread)
  · exact (m.polled_sameIo line send fd').pendingStatus.trans (hm.pending fd')
  · rw [htold.sameIo.read] at hread
    rw [hresponse] at hletter
    obtain ⟨hcounter, hfollows, hshowing, hsince⟩ := (hm.inFlight msg hread hletter).1
    refine ⟨?_, htold.inFlight ⟨hcounter, hfollows, hshowing, hsince⟩⟩
    rw [show ((m.polled line send).sessions fd).due = (m.sessions fd).due from
      (congrArg Session.due hio :), hm.due msg hread hletter, htold.ticks]

section Deliver

variable (hm : m.Ready fd c n) (horderly : m'.Orderly fd) (hslots : m'.slots = m.slots)
include hm horderly hslots

/-- No status packet is delivered: nothing is in flight, and the session shows what it
showed. -/
theorem Ready.waits {msgs : List (Bytes 32)} (hmsgs : msgs = [])
    (hactive : (m'.sessions fd).active = (m.sessions fd).active)
    (hcounter : (m'.sessions fd).counter = (m.sessions fd).counter)
    (htransitions : (m'.sessions fd).transitions = (m.sessions fd).transitions)
    (hstatus : (m'.sessions fd).status = (m.sessions fd).status)
    (hflight : ∀ msg, (m'.sessions fd).read = some msg → (m'.sessions fd).response 0 ≠ letter 'S') :
    Streams fd idle c n m m' msgs := by
  subst hmsgs
  refine .none ⟨horderly, hactive.trans hm.active, hcounter.trans hm.counter, fun i => ?_,
    fun msg hread hletter => absurd hletter (hflight msg hread),
    fun msg hread hletter => absurd hletter (hflight msg hread)⟩ fun i => ?_
  · rw [htransitions, hstatus, hslots]
    exact hm.showing i
  · rw [htransitions, hslots]
    exact .refl

/-- A status packet that is due is delivered, and it follows. -/
theorem Ready.status {msg : IpcMessage} (hread : (m.sessions fd).read = some msg)
    (hletter : (m.sessions fd).response 0 = letter 'S')
    (hs : m'.sessions fd = ((m.sessions fd).deliver msg).1) :
    Streams fd idle c n m m' [(m.sessions fd).response] := by
  obtain ⟨-, hflight⟩ := hm.flight msg hread hletter
  obtain ⟨e, hle, hsince⟩ := hflight.since
  obtain ⟨hnone, -, -, -, -, hactive⟩ := (m.sessions fd).deliver_keeps msg
  have hpending := hm.pending fd
  have hempty (msg' : IpcMessage) : (m'.sessions fd).read ≠ some msg' := by
    rw [hs, hnone]
    simp
  refine .one _ hflight.follows hflight.counter ⟨horderly, ?_, ?_, fun i => ?_,
    fun msg' hread' => absurd hread' (hempty msg'), fun msg' hread' => absurd hread' (hempty msg')⟩
    fun i => ?_
  · rw [hs, hactive, hm.active]
  · rw [hs, deliver_counter hpending hletter, hm.counter]
  · rw [hs, hslots]
    exact deliver_shows hpending hletter hsince (by omega) msg (hflight.showing i)
  · rw [hs, hslots]
    exact deliver_evolves hpending hletter hsince (by omega) msg i _

/-- The session's part of the delivery loop. -/
theorem Ready.v4Tick (hs : m'.sessions fd = ((m.sessions fd).v4Tick m.ticks).1) :
    Streams fd idle c n m m' (statusesTo fd ((m.sessions fd).v4Tick m.ticks).2) := by
  by_cases hstatus :
      ∃ msg, (m.sessions fd).read = some msg ∧ (m.sessions fd).response 0 = letter 'S'
  · obtain ⟨msg, hread, hletter⟩ := hstatus
    have hdeliver : (m.sessions fd).v4Tick m.ticks = (m.sessions fd).deliver msg := by
      rw [Session.v4Tick, hread, (hm.flight msg hread hletter).1, BitVec.sub_self]
      exact if_pos le_rfl
    have hout := congrArg Prod.snd (Session.deliver_eq (hm.pending fd) msg)
    rw [hdeliver] at hs ⊢
    rw [hout, statusesTo, deliveredTo_deliver, if_pos (hm.own fd msg hread), List.filter_singleton,
      decide_eq_true hletter]
    exact hm.status horderly hslots hread hletter hs
  · have hnot (msg : IpcMessage) (hread : (m.sessions fd).read = some msg) :
        (m.sessions fd).response 0 ≠ letter 'S' := fun hletter => hstatus ⟨msg, hread, hletter⟩
    rcases (m.sessions fd).v4Tick_cases m.ticks with h | ⟨msg, hread, -, h⟩
    · rw [h] at hs ⊢
      refine hm.waits horderly hslots rfl ?_ ?_ ?_ ?_ fun msg hread => ?_
      · rw [hs]
      · rw [hs]
      · rw [hs]
      · rw [hs]
      · rw [hs] at hread ⊢
        exact hnot msg hread
    · have hdeliver := Session.deliver_eq (hm.pending fd) msg
      rw [if_neg (hnot msg hread)] at hdeliver
      rw [h, hdeliver] at hs ⊢
      refine hm.waits horderly hslots ?_ ?_ ?_ ?_ ?_ fun msg' hread' => ?_
      · rw [statusesTo, deliveredTo_deliver, if_pos (hm.own fd msg hread), List.filter_singleton,
          decide_eq_false (hnot msg hread)]
        rfl
      · rw [hs]
      · rw [hs]
      · rw [hs]
      · rw [hs]
      · rw [hs] at hread'
        cases hread'

end Deliver

/-- A tick delivers the status packet in flight, if there is one, and it follows. -/
theorem Streaming.tick (hm : m.Streaming fd idle c n) (hslotted : m.toStorage.Slotted)
    {line : RequestLine} (hrescans : m.ticks + 1 &&& 7 = 0 →
      ¬ { m with ticks := m.ticks + 1 }.Rescans line) (send : Int) :
    Streams fd idle' c n m (m.v4Tick line send).1 (statusesTo fd (m.v4Tick line send).2) := by
  have horderly : (m.v4Tick line send).1.Orderly fd := hm.toOrderly.step (.tick line send)
  obtain ⟨hready, hqueue⟩ := hm.polled hslotted hrescans send
  have hstreams : Streams fd idle' c n (m.polled line send) (m.v4Tick line send).1
      (statusesTo fd (((m.polled line send).sessions fd).v4Tick (m.polled line send).ticks).2) :=
    hready.v4Tick horderly rfl (sessions_v4Tick m line send fd)
  rw [statusesTo, deliveredTo_tick hm.toAtSubmission]
  generalize hpackets : statusesTo fd _ = packets at hstreams
  rw [show List.filter _ _ = packets from hpackets]
  cases hstreams with
  | none h hqueue' => exact .none h fun i => (hqueue i).trans (hqueue' i)
  | one packet hfollows hcounter h hqueue' =>
      exact .one packet hfollows hcounter h fun i => (hqueue i).trans (hqueue' i)

end Machine
end VirtualPortal
