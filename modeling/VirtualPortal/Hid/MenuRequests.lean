/-
# What an event does to the request of the menu

The mailbox of IOS keeps the number of the last request it has executed
(`requestSeq`) and the page it shows.  A tick that finds a new request in the
line executes it at once (`Served`); nothing else changes either of the two,
and each publication reports both, with the labels of the page
(`Machine.Reports`).
-/

import VirtualPortal.Hid.Worker
import VirtualPortal.Storage.Moves

namespace VirtualPortal

/-- The requests a list of effects executes. -/
def executedIn (out : List Effect) : List (U32 × U32) :=
  out.filterMap fun
    | .executed op arg => some (op, arg)
    | _ => none

/-- The replies a list of effects publishes. -/
def publishedIn (out : List Effect) : List (Bytes 416) :=
  out.filterMap fun
    | .publish p => some p.reply
    | _ => none

/-- An effect of the mailbox. -/
def Effect.ofMail : Effect → Bool
  | .executed _ _ | .publish _ => true
  | _ => false

/-- What is executed in two lists of effects. -/
theorem executedIn_append (out out' : List Effect) :
    executedIn (out ++ out') = executedIn out ++ executedIn out' := List.filterMap_append

/-- What is published in two lists of effects. -/
theorem publishedIn_append (out out' : List Effect) :
    publishedIn (out ++ out') = publishedIn out ++ publishedIn out' := List.filterMap_append

/-- Effects of other parts execute nothing. -/
theorem executedIn_eq_nil {out : List Effect} (h : ∀ e ∈ out, e.ofMail = false) :
    executedIn out = [] := by
  refine List.filterMap_eq_nil_iff.mpr fun e he => ?_
  have := h e he
  cases e <;> first | rfl | cases this

/-- Effects of other parts publish nothing. -/
theorem publishedIn_eq_nil {out : List Effect} (h : ∀ e ∈ out, e.ofMail = false) :
    publishedIn out = [] := by
  refine List.filterMap_eq_nil_iff.mpr fun e he => ?_
  have := h e he
  cases e <;> first | rfl | cases this

/-- The text of a catalogue entry, padded with zeros. -/
def labelText (catalog : Bytes 16416) (compact id : U32) : Bytes 48 :=
  e11Label (Bytes.zero 48) 0 catalog compact id

/-- A label copied to offset `off` of a buffer that is zero there. -/
theorem byte_e11Label {n : ℕ} (out : Bytes n) {off k : ℕ} (catalog : Bytes 16416) (compact id : U32)
    (hn : off + 48 ≤ n) (hk : k < 48) (hzero : out.byte (off + k) = 0) :
    (e11Label out off catalog compact id).byte (off + k) =
      (labelText catalog compact id).byte k := by
  unfold labelText e11Label
  dsimp only
  generalize (if compact = 2 then 19 else if compact ≠ 0 then 27 else 47) = len
  by_cases h : k < len
  · rw [Bytes.byte_copy_of_mem _ _ (by omega) (by omega) (by omega),
      Bytes.byte_copy_of_mem _ _ (by omega) (by omega) (by omega), Nat.add_sub_cancel_left,
      Nat.sub_zero]
  · rw [Bytes.byte_copy_of_le _ _ (by omega), Bytes.byte_copy_of_le _ _ (by omega), hzero,
      Bytes.byte_zero]

/-- Outside its 48 bytes a label changes nothing. -/
theorem byte_e11Label_of_disjoint {n : ℕ} (out : Bytes n) {off p : ℕ} (catalog : Bytes 16416)
    (compact id : U32) (h : p < off ∨ off + 48 ≤ p) :
    (e11Label out off catalog compact id).byte p = out.byte p := by
  unfold e11Label
  dsimp only
  rcases h with h | h
  · exact Bytes.byte_copy_of_lt _ _ h
  · refine Bytes.byte_copy_of_le _ _ ?_
    split_ifs <;> omega

section Rows

variable (catalog : Bytes 16416) (compact page count : U32)

/-- The row `i` of a reply is written. -/
def putRow (out : Bytes 416) (i : ℕ) : Bytes 416 :=
  if page + BitVec.ofNat 32 i < count then
    e11Label out (32 + i * 48) catalog compact (page + BitVec.ofNat 32 i)
  else out

/-- A row leaves the bytes of the others. -/
theorem byte_putRow_of_disjoint (out : Bytes 416) {i p : ℕ}
    (h : p < 32 + i * 48 ∨ 32 + i * 48 + 48 ≤ p) :
    (putRow catalog compact page count out i).byte p = out.byte p := by
  unfold putRow
  split_ifs
  · exact byte_e11Label_of_disjoint out catalog compact _ h
  · rfl

/-- Some rows leave the bytes of the others. -/
theorem byte_putRows_of_disjoint (is : List ℕ) (out : Bytes 416) {p : ℕ}
    (h : ∀ i ∈ is, p < 32 + i * 48 ∨ 32 + i * 48 + 48 ≤ p) :
    (is.foldl (putRow catalog compact page count) out).byte p = out.byte p := by
  induction is generalizing out with
  | nil => rfl
  | cons i is ih =>
      rw [List.foldl_cons, ih _ fun j hj => h j (List.mem_cons_of_mem i hj)]
      exact byte_putRow_of_disjoint catalog compact page count out (h i List.mem_cons_self)

/-- The row of an entry holds its label. -/
theorem byte_putRows {out : Bytes 416} {i k : ℕ} (hi : i < 8) (hk : k < 48)
    (hcount : page + BitVec.ofNat 32 i < count) (hzero : ∀ p, 32 ≤ p → out.byte p = 0) :
    ((List.range 8).foldl (putRow catalog compact page count) out).byte (32 + i * 48 + k) =
      (labelText catalog compact (page + BitVec.ofNat 32 i)).byte k := by
  obtain ⟨before, after, hrange⟩ := List.append_of_mem (List.mem_range.mpr hi)
  have hnodup := List.nodup_range (n := 8)
  rw [hrange, List.nodup_middle, List.nodup_cons] at hnodup
  have hother {j : ℕ} (hj : j ∈ before ++ after) :
      32 + i * 48 + k < 32 + j * 48 ∨ 32 + j * 48 + 48 ≤ 32 + i * 48 + k := by
    have hne : j ≠ i := fun h => hnodup.1 (h ▸ hj)
    omega
  rw [hrange, List.foldl_append, List.foldl_cons,
    byte_putRows_of_disjoint _ _ _ _ after _ fun j hj => hother (List.mem_append_right _ hj),
    putRow, if_pos hcount]
  refine byte_e11Label _ catalog compact _ (by omega) hk ?_
  rw [byte_putRows_of_disjoint _ _ _ _ before _ fun j hj => hother (List.mem_append_left _ hj)]
  exact hzero _ (by omega)

end Rows

/-- Beginning an action leaves the catalogue. -/
theorem Storage.Begins.catalog {st st' : Storage} (h : st.Begins st') :
    st'.catalog = st.catalog ∧ st'.compact = st.compact ∧ st'.count = st.count := by
  cases h <;> exact ⟨rfl, rfl, rfl⟩

namespace Machine

/-- A reply reports the request number, the page and its labels. -/
structure Reports (m : Machine) (reply : Bytes 416) : Prop where
  seq : be32 reply.byte 0 = m.requestSeq
  count : be32 reply.byte 8 = m.count
  page : be32 reply.byte 12 = m.page
  label : ∀ i < 8, m.page + BitVec.ofNat 32 i < m.count → ∀ k < 48,
    reply.byte (32 + i * 48 + k) =
      (labelText m.catalog m.compact (m.page + BitVec.ofNat 32 i)).byte k

/-- The words of a reply before its rows. -/
def replyWords (m : Machine) : Bytes 416 :=
  let slot := m.ui m.view
  let out := (Bytes.zero 416).putBe32 0 m.requestSeq
  let out := out.putBe32 4 (BitVec.ofInt 32 m.error)
  let out := out.putBe32 8 m.count
  let out := out.putBe32 12 m.page
  let out := out.putBe32 16 (slot.elim 0xffffffff fun i => (m.slots i).id)
  let out := out.putBe32 20 (slot.elim 0 fun i => if (m.slots i).present then 1 else 0)
  let out := out.putBe32 24 (BitVec.ofNat 32 m.e12Dirty)
  out.putBe32 28 (if m.action ≠ none then 2 else if m.busy then 1 else 0)

/-- The reply is its first words and eight rows. -/
theorem menuReply_eq (m : Machine) :
    m.menuReply =
      (List.range 8).foldl (putRow m.catalog m.compact m.page m.count) m.replyWords := rfl

/-- A publication reports the machine it is made from. -/
theorem menuReply_reports (m : Machine) : m.Reports m.menuReply := by
  have hword {o : ℕ} (ho : o + 4 ≤ 32) :
      be32 m.menuReply.byte o = be32 m.replyWords.byte o := by
    refine be32_congr fun k hk => ?_
    rw [menuReply_eq, byte_putRows_of_disjoint]
    intro i _
    omega
  constructor
  · rw [hword (by omega)]
    simp (disch := omega) only [replyWords, Bytes.be32_putBe32_of_disjoint, Bytes.be32_putBe32]
  · rw [hword (by omega)]
    simp (disch := omega) only [replyWords, Bytes.be32_putBe32_of_disjoint, Bytes.be32_putBe32]
  · rw [hword (by omega)]
    simp (disch := omega) only [replyWords, Bytes.be32_putBe32_of_disjoint, Bytes.be32_putBe32]
  · intro i hi hcount k hk
    rw [menuReply_eq]
    refine byte_putRows m.catalog m.compact m.page m.count hi hk hcount fun p hp => ?_
    simp (disch := omega) only [replyWords, Bytes.byte_putBe32_of_le, Bytes.byte_zero]

/-! ### Everything but the mailbox -/

/-- The request number, the page and the routes stay. -/
structure SameMail (m m' : Machine) : Prop where
  seq : m'.requestSeq = m.requestSeq
  page : m'.page = m.page
  route : m'.route = m.route

/-- A step that is none of the mailbox. -/
structure Unmailed (m : Machine) (step : Machine × List Effect) : Prop where
  same : m.SameMail step.1
  effects : ∀ e ∈ step.2, e.ofMail = false

/-- An event of the old slot is not one of the mailbox. -/
theorem oldEvent_sameMail (m : Machine) (inserted : Bool) : m.SameMail (m.oldEvent inserted) := by
  unfold oldEvent
  split <;> exact ⟨rfl, rfl, rfl⟩

/-- `e12_restore` leaves the mailbox alone. -/
theorem e12Restore_sameMail (m : Machine) (error : Int) : m.SameMail (m.e12Restore error) :=
  ⟨(oldEvent_sameMail _ _).seq, (oldEvent_sameMail _ _).page,
    (oldEvent_sameMail _ _).route⟩

/-- `e12_begin` leaves the mailbox alone. -/
theorem e12Begin_sameMail (m : Machine) (ui id : U32) (action : Swap) :
    m.SameMail (m.e12Begin ui id action).2 := by
  rcases m.e12Begin_cases ui id action with h | ⟨pos, -, -, -, h⟩
  · rw [h]
    exact ⟨rfl, rfl, rfl⟩
  · rw [h]
    exact ⟨(oldEvent_sameMail _ _).seq, (oldEvent_sameMail _ _).page,
    (oldEvent_sameMail _ _).route⟩

/-- A load or a removal leaves the request number and the page. -/
theorem menuSwap_sameMail (m : Machine) (arg : U32) (action : Swap) :
    m.SameMail (m.menuSwap arg action).2 := by
  have h := m.e12Begin_sameMail (arg >>> 16) (arg &&& 65535) action
  unfold menuSwap
  dsimp only
  split_ifs <;> exact ⟨h.seq, h.page, h.route⟩

/-- A submission leaves the mailbox alone. -/
theorem e11Submit_unmailed {m m' : Machine} (h : m.SameMail m') (op : DiskOp) (send : Int) :
    m.Unmailed (m'.e11Submit op send) := by
  unfold e11Submit
  dsimp only
  split_ifs
  · exact ⟨⟨h.seq, h.page, h.route⟩, fun _ he => absurd he List.not_mem_nil⟩
  · refine ⟨⟨h.seq, h.page, h.route⟩, fun e he => ?_⟩
    rw [List.mem_singleton.mp he]
    rfl

/-- A step without effects leaves the mailbox alone if its variables stay. -/
theorem unmailed_nil {m m' : Machine} (h : m.SameMail m') : m.Unmailed (m', []) :=
  ⟨h, fun _ he => absurd he List.not_mem_nil⟩

/-- A save of a slot leaves the mailbox alone. -/
theorem e12SaveSlot_unmailed {m m' : Machine} (h : m.SameMail m') (i : Fin 16) (send : Int) :
    m.Unmailed (m'.e12SaveSlot i send) := by
  refine e11Submit_unmailed ?_ .save send
  exact ⟨h.seq, h.page, h.route⟩

/-- A poll leaves the mailbox alone. -/
theorem pollDisk_unmailed (m : Machine) (send : Int) : m.Unmailed (m.pollDisk send) := by
  have h := m.pollDisk_step send
  generalize m.pollDisk send = out at h ⊢
  cases h with
  | idle => exact unmailed_nil ⟨rfl, rfl, rfl⟩
  | catalog => exact e11Submit_unmailed ⟨rfl, rfl, rfl⟩ .catalog send
  | saveOld i => exact e12SaveSlot_unmailed ⟨rfl, rfl, rfl⟩ i send
  | remove => exact unmailed_nil ⟨rfl, rfl, rfl⟩
  | load =>
      refine e11Submit_unmailed ?_ .load send
      exact ⟨rfl, rfl, rfl⟩
  | autoload => exact unmailed_nil (m.e12Begin_sameMail 0 0 .load)
  | save i =>
      refine e12SaveSlot_unmailed ?_ _ send
      exact ⟨rfl, rfl, rfl⟩
  | flushed => exact unmailed_nil ⟨rfl, rfl, rfl⟩

/-- The deliveries leave the mailbox alone. -/
theorem deliverReads_unmailed (m : Machine) : m.Unmailed m.deliverReads := by
  refine ⟨⟨rfl, rfl, rfl⟩, fun e he => ?_⟩
  obtain ⟨fd, -, he⟩ := List.mem_flatMap.mp he
  rcases (m.sessions fd).v4Tick_cases m.ticks with h | ⟨msg, -, -, h⟩
  · rw [h] at he
    exact absurd he List.not_mem_nil
  · rw [h] at he
    rw [List.mem_singleton.mp he]
    rfl

/-- `e09_complete` leaves the mailbox alone. -/
theorem e09Complete_unmailed (m : Machine) : m.Unmailed m.e09Complete := by
  have hrestore (error : Int) : m.Unmailed (m.takeResult.e12Restore error, []) := by
    have h := m.takeResult.e12Restore_sameMail error
    exact unmailed_nil ⟨h.seq, h.page, h.route⟩
  have hone {m' : Machine} {e : Effect} (h : m.SameMail m') (he : e.ofMail = false) :
      m.Unmailed (m', [e]) :=
    ⟨h, fun e' he' => by rwa [List.mem_singleton.mp he']⟩
  have h := m.e09Complete_step
  generalize m.e09Complete = out at h ⊢
  cases h with
  | failed => exact unmailed_nil ⟨rfl, rfl, rfl⟩
  | abandoned => exact hrestore m.result
  | counted =>
      have h := m.takeResult.countEntries.e12Begin_sameMail 0 0 .load
      exact unmailed_nil ⟨h.seq, h.page, h.route⟩
  | saved => exact hone ⟨rfl, rfl, rfl⟩ rfl
  | rejected error => exact hrestore error
  | installed => exact hone ⟨rfl, rfl, rfl⟩ rfl

/-- The effect of a command leaves the mailbox alone. -/
theorem commandApply_unmailed (m : Machine) (fd : Fin 16) (data : ℕ → U8) (c : PortalCommand) :
    m.Unmailed (m.commandApply fd data c) := by
  cases c with
  | activate b => exact unmailed_nil ⟨rfl, rfl, rfl⟩
  | write slot block =>
      unfold commandApply
      dsimp only
      split_ifs
      · refine ⟨⟨rfl, rfl, rfl⟩, fun e he => ?_⟩
        rw [List.mem_singleton.mp he]
        rfl
      · exact unmailed_nil ⟨rfl, rfl, rfl⟩
  | _ => exact unmailed_nil ⟨rfl, rfl, rfl⟩

/-- A command with its reply leaves the mailbox alone. -/
theorem runCommand_unmailed (m : Machine) (fd : Fin 16) (data : ℕ → U8) (c : PortalCommand)
    (ok : Int) : m.Unmailed (m.runCommand fd data c ok).2 := by
  unfold runCommand
  split
  · exact m.commandApply_unmailed fd data c
  · dsimp only
    split_ifs
    · exact unmailed_nil ⟨rfl, rfl, rfl⟩
    · obtain ⟨hsame, heffects⟩ :=
        commandApply_unmailed (m.setSession fd ((m.sessions fd).v4Push _).2) fd data c
      refine ⟨⟨hsame.seq, hsame.page, hsame.route⟩, fun e he => ?_⟩
      rcases List.mem_cons.mp he with rfl | he
      · rfl
      · exact heffects e he

/-- A control transfer leaves the mailbox alone. -/
theorem TransferStep.unmailed {m : Machine} {fd : Fin 16} {mem : Mem} {msg : IpcMessage}
    {out : Machine × List Effect} (h : m.TransferStep fd mem msg out) : m.Unmailed out := by
  cases h with
  | refused => exact unmailed_nil ⟨rfl, rfl, rfl⟩
  | command _ _ _ data c ok => exact m.runCommand_unmailed fd data c ok
  | read => exact unmailed_nil ⟨rfl, rfl, rfl⟩

/-- What a cancel acknowledges is none of the mailbox. -/
theorem cancelEffects_ofMail (s : Session) : ∀ e ∈ s.cancelEffects, e.ofMail = false := by
  unfold Session.cancelEffects
  cases s.read <;> cases s.change <;> simp [Effect.ofMail]

/-- An ioctl leaves the mailbox alone. -/
theorem IoctlStep.unmailed {m : Machine} {fd : Fin 16} {mem : Mem} {msg : IpcMessage}
    {out : Machine × List Effect} (h : m.IoctlStep fd mem msg out) : m.Unmailed out := by
  have hcancel (s : Session) (r : Int) :
      m.Unmailed (m.setSession fd s, (m.sessions fd).cancelEffects ++ [.ack msg r]) :=
    ⟨⟨rfl, rfl, rfl⟩, List.forall_mem_append.mpr ⟨cancelEffects_ofMail _, by simp [Effect.ofMail]⟩⟩
  cases h with
  | version => exact hcancel _ _
  | shutdown => exact hcancel _ _
  | transfer r h =>
      obtain ⟨hsame, heffects⟩ := h.unmailed
      split_ifs
      · exact ⟨hsame, heffects⟩
      · exact ⟨hsame, List.forall_mem_append.mpr ⟨heffects, by simp [Effect.ofMail]⟩⟩
  | _ => exact ⟨⟨rfl, rfl, rfl⟩, by simp [Effect.ofMail]⟩

/-- No request of a game is one of the mailbox, and only a close changes a route. -/
theorem v4Process_unmailed {m : Machine} {mem : Mem} {msg : IpcMessage}
    (hclose : msg.command ≠ iosClose) : m.Unmailed (m.v4Process mem (some msg)) := by
  have h := m.v4Process_step mem msg
  generalize m.v4Process mem (some msg) = out at h ⊢
  cases h with
  | answer => exact ⟨⟨rfl, rfl, rfl⟩, by simp [Effect.ofMail]⟩
  | close fd hfd hcommand => exact absurd hcommand hclose
  | ioctl fd hfd hioctl h => exact h.unmailed

/-- A close of a descriptor of the portal. -/
theorem v4Process_close (m : Machine) {mem : Mem} {msg : IpcMessage} (hfd : msg.fd.toNat < 16)
    (hclose : msg.command = iosClose) :
    m.v4Process mem (some msg) =
      ({ m.setSession ⟨msg.fd.toNat, hfd⟩ .zero with
          route := Function.update m.route ⟨msg.fd.toNat, hfd⟩ false },
        (m.sessions ⟨msg.fd.toNat, hfd⟩).cancelEffects ++ [.stockClose msg]) := by
  unfold v4Process
  dsimp only
  rw [dif_pos hfd, if_pos hclose]

/-- A request of a game leaves the request number and the page. -/
theorem v4Process_mail (m : Machine) (mem : Mem) (msg : Option IpcMessage) :
    (m.v4Process mem msg).1.requestSeq = m.requestSeq ∧
      (m.v4Process mem msg).1.page = m.page ∧
      ∀ e ∈ (m.v4Process mem msg).2, e.ofMail = false := by
  cases msg with
  | none => exact ⟨rfl, rfl, fun _ he => absurd he List.not_mem_nil⟩
  | some msg =>
      by_cases hclose : msg.command = iosClose
      · by_cases hfd : msg.fd.toNat < 16
        · rw [m.v4Process_close hfd hclose]
          exact ⟨rfl, rfl,
            List.forall_mem_append.mpr ⟨cancelEffects_ofMail _, by simp [Effect.ofMail]⟩⟩
        · unfold v4Process
          dsimp only
          rw [dif_neg hfd]
          exact ⟨rfl, rfl, by simp [Effect.ofMail]⟩
      · obtain ⟨hsame, heffects⟩ := @v4Process_unmailed m mem _ hclose
        exact ⟨hsame.seq, hsame.page, heffects⟩

/-! ### The mailbox -/

/-- The mailbox takes the line for a new request that it can execute now. -/
structure Serves (m : Machine) (line : RequestLine) : Prop where
  route : ∃ fd, m.route fd = true
  magic : line 0 = 0x4531324d ∧ line 4 = 0x534b595a
  alive : (m.menuAlive (line 5)).isSome = true
  new : line 1 ≠ m.requestSeq
  ready : m.defers (line 2) = false

/-- The page a request leaves. -/
def pageAfter (m : Machine) (op arg : U32) : U32 :=
  if op = 1 then if arg < e11Max then arg / 8 * 8 else 0 else m.page

/-- A reply of a step reports its request number and page, and the catalogue. -/
def Published (m : Machine) (step : Machine × List Effect) : Prop :=
  ∀ reply ∈ publishedIn step.2, ∃ m₀ : Machine, m₀.Reports reply ∧ step.1.SameMail m₀ ∧
    m₀.catalog = m.catalog ∧ m₀.compact = m.compact ∧ m₀.count = m.count

/-- The request of the line is executed. -/
structure Served (m : Machine) (line : RequestLine) (step : Machine × List Effect) : Prop where
  seq : step.1.requestSeq = line 1
  page : step.1.page = m.pageAfter (line 2) (line 3)
  executed : executedIn step.2 = [(line 2, line 3)]
  published : publishedIn step.2 ≠ []

/-- No request is executed. -/
structure Unserved (m : Machine) (step : Machine × List Effect) : Prop where
  seq : step.1.requestSeq = m.requestSeq
  page : step.1.page = m.page
  executed : executedIn step.2 = []

/-- A step that leaves the mailbox alone serves no request. -/
theorem Unmailed.unserved {m : Machine} {step : Machine × List Effect} (h : m.Unmailed step) :
    m.Unserved step := ⟨h.same.seq, h.same.page, executedIn_eq_nil h.effects⟩

/-- A step that leaves the mailbox alone publishes nothing. -/
theorem Unmailed.published {m : Machine} {step : Machine × List Effect} (h : m.Unmailed step) :
    m.Published step := by
  intro reply hreply
  rw [publishedIn_eq_nil h.effects] at hreply
  exact absurd hreply List.not_mem_nil

/-- A request moves the page it asks for and leaves the request number. -/
theorem menuRequest_mail (m : Machine) (op arg : U32) :
    (m.menuRequest op arg).2.requestSeq = m.requestSeq ∧
      (m.menuRequest op arg).2.page = m.pageAfter op arg := by
  unfold menuRequest pageAfter
  by_cases h₁ : op = 1
  · rw [if_pos h₁, if_pos h₁]
    exact ⟨rfl, rfl⟩
  rw [if_neg h₁, if_neg h₁]
  split_ifs
  · exact ⟨(m.menuSwap_sameMail arg .load).seq, (m.menuSwap_sameMail arg .load).page⟩
  · exact ⟨(m.menuSwap_sameMail arg .remove).seq, (m.menuSwap_sameMail arg .remove).page⟩
  all_goals exact ⟨rfl, rfl⟩

/-- The execution of a request takes over its number and its page. -/
theorem menuExecute_mail (m : Machine) (seq op arg : U32) :
    (m.menuExecute seq op arg).requestSeq = seq ∧
      (m.menuExecute seq op arg).page = m.pageAfter op arg := by
  have h := menuRequest_mail { m with requestSeq := seq } op arg
  unfold menuExecute
  dsimp only
  split_ifs <;> exact h

section Mailbox

variable (m : Machine) (line : RequestLine)

/-- A new heartbeat leaves the request number and the page. -/
theorem menuAlive_sameMail {m m' : Machine} {heartbeat : U32}
    (h : m.menuAlive heartbeat = some m') : m.SameMail m' := by
  unfold menuAlive at h
  split_ifs at h <;> cases h <;> exact ⟨rfl, rfl, rfl⟩

/-- The mailbox that has looked at the line: it executes the request, or it only
publishes. -/
theorem e11Mailbox_alive {m' : Machine} (hroute : ∃ fd, m.route fd = true)
    (hmagic : line 0 = 0x4531324d ∧ line 4 = 0x534b595a)
    (halive : m.menuAlive (line 5) = some m') :
    m.e11Mailbox line =
      if line 1 ≠ m.requestSeq ∧ ¬ m.defers (line 2) then
        ((m'.menuExecute (line 1) (line 2) (line 3)).e11Publish.1,
          .executed (line 2) (line 3) ::
            (m'.menuExecute (line 1) (line 2) (line 3)).e11Publish.2)
      else m'.e11Publish := by
  have hdefers : m'.defers (line 2) = m.defers (line 2) := by
    rw [defers, defers, show m'.action = m.action from
      congrArg Storage.action (menuAlive_toStorage halive), show m'.busy = m.busy from
      congrArg Storage.busy (menuAlive_toStorage halive)]
  unfold e11Mailbox
  rw [if_neg (not_not_intro hroute), if_neg fun h => h.elim (absurd hmagic.1) (absurd hmagic.2),
    halive]
  dsimp only
  rw [hdefers, (menuAlive_sameMail halive).seq]

/-- A mailbox that does not get that far does nothing. -/
theorem e11Mailbox_idle
    (h : ¬ ((∃ fd, m.route fd = true) ∧ (line 0 = 0x4531324d ∧ line 4 = 0x534b595a) ∧
      (m.menuAlive (line 5)).isSome = true)) : m.e11Mailbox line = (m, []) := by
  unfold e11Mailbox
  by_cases hroute : ¬ ∃ fd, m.route fd
  · rw [if_pos hroute]
  rw [if_neg hroute]
  by_cases hmagic : line 0 ≠ 0x4531324d ∨ line 4 ≠ 0x534b595a
  · rw [if_pos hmagic]
  rw [if_neg hmagic]
  cases halive : m.menuAlive (line 5) with
  | none => rfl
  | some m' =>
      push Not at hroute hmagic
      exact absurd ⟨hroute, hmagic, by rw [halive]; rfl⟩ h

/-- A line with a new request that is not put off is served. -/
theorem e11Mailbox_served (h : m.Serves line) : m.Served line (m.e11Mailbox line) := by
  obtain ⟨m', halive⟩ := Option.isSome_iff_exists.mp h.alive
  rw [m.e11Mailbox_alive line h.route h.magic halive,
    if_pos ⟨h.new, by rw [h.ready]; decide⟩]
  obtain ⟨hseq, hpage⟩ := m'.menuExecute_mail (line 1) (line 2) (line 3)
  refine ⟨hseq, hpage.trans ?_, rfl, List.cons_ne_nil _ _⟩
  rw [pageAfter, pageAfter, (menuAlive_sameMail halive).page]

/-- Any other line is not served. -/
theorem e11Mailbox_unserved (h : ¬ m.Serves line) : m.Unserved (m.e11Mailbox line) := by
  by_cases hlooked : (∃ fd, m.route fd = true) ∧ (line 0 = 0x4531324d ∧ line 4 = 0x534b595a) ∧
      (m.menuAlive (line 5)).isSome = true
  · obtain ⟨hroute, hmagic, hsome⟩ := hlooked
    obtain ⟨m', halive⟩ := Option.isSome_iff_exists.mp hsome
    rw [m.e11Mailbox_alive line hroute hmagic halive,
      if_neg fun hnew => h ⟨hroute, hmagic, hsome, hnew.1, eq_false_of_ne_true hnew.2⟩]
    exact ⟨(menuAlive_sameMail halive).seq, (menuAlive_sameMail halive).page, rfl⟩
  · rw [m.e11Mailbox_idle line hlooked]
    exact ⟨rfl, rfl, rfl⟩

/-- What a look at the mailbox publishes is the state it leaves. -/
theorem e11Mailbox_published : m.Published (m.e11Mailbox line) := by
  have hpublish {m₀ : Machine} (before : List Effect) (hbefore : publishedIn before = [])
      (h : m.toStorage.Begins m₀.toStorage) :
      m.Published (m₀.e11Publish.1, before ++ m₀.e11Publish.2) := by
    intro reply hreply
    rw [publishedIn_append, hbefore, List.nil_append] at hreply
    rw [List.mem_singleton.mp hreply]
    exact ⟨m₀, m₀.menuReply_reports, ⟨rfl, rfl, rfl⟩, h.catalog⟩
  by_cases hlooked : (∃ fd, m.route fd = true) ∧ (line 0 = 0x4531324d ∧ line 4 = 0x534b595a) ∧
      (m.menuAlive (line 5)).isSome = true
  · obtain ⟨hroute, hmagic, hsome⟩ := hlooked
    obtain ⟨m', halive⟩ := Option.isSome_iff_exists.mp hsome
    rw [m.e11Mailbox_alive line hroute hmagic halive]
    split_ifs
    · refine hpublish [.executed (line 2) (line 3)] rfl ?_
      rw [← menuAlive_toStorage halive]
      exact m'.menuExecute_begins _ _ _
    · refine hpublish [] rfl ?_
      rw [← menuAlive_toStorage halive]
      exact .keep
  · rw [m.e11Mailbox_idle line hlooked]
    exact fun reply hreply => absurd hreply List.not_mem_nil

end Mailbox

/-! ### Events -/

/-- The machine as its tick begins. -/
def ticked (m : Machine) : Machine := { m with ticks := m.ticks + 1 }

/-- A tick looks at the line and executes its request. -/
def ServesTick (m : Machine) (line : RequestLine) : Prop :=
  (m.ticks + 1) &&& 7 = 0 ∧ m.ticked.Serves line

section Steps

variable {m : Machine} {line : RequestLine} {s₁ s₂ : Machine × List Effect}

/-- A line is served when the rest of the step leaves the mailbox alone. -/
theorem Served.append (h : m.Served line s₁) (h' : s₁.1.Unmailed s₂) :
    m.Served line (s₂.1, s₁.2 ++ s₂.2) := by
  refine ⟨h'.same.seq.trans h.seq, h'.same.page.trans h.page, ?_, ?_⟩
  · rw [executedIn_append, h.executed, executedIn_eq_nil h'.effects, List.append_nil]
  · rw [publishedIn_append, publishedIn_eq_nil h'.effects, List.append_nil]
    exact h.published

/-- A line is not served when the rest of the step leaves the mailbox alone. -/
theorem Unserved.append (h : m.Unserved s₁) (h' : s₁.1.Unmailed s₂) :
    m.Unserved (s₂.1, s₁.2 ++ s₂.2) := by
  refine ⟨h'.same.seq.trans h.seq, h'.same.page.trans h.page, ?_⟩
  rw [executedIn_append, h.executed, executedIn_eq_nil h'.effects, List.append_nil]

/-- What is published is kept by a rest that leaves the mailbox alone. -/
theorem Published.append (h : m.Published s₁) (h' : s₁.1.Unmailed s₂) :
    m.Published (s₂.1, s₁.2 ++ s₂.2) := by
  intro reply hreply
  rw [publishedIn_append, publishedIn_eq_nil h'.effects, List.append_nil] at hreply
  obtain ⟨m₀, hreports, hsame, hcatalog⟩ := h reply hreply
  exact ⟨m₀, hreports, ⟨hsame.seq.trans h'.same.seq.symm, hsame.page.trans h'.same.page.symm,
      hsame.route.trans h'.same.route.symm⟩,
    hcatalog⟩

/-- Two steps that leave the mailbox alone are one. -/
theorem Unmailed.append (h : m.Unmailed s₁) (h' : s₁.1.Unmailed s₂) :
    m.Unmailed (s₂.1, s₁.2 ++ s₂.2) :=
  ⟨⟨h'.same.seq.trans h.same.seq, h'.same.page.trans h.same.page,
      h'.same.route.trans h.same.route⟩,
    List.forall_mem_append.mpr ⟨h.effects, h'.effects⟩⟩

end Steps

section Tick

variable (m : Machine) (line : RequestLine) (send : Int)

/-- A tick that looks at the line: the mailbox, then steps that are none of it. -/
theorem v4Tick_mail (hturn : (m.ticks + 1) &&& 7 = 0) :
    ∃ rest, (m.ticked.e11Mailbox line).1.Unmailed rest ∧
      m.v4Tick line send = (rest.1, (m.ticked.e11Mailbox line).2 ++ rest.2) := by
  have hpoll : m.ticked.e09Poll line send =
      (((m.ticked.e11Mailbox line).1.pollDisk send).1, (m.ticked.e11Mailbox line).2 ++
        ((m.ticked.e11Mailbox line).1.pollDisk send).2) := by
    unfold e09Poll
    rw [if_pos (show m.ticked.ticks &&& 7 = 0 from hturn)]
  refine ⟨_, ((m.ticked.e11Mailbox line).1.pollDisk_unmailed send).append
    (deliverReads_unmailed _), ?_⟩
  rw [← List.append_assoc]
  show ((m.ticked.e09Poll line send).1.deliverReads.1,
    (m.ticked.e09Poll line send).2 ++ (m.ticked.e09Poll line send).1.deliverReads.2) = _
  rw [hpoll]

/-- Any other tick is none of the mailbox. -/
theorem v4Tick_unmailed (hturn : ¬ (m.ticks + 1) &&& 7 = 0) : m.Unmailed (m.v4Tick line send) := by
  have hpoll : m.ticked.e09Poll line send = m.ticked.pollDisk send := by
    unfold e09Poll
    rw [if_neg (show ¬ m.ticked.ticks &&& 7 = 0 from hturn)]
    rfl
  have hsame := m.ticked.pollDisk_unmailed send
  rw [← hpoll] at hsame
  exact (⟨⟨hsame.same.seq, hsame.same.page, hsame.same.route⟩, hsame.effects⟩ :
    m.Unmailed (m.ticked.e09Poll line send)).append (deliverReads_unmailed _)

end Tick

variable {m : Machine}

/-- A tick that finds a new request executes it. -/
theorem hidStep_served {line : RequestLine} {send : Int} (h : m.ServesTick line) :
    m.Served line (m.hidStep (.tick line send)) := by
  obtain ⟨rest, hrest, htick⟩ := m.v4Tick_mail line send h.1
  have hserved := (m.ticked.e11Mailbox_served line h.2).append hrest
  show m.Served line (m.v4Tick line send)
  rw [htick]
  exact ⟨hserved.seq, hserved.page, hserved.executed, hserved.published⟩

/-- Every other event leaves the request number and the page. -/
theorem hidStep_unserved {e : HidEvent}
    (h : ∀ line send, e = .tick line send → ¬ m.ServesTick line) : m.Unserved (m.hidStep e) := by
  cases e with
  | process mem msg =>
      obtain ⟨hseq, hpage, heffects⟩ := m.v4Process_mail mem msg
      exact ⟨hseq, hpage, executedIn_eq_nil heffects⟩
  | complete => exact m.e09Complete_unmailed.unserved
  | outside st route => exact ⟨rfl, rfl, rfl⟩
  | tick line send =>
      show m.Unserved (m.v4Tick line send)
      by_cases hturn : (m.ticks + 1) &&& 7 = 0
      · obtain ⟨rest, hrest, htick⟩ := m.v4Tick_mail line send hturn
        have hunserved := (m.ticked.e11Mailbox_unserved line fun hserves =>
          h line send rfl ⟨hturn, hserves⟩).append hrest
        rw [htick]
        exact ⟨hunserved.seq, hunserved.page, hunserved.executed⟩
      · exact (m.v4Tick_unmailed line send hturn).unserved

/-- Whatever an event publishes reports the machine it leaves. -/
theorem hidStep_published (m : Machine) (e : HidEvent) : m.Published (m.hidStep e) := by
  cases e with
  | process mem msg =>
      intro reply hreply
      rw [show publishedIn (m.hidStep (.process mem msg)).2 = [] from
        publishedIn_eq_nil (m.v4Process_mail mem msg).2.2] at hreply
      exact absurd hreply List.not_mem_nil
  | complete => exact m.e09Complete_unmailed.published
  | outside st route => exact fun reply hreply => absurd hreply List.not_mem_nil
  | tick line send =>
      show m.Published (m.v4Tick line send)
      by_cases hturn : (m.ticks + 1) &&& 7 = 0
      · obtain ⟨rest, hrest, htick⟩ := m.v4Tick_mail line send hturn
        rw [htick]
        exact (m.ticked.e11Mailbox_published line).append hrest
      · exact (m.v4Tick_unmailed line send hturn).published

end Machine
end VirtualPortal
