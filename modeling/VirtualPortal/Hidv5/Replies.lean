/-
# The replies of the HIDv5 portal

`plugin/source/main.c`: `control_transfer_handler` accepts the commands `R`, `A` and
`C`, and `interrupt_transfer_handler` answers a read.  A reply that is due is a flag,
and the argument of `A` is not kept with it: the reply echoes `portal_activated` as it
is when the read comes.

| accepted | `portal_activated` | reply due |
| --- | --- | --- |
| `R` | 0 | `reset_response_pending = 1` |
| `A x` | `x` | `activation_response_pending = 1` |
| `C` | kept | none |

A read gives the reply to `R` before the reply to `A`, and a status packet when none
is due.  So one reply of each kind can wait: a second `A`, or a second `R`, before the
read is answered with the first one, and an `R` after an `A 1` makes its reply echo 0.
`portal_replies_iff` says that nothing else goes wrong.
-/

import VirtualPortal.Hidv5.Portal
import VirtualPortal.Lib.Conservation

namespace VirtualPortal

/-- A request to one of the handlers. -/
inductive PortalRequest where
  | ioctl (h : Hidv5Handler) (mem : Mem) (m : IpcMessage)
  | control (mem : Mem) (m : IoctlvMessage)
  | interrupt (mem : Mem) (m : IoctlvMessage)

/-- What the host sees: a command of its own is accepted, or a read gives it a
packet. -/
inductive PortalEvent where
  | accepted (command arg : U8)
  | received (packet : List U8)
deriving DecidableEq

/-- The first two bytes of the payload of a transfer. -/
def IoctlvMessage.command? (mem : Mem) (m : IoctlvMessage) : Option (U8 × U8) :=
  m.vector.map fun (_, out) => (mem.bytesAt out.data 0, mem.bytesAt out.data 1)

/-- What a handler writes to the buffer of its request. -/
def HandlerEffect.packet : HandlerEffect → Option (List U8)
  | .write _ bytes => some bytes
  | .ack _ => none

namespace Hidv5

variable (σ : Hidv5)

/-- A handler is called. -/
def step : PortalRequest → Hidv5 × List PortalEvent
  | .ioctl h mem m => ((σ.handle mem m h).1, [])
  | .control mem m =>
      let (σ', out) := σ.controlTransferHandler mem m
      (σ', if .ack (-4) ∈ out then [] else
        (m.command? mem).toList.map fun (command, arg) => .accepted command arg)
  | .interrupt mem m =>
      let (σ', out) := σ.interruptTransferHandler mem m
      (σ', (out.filterMap HandlerEffect.packet).map .received)

/-- The command a control transfer carries, if it is accepted: the checks of
`control_transfer_handler`. -/
def acceptedCommand (mem : Mem) (m : IoctlvMessage) : Option (U8 × U8) :=
  m.vector.bind fun (header, out) =>
    let h := mem.bytesAt header.data
    let data := mem.bytesAt out.data
    if (m.command = iosIoctlv ∧ m.ioctlv = 18 ∧ m.numIn = 2 ∧ m.numIo = 0) ∧
        (header.data ≠ 0 ∧ header.len = 0x40 ∧ out.data ≠ 0 ∧ 2 ≤ out.len ∧ out.len ≤ 0x20) ∧
        be32 h 0 = portalDeviceId ∧ σ.portalResumed ≠ 0 ∧ h 8 = 0x21 ∧ h 9 = 9 ∧
        h 10 = 2 ∧ h 11 = data 0 ∧ h 12 = 0 ∧ h 13 = 0 ∧
        (((data 0 = letter 'A' ∧ data 1 ≤ 1) ∨ data 0 = letter 'R') ∧
            (out.len = 2 ∨ out.len = 0x20) ∨
          data 0 = letter 'C' ∧ (out.len = 4 ∨ out.len = 0x20)) then
      some (data 0, data 1)
    else none

/-- What an accepted command does. -/
def obey (command arg : U8) : Hidv5 :=
  if command = letter 'R' then { σ with portalActivated := 0, resetResponsePending := true }
  else if command = letter 'A' then
    { σ with portalActivated := arg, activationResponsePending := true }
  else σ

/-- A transfer is a valid interrupt-IN read. -/
def ValidRead (mem : Mem) (m : IoctlvMessage) : Prop :=
  match m.vector with
  | none => False
  | some (header, out) =>
      let h := mem.bytesAt header.data
      m.command = iosIoctlv ∧ m.ioctlv = 19 ∧ m.numIn = 1 ∧ m.numIo = 1 ∧
        header.data ≠ 0 ∧ header.len = 0x40 ∧ out.data ≠ 0 ∧ out.len = 0x20 ∧
        be32 h 0 = portalDeviceId ∧ σ.portalResumed ≠ 0 ∧ be32 h 8 = 0

instance (mem : Mem) (m : IoctlvMessage) : Decidable (σ.ValidRead mem m) := by
  unfold ValidRead
  split <;> infer_instance

/-- The packet of a read. -/
def answer : Hidv5 × List U8 :=
  if σ.resetResponsePending then
    ({ σ with resetResponsePending := false }, beWords [0x52013d00, 0, 0, 0, 0, 0, 0, 0])
  else if σ.activationResponsePending then
    ({ σ with activationResponsePending := false },
      [letter 'A', σ.portalActivated, 0xff, 0x77] ++ List.replicate 28 0)
  else
    ({ σ with statusCounter := σ.statusCounter + 1 },
      beWords [0x53000000,
        σ.statusCounter.setWidth 32 <<< 16 ||| σ.portalActivated.setWidth 32 <<< 8,
        0, 0, 0, 0, 0, 0])

variable {σ} {mem : Mem} {m : IoctlvMessage}

/-- An accepted command is obeyed and acknowledged. -/
theorem controlTransferHandler_accepted {command arg : U8}
    (h : σ.acceptedCommand mem m = some (command, arg)) :
    m.command? mem = some (command, arg) ∧
      ∃ n : ℕ, σ.controlTransferHandler mem m = (σ.obey command arg, [.ack (n + 8)]) := by
  obtain ⟨ipc, ioctlv, numIn, numIo, vector⟩ := m
  cases vector with
  | none => cases h
  | some vector =>
      obtain ⟨header, out⟩ := vector
      unfold acceptedCommand at h
      dsimp only [Option.bind_some] at h
      split_ifs at h with haccepted
      obtain ⟨rfl, rfl⟩ := Prod.mk.inj (Option.some.inj h)
      obtain ⟨⟨h₁, h₂, h₃, h₄⟩, ⟨h₅, h₆, h₇, h₈, h₉⟩, hcommand⟩ := haccepted
      refine ⟨rfl, out.len.toNat, ?_⟩
      unfold controlTransferHandler
      dsimp only
      rw [if_neg (by simp [h₁, h₂, h₃, h₄]),
        if_neg (by simp only [ne_eq, not_or, not_not, BitVec.not_lt]; exact ⟨h₅, h₆, h₇, h₈, h₉⟩),
        if_pos hcommand]
      rfl

/-- Any other transfer is refused and changes nothing. -/
theorem controlTransferHandler_refused (h : σ.acceptedCommand mem m = none) :
    σ.controlTransferHandler mem m = (σ, [.ack (-4)]) := by
  obtain ⟨ipc, ioctlv, numIn, numIo, vector⟩ := m
  cases vector with
  | none => rfl
  | some vector =>
      obtain ⟨header, out⟩ := vector
      unfold acceptedCommand at h
      dsimp only [Option.bind_some] at h
      split_ifs at h with haccepted
      unfold controlTransferHandler
      dsimp only
      split
      · rfl
      split
      · rfl
      next hmessage hvectors =>
      simp only [not_or, not_not, BitVec.not_lt] at hmessage hvectors
      exact if_neg fun hcommand => haccepted ⟨hmessage, hvectors, hcommand⟩

variable (σ mem m)

/-- A control transfer is obeyed if it is accepted, and otherwise changes nothing. -/
theorem step_control :
    σ.step (.control mem m) =
      match σ.acceptedCommand mem m with
      | some (command, arg) => (σ.obey command arg, [.accepted command arg])
      | none => (σ, []) := by
  unfold step
  dsimp only
  cases h : σ.acceptedCommand mem m with
  | none => rw [controlTransferHandler_refused h]; rfl
  | some command =>
      obtain ⟨hcommand, n, hhandler⟩ := controlTransferHandler_accepted h
      rw [hhandler, hcommand]
      dsimp only
      rw [if_neg (by simp; omega)]
      rfl

/-- A valid read gets the next answer. -/
theorem interruptTransferHandler_read (h : σ.ValidRead mem m) :
    ∃ addr n, σ.interruptTransferHandler mem m =
      (σ.answer.1, [.write addr σ.answer.2, .ack n]) := by
  obtain ⟨ipc, ioctlv, numIn, numIo, vector⟩ := m
  cases vector with
  | none => exact h.elim
  | some vector =>
      obtain ⟨header, out⟩ := vector
      dsimp only [ValidRead] at h
      obtain ⟨rfl, rfl, rfl, rfl, h₅, h₆, h₇, h₈, hdevice, hresumed, hinput⟩ := h
      refine ⟨out.data, out.len.toNat, ?_⟩
      unfold interruptTransferHandler
      dsimp only
      rw [if_neg (by decide),
        if_neg (by simp only [ne_eq, not_or, not_not]; exact ⟨h₅, h₆, h₇, h₈⟩)]
      obtain ⟨resumed, activated, activation, reset, counter, delivered⟩ := σ
      cases reset with
      | true =>
          rw [if_pos ⟨rfl, ⟨hdevice, hresumed⟩, hinput, rfl⟩]
          rfl
      | false =>
          rw [if_neg (by simp)]
          cases activation with
          | true =>
              rw [if_pos ⟨rfl, ⟨hdevice, hresumed⟩, hinput, rfl⟩, writeActivationResponse, h₈]
              rfl
          | false =>
              rw [if_neg (by simp), if_pos ⟨rfl, ⟨hdevice, hresumed⟩, hinput⟩]
              rfl

/-- Any other transfer changes nothing. -/
theorem interruptTransferHandler_other (h : ¬ σ.ValidRead mem m) :
    ∃ n, σ.interruptTransferHandler mem m = (σ, [.ack n]) := by
  obtain ⟨ipc, ioctlv, numIn, numIo, vector⟩ := m
  cases vector with
  | none => exact ⟨-4, rfl⟩
  | some vector =>
      obtain ⟨header, out⟩ := vector
      unfold interruptTransferHandler
      dsimp only
      split
      · exact ⟨-4, rfl⟩
      split
      · exact ⟨-4, rfl⟩
      next hmessage hvectors =>
      simp only [ne_eq, not_or, not_not] at hmessage hvectors
      have hread : ¬ (numIn = 1 ∧ (be32 (mem.bytesAt header.data) 0 = portalDeviceId ∧
          σ.portalResumed ≠ 0) ∧ be32 (mem.bytesAt header.data) 8 = 0) := by
        rintro ⟨hnumIn, ⟨hdevice, hresumed⟩, hinput⟩
        have hnumIo : numIo = 1 := by
          by_contra hne
          refine hmessage.2.2 ⟨fun hin => hne hin.2, fun hwrite => ?_⟩
          rw [hwrite.1] at hnumIn
          cases hnumIn
        exact h ⟨hmessage.1, hmessage.2.1, hnumIn, hnumIo, hvectors.1, hvectors.2.1,
          hvectors.2.2.1, hvectors.2.2.2, hdevice, hresumed, hinput⟩
      rw [if_neg fun hr => hread ⟨hr.1, hr.2.1, hr.2.2.1⟩,
        if_neg fun hr => hread ⟨hr.1, hr.2.1, hr.2.2.1⟩, if_neg hread]
      split_ifs
      · exact ⟨out.len.toNat, rfl⟩
      · exact ⟨-4, rfl⟩

/-- A valid read is answered, and no other transfer does anything. -/
theorem step_interrupt :
    σ.step (.interrupt mem m) =
      if σ.ValidRead mem m then (σ.answer.1, [.received σ.answer.2]) else (σ, []) := by
  unfold step
  dsimp only
  split_ifs with h
  · obtain ⟨addr, n, hhandler⟩ := σ.interruptTransferHandler_read mem m h
    rw [hhandler]
    rfl
  · obtain ⟨n, hhandler⟩ := σ.interruptTransferHandler_other mem m h
    rw [hhandler]
    rfl

/-! ### What the host is owed -/

/-- The argument of the `A` reply that is due. -/
def activationsDue : List U8 := if σ.activationResponsePending then [σ.portalActivated] else []

/-- The `R` reply that is due. -/
def resetsDue : List Unit := if σ.resetResponsePending then [()] else []

end Hidv5

namespace PortalEvent

/-- The argument of an accepted `A`. -/
def activation : PortalEvent → Option U8
  | accepted command arg => if command = letter 'A' then some arg else none
  | received _ => none

/-- An accepted `R`. -/
def reset : PortalEvent → Option Unit
  | accepted command _ => if command = letter 'R' then some () else none
  | received _ => none

/-- The argument an `A` reply echoes. -/
def activationReply : PortalEvent → Option U8
  | accepted _ _ => none
  | received packet => if packet[0]? = some (letter 'A') then packet[1]? else none

/-- An `R` reply. -/
def resetReply : PortalEvent → Option Unit
  | accepted _ _ => none
  | received packet => if packet[0]? = some (letter 'R') then some () else none

end PortalEvent

open PortalEvent

/-- The host has been given one `A` reply for each `A`, with its argument, and one `R`
reply for each `R`. -/
structure Answered (out : List PortalEvent) : Prop where
  activations : out.filterMap activation = out.filterMap activationReply
  resets : out.filterMap reset = out.filterMap resetReply

namespace Hidv5

/-- The reply to a command can be noted: the flag for it is clear, and an `R` does not
come between an `A` with another argument than 0 and its reply. -/
def Ready (σ : Hidv5) (command : U8) : Prop :=
  (command = letter 'A' → σ.activationResponsePending = false) ∧
    (command = letter 'R' → σ.resetResponsePending = false ∧
      (σ.activationResponsePending = true → σ.portalActivated = 0))

instance (σ : Hidv5) (command : U8) : Decidable (σ.Ready command) :=
  inferInstanceAs (Decidable (_ ∧ _))

/-- The condition: a command that is accepted can be noted. -/
def AnswersFirst (σ : Hidv5) : PortalRequest → Prop
  | .control mem m => ∀ c ∈ σ.acceptedCommand mem m, σ.Ready c.1
  | _ => True

instance (σ : Hidv5) : (r : PortalRequest) → Decidable (σ.AnswersFirst r)
  | .control mem m => inferInstanceAs (Decidable (∀ c ∈ σ.acceptedCommand mem m, σ.Ready c.1))
  | .ioctl .. => inferInstanceAs (Decidable True)
  | .interrupt .. => inferInstanceAs (Decidable True)

/-- A call of an ioctl handler leaves the replies alone. -/
theorem handle_due (σ : Hidv5) (h : Hidv5Handler) (mem : Mem) (m : IpcMessage) :
    (σ.handle mem m h).1.activationsDue = σ.activationsDue ∧
      (σ.handle mem m h).1.resetsDue = σ.resetsDue := by
  cases h with
  | getdevicechange =>
      unfold handle getdevicechangeHandler
      dsimp only
      split_ifs <;> exact ⟨rfl, rfl⟩
  | suspendResume =>
      unfold handle suspendResumeHandler
      dsimp only
      split_ifs <;> exact ⟨rfl, rfl⟩
  | _ => exact ⟨rfl, rfl⟩

/-- A command that can be noted adds its reply to those due. -/
theorem due_obey {σ : Hidv5} {command : U8} (arg : U8) (h : σ.Ready command) :
    (σ.obey command arg).activationsDue =
        σ.activationsDue ++ [PortalEvent.accepted command arg].filterMap activation ∧
      (σ.obey command arg).resetsDue =
        σ.resetsDue ++ [PortalEvent.accepted command arg].filterMap reset := by
  obtain ⟨resumed, activated, activations, resets, counter, delivered⟩ := σ
  obtain ⟨hactivate, hreset⟩ := h
  dsimp only at hactivate hreset
  unfold obey
  by_cases hR : command = letter 'R'
  · obtain ⟨rfl, hzero⟩ := hreset hR
    subst hR
    cases activations with
    | true => obtain rfl := hzero rfl; exact ⟨rfl, rfl⟩
    | false => exact ⟨rfl, rfl⟩
  · rw [if_neg hR]
    by_cases hA : command = letter 'A'
    · obtain rfl := hactivate hA
      subst hA
      exact ⟨rfl, by cases resets <;> rfl⟩
    · rw [if_neg hA]
      simp [activation, reset, hA, hR]

/-- A read gives the oldest reply that is due. -/
theorem due_answer (σ : Hidv5) :
    σ.activationsDue =
        [PortalEvent.received σ.answer.2].filterMap activationReply ++ σ.answer.1.activationsDue ∧
      σ.resetsDue =
        [PortalEvent.received σ.answer.2].filterMap resetReply ++ σ.answer.1.resetsDue := by
  obtain ⟨resumed, activated, activations, resets, counter, delivered⟩ := σ
  cases resets with
  | true => cases activations <;> exact ⟨rfl, rfl⟩
  | false => cases activations <;> exact ⟨rfl, rfl⟩

/-- A step that meets the condition conserves the replies. -/
theorem step_conserves {σ : Hidv5} {r : PortalRequest} (h : σ.AnswersFirst r) :
    Run.Conserves activationsDue activation activationReply σ (σ.step r).2 (σ.step r).1 ∧
      Run.Conserves resetsDue reset resetReply σ (σ.step r).2 (σ.step r).1 := by
  cases r with
  | ioctl handler mem m =>
      obtain ⟨hactivations, hresets⟩ := σ.handle_due handler mem m
      exact ⟨(List.append_nil _).trans hactivations.symm, (List.append_nil _).trans hresets.symm⟩
  | control mem m =>
      rw [step_control]
      cases hcommand : σ.acceptedCommand mem m with
      | none => exact ⟨List.append_nil _, List.append_nil _⟩
      | some c =>
          obtain ⟨hactivations, hresets⟩ := due_obey c.2 (h c hcommand)
          exact ⟨hactivations.symm, hresets.symm⟩
  | interrupt mem m =>
      rw [step_interrupt]
      split_ifs
      · obtain ⟨hactivations, hresets⟩ := σ.due_answer
        exact ⟨(List.append_nil _).trans hactivations, (List.append_nil _).trans hresets⟩
      · exact ⟨List.append_nil _, List.append_nil _⟩

/-- What replies weigh: an `A` with another argument than 0 weighs two. -/
def weight (activations : List U8) (resets : List Unit) : ℕ :=
  (activations.map fun arg => if arg = 0 then 1 else 2).sum + resets.length

/-- The weight of two pairs of queues. -/
theorem weight_append (as as' : List U8) (rs rs' : List Unit) :
    weight (as ++ as') (rs ++ rs') = weight as rs + weight as' rs' := by
  unfold weight
  rw [List.map_append, List.sum_append, List.length_append]
  omega

/-- A command that cannot be noted makes the replies due weigh less than they did with
its own. -/
theorem weight_obey {σ : Hidv5} {command : U8} (arg : U8) (h : ¬ σ.Ready command) :
    weight (σ.obey command arg).activationsDue (σ.obey command arg).resetsDue <
      weight σ.activationsDue σ.resetsDue +
        weight ([PortalEvent.accepted command arg].filterMap activation)
          ([PortalEvent.accepted command arg].filterMap reset) := by
  obtain ⟨resumed, activated, activations, resets, counter, delivered⟩ := σ
  unfold Ready at h
  by_cases hR : command = letter 'R'
  · subst hR
    have hRA : letter 'R' ≠ letter 'A' := by decide
    cases activations with
    | false =>
        obtain rfl : resets = true := by simpa [hRA] using h
        simp [obey, activationsDue, resetsDue, weight, activation, reset, hRA]
    | true =>
        cases resets with
        | true =>
            simp [obey, activationsDue, resetsDue, weight, activation, reset, hRA]
            split_ifs <;> decide
        | false =>
            have hne : activated ≠ 0 := by simpa [hRA] using h
            simp [obey, activationsDue, resetsDue, weight, activation, reset, hRA]
            split_ifs with hzero
            · exact absurd hzero hne
            · decide
  · have hA : command = letter 'A' := by
      by_contra hA
      exact h ⟨fun hA' => absurd hA' hA, fun hR' => absurd hR' hR⟩
    subst hA
    obtain rfl : activations = true := by simpa [hR] using h
    cases resets <;> simp [obey, activationsDue, resetsDue, weight, activation, reset, hR] <;>
      split_ifs <;> decide

/-- What is due, accepted and given, weighed. -/
def heldWeight (σ : Hidv5) : ℕ := weight σ.activationsDue σ.resetsDue

def takenWeight (out : List PortalEvent) : ℕ :=
  weight (out.filterMap activation) (out.filterMap reset)

def givenWeight (out : List PortalEvent) : ℕ :=
  weight (out.filterMap activationReply) (out.filterMap resetReply)

/-- The weight taken in two lists of events. -/
theorem takenWeight_append (out out' : List PortalEvent) :
    takenWeight (out ++ out') = takenWeight out + takenWeight out' := by
  unfold takenWeight
  rw [List.filterMap_append, List.filterMap_append, weight_append]

/-- The weight given in two lists of events. -/
theorem givenWeight_append (out out' : List PortalEvent) :
    givenWeight (out ++ out') = givenWeight out + givenWeight out' := by
  unfold givenWeight
  rw [List.filterMap_append, List.filterMap_append, weight_append]

/-- Conserved replies balance. -/
theorem balance_of_conserves {σ σ' : Hidv5} {out : List PortalEvent}
    (hactivations : Run.Conserves activationsDue activation activationReply σ out σ')
    (hresets : Run.Conserves resetsDue reset resetReply σ out σ') :
    σ.heldWeight + takenWeight out = givenWeight out + σ'.heldWeight := by
  unfold heldWeight takenWeight givenWeight
  rw [← weight_append, ← weight_append, hactivations, hresets]

/-- A step that does not meet the condition loses weight. -/
theorem step_loses {σ : Hidv5} {r : PortalRequest} (h : ¬ σ.AnswersFirst r) :
    givenWeight (σ.step r).2 + (σ.step r).1.heldWeight <
      σ.heldWeight + takenWeight (σ.step r).2 := by
  cases r with
  | ioctl => exact absurd trivial h
  | interrupt => exact absurd trivial h
  | control mem m =>
      rw [step_control]
      cases hcommand : σ.acceptedCommand mem m with
      | none => exact absurd (fun c hc => by rw [hcommand] at hc; cases hc) h
      | some c =>
          have hready : ¬ σ.Ready c.1 := fun hready => h fun c' hc' => by
            rw [hcommand] at hc'
            rw [← Option.some.inj hc']
            exact hready
          rw [show givenWeight [PortalEvent.accepted c.1 c.2] = 0 from rfl, Nat.zero_add]
          exact weight_obey c.2 hready

/-! ### Runs -/

/-- A message for each of the reads below: the header is at `0x2000`, the buffer at
`0x3000`. -/
def readIn : IoctlvMessage := ⟨iosIoctlv, 19, 1, 1, some (⟨0x2000, 0x40⟩, ⟨0x3000, 0x20⟩)⟩

/-- The portal is resumed with the buffer at `0x1000`. -/
def resumeIn : IpcMessage := ⟨0x100, iosIoctl, 0, ⟨16, 0x1000, 0x20, 0, 0⟩⟩

/-- The buffers of these requests. -/
def readMem : Mem := fun a =>
  if a = 0x1000 + 1 ∨ a = 0x2000 + 1 then 0x1f
  else if a = 0x1000 + 3 ∨ a = 0x2000 + 3 then 0x21
  else if a = 0x1000 + 11 then 1
  else 0

/-- The host goes on reading: the portal is resumed, in case it is not, and read
twice. -/
def drain : List PortalRequest :=
  [.ioctl .suspendResume readMem resumeIn, .interrupt readMem readIn, .interrupt readMem readIn]

/-- Two reads give all that is due. -/
theorem drain_run (σ : Hidv5) :
    (Run.outputs step σ drain).filterMap activationReply = σ.activationsDue ∧
      (Run.outputs step σ drain).filterMap resetReply = σ.resetsDue ∧
      (Run.outputs step σ drain).filterMap activation = [] ∧
      (Run.outputs step σ drain).filterMap reset = [] := by
  have hread (σ : Hidv5) (hσ : σ.portalResumed = 1) : σ.step (.interrupt readMem readIn) =
      (σ.answer.1, [.received σ.answer.2]) := by
    rw [step_interrupt]
    refine if_pos ⟨rfl, rfl, rfl, rfl, by decide, rfl, by decide, rfl, by decide, ?_, by decide⟩
    rw [hσ]
    decide
  have hresume : σ.step (.ioctl .suspendResume readMem resumeIn) =
      ({ σ with portalResumed := 1 }, []) := rfl
  unfold drain
  rw [Run.outputs_cons, hresume, Run.outputs_cons, hread _ rfl, Run.outputs_cons, hread _ ?_]
  · obtain ⟨resumed, activated, activations, resets, counter, delivered⟩ := σ
    cases activations <;> cases resets <;> exact ⟨rfl, rfl, rfl, rfl⟩
  · unfold answer
    dsimp only
    split_ifs <;> rfl

/-- The host that goes on reading is given a reply for each `A`, with its argument, and
for each `R`, exactly if every accepted command can be noted. -/
theorem portal_replies_iff (rs : List PortalRequest) :
    Answered (Run.outputs step zero (rs ++ drain)) ↔ Run.Every step AnswersFirst zero rs := by
  obtain ⟨hactivations, hresets, haccepted, haccepted'⟩ := drain_run (Run.final step zero rs)
  have hiff : Answered (Run.outputs step zero (rs ++ drain)) ↔
      Run.Conserves activationsDue activation activationReply zero (Run.outputs step zero rs)
          (Run.final step zero rs) ∧
        Run.Conserves resetsDue reset resetReply zero (Run.outputs step zero rs)
          (Run.final step zero rs) := by
    rw [Run.outputs_append]
    constructor
    · rintro ⟨ha, hr⟩
      rw [List.filterMap_append, List.filterMap_append, haccepted, hactivations,
        List.append_nil] at ha
      rw [List.filterMap_append, List.filterMap_append, haccepted', hresets, List.append_nil] at hr
      exact ⟨ha, hr⟩
    · rintro ⟨ha, hr⟩
      constructor
      · rw [List.filterMap_append, List.filterMap_append, haccepted, hactivations, List.append_nil]
        exact ha
      · rw [List.filterMap_append, List.filterMap_append, haccepted', hresets, List.append_nil]
        exact hr
  rw [hiff]
  constructor
  · rintro ⟨ha, hr⟩
    have hle (σ : Hidv5) (r : PortalRequest) : givenWeight (σ.step r).2 + (σ.step r).1.heldWeight ≤
        σ.heldWeight + takenWeight (σ.step r).2 := by
      by_cases h : σ.AnswersFirst r
      · obtain ⟨ha, hr⟩ := step_conserves h
        exact (balance_of_conserves ha hr).ge
      · exact (step_loses h).le
    exact (Run.every_of_balance takenWeight_append givenWeight_append hle
      (fun σ r h => step_loses h) (balance_of_conserves ha hr)).mono fun σ r h => not_not.mp h
  · intro h
    exact ⟨Run.conserves_of_every (fun σ r hr => (step_conserves hr).1) h,
      Run.conserves_of_every (fun σ r hr => (step_conserves hr).2) h⟩

/-- A control transfer of two bytes: the header is at `0x2000`, the payload at `0x4000`. -/
def controlOut : IoctlvMessage := ⟨iosIoctlv, 18, 2, 0, some (⟨0x2000, 0x40⟩, ⟨0x4000, 2⟩)⟩

/-- Its buffers, for a command with an argument. -/
def controlMem (command arg : U8) : Mem := fun a =>
  if a = 0x2001 then 0x1f
  else if a = 0x2003 then 0x21
  else if a = 0x2008 then 0x21
  else if a = 0x2009 then 9
  else if a = 0x200a then 2
  else if a = 0x200b ∨ a = 0x4000 then command
  else if a = 0x4001 then arg
  else 0

/-- After `A 1` and `A 0` one `A` reply comes, and after `A 1` and `R` the `A` reply
echoes 0. -/
theorem commands_before_read :
    ¬ Answered (Run.outputs step zero
        ([.ioctl .suspendResume readMem resumeIn, .control (controlMem (letter 'A') 1) controlOut,
          .control (controlMem (letter 'A') 0) controlOut] ++ drain)) ∧
      ¬ Answered (Run.outputs step zero
        ([.ioctl .suspendResume readMem resumeIn, .control (controlMem (letter 'A') 1) controlOut,
          .control (controlMem (letter 'R') 0) controlOut] ++ drain)) := by
  constructor
  · rintro ⟨h, -⟩
    exact absurd h (by decide +kernel)
  · rintro ⟨h, -⟩
    exact absurd h (by decide +kernel)

end Hidv5
end VirtualPortal
