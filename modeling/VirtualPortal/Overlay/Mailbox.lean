/-
# The overlay and the mailbox

`overlay/menu.c` (`request` and `update_menu`) next to the HID worker of IOS
(`plugin/source/e12_storage.h`).  The two processors share the mailbox: eight
words that the overlay writes and IOS reads, and the reply that IOS publishes.

A step is the next store or load of `update_menu`, or one event of the HID
worker; a tick of the worker reads the request line as it stands at that moment.
`update_menu` counts a heartbeat up, copies the reply (if the revision around it
is even and has not changed), looks at the controllers and calls `request`,
which stores five words in this order:

| word | value |
| --- | --- |
| 2 | operation |
| 3 | argument |
| 4 | `SKYZ` |
| 1 | sequence number |
| 0 | `E12M` |

and sets `pending` afterwards.  The drawing of the menu is a matter of
`Overlay.Draw`; the names it copies with the reply and the reads of the controllers
are not part of the model.
-/

import VirtualPortal.Overlay.Menu
import VirtualPortal.Hid.Deliveries
import VirtualPortal.Hid.MenuRequests

namespace VirtualPortal

/-- The sequence number after `seq`: `0` is skipped. -/
def nextSeq (seq : U32) : U32 := if seq + 1 = 0 then 1 else seq + 1

/-- Where `update_menu` is: before the heartbeat, before the reply is copied,
before the keys are looked at, or in `request` with some words to store. -/
inductive UpdatePoint where
  | heartbeat
  | reply
  | input
  | stores (words : List (Fin 8 × U32))
deriving DecidableEq

/-- The variables of the overlay. -/
structure Overlay where
  state : MenuState
  players : MenuPlayers
  reply : Bytes 416
  point : UpdatePoint

/-- The overlay, the mailbox and the HID worker. -/
structure Mailbox where
  overlay : Overlay
  line : RequestLine
  published : Bytes 416
  ios : Machine

/-- A step: the overlay does the next thing in `update_menu`, or the HID worker
handles an event.  `fresh` says that a copy of the reply is accepted. -/
inductive MailboxStep where
  | overlay (fresh : Bool) (keys : Fin 2 → U32)
  | ios (e : HidEvent)

/-- What is counted over a run: a call of `request`, the execution of a request
by IOS, and the end of `pending`. -/
inductive MailboxEvent where
  | issued (op arg : U32)
  | executed (op arg : U32)
  | cleared
deriving DecidableEq

namespace MenuState

variable (s : MenuState)

/-- The first line of `request`. -/
def requested : MenuState := { s with page := pageOf s.selected, seq := nextSeq s.seq }

/-- The argument of a request. -/
def requestArg (op : U32) : U32 :=
  if op = 2 ∨ op = 3 then s.slot <<< 16 ||| s.selected else if op = 4 then s.slot else s.page

/-- The words `request` stores, in order. -/
def requestStores (op : U32) : List (Fin 8 × U32) :=
  [(2, op), (3, s.requestArg op), (4, 0x534b595a), (1, s.seq), (0, 0x4531324d)]

/-- The check of the reply in `update_menu`. -/
def checkReply (answered : U32) : MenuState :=
  if s.pending then
    { s with frames := s.frames + 1, pending := if answered = s.seq then false else s.pending }
  else s

/-- The end of `request`. -/
def sent : MenuState := { s with pending := true, frames := 0 }

end MenuState

namespace Overlay

variable (o : Overlay)

/-- `reply[0]` -/
def answered : U32 := be32 o.reply.byte 0

/-- `n` in `update_menu`. -/
def menuCount : U32 := if 640 < be32 o.reply.byte 8 then 0 else be32 o.reply.byte 8

/-- The menu when `menu_input_players` is called. -/
def checked : MenuState := o.state.checkReply o.answered

/-- The pending request has been answered. -/
def Clears : Prop := o.state.pending = true ∧ o.answered = o.state.seq

instance : Decidable o.Clears := inferInstanceAs (Decidable (_ ∧ _))

/-- `menu_input_players` in a frame. -/
def input (keys : Fin 2 → U32) : U32 × MenuState × MenuPlayers :=
  menuInputPlayers o.checked o.players keys o.menuCount

/-- The end of `update_menu`. -/
def updateInput (keys : Fin 2 → U32) : Overlay × List MailboxEvent :=
  let (action, s, p) := o.input keys
  let cleared := if o.Clears then [.cleared] else []
  if action ≠ 0 then
    ({ o with
      state := s.requested
      players := p
      point := .stores (s.requested.requestStores action) },
      cleared ++ [.issued action (s.requested.requestArg action)])
  else ({ o with state := s, players := p, point := .heartbeat }, cleared)

end Overlay

namespace Mailbox

/-- The next thing in `update_menu`. -/
def updateMenu (c : Mailbox) (fresh : Bool) (keys : Fin 2 → U32) : Mailbox × List MailboxEvent :=
  match c.overlay.point with
  | .heartbeat =>
      ({ c with
        overlay := { c.overlay with point := .reply }
        line := Function.update c.line 5 (c.line 5 + 1) }, [])
  | .reply =>
      ({ c with
        overlay := { c.overlay with
          reply := if fresh then c.published else c.overlay.reply
          point := .input } }, [])
  | .input =>
      let (o, events) := c.overlay.updateInput keys
      ({ c with overlay := o }, events)
  | .stores ((word, value) :: words) =>
      ({ c with
        overlay := { c.overlay with point := .stores words }
        line := Function.update c.line word value }, [])
  | .stores [] =>
      ({ c with overlay := { c.overlay with state := c.overlay.state.sent, point := .heartbeat } },
        [])

/-- A tick of the worker reads the request line. -/
def reading (line : RequestLine) : HidEvent → HidEvent
  | .tick _ send => .tick line send
  | e => e

/-- An event of the HID worker. -/
def hidEvent (c : Mailbox) (e : HidEvent) : Mailbox × List MailboxEvent :=
  let (m, out) := c.ios.hidStep (reading c.line e)
  ({ c with ios := m, published := (publishedIn out).getLastD c.published },
    (executedIn out).map fun request => .executed request.1 request.2)

/-- One step. -/
def step (c : Mailbox) : MailboxStep → Mailbox × List MailboxEvent
  | .overlay fresh keys => c.updateMenu fresh keys
  | .ios e => c.hidEvent e

/-- The overlay and the mailbox are zero when the game is loaded. -/
def start (io : StartIo) : Mailbox where
  overlay := ⟨.zero, .zero, Bytes.zero 416, .heartbeat⟩
  line := fun _ => 0
  published := Bytes.zero 416
  ios := Machine.start io

end Mailbox

/-! ### Parts of runs -/

/-- A frame with the keys of the two controllers, up to the call of `request`. -/
def frame (a b : U32) : List MailboxStep :=
  List.replicate 3 (.overlay true fun i => if i = 0 then a else b)

/-- The six steps of `request`. -/
def requestSteps : List MailboxStep := List.replicate 6 (.overlay true fun _ => 0)

/-- Ticks of the HID worker; one in eight looks at the line. -/
def ticksOf (n : ℕ) : List MailboxStep := List.replicate n (.ios (.tick (fun _ => 0) 0))

end VirtualPortal
