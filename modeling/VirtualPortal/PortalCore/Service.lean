/-
# The messages of the portal service

`portal-core/portal_core.c`: the queue of deferred replies (`queue_response`,
`next_response`), `handle_report`, `ioctl_request`, `ioctlv_request` and the loop of
`main`.

A control transfer carries a report of the host.  It is echoed at once; what the
portal answers to it waits in a queue of 24 rows for an interrupt transfer, which
takes the oldest row or, if there is none, the status of the slots:

| report | length | answer |
| --- | --- | --- |
| `A` activate | 2 | `A b ff 77` |
| `J` light | 7 | `J` |
| `M` music | 2 | `M b 00 19` |
| `Q` query a block | 3 | `Q 1s b` and the block, `Q 01 b` if the slot is not present |
| `R` ready | 2 | `R 02 1b` |
| `W` write a block | 19 | `W 1s b`, `W 01 b` if the slot is not there |
| `C`, `L`, `S`, `V` | 4, 5, 1, 4 | none |

An answer that finds the queue full is dropped; the report counts as handled all the
same.
-/

import VirtualPortal.PortalCore.Slots
import VirtualPortal.Hidv5.Portal

namespace VirtualPortal

/-- `IPC_EINVAL` -/
def ipcEinval : Int := -4

/-- `IPC_ENOENT` -/
def ipcEnoent : Int := -6

/-- `SKYLANDERS_RELOAD` -/
def skylandersReload : U32 := 0x53594C44

/-- What a message makes the service do, and the events inside it that the ledgers
over runs count. -/
inductive CoreEffect where
  /-- Bytes written to a buffer of the caller. -/
  | write (addr : U32) (bytes : List U8)
  /-- `os_message_queue_ack` -/
  | ack (result : Int)
  /-- `queue_response` stores an answer. -/
  | queued (r : DeferredReport)
  /-- `queue_response` finds the queue full. -/
  | dropped (r : DeferredReport)
  /-- `next_response` takes an answer. -/
  | answered (r : DeferredReport)
  /-- `build_status` reports the codes of the slots. -/
  | reported (codes : Fin 2 → U8)

/-- A message with vectors; `vector` holds the first two, `none` for a null pointer. -/
structure IoctlvRequest where
  command : U32
  numIn : U32
  numIo : U32
  vector : Option (Ioctlv × Ioctlv)
deriving DecidableEq

/-- A message of the queue. -/
inductive CoreMessage where
  | openDevice (device : List U8) (resultfd : Int)
  | close
  | ioctl (io : Ioctl)
  | ioctlv (v : IoctlvRequest)
  | other
deriving DecidableEq

/-- The reports of `handle_report`. -/
inductive CoreReport where
  | activate (b : U8)
  | light
  | music (b : U8)
  | query (slot block : U8)
  | ready
  | write (slot block : U8)
  | silent
deriving DecidableEq

/-- The checks of the `switch` of `handle_report`: `none` is the result 0. -/
def parseReport (report : ℕ → U8) (len : ℕ) : Option CoreReport :=
  if report 0 = letter 'A' then if len ≠ 2 then none else some (.activate (report 1))
  else if report 0 = letter 'C' then if len ≠ 4 then none else some .silent
  else if report 0 = letter 'J' then if len ≠ 7 then none else some .light
  else if report 0 = letter 'L' then if len ≠ 5 then none else some .silent
  else if report 0 = letter 'M' then if len ≠ 2 then none else some (.music (report 1))
  else if report 0 = letter 'Q' then
    if len ≠ 3 then none else some (.query (report 1 &&& 0x0f) (report 2))
  else if report 0 = letter 'R' then if len ≠ 2 then none else some .ready
  else if report 0 = letter 'S' then if len ≠ 1 then none else some .silent
  else if report 0 = letter 'V' then if len ≠ 4 then none else some .silent
  else if report 0 = letter 'W' then
    if len ≠ 19 then none else some (.write (report 1 &&& 0x0f) (report 2))
  else none

/-- The bytes of a report that the host gets back, `len` of them; only `R` does not
repeat what follows the letter. -/
def CoreReport.echo (r : CoreReport) (report : ℕ → U8) (len : ℕ) : List U8 :=
  (List.range len).map fun i => if r = .ready ∧ i ≠ 0 then 0 else report i

/-- An answer of a few bytes. -/
def shortReply (bytes : List U8) : DeferredReport :=
  ⟨(Bytes.zero 64).copy 0 (fun i => bytes.getD i 0) bytes.length, bytes.length⟩

/-- `valid_device`, on an id that is not null. -/
def validDevice (id : ℕ → U8) (len : U32) : Bool :=
  4 ≤ len && id 0 = 0 && id 1 = 0 && be16 id 2 = 1

/-- The queue has rows. -/
theorem queueSize_pos : 0 < 24 := by decide

namespace PortalCore

variable (c : PortalCore)

/-- `queue_response`, for an answer that fits a row. -/
def queueResponse (r : DeferredReport) : PortalCore × List CoreEffect :=
  if c.deferredCount = 24 then (c, [.dropped r])
  else
    ({ c with
      deferred := Function.update c.deferred (Ring.index queueSize_pos c.deferredTail 0) r
      deferredTail := (c.deferredTail + 1) % 24
      deferredCount := c.deferredCount + 1 }, [.queued r])

/-- `next_response` -/
def nextResponse : PortalCore × Option DeferredReport :=
  if c.deferredCount = 0 then (c, none)
  else
    ({ c with
      deferredHead := (c.deferredHead + 1) % 24
      deferredCount := c.deferredCount - 1 },
      some (c.deferred (Ring.index queueSize_pos c.deferredHead 0)))

/-- What an accepted report does. -/
def applyReport (data : ℕ → U8) : CoreReport → PortalCore × List CoreEffect
  | .activate b =>
      let (c, effects) := { c with activated := b ≠ 0 }.queueResponse
        (shortReply [letter 'A', b, 0xff, 0x77])
      ({ c with
        slots := fun slot => if c.activated then (c.slots slot).queuePresent else c.slots slot },
        effects)
  | .light => c.queueResponse (shortReply [letter 'J'])
  | .music b => c.queueResponse (shortReply [letter 'M', b, 0, 0x19])
  | .query slot block => c.queueResponse ⟨c.buildQuery slot block, 64⟩
  | .ready => c.queueResponse (shortReply [letter 'R', 2, 0x1b])
  | .write slot block =>
      let (c, reply) := c.buildWrite slot block fun i => data (3 + i)
      c.queueResponse ⟨reply, 64⟩
  | .silent => (c, [])

/-- `handle_report`: what the host gets back, the result of the transfer, and what the
report does; `none` is the result 0. -/
def handleReport (report : ℕ → U8) (len : ℕ) :
    Option (List U8 × Int × PortalCore × List CoreEffect) :=
  if len = 0 then none
  else
    match parseReport report len with
    | none => none
    | some r => some (r.echo report len, ((len + 8 : ℕ) : Int), c.applyReport report r)

/-! ### Messages -/

/-- The answer to `GETDEVPARAMS`: the id of the host, the descriptors of the device,
the configuration, the interface and the two endpoints. -/
def devParams (id : ℕ → U8) : Bytes 0x60 :=
  let out := ((Bytes.zero 0x60).copy 0 id 4).putBe32 4 1
  let out := out.copy 36 (fun i =>
    [0x12, 1, 0, 2, 0, 0, 0, 0x40, 0x30, 0x14, 0x50, 1, 0, 1, 1, 2, 0, 1].getD i 0) 18
  let out := out.copy 56 (fun i => [9, 2, 0x29, 0, 1, 1, 0, 0x80, 0xfa].getD i 0) 9
  let out := out.copy 68 (fun i => [9, 4, 0, 0, 2, 3, 0, 0, 0].getD i 0) 9
  let out := out.copy 80 (fun i => [7, 5, 0x81, 3, 0x40, 0, 1].getD i 0) 7
  out.copy 88 (fun i => [7, 5, 2, 3, 0x40, 0, 1].getD i 0) 7

/-- The `switch` of `ioctl_request`. -/
def ioctlSwitch (mem : Mem) (v : CardView) (io : Ioctl) : Int × PortalCore × List CoreEffect :=
  let id := mem.bytesAt io.bufferIn
  if io.command = 0 then
    if io.lengthIn ≠ 0 ∨ io.lengthIo ≠ 0x20 ∨ io.bufferIo = 0 then (ipcEinval, c, [])
    else (0, c, [.write io.bufferIo ([0, 5, 0, 1] ++ List.replicate 28 0)])
  else if io.command = 1 then
    if io.lengthIn ≠ 0 ∨ io.lengthIo ≠ 0x180 ∨ io.bufferIo = 0 then (ipcEinval, c, [])
    else
      (1, c, [.write io.bufferIo ([0, 0, 0, 1, 0x14, 0x30, 0x01, 0x50, 0, 1, 0, 0] ++
        List.replicate (0x180 - 12) 0)])
  else if io.command = 2 ∨ io.command = 6 then (0, c, [])
  else if io.command = 3 then
    if io.bufferIn = 0 ∨ io.lengthIn ≠ 0x20 ∨ io.bufferIo = 0 ∨ io.lengthIo ≠ 0x60 ∨
        ¬ validDevice id 0x20 then (ipcEinval, c, [])
    else (0, { c with resumed := true }, [.write io.bufferIo (List.ofFn (devParams id))])
  else if io.command = 16 then
    if io.bufferIn = 0 ∨ io.lengthIn ≠ 0x20 ∨ ¬ validDevice id 0x20 then (ipcEinval, c, [])
    else (0, { c with resumed := true }, [])
  else if io.command = 17 then (0, c, [])
  else if io.command = skylandersReload then
    (0, { c with figuresLoaded := false }.loadFigures v, [])
  else (ipcEinval, c, [])

/-- The first lines of `ioctl_request`: the figures are loaded at the first message. -/
def loadFirst (v : CardView) (io : Ioctl) : PortalCore :=
  if ¬ c.figuresLoaded ∧ io.command ≠ skylandersReload then c.loadFigures v else c

/-- `ioctl_request` -/
def ioctlRequest (mem : Mem) (v : CardView) (io : Ioctl) : Int × PortalCore × List CoreEffect :=
  (c.loadFirst v io).ioctlSwitch mem v io

/-- An interrupt-IN transfer of `ioctlv_request`: the bytes for the host, at most `len`
of them. -/
def interruptIn (v : CardView) (len : ℕ) : List U8 × PortalCore × List CoreEffect :=
  let c := c.pollFigures v
  match c.nextResponse with
  | (c, some r) => ((List.ofFn r.report).take (min r.length len), c, [.answered r])
  | (c, none) =>
      let (c, status) := c.buildStatus
      ((List.ofFn status).take (min 32 len), c,
        [.reported fun slot => (c.slots slot).state &&& 3])

/-- `ioctlv_request` -/
def ioctlvRequest (mem : Mem) (v : CardView) (m : IoctlvRequest) :
    Int × PortalCore × List CoreEffect :=
  match m.vector with
  | none => (ipcEinval, c, [])
  | some (v₀, v₁) =>
      let header := mem.bytesAt v₀.data
      let data := mem.bytesAt v₁.data
      let len := v₁.len.toNat
      if m.numIn + m.numIo ≠ 2 ∨ v₀.data = 0 ∨ v₁.data = 0 then (ipcEinval, c, [])
      else if ¬ c.resumed ∨ ¬ validDevice header v₀.len then (ipcEinval, c, [])
      else if m.command = 18 then
        if v₀.len < 16 ∨ header 8 ≠ 0x21 ∨ header 9 ≠ 0x09 then (ipcEinval, c, [])
        else
          match c.handleReport data len with
          | none => (ipcEinval, c, [])
          | some (echo, expected, c, effects) => (expected, c, .write v₁.data echo :: effects)
      else if m.command = 19 then
        if v₀.len < 15 then (ipcEinval, c, [])
        else if header 14 = 0x02 then
          if 32 < len ∧ len ≤ 64 then (len, c, [.write v₁.data ((List.range len).map data)])
          else (0, c, [])
        else if header 14 ≠ 0x81 then (ipcEinval, c, [])
        else
          let (bytes, c, effects) := c.interruptIn v len
          (bytes.length, c, .write v₁.data bytes :: effects)
      else (ipcEinval, c, [])

/-- A message with the memory and the card it is handled on. -/
structure Delivery where
  message : CoreMessage
  mem : Mem
  card : CardView

/-- The body of the loop in `main`. -/
def handle (d : Delivery) : PortalCore × List CoreEffect :=
  match d.message with
  | .openDevice device resultfd =>
      (c, [.ack (if device = ascii "/dev/usb/hid" then resultfd else ipcEnoent)])
  | .close => (c, [.ack 0])
  | .ioctl io =>
      let (result, c, effects) := c.ioctlRequest d.mem d.card io
      (c, effects ++ [.ack result])
  | .ioctlv m =>
      let (result, c, effects) := c.ioctlvRequest d.mem d.card m
      (c, effects ++ [.ack result])
  | .other => (c, [.ack ipcEinval])

end PortalCore
end VirtualPortal
