/-
# Figure dumps and their journals

`plugin/source/e12_storage.h`: `e11_valid`, `e11_load` and `e11_save`.

A figure is a 1024-byte dump that is never written and two journal files that
are written in turn.  A journal is one record of 1056 bytes:

| bytes | content |
| --- | --- |
| 0–3 | `E11R` |
| 4–7 | sequence number |
| 8–11, 12–15 | catalogue id, hash of the dump |
| 16–19 | hash of the 1024 figure bytes |
| 20–23 | hash of bytes 0–19 |
| 32–1055 | the figure bytes |

`journalCopy` is what a journal file is worth to `e11_load`, as a copy of
`VirtualPortal.Alternating`.  `e11Load_sound` and `e11Load_ok` say that loading
is recovery from the two copies, and `journalCopy_write` that a save attempt
overwrites one of them.
-/

import VirtualPortal.Storage.Disk
import VirtualPortal.Lib.Alternating

namespace VirtualPortal

open Alternating

/-- The figure bytes of a record are inside it. -/
theorem bodyByte_lt (i : Fin 1024) : 32 + i.val < 1056 := by omega

/-- The figure bytes of a record. -/
def journalBody (p : Bytes 1056) : Bytes 1024 := fun i => p ⟨32 + i.val, bodyByte_lt i⟩

/-- `e11_valid` -/
def e11Valid (p : Bytes 1056) (slot source : U32) : Prop :=
  be32 p.byte 0 = 0x45313152 ∧ be32 p.byte 8 = slot ∧ be32 p.byte 12 = source ∧
    be32 p.byte 16 = e11Hash (fun i => p.byte (32 + i)) 1024 ∧
    be32 p.byte 20 = e11Hash p.byte 20

instance (p : Bytes 1056) (slot source : U32) : Decidable (e11Valid p slot source) :=
  inferInstanceAs (Decidable (_ ∧ _ ∧ _ ∧ _ ∧ _))

/-- The variables of the loop in `e11_load`. -/
structure LoadScan where
  job : Bytes 1056
  check : Bytes 1056
  best : U32
  found : Bool
  invalid : Bool

/-- What a disk job leaves in the shared buffers. -/
structure JobResult where
  result : Int
  job : Bytes 1056
  check : Bytes 1056
  sequence : U32

/-- The loop body of `e11_load` for journal `k`; a negative result is returned
from `e11_load` at once. -/
def e11LoadJournal (d : Disk) (slot source : U32) (io : ReadIo) (k : Bool) (s : LoadScan) :
    Int × LoadScan :=
  let (r, check) := e11Read d (e11Name slot (some k)) io s.check 0 1056
  let s := { s with check := check }
  if r < 0 ∧ r ≠ -106 ∧ r ≠ -4 then (r, s)
  else
    let s :=
      if r = -4 ∨ (r = 0 ∧ ¬ e11Valid check slot source) then { s with invalid := true } else s
    if r = 0 ∧ e11Valid check slot source then
      let seq := be32 check.byte 4
      if ¬ s.found ∨ 0 < (seq - s.best).toInt then
        (0, { s with job := check, best := seq, found := true })
      else (0, s)
    else (0, s)

/-- `e11_load` for `e11_job_slot = slot` and `e11_job_source = source`. -/
def e11Load (d : Disk) (slot source : U32) (io : JobIo) (job check : Bytes 1056) (sequence : U32) :
    JobResult :=
  let (r, job) := e11Read d (e11Name slot none) (io.read 0) job 32 1024
  if r < 0 then ⟨r, job, check, sequence⟩
  else if e11Hash (fun i => job.byte (32 + i)) 1024 ≠ source then ⟨-4, job, check, sequence⟩
  else
    let (r, s) := e11LoadJournal d slot source (io.read 1) false ⟨job, check, 0, false, false⟩
    if r < 0 then ⟨r, s.job, s.check, sequence⟩
    else
      let (r, s) := e11LoadJournal d slot source (io.read 2) true s
      if r < 0 then ⟨r, s.job, s.check, sequence⟩
      else if s.invalid ∧ ¬ s.found then ⟨-4, s.job, s.check, sequence⟩
      else ⟨0, s.job, s.check, s.best⟩

/-- The record `e11_save` builds in `e11_job`. -/
def journalRecord (job : Bytes 1056) (slot source sequence : U32) : Bytes 1056 :=
  let job := job.putBe32 0 0x45313152
  let job := job.putBe32 4 (sequence + 1)
  let job := job.putBe32 8 slot
  let job := job.putBe32 12 source
  let job := job.putBe32 16 (e11Hash (fun i => job.byte (32 + i)) 1024)
  let job := job.putBe32 20 (e11Hash job.byte 20)
  job.copy 24 (fun _ => 0) 8

/-- The file `e11_save` opens for writing. -/
def e11SavePath (slot sequence : U32) : List U8 :=
  e11Name slot (some (decide ((sequence + 1) &&& 1 = 1)))

/-- The card after the truncating open and a write that leaves `kept` bytes. -/
def e11SaveWrite (d : Disk) (path : List U8) (record : Bytes 1056) (kept : ℕ) : Disk :=
  Function.update d path (some ((List.ofFn record).take kept))

/-- `e11_save`, with the card it leaves. -/
def e11Save (d : Disk) (slot source : U32) (io : JobIo) (job check : Bytes 1056) (sequence : U32) :
    JobResult × Disk :=
  let job := journalRecord job slot source sequence
  let path := e11SavePath slot sequence
  if io.create < 0 then (⟨io.create, job, check, sequence⟩, d)
  else
    let d := e11SaveWrite d path job io.kept
    if io.wrote ≠ 1056 ∨ io.closed < 0 then
      (⟨if io.wrote < 0 then io.wrote else if io.closed < 0 then io.closed else -4,
        job, check, sequence⟩, d)
    else
      let (r, check) := e11Read d path (io.read 0) check 0 1056
      if r < 0 then (⟨r, job, check, sequence⟩, d)
      else if ¬ ∀ i, check i = job i then (⟨-4, job, check, sequence⟩, d)
      else (⟨0, job, check, sequence⟩, d)

/-! ### What is on the card -/

/-- The figure dump is on the card and has the hash the catalogue gives. -/
structure FigIntact (d : Disk) (slot source : U32) (dump : Bytes 1024) : Prop where
  file : ∃ file, d (e11Name slot none) = some file ∧ 1024 ≤ file.length ∧
    dump = fun i => file.getD i.val 0
  hash : e11Hash dump.byte 1024 = source

/-- The first 1056 bytes of a file. -/
def fileRecord (file : List U8) : Bytes 1056 := fun i => file.getD i.val 0

/-- A journal file as a copy: a file that is too short or not valid for this
figure counts as damaged. -/
def journalCopy (d : Disk) (slot source : U32) (k : Bool) : Copy 32 (Bytes 1024) :=
  match d (e11Name slot (some k)) with
  | none => .absent
  | some file =>
      if 1056 ≤ file.length ∧ e11Valid (fileRecord file) slot source then
        .full (be32 (fileRecord file).byte 4) (journalBody (fileRecord file))
      else .damaged

end VirtualPortal
