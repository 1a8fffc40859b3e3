/-
# The library tool

`fnv` of `pc-debug/prepare_e11_library.py` and `extend` of
`pc-debug/extend_library.py`: the program that writes the catalogue and the
figure files which the plugin reads from the card.

A library is a directory with `library.json`, `catalog.bin`, the figure files
`fig000.bin`, `fig001.bin`, … and the journals the plugin has written.  `extend`
checks an existing library, merges the dumps of a source directory into it and
writes the result to a new directory; its errors are those of the checks, of
`struct.unpack_from` on a short catalogue and of files that cannot be read.

The parts of Python that are tables or digests (`casefold`, `NFKD`, `sha256`)
are parameters, with the one property of `NFKD` that the catalogue needs.
-/

import VirtualPortal.Tools.Paths
import VirtualPortal.Lib.Bytes
import Mathlib.Data.Char
import Mathlib.Data.List.Lex

namespace VirtualPortal

/-- What the tool takes from Python and from the system it runs on: the
separator of paths, `hashlib.sha256(b).hexdigest()`, `str.casefold` and
`unicodedata.normalize('NFKD', s)`, which makes no NUL of other characters. -/
structure Python where
  sep : Char
  sep_eq : sep = '/' ∨ sep = '\\'
  sha256 : List U8 → Text
  casefold : Text → Text
  nfkd : Text → Text
  nfkd_nul : ∀ t, Char.ofNat 0 ∉ t → Char.ofNat 0 ∉ nfkd t

/-- The exceptions of `extend`: `ValueError` with its text, `struct.error`,
`StopIteration`, an `OSError` of a read, and a `library.json` that is no list of
entries. -/
inductive PyError where
  | value (message : String)
  | struct
  | stopIteration
  | os
  | json
deriving DecidableEq

/-- An entry of `library.json`. -/
structure LibraryEntry where
  index : ℤ
  name : Text
  source : Text
  sha256 : Text
  fnv : ℤ
  figureId : ℕ
  variant : ℕ
  displayName : Option Text

/-- A library directory: the entries of `library.json`, if it can be decoded,
and the other files by name. -/
structure Library where
  json : Option (List LibraryEntry)
  files : Text → Option (List U8)

/-- A file that `source.rglob('*.dump')` gives; `none` when it cannot be read. -/
structure Dump where
  rel : RelPath
  bytes : Option (List U8)

/-- `fnv` -/
def fnv (data : List U8) : ℕ :=
  data.foldl (fun h b => ((h ^^^ b.toNat) * 16777619) &&& 0xffffffff) 2166136261

/-- `f'{i:03d}'` -/
def pad3 (i : ℕ) : Text := (Nat.toDigits 10 i).leftpad 3 '0'

/-- `f'fig{i:03d}.bin'` -/
def figName (i : ℕ) : Text := "fig".toList ++ pad3 i ++ ".bin".toList

/-- `'catalog.bin'` -/
def catalogName : Text := "catalog.bin".toList

/-- `(directory / name).read_bytes()` -/
def Library.readBytes (lib : Library) (name : Text) : Except PyError (List U8) :=
  match lib.files name with
  | some b => .ok b
  | none => .error .os

/-- `json.loads((directory / 'library.json').read_text())` -/
def Library.loadJson (lib : Library) : Except PyError (List LibraryEntry) :=
  match lib.json with
  | some entries => .ok entries
  | none => .error .json

/-- `if not p: raise ValueError(message)` -/
def require (p : Prop) [Decidable p] (message : String) : Except PyError Unit :=
  if p then .ok () else .error (.value message)

/-- `s.encode()` -/
def encode (t : Text) : List U8 := (t.flatMap String.utf8EncodeChar).map UInt8.toBitVec

/-- `int.from_bytes(b[o:o+2], 'little')` -/
def le16 (b : List U8) (o : ℕ) : ℕ := (b.getD o 0).toNat + 256 * (b.getD (o + 1) 0).toNat

/-! ### Checking the existing library -/

/-- The stride of a magic number, `0` for one that is not known. -/
def magicStride (magic : U32) : ℕ :=
  if magic = 0x45313143 then 64 else if magic = 0x45313443 then 32
  else if magic = 0x45313543 then 24 else 0

/-- The number of entries a stride allows. -/
def strideLimit (stride : ℕ) : ℕ := if stride = 64 then 256 else if stride = 32 then 512 else 640

/-- The checks of `catalog.bin`; gives the stride. -/
def checkCatalog (cat : List U8) (entries : ℕ) : Except PyError ℕ :=
  if cat.length < 12 then .error .struct
  else
    let count := (be32 (cat.getD · 0) 4).toNat
    let stride := magicStride (be32 (cat.getD · 0) 0)
    if stride = 0 ∨ cat.length ≠ 16416 ∨ count ≠ entries ∨ strideLimit stride < count ∨
        fnv ((cat.drop 32).take (count * stride)) ≠ (be32 (cat.getD · 0) 8).toNat then
      .error (.value "Existing catalogue failed validation")
    else .ok stride

section Extend

variable (py : Python)

/-- `PureWindowsPath(e['source']).as_posix().casefold()` -/
def listedKey (e : LibraryEntry) : Text := py.casefold (windowsAsPosix e.source)

/-- The entry and the figure file of an index belong together. -/
def EntryMatches (i : ℕ) (e : LibraryEntry) (b : List U8) : Prop :=
  e.index = i ∧ b.length = 1024 ∧ py.sha256 b = e.sha256 ∧ (fnv b : ℤ) = e.fnv

instance (i : ℕ) (e : LibraryEntry) (b : List U8) : Decidable (EntryMatches py i e b) :=
  inferInstanceAs (Decidable (_ ∧ _ ∧ _ ∧ _))

/-- The loop over the existing entries, from index `i` on; gives the figures. -/
def checkFigures (existing : Library) (cat : List U8) (stride : ℕ) :
    ℕ → List LibraryEntry → Except PyError (List (List U8))
  | _, [] => .ok []
  | i, e :: es => do
      let b ← existing.readBytes (figName i)
      require (EntryMatches py i e b) "Existing figure mismatch"
      let offset := 32 + i * stride + (if stride = 64 then 4 else 0)
      require ((be32 (cat.getD · 0) offset).toNat = fnv b) "Catalogue source hash mismatch"
      let data ← checkFigures existing cat stride (i + 1) es
      return b :: data

/-! ### Merging the dumps -/

/-- `str(rel)` -/
def relStr (rel : RelPath) : Text := RelPath.join py.sep rel.parts

/-- `rel.as_posix().casefold()` -/
def relKey (rel : RelPath) : Text := py.casefold rel.asPosix

/-- The order of `sorted(…, key=lambda p: str(p.relative_to(source)).casefold())`. -/
def dumpLe (p q : Dump) : Bool :=
  decide (py.casefold (relStr py p.rel) ≤ py.casefold (relStr py q.rel))

/-- The dumps in the order of the loop. -/
def sortedDumps (source : List Dump) : List Dump := source.mergeSort (dumpLe py)

/-- The game a dump belongs to, by the first directory. -/
def group (rel : RelPath) : Text :=
  match (rel.parts.headD []).take 2 with
  | ['1', '.'] => "SSA".toList
  | ['2', '.'] => "GIANTS".toList
  | ['3', '.'] => "SWAP".toList
  | ['4', '.'] => "TRAP".toList
  | ['5', '.'] => "SC".toList
  | _ => "FIGURE".toList

/-- One round of the loop that names the halves of a swap figure. -/
def swapLabel (stem label : Text) (part short : String) : Text :=
  if endsWith stem part.toList then
    "SWAP ".toList ++ short.toList ++ ' ' :: stem.take (stem.length - part.toList.length)
  else label

/-- `unicodedata.normalize('NFKD', label).encode('ascii', 'ignore').decode().upper()` -/
def asciiUpper (label : Text) : Text :=
  ((py.nfkd label).filter fun c => c.toNat < 128).map Char.toUpper

/-- The name of a new entry. -/
def dumpName (rel : RelPath) : Text :=
  let stem := stem rel.name
  let label := group rel ++ ' ' :: stem
  let label := if group rel = "SWAP".toList then
      swapLabel stem (swapLabel stem label " Bottom" "BOT") " Top" "TOP"
    else label
  asciiUpper py label

/-- The entry appended for a dump with contents `b`. -/
def newEntry (index : ℕ) (rel : RelPath) (b : List U8) : LibraryEntry where
  index := index
  name := dumpName py rel
  source := relStr py rel
  sha256 := py.sha256 b
  fnv := fnv b
  figureId := le16 b 16
  variant := le16 b 28
  displayName := none

/-- The variables of the loop over the dumps. -/
structure Merge where
  entries : List LibraryEntry
  paths : List Text
  data : List (List U8)

/-- The loop body for one dump. -/
def mergeDump (m : Merge) (p : Dump) : Except PyError Merge :=
  match p.bytes with
  | none => .error .os
  | some b =>
      if b.length ≠ 1024 then
        .error (.value ("Not a 1024-byte figure: " ++ String.ofList (relStr py p.rel)))
      else if relKey py p.rel ∈ m.paths then
        match m.entries.find? fun e => listedKey py e = relKey py p.rel with
        | none => .error .stopIteration
        | some old =>
            if py.sha256 b ≠ old.sha256 then
              .error (.value ("Existing source changed: " ++ String.ofList (relStr py p.rel)))
            else .ok m
      else
        .ok ⟨m.entries ++ [newEntry py m.entries.length p.rel b],
          m.paths ++ [relKey py p.rel], m.data ++ [b]⟩

/-! ### The new library -/

/-- `e['name'][:19]` -/
def shortLabel (e : LibraryEntry) : Text := e.name.take 19

/-- The display name of entry `i`: the label, or its first 15 characters and the
index when other entries have the same label. -/
def displayName (labels : List Text) (i : ℕ) (e : LibraryEntry) : Text :=
  if labels.count (shortLabel e) = 1 then shortLabel e
  else (shortLabel e).take 15 ++ ' ' :: pad3 i

/-- The loop that sets the display names. -/
def withDisplayNames (entries : List LibraryEntry) : List LibraryEntry :=
  entries.mapIdx fun i e =>
    { e with displayName := some (displayName (entries.map shortLabel) i e) }

/-- The loop body of the catalogue writer. -/
def putEntry (cat : Bytes 16416) (i : ℕ) (e : LibraryEntry) : Bytes 16416 :=
  let o := 32 + i * 24
  let label := encode (e.displayName.getD [])
  (cat.putBe32 o (BitVec.ofInt 32 e.fnv)).copy (o + 4) (label.getD · 0) label.length

/-- The loop of the catalogue writer, from entry `i` on. -/
def putEntries (cat : Bytes 16416) : ℕ → List LibraryEntry → Bytes 16416
  | _, [] => cat
  | i, e :: es => putEntries (putEntry cat i e) (i + 1) es

/-- The contents of the new `catalog.bin`. -/
def newCatalog (entries : List LibraryEntry) : Bytes 16416 :=
  let cat := putEntries (.zero 16416) 0 entries
  let digest := fnv (((List.ofFn cat).drop 32).take (entries.length * 24))
  ((cat.putBe32 0 0x45313543).putBe32 4 (BitVec.ofNat 32 entries.length)).putBe32 8
    (BitVec.ofNat 32 digest)

/-- The loop that writes the figure files, from index `i` on. -/
def writeFigures (files : Text → Option (List U8)) :
    ℕ → List (List U8) → Text → Option (List U8)
  | _, [] => files
  | i, b :: bs => writeFigures (Function.update files (figName i) (some b)) (i + 1) bs

/-- The loop that copies the journals of the existing library. -/
def copyJournals (existing files : Text → Option (List U8)) : Text → Option (List U8) := fun name =>
  if suffix name = ".sav0".toList ∨ suffix name = ".sav1".toList then
    (existing name).or (files name)
  else files name

/-- What is written to the new directory. -/
def writeLibrary (existing : Library) (entries : List LibraryEntry) (data : List (List U8)) :
    Library where
  json := some entries
  files := Function.update (copyJournals existing.files (writeFigures (fun _ => none) 0 data))
    catalogName (some (List.ofFn (newCatalog entries)))

/-- `extend` up to the first write: the entries and the figures to be written. -/
def merged (source : List Dump) (existing : Library) :
    Except PyError (List LibraryEntry × List (List U8)) := do
  let entries ← existing.loadJson
  let cat ← existing.readBytes catalogName
  let stride ← checkCatalog cat entries.length
  let data ← checkFigures py existing cat stride 0 entries
  let m ← (sortedDumps py source).foldlM (mergeDump py) ⟨entries, entries.map (listedKey py), data⟩
  require (m.entries.length ≤ 640) "More than640 figures; nothing written"
  let entries := withDisplayNames m.entries
  require (entries.map LibraryEntry.displayName).Nodup "Display label collision"
  return (entries, m.data)

/-- `extend`: its result and the destination directory afterwards. -/
def extend (source : List Dump) (existing : Library) (dest : Option Library) :
    Except PyError (List LibraryEntry) × Option Library :=
  if dest.isSome then (.error (.value "Use a new destination directory"), dest)
  else
    match merged py source existing with
    | .error e => (.error e, dest)
    | .ok (entries, data) => (.ok entries, some (writeLibrary existing entries data))

end Extend

end VirtualPortal
