/-
# A new library

`prepare` of `pc-debug/prepare_e11_library.py`: from a directory of dumps it makes the
first library, a catalogue of 64-byte entries (`E11C`), the figure files and
`library.json`, in a new directory.

The dumps are taken in the order of their paths, after those that are called
`Dark Spyro`: the plugin puts figure 0 on the portal by itself.
-/

import VirtualPortal.Tools.Library

namespace VirtualPortal

/-- What `prepare` takes from Python besides: `str.lower` and the classes `\d` and `\s` of
`re`. -/
structure PreparePython extends Python where
  lower : Text → Text
  isDigit : Char → Bool
  isSpace : Char → Bool

/-- The exceptions of `prepare`: `ValueError` with its text, an `OSError` of a read or of
`dest.mkdir`, and the `assert` at the end. -/
inductive PrepareError where
  | value (message : String)
  | os
  | assertion
deriving DecidableEq

/-! ### The order of the dumps -/

section Prepare

variable (py : PreparePython)

/-- `p.stem.casefold() == 'dark spyro'` -/
def isDefault (p : Dump) : Bool := py.casefold (stem p.rel.name) = "dark spyro".toList

/-- The order of the pairs `(p.stem.casefold() != 'dark spyro', str(rel).casefold())`. -/
def prepareLe (p q : Dump) : Bool :=
  if isDefault py p = isDefault py q then dumpLe py.toPython p q else isDefault py p

/-- The files in the order of the loop. -/
def prepareOrder (source : List Dump) : List Dump := source.mergeSort (prepareLe py)

/-! ### The entries -/

/-- `re.sub(r'^\d+\)\s*', '', text)` -/
def withoutNumber (text : Text) : Text :=
  match text.dropWhile py.isDigit with
  | ')' :: rest => if text.takeWhile py.isDigit = [] then text else rest.dropWhile py.isSpace
  | _ => text

/-- The directory of a figure inside the directory of its game. -/
def category (rel : RelPath) : Text :=
  match rel.parts with
  | _ :: part :: _ :: _ => withoutNumber py part
  | _ => []

/-- The label of a dump. -/
def prepareLabel (rel : RelPath) : Text :=
  let game := if ['1', '.'].isPrefixOf (rel.parts.headD []) then "SSA".toList else "GIANTS".toList
  let stem := stem rel.name
  let label := game ++ ' ' :: stem
  let label := if "Series 2".toList <:+: category py rel then label ++ " S2".toList else label
  let label :=
    if "LightCore".toList <:+: category py rel ∧ ¬ "lightcore".toList <:+: py.lower stem then
      label ++ " LIGHTCORE".toList
    else label
  (asciiUpper py.toPython label).take 47

/-- The entry of a dump with contents `b`. -/
def prepareEntry (i : ℕ) (rel : RelPath) (b : List U8) : LibraryEntry where
  index := i
  name := prepareLabel py rel
  source := relStr py.toPython rel
  sha256 := py.sha256 b
  fnv := fnv b
  figureId := le16 b 16
  variant := le16 b 28
  displayName := none

/-- The loop over the files, from index `i` on; gives `entries` and `contents`. -/
def prepareEntries : ℕ → List Dump → Except PrepareError (List LibraryEntry × List (List U8))
  | _, [] => .ok ([], [])
  | i, p :: ps =>
      match p.bytes with
      | none => .error .os
      | some b =>
          if b.length ≠ 1024 then
            .error (.value (String.ofList p.rel.name ++ ": expected exactly 1024 bytes"))
          else
            match prepareEntries (i + 1) ps with
            | .error err => .error err
            | .ok (entries, contents) =>
                .ok (prepareEntry py i p.rel b :: entries, b :: contents)

/-- The loop that gives entries of the same name their index. -/
def withIndices (entries : List LibraryEntry) : List LibraryEntry :=
  entries.map fun e =>
    if 1 < (entries.map LibraryEntry.name).count e.name then
      { e with name := e.name.take 42 ++ ' ' :: pad3 e.index.toNat }
    else e

/-! ### The files -/

/-- The loop body of the catalogue writer. -/
def putRecord (cat : Bytes 16416) (e : LibraryEntry) : Bytes 16416 :=
  let o := 32 + e.index.toNat * 64
  let name := encode e.name
  ((cat.putBe32 o (BitVec.ofInt 32 e.index)).putBe32 (o + 4) (BitVec.ofInt 32 e.fnv)).copy (o + 8)
    (name.getD · 0) name.length

/-- The contents of `catalog.bin`. -/
def preparedCatalog (entries : List LibraryEntry) : Bytes 16416 :=
  let cat := entries.foldl putRecord (.zero 16416)
  let digest := fnv (((List.ofFn cat).drop 32).take (entries.length * 64))
  ((cat.putBe32 0 0x45313143).putBe32 4 (BitVec.ofNat 32 entries.length)).putBe32 8
    (BitVec.ofNat 32 digest)

/-- What is written to the new directory. -/
def preparedLibrary (entries : List LibraryEntry) (contents : List (List U8)) : Library where
  json := some entries
  files := Function.update (writeFigures (fun _ => none) 0 contents) catalogName
    (some (List.ofFn (preparedCatalog entries)))

/-- The condition of the `assert` for one entry. -/
def Verified (lib : Library) (e : LibraryEntry) : Prop :=
  (lib.files (figName e.index.toNat)).map py.sha256 = some e.sha256

instance (lib : Library) (e : LibraryEntry) : Decidable (Verified py lib e) :=
  inferInstanceAs (Decidable (_ = _))

/-- `prepare` up to the first write: the entries and the figures to be written. -/
def prepared (source : List Dump) : Except PrepareError (List LibraryEntry × List (List U8)) :=
  if ¬ (0 < source.length ∧ source.length ≤ 256) then
    .error (.value "Library must contain 1-256 dumps")
  else
    match prepareEntries py 0 (prepareOrder py source) with
    | .error err => .error err
    | .ok (entries, contents) => .ok (withIndices entries, contents)

/-- `prepare`: its result and the destination directory afterwards. -/
def prepare (source : List Dump) (dest : Option Library) :
    Except PrepareError (List LibraryEntry) × Option Library :=
  match prepared py source with
  | .error err => (.error err, dest)
  | .ok (entries, contents) =>
      if dest.isSome then (.error .os, dest)
      else
        let lib := preparedLibrary entries contents
        if ∀ e ∈ entries, Verified py lib e then (.ok entries, some lib)
        else (.error .assertion, some lib)

end Prepare

end VirtualPortal
