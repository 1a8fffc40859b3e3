/-
# The catalogue

`plugin/source/e12_storage.h`: `e11_mount`, `e11_catalog_load`,
`e11_source_hash` and `e11_label`.

The catalogue file is a header of 32 bytes (magic, number of entries, hash of
the entries) and up to 640 entries in one of three layouts:

| magic | `compact` | entry | id at | hash at | label | zero at | entries |
| --- | --- | --- | --- | --- | --- | --- | --- |
| `E11C` | 0 | 64 bytes | 0 | 4 | 8, 47 bytes | 63 | 256 |
| `E14C` | 1 | 32 bytes | none | 0 | 4, 27 bytes | 31 | 512 |
| `E15C` | 2 | 24 bytes | none | 0 | 4, 19 bytes | 23 | 640 |
-/

import VirtualPortal.Storage.Disk

namespace VirtualPortal

/-- `fat0:/skylanders/e11/catalog.bin` -/
def catalogPath : List U8 := ascii "fat0:/skylanders/e11/catalog.bin"

/-- `e11_mount` -/
def e11Mount (io : JobIo) : Int := if io.mountOpen < 0 then io.mountOpen else io.mountIoctl

/-- The value of `compact` for a magic number. -/
def catalogCompact (magic : U32) : U32 :=
  if magic = 0x45313543 then 2 else if magic = 0x45313443 then 1 else 0

/-- The size of an entry. -/
def catalogStride (compact : U32) : ℕ := if compact = 2 then 24 else if compact ≠ 0 then 32 else 64

/-- The number of entries a layout allows. -/
def catalogLimit (compact : U32) : U32 :=
  if compact = 2 then 640 else if compact ≠ 0 then 512 else 256

/-- The header checks of `e11_catalog_load`. -/
def catalogHeaderValid (catalog : Bytes 16416) : Prop :=
  let n := be32 catalog.byte 4
  let magic := be32 catalog.byte 0
  let compact := catalogCompact magic
  (compact ≠ 0 ∨ magic = 0x45313143) ∧ n ≠ 0 ∧ n ≤ catalogLimit compact ∧
    be32 catalog.byte 8 =
      e11Hash (fun i => catalog.byte (32 + i)) (n.toNat * catalogStride compact)

/-- The check of entry `i` in the last loop of `e11_catalog_load`. -/
def catalogEntryValid (catalog : Bytes 16416) (i : ℕ) : Prop :=
  let compact := catalogCompact (be32 catalog.byte 0)
  let stride := catalogStride compact
  (compact ≠ 0 ∨ be32 catalog.byte (32 + i * stride) = BitVec.ofNat 32 i) ∧
    catalog.byte (32 + i * stride + stride - 1) = 0

instance (catalog : Bytes 16416) : Decidable (catalogHeaderValid catalog) :=
  inferInstanceAs (Decidable (_ ∧ _ ∧ _ ∧ _))

instance (catalog : Bytes 16416) (i : ℕ) : Decidable (catalogEntryValid catalog i) :=
  inferInstanceAs (Decidable (_ ∧ _))

/-- The whole check of a catalogue that has been read. -/
def catalogValid (catalog : Bytes 16416) : Prop :=
  catalogHeaderValid catalog ∧ ∀ i < (be32 catalog.byte 4).toNat, catalogEntryValid catalog i

instance (catalog : Bytes 16416) : Decidable (catalogValid catalog) :=
  inferInstanceAs (Decidable (_ ∧ _))

/-- What a catalogue job leaves in the shared variables. -/
structure CatalogResult where
  result : Int
  catalog : Bytes 16416
  compact : U32

/-- `e11_catalog_load` -/
def e11CatalogLoad (d : Disk) (io : JobIo) (catalog : Bytes 16416) (compact : U32) :
    CatalogResult :=
  if io.threadId < 0 then ⟨io.threadId, catalog, compact⟩
  else if io.rights < 0 then ⟨io.rights, catalog, compact⟩
  else if e11Mount io < 0 then ⟨e11Mount io, catalog, compact⟩
  else
    let (r, catalog) := e11Read d catalogPath (io.read 0) catalog 0 16416
    if r < 0 then ⟨r, catalog, compact⟩
    else if ¬ catalogValid catalog then ⟨-4, catalog, compact⟩
    else ⟨0, catalog, catalogCompact (be32 catalog.byte 0)⟩

/-- `e11_source_hash` -/
def e11SourceHash (catalog : Bytes 16416) (compact id : U32) : U32 :=
  be32 catalog.byte (32 + id.toNat * catalogStride compact + if compact ≠ 0 then 0 else 4)

/-- `e11_label`: the text of entry `id`, copied to offset `off` of a buffer. -/
def e11Label {n : ℕ} (dst : Bytes n) (off : ℕ) (catalog : Bytes 16416) (compact id : U32) :
    Bytes n :=
  let start := 32 + id.toNat * catalogStride compact + if compact ≠ 0 then 4 else 8
  dst.copy off (fun i => catalog.byte (start + i))
    (if compact = 2 then 19 else if compact ≠ 0 then 27 else 47)

/-! ### The catalogue on the card -/

/-- The catalogue file as `e11_catalog_load` reads it. -/
def catalogFile (d : Disk) : Bytes 16416 := fun i => ((d catalogPath).getD []).getD i.val 0

/-- The dump hash the catalogue on the card gives for an id. -/
def catalogSource (d : Disk) (id : U32) : U32 :=
  e11SourceHash (catalogFile d) (catalogCompact (be32 (catalogFile d).byte 0)) id

/-- A catalogue job that succeeds has read the file on the card, and that file
is a valid catalogue. -/
theorem e11CatalogLoad_eq_zero {d : Disk} {io : JobIo} {catalog : Bytes 16416} {compact : U32}
    (h : 0 ≤ (e11CatalogLoad d io catalog compact).result) :
    (e11CatalogLoad d io catalog compact).catalog = catalogFile d ∧
      (e11CatalogLoad d io catalog compact).compact = catalogCompact (be32 (catalogFile d).byte 0) ∧
      catalogValid (catalogFile d) := by
  unfold e11CatalogLoad at h ⊢
  dsimp only at h ⊢
  split_ifs at h ⊢ with h₁ h₂ h₃ h₄ h₅
  · dsimp only at h; omega
  · dsimp only at h; omega
  · dsimp only at h; omega
  · dsimp only at h; omega
  · have hr : (e11Read d catalogPath (io.read 0) catalog 0 16416).1 = 0 := by
      have := @e11Read_le_zero _ d catalogPath (io.read 0) catalog 0 16416
      omega
    obtain ⟨file, hf, -, hread⟩ := e11Read_eq_zero hr
    have hcat : (e11Read d catalogPath (io.read 0) catalog 0 16416).2 = catalogFile d := by
      rw [hread]
      funext i
      simp [Bytes.copy, catalogFile, hf]
    rw [hcat] at h₅ ⊢
    exact ⟨rfl, rfl, h₅⟩
  · dsimp only at h; omega

/-- The card has a valid catalogue. -/
structure CatalogOnCard (d : Disk) : Prop where
  file : ∃ file, d catalogPath = some file ∧ 16416 ≤ file.length
  valid : catalogValid (catalogFile d)

/-- The catalogue job succeeds on a valid catalogue. -/
theorem CatalogOnCard.load {d : Disk} (h : CatalogOnCard d) (catalog : Bytes 16416)
    (compact : U32) :
    e11CatalogLoad d .ok catalog compact =
      ⟨0, catalogFile d, catalogCompact (be32 (catalogFile d).byte 0)⟩ := by
  obtain ⟨⟨file, hf, hn⟩, hvalid⟩ := h
  have hread : e11Read d catalogPath (JobIo.ok.read 0) catalog 0 16416 = (0, catalogFile d) := by
    refine (e11Read_ok hf hn).trans ?_
    rw [Bytes.copy_all, show catalogFile d = fun i => file.getD i.val 0 by
      funext i; simp [catalogFile, hf]]
  have hmount : ¬ e11Mount .ok < 0 := by decide
  simp only [e11CatalogLoad, hmount, hread, hvalid, show ¬ JobIo.ok.threadId < 0 by decide,
    show ¬ JobIo.ok.rights < 0 by decide, lt_irrefl, not_true_eq_false, if_false]

/-- A valid catalogue has between 1 and 640 entries. -/
theorem catalogValid.count {catalog : Bytes 16416} (h : catalogValid catalog) :
    be32 catalog.byte 4 ≠ 0 ∧ be32 catalog.byte 4 ≤ e11Max := by
  obtain ⟨⟨-, hn, hle, -⟩, -⟩ := h
  refine ⟨hn, BitVec.le_trans hle ?_⟩
  unfold catalogLimit
  split_ifs <;> decide

/-- The catalogue is no figure file. -/
theorem catalogPath_ne {id : U32} (hid : id < e11Max) (save : Option Bool) :
    e11Name id save ≠ catalogPath := by
  rw [e11Name_eq hid]
  intro h
  -- byte 21 is `f` or `s` in a figure file
  have hbyte := congrArg (fun l => l[21]?) h
  cases save with
  | none => exact absurd (show (some 0x66 : Option U8) = some 0x63 from hbyte) (by decide)
  | some k =>
      have hk : (some 0x73 : Option U8) = some 0x63 := by cases k <;> exact hbyte
      exact absurd hk (by decide)

end VirtualPortal
