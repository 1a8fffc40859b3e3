/-
# The catalogue the tool writes and the plugin reads

The library directory is copied to `fat0:/skylanders/e11/` on the card
(`deploy`).  There the plugin builds the names of the files itself
(`deploy_e11Name`), checks the catalogue with its own hash (`fnv_eq_e11Hash`) and
reads hashes and labels at its own offsets (`be32_newCatalog_entry`,
`byte_newCatalog_label`).  `newCatalog_valid` says that it accepts every
catalogue whose labels fit.
-/

import VirtualPortal.Tools.Merge
import VirtualPortal.Storage.Catalog
import VirtualPortal.Storage.Journal

namespace VirtualPortal

/-! ### The hash -/

/-- One byte of the hash, in Python's integers and in 32-bit words. -/
theorem fnv_step (h : U32) (b : U8) :
    ((h.toNat ^^^ b.toNat) * 16777619) &&& 0xffffffff =
      ((h ^^^ b.setWidth 32) * 16777619).toNat := by
  rw [Nat.and_two_pow_sub_one_eq_mod _ 32, BitVec.toNat_mul, BitVec.toNat_xor,
    BitVec.toNat_setWidth_of_le (by decide)]
  rfl

/-- `fnv` and `e11_hash` are the same function. -/
theorem fnv_eq_e11Hash (b : List U8) : fnv b = (e11Hash (b.getD · 0) b.length).toNat := by
  have hrange : b = (List.range b.length).map (b.getD · 0) := by
    refine List.ext_getElem (by simp) fun i h₁ h₂ => ?_
    simp [List.getElem?_eq_getElem h₁]
  have hfold : ∀ (l : List U8) (h : U32),
      l.foldl (fun h b => ((h ^^^ b.toNat) * 16777619) &&& 0xffffffff) h.toNat =
        (l.foldl (fun h b => (h ^^^ b.setWidth 32) * 16777619) h).toNat := by
    intro l
    induction l with
    | nil => exact fun h => rfl
    | cons b bs ih =>
        intro h
        rw [List.foldl_cons, List.foldl_cons, fnv_step, ih]
  have hlist : e11Hash (b.getD · 0) b.length = ((List.range b.length).map (b.getD · 0)).foldl
      (fun h b => (h ^^^ b.setWidth 32) * 16777619) 2166136261 := by
    rw [List.foldl_map]
    rfl
  rw [hlist, ← hrange]
  exact hfold b 2166136261

/-! ### The library on the card -/

/-- The directory the library is copied to. -/
def cardDirectory : List U8 := ascii "fat0:/skylanders/e11/"

/-- The card with the files of a library on it. -/
def deploy (lib : Library) : Disk := fun path =>
  if cardDirectory.isPrefixOf path then
    lib.files ((path.drop cardDirectory.length).map fun b => Char.ofNat b.toNat)
  else none

/-- A digit as the plugin and as the tool write it. -/
theorem ofNat_digit {n : U32} (h : n < 10) :
    Char.ofNat (digit n).toNat = n.toNat.digitChar := by
  have hall : ∀ k < 10, Char.ofNat (digit (BitVec.ofNat 32 k)).toNat = k.digitChar := by decide
  simpa using hall n.toNat (BitVec.lt_def.mp h)

/-- A file in the directory of the library. -/
theorem deploy_append (lib : Library) (name : List U8) :
    deploy lib (cardDirectory ++ name) = lib.files (name.map fun b => Char.ofNat b.toNat) := by
  rw [deploy, if_pos (by simp), List.drop_left]

/-- `e11_name` and the tool name the files alike. -/
theorem deploy_e11Name (lib : Library) {id : U32} (hid : id < e11Max) (save : Option Bool) :
    deploy lib (e11Name id save) = lib.files (libraryName id.toNat save) := by
  obtain ⟨h₁, h₂, h₃⟩ := digits_lt hid
  have hid' := BitVec.lt_def.mp hid
  have hpad : [Char.ofNat (digit (id / 100)).toNat, Char.ofNat (digit (id / 10 % 10)).toNat,
      Char.ofNat (digit (id % 10)).toNat] = pad3 id.toNat := by
    rw [ofNat_digit h₁, ofNat_digit h₂, ofNat_digit h₃,
      pad3_eq (hid'.trans (show e11Max.toNat < 1000 by decide))]
    simp
  have hdeploy : ∀ kind ext : String,
      deploy lib (cardDirectory ++ (ascii kind ++
        [digit (id / 100), digit (id / 10 % 10), digit (id % 10)] ++ ascii ext)) =
        lib.files ((ascii kind).map (fun b => Char.ofNat b.toNat) ++ pad3 id.toNat ++
          (ascii ext).map fun b => Char.ofNat b.toNat) := by
    intro kind ext
    rw [deploy_append, List.map_append, List.map_append, ← hpad]
    rfl
  rw [e11Name_eq hid]
  rcases save with - | k | k
  · exact hdeploy "fig" ".bin"
  · exact hdeploy "save" ".sav0"
  · exact hdeploy "save" ".sav1"

/-- The catalogue on the card. -/
theorem deploy_catalogPath (lib : Library) : deploy lib catalogPath = lib.files catalogName := by
  rw [show catalogPath = cardDirectory ++ ascii "catalog.bin" by decide, deploy_append]
  exact congrArg lib.files (by decide)

/-! ### The bytes of the catalogue -/

section Writer

variable {cat : Bytes 16416} {i k x : ℕ} {e : LibraryEntry} {es : List LibraryEntry}

/-- The label of an entry as the catalogue holds it. -/
def labelBytes (e : LibraryEntry) : List U8 := encode (e.displayName.getD [])

/-- Writing an entry leaves everything before it alone. -/
theorem byte_putEntry_of_lt (h : x < 32 + i * 24) : (putEntry cat i e).byte x = cat.byte x := by
  rw [putEntry, Bytes.byte_copy_of_lt _ _ (by omega), Bytes.byte_putBe32_of_lt _ _ h]

/-- Writing entries leaves everything before them alone. -/
theorem byte_putEntries_of_lt (h : x < 32 + i * 24) :
    (putEntries cat i es).byte x = cat.byte x := by
  induction es generalizing cat i with
  | nil => rfl
  | cons e es ih => rw [putEntries, ih (by omega), byte_putEntry_of_lt h]

theorem be32_putEntry (h : i < 640) :
    be32 (putEntry cat i e).byte (32 + i * 24) = BitVec.ofInt 32 e.fnv := by
  rw [putEntry, Bytes.be32_copy_of_disjoint _ _ (.inl le_rfl), Bytes.be32_putBe32 _ _ (by omega)]

/-- **Every hash is where the plugin looks for it**, whatever the labels are: a
label can only run into entries that are written after it. -/
theorem be32_putEntries (h : i + es.length ≤ 640) (he : es[k]? = some e) :
    be32 (putEntries cat i es).byte (32 + (i + k) * 24) = BitVec.ofInt 32 e.fnv := by
  induction es generalizing cat i k with
  | nil => simp at he
  | cons e₀ es ih =>
      rw [List.length_cons] at h
      rw [putEntries]
      cases k with
      | zero =>
          obtain rfl : e₀ = e := by simpa using he
          rw [← @be32_putEntry cat i e₀ (by omega)]
          exact be32_congr fun j hj => byte_putEntries_of_lt (by omega)
      | succ k =>
          rw [show i + (k + 1) = i + 1 + k by omega]
          exact ih (by omega) (by simpa using he)

/-- The buffer is zero from entry `i` on. -/
def ZeroFrom (cat : Bytes 16416) (i : ℕ) : Prop := ∀ x, 32 + i * 24 ≤ x → cat.byte x = 0

theorem ZeroFrom.putEntry (h : ZeroFrom cat i) (he : (labelBytes e).length ≤ 19) :
    ZeroFrom (putEntry cat i e) (i + 1) := by
  intro x hx
  rw [VirtualPortal.putEntry, Bytes.byte_copy_of_le _ _ (by rw [← labelBytes]; omega),
    Bytes.byte_putBe32_of_le _ _ (by omega)]
  exact h x (by omega)

/-- The label of an entry, with the zeros after it. -/
theorem byte_putEntry_label (h : ZeroFrom cat i) (hi : i < 640) (hx : x < 20) :
    (putEntry cat i e).byte (32 + i * 24 + 4 + x) = (labelBytes e).getD x 0 := by
  rw [putEntry, ← labelBytes]
  rcases Nat.lt_or_ge x (labelBytes e).length with hlen | hlen
  · rw [Bytes.byte_copy_of_mem _ _ (by omega) (by omega) (by omega)]
    congr 1
    omega
  · rw [Bytes.byte_copy_of_le _ _ (by omega), Bytes.byte_putBe32_of_le _ _ (by omega),
      h _ (by omega)]
    simp [hlen]

/-- **Every label is where the plugin looks for it**, followed by zeros. -/
theorem byte_putEntries_label (hcat : ZeroFrom cat i) (h : i + es.length ≤ 640)
    (hes : ∀ e ∈ es, (labelBytes e).length ≤ 19) (he : es[k]? = some e) (hx : x < 20) :
    (putEntries cat i es).byte (32 + (i + k) * 24 + 4 + x) = (labelBytes e).getD x 0 := by
  induction es generalizing cat i k with
  | nil => simp at he
  | cons e₀ es ih =>
      rw [List.length_cons] at h
      obtain ⟨he₀, hes⟩ := List.forall_mem_cons.mp hes
      rw [putEntries]
      cases k with
      | zero =>
          obtain rfl : e₀ = e := by simpa using he
          rw [← byte_putEntry_label hcat (by omega) hx]
          exact byte_putEntries_of_lt (by omega)
      | succ k =>
          rw [show i + (k + 1) = i + 1 + k by omega]
          exact ih (hcat.putEntry he₀) (by omega) hes (by simpa using he)

/-- The header of the new catalogue. -/
theorem be32_newCatalog (es : List LibraryEntry) :
    be32 (newCatalog es).byte 0 = 0x45313543 ∧
      be32 (newCatalog es).byte 4 = BitVec.ofNat 32 es.length ∧
      be32 (newCatalog es).byte 8 = BitVec.ofNat 32
        (fnv (((List.ofFn (putEntries (.zero 16416) 0 es)).drop 32).take (es.length * 24))) := by
  refine ⟨?_, ?_, Bytes.be32_putBe32 _ _ (by omega)⟩
  · rw [newCatalog, Bytes.be32_putBe32_of_disjoint _ _ (.inl (by omega)),
      Bytes.be32_putBe32_of_disjoint _ _ (.inl (by omega)), Bytes.be32_putBe32 _ _ (by omega)]
  · rw [newCatalog, Bytes.be32_putBe32_of_disjoint _ _ (.inl (by omega)),
      Bytes.be32_putBe32 _ _ (by omega)]

/-- The entries of the new catalogue. -/
theorem byte_newCatalog (h : 12 ≤ x) :
    (newCatalog es).byte x = (putEntries (.zero 16416) 0 es).byte x := by
  rw [newCatalog, Bytes.byte_putBe32_of_le _ _ (by omega), Bytes.byte_putBe32_of_le _ _ (by omega),
    Bytes.byte_putBe32_of_le _ _ (by omega)]

/-- Byte `x` of a buffer as a file. -/
theorem getD_ofFn {n : ℕ} (p : Bytes n) (x : ℕ) : (List.ofFn p).getD x 0 = p.byte x := by
  unfold Bytes.byte
  split_ifs with h <;> simp [h]

/-- The hash of a part of a file. -/
theorem fnv_slice {file : List U8} {m : ℕ} (h : 32 + m ≤ file.length) :
    fnv ((file.drop 32).take m) = (e11Hash (fun j => file.getD (32 + j) 0) m).toNat := by
  rw [fnv_eq_e11Hash, List.length_take_of_le (by rw [List.length_drop]; omega)]
  refine congrArg BitVec.toNat (e11Hash_congr fun j hj => ?_)
  simp [hj]

/-- The digest of the new catalogue is the hash of its entries. -/
theorem newCatalog_digest (h : es.length ≤ 640) :
    be32 (newCatalog es).byte 8 =
      e11Hash (fun j => (newCatalog es).byte (32 + j)) (es.length * 24) := by
  rw [(be32_newCatalog es).2.2, fnv_slice (by rw [List.length_ofFn]; omega), BitVec.ofNat_toNat,
    BitVec.setWidth_eq]
  refine e11Hash_congr fun j hj => ?_
  rw [getD_ofFn, byte_newCatalog (by omega)]

/-- The hash that the new catalogue gives for an entry. -/
theorem be32_newCatalog_entry (h : es.length ≤ 640) (he : es[k]? = some e) :
    be32 (newCatalog es).byte (32 + k * 24) = BitVec.ofInt 32 e.fnv := by
  rw [← @be32_putEntries (.zero 16416) 0 k e es (by omega) he, Nat.zero_add]
  exact be32_congr fun j hj => byte_newCatalog (by omega)

/-- The label that the new catalogue gives for an entry. -/
theorem byte_newCatalog_label (h : es.length ≤ 640) (hes : ∀ e ∈ es, (labelBytes e).length ≤ 19)
    (he : es[k]? = some e) (hx : x < 20) :
    (newCatalog es).byte (32 + k * 24 + 4 + x) = (labelBytes e).getD x 0 := by
  have hzero : ZeroFrom (.zero 16416) 0 := fun x _ => Bytes.byte_zero _ x
  rw [byte_newCatalog (by omega), ← byte_putEntries_label hzero (by omega) hes he hx, Nat.zero_add]

/-- **The plugin accepts the new catalogue.** -/
theorem newCatalog_valid (hne : es ≠ []) (h : es.length ≤ 640)
    (hes : ∀ e ∈ es, (labelBytes e).length ≤ 19) : catalogValid (newCatalog es) := by
  obtain ⟨hmagic, hcount, -⟩ := be32_newCatalog es
  have hlen : (BitVec.ofNat 32 es.length).toNat = es.length :=
    toNat_ofNat_of_lt (by omega)
  have hpos := List.length_pos_iff.mpr hne
  constructor
  · refine ⟨?_, ?_, ?_, ?_⟩ <;> simp only [hmagic, hcount, hlen]
    · decide
    · intro h0
      have := congrArg BitVec.toNat h0
      rw [hlen] at this
      exact absurd this (by simp; omega)
    · rw [BitVec.le_def, hlen]
      exact h
    · exact newCatalog_digest h
  · intro j hj
    rw [hcount, hlen] at hj
    have he := List.getElem?_eq_getElem hj
    simp only [catalogEntryValid, hmagic]
    refine ⟨.inl (by decide), ?_⟩
    have hlabel := byte_newCatalog_label h hes he (by omega : 19 < 20)
    rw [show catalogStride (catalogCompact 0x45313543) = 24 by decide,
      show 32 + j * 24 + 24 - 1 = 32 + j * 24 + 4 + 19 by omega, hlabel]
    simp [hes _ (List.getElem_mem hj)]

/-- The new catalogue passes the tool's own checks. -/
theorem checkCatalog_newCatalog (h : es.length ≤ 640) :
    checkCatalog (List.ofFn (newCatalog es)) es.length = .ok 24 := by
  have hget : ((List.ofFn (newCatalog es)).getD · 0) = (newCatalog es).byte :=
    funext (getD_ofFn _)
  obtain ⟨hmagic, hcount, -⟩ := be32_newCatalog es
  have hlen : (BitVec.ofNat 32 es.length).toNat = es.length :=
    toNat_ofNat_of_lt (by omega)
  have hdigest : fnv (((List.ofFn (newCatalog es)).drop 32).take (es.length * 24)) =
      (be32 (newCatalog es).byte 8).toNat := by
    rw [fnv_slice (by rw [List.length_ofFn]; omega), newCatalog_digest h]
    simp only [getD_ofFn]
  have hstride : magicStride 0x45313543 = 24 := by decide
  rw [checkCatalog, List.length_ofFn, if_neg (by omega)]
  simp only [hget, hmagic, hcount, hlen, hstride, hdigest]
  exact if_neg (by simp [strideLimit, h])

end Writer

/-- The catalogue that the plugin reads from the card. -/
theorem catalogFile_deploy {lib : Library} {cat : List U8} (h : lib.files catalogName = some cat) :
    catalogFile (deploy lib) = fun x => cat.getD x.val 0 := by
  funext x
  rw [catalogFile, deploy_catalogPath, h, Option.getD_some]

end VirtualPortal
