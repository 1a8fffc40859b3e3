/-
# What the plugin finds of a new library

`prepare` accepts 1 to 256 dumps of 1024 bytes for a directory that is not there yet,
and nothing else; what it has written passes its own check.  The plugin accepts the
catalogue, loads every figure as the dump was and shows the name of the entry, and the
portal starts with `Dark Spyro` if there is one (`prepare_card`).  `extend` takes the
library up again (`prepare_extend_iff`).
-/

import VirtualPortal.Tools.Prepare
import VirtualPortal.Tools.Agreement
import VirtualPortal.Lib.Parts
import VirtualPortal.Storage.CleanSlots

namespace VirtualPortal

variable {py : PreparePython} {source ps : List Dump} {p q : Dump} {i k : ℕ}

/-! ### The order -/

/-- Default dumps come first, and dumps of one kind in the order of their paths. -/
theorem prepareLe_iff : prepareLe py p q = true ↔
    isDefault py p = true ∧ isDefault py q = false ∨
      isDefault py p = isDefault py q ∧
        py.casefold (relStr py.toPython p.rel) ≤ py.casefold (relStr py.toPython q.rel) := by
  unfold prepareLe dumpLe
  cases hp : isDefault py p <;> cases hq : isDefault py q <;> simp

/-- The order is transitive. -/
theorem prepareLe_trans (p q r : Dump) (hpq : prepareLe py p q) (hqr : prepareLe py q r) :
    prepareLe py p r := by
  rw [prepareLe_iff] at hpq hqr ⊢
  rcases hpq with ⟨hp, hq⟩ | ⟨hsame, hle⟩
  · rcases hqr with ⟨hq', -⟩ | ⟨hsame, -⟩
    · exact absurd (hq.symm.trans hq') (by decide)
    · exact Or.inl ⟨hp, hsame ▸ hq⟩
  · rcases hqr with ⟨hq, hr⟩ | ⟨hsame', hle'⟩
    · exact Or.inl ⟨hsame.trans hq, hr⟩
    · exact Or.inr ⟨hsame.trans hsame', hle.trans hle'⟩

/-- The order is total. -/
theorem prepareLe_total (p q : Dump) : prepareLe py p q || prepareLe py q p := by
  rw [Bool.or_eq_true, prepareLe_iff, prepareLe_iff]
  cases hp : isDefault py p <;> cases hq : isDefault py q <;> simp [le_total]

/-- The files of the loop are those of the source. -/
theorem prepareOrder_perm : (prepareOrder py source).Perm source := List.mergeSort_perm ..

/-- The first dump is a default one if there is any. -/
theorem prepareOrder_default (hq : q ∈ source) (hdefault : isDefault py q = true)
    (hp : (prepareOrder py source)[0]? = some p) : isDefault py p = true := by
  have hsorted : (source.mergeSort (prepareLe py)).Pairwise fun p q => prepareLe py p q = true :=
    List.pairwise_mergeSort prepareLe_trans prepareLe_total source
  have hmem : q ∈ prepareOrder py source := List.mem_mergeSort.mpr hq
  unfold prepareOrder at hp hmem
  cases hlist : source.mergeSort (prepareLe py) with
  | nil =>
      rw [hlist] at hmem
      exact absurd hmem List.not_mem_nil
  | cons p' ps =>
      rw [hlist] at hp hmem hsorted
      obtain rfl : p' = p := by simpa using hp
      rcases List.mem_cons.mp hmem with rfl | hmem
      · exact hdefault
      · rcases prepareLe_iff.mp (List.rel_of_pairwise_cons hsorted hmem) with ⟨hp, -⟩ | ⟨hsame, -⟩
        · exact hp
        · exact hsame.trans hdefault

/-! ### The entries -/

/-- A file of a figure that can be read. -/
def Dump.Sized (p : Dump) : Prop := p.bytes = some p.contents ∧ p.contents.length = 1024

/-- What the loop over the files gives. -/
theorem prepareEntries_of_sized (h : ∀ p ∈ ps, p.Sized) :
    prepareEntries py i ps =
      .ok (ps.mapIdx fun k p => prepareEntry py (i + k) p.rel p.contents,
        ps.map Dump.contents) := by
  induction ps generalizing i with
  | nil => rfl
  | cons p ps ih =>
      obtain ⟨⟨hread, hsize⟩, hps⟩ := List.forall_mem_cons.mp h
      rw [prepareEntries, hread]
      dsimp only
      rw [if_neg (not_not.mpr hsize), ih hps, List.mapIdx_cons, List.map_cons]
      simp only [Nat.add_assoc, Nat.add_comm 1, Nat.add_zero]

/-- The loop stops at a file that is no figure. -/
theorem prepareEntries_of_not_sized (h : ¬ ∀ p ∈ ps, p.Sized) :
    ∃ err, prepareEntries py i ps = .error err := by
  induction ps generalizing i with
  | nil => exact absurd (fun _ hp => absurd hp List.not_mem_nil) h
  | cons p ps ih =>
      rw [List.forall_mem_cons, not_and_or] at h
      unfold prepareEntries
      cases hread : p.bytes with
      | none => exact ⟨_, rfl⟩
      | some b =>
          have hcontents : p.contents = b := by rw [Dump.contents, hread]; rfl
          dsimp only
          split_ifs with hsize
          · exact ⟨_, rfl⟩
          · have hsized : p.Sized := ⟨by rw [hread, hcontents], hcontents ▸ not_not.mp hsize⟩
            obtain ⟨err, herr⟩ := @ih (i + 1) (h.resolve_left (not_not.mpr hsized))
            rw [herr]
            exact ⟨_, rfl⟩

/-- The new entry and its dump. -/
structure PreparedEntry (py : PreparePython) (i : ℕ) (e : LibraryEntry) (p : Dump) : Prop where
  source : e.source = relStr py.toPython p.rel
  figure : EntryMatches py.toPython i e p.contents
  ascii : AsciiText e.name
  fits : e.name.length ≤ 47
  /-- The name is the label, or its start and the index. -/
  name : e.name = prepareLabel py p.rel ∨
    e.name = (prepareLabel py p.rel).take 42 ++ ' ' :: pad3 i

/-- The upper-case label is ASCII and has no NUL. -/
theorem asciiUpper_ascii {label : Text} (h : Char.ofNat 0 ∉ label) :
    AsciiText (asciiUpper py.toPython label) := by
  intro c hc
  obtain ⟨d, hd, rfl⟩ := List.mem_map.mp hc
  obtain ⟨hd, hlt⟩ := List.mem_filter.mp hd
  refine toUpper_ascii (Nat.pos_of_ne_zero fun h0 => ?_) (of_decide_eq_true hlt)
  rw [← Char.ofNat_toNat d, h0] at hd
  exact py.nfkd_nul label h hd

/-- A label is ASCII and has at most 47 characters. -/
theorem prepareLabel_ascii (rel : RelPath) :
    AsciiText (prepareLabel py rel) ∧ (prepareLabel py rel).length ≤ 47 := by
  have hstem : Char.ofNat 0 ∉ stem rel.name := fun h =>
    (rel.component _ (List.getLast_mem rel.ne_nil)).2.2.2 (List.mem_of_mem_take h)
  refine ⟨(asciiUpper_ascii ?_).take 47, List.length_take_le _ _⟩
  have happend {t u : Text} (ht : Char.ofNat 0 ∉ t) (hu : Char.ofNat 0 ∉ u) :
      Char.ofNat 0 ∉ t ++ u := by
    rw [List.mem_append, not_or]
    exact ⟨ht, hu⟩
  have hgame : Char.ofNat 0 ∉ (if ['1', '.'].isPrefixOf (rel.parts.headD []) = true then
      "SSA".toList else "GIANTS".toList) := by
    split_ifs <;> decide
  generalize (if ['1', '.'].isPrefixOf (rel.parts.headD []) = true then "SSA".toList
    else "GIANTS".toList) = game at hgame ⊢
  have hlabel : Char.ofNat 0 ∉ game ++ ' ' :: stem rel.name := by
    refine happend hgame ?_
    rw [List.mem_cons, not_or]
    exact ⟨by decide, hstem⟩
  split_ifs
  · exact happend (happend hlabel (by decide)) (by decide)
  · exact happend hlabel (by decide)
  · exact happend hlabel (by decide)
  · exact hlabel

/-- The entries that `prepare` makes of the files, in the order of the loop. -/
def entriesOf (py : PreparePython) (ps : List Dump) : List LibraryEntry :=
  withIndices (ps.mapIdx fun k p => prepareEntry py k p.rel p.contents)

/-- There is an entry for each file. -/
theorem length_entriesOf : (entriesOf py ps).length = ps.length := by
  rw [entriesOf, withIndices, List.length_map, List.length_mapIdx]

/-- Every entry is that of its file. -/
theorem entriesOf_indexed (hps : ∀ p ∈ ps, p.Sized) (hlen : ps.length ≤ 256) :
    Indexed (PreparedEntry py) 0 (entriesOf py ps) ps := by
  refine ⟨length_entriesOf, fun k e p he hp => ?_⟩
  have hk : k < 256 := (List.getElem?_eq_some_iff.mp hp).1.trans_le hlen
  obtain ⟨hascii, hfits⟩ := @prepareLabel_ascii py p.rel
  have hsize := (hps p (List.mem_of_getElem? hp)).2
  rw [entriesOf, withIndices, List.getElem?_map, List.getElem?_mapIdx, hp, Option.map_some,
    Option.map_some, Option.some.injEq] at he
  rw [Nat.zero_add]
  split_ifs at he
  · subst he
    have hpad : AsciiText (pad3 k) := asciiText_pad3 (by omega)
    refine ⟨rfl, ⟨rfl, hsize, rfl, rfl⟩, ?_, ?_, Or.inr rfl⟩
    · exact (hascii.take 42).append (List.forall_mem_cons.mpr ⟨by decide, hpad⟩)
    · show ((prepareLabel py p.rel).take 42 ++ ' ' :: pad3 k).length ≤ 47
      rw [pad3_eq (by omega), List.length_append, List.length_take]
      simp only [List.length_cons, List.length_nil]
      omega
  · subst he
    exact ⟨rfl, ⟨rfl, hsize, rfl, rfl⟩, hascii, hfits, Or.inl rfl⟩

/-! ### The catalogue -/

section Catalogue

variable {es : List LibraryEntry} {e : LibraryEntry} {cat : Bytes 16416} {x : ℕ}

/-- The entries have their indices, and their names fit. -/
structure Recordable (es : List LibraryEntry) : Prop where
  count : es.length ≤ 256
  index : ∀ k (e : LibraryEntry), es[k]? = some e → e.index.toNat = k ∧ e.index = k
  fits : ∀ e ∈ es, (encode e.name).length ≤ 47

/-- The bytes of an entry. -/
def RecordPart (e : LibraryEntry) (x : ℕ) : Prop :=
  32 + e.index.toNat * 64 ≤ x ∧ x < 32 + e.index.toNat * 64 + 64

/-- An entry that is written leaves the bytes of the others. -/
theorem byte_putRecord_other (hfits : (encode e.name).length ≤ 47) (hx : ¬ RecordPart e x) :
    (putRecord cat e).byte x = cat.byte x := by
  unfold RecordPart at hx
  rw [not_and_or, not_le, not_lt] at hx
  unfold putRecord
  dsimp only
  rcases hx with hx | hx
  · rw [Bytes.byte_copy_of_lt _ _ (by omega), Bytes.byte_putBe32_of_lt _ _ (by omega),
      Bytes.byte_putBe32_of_lt _ _ (by omega)]
  · rw [Bytes.byte_copy_of_le _ _ (by omega), Bytes.byte_putBe32_of_le _ _ (by omega),
      Bytes.byte_putBe32_of_le _ _ (by omega)]

/-- Every entry is written inside its own bytes. -/
theorem Recordable.confined (h : Recordable es) : Parts.Confined RecordPart putRecord es where
  outside _ ha _ _ hx := byte_putRecord_other (h.fits _ ha) hx
  inside a _ p q hpq x hx := by
    unfold putRecord Bytes.putBe32
    dsimp only
    exact Parts.byte_copy_congr (Parts.byte_copy_congr (Parts.byte_copy_congr (hpq x hx)))

/-- The bytes of different entries are apart. -/
theorem Recordable.apart (h : Recordable es) : Parts.Apart RecordPart es := by
  refine List.pairwise_iff_getElem.mpr fun i j hi hj hij x hx hx' => ?_
  have hindex := (h.index i _ (List.getElem?_eq_getElem hi)).1
  have hindex' := (h.index j _ (List.getElem?_eq_getElem hj)).1
  unfold RecordPart at hx hx'
  omega

/-- What the catalogue has in the place of an entry. -/
theorem Recordable.byte_record (h : Recordable es) (he : es[k]? = some e) (hx : x < 64) :
    (preparedCatalog es).byte (32 + k * 64 + x) =
      (putRecord (.zero 16416) e).byte (32 + k * 64 + x) := by
  rw [preparedCatalog, Bytes.byte_putBe32_of_le _ _ (by omega),
    Bytes.byte_putBe32_of_le _ _ (by omega), Bytes.byte_putBe32_of_le _ _ (by omega)]
  have hindex := (h.index k e he).1
  refine Parts.byte_foldl_self h.confined h.apart (List.mem_of_getElem? he) ?_
  unfold RecordPart
  omega

/-- The index and the hash of an entry are where the plugin looks for them. -/
theorem Recordable.be32_record (h : Recordable es) (he : es[k]? = some e) :
    be32 (preparedCatalog es).byte (32 + k * 64) = BitVec.ofNat 32 k ∧
      be32 (preparedCatalog es).byte (32 + k * 64 + 4) = BitVec.ofInt 32 e.fnv := by
  obtain ⟨hnat, hindex⟩ := h.index k e he
  have hk : k < 256 := (List.getElem?_eq_some_iff.mp he).1.trans_le h.count
  constructor
  · rw [show be32 (preparedCatalog es).byte (32 + k * 64) =
      be32 (putRecord (.zero 16416) e).byte (32 + k * 64) from
        be32_congr fun j hj => h.byte_record he (by omega)]
    rw [putRecord, hnat, Bytes.be32_copy_of_disjoint _ _ (.inl (by omega)),
      Bytes.be32_putBe32_of_disjoint _ _ (.inl (by omega)), Bytes.be32_putBe32 _ _ (by omega),
      hindex,
      BitVec.ofInt_natCast]
  · rw [show be32 (preparedCatalog es).byte (32 + k * 64 + 4) =
      be32 (putRecord (.zero 16416) e).byte (32 + k * 64 + 4) from
        be32_congr fun j hj => by
          rw [Nat.add_assoc]
          exact h.byte_record he (by omega)]
    rw [putRecord, hnat, Bytes.be32_copy_of_disjoint _ _ (.inl (by omega)),
      Bytes.be32_putBe32 _ _ (by omega)]

/-- So is the name, with zeros after it. -/
theorem Recordable.byte_name (h : Recordable es) (he : es[k]? = some e) (hx : x < 56) :
    (preparedCatalog es).byte (32 + k * 64 + 8 + x) = (encode e.name).getD x 0 := by
  have hnat := (h.index k e he).1
  have hk : k < 256 := (List.getElem?_eq_some_iff.mp he).1.trans_le h.count
  rw [Nat.add_assoc _ 8, h.byte_record he (by omega), putRecord, hnat]
  rcases Nat.lt_or_ge x (encode e.name).length with hlen | hlen
  · rw [Bytes.byte_copy_of_mem _ _ (by omega) (by omega) (by omega)]
    congr 1
    omega
  · rw [Bytes.byte_copy_of_le _ _ (by omega), Bytes.byte_putBe32_of_le _ _ (by omega),
      Bytes.byte_putBe32_of_le _ _ (by omega), Bytes.byte_zero, List.getD_eq_getElem?_getD,
      List.getElem?_eq_none hlen, Option.getD_none]

/-- The header. -/
theorem be32_preparedCatalog (h : es.length ≤ 256) :
    be32 (preparedCatalog es).byte 0 = 0x45313143 ∧
      be32 (preparedCatalog es).byte 4 = BitVec.ofNat 32 es.length ∧
      be32 (preparedCatalog es).byte 8 =
        e11Hash (fun j => (preparedCatalog es).byte (32 + j)) (es.length * 64) := by
  refine ⟨?_, ?_, ?_⟩
  · rw [preparedCatalog, Bytes.be32_putBe32_of_disjoint _ _ (.inl (by omega)),
      Bytes.be32_putBe32_of_disjoint _ _ (.inl (by omega)), Bytes.be32_putBe32 _ _ (by omega)]
  · rw [preparedCatalog, Bytes.be32_putBe32_of_disjoint _ _ (.inl (by omega)),
      Bytes.be32_putBe32 _ _ (by omega)]
  · rw [preparedCatalog, Bytes.be32_putBe32 _ _ (by omega),
      fnv_slice (by rw [List.length_ofFn]; omega), BitVec.ofNat_toNat, BitVec.setWidth_eq]
    refine e11Hash_congr fun j hj => ?_
    rw [getD_ofFn, Bytes.byte_putBe32_of_le _ _ (by omega),
      Bytes.byte_putBe32_of_le _ _ (by omega), Bytes.byte_putBe32_of_le _ _ (by omega)]

/-- The plugin accepts the catalogue. -/
theorem Recordable.valid (h : Recordable es) (hne : 0 < es.length) :
    catalogValid (preparedCatalog es) := by
  have hcount := h.count
  obtain ⟨hmagic, hlength, hdigest⟩ := be32_preparedCatalog hcount
  have hlen : (BitVec.ofNat 32 es.length).toNat = es.length := toNat_ofNat_of_lt (by omega)
  have hcompact : catalogCompact 0x45313143 = 0 := by decide
  refine ⟨⟨?_, ?_, ?_, ?_⟩, fun i hi => ?_⟩
  · exact Or.inr hmagic
  · rw [hlength]
    intro hzero
    rw [hzero] at hlen
    exact absurd hlen (by simp; omega)
  · rw [hmagic, hlength, BitVec.le_def, hlen]
    exact hcount
  · rw [hmagic, hlength, hlen]
    exact hdigest
  · rw [hlength, hlen] at hi
    have he := List.getElem?_eq_getElem hi
    unfold catalogEntryValid
    dsimp only
    rw [hmagic, hcompact, show catalogStride 0 = 64 from rfl]
    refine ⟨Or.inr (h.be32_record he).1, ?_⟩
    have hbyte := h.byte_name he (show 55 < 56 by decide)
    rw [show 32 + i * 64 + 64 - 1 = 32 + i * 64 + 8 + 55 by omega, hbyte,
      List.getD_eq_getElem?_getD, List.getElem?_eq_none, Option.getD_none]
    exact (h.fits _ (List.getElem_mem hi)).trans (by decide)

end Catalogue

/-! ### The files -/

section Files

variable {es : List LibraryEntry} {contents : List (List U8)} {b : List U8} {name : Text}

/-- No figure file is called like the catalogue. -/
theorem figName_ne_catalogName : figName k ≠ catalogName := by
  intro hname
  have htake : (figName k).take 3 = "fig".toList := by
    rw [figName, List.append_assoc]
    exact List.take_left' (by decide)
  rw [hname] at htake
  exact absurd htake (by decide)

/-- The files of the new library. -/
theorem preparedLibrary_files : (preparedLibrary es contents).files =
    Function.update (writeFigures (fun _ => none) 0 contents) catalogName
      (some (List.ofFn (preparedCatalog es))) := rfl

/-- A figure file has the contents of its dump. -/
theorem preparedLibrary_figName (h : contents.length ≤ 256) (hb : contents[k]? = some b) :
    (preparedLibrary es contents).files (figName k) = some b := by
  have hfig := @writeFigures_figName (fun _ => none) 0 k b contents (by omega) hb
  rw [Nat.zero_add] at hfig
  rw [preparedLibrary_files, Function.update_of_ne figName_ne_catalogName, hfig]

/-- The catalogue of the new library. -/
theorem preparedLibrary_catalog : (preparedLibrary es contents).files catalogName =
    some (List.ofFn (preparedCatalog es)) := by
  rw [preparedLibrary_files, Function.update_self]

/-- A new library has no journals. -/
theorem preparedLibrary_journal (h : suffix name = ".sav0".toList ∨ suffix name = ".sav1".toList) :
    (preparedLibrary es contents).files name = none := by
  have hcat : name ≠ catalogName := by
    rintro rfl
    exact absurd h (by decide)
  rw [preparedLibrary_files, Function.update_of_ne hcat]
  refine writeFigures_of_ne fun j _ _ hname => ?_
  rw [hname, suffix_figName] at h
  exact absurd h (by decide)

end Files

/-! ### What is accepted -/

/-- A source that `prepare` accepts. -/
structure Figures (source : List Dump) : Prop where
  nonempty : 0 < source.length
  count : source.length ≤ 256
  sized : ∀ p ∈ source, p.Sized

/-- The library made of the files, in the order of the loop. -/
def libraryOf (py : PreparePython) (ps : List Dump) : Library :=
  preparedLibrary (entriesOf py ps) (ps.map Dump.contents)

section Files

variable (hps : ∀ p ∈ ps, p.Sized) (hlen : ps.length ≤ 256)

include hps hlen

/-- A figure file has the bytes of its dump. -/
theorem libraryOf_figName (hp : ps[k]? = some p) :
    (libraryOf py ps).files (figName k) = p.bytes := by
  have hcontents : (ps.map Dump.contents)[k]? = some p.contents := by
    rw [List.getElem?_map, hp]
    rfl
  rw [(hps p (List.mem_of_getElem? hp)).1]
  exact preparedLibrary_figName (by rwa [List.length_map]) hcontents

/-- The assertion at the end holds. -/
theorem libraryOf_verified : ∀ e ∈ entriesOf py ps, Verified py (libraryOf py ps) e := by
  intro e he
  obtain ⟨k, he⟩ := List.getElem?_of_mem he
  obtain ⟨p, hp, hentry⟩ := (entriesOf_indexed hps hlen).exists_right he
  obtain ⟨hindex, -, hsha, -⟩ := hentry.figure
  have hnat : e.index.toNat = k := by omega
  unfold Verified
  rw [hnat, libraryOf_figName hps hlen hp, (hps p (List.mem_of_getElem? hp)).1, Option.map_some,
    hsha]

/-- The entries of the files can be recorded. -/
theorem recordable_entriesOf : Recordable (entriesOf py ps) where
  count := length_entriesOf.trans_le hlen
  index k e he := by
    obtain ⟨p, -, hentry⟩ := (entriesOf_indexed hps hlen).exists_right he
    have hindex := hentry.figure.1
    omega
  fits e he := by
    obtain ⟨k, he⟩ := List.getElem?_of_mem he
    obtain ⟨p, -, hentry⟩ := (entriesOf_indexed hps hlen).exists_right he
    rw [hentry.ascii.length_encode]
    exact hentry.fits

end Files

/-- An accepted source gives the library of its files. -/
theorem Figures.prepare (h : Figures source) :
    VirtualPortal.prepare py source none = (.ok (entriesOf py (prepareOrder py source)),
      some (libraryOf py (prepareOrder py source))) := by
  have hsized : ∀ p ∈ prepareOrder py source, p.Sized := fun p hp =>
    h.sized p (prepareOrder_perm.mem_iff.mp hp)
  have hlen : (prepareOrder py source).length ≤ 256 := prepareOrder_perm.length_eq.trans_le h.count
  have hverified := @libraryOf_verified py _ hsized hlen
  unfold VirtualPortal.prepare prepared
  rw [if_neg (not_not.mpr ⟨h.nonempty, h.count⟩), prepareEntries_of_sized hsized]
  simp only [Nat.zero_add, Option.isSome_none, Bool.false_eq_true, if_false]
  exact if_pos hverified

/-- Any other call writes nothing. -/
theorem prepare_refused {dest : Option Library} (h : ¬ (dest = none ∧ Figures source)) :
    ∃ err, prepare py source dest = (.error err, dest) := by
  unfold prepare prepared
  by_cases hcount : 0 < source.length ∧ source.length ≤ 256
  · rw [if_neg (not_not.mpr hcount)]
    by_cases hsized : ∀ p ∈ source, p.Sized
    · have hdest : dest.isSome = true := by
        by_contra hnone
        exact h ⟨by simpa using hnone, ⟨hcount.1, hcount.2, hsized⟩⟩
      have hsorted : ∀ p ∈ prepareOrder py source, p.Sized := fun p hp =>
        hsized p (prepareOrder_perm.mem_iff.mp hp)
      rw [prepareEntries_of_sized hsorted]
      simp only [hdest, if_true]
      exact ⟨_, rfl⟩
    · have hsorted : ¬ ∀ p ∈ prepareOrder py source, p.Sized := fun hall =>
        hsized fun p hp => hall p (prepareOrder_perm.mem_iff.mpr hp)
      obtain ⟨err, herr⟩ := @prepareEntries_of_not_sized py _ 0 hsorted
      rw [herr]
      exact ⟨_, rfl⟩
  · rw [if_pos hcount]
    exact ⟨_, rfl⟩

/-! ### The names -/

/-- The label of one file alone is what the label of several becomes with its index. -/
def Clashes (py : PreparePython) (ps : List Dump) : Prop :=
  ∃ (i j : ℕ) (p q : Dump), ps[i]? = some p ∧ ps[j]? = some q ∧
    1 < (ps.map fun p => prepareLabel py p.rel).count (prepareLabel py p.rel) ∧
    (ps.map fun p => prepareLabel py p.rel).count (prepareLabel py q.rel) = 1 ∧
    prepareLabel py q.rel = (prepareLabel py p.rel).take 42 ++ ' ' :: pad3 i

/-- A name is the label, or its start and the index where several have the label. -/
theorem getElem?_names : ((entriesOf py ps).map LibraryEntry.name)[k]? = ps[k]?.map fun p =>
    if 1 < (ps.map fun p => prepareLabel py p.rel).count (prepareLabel py p.rel) then
      (prepareLabel py p.rel).take 42 ++ ' ' :: pad3 k
    else prepareLabel py p.rel := by
  have hlabels : (ps.mapIdx fun k p => prepareEntry py k p.rel p.contents).map LibraryEntry.name =
      ps.map fun p => prepareLabel py p.rel := by
    refine List.ext_getElem? fun k => ?_
    rw [List.getElem?_map, List.getElem?_mapIdx, List.getElem?_map, Option.map_map]
    rfl
  rw [List.getElem?_map, entriesOf, withIndices, List.getElem?_map, List.getElem?_mapIdx, hlabels,
    Option.map_map, Option.map_map]
  congr 1
  funext p
  dsimp only [Function.comp_apply]
  split_ifs with h h' h'
  · rfl
  · exact absurd h h'
  · exact absurd h' h
  · rfl

/-- A label at two places is there more than once. -/
theorem one_lt_count {l : List Text} {t : Text} {i j : ℕ} (hij : i < j) (hi : l[i]? = some t)
    (hj : l[j]? = some t) : 1 < l.count t := by
  have htake : 0 < (l.take j).count t :=
    List.count_pos_iff.mpr <| List.mem_of_getElem? (i := i) <| by
    rw [List.getElem?_take_of_lt hij, hi]
  have hdrop : 0 < (l.drop j).count t :=
    List.count_pos_iff.mpr <| List.mem_of_getElem? (i := 0) <| by
    rw [List.getElem?_drop, Nat.add_zero, hj]
  rw [← List.take_append_drop j l, List.count_append]
  omega

/-- The names are all different unless there is a clash. -/
theorem names_nodup_iff (hlen : ps.length ≤ 256) :
    ((entriesOf py ps).map LibraryEntry.name).Nodup ↔ ¬ Clashes py ps := by
  have hlength : ((entriesOf py ps).map LibraryEntry.name).length = ps.length := by
    rw [List.length_map, length_entriesOf]
  constructor
  · rintro hnodup ⟨i, j, p, q, hi, hj, hp, hq, heq⟩
    have hi' : i < ps.length := (List.getElem?_eq_some_iff.mp hi).1
    have hj' : j < ps.length := (List.getElem?_eq_some_iff.mp hj).1
    have hsame : ((entriesOf py ps).map LibraryEntry.name)[i]? =
        ((entriesOf py ps).map LibraryEntry.name)[j]? := by
      rw [getElem?_names, getElem?_names, hi, hj, Option.map_some, Option.map_some, if_pos hp,
        if_neg (by omega), heq]
    have hij : i = j := (List.getElem?_inj (by omega) hnodup).mp hsame
    subst hij
    obtain rfl : p = q := Option.some.inj (hi.symm.trans hj)
    omega
  · intro hclash
    refine List.nodup_iff_getElem?_ne_getElem?.mpr fun i j hij hj hsame => ?_
    rw [hlength] at hj
    obtain ⟨p, hp⟩ : ∃ p, ps[i]? = some p := ⟨_, List.getElem?_eq_getElem (hij.trans hj)⟩
    obtain ⟨q, hq⟩ : ∃ q, ps[j]? = some q := ⟨_, List.getElem?_eq_getElem hj⟩
    have hone {k : ℕ} {r : Dump} (hr : ps[k]? = some r)
        (hcount : ¬ 1 < (ps.map fun p => prepareLabel py p.rel).count (prepareLabel py r.rel)) :
        (ps.map fun p => prepareLabel py p.rel).count (prepareLabel py r.rel) = 1 := by
      have hmem := List.mem_map_of_mem (f := fun p => prepareLabel py p.rel)
        (List.mem_of_getElem? hr)
      have hpos := List.count_pos_iff.mpr hmem
      omega
    rw [getElem?_names, getElem?_names, hp, hq, Option.map_some, Option.map_some,
      Option.some.injEq] at hsame
    split_ifs at hsame with h h' h'
    · -- the names end in different indices
      have hpad {k : ℕ} (hk : k < 256) : (' ' :: pad3 k).length = 4 := by
        rw [pad3_eq (by omega)]
        rfl
      have hindices := (List.append_inj' hsame ((hpad (by omega)).trans (hpad (by omega)).symm)).2
      have heq := pad3_inj (by omega) (by omega) (List.cons.inj hindices).2
      omega
    · exact hclash ⟨i, j, p, q, hp, hq, h, hone hq h', hsame.symm⟩
    · exact hclash ⟨j, i, q, p, hq, hp, h', hone hp h, hsame⟩
    · refine h (one_lt_count hij ?_ ?_)
      · rw [List.getElem?_map, hp]
        rfl
      · rw [List.getElem?_map, hq, hsame]
        rfl

/-! ### The card -/

/-- What the plugin finds of an entry and its file on a card. -/
structure Stored (d : Disk) (i : ℕ) (e : LibraryEntry) (p : Dump) : Prop where
  /-- Loading the figure gives the file. -/
  load : ∀ job check sequence,
    (e11Load d (BitVec.ofNat 32 i) (catalogSource d (BitVec.ofNat 32 i)) .ok job check
        sequence).result = 0 ∧
      p.bytes = some (List.ofFn (journalBody (e11Load d (BitVec.ofNat 32 i)
        (catalogSource d (BitVec.ofNat 32 i)) .ok job check sequence).job))
  /-- There are no journals of the figure. -/
  journals : ∀ side, d (e11Name (BitVec.ofNat 32 i) (some side)) = none
  fits : (encode e.name).length ≤ 47
  /-- The label is the whole name, padded with zeros. -/
  label : ∀ {n : ℕ} (dst : Bytes n) (off x : ℕ), off + 47 ≤ n → x < 47 →
    (e11Label dst off (catalogFile d) 0 (BitVec.ofNat 32 i)).byte (off + x) =
      (encode e.name).getD x 0

/-- A card with the new library on it. -/
structure NewCard (py : PreparePython) (source : List Dump) (entries : List LibraryEntry)
    (lib : Library) (files : List Dump) : Prop where
  /-- The files are those of the source, a default one first. -/
  perm : files.Perm source
  default : ∀ q ∈ source, isDefault py q = true → ∀ p, files[0]? = some p → isDefault py p = true
  /-- The plugin accepts the catalogue. -/
  catalog : ∀ catalog compact, e11CatalogLoad (deploy lib) .ok catalog compact =
    ⟨0, catalogFile (deploy lib), 0⟩
  count : be32 (catalogFile (deploy lib)).byte 4 = BitVec.ofNat 32 files.length
  stored : Indexed (fun i e p => e.source = relStr py.toPython p.rel ∧ Stored (deploy lib) i e p) 0
    entries files
  names : (entries.map LibraryEntry.name).Nodup ↔ ¬ Clashes py files

section Card

variable {e : LibraryEntry}

/-- The catalogue that the plugin finds is the one written. -/
theorem catalogFile_libraryOf :
    catalogFile (deploy (libraryOf py ps)) = preparedCatalog (entriesOf py ps) := by
  rw [catalogFile_deploy
    (show (libraryOf py ps).files catalogName = _ from preparedLibrary_catalog)]
  funext x
  rw [getD_ofFn, Bytes.byte_val]

variable (hlen : ps.length ≤ 256)

include hlen

/-- An id of the library is one of the plugin. -/
theorem libraryOf_id (hp : ps[k]? = some p) :
    (BitVec.ofNat 32 k).toNat = k ∧ BitVec.ofNat 32 k < e11Max := by
  have hk : k < 256 := (List.getElem?_eq_some_iff.mp hp).1.trans_le hlen
  have hid : (BitVec.ofNat 32 k).toNat = k := toNat_ofNat_of_lt (by omega)
  refine ⟨hid, ?_⟩
  rw [BitVec.lt_def, hid]
  exact hk.trans (by decide)

/-- No file of the new library has a journal. -/
theorem libraryOf_journals (hp : ps[k]? = some p) (side : Bool) :
    deploy (libraryOf py ps) (e11Name (BitVec.ofNat 32 k) (some side)) = none := by
  obtain ⟨hid, hmax⟩ := libraryOf_id hlen hp
  rw [deploy_e11Name _ hmax, hid]
  exact preparedLibrary_journal (suffix_journal k side)

variable (hps : ∀ p ∈ ps, p.Sized)

include hps

/-- The plugin accepts the catalogue. -/
theorem libraryOf_load (hne : 0 < ps.length) (catalog : Bytes 16416) (compact : U32) :
    e11CatalogLoad (deploy (libraryOf py ps)) .ok catalog compact =
      ⟨0, catalogFile (deploy (libraryOf py ps)), 0⟩ := by
  have hrecordable := @recordable_entriesOf py _ hps hlen
  have hcard : CatalogOnCard (deploy (libraryOf py ps)) := by
    refine ⟨⟨_, (deploy_catalogPath _).trans preparedLibrary_catalog, ?_⟩, ?_⟩
    · rw [List.length_ofFn]
    · rw [catalogFile_libraryOf]
      exact hrecordable.valid (length_entriesOf.symm ▸ hne)
  rw [hcard.load, catalogFile_libraryOf, (be32_preparedCatalog hrecordable.count).1]
  rfl

/-- The catalogue is one of 64-byte entries. -/
theorem libraryOf_compact :
    catalogCompact (be32 (catalogFile (deploy (libraryOf py ps))).byte 0) = 0 := by
  rw [catalogFile_libraryOf, (be32_preparedCatalog (@recordable_entriesOf py _ hps hlen).count).1]
  rfl

/-- The hash in the catalogue is the one of the file. -/
theorem libraryOf_source (he : (entriesOf py ps)[k]? = some e) (hp : ps[k]? = some p) :
    catalogSource (deploy (libraryOf py ps)) (BitVec.ofNat 32 k) =
      e11Hash (p.contents.getD · 0) 1024 := by
  have hrecordable := @recordable_entriesOf py _ hps hlen
  obtain ⟨-, hsize, -, hfnv⟩ := ((entriesOf_indexed hps hlen).rel k e p he hp).figure
  rw [catalogSource, libraryOf_compact hlen hps, catalogFile_libraryOf, e11SourceHash,
    (libraryOf_id hlen hp).1, show catalogStride 0 = 64 from rfl, if_neg (by decide),
    (hrecordable.be32_record he).2, ← hfnv, BitVec.ofInt_natCast, fnv_eq_e11Hash, hsize,
    BitVec.ofNat_toNat, BitVec.setWidth_eq]

/-- The file is there, and is the figure that the catalogue lists. -/
theorem libraryOf_intact (he : (entriesOf py ps)[k]? = some e) (hp : ps[k]? = some p) :
    FigIntact (deploy (libraryOf py ps)) (BitVec.ofNat 32 k)
      (catalogSource (deploy (libraryOf py ps)) (BitVec.ofNat 32 k))
      (fun x => p.contents.getD x.val 0) := by
  obtain ⟨hread, hsize⟩ := hps p (List.mem_of_getElem? hp)
  obtain ⟨hid, hmax⟩ := libraryOf_id hlen hp
  refine ⟨⟨p.contents, ?_, hsize.ge, rfl⟩, ?_⟩
  · rw [deploy_e11Name _ hmax, hid, ← hread]
    exact libraryOf_figName hps hlen hp
  · rw [libraryOf_source hlen hps he hp]
    refine e11Hash_congr fun x hx => ?_
    rw [Bytes.byte_of_lt _ hx]

/-- Each file of the new library, seen by the plugin. -/
theorem libraryOf_stored (he : (entriesOf py ps)[k]? = some e) (hp : ps[k]? = some p) :
    Stored (deploy (libraryOf py ps)) k e p := by
  have hrecordable := @recordable_entriesOf py _ hps hlen
  have hnone := @libraryOf_journals py _ _ _ hlen hp
  obtain ⟨hread, hsize⟩ := hps p (List.mem_of_getElem? hp)
  refine ⟨fun job check sequence => ?_, hnone, hrecordable.fits e (List.mem_of_getElem? he),
    fun dst off x hoff hx => ?_⟩
  · have hload := e11Load_ok (libraryOf_intact hlen hps he hp) job check sequence
    rw [recover_of_empty hnone] at hload
    obtain ⟨hresult, -, hbody⟩ := hload
    refine ⟨hresult, ?_⟩
    rw [hbody, hread, Option.some.injEq]
    refine List.ext_getElem (by rw [List.length_ofFn, hsize]) fun x hx _ => ?_
    rw [List.getElem_ofFn, List.getD_eq_getElem?_getD, List.getElem?_eq_getElem hx,
      Option.getD_some]
  · have hlabel : (if (0 : U32) = 2 then 19 else if (0 : U32) ≠ 0 then 27 else 47) = 47 := by
      decide
    rw [e11Label, Bytes.byte_copy_of_mem _ _ (by omega) (by omega) (by omega),
      (libraryOf_id hlen hp).1, show catalogStride 0 = 64 from rfl, if_neg (by decide),
      Nat.add_sub_cancel_left, catalogFile_libraryOf, hrecordable.byte_name he (by omega)]

end Card

/-- **A new library is a card for the plugin.**  `prepare` takes just the sources of 1 to
256 figures, and only into a new directory: otherwise it writes nothing.  On a card with
the library the plugin accepts the catalogue, finds no journals, loads every file of the
source as it is and shows the whole name of its entry, at most 47 bytes; figure 0 is a
`Dark Spyro` if there is one; and the names are all different but for one kind of clash. -/
theorem prepare_card (py : PreparePython) (source : List Dump) (dest : Option Library) :
    (dest = none ∧ Figures source → ∃ entries lib files,
        prepare py source dest = (.ok entries, some lib) ∧ NewCard py source entries lib files) ∧
      (¬ (dest = none ∧ Figures source) → ∃ err, prepare py source dest = (.error err, dest)) := by
  refine ⟨?_, prepare_refused⟩
  rintro ⟨rfl, h⟩
  have hsized : ∀ p ∈ prepareOrder py source, p.Sized := fun p hp =>
    h.sized p (prepareOrder_perm.mem_iff.mp hp)
  have hlength : (prepareOrder py source).length = source.length := prepareOrder_perm.length_eq
  have hlen : (prepareOrder py source).length ≤ 256 := hlength.trans_le h.count
  have hrecordable := @recordable_entriesOf py _ hsized hlen
  refine ⟨_, _, prepareOrder py source, h.prepare,
    { perm := prepareOrder_perm
      default := fun q hq hdefault p hp => prepareOrder_default hq hdefault hp
      catalog := libraryOf_load hlen hsized (hlength.symm ▸ h.nonempty)
      count := ?_
      stored := ⟨length_entriesOf, fun k e p he hp => ?_⟩
      names := names_nodup_iff hlen }⟩
  · rw [catalogFile_libraryOf, (be32_preparedCatalog hrecordable.count).2.1, length_entriesOf]
  · have hentry := (entriesOf_indexed hsized hlen).rel k e p he hp
    rw [Nat.zero_add] at hentry ⊢
    exact ⟨hentry.source, libraryOf_stored hlen hsized he hp⟩

/-! ### Extending a new library -/

section Extending

variable {entries : List LibraryEntry} {dest : Option Library} {lib : Library}

/-- A library that `prepare` has returned. -/
theorem prepare_eq_ok (h : prepare py source dest = (.ok entries, some lib)) :
    Figures source ∧ entries = entriesOf py (prepareOrder py source) ∧
      lib = libraryOf py (prepareOrder py source) := by
  by_cases hok : dest = none ∧ Figures source
  · obtain ⟨rfl, hfigures⟩ := hok
    rw [hfigures.prepare] at h
    obtain ⟨hentries, hlib⟩ := Prod.mk.inj h
    exact ⟨hfigures, (Except.ok.inj hentries).symm, (Option.some.inj hlib).symm⟩
  · obtain ⟨err, herr⟩ := @prepare_refused py _ _ hok
    rw [herr] at h
    cases congrArg Prod.fst h

section Files

variable (hps : ∀ p ∈ ps, p.Sized) (hlen : ps.length ≤ 256)

include hps hlen

/-- The catalogue passes the checks of `extend`. -/
theorem checkCatalog_entriesOf :
    checkCatalog (List.ofFn (preparedCatalog (entriesOf py ps))) (entriesOf py ps).length =
      .ok 64 := by
  have hcount := (@recordable_entriesOf py _ hps hlen).count
  obtain ⟨hmagic, hlength, hdigest⟩ := be32_preparedCatalog hcount
  have hget : ((List.ofFn (preparedCatalog (entriesOf py ps))).getD · 0) =
      (preparedCatalog (entriesOf py ps)).byte := funext (getD_ofFn _)
  have hnat : (BitVec.ofNat 32 (entriesOf py ps).length).toNat = (entriesOf py ps).length :=
    toNat_ofNat_of_lt (by omega)
  have hfnv : fnv (((List.ofFn (preparedCatalog (entriesOf py ps))).drop 32).take
      ((entriesOf py ps).length * 64)) =
        (be32 (preparedCatalog (entriesOf py ps)).byte 8).toNat := by
    rw [fnv_slice (by rw [List.length_ofFn]; omega), hdigest]
    simp only [getD_ofFn]
  have hstride : magicStride 0x45313143 = 64 := by decide
  rw [checkCatalog, List.length_ofFn, if_neg (by omega)]
  simp only [hget, hmagic, hlength, hnat, hstride, hfnv]
  exact if_neg (by simp [strideLimit, hcount])

/-- So do the figures. -/
theorem figureAt_entriesOf :
    Indexed (FigureAt py.toPython (libraryOf py ps)
      (List.ofFn (preparedCatalog (entriesOf py ps))) 64) 0 (entriesOf py ps)
      (ps.map Dump.contents) := by
  refine ⟨by rw [length_entriesOf, List.length_map], fun k e b he hb => ?_⟩
  rw [List.getElem?_map] at hb
  obtain ⟨p, hp, rfl⟩ := Option.map_eq_some_iff.mp hb
  have hentry := ((entriesOf_indexed hps hlen).rel k e p he hp).figure
  have hlt : fnv p.contents < 2 ^ 32 := fnv_eq_e11Hash p.contents ▸ BitVec.isLt _
  rw [Nat.zero_add] at hentry ⊢
  refine ⟨?_, hentry, ?_⟩
  · rw [libraryOf_figName hps hlen hp, (hps p (List.mem_of_getElem? hp)).1]
  · have hget : ((List.ofFn (preparedCatalog (entriesOf py ps))).getD · 0) =
        (preparedCatalog (entriesOf py ps)).byte := funext (getD_ofFn _)
    rw [hget, if_pos rfl, ((recordable_entriesOf hps hlen).be32_record he).2, ← hentry.2.2.2,
      BitVec.ofInt_natCast, toNat_ofNat_of_lt hlt]

/-- The path of a plain file is listed, and each entry with it is of a file with it. -/
theorem listed_entriesOf (hplain : ∀ p ∈ ps, p.rel.Plain) (hp : p ∈ ps) :
    ∃ q ∈ ps, relKey py.toPython q.rel = relKey py.toPython p.rel ∧
      listedSha py.toPython (entriesOf py ps) (relKey py.toPython p.rel) =
        some (py.sha256 q.contents) := by
  have hindexed := @entriesOf_indexed py _ hps hlen
  have hkey {k : ℕ} {e : LibraryEntry} {q : Dump} (he : (entriesOf py ps)[k]? = some e)
      (hq : ps[k]? = some q) : listedKey py.toPython e = relKey py.toPython q.rel := by
    have hsource := (hindexed.rel k e q he hq).source
    rw [listedKey, hsource]
    exact congrArg py.casefold
      (RelPath.windowsAsPosix_join py.sep_eq (hplain q (List.mem_of_getElem? hq)))
  obtain ⟨k, hk⟩ := List.getElem?_of_mem hp
  have hke : k < (entriesOf py ps).length :=
    length_entriesOf.symm ▸ (List.getElem?_eq_some_iff.mp hk).1
  have hfound := hkey (List.getElem?_eq_getElem hke) hk
  unfold listedSha
  cases hfind : (entriesOf py ps).find? fun e =>
    listedKey py.toPython e = relKey py.toPython p.rel with
  | none =>
      have hnone := List.find?_eq_none.mp hfind _ (List.getElem_mem hke)
      exact absurd (decide_eq_true hfound) hnone
  | some e =>
      obtain ⟨j, hj⟩ := List.getElem?_of_mem (List.mem_of_find?_eq_some hfind)
      obtain ⟨q, hq, hentry⟩ := hindexed.exists_right hj
      refine ⟨q, List.mem_of_getElem? hq, ?_, ?_⟩
      · rw [← hkey hj hq]
        simpa using List.find?_some hfind
      · rw [Option.map_some, hentry.figure.2.2.1]

end Files

/-- A listed path is one of the paths. -/
theorem mem_of_listedSha {py : Python} {es : List LibraryEntry} {key sha : Text}
    (h : listedSha py es key = some sha) : key ∈ es.map (listedKey py) := by
  obtain ⟨e, he, -⟩ := Option.map_eq_some_iff.mp h
  have hkey : listedKey py e = key := by simpa using List.find?_some he
  exact List.mem_map.mpr ⟨e, List.mem_of_find?_eq_some he, hkey⟩

/-- `extend` finds nothing new in a source whose paths are listed. -/
theorem merge_listed {py : Python} {m m' : Merge} {ps : List Dump}
    (h : ps.foldlM (mergeDump py) m = .ok m') (hlisted : ∀ p ∈ ps, relKey py p.rel ∈ m.paths) :
    m' = m := by
  obtain ⟨added, hadded⟩ := foldlM_mergeDump h
  have hnil : added = [] := List.eq_nil_iff_forall_not_mem.mpr fun p hp =>
    hadded.fresh p hp (hlisted p (hadded.sublist.subset hp))
  have hentries := hadded.entries
  have hpaths := hadded.paths
  have hdata := hadded.data
  rw [hnil] at hentries hpaths hdata
  cases m with
  | mk entries paths data =>
      cases m' with
      | mk entries' paths' data' =>
          simp only [newEntries, List.map_nil, List.append_nil] at hentries hpaths hdata
          rw [hentries, hpaths, hdata]

/-- **A new library can be extended.**  By the files that it was made of `extend` changes
nothing but the labels, and it takes them just if files whose paths it cannot tell apart
have the same digest and the short labels are all different. -/
theorem prepare_extend_iff (h : prepare py source dest = (.ok entries, some lib))
    (hplain : ∀ p ∈ source, p.rel.Plain) :
    ((∃ entries' lib', extend py.toPython source lib none = (.ok entries', some lib')) ↔
      (∀ p ∈ source, ∀ q ∈ source, relKey py.toPython p.rel = relKey py.toPython q.rel →
          py.sha256 p.contents = py.sha256 q.contents) ∧
        ((withDisplayNames entries).map LibraryEntry.displayName).Nodup) ∧
    ∀ entries' lib', extend py.toPython source lib none = (.ok entries', some lib') →
      entries' = withDisplayNames entries ∧ ∀ i < entries.length,
        lib'.files (figName i) = lib.files (figName i) := by
  obtain ⟨hfigures, rfl, rfl⟩ := prepare_eq_ok h
  have hmem {p : Dump} : p ∈ prepareOrder py source ↔ p ∈ source := prepareOrder_perm.mem_iff
  have hsized : ∀ p ∈ prepareOrder py source, p.Sized := fun p hp => hfigures.sized p (hmem.mp hp)
  have hlen : (prepareOrder py source).length ≤ 256 :=
    prepareOrder_perm.length_eq.trans_le hfigures.count
  have hcheck := @checkCatalog_entriesOf py _ hsized hlen
  have hfig := @figureAt_entriesOf py _ hsized hlen
  have hlisted (p : Dump) (hp : p ∈ source) := @listed_entriesOf py _ p hsized hlen
    (fun q hq => hplain q (hmem.mp hq)) (hmem.mpr hp)
  -- the paths of the source are listed, so the merge leaves the library
  have hmerge {m : Merge} {data : List (List U8)}
      (hm : (sortedDumps py.toPython source).foldlM (mergeDump py.toPython)
        ⟨entriesOf py (prepareOrder py source),
          (entriesOf py (prepareOrder py source)).map (listedKey py.toPython), data⟩ = .ok m) :
      m = ⟨entriesOf py (prepareOrder py source),
          (entriesOf py (prepareOrder py source)).map (listedKey py.toPython), data⟩ :=
    merge_listed hm fun p hp => by
      obtain ⟨q, -, -, hsha⟩ := hlisted p (List.mem_mergeSort.mp hp)
      exact mem_of_listedSha hsha
  refine ⟨⟨?_, ?_⟩, ?_⟩
  · rintro ⟨entries', lib', hextend⟩
    obtain ⟨-, data, hmerged, -⟩ := extend_eq_ok.mp hextend
    obtain ⟨old, cat, stride, oldData, m, hjson, -, -, -, hm, -, hnodup, -, -⟩ :=
      merged_eq_ok.mp hmerged
    obtain rfl : entriesOf py (prepareOrder py source) = old := Option.some.inj hjson
    have hsettled := settled_of_merge hm (fun p hp => hplain p (List.mem_mergeSort.mp hp)) rfl
    rw [hmerge hm] at hnodup hsettled
    refine ⟨fun p hp q hq hkey => ?_, hnodup⟩
    have hp' := (hsettled p (List.mem_mergeSort.mpr hp)).listed
    have hq' := (hsettled q (List.mem_mergeSort.mpr hq)).listed
    rw [hkey] at hp'
    exact Option.some.inj (hp'.symm.trans hq')
  · rintro ⟨hsame, hnodup⟩
    have hsettled : ∀ p ∈ sortedDumps py.toPython source,
        Settled py.toPython (entriesOf py (prepareOrder py source)) p := by
      intro p hp
      have hp' := List.mem_mergeSort.mp hp
      obtain ⟨q, hq, hkey, hsha⟩ := hlisted p hp'
      obtain ⟨hread, hsize⟩ := hfigures.sized p hp'
      exact ⟨hread, hsize, by rw [hsha, hsame q (hmem.mp hq) p hp' hkey]⟩
    refine ⟨_, _, extend_eq_ok.mpr ⟨rfl, _, merged_eq_ok.mpr ⟨_, _, 64, _, _, rfl,
      preparedLibrary_catalog, hcheck, hfig, foldlM_settled hsettled rfl, ?_, hnodup, rfl, rfl⟩,
      rfl⟩⟩
    exact (length_entriesOf.trans_le hlen).trans (by decide)
  · intro entries' lib' hextend
    obtain ⟨-, data, hmerged, rfl⟩ := extend_eq_ok.mp hextend
    obtain ⟨old, cat, stride, oldData, m, hjson, hcat, -, hold, hm, hcount, -, rfl, rfl⟩ :=
      merged_eq_ok.mp hmerged
    obtain rfl : entriesOf py (prepareOrder py source) = old := Option.some.inj hjson
    rw [hmerge hm] at hcount ⊢
    refine ⟨rfl, fun i hi => ?_⟩
    obtain ⟨b, hb, hfile⟩ := hold.exists_right (List.getElem?_eq_getElem hi)
    rw [Nat.zero_add] at hfile
    rw [hfile.file]
    exact writeLibrary_figName (hold.length ▸ hcount) hb

/-- Python for ASCII, as far as `prepare` goes. -/
def asciiPrepare : PreparePython :=
  { asciiPython with
    lower := List.map Char.toLower, isDigit := Char.isDigit, isSpace := Char.isWhitespace }

/-- Two files with the same long label, in the order of their paths. -/
def legendaryDumps : List Dump := [coreDump, legendaryDump]

/-- Both files can be read, and their paths are plain. -/
theorem mem_legendaryDumps (hp : p ∈ legendaryDumps) : p.Sized ∧ p.rel.Plain := by
  rcases List.mem_pair.mp hp with rfl | rfl
  · exact ⟨⟨rfl, length_blankFigure⟩, by decide, fun c => by simp [coreDump]⟩
  · exact ⟨⟨rfl, length_blankFigure⟩, by decide, fun c => by simp [legendaryDump]⟩

/-- `prepare` accepts the two files. -/
theorem figures_legendaryDumps : Figures legendaryDumps where
  nonempty := by decide
  count := by decide
  sized _ hp := (mem_legendaryDumps hp).1

/-- The two files are in the order of the loop. -/
theorem prepareOrder_legendaryDumps : prepareOrder asciiPrepare legendaryDumps = legendaryDumps :=
  List.mergeSort_of_pairwise (by decide)

/-- The library made of the two files has their label with the indices, and it is extended
by them: the display names are the start of the label and the indices. -/
theorem prepare_extend_iff_legendaryDumps :
    (entriesOf asciiPrepare legendaryDumps).map LibraryEntry.name =
        ["SSA LEGENDARY TRIGGER HAPPY 000".toList, "SSA LEGENDARY TRIGGER HAPPY 001".toList] ∧
      ∃ entries' lib', extend asciiPython legendaryDumps
        (libraryOf asciiPrepare legendaryDumps) none =
          (.ok entries', some lib') ∧
        entries'.map LibraryEntry.displayName =
          [some "SSA LEGENDARY T 000".toList, some "SSA LEGENDARY T 001".toList] := by
  have hprepare := @Figures.prepare asciiPrepare _ figures_legendaryDumps
  rw [prepareOrder_legendaryDumps] at hprepare
  obtain ⟨hiff, hresult⟩ :=
    prepare_extend_iff hprepare fun p hp => (mem_legendaryDumps hp).2
  obtain ⟨entries', lib', hextend⟩ := hiff.mpr ⟨fun _ _ _ _ _ => rfl, by decide⟩
  obtain ⟨rfl, -⟩ := hresult entries' lib' hextend
  exact ⟨by decide, _, lib', hextend, by decide⟩

end Extending

end VirtualPortal
