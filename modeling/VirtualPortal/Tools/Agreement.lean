/-
# The tool and the plugin agree

Old names in ASCII stay, and new ones are ASCII whatever the files are called
(`dumpName_ascii`); shortened to 19 characters, or to 15 and the index, every
label fits its place in the catalogue (`displayName_ascii`) and no two are the
same.  So the plugin accepts what `extend` has written, finds the figure of each
entry under the name it builds, with the hash it computes, and shows the entry's
own label (`catalogue_agrees`).
-/

import VirtualPortal.Tools.Extend

namespace VirtualPortal

/-! ### Names in ASCII -/

/-- ASCII without NUL: the names that the tools give, since a file name has no
NUL in it. -/
def AsciiText (t : Text) : Prop := ∀ c ∈ t, 0 < c.toNat ∧ c.toNat < 128

namespace AsciiText

variable {t u : Text}

/-- Two ASCII texts in a row. -/
theorem append (ht : AsciiText t) (hu : AsciiText u) : AsciiText (t ++ u) := fun c hc =>
  (List.mem_append.mp hc).elim (ht c) (hu c)

/-- The start of an ASCII text. -/
theorem take (h : AsciiText t) (n : ℕ) : AsciiText (t.take n) := fun c hc =>
  h c (List.mem_of_mem_take hc)

/-- ASCII is encoded byte by byte. -/
theorem encode_eq (h : AsciiText t) : encode t = t.map fun c => BitVec.ofNat 8 c.toNat := by
  induction t with
  | nil => rfl
  | cons c cs ih =>
      obtain ⟨hc, hcs⟩ := List.forall_mem_cons.mp h
      have hsize : c.utf8Size = 1 := by
        have : c.val ≤ 0x7f := by
          rw [UInt32.le_iff_toNat_le]
          exact Nat.lt_succ_iff.mp hc.2
        simp [Char.utf8Size, this]
      have ih := ih hcs
      simp only [encode, List.flatMap_cons, List.map_cons,
        String.utf8EncodeChar_eq_singleton hsize, List.singleton_append] at ih ⊢
      rw [ih]
      congr 1

/-- An ASCII text has a byte for each character. -/
theorem length_encode (h : AsciiText t) : (encode t).length = t.length := by
  rw [h.encode_eq, List.length_map]

/-- No byte of the encoding is zero. -/
theorem encode_ne_zero (h : AsciiText t) : ∀ b ∈ encode t, b ≠ 0 := by
  rw [h.encode_eq]
  intro b hb
  obtain ⟨c, hc, rfl⟩ := List.mem_map.mp hb
  obtain ⟨hpos, hlt⟩ := h c hc
  intro h0
  have := congrArg BitVec.toNat h0
  rw [toNat_ofNat_of_lt (by omega)] at this
  exact absurd this (by simp; omega)

/-- Different texts have different encodings. -/
theorem encode_inj (ht : AsciiText t) (hu : AsciiText u) (h : encode t = encode u) : t = u := by
  have hdecode : ∀ v, AsciiText v → (encode v).map (fun b => Char.ofNat b.toNat) = v := by
    intro v hv
    rw [hv.encode_eq, List.map_map]
    refine (List.map_congr_left fun c hc => ?_).trans v.map_id'
    obtain ⟨-, hlt⟩ := hv c hc
    rw [Function.comp_apply, toNat_ofNat_of_lt (by omega), Char.ofNat_toNat]
  rw [← hdecode t ht, ← hdecode u hu, h]

end AsciiText

/-- Bytes that are not zero, padded with zeros, are not confused. -/
theorem eq_of_padded {l l' : List U8} {n : ℕ} (hl : ∀ b ∈ l, b ≠ 0) (hl' : ∀ b ∈ l', b ≠ 0)
    (hlen : l.length ≤ n) (hlen' : l'.length ≤ n) (h : ∀ x < n, l.getD x 0 = l'.getD x 0) :
    l = l' := by
  have hhalf : ∀ {l l' : List U8}, (∀ b ∈ l, b ≠ 0) → l.length ≤ n →
      (∀ x < n, l.getD x 0 = l'.getD x 0) → ∀ (x : ℕ) b, l[x]? = some b → l'[x]? = some b := by
    intro l l' hl hlen h x b hb
    have hx := (List.getElem?_eq_some_iff.mp hb).1
    have hpad := h x (by omega)
    rw [List.getD_eq_getElem?_getD, List.getD_eq_getElem?_getD, hb, Option.getD_some] at hpad
    cases hb' : l'[x]? with
    | none =>
        rw [hb', Option.getD_none] at hpad
        exact absurd hpad (hl b (List.mem_of_getElem? hb))
    | some b' =>
        rw [hb', Option.getD_some] at hpad
        rw [hpad]
  exact List.ext_getElem? fun x => Option.ext fun b =>
    ⟨hhalf hl hlen h x b, hhalf hl' hlen' (fun x hx => (h x hx).symm) x b⟩

/-! ### Names and labels of the tool -/

/-- An index is ASCII. -/
theorem asciiText_pad3 {i : ℕ} (h : i < 1000) : AsciiText (pad3 i) := by
  have hdigit : ∀ n < 10, 0 < n.digitChar.toNat ∧ n.digitChar.toNat < 128 := by decide
  rw [pad3_eq h]
  intro c hc
  simp only [List.mem_cons, List.not_mem_nil, or_false] at hc
  rcases hc with rfl | rfl | rfl
  · exact hdigit _ (by omega)
  · exact hdigit _ (by omega)
  · exact hdigit _ (by omega)

/-- A display name is ASCII when the name is, and fits the catalogue. -/
theorem displayName_ascii {labels : List Text} {i : ℕ} {e : LibraryEntry} (hi : i < 640)
    (he : AsciiText e.name) :
    AsciiText (displayName labels i e) ∧ (displayName labels i e).length ≤ 19 := by
  unfold displayName shortLabel
  split_ifs
  · exact ⟨he.take 19, List.length_take_le _ _⟩
  · refine ⟨((he.take 19).take 15).append (List.forall_mem_cons.mpr ⟨by decide, ?_⟩), ?_⟩
    · exact asciiText_pad3 (by omega)
    · rw [pad3_eq (by omega), List.length_append, List.length_take]
      simp only [List.length_cons, List.length_nil]
      omega

/-- The game has no NUL in its name. -/
theorem nul_notMem_group (rel : RelPath) : Char.ofNat 0 ∉ group rel := by
  unfold group
  split <;> decide

/-- No NUL comes into the name of a swap figure. -/
theorem nul_notMem_swapLabel {stem label : Text} {part short : String}
    (hstem : Char.ofNat 0 ∉ stem) (hlabel : Char.ofNat 0 ∉ label)
    (hshort : Char.ofNat 0 ∉ short.toList) : Char.ofNat 0 ∉ swapLabel stem label part short := by
  unfold swapLabel
  split_ifs
  · simp only [List.mem_append, List.mem_cons, not_or]
    exact ⟨⟨by decide, hshort⟩, by decide, fun h => hstem (List.mem_of_mem_take h)⟩
  · exact hlabel

/-- Characters that `encode('ascii', 'ignore')` keeps stay ASCII in upper case. -/
theorem toUpper_ascii {c : Char} (hpos : 0 < c.toNat) (hlt : c.toNat < 128) :
    0 < c.toUpper.toNat ∧ c.toUpper.toNat < 128 := by
  have hall : ∀ n < 128, 0 < n →
      0 < (Char.ofNat n).toUpper.toNat ∧ (Char.ofNat n).toUpper.toNat < 128 := by decide
  simpa using hall c.toNat hlt hpos

/-- **The tool names dumps in ASCII.** -/
theorem dumpName_ascii (py : Python) (rel : RelPath) : AsciiText (dumpName py rel) := by
  have hstem : Char.ofNat 0 ∉ stem rel.name := fun h =>
    (rel.component _ (List.getLast_mem rel.ne_nil)).2.2.2 (List.mem_of_mem_take h)
  have hlabel : Char.ofNat 0 ∉ group rel ++ ' ' :: stem rel.name := by
    simp only [List.mem_append, List.mem_cons, not_or]
    exact ⟨nul_notMem_group rel, by decide, hstem⟩
  have hupper : ∀ label, Char.ofNat 0 ∉ label → AsciiText (asciiUpper py label) := by
    intro label hnul c hc
    obtain ⟨d, hd, rfl⟩ := List.mem_map.mp hc
    obtain ⟨hd, hlt⟩ := List.mem_filter.mp hd
    refine toUpper_ascii (Nat.pos_of_ne_zero fun h0 => ?_) (of_decide_eq_true hlt)
    rw [← Char.ofNat_toNat d, h0] at hd
    exact py.nfkd_nul label hnul hd
  refine hupper _ ?_
  split_ifs
  · exact nul_notMem_swapLabel hstem (nul_notMem_swapLabel hstem hlabel (by decide)) (by decide)
  · exact hlabel

/-- The names of a merged library are ASCII when those of the existing one are. -/
theorem merged_ascii {py : Python} {source : List Dump} {existing : Library}
    {entries : List LibraryEntry} {data : List (List U8)}
    (hold : ∀ old, existing.json = some old → ∀ e ∈ old, AsciiText e.name)
    (h : merged py source existing = .ok (entries, data)) : ∀ e ∈ entries, AsciiText e.name := by
  obtain ⟨old, cat, stride, oldData, m, hjson, -, -, -, hm, -, -, rfl, -⟩ := merged_eq_ok.mp h
  obtain ⟨added, hadded⟩ := foldlM_mergeDump hm
  intro e he
  have hname := List.mem_map_of_mem (f := LibraryEntry.name) he
  rw [map_withDisplayNames _ (fun _ _ => rfl), hadded.entries, List.map_append,
    List.mem_append] at hname
  rcases hname with hname | hname
  · obtain ⟨e₀, he₀, heq⟩ := List.mem_map.mp hname
    exact heq ▸ hold old hjson e₀ he₀
  · obtain ⟨e₀, he₀, heq⟩ := List.mem_map.mp hname
    obtain ⟨p, -, hp⟩ := newEntries_name he₀
    rw [← heq, hp]
    exact dumpName_ascii py p.rel

/-! ### The agreement -/

/-- What the plugin finds about an entry with the catalogue it has read. -/
structure CatalogAgrees (d : Disk) (r : CatalogResult) (i : ℕ) (e : LibraryEntry) : Prop where
  /-- The figure file under the name of the plugin has the hash of the catalogue. -/
  figure : ∃ fig, d (e11Name (BitVec.ofNat 32 i) none) = some fig ∧ fig.length = 1024 ∧
    e11SourceHash r.catalog r.compact (BitVec.ofNat 32 i) = e11Hash (fig.getD · 0) 1024
  /-- `e11_load` reads the figure and its check of the source passes. -/
  check : ∀ job : Bytes 1056, ∃ job' : Bytes 1056,
    e11Read d (e11Name (BitVec.ofNat 32 i) none) .ok job 32 1024 = (0, job') ∧
      e11Hash (fun x => job'.byte (32 + x)) 1024 =
        e11SourceHash r.catalog r.compact (BitVec.ofNat 32 i)
  /-- `e11_label` gives the whole display name, padded with zeros. -/
  label : ∃ label, e.displayName = some label ∧ label.length ≤ 19 ∧ AsciiText label ∧
    ∀ {n : ℕ} (dst : Bytes n) (off x : ℕ), off + 19 ≤ n → x < 19 →
      (e11Label dst off r.catalog r.compact (BitVec.ofNat 32 i)).byte (off + x) =
        (encode label).getD x 0

section Agreement

variable {py : Python} {entries : List LibraryEntry} {data : List (List U8)} {existing : Library}

/-- The display name of an entry. -/
theorem Extended.displayName {i : ℕ} {e : LibraryEntry} (h : Extended py entries data)
    (he : entries[i]? = some e) :
    e.displayName = some (VirtualPortal.displayName (entries.map shortLabel) i e) := by
  have hnamed := getElem?_withDisplayNames entries i
  rw [h.named, he, Option.map_some, Option.some.injEq] at hnamed
  rw [hnamed]
  rfl

/-- The label of an entry fits the catalogue. -/
theorem Extended.label {i : ℕ} {e : LibraryEntry} (h : Extended py entries data)
    (hnames : ∀ e ∈ entries, AsciiText e.name) (he : entries[i]? = some e) :
    ∃ label, e.displayName = some label ∧ AsciiText label ∧ label.length ≤ 19 := by
  have hi : i < 640 := (List.getElem?_eq_some_iff.mp he).1.trans_le h.count
  exact ⟨_, h.displayName he, displayName_ascii hi (hnames e (List.mem_of_getElem? he))⟩

/-- A label has at most 19 bytes. -/
theorem Extended.length_labelBytes (h : Extended py entries data)
    (hnames : ∀ e ∈ entries, AsciiText e.name) : ∀ e ∈ entries, (labelBytes e).length ≤ 19 := by
  intro e he
  obtain ⟨i, he⟩ := List.getElem?_of_mem he
  obtain ⟨label, hlabel, hascii, hlen⟩ := h.label hnames he
  rwa [labelBytes, hlabel, Option.getD_some, hascii.length_encode]

/-- `e11_label` gives the whole label of an entry and zeros. -/
theorem Extended.label_bytes {i : ℕ} {e : LibraryEntry} (h : Extended py entries data)
    (hnames : ∀ e ∈ entries, AsciiText e.name) (he : entries[i]? = some e) :
    ∃ label, e.displayName = some label ∧ label.length ≤ 19 ∧ AsciiText label ∧
      ∀ {n : ℕ} (dst : Bytes n) (off x : ℕ), off + 19 ≤ n → x < 19 →
        (e11Label dst off (newCatalog entries) 2 (BitVec.ofNat 32 i)).byte (off + x) =
          (encode label).getD x 0 := by
  have hi : i < 640 := (List.getElem?_eq_some_iff.mp he).1.trans_le h.count
  have hid : (BitVec.ofNat 32 i).toNat = i :=
    toNat_ofNat_of_lt (by omega)
  have hsize : (if (2 : U32) = 2 then 19 else if (2 : U32) ≠ 0 then 27 else 47) = 19 := by decide
  obtain ⟨label, hlabel, hascii, hlen⟩ := h.label hnames he
  refine ⟨label, hlabel, hlen, hascii, fun dst off x hoff hx => ?_⟩
  rw [e11Label, Bytes.byte_copy_of_mem _ _ (by omega) (by omega) (by omega), hid,
    show catalogStride 2 = 24 by decide, if_pos (by decide), Nat.add_sub_cancel_left,
    byte_newCatalog_label h.count (h.length_labelBytes hnames) he (by omega), labelBytes, hlabel,
    Option.getD_some]

/-- The plugin has loaded the catalogue of the new library. -/
theorem Extended.load (h : Extended py entries data) (hnames : ∀ e ∈ entries, AsciiText e.name)
    (hne : entries ≠ []) (catalog : Bytes 16416) (compact : U32) :
    e11CatalogLoad (deploy (writeLibrary existing entries data)) .ok catalog compact =
      ⟨0, newCatalog entries, 2⟩ := by
  have hcat : catalogFile (deploy (writeLibrary existing entries data)) = newCatalog entries := by
    rw [catalogFile_deploy writeLibrary_catalog]
    funext x
    rw [getD_ofFn, Bytes.byte_val]
  have hcard : CatalogOnCard (deploy (writeLibrary existing entries data)) := by
    refine ⟨⟨_, (deploy_catalogPath _).trans writeLibrary_catalog, ?_⟩, ?_⟩
    · rw [List.length_ofFn]
    · rw [hcat]
      exact newCatalog_valid hne h.count (h.length_labelBytes hnames)
  rw [hcard.load, hcat, (be32_newCatalog entries).1]
  rfl

/-- Each entry of the new library, seen by the plugin. -/
theorem Extended.agrees {i : ℕ} {e : LibraryEntry} (h : Extended py entries data)
    (hnames : ∀ e ∈ entries, AsciiText e.name) (he : entries[i]? = some e) :
    CatalogAgrees (deploy (writeLibrary existing entries data)) ⟨0, newCatalog entries, 2⟩ i e := by
  have hi : i < 640 := (List.getElem?_eq_some_iff.mp he).1.trans_le h.count
  have hid : (BitVec.ofNat 32 i).toNat = i :=
    toNat_ofNat_of_lt (by omega)
  have hmax : BitVec.ofNat 32 i < e11Max := by
    rw [BitVec.lt_def, hid]
    exact hi
  obtain ⟨fig, hfig, -, hlen, -, hfnv⟩ := h.figures.exists_right he
  have hfile : deploy (writeLibrary existing entries data) (e11Name (BitVec.ofNat 32 i) none) =
      some fig := by
    rw [deploy_e11Name _ hmax, hid]
    exact writeLibrary_figName (h.figures.length ▸ h.count) hfig
  have hhash : e11SourceHash (newCatalog entries) 2 (BitVec.ofNat 32 i) =
      e11Hash (fig.getD · 0) 1024 := by
    rw [e11SourceHash, hid, show catalogStride 2 = 24 by decide, if_pos (by decide), Nat.add_zero,
      be32_newCatalog_entry h.count he, ← hfnv, BitVec.ofInt_natCast, fnv_eq_e11Hash, hlen,
      BitVec.ofNat_toNat, BitVec.setWidth_eq]
  refine ⟨⟨fig, hfile, hlen, hhash⟩, fun job => ⟨_, e11Read_ok hfile hlen.ge, ?_⟩,
    h.label_bytes hnames he⟩
  rw [hhash]
  refine e11Hash_congr fun x hx => ?_
  rw [Bytes.byte_copy_of_mem _ _ (by omega) (by omega) (by omega)]
  congr 1
  omega

/-- Two entries with the same label on the screen are one entry. -/
theorem Extended.label_inj {i j : ℕ} (h : Extended py entries data)
    (hnames : ∀ e ∈ entries, AsciiText e.name) (hi : i < entries.length) (hj : j < entries.length)
    (hij : e11Label (.zero 19) 0 (newCatalog entries) 2 (BitVec.ofNat 32 i) =
      e11Label (.zero 19) 0 (newCatalog entries) 2 (BitVec.ofNat 32 j)) : i = j := by
  have he := List.getElem?_eq_getElem hi
  have he' := List.getElem?_eq_getElem hj
  obtain ⟨label, hlabel, hlen, hascii, hbytes⟩ := h.label_bytes hnames he
  obtain ⟨label', hlabel', hlen', hascii', hbytes'⟩ := h.label_bytes hnames he'
  have hencode : encode label = encode label' := by
    refine eq_of_padded (n := 19) hascii.encode_ne_zero hascii'.encode_ne_zero
      (by rwa [hascii.length_encode]) (by rwa [hascii'.length_encode]) fun x hx => ?_
    rw [← hbytes (.zero 19) 0 x (by omega) hx, ← hbytes' (.zero 19) 0 x (by omega) hx]
    exact congrArg (fun p : Bytes 19 => p.byte (0 + x)) hij
  have hname : entries[i].displayName = entries[j].displayName := by
    rw [hlabel, hlabel', hascii.encode_inj hascii' hencode]
  have hnodup := List.nodup_iff_injective_getElem.mp h.nodup
  have hfin := @hnodup ⟨i, by simpa using hi⟩ ⟨j, by simpa using hj⟩ (by simpa using hname)
  exact congrArg Fin.val hfin

end Agreement

/-- **The tool and the plugin agree on the catalogue.**  Whatever dumps `extend`
has merged into whatever library with ASCII names, the plugin accepts the
catalogue with as many entries, finds every figure under its own name for it
with the hash of the catalogue, and reads every display name whole; no two
labels are the same. -/
theorem catalogue_agrees (py : Python) (source : List Dump) (existing lib : Library)
    (dest : Option Library) (entries : List LibraryEntry)
    (hold : ∀ old, existing.json = some old → ∀ e ∈ old, AsciiText e.name)
    (h : extend py source existing dest = (.ok entries, some lib)) (hne : entries ≠ [])
    (catalog : Bytes 16416) (compact : U32) :
    let r := e11CatalogLoad (deploy lib) .ok catalog compact
    r.result = 0 ∧ entries.length ≤ 640 ∧
      be32 r.catalog.byte 4 = BitVec.ofNat 32 entries.length ∧
      (∀ i e, entries[i]? = some e → CatalogAgrees (deploy lib) r i e) ∧
      ∀ i j, i < entries.length → j < entries.length →
        e11Label (.zero 19) 0 r.catalog r.compact (BitVec.ofNat 32 i) =
          e11Label (.zero 19) 0 r.catalog r.compact (BitVec.ofNat 32 j) → i = j := by
  obtain ⟨-, data, hmerged, rfl⟩ := extend_eq_ok.mp h
  have hext := merged_extended hmerged
  have hnames := merged_ascii hold hmerged
  dsimp only
  rw [hext.load hnames hne]
  exact ⟨rfl, hext.count, (be32_newCatalog entries).2.1, fun i e he => hext.agrees hnames he,
    fun i j hi hj => hext.label_inj hnames hi hj⟩

/-- The library of two figures with the same long label: the display names are its start
and the indices. -/
theorem catalogue_agrees_legendary :
    let entries := secondEntries coreDump legendaryDump
    let lib := secondLibrary coreDump legendaryDump
    let r := e11CatalogLoad (deploy lib) .ok (.zero 16416) 0
    entries.map LibraryEntry.displayName =
        [some "SSA LEGENDARY T 000".toList, some "SSA LEGENDARY T 001".toList] ∧
      r.result = 0 ∧ entries.length ≤ 640 ∧
      be32 r.catalog.byte 4 = BitVec.ofNat 32 entries.length ∧
      (∀ i e, entries[i]? = some e → CatalogAgrees (deploy lib) r i e) ∧
      ∀ i j, i < entries.length → j < entries.length →
        e11Label (.zero 19) 0 r.catalog r.compact (BitVec.ofNat 32 i) =
          e11Label (.zero 19) 0 r.catalog r.compact (BitVec.ofNat 32 j) → i = j := by
  refine ⟨by decide, catalogue_agrees asciiPython [legendaryDump]
    (firstLibrary coreDump) _ none _ ?_
    (extend_second rfl length_blankFigure rfl length_blankFigure (by decide) (by decide)) ?_
    (.zero 16416) 0⟩
  · intro old hold
    obtain rfl : grown asciiPython [] coreDump = old := Option.some.inj hold
    refine merged_ascii (fun none hnone => ?_) (merged_first rfl length_blankFigure)
    obtain rfl : [] = none := Option.some.inj hnone
    exact fun _ he => absurd he List.not_mem_nil
  · simp [secondEntries, grown, withDisplayNames]

end VirtualPortal
