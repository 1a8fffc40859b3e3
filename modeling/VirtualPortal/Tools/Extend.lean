/-
# Extending a library preserves it

A dump is settled when the library lists its path, and the first entry with that
path has its digest; a round of the loop over a settled dump changes nothing
(`Settled.mergeDump`).  Every run leaves its dumps settled (`settled_of_merge`),
because an entry is found again under the path it was given, provided that
`PureWindowsPath` reads that path as it is (`RelPath.Plain`).  So a second run
over the result merges nothing and writes the same library
(`Extended.extend_again`).

An old index keeps its figure, its hash and its journals, so `e11_load` finds
there what it found before (`indexKept`).
-/

import VirtualPortal.Tools.Catalogue

namespace VirtualPortal

section Settling

variable {py : Python} {es es' : List LibraryEntry} {p : Dump} {m m' : Merge} {ps : List Dump}

/-- The digest that the library has for a path. -/
def listedSha (py : Python) (es : List LibraryEntry) (key : Text) : Option Text :=
  (es.find? fun e => listedKey py e = key).map LibraryEntry.sha256

/-- The dump is in the library. -/
structure Settled (py : Python) (es : List LibraryEntry) (p : Dump) : Prop where
  read : p.bytes = some p.contents
  size : p.contents.length = 1024
  listed : listedSha py es (relKey py p.rel) = some (py.sha256 p.contents)

/-- What is listed stays so when entries are added. -/
theorem listedSha_append {key sha : Text} (h : listedSha py es key = some sha) :
    listedSha py (es ++ es') key = some sha := by
  obtain ⟨e, he, hsha⟩ := Option.map_eq_some_iff.mp h
  rw [listedSha, List.find?_append, he, Option.some_or, Option.map_some, hsha]

/-- A path that is not listed is found at the entry appended for it. -/
theorem listedSha_concat {key : Text} {e : LibraryEntry} (h : key ∉ es.map (listedKey py))
    (he : listedKey py e = key) : listedSha py (es ++ [e]) key = some e.sha256 := by
  have hnone : es.find? (fun e => listedKey py e = key) = none := by
    refine List.find?_eq_none.mpr fun e' he' hkey => h ?_
    exact List.mem_map.mpr ⟨e', he', of_decide_eq_true hkey⟩
  rw [listedSha, List.find?_append, hnone, Option.none_or, List.find?_cons_of_pos (by simpa)]
  rfl

/-- Display names do not matter to the paths. -/
theorem listedSha_withDisplayNames (key : Text) :
    listedSha py (withDisplayNames es) key = listedSha py es key := by
  have htable : ∀ es : List LibraryEntry, listedSha py es key =
      ((es.map fun e => (listedKey py e, e.sha256)).find? fun t => t.1 = key).map Prod.snd := by
    intro es
    rw [List.find?_map, Option.map_map]
    rfl
  rw [htable, htable, map_withDisplayNames _ fun _ _ => rfl]

/-- A dump that is settled stays so when entries are added. -/
theorem Settled.append (h : Settled py es p) : Settled py (es ++ es') p :=
  ⟨h.read, h.size, listedSha_append h.listed⟩

/-- A dump that is settled stays so when the display names are set. -/
theorem Settled.withDisplayNames (h : Settled py es p) : Settled py (withDisplayNames es) p :=
  ⟨h.read, h.size, (listedSha_withDisplayNames _).trans h.listed⟩

/-- **A settled dump is passed over.** -/
theorem Settled.mergeDump (h : Settled py m.entries p)
    (hpaths : m.paths = m.entries.map (listedKey py)) : mergeDump py m p = .ok m := by
  obtain ⟨e, he, hsha⟩ := Option.map_eq_some_iff.mp h.listed
  have hkey : listedKey py e = relKey py p.rel := by simpa using List.find?_some he
  have hmem : relKey py p.rel ∈ m.paths := by
    rw [hpaths]
    exact List.mem_map.mpr ⟨e, List.mem_of_find?_eq_some he, hkey⟩
  rw [VirtualPortal.mergeDump, h.read]
  simp only [h.size, hmem, he, hsha, ne_eq, not_true_eq_false, if_false, if_true]

/-- Dumps that are settled change nothing. -/
theorem foldlM_settled (h : ∀ p ∈ ps, Settled py m.entries p)
    (hpaths : m.paths = m.entries.map (listedKey py)) :
    ps.foldlM (VirtualPortal.mergeDump py) m = .ok m := by
  induction ps with
  | nil => rfl
  | cons p ps ih =>
      obtain ⟨hp, hps⟩ := List.forall_mem_cons.mp h
      rw [List.foldlM_cons, hp.mergeDump hpaths]
      exact ih hps

/-- The path an entry lists is the path of its dump. -/
theorem listedKey_newEntry {i : ℕ} {rel : RelPath} {b : List U8} (h : rel.Plain) :
    listedKey py (newEntry py i rel b) = relKey py rel :=
  congrArg py.casefold (RelPath.windowsAsPosix_join py.sep_eq h)

/-- One round leaves its dump settled, and the paths those of the entries. -/
theorem settled_of_mergeDump (h : VirtualPortal.mergeDump py m p = .ok m') (hplain : p.rel.Plain)
    (hpaths : m.paths = m.entries.map (listedKey py)) :
    Settled py m'.entries p ∧ m'.paths = m'.entries.map (listedKey py) := by
  obtain ⟨hread, hsize, ⟨-, rfl, old, hfind, hsha⟩ | ⟨hnew, rfl⟩⟩ := mergeDump_ok h
  · refine ⟨⟨hread, hsize, ?_⟩, hpaths⟩
    rw [listedSha, hfind, Option.map_some, hsha]
  · have hkey : listedKey py (newEntry py m.entries.length p.rel p.contents) = relKey py p.rel :=
      listedKey_newEntry hplain
    refine ⟨⟨hread, hsize, listedSha_concat (hpaths ▸ hnew) hkey⟩, ?_⟩
    rw [List.map_append, List.map_singleton, hkey, hpaths]

/-- **The loop leaves its dumps settled.** -/
theorem settled_of_merge (h : ps.foldlM (VirtualPortal.mergeDump py) m = .ok m')
    (hplain : ∀ p ∈ ps, p.rel.Plain) (hpaths : m.paths = m.entries.map (listedKey py)) :
    ∀ p ∈ ps, Settled py m'.entries p := by
  induction ps generalizing m with
  | nil => simp
  | cons p ps ih =>
      rw [List.foldlM_cons] at h
      obtain ⟨m₁, hstep, hrest⟩ := bind_eq_ok.mp h
      obtain ⟨hp, hps⟩ := List.forall_mem_cons.mp hplain
      obtain ⟨hsettled, hpaths₁⟩ := settled_of_mergeDump hstep hp hpaths
      obtain ⟨added, hadded⟩ := foldlM_mergeDump hrest
      refine List.forall_mem_cons.mpr ⟨?_, ih hrest hps hpaths₁⟩
      rw [hadded.entries]
      exact hsettled.append

end Settling

/-! ### Running it again -/

section Again

variable {py : Python} {source : List Dump} {existing : Library} {entries : List LibraryEntry}
  {data : List (List U8)}

/-- The figures of a new library pass the tool's own checks. -/
theorem Extended.figureAt (h : Extended py entries data) :
    Indexed (FigureAt py (writeLibrary existing entries data) (List.ofFn (newCatalog entries)) 24)
      0 entries data := by
  refine ⟨h.figures.length, fun k e b he hb => ?_⟩
  have hentry := h.figures.rel k e b he hb
  have hlt : fnv b < 2 ^ 32 := fnv_eq_e11Hash b ▸ BitVec.isLt _
  rw [Nat.zero_add] at hentry ⊢
  refine ⟨writeLibrary_figName (h.figures.length ▸ h.count) hb, hentry, ?_⟩
  have hget : ((List.ofFn (newCatalog entries)).getD · 0) = (newCatalog entries).byte :=
    funext (getD_ofFn _)
  rw [hget, if_neg (by decide), Nat.add_zero, be32_newCatalog_entry h.count he,
    ← hentry.2.2.2, BitVec.ofInt_natCast, toNat_ofNat_of_lt hlt]

/-- A new library is written again as it is. -/
theorem writeLibrary_again :
    writeLibrary (writeLibrary existing entries data) entries data =
      writeLibrary existing entries data := by
  have hfiles : (writeLibrary (writeLibrary existing entries data) entries data).files =
      (writeLibrary existing entries data).files := by
    funext name
    by_cases hname : suffix name = ".sav0".toList ∨ suffix name = ".sav1".toList
    · exact writeLibrary_journal hname
    · rw [writeLibrary_files, writeLibrary_files]
      by_cases hcat : name = catalogName
      · rw [hcat, Function.update_self, Function.update_self]
      · rw [Function.update_of_ne hcat, Function.update_of_ne hcat, copyJournals, copyJournals,
          if_neg hname, if_neg hname]
  exact congrArg (Library.mk (some entries)) hfiles

/-- **Extending a new library by dumps that it has gives the same library.** -/
theorem Extended.extend_again (h : Extended py entries data)
    (hsettled : ∀ p ∈ source, Settled py entries p) :
    extend py source (writeLibrary existing entries data) none =
      (.ok entries, some (writeLibrary existing entries data)) := by
  refine extend_eq_ok.mpr ⟨rfl, data, ?_, writeLibrary_again.symm⟩
  refine merged_eq_ok.mpr ⟨entries, _, 24, data, ⟨entries, entries.map (listedKey py), data⟩, rfl,
    writeLibrary_catalog, checkCatalog_newCatalog h.count, h.figureAt, ?_, h.count, ?_, h.named,
    rfl⟩
  · refine foldlM_settled (fun p hp => hsettled p ?_) rfl
    exact List.mem_mergeSort.mp hp
  · rw [h.named]
    exact h.nodup

end Again

/-! ### The old indices -/

/-- `e11_read` depends on the file it opens only. -/
theorem e11Read_congr {n : ℕ} {d d' : Disk} {path : List U8} (h : d path = d' path) (io : ReadIo)
    (p : Bytes n) (off len : ℕ) : e11Read d path io p off len = e11Read d' path io p off len := by
  unfold e11Read
  rw [h]

/-- `e11_load` depends on the figure and the journals of its slot only. -/
theorem e11Load_congr {d d' : Disk} {slot : U32}
    (h : ∀ save, d (e11Name slot save) = d' (e11Name slot save)) (source : U32) (io : JobIo)
    (job check : Bytes 1056) (sequence : U32) :
    e11Load d slot source io job check sequence = e11Load d' slot source io job check sequence := by
  have hjournal : ∀ io k s, e11LoadJournal d slot source io k s =
      e11LoadJournal d' slot source io k s := by
    intro io k s
    unfold e11LoadJournal
    rw [e11Read_congr (h (some k))]
  unfold e11Load
  rw [e11Read_congr (h none)]
  simp only [hjournal]

/-- The catalogues of the tool and of the plugin have the same strides. -/
theorem magicStride_eq {magic : U32} (h : magicStride magic ≠ 0) :
    catalogStride (catalogCompact magic) = magicStride magic ∧
      (if catalogCompact magic ≠ 0 then 0 else 4) = if magicStride magic = 64 then 4 else 0 := by
  by_cases h₁ : magic = 0x45313143
  · subst h₁; decide
  by_cases h₂ : magic = 0x45313443
  · subst h₂; decide
  by_cases h₃ : magic = 0x45313543
  · subst h₃; decide
  rw [magicStride, if_neg h₁, if_neg h₂, if_neg h₃] at h
  exact absurd rfl h

/-- What the tool has checked about a catalogue it accepts. -/
theorem checkCatalog_eq_ok {cat : List U8} {n stride : ℕ} (h : checkCatalog cat n = .ok stride) :
    stride = magicStride (be32 (cat.getD · 0) 0) ∧ stride ≠ 0 ∧ cat.length = 16416 ∧
      n ≤ strideLimit stride := by
  unfold checkCatalog at h
  by_cases hshort : cat.length < 12
  · rw [if_pos hshort] at h
    cases h
  rw [if_neg hshort] at h
  dsimp only at h
  split_ifs at h with hbad
  cases h
  simp only [not_or, not_not, not_lt] at hbad
  obtain ⟨hstride, hlen, hcount, hlimit, -⟩ := hbad
  exact ⟨rfl, hstride, hlen, hcount ▸ hlimit⟩

/-- The hash that the plugin reads for an index of a library. -/
theorem catalogSource_deploy {py : Python} {lib : Library} {cat b : List U8} {e : LibraryEntry}
    {n i stride : ℕ} (hi : i < 640) (hcat : lib.files catalogName = some cat)
    (hcheck : checkCatalog cat n = .ok stride) (h : FigureAt py lib cat stride i e b) :
    catalogSource (deploy lib) (BitVec.ofNat 32 i) = e11Hash (b.getD · 0) b.length := by
  obtain ⟨hstride, hne, hlen, -⟩ := checkCatalog_eq_ok hcheck
  have hbyte : (catalogFile (deploy lib)).byte = (cat.getD · 0) := by
    rw [catalogFile_deploy hcat]
    funext x
    unfold Bytes.byte
    split_ifs with hx
    · rfl
    · rw [List.getD_eq_getElem?_getD, List.getElem?_eq_none (by omega), Option.getD_none]
  have hid : (BitVec.ofNat 32 i).toNat = i :=
    toNat_ofNat_of_lt (by omega)
  obtain ⟨hsame, hoff⟩ := magicStride_eq (hstride ▸ hne)
  apply BitVec.eq_of_toNat_eq
  rw [catalogSource, e11SourceHash, hbyte, hid, hsame, hoff, ← hstride, h.hash, fnv_eq_e11Hash]

/-- What `extend` keeps of an index: the entry but for its display name, the
figure, the hash, the journals, and with them what `e11_load` finds. -/
structure IndexKept (existing lib : Library) (i : ℕ) (e e' : LibraryEntry) : Prop where
  entry : e' = { e with displayName := e'.displayName }
  figure : lib.files (figName i) = existing.files (figName i)
  hash : catalogSource (deploy lib) (BitVec.ofNat 32 i) =
    catalogSource (deploy existing) (BitVec.ofNat 32 i)
  journals : ∀ k, lib.files (libraryName i (some k)) = existing.files (libraryName i (some k))
  load : ∀ io job check sequence,
    e11Load (deploy lib) (BitVec.ofNat 32 i) (catalogSource (deploy lib) (BitVec.ofNat 32 i))
        io job check sequence =
      e11Load (deploy existing) (BitVec.ofNat 32 i)
        (catalogSource (deploy existing) (BitVec.ofNat 32 i)) io job check sequence

/-- What `extend` has appended to `old`: the entries for the dumps `added`. -/
structure Appended (py : Python) (source : List Dump) (old : List LibraryEntry)
    (added : List Dump) (entries : List LibraryEntry) (lib : Library) : Prop where
  /-- The new entries are those of the dumps, and come after the old ones. -/
  entries : entries = withDisplayNames (old ++ newEntries py old.length added)
  /-- Their figures are the dumps. -/
  figures : ∀ k p, added[k]? = some p → lib.files (figName (old.length + k)) = p.bytes
  /-- They come in the order of the paths. -/
  sorted : added.Pairwise fun p q => py.casefold (relStr py p.rel) ≤ py.casefold (relStr py q.rel)
  /-- No path comes twice. -/
  nodup : (added.map fun p => relKey py p.rel).Nodup
  /-- They are dumps of the source. -/
  subset : added ⊆ source
  /-- They are those whose path was not listed. -/
  exact : ∀ p ∈ source, relKey py p.rel ∈ added.map (fun q => relKey py q.rel) ↔
    relKey py p.rel ∉ old.map (listedKey py)

section Preserving

variable {py : Python} {source : List Dump} {existing : Library} {old entries : List LibraryEntry}
  {data oldData : List (List U8)} {cat : List U8} {stride : ℕ} {m : Merge} {added : List Dump}

/-- The dumps are merged in the order of their paths. -/
theorem sortedDumps_sorted (py : Python) (source : List Dump) :
    (sortedDumps py source).Pairwise fun p q =>
      py.casefold (relStr py p.rel) ≤ py.casefold (relStr py q.rel) := by
  have htrans : ∀ p q r : Dump, dumpLe py p q → dumpLe py q r → dumpLe py p r := by
    intro p q r hpq hqr
    rw [dumpLe, decide_eq_true_iff] at hpq hqr ⊢
    exact hpq.trans hqr
  have htotal : ∀ p q : Dump, dumpLe py p q || dumpLe py q p := by
    intro p q
    simpa [dumpLe] using le_total (py.casefold (relStr py p.rel)) (py.casefold (relStr py q.rel))
  exact (List.pairwise_mergeSort htrans htotal source).imp of_decide_eq_true

/-- The merge appends the dumps that were not listed. -/
theorem Appends.appended
    (h : Appends py ⟨old, old.map (listedKey py), oldData⟩ (sortedDumps py source) added m)
    (hlen : old.length = oldData.length) (hcount : m.data.length ≤ 640) :
    Appended py source old added (withDisplayNames m.entries)
      (writeLibrary existing (withDisplayNames m.entries) m.data) where
  entries := by rw [h.entries]
  figures k p hp := by
    have hdata : m.data[old.length + k]? = some p.contents := by
      rw [h.data, hlen, List.getElem?_append_right (Nat.le_add_right _ _), Nat.add_sub_cancel_left,
        List.getElem?_map, hp, Option.map_some]
    rw [writeLibrary_figName hcount hdata]
    exact (h.sized p (h.sublist.subset (List.mem_of_getElem? hp))).1.symm
  sorted := (sortedDumps_sorted py source).sublist h.sublist
  nodup := h.nodup
  subset p hp := List.mem_mergeSort.mp (h.sublist.subset hp)
  exact p hp := by
    constructor
    · intro hmem
      obtain ⟨q, hq, hkey⟩ := List.mem_map.mp hmem
      exact hkey ▸ h.fresh q hq
    · intro hnew
      have hlisted := h.listed p (List.mem_mergeSort.mpr hp)
      rw [h.paths] at hlisted
      exact (List.mem_append.mp hlisted).resolve_left hnew

/-- An old index of the new library. -/
theorem Appends.indexKept {i : ℕ} {e : LibraryEntry}
    (h : Appends py ⟨old, old.map (listedKey py), oldData⟩ (sortedDumps py source) added m)
    (hext : Extended py (withDisplayNames m.entries) m.data)
    (hcat : existing.files catalogName = some cat)
    (hcheck : checkCatalog cat old.length = .ok stride)
    (hold : Indexed (FigureAt py existing cat stride) 0 old oldData) (he : old[i]? = some e) :
    ∃ e', (withDisplayNames m.entries)[i]? = some e' ∧
      IndexKept existing (writeLibrary existing (withDisplayNames m.entries) m.data) i e e' := by
  obtain ⟨b, hb, hfig⟩ := hold.exists_right he
  rw [Nat.zero_add] at hfig
  have hi := (List.getElem?_eq_some_iff.mp he).1
  have he' : (withDisplayNames m.entries)[i]? = some
      { e with displayName := some (displayName (m.entries.map shortLabel) i e) } := by
    rw [getElem?_withDisplayNames, h.entries, List.getElem?_append_left hi, he, Option.map_some]
  have hb' : m.data[i]? = some b := by
    rw [h.data, List.getElem?_append_left (hold.length ▸ hi), hb]
  have hi640 : i < 640 := (List.getElem?_eq_some_iff.mp he').1.trans_le hext.count
  have hid : (BitVec.ofNat 32 i).toNat = i :=
    toNat_ofNat_of_lt (by omega)
  have hmax : BitVec.ofNat 32 i < e11Max := by
    rw [BitVec.lt_def, hid]
    exact hi640
  have hfig' : FigureAt py (writeLibrary existing (withDisplayNames m.entries) m.data) _ 24 i _ b :=
    Nat.zero_add i ▸ hext.figureAt.rel i _ b he' hb'
  have hhash : catalogSource (deploy (writeLibrary existing (withDisplayNames m.entries) m.data))
      (BitVec.ofNat 32 i) = catalogSource (deploy existing) (BitVec.ofNat 32 i) := by
    rw [catalogSource_deploy hi640 hcat hcheck hfig, catalogSource_deploy hi640 writeLibrary_catalog
      (checkCatalog_newCatalog hext.count) hfig']
  refine ⟨_, he', rfl, hfig'.file.trans hfig.file.symm, hhash, fun k => ?_,
    fun io job check sequence => ?_⟩
  · exact writeLibrary_journal (suffix_journal i k)
  · rw [hhash]
    refine e11Load_congr (fun save => ?_) _ _ _ _ _
    rw [deploy_e11Name _ hmax, deploy_e11Name _ hmax, hid]
    cases save with
    | none => exact hfig'.file.trans hfig.file.symm
    | some k => exact writeLibrary_journal (suffix_journal i k)

end Preserving

/-! ### One dump -/

/-- Python on a system with `/`, as far as ASCII names and the blank figure go. -/
def asciiPython : Python where
  sep := '/'
  sep_eq := .inl rfl
  sha256 _ := "5f70bf18a086007016e948b04aed3b82103a36bea41755b6cddfaf10ace3c6ef".toList
  casefold := List.map Char.toLower
  nfkd t := t
  nfkd_nul _ h := h

/-- A figure of zeros. -/
def blankFigure : List U8 := List.replicate 1024 0

/-- The library without entries. -/
def emptyLibrary : Library := writeLibrary ⟨none, fun _ => none⟩ [] []

/-- The file `c:./x.dump`. -/
def dottedDump : Dump where
  rel := ⟨["c:.".toList, "x.dump".toList], by decide, by decide⟩
  bytes := some blankFigure

/-- The file `3.swap/Blade Top.dump`. -/
def swapDump : Dump where
  rel := ⟨["3.swap".toList, "Blade Top.dump".toList], by decide, by decide⟩
  bytes := some blankFigure

/-- The files `1.ssa/1) Core/Legendary Trigger Happy.dump` and
`1.ssa/2) Legendary/Legendary Trigger Happy.dump`, which have the same long label. -/
def coreDump : Dump where
  rel := ⟨["1.ssa".toList, "1) Core".toList, "Legendary Trigger Happy.dump".toList],
    by decide, by decide⟩
  bytes := some blankFigure

def legendaryDump : Dump where
  rel := ⟨["1.ssa".toList, "2) Legendary".toList, "Legendary Trigger Happy.dump".toList],
    by decide, by decide⟩
  bytes := some blankFigure

/-- The entries after one new dump. -/
def grown (py : Python) (old : List LibraryEntry) (p : Dump) : List LibraryEntry :=
  withDisplayNames (old ++ [newEntry py old.length p.rel p.contents])

section OneDump

variable {py : Python} {old : List LibraryEntry} {data : List (List U8)} {base : Library} {p : Dump}

/-- Merging one dump that a new library does not list. -/
theorem merged_singleton (h : Extended py old data) (hread : p.bytes = some p.contents)
    (hsize : p.contents.length = 1024) (hnew : relKey py p.rel ∉ old.map (listedKey py))
    (hcount : old.length < 640) (hnodup : ((grown py old p).map LibraryEntry.displayName).Nodup) :
    merged py [p] (writeLibrary base old data) = .ok (grown py old p, data ++ [p.contents]) := by
  have hstep : mergeDump py ⟨old, old.map (listedKey py), data⟩ p =
      .ok ⟨old ++ [newEntry py old.length p.rel p.contents],
        old.map (listedKey py) ++ [relKey py p.rel], data ++ [p.contents]⟩ := by
    rw [mergeDump, hread]
    simp only [hsize, ne_eq, not_true_eq_false, if_false, hnew]
  have hm : (sortedDumps py [p]).foldlM (mergeDump py) ⟨old, old.map (listedKey py), data⟩ =
      .ok ⟨old ++ [newEntry py old.length p.rel p.contents],
        old.map (listedKey py) ++ [relKey py p.rel], data ++ [p.contents]⟩ := by
    rw [sortedDumps, List.mergeSort_singleton, List.foldlM_cons, hstep]
    rfl
  have hlen : (old ++ [newEntry py old.length p.rel p.contents]).length ≤ 640 := by
    rw [List.length_append, List.length_singleton]
    exact hcount
  exact merged_eq_ok.mpr ⟨old, _, 24, data, _, rfl, writeLibrary_catalog,
    checkCatalog_newCatalog h.count, h.figureAt, hm, hlen, hnodup, rfl, rfl⟩

end OneDump

/-- The library without entries is one that `extend` may have made. -/
theorem emptyLibrary_extended : Extended asciiPython [] [] where
  figures := .nil
  count := by decide
  named := rfl
  nodup := .nil

/-- The library that `extend` makes of one dump. -/
def firstLibrary (p : Dump) : Library :=
  writeLibrary emptyLibrary (grown asciiPython [] p) [p.contents]

section First

variable {p : Dump}

/-- One dump is merged into the library without entries. -/
theorem merged_first (hread : p.bytes = some p.contents) (hsize : p.contents.length = 1024) :
    merged asciiPython [p] emptyLibrary = .ok (grown asciiPython [] p, [p.contents]) :=
  merged_singleton emptyLibrary_extended hread hsize List.not_mem_nil (by decide)
    (List.nodup_singleton _)

/-- The library without entries is extended by one dump. -/
theorem extend_first (hread : p.bytes = some p.contents) (hsize : p.contents.length = 1024) :
    extend asciiPython [p] emptyLibrary none =
      (.ok (grown asciiPython [] p), some (firstLibrary p)) :=
  extend_eq_ok.mpr ⟨rfl, _, merged_first hread hsize, rfl⟩

/-- The entries of a library of two figures. -/
def secondEntries (p q : Dump) : List LibraryEntry := grown asciiPython (grown asciiPython [] p) q

/-- A library of two figures. -/
def secondLibrary (p q : Dump) : Library :=
  writeLibrary (firstLibrary p) (secondEntries p q) [p.contents, q.contents]

/-- A figure joins a library that has an entry already. -/
theorem extend_second {q : Dump} (hread : p.bytes = some p.contents)
    (hsize : p.contents.length = 1024) (hread' : q.bytes = some q.contents)
    (hsize' : q.contents.length = 1024)
    (hnew : relKey asciiPython q.rel ∉ (grown asciiPython [] p).map (listedKey asciiPython))
    (hnodup : ((secondEntries p q).map LibraryEntry.displayName).Nodup) :
    extend asciiPython [q] (firstLibrary p) none =
      (.ok (secondEntries p q), some (secondLibrary p q)) := by
  have hfirst := merged_extended (merged_first hread hsize)
  have hlen : (grown asciiPython [] p).length < 640 := by
    rw [grown, withDisplayNames, List.length_mapIdx]
    exact (by decide : 1 < 640)
  refine extend_eq_ok.mpr ⟨rfl, _, ?_, rfl⟩
  exact merged_singleton hfirst hread' hsize' hnew hlen hnodup

end First

/-- The figure of zeros has 1024 bytes. -/
theorem length_blankFigure : blankFigure.length = 1024 := List.length_replicate

/-- The path of the swap figure is plain. -/
theorem swapDump_plain : ∀ p ∈ [swapDump], p.rel.Plain := by
  intro p hp
  rw [List.mem_singleton] at hp
  subst hp
  exact ⟨by decide, fun c => by simp [swapDump]⟩

/-- A swap figure joins a library that has an entry already. -/
theorem extend_swapDump :
    extend asciiPython [swapDump] (firstLibrary dottedDump) none =
      (.ok (secondEntries dottedDump swapDump), some (secondLibrary dottedDump swapDump)) :=
  extend_second rfl length_blankFigure rfl length_blankFigure (by decide) (by decide)

/-! ### Preservation -/

/-- **Extending a library preserves it.**  Every old index keeps its figure, its
hash, its source and its journals, so `e11_load` gives the same; the new entries
are the dumps whose path was not listed, each path once, in the order of the
paths; extending the result by the same dumps, in whatever order they are found,
gives the same library if `PureWindowsPath` reads their paths as they are; and a
rejected input leaves the destination as it was. -/
theorem extend_preserves (py : Python) (source : List Dump) (existing : Library)
    (dest : Option Library) :
    (∀ entries dest', extend py source existing dest = (.ok entries, dest') →
      ∃ lib old added, dest' = some lib ∧ existing.json = some old ∧ lib.json = some entries ∧
        (∀ i e, old[i]? = some e → ∃ e', entries[i]? = some e' ∧ IndexKept existing lib i e e') ∧
        Appended py source old added entries lib ∧
        ((∀ p ∈ source, p.rel.Plain) →
          ∀ source' ⊆ source, extend py source' lib none = (.ok entries, some lib))) ∧
      ∀ err dest', extend py source existing dest = (.error err, dest') → dest' = dest := by
  constructor
  · intro entries dest' h
    obtain ⟨lib, rfl⟩ := extend_isSome h
    obtain ⟨-, data, hmerged, rfl⟩ := extend_eq_ok.mp h
    have hext := merged_extended hmerged
    obtain ⟨old, cat, stride, oldData, m, hjson, hcat, hcheck, hold, hm, -, -, rfl, rfl⟩ :=
      merged_eq_ok.mp hmerged
    obtain ⟨added, hadded⟩ := foldlM_mergeDump hm
    refine ⟨_, old, added, rfl, hjson, rfl, fun i e he => hadded.indexKept hext hcat hcheck hold he,
      hadded.appended hold.length (hext.figures.length ▸ hext.count), fun hplain source' hsub => ?_⟩
    have hsettled := settled_of_merge hm (fun p hp => hplain p (List.mem_mergeSort.mp hp)) rfl
    exact hext.extend_again fun p hp =>
      (hsettled p (List.mem_mergeSort.mpr (hsub hp))).withDisplayNames
  · exact fun err dest' h => extend_error h

/-- The preservation of a library with an entry, and of a destination that is
taken. -/
theorem extend_preserves_second :
    (∃ old added, (firstLibrary dottedDump).json = some old ∧
        (∀ i e, old[i]? = some e → ∃ e', (secondEntries dottedDump swapDump)[i]? = some e' ∧
          IndexKept (firstLibrary dottedDump) (secondLibrary dottedDump swapDump) i e e') ∧
        Appended asciiPython [swapDump] old added (secondEntries dottedDump swapDump)
          (secondLibrary dottedDump swapDump) ∧
        extend asciiPython [swapDump] (secondLibrary dottedDump swapDump) none =
          (.ok (secondEntries dottedDump swapDump), some (secondLibrary dottedDump swapDump))) ∧
      (extend asciiPython [swapDump] (firstLibrary dottedDump) (some emptyLibrary)).2 =
        some emptyLibrary := by
  have h := extend_preserves asciiPython [swapDump] (firstLibrary dottedDump) none
  have herr := extend_preserves asciiPython [swapDump] (firstLibrary dottedDump) (some emptyLibrary)
  obtain ⟨lib, old, added, hlib, hold, -, hkept, happended, hagain⟩ := h.1 _ _ extend_swapDump
  cases hlib
  exact ⟨⟨old, added, hold, hkept, happended, hagain swapDump_plain _ (List.Subset.refl _)⟩,
    herr.2 (.value "Use a new destination directory") _ rfl⟩

/-- Running `extend` again on the result is not the identity for a path that
`PureWindowsPath` reads as another one: `c:./x.dump` is listed as `c:x.dump`, so
the dump is appended a second time. -/
theorem extend_again_differs :
    ∃ entries lib entries' lib', extend asciiPython [dottedDump] emptyLibrary none =
        (.ok entries, some lib) ∧
      (∀ x ∈ dottedDump.rel.parts, '\\' ∉ x) ∧
      extend asciiPython [dottedDump] lib none = (.ok entries', some lib') ∧
      entries'.length = entries.length + 1 ∧ lib'.files catalogName ≠ lib.files catalogName := by
  have hfirst := merged_extended (merged_first (p := dottedDump) rfl length_blankFigure)
  have hagain : merged asciiPython [dottedDump] (firstLibrary dottedDump) =
      .ok (grown asciiPython (grown asciiPython [] dottedDump) dottedDump,
        [dottedDump.contents] ++ [dottedDump.contents]) :=
    merged_singleton hfirst rfl length_blankFigure (by decide) (by decide) (by decide)
  refine ⟨_, _, _, _, extend_first rfl length_blankFigure, by decide,
    extend_eq_ok.mpr ⟨rfl, _, hagain, rfl⟩, by decide, fun hcat => ?_⟩
  -- the number of entries is in the header
  rw [firstLibrary, writeLibrary_catalog, writeLibrary_catalog, Option.some.injEq,
    List.ofFn_inj] at hcat
  have hcount := congrArg (fun c : Bytes 16416 => be32 c.byte 4) hcat
  rw [(be32_newCatalog _).2.1, (be32_newCatalog _).2.1] at hcount
  exact absurd hcount (by decide)

end VirtualPortal
