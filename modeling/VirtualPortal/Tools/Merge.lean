/-
# What the library tool checks and merges

`checkFigures` accepts a library exactly when every figure file is there and
belongs to its entry (`checkFigures_eq_ok`).  One round of the loop over the
dumps appends one entry or nothing (`mergeDump_ok`); a whole run appends, in the
order of the loop, the first dump of each path that was not listed before
(`foldlM_mergeDump`).
-/

import VirtualPortal.Tools.Library
import VirtualPortal.Lib.Indexed
import Mathlib.Data.List.Nodup

namespace VirtualPortal

section Merging

variable {py : Python}

/-! ### The figures of an existing library -/

/-- What `extend` has checked about entry `i` and its figure `b`. -/
structure FigureAt (py : Python) (lib : Library) (cat : List U8) (stride i : ℕ) (e : LibraryEntry)
    (b : List U8) : Prop where
  file : lib.files (figName i) = some b
  entry : EntryMatches py i e b
  hash : (be32 (cat.getD · 0) (32 + i * stride + if stride = 64 then 4 else 0)).toNat = fnv b

/-- A file is read just if it is there. -/
theorem readBytes_eq_ok {lib : Library} {name : Text} {b : List U8} :
    lib.readBytes name = .ok b ↔ lib.files name = some b := by
  unfold Library.readBytes
  split <;> simp_all

/-- The entries are read just if they can be decoded. -/
theorem loadJson_eq_ok {lib : Library} {es : List LibraryEntry} :
    lib.loadJson = .ok es ↔ lib.json = some es := by
  unfold Library.loadJson
  split <;> simp_all

/-- A requirement passes just if it holds. -/
theorem require_eq_ok {p : Prop} [Decidable p] {message : String} {u : Unit} :
    require p message = .ok u ↔ p := by
  unfold require
  split_ifs with h <;> simp [h]

/-- A sequence succeeds just if both parts do. -/
theorem bind_eq_ok {α β : Type} {x : Except PyError α} {f : α → Except PyError β} {b : β} :
    x >>= f = .ok b ↔ ∃ a, x = .ok a ∧ f a = .ok b := by
  cases x with
  | error e => simp [bind, Except.bind]
  | ok a => simp [bind, Except.bind]

/-- The checks pass exactly on a library whose figures are all there, belong to
their entries and have the hashes of the catalogue. -/
theorem checkFigures_eq_ok {lib : Library} {cat : List U8} {stride i : ℕ}
    {es : List LibraryEntry} {data : List (List U8)} :
    checkFigures py lib cat stride i es = .ok data ↔
      Indexed (FigureAt py lib cat stride) i es data := by
  induction es generalizing i data with
  | nil =>
      constructor
      · rintro ⟨⟩
        exact .nil
      · intro h
        rw [List.eq_nil_of_length_eq_zero h.length.symm]
        rfl
  | cons e es ih =>
      simp only [checkFigures, bind_eq_ok, readBytes_eq_ok, require_eq_ok, ih, pure, Except.pure,
        Except.ok.injEq, exists_const]
      constructor
      · rintro ⟨b, hfile, hentry, hhash, bs, hbs, rfl⟩
        exact Indexed.cons_iff.mpr ⟨⟨hfile, hentry, hhash⟩, hbs⟩
      · intro h
        obtain ⟨b, bs, rfl⟩ : ∃ b bs, data = b :: bs :=
          List.exists_cons_of_length_pos (h.length ▸ Nat.succ_pos _)
        obtain ⟨⟨hfile, hentry, hhash⟩, hbs⟩ := Indexed.cons_iff.mp h
        exact ⟨b, hfile, hentry, hhash, bs, hbs, rfl⟩

/-! ### One round of the loop over the dumps -/

/-- The file contents of a dump that could be read. -/
def Dump.contents (p : Dump) : List U8 := p.bytes.getD []

/-- What one round has found: a dump of 1024 bytes which is listed already with
the same contents, or which is new and becomes the last entry. -/
theorem mergeDump_ok {m m' : Merge} {p : Dump} (h : mergeDump py m p = .ok m') :
    p.bytes = some p.contents ∧ p.contents.length = 1024 ∧
      (relKey py p.rel ∈ m.paths ∧ m' = m ∧
          (∃ old, m.entries.find? (fun e => listedKey py e = relKey py p.rel) = some old ∧
            py.sha256 p.contents = old.sha256) ∨
        relKey py p.rel ∉ m.paths ∧
          m' = ⟨m.entries ++ [newEntry py m.entries.length p.rel p.contents],
            m.paths ++ [relKey py p.rel], m.data ++ [p.contents]⟩) := by
  unfold mergeDump at h
  cases hb : p.bytes with
  | none => simp [hb] at h
  | some b =>
      have hcontents : p.contents = b := by simp [Dump.contents, hb]
      rw [hcontents]
      simp only [hb] at h
      split_ifs at h with hlen hmem
      · cases hfind : m.entries.find? fun e => listedKey py e = relKey py p.rel with
        | none => simp [hfind] at h
        | some old =>
            simp only [hfind] at h
            split_ifs at h with hsha
            cases h
            exact ⟨rfl, not_not.mp hlen, .inl ⟨hmem, rfl, old, rfl, not_not.mp hsha⟩⟩
      · cases h
        exact ⟨rfl, not_not.mp hlen, .inr ⟨hmem, rfl⟩⟩

/-! ### The loop over the dumps -/

/-- The entries appended for dumps, from index `i` on. -/
def newEntries (py : Python) : ℕ → List Dump → List LibraryEntry
  | _, [] => []
  | i, p :: ps => newEntry py i p.rel p.contents :: newEntries py (i + 1) ps

/-- What the loop over the dumps `ps` has done: it has appended `added`. -/
structure Appends (py : Python) (m : Merge) (ps added : List Dump) (m' : Merge) : Prop where
  sublist : added.Sublist ps
  entries : m'.entries = m.entries ++ newEntries py m.entries.length added
  paths : m'.paths = m.paths ++ added.map fun p => relKey py p.rel
  data : m'.data = m.data ++ added.map Dump.contents
  nodup : (added.map fun p => relKey py p.rel).Nodup
  fresh : ∀ p ∈ added, relKey py p.rel ∉ m.paths
  listed : ∀ p ∈ ps, relKey py p.rel ∈ m'.paths
  sized : ∀ p ∈ ps, p.bytes = some p.contents ∧ p.contents.length = 1024

/-- No files append nothing. -/
theorem Appends.nil (m : Merge) : Appends py m [] [] m where
  sublist := .slnil
  entries := by simp [newEntries]
  paths := by simp
  data := by simp
  nodup := by simp
  fresh := by simp
  listed := by simp
  sized := by simp

/-- A dump that is listed already in front of the others. -/
theorem Appends.skip {m m' : Merge} {ps added : List Dump} {p : Dump}
    (h : Appends py m ps added m') (hp : relKey py p.rel ∈ m.paths)
    (hsized : p.bytes = some p.contents ∧ p.contents.length = 1024) :
    Appends py m (p :: ps) added m' where
  sublist := h.sublist.cons p
  entries := h.entries
  paths := h.paths
  data := h.data
  nodup := h.nodup
  fresh := h.fresh
  listed := List.forall_mem_cons.mpr ⟨by rw [h.paths]; exact List.mem_append_left _ hp, h.listed⟩
  sized := List.forall_mem_cons.mpr ⟨hsized, h.sized⟩

/-- A dump that is new in front of the others. -/
theorem Appends.cons {m m' : Merge} {ps added : List Dump} {p : Dump}
    (h : Appends py ⟨m.entries ++ [newEntry py m.entries.length p.rel p.contents],
      m.paths ++ [relKey py p.rel], m.data ++ [p.contents]⟩ ps added m')
    (hp : relKey py p.rel ∉ m.paths)
    (hsized : p.bytes = some p.contents ∧ p.contents.length = 1024) :
    Appends py m (p :: ps) (p :: added) m' where
  sublist := h.sublist.cons_cons p
  entries := by simpa [newEntries] using h.entries
  paths := by simpa using h.paths
  data := by simpa using h.data
  nodup := by
    refine List.nodup_cons.mpr ⟨fun hmem => ?_, h.nodup⟩
    obtain ⟨q, hq, hkey⟩ := List.mem_map.mp hmem
    exact h.fresh q hq (List.mem_append_right _ (by simp [hkey]))
  fresh := List.forall_mem_cons.mpr
    ⟨hp, fun q hq hmem => h.fresh q hq (List.mem_append_left _ hmem)⟩
  listed := List.forall_mem_cons.mpr ⟨by simp [h.paths], h.listed⟩
  sized := List.forall_mem_cons.mpr ⟨hsized, h.sized⟩

/-- **The merge appends the first dump of each path that was not listed**, in
the order of the loop. -/
theorem foldlM_mergeDump {m m' : Merge} {ps : List Dump}
    (h : ps.foldlM (mergeDump py) m = .ok m') : ∃ added, Appends py m ps added m' := by
  induction ps generalizing m with
  | nil =>
      cases h
      exact ⟨[], .nil _⟩
  | cons p ps ih =>
      rw [List.foldlM_cons] at h
      obtain ⟨m₁, hstep, hrest⟩ := bind_eq_ok.mp h
      obtain ⟨added, hadded⟩ := ih hrest
      obtain ⟨hread, hlen, ⟨hmem, rfl, -⟩ | ⟨hnew, rfl⟩⟩ := mergeDump_ok hstep
      · exact ⟨added, hadded.skip hmem ⟨hread, hlen⟩⟩
      · exact ⟨p :: added, hadded.cons hnew ⟨hread, hlen⟩⟩

/-- New entries belong to the dumps they were made from. -/
theorem newEntries_match {i : ℕ} {ps : List Dump} (h : ∀ p ∈ ps, p.contents.length = 1024) :
    Indexed (EntryMatches py) i (newEntries py i ps) (ps.map Dump.contents) := by
  induction ps generalizing i with
  | nil => exact .nil
  | cons p ps ih =>
      obtain ⟨hp, hps⟩ := List.forall_mem_cons.mp h
      exact Indexed.cons_iff.mpr ⟨⟨rfl, hp, rfl, rfl⟩, ih hps⟩

/-- The name of a new entry is that of its file. -/
theorem newEntries_name {i : ℕ} {ps : List Dump} {e : LibraryEntry} (h : e ∈ newEntries py i ps) :
    ∃ p ∈ ps, e.name = dumpName py p.rel := by
  induction ps generalizing i with
  | nil => simp [newEntries] at h
  | cons p ps ih =>
      rcases List.mem_cons.mp h with rfl | h
      · exact ⟨p, List.mem_cons_self, rfl⟩
      · obtain ⟨q, hq, heq⟩ := ih h
        exact ⟨q, List.mem_cons_of_mem _ hq, heq⟩

/-! ### The whole of `extend` -/

/-- What `extend` has checked and computed before it writes. -/
theorem merged_eq_ok {source : List Dump} {existing : Library} {entries : List LibraryEntry}
    {data : List (List U8)} :
    merged py source existing = .ok (entries, data) ↔
      ∃ old cat stride oldData m, existing.json = some old ∧
        existing.files catalogName = some cat ∧ checkCatalog cat old.length = .ok stride ∧
        Indexed (FigureAt py existing cat stride) 0 old oldData ∧
        (sortedDumps py source).foldlM (mergeDump py) ⟨old, old.map (listedKey py), oldData⟩ =
          .ok m ∧
        m.entries.length ≤ 640 ∧
        ((withDisplayNames m.entries).map LibraryEntry.displayName).Nodup ∧
        withDisplayNames m.entries = entries ∧ m.data = data := by
  simp only [merged, bind_eq_ok, loadJson_eq_ok, readBytes_eq_ok, checkFigures_eq_ok,
    require_eq_ok, pure, Except.pure, Except.ok.injEq, Prod.mk.injEq, exists_const]
  constructor
  · rintro ⟨old, hold, cat, hcat, stride, hstride, oldData, hdata, m, hm, hlen, hnodup, h⟩
    exact ⟨old, cat, stride, oldData, m, hold, hcat, hstride, hdata, hm, hlen, hnodup, h⟩
  · rintro ⟨old, cat, stride, oldData, m, hold, hcat, hstride, hdata, hm, hlen, hnodup, h⟩
    exact ⟨old, hold, cat, hcat, stride, hstride, oldData, hdata, m, hm, hlen, hnodup, h⟩

/-- `extend` succeeds exactly on a new directory and an accepted input, and
writes the merged library. -/
theorem extend_eq_ok {source : List Dump} {existing lib : Library} {dest : Option Library}
    {entries : List LibraryEntry} :
    extend py source existing dest = (.ok entries, some lib) ↔
      dest = none ∧ ∃ data, merged py source existing = .ok (entries, data) ∧
        lib = writeLibrary existing entries data := by
  unfold extend
  cases dest with
  | some old => simp
  | none =>
      cases h : merged py source existing with
      | error e => simp
      | ok r =>
          obtain ⟨entries', data⟩ := r
          simp only [Option.isSome_none, Bool.false_eq_true, if_false, Prod.mk.injEq,
            Except.ok.injEq, Option.some.injEq, true_and]
          constructor
          · rintro ⟨rfl, rfl⟩
            exact ⟨data, ⟨rfl, rfl⟩, rfl⟩
          · rintro ⟨data', ⟨rfl, rfl⟩, rfl⟩
            exact ⟨rfl, rfl⟩

/-- A successful `extend` has written a library. -/
theorem extend_isSome {source : List Dump} {existing : Library} {dest dest' : Option Library}
    {entries : List LibraryEntry} (h : extend py source existing dest = (.ok entries, dest')) :
    ∃ lib, dest' = some lib := by
  unfold extend at h
  split_ifs at h
  · simp at h
  · split at h
    · simp at h
    · exact ⟨_, (congrArg Prod.snd h).symm⟩

/-- **A rejected input leaves the destination as it was.** -/
theorem extend_error {source : List Dump} {existing : Library} {dest dest' : Option Library}
    {err : PyError} (h : extend py source existing dest = (.error err, dest')) : dest' = dest := by
  unfold extend at h
  split_ifs at h
  · exact (congrArg Prod.snd h).symm
  · split at h
    · exact (congrArg Prod.snd h).symm
    · simp at h

/-! ### Display names -/

/-- The display names leave the number of entries. -/
@[simp] theorem length_withDisplayNames (es : List LibraryEntry) :
    (withDisplayNames es).length = es.length := by
  simp [withDisplayNames]

/-- The display names are those of the short labels. -/
theorem getElem?_withDisplayNames (es : List LibraryEntry) (i : ℕ) :
    (withDisplayNames es)[i]? = es[i]?.map fun e =>
      { e with displayName := some (displayName (es.map shortLabel) i e) } := by
  rw [withDisplayNames, List.getElem?_mapIdx]

/-- The display names are all that `withDisplayNames` changes. -/
theorem map_withDisplayNames {β : Type} (f : LibraryEntry → β)
    (hf : ∀ e name, f { e with displayName := name } = f e) (es : List LibraryEntry) :
    (withDisplayNames es).map f = es.map f := by
  refine List.ext_getElem? fun i => ?_
  rw [List.getElem?_map, List.getElem?_map, getElem?_withDisplayNames, Option.map_map]
  exact congrArg (fun g => Option.map g es[i]?) (funext fun e => hf e _)

/-- Naming the entries once more changes nothing. -/
theorem withDisplayNames_idem (es : List LibraryEntry) :
    withDisplayNames (withDisplayNames es) = withDisplayNames es := by
  have hlabels := map_withDisplayNames shortLabel (fun _ _ => rfl) es
  refine List.ext_getElem? fun i => ?_
  rw [getElem?_withDisplayNames, getElem?_withDisplayNames, hlabels, Option.map_map]
  rfl

/-! ### A finished merge -/

/-- What holds of the entries and figures that `extend` writes. -/
structure Extended (py : Python) (entries : List LibraryEntry) (data : List (List U8)) : Prop where
  figures : Indexed (EntryMatches py) 0 entries data
  count : entries.length ≤ 640
  named : withDisplayNames entries = entries
  nodup : (entries.map LibraryEntry.displayName).Nodup

/-- Entries and figures still belong together after the loop over the dumps. -/
theorem Appends.figures {m m' : Merge} {ps added : List Dump} (h : Appends py m ps added m')
    (hm : Indexed (EntryMatches py) 0 m.entries m.data) :
    Indexed (EntryMatches py) 0 m'.entries m'.data := by
  rw [h.entries, h.data]
  refine hm.append ?_
  rw [Nat.zero_add]
  exact newEntries_match fun p hp => (h.sized p (h.sublist.subset hp)).2

/-- Display names do not matter to the figures. -/
theorem Indexed.withDisplayNames {es : List LibraryEntry} {data : List (List U8)}
    (h : Indexed (EntryMatches py) 0 es data) :
    Indexed (EntryMatches py) 0 (withDisplayNames es) data := by
  refine ⟨by rw [length_withDisplayNames, h.length], fun k e b he hb => ?_⟩
  rw [getElem?_withDisplayNames, Option.map_eq_some_iff] at he
  obtain ⟨e₀, he₀, rfl⟩ := he
  exact h.rel k e₀ b he₀ hb

/-- **Every accepted input gives a library in order**: each figure belongs to its
entry, there is room for all and no display name is given twice. -/
theorem merged_extended {source : List Dump} {existing : Library} {entries : List LibraryEntry}
    {data : List (List U8)} (h : merged py source existing = .ok (entries, data)) :
    Extended py entries data := by
  obtain ⟨old, cat, stride, oldData, m, -, -, -, hold, hm, hlen, hnodup, rfl, rfl⟩ :=
    merged_eq_ok.mp h
  obtain ⟨added, hadded⟩ := foldlM_mergeDump hm
  exact
    { figures := (hadded.figures (hold.mono fun _ _ _ hf => hf.entry)).withDisplayNames
      count := by rwa [length_withDisplayNames]
      named := withDisplayNames_idem _
      nodup := hnodup }

end Merging

/-! ### The files of a library -/

/-- The name of the file that `e11_name` selects: a figure or a journal. -/
def libraryName (i : ℕ) : Option Bool → Text
  | none => figName i
  | some k => "save".toList ++ pad3 i ++ (if k then ".sav1" else ".sav0").toList

/-- Three decimal digits. -/
theorem pad3_eq {i : ℕ} (h : i < 1000) :
    pad3 i = [(i / 100).digitChar, (i / 10 % 10).digitChar, (i % 10).digitChar] := by
  unfold pad3
  rcases Nat.lt_or_ge i 10 with h₁ | h₁
  · rw [Nat.toDigits_of_lt_base h₁, Nat.div_eq_of_lt (by omega : i < 100),
      Nat.div_eq_of_lt h₁, Nat.mod_eq_of_lt h₁]
    rfl
  rw [Nat.toDigits_of_base_le (by decide) h₁]
  rcases Nat.lt_or_ge i 100 with h₂ | h₂
  · rw [Nat.toDigits_of_lt_base (by omega), Nat.div_eq_of_lt h₂,
      Nat.mod_eq_of_lt (by omega : i / 10 < 10)]
    rfl
  · rw [Nat.toDigits_of_base_le (by decide) (by omega), Nat.div_div_eq_div_mul,
      Nat.toDigits_of_lt_base (by omega)]
    rfl

/-- Different indices are written differently. -/
theorem pad3_inj {i j : ℕ} (hi : i < 1000) (hj : j < 1000) (h : pad3 i = pad3 j) : i = j := by
  have hinj : ∀ a < 10, ∀ b < 10, a.digitChar = b.digitChar → a = b := by decide
  rw [pad3_eq hi, pad3_eq hj] at h
  obtain ⟨h₁, h₂, h₃, -⟩ : _ ∧ _ ∧ _ ∧ _ := by simpa only [List.cons.injEq] using h
  have e₁ := hinj _ (by omega) _ (by omega) h₁
  have e₂ := hinj _ (by omega) _ (by omega) h₂
  have e₃ := hinj _ (by omega) _ (by omega) h₃
  omega

/-- Different indices have different files. -/
theorem figName_inj {i j : ℕ} (hi : i < 1000) (hj : j < 1000) (h : figName i = figName j) :
    i = j := by
  rw [figName, figName, List.append_left_inj, List.append_right_inj] at h
  exact pad3_inj hi hj h

/-- The suffix of a name that ends in a dot and an extension. -/
theorem suffix_append {pre ext : Text} (hpre : pre ≠ []) (hext : ext ≠ []) (hdot : '.' ∉ ext) :
    suffix (pre ++ '.' :: ext) = '.' :: ext := by
  have htake : ((pre ++ '.' :: ext).reverse.takeWhile (· ≠ '.')).reverse = ext := by
    rw [List.reverse_append, List.reverse_cons, List.append_assoc, List.takeWhile_append_of_pos]
    · simp
    · intro c hc
      simpa using fun h : c = '.' => hdot (h ▸ List.mem_reverse.mp hc)
  have hpos := List.length_pos_iff.mpr hpre
  rw [suffix, htake]
  exact if_pos ⟨by simp, hext, by simp; omega⟩

/-- The suffix of a figure file. -/
theorem suffix_figName (i : ℕ) : suffix (figName i) = ".bin".toList :=
  suffix_append (by simp) (by decide) (by decide)

/-- The journals are the files that `extend` copies. -/
theorem suffix_journal (i : ℕ) (k : Bool) :
    suffix (libraryName i (some k)) = ".sav0".toList ∨
      suffix (libraryName i (some k)) = ".sav1".toList := by
  cases k with
  | false => exact .inl (suffix_append (by simp) (by decide) (by decide))
  | true => exact .inr (suffix_append (by simp) (by decide) (by decide))

section Files

variable {files : Text → Option (List U8)} {i k : ℕ} {b : List U8} {bs : List (List U8)}
  {name : Text}

/-- Writing figures leaves the other files alone. -/
theorem writeFigures_of_ne (h : ∀ j, i ≤ j → j < i + bs.length → name ≠ figName j) :
    writeFigures files i bs name = files name := by
  induction bs generalizing files i with
  | nil => rfl
  | cons b bs ih =>
      rw [List.length_cons] at h
      rw [writeFigures, ih fun j hj hj' => h j (by omega) (by omega),
        Function.update_of_ne (h i le_rfl (by omega))]

/-- Every figure is written to the file of its index. -/
theorem writeFigures_figName (h : i + bs.length ≤ 1000) (hb : bs[k]? = some b) :
    writeFigures files i bs (figName (i + k)) = some b := by
  induction bs generalizing files i k with
  | nil => simp at hb
  | cons b₀ bs ih =>
      rw [List.length_cons] at h
      rw [writeFigures]
      cases k with
      | zero =>
          obtain rfl : b₀ = b := by simpa using hb
          rw [writeFigures_of_ne, Nat.add_zero, Function.update_self]
          exact fun j hj hj' hname =>
            absurd (figName_inj (by omega) (by omega) hname) (by omega)
      | succ k =>
          rw [show i + (k + 1) = i + 1 + k by omega]
          exact ih (by omega) (by simpa using hb)

variable {existing : Library} {entries : List LibraryEntry} {data : List (List U8)}

/-- The files that are written. -/
theorem writeLibrary_files : (writeLibrary existing entries data).files =
    Function.update (copyJournals existing.files (writeFigures (fun _ => none) 0 data))
      catalogName (some (List.ofFn (newCatalog entries))) := rfl

/-- The catalogue that is written. -/
theorem writeLibrary_catalog :
    (writeLibrary existing entries data).files catalogName =
      some (List.ofFn (newCatalog entries)) := by
  rw [writeLibrary_files, Function.update_self]

/-- The figures of the new library. -/
theorem writeLibrary_figName (h : data.length ≤ 640) (hb : data[k]? = some b) :
    (writeLibrary existing entries data).files (figName k) = some b := by
  have hsuffix := suffix_figName k
  have hne : figName k ≠ catalogName := by
    intro hname
    have htake : (figName k).take 3 = "fig".toList := by
      rw [figName, List.append_assoc]
      exact List.take_left' (by decide)
    rw [hname] at htake
    exact absurd htake (by decide)
  have hfig := @writeFigures_figName (fun _ => none) 0 k b data (by omega) hb
  rw [writeLibrary_files, Function.update_of_ne hne, copyJournals, if_neg (by rw [hsuffix]; decide)]
  rwa [Nat.zero_add] at hfig

/-- The journals of the new library are those of the existing one. -/
theorem writeLibrary_journal (h : suffix name = ".sav0".toList ∨ suffix name = ".sav1".toList) :
    (writeLibrary existing entries data).files name = existing.files name := by
  have hcat : name ≠ catalogName := by
    rintro rfl
    exact absurd h (by decide)
  have hfig : writeFigures (fun _ => none) 0 data name = none := by
    refine writeFigures_of_ne fun j _ _ hname => ?_
    rw [hname, suffix_figName] at h
    exact absurd h (by decide)
  rw [writeLibrary_files, Function.update_of_ne hcat, copyJournals, if_pos h, hfig, Option.or_none]

end Files

end VirtualPortal
