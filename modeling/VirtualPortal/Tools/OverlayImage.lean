/-
# What the console loads

The menu is compiled for one address and the hooks lead to its functions, so the patched
executable is right if the console finds the one there and the others at their sites.
`overlay_image` says so of every file that `build_e11_overlay.py` accepts, as long as it
is an executable at all (`Executable`): its segments lie behind the header and inside the
file, share no byte and no address, and consist of whole words.

A hook is put at the file offset of its site.  Nothing else is loaded from there, since
the segments are apart, so each hook changes one word of the image and leaves the words
of the hooks before it (`Hooked.hook`).
-/

import VirtualPortal.Tools.BuildOverlay

namespace VirtualPortal
namespace BuildOverlay

/-- The segments of an executable. -/
structure Executable (b : List U8) : Prop where
  inside : ∀ q ∈ segments (header b), 256 ≤ q.offset ∧ q.offset + q.size ≤ b.length
  apart : Place.Apart (segments (header b))
  aligned : ∀ q ∈ segments (header b), 4 ∣ q.addr ∧ 4 ∣ q.size

/-- The address is one of the word that the hook replaces. -/
def Hook.Covers (hk : Hook) (a : ℕ) : Prop := hk.addr ≤ a ∧ a < hk.addr + 4

/-- The words of two hooks have no byte in common. -/
def Hook.Clear (hk hk' : Hook) : Prop := hk.addr + 4 ≤ hk'.addr ∨ hk'.addr + 4 ≤ hk.addr

/-! ### Hook after hook -/

/-- The file `b` once the hooks `done` are put into the original. -/
structure Hooked (original b : List U8) (done : List Hook) : Prop where
  length : b.length = original.length
  start : ∀ i < 256, b[i]? = original[i]?
  hooked : ∀ hk ∈ done, hk.InReach ∧
    Place.Shows (segments (header original)) original hk.addr (wordBytes hk.old) ∧
    Place.Shows (segments (header original)) b hk.addr (wordBytes hk.branch)
  kept : ∀ a, (∀ hk ∈ done, ¬ hk.Covers a) →
    Place.image (segments (header original)) b a =
      Place.image (segments (header original)) original a

section Hooks

variable {original b b' : List U8} {done : List Hook} {hk : Hook}

/-- A check that succeeds before the rest. -/
theorem guard_bind_eq_some {α : Type} {p : Prop} [Decidable p] {f : Unit → Option α} {x : α} :
    (guard p >>= f) = some x ↔ p ∧ f () = some x := by
  by_cases hp : p <;> simp [guard, hp, failure]

/-- What `hook` has checked and written when it succeeds. -/
theorem hook_eq_some {segs : List Place} (h : hook segs b hk = some b') :
    ∃ o, Place.find segs hk.addr = some o ∧ o + 4 ≤ b.length ∧ wordAt b o = hk.old ∧ hk.InReach ∧
      b' = Segment.write b ⟨o, wordBytes hk.branch⟩ := by
  unfold hook at h
  obtain ⟨o, ho, h⟩ := Option.bind_eq_some_iff.mp h
  obtain ⟨hword, h⟩ := guard_bind_eq_some.mp h
  obtain ⟨hreach, h⟩ := guard_bind_eq_some.mp h
  exact ⟨o, ho, hword.1, hword.2, hreach, (Option.some.inj h).symm⟩

/-- Nothing is put yet. -/
theorem Hooked.nil (original : List U8) : Hooked original original [] :=
  ⟨rfl, fun _ _ => rfl, fun _ hk => absurd hk List.not_mem_nil, fun _ _ => rfl⟩

/-- One more hook. -/
theorem Hooked.put (h : Hooked original b done) (hexe : Executable original)
    (haligned : 4 ∣ hk.addr) (hclear : ∀ hk' ∈ done, hk'.Clear hk)
    (hb : hook (segments (header original)) b hk = some b') :
    Hooked original b' (done ++ [hk]) := by
  obtain ⟨o, ho, hlen, hword, hreach, rfl⟩ := hook_eq_some hb
  obtain ⟨q, hq, hholds, hoq⟩ := Place.exists_of_find ho
  obtain ⟨hstart, hstop⟩ := hexe.inside q hq
  -- the site and its segment consist of whole words
  have hwhole : hk.addr + 4 ≤ q.addr + q.size := by
    obtain ⟨haddr, hsize⟩ := hexe.aligned q hq
    unfold Place.Holds at hholds
    omega
  have hfit : hk.addr + (wordBytes hk.branch).length ≤ q.addr + q.size := hwhole
  have hfile : o + (wordBytes hk.branch).length ≤ b.length := hlen
  have hself := Place.image_write_self hexe.apart hq hholds ho hfit hfile
  have hother {a : ℕ} (ha : ¬ hk.Covers a) :
      Place.image (segments (header original))
          (Segment.write b ⟨o, wordBytes hk.branch⟩) a =
        Place.image (segments (header original)) b a := by
    refine Place.image_write_other hexe.apart hq hholds ho hfit hfile ?_
    rw [length_wordBytes]
    unfold Hook.Covers at ha
    omega
  -- the word that the builder has compared is still the one of the original
  have hold : Place.Shows (segments (header original)) original hk.addr
      (wordBytes hk.old) := by
    intro k hk'
    rw [length_wordBytes] at hk'
    have huncovered : ∀ hk'' ∈ done, ¬ hk''.Covers (hk.addr + k) := by
      intro hk'' hmem hcovers
      have hc := hclear hk'' hmem
      unfold Hook.Clear at hc
      unfold Hook.Covers at hcovers
      omega
    rw [← h.kept _ huncovered, Place.image,
      Place.find_add hexe.apart hq hholds ho (by omega), Option.bind_some,
      getElem?_wordAt hlen hk', hword]
  refine ⟨?_, fun i hi => ?_, fun hk' hmem => ?_, fun a ha => ?_⟩
  · rw [Segment.length_write (s := ⟨o, wordBytes hk.branch⟩) hfile]
    exact h.length
  · rw [Segment.getElem?_write_other (s := ⟨o, wordBytes hk.branch⟩) (by dsimp only; omega)
      (Or.inl (by dsimp only; unfold Place.Holds at hholds; omega))]
    exact h.start i hi
  · rcases List.mem_append.mp hmem with hmem | hmem
    · obtain ⟨hreach', hold', hnew'⟩ := h.hooked hk' hmem
      refine ⟨hreach', hold', fun k hk'' => ?_⟩
      rw [length_wordBytes] at hk''
      rw [hother]
      · exact hnew' k hk''
      · have hc := hclear hk' hmem
        unfold Hook.Clear at hc
        unfold Hook.Covers
        omega
    · rw [List.mem_singleton.mp hmem]
      exact ⟨hreach, hold, hself⟩
  · rw [hother (ha hk (List.mem_append_right _ (List.mem_singleton_self _)))]
    exact h.kept a fun hk' hmem => ha hk' (List.mem_append_left _ hmem)

/-- All hooks of a list. -/
theorem Hooked.run (h : Hooked original b done) (hexe : Executable original) {hs : List Hook}
    (haligned : ∀ hk ∈ hs, 4 ∣ hk.addr) (hclear : (done ++ hs).Pairwise Hook.Clear)
    (hb : hs.foldlM (hook (segments (header original))) b = some b') :
    Hooked original b' (done ++ hs) := by
  induction hs generalizing b done with
  | nil =>
      obtain rfl := Option.some.inj hb
      rwa [List.append_nil]
  | cons hk hs ih =>
      obtain ⟨b₁, hb₁, hb⟩ := Option.bind_eq_some_iff.mp hb
      have hbefore : ∀ hk' ∈ done, hk'.Clear hk := fun hk' hmem =>
        (List.pairwise_append.mp hclear).2.2 hk' hmem hk List.mem_cons_self
      have hnext := h.put hexe (haligned hk List.mem_cons_self) hbefore hb₁
      have hsame : done ++ hk :: hs = (done ++ [hk]) ++ hs := by
        rw [List.append_assoc, List.singleton_append]
      rw [hsame] at hclear ⊢
      exact ih hnext (fun hk' hmem => haligned hk' (List.mem_cons_of_mem hk hmem)) hclear hb

end Hooks

/-! ### The games that are known -/

/-- The sites of the hooks. -/
def Profile.sites (p : Profile) (syncCopy : Bool) : List ℕ :=
  [p.vi, p.read, p.sample] ++
  if syncCopy then (if p.copyEntry then [p.copyDisp] else []) ++ p.copySites else []

/-- The hooks are at the sites of the profile. -/
theorem hooks_addr (p : Profile) (s : Symbols) (syncCopy : Bool) :
    (hooks p s syncCopy).map Hook.addr = p.sites syncCopy := by
  unfold hooks Profile.sites
  cases syncCopy <;> cases p.copyEntry <;> simp [Function.comp_def]

/-- Sites are different words. -/
theorem profiles_sites : ∀ game ∈ profiles, ∀ syncCopy,
    (game.2.sites syncCopy).Nodup ∧ ∀ a ∈ game.2.sites syncCopy, 4 ∣ a := by
  decide

/-- The calls that are redirected go to `memcpy` and to `copy_disp`. -/
theorem profiles_calls : ∀ game ∈ profiles,
    branchTarget game.2.sample game.2.sampleInstruction = some ((game.2.memcpy : ℤ), true) ∧
      ∀ site ∈ game.2.copySites, (Hook.mk site 0 game.2.copyDisp true).InReach := by
  decide

/-- The hooks of a known game are clear of each other. -/
theorem hooks_clear {game : String × Profile} (hgame : game ∈ profiles) (s : Symbols)
    (syncCopy : Bool) :
    (∀ hk ∈ hooks game.2 s syncCopy, 4 ∣ hk.addr) ∧
      (hooks game.2 s syncCopy).Pairwise Hook.Clear := by
  obtain ⟨hnodup, haligned⟩ := profiles_sites game hgame syncCopy
  rw [← hooks_addr game.2 s] at hnodup haligned
  have haligned' : ∀ hk ∈ hooks game.2 s syncCopy, 4 ∣ hk.addr := fun hk hmem =>
    haligned _ (List.mem_map_of_mem hmem)
  refine ⟨haligned', ?_⟩
  refine (List.pairwise_map.mp hnodup).imp_of_mem fun {hk hk'} hmem hmem' hne => ?_
  have h := haligned' hk hmem
  have h' := haligned' hk' hmem'
  unfold Hook.Clear
  omega

/-- A call that is redirected went to `memcpy` or to `copy_disp`. -/
theorem hooks_calls {game : String × Profile} (hgame : game ∈ profiles) {s : Symbols}
    {syncCopy : Bool} {hk : Hook} (hmem : hk ∈ hooks game.2 s syncCopy) (hlink : hk.link = true) :
    branchTarget hk.addr hk.old = some ((game.2.memcpy : ℤ), true) ∨
      branchTarget hk.addr hk.old = some ((game.2.copyDisp : ℤ), true) := by
  obtain ⟨hsample, hsites⟩ := profiles_calls game hgame
  unfold hooks at hmem
  rcases List.mem_append.mp hmem with hmem | hmem
  · simp only [List.mem_cons, List.not_mem_nil, or_false] at hmem
    rcases hmem with rfl | rfl | rfl
    · cases hlink
    · cases hlink
    · exact Or.inl hsample
  · split_ifs at hmem with hsync hentry
    · rcases List.mem_append.mp hmem with hmem | hmem
      · rw [List.mem_singleton.mp hmem] at hlink
        cases hlink
      · obtain ⟨site, hsite, rfl⟩ := List.mem_map.mp hmem
        exact Or.inr (Hook.branchTarget_branch (hsites site hsite))
    · rw [List.nil_append] at hmem
      obtain ⟨site, hsite, rfl⟩ := List.mem_map.mp hmem
      exact Or.inr (Hook.branchTarget_branch (hsites site hsite))
    · cases hmem

/-! ### The result -/

/-- What the console loads from the result `b`, compared to the original. -/
structure OverlayImage (original b : List U8) (p : Profile) (hs : List Hook) (raw : List U8) :
    Prop where
  /-- The menu is where it was compiled for. -/
  menu : Place.Shows (segments (header b)) b overlayBase (overlayPayload raw)
  /-- A site had the instruction that the builder knows, and has a branch to its hook. -/
  hooked : ∀ hk ∈ hs,
    Place.Shows (segments (header original)) original hk.addr (wordBytes hk.old) ∧
    Place.Shows (segments (header b)) b hk.addr (wordBytes hk.branch) ∧
    branchTarget hk.addr hk.branch = some ((hk.dest : ℤ), hk.link)
  calls : ∀ hk ∈ hs, hk.link = true →
    branchTarget hk.addr hk.old = some ((p.memcpy : ℤ), true) ∨
      branchTarget hk.addr hk.old = some ((p.copyDisp : ℤ), true)
  /-- Everything else is as it was. -/
  kept : ∀ a, ¬ (overlayPlace 0).Holds a → (∀ hk ∈ hs, ¬ hk.Covers a) →
    Place.image (segments (header b)) b a =
      Place.image (segments (header original)) original a
  /-- So are the zeroed range and the entry point. -/
  entry : ∀ k, 54 ≤ k → k < 64 → header b k = header original k
  executable : Executable b
  /-- The sizes are those that `apply_patch` accepts. -/
  size : original.length ≤ b.length ∧ b.length ≤ original.length + 0x2000

section Result

variable {original b raw : List U8} {s : Symbols} {sha256 : List U8 → String}
  {multiSlot syncCopy : Bool}

/-- The hooked file `b` with its new header, before the menu is appended. -/
def headed (original b : List U8) (i : ℕ) : List U8 :=
  Segment.write (padTo32 b) ⟨0, headerBytes (overlayHeader (header original) i (padTo32 b).length)⟩

/-- The steps of an accepted file. -/
structure Built (original : List U8) (game : String × Profile) (s : Symbols) (syncCopy : Bool)
    (raw b b₁ : List U8) (i : ℕ) : Prop where
  known : game ∈ profiles
  words : 256 ≤ original.length
  fits : raw.length ≤ 0x1400
  clear : ∀ q ∈ segments (header original),
    ¬ (overlayBase < q.addr + q.size ∧ q.addr < overlayBase + overlaySize)
  run : (hooks game.2 s syncCopy).foldlM (hook (segments (header original))) original = some b₁
  slot : i < 7
  free : header original (36 + i) = 0
  bound : (padTo32 b₁).length < 2 ^ 32
  result : b = headed original b₁ i ++ overlayPayload raw

/-- What the builder has done when it succeeds. -/
theorem buildOverlay_eq_some (h : buildOverlay sha256 multiSlot syncCopy original s raw = some b) :
    ∃ game b₁ i, game.2.sha256 = sha256 original ∧ Built original game s syncCopy raw b b₁ i := by
  unfold buildOverlay at h
  obtain ⟨-, h⟩ := guard_bind_eq_some.mp h
  obtain ⟨hwords, h⟩ := guard_bind_eq_some.mp h
  dsimp only at h
  split at h
  · next name p hfilter =>
      have hgame : (name, p) ∈ profiles.filter fun game => game.2.sha256 = sha256 original := by
        rw [hfilter]
        exact List.mem_singleton_self _
      obtain ⟨hknown, hsha⟩ := List.mem_filter.mp hgame
      obtain ⟨-, h⟩ := guard_bind_eq_some.mp h
      obtain ⟨hfits, h⟩ := guard_bind_eq_some.mp h
      obtain ⟨hclear, h⟩ := guard_bind_eq_some.mp h
      obtain ⟨-, h⟩ := guard_bind_eq_some.mp h
      obtain ⟨b₁, hrun, h⟩ := Option.bind_eq_some_iff.mp h
      obtain ⟨i, hi, h⟩ := Option.bind_eq_some_iff.mp h
      obtain ⟨hbound, h⟩ := guard_bind_eq_some.mp h
      exact ⟨(name, p), b₁, i, of_decide_eq_true hsha, hknown, hwords, hfits.1, hclear, hrun,
        List.mem_range.mp (List.mem_of_find?_eq_some hi), by simpa using List.find?_some hi, hbound,
        (Option.some.inj h).symm⟩
  · cases h

/-- The padding adds at most 31 bytes. -/
theorem length_padTo32 (b : List U8) :
    b.length ≤ (padTo32 b).length ∧ (padTo32 b).length ≤ b.length + 31 := by
  unfold padTo32
  rw [List.length_append, List.length_replicate]
  omega

/-- The payload of the new segment has the size in the header. -/
theorem length_overlayPayload (h : raw.length ≤ 0x1400) :
    (overlayPayload raw).length = overlaySize := by
  unfold overlayPayload overlaySize
  rw [List.length_append, List.length_replicate]
  omega

variable {game : String × Profile} {b₁ : List U8} {i : ℕ}

/-- The executable before the new segment has its hooks. -/
theorem Built.hooked (h : Built original game s syncCopy raw b b₁ i) (hexe : Executable original) :
    Hooked original b₁ (hooks game.2 s syncCopy) := by
  obtain ⟨haligned, hclear⟩ := hooks_clear h.known s syncCopy
  exact (Hooked.nil original).run hexe haligned hclear h.run

/-- The lengths of the files on the way. -/
theorem Built.lengths (h : Built original game s syncCopy raw b b₁ i) (hexe : Executable original) :
    (headed original b₁ i).length = (padTo32 b₁).length ∧ original.length ≤ (padTo32 b₁).length ∧
      (padTo32 b₁).length ≤ original.length + 31 ∧
      b.length = (padTo32 b₁).length + overlaySize := by
  have hlength := (h.hooked hexe).length
  obtain ⟨hlo, hhi⟩ := length_padTo32 b₁
  have hwords := h.words
  have hfile : (headed original b₁ i).length = (padTo32 b₁).length := by
    refine Segment.length_write ?_
    show 0 + (headerBytes _).length ≤ _
    rw [length_headerBytes]
    omega
  refine ⟨hfile, by omega, by omega, ?_⟩
  rw [h.result, List.length_append, length_overlayPayload h.fits]
  exact congrArg (· + overlaySize) hfile

/-- The header of the result. -/
theorem Built.header_eq (h : Built original game s syncCopy raw b b₁ i) (hexe : Executable original)
    {k : ℕ} (hk : k < 64) :
    header b k = overlayHeader (header original) i (padTo32 b₁).length k := by
  obtain ⟨hfile, hlo, -⟩ := h.lengths hexe
  have hwords := h.words
  refine header_headerBytes (fun j hj => ?_) hk ?_
  · rw [h.result, List.getElem?_append_left (by omega), headed]
    have hself := @Segment.getElem?_write_self _ (padTo32 b₁)
      ⟨0, headerBytes (overlayHeader (header original) i (padTo32 b₁).length)⟩ j
      (Nat.zero_le _) (by rw [length_headerBytes]; exact hj)
    rwa [Nat.zero_add] at hself
  · unfold overlayHeader
    have hold := header_lt original k
    have hbound := h.bound
    simp only [Function.update_apply]
    split_ifs
    · decide
    · decide
    · exact hbound
    · exact hold

/-- The segments are the new one and those of the original. -/
theorem Built.mem_segments (h : Built original game s syncCopy raw b b₁ i)
    (hexe : Executable original) {q : Place} :
    q ∈ segments (header b) ↔
      q = overlayPlace (padTo32 b₁).length ∨ q ∈ segments (header original) :=
  (segments_congr fun _ hk => h.header_eq hexe hk).trans (mem_overlayHeader h.slot h.free)

/-- The segments of the result are apart. -/
theorem Built.apart (h : Built original game s syncCopy raw b b₁ i) (hexe : Executable original) :
    Place.Apart (segments (header b)) := by
  obtain ⟨-, hlo, -⟩ := h.lengths hexe
  have hnew {q : Place} (hq : q ∈ segments (header original)) :
      Place.Clear (padTo32 b₁).length overlaySize q.offset q.size ∧
        Place.Clear overlayBase overlaySize q.addr q.size := by
    have hinside := (hexe.inside q hq).2
    have hclear := h.clear q hq
    unfold Place.Clear
    omega
  have hsymm {o n o' n' : ℕ} (hc : Place.Clear o n o' n') : Place.Clear o' n' o n := Or.symm hc
  intro q hq q' hq' hne
  rcases (h.mem_segments hexe).mp hq with rfl | hold
  · rcases (h.mem_segments hexe).mp hq' with rfl | hold'
    · exact absurd rfl hne
    · exact hnew hold'
  · rcases (h.mem_segments hexe).mp hq' with rfl | hold'
    · exact ⟨hsymm (hnew hold).1, hsymm (hnew hold).2⟩
    · exact hexe.apart q hold q' hold' hne

/-- Outside the menu the image is the one of the hooked file. -/
theorem Built.image_eq (h : Built original game s syncCopy raw b b₁ i) (hexe : Executable original)
    {a : ℕ} (ha : ¬ (overlayPlace 0).Holds a) :
    Place.image (segments (header b)) b a = Place.image (segments (header original)) b₁ a := by
  obtain ⟨hfile, hlo, -⟩ := h.lengths hexe
  have hlength := (h.hooked hexe).length
  have happend : Place.image (segments (header b)) (headed original b₁ i ++ overlayPayload raw) a =
      Place.image (segments (header original)) (headed original b₁ i) a := by
    refine Place.image_append_other (q := overlayPlace (padTo32 b₁).length) (h.apart hexe)
      (fun q hq => (h.mem_segments hexe).mpr (Or.inr hq))
      (fun q hq hne => ((h.mem_segments hexe).mp hq).resolve_left hne) (fun q hq => ?_) ha
    have hinside := (hexe.inside q hq).2
    omega
  have hresult : Place.image (segments (header b)) b a =
      Place.image (segments (header b)) (headed original b₁ i ++ overlayPayload raw) a :=
    congrArg (fun file => Place.image (segments (header b)) file a) h.result
  rw [hresult, happend]
  refine Place.image_congr (fun q hq x hx hx' => ?_) a
  obtain ⟨hstart, hstop⟩ := hexe.inside q hq
  have hwritten : (headed original b₁ i)[x]? = (padTo32 b₁)[x]? := by
    refine Segment.getElem?_write_other (Nat.zero_le _) (Or.inr ?_)
    show 0 + (headerBytes _).length ≤ x
    rw [length_headerBytes]
    omega
  rw [hwritten, padTo32, List.getElem?_append_left (by omega)]

/-- **What the builder makes is the game with the menu in it.**  From an executable that
it accepts it makes one that loads the menu where it was compiled for, has at every site a
branch to the hook in place of the instruction that was expected there, and loads
everything else as before. -/
theorem overlay_image (hexe : Executable original)
    (hb : buildOverlay sha256 multiSlot syncCopy original s raw = some b) :
    ∃ game ∈ profiles, game.2.sha256 = sha256 original ∧
      OverlayImage original b game.2 (hooks game.2 s syncCopy) raw := by
  obtain ⟨game, b₁, i, hsha, h⟩ := buildOverlay_eq_some hb
  have hhooked := h.hooked hexe
  obtain ⟨hfile, hlo, hhi, hlength⟩ := h.lengths hexe
  have hmine : overlayPlace (padTo32 b₁).length ∈ segments (header b) :=
    (h.mem_segments hexe).mpr (Or.inl rfl)
  refine ⟨game, h.known, hsha, ?_, fun hk hmem => ?_, fun hk hmem => hooks_calls h.known hmem,
    fun a ha hcovers => ?_, fun k hk hk' => ?_, ⟨fun q hq => ?_, h.apart hexe, fun q hq => ?_⟩, ?_⟩
  · have hmenu := Place.image_append_self (h.apart hexe) hmine hfile.symm
      (length_overlayPayload h.fits).symm
    rwa [← h.result] at hmenu
  · obtain ⟨hreach, hold, hnew⟩ := hhooked.hooked hk hmem
    refine ⟨hold, fun k hlt => ?_, Hook.branchTarget_branch hreach⟩
    have hbyte := hold k hlt
    rw [getElem?_wordBytes hlt] at hbyte
    obtain ⟨q, hq, hholds⟩ := Place.exists_of_image hbyte
    have hclear := h.clear q hq
    rw [h.image_eq hexe]
    · exact hnew k hlt
    · unfold Place.Holds overlayPlace
      unfold Place.Holds at hholds
      dsimp only
      omega
  · rw [h.image_eq hexe ha]
    exact hhooked.kept a hcovers
  · have hslot := h.slot
    rw [h.header_eq hexe hk']
    unfold overlayHeader
    rw [Function.update_of_ne (by omega), Function.update_of_ne (by omega),
      Function.update_of_ne (by omega)]
  · have hwords := h.words
    rcases (h.mem_segments hexe).mp hq with rfl | hq
    · show 256 ≤ (padTo32 b₁).length ∧ (padTo32 b₁).length + overlaySize ≤ b.length
      omega
    · obtain ⟨hstart, hstop⟩ := hexe.inside q hq
      omega
  · rcases (h.mem_segments hexe).mp hq with rfl | hq
    · show 4 ∣ overlayBase ∧ 4 ∣ overlaySize
      decide
    · exact hexe.aligned q hq
  · unfold overlaySize at hlength
    omega

end Result

/-! ### A small executable -/

/-- Three text segments, of one instruction each. -/
def smallHeader : ℕ → ℕ
  | 0 => 256
  | 1 => 260
  | 2 => 264
  | 18 => 2151452464
  | 19 => 2151151968
  | 20 => 2151152940
  | 36 => 4
  | 37 => 4
  | 38 => 4
  | _ => 0

/-- The three instructions that the menu hooks in the first game. -/
def smallGame : List U8 :=
  headerBytes smallHeader ++ (wordBytes 0x9421fff0 ++ wordBytes 0x9421ffe0 ++ wordBytes 1271423497)

def smallSymbols : Symbols := ⟨0x80001800, 0x80001900, 0x80001a00, 0x80001b00, 0x80002000⟩

/-- The words of the small executable's header. -/
theorem header_smallGame {k : ℕ} (hk : k < 64) : header smallGame k = smallHeader k := by
  have hlt : ∀ k < 64, smallHeader k < 2 ^ 32 := by decide
  refine header_headerBytes (fun j hj => ?_) hk (hlt k hk)
  exact List.getElem?_append_left (by rw [length_headerBytes]; exact hj)

/-- The segments of the small executable are apart and inside the file. -/
theorem smallGame_executable : Executable smallGame where
  inside q hq := by
    have hlength : smallGame.length = 268 := by
      rw [smallGame, List.length_append, length_headerBytes]
      rfl
    rw [segments_congr fun k hk => header_smallGame hk] at hq
    rw [hlength]
    revert q
    decide
  apart q hq q' hq' := by
    rw [segments_congr fun k hk => header_smallGame hk] at hq hq'
    revert q q'
    decide
  aligned q hq := by
    rw [segments_congr fun k hk => header_smallGame hk] at hq
    revert q
    decide

/-- A fingerprint that makes every file the first game. -/
def firstSha (_ : List U8) : String :=
  "8a538ccfa2d5e98778114345c4ce503dc1c983b53befc1b53cda59c5812a6821"

/-- The builder accepts the small executable. -/
theorem smallGame_built :
    (buildOverlay firstSha true false smallGame smallSymbols [0x60, 0, 0, 0]).isSome = true := by
  decide +kernel

/-- The executable that the builder makes of it. -/
theorem overlay_image_smallGame :
    ∃ b, buildOverlay firstSha true false smallGame smallSymbols [0x60, 0, 0, 0] = some b ∧
      ∃ game ∈ profiles, game.2.sha256 = firstSha smallGame ∧
        OverlayImage smallGame b game.2 (hooks game.2 smallSymbols false) [0x60, 0, 0, 0] := by
  obtain ⟨b, hb⟩ := Option.isSome_iff_exists.mp smallGame_built
  exact ⟨b, hb, overlay_image smallGame_executable hb⟩

end BuildOverlay
end VirtualPortal
