/-
# The overlay in a game

`pc-debug/build_e11_overlay.py` puts the compiled menu into the executable of a game.
It replaces single instructions of the game by branches into the menu (`hook`), takes a
free text segment for the menu, and loads it to `0x80001800`, below the game.

| site | instruction | becomes |
| --- | --- | --- |
| `vi`, `read`, `copy_disp` | the first of a function | a branch |
| `sample`, each of `copy_sites` | a call | a call |

`overlay_image` says what a console loads from the result: the menu in its own segment,
at every site a branch that leads where it should, and everything else as it was.
-/

import VirtualPortal.Lib.Bytes
import VirtualPortal.Lib.Placed
import Mathlib.Data.List.Nodup

namespace VirtualPortal
namespace BuildOverlay

/-! ### PowerPC branches -/

/-- The target of a relative branch at an address, and whether it links. -/
def branchTarget (addr : ℕ) (instruction : U32) : Option (ℤ × Bool) :=
  if instruction >>> 26 = 18 ∧ instruction &&& 2 = 0 then
    some (addr + (instruction.setWidth 26 &&& 0x3fffffc).toInt, instruction &&& 1 ≠ 0)
  else none

/-- An instruction of the game that is replaced by a branch into the menu. -/
structure Hook where
  addr : ℕ
  old : U32
  dest : ℕ
  link : Bool
deriving DecidableEq

namespace Hook

/-- `dest-addr` -/
def delta (hk : Hook) : ℤ := hk.dest - hk.addr

/-- `0x48000000|(delta&0x3fffffc)|int(link)`; the mask is the same for the low 32 bits. -/
def branch (hk : Hook) : U32 :=
  0x48000000 ||| (BitVec.ofInt 32 hk.delta &&& 0x3fffffc) ||| (if hk.link then 1 else 0)

/-- The bounds of `hook`. -/
def InReach (hk : Hook) : Prop := hk.delta % 4 = 0 ∧ -0x2000000 ≤ hk.delta ∧ hk.delta < 0x2000000

instance (hk : Hook) : Decidable hk.InReach := inferInstanceAs (Decidable (_ ∧ _))

/-- The mask of a branch keeps a distance that is a multiple of 4. -/
theorem mask_of_dvd {x : BitVec 26} (h : x.toNat % 4 = 0) : x &&& 0x3fffffc = x := by
  have hlow : ∀ i < 2, x.getLsbD i = false := by
    intro i hi
    rw [BitVec.getLsbD, Nat.testBit_eq_decide_div_mod_eq, decide_eq_false_iff_not]
    rcases (by omega : i = 0 ∨ i = 1) with rfl | rfl <;> omega
  have hmask : ∀ i : Fin 26, (0x3fffffc : BitVec 26).getLsbD i.val = decide (2 ≤ i.val) := by decide
  refine BitVec.eq_of_getLsbD_eq fun i hi => ?_
  rw [BitVec.getLsbD_and, hmask ⟨i, hi⟩]
  by_cases h2 : 2 ≤ i
  · rw [decide_eq_true h2, Bool.and_true]
  · rw [hlow i (by omega), Bool.false_and]

section Encoding

variable (x : U32) (l : Bool)

/-- The instruction, by its fields. -/
def encode : U32 := 0x48000000 ||| (x &&& 0x3fffffc) ||| (if l then 1 else 0)

/-- The encoded word is a branch with a relative distance. -/
theorem encode_kind : encode x l >>> 26 = 18 ∧ encode x l &&& 2 = 0 := by
  have hlink : (if l then 1 else 0 : U32) >>> 26 = 0#32 ∧
      (if l then 1 else 0 : U32) &&& 2 = 0#32 := by
    cases l <;> decide
  constructor
  · rw [encode, BitVec.ushiftRight_or_distrib, BitVec.ushiftRight_or_distrib,
      BitVec.ushiftRight_and_distrib, show (0x3fffffc : U32) >>> 26 = 0#32 by decide, hlink.1,
      BitVec.and_zero, BitVec.or_zero, BitVec.or_zero]
    decide
  · rw [encode, BitVec.and_or_distrib_right, BitVec.and_or_distrib_right, BitVec.and_assoc,
      show (0x3fffffc : U32) &&& 2 = 0#32 by decide, hlink.2, BitVec.and_zero, BitVec.or_zero,
      BitVec.or_zero]
    decide

/-- The link bit of the encoded word is the one asked for. -/
theorem encode_link : decide (encode x l &&& 1 ≠ 0) = l := by
  rw [encode, BitVec.and_or_distrib_right, BitVec.and_or_distrib_right, BitVec.and_assoc,
    show (0x3fffffc : U32) &&& 1 = 0#32 by decide, BitVec.and_zero, BitVec.or_zero,
    show (0x48000000 : U32) &&& 1 = 0#32 by decide, BitVec.zero_or]
  cases l <;> decide

/-- The distance in the encoded word is the one asked for. -/
theorem encode_delta :
    (encode x l).setWidth 26 &&& 0x3fffffc = x.setWidth 26 &&& 0x3fffffc := by
  have hlink : (if l then 1 else 0 : U32).setWidth 26 &&& 0x3fffffc = 0#26 := by
    cases l <;> decide
  rw [encode, BitVec.setWidth_or, BitVec.setWidth_or, BitVec.setWidth_and,
    BitVec.and_or_distrib_right, BitVec.and_or_distrib_right, hlink, BitVec.and_assoc,
    show (0x48000000 : U32).setWidth 26 &&& 0x3fffffc = 0#26 by decide,
    BitVec.zero_or, BitVec.or_zero]
  congr 1

end Encoding

/-- The branch leads to its destination. -/
theorem branchTarget_branch {hk : Hook} (h : hk.InReach) :
    branchTarget hk.addr hk.branch = some ((hk.dest : ℤ), hk.link) := by
  obtain ⟨hdvd, hlo, hhi⟩ := h
  have hlow : (BitVec.ofInt 32 hk.delta).setWidth 26 = BitVec.ofInt 26 hk.delta := by
    apply BitVec.eq_of_toNat_eq
    rw [BitVec.toNat_setWidth, BitVec.toNat_ofInt, BitVec.toNat_ofInt]
    omega
  have hword : (BitVec.ofInt 26 hk.delta).toNat % 4 = 0 := by
    rw [BitVec.toNat_ofInt]
    omega
  have hint : (BitVec.ofInt 26 hk.delta).toInt = hk.delta :=
    BitVec.toInt_ofInt_eq_self (by decide) (by norm_num; omega) (by norm_num; omega)
  have hbranch : hk.branch = encode (BitVec.ofInt 32 hk.delta) hk.link := rfl
  unfold branchTarget
  rw [hbranch, if_pos (encode_kind _ _), encode_link, encode_delta, hlow, mask_of_dvd hword, hint,
    delta, add_sub_cancel]

end Hook

/-! ### The executable -/

/-- `struct.pack('>I', w)` -/
def wordBytes (w : U32) : List U8 := (List.range 4).map (Bytes.be32Byte w)

/-- `struct.unpack_from('>I', b, o)` -/
def wordAt (b : List U8) (o : ℕ) : U32 := be32 (b.getD · 0) o

/-- The header, 64 words. -/
def header (b : List U8) (k : ℕ) : ℕ := (wordAt b (4 * k)).toNat

/-- `segs`: seven text segments and eleven data segments, by the header. -/
def segments (h : ℕ → ℕ) : List Place :=
  ((List.range 18).filter fun i => h (36 + i) ≠ 0).map fun i => ⟨h i, h (18 + i), h (36 + i)⟩

/-- `hook` -/
def hook (segs : List Place) (b : List U8) (hk : Hook) : Option (List U8) := do
  let o ← Place.find segs hk.addr
  guard (o + 4 ≤ b.length ∧ wordAt b o = hk.old)
  guard hk.InReach
  return Segment.write b ⟨o, wordBytes hk.branch⟩

/-- An entry of `overlay/profiles.json`: addresses of one game. -/
structure Profile where
  sha256 : String
  vi : ℕ
  read : ℕ
  sample : ℕ
  sampleInstruction : U32
  memcpy : ℕ
  copyDisp : ℕ
  copySites : List ℕ
  copyEntry : Bool
  renderPoll : Bool
  holdFrame : Bool

/-- `overlay/profiles.json` -/
def profiles : List (String × Profile) := [
  ("SKYZ52", {
    sha256 := "8a538ccfa2d5e98778114345c4ce503dc1c983b53befc1b53cda59c5812a6821"
    vi := 2151452464, read := 2151151968, sample := 2151152940
    sampleInstruction := 1271423497, memcpy := 2147508020
    copyDisp := 2151000064, copySites := [2149051760, 2149052256]
    copyEntry := false, renderPoll := false, holdFrame := false }),
  ("SSPP52", {
    sha256 := "6f4be21bd83c7072e566f1e813392b755fd27371026b8dae5c49d56c2d20c09f"
    vi := 2151551360, read := 2151250864, sample := 2151251836
    sampleInstruction := 1271324601, memcpy := 2147508020
    copyDisp := 2151099440, copySites := [2148999288, 2148999796]
    copyEntry := false, renderPoll := false, holdFrame := false }),
  ("SVXI52", {
    sha256 := "cebe439454e070e010e29581e7ba9b8bda558fbba8857013e9f31f77f8b69030"
    vi := 2150139056, read := 2150167984, sample := 2150168956
    sampleInstruction := 1208189061, memcpy := 2150398464
    copyDisp := 2149959440, copySites := []
    copyEntry := true, renderPoll := true, holdFrame := true }),
  ("SK8I52", {
    sha256 := "9508395ff73af492937f1cf4830a60f06e5e92ee06e8393b62bcfe1c15956355"
    vi := 2152018352, read := 2151717536, sample := 2151718508
    sampleInstruction := 1270857929, memcpy := 2147508020
    copyDisp := 2151566320, copySites := []
    copyEntry := true, renderPoll := true, holdFrame := true }),
  ("SKNP52", {
    sha256 := "862c9de4102cd2e69820673fa17d3378c7319d219249e8543273b888c95c54e5"
    vi := 2150560928, read := 2150258928, sample := 2150259900
    sampleInstruction := 1272316537, memcpy := 2147508020
    copyDisp := 2150100448, copySites := []
    copyEntry := true, renderPoll := true, holdFrame := true })]

/-- The addresses that the compiled menu has. -/
structure Symbols where
  viHook : ℕ
  readHook : ℕ
  sampleHook : ℕ
  copyHook : ℕ
  overlayEnd : ℕ

/-- The hooks of a game, in the order they are put. -/
def hooks (p : Profile) (s : Symbols) (syncCopy : Bool) : List Hook :=
  [⟨p.vi, 0x9421fff0, s.viHook, false⟩, ⟨p.read, 0x9421ffe0, s.readHook, false⟩,
    ⟨p.sample, p.sampleInstruction, s.sampleHook, true⟩] ++
  if syncCopy then
    (if p.copyEntry then [⟨p.copyDisp, 0x2c040000, s.copyHook, false⟩] else []) ++
      p.copySites.map fun site =>
        ⟨site, Hook.branch ⟨site, 0, p.copyDisp, true⟩, s.copyHook, true⟩
  else []

/-- `base` -/
def overlayBase : ℕ := 0x80001800

/-- `len(payload)` once it is padded -/
def overlaySize : ℕ := 0x1800

/-- `payload`, padded -/
def overlayPayload (raw : List U8) : List U8 := raw ++ List.replicate (overlaySize - raw.length) 0

/-- `while len(b)%32:b.append(0)` -/
def padTo32 (b : List U8) : List U8 := b ++ List.replicate ((32 - b.length % 32) % 32) 0

/-- The header with the text segment `i` for the overlay. -/
def overlayHeader (h : ℕ → ℕ) (i offset : ℕ) : ℕ → ℕ :=
  Function.update (Function.update (Function.update h i offset) (18 + i) overlayBase)
    (36 + i) overlaySize

/-- `struct.pack('>64I', *h)`: byte `j` is one of word `j / 4`. -/
def headerBytes (h : ℕ → ℕ) : List U8 :=
  (List.range 256).map fun j => Bytes.be32Byte (BitVec.ofNat 32 (h (j / 4))) (j % 4)

/-- The part of `build_e11_overlay.py` from the profile to the patched executable: `raw`
and `s` come from the compiler, `b` is the user's file. -/
def buildOverlay (sha256 : List U8 → String) (multiSlot syncCopy : Bool) (b : List U8)
    (s : Symbols) (raw : List U8) : Option (List U8) := do
  guard (syncCopy = true → multiSlot = true)
  guard (256 ≤ b.length)
  let h := header b
  let [(_, p)] := profiles.filter fun game => game.2.sha256 = sha256 b | none
  guard (syncCopy = true → p.holdFrame = true → p.renderPoll = true)
  guard (raw.length ≤ 0x1400 ∧ s.overlayEnd ≤ 0x80002c00)
  let segs := segments h
  guard (∀ q ∈ segs, ¬ (overlayBase < q.addr + q.size ∧ q.addr < overlayBase + overlaySize))
  guard (¬ (overlayBase < h 54 + h 55 ∧ h 54 < overlayBase + overlaySize))
  let b ← (hooks p s syncCopy).foldlM (hook segs) b
  let i ← (List.range 7).find? fun i => h (36 + i) = 0
  let b := padTo32 b
  guard (b.length < 2 ^ 32)
  return Segment.write b ⟨0, headerBytes (overlayHeader h i b.length)⟩ ++ overlayPayload raw

/-! ### Words of a file -/

section Words

variable {b : List U8} {o k : ℕ} {w : U32}

/-- The bytes of a word that has been read are those at its place. -/
theorem be32Byte_be32 (f : ℕ → U8) (o : ℕ) (hk : k < 4) :
    Bytes.be32Byte (be32 f o) k = f (o + k) := by
  apply BitVec.eq_of_getLsbD_eq
  intro i hi
  simp only [be32, Bytes.be32Byte, BitVec.getLsbD_or, BitVec.getLsbD_shiftLeft,
    BitVec.getLsbD_setWidth, BitVec.getLsbD_extractLsb']
  rcases (by omega : k = 0 ∨ k = 1 ∨ k = 2 ∨ k = 3) with rfl | rfl | rfl | rfl <;>
    simp [hi] <;> grind

/-- A word has four bytes. -/
theorem length_wordBytes (w : U32) : (wordBytes w).length = 4 := rfl

/-- The bytes of a word one by one. -/
theorem getElem?_wordBytes (hk : k < 4) : (wordBytes w)[k]? = some (Bytes.be32Byte w k) := by
  rw [wordBytes, List.getElem?_map, List.getElem?_range hk]
  rfl

/-- The bytes of a word that is in the file. -/
theorem getElem?_wordAt (h : o + 4 ≤ b.length) (hk : k < 4) :
    b[o + k]? = (wordBytes (wordAt b o))[k]? := by
  rw [getElem?_wordBytes hk, wordAt, be32Byte_be32 _ o hk, List.getD_eq_getElem?_getD,
    List.getElem?_eq_getElem (by omega)]
  rfl

/-- Where the bytes of a word are, that word is read. -/
theorem wordAt_of_bytes (h : ∀ k < 4, b[o + k]? = (wordBytes w)[k]?) : wordAt b o = w := by
  rw [wordAt, ← be32_be32Byte w]
  refine be32_congr fun k hk => ?_
  rw [List.getD_eq_getElem?_getD, h k hk, getElem?_wordBytes hk, Nat.zero_add]
  rfl

/-- The header has 256 bytes. -/
theorem length_headerBytes (h : ℕ → ℕ) : (headerBytes h).length = 256 := by
  rw [headerBytes, List.length_map, List.length_range]

/-- The header that is written is read back. -/
theorem header_headerBytes {h : ℕ → ℕ} (hb : ∀ j < 256, b[j]? = (headerBytes h)[j]?)
    (hk : k < 64) (hlt : h k < 2 ^ 32) : header b k = h k := by
  have hword : wordAt b (4 * k) = BitVec.ofNat 32 (h k) := by
    refine wordAt_of_bytes fun j hj => ?_
    rw [hb _ (by omega), headerBytes, List.getElem?_map, List.getElem?_range (by omega),
      getElem?_wordBytes hj, Option.map_some, show (4 * k + j) / 4 = k by omega,
      show (4 * k + j) % 4 = j by omega]
  rw [header, hword, toNat_ofNat_of_lt hlt]

/-- An entry of the header is below `2 ^ 32`. -/
theorem header_lt (b : List U8) (k : ℕ) : header b k < 2 ^ 32 := (wordAt b (4 * k)).isLt

end Words

/-! ### The places of a file -/

section Places

variable {h : ℕ → ℕ} {i offset : ℕ} {q : Place}

/-- The segments are the entries of the header with a size. -/
theorem mem_segments :
    q ∈ segments h ↔ ∃ i < 18, h (36 + i) ≠ 0 ∧ q = ⟨h i, h (18 + i), h (36 + i)⟩ := by
  unfold segments
  rw [List.mem_map]
  constructor
  · rintro ⟨i, hi, rfl⟩
    obtain ⟨hlt, hsize⟩ := List.mem_filter.mp hi
    exact ⟨i, List.mem_range.mp hlt, of_decide_eq_true hsize, rfl⟩
  · rintro ⟨i, hlt, hsize, rfl⟩
    exact ⟨i, List.mem_filter.mpr ⟨List.mem_range.mpr hlt, decide_eq_true hsize⟩, rfl⟩

/-- The segments depend on the 64 words of the header only. -/
theorem segments_congr {h' : ℕ → ℕ} (heq : ∀ k < 64, h' k = h k) :
    q ∈ segments h' ↔ q ∈ segments h := by
  rw [mem_segments, mem_segments]
  constructor
  · rintro ⟨i, hi, hsize, rfl⟩
    rw [heq _ (by omega)] at hsize
    exact ⟨i, hi, hsize, by rw [heq _ (by omega), heq _ (by omega), heq _ (by omega)]⟩
  · rintro ⟨i, hi, hsize, rfl⟩
    rw [← heq _ (by omega)] at hsize
    exact ⟨i, hi, hsize, by rw [heq _ (by omega), heq _ (by omega), heq _ (by omega)]⟩

/-- The place of the overlay. -/
def overlayPlace (offset : ℕ) : Place := ⟨offset, overlayBase, overlaySize⟩

/-- The header of the result has the segments of the original and the one of the overlay. -/
theorem mem_overlayHeader (hi : i < 7) (hfree : h (36 + i) = 0) :
    q ∈ segments (overlayHeader h i offset) ↔ q = overlayPlace offset ∨ q ∈ segments h := by
  have hself : overlayHeader h i offset i = offset ∧
      overlayHeader h i offset (18 + i) = overlayBase ∧
      overlayHeader h i offset (36 + i) = overlaySize := by
    unfold overlayHeader
    refine ⟨?_, ?_, Function.update_self ..⟩
    · rw [Function.update_of_ne (by omega), Function.update_of_ne (by omega), Function.update_self]
    · rw [Function.update_of_ne (by omega), Function.update_self]
  have hother {k : ℕ} (h₀ : k ≠ i) (h₁ : k ≠ 18 + i) (h₂ : k ≠ 36 + i) :
      overlayHeader h i offset k = h k := by
    unfold overlayHeader
    rw [Function.update_of_ne h₂, Function.update_of_ne h₁, Function.update_of_ne h₀]
  have hplace {j : ℕ} (hj : j < 18) (hne : j ≠ i) :
      (⟨overlayHeader h i offset j, overlayHeader h i offset (18 + j),
        overlayHeader h i offset (36 + j)⟩ : Place) = ⟨h j, h (18 + j), h (36 + j)⟩ := by
    rw [hother hne (by omega) (by omega), hother (by omega) (by omega) (by omega),
      hother (by omega) (by omega) (by omega)]
  rw [mem_segments, mem_segments]
  constructor
  · rintro ⟨j, hj, hsize, rfl⟩
    by_cases hji : j = i
    · subst hji
      refine Or.inl ?_
      rw [hself.1, hself.2.1, hself.2.2]
      rfl
    · rw [hplace hj hji]
      rw [hother (by omega) (by omega) (by omega)] at hsize
      exact Or.inr ⟨j, hj, hsize, rfl⟩
  · rintro (rfl | ⟨j, hj, hsize, rfl⟩)
    · refine ⟨i, by omega, ?_, ?_⟩
      · rw [hself.2.2]
        decide
      · rw [hself.1, hself.2.1, hself.2.2]
        rfl
    · have hji : j ≠ i := by
        rintro rfl
        exact hsize hfree
      refine ⟨j, hj, ?_, (hplace hj hji).symm⟩
      rw [hother (by omega) (by omega) (by omega)]
      exact hsize

end Places

end BuildOverlay
end VirtualPortal
