/-
# The menu stays inside the picture

`overlay/menu.c` (`draw_menu`): every word it stores lies in the rectangle of the menu,
whatever the registers, the address, the menu and the reply.

The picture is accepted with 32 to 45 times 16 pixels in a row and 320 rows inside one
of the two memories (`PictureOk.fits`), so no index and no address wraps around.  The
loop of `text` stops 24 pixels before the end of the row, counted from where the text
starts: with 12 pixels to a character the last one drawn ends before the margin
(`inside_drawChar`).
-/

import Mathlib.Data.List.GetD
import VirtualPortal.Overlay.Draw

namespace VirtualPortal

/-- The word of two pixels that is stored lies in the menu: rows 36 to 315 and all but
24 columns on either side of the picture at `base`, seen uncached. -/
def InsideMenu (base width : ℕ) (w : VideoWrite) : Prop :=
  ∃ row col, (36 ≤ row ∧ row ≤ 315) ∧ (24 ≤ col ∧ col + 1 ≤ width - 25) ∧
    w.addr.toNat = 0xc0000000 + base + 2 * (row * width + col)

/-- The first 320 rows of the picture at `base` lie in one memory. -/
def InMemory (base width : ℕ) : Prop :=
  0x4000 ≤ base ∧ base + 2 * (320 * width) ≤ 0x01800000 ∨
    0x10000000 ≤ base ∧ base + 2 * (320 * width) ≤ 0x14000000

/-! ### The picture -/

section Picture

variable {buffer : U32} {picture control : U16}

/-- An accepted picture is 32 to 45 times 16 pixels wide and lies in one memory. -/
theorem PictureOk.fits (h : PictureOk buffer picture control) :
    ∃ k, (viWidth picture).toNat = 16 * k ∧ 32 ≤ k ∧ k ≤ 45 ∧
      InMemory (buffer &&& 0x3fffffff).toNat (16 * k) := by
  obtain ⟨-, hlo, hhi, -, -, hrange⟩ := h
  have hbits : ((picture.setWidth 32 >>> 8) &&& (127 : U32)).toNat ≤ 127 := by
    rw [BitVec.toNat_and]
    exact Nat.and_le_right
  have hwidth : (viWidth picture).toNat =
      16 * ((picture.setWidth 32 >>> 8) &&& (127 : U32)).toNat := by
    rw [viWidth, BitVec.toNat_mul, Nat.mul_comm]
    exact Nat.mod_eq_of_lt (by rw [show (16 : U32).toNat = 16 from rfl]; omega)
  refine ⟨_, hwidth, ?_, ?_, ?_⟩
  · rw [BitVec.le_def] at hlo
    have : (512 : U32).toNat = 512 := rfl
    omega
  · rw [BitVec.le_def] at hhi
    have : (720 : U32).toNat = 720 := rfl
    omega
  · rw [← hwidth]
    generalize viWidth picture = width at *
    generalize buffer &&& 0x3fffffff = addr at *
    unfold InMemory
    rcases hrange with ⟨h₁, h₂⟩ | ⟨h₁, h₂⟩
    · left
      constructor <;> bv_omega
    · right
      constructor <;> bv_omega

/-- The uncached address of a picture. -/
theorem toNat_uncached (buffer : U32) :
    ((buffer &&& 0x3fffffff) ||| 0xc0000000).toNat =
      0xc0000000 + (buffer &&& 0x3fffffff).toNat := by
  have hdisjoint : (buffer &&& 0x3fffffff) &&& 0xc0000000 = 0#32 := by
    rw [BitVec.and_assoc, show (0x3fffffff : U32) &&& 0xc0000000 = 0#32 by decide, BitVec.and_zero]
  rw [← BitVec.add_eq_or_of_and_eq_zero _ _ hdisjoint, BitVec.toNat_add]
  have hlt : (buffer &&& 0x3fffffff).toNat ≤ 0x3fffffff := by
    rw [BitVec.toNat_and]
    exact Nat.and_le_right
  have : (0xc0000000 : U32).toNat = 0xc0000000 := rfl
  omega

end Picture

/-! ### The stores -/

section Stores

variable {fb width : U32} {base k : ℕ}

/-- A store whose row and column lie in the menu. -/
theorem inside_store (hfb : fb.toNat = 0xc0000000 + base)
    (hbase : InMemory base (16 * k)) {i : U32} (value : U32) {row half : ℕ}
    (hi : i.toNat = row * (8 * k) + half) (hrow : 36 ≤ row ∧ row ≤ 315)
    (hcol : 12 ≤ half ∧ 2 * half + 1 ≤ 16 * k - 25) :
    InsideMenu base (16 * k) (store fb i value) := by
  have hcell : row * k ≤ 315 * k := Nat.mul_le_mul_right k hrow.2
  have hi' : i.toNat = 8 * (row * k) + half := by rw [hi, Nat.mul_left_comm]
  have haddr : (store fb i value).addr.toNat = fb.toNat + 4 * i.toNat := by
    show (fb + 4 * i).toNat = _
    unfold InMemory at hbase
    bv_omega
  refine ⟨row, 2 * half, hrow, ⟨by omega, by omega⟩, ?_⟩
  rw [haddr, hfb, hi', show row * (16 * k) = 16 * (row * k) from Nat.mul_left_comm ..]
  omega

/-- The index of a word by its row. -/
theorem toNat_row (hwidth : width.toNat = 16 * k) (hk : k ≤ 45) {y : U32} (hy : y.toNat ≤ 315) :
    (y * width / 2).toNat = y.toNat * (8 * k) ∧ (y * (width / 2)).toNat = y.toNat * (8 * k) := by
  have hcell : y.toNat * k ≤ 315 * 45 := Nat.mul_le_mul hy hk
  have hdiv : (width / 2).toNat = 8 * k := by
    rw [BitVec.toNat_udiv, hwidth]
    show 16 * k / 2 = 8 * k
    omega
  constructor
  · rw [BitVec.toNat_udiv, BitVec.toNat_mul, hwidth, Nat.mul_left_comm y.toNat 16 k,
      Nat.mul_left_comm y.toNat 8 k, Nat.mod_eq_of_lt (by omega)]
    show 16 * (y.toNat * k) / 2 = _
    omega
  · rw [BitVec.toNat_mul, hdiv, Nat.mod_eq_of_lt]
    rw [Nat.mul_left_comm]
    omega

/-- The background is inside the menu. -/
theorem inside_drawBackground (hwidth : width.toNat = 16 * k) (hlo : 32 ≤ k) (hk : k ≤ 45)
    (hfb : fb.toNat = 0xc0000000 + base) (hbase : InMemory base (16 * k)) :
    ∀ w ∈ drawBackground fb width, InsideMenu base (16 * k) w := by
  intro w hw
  obtain ⟨y, hy, hw⟩ := List.mem_flatMap.mp hw
  obtain ⟨x, hx, rfl⟩ := List.mem_map.mp hw
  rw [List.mem_range] at hy hx
  have hx : x < 8 * k - 24 := by
    have : ((width - 24 - 24 + 1) / 2).toNat = 8 * k - 24 := by
      rw [BitVec.toNat_udiv]
      show (width - 24 - 24 + 1).toNat / 2 = _
      have : (width - 24 - 24 + 1).toNat = 16 * k - 47 := by bv_omega
      omega
    omega
  have hrow : (36 + BitVec.ofNat 32 y).toNat = 36 + y := by bv_omega
  have hhalf : ((24 + 2 * BitVec.ofNat 32 x) / 2 : U32).toNat = 12 + x := by
    rw [BitVec.toNat_udiv]
    show (24 + 2 * BitVec.ofNat 32 x).toNat / 2 = _
    have : (24 + 2 * BitVec.ofNat 32 x : U32).toNat = 24 + 2 * x := by bv_omega
    omega
  have hstart : (36 + BitVec.ofNat 32 y).toNat ≤ 315 := by omega
  have hle : (36 + y) * (8 * k) ≤ 315 * (8 * 45) :=
    Nat.mul_le_mul (by omega) (Nat.mul_le_mul_left 8 hk)
  have hcell : ((36 + BitVec.ofNat 32 y) * (width / 2) + (24 + 2 * BitVec.ofNat 32 x) / 2).toNat =
      (36 + y) * (8 * k) + (12 + x) := by
    rw [BitVec.toNat_add, (toNat_row hwidth hk hstart).2, hrow, hhalf]
    exact Nat.mod_eq_of_lt (by omega)
  exact inside_store hfb hbase _ hcell (by omega) (by omega)

/-- A character that `text` draws at `x = 40` or `x = 56` ends before the margin. -/
theorem inside_drawChar (hwidth : width.toNat = 16 * k) (hlo : 32 ≤ k) (hk : k ≤ 45)
    (hfb : fb.toNat = 0xc0000000 + base) (hbase : InMemory base (16 * k)) {t : MenuText}
    (hx : t.x = 40 ∨ t.x = 56) (hy : 36 ≤ t.y.toNat ∧ t.y.toNat ≤ 302) {i : ℕ}
    (hi : i ∈ textRange width t) :
    ∀ w ∈ drawChar fb width t i, InsideMenu base (16 * k) w := by
  have hi47 : i < 47 := List.mem_range.mp ((List.takeWhile_sublist _).subset hi)
  have hfits : i < (16 * k - t.x.toNat - 24) / 12 := by
    have h := List.mem_takeWhile_imp hi
    rw [Bool.and_eq_true, decide_eq_true_iff, BitVec.lt_def, toNat_ofNat_of_lt (by omega),
      BitVec.toNat_udiv] at h
    have hsub : (width - t.x - 24).toNat = 16 * k - t.x.toNat - 24 := by
      rcases hx with hx | hx <;> rw [hx] <;> bv_omega
    rw [hsub] at h
    exact h.1
  intro w hw
  obtain ⟨col, hcol, hw⟩ := List.mem_flatMap.mp hw
  obtain ⟨row, hrow, hw⟩ := List.mem_flatMap.mp hw
  rw [List.mem_range] at hcol hrow
  have hhalf : t.x.toNat = 40 ∨ t.x.toNat = 56 := hx.imp (congrArg _) (congrArg _)
  have hstore {y : U32} (hy : 36 ≤ y.toNat ∧ y.toNat ≤ 315) : InsideMenu base (16 * k)
      (store fb (y * width / 2 + t.x / 2 + BitVec.ofNat 32 i * 6 + BitVec.ofNat 32 col)
        t.color) := by
    have hle : y.toNat * (8 * k) ≤ 315 * (8 * 45) :=
      Nat.mul_le_mul hy.2 (Nat.mul_le_mul_left 8 hk)
    have hcell :
        (y * width / 2 + t.x / 2 + BitVec.ofNat 32 i * 6 + BitVec.ofNat 32 col).toNat =
          y.toNat * (8 * k) + (t.x.toNat / 2 + i * 6 + col) := by
      have hrow := (toNat_row hwidth hk hy.2).1
      have hx2 : (t.x / 2).toNat = t.x.toNat / 2 := BitVec.toNat_udiv
      generalize y * width / 2 = a at *
      generalize t.x / 2 = b at *
      bv_omega
    exact inside_store hfb hbase _ hcell hy (by omega)
  split_ifs at hw
  · simp only [List.mem_cons, List.not_mem_nil, or_false] at hw
    rcases hw with rfl | rfl
    · exact hstore (by bv_omega)
    · exact hstore (by bv_omega)
  · exact absurd hw List.not_mem_nil

end Stores

/-! ### The texts -/

section Texts

variable (s : MenuState) (reply : Bytes 464)

/-- Where `draw_menu` starts a text. -/
def MenuText.Placed (t : MenuText) : Prop :=
  (t.x = 40 ∨ t.x = 56) ∧ 36 ≤ t.y.toNat ∧ t.y.toNat ≤ 302

/-- A text at the left edge is in its place. -/
theorem placed_left {y color : U32} {chars : ℕ → U8} (h : 36 ≤ y.toNat ∧ y.toNat ≤ 302) :
    MenuText.Placed ⟨40, y, chars, color⟩ := ⟨.inl rfl, h⟩

/-- The texts of the list are in their places. -/
theorem listTexts_placed : ∀ t ∈ listTexts s reply, t.Placed := by
  intro t ht
  unfold listTexts at ht
  dsimp only at ht
  split_ifs at ht
  · rw [List.mem_singleton.mp ht]
    exact placed_left (by decide)
  · simp only [List.mem_cons, List.not_mem_nil, or_false] at ht
    rcases ht with rfl | rfl | rfl <;> exact placed_left (by decide)
  · rw [List.mem_singleton.mp ht]
    exact placed_left (by decide)
  · obtain ⟨i, hi, ht⟩ := List.mem_flatMap.mp ht
    have hi8 : i < 8 := List.mem_range.mp ((List.takeWhile_sublist _).subset hi)
    have hy : (84 + BitVec.ofNat 32 i * 19 : U32).toNat = 84 + i * 19 := by bv_omega
    rcases List.mem_append.mp ht with ht | ht
    · split_ifs at ht
      · rw [List.mem_singleton.mp ht]
        exact placed_left (by rw [hy]; omega)
      · exact absurd ht List.not_mem_nil
    · rw [List.mem_singleton.mp ht]
      exact ⟨.inr rfl, by rw [hy]; omega, by rw [hy]; omega⟩

/-- All texts of the menu are in their places. -/
theorem menuTexts_placed : ∀ t ∈ menuTexts s reply, t.Placed := by
  intro t ht
  unfold menuTexts at ht
  simp only [List.mem_append, List.mem_cons, List.not_mem_nil, or_false] at ht
  rcases ht with (((rfl | rfl) | ht) | ht) | rfl | rfl | rfl
  · exact placed_left (by decide)
  · exact placed_left (by decide)
  · exact listTexts_placed s reply t ht
  · split_ifs at ht
    · rw [List.mem_singleton.mp ht]
      exact placed_left (by decide)
    · exact absurd ht List.not_mem_nil
  · exact placed_left (by decide)
  · exact placed_left (by decide)
  · exact placed_left (by decide)

end Texts

/-- A glyph that is drawn is in the table, and all of its columns. -/
theorem glyphIndex_lt (c : U8) : glyphIndex c < glyph.length := by
  have hlength : alphabet.length = glyph.length := by decide
  unfold glyphIndex
  split_ifs with h
  · exact hlength ▸ h
  · decide

/-- A row of a glyph has five columns. -/
theorem glyph_columns : ∀ columns ∈ glyph, columns.length = 5 := by decide

/-- **The menu stays inside the picture.**  `draw_menu` stores nothing, or an accepted
picture lies in one memory and every word stored lies in the rectangle of the menu; and
every glyph it looks up is in the table. -/
theorem drawMenu_inside (buffer : U32) (picture control : U16) (s : MenuState)
    (reply : Bytes 464) :
    (drawMenu buffer picture control s reply = [] ∨
      PictureOk buffer picture control ∧
        InMemory (buffer &&& 0x3fffffff).toNat (viWidth picture).toNat ∧
        ∀ w ∈ drawMenu buffer picture control s reply,
          InsideMenu (buffer &&& 0x3fffffff).toNat (viWidth picture).toNat w) ∧
      ∀ t ∈ menuTexts s reply, ∀ i ∈ textRange (viWidth picture) t,
        glyphIndex (t.chars i) < glyph.length ∧
          ∀ col < 5, col < (glyph.getD (glyphIndex (t.chars i)) []).length := by
  constructor
  · unfold drawMenu
    split_ifs with h
    · right
      obtain ⟨k, hwidth, hlo, hk, hbase⟩ := h.2.fits
      have hfb := toNat_uncached buffer
      rw [hwidth]
      refine ⟨h.2, hbase, fun w hw => ?_⟩
      rcases List.mem_append.mp hw with hw | hw
      · exact inside_drawBackground hwidth hlo hk hfb hbase w hw
      · obtain ⟨t, ht, hw⟩ := List.mem_flatMap.mp hw
        obtain ⟨i, hi, hw⟩ := List.mem_flatMap.mp hw
        obtain ⟨hx, hy⟩ := menuTexts_placed s reply t ht
        exact inside_drawChar hwidth hlo hk hfb hbase hx hy hi w hw
    · exact .inl rfl
  · intro t _ i _
    have hlt := glyphIndex_lt (t.chars i)
    refine ⟨hlt, fun col hcol => ?_⟩
    rw [List.getD_eq_getElem _ _ hlt, glyph_columns _ (List.getElem_mem hlt)]
    exact hcol

end VirtualPortal
