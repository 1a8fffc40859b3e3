/-
# Drawing the menu

`overlay/menu.c`: `text` and `draw_menu`, in the build with `E12_MENU` and
`E13_SYNC_COPY` defined, and the two messages of `overlay/menu.h`.

The menu is drawn into the picture the video interface shows, a word for two pixels
side by side.  The width of the picture comes from a register of the video interface,
the address from the game, and the texts in part from the reply of the portal, so
nothing but `draw_menu` itself keeps the stores inside the picture.

A text is drawn up to its end, to 47 characters, or to the last character that fits
before the margin.  A character takes 12 pixels in each of 14 rows.

| `x` | `y` | text |
| ---: | ---: | --- |
| 40 | 48, 66 | title, name of the figure |
| 40 | 82, 112, 142 | what keeps the list from being shown |
| 40, 56 | 84 + 19 i | cursor and label of entry `i` of the page |
| 40 | 236, 254, 274, 290 | error, keys, state |
-/

import VirtualPortal.Overlay.Menu
import VirtualPortal.Storage.Disk

namespace VirtualPortal

/-- A word stored through an uncached pointer. -/
structure VideoWrite where
  addr : U32
  value : U32
deriving DecidableEq

/-- A call of `text`. -/
structure MenuText where
  x : U32
  y : U32
  chars : ℕ → U8
  color : U32

/-- The bytes of a string literal, and the zero after it. -/
def cString (s : String) : ℕ → U8 := ((ascii s).getD · 0)

/-- `alphabet` -/
def alphabet : List U8 := ascii " ABCDEFGHIJKLMNOPQRSTUVWXYZ0123456789-./:>"

/-- `glyph` -/
def glyph : List (List U8) :=
  [[0, 0, 0, 0, 0], [126, 17, 17, 17, 126], [127, 73, 73, 73, 54], [62, 65, 65, 65, 34],
    [127, 65, 65, 34, 28], [127, 73, 73, 73, 65], [127, 9, 9, 9, 1], [62, 65, 73, 73, 122],
    [127, 8, 8, 8, 127], [0, 65, 127, 65, 0], [32, 64, 65, 63, 1], [127, 8, 20, 34, 65],
    [127, 64, 64, 64, 64], [127, 2, 12, 2, 127], [127, 4, 8, 16, 127], [62, 65, 65, 65, 62],
    [127, 9, 9, 9, 6], [62, 65, 81, 33, 94], [127, 9, 25, 41, 70], [38, 73, 73, 73, 50],
    [1, 1, 127, 1, 1], [63, 64, 64, 64, 63], [31, 32, 64, 32, 31], [63, 64, 56, 64, 63],
    [99, 20, 8, 20, 99], [3, 4, 120, 4, 3], [97, 81, 73, 69, 67], [62, 81, 73, 69, 62],
    [0, 66, 127, 64, 0], [66, 97, 81, 73, 70], [33, 65, 69, 75, 49], [24, 20, 18, 127, 16],
    [39, 69, 69, 69, 57], [60, 74, 73, 73, 48], [1, 113, 9, 5, 3], [54, 73, 73, 73, 54],
    [6, 73, 73, 41, 30], [8, 8, 8, 8, 8], [0, 96, 96, 0, 0], [32, 16, 8, 4, 2],
    [0, 54, 54, 0, 0], [0, 65, 34, 20, 8]]

/-- Letters are drawn in upper case. -/
def upperCase (c : U8) : U8 := if 0x61 ≤ c ∧ c ≤ 0x7a then c - 32 else c

/-- The row of `glyph` for a character; one that is not in the alphabet is a space. -/
def glyphIndex (c : U8) : ℕ :=
  if alphabet.idxOf (upperCase c) < alphabet.length then alphabet.idxOf (upperCase c) else 0

/-- `fb[i] = value` -/
def store (fb i value : U32) : VideoWrite := ⟨fb + 4 * i, value⟩

/-- The loop body of `text` for character `i`. -/
def drawChar (fb width : U32) (t : MenuText) (i : ℕ) : List VideoWrite :=
  (List.range 5).flatMap fun col =>
    (List.range 7).flatMap fun row =>
      if ((glyph.getD (glyphIndex (t.chars i)) []).getD col 0).getLsbD row then
        let cell (y : U32) : U32 :=
          y * width / 2 + t.x / 2 + BitVec.ofNat 32 i * 6 + BitVec.ofNat 32 col
        [store fb (cell (t.y + BitVec.ofNat 32 row * 2)) t.color,
          store fb (cell (t.y + BitVec.ofNat 32 row * 2 + 1)) t.color]
      else []

/-- The characters `text` draws. -/
def textRange (width : U32) (t : MenuText) : List ℕ :=
  (List.range 47).takeWhile fun i =>
    BitVec.ofNat 32 i < (width - t.x - 24) / 12 && t.chars i ≠ 0

/-- `text` -/
def text (fb width : U32) (t : MenuText) : List VideoWrite :=
  (textRange width t).flatMap (drawChar fb width t)

/-- The decimal digits of `value`, at most `k` of them. -/
def decimal : ℕ → U32 → List U8
  | 0, _ => []
  | k + 1, value =>
      (if value / 10 = 0 then [] else decimal k (value / 10)) ++ [48 + (value % 10).setWidth 8]

/-- `menu_error_code` -/
def menuErrorCode (code : U32) : List U8 :=
  if code.msb then ascii "ERROR -" ++ decimal 10 (0 - code) else ascii "ERROR " ++ decimal 10 code

/-- The loop has ended when the digits are as many as the bound. -/
theorem decimal_succ (k : ℕ) {value : U32} (h : value.toNat < 10 ^ (k + 1)) :
    decimal (k + 2) value = decimal (k + 1) value := by
  have hdiv (v : U32) : (v / 10).toNat = v.toNat / 10 := BitVec.toNat_udiv
  induction k generalizing value with
  | zero =>
      have hzero : value / 10 = 0 := BitVec.eq_of_toNat_eq ((hdiv value).trans (by
        show _ = 0
        omega))
      calc decimal 2 value
          = (if value / 10 = 0 then [] else decimal 1 (value / 10)) ++
              [48 + (value % 10).setWidth 8] := rfl
        _ = (if value / 10 = 0 then [] else decimal 0 (value / 10)) ++
              [48 + (value % 10).setWidth 8] := by rw [if_pos hzero, if_pos hzero]
  | succ k ih =>
      have hlt : (value / 10).toNat < 10 ^ (k + 1) := by
        rw [hdiv]
        rw [Nat.pow_succ] at h
        omega
      calc decimal (k + 3) value
          = (if value / 10 = 0 then [] else decimal (k + 2) (value / 10)) ++
              [48 + (value % 10).setWidth 8] := rfl
        _ = (if value / 10 = 0 then [] else decimal (k + 1) (value / 10)) ++
              [48 + (value % 10).setWidth 8] := by rw [ih hlt]

/-- Ten digits are enough for a word, and the message fits in `error`. -/
theorem menuErrorCode_fits (code : U32) :
    decimal 11 code = decimal 10 code ∧ (menuErrorCode code).length < 24 := by
  have hdigits (k : ℕ) (v : U32) : (decimal k v).length ≤ k := by
    induction k generalizing v with
    | zero => exact Nat.le_refl 0
    | succ k ih =>
        have hle := ih (v / 10)
        rw [decimal, List.length_append, List.length_singleton]
        split_ifs
        · rw [List.length_nil]
          omega
        · omega
  refine ⟨decimal_succ 9 (lt_of_lt_of_le code.isLt (by decide)), ?_⟩
  unfold menuErrorCode
  split_ifs
  · have hle := hdigits 10 (0 - code)
    rw [List.length_append, show (ascii "ERROR -").length = 7 by decide]
    omega
  · have hle := hdigits 10 code
    rw [List.length_append, show (ascii "ERROR ").length = 6 by decide]
    omega

/-- `menu_error_status` -/
def menuErrorStatus (count present dirty : U32) : String :=
  if count = 0 then "LIBRARY LOAD FAILED"
  else if dirty ≠ 0 then "SAVE ERROR - PROGRESS STILL IN RAM"
  else if present ≠ 0 then "SD ERROR - CURRENT FIGURE RETAINED"
  else "FIGURE LOAD FAILED"

/-- The title with the position that is shown. -/
def menuTitle (slot : U32) : List U8 :=
  ((ascii "SKYLANDERS MENU - SLOT 00 OF 16").set 23 (48 + ((slot + 1) / 10).setWidth 8)).set 24
    (48 + ((slot + 1) % 10).setWidth 8)

section Texts

variable (s : MenuState) (reply : Bytes 464)

/-- `reply[k]` -/
def replyWord (k : ℕ) : U32 := be32 reply.byte (4 * k)

/-- `n` in `draw_menu`. -/
def drawCount : U32 := if 640 < replyWord reply 2 then 0 else replyWord reply 2

/-- The middle of the menu: the list, or why there is none. -/
def listTexts : List MenuText :=
  let n := drawCount reply
  if s.pending ∧ 180 < s.frames then [⟨40, 82, cString "PORTAL MENU NOT RESPONDING", 0xd080d080⟩]
  else if n = 0 then
    if replyWord reply 1 ≠ 0 then
      [⟨40, 82, cString "LIBRARY LOAD FAILED", 0xd080d080⟩,
        ⟨40, 112, ((menuErrorCode (replyWord reply 1)).getD · 0), 0xeb80eb80⟩,
        ⟨40, 142, cString "CHECK SD CARD AND REOPEN THE MENU  ", 0xd080d080⟩]
    else [⟨40, 82, cString "WAITING FOR SD LIBRARY", 0xd080d080⟩]
  else
    ((List.range 8).takeWhile fun i => s.page + BitVec.ofNat 32 i < n).flatMap fun i =>
      let selected := s.page + BitVec.ofNat 32 i = s.selected
      let color : U32 := if selected then 0xeb80eb80 else 0x98809880
      let y : U32 := 84 + BitVec.ofNat 32 i * 19
      (if selected then [⟨40, y, cString ">", color⟩] else []) ++
        [⟨56, y, fun j => reply.byte (4 * (8 + i * 12) + j), color⟩]

/-- The last line of the menu. -/
def stateText : String :=
  let n := drawCount reply
  if replyWord reply 1 = BitVec.ofInt 32 (-17) then "FIGURE ALREADY IN ANOTHER SLOT"
  else if replyWord reply 1 ≠ 0 then menuErrorStatus n (replyWord reply 5) (replyWord reply 6)
  else if replyWord reply 7 = 2 then "SWAPPING FIGURE"
  else if replyWord reply 6 ≠ 0 then "SAVING PROGRESS"
  else if s.pending then "LOADING MENU"
  else if replyWord reply 5 ≠ 0 ∧ replyWord reply 4 = s.selected then
    "HIGHLIGHTED FIGURE ON PORTAL - SAVED"
  else if replyWord reply 5 ≠ 0 then "SLOT LOADED - ALL PROGRESS SAVED"
  else "EMPTY SLOT - ALL PROGRESS SAVED"

/-- The calls of `text`, in order. -/
def menuTexts : List MenuText :=
  [⟨40, 48, ((menuTitle s.slot).getD · 0), 0xeb80eb80⟩,
      ⟨40, 66,
        if replyWord reply 5 ≠ 0 then fun j => reply.byte (416 + j) else cString "EMPTY SLOT",
        0xb880b880⟩] ++
    listTexts s reply ++
    (if drawCount reply ≠ 0 ∧ replyWord reply 1 ≠ 0 then
      [⟨40, 236, ((menuErrorCode (replyWord reply 1)).getD · 0), 0xeb80eb80⟩] else []) ++
    [⟨40, 254, cString "C Z SLOT  A LOAD  MINUS REMOVE  B CLOSE", 0xeb80eb80⟩,
      ⟨40, 274, cString "1 SAVE NOW  2 RESCAN  LEFT RIGHT PAGE", 0xb880b880⟩,
      ⟨40, 290, cString (stateText s reply), 0xb880b880⟩]

end Texts

/-- The dark rectangle behind the menu. -/
def drawBackground (fb width : U32) : List VideoWrite :=
  (List.range 280).flatMap fun y =>
    (List.range ((width - 24 - 24 + 1) / 2).toNat).map fun x =>
      store fb ((36 + BitVec.ofNat 32 y) * (width / 2) + (24 + 2 * BitVec.ofNat 32 x) / 2)
        0x20802080

/-- The width of the picture, from the picture register. -/
def viWidth (picture : U16) : U32 := ((picture.setWidth 32 >>> 8) &&& 127) * 16

/-- The size and the address of the picture are what the menu is made for. -/
def PictureOk (buffer : U32) (picture control : U16) : Prop :=
  let width := viWidth picture
  let height := (control.setWidth 32 >>> 4) &&& 1023
  let pitch := (picture.setWidth 32 &&& 255) * 16
  let addr := buffer &&& 0x3fffffff
  (pitch = width * 2 ∨ pitch = width) ∧
    512 ≤ width ∧ width ≤ 720 ∧ 320 ≤ (if pitch = width * 2 then height * 2 else height) ∧
    addr &&& 31 = 0 ∧
    (0x4000 ≤ addr ∧ addr ≤ 0x01800000 - width * 320 * 2 ∨
      0x10000000 ≤ addr ∧ addr ≤ 0x14000000 - width * 320 * 2)

instance (buffer : U32) (picture control : U16) : Decidable (PictureOk buffer picture control) :=
  inferInstanceAs (Decidable (_ ∧ _))

/-- `draw_menu`: the words it stores, in order. -/
def drawMenu (buffer : U32) (picture control : U16) (s : MenuState) (reply : Bytes 464) :
    List VideoWrite :=
  if s.visible ∧ PictureOk buffer picture control then
    let fb := (buffer &&& 0x3fffffff) ||| 0xc0000000
    drawBackground fb (viWidth picture) ++
      (menuTexts s reply).flatMap (text fb (viWidth picture))
  else []

end VirtualPortal
