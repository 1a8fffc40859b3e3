/-
# Paths of the library tools

What `pc-debug/extend_library.py` uses of Python's `pathlib`: the relative path
of a dump under the source directory, the suffix and stem of a name, and
`PureWindowsPath(s).as_posix()`, through which the tool reads the paths that a
library lists, be they written with `\` or with `/`.

A text is a list of characters.  `PureWindowsPath` follows Python 3.12
(`ntpath.splitroot`, `PurePath._parse_path` and `PurePath.__str__`).
-/

import Mathlib.Data.List.Basic
import Mathlib.Data.List.Infix
import Mathlib.Tactic.SplitIfs

namespace VirtualPortal

/-- A Python text. -/
abbrev Text := List Char

/-- Texts are compared by their characters. -/
instance lawfulBEq_text : LawfulBEq Text := inferInstance

/-! ### Names -/

/-- `p.suffix` of a name: from the last dot on, unless the dot is the first or
the last character. -/
def suffix (name : Text) : Text :=
  let ext := (name.reverse.takeWhile (· ≠ '.')).reverse
  if '.' ∈ name ∧ ext ≠ [] ∧ ext.length + 1 < name.length then '.' :: ext else []

/-- `p.stem` of a name: the name without its suffix. -/
def stem (name : Text) : Text := name.take (name.length - (suffix name).length)

/-- `text.endswith(part)` -/
def endsWith (text part : Text) : Bool := part.isSuffixOf text

/-! ### Relative paths -/

/-- `p.relative_to(source)` for a file below `source`: its components. -/
structure RelPath where
  parts : List Text
  ne_nil : parts ≠ []
  component : ∀ x ∈ parts, x ≠ [] ∧ x ≠ ['.'] ∧ '/' ∉ x ∧ Char.ofNat 0 ∉ x

namespace RelPath

/-- The components joined by a separator. -/
def join (sep : Char) (parts : List Text) : Text := List.intercalate [sep] parts

/-- `rel.as_posix()` -/
def asPosix (rel : RelPath) : Text := join '/' rel.parts

/-- `p.name` -/
def name (rel : RelPath) : Text := rel.parts.getLast rel.ne_nil

end RelPath

/-! ### `PureWindowsPath` -/

/-- `path.replace('/', '\\')` -/
def toBackslash (path : Text) : Text := path.map fun c => if c = '/' then '\\' else c

/-- `path.replace('\\', '/')` -/
def toSlash (path : Text) : Text := path.map fun c => if c = '\\' then '/' else c

/-- `path.find('\\', start)` -/
def findBackslash (path : Text) (start : ℕ) : Option ℕ :=
  ((path.drop start).findIdx? (· = '\\')).map (start + ·)

/-- `ntpath.splitroot` of a path without `/`: drive, root and the rest. -/
def splitroot (path : Text) : Text × Text × Text :=
  match path with
  | '\\' :: '\\' :: _ =>
      -- `\\server\share` and `\\?\UNC\server\share` are drives
      let start := if (path.take 8).map Char.toUpper = "\\\\?\\UNC\\".toList then 8 else 2
      match findBackslash path start with
      | none => (path, [], [])
      | some index =>
          match findBackslash path (index + 1) with
          | none => (path, [], [])
          | some index₂ =>
              (path.take index₂, (path.drop index₂).take 1, path.drop (index₂ + 1))
  | '\\' :: rel => ([], ['\\'], rel)
  | c :: ':' :: '\\' :: rel => ([c, ':'], ['\\'], rel)
  | c :: ':' :: rel => ([c, ':'], [], rel)
  | rel => ([], [], rel)

/-- The root `_parse_path` gives a `\\server\share` drive that has none. -/
def parseRoot (drive root : Text) : Text :=
  let parts := drive.splitOn '\\'
  if root = [] ∧ drive.head? = some '\\' ∧ drive.getLast? ≠ some '\\' ∧
      (parts.length = 4 ∧ parts.getD 2 [] ∉ [[], ['?'], ['.'], ['?', '.']] ∨ parts.length = 6)
  then ['\\'] else root

/-- The components `_parse_path` keeps of the rest of a path. -/
def parseTail (rel : Text) : List Text :=
  (rel.splitOn '\\').filter fun x => x ≠ [] ∧ x ≠ ['.']

/-- `str(PureWindowsPath(path))` -/
def windowsStr (path : Text) : Text :=
  let (drive, root, rel) := splitroot (toBackslash path)
  let root := parseRoot drive root
  let tail := parseTail rel
  let text :=
    if drive ≠ [] ∨ root ≠ [] then drive ++ root ++ RelPath.join '\\' tail
    else if (splitroot (tail.headD [])).1 ≠ [] then RelPath.join '\\' (['.'] :: tail)
    else RelPath.join '\\' tail
  if text = [] then ['.'] else text

/-- `PureWindowsPath(path).as_posix()` -/
def windowsAsPosix (path : Text) : Text := toSlash (windowsStr path)

section Splitroot

variable {c : Char} {rel path : Text}

/-- A path such as `c:\rel`. -/
theorem splitroot_drive_root (hc : c ≠ '\\') :
    splitroot (c :: ':' :: '\\' :: rel) = ([c, ':'], ['\\'], rel) := by
  unfold splitroot
  split <;> grind

/-- A path such as `c:rel`. -/
theorem splitroot_drive (hc : c ≠ '\\') (hrel : rel.head? ≠ some '\\') :
    splitroot (c :: ':' :: rel) = ([c, ':'], [], rel) := by
  unfold splitroot
  split <;> simp_all

/-- A path with neither drive nor root. -/
theorem splitroot_rel (hroot : path.head? ≠ some '\\') (hdrive : path[1]? ≠ some ':') :
    splitroot path = ([], [], path) := by
  unfold splitroot
  split <;> simp_all

end Splitroot

/-! ### A relative path read back -/

namespace RelPath

variable {sep sep' : Char} {parts : List Text}

/-- Replacing the separator of joined components. -/
theorem map_join {f : Char → Char} (hsep : f sep = sep') (h : ∀ x ∈ parts, ∀ c ∈ x, f c = c) :
    (join sep parts).map f = join sep' parts := by
  induction parts with
  | nil => rfl
  | cons x xs ih =>
      have hx : x.map f = x := (List.map_congr_left (h x List.mem_cons_self)).trans x.map_id'
      have hxs := ih fun y hy => h y (List.mem_cons_of_mem _ hy)
      rcases xs with - | ⟨y, ys⟩
      · simpa [join] using hx
      · simp only [join, List.intercalate_cons_cons, List.map_append, hx, List.map_cons, hsep,
          List.map_nil] at hxs ⊢
        rw [hxs]

/-- The joined components start with the first one. -/
theorem join_cons (x : Text) (xs : List Text) :
    join sep (x :: xs) = x ++ if xs = [] then [] else sep :: join sep xs := by
  cases xs with
  | nil => simp [join]
  | cons y ys => simp [join]

/-- A path that the library lists as it is found again: no `\` in a component,
and the first component is not a drive and a dot. -/
structure Plain (rel : RelPath) : Prop where
  slash : ∀ x ∈ rel.parts, '\\' ∉ x
  drive : ∀ c, rel.parts.head? ≠ some [c, ':', '.']

/-- Joined components are taken apart again. -/
theorem parseTail_join (h : ∀ x ∈ parts, x ≠ [] ∧ x ≠ ['.'] ∧ '\\' ∉ x) :
    parseTail (join '\\' parts) = parts := by
  rcases parts with - | ⟨x, xs⟩
  · rfl
  · rw [parseTail, join, List.splitOn_intercalate _ (fun y hy => (h y hy).2.2) (by simp),
      List.filter_eq_self]
    exact fun y hy => by simpa using ⟨(h y hy).1, (h y hy).2.1⟩

/-- A path with a drive letter is its drive, its root and its components. -/
theorem windowsStr_drive {path root rel : Text} {c : Char} (hc : c ≠ '\\')
    (h : splitroot (toBackslash path) = ([c, ':'], root, rel)) :
    windowsStr path = c :: ':' :: (root ++ join '\\' (parseTail rel)) := by
  have hroot : parseRoot [c, ':'] root = root := by simp [parseRoot, hc]
  simp [windowsStr, h, hroot]

/-- A path with neither drive nor root is its components. -/
theorem windowsStr_rel {path rel : Text} (h : splitroot (toBackslash path) = ([], [], rel))
    (hhead : (splitroot ((parseTail rel).headD [])).1 = [])
    (hne : join '\\' (parseTail rel) ≠ []) :
    windowsStr path = join '\\' (parseTail rel) := by
  have hroot : parseRoot [] [] = [] := by simp [parseRoot]
  have hhead' : ¬ (splitroot ((parseTail rel).headD [])).1 ≠ [] := fun h => h hhead
  simp only [windowsStr, h, hroot, hhead', hne, ne_eq, not_true_eq_false, or_self, if_false]

/-- Components joined by `\` are left as they are. -/
theorem windowsStr_join {path : Text} (hne : parts ≠ [])
    (h : ∀ x ∈ parts, x ≠ [] ∧ x ≠ ['.'] ∧ '\\' ∉ x)
    (hdot : ∀ c, parts.head? ≠ some [c, ':', '.'])
    (hpath : toBackslash path = join '\\' parts) : windowsStr path = join '\\' parts := by
  obtain ⟨x, xs, rfl⟩ := List.exists_cons_of_ne_nil hne
  obtain ⟨hx, hxs⟩ := List.forall_mem_cons.mp h
  rw [join_cons] at hpath
  -- the first component has a drive letter or none
  rcases x with - | ⟨c, x⟩
  · exact absurd rfl hx.1
  have hc : c ≠ '\\' := fun hc => hx.2.2 (by simp [hc])
  by_cases hdrive : x.head? = some ':'
  · obtain ⟨x, rfl⟩ : ∃ y, x = ':' :: y := by
      rcases x with - | ⟨d, y⟩
      · simp at hdrive
      · exact ⟨y, by simpa using hdrive⟩
    rcases x with - | ⟨d, x⟩
    · -- the drive is a component of its own
      by_cases hxs' : xs = []
      · subst hxs'
        have hsplit : splitroot (toBackslash path) = ([c, ':'], [], []) := by
          rw [hpath]
          exact splitroot_drive hc (by simp)
        rw [windowsStr_drive hc hsplit]
        rfl
      · rw [windowsStr_drive hc (by rw [hpath]; simpa [hxs'] using splitroot_drive_root hc),
          parseTail_join hxs, join_cons]
        simp [hxs']
    · -- the drive has a name after it
      have hd : d ≠ '\\' := fun hd => hx.2.2 (by simp [hd])
      have htail : ∀ y ∈ (d :: x) :: xs, y ≠ [] ∧ y ≠ ['.'] ∧ '\\' ∉ y := by
        refine List.forall_mem_cons.mpr ⟨⟨by simp, fun hy => hdot c (by simp [hy]), ?_⟩, hxs⟩
        exact fun hmem => hx.2.2 (by simp [List.mem_cons.mp hmem])
      rw [windowsStr_drive hc (by
          rw [hpath, List.cons_append, List.cons_append]
          exact splitroot_drive hc (by simpa using hd)),
        ← join_cons, parseTail_join htail, join_cons, join_cons]
      simp
  · have hrel : splitroot (toBackslash path) = ([], [], join '\\' ((c :: x) :: xs)) := by
      rw [hpath, ← join_cons, join_cons]
      refine splitroot_rel (by simpa using hc) ?_
      rcases x with - | ⟨d, x⟩
      · by_cases hxs' : xs = [] <;> simp [hxs']
      · simpa using hdrive
    have htail := parseTail_join h
    rw [windowsStr_rel hrel, htail]
    · rw [htail, List.headD_cons, splitroot_rel (by simpa using hc)]
      rcases x with - | ⟨d, x⟩
      · simp
      · simpa using hdrive
    · rw [htail, join_cons]
      simp

/-- The path a library lists for a plain path is read as that path, whichever
separator it was written with. -/
theorem windowsAsPosix_join {rel : RelPath} (hsep : sep = '/' ∨ sep = '\\') (h : rel.Plain) :
    windowsAsPosix (join sep rel.parts) = rel.asPosix := by
  have hback : toBackslash (join sep rel.parts) = join '\\' rel.parts := by
    refine map_join (by rcases hsep with rfl | rfl <;> decide) fun x hx c hc => if_neg ?_
    exact fun hslash => (rel.component x hx).2.2.1 (hslash ▸ hc)
  rw [windowsAsPosix, windowsStr_join rel.ne_nil (fun x hx => ?_) h.drive hback]
  · refine map_join (by decide) fun x hx c hc => if_neg ?_
    exact fun hslash => h.slash x hx (hslash ▸ hc)
  · exact ⟨(rel.component x hx).1, (rel.component x hx).2.1, h.slash x hx⟩

end RelPath
end VirtualPortal
