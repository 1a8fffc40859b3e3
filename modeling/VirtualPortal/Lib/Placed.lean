/-
# Files loaded in pieces

An executable file says which stretches of it go where in memory (`Place`).  The first
place that holds an address gives the entry of the file that is loaded there
(`Place.find`), and the entries make the image of the file.

In a list of places that are apart, both in the file and in memory, a change of the file
is a change of the image at the same entries: writing a word where the file has it
changes the word of the image and no other entry (`image_write_self`,
`image_write_other`), and a place added for new entries at the end of the file adds
their image (`image_append_self`, `image_append_other`).
-/

import VirtualPortal.Lib.Segments
import Mathlib.Tactic.SplitIfs
import Mathlib.Order.Nat

namespace VirtualPortal

/-- A stretch of a file and the addresses it is loaded at. -/
structure Place where
  offset : ℕ
  addr : ℕ
  size : ℕ
deriving DecidableEq

namespace Place

variable {α : Type*} {ps : List Place} {p q : Place} {a a' x n : ℕ} {file : List α}

/-- The address is one of the place. -/
def Holds (p : Place) (a : ℕ) : Prop := p.addr ≤ a ∧ a < p.addr + p.size

instance (p : Place) (a : ℕ) : Decidable (p.Holds a) := inferInstanceAs (Decidable (_ ∧ _))

/-- The entry of the file that is loaded at an address. -/
def find (ps : List Place) (a : ℕ) : Option ℕ :=
  (ps.find? fun p => p.Holds a).map fun p => p.offset + a - p.addr

/-- What is in memory once the file is loaded. -/
def image (ps : List Place) (file : List α) (a : ℕ) : Option α := (find ps a).bind (file[·]?)

/-- Two stretches without a common entry. -/
def Clear (o n o' n' : ℕ) : Prop := o + n ≤ o' ∨ o' + n' ≤ o

instance (o n o' n' : ℕ) : Decidable (Clear o n o' n') := inferInstanceAs (Decidable (_ ∨ _))

/-- Different places share neither an entry of the file nor an address. -/
def Apart (ps : List Place) : Prop :=
  ∀ p ∈ ps, ∀ q ∈ ps, p ≠ q → Clear p.offset p.size q.offset q.size ∧
    Clear p.addr p.size q.addr q.size

theorem find_eq_none : find ps a = none ↔ ∀ p ∈ ps, ¬ p.Holds a := by
  simp [find]

/-- The place that holds an address is the one that `find` takes. -/
theorem find_eq_some (h : Apart ps) (hp : p ∈ ps) (ha : p.Holds a) :
    find ps a = some (p.offset + a - p.addr) := by
  unfold find
  cases hfound : ps.find? fun p => p.Holds a with
  | none =>
      have hnone := List.find?_eq_none.mp hfound p hp
      exact absurd (decide_eq_true ha) hnone
  | some q =>
      have hq : q.Holds a := by simpa using List.find?_some hfound
      have hqp : q = p := by
        by_contra hne
        obtain ⟨-, hclear⟩ := h q (List.mem_of_find?_eq_some hfound) p hp hne
        unfold Clear at hclear
        unfold Holds at ha hq
        omega
      rw [hqp]
      rfl

theorem exists_of_find (h : find ps a = some x) :
    ∃ p ∈ ps, p.Holds a ∧ x = p.offset + a - p.addr := by
  obtain ⟨p, hfound, rfl⟩ := Option.map_eq_some_iff.mp h
  have hp : p.Holds a := by simpa using List.find?_some hfound
  exact ⟨p, List.mem_of_find?_eq_some hfound, hp, rfl⟩

/-- An entry of the file is loaded at one address. -/
theorem find_inj (h : Apart ps) (ha : find ps a = some x) (ha' : find ps a' = some x) : a = a' := by
  obtain ⟨p, hp, hholds, hx⟩ := exists_of_find ha
  obtain ⟨q, hq, hholds', hx'⟩ := exists_of_find ha'
  unfold Holds at hholds hholds'
  by_cases hpq : p = q
  · subst hpq
    omega
  · obtain ⟨hclear, -⟩ := h p hp q hq hpq
    unfold Clear at hclear
    omega

/-- A stretch of addresses in one place is a stretch of the file. -/
theorem find_add (h : Apart ps) (hp : p ∈ ps) (ha : p.Holds a) (hx : find ps a = some x)
    (hn : a + n < p.addr + p.size) : find ps (a + n) = some (x + n) := by
  have hfound := find_eq_some h hp ha
  rw [hx] at hfound
  have hnext : p.Holds (a + n) := ⟨ha.1.trans (Nat.le_add_right a n), hn⟩
  rw [find_eq_some h hp hnext]
  have hle := ha.1
  have hx' := Option.some.inj hfound
  congr 1
  omega

/-- The image depends on what is in the places. -/
theorem image_congr {file' : List α} (h : ∀ p ∈ ps, ∀ x, p.offset ≤ x → x < p.offset + p.size →
    file'[x]? = file[x]?) (a : ℕ) : image ps file' a = image ps file a := by
  unfold image
  cases hfound : find ps a with
  | none => rfl
  | some x =>
      obtain ⟨p, hp, hholds, hx⟩ := exists_of_find hfound
      unfold Holds at hholds
      exact h p hp x (by omega) (by omega)

/-- An address with an entry is in a place. -/
theorem exists_of_image {b : α} (h : image ps file a = some b) : ∃ p ∈ ps, p.Holds a := by
  obtain ⟨x, hx, -⟩ := Option.bind_eq_some_iff.mp h
  obtain ⟨p, hp, hholds, -⟩ := exists_of_find hx
  exact ⟨p, hp, hholds⟩

/-- A list with the same places finds the same entries. -/
theorem find_congr {qs : List Place} (h : Apart qs) (hmem : ∀ p ∈ ps, p.Holds a → p ∈ qs)
    (hmem' : ∀ p ∈ qs, p.Holds a → p ∈ ps) : find qs a = find ps a := by
  cases hfound : find ps a with
  | none =>
      refine find_eq_none.mpr fun p hp ha => ?_
      exact find_eq_none.mp hfound p (hmem' p hp ha) ha
  | some x =>
      obtain ⟨p, hp, ha, rfl⟩ := exists_of_find hfound
      exact find_eq_some h (hmem p hp ha) ha

end Place

namespace Segment

variable {α : Type*} {buffer : List α} {s : Segment α} {i : ℕ}

theorem length_write (h : s.stop ≤ buffer.length) : (write buffer s).length = buffer.length := by
  unfold write stop at *
  rw [List.length_append, List.length_append, List.length_take, List.length_drop]
  omega

/-- Writing a segment replaces its entries. -/
theorem getElem?_write_self (h : s.offset ≤ buffer.length) (hi : i < s.data.length) :
    (write buffer s)[s.offset + i]? = s.data[i]? := by
  have hlength : (buffer.take s.offset).length = s.offset := List.length_take_of_le h
  unfold write
  rw [List.append_assoc, List.getElem?_append_right (by omega), hlength,
    Nat.add_sub_cancel_left, List.getElem?_append_left hi]

/-- Writing a segment leaves the other entries. -/
theorem getElem?_write_other (h : s.offset ≤ buffer.length) (hi : i < s.offset ∨ s.stop ≤ i) :
    (write buffer s)[i]? = buffer[i]? := by
  have hlength : (buffer.take s.offset).length = s.offset := List.length_take_of_le h
  unfold write stop at *
  rcases hi with hi | hi
  · rw [List.append_assoc, List.getElem?_append_left (by omega), List.getElem?_take_of_lt hi]
  · rw [List.getElem?_append_right (by rw [List.length_append]; omega), List.length_append, hlength,
      List.getElem?_drop]
    congr 1
    omega

end Segment

namespace Place

variable {α : Type*} {ps qs : List Place} {p q : Place} {a x n : ℕ} {file added : List α}

/-- The entries of a stretch of addresses. -/
def Shows (ps : List Place) (file : List α) (a : ℕ) (data : List α) : Prop :=
  ∀ k < data.length, image ps file (a + k) = data[k]?

/-- Writing a stretch of a place writes the same stretch of the image. -/
theorem image_write_self (h : Apart ps) (hp : p ∈ ps) (ha : p.Holds a) (hx : find ps a = some x)
    {data : List α} (hn : a + data.length ≤ p.addr + p.size)
    (hfile : x + data.length ≤ file.length) :
    Shows ps (Segment.write file ⟨x, data⟩) a data := by
  intro k hk
  rw [image, find_add h hp ha hx (by omega)]
  exact Segment.getElem?_write_self (s := ⟨x, data⟩) (by dsimp only; omega) hk

/-- And leaves the rest of the image. -/
theorem image_write_other (h : Apart ps) (hp : p ∈ ps) (hin : p.Holds a) (hx : find ps a = some x)
    {data : List α} (hn : a + data.length ≤ p.addr + p.size) (hfile : x + data.length ≤ file.length)
    {a' : ℕ} (ha' : a' < a ∨ a + data.length ≤ a') :
    image ps (Segment.write file ⟨x, data⟩) a' = image ps file a' := by
  unfold image
  cases hfound : find ps a' with
  | none => rfl
  | some y =>
      refine Segment.getElem?_write_other (s := ⟨x, data⟩) (by dsimp only; omega) ?_
      by_contra hinside
      push Not at hinside
      obtain ⟨hle, hlt⟩ := hinside
      obtain ⟨k, rfl⟩ := Nat.exists_eq_add_of_le hle
      have hk : k < data.length := by
        unfold Segment.stop at hlt
        dsimp only at hlt
        omega
      have hsame := find_inj h hfound (find_add h hp hin hx (n := k) (by omega))
      omega

/-- Entries behind the end of the file do not change the image of the places inside it. -/
theorem image_append_other (h : Apart qs) (hmem : ∀ p ∈ ps, p ∈ qs)
    (hmem' : ∀ p ∈ qs, p ≠ q → p ∈ ps) (hinside : ∀ p ∈ ps, p.offset + p.size ≤ file.length)
    (ha : ¬ q.Holds a) : image qs (file ++ added) a = image ps file a := by
  have hfind : find qs a = find ps a := by
    refine find_congr h (fun p hp _ => hmem p hp) fun p hp hholds => hmem' p hp ?_
    rintro rfl
    exact ha hholds
  unfold image
  rw [hfind]
  cases hfound : find ps a with
  | none => rfl
  | some x =>
      obtain ⟨p, hp, hholds, hx⟩ := exists_of_find hfound
      have hlt := hinside p hp
      unfold Holds at hholds
      exact List.getElem?_append_left (by omega)

/-- The place of the new entries shows them. -/
theorem image_append_self (h : Apart qs) (hq : q ∈ qs) (hoffset : q.offset = file.length)
    (hsize : q.size = added.length) : Shows qs (file ++ added) q.addr added := by
  intro k hk
  have hholds : q.Holds (q.addr + k) := ⟨Nat.le_add_right .., by omega⟩
  rw [image, find_eq_some h hq hholds]
  show (file ++ added)[_]? = _
  rw [List.getElem?_append_right (by omega)]
  congr 1
  omega

end Place
end VirtualPortal
