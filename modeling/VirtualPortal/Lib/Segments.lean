/-
# Segments written over a buffer

A segment is a run of bytes, or of entries of any kind, and the offset it goes to.
Writing one replaces as many entries of the buffer as it has.

A buffer that agrees with the target up to a cut, and with the base from there on,
is what a left-to-right writer works on (`splice`): writing the target's entries from
the cut to a later position moves the cut there (`write_splice`), and so does a
stretch on which target and base agree (`splice_succ`).
-/

import Mathlib.Data.List.TakeDrop

namespace VirtualPortal

/-- A run of entries and where it goes. -/
structure Segment (α : Type*) where
  offset : ℕ
  data : List α

namespace Segment

variable {α : Type*}

/-- The offset behind the last entry. -/
def stop (s : Segment α) : ℕ := s.offset + s.data.length

/-- Replace the entries of a buffer by those of a segment. -/
def write (buffer : List α) (s : Segment α) : List α :=
  buffer.take s.offset ++ s.data ++ buffer.drop s.stop

/-- The entries of `target` from `i` up to `j`. -/
def between (target : List α) (i j : ℕ) : Segment α := ⟨i, (target.take j).drop i⟩

/-- The target up to the cut, and the base from there on. -/
def splice (target base : List α) (cut : ℕ) : List α := target.take cut ++ base.drop cut

variable {target base : List α} {i j cut : ℕ}

/-- The length of a piece. -/
theorem length_between (hj : j ≤ target.length) :
    (between target i j).data.length = j - i := by
  unfold between
  rw [List.length_drop, List.length_take, Nat.min_eq_left hj]

/-- Where a piece ends. -/
theorem stop_between (hi : i ≤ j) (hj : j ≤ target.length) : (between target i j).stop = j := by
  rw [stop, length_between hj]
  exact Nat.add_sub_cancel' hi

/-- The elements of a piece are those of the whole at its place. -/
theorem getElem?_between {k : ℕ} (hk : i + k < j) :
    (between target i j).data[k]? = target[i + k]? := by
  unfold between
  rw [List.getElem?_drop, List.getElem?_take_of_lt hk]

/-- Writing the target's next entries moves the cut behind them. -/
theorem write_splice (hi : cut ≤ j) (hj : j ≤ target.length) :
    write (splice target base cut) (between target cut j) = splice target base j := by
  have hlength : (target.take cut).length = cut := List.length_take_of_le (Nat.le_trans hi hj)
  have hfirst : (splice target base cut).take cut = target.take cut := by
    rw [splice, List.take_left' hlength]
  have hrest : (splice target base cut).drop j = base.drop j := by
    obtain ⟨k, rfl⟩ := Nat.exists_eq_add_of_le hi
    rw [splice, ← List.drop_drop, List.drop_left' hlength, List.drop_drop]
  rw [write, stop_between hi hj, hrest]
  show (splice target base cut).take cut ++ (target.take j).drop cut ++ base.drop j = _
  rw [hfirst, splice]
  congr 1
  calc target.take cut ++ (target.take j).drop cut
      = (target.take j).take cut ++ (target.take j).drop cut := by
        rw [List.take_take, Nat.min_eq_left hi]
    _ = target.take j := List.take_append_drop ..

/-- Where target and base agree the cut moves by itself. -/
theorem splice_succ (hcut : cut < target.length) (hbase : cut < base.length)
    (heq : target[cut]? = base[cut]?) :
    splice target base (cut + 1) = splice target base cut := by
  have hentry : target[cut] = base[cut] := by
    rw [List.getElem?_eq_getElem hcut, List.getElem?_eq_getElem hbase] at heq
    exact Option.some.inj heq
  unfold splice
  rw [List.take_succ_eq_append_getElem hcut, List.append_assoc, hentry,
    List.drop_eq_getElem_cons hbase, List.singleton_append]

end Segment
end VirtualPortal
