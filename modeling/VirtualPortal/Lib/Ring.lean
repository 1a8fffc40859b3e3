/-
# A ring buffer read as a queue

`N` cells, the index `head` of the oldest entry and the number `count` of
entries.  `contents` lists the entries oldest first, whatever the position of
`head`; storing past the last entry appends to it (`contents_push`) and
stepping `head` over the oldest entry drops it (`contents_pop`).

`Ring.step` is the buffer with a push that is refused when it is full, a pop and a
reset; `Fifo.step` is the queue of capacity `N` that it stands for.  A buffer that
is not overfull answers as that queue does, whatever the order of the operations
(`Ring.step_refines`), and never writes a cell that holds an entry
(`Ring.step_cells`).
-/

import Mathlib.Data.Nat.Notation
import Mathlib.Data.List.Range
import Mathlib.Logic.Function.Basic
import VirtualPortal.Lib.Run

namespace VirtualPortal

variable {β : Type*} {N : ℕ}

/-- An operation on a queue. -/
inductive QueueOp (β : Type*) where
  | push (b : β)
  | pop
  | reset

/-- What an operation answers: whether the push is accepted, the entry popped. -/
inductive QueueAnswer (β : Type*) where
  | pushed (accepted : Bool)
  | popped (b : Option β)

/-- A queue that holds at most `N` entries, oldest first. -/
def Fifo.step (N : ℕ) (q : List β) : QueueOp β → List β × List (QueueAnswer β)
  | .push b => if q.length = N then (q, [.pushed false]) else (q ++ [b], [.pushed true])
  | .pop => (q.tail, [.popped q.head?])
  | .reset => ([], [])

namespace Ring

/-- Cell number `i` counted from `head`. -/
def index (hN : 0 < N) (head i : ℕ) : Fin N := ⟨(head + i) % N, Nat.mod_lt _ hN⟩

/-- The entries, oldest first. -/
def contents (hN : 0 < N) (cells : Fin N → β) (head count : ℕ) : List β :=
  (List.range count).map fun i => cells (index hN head i)

/-- An empty ring has no contents. -/
@[simp] theorem contents_zero (hN : 0 < N) (cells : Fin N → β) (head : ℕ) :
    contents hN cells head 0 = [] := rfl

/-- The contents are as many as the count. -/
@[simp] theorem length_contents (hN : 0 < N) (cells : Fin N → β) (head count : ℕ) :
    (contents hN cells head count).length = count := by
  rw [contents, List.length_map, List.length_range]

/-- Different entries of a ring that is not overfull lie in different cells. -/
theorem index_ne (hN : 0 < N) (head : ℕ) {i j : ℕ} (hij : i < j) (hj : j < N) :
    index hN head i ≠ index hN head j := by
  intro h
  have h' : (head + i) % N = (head + j) % N := congrArg Fin.val h
  have hmod := Nat.sub_mod_eq_zero_of_mod_eq h'.symm
  rw [show head + j - (head + i) = j - i by omega, Nat.mod_eq_of_lt (by omega)] at hmod
  omega

/-- The places from the next head on. -/
theorem index_succ (hN : 0 < N) (head i : ℕ) :
    index hN ((head + 1) % N) i = index hN head (i + 1) := by
  apply Fin.ext
  show ((head + 1) % N + i) % N = (head + (i + 1)) % N
  rw [Nat.mod_add_mod, Nat.add_assoc, Nat.add_comm 1 i]

/-- Storing in the cell past the last entry appends to the queue. -/
theorem contents_push (hN : 0 < N) (cells : Fin N → β) (head : ℕ) {count : ℕ} (h : count < N)
    (v : β) :
    contents hN (Function.update cells (index hN head count) v) head (count + 1) =
      contents hN cells head count ++ [v] := by
  unfold contents
  rw [List.range_succ, List.map_append, List.map_singleton, Function.update_self]
  congr 1
  refine List.map_congr_left fun i hi => ?_
  exact Function.update_of_ne (index_ne hN head (List.mem_range.mp hi) h) _ _

/-- The oldest entry is the cell at `head`, and stepping over it drops it. -/
theorem contents_pop (hN : 0 < N) (cells : Fin N → β) (head count : ℕ) :
    contents hN cells head (count + 1) =
      cells (index hN head 0) :: contents hN cells ((head + 1) % N) count := by
  unfold contents
  rw [List.range_succ_eq_map, List.map_cons, List.map_map]
  congr 1
  refine List.map_congr_left fun i _ => ?_
  rw [Function.comp, index_succ]

/-! ### The buffer as a machine -/

/-- Cells, the index of the oldest entry, the number of entries. -/
structure State (N : ℕ) (β : Type*) where
  cells : Fin N → β
  head : ℕ
  count : ℕ

/-- The head is a cell and there are no more entries than cells. -/
structure State.Valid (s : State N β) : Prop where
  head : s.head < N
  count : s.count ≤ N

/-- The entries of a buffer, oldest first. -/
def State.queue (hN : 0 < N) (s : State N β) : List β := contents hN s.cells s.head s.count

/-- One operation on the buffer. -/
def step (hN : 0 < N) (s : State N β) : QueueOp β → State N β × List (QueueAnswer β)
  | .push b =>
      if s.count = N then (s, [.pushed false])
      else
        ({ s with
          cells := Function.update s.cells (index hN s.head s.count) b
          count := s.count + 1 }, [.pushed true])
  | .pop =>
      if s.count = 0 then (s, [.popped none])
      else
        ({ s with head := (s.head + 1) % N, count := s.count - 1 },
          [.popped (some (s.cells (index hN s.head 0)))])
  | .reset => ({ s with head := 0, count := 0 }, [])

variable (hN : 0 < N) {s : State N β}

/-- The queue is as long as the count. -/
theorem length_queue : (s.queue hN).length = s.count := length_contents ..

/-- One operation keeps the buffer valid and acts on the entries as on a queue. -/
theorem step_refines (hs : s.Valid) (op : QueueOp β) :
    (step hN s op).1.Valid ∧ (step hN s op).1.queue hN = (Fifo.step N (s.queue hN) op).1 ∧
      (step hN s op).2 = (Fifo.step N (s.queue hN) op).2 := by
  cases op with
  | push b =>
      simp only [step, Fifo.step, length_queue]
      split_ifs with hfull
      · exact ⟨hs, rfl, rfl⟩
      · have hroom : s.count < N := lt_of_le_of_ne hs.count hfull
        exact ⟨⟨hs.head, hroom⟩, contents_push hN s.cells s.head hroom b, rfl⟩
  | pop =>
      simp only [step, Fifo.step]
      split_ifs with hempty
      · have hnil : s.queue hN = [] :=
          List.eq_nil_of_length_eq_zero ((length_queue hN).trans hempty)
        exact ⟨hs, by rw [hnil]; rfl, by rw [hnil]; rfl⟩
      · obtain ⟨count, hcount⟩ := Nat.exists_eq_succ_of_ne_zero hempty
        have hcons : s.queue hN = s.cells (index hN s.head 0) ::
            contents hN s.cells ((s.head + 1) % N) count := by
          rw [State.queue, hcount]
          exact contents_pop hN s.cells s.head count
        have hle := hs.count
        rw [hcons]
        refine ⟨⟨Nat.mod_lt _ hN, ?_⟩, ?_, rfl⟩
        · show s.count - 1 ≤ N
          omega
        · show contents hN s.cells ((s.head + 1) % N) (s.count - 1) = _
          rw [hcount]
          rfl
  | reset => exact ⟨⟨hN, Nat.zero_le N⟩, rfl, rfl⟩

/-- No operation writes a cell that holds an entry. -/
theorem step_cells (hs : s.Valid) (op : QueueOp β) {i : ℕ} (hi : i < s.count) :
    (step hN s op).1.cells (index hN s.head i) = s.cells (index hN s.head i) := by
  cases op with
  | push b =>
      simp only [step]
      split_ifs with hfull
      · rfl
      · exact Function.update_of_ne (index_ne hN s.head hi (lt_of_le_of_ne hs.count hfull)) _ _
  | pop =>
      simp only [step]
      split_ifs <;> rfl
  | reset => rfl

end Ring
end VirtualPortal
