/-
# Sequence locks

One writer publishes contents in a shared memory of words, one reader takes a
snapshot of them.  The word `lock` counts: the writer adds one before its first
store and one after its last, so it is odd while a publish is under way.  The reader
loads it before and after the other words and accepts the snapshot if it was even
and has not changed.

Stores and loads are single steps in any order.  `consistent` says that an accepted
snapshot is the contents of one publish, if the word has not come round: while the
reader was at it, fewer than half as many publishes were completed as the word has
values.
-/

import VirtualPortal.Lib.Run
import Mathlib.Data.Nat.ModEq
import Mathlib.Logic.Function.Basic
import Mathlib.Tactic.Ring

namespace VirtualPortal
namespace Seqlock

/-- The words of a sequence lock, in the order the writer stores and the reader loads
them. -/
structure Layout (ι : Type*) where
  lock : ι
  stores : List ι
  loads : List ι
  lock_notMem : lock ∉ stores
  covered : ∀ a ∈ loads, a ∈ stores

/-- A step of the writer or of the reader. -/
inductive Step (ι : Type*) (w : ℕ) where
  /-- The writer begins to publish: it stores an odd value in the lock. -/
  | publish (content : ι → BitVec w)
  | store
  | load

/-- The memory, what the two still have to do, and the words the reader has loaded.
`completed` counts the publishes that end between its first and its last load. -/
structure State (ι : Type*) (w : ℕ) where
  mem : ι → BitVec w
  revision : BitVec w
  stores : List (ι × BitVec w)
  loads : List ι
  loaded : List (BitVec w)
  completed : ℕ

variable {ι : Type*} {w : ℕ}

/-- The lock is free. -/
def Even (v : BitVec w) : Prop := v.toNat % 2 = 0

instance (v : BitVec w) : Decidable (Even v) := inferInstanceAs (Decidable (_ = _))

/-- The reader has accepted the words `words`. -/
def State.Accepts (s : State ι w) (words : List (BitVec w)) : Prop :=
  s.loads = [] ∧ ∃ v : BitVec w, Even v ∧ s.loaded = v :: (words ++ [v])

namespace Layout

variable (L : Layout ι)

/-- One step; the contents of the publishes that begin are the outputs.  The reader
gives up when it finds the lock taken. -/
def step [DecidableEq ι] (s : State ι w) : Step ι w → State ι w × List (ι → BitVec w)
  | .publish content =>
      match s.stores with
      | [] =>
          ({ s with
            mem := Function.update s.mem L.lock (s.revision + 1)
            revision := s.revision + 2
            stores := (L.stores.map fun a => (a, content a)) ++ [(L.lock, s.revision + 2)] },
            [content])
      | _ :: _ => (s, [])
  | .store =>
      match s.stores with
      | [] => (s, [])
      | (a, v) :: stores =>
          ({ s with
            mem := Function.update s.mem a v
            stores := stores
            completed :=
              if stores = [] ∧ s.loaded ≠ [] ∧ s.loads ≠ [] then s.completed + 1
              else s.completed }, [])
  | .load =>
      match s.loads with
      | [] => (s, [])
      | a :: loads =>
          ({ s with
            loads := if s.loaded = [] ∧ ¬ Even (s.mem a) then [] else loads
            loaded := s.loaded ++ [s.mem a] }, [])

/-- Nothing has been published since the memory was `mem`. -/
def start (mem : ι → BitVec w) : State ι w where
  mem := mem
  revision := mem L.lock
  stores := []
  loads := L.lock :: (L.loads ++ [L.lock])
  loaded := []
  completed := 0

/-- The writer is at rest and the memory holds the last contents, or it has stored some
of the new ones. -/
inductive Writes (s : State ι w) (seen : List (ι → BitVec w)) : Prop where
  | rest (content : ι → BitVec w) (hseen : content ∈ seen) (hstores : s.stores = [])
      (hlock : s.mem L.lock = s.revision) (heven : Even s.revision)
      (hmem : ∀ a ∈ L.stores, s.mem a = content a)
  | busy (content : ι → BitVec w) (done todo : List ι) (hseen : content ∈ seen)
      (hall : L.stores = done ++ todo)
      (hstores : s.stores = (todo.map fun a => (a, content a)) ++ [(L.lock, s.revision)])
      (hlock : s.mem L.lock + 1 = s.revision) (heven : Even s.revision)
      (hmem : ∀ a ∈ done, s.mem a = content a)

/-- How often the lock has been stored since a reader found it free. -/
def changes (s : State ι w) : ℕ := 2 * s.completed + if s.stores = [] then 0 else 1

/-- The reader has not begun, has given up, or has loaded some of the words; while the
lock has not changed they are the words of the memory. -/
inductive Reads (s : State ι w) (seen : List (ι → BitVec w)) : Prop where
  | ready (hloads : s.loads = L.lock :: (L.loads ++ [L.lock])) (hloaded : s.loaded = [])
      (hcompleted : s.completed = 0)
  | gone (v : BitVec w) (hloads : s.loads = []) (hloaded : s.loaded = [v])
  | reading (v : BitVec w) (words : List (BitVec w)) (got todo : List ι)
      (hall : L.loads = got ++ todo) (hloads : s.loads = todo ++ [L.lock])
      (hloaded : s.loaded = v :: words)
      (hlock : s.mem L.lock = v + BitVec.ofNat w (changes s))
      (hwords : changes s = 0 → words = got.map s.mem)
  | done (v : BitVec w) (words : List (BitVec w)) (n : ℕ) (hloads : s.loads = [])
      (hloaded : s.loaded = v :: (words ++ [v + BitVec.ofNat w n]))
      (hn : n ≤ 2 * s.completed + 1)
      (hwords : n = 0 → ∃ content ∈ seen, words = L.loads.map content)

end Layout

/-! ### The lock word -/

/-- Counting up changes the parity as in the natural numbers. -/
theorem toNat_add_ofNat_mod_two (hw : 0 < w) (v : BitVec w) (k : ℕ) :
    (v + BitVec.ofNat w k).toNat % 2 = (v.toNat + k) % 2 := by
  have hdvd : 2 ∣ 2 ^ w := dvd_pow_self 2 hw.ne'
  rw [BitVec.toNat_add, BitVec.toNat_ofNat, Nat.mod_mod_of_dvd _ hdvd, Nat.add_mod,
    Nat.mod_mod_of_dvd _ hdvd, ← Nat.add_mod]

/-- Counting up by two keeps a version even. -/
theorem Even.add_two (hw : 0 < w) {v : BitVec w} (h : Even v) : Even (v + 2) := by
  have := toNat_add_ofNat_mod_two hw v 2
  unfold Even at h ⊢
  rw [show (2 : BitVec w) = BitVec.ofNat w 2 from rfl]
  omega

/-- Between two even values of the lock there is an odd one. -/
theorem not_even_of_add_one (hw : 0 < w) {v : BitVec w} (h : Even (v + 1)) : ¬ Even v := by
  have := toNat_add_ofNat_mod_two hw v 1
  unfold Even at h ⊢
  rw [show (1 : BitVec w) = BitVec.ofNat w 1 from rfl] at h
  omega

/-- Counting up by one twice. -/
theorem add_one_add_one (v : BitVec w) : v + 1 + 1 = v + 2 := by
  rw [BitVec.add_assoc]
  congr 1
  apply BitVec.eq_of_toNat_eq
  simp [BitVec.toNat_add]

/-- Counting up by one more. -/
theorem add_ofNat_add_one (v : BitVec w) (n : ℕ) :
    v + BitVec.ofNat w n + 1 = v + BitVec.ofNat w (n + 1) := by
  rw [BitVec.add_assoc, BitVec.ofNat_add]
  rfl

/-- The lock comes round only after as many changes as it has values. -/
theorem eq_zero_of_add_eq {v : BitVec w} {n : ℕ} (h : v = v + BitVec.ofNat w n) (hn : n < 2 ^ w) :
    n = 0 := by
  have hadd : v + BitVec.ofNat w n = v + 0#w := by rw [← h, BitVec.add_zero]
  have := congrArg BitVec.toNat ((BitVec.add_right_inj v).mp hadd)
  rwa [BitVec.toNat_ofNat, Nat.mod_eq_of_lt hn, BitVec.toNat_zero] at this

/-! ### The writer -/

namespace Layout

variable {L : Layout ι} {s : State ι w} {seen : List (ι → BitVec w)}

/-- A writer has published what it had before, among more. -/
theorem Writes.mono (h : L.Writes s seen) (l : List (ι → BitVec w)) : L.Writes s (seen ++ l) := by
  cases h with
  | rest content hseen hstores hlock heven hmem =>
      exact .rest content (List.mem_append_left l hseen) hstores hlock heven hmem
  | busy content done todo hseen hall hstores hlock heven hmem =>
      exact .busy content done todo (List.mem_append_left l hseen) hall hstores hlock heven hmem

/-- A reader that finds the lock free finds the writer at rest. -/
theorem Writes.at_rest (hw : 0 < w) (h : L.Writes s seen) (hfree : Even (s.mem L.lock)) :
    s.stores = [] := by
  cases h with
  | rest _ _ hstores _ _ _ => exact hstores
  | busy _ _ _ _ _ _ hlock heven _ =>
      exact absurd hfree (not_even_of_add_one hw (hlock ▸ heven))

/-- At rest the memory holds the contents of the last publish. -/
theorem Writes.contents (h : L.Writes s seen) (hrest : s.stores = []) :
    ∃ content ∈ seen, ∀ a ∈ L.stores, s.mem a = content a := by
  cases h with
  | rest content hseen _ _ _ hmem => exact ⟨content, hseen, hmem⟩
  | busy _ _ _ _ _ hstores _ _ _ => simp [hstores] at hrest

/-- A reader has seen what it had before, among more. -/
theorem Reads.mono (h : L.Reads s seen) (l : List (ι → BitVec w)) : L.Reads s (seen ++ l) := by
  cases h with
  | ready hloads hloaded hcompleted => exact .ready hloads hloaded hcompleted
  | gone v hloads hloaded => exact .gone v hloads hloaded
  | reading v words got todo hall hloads hloaded hlock hwords =>
      exact .reading v words got todo hall hloads hloaded hlock hwords
  | done v words n hloads hloaded hn hwords =>
      refine .done v words n hloads hloaded hn fun h0 => ?_
      obtain ⟨content, hseen, h⟩ := hwords h0
      exact ⟨content, List.mem_append_left l hseen, h⟩

variable [DecidableEq ι]

/-- The writer's side of a step. -/
theorem Writes.step (hw : 0 < w) (h : L.Writes s seen) (a : Step ι w) :
    L.Writes (L.step s a).1 (seen ++ (L.step s a).2) := by
  cases h with
  | rest content hseen hstores hlock heven hmem =>
      cases a with
      | publish next =>
          simp only [Layout.step, hstores]
          refine .busy next [] L.stores (List.mem_append_right seen List.mem_cons_self) rfl rfl ?_
            (heven.add_two hw) (fun a ha => absurd ha List.not_mem_nil)
          dsimp only
          rw [Function.update_self]
          exact add_one_add_one s.revision
      | store =>
          simp only [Layout.step, hstores, List.append_nil]
          exact .rest content hseen hstores hlock heven hmem
      | load =>
          refine Writes.mono ?_ _
          unfold Layout.step
          dsimp only
          split <;> exact .rest content hseen hstores hlock heven hmem
  | busy content done todo hseen hall hstores hlock heven hmem =>
      cases a with
      | publish next =>
          have hkeep : L.step s (.publish next) = (s, []) := by
            cases todo <;> simp only [Layout.step, hstores, List.map_nil, List.map_cons,
              List.nil_append, List.cons_append]
          rw [hkeep, List.append_nil]
          exact .busy content done todo hseen hall hstores hlock heven hmem
      | store =>
          cases todo with
          | nil =>
              simp only [Layout.step, hstores, List.map_nil, List.nil_append, List.append_nil]
              rw [List.append_nil] at hall
              refine .rest content hseen rfl (Function.update_self ..) heven fun a ha => ?_
              have hne : a ≠ L.lock := fun h => L.lock_notMem (h ▸ ha)
              exact (Function.update_of_ne hne ..).trans (hmem a (hall ▸ ha))
          | cons b todo =>
              have hb : b ∈ L.stores := hall ▸ List.mem_append_right done List.mem_cons_self
              have hne : L.lock ≠ b := fun h => L.lock_notMem (h ▸ hb)
              simp only [Layout.step, hstores, List.map_cons, List.cons_append, List.append_nil]
              refine .busy content (done ++ [b]) todo hseen (by simp [hall]) rfl ?_ heven
                fun a ha => ?_
              · exact (congrArg (· + 1) (Function.update_of_ne hne ..)).trans hlock
              · by_cases hab : a = b
                · subst hab
                  exact Function.update_self ..
                · obtain ha | ha := List.mem_append.mp ha
                  · exact (Function.update_of_ne hab ..).trans (hmem a ha)
                  · exact absurd (List.mem_singleton.mp ha) hab
      | load =>
          refine Writes.mono ?_ _
          unfold Layout.step
          dsimp only
          split <;> exact .busy content done todo hseen hall hstores hlock heven hmem

/-! ### The reader -/

/-- The next load. -/
theorem Reads.load (hw : 0 < w) (h : L.Reads s seen) (hwrites : L.Writes s seen) :
    L.Reads (L.step s .load).1 seen := by
  cases h with
  | ready hloads hloaded hcompleted =>
      simp only [Layout.step, hloads, hloaded, List.nil_append, true_and]
      by_cases hfree : Even (s.mem L.lock)
      · rw [if_neg (not_not.mpr hfree)]
        have hchanges : changes s = 0 := by
          rw [changes, hcompleted, hwrites.at_rest hw hfree]
          rfl
        refine .reading (s.mem L.lock) [] [] L.loads rfl rfl rfl ?_ fun _ => rfl
        show s.mem L.lock = s.mem L.lock + BitVec.ofNat w (changes s)
        rw [hchanges]
        exact (BitVec.add_zero _).symm
      · rw [if_pos hfree]
        exact .gone (s.mem L.lock) rfl rfl
  | gone v hloads hloaded =>
      simp only [Layout.step, hloads]
      exact .gone v hloads hloaded
  | reading v words got todo hall hloads hloaded hlock hwords =>
      cases todo with
      | nil =>
          rw [List.append_nil] at hall
          simp only [Layout.step, hloads, hloaded, List.nil_append, reduceCtorEq, false_and,
            if_false]
          refine .done v words (changes s) rfl (by simp [hlock]) ?_ fun h0 => ?_
          · show changes s ≤ 2 * s.completed + 1
            unfold changes
            split_ifs <;> omega
          · have hrest : s.stores = [] := by
              by_contra hbusy
              simp [changes, hbusy] at h0
            obtain ⟨content, hseen, hmem⟩ := hwrites.contents hrest
            refine ⟨content, hseen, ?_⟩
            rw [hwords h0, hall]
            exact List.map_congr_left fun a ha => hmem a (L.covered a (hall ▸ ha))
      | cons b todo =>
          simp only [Layout.step, hloads, hloaded, List.cons_append, reduceCtorEq, false_and,
            if_false]
          refine .reading v (words ++ [s.mem b]) (got ++ [b]) todo (by simp [hall]) rfl rfl hlock
            fun h0 => ?_
          rw [hwords h0, List.map_append]
          rfl
  | done v words n hloads hloaded hn hwords =>
      simp only [Layout.step, hloads]
      exact .done v words n hloads hloaded hn hwords

/-- A publish begins: the lock of a snapshot under way changes. -/
theorem Reads.publish (h : L.Reads s seen) (hwrites : L.Writes s seen) (next : ι → BitVec w) :
    L.Reads (L.step s (.publish next)).1 seen := by
  cases hstores : s.stores with
  | cons b stores =>
      simp only [Layout.step, hstores]
      exact h
  | nil =>
      simp only [Layout.step, hstores]
      cases h with
      | ready hloads hloaded hcompleted => exact .ready hloads hloaded hcompleted
      | gone v hloads hloaded => exact .gone v hloads hloaded
      | done v words n hloads hloaded hn hwords => exact .done v words n hloads hloaded hn hwords
      | reading v words got todo hall hloads hloaded hlock hwords =>
          have hrevision : s.mem L.lock = s.revision := by
            cases hwrites with
            | rest _ _ _ hlock _ _ => exact hlock
            | busy _ _ _ _ _ hbusy _ _ _ => simp [hbusy] at hstores
          have hchanges : changes s = 2 * s.completed := by simp [changes, hstores]
          refine .reading v words got todo hall hloads hloaded ?_ (fun h0 => ?_)
          · dsimp only
            rw [Function.update_self, ← hrevision, hlock, add_ofNat_add_one, hchanges]
            simp [changes]
          · simp [changes] at h0

/-- A store: the last one of a publish changes the lock again. -/
theorem Reads.store (h : L.Reads s seen) (hwrites : L.Writes s seen) :
    L.Reads (L.step s .store).1 seen := by
  cases hwrites with
  | rest content hseen hstores _ _ _ =>
      simp only [Layout.step, hstores]
      exact h
  | busy content done todo hseen hall' hstores hlock' _ _ =>
      obtain ⟨b, c, stores, hcons⟩ : ∃ b c stores, s.stores = (b, c) :: stores := by
        cases todo <;> exact ⟨_, _, _, hstores⟩
      have hchanges : changes s = 2 * s.completed + 1 := by simp [changes, hcons]
      simp only [Layout.step, hcons]
      cases h with
      | ready hloads hloaded hcompleted =>
          refine .ready hloads hloaded ?_
          dsimp only
          rw [if_neg fun h => h.2.1 hloaded, hcompleted]
      | gone v hloads hloaded => exact .gone v hloads hloaded
      | done v words n hloads hloaded hn hwords =>
          refine .done v words n hloads hloaded ?_ hwords
          dsimp only
          rwa [if_neg fun h => h.2.2 hloads]
      | reading v words got todo' hall hloads hloaded hlock hwords =>
          have hloading : s.loaded ≠ [] ∧ s.loads ≠ [] := by simp [hloads, hloaded]
          cases todo with
          | nil =>
              rw [hstores] at hcons
              obtain ⟨hbc, rfl⟩ := List.cons.inj hcons
              obtain ⟨rfl, rfl⟩ := Prod.mk.inj hbc
              refine .reading v words got todo' hall hloads hloaded ?_ (fun h0 => ?_)
              · dsimp only
                rw [Function.update_self, ← hlock', hlock, hchanges, add_ofNat_add_one]
                simp [changes, hloading]
                rfl
              · simp [changes, hloading] at h0
          | cons a todo =>
              have ha : a ∈ L.stores := hall' ▸ List.mem_append_right done List.mem_cons_self
              have hne : L.lock ≠ a := fun h => L.lock_notMem (h ▸ ha)
              rw [hstores] at hcons
              obtain ⟨hbc, rfl⟩ := List.cons.inj hcons
              obtain ⟨rfl, rfl⟩ := Prod.mk.inj hbc
              refine .reading v words got todo' hall hloads hloaded ?_ (fun h0 => ?_)
              · dsimp only
                rw [Function.update_of_ne hne, hlock, hchanges]
                simp [changes]
              · simp [changes] at h0

/-! ### Runs -/

/-- The writer and the reader keep their sides. -/
theorem sound (hw : 0 < w) {mem : ι → BitVec w} (hfree : Even (mem L.lock))
    (steps : List (Step ι w)) :
    L.Writes (Run.final L.step (L.start mem) steps)
      (mem :: Run.outputs L.step (L.start mem) steps) ∧
      L.Reads (Run.final L.step (L.start mem) steps)
        (mem :: Run.outputs L.step (L.start mem) steps) := by
  have hstart : L.Writes (L.start mem) [mem] ∧ L.Reads (L.start mem) [mem] :=
    ⟨.rest mem List.mem_cons_self rfl rfl hfree fun _ _ => rfl, .ready rfl rfl rfl⟩
  refine Run.outputs_of_every (P := fun s seen => L.Writes s seen ∧ L.Reads s seen)
    (l := [mem]) (fun s seen a _ h => ⟨h.1.step hw a, ?_⟩) (Run.every_true _ steps) hstart
  cases a with
  | publish next => exact (h.2.publish h.1 next).mono _
  | store => exact (h.2.store h.1).mono _
  | load => exact (h.2.load hw h.1).mono _

/-- An accepted snapshot is the contents of one publish, or the initial contents. -/
theorem consistent (hw : 0 < w) {mem : ι → BitVec w} (hfree : Even (mem L.lock))
    {steps : List (Step ι w)} {words : List (BitVec w)}
    (haccepts : (Run.final L.step (L.start mem) steps).Accepts words)
    (hfew : (Run.final L.step (L.start mem) steps).completed < 2 ^ (w - 1)) :
    ∃ content ∈ mem :: Run.outputs L.step (L.start mem) steps, words = L.loads.map content := by
  obtain ⟨hloads, v, hv, hloaded⟩ := haccepts
  cases (sound hw hfree steps).2 with
  | ready hready _ _ => simp [hready] at hloads
  | gone v' _ hgone => simp [hgone] at hloaded
  | reading v' words' got todo _ hreading _ _ _ => simp [hreading] at hloads
  | done v' words' n _ hdone hn hwords =>
      rw [hdone] at hloaded
      obtain ⟨rfl, happend⟩ := List.cons.inj hloaded
      obtain ⟨rfl, hsame⟩ := List.append_inj' happend rfl
      refine hwords (eq_zero_of_add_eq (List.cons.inj hsame).1.symm ?_)
      have hpow : 2 ^ w = 2 * 2 ^ (w - 1) := by
        rw [← Nat.pow_succ', Nat.succ_eq_add_one, Nat.sub_add_cancel hw]
      omega

end Layout

end Seqlock
end VirtualPortal
