/-
# The snapshot of the overlay

`e11_publish` of `plugin/source/e12_storage.h` stores the mailbox and `update_menu`
of `overlay/menu.c` loads it, one word at a time and without a lock between the two
processors: word 112 of the box is a sequence lock (`Seqlock`) over the reply at
word 8 and the name at word 120.
-/

import VirtualPortal.Lib.Seqlock
import VirtualPortal.Storage.Poll

namespace VirtualPortal

/-- The words of the box in the order of the two programs: `e11_publish` stores the 16
words of the name and the 104 of the reply, `update_menu` loads the reply and 12 words of
the name. -/
def boxLayout : Seqlock.Layout ℕ where
  lock := 112
  stores := (List.range 16).map (120 + ·) ++ (List.range 104).map (8 + ·)
  loads := (List.range 104).map (8 + ·) ++ (List.range 12).map (120 + ·)
  lock_notMem := by decide
  covered := by
    intro a ha
    obtain ha | ha := List.mem_append.mp ha
    · exact List.mem_append_right _ ha
    · obtain ⟨i, hi, rfl⟩ := List.mem_map.mp ha
      have hi : i < 16 := (List.mem_range.mp hi).trans (by decide)
      exact List.mem_append_left _ (List.mem_map_of_mem (List.mem_range.mpr hi))

/-- Word `a` of the box after a publish. -/
def boxWord (reply : Bytes 416) (name : Bytes 64) (a : ℕ) : U32 :=
  if 120 ≤ a then be32 name.byte (4 * (a - 120)) else be32 reply.byte (4 * (a - 8))

/-- A step of the two processors; the first store of a publish is that of the odd
revision. -/
inductive BoxStep where
  | publish (reply : Bytes 416) (name : Bytes 64)
  | store
  | load

namespace BoxStep

/-- The step of the sequence lock. -/
def toStep : BoxStep → Seqlock.Step ℕ 32
  | publish reply name => .publish (boxWord reply name)
  | store => .store
  | load => .load

/-- The buffers of the publishes among the steps. -/
def published (steps : List BoxStep) : List (Bytes 416 × Bytes 64) :=
  steps.filterMap fun
    | publish reply name => some (reply, name)
    | _ => none

/-- The box after some steps; the mailbox and `e11_revision` start at zero. -/
def run (steps : List BoxStep) : Seqlock.State ℕ 32 :=
  Run.final boxLayout.step (boxLayout.start fun _ => 0) (steps.map toStep)

end BoxStep

/-- `update_menu` takes the words it has loaded for the new reply if the version was even
and is the same after them. -/
def snapshotOf : List U32 → Option (List U32)
  | [] => none
  | version :: rest =>
      if version &&& 1 = 0 ∧ rest.getLast? = some version then some rest.dropLast else none

/-- The 104 words of the reply and the 12 words of the name of one publish. -/
def snapshotWords (p : Bytes 416 × Bytes 64) : List U32 :=
  ((List.range 104).map fun i => be32 p.1.byte (4 * i)) ++
    (List.range 12).map fun i => be32 p.2.byte (4 * i)

/-- A publish of the machine is one of the box: the revision is stored twice. -/
theorem publish_revision (m : Machine) {s : Seqlock.State ℕ 32} (hrest : s.stores = [])
    (hrevision : s.revision = m.revision) :
    m.e11Publish = ({ m with
        revision := (boxLayout.step s (.publish (boxWord m.menuReply m.menuName))).1.revision },
      [.publish ⟨(boxLayout.step s (.publish (boxWord m.menuReply m.menuName))).1.revision,
        m.menuReply, m.menuName⟩]) := by
  simp only [Seqlock.Layout.step, hrest, hrevision]
  rfl

/-- A version is even just if its last bit is clear. -/
theorem even_iff (v : U32) : Seqlock.Even v ↔ v &&& 1 = 0 := by
  unfold Seqlock.Even
  rw [← BitVec.toNat_inj, BitVec.toNat_and]
  simp [Nat.and_one_is_mod]

/-- The words that are loaded are those of the snapshot. -/
theorem snapshotWords_eq (p : Bytes 416 × Bytes 64) :
    boxLayout.loads.map (boxWord p.1 p.2) = snapshotWords p := by
  unfold boxLayout snapshotWords
  rw [List.map_append, List.map_map, List.map_map]
  refine congrArg₂ (· ++ ·) (List.map_congr_left fun i hi => ?_) (List.map_congr_left fun i _ => ?_)
  · have hi : ¬ 120 ≤ 8 + i := by
      have := List.mem_range.mp hi
      omega
    simp only [Function.comp_apply, boxWord, if_neg hi, Nat.add_sub_cancel_left]
  · simp only [Function.comp_apply, boxWord, if_pos (Nat.le_add_right 120 i),
      Nat.add_sub_cancel_left]

/-- A box that is zero is that of zero buffers. -/
theorem boxWord_zero : boxWord (Bytes.zero 416) (Bytes.zero 64) = fun _ => 0 := by
  funext a
  unfold boxWord
  split_ifs <;> simp [be32]

/-- The contents that begin to be published are those of the steps. -/
theorem outputs_mem (steps : List BoxStep) (s : Seqlock.State ℕ 32) :
    ∀ content ∈ Run.outputs boxLayout.step s (steps.map BoxStep.toStep),
      ∃ p ∈ BoxStep.published steps, content = boxWord p.1 p.2 := by
  induction steps generalizing s with
  | nil => exact fun _ h => absurd h List.not_mem_nil
  | cons a steps ih =>
      intro content hcontent
      rw [List.map_cons, Run.outputs_cons] at hcontent
      obtain hcontent | hcontent := List.mem_append.mp hcontent
      · cases a with
        | publish reply name =>
            refine ⟨(reply, name), List.mem_cons_self, ?_⟩
            cases hstores : s.stores with
            | nil =>
                simp only [BoxStep.toStep, Seqlock.Layout.step, hstores] at hcontent
                exact List.mem_singleton.mp hcontent
            | cons b stores => simp [BoxStep.toStep, Seqlock.Layout.step, hstores] at hcontent
        | store =>
            cases hstores : s.stores <;>
              simp [BoxStep.toStep, Seqlock.Layout.step, hstores] at hcontent
        | load =>
            cases hloads : s.loads <;>
              simp [BoxStep.toStep, Seqlock.Layout.step, hloads] at hcontent
      · obtain ⟨p, hp, rfl⟩ := ih _ content hcontent
        refine ⟨p, ?_, rfl⟩
        unfold BoxStep.published at hp ⊢
        rw [List.filterMap_cons]
        split
        · exact hp
        · exact List.mem_cons_of_mem _ hp

/-- A snapshot that the overlay accepts is that of one publish, or of the initial box. -/
theorem snapshot_consistent {steps : List BoxStep} {words : List U32}
    (hdone : (BoxStep.run steps).loads = [])
    (haccepted : snapshotOf (BoxStep.run steps).loaded = some words)
    (hfew : (BoxStep.run steps).completed < 2 ^ 31) :
    ∃ p ∈ (Bytes.zero 416, Bytes.zero 64) :: BoxStep.published steps, words = snapshotWords p := by
  have haccepts : (BoxStep.run steps).Accepts words := by
    refine ⟨hdone, ?_⟩
    cases hloaded : (BoxStep.run steps).loaded with
    | nil => simp [hloaded, snapshotOf] at haccepted
    | cons v rest =>
        rw [hloaded, snapshotOf] at haccepted
        split_ifs at haccepted with h
        obtain rfl := Option.some.inj haccepted
        refine ⟨v, (even_iff v).mpr h.1, ?_⟩
        rw [List.dropLast_append_getLast?]
        exact h.2
  have hfree : Seqlock.Even (0 : U32) := rfl
  obtain ⟨content, hcontent, rfl⟩ := Seqlock.Layout.consistent (by decide) hfree haccepts hfew
  obtain rfl | hcontent := List.mem_cons.mp hcontent
  · refine ⟨_, List.mem_cons_self, ?_⟩
    rw [← snapshotWords_eq, boxWord_zero]
  · obtain ⟨p, hp, rfl⟩ := outputs_mem steps _ content hcontent
    exact ⟨p, List.mem_cons_of_mem _ hp, snapshotWords_eq p⟩

/-- A publish, and a snapshot after it. -/
def publishThenLoad (reply : Bytes 416) (name : Bytes 64) : List BoxStep :=
  .publish reply name :: (List.replicate 121 .store ++ List.replicate 118 .load)

/-- A snapshot taken after a publication is of a publication. -/
theorem snapshot_consistent_publishThenLoad :
    ∃ p ∈ (Bytes.zero 416, Bytes.zero 64) ::
        BoxStep.published (publishThenLoad (fun _ => 1) fun _ => 2),
      snapshotWords (fun _ => 1, fun _ => 2) = snapshotWords p :=
  snapshot_consistent (by decide +kernel) (by decide +kernel) (by decide +kernel)

end VirtualPortal
