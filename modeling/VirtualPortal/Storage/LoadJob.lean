/-
# What a load job brings

From its submission to its completion a load job is for the target of the
running action, the old figure has no unsaved write, and once the job has been
run its buffer and sequence number are what `e11_load` has produced from the card
as it still is.
-/

import VirtualPortal.Storage.SingleJob

namespace VirtualPortal

open Storage

/-- The job invariants, and what is known about an unfinished load job. -/
structure Core.Loading (calls : Calls) (c : Core) : Prop extends Core.Saving c where
  source : c.phase ≠ .idle → c.storage.op = .load →
    c.storage.jobSource = e11SourceHash c.storage.catalog c.storage.compact c.storage.target
  clean : c.phase ≠ .idle → c.storage.op = .load → c.storage.OldClean
  loaded : c.phase = .done → c.storage.op = .load → ∃ io job check sequence, calls.job io ∧
    e11Load c.disk c.storage.jobSlot c.storage.jobSource io job check sequence =
      ⟨c.storage.result, c.storage.job, c.storage.check, c.storage.jobSequence⟩

variable {calls : Calls}

/-- At the start no job is under way. -/
theorem Core.Loading.initial {c : Core} {d : Disk} (h : c.Initial d) : c.Loading calls := by
  have hop : c.storage.op ≠ .load := by rw [h.op]; simp
  exact ⟨.initial h, fun _ h => absurd h hop, fun _ h => absurd h hop, fun _ h => absurd h hop⟩

/-- A write misses the old slot, which is off the portal. -/
theorem Storage.OldClean.write {st : Storage} (h : st.OldClean) (hs : st.Slotted)
    (haction : st.action ≠ none) {slot : Fin 16} (hpresent : (st.slots slot).present = true)
    (block : ℕ) (bytes : ℕ → U8) :
    (st.setSlot slot ((st.slots slot).writeBlock block bytes)).OldClean := by
  intro i hi
  have hne : i ≠ slot := by
    rintro rfl
    exact ((hs.present i).mp hpresent).2 ⟨haction, hi⟩
  rw [slots_setSlot, if_neg hne]
  exact h i hi

/-- A step keeps what the calls of the job say of its result. -/
theorem Core.Loading.step {c c' : Core} {out : List Effect} (hc : c.Coherent)
    (h : c.Loading calls) (hs : Core.Step calls c c' out) : c'.Loading calls := by
  have hsaving := h.toSaving.step hc hs
  cases hs with
  | @event st st₁ st' d p out hbegins hmove =>
      rcases hc.event hbegins hmove with ⟨op, st₂, rfl, hprepares, rfl⟩ | ⟨hafter, hkept⟩
      · -- a job is submitted
        refine ⟨hsaving, fun _ hop => ?_, fun _ hop => ?_, fun hp => ?_⟩
        · cases hprepares with
          | catalog => cases hop
          | save => cases hop
          | load => rfl
        · cases hprepares with
          | catalog => cases hop
          | save => cases hop
          | load _ _ hclean => exact hclean
        · simp [Phase.after, submitted] at hp
      · -- the phase stays, and a job under way sees a block written at most
        rw [hafter] at hsaving ⊢
        refine ⟨hsaving, fun hp hop => ?_, fun hp hop => ?_, fun hp hop => ?_⟩
        · rcases hkept hp with rfl | ⟨slot, block, bytes, -, rfl⟩
          · exact h.source hp hop
          · exact h.source hp hop
        · rcases hkept hp with rfl | ⟨slot, block, bytes, hpresent, rfl⟩
          · exact h.clean hp hop
          · refine (h.clean hp hop).write h.slots ?_ hpresent block bytes
            rw [(h.load hp hop).1]; simp
        · have hne : p ≠ .idle := fun hidle => by
            rw [hidle] at hp
            cases hp
          rcases hkept hne with rfl | ⟨slot, block, bytes, -, rfl⟩
          · exact h.loaded hp hop
          · exact h.loaded hp hop
  | complete =>
      exact ⟨hsaving, fun hp => absurd rfl hp, fun hp => absurd rfl hp,
        fun hp => absurd hp (by simp)⟩
  | @run st d op io hio =>
      have hload (hop : (st.e11Worker d op io).1.op = .load) : st.op = .load ∧ .load = op := by
        have hop' : st.op = .load := (st.e11Worker_job d op io).2.1.symm.trans hop
        exact ⟨hop', hop'.symm.trans (hc.op op rfl)⟩
      refine ⟨hsaving, fun _ hop => ?_, fun _ hop => ?_, fun _ hop => ?_⟩
      · obtain ⟨hop', rfl⟩ := hload hop
        exact h.source (by simp) hop'
      · obtain ⟨hop', rfl⟩ := hload hop
        exact h.clean (by simp) hop'
      · obtain ⟨-, rfl⟩ := hload hop
        exact ⟨io, st.job, st.check, st.jobSequence, hio, rfl⟩
  | lose =>
      exact ⟨hsaving, fun _ hop => h.source (by simp) hop, fun _ hop => h.clean (by simp) hop,
        fun hp => absurd hp (by simp)⟩

end VirtualPortal
