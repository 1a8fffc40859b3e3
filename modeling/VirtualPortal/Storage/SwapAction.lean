/-
# What a running action keeps

An action of the menu takes the figure shown at a position off the portal, saves
it while it has unsaved writes, and then loads the requested figure or leaves the
position empty.  It spans many ticks and several disk jobs, any of which can
fail.

`Held` is what a running action keeps, relative to the figures before it: the
old slot is off the portal, so no write reaches it, and only successful saves
change it.  A step while it runs keeps it going, or ends it as a success
(`SwapSucceeded`) or a failure (`SwapFailed`).
-/

import VirtualPortal.Storage.LoadJob
import VirtualPortal.Storage.Recovery

namespace VirtualPortal

open Storage

/-- The number of successful saves of a slot. -/
def savesOf (o : Fin 16) (l : List Effect) : ℕ :=
  (l.filter fun
    | .saved i => i = o
    | _ => false).length

/-- The saves of a slot in two lists of effects. -/
theorem savesOf_append (o : Fin 16) (l l' : List Effect) :
    savesOf o (l ++ l') = savesOf o l + savesOf o l' := by
  rw [savesOf, List.filter_append, List.length_append]; rfl

/-- The saves of a slot are among the effects on figures. -/
theorem savesOf_figureEffects (o : Fin 16) (l : List Effect) :
    savesOf o (figureEffects l) = savesOf o l := by
  induction l with
  | nil => rfl
  | cons e l ih =>
      rw [← List.singleton_append, figureEffects_append, savesOf_append, savesOf_append, ih]
      cases e <;> rfl

namespace Storage

/-- The figure `s₀` after some time in which its slot was written to by `n`
successful saves only. -/
structure OldSlot (s₀ s : Slot) (n : ℕ) : Prop where
  occupied : s.occupied = true
  id : s.id = s₀.id
  source : s.source = s₀.source
  data : s.data = s₀.data
  generation : s.generation = s₀.generation
  lastUid : s.lastUid = s₀.lastUid
  sequence : s.sequence = s₀.sequence + BitVec.ofNat 32 n
  saved : s.saved = s₀.saved ∨ 0 < n ∧ s.saved = s₀.generation

/-- What the end of a running action may not lose sight of: the figures before it
were `st₀`, and it is for menu position `u`. -/
structure Held (st₀ : Storage) (u : Fin 16) (kind : Swap) (target : U32) (c : Core)
    (l : List Effect) : Prop where
  action : c.storage.action = some kind
  actionUi : c.storage.actionUi = u
  target : c.storage.target = target
  old : c.storage.old = st₀.ui u
  ui : c.storage.ui = st₀.ui
  slot : ∀ o, st₀.ui u = some o → OldSlot (st₀.slots o) (c.storage.slots o) (savesOf o l)
  wrote : ∀ o, st₀.ui u = some o → .wrote o ∉ l
  save : c.phase ≠ .idle → c.storage.op = .save → st₀.ui u = some c.storage.diskSlot ∧
    c.storage.snapshot = (st₀.slots c.storage.diskSlot).generation

/-- The action has put the requested figure at its position. -/
structure SwapLoaded (st₀ st st' : Storage) (d : Disk) (u : Fin 16) (target : U32) : Prop where
  /-- The position shows a slot that is on the portal. -/
  shown : ∃ slot, st'.ui = Function.update st₀.ui u (some slot) ∧
    (st'.slots slot).present = true ∧ (st'.slots slot).occupied = true ∧
    (st'.slots slot).id = target ∧
    (st'.slots slot).source = e11SourceHash st'.catalog st'.compact target ∧
    -- the bytes and the sequence number are those of a load of the target
    ∃ (io : JobIo) (job check : Bytes 1056) (sequence : U32),
      (e11Load d target (st'.slots slot).source io job check sequence).result = 0 ∧
      (st'.slots slot).data =
        journalBody (e11Load d target (st'.slots slot).source io job check sequence).job ∧
      (st'.slots slot).sequence =
        (e11Load d target (st'.slots slot).source io job check sequence).sequence
  /-- The old figure had no unsaved write. -/
  clean : ∀ o, st₀.ui u = some o → (st.slots o).generation = (st.slots o).saved

/-- The action has left its position empty. -/
structure SwapRemoved (st₀ st st' : Storage) (u : Fin 16) : Prop where
  empty : st'.ui = Function.update st₀.ui u none
  /-- The old figure had no unsaved write. -/
  clean : ∀ o, st₀.ui u = some o → (st.slots o).generation = (st.slots o).saved

/-- The action has done what was asked; `st` is the state before its last step. -/
def SwapSucceeded (st₀ st st' : Storage) (d : Disk) (u : Fin 16) (target : U32) : Swap → Prop
  | .load => SwapLoaded st₀ st st' d u target
  | .remove => SwapRemoved st₀ st st' u

/-- The action has left everything as it was. -/
structure SwapFailed (st₀ st' : Storage) (u : Fin 16) (l : List Effect) : Prop where
  ui : st'.ui = st₀.ui
  slot : ∀ o, st₀.ui u = some o → (st'.slots o).present = true ∧
    OldSlot (st₀.slots o) (st'.slots o) (savesOf o l)

variable {st₀ : Storage} {u : Fin 16} {kind : Swap} {target : U32}

/-! ### The start -/

/-- An action that begins holds its old figure. -/
theorem Slotted.held_startAction (h : st₀.Slotted) (st : Storage)
    (hslots : st.slots = st₀.slots) (hui : st.ui = st₀.ui) (d : Disk) :
    Held st₀ u kind target ⟨st.startAction u target kind, d, .idle⟩ [] where
  action := rfl
  actionUi := rfl
  target := rfl
  old := congrFun hui u
  ui := hui
  slot o ho := by
    have hocc := (h.occupied o).mpr ⟨u, ho⟩
    simp only [Storage.startAction, setOldPresent, hslots]
    split_ifs <;> exact ⟨hocc, rfl, rfl, rfl, rfl, rfl, by simp [savesOf], Or.inl rfl⟩
  wrote o _ := List.not_mem_nil
  save hp := absurd rfl hp

/-- The old slot is off the portal while the action runs. -/
theorem Held.not_present {c : Core} {l : List Effect} (h : Held st₀ u kind target c l)
    (hs : c.storage.Slotted) {o : Fin 16} (ho : st₀.ui u = some o) :
    (c.storage.slots o).present = false := by
  rw [← Bool.not_eq_true, hs.present]
  rintro ⟨-, hne⟩
  exact hne ⟨by rw [h.action]; simp, by rw [h.old, ho]⟩

/-! ### Steps that do not end the action -/

/-- A step that leaves the slots alone and submits nothing for the old slot. -/
theorem Held.of_slots {c c' : Core} {l out : List Effect} (h : Held st₀ u kind target c l)
    (haction : c'.storage.action = c.storage.action)
    (hactionUi : c'.storage.actionUi = c.storage.actionUi)
    (htarget : c'.storage.target = c.storage.target) (hold : c'.storage.old = c.storage.old)
    (hui : c'.storage.ui = c.storage.ui) (hslots : c'.storage.slots = c.storage.slots)
    (hout : ∀ o, savesOf o out = 0 ∧ .wrote o ∉ out)
    (hsave : c'.phase ≠ .idle → c'.storage.op = .save → st₀.ui u = some c'.storage.diskSlot ∧
      c'.storage.snapshot = (st₀.slots c'.storage.diskSlot).generation) :
    Held st₀ u kind target c' (l ++ out) where
  action := haction.trans h.action
  actionUi := hactionUi.trans h.actionUi
  target := htarget.trans h.target
  old := hold.trans h.old
  ui := hui.trans h.ui
  slot o ho := by
    rw [hslots, savesOf_append, (hout o).1, Nat.add_zero]
    exact h.slot o ho
  wrote o ho hmem := (List.mem_append.mp hmem).elim (h.wrote o ho) (hout o).2
  save := hsave

/-- A write to a figure on the portal leaves the old figure held. -/
theorem Held.write {st : Storage} {d : Disk} {p : Phase} {l : List Effect}
    (h : Held st₀ u kind target ⟨st, d, p⟩ l) (hs : st.Slotted) {slot : Fin 16} {block : ℕ}
    {bytes : ℕ → U8} (hpresent : (st.slots slot).present = true) :
    Held st₀ u kind target ⟨st.setSlot slot ((st.slots slot).writeBlock block bytes), d, p⟩
      (l ++ [.wrote slot]) where
  action := h.action
  actionUi := h.actionUi
  target := h.target
  old := h.old
  ui := h.ui
  slot o ho := by
    have hne : o ≠ slot := by
      rintro rfl
      rw [h.not_present hs ho] at hpresent; cases hpresent
    rw [savesOf_append, show savesOf o [.wrote slot] = 0 from rfl, Nat.add_zero]
    dsimp only
    rw [slots_setSlot, if_neg hne]
    exact h.slot o ho
  wrote o ho hmem := by
    rcases List.mem_append.mp hmem with hmem | hmem
    · exact h.wrote o ho hmem
    · obtain rfl : o = slot := by simpa using hmem
      rw [h.not_present hs ho] at hpresent; cases hpresent
  save := h.save

/-- A save that is done leaves the old figure held. -/
theorem Held.saveDone {st : Storage} {d : Disk} {p : Phase} {l : List Effect}
    (h : Held st₀ u kind target ⟨st, d, p⟩ l) (hp : p ≠ .idle) (hop : st.op = .save) :
    Held st₀ u kind target ⟨st.taken.saveDone, d, .idle⟩ (l ++ [.saved st.diskSlot]) := by
  obtain ⟨hold, hsnapshot⟩ := h.save hp hop
  refine ⟨h.action, h.actionUi, h.target, h.old, h.ui, fun o ho => ?_, fun o ho hmem => ?_,
    fun hp => absurd rfl hp⟩
  · obtain rfl : st.diskSlot = o := Option.some.inj (hold.symm.trans ho)
    obtain ⟨hocc, hid, hsource, hdata, hgen, huid, hseq, hsaved⟩ := h.slot _ ho
    have hcount : savesOf st.diskSlot [.saved st.diskSlot] = 1 := by simp [savesOf]
    dsimp only at hocc hid hsource hdata hgen huid hseq hsaved hsnapshot ⊢
    rw [savesOf_append, hcount, Storage.saveDone, show st.taken.diskSlot = st.diskSlot from rfl,
      slots_setSlot, if_pos rfl]
    refine ⟨hocc, hid, hsource, hdata, hgen, huid, ?_, Or.inr ⟨Nat.succ_pos _, hsnapshot⟩⟩
    show (st.slots st.diskSlot).sequence + 1 = _
    rw [hseq, BitVec.ofNat_add, BitVec.add_assoc]
    rfl
  · rcases List.mem_append.mp hmem with hmem | hmem
    · exact h.wrote o ho hmem
    · simp at hmem

/-- An event while the action runs keeps it going, or is the end of a removal. -/
theorem Held.move {st st' : Storage} {d : Disk} {p : Phase} {l out : List Effect}
    (h : Held st₀ u kind target ⟨st, d, p⟩ l) (hs : st.Slotted)
    (hidle : st.busy = false → p = .idle) (hm : Move st st' out) :
    Held st₀ u kind target ⟨st', d, p.after out⟩ (l ++ out) ∨
      kind = .remove ∧ SwapRemoved st₀ st st' u ∧ st'.action = none ∧ out = [] := by
  have haction : st.action = some kind := h.action
  cases hm with
  | begins hb =>
      cases hb with
      | keep => exact Or.inl (by rw [List.append_nil]; exact h)
      | action _ _ _ hnone => rw [haction] at hnone; cases hnone
  | write slot block bytes hpresent => exact Or.inl (h.write hs hpresent)
  | remove hbusy hremove hclean =>
      refine Or.inr ⟨Option.some.inj (haction.symm.trans hremove), ⟨?_, fun o ho => ?_⟩, rfl, rfl⟩
      · show Function.update st.ui st.actionUi none = _
        rw [show st.ui = _ from h.ui, show st.actionUi = _ from h.actionUi]
      · have := hclean o (h.old.trans ho)
        simpa [Slot.changed] using this
  | @job st₁ op sent hbusy hprepares =>
      left
      obtain rfl := hidle hbusy
      have hout : ∀ o, savesOf o (if sent then [Effect.submit op] else []) = 0 ∧
          Effect.wrote o ∉ (if sent then [Effect.submit op] else []) := fun o => by
        cases sent <;> exact ⟨rfl, by simp⟩
      cases hprepares with
      | catalog =>
          refine h.of_slots rfl rfl rfl rfl rfl rfl hout fun _ hop => ?_
          cases hop
      | load =>
          refine h.of_slots rfl rfl rfl rfl rfl rfl hout fun _ hop => ?_
          cases hop
      | save i _ _ hslot =>
          refine h.of_slots rfl rfl rfl rfl rfl rfl hout fun _ _ => ?_
          rcases hslot with ⟨-, hnone⟩ | ⟨-, hold⟩
          · rw [haction] at hnone; cases hnone
          · have ho : st₀.ui u = some i := h.old.symm.trans hold
            exact ⟨ho, (h.slot i ho).generation⟩

/-- Restoring the old figure ends the action as a failure. -/
theorem Held.restore {st : Storage} {d : Disk} {p : Phase} {l : List Effect}
    (h : Held st₀ u kind target ⟨st, d, p⟩ l) : SwapFailed st₀ st.taken.restore u l where
  ui := h.ui
  slot o ho := by
    have hslot : st.taken.restore.slots o = { st.slots o with present := true } :=
      if_pos (h.old.trans ho)
    obtain ⟨hocc, hid, hsource, hdata, hgen, huid, hseq, hsaved⟩ := h.slot o ho
    rw [hslot]
    exact ⟨rfl, hocc, hid, hsource, hdata, hgen, huid, hseq, hsaved⟩

/-- Installing the loaded figure ends the action as a success. -/
theorem Held.install {calls : Calls} {st : Storage} {d : Disk} {l : List Effect}
    (h : Held st₀ u kind target ⟨st, d, .done⟩ l) (hloading : Core.Loading calls ⟨st, d, .done⟩)
    (slot : Fin 16) (uid : U32) (hresult : 0 ≤ st.result) (hop : st.op = .load) :
    kind = .load ∧ SwapLoaded st₀ st (st.taken.install slot uid) d u target := by
  obtain ⟨haction, hjob⟩ := hloading.load (by simp) hop
  have hsource := hloading.source (by simp) hop
  obtain ⟨io, job, check, sequence, -, hload⟩ := hloading.loaded rfl hop
  have htarget : st.target = target := h.target
  dsimp only at haction hjob hsource hload
  rw [hjob, htarget] at hload
  have hslot : (st.taken.install slot uid).slots slot = st.loadedSlot uid := by
    simp only [Storage.install, slots_setSlot, if_true]
    rfl
  refine ⟨Option.some.inj (h.action.symm.trans haction), ⟨⟨slot, ?_, ?_⟩, fun o ho => ?_⟩⟩
  · show Function.update st.ui st.actionUi (some slot) = _
    rw [show st.ui = _ from h.ui, show st.actionUi = _ from h.actionUi]
  · rw [hslot]
    refine ⟨rfl, rfl, hjob.trans htarget, ?_, io, job, check, sequence, ?_, ?_, ?_⟩
    · rw [← htarget]; exact hsource
    · have hle := @e11Load_le_zero d target st.jobSource io job check sequence
      show (e11Load d target st.jobSource io job check sequence).result = 0
      rw [hload] at hle ⊢
      exact le_antisymm hle hresult
    · show (st.loadedSlot uid).data =
        journalBody (e11Load d target st.jobSource io job check sequence).job
      rw [hload]; rfl
    · show st.jobSequence = (e11Load d target st.jobSource io job check sequence).sequence
      rw [hload]
  · have := hloading.clean (by simp) hop o (h.old.trans ho)
    simpa [Slot.changed] using this

/-- A completion while the action runs keeps it going or ends it. -/
theorem Held.completion {calls : Calls} {st st' : Storage} {d : Disk} {l out : List Effect}
    (h : Held st₀ u kind target ⟨st, d, .done⟩ l) (hloading : Core.Loading calls ⟨st, d, .done⟩)
    (hc : Completion st st' out) :
    Held st₀ u kind target ⟨st', d, .idle⟩ (l ++ out) ∨
      st'.action = none ∧ (∀ o, .wrote o ∉ out) ∧ (SwapSucceeded st₀ st st' d u target kind ∨
        SwapFailed st₀ st' u (l ++ out)) := by
  have haction : st.action = some kind := h.action
  cases hc with
  | failed _ =>
      have hne : st.action ≠ none := by rw [haction]; simp
      rw [if_pos hne, List.append_nil]
      exact Or.inr ⟨rfl, fun o => List.not_mem_nil, Or.inr h.restore⟩
  | catalog _ hop hb =>
      cases hb with
      | keep =>
          refine Or.inl (h.of_slots rfl rfl rfl rfl rfl rfl (fun o => ⟨rfl, by simp⟩) ?_)
          exact fun hp => absurd rfl hp
      | action _ _ _ hnone =>
          rw [show st.taken.counted.action = _ from haction] at hnone
          cases hnone
  | saved _ hop => exact Or.inl (h.saveDone (by simp) hop)
  | rejected _ _ =>
      rw [List.append_nil]
      exact Or.inr ⟨rfl, fun o => List.not_mem_nil, Or.inr h.restore⟩
  | installed slot hresult hop _ _ =>
      obtain ⟨rfl, hloaded⟩ := h.install hloading slot (be32 st.job.byte 32) hresult hop
      exact Or.inr ⟨rfl, fun o => by simp, Or.inl hloaded⟩

/-- A step while the action runs keeps it going or ends it. -/
theorem Held.step {calls : Calls} {c c' : Core} {l out : List Effect}
    (h : Held st₀ u kind target c l) (hc : c.Coherent) (hloading : c.Loading calls)
    (hs : Core.Step calls c c' out) :
    Held st₀ u kind target c' (l ++ out) ∨ c'.storage.action = none ∧ (∀ o, .wrote o ∉ out) ∧
      (SwapSucceeded st₀ c.storage c'.storage c'.disk u target kind ∨
        SwapFailed st₀ c'.storage u (l ++ out)) := by
  cases hs with
  | @event st st₁ st' d p out hbegins hmove =>
      cases hbegins with
      | keep =>
          rcases h.move hloading.slots hc.idle hmove with hheld | ⟨rfl, hremoved, hnone, rfl⟩
          · exact Or.inl hheld
          · exact Or.inr ⟨hnone, fun o => List.not_mem_nil, Or.inl hremoved⟩
      | action _ _ _ hnone => rw [show st.action = _ from h.action] at hnone; cases hnone
  | complete hcomp => exact h.completion hloading hcomp
  | @run st d op io =>
      left
      obtain ⟨hslots, hop, hslot, hsource, hdisk, hsnapshot, -⟩ := st.e11Worker_job d op io
      have hsame : (st.e11Worker d op io).1.action = st.action ∧
          (st.e11Worker d op io).1.actionUi = st.actionUi ∧
          (st.e11Worker d op io).1.target = st.target ∧ (st.e11Worker d op io).1.old = st.old ∧
          (st.e11Worker d op io).1.ui = st.ui := by
        cases op <;> exact ⟨rfl, rfl, rfl, rfl, rfl⟩
      refine h.of_slots hsame.1 hsame.2.1 hsame.2.2.1 hsame.2.2.2.1 hsame.2.2.2.2 hslots
        (fun o => ⟨rfl, by simp⟩) fun _ hsave => ?_
      rw [hdisk, hsnapshot]
      exact h.save (by simp) (hop.symm.trans hsave)
  | lose => exact Or.inl (h.of_slots rfl rfl rfl rfl rfl rfl (fun o => ⟨rfl, by simp⟩)
      fun _ hop => h.save (by simp) hop)

/-- A step that begins an action holds the old figure. -/
theorem Held.of_step {calls : Calls} {c c' : Core} {out : List Effect} (hc : c.Coherent)
    (hs : c.storage.Slotted) (hstep : Core.Step calls c c' out) (hidle : c.storage.action = none)
    (haction : c'.storage.action = some kind) :
    Held c.storage c'.storage.actionUi kind c'.storage.target c' out := by
  have hheld : ∃ u kind target, Held c.storage u kind target c' out := by
    have hrun : c'.storage.action ≠ none := by rw [haction]; simp
    cases hstep with
    | @event st st₁ st' d p out hbegins hmove =>
        cases hbegins with
        | action u id kind' _ hbusy hload =>
            have hp : p = .idle := hc.idle hbusy
            subst hp
            have hstart : Held st u kind' id ⟨st.startAction u id kind', d, .idle⟩ [] :=
              hs.held_startAction st rfl rfl d
            rcases hstart.move (hs.startAction hidle hload) (fun _ => rfl) hmove with
              hheld | ⟨-, -, hnone, -⟩
            · exact ⟨u, kind', id, hheld⟩
            · exact absurd hnone hrun
        | keep =>
            cases hmove with
            | begins hb =>
                cases hb with
                | keep => exact absurd hidle hrun
                | action u id kind' _ hbusy =>
                    have hp : p = .idle := hc.idle hbusy
                    subst hp
                    exact ⟨u, kind', id, hs.held_startAction st rfl rfl d⟩
            | write => exact absurd hidle hrun
            | remove => exact absurd rfl hrun
            | job _ _ _ hprepares => cases hprepares <;> exact absurd hidle hrun
    | @complete st st' d out hcomp =>
        cases hcomp with
        | failed =>
            split_ifs at hrun with hsome
            · exact absurd hidle hsome
            · exact absurd hidle hrun
        | catalog _ _ hb =>
            cases hb with
            | keep => exact absurd hidle hrun
            | action u id kind' =>
                exact ⟨u, kind', id, hs.held_startAction st.taken.counted rfl rfl d⟩
        | saved => exact absurd hidle hrun
        | rejected => exact absurd rfl hrun
        | installed => exact absurd rfl hrun
    | @run st d op io => cases op <;> exact absurd hidle hrun
    | lose => exact absurd hidle hrun
  obtain ⟨u, kind', target, hheld⟩ := hheld
  obtain rfl := hheld.actionUi
  obtain rfl := hheld.target
  obtain rfl : kind = kind' := Option.some.inj (haction.symm.trans hheld.action)
  exact hheld

end Storage

end VirtualPortal
