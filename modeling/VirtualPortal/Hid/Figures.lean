/-
# Figures come and go

What polls and completions do to the sessions.  Each is a chain of `FigureChange`
steps: nothing happens to any session, or one figure appears on or leaves the
portal and every session is told so (`e12_event`), or the menu asks for a rescan.

A figure that is told to leave was there, and one that is told to appear was not,
as long as the slots are in order: this is what `sane` stands for.  `rescans`
stands for the request that a rescan takes.
-/

import VirtualPortal.Storage.Slots

namespace VirtualPortal

open Storage

/-- The presence of figures and the sessions before and after a step. -/
inductive FigureChange (sane rescans : Prop) (m m' : Machine) : Prop
  | keep (hs : m'.sessions = m.sessions) (ht : m'.ticks = m.ticks)
      (hp : ∀ i, (m'.slots i).present = (m.slots i).present)
  | event (slot : Fin 16) (inserted : Bool)
      (hs : m'.sessions = fun fd => (m.sessions fd).e12Event slot inserted)
      (ht : m'.ticks = m.ticks)
      (hp : ∀ i, (m'.slots i).present = if i = slot then inserted else (m.slots i).present)
      (hbefore : sane → (m.slots slot).present = !inserted)
  | rescan (hrescans : rescans)
      (hs : m'.sessions = fun fd => (m.sessions fd).rescan fun i => (m.slots i).present)
      (ht : m'.ticks = m.ticks)
      (hp : ∀ i, (m'.slots i).present = (m.slots i).present)

section Chains

variable {m m' : Machine} {sane rescans : Prop}

/-- No figure has changed. -/
theorem FigureChange.refl : FigureChange sane rescans m m := .keep rfl rfl fun _ => rfl

/-- Changes around a step that concern neither figures nor sessions. -/
theorem FigureChange.congr {m₁ m₂ : Machine} (h : FigureChange sane rescans m₁ m₂)
    (hs : m₁.sessions = m.sessions) (hp : m₁.slots = m.slots) (ht : m₁.ticks = m.ticks)
    (hs' : m'.sessions = m₂.sessions) (hp' : m'.slots = m₂.slots) (ht' : m'.ticks = m₂.ticks) :
    FigureChange sane rescans m m' := by
  cases h with
  | keep h₁ h₄ h₂ =>
      refine .keep (by rw [hs', h₁, hs]) (by rw [ht', h₄, ht]) fun i => ?_
      rw [hp', h₂, hp]
  | event slot inserted h₁ h₄ h₂ h₃ =>
      refine .event slot inserted (by rw [hs', h₁, hs]) (by rw [ht', h₄, ht]) (fun i => ?_)
        (by rw [← hp]; exact h₃)
      rw [hp', h₂, hp]
  | rescan hr h₁ h₄ h₂ =>
      refine .rescan hr (by rw [hs', h₁, hs, hp]) (by rw [ht', h₄, ht]) fun i => ?_
      rw [hp', h₂, hp]

/-- A weaker condition on the change. -/
theorem FigureChange.mono {sane' rescans' : Prop} (h : FigureChange sane rescans m m')
    (hsane : sane' → sane) (hrescans : rescans → rescans') : FigureChange sane' rescans' m m' := by
  cases h with
  | keep h₁ h₄ h₂ => exact .keep h₁ h₄ h₂
  | event slot inserted h₁ h₄ h₂ h₃ => exact .event slot inserted h₁ h₄ h₂ fun h => h₃ (hsane h)
  | rescan hr h₁ h₄ h₂ => exact .rescan (hrescans hr) h₁ h₄ h₂

/-- Telling the sessions about the old slot. -/
theorem FigureChange.of_oldEvent (inserted : Bool)
    (hs : m'.sessions = m.sessions) (ht : m'.ticks = m.ticks)
    (hp : ∀ i, (m'.slots i).present = if m'.old = some i then inserted else (m.slots i).present)
    (hbefore : sane → ∀ i, m'.old = some i → (m.slots i).present = !inserted) :
    FigureChange sane rescans m (m'.oldEvent inserted) := by
  unfold Machine.oldEvent
  cases hold : m'.old with
  | none =>
      refine .keep hs ht fun i => ?_
      rw [hp, hold, if_neg (by simp)]
  | some slot =>
      refine .event slot inserted ?_ ht (fun i => ?_) fun h => hbefore h slot hold
      · show (fun fd => (m'.sessions fd).e12Event slot inserted) = _
        rw [hs]
      · show (m'.slots i).present = _
        rw [hp, hold]
        by_cases hi : i = slot
        · rw [if_pos hi, if_pos (by rw [hi])]
        · rw [if_neg hi, if_neg fun h => hi (Option.some.inj h).symm]

end Chains

namespace Machine

section Begin

variable {m : Machine} {sane rescans : Prop}

/-- The beginning of an action takes the figure shown off the portal. -/
theorem e12Begin_figures (m : Machine) (ui id : U32) (action : Swap) :
    FigureChange m.toStorage.Slotted rescans m (m.e12Begin ui id action).2 := by
  rcases m.e12Begin_cases ui id action with h | ⟨pos, haction, -, -, h⟩
  · rw [h]
    exact .refl
  · rw [h]
    refine FigureChange.of_oldEvent false rfl rfl (fun i => ?_) fun hslotted i hold => ?_
    · show ((m.toStorage.startAction pos id action).slots i).present = _
      simp only [Storage.startAction, setOldPresent]
      split_ifs <;> rfl
    · refine (hslotted.present i).mpr ⟨?_, fun hrun => hrun.1 haction⟩
      exact (hslotted.occupied i).mpr ⟨pos, hold⟩

/-- The end of a failed action puts the old figure back. -/
theorem e12Restore_figures (m : Machine) (error : Int) :
    FigureChange (m.toStorage.Slotted ∧ m.action ≠ none) rescans m (m.e12Restore error) := by
  refine FigureChange.of_oldEvent true rfl rfl (fun i => ?_) fun ⟨hslotted, haction⟩ i hold => ?_
  · show ((m.toStorage.restore).slots i).present = _
    simp only [Storage.restore, setOldPresent]
    split_ifs <;> rfl
  · have hold' : m.old = some i := hold
    by_contra hpresent
    exact ((hslotted.present i).mp (by simpa using hpresent)).2 ⟨haction, hold'⟩

end Begin

/-! ### The poll -/

section Poll

variable {rescans : Prop}

/-- A load or a removal of the menu tells every session of the old slot. -/
theorem menuSwap_figures (m : Machine) (arg : U32) (action : Swap) :
    FigureChange m.toStorage.Slotted rescans m (m.menuSwap arg action).2 := by
  refine (m.e12Begin_figures (arg >>> 16) (arg &&& 65535) action).congr rfl rfl rfl ?_ ?_ ?_ <;>
    unfold menuSwap <;> dsimp only <;> split_ifs <;> rfl

/-- Only request 6 is a rescan. -/
theorem menuRequest_figures (m : Machine) (op arg : U32) :
    FigureChange m.toStorage.Slotted (op = 6) m (m.menuRequest op arg).2 := by
  unfold menuRequest
  split_ifs with _ _ _ _ _ _ _ h₆
  · exact .keep rfl rfl fun _ => rfl
  · exact .keep rfl rfl fun _ => rfl
  · exact m.menuSwap_figures arg .load
  · exact m.menuSwap_figures arg .remove
  · exact .keep rfl rfl fun _ => rfl
  · exact .refl
  · exact .keep rfl rfl fun _ => rfl
  · exact .rescan h₆ rfl rfl fun _ => rfl
  · exact .refl

/-- A request tells every session of the slots it changes. -/
theorem menuExecute_figures (m : Machine) (seq op arg : U32) :
    FigureChange m.toStorage.Slotted (op = 6) m (m.menuExecute seq op arg) := by
  have h := menuRequest_figures { m with requestSeq := seq } op arg
  refine h.congr rfl rfl rfl ?_ ?_ ?_ <;> unfold menuExecute <;> dsimp only <;> split_ifs <;> rfl

/-- The request line is a rescan that the mailbox takes. -/
structure Rescans (m : Machine) (line : RequestLine) : Prop where
  route : ∃ fd, m.route fd
  magic : line 0 = 0x4531324d ∧ line 4 = 0x534b595a
  alive : m.menuAlive (line 5) ≠ none
  new : line 1 ≠ m.requestSeq
  op : line 2 = 6

/-- A new heartbeat leaves figures, sessions, request number and ticks. -/
theorem menuAlive_keeps {m m' : Machine} {heartbeat : U32} (h : m.menuAlive heartbeat = some m') :
    m'.toStorage = m.toStorage ∧ m'.sessions = m.sessions ∧ m'.requestSeq = m.requestSeq ∧
      m'.ticks = m.ticks := by
  unfold menuAlive at h
  split_ifs at h <;> cases h <;> exact ⟨rfl, rfl, rfl, rfl⟩

/-- The mailbox tells the sessions about one figure at most. -/
theorem e11Mailbox_figures (m : Machine) (line : RequestLine) :
    FigureChange m.toStorage.Slotted (m.Rescans line) m (m.e11Mailbox line).1 := by
  have h := m.e11Mailbox_step line
  generalize m.e11Mailbox line = out at h ⊢
  cases h with
  | idle => exact .refl
  | @executes m' hroute hmagic halive hnew =>
      obtain ⟨hst, hsessions, hseq, hticks⟩ := menuAlive_keeps halive
      have hslots : m'.slots = m.slots := congrArg Storage.slots hst
      have h := m'.menuExecute_figures (line 1) (line 2) (line 3)
      have hpublished : FigureChange m'.toStorage.Slotted (line 2 = 6) m
          (m'.menuExecute (line 1) (line 2) (line 3)).e11Publish.1 :=
        h.congr hsessions hslots hticks rfl rfl rfl
      refine hpublished.mono (fun hslotted => ?_) fun hop => ?_
      · rw [hst]
        exact hslotted
      · exact ⟨hroute, hmagic, by rw [halive]; simp, by rw [← hseq]; exact hnew, hop⟩
  | @publishes m' halive =>
      obtain ⟨hst, hsessions, hseq, hticks⟩ := menuAlive_keeps halive
      have hslots : m'.slots = m.slots := congrArg Storage.slots hst
      exact .keep hsessions hticks fun i => by rw [show (m'.e11Publish).1.slots = _ from hslots]

/-- Submitting a job concerns neither figures nor sessions. -/
theorem e11Submit_figures {m m' : Machine} {sane : Prop} (hs : m'.sessions = m.sessions)
    (ht : m'.ticks = m.ticks) (hp : ∀ i, (m'.slots i).present = (m.slots i).present)
    (op : DiskOp) (send : Int) :
    FigureChange sane rescans m (m'.e11Submit op send).1 := by
  unfold e11Submit
  dsimp only
  split_ifs
  · exact .keep hs ht hp
  · exact .keep hs ht hp

/-- A save of a slot changes no figure for a session. -/
theorem e12SaveSlot_figures {m m' : Machine} {sane : Prop} (hs : m'.sessions = m.sessions)
    (ht : m'.ticks = m.ticks) (hp : m'.slots = m.slots) (i : Fin 16) (send : Int) :
    FigureChange sane rescans m (m'.e12SaveSlot i send).1 := by
  show FigureChange sane rescans m
    (Machine.e11Submit { m' with toStorage := m'.toStorage.takeSnapshot i } .save send).1
  exact e11Submit_figures (by exact hs) (by exact ht) (fun j => by rw [← hp]; rfl) .save send

/-- The disk side of the poll begins one action at most. -/
theorem pollDisk_figures (m : Machine) (send : Int) :
    FigureChange m.toStorage.Slotted rescans m (m.pollDisk send).1 := by
  have h := m.pollDisk_step send
  generalize m.pollDisk send = out at h ⊢
  cases h with
  | idle => exact .refl
  | catalog => exact e11Submit_figures rfl rfl (fun _ => rfl) .catalog send
  | saveOld i => exact e12SaveSlot_figures rfl rfl rfl i send
  | remove =>
      refine .keep rfl rfl fun i => ?_
      show ((m.toStorage.releaseOld).slots i).present = _
      unfold releaseOld
      dsimp only
      split_ifs <;> rfl
  | load => exact e11Submit_figures (by rfl) (by rfl) (fun _ => by rfl) .load send
  | autoload => exact m.e12Begin_figures 0 0 .load
  | save i => exact e12SaveSlot_figures (by rfl) (by rfl) (by rfl) _ send
  | flushed => exact .keep rfl rfl fun _ => rfl

end Poll

/-! ### Completions -/

section Completions

variable {rescans : Prop}

/-- The loaded figure appears in a slot that was empty or the old one. -/
theorem install_figures (m : Machine) {slot : Fin 16} {uid : U32}
    (hdup : m.duplicateUid uid = false)
    (hsearch : m.slotSearch uid (List.finRange 16) none = .ok (some slot)) :
    FigureChange (m.toStorage.Slotted ∧ m.action ≠ none) rescans m (m.install slot uid) := by
  refine .event slot true rfl rfl (fun i => ?_) fun ⟨hslotted, haction⟩ => ?_
  · show ((m.toStorage.install slot uid).slots i).present = _
    simp only [Storage.install, slots_setSlot]
    split_ifs
    · rfl
    · unfold releaseOld
      dsimp only
      split_ifs <;> rfl
  · have hfree := (slotSearch_eq_some hdup hsearch).1
    by_contra hpresent
    obtain ⟨hocc, hold⟩ := (hslotted.present slot).mp (by simpa using hpresent)
    exact hfree ⟨hocc, fun he => hold ⟨haction, he.symm⟩⟩

/-- A completion tells the sessions about one figure at most. -/
theorem e09Complete_figures (m : Machine) :
    FigureChange (m.toStorage.Slotted ∧ (m.op = .load → m.action ≠ none)) rescans m
      m.e09Complete.1 := by
  have hrestore (error : Int) (haction : m.toStorage.Slotted ∧ (m.op = .load → m.action ≠ none) →
      m.action ≠ none) :
      FigureChange (m.toStorage.Slotted ∧ (m.op = .load → m.action ≠ none)) rescans m
        (m.takeResult.e12Restore error) := by
    have h : FigureChange (m.takeResult.toStorage.Slotted ∧ m.takeResult.action ≠ none) rescans m
        (m.takeResult.e12Restore error) := (m.takeResult.e12Restore_figures error).congr
          rfl rfl rfl rfl rfl rfl
    exact h.mono (fun hs => ⟨hs.1.taken, haction hs⟩) id
  have h := m.e09Complete_step
  generalize m.e09Complete = out at h ⊢
  cases h with
  | failed => exact .keep rfl rfl fun _ => rfl
  | abandoned hresult haction => exact hrestore m.result fun _ => haction
  | counted =>
      have h : FigureChange m.takeResult.countEntries.toStorage.Slotted rescans m
          (m.takeResult.countEntries.e12Begin 0 0 .load).2 :=
        (m.takeResult.countEntries.e12Begin_figures 0 0 .load).congr rfl rfl rfl rfl rfl rfl
      exact h.mono (fun hs => hs.1.of_sameOwner (fun _ => sameOwner_refl _) rfl rfl rfl rfl rfl) id
  | saved =>
      refine .keep rfl rfl fun i => ?_
      show ((m.toStorage.taken.saveDone).slots i).present = _
      simp only [Storage.saveDone, slots_setSlot]
      split_ifs with hi
      · rw [hi]; rfl
      · rfl
  | rejected error hresult hop => exact hrestore error fun hs => hs.2 hop
  | installed slot hresult hop hdup hslot =>
      have h : FigureChange (m.takeResult.toStorage.Slotted ∧ m.takeResult.action ≠ none) rescans m
          (m.takeResult.install slot (be32 m.job.byte 32)) :=
        (m.takeResult.install_figures hdup hslot).congr rfl rfl rfl rfl rfl rfl
      exact h.mono (fun hs => ⟨hs.1.taken, hs.2 hop⟩) id

end Completions
end Machine
end VirtualPortal
