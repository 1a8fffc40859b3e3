/-
# The disk jobs and the card

Running a job and taking its result keep the slots, the job and the card in
agreement.  A save that reports success has made the next version current; until
its completion is processed the slot still stands on the version before, and a
retry of a failed save goes to the same file.
-/

import VirtualPortal.Storage.OnCard

namespace VirtualPortal

open Storage Alternating

section Jobs

variable {d₀ d : Disk} {st st' : Storage} {p : Phase} {L : Ledger}

/-! ### Disk jobs -/

/-- The catalogue job reads the catalogue of the start. -/
theorem Core.OnCard.runCatalog (h : Core.OnCard d₀ ⟨st, d, .queued .catalog⟩ L)
    (hop : st.op = .catalog) (io : JobIo) :
    Core.OnCard d₀ ⟨(st.e11Worker d .catalog io).1, d, .done⟩ L where
  card := h.card
  journals := h.journals
  catalog hcount := absurd ((h.counted (by simp)).mp hop) hcount
  target := h.target
  slot := h.slot
  counted _ := h.counted (by simp)
  read _ _ hr := by
    obtain ⟨hcat, hcompact, hvalid⟩ := e11CatalogLoad_eq_zero hr
    have hfile : catalogFile d = catalogFile d₀ := by
      unfold catalogFile; rw [show d catalogPath = _ from h.card]
    rw [hfile] at hcat hcompact hvalid
    exact ⟨hcat, hcompact, hvalid⟩
  saveJob _ hsave := by
    rw [show (st.e11Worker d .catalog io).1.op = st.op from rfl, hop] at hsave; cases hsave
  saved _ hsave := by
    rw [show (st.e11Worker d .catalog io).1.op = st.op from rfl, hop] at hsave; cases hsave

/-- A load job reads the card. -/
theorem Core.OnCard.runLoad (h : Core.OnCard d₀ ⟨st, d, .queued .load⟩ L) (hop : st.op = .load)
    (io : JobIo) : Core.OnCard d₀ ⟨(st.e11Worker d .load io).1, d, .done⟩ L where
  card := h.card
  journals := h.journals
  catalog hcount := by
    obtain ⟨⟨h₁, h₂, h₃⟩, hn⟩ := h.catalog hcount
    exact ⟨⟨h₁, h₂, h₃⟩, hn⟩
  target := h.target
  slot := h.slot
  counted _ := h.counted (by simp)
  read _ hcat := by
    rw [show (st.e11Worker d .load io).1.op = st.op from rfl, hop] at hcat; cases hcat
  saveJob _ hsave := by
    rw [show (st.e11Worker d .load io).1.op = st.op from rfl, hop] at hsave; cases hsave
  saved _ hsave := by
    rw [show (st.e11Worker d .load io).1.op = st.op from rfl, hop] at hsave; cases hsave

/-- A save job writes one journal of the figure in its slot. -/
theorem Core.OnCard.runSave (h : Core.OnCard d₀ ⟨st, d, .queued .save⟩ L) (hs : st.Slotted)
    (hop : st.op = .save) (hown : st.SavesOwn) (io : JobIo) :
    Core.OnCard d₀ ⟨(st.e11Worker d .save io).1, (st.e11Worker d .save io).2, .done⟩ L := by
  obtain ⟨hocc, hid, hsource, hseq⟩ := hown
  obtain ⟨hgen, hdata, hdirty⟩ := h.saveJob (by simp) hop
  have hslot := h.slot st.diskSlot hocc
  dsimp only at hslot hgen hdata hdirty
  have hlt : st.jobSlot < e11Max := by rw [← hid]; exact hslot.id
  obtain ⟨hdisk, hdone⟩ := @e11Save_disk d st.jobSlot st.jobSource st.jobSequence io st.job st.check
  -- what the write leaves when the file is opened
  set d' := e11SaveWrite d (e11SavePath st.jobSlot st.jobSequence)
    (journalRecord st.job st.jobSlot st.jobSource st.jobSequence) io.kept with hd'
  have hcopy : journalCopy d' st.jobSlot st.jobSource =
      put (journalCopy d st.jobSlot st.jobSource) (st.jobSequence + 1)
        (writtenCopy st.jobSequence (journalBody st.job) io.kept) :=
    journalCopy_write hlt st.job io.kept
  have hcurrent : Current (journalCopy d st.jobSlot st.jobSource) st.jobSequence := by
    rw [← hid, ← hsource, ← hseq]; exact hslot.current
  have hworker : (st.e11Worker d .save io).2 = if io.create < 0 then d else d' := hdisk
  have hbody : journalBody (st.e11Worker d .save io).1.job = journalBody st.job := by
    show journalBody (e11Save d st.jobSlot st.jobSource io st.job st.check st.jobSequence).1.job = _
    unfold e11Save
    dsimp only
    split_ifs <;> exact journalRecord_body ..
  have hsequence : (st.e11Worker d .save io).1.jobSequence = st.jobSequence := e11Save_sequence
  refine ⟨?_, ?_, ?_, h.target, ?_, fun _ => h.counted (by simp), fun _ hcat => ?_, fun _ _ => ?_,
    fun _ _ hr => ?_⟩
  · rw [hworker]
    split_ifs
    · exact h.card
    · refine Eq.trans (Function.update_of_ne ?_ _ _) h.card
      rw [e11SavePath_eq]
      exact (catalogPath_ne hlt _).symm
  · intro id hlt'
    rw [hworker]
    split_ifs
    · exact h.journals id hlt'
    · by_cases hne : id = st.jobSlot
      · have hcat : catalogSource d₀ st.jobSlot = st.jobSource := by
          rw [← hid, ← hslot.source, hsource]
        rw [hne, hcat, hcopy]
        exact ⟨_, hcurrent.put (by decide) (writtenCopy_attempted ..)⟩
      · rw [hd', journalCopy_write_other hlt hlt' hne]
        exact h.journals id hlt'
  · intro hcount
    obtain ⟨⟨h₁, h₂, h₃⟩, hn⟩ := h.catalog hcount
    exact ⟨⟨h₁, h₂, h₃⟩, hn⟩
  · intro i hi
    have hi' := h.slot i hi
    rw [hworker]
    split_ifs
    · exact hi'
    · by_cases hne : i = st.diskSlot
      · subst hne
        have hself := hi'.write_self hdirty st.job io.kept
        dsimp only at hself
        rw [hid, hsource, hseq] at hself
        exact hself
      · refine hi'.write_other hlt (fun he => hne ?_) _ _
        exact hs.id_inj i st.diskSlot hi hocc (he.trans hid.symm)
  · rw [show (st.e11Worker d .save io).1.op = st.op from rfl, hop] at hcat; cases hcat
  · exact ⟨hgen, fun hzero => (hdata hzero).trans hbody.symm, hdirty⟩
  · have hzero :
        (e11Save d st.jobSlot st.jobSource io st.job st.check st.jobSequence).1.result = 0 :=
      le_antisymm e11Save_le_zero hr
    obtain ⟨hcreate, hkept⟩ := hdone hzero
    rw [hworker, if_neg hcreate]
    rw [writtenCopy, if_pos hkept] at hcopy
    have hcommit (dump : Bytes 1024) :
        Current (journalCopy d' st.jobSlot st.jobSource) (st.jobSequence + 1) ∧
          recover dump (journalCopy d' st.jobSlot st.jobSource) =
            some (st.jobSequence + 1, journalBody st.job) := by
      rw [hcopy]
      exact hcurrent.commit (by decide) _
    refine ⟨?_, fun dump => ?_⟩
    · dsimp only
      rw [hsequence]
      exact (hcommit (Bytes.zero 1024)).1
    · dsimp only
      rw [hsequence, hbody]
      exact (hcommit dump).2

/-! ### Completions -/

/-- The old figure comes back. -/
theorem Core.OnCard.restore (h : Core.OnCard d₀ ⟨st, d, .idle⟩ L) :
    Core.OnCard d₀ ⟨st.restore, d, .idle⟩ L := by
  refine h.of_slots ⟨rfl, rfl, rfl⟩ (fun haction => nomatch haction) fun i => ?_
  have := h.slot i
  simp only [Storage.restore, setOldPresent]
  split_ifs
  · exact fun hocc => (this hocc).congr rfl rfl rfl rfl rfl rfl
  · exact this

/-- The job is over. -/
theorem Core.OnCard.taken (h : Core.OnCard d₀ ⟨st, d, p⟩ L) :
    Core.OnCard d₀ ⟨st.taken, d, .idle⟩ L where
  card := h.card
  journals := h.journals
  catalog hcount := by
    obtain ⟨⟨h₁, h₂, h₃⟩, hn⟩ := h.catalog hcount
    exact ⟨⟨h₁, h₂, h₃⟩, hn⟩
  target := h.target
  slot := h.slot
  counted hp := absurd rfl hp
  read hp := nomatch hp
  saveJob hp := absurd rfl hp
  saved hp := nomatch hp

/-- A successful save cleans its slot up to the writes since the snapshot. -/
theorem Core.OnCard.saveDone (h : Core.OnCard d₀ ⟨st, d, .done⟩ L) (hop : st.op = .save)
    (hresult : 0 ≤ st.result) (hown : st.SavesOwn) :
    Core.OnCard d₀ ⟨st.taken.saveDone, d, .idle⟩ (L.add (.saved st.diskSlot)) := by
  obtain ⟨hocc, hid, hsource, hseq⟩ := hown
  obtain ⟨hgen, hdata, -⟩ := h.saveJob (by simp) hop
  obtain ⟨hcurrent, hrecover⟩ := h.saved rfl hop hresult
  have hslot := h.slot st.diskSlot hocc
  dsimp only at hgen hdata hcurrent hrecover hslot
  refine ⟨h.card, h.journals, ?_, h.target, fun i => ?_, fun hp => absurd rfl hp,
    (fun hp => nomatch hp), fun hp => absurd rfl hp, (fun hp => nomatch hp)⟩
  · intro hcount
    obtain ⟨⟨h₁, h₂, h₃⟩, hn⟩ := h.catalog hcount
    exact ⟨⟨h₁, h₂, h₃⟩, hn⟩
  · have hi := h.slot i
    simp only [Storage.saveDone, slots_setSlot, Ledger.add, Function.update_apply]
    rw [show st.taken.diskSlot = st.diskSlot from rfl]
    split_ifs with hne
    · intro _
      obtain ⟨h₁, h₂, -, -, dump, hfig, -⟩ := hslot
      refine ⟨h₁, h₂, ?_, hgen, dump, hfig, fun hzero => ?_⟩
      · show Current (journalCopy d (st.slots st.diskSlot).id (st.slots st.diskSlot).source)
          ((st.slots st.diskSlot).sequence + 1)
        rw [hid, hsource, hseq]
        exact hcurrent
      · show recover dump
          (journalCopy d (st.slots st.diskSlot).id (st.slots st.diskSlot).source) =
            some ((st.slots st.diskSlot).sequence + 1, (st.slots st.diskSlot).data)
        rw [hid, hsource, hseq, hdata hzero]
        exact hrecover dump
    · exact hi

/-- A loaded figure is clean. -/
theorem Core.OnCard.install (h : Core.OnCard d₀ ⟨st, d, .done⟩ L)
    (hl : Core.Loading .honest ⟨st, d, .done⟩) (hop : st.op = .load) (hresult : 0 ≤ st.result)
    (slot : Fin 16) (uid : U32) :
    Core.OnCard d₀ ⟨st.taken.install slot uid, d, .idle⟩ (L.add (.installed slot)) := by
  obtain ⟨haction, hjob⟩ := hl.load (by simp) hop
  have hsource := hl.source (by simp) hop
  obtain ⟨io, job, check, sequence, hio, hload⟩ := hl.loaded rfl hop
  have htarget := h.target haction
  dsimp only at haction hjob hsource hload htarget
  have hcount : st.count ≠ 0 := fun h0 => by rw [h0] at htarget; exact BitVec.not_lt_zero htarget
  obtain ⟨hread, hn⟩ := h.catalog hcount
  -- the target is an entry of the catalogue, with the hash given there
  have hlt : st.jobSlot < e11Max := by
    rw [hjob]
    have hmax : st.count ≤ e11Max := hn ▸ hread.valid.count.2
    rw [BitVec.lt_def] at htarget ⊢
    exact htarget.trans_le (BitVec.le_def.mp hmax)
  have hcat : st.jobSource = catalogSource d₀ st.jobSlot := by
    rw [hsource, hread.catalog, hread.compact, hjob]; rfl
  have hzero : (e11Load d st.jobSlot st.jobSource io job check sequence).result = 0 := by
    have hle := @e11Load_le_zero d st.jobSlot st.jobSource io job check sequence
    rw [hload] at hle ⊢
    exact le_antisymm hle hresult
  obtain ⟨dump, hfig, hrecover⟩ := e11Load_sound hio hzero
  rw [hload] at hrecover
  have hcurrent : Current (journalCopy d st.jobSlot st.jobSource) st.jobSequence := by
    obtain ⟨s, hs⟩ := h.journals st.jobSlot hlt
    rw [← hcat] at hs
    exact hs.reload (by decide) hrecover
  refine ⟨h.card, h.journals, ?_, (fun haction => nomatch haction), fun i => ?_,
    fun hp => absurd rfl hp, (fun hp => nomatch hp), fun hp => absurd rfl hp,
    (fun hp => nomatch hp)⟩
  · exact fun _ => ⟨⟨hread.catalog, hread.compact, hread.valid⟩, hn⟩
  · simp only [Storage.install, slots_setSlot, Ledger.add, Function.update_apply]
    split_ifs with hi
    · exact fun _ => ⟨hlt, hcat, hcurrent, by simp [loadedSlot], dump, hfig, fun _ => hrecover⟩
    · intro hocc
      have hocc' := (occupied_releaseOld st.taken i).mp hocc
      have hslot : st.taken.releaseOld.slots i = st.slots i := if_neg hocc'.2
      rw [hslot]
      exact h.slot i hocc'.1

/-- Any completion. -/
theorem Core.OnCard.completion {out : List Effect} (h : Core.OnCard d₀ ⟨st, d, .done⟩ L)
    (hl : Core.Loading .honest ⟨st, d, .done⟩) (hc : Completion st st' out) :
    Core.OnCard d₀ ⟨st', d, .idle⟩ (out.foldl Ledger.add L) := by
  cases hc with
  | failed _ =>
      split_ifs
      · exact h.taken.restore
      · exact h.taken
  | catalog hresult hop hb =>
      have hread := h.read rfl hop hresult
      have hzero := (h.counted (by simp)).mp hop
      have hcounted : Core.OnCard d₀ ⟨st.taken.counted, d, .idle⟩ L :=
        ⟨h.card, h.journals, fun _ => ⟨⟨hread.catalog, hread.compact, hread.valid⟩,
          by rw [← hread.catalog]; rfl⟩, fun haction => by
            -- no load runs before the catalogue is there
            have := h.target haction
            dsimp only at hzero
            rw [hzero] at this
            exact absurd this BitVec.not_lt_zero, h.slot, fun hp => absurd rfl hp,
          (fun hp => nomatch hp), fun hp => absurd rfl hp, (fun hp => nomatch hp)⟩
      exact hcounted.begins (fun _ => rfl) hb
  | saved hresult hop => exact h.saveDone hop hresult (hl.save (by simp) hop)
  | rejected _ _ => exact h.taken.restore
  | installed slot hresult hop _ _ => exact h.install hl hop hresult slot _

end Jobs

end VirtualPortal
