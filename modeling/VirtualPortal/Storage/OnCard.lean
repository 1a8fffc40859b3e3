/-
# The figures in RAM and on the card

`Ledger` counts the writes each slot has taken since the snapshot of its last
successful save.  `SlotOnCard` ties a slot to the two journals of its figure: the
sequence number is that of the journal the session stands on, `generation` has
run ahead of `saved` by the writes counted, and when there are none the slot
holds what the card gives.  A save job in flight is tied to its slot in the same
way by the writes since its own snapshot.
-/

import VirtualPortal.Storage.LoadJob
import VirtualPortal.Storage.CrashSafety

namespace VirtualPortal

open Storage Alternating

/-! ### Counting writes -/

/-- For each slot the writes since the snapshot of its last successful save, and
those since the last snapshot taken. -/
structure Ledger where
  unsaved : Fin 16 → ℕ
  pending : Fin 16 → ℕ

/-- The ledger after one effect. -/
def Ledger.add (L : Ledger) : Effect → Ledger
  | .wrote i =>
      ⟨Function.update L.unsaved i (L.unsaved i + 1), Function.update L.pending i (L.pending i + 1)⟩
  | .submit .save => ⟨L.unsaved, fun _ => 0⟩
  | .saved i => ⟨Function.update L.unsaved i (L.pending i), L.pending⟩
  | .installed i => ⟨Function.update L.unsaved i 0, L.pending⟩
  | _ => L

/-- The ledger of a run that has had the effects `out`. -/
def ledger (out : List Effect) : Ledger := out.foldl Ledger.add ⟨fun _ => 0, fun _ => 0⟩

theorem ledger_append_nil (out : List Effect) : ledger (out ++ []) = ledger out := by
  rw [List.append_nil]

theorem ledger_append_singleton (out : List Effect) (e : Effect) :
    ledger (out ++ [e]) = (ledger out).add e := by
  rw [ledger, ledger, List.foldl_append]; rfl

/-- The ledger does not see other effects. -/
theorem ledger_figureEffects (out : List Effect) : ledger (figureEffects out) = ledger out := by
  induction out using List.reverseRecOn with
  | nil => rfl
  | append_singleton out e ih =>
      rw [figureEffects_append, ledger_append_singleton, ← ih]
      cases e <;> first | exact ledger_append_nil _ | exact ledger_append_singleton _ _

/-! ### A slot and its journals -/

/-- A slot with `n` unsaved writes is tied to the journals of its figure. -/
structure SlotOnCard (sources : U32 → U32) (d : Disk) (s : Slot) (n : ℕ) : Prop where
  id : s.id < e11Max
  source : s.source = sources s.id
  current : Current (journalCopy d s.id s.source) s.sequence
  generation : s.generation = s.saved + BitVec.ofNat 32 n
  clean : ∃ dump, FigIntact d s.id s.source dump ∧
    (n = 0 → recover dump (journalCopy d s.id s.source) = some (s.sequence, s.data))

/-- The catalogue in the buffer is the one on the card. -/
structure CatalogRead (d : Disk) (st : Storage) : Prop where
  catalog : st.catalog = catalogFile d
  compact : st.compact = catalogCompact (be32 (catalogFile d).byte 0)
  valid : catalogValid (catalogFile d)

/-- A save job is tied to its slot by the writes since its snapshot. -/
structure SaveOnCard (st : Storage) (L : Ledger) : Prop where
  generation : (st.slots st.diskSlot).generation =
    st.snapshot + BitVec.ofNat 32 (L.pending st.diskSlot)
  data : L.pending st.diskSlot = 0 → (st.slots st.diskSlot).data = journalBody st.job
  dirty : L.unsaved st.diskSlot ≠ 0

/-- What a successful save job has left on the card. -/
def SavedOnCard (d : Disk) (st : Storage) : Prop :=
  Current (journalCopy d st.jobSlot st.jobSource) (st.jobSequence + 1) ∧
    ∀ dump, recover dump (journalCopy d st.jobSlot st.jobSource) =
      some (st.jobSequence + 1, journalBody st.job)

/-- The slots, the catalogue and the job agree with the card; `d₀` is the card at
the start and `L` the ledger. -/
structure Core.OnCard (d₀ : Disk) (c : Core) (L : Ledger) : Prop where
  card : c.disk catalogPath = d₀ catalogPath
  journals : ∀ id < e11Max, ∃ s, Current (journalCopy c.disk id (catalogSource d₀ id)) s
  catalog : c.storage.count ≠ 0 → CatalogRead d₀ c.storage ∧
    c.storage.count = be32 (catalogFile d₀).byte 4
  target : c.storage.action = some .load → c.storage.target < c.storage.count
  slot : ∀ i, (c.storage.slots i).occupied = true →
    SlotOnCard (catalogSource d₀) c.disk (c.storage.slots i) (L.unsaved i)
  counted : c.phase ≠ .idle → (c.storage.op = .catalog ↔ c.storage.count = 0)
  read : c.phase = .done → c.storage.op = .catalog → 0 ≤ c.storage.result → CatalogRead d₀ c.storage
  saveJob : c.phase ≠ .idle → c.storage.op = .save → SaveOnCard c.storage L
  saved : c.phase = .done → c.storage.op = .save → 0 ≤ c.storage.result →
    SavedOnCard c.disk c.storage

section SlotChanges

variable {sources : U32 → U32} {d d' : Disk} {s s' : Slot} {n : ℕ}

/-- The presence, the UID and the occupation of a slot do not matter. -/
theorem SlotOnCard.congr (h : SlotOnCard sources d s n) (hid : s'.id = s.id)
    (hsource : s'.source = s.source) (hsequence : s'.sequence = s.sequence)
    (hgeneration : s'.generation = s.generation) (hsaved : s'.saved = s.saved)
    (hdata : s'.data = s.data) : SlotOnCard sources d s' n := by
  obtain ⟨h₁, h₂, h₃, h₄, h₅⟩ := h
  constructor
  · rw [hid]; exact h₁
  · rw [hsource, hid]; exact h₂
  · rw [hid, hsource, hsequence]; exact h₃
  · rw [hgeneration, hsaved]; exact h₄
  · rw [hid, hsource, hsequence, hdata]; exact h₅

/-- A write leaves the slot dirty. -/
theorem SlotOnCard.writeBlock (h : SlotOnCard sources d s n) (block : ℕ) (bytes : ℕ → U8) :
    SlotOnCard sources d (s.writeBlock block bytes) (n + 1) := by
  obtain ⟨h₁, h₂, h₃, h₄, dump, hfig, -⟩ := h
  refine ⟨h₁, h₂, h₃, ?_, dump, hfig, fun h => absurd h (Nat.succ_ne_zero n)⟩
  show s.generation + 1 = s.saved + BitVec.ofNat 32 (n + 1)
  rw [h₄, BitVec.ofNat_add, BitVec.add_assoc]
  rfl

/-- Saving another figure does not concern this one. -/
theorem SlotOnCard.write_other (h : SlotOnCard sources d s n) {slot sequence : U32}
    (hslot : slot < e11Max) (hne : s.id ≠ slot) (record : Bytes 1056) (kept : ℕ) :
    SlotOnCard sources (e11SaveWrite d (e11SavePath slot sequence) record kept) s n := by
  obtain ⟨h₁, h₂, h₃, h₄, dump, hfig, hclean⟩ := h
  refine ⟨h₁, h₂, ?_, h₄, dump, (figIntact_write hslot h₁ record kept).mpr hfig, fun hn => ?_⟩
  · rw [journalCopy_write_other hslot h₁ hne]; exact h₃
  · rw [journalCopy_write_other hslot h₁ hne]; exact hclean hn

/-- A save attempt of a dirty figure leaves its session where it stands. -/
theorem SlotOnCard.write_self (h : SlotOnCard sources d s n) (hn : n ≠ 0) (job : Bytes 1056)
    (kept : ℕ) :
    SlotOnCard sources
      (e11SaveWrite d (e11SavePath s.id s.sequence)
        (journalRecord job s.id s.source s.sequence) kept)
      s n := by
  obtain ⟨h₁, h₂, h₃, h₄, dump, hfig, -⟩ := h
  refine ⟨h₁, h₂, ?_, h₄, dump, (figIntact_write h₁ h₁ _ kept).mpr hfig, fun h => absurd h hn⟩
  rw [journalCopy_write h₁]
  exact h₃.put (by decide) (writtenCopy_attempted ..)

end SlotChanges

/-! ### Events -/

section Events

variable {d₀ d : Disk} {st st' : Storage} {p : Phase} {L : Ledger}

/-- Other slots are occupied, if at all, by the same figures. -/
theorem Core.OnCard.of_slots (h : Core.OnCard d₀ ⟨st, d, .idle⟩ L)
    (hcatalog : st'.catalog = st.catalog ∧ st'.compact = st.compact ∧ st'.count = st.count)
    (htarget : st'.action = some .load → st'.target < st'.count)
    (hslot : ∀ i, (st'.slots i).occupied = true →
      SlotOnCard (catalogSource d₀) d (st'.slots i) (L.unsaved i)) :
    Core.OnCard d₀ ⟨st', d, .idle⟩ L where
  card := h.card
  journals := h.journals
  catalog hcount := by
    obtain ⟨hread, hn⟩ := h.catalog (by rw [← hcatalog.2.2]; exact hcount)
    exact ⟨⟨hcatalog.1.trans hread.catalog, hcatalog.2.1.trans hread.compact, hread.valid⟩,
      hcatalog.2.2.trans hn⟩
  target := htarget
  slot := hslot
  counted hp := absurd rfl hp
  read hp := nomatch hp
  saveJob hp := absurd rfl hp
  saved hp := nomatch hp

/-- The beginning of an action. -/
theorem Core.OnCard.begins (h : Core.OnCard d₀ ⟨st, d, p⟩ L) (hidle : st.busy = false → p = .idle)
    (hb : Begins st st') : Core.OnCard d₀ ⟨st', d, p⟩ L := by
  cases hb with
  | keep => exact h
  | action ui id action _ hbusy hload =>
      obtain rfl := hidle hbusy
      refine h.of_slots ⟨rfl, rfl, rfl⟩ (fun haction => ?_) fun i => ?_
      · exact (hload (Option.some.inj haction)).1
      · have := h.slot i
        simp only [Storage.startAction, setOldPresent]
        split_ifs
        · exact fun hocc => (this hocc).congr rfl rfl rfl rfl rfl rfl
        · exact this

/-- A `W` command. -/
theorem Core.OnCard.write (h : Core.OnCard d₀ ⟨st, d, p⟩ L) (slot : Fin 16) (block : ℕ)
    (bytes : ℕ → U8) :
    Core.OnCard d₀ ⟨st.setSlot slot ((st.slots slot).writeBlock block bytes), d, p⟩
      (L.add (.wrote slot)) where
  card := h.card
  journals := h.journals
  catalog hcount := by
    obtain ⟨⟨h₁, h₂, h₃⟩, hn⟩ := h.catalog hcount
    exact ⟨⟨h₁, h₂, h₃⟩, hn⟩
  target := h.target
  slot i := by
    have := h.slot i
    simp only [slots_setSlot, Ledger.add, Function.update_apply]
    split_ifs with hi
    · subst hi
      exact fun hocc => (this hocc).writeBlock block bytes
    · exact this
  counted := h.counted
  read hp hop hr := by
    obtain ⟨h₁, h₂, h₃⟩ := h.read hp hop hr
    exact ⟨h₁, h₂, h₃⟩
  saveJob hp hop := by
    obtain ⟨hgen, hdata, hdirty⟩ := h.saveJob hp hop
    dsimp only at hgen hdata hdirty
    constructor
    all_goals
      simp only [Ledger.add, Function.update_apply]
      rw [show (st.setSlot slot ((st.slots slot).writeBlock block bytes)).diskSlot = st.diskSlot
        from rfl]
    · rw [slots_setSlot]
      split_ifs with hi
      · rw [hi] at hgen
        show (st.slots slot).generation + 1 = st.snapshot + BitVec.ofNat 32 (L.pending slot + 1)
        rw [hgen, BitVec.ofNat_add, BitVec.add_assoc]
        rfl
      · exact hgen
    · rw [slots_setSlot]
      split_ifs with hi
      · simp
      · exact hdata
    · split_ifs with hi
      · exact Nat.succ_ne_zero _
      · exact hdirty
  saved := h.saved

/-- The end of a removal. -/
theorem Core.OnCard.finishRemove (h : Core.OnCard d₀ ⟨st, d, .idle⟩ L) :
    Core.OnCard d₀ ⟨st.finishRemove, d, .idle⟩ L := by
  refine h.of_slots ⟨rfl, rfl, rfl⟩ (fun haction => nomatch haction) fun i hocc => ?_
  have hocc' := (occupied_releaseOld st i).mp hocc
  have hslot : st.finishRemove.slots i = st.slots i := if_neg hocc'.2
  rw [hslot]
  exact h.slot i hocc'.1

/-- The submission of a job. -/
theorem Core.OnCard.job (h : Core.OnCard d₀ ⟨st, d, .idle⟩ L) (hs : st.Slotted) {op : DiskOp}
    (hprepares : Prepares st op st') (sent : Bool) :
    Core.OnCard d₀ ⟨st'.submitJob op sent, d, Phase.idle.after (if sent then [.submit op] else [])⟩
      ((if sent then [Effect.submit op] else []).foldl Ledger.add L) := by
  have hidle : Core.OnCard d₀ ⟨st'.submitJob op sent, d, .idle⟩ L := by
    cases hprepares with
    | catalog => exact h.of_slots ⟨rfl, rfl, rfl⟩ h.target h.slot
    | save => exact h.of_slots ⟨rfl, rfl, rfl⟩ h.target h.slot
    | load => exact h.of_slots ⟨rfl, rfl, rfl⟩ h.target h.slot
  cases sent with
  | false => exact hidle
  | true =>
      have hunsaved : (L.add (.submit op)).unsaved = L.unsaved := by cases op <;> rfl
      refine ⟨hidle.card, hidle.journals, hidle.catalog, hidle.target, ?_, fun _ => ?_,
        (fun hp => nomatch hp), fun _ hop => ?_, (fun hp => nomatch hp)⟩
      · intro i
        show _ → SlotOnCard _ _ _ ((L.add (.submit op)).unsaved i)
        rw [hunsaved]
        exact hidle.slot i
      · cases hprepares with
        | catalog hcount => exact ⟨fun _ => hcount, fun _ => rfl⟩
        | save i hcount => exact ⟨(fun hop => nomatch hop), fun hc => absurd hc hcount⟩
        | load hcount => exact ⟨(fun hop => nomatch hop), fun hc => absurd hc hcount⟩
      · cases hprepares with
        | catalog => cases hop
        | load => cases hop
        | save i _ hchanged hslot =>
            have hocc : (st.slots i).occupied = true := by
              rcases hslot with ⟨hocc, -⟩ | ⟨haction, hold⟩
              · exact hocc
              · exact (hs.occupied i).mpr ⟨st.actionUi, by rw [← hs.old haction, hold]⟩
            refine ⟨?_, fun _ => ?_, fun hzero => ?_⟩
            · show (st.slots i).generation = (st.slots i).generation + BitVec.ofNat 32 0
              simp
            · show (st.slots i).data = journalBody (st.job.copy 32 (st.slots i).data.byte 1024)
              rw [journalBody_copy]
              funext k
              exact (Bytes.byte_val _ k).symm
            · -- a slot with no write since its last save is not dirty
              have hgen : (st.slots i).generation = (st.slots i).saved := by
                have := (h.slot i hocc).generation
                rw [show L.unsaved i = 0 from hzero] at this
                simpa using this
              simp [Slot.changed, hgen] at hchanged

/-- Any event. -/
theorem Core.OnCard.move {out : List Effect} (h : Core.OnCard d₀ ⟨st, d, p⟩ L) (hs : st.Slotted)
    (hidle : st.busy = false → p = .idle) (hm : Move st st' out) :
    Core.OnCard d₀ ⟨st', d, p.after out⟩ (out.foldl Ledger.add L) := by
  cases hm with
  | begins hb => exact h.begins hidle hb
  | write slot block bytes => exact h.write slot block bytes
  | remove hbusy =>
      obtain rfl := hidle hbusy
      exact h.finishRemove
  | job op sent hbusy hprepares =>
      obtain rfl := hidle hbusy
      exact h.job hs hprepares sent

end Events

end VirtualPortal
