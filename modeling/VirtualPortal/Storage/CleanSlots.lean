/-
# Clean means saved

The menu shows a figure as saved when `generation == saved`.  `clean_slots_load`
says that this is honest: loading such a figure from the card, at any moment of
any run, gives exactly the bytes and the sequence number its slot holds.

The counter `generation` is a 32-bit word, so the writes a slot takes between the
snapshots of two successful saves must be fewer than `2^32` (`Ledger.unsaved`).
At the start the journals are what earlier sessions have left, each a run of
loads, saves and power cuts (`JournalsLeft`).
-/

import VirtualPortal.Storage.CardJobs
import VirtualPortal.Storage.SecondFigure

namespace VirtualPortal

open Storage Alternating

section Steps

variable {d₀ : Disk}

/-- Every step of the machine keeps the slots, the job and the card in
agreement. -/
theorem Core.OnCard.step {c c' : Core} {out : List Effect} {L : Ledger} (h : c.OnCard d₀ L)
    (hc : c.Coherent) (hl : c.Loading .honest) (hs : Core.Step .honest c c' out) :
    c'.OnCard d₀ (out.foldl Ledger.add L) := by
  cases hs with
  | event hbegins hmove =>
      have hidle := hc.idle
      refine (h.begins hidle hbegins).move (hl.slots.begins hbegins) (fun hbusy => ?_) hmove
      exact hidle (hbegins.busy ▸ hbusy)
  | complete hcomp => exact h.completion hl hcomp
  | @run st d op io hio =>
      have hop : st.op = op := hc.op op rfl
      cases op with
      | catalog => exact h.runCatalog hop io
      | save => exact h.runSave hl.slots hop (hl.save (by simp) hop) io
      | load => exact h.runLoad hop io
  | lose =>
      exact ⟨h.card, h.journals, h.catalog, h.target, h.slot, fun _ => h.counted (by simp),
        (fun hp => nomatch hp), fun _ => h.saveJob (by simp), (fun hp => nomatch hp)⟩

/-- The machine before its first step. -/
theorem Core.OnCard.initial {c : Core} {d : Disk} (h : c.Initial d)
    (hjournals : ∀ id < e11Max, ∃ s, Current (journalCopy d id (catalogSource d id)) s)
    (L : Ledger) :
    c.OnCard d L where
  card := by rw [h.disk]
  journals := by rw [h.disk]; exact hjournals
  catalog hcount := absurd h.count hcount
  target haction := by rw [h.action] at haction; cases haction
  slot i hocc := by rw [h.slots] at hocc; cases hocc
  counted _ := ⟨fun _ => h.count, fun _ => h.op⟩
  read hp := by rcases h.phase with hq | hq <;> rw [hq] at hp <;> cases hp
  saveJob _ hop := by rw [h.op] at hop; cases hop
  saved hp := by rcases h.phase with hq | hq <;> rw [hq] at hp <;> cases hp

end Steps

/-! ### Runs -/

/-- The journals of a figure on the card `d` are what a run of loads, saves and
power cuts has left, from a card without journals of the figure. -/
def JournalsLeft (d : Disk) (id source : U32) : Prop :=
  ∃ d₁ es, (∀ k, d₁ (e11Name id (some k)) = none) ∧
    Run.Every (cardStep id source) HonestStep ⟨d₁, none⟩ es ∧
    ∀ k, d (e11Name id (some k)) =
      (Run.final (cardStep id source) ⟨d₁, none⟩ es).disk (e11Name id (some k))

theorem JournalsLeft.current {d : Disk} {id source : U32} (h : JournalsLeft d id source)
    (hid : id < e11Max) : ∃ s, Current (journalCopy d id source) s := by
  obtain ⟨d₁, es, hempty, hes, hfiles⟩ := h
  have hcopy : journalCopy d id source =
      journalCopy (Run.final (cardStep id source) ⟨d₁, none⟩ es).disk id source := by
    funext k
    rw [journalCopy, journalCopy, hfiles k]
  rw [hcopy]
  rcases fresh_or_safe_run hid hempty hes with ⟨⟨-, hv, -⟩, -⟩ | ⟨t, x, -, hstands, -⟩
  · exact ⟨0, Or.inr ⟨hv, rfl⟩⟩
  · exact ⟨t, Or.inl ⟨x, hstands⟩⟩

/-- A card without journals. -/
theorem JournalsLeft.none {d : Disk} {id source : U32} (h : ∀ k, d (e11Name id (some k)) = none) :
    JournalsLeft d id source := ⟨d, [], h, trivial, fun _ => rfl⟩

/-- Loading the figure of a slot succeeds and gives what the slot holds. -/
def LoadsBack (d : Disk) (s : Slot) : Prop :=
  ∀ job check sequence,
    (e11Load d s.id s.source .ok job check sequence).result = 0 ∧
      journalBody (e11Load d s.id s.source .ok job check sequence).job = s.data ∧
      (e11Load d s.id s.source .ok job check sequence).sequence = s.sequence

theorem SlotOnCard.loadsBack {sources : U32 → U32} {d : Disk} {s : Slot} {n : ℕ}
    (h : SlotOnCard sources d s n) (hn : n < 2 ^ 32) (hclean : s.generation = s.saved) :
    LoadsBack d s := by
  -- fewer than `2^32` writes show in the counter
  have hzero : n = 0 := by
    have hword : BitVec.ofNat 32 n = 0#32 := by
      have hgen := h.generation
      rw [hclean] at hgen
      rw [← BitVec.add_right_inj s.saved, BitVec.add_zero]
      exact hgen.symm
    have hnat := congrArg BitVec.toNat hword
    rwa [toNat_ofNat_of_lt hn] at hnat
  obtain ⟨dump, hfig, hrecover⟩ := h.clean
  intro job check sequence
  have hload := e11Load_ok hfig job check sequence
  rw [hrecover hzero] at hload
  exact ⟨hload.1, hload.2.2, hload.2.1⟩

/-- The states in which every figure shown as saved loads back, as long as it has
taken fewer than `2^32` writes since the snapshot of its last successful save. -/
def CleanOnCard (σ : System) (out : List Effect) : Prop :=
  ∀ i, (σ.hid.slots i).occupied = true → (σ.hid.slots i).generation = (σ.hid.slots i).saved →
    (ledger out).unsaved i < 2 ^ 32 → LoadsBack σ.disk (σ.hid.slots i)

/-- After every run, whatever its disk jobs return short of a lie about what is
on the card, a figure shown as saved is on the card. -/
theorem clean_slots_load {d : Disk} {io : StartIo} {as : List Action}
    (has : Run.Every System.step (System.Meets .honest) (System.init d io) as)
    (hjournals : ∀ id < e11Max, JournalsLeft d id (catalogSource d id)) :
    CleanOnCard (Run.final System.step (System.init d io) as)
      (Run.outputs System.step (System.init d io) as) := by
  obtain ⟨p, -, -, -, h⟩ := System.core_of_every
    (I := fun c l => c.Loading .honest ∧ c.OnCard d (ledger l))
    (fun c c' l out hc ⟨hl, h⟩ hs => ⟨hl.step hc hs, by
      rw [ledger, List.foldl_append]; exact h.step hc hl hs⟩)
    (fun c h => ⟨.initial h, .initial h (fun id hid => (hjournals id hid).current hid) _⟩) has
  rw [ledger_figureEffects] at h
  exact fun i hocc hclean hn => (h.slot i hocc).loadsBack hn hclean

/-- The first figure is written and saved and another one takes its slot.  The save leaves
the slot with the written block and its journal, the load with the other figure. -/
theorem clean_slots_load_swap :
    let saved := Run.final System.step (System.init twoFigureCard .ok)
      (untilSwap ++ hears 1 :: swapSave)
    let shown := Run.final System.step (System.init twoFigureCard .ok) swapRun
    ((saved.hid.slots 0).data = (Bytes.zero 1024).copy 16 (written 1) 16 ∧
      (saved.hid.slots 0).sequence = 1 ∧ LoadsBack saved.disk (saved.hid.slots 0)) ∧
    (shown.hid.slots 0).data = otherFigure ∧ LoadsBack shown.disk (shown.hid.slots 0) := by
  have hjournals : ∀ id < e11Max,
      JournalsLeft twoFigureCard id (catalogSource twoFigureCard id) :=
    fun id hid => .none (twoFigureCard_empty hid)
  obtain ⟨hsaved, out, hout⟩ := swapSaved_final
  obtain ⟨hshown, out', hout'⟩ := swapRun_final
  have hslot : (atRest swapSaved swapCard).hid.slots 0 = removedSlot.afterSave := by
    rw [show (atRest swapSaved swapCard).hid.slots = _ from swapSaved_slots, Function.update_self]
  have hslot' : (atRest swapShown swapCard).hid.slots 0 = otherSlot := by
    rw [show (atRest swapShown swapCard).hid.slots = _ from swapLoad_run.2.2, Function.update_self]
  have hclean := clean_slots_load
    (Run.every_of_mem (fun a ha => (swapRun_succeeds a (mem_swapRun ha)).honest)
      (.init twoFigureCard .ok)) hjournals 0
  have hclean' := clean_slots_load
    (Run.every_of_mem (fun a ha => (swapRun_succeeds a ha).honest) (.init twoFigureCard .ok))
    hjournals 0
  rw [hsaved, hout, ledger_append_singleton, ledger_append_singleton, hslot] at hclean
  rw [hshown, hout', ledger_append_singleton, hslot'] at hclean'
  intro saved shown
  rw [show saved = _ from hsaved, show shown = _ from hshown, hslot, hslot']
  exact ⟨⟨rfl, rfl, hclean rfl rfl (show 0 < 2 ^ 32 by decide)⟩, rfl,
    hclean' rfl rfl (show 0 < 2 ^ 32 by decide)⟩

end VirtualPortal
