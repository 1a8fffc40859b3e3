/-
# Crash safety of the journals

What a player can rely on when power is lost while a figure is being saved.

`journal_crash_safe`: once a save of a figure has been acknowledged, or a
complete journal is found at power-up, every later load succeeds and gives the
last acknowledged snapshot or a later one that was written in full, and the next
save never opens the file of the record the session stands on.  After a reboot
that record may be a later one than the last acknowledged
(`acknowledged_file_reopened`).

A first save may also write its record in full and report an error.  The session then
stands on the dump, the save is repeated into the same file, and a cut of that loses the
complete journal (`first_save_retry_unloadable`).

`first_save_cut`: before that, a first save that is cut off before its last byte
leaves a journal that is damaged with none to fall back on, and the figure does
not load.
-/

import VirtualPortal.Storage.PowerCuts

namespace VirtualPortal

open Alternating

section Figure

variable {slot source : U32} {dump : Bytes 1024}

/-- A safe figure loads, and gives an eligible snapshot. -/
theorem Safe.load {s : CardState} {E : List (Bytes 1024)} (h : Safe slot source s E)
    (hfig : FigIntact s.disk slot source dump) (job check : Bytes 1056) (sequence : U32) :
    (e11Load s.disk slot source .ok job check sequence).result = 0 ∧
      journalBody (e11Load s.disk slot source .ok job check sequence).job ∈ E := by
  obtain ⟨t, x, -, hs, hx, hE⟩ := h
  have hload := e11Load_ok hfig job check sequence
  rcases hs.recover (by decide) with ⟨-, hr⟩ | ⟨y, hy, hr⟩
  · rw [hr] at hload
    obtain ⟨h₁, -, h₃⟩ := hload
    exact ⟨h₁, h₃ ▸ hx⟩
  · rw [hr] at hload
    obtain ⟨h₁, -, h₃⟩ := hload
    exact ⟨h₁, h₃ ▸ hE y hy⟩

/-- The file the next save of a loaded figure opens is not the one of the record
its session stands on, and it is no dump. -/
theorem Safe.save_path {s : CardState} {E : List (Bytes 1024)} (hslot : slot < e11Max)
    (h : Safe slot source s E) {n : U32} (hn : s.ram = some n) :
    (∃ x ∈ E, journalCopy s.disk slot source (parity n) = .full n x) ∧
      e11SavePath slot n ≠ e11Name slot (some (parity n)) ∧
      ∀ id < e11Max, e11SavePath slot n ≠ e11Name id none := by
  obtain ⟨t, x, ht, hs, hx, -⟩ := h
  rw [hn] at ht
  obtain rfl : n = t := by simpa using ht
  refine ⟨⟨x, hx, hs.here⟩, fun he => ?_, fun id hid he => e11SavePath_ne_fig hslot hid he.symm⟩
  rw [e11SavePath_eq] at he
  have hp := Option.some.inj (e11Name_inj hslot hslot he).2
  rw [parity_succ (by decide)] at hp
  revert hp
  cases parity n <;> decide

/-- The dump stays as it is over a whole run. -/
theorem figIntact_run (hslot : slot < e11Max) {s : CardState}
    (h : FigIntact s.disk slot source dump) (es : List CardEvent) :
    FigIntact (Run.final (cardStep slot source) s es).disk slot source dump :=
  Run.final_of_every (C := fun _ _ => True)
    (P := fun s : CardState => FigIntact s.disk slot source dump)
    (fun s e _ h => figIntact_step hslot hslot s e h) (Run.every_true s es) h

/-- Crash safety of a figure that starts without journals, from the point on
where a save has been acknowledged or, before a power-up, a complete journal is
on the card: a load that meets no failing call succeeds and gives an eligible
snapshot, and the next save spares the record the session stands on.  `es₁` and
`es₂` are any saves, power cuts and power-ups before and after that point. -/
theorem journal_crash_safe (hslot : slot < e11Max) {d : Disk}
    (hfig : FigIntact d slot source dump) (hd : ∀ k, d (e11Name slot (some k)) = none)
    {es₁ es₂ : List CardEvent}
    (h₁ : Run.Every (cardStep slot source) HonestStep ⟨d, none⟩ es₁)
    (hjournal : (∃ a ∈ Run.outputs (cardStep slot source) ⟨d, none⟩ es₁, a.acked = true) ∨
      ((Run.final (cardStep slot source) ⟨d, none⟩ es₁).ram = none ∧ ∃ k t x,
        journalCopy (Run.final (cardStep slot source) ⟨d, none⟩ es₁).disk slot source k =
          .full t x))
    (h₂ : Run.Every (cardStep slot source) HonestStep
      (Run.final (cardStep slot source) ⟨d, none⟩ es₁) es₂) :
    let s := Run.final (cardStep slot source) ⟨d, none⟩ (es₁ ++ es₂)
    let E := eligible (Run.outputs (cardStep slot source) ⟨d, none⟩ (es₁ ++ es₂))
    (∀ job check sequence,
      (e11Load s.disk slot source .ok job check sequence).result = 0 ∧
        journalBody (e11Load s.disk slot source .ok job check sequence).job ∈ E) ∧
    ∀ n, s.ram = some n →
      (∃ x ∈ E, journalCopy s.disk slot source (parity n) = .full n x) ∧
        e11SavePath slot n ≠ e11Name slot (some (parity n)) ∧
        ∀ id < e11Max, e11SavePath slot n ≠ e11Name id none := by
  have hsafe : Safe slot source (Run.final (cardStep slot source) ⟨d, none⟩ es₁)
      (eligible (Run.outputs (cardStep slot source) ⟨d, none⟩ es₁)) := by
    rcases fresh_or_safe_run hslot hd h₁ with ⟨hfresh, hun⟩ | hsafe
    · rcases hjournal with ⟨a, ha, hack⟩ | ⟨hram, k, t, x, hk⟩
      · rw [hun a ha] at hack; cases hack
      · exact hfresh.safe hram hk
    · exact hsafe
  have hsafe' := hsafe.run hslot h₂
  rw [← Run.final_append, ← Run.outputs_append] at hsafe'
  exact ⟨fun job check sequence => hsafe'.load (figIntact_run hslot hfig _) job check sequence,
    fun n hn => hsafe'.save_path hslot hn⟩

/-- A power-up none of whose calls fails puts the recovered version in RAM. -/
theorem cardStep_boot_ok {s : CardState} {t : U32} {x : Bytes 1024}
    (hfig : FigIntact s.disk slot source dump)
    (hr : recover dump (journalCopy s.disk slot source) = some (t, x)) (job check : Bytes 1056)
    (sequence : U32) :
    cardStep slot source s (.boot job check sequence .ok) = (⟨s.disk, some t⟩, []) := by
  have hload := e11Load_ok hfig job check sequence
  rw [hr] at hload
  obtain ⟨h₁, h₂, -⟩ := hload
  simp only [cardStep, h₁, h₂, if_true]

/-- A save none of whose calls fails is acknowledged and on the card. -/
theorem cardStep_save_ok (d : Disk) (n : U32) (job check : Bytes 1056) :
    cardStep slot source ⟨d, some n⟩ (.save job check .ok) =
      (⟨e11SaveWrite d (e11SavePath slot n) (journalRecord job slot source n) 1056, some (n + 1)⟩,
        [⟨journalBody job, e11SavePath slot n, true, true⟩]) := by
  have h₁ := @e11Save_ok d slot source n job check
  have h₂ := (@e11Save_disk d slot source n .ok job check).1
  rw [if_neg (by decide)] at h₂
  simp only [cardStep, h₁, h₂, if_true]
  rfl

/-- The first save of a figure, when none of its calls fails. -/
theorem firstSave_stands (hslot : slot < e11Max) {d : Disk}
    (hd : ∀ k, d (e11Name slot (some k)) = none) (job : Bytes 1056) :
    Stands (journalCopy (e11SaveWrite d (e11SavePath slot 0) (journalRecord job slot source 0) 1056)
      slot source) 1 (journalBody job) := by
  have hv : Virgin (journalCopy d slot source) := (fresh_of_empty hd).2.1
  have hcopy := @journalCopy_write d slot source 0 hslot job 1056
  rw [hcopy]
  refine (hv.put (by decide) (writtenCopy_attempted 0 (journalBody job) 1056)).stands (by decide)
    (t := 1) ?_
  rw [← parity_one (by decide : 0 < 32)]
  exact put_self ..

/-- The newest acknowledged save attempt. -/
def lastAcked (as : List Attempt) : Option Attempt := (as.filter (·.acked)).getLast?

/-- The card of a player with one figure and no journals: entry 0, all bytes
zero. -/
def oneFigureCard : Disk := fun p =>
  if p = e11Name 0 none then some (List.replicate 1024 0) else none

/-- The hash of that figure. -/
def oneFigureSource : U32 := e11Hash (Bytes.zero 1024).byte 1024

theorem oneFigureCard_intact : FigIntact oneFigureCard 0 oneFigureSource (Bytes.zero 1024) := by
  refine ⟨⟨List.replicate 1024 0, if_pos rfl, ?_, ?_⟩, rfl⟩
  · rw [List.length_replicate]
  · funext i
    rw [List.getD_eq_getElem?_getD, List.getElem?_replicate, if_pos i.isLt]
    rfl

theorem oneFigureCard_empty (k : Bool) : oneFigureCard (e11Name 0 (some k)) = none := by
  refine if_neg fun h => ?_
  exact absurd (e11Name_inj (by decide) (by decide) h).2 (by simp)

/-- The first power-up of that card gives the dump, as version 0. -/
theorem oneFigureCard_boot :
    cardStep 0 oneFigureSource ⟨oneFigureCard, none⟩
        (.boot (Bytes.zero 1056) (Bytes.zero 1056) 0 .ok) = (⟨oneFigureCard, some 0⟩, []) := by
  exact cardStep_boot_ok (s := ⟨oneFigureCard, none⟩) oneFigureCard_intact
    (recover_of_empty oneFigureCard_empty _) (Bytes.zero 1056) (Bytes.zero 1056) 0

/-- The figure is loaded and saved. -/
def firstSaveRun : List CardEvent :=
  [.boot (Bytes.zero 1056) (Bytes.zero 1056) 0 .ok, .save (Bytes.zero 1056) (Bytes.zero 1056) .ok]

theorem firstSaveRun_acked :
    ∃ a ∈ Run.outputs (cardStep 0 oneFigureSource) ⟨oneFigureCard, none⟩ firstSaveRun,
      a.acked = true := by
  simp only [firstSaveRun, Run.outputs_cons, Run.outputs_nil, oneFigureCard_boot, cardStep_save_ok]
  exact ⟨_, List.mem_singleton_self _, rfl⟩

/-- After that save, whatever is cut off, the figure loads and its record is
spared. -/
theorem journal_crash_safe_oneFigure :
    let es := firstSaveRun ++ [CardEvent.cut (Bytes.zero 1056) 500,
      .boot (Bytes.zero 1056) (Bytes.zero 1056) 0 .ok]
    let s := Run.final (cardStep 0 oneFigureSource) ⟨oneFigureCard, none⟩ es
    let E := eligible (Run.outputs (cardStep 0 oneFigureSource) ⟨oneFigureCard, none⟩ es)
    (∀ job check sequence,
      (e11Load s.disk 0 oneFigureSource .ok job check sequence).result = 0 ∧
        journalBody (e11Load s.disk 0 oneFigureSource .ok job check sequence).job ∈ E) ∧
    ∀ n, s.ram = some n →
      (∃ x ∈ E, journalCopy s.disk 0 oneFigureSource (parity n) = .full n x) ∧
        e11SavePath 0 n ≠ e11Name 0 (some (parity n)) ∧
        ∀ id < e11Max, e11SavePath 0 n ≠ e11Name id none :=
  journal_crash_safe (by decide) oneFigureCard_intact oneFigureCard_empty
    ⟨JobIo.ok_honest, trivial, trivial⟩ (Or.inl firstSaveRun_acked)
    ⟨trivial, JobIo.ok_honest, trivial⟩

/-- Save `A` is acknowledged, save `B` is written in full when power is lost, and
the figure is loaded again. -/
def reopenRun : List CardEvent :=
  [.boot (Bytes.zero 1056) (Bytes.zero 1056) 0 .ok, .save (Bytes.zero 1056) (Bytes.zero 1056) .ok,
    .cut (Bytes.zero 1056) 1056, .boot (Bytes.zero 1056) (Bytes.zero 1056) 0 .ok]

theorem reopenRun_honest :
    Run.Every (cardStep 0 oneFigureSource) HonestStep ⟨oneFigureCard, none⟩ reopenRun :=
  ⟨JobIo.ok_honest, trivial, trivial, JobIo.ok_honest, trivial⟩

/-- At its end the figure is loaded with the second record, and the first save
is the newest acknowledged one. -/
theorem reopenRun_final :
    (Run.final (cardStep 0 oneFigureSource) ⟨oneFigureCard, none⟩ reopenRun).ram = some 2 ∧
      lastAcked (Run.outputs (cardStep 0 oneFigureSource) ⟨oneFigureCard, none⟩ reopenRun) =
        some ⟨Bytes.zero 1024, e11SavePath 0 0, true, true⟩ := by
  have hslot : (0 : U32) < e11Max := by decide
  have hboot := oneFigureCard_boot
  set d₁ := e11SaveWrite oneFigureCard (e11SavePath 0 0)
    (journalRecord (Bytes.zero 1056) 0 oneFigureSource 0) 1056 with hd₁
  have hfig₁ : FigIntact d₁ 0 oneFigureSource (Bytes.zero 1024) :=
    (figIntact_write hslot hslot _ _).mpr oneFigureCard_intact
  have hs₁ : Stands (journalCopy d₁ 0 oneFigureSource) 1 (journalBody (Bytes.zero 1056)) :=
    firstSave_stands hslot oneFigureCard_empty _
  set d₂ := e11SaveWrite d₁ (e11SavePath 0 1) (journalRecord (Bytes.zero 1056) 0 oneFigureSource 1)
    1056 with hd₂
  have hfig₂ : FigIntact d₂ 0 oneFigureSource (Bytes.zero 1024) :=
    (figIntact_write hslot hslot _ _).mpr hfig₁
  have hcopy : journalCopy d₂ 0 oneFigureSource = put (journalCopy d₁ 0 oneFigureSource) (1 + 1)
      (.full (1 + 1) (journalBody (Bytes.zero 1056))) := journalCopy_write hslot _ 1056
  have hs₂ := hs₁.commit (by decide) (journalBody (Bytes.zero 1056))
  have hn₂ := (hs₁.put (by decide) (show Attempted (1 + 1)
    (.full (1 + 1) (journalBody (Bytes.zero 1056))) from rfl)).next_ne (by decide)
  rw [← hcopy] at hs₂ hn₂
  have hr₂ : recover (Bytes.zero 1024) (journalCopy d₂ 0 oneFigureSource) =
      some (1 + 1, journalBody (Bytes.zero 1056)) := by
    rcases hs₂.recover (by decide) with ⟨-, hr⟩ | ⟨y, hy, -⟩
    · exact hr
    · exact absurd hy (hn₂ y)
  have hboot₂ := cardStep_boot_ok (s := ⟨d₂, none⟩) hfig₂ hr₂ (Bytes.zero 1056) (Bytes.zero 1056) 0
  have hcut : cardStep 0 oneFigureSource ⟨d₁, some (0 + 1)⟩ (.cut (Bytes.zero 1056) 1056) =
      (⟨d₂, none⟩, [⟨journalBody (Bytes.zero 1056), e11SavePath 0 1, true, false⟩]) := rfl
  have hsave := @cardStep_save_ok 0 oneFigureSource oneFigureCard 0 (Bytes.zero 1056)
    (Bytes.zero 1056)
  rw [← hd₁] at hsave
  constructor
  · simp only [reopenRun, Run.final_cons, Run.final_nil, hboot, hsave, hcut, hboot₂]
    rfl
  · simp only [reopenRun, Run.outputs_cons, Run.outputs_nil, hboot, hsave, hcut, hboot₂]
    rfl

/-- After a reboot has loaded a record that was complete but never acknowledged,
the next save opens the file of the newest acknowledged record. -/
theorem acknowledged_file_reopened :
    ¬ ∀ (slot source : U32) (dump : Bytes 1024) (d : Disk) (es : List CardEvent), slot < e11Max →
      FigIntact d slot source dump → (∀ k, d (e11Name slot (some k)) = none) →
      Run.Every (cardStep slot source) HonestStep ⟨d, none⟩ es →
      ∀ a n, lastAcked (Run.outputs (cardStep slot source) ⟨d, none⟩ es) = some a →
        (Run.final (cardStep slot source) ⟨d, none⟩ es).ram = some n →
          e11SavePath slot n ≠ a.path := by
  intro h
  obtain ⟨hfinal, hout⟩ := reopenRun_final
  refine h 0 oneFigureSource _ oneFigureCard reopenRun (by decide) oneFigureCard_intact
    oneFigureCard_empty reopenRun_honest _ 2 hout hfinal ?_
  rw [e11SavePath_eq, e11SavePath_eq]
  rfl

/-- A load of a figure that has no journal gives the dump, as version 0. -/
theorem e11Load_no_journal {d : Disk} (hfig : FigIntact d slot source dump)
    (hd : ∀ k, d (e11Name slot (some k)) = none) (buffer check : Bytes 1056) (sequence : U32) :
    (e11Load d slot source .ok buffer check sequence).result = 0 ∧
      (e11Load d slot source .ok buffer check sequence).sequence = 0 ∧
      journalBody (e11Load d slot source .ok buffer check sequence).job = dump := by
  have hvirgin : Virgin (journalCopy d slot source) := (fresh_of_empty hd).2.1
  have hload := e11Load_ok hfig buffer check sequence
  rwa [hvirgin.recover_absent (by rw [journalCopy, hd true])] at hload

/-- A load after a first save that left `kept` bytes of its record in the file. -/
theorem e11Load_first_save (hslot : slot < e11Max) {d : Disk}
    (hfig : FigIntact d slot source dump) (hd : ∀ k, d (e11Name slot (some k)) = none)
    (job buffer check : Bytes 1056) (sequence : U32) (kept : ℕ) :
    let after := e11Load
      (e11SaveWrite d (e11SavePath slot 0) (journalRecord job slot source 0) kept)
      slot source .ok buffer check sequence
    if 1056 ≤ kept then
      after.result = 0 ∧ after.sequence = 1 ∧ journalBody after.job = journalBody job
    else after.result = -4 := by
  have hvirgin : Virgin (journalCopy d slot source) := (fresh_of_empty hd).2.1
  have hfig' : FigIntact
    (e11SaveWrite d (e11SavePath slot 0) (journalRecord job slot source 0) kept)
      slot source dump := (figIntact_write hslot hslot _ _).mpr hfig
  have hafter := e11Load_ok hfig' buffer check sequence
  have hcopy := @journalCopy_write d slot source 0 hslot job kept
  have hvirgin' := hvirgin.put (by decide) (writtenCopy_attempted 0 (journalBody job) kept)
  rw [← show (0 : U32) + 1 = 1 from rfl, ← hcopy] at hvirgin'
  have hside : journalCopy (e11SaveWrite d (e11SavePath slot 0) (journalRecord job slot source 0)
      kept) slot source true = writtenCopy 0 (journalBody job) kept := by
    rw [hcopy, ← parity_one (by decide : 0 < 32)]
    exact put_self ..
  by_cases hk : 1056 ≤ kept
  · rw [writtenCopy, if_pos hk] at hside
    have hs := hvirgin'.stands (by decide) hside
    simp only [hk, if_true]
    rcases hs.recover (by decide) with ⟨-, hr⟩ | ⟨y, hy, -⟩
    · rwa [hr] at hafter
    · rw [parity_one (by decide), Bool.not_true, hvirgin'.even] at hy
      cases hy
  · rw [writtenCopy, if_neg hk] at hside
    simp only [hk, if_false]
    rwa [hvirgin'.recover_damaged hside] at hafter

/-- A first save that is cut off: when the whole record was in the file the next
load gives it, as version 1, and otherwise the figure does not load any more,
though its dump is still what it was.  Up to that save a load gives the dump, as
version 0. -/
theorem first_save_cut (hslot : slot < e11Max) {d : Disk}
    (hfig : FigIntact d slot source dump) (hd : ∀ k, d (e11Name slot (some k)) = none)
    (job buffer check : Bytes 1056) (sequence : U32) (kept : ℕ) :
    let before := e11Load d slot source .ok buffer check sequence
    let d' := e11SaveWrite d (e11SavePath slot before.sequence)
      (journalRecord job slot source before.sequence) kept
    let after := e11Load d' slot source .ok buffer check sequence
    (before.result = 0 ∧ before.sequence = 0 ∧ journalBody before.job = dump) ∧
    FigIntact d' slot source dump ∧
    (if 1056 ≤ kept then
        after.result = 0 ∧ after.sequence = 1 ∧ journalBody after.job = journalBody job
      else after.result = -4) := by
  have hbefore := e11Load_no_journal hfig hd buffer check sequence
  refine ⟨hbefore, ?_, ?_⟩
  · exact (figIntact_write hslot hslot _ _).mpr hfig
  · rw [hbefore.2.1]
    exact e11Load_first_save hslot hfig hd job buffer check sequence kept

/-- A first save of the one figure that reaches the card in full leaves a journal, which the next
load reads. -/
theorem first_save_cut_oneFigure :
    let before := e11Load oneFigureCard 0 oneFigureSource .ok (Bytes.zero 1056) (Bytes.zero 1056) 0
    let d' := e11SaveWrite oneFigureCard (e11SavePath 0 before.sequence)
      (journalRecord (Bytes.zero 1056) 0 oneFigureSource before.sequence) 1056
    let after := e11Load d' 0 oneFigureSource .ok (Bytes.zero 1056) (Bytes.zero 1056) 0
    (before.result = 0 ∧ before.sequence = 0 ∧ journalBody before.job = Bytes.zero 1024) ∧
    FigIntact d' 0 oneFigureSource (Bytes.zero 1024) ∧
    (if 1056 ≤ 1056 then
        after.result = 0 ∧ after.sequence = 1 ∧ journalBody after.job =
          journalBody (Bytes.zero 1056)
      else after.result = -4) :=
  first_save_cut (by decide) oneFigureCard_intact oneFigureCard_empty _ _ _ _ _

/-- Power lost right after the truncating open of a first save makes the figure
unloadable. -/
theorem first_save_unloadable :
    ¬ ∀ (slot source : U32) (dump : Bytes 1024) (d : Disk) (job buffer check : Bytes 1056)
        (sequence : U32) (kept : ℕ), slot < e11Max → FigIntact d slot source dump →
      (∀ k, d (e11Name slot (some k)) = none) →
      (e11Load (e11SaveWrite d (e11SavePath slot 0) (journalRecord job slot source 0) kept)
        slot source .ok buffer check sequence).result = 0 := by
  intro h
  have hzero := h 0 oneFigureSource _ oneFigureCard (Bytes.zero 1056) (Bytes.zero 1056)
    (Bytes.zero 1056) 0 0 (by decide) oneFigureCard_intact oneFigureCard_empty
  have hcut := e11Load_first_save (by decide) oneFigureCard_intact oneFigureCard_empty
    (Bytes.zero 1056) (Bytes.zero 1056) (Bytes.zero 1056) 0 0
  simp only [show ¬ 1056 ≤ 0 by decide, if_false] at hcut
  rw [hcut] at hzero
  exact absurd hzero (by decide)

/-- The calls of a save whose record is written in full and whose `os_close` fails. -/
def closeFails : JobIo := { JobIo.ok with closed := -1 }

/-- The first save is written in full and not acknowledged. -/
def unackedRun : List CardEvent :=
  [.boot (Bytes.zero 1056) (Bytes.zero 1056) 0 .ok,
    .save (Bytes.zero 1056) (Bytes.zero 1056) closeFails]

/-- Its journal is complete, and the session still stands on the dump. -/
theorem unackedRun_final :
    Run.final (cardStep 0 oneFigureSource) ⟨oneFigureCard, none⟩ unackedRun =
      ⟨e11SaveWrite oneFigureCard (e11SavePath 0 0)
        (journalRecord (Bytes.zero 1056) 0 oneFigureSource 0) 1056, some 0⟩ := by
  have hcreate : ¬ closeFails.create < 0 := lt_irrefl 0
  have hfails : closeFails.wrote ≠ 1056 ∨ closeFails.closed < 0 := by decide
  have hsave : e11Save oneFigureCard 0 oneFigureSource closeFails (Bytes.zero 1056)
      (Bytes.zero 1056) 0 = (⟨-1, journalRecord (Bytes.zero 1056) 0 oneFigureSource 0,
        Bytes.zero 1056, 0⟩, e11SaveWrite oneFigureCard (e11SavePath 0 0)
          (journalRecord (Bytes.zero 1056) 0 oneFigureSource 0) 1056) := by
    unfold e11Save
    rw [if_neg hcreate, if_pos hfails]
    rfl
  rw [unackedRun, Run.final_cons, oneFigureCard_boot, Run.final_cons, Run.final_nil]
  dsimp only [cardStep]
  rw [hsave]
  rfl

/-- A figure with a complete journal becomes unloadable when the repetition of an
unacknowledged first save is cut off. -/
theorem first_save_retry_unloadable :
    ¬ ∀ (slot source : U32) (dump : Bytes 1024) (d : Disk) (es₁ es₂ : List CardEvent),
      slot < e11Max → FigIntact d slot source dump → (∀ k, d (e11Name slot (some k)) = none) →
      Run.Every (cardStep slot source) HonestStep ⟨d, none⟩ es₁ →
      (∃ k t x, journalCopy (Run.final (cardStep slot source) ⟨d, none⟩ es₁).disk slot source k =
        .full t x) →
      Run.Every (cardStep slot source) HonestStep
        (Run.final (cardStep slot source) ⟨d, none⟩ es₁) es₂ →
      ∀ job check sequence,
        (e11Load (Run.final (cardStep slot source) ⟨d, none⟩ (es₁ ++ es₂)).disk slot source .ok
          job check sequence).result = 0 := by
  intro h
  have hfull : journalCopy (Run.final (cardStep 0 oneFigureSource) ⟨oneFigureCard, none⟩
      unackedRun).disk 0 oneFigureSource (parity (1 : U32)) =
        .full 1 (journalBody (Bytes.zero 1056)) := by
    rw [unackedRun_final]
    exact (firstSave_stands (by decide) oneFigureCard_empty (Bytes.zero 1056)).here
  have hload := h 0 oneFigureSource _ oneFigureCard unackedRun [.cut (Bytes.zero 1056) 0]
    (by decide) oneFigureCard_intact oneFigureCard_empty ⟨JobIo.ok_honest, trivial, trivial⟩
    ⟨_, _, _, hfull⟩ ⟨trivial, trivial⟩ (Bytes.zero 1056) (Bytes.zero 1056) 0
  have hcut := e11Load_first_save (by decide) oneFigureCard_intact oneFigureCard_empty
    (Bytes.zero 1056) (Bytes.zero 1056) (Bytes.zero 1056) 0 0
  have hshort : ¬ 1056 ≤ 0 := by decide
  dsimp only at hcut
  rw [if_neg hshort] at hcut
  rw [Run.final_append, unackedRun_final, Run.final_cons, Run.final_nil] at hload
  dsimp only [cardStep] at hload
  -- the repetition writes over the whole file
  rw [e11SaveWrite, e11SaveWrite, Function.update_idem] at hload
  rw [e11SaveWrite] at hcut
  rw [hcut] at hload
  exact absurd hload (by decide)

/-- Two runs that break the claim of crash safety: the next save opens the file of the
newest acknowledged record, and a figure with a complete journal becomes unloadable. -/
theorem crash_safety_fails :
    (¬ ∀ (slot source : U32) (dump : Bytes 1024) (d : Disk) (es : List CardEvent), slot < e11Max →
      FigIntact d slot source dump → (∀ k, d (e11Name slot (some k)) = none) →
      Run.Every (cardStep slot source) HonestStep ⟨d, none⟩ es →
      ∀ a n, lastAcked (Run.outputs (cardStep slot source) ⟨d, none⟩ es) = some a →
        (Run.final (cardStep slot source) ⟨d, none⟩ es).ram = some n →
          e11SavePath slot n ≠ a.path) ∧
    ¬ ∀ (slot source : U32) (dump : Bytes 1024) (d : Disk) (es₁ es₂ : List CardEvent),
      slot < e11Max → FigIntact d slot source dump → (∀ k, d (e11Name slot (some k)) = none) →
      Run.Every (cardStep slot source) HonestStep ⟨d, none⟩ es₁ →
      (∃ k t x, journalCopy (Run.final (cardStep slot source) ⟨d, none⟩ es₁).disk slot source k =
        .full t x) →
      Run.Every (cardStep slot source) HonestStep
        (Run.final (cardStep slot source) ⟨d, none⟩ es₁) es₂ →
      ∀ job check sequence,
        (e11Load (Run.final (cardStep slot source) ⟨d, none⟩ (es₁ ++ es₂)).disk slot source .ok
          job check sequence).result = 0 :=
  ⟨acknowledged_file_reopened, first_save_retry_unloadable⟩

end Figure
end VirtualPortal
