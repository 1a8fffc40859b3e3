/-
# One figure across power cuts

The life of one figure's journals: `e11_save` attempts of arbitrary snapshots
that return or are cut off by a loss of power, and power-ups that run
`e11_load`.  An `Attempt` is a save and how it ended, and `eligible` is what a
reader may hope for: the snapshot of the last acknowledged attempt and the later
ones whose record was written in full.

`Safe` is the invariant that carries the result, on top of `Stands` of
`VirtualPortal.Alternating`: the sequence number in RAM is the one stood on.
Before the first complete journal a figure is only `Fresh`.
-/

import VirtualPortal.Storage.Recovery
import VirtualPortal.Lib.Run

namespace VirtualPortal

open Alternating

/-- The card and, while the figure is loaded, its `e11_job_sequence`. -/
structure CardState where
  disk : Disk
  ram : Option U32

/-- What can happen to the journals of a figure. -/
inductive CardEvent where
  /-- `e11_save` of the snapshot in `job` returns. -/
  | save (job check : Bytes 1056) (io : JobIo)
  /-- Power is lost in `e11_save` when `kept` bytes are in the file. -/
  | cut (job : Bytes 1056) (kept : ℕ)
  /-- Power comes (back) and `e11_load` runs. -/
  | boot (job check : Bytes 1056) (sequence : U32) (io : JobIo)

/-- One save attempt: the snapshot, the file it opens, whether its record was
written in full and whether `e11_save` reported success. -/
structure Attempt where
  data : Bytes 1024
  path : List U8
  full : Bool
  acked : Bool

/-- A step in the life of figure `slot`. -/
def cardStep (slot source : U32) (s : CardState) : CardEvent → CardState × List Attempt
  | .save job check io =>
      match s.ram with
      | none => (s, [])
      | some n =>
          let r := e11Save s.disk slot source io job check n
          (⟨r.2, some (if r.1.result = 0 then n + 1 else n)⟩,
            [⟨journalBody job, e11SavePath slot n, ¬ io.create < 0 ∧ 1056 ≤ io.kept,
              r.1.result = 0⟩])
  | .cut job kept =>
      match s.ram with
      | none => (s, [])
      | some n =>
          (⟨e11SaveWrite s.disk (e11SavePath slot n) (journalRecord job slot source n) kept, none⟩,
            [⟨journalBody job, e11SavePath slot n, 1056 ≤ kept, false⟩])
  | .boot job check sequence io =>
      let r := e11Load s.disk slot source io job check sequence
      (⟨s.disk, if r.result = 0 then some r.sequence else none⟩, [])

/-- A power-up reads the card honestly. -/
def CardEvent.Honest : CardEvent → Prop
  | .boot _ _ _ io => io.Honest
  | _ => True

/-- The last acknowledged snapshot and the later ones written in full, given
those before the attempt. -/
def eligibleAfter (E : List (Bytes 1024)) (a : Attempt) : List (Bytes 1024) :=
  if a.acked then [a.data] else if a.full then E ++ [a.data] else E

/-- The snapshot of the last acknowledged attempt and the later snapshots whose
record was written in full. -/
def eligible (as : List Attempt) : List (Bytes 1024) := as.foldl eligibleAfter []

theorem eligible_append (as bs : List Attempt) :
    eligible (as ++ bs) = bs.foldl eligibleAfter (eligible as) := List.foldl_append ..

section Figure

variable {slot source : U32} {dump : Bytes 1024}

/-- The card stands on a snapshot of `E`, the other side holds no snapshot
outside `E` that is newer, and RAM, if the figure is loaded, has the number of
the version stood on. -/
def Safe (slot source : U32) (s : CardState) (E : List (Bytes 1024)) : Prop :=
  ∃ t x, (s.ram = none ∨ s.ram = some t) ∧ Stands (journalCopy s.disk slot source) t x ∧ x ∈ E ∧
    ∀ y, journalCopy s.disk slot source (!parity t) = .full (t + 1) y → y ∈ E

/-- No journal has been acknowledged or loaded yet: RAM, if the figure is
loaded, has the number `0` of its dump. -/
def Fresh (slot source : U32) (s : CardState) (E : List (Bytes 1024)) : Prop :=
  (∀ n, s.ram = some n → n = 0) ∧ Virgin (journalCopy s.disk slot source) ∧
    ∀ t y, journalCopy s.disk slot source true = .full t y → y ∈ E

/-- A card without journals, before the figure is loaded. -/
theorem fresh_of_empty {d : Disk} (h : ∀ k, d (e11Name slot (some k)) = none) :
    Fresh slot source ⟨d, none⟩ [] := by
  have hc : ∀ k, journalCopy d slot source k = .absent := fun k => by rw [journalCopy, h k]
  refine ⟨fun n hn => absurd hn (by simp), ⟨hc false, fun t y ht => ?_⟩, fun t y ht => ?_⟩
  · rw [hc true] at ht; cases ht
  · rw [hc true] at ht; cases ht

/-- Where there are no journals a load recovers the dump. -/
theorem recover_of_empty {d : Disk} (h : ∀ k, d (e11Name slot (some k)) = none)
    (dump : Bytes 1024) : recover dump (journalCopy d slot source) = some (0, dump) := by
  have hv : Virgin (journalCopy d slot source) := (fresh_of_empty h).2.1
  exact hv.recover_absent (by rw [journalCopy, h])

/-- A complete journal found while the figure is not loaded is stood on. -/
theorem Fresh.safe {s : CardState} {E : List (Bytes 1024)} (h : Fresh slot source s E)
    (hram : s.ram = none) {k : Bool} {t : U32} {y : Bytes 1024}
    (hk : journalCopy s.disk slot source k = .full t y) : Safe slot source s E := by
  obtain ⟨-, hv, hE⟩ := h
  cases k with
  | false => rw [hv.even] at hk; cases hk
  | true =>
      refine ⟨1, y, Or.inl hram, hv.stands (by decide) hk, hE t y hk, fun z hz => ?_⟩
      rw [parity_one (by decide), Bool.not_true, hv.even] at hz
      cases hz

/-- An attempt that is not acknowledged leaves the version stood on in place. -/
theorem Safe.attempt {d d' : Disk} {n : U32} {E : List (Bytes 1024)} {x : Bytes 1024} {kept : ℕ}
    (h : Safe slot source ⟨d, some n⟩ E)
    (hd : journalCopy d' slot source =
      put (journalCopy d slot source) (n + 1) (writtenCopy n x kept))
    {ram : Option U32} (hram : ram = none ∨ ram = some n) :
    Safe slot source ⟨d', ram⟩ (if 1056 ≤ kept then E ++ [x] else E) := by
  obtain ⟨t, y, ht, hs, hy, hE⟩ := h
  obtain rfl : n = t := by simpa using ht
  refine ⟨n, y, hram, ?_, ?_, fun z hz => ?_⟩
  · rw [hd]
    exact hs.put (by decide) (writtenCopy_attempted ..)
  · split_ifs
    · exact List.mem_append_left _ hy
    · exact hy
  · rw [hd, ← parity_succ (by decide) n, put_self, writtenCopy] at hz
    split_ifs at hz ⊢ with hk
    obtain ⟨-, rfl⟩ := Copy.full.inj hz
    exact List.mem_append_right _ (List.mem_singleton_self _)

/-- An acknowledged attempt is stood on. -/
theorem Safe.acked {d d' : Disk} {n : U32} {E : List (Bytes 1024)} {x : Bytes 1024} {kept : ℕ}
    (h : Safe slot source ⟨d, some n⟩ E)
    (hd : journalCopy d' slot source =
      put (journalCopy d slot source) (n + 1) (writtenCopy n x kept)) (hk : 1056 ≤ kept) :
    Safe slot source ⟨d', some (n + 1)⟩ [x] := by
  obtain ⟨t, y, ht, hs, -, -⟩ := h
  obtain rfl : n = t := by simpa using ht
  rw [writtenCopy, if_pos hk] at hd
  have hs' : Stands (journalCopy d' slot source) n y := by
    rw [hd]; exact hs.put (by decide) (show Attempted (n + 1) (.full (n + 1) x) from rfl)
  refine ⟨n + 1, x, Or.inr rfl, ?_, List.mem_singleton_self x,
    fun z hz => absurd hz (hs'.next_ne (by decide) z)⟩
  rw [hd]
  exact hs.commit (by decide) x

/-- A power-up loads the version stood on or the finished one after it. -/
theorem Safe.boot {s : CardState} {E : List (Bytes 1024)} (h : Safe slot source s E)
    {io : JobIo} (hio : io.Honest) (job check : Bytes 1056) (sequence : U32) :
    Safe slot source (cardStep slot source s (.boot job check sequence io)).1 E := by
  obtain ⟨t, x, -, hs, hx, hE⟩ := h
  unfold cardStep
  dsimp only
  by_cases hr : (e11Load s.disk slot source io job check sequence).result = 0
  · obtain ⟨dump, -, hrec⟩ := e11Load_sound hio hr
    rw [if_pos hr]
    rcases hs.recover (by decide) with ⟨-, hrec'⟩ | ⟨y, hy, hrec'⟩
    · rw [hrec] at hrec'
      obtain ⟨ht, -⟩ := Prod.mk.inj (Option.some.inj hrec')
      exact ⟨t, x, Or.inr (by rw [ht]), hs, hx, hE⟩
    · rw [hrec] at hrec'
      obtain ⟨ht, -⟩ := Prod.mk.inj (Option.some.inj hrec')
      exact ⟨t + 1, y, Or.inr (by rw [ht]), hs.next (by decide) hy, hE y hy,
        fun z hz => absurd hz (hs.next_ne (by decide) z)⟩
  · rw [if_neg hr]
    exact ⟨t, x, Or.inl rfl, hs, hx, hE⟩

/-- A save writes its record in full and is acknowledged, or its attempt fails, or it
opens no file. -/
theorem cardStep_save {d : Disk} {n : U32} (hslot : slot < e11Max) (E : List (Bytes 1024))
    (job check : Bytes 1056) (io : JobIo) :
    let r := cardStep slot source ⟨d, some n⟩ (.save job check io)
    (∃ d' kept, journalCopy d' slot source =
        put (journalCopy d slot source) (n + 1) (writtenCopy n (journalBody job) kept) ∧
      (1056 ≤ kept ∧ r.1 = ⟨d', some (n + 1)⟩ ∧ r.2.foldl eligibleAfter E = [journalBody job] ∨
        (∀ a ∈ r.2, a.acked = false) ∧ r.1 = ⟨d', some n⟩ ∧
          r.2.foldl eligibleAfter E = if 1056 ≤ kept then E ++ [journalBody job] else E)) ∨
      (∀ a ∈ r.2, a.acked = false) ∧ r.1 = ⟨d, some n⟩ ∧ r.2.foldl eligibleAfter E = E := by
  obtain ⟨hdisk, hack⟩ := @e11Save_disk d slot source n io job check
  have hd := @journalCopy_write d slot source n hslot job io.kept
  by_cases hr : (e11Save d slot source io job check n).1.result = 0
  · obtain ⟨hc, hk⟩ := hack hr
    rw [if_neg hc] at hdisk
    exact Or.inl ⟨_, _, hd, Or.inl ⟨hk, by simp [cardStep, hr, hdisk],
      by simp [cardStep, eligibleAfter, hr]⟩⟩
  by_cases hc : io.create < 0
  · rw [if_pos hc] at hdisk
    exact Or.inr ⟨by simp [cardStep, hr], by simp [cardStep, hr, hdisk],
      by simp [cardStep, eligibleAfter, hr, hc]⟩
  · rw [if_neg hc] at hdisk
    exact Or.inl ⟨_, _, hd, Or.inr ⟨by simp [cardStep, hr], by simp [cardStep, hr, hdisk],
      by simp [cardStep, eligibleAfter, hr, Int.not_lt.mp hc]⟩⟩

/-- Every step of a figure that has a complete journal keeps one. -/
theorem Safe.step {s : CardState} {E : List (Bytes 1024)} (hslot : slot < e11Max)
    (h : Safe slot source s E) (e : CardEvent) (he : e.Honest) :
    Safe slot source (cardStep slot source s e).1
      ((cardStep slot source s e).2.foldl eligibleAfter E) := by
  obtain ⟨d, ram⟩ := s
  cases e with
  | boot job check sequence io => exact h.boot he job check sequence
  | cut job kept =>
      cases ram with
      | none => exact h
      | some n =>
          have hd := @journalCopy_write d slot source n hslot job kept
          have h' := h.attempt hd (Or.inl rfl)
          simpa [cardStep, eligibleAfter] using h'
  | save job check io =>
      cases ram with
      | none => exact h
      | some n =>
          rcases @cardStep_save slot source d n hslot E job check io with
            ⟨d', kept, hd, ⟨hk, hs, hE⟩ | ⟨-, hs, hE⟩⟩ | ⟨-, hs, hE⟩
          · rw [hs, hE]
            exact h.acked hd hk
          · rw [hs, hE]
            exact h.attempt hd (Or.inr rfl)
          · rw [hs, hE]
            exact h

/-- A power-up that finds a complete journal stands on it. -/
theorem Fresh.boot_of_full {s : CardState} {E : List (Bytes 1024)} (h : Fresh slot source s E)
    {k : Bool} {t : U32} {y : Bytes 1024} (hk : journalCopy s.disk slot source k = .full t y)
    {io : JobIo} (hio : io.Honest) (job check : Bytes 1056) (sequence : U32) :
    Safe slot source (cardStep slot source s (.boot job check sequence io)).1 E := by
  have h' : Fresh slot source ⟨s.disk, none⟩ E := ⟨fun n hn => (nomatch hn), h.2⟩
  exact (h'.safe rfl hk).boot hio job check sequence

/-- An attempt before the first acknowledged one. -/
theorem Fresh.attempt {d d' : Disk} {n : U32} {E : List (Bytes 1024)} {x : Bytes 1024} {kept : ℕ}
    (h : Fresh slot source ⟨d, some n⟩ E)
    (hd : journalCopy d' slot source =
      put (journalCopy d slot source) (n + 1) (writtenCopy n x kept))
    {ram : Option U32} (hram : ram = none ∨ ram = some n) :
    Fresh slot source ⟨d', ram⟩ (if 1056 ≤ kept then E ++ [x] else E) := by
  obtain ⟨hn, hv, hE⟩ := h
  obtain rfl : n = 0 := hn n rfl
  have hp : parity (0 + 1 : U32) = true := by decide
  refine ⟨?_, ?_, fun t z hz => ?_⟩
  · rcases hram with rfl | rfl
    · exact fun m hm => (nomatch hm)
    · exact hn
  · rw [hd]
    exact hv.put (by decide) (writtenCopy_attempted ..)
  · rw [hd, ← hp, put_self, writtenCopy] at hz
    split_ifs at hz ⊢ with hk
    obtain ⟨-, rfl⟩ := Copy.full.inj hz
    exact List.mem_append_right _ (List.mem_singleton_self _)

/-- The first acknowledged save is stood on. -/
theorem Fresh.acked {d d' : Disk} {n : U32} {E : List (Bytes 1024)} {x : Bytes 1024} {kept : ℕ}
    (h : Fresh slot source ⟨d, some n⟩ E)
    (hd : journalCopy d' slot source =
      put (journalCopy d slot source) (n + 1) (writtenCopy n x kept)) (hk : 1056 ≤ kept) :
    Safe slot source ⟨d', some (n + 1)⟩ [x] := by
  have hf := h.attempt hd (Or.inr rfl)
  obtain rfl : n = 0 := h.1 n rfl
  have hp : parity (0 + 1 : U32) = true := by decide
  have hfull : journalCopy d' slot source true = .full 1 x := by
    rw [hd, ← hp, put_self, writtenCopy, if_pos hk]; rfl
  refine ⟨1, x, Or.inr rfl, hf.2.1.stands (by decide) hfull, List.mem_singleton_self x,
    fun z hz => ?_⟩
  rw [parity_one (by decide), Bool.not_true, hf.2.1.even] at hz
  cases hz

/-- Every step before the first acknowledged or loaded journal keeps the figure
fresh or makes it safe. -/
theorem Fresh.step {s : CardState} {E : List (Bytes 1024)} (hslot : slot < e11Max)
    (h : Fresh slot source s E) (e : CardEvent) (he : e.Honest) :
    (Fresh slot source (cardStep slot source s e).1
        ((cardStep slot source s e).2.foldl eligibleAfter E) ∧
      ∀ a ∈ (cardStep slot source s e).2, a.acked = false) ∨
      Safe slot source (cardStep slot source s e).1
        ((cardStep slot source s e).2.foldl eligibleAfter E) := by
  obtain ⟨d, ram⟩ := s
  cases e with
  | boot job check sequence io =>
      by_cases hr : (e11Load d slot source io job check sequence).result = 0
      · obtain ⟨dump, -, hrec⟩ := e11Load_sound he hr
        rcases h.2.1.reload (by decide) hrec with ⟨ht, -, -⟩ | ⟨-, hs⟩
        · left
          refine ⟨⟨fun n hn => ?_, h.2⟩, fun a ha => (nomatch ha)⟩
          simp only [cardStep, hr, if_true, ht] at hn
          exact (Option.some.inj hn).symm
        · exact Or.inr (h.boot_of_full hs.here he job check sequence)
      · left
        refine ⟨⟨fun n hn => ?_, h.2⟩, fun a ha => (nomatch ha)⟩
        simp only [cardStep, hr, if_false] at hn
        cases hn
  | cut job kept =>
      cases ram with
      | none => exact Or.inl ⟨h, fun a ha => (nomatch ha)⟩
      | some n =>
          have hd := @journalCopy_write d slot source n hslot job kept
          have h' := h.attempt hd (Or.inl rfl)
          left
          refine ⟨?_, by simp [cardStep]⟩
          simpa [cardStep, eligibleAfter] using h'
  | save job check io =>
      cases ram with
      | none => exact Or.inl ⟨h, fun a ha => (nomatch ha)⟩
      | some n =>
          rcases @cardStep_save slot source d n hslot E job check io with
            ⟨d', kept, hd, ⟨hk, hs, hE⟩ | ⟨hacked, hs, hE⟩⟩ | ⟨hacked, hs, hE⟩
          · right
            rw [hs, hE]
            exact h.acked hd hk
          · left
            rw [hs, hE]
            exact ⟨h.attempt hd (Or.inr rfl), hacked⟩
          · left
            rw [hs, hE]
            exact ⟨h, hacked⟩

/-- The condition on a run: power-ups read the card honestly. -/
def HonestStep (_ : CardState) (e : CardEvent) : Prop := e.Honest

/-- A figure that has a complete journal keeps one over a whole run. -/
theorem Safe.run (hslot : slot < e11Max) {s : CardState} {as : List Attempt} {es : List CardEvent}
    (hes : Run.Every (cardStep slot source) HonestStep s es)
    (h : Safe slot source s (eligible as)) :
    Safe slot source (Run.final (cardStep slot source) s es)
      (eligible (as ++ Run.outputs (cardStep slot source) s es)) :=
  Run.outputs_of_every (P := fun s l => Safe slot source s (eligible l))
    (fun s l e he h => by rw [eligible_append]; exact h.step hslot e he) hes h

/-- Whatever happens to a figure that starts without journals, it is safe, or
still fresh with no save acknowledged. -/
theorem fresh_or_safe_run (hslot : slot < e11Max) {d : Disk}
    (hd : ∀ k, d (e11Name slot (some k)) = none) {es : List CardEvent}
    (hes : Run.Every (cardStep slot source) HonestStep ⟨d, none⟩ es) :
    (Fresh slot source (Run.final (cardStep slot source) ⟨d, none⟩ es)
        (eligible (Run.outputs (cardStep slot source) ⟨d, none⟩ es)) ∧
      ∀ a ∈ Run.outputs (cardStep slot source) ⟨d, none⟩ es, a.acked = false) ∨
    Safe slot source (Run.final (cardStep slot source) ⟨d, none⟩ es)
      (eligible (Run.outputs (cardStep slot source) ⟨d, none⟩ es)) := by
  have h := Run.outputs_of_every (l := [])
    (P := fun s l => (Fresh slot source s (eligible l) ∧ ∀ a ∈ l, a.acked = false) ∨
      Safe slot source s (eligible l))
    (fun s l e he h => by
      rw [eligible_append]
      rcases h with ⟨h, hl⟩ | h
      · refine (h.step hslot e he).imp_left fun ⟨h', hl'⟩ => ⟨h', fun a ha => ?_⟩
        rcases List.mem_append.mp ha with ha | ha
        · exact hl a ha
        · exact hl' a ha
      · exact Or.inr (h.step hslot e he)) hes
    (Or.inl ⟨fresh_of_empty hd, fun a ha => (nomatch ha)⟩)
  simpa only [List.nil_append] using h

/-- No step touches the dump. -/
theorem figIntact_step {slot' source' : U32} (hslot : slot < e11Max) (hslot' : slot' < e11Max)
    (s : CardState) (e : CardEvent) (h : FigIntact s.disk slot' source' dump) :
    FigIntact (cardStep slot source s e).1.disk slot' source' dump := by
  obtain ⟨d, ram⟩ := s
  cases e with
  | boot job check sequence io => exact h
  | cut job kept =>
      cases ram with
      | none => exact h
      | some n => exact (figIntact_write hslot hslot' _ _).mpr h
  | save job check io =>
      cases ram with
      | none => exact h
      | some n =>
          have hdisk := (@e11Save_disk d slot source n io job check).1
          simp only [cardStep, hdisk]
          split_ifs
          · exact h
          · exact (figIntact_write hslot hslot' _ _).mpr h

end Figure
end VirtualPortal
