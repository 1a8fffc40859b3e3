/-
# Loading recovers from two copies

What `e11_load` and `e11_save` do to the two journals of a figure, in the terms
of `VirtualPortal.Alternating`: loading recovers (`e11Load_sound`,
`e11Load_ok`), saving overwrites the side of the next sequence number
(`e11Save_disk`, `journalCopy_write`), and a job for one figure leaves the files
of every other figure alone (`journalCopy_write_other`).
-/

import VirtualPortal.Storage.Journal

namespace VirtualPortal

open Alternating

/-! ### The record -/

section Record

variable (job : Bytes 1056) (slot source sequence : U32)

/-- Past the header a saved record is the figure. -/
theorem byte_journalRecord {i : ℕ} (hi : 32 ≤ i) :
    (journalRecord job slot source sequence).byte i = job.byte i := by
  rw [journalRecord, Bytes.byte_copy_of_le _ _ (by omega)]
  simp only [Bytes.byte_putBe32_of_le, show ∀ k ≤ 32, k ≤ i by omega, Nat.reduceAdd,
    Nat.reduceLeDiff]

theorem journalRecord_body :
    journalBody (journalRecord job slot source sequence) = journalBody job := by
  funext i
  have hb : ∀ p : Bytes 1056, journalBody p i = p.byte (32 + i.val) := fun p => by
    rw [Bytes.byte_of_lt _ (by omega)]; rfl
  rw [hb, hb, byte_journalRecord _ _ _ _ (by omega)]

theorem journalRecord_sequence :
    be32 (journalRecord job slot source sequence).byte 4 = sequence + 1 := by
  simp (disch := decide) only [journalRecord, Bytes.be32_copy_of_disjoint,
    Bytes.be32_putBe32_of_disjoint, Bytes.be32_putBe32]

/-- A saved record passes the check it will be read back with. -/
theorem journalRecord_valid : e11Valid (journalRecord job slot source sequence) slot source := by
  refine ⟨?_, ?_, ?_, ?_, ?_⟩
  · simp (disch := decide) only [journalRecord, Bytes.be32_copy_of_disjoint,
      Bytes.be32_putBe32_of_disjoint, Bytes.be32_putBe32]
  · simp (disch := decide) only [journalRecord, Bytes.be32_copy_of_disjoint,
      Bytes.be32_putBe32_of_disjoint, Bytes.be32_putBe32]
  · simp (disch := decide) only [journalRecord, Bytes.be32_copy_of_disjoint,
      Bytes.be32_putBe32_of_disjoint, Bytes.be32_putBe32]
  · have hbody : e11Hash (fun i => (journalRecord job slot source sequence).byte (32 + i)) 1024 =
        e11Hash (fun i => job.byte (32 + i)) 1024 :=
      e11Hash_congr fun i _ => byte_journalRecord _ _ _ _ (by omega)
    rw [hbody]
    simp (disch := decide) only [journalRecord, Bytes.be32_copy_of_disjoint,
      Bytes.be32_putBe32_of_disjoint, Bytes.be32_putBe32]
    refine e11Hash_congr fun i _ => ?_
    simp only [Bytes.byte_putBe32_of_le, Nat.reduceAdd, show ∀ k ≤ 32, k ≤ 32 + i by omega,
      Nat.reduceLeDiff]
  · have hhead : e11Hash (journalRecord job slot source sequence).byte 20 = e11Hash
        ((((((job.putBe32 0 0x45313152).putBe32 4 (sequence + 1)).putBe32 8 slot).putBe32 12
          source).putBe32 16 _).byte) 20 :=
      e11Hash_congr fun i hi => by
        rw [journalRecord, Bytes.byte_copy_of_lt _ _ (by omega), Bytes.byte_putBe32_of_lt _ _ hi]
    rw [hhead]
    simp (disch := decide) only [journalRecord, Bytes.be32_copy_of_disjoint, Bytes.be32_putBe32]

end Record

/-! ### Loading -/

section Loading

variable {d : Disk} {slot source : U32}

/-- The newest record found so far. -/
def LoadScan.view (s : LoadScan) : Option (U32 × Bytes 1024) :=
  if s.found then some (s.best, journalBody s.job) else none

/-- The scan after looking at one more copy. -/
def absorb (c : Copy 32 (Bytes 1024)) (v : Option (U32 × Bytes 1024)) (invalid : Bool) :
    Option (U32 × Bytes 1024) × Bool :=
  match c with
  | .absent => (v, invalid)
  | .damaged => (v, true)
  | .full t x =>
      match v with
      | some (b, y) => (if newer t b then some (t, x) else some (b, y), invalid)
      | none => (some (t, x), invalid)

/-- The outcomes of reading a journal that is there. -/
theorem e11Read_journal {path : List U8} {io : ReadIo} {file : List U8} (check : Bytes 1056)
    (hf : d path = some file) :
    e11Read d path io check 0 1056 =
      if io.opened < 0 then (io.opened, check)
      else if io.got < 0 then (io.got, check.copy 0 io.junk 1056)
      else if 1056 ≤ file.length then (if io.closed < 0 then io.closed else 0, fileRecord file)
      else (-4, check.copy 0 (fun i => file.getD i 0) file.length) := by
  have hrec : fileRecord file = check.copy 0 (fun i => file.getD i 0) 1056 :=
    (Bytes.copy_all check fun i => file.getD i 0).symm
  rw [e11Read_some hf, hrec]

/-- One round of the loop looks at one copy, unless a call fails. -/
theorem e11LoadJournal_absorb {io : ReadIo} (hio : io.Honest) (k : Bool) (s : LoadScan) :
    (e11LoadJournal d slot source io k s).1 < 0 ∨
      ((e11LoadJournal d slot source io k s).1 = 0 ∧
        ((e11LoadJournal d slot source io k s).2.view,
          (e11LoadJournal d slot source io k s).2.invalid) =
            absorb (journalCopy d slot source k) s.view s.invalid) := by
  obtain ⟨⟨ho₁, ho₂⟩, ⟨hg₁, hg₂⟩, hc₁, hc₂⟩ := hio
  unfold e11LoadJournal journalCopy
  cases hf : d (e11Name slot (some k)) with
  | none =>
      rw [e11Read_none hf]
      by_cases ho : io.opened < 0
      · left; simp [ho, ho₁, ho₂]
      · right; simp [ho, absorb, LoadScan.view]
  | some file =>
      rw [e11Read_journal s.check hf]
      by_cases ho : io.opened < 0
      · left; simp [ho, ho₁, ho₂]
      by_cases hg : io.got < 0
      · left; simp [ho, hg, hg₁, hg₂]
      by_cases hn : 1056 ≤ file.length
      · by_cases hc : io.closed < 0
        · left; simp [ho, hg, hn, hc, hc₁, hc₂]
        right
        by_cases hv : e11Valid (fileRecord file) slot source
        · cases hfound : s.found with
          | false => simp [ho, hg, hn, hc, hv, hfound, absorb, LoadScan.view]
          | true =>
              by_cases hnew : 0 < (be32 (fileRecord file).byte 4 - s.best).toInt
              · simp [ho, hg, hn, hc, hv, hfound, hnew, absorb, LoadScan.view, newer,
                  -BitVec.toInt_sub]
              · simp [ho, hg, hn, hc, hv, hfound, hnew, absorb, LoadScan.view, newer,
                  -BitVec.toInt_sub]
        · simp [ho, hg, hn, hc, hv, absorb, LoadScan.view]
      · right; simp [ho, hg, hn, absorb, LoadScan.view]

/-- Without failing calls the loop goes on. -/
theorem e11LoadJournal_ok (k : Bool) (s : LoadScan) :
    (e11LoadJournal d slot source .ok k s).1 = 0 := by
  unfold e11LoadJournal
  cases hf : d (e11Name slot (some k)) with
  | none =>
      rw [e11Read_none hf]
      simp [ReadIo.ok]
  | some file =>
      rw [e11Read_journal s.check hf]
      by_cases hn : 1056 ≤ file.length
      · simp [ReadIo.ok, hn]
        split_ifs <;> rfl
      · simp [ReadIo.ok, hn]

/-- Nothing found and nothing damaged seen: both copies are missing. -/
theorem absorb_absorb_invalid (base : Bytes 1024) (c : Bool → Copy 32 (Bytes 1024)) :
    recover base c =
      match absorb (c true) (absorb (c false) none false).1 (absorb (c false) none false).2 with
      | (some r, _) => some r
      | (none, true) => none
      | (none, false) => some (0, base) := by
  unfold recover newest
  cases c false <;> cases c true <;> first | rfl | skip
  simp only [absorb]
  split_ifs <;> rfl

/-- The job buffer after `n` figure bytes have been read to offset 32. -/
theorem journalBody_copy (job : Bytes 1056) (src : ℕ → U8) :
    journalBody (job.copy 32 src 1024) = fun i => src i.val := by
  funext i
  have h : 32 ≤ 32 + i.val ∧ 32 + i.val < 32 + 1024 := by omega
  simp only [journalBody, Bytes.copy, h, and_self, if_true, Nat.add_sub_cancel_left]

theorem e11Hash_body (p : Bytes 1056) :
    e11Hash (fun i => p.byte (32 + i)) 1024 = e11Hash (journalBody p).byte 1024 :=
  e11Hash_congr fun i hi => by
    rw [Bytes.byte_of_lt _ (by omega), Bytes.byte_of_lt _ hi]
    rfl

/-- As long as nothing is found the buffer keeps the dump. -/
theorem e11LoadJournal_not_found {io : ReadIo} {k : Bool} {s : LoadScan}
    (h : (e11LoadJournal d slot source io k s).2.found = false) :
    s.found = false ∧ (e11LoadJournal d slot source io k s).2.job = s.job ∧
      (e11LoadJournal d slot source io k s).2.best = s.best := by
  unfold e11LoadJournal at h ⊢
  generalize e11Read d (e11Name slot (some k)) io s.check 0 1056 = r at h ⊢
  dsimp only at h ⊢
  split_ifs at h ⊢ <;> exact ⟨h, rfl, rfl⟩

/-- What the loop of `e11_load` makes of the two copies. -/
structure Scanned (d : Disk) (slot source : U32) (dump : Bytes 1024) (s : LoadScan) : Prop where
  absorbed : (s.view, s.invalid) =
    absorb (journalCopy d slot source true)
      (absorb (journalCopy d slot source false) none false).1
      (absorb (journalCopy d slot source false) none false).2
  unfound : s.found = false → s.best = 0 ∧ journalBody s.job = dump

/-- A finished scan holds what recovery gives. -/
theorem Scanned.recover {dump : Bytes 1024} {s : LoadScan} (h : Scanned d slot source dump s) :
    Alternating.recover dump (journalCopy d slot source) =
      if s.invalid ∧ ¬ s.found then none else some (s.best, journalBody s.job) := by
  rw [absorb_absorb_invalid, ← h.absorbed, LoadScan.view]
  cases hf : s.found with
  | true => simp
  | false =>
      obtain ⟨hb, hj⟩ := h.unfound hf
      cases hi : s.invalid <;> simp [hb, hj]

/-- Two rounds without a failing call are a finished scan. -/
theorem scanned_of_rounds {io₀ io₁ : ReadIo} (h₀ : io₀.Honest) (h₁ : io₁.Honest)
    (job check : Bytes 1056)
    (hr₀ : (e11LoadJournal d slot source io₀ false ⟨job, check, 0, false, false⟩).1 = 0)
    (hr₁ : (e11LoadJournal d slot source io₁ true
      (e11LoadJournal d slot source io₀ false ⟨job, check, 0, false, false⟩).2).1 = 0) :
    Scanned d slot source (journalBody job) (e11LoadJournal d slot source io₁ true
      (e11LoadJournal d slot source io₀ false ⟨job, check, 0, false, false⟩).2).2 := by
  set s₁ := (e11LoadJournal d slot source io₀ false ⟨job, check, 0, false, false⟩).2 with hs₁
  have ha₀ := (e11LoadJournal_absorb h₀ false ⟨job, check, 0, false, false⟩).resolve_left
    (by rw [hr₀]; decide)
  have ha₁ := (e11LoadJournal_absorb h₁ true s₁).resolve_left (by rw [hr₁]; decide)
  refine ⟨?_, fun hf => ?_⟩
  · rw [ha₁.2]
    have hv : (s₁.view, s₁.invalid) = absorb (journalCopy d slot source false) none false := ha₀.2
    rw [← hv]
  · obtain ⟨hf₁, hj₁, hb₁⟩ := e11LoadJournal_not_found hf
    obtain ⟨-, hj₀, hb₀⟩ := e11LoadJournal_not_found hf₁
    exact ⟨hb₁.trans hb₀, by rw [hj₁, hj₀]⟩

/-- `e11_load` once the dump has been read and its hash is right. -/
theorem e11Load_of_dump {io : JobIo} {job job₀ check : Bytes 1056} {sequence : U32}
    (hr : e11Read d (e11Name slot none) (io.read 0) job 32 1024 = (0, job₀))
    (hh : e11Hash (fun i => job₀.byte (32 + i)) 1024 = source) :
    e11Load d slot source io job check sequence =
      let r₁ := e11LoadJournal d slot source (io.read 1) false ⟨job₀, check, 0, false, false⟩
      let r₂ := e11LoadJournal d slot source (io.read 2) true r₁.2
      if r₁.1 < 0 then ⟨r₁.1, r₁.2.job, r₁.2.check, sequence⟩
      else if r₂.1 < 0 then ⟨r₂.1, r₂.2.job, r₂.2.check, sequence⟩
      else if r₂.2.invalid ∧ ¬ r₂.2.found then ⟨-4, r₂.2.job, r₂.2.check, sequence⟩
      else ⟨0, r₂.2.job, r₂.2.check, r₂.2.best⟩ := by
  simp only [e11Load, hr, hh, lt_irrefl, ne_eq, not_true_eq_false, if_false]

/-- The dump that a successful first read has put into the job buffer. -/
theorem figIntact_of_read {io : ReadIo} {job job₀ : Bytes 1056}
    (hr : e11Read d (e11Name slot none) io job 32 1024 = (0, job₀))
    (hh : e11Hash (fun i => job₀.byte (32 + i)) 1024 = source) :
    FigIntact d slot source (journalBody job₀) := by
  obtain ⟨file, hf, hn, hj⟩ := e11Read_eq_zero (by rw [hr])
  rw [hr] at hj
  refine ⟨⟨file, hf, hn, ?_⟩, ?_⟩
  · rw [show job₀ = job.copy 32 (fun i => file.getD i 0) 1024 from hj, journalBody_copy]
  · rw [← e11Hash_body, hh]

/-- Loading that reports success has recovered from the two copies of a figure
whose dump is intact, whatever calls failed on the way. -/
theorem e11Load_sound {io : JobIo} (hio : io.Honest) {job check : Bytes 1056} {sequence : U32}
    (h : (e11Load d slot source io job check sequence).result = 0) :
    ∃ dump, FigIntact d slot source dump ∧
      Alternating.recover dump (journalCopy d slot source) =
        some ((e11Load d slot source io job check sequence).sequence,
          journalBody (e11Load d slot source io job check sequence).job) := by
  have hle : (e11Read d (e11Name slot none) (io.read 0) job 32 1024).1 ≤ 0 := e11Read_le_zero
  rcases hr : e11Read d (e11Name slot none) (io.read 0) job 32 1024 with ⟨r, job₀⟩
  rw [hr] at hle
  by_cases h₀ : r < 0
  · simp only [e11Load, hr, h₀, if_true] at h
    omega
  obtain rfl : r = 0 := by dsimp only at hle; omega
  by_cases hh : e11Hash (fun i => job₀.byte (32 + i)) 1024 = source
  · refine ⟨journalBody job₀, figIntact_of_read hr hh, ?_⟩
    rw [e11Load_of_dump hr hh] at h ⊢
    dsimp only at h ⊢
    split_ifs at h ⊢ with h₁ h₂ h₃
    · dsimp only at h; omega
    · dsimp only at h; omega
    · dsimp only at h; omega
    · have hr₁ := (@e11LoadJournal_absorb d slot source (io.read 1) (hio 1) false
        ⟨job₀, check, 0, false, false⟩).resolve_left h₁
      have hr₂ := (e11LoadJournal_absorb (hio 2) true _).resolve_left h₂
      rw [(scanned_of_rounds (hio 1) (hio 2) job₀ check hr₁.1 hr₂.1).recover, if_neg h₃]
  · simp only [e11Load, hr, hh, lt_irrefl, ne_eq, not_false_eq_true, if_true, if_false] at h
    omega

/-- Loading reports success or an error. -/
theorem e11Load_le_zero {io : JobIo} {job check : Bytes 1056} {sequence : U32} :
    (e11Load d slot source io job check sequence).result ≤ 0 := by
  have hread := @e11Read_le_zero 1056 d (e11Name slot none) (io.read 0) job 32 1024
  unfold e11Load
  dsimp only
  split_ifs <;> dsimp only <;> omega

/-- Loading a figure whose dump is intact gives what recovery gives, and `-4`
where recovery fails. -/
theorem e11Load_ok {dump : Bytes 1024} (hfig : FigIntact d slot source dump)
    (job check : Bytes 1056) (sequence : U32) :
    match Alternating.recover dump (journalCopy d slot source) with
    | some (t, x) =>
        (e11Load d slot source .ok job check sequence).result = 0 ∧
          (e11Load d slot source .ok job check sequence).sequence = t ∧
          journalBody (e11Load d slot source .ok job check sequence).job = x
    | none => (e11Load d slot source .ok job check sequence).result = -4 := by
  obtain ⟨⟨file, hf, hn, hdump⟩, hhash⟩ := hfig
  have hr : e11Read d (e11Name slot none) (JobIo.ok.read 0) job 32 1024 =
    (0, job.copy 32 (fun i => file.getD i 0) 1024) := e11Read_ok hf hn
  have hbody : journalBody (job.copy 32 (fun i => file.getD i 0) 1024) = dump := by
    rw [journalBody_copy, hdump]
  have hh : e11Hash (fun i => (job.copy 32 (fun i => file.getD i 0) 1024).byte (32 + i)) 1024 =
      source := by rw [e11Hash_body, hbody, hhash]
  set s₀ : LoadScan := ⟨job.copy 32 (fun i => file.getD i 0) 1024, check, 0, false, false⟩
  have hr₁ : (e11LoadJournal d slot source .ok false s₀).1 = 0 := e11LoadJournal_ok false s₀
  have hr₂ : (e11LoadJournal d slot source .ok true
    (e11LoadJournal d slot source .ok false s₀).2).1 = 0 := e11LoadJournal_ok true _
  have hs := (scanned_of_rounds ReadIo.ok_honest ReadIo.ok_honest _ check hr₁ hr₂).recover
  rw [hbody] at hs
  rw [hs, e11Load_of_dump hr hh]
  dsimp only [JobIo.ok]
  rw [hr₁, hr₂]
  simp only [lt_irrefl, if_false]
  split_ifs <;> simp

end Loading

/-! ### Saving -/

section Saving

variable {d : Disk} {slot source sequence : U32}

/-- The side a save writes to is the side of the next sequence number. -/
theorem e11SavePath_eq (slot sequence : U32) :
    e11SavePath slot sequence = e11Name slot (some (parity (sequence + 1))) := by
  have h : ∀ v : U32, decide (v &&& 1 = 1) = parity v := by
    intro v
    have hv : v &&& 1 = 1 ↔ v.toNat % 2 = 1 := by
      rw [← BitVec.toNat_inj]
      simp [Nat.and_one_is_mod]
    have hb : v.getLsbD 0 = decide (v.toNat % 2 = 1) := by
      rw [BitVec.getLsbD, Nat.testBit_zero]
    rw [parity, hb, decide_eq_decide, hv]
  rw [e11SavePath, h]

/-- The copy a write of `kept` bytes leaves: the whole version, or a damaged
one. -/
def writtenCopy (sequence : U32) (x : Bytes 1024) (kept : ℕ) : Copy 32 (Bytes 1024) :=
  if 1056 ≤ kept then .full (sequence + 1) x else .damaged

theorem writtenCopy_attempted (sequence : U32) (x : Bytes 1024) (kept : ℕ) :
    Attempted (sequence + 1) (writtenCopy sequence x kept) := by
  unfold writtenCopy
  split_ifs
  · rfl
  · trivial

/-- A whole record read back from its file. -/
theorem fileRecord_ofFn (p : Bytes 1056) {kept : ℕ} (h : 1056 ≤ kept) :
    fileRecord ((List.ofFn p).take kept) = p := by
  funext i
  have hi : i.val < ((List.ofFn p).take kept).length := by
    rw [List.length_take, List.length_ofFn]; omega
  rw [fileRecord, List.getD_eq_getElem?_getD, List.getElem?_eq_getElem hi, Option.getD_some,
    List.getElem_take, List.getElem_ofFn]

/-- A save attempt overwrites the copy of the next sequence number. -/
theorem journalCopy_write (hslot : slot < e11Max) (job : Bytes 1056) (kept : ℕ) :
    journalCopy (e11SaveWrite d (e11SavePath slot sequence)
        (journalRecord job slot source sequence) kept) slot source =
      put (journalCopy d slot source) (sequence + 1)
        (writtenCopy sequence (journalBody job) kept) := by
  funext k
  rw [e11SavePath_eq]
  by_cases hk : k = parity (sequence + 1)
  · subst hk
    rw [put_self, journalCopy, e11SaveWrite, Function.update_self, writtenCopy]
    have hlen : ((List.ofFn (journalRecord job slot source sequence)).take kept).length =
        min kept 1056 := by rw [List.length_take, List.length_ofFn]
    by_cases h : 1056 ≤ kept
    · have hle : 1056 ≤ min kept 1056 := by omega
      simp only [hlen, hle, fileRecord_ofFn _ h, journalRecord_valid, journalRecord_sequence,
        journalRecord_body, h, and_self, if_true]
    · have hle : ¬ 1056 ≤ min kept 1056 := by omega
      simp only [hlen, hle, h, false_and, if_false]
  · rw [put_of_ne _ _ hk, journalCopy, e11SaveWrite, Function.update_of_ne, journalCopy]
    intro he
    obtain ⟨-, he⟩ := e11Name_inj hslot hslot he
    exact hk (Option.some.inj he)

/-- A save leaves the journals of other figures alone. -/
theorem journalCopy_write_other {slot' source' : U32} (hslot : slot < e11Max)
    (hslot' : slot' < e11Max) (hne : slot' ≠ slot) (record : Bytes 1056) (kept : ℕ) :
    journalCopy (e11SaveWrite d (e11SavePath slot sequence) record kept) slot' source' =
      journalCopy d slot' source' := by
  funext k
  rw [e11SavePath_eq, journalCopy, e11SaveWrite, Function.update_of_ne, journalCopy]
  intro he
  exact hne (e11Name_inj hslot' hslot he).1

/-- A save never writes to a dump. -/
theorem e11SavePath_ne_fig {slot' : U32} (hslot : slot < e11Max) (hslot' : slot' < e11Max) :
    e11Name slot' none ≠ e11SavePath slot sequence := by
  intro he
  rw [e11SavePath_eq] at he
  exact absurd (e11Name_inj hslot' hslot he).2 (by simp)

theorem figIntact_write {slot' source' : U32} {dump : Bytes 1024} (hslot : slot < e11Max)
    (hslot' : slot' < e11Max) (record : Bytes 1056) (kept : ℕ) :
    FigIntact (e11SaveWrite d (e11SavePath slot sequence) record kept) slot' source' dump ↔
      FigIntact d slot' source' dump := by
  have h : e11SaveWrite d (e11SavePath slot sequence) record kept (e11Name slot' none) =
      d (e11Name slot' none) :=
    Function.update_of_ne (e11SavePath_ne_fig hslot hslot') _ _
  constructor
  · rintro ⟨hf, hh⟩
    rw [h] at hf
    exact ⟨hf, hh⟩
  · rintro ⟨hf, hh⟩
    rw [← h] at hf
    exact ⟨hf, hh⟩

/-- The card after a save: untouched when the open failed, else overwritten by
some prefix of the record; and a save that reports success has left all of
it. -/
theorem e11Save_disk (io : JobIo) (job check : Bytes 1056) :
    (e11Save d slot source io job check sequence).2 =
        (if io.create < 0 then d
          else e11SaveWrite d (e11SavePath slot sequence)
            (journalRecord job slot source sequence) io.kept) ∧
      ((e11Save d slot source io job check sequence).1.result = 0 →
        ¬ io.create < 0 ∧ 1056 ≤ io.kept) := by
  unfold e11Save
  by_cases hc : io.create < 0
  · simp only [hc, if_true, true_and]
    intro h
    omega
  simp only [hc, if_false, not_false_eq_true, true_and]
  by_cases hw : io.wrote ≠ 1056 ∨ io.closed < 0
  · simp only [hw, if_true, true_and]
    intro h
    rcases hw with hw | hw <;> split_ifs at h <;> omega
  simp only [hw, if_false]
  rcases hr : e11Read (e11SaveWrite d (e11SavePath slot sequence)
    (journalRecord job slot source sequence) io.kept) (e11SavePath slot sequence) (io.read 0) check
    0 1056 with ⟨r, check'⟩
  have hle := congrArg Prod.fst hr ▸ e11Read_le_zero
  dsimp only
  split_ifs with h₁ h₂
  · exact ⟨rfl, fun h => by dsimp only at h; omega⟩
  · refine ⟨rfl, fun _ => ?_⟩
    -- the read-back found 1056 bytes, so the write left them
    obtain ⟨file, hf, hn, -⟩ := e11Read_eq_zero (by rw [hr]; dsimp only; omega)
    rw [e11SaveWrite, Function.update_self] at hf
    rw [← Option.some.inj hf, List.length_take, List.length_ofFn] at hn
    omega
  · exact ⟨rfl, fun h => by dsimp only at h; omega⟩

/-- Saving reports success or an error. -/
theorem e11Save_le_zero {io : JobIo} {job check : Bytes 1056} :
    (e11Save d slot source io job check sequence).1.result ≤ 0 := by
  unfold e11Save
  dsimp only
  split_ifs <;> dsimp only <;> omega

/-- A save none of whose calls fails is acknowledged. -/
theorem e11Save_ok (job check : Bytes 1056) :
    (e11Save d slot source .ok job check sequence).1.result = 0 := by
  have hf : e11SaveWrite d (e11SavePath slot sequence) (journalRecord job slot source sequence)
      JobIo.ok.kept (e11SavePath slot sequence) =
        some ((List.ofFn (journalRecord job slot source sequence)).take 1056) := by
    rw [e11SaveWrite, Function.update_self]; rfl
  have hn : 1056 ≤ ((List.ofFn (journalRecord job slot source sequence)).take 1056).length := by
    rw [List.length_take, List.length_ofFn]; omega
  have hrec : check.copy 0 (fun i =>
      ((List.ofFn (journalRecord job slot source sequence)).take 1056).getD i 0) 1056 =
        journalRecord job slot source sequence :=
    (Bytes.copy_all check _).trans (fileRecord_ofFn _ (le_refl 1056))
  have hr := @e11Read_ok _ _ _ check 0 1056 _ hf hn
  rw [hrec] at hr
  have hc : ¬ JobIo.ok.create < 0 := by decide
  have hw : ¬ (JobIo.ok.wrote ≠ 1056 ∨ JobIo.ok.closed < 0) := by decide
  simp only [e11Save, hc, hw, if_false, show JobIo.ok.read 0 = .ok from rfl, hr, lt_irrefl,
    implies_true, not_true_eq_false]

end Saving

end VirtualPortal
