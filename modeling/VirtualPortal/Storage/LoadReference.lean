/-
# What loading a figure gives, on any card

`e11Reference` says what `e11_load` returns by cases on the three files of a figure,
for any contents and any errors of the calls: the dump, two journals that count or do
not, and the newer one of those that count.  The loop of `e11_load` and its buffers
do not appear in it.  `e11Load_reference` says that the two agree.
-/

import VirtualPortal.Storage.Recovery

namespace VirtualPortal

variable (d : Disk) (slot source : U32)

/-- The result of reading `n` bytes of a file: 0, `-106` when it is missing, `-4` when it is
shorter, or the error of a call. -/
def readResult (path : List U8) (io : ReadIo) (n : ℕ) : Int :=
  if io.opened < 0 then io.opened
  else
    match d path with
    | none => -106
    | some file =>
        if io.got < 0 then io.got
        else if file.length < n then -4
        else if io.closed < 0 then io.closed
        else 0

/-- The contents of a file, empty when it is missing. -/
def fileBytes (path : List U8) : List U8 := (d path).getD []

/-- The first 1024 bytes of the dump. -/
def figBody : Bytes 1024 := fun i => (fileBytes d (e11Name slot none)).getD i.val 0

/-- The record of a journal that counts: it reads in full, and its magic, slot id, source
hash, body hash and header hash match. -/
def countingRecord (io : ReadIo) (k : Bool) : Option (Bytes 1056) :=
  let path := e11Name slot (some k)
  if readResult d path io 1056 = 0 ∧ e11Valid (fileRecord (fileBytes d path)) slot source then
    some (fileRecord (fileBytes d path))
  else none

/-- A journal is short, or reads in full and does not count. -/
def JournalDamaged (io : ReadIo) (k : Bool) : Prop :=
  let path := e11Name slot (some k)
  readResult d path io 1056 = -4 ∨
    (readResult d path io 1056 = 0 ∧ ¬ e11Valid (fileRecord (fileBytes d path)) slot source)

instance (io : ReadIo) (k : Bool) : Decidable (JournalDamaged d slot source io k) :=
  inferInstanceAs (Decidable (_ ∨ _))

/-- The error of reading a journal that ends the load. -/
def journalError (io : ReadIo) (k : Bool) : Option Int :=
  let r := readResult d (e11Name slot (some k)) io 1056
  if r < 0 ∧ r ≠ -106 ∧ r ≠ -4 then some r else none

/-- The newer one of two records, the first one when the sequence numbers are the same. -/
def newerRecord (p₀ p₁ : Bytes 1056) : Bytes 1056 :=
  if 0 < (be32 p₁.byte 4 - be32 p₀.byte 4).toInt then p₁ else p₀

/-- The record of the newest journal that counts. -/
def newestRecord (io : JobIo) : Option (Bytes 1056) :=
  match countingRecord d slot source (io.read 1) false,
    countingRecord d slot source (io.read 2) true with
  | some p₀, some p₁ => some (newerRecord p₀ p₁)
  | some p₀, none => some p₀
  | none, p₁ => p₁

/-- The result of a load: an error, or the figure bytes and the sequence number. -/
def e11Reference (io : JobIo) : Except Int (Bytes 1024 × U32) :=
  let r := readResult d (e11Name slot none) (io.read 0) 1024
  if r < 0 then .error r
  else if e11Hash (figBody d slot).byte 1024 ≠ source then .error (-4)
  else
    match journalError d slot (io.read 1) false, journalError d slot (io.read 2) true with
    | some e, _ => .error e
    | none, some e => .error e
    | none, none =>
        match newestRecord d slot source io with
        | some p => .ok (journalBody p, be32 p.byte 4)
        | none =>
            if JournalDamaged d slot source (io.read 1) false ∨
                JournalDamaged d slot source (io.read 2) true then .error (-4)
            else .ok (figBody d slot, 0)

/-- What a load leaves in the buffers agrees with a result. -/
def JobResult.Agrees (r : JobResult) : Except Int (Bytes 1024 × U32) → Prop
  | .error e => r.result = e
  | .ok (body, sequence) => r.result = 0 ∧ journalBody r.job = body ∧ r.sequence = sequence

variable {d slot source}

/-- `e11_read` returns that result. -/
theorem e11Read_result {m : ℕ} (d : Disk) (path : List U8) (io : ReadIo) (p : Bytes m)
    (off n : ℕ) :
    (e11Read d path io p off n).1 = readResult d path io n := by
  unfold readResult
  cases hf : d path with
  | none => rw [e11Read_none hf]
  | some file =>
      rw [e11Read_some hf]
      dsimp only
      by_cases ho : io.opened < 0
      · rw [if_pos ho, if_pos ho]
      rw [if_neg ho, if_neg ho]
      by_cases hg : io.got < 0
      · rw [if_pos hg, if_pos hg]
      rw [if_neg hg, if_neg hg]
      by_cases hn : n ≤ file.length
      · rw [if_pos hn, if_neg (not_lt.mpr hn)]
      · rw [if_neg hn, if_pos (not_le.mp hn)]

theorem readResult_le_zero (d : Disk) (path : List U8) (io : ReadIo) (n : ℕ) :
    readResult d path io n ≤ 0 := by
  rw [← e11Read_result d path io (.zero 0) 0 n]
  exact e11Read_le_zero

/-- A journal that reads in full is in the buffer. -/
theorem e11Read_record {path : List U8} {io : ReadIo} {p : Bytes 1056}
    (h : readResult d path io 1056 = 0) :
    (e11Read d path io p 0 1056).2 = fileRecord (fileBytes d path) := by
  obtain ⟨file, hf, -, hread⟩ := e11Read_eq_zero ((e11Read_result _ _ _ _ _ _).trans h)
  rw [hread, Bytes.copy_all]
  unfold fileRecord fileBytes
  rw [hf]
  rfl

/-- A dump that reads in full is in the buffer. -/
theorem e11Read_fig {io : ReadIo} {p : Bytes 1056}
    (h : readResult d (e11Name slot none) io 1024 = 0) :
    journalBody (e11Read d (e11Name slot none) io p 32 1024).2 = figBody d slot := by
  obtain ⟨file, hf, -, hread⟩ := e11Read_eq_zero ((e11Read_result _ _ _ _ _ _).trans h)
  rw [hread, journalBody_copy]
  unfold figBody fileBytes
  rw [hf]
  rfl

/-! ### The loop -/

section Loop

variable {io : ReadIo} {k : Bool} {s : LoadScan}

/-- An error other than `-106` and `-4` ends the load. -/
theorem e11LoadJournal_error (source : U32) (s : LoadScan) {e : Int}
    (h : journalError d slot io k = some e) :
    (e11LoadJournal d slot source io k s).1 = e ∧ e < 0 := by
  unfold journalError at h
  dsimp only at h
  split_ifs at h with herror
  obtain rfl := Option.some.inj h
  refine ⟨?_, herror.1⟩
  rw [← e11Read_result _ _ _ s.check 0 _] at herror ⊢
  unfold e11LoadJournal
  dsimp only
  rw [if_pos herror]

/-- Any other result of a read is one of three. -/
theorem readResult_of_no_error (h : journalError d slot io k = none) :
    readResult d (e11Name slot (some k)) io 1056 = 0 ∨
      readResult d (e11Name slot (some k)) io 1056 = -106 ∨
      readResult d (e11Name slot (some k)) io 1056 = -4 := by
  have hle := readResult_le_zero d (e11Name slot (some k)) io 1056
  unfold journalError at h
  dsimp only at h
  split_ifs at h with herror
  omega

/-- A journal that does not count only shows as damaged. -/
theorem e11LoadJournal_none (h : journalError d slot io k = none)
    (hcount : countingRecord d slot source io k = none) :
    (e11LoadJournal d slot source io k s).1 = 0 ∧
      (e11LoadJournal d slot source io k s).2.job = s.job ∧
      (e11LoadJournal d slot source io k s).2.best = s.best ∧
      (e11LoadJournal d slot source io k s).2.found = s.found ∧
      ((e11LoadJournal d slot source io k s).2.invalid = true ↔
        s.invalid = true ∨ JournalDamaged d slot source io k) := by
  have hread := e11Read_result d (e11Name slot (some k)) io s.check 0 1056
  unfold countingRecord at hcount
  unfold JournalDamaged e11LoadJournal
  dsimp only at hcount ⊢
  rw [hread]
  obtain h0 | h106 | h4 := readResult_of_no_error h
  · rw [e11Read_record h0]
    have hinvalid : ¬ e11Valid (fileRecord (fileBytes d (e11Name slot (some k)))) slot source := by
      intro hvalid
      rw [if_pos ⟨h0, hvalid⟩] at hcount
      exact nomatch hcount
    simp [h0, hinvalid]
  · simp [h106]
  · simp [h4]

/-- A journal that counts is taken if it is the first one or newer. -/
theorem e11LoadJournal_some {p : Bytes 1056}
    (hcount : countingRecord d slot source io k = some p) :
    (e11LoadJournal d slot source io k s).1 = 0 ∧
      (e11LoadJournal d slot source io k s).2.found = true ∧
      (s.found = true ∧ ¬ 0 < (be32 p.byte 4 - s.best).toInt ∧
          (e11LoadJournal d slot source io k s).2.job = s.job ∧
          (e11LoadJournal d slot source io k s).2.best = s.best ∨
        ¬ (s.found = true ∧ ¬ 0 < (be32 p.byte 4 - s.best).toInt) ∧
          (e11LoadJournal d slot source io k s).2.job = p ∧
          (e11LoadJournal d slot source io k s).2.best = be32 p.byte 4) := by
  have hread := e11Read_result d (e11Name slot (some k)) io s.check 0 1056
  unfold countingRecord at hcount
  unfold e11LoadJournal
  dsimp only at hcount ⊢
  rw [hread]
  split_ifs at hcount with hcounts
  obtain rfl := Option.some.inj hcount
  obtain ⟨h0, hvalid⟩ := hcounts
  rw [e11Read_record h0]
  cases hfound : s.found with
  | false => simp [h0, hvalid]
  | true =>
      by_cases hnew : 0 < (be32 (fileRecord (fileBytes d (e11Name slot (some k)))).byte 4 -
          s.best).toInt
      · simp [h0, hvalid, hnew, -BitVec.toInt_sub]
      · simp [h0, hvalid, hnew, -BitVec.toInt_sub]

end Loop

/-- The two rounds find the newest record that counts. -/
theorem rounds_newest {io : JobIo} {s : LoadScan} (hfound : s.found = false)
    (hinvalid : s.invalid = false) (h₀ : journalError d slot (io.read 1) false = none)
    (h₁ : journalError d slot (io.read 2) true = none) :
    let s₁ := (e11LoadJournal d slot source (io.read 1) false s).2
    let s₂ := (e11LoadJournal d slot source (io.read 2) true s₁).2
    match newestRecord d slot source io with
    | some p => s₂.found = true ∧ s₂.job = p ∧ s₂.best = be32 p.byte 4
    | none =>
        s₂.found = false ∧ s₂.job = s.job ∧ s₂.best = s.best ∧
          (s₂.invalid = true ↔ JournalDamaged d slot source (io.read 1) false ∨
            JournalDamaged d slot source (io.read 2) true) := by
  intro s₁ s₂
  unfold newestRecord
  cases hc₀ : countingRecord d slot source (io.read 1) false with
  | none =>
      obtain ⟨-, hjob, hbest, hfound₁, hinvalid₁⟩ := e11LoadJournal_none (s := s) h₀ hc₀
      rw [hfound] at hfound₁
      simp only [hinvalid, Bool.false_eq_true, false_or] at hinvalid₁
      cases hc₁ : countingRecord d slot source (io.read 2) true with
      | none =>
          obtain ⟨-, hjob₂, hbest₂, hfound₂, hinvalid₂⟩ := e11LoadJournal_none (s := s₁) h₁ hc₁
          rw [hinvalid₁] at hinvalid₂
          exact ⟨hfound₂.trans hfound₁, hjob₂.trans hjob, hbest₂.trans hbest, hinvalid₂⟩
      | some p₁ =>
          obtain ⟨-, hfound₂, ⟨hold, -⟩ | ⟨-, hjob₂, hbest₂⟩⟩ := e11LoadJournal_some (s := s₁) hc₁
          · exact absurd (hold.symm.trans hfound₁) (by decide)
          · exact ⟨hfound₂, hjob₂, hbest₂⟩
  | some p₀ =>
      have hfirst : s₁.found = true ∧ s₁.job = p₀ ∧ s₁.best = be32 p₀.byte 4 := by
        obtain ⟨-, hfound₁, ⟨hold, -⟩ | ⟨-, hjob, hbest⟩⟩ := e11LoadJournal_some (s := s) hc₀
        · exact absurd (hold.symm.trans hfound) (by decide)
        · exact ⟨hfound₁, hjob, hbest⟩
      obtain ⟨hfound₁, hjob, hbest⟩ := hfirst
      cases hc₁ : countingRecord d slot source (io.read 2) true with
      | none =>
          obtain ⟨-, hjob₂, hbest₂, hfound₂, -⟩ := e11LoadJournal_none (s := s₁) h₁ hc₁
          exact ⟨hfound₂.trans hfound₁, hjob₂.trans hjob, hbest₂.trans hbest⟩
      | some p₁ =>
          dsimp only
          unfold newerRecord
          obtain ⟨-, hfound₂, ⟨-, hold, hjob₂, hbest₂⟩ | ⟨hnew, hjob₂, hbest₂⟩⟩ :=
            e11LoadJournal_some (s := s₁) hc₁
          · rw [hbest] at hold
            rw [if_neg hold]
            exact ⟨hfound₂, hjob₂.trans hjob, hbest₂.trans hbest⟩
          · rw [hbest, not_and, not_not] at hnew
            rw [if_pos (hnew hfound₁)]
            exact ⟨hfound₂, hjob₂, hbest₂⟩

/-- The rest of a load, once the dump is in the buffer. -/
theorem rounds_reference {io : JobIo} {s : LoadScan} {sequence : U32} (hfound : s.found = false)
    (hinvalid : s.invalid = false) (hbest : s.best = 0)
    (hbody : journalBody s.job = figBody d slot) :
    let p₁ := e11LoadJournal d slot source (io.read 1) false s
    let p₂ := e11LoadJournal d slot source (io.read 2) true p₁.2
    (if p₁.1 < 0 then ⟨p₁.1, p₁.2.job, p₁.2.check, sequence⟩
      else if p₂.1 < 0 then ⟨p₂.1, p₂.2.job, p₂.2.check, sequence⟩
      else if p₂.2.invalid ∧ ¬ p₂.2.found then ⟨-4, p₂.2.job, p₂.2.check, sequence⟩
      else ⟨0, p₂.2.job, p₂.2.check, p₂.2.best⟩ : JobResult).Agrees
      (match journalError d slot (io.read 1) false, journalError d slot (io.read 2) true with
        | some e, _ => .error e
        | none, some e => .error e
        | none, none =>
            match newestRecord d slot source io with
            | some p => .ok (journalBody p, be32 p.byte 4)
            | none =>
                if JournalDamaged d slot source (io.read 1) false ∨
                    JournalDamaged d slot source (io.read 2) true then .error (-4)
                else .ok (figBody d slot, 0)) := by
  have hzero : ∀ (io : ReadIo) (k : Bool) (s : LoadScan), journalError d slot io k = none →
      (e11LoadJournal d slot source io k s).1 = 0 := by
    intro io k s h
    cases hc : countingRecord d slot source io k with
    | none => exact (e11LoadJournal_none h hc).1
    | some p => exact (e11LoadJournal_some hc).1
  intro p₁ p₂
  cases h₀ : journalError d slot (io.read 1) false with
  | some e =>
      obtain ⟨hres, hneg⟩ := e11LoadJournal_error source s h₀
      rw [if_pos (show p₁.1 < 0 from hres ▸ hneg)]
      exact hres
  | none =>
      rw [if_neg (show ¬ p₁.1 < 0 by rw [hzero _ _ s h₀]; decide)]
      cases h₁ : journalError d slot (io.read 2) true with
      | some e =>
          obtain ⟨hres, hneg⟩ := e11LoadJournal_error source p₁.2 h₁
          rw [if_pos (show p₂.1 < 0 from hres ▸ hneg)]
          exact hres
      | none =>
          rw [if_neg (show ¬ p₂.1 < 0 by rw [hzero _ _ p₁.2 h₁]; decide)]
          have hnewest := @rounds_newest d slot source io s hfound hinvalid h₀ h₁
          dsimp only at hnewest ⊢
          cases hrecord : newestRecord d slot source io with
          | some p =>
              rw [hrecord] at hnewest
              obtain ⟨hfound₂, hjob, hseq⟩ := hnewest
              rw [if_neg fun h => h.2 hfound₂]
              exact ⟨rfl, congrArg journalBody hjob, hseq⟩
          | none =>
              rw [hrecord] at hnewest
              obtain ⟨hfound₂, hjob, hseq, hdamaged⟩ := hnewest
              by_cases hd : JournalDamaged d slot source (io.read 1) false ∨
                  JournalDamaged d slot source (io.read 2) true
              · rw [if_pos ⟨hdamaged.mpr hd, by rw [hfound₂]; decide⟩]
                simp only [if_pos hd]
                exact rfl
              · rw [if_neg fun h => hd (hdamaged.mp h.1)]
                simp only [if_neg hd]
                exact ⟨rfl, (congrArg journalBody hjob).trans hbody, hseq.trans hbest⟩

/-! ### The load -/

/-- `e11_load` gives the result of the reference. -/
theorem e11Load_agrees (d : Disk) (slot source : U32) (io : JobIo) (job check : Bytes 1056)
    (sequence : U32) :
    (e11Load d slot source io job check sequence).Agrees (e11Reference d slot source io) := by
  have hread := e11Read_result d (e11Name slot none) (io.read 0) job 32 1024
  have hle := readResult_le_zero d (e11Name slot none) (io.read 0) 1024
  unfold e11Load e11Reference
  dsimp only
  rw [hread, e11Hash_body]
  by_cases hr : readResult d (e11Name slot none) (io.read 0) 1024 < 0
  · rw [if_pos hr, if_pos hr]
    exact rfl
  have hbody := e11Read_fig (p := job) (le_antisymm hle (not_lt.mp hr))
  have hrounds := @rounds_reference d slot source io
    ⟨(e11Read d (e11Name slot none) (io.read 0) job 32 1024).2, check, 0, false, false⟩ sequence
    rfl rfl rfl hbody
  rw [if_neg hr, if_neg hr, hbody]
  -- as a variable the hash is not evaluated
  generalize e11Hash (figBody d slot).byte 1024 = hash
  by_cases hhash : hash ≠ source
  · rw [if_pos hhash, if_pos hhash]
    exact rfl
  · rw [if_neg hhash, if_neg hhash]
    exact hrounds

/-- The figure bytes are those of a journal of this figure and this source. -/
def OwnJournal (d : Disk) (slot source : U32) (body : Bytes 1024) : Prop :=
  ∃ k file, d (e11Name slot (some k)) = some file ∧ 1056 ≤ file.length ∧
    be32 (fileRecord file).byte 8 = slot ∧ be32 (fileRecord file).byte 12 = source ∧
    body = journalBody (fileRecord file)

theorem countingRecord_own {io : ReadIo} {k : Bool} {p : Bytes 1056}
    (h : countingRecord d slot source io k = some p) :
    OwnJournal d slot source (journalBody p) := by
  unfold countingRecord at h
  dsimp only at h
  split_ifs at h with hcounts
  obtain rfl := Option.some.inj h
  obtain ⟨h0, hvalid⟩ := hcounts
  obtain ⟨file, hf, hlength, -⟩ :=
    e11Read_eq_zero ((e11Read_result _ _ _ (.zero 1056) 0 _).trans h0)
  have hbytes : fileBytes d (e11Name slot (some k)) = file := by
    unfold fileBytes
    rw [hf]
    rfl
  rw [hbytes] at hvalid ⊢
  exact ⟨k, file, hf, hlength, hvalid.2.1, hvalid.2.2.1, rfl⟩

theorem newestRecord_own {io : JobIo} {p : Bytes 1056}
    (h : newestRecord d slot source io = some p) : OwnJournal d slot source (journalBody p) := by
  unfold newestRecord at h
  split at h
  · next p₀ p₁ h₀ h₁ =>
      obtain rfl := Option.some.inj h
      unfold newerRecord
      split_ifs
      · exact countingRecord_own h₁
      · exact countingRecord_own h₀
  · next p₀ h₀ _ =>
      obtain rfl := Option.some.inj h
      exact countingRecord_own h₀
  · next h₁ => exact countingRecord_own h

/-- Whatever is on the card and whatever the calls return, `e11_load` gives the result of
the reference, and figure bytes it returns are those of the dump or of a journal of this
figure and this source. -/
theorem e11Load_reference (d : Disk) (slot source : U32) (io : JobIo) (job check : Bytes 1056)
    (sequence : U32) :
    (e11Load d slot source io job check sequence).Agrees (e11Reference d slot source io) ∧
      ((e11Load d slot source io job check sequence).result = 0 →
        journalBody (e11Load d slot source io job check sequence).job = figBody d slot ∨
          OwnJournal d slot source
            (journalBody (e11Load d slot source io job check sequence).job)) := by
  have hagrees := e11Load_agrees d slot source io job check sequence
  refine ⟨hagrees, fun hok => ?_⟩
  generalize e11Load d slot source io job check sequence = r at hagrees hok
  unfold e11Reference at hagrees
  dsimp only at hagrees
  -- an error of the reference is negative, so only its two successes are left
  by_cases hr : readResult d (e11Name slot none) (io.read 0) 1024 < 0
  · rw [if_pos hr] at hagrees
    exact absurd (hagrees.symm.trans hok) hr.ne
  rw [if_neg hr] at hagrees
  generalize e11Hash (figBody d slot).byte 1024 = hash at hagrees
  by_cases hhash : hash ≠ source
  · rw [if_pos hhash] at hagrees
    exact absurd (hagrees.symm.trans hok) (by decide)
  rw [if_neg hhash] at hagrees
  split at hagrees
  · next e h₀ =>
      have := (e11LoadJournal_error source ⟨r.job, r.check, 0, false, false⟩ h₀).2
      exact absurd (hagrees.symm.trans hok) this.ne
  · next e _ h₁ =>
      have := (e11LoadJournal_error source ⟨r.job, r.check, 0, false, false⟩ h₁).2
      exact absurd (hagrees.symm.trans hok) this.ne
  · split at hagrees
    · next p hp =>
        obtain ⟨-, hbody, -⟩ := hagrees
        exact .inr (hbody ▸ newestRecord_own hp)
    · split_ifs at hagrees
      · exact absurd (hagrees.symm.trans hok) (by decide)
      · exact .inl hagrees.2.1

end VirtualPortal
