/-
# Files on the SD card

`plugin/source/e12_storage.h`: `e11_hash`, `e11_name` and `e11_read`, over the
IOS file calls they make.

The card is a map from paths to file contents.  What the calls of one disk job
return is not up to the code, so a job takes it as an argument (`JobIo`): a
negative `opened`, `got` or `closed` is the error that call gives.  A read that
succeeds gives what the file holds, up to its end; opening a file that is not
there gives `-106`; opening for writing truncates, and the write leaves the
first `kept` bytes of the record in the file whatever it returns.
-/

import VirtualPortal.Lib.Bytes
import Mathlib.Data.List.Basic
import Mathlib.Data.List.TakeWhile

namespace VirtualPortal

/-- The card: the contents of each file, by path. -/
abbrev Disk := List U8 → Option (List U8)

/-- What the calls of one `e11_read` return; `junk` is what a failing read
leaves in the buffer. -/
structure ReadIo where
  opened : Int
  got : Int
  closed : Int
  junk : ℕ → U8

/-- Every call of the read succeeds. -/
def ReadIo.ok : ReadIo := ⟨0, 0, 0, fun _ => 0⟩

/-- No call of the read reports an error that the code takes for a missing or a
short file. -/
structure ReadIo.Honest (io : ReadIo) : Prop where
  opened : io.opened ≠ -4 ∧ io.opened ≠ -106
  got : io.got ≠ -4 ∧ io.got ≠ -106
  closed : io.closed ≠ -4 ∧ io.closed ≠ -106

/-- What the OS calls of one disk job return. -/
structure JobIo where
  threadId : Int
  rights : Int
  mountOpen : Int
  mountIoctl : Int
  read : ℕ → ReadIo
  create : Int
  kept : ℕ
  wrote : Int
  closed : Int

/-- Every call of the job succeeds and the whole record is written. -/
def JobIo.ok : JobIo := ⟨0, 0, 0, 0, fun _ => .ok, 0, 1056, 1056, 0⟩

/-- The reads of the job are honest. -/
def JobIo.Honest (io : JobIo) : Prop := ∀ k, (io.read k).Honest

theorem ReadIo.ok_honest : ReadIo.ok.Honest := ⟨by decide, by decide, by decide⟩

theorem JobIo.ok_honest : JobIo.ok.Honest := fun _ => ReadIo.ok_honest

/-- `e11_hash`: 32-bit FNV-1a over `n` bytes. -/
def e11Hash (p : ℕ → U8) (n : ℕ) : U32 :=
  (List.range n).foldl (fun h i => (h ^^^ (p i).setWidth 32) * 16777619) 2166136261

theorem e11Hash_congr {p q : ℕ → U8} {n : ℕ} (h : ∀ i < n, p i = q i) :
    e11Hash p n = e11Hash q n := by
  unfold e11Hash
  refine List.foldl_ext _ _ _ fun a i hi => ?_
  rw [h i (List.mem_range.mp hi)]

/-! ### Paths -/

/-- The bytes of a string literal. -/
def ascii (s : String) : List U8 := s.toList.map fun c => BitVec.ofNat 8 c.toNat

/-- `'0' + n` -/
def digit (n : U32) : U8 := (48 + n).setWidth 8

/-- The catalogue accepts ids below this bound. -/
def e11Max : U32 := 640

/-- The buffer `e11_name` fills, up to the final zero.  `save` is `none` for the
figure dump (`save < 0`) and else selects `.sav0` or `.sav1`. -/
def e11PathBuffer (id : U32) (save : Option Bool) : List U8 :=
  ascii "fat0:/skylanders/e11/" ++ ascii (if save = none then "fig" else "save") ++
    [digit (id / 100), digit (id / 10 % 10), digit (id % 10)] ++
    ascii (match save with
      | none => ".bin"
      | some true => ".sav1"
      | some false => ".sav0")

/-- `e11_name`: the path IOS sees, which ends at the first zero byte. -/
def e11Name (id : U32) (save : Option Bool) : List U8 :=
  (e11PathBuffer id save).takeWhile (· ≠ 0)

/-- A decimal digit is a printable byte. -/
theorem digit_ne_zero {n : U32} (h : n < 10) : digit n ≠ 0 := by
  have hn := BitVec.lt_def.mp h
  intro h0
  have := congrArg BitVec.toNat h0
  simp [digit] at this hn
  omega

theorem digit_inj {m n : U32} (hm : m < 10) (hn : n < 10) (h : digit m = digit n) : m = n := by
  have hm' := BitVec.lt_def.mp hm
  have hn' := BitVec.lt_def.mp hn
  apply BitVec.eq_of_toNat_eq
  have := congrArg BitVec.toNat h
  simp [digit] at this hm' hn'
  omega

/-- The digits of a catalogue id are digits. -/
theorem digits_lt {id : U32} (h : id < e11Max) :
    id / 100 < 10 ∧ id / 10 % 10 < 10 ∧ id % 10 < 10 := by
  have h' := BitVec.lt_def.mp h
  simp [e11Max] at h'
  refine ⟨?_, ?_, ?_⟩ <;> rw [BitVec.lt_def] <;> simp <;> omega

/-- The path of a catalogue id has no zero byte in it. -/
theorem e11Name_eq {id : U32} (h : id < e11Max) (save : Option Bool) :
    e11Name id save = e11PathBuffer id save := by
  obtain ⟨h₁, h₂, h₃⟩ := digits_lt h
  have hd : ∀ b ∈ [digit (id / 100), digit (id / 10 % 10), digit (id % 10)], b ≠ 0 := by
    simp only [List.mem_cons, List.not_mem_nil, or_false]
    rintro b (rfl | rfl | rfl)
    · exact digit_ne_zero h₁
    · exact digit_ne_zero h₂
    · exact digit_ne_zero h₃
  have hs : ∀ b ∈ ascii "fat0:/skylanders/e11/", b ≠ 0 := by decide
  rw [e11Name, List.takeWhile_eq_self_iff]
  intro b hb
  rw [decide_eq_true_iff]
  simp only [e11PathBuffer, List.mem_append] at hb
  rcases hb with ((hb | hb) | hb) | hb
  · exact hs b hb
  · rcases save with - | k
    · exact (by decide : ∀ b ∈ ascii "fig", b ≠ 0) b (by simpa using hb)
    · exact (by decide : ∀ b ∈ ascii "save", b ≠ 0) b (by simpa using hb)
  · exact hd b hb
  · rcases save with - | k | k
    · exact (by decide : ∀ b ∈ ascii ".bin", b ≠ 0) b hb
    · exact (by decide : ∀ b ∈ ascii ".sav0", b ≠ 0) b hb
    · exact (by decide : ∀ b ∈ ascii ".sav1", b ≠ 0) b hb

/-- The digits of a catalogue id determine it. -/
theorem digits_inj {i j : U32} (hi : i < e11Max) (hj : j < e11Max)
    (h : [digit (i / 100), digit (i / 10 % 10), digit (i % 10)] =
      [digit (j / 100), digit (j / 10 % 10), digit (j % 10)]) : i = j := by
  obtain ⟨hi₁, hi₂, hi₃⟩ := digits_lt hi
  obtain ⟨hj₁, hj₂, hj₃⟩ := digits_lt hj
  obtain ⟨h₁, h₂, h₃, -⟩ : _ ∧ _ ∧ _ ∧ _ := by simpa only [List.cons.injEq] using h
  have e₁ := congrArg BitVec.toNat (digit_inj hi₁ hj₁ h₁)
  have e₂ := congrArg BitVec.toNat (digit_inj hi₂ hj₂ h₂)
  have e₃ := congrArg BitVec.toNat (digit_inj hi₃ hj₃ h₃)
  apply BitVec.eq_of_toNat_eq
  simp at e₁ e₂ e₃
  omega

/-- Different files of the catalogue have different paths. -/
theorem e11Name_inj {i j : U32} {save save' : Option Bool} (hi : i < e11Max) (hj : j < e11Max)
    (h : e11Name i save = e11Name j save') : i = j ∧ save = save' := by
  rw [e11Name_eq hi, e11Name_eq hj] at h
  -- byte 21 tells `fig` from `save`, byte 32 `.sav0` from `.sav1`
  have hkind := congrArg (fun l => l[21]?) h
  have hside := congrArg (fun l => l[32]?) h
  cases save with
  | none =>
      cases save' with
      | none => exact ⟨digits_inj hi hj (congrArg (fun l => (l.drop 24).take 3) h), rfl⟩
      | some k =>
          have hk : (some 0x66 : Option U8) = some 0x73 := by cases k <;> exact hkind
          exact absurd hk (by decide)
  | some k =>
      cases save' with
      | none =>
          have hk : (some 0x73 : Option U8) = some 0x66 := by cases k <;> exact hkind
          exact absurd hk (by decide)
      | some k' =>
          have hk : (some (if k then 0x31 else 0x30) : Option U8) =
              some (if k' then 0x31 else 0x30) := by cases k <;> cases k' <;> exact hside
          refine ⟨?_, ?_⟩
          · cases k <;> cases k' <;>
              exact digits_inj hi hj (congrArg (fun l => (l.drop 25).take 3) h)
          · congr 1
            exact (by decide : ∀ a b : Bool, (some (if a then 0x31 else 0x30) : Option U8) =
              some (if b then 0x31 else 0x30) → a = b) k k' hk

/-! ### Reading -/

/-- `os_read`: at most `n` bytes of the file, to offset `off` of the buffer. -/
def osRead {m : ℕ} (io : ReadIo) (file : List U8) (p : Bytes m) (off n : ℕ) : Int × Bytes m :=
  if io.got < 0 then (io.got, p.copy off io.junk n)
  else ((min n file.length : ℕ), p.copy off (fun i => file.getD i 0) (min n file.length))

/-- `e11_read`: 0 when the file gives all `n` bytes, `-4` when it is shorter,
`-106` when it is missing, else the error of the call that failed. -/
def e11Read {m : ℕ} (d : Disk) (path : List U8) (io : ReadIo) (p : Bytes m) (off n : ℕ) :
    Int × Bytes m :=
  if io.opened < 0 then (io.opened, p)
  else
    match d path with
    | none => (-106, p)
    | some file =>
        let (r, p) := osRead io file p off n
        (if r = n then (if io.closed < 0 then io.closed else 0) else if r < 0 then r else -4, p)

section Reading

variable {m : ℕ} {d : Disk} {path : List U8} {io : ReadIo} {p : Bytes m} {off n : ℕ}

/-- The outcomes of reading a file that is there. -/
theorem e11Read_some {file : List U8} (hf : d path = some file) :
    e11Read d path io p off n =
      if io.opened < 0 then (io.opened, p)
      else if io.got < 0 then (io.got, p.copy off io.junk n)
      else if n ≤ file.length then
        (if io.closed < 0 then io.closed else 0, p.copy off (fun i => file.getD i 0) n)
      else (-4, p.copy off (fun i => file.getD i 0) file.length) := by
  unfold e11Read osRead
  rw [hf]
  by_cases ho : io.opened < 0
  · simp only [ho, if_true]
  by_cases hg : io.got < 0
  · have hne : io.got ≠ (n : Int) := by omega
    simp only [ho, hg, hne, if_true, if_false]
  by_cases hn : n ≤ file.length
  · simp only [ho, hg, hn, if_true, if_false, Nat.min_eq_left hn]
  · have hmin : min n file.length = file.length := Nat.min_eq_right (by omega)
    have hne : (file.length : Int) ≠ (n : Int) := by omega
    have hpos : ¬ (file.length : Int) < 0 := by omega
    simp only [ho, hg, hn, hmin, hne, hpos, if_false]

/-- Reading a file that is not there. -/
theorem e11Read_none (hf : d path = none) :
    e11Read d path io p off n = (if io.opened < 0 then io.opened else -106, p) := by
  unfold e11Read
  rw [hf]
  split_ifs <;> rfl

theorem e11Read_le_zero : (e11Read d path io p off n).1 ≤ 0 := by
  cases hf : d path with
  | none => rw [e11Read_none hf]; dsimp only; split_ifs <;> omega
  | some file => rw [e11Read_some hf]; split_ifs <;> dsimp only <;> omega

/-- A read that succeeds has found the file and filled the buffer from it. -/
theorem e11Read_eq_zero (h : (e11Read d path io p off n).1 = 0) :
    ∃ file, d path = some file ∧ n ≤ file.length ∧
      (e11Read d path io p off n).2 = p.copy off (fun i => file.getD i 0) n := by
  cases hf : d path with
  | none =>
      rw [e11Read_none hf] at h
      dsimp only at h
      split_ifs at h; omega
  | some file =>
      rw [e11Read_some hf] at h ⊢
      split_ifs at h ⊢ with ho hg hn hc
      · dsimp only at h; omega
      · dsimp only at h; omega
      · dsimp only at h; omega
      · exact ⟨file, rfl, hn, rfl⟩
      · dsimp only at h; omega

/-- A file that is long enough is read in full when no call fails. -/
theorem e11Read_ok {file : List U8} (hf : d path = some file) (hn : n ≤ file.length) :
    e11Read d path .ok p off n = (0, p.copy off (fun i => file.getD i 0) n) := by
  rw [e11Read_some hf]
  simp only [ReadIo.ok, lt_irrefl, hn, if_true, if_false]

end Reading

end VirtualPortal
