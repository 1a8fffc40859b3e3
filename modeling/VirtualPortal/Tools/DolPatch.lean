/-
# The DOL patch

`pc-debug/build_e11_overlay.py` patches the executable of a game and distributes the
difference: a list of writes, each an offset and the new bytes in hexadecimal.
`pc-debug/apply_dol_patch.py` applies it.

The writer goes through the bytes of the original once.  `start` is where the run of
different bytes it is in began:

| byte | `start` | |
| --- | --- | --- |
| different | none | a run starts |
| different | set | the run goes on |
| equal | set | the run is written, `start` is none again |
| equal | none | |

A run that reaches the end of the original is written there, and what the patched
file has beyond it is one more write.  `dol_patch_round_trip` says that the reader
accepts the list and gives the patched file back.
-/

import VirtualPortal.Lib.Bytes
import VirtualPortal.Lib.Segments
import Mathlib.Data.List.Pairwise

namespace VirtualPortal

/-! ### Hexadecimal -/

/-- A digit of `bytes.hex`. -/
def hexDigit (n : ℕ) : Char :=
  if n < 10 then Char.ofNat ('0'.toNat + n) else Char.ofNat ('a'.toNat + (n - 10))

/-- `bytes.hex` -/
def hex (data : List U8) : List Char :=
  data.flatMap fun b => [hexDigit (b.toNat / 16), hexDigit (b.toNat % 16)]

/-- The value of a digit, in either case. -/
def hexValue (c : Char) : Option ℕ :=
  if '0' ≤ c ∧ c ≤ '9' then some (c.toNat - '0'.toNat)
  else if 'a' ≤ c ∧ c ≤ 'f' then some (c.toNat - 'a'.toNat + 10)
  else if 'A' ≤ c ∧ c ≤ 'F' then some (c.toNat - 'A'.toNat + 10)
  else none

/-- The white space `bytes.fromhex` skips between two bytes. -/
def hexSpace (c : Char) : Bool := c = ' ' || 9 ≤ c.toNat && c.toNat ≤ 13

/-- `bytes.fromhex` -/
def fromhex : List Char → Option (List U8)
  | [] => some []
  | [c] => if hexSpace c then some [] else none
  | c :: d :: text =>
      if hexSpace c then fromhex (d :: text)
      else
        match hexValue c, hexValue d with
        | some high, some low => (fromhex text).map (BitVec.ofNat 8 (16 * high + low) :: ·)
        | _, _ => none

/-! ### The patch -/

/-- An entry of `writes`. -/
structure PatchWrite where
  offset : Option ℤ
  hex : Option (List Char)
deriving DecidableEq

/-- A patch file, as read; a field that is not there is `none`. -/
structure Patch where
  format : Option String
  inputSha256 : Option String
  outputSha256 : Option String
  inputSize : Option ℤ
  outputSize : Option ℤ
  writes : Option (List PatchWrite)

/-- The exceptions of `apply_patch`. -/
inductive PatchError where
  /-- `ValueError` -/
  | value (text : String)
  /-- The `ValueError` of `bytes.fromhex`. -/
  | hex
  /-- `KeyError` -/
  | key (name : String)
deriving DecidableEq

/-- `patch[name]` -/
def field {α : Type*} (name : String) (x : Option α) : Except PatchError α :=
  x.elim (.error (.key name)) .ok

/-- The loop of `apply_patch`; `stop` is `end` of the source. -/
def applyWrites (size : ℤ) (stop : ℤ) (result : List U8) :
    List PatchWrite → Except PatchError (List U8)
  | [] => .ok result
  | write :: writes => do
      let offset ← field "offset" write.offset
      let text ← field "hex" write.hex
      let data ← (fromhex text).elim (.error .hex) .ok
      if offset < stop ∨ size < offset + data.length ∨ data = [] then
        .error (.value "Invalid or overlapping patch range")
      else
        applyWrites size (offset + data.length)
          (result.take offset.toNat ++ data ++ result.drop (offset.toNat + data.length)) writes

/-- `apply_patch` -/
def applyPatch (sha256 : List U8 → String) (original : List U8) (patch : Patch) :
    Except PatchError (List U8) := do
  if patch.format ≠ some "skylanders-dol-patch-v1" then
    throw (.value "Unsupported patch format")
  let mismatch := PatchError.value "Wrong original DOL: game/revision mismatch or already patched"
  if (original.length : ℤ) ≠ (← field "input_size" patch.inputSize) then throw mismatch
  if sha256 original ≠ (← field "input_sha256" patch.inputSha256) then throw mismatch
  let size ← field "output_size" patch.outputSize
  if ¬ (original.length ≤ size ∧ size ≤ original.length + 0x2000) then
    throw (.value "Invalid output size")
  let result ← applyWrites size 0
    (original ++ List.replicate (size.toNat - original.length) 0) (← field "writes" patch.writes)
  if sha256 result ≠ (← field "output_sha256" patch.outputSha256) then
    throw (.value "Patched output hash mismatch")
  return result

/-! ### The writer -/

/-- `{'offset': offset, 'hex': data.hex()}` -/
def patchWrite (s : Segment U8) : PatchWrite := ⟨some s.offset, some (hex s.data)⟩

/-- The body of the loop of the writer. -/
def diffStep (original b : List U8) (state : List PatchWrite × Option ℕ) (pos : ℕ) :
    List PatchWrite × Option ℕ :=
  let (writes, start) := state
  if b[pos]? ≠ original[pos]? then (writes, some (start.getD pos))
  else
    match start with
    | some start => (writes ++ [patchWrite ⟨start, (b.take pos).drop start⟩], none)
    | none => (writes, none)

/-- A run that reaches the end of the original. -/
def closeRun (original b : List U8) : List PatchWrite × Option ℕ → List PatchWrite
  | (writes, some start) => writes ++ [patchWrite ⟨start, (b.take original.length).drop start⟩]
  | (writes, none) => writes

/-- `writes` of the patch. -/
def sparseWrites (original b : List U8) : List PatchWrite :=
  let writes := closeRun original b
    ((List.range original.length).foldl (diffStep original b) ([], none))
  if original.length < b.length then
    writes ++ [patchWrite ⟨original.length, b.drop original.length⟩]
  else writes

/-- `patch`, without the name of the game. -/
def sparsePatch (sha256 : List U8 → String) (original b : List U8) : Patch where
  format := some "skylanders-dol-patch-v1"
  inputSha256 := some (sha256 original)
  outputSha256 := some (sha256 b)
  inputSize := some original.length
  outputSize := some b.length
  writes := some (sparseWrites original b)

/-! ### Hexadecimal both ways -/

/-- A hexadecimal digit is read back. -/
theorem hexValue_hexDigit :
    ∀ n < 16, hexValue (hexDigit n) = some n ∧ hexSpace (hexDigit n) = false := by
  decide

/-- Bytes written in hexadecimal are read back. -/
theorem fromhex_hex (data : List U8) : fromhex (hex data) = some data := by
  induction data with
  | nil => rfl
  | cons b data ih =>
      have hb := b.isLt
      obtain ⟨hhigh, hspace⟩ := hexValue_hexDigit (b.toNat / 16) (by omega)
      obtain ⟨hlow, -⟩ := hexValue_hexDigit (b.toNat % 16) (by omega)
      show fromhex (hexDigit (b.toNat / 16) :: hexDigit (b.toNat % 16) :: hex data) = _
      rw [fromhex, hspace, hhigh, hlow, ih]
      simp [Nat.div_add_mod]

/-! ### Reading segments -/

open Segment

/-- Segments in order, none empty, none beyond the end: the reader writes them. -/
theorem applyWrites_segments {size stop : ℕ} (segments : List (Segment U8)) (result : List U8)
    (hapart : segments.Pairwise fun s s' => s.stop ≤ s'.offset)
    (hinside : ∀ s ∈ segments, s.data ≠ [] ∧ s.stop ≤ size)
    (hstop : ∀ s ∈ segments, stop ≤ s.offset) :
    applyWrites size stop result (segments.map patchWrite) =
      .ok (segments.foldl Segment.write result) := by
  induction segments generalizing stop result with
  | nil => rfl
  | cons s segments ih =>
      obtain ⟨hdata, hsize⟩ := hinside s List.mem_cons_self
      have hoffset := hstop s List.mem_cons_self
      obtain ⟨hfirst, hrest⟩ := List.pairwise_cons.mp hapart
      have hrun := @ih s.stop (Segment.write result s) hrest
        (fun s' hs' => hinside s' (List.mem_cons_of_mem s hs')) hfirst
      have hvalid :
          ¬ ((s.offset : ℤ) < stop ∨ (size : ℤ) < s.offset + s.data.length ∨ s.data = []) := by
        have hdef : s.stop = s.offset + s.data.length := rfl
        rintro (h | h | h)
        · omega
        · omega
        · exact hdata h
      rw [List.map_cons, List.foldl_cons, ← hrun]
      show ((fromhex (hex s.data)).elim (Except.error PatchError.hex) Except.ok >>= _) = _
      rw [fromhex_hex]
      exact if_neg hvalid

/-! ### The loop of the writer -/

/-- What a list of segments is to be: in order, touching at most where the appended
part starts, none empty, none beyond the end of the patched file, and no byte of the
original among those below its end. -/
structure Sparse (original b : List U8) (segments : List (Segment U8)) : Prop where
  apart : segments.Pairwise fun s s' => s.offset < s'.offset ∧ s.stop ≤ s'.offset ∧
    (s.stop = s'.offset → s'.offset = original.length)
  inside : ∀ s ∈ segments, s.data ≠ [] ∧ s.stop ≤ b.length
  differs : ∀ s ∈ segments, ∀ k x, s.data[k]? = some x → s.offset + k < original.length →
    original[s.offset + k]? ≠ some x

/-- The original, as long as the patched file. -/
def padded (original b : List U8) : List U8 :=
  original ++ List.replicate (b.length - original.length) 0

/-- The writer at a position: the segments written end before the cut, they have
turned the original into the patched file up to there, and from the cut on all bytes
are different. -/
structure Writing (original b : List U8) (segments : List (Segment U8)) (cut pos : ℕ) : Prop where
  cut_le : cut ≤ pos
  apart : segments.Pairwise fun s s' => s.stop < s'.offset
  inside : ∀ s ∈ segments, s.data ≠ [] ∧ s.stop < cut
  differs : ∀ s ∈ segments, ∀ k x, s.data[k]? = some x → original[s.offset + k]? ≠ some x
  written : segments.foldl Segment.write (padded original b) = splice b (padded original b) cut
  run : ∀ i, cut ≤ i → i < pos → b[i]? ≠ original[i]?

section Writer

variable {original b : List U8} {segments : List (Segment U8)} {cut pos : ℕ}

/-- The padded original is as long as the new file. -/
theorem length_padded (h : original.length ≤ b.length) : (padded original b).length = b.length := by
  rw [padded, List.length_append, List.length_replicate]
  omega

/-- The padded original begins with the original. -/
theorem getElem?_padded (hpos : pos < original.length) :
    (padded original b)[pos]? = original[pos]? := List.getElem?_append_left hpos

/-- A run from the cut is written. -/
theorem Writing.flush (h : Writing original b segments cut pos) (hcut : cut < pos)
    (hpos : pos ≤ b.length) :
    (segments ++ [between b cut pos]).Pairwise (fun s s' => s.stop < s'.offset) ∧
      (∀ s ∈ segments ++ [between b cut pos], s.data ≠ [] ∧ s.stop ≤ pos) ∧
      (∀ s ∈ segments ++ [between b cut pos], ∀ k x, s.data[k]? = some x →
        original[s.offset + k]? ≠ some x) ∧
      (segments ++ [between b cut pos]).foldl Segment.write (padded original b) =
        splice b (padded original b) pos := by
  have hstop : (between b cut pos).stop = pos := stop_between hcut.le hpos
  have hlength : (between b cut pos).data.length = pos - cut := length_between hpos
  refine ⟨?_, ?_, ?_, ?_⟩
  · rw [List.pairwise_append]
    refine ⟨h.apart, List.pairwise_singleton .., fun s hs s' hs' => ?_⟩
    rw [List.mem_singleton.mp hs']
    exact (h.inside s hs).2
  · intro s hs
    rcases List.mem_append.mp hs with hs | hs
    · have := h.inside s hs
      exact ⟨this.1, by omega⟩
    · rw [List.mem_singleton.mp hs]
      refine ⟨fun hnil => ?_, hstop.le⟩
      rw [hnil] at hlength
      exact absurd hlength (by simp; omega)
  · intro s hs k x hx
    rcases List.mem_append.mp hs with hs | hs
    · exact h.differs s hs k x hx
    · rw [List.mem_singleton.mp hs] at hx ⊢
      have hk : k < pos - cut := by
        rw [← hlength]
        exact (List.getElem?_eq_some_iff.mp hx).1
      rw [getElem?_between (by omega)] at hx
      rw [← hx]
      exact (h.run (cut + k) (by omega) (by omega)).symm
  · rw [List.foldl_append, h.written]
    exact write_splice hcut.le hpos

/-- Segments that are written up to an equal byte. -/
theorem writing_succ (hlen : original.length ≤ b.length) (hpos : pos < original.length)
    (heq : b[pos]? = original[pos]?)
    (hapart : segments.Pairwise fun s s' => s.stop < s'.offset)
    (hinside : ∀ s ∈ segments, s.data ≠ [] ∧ s.stop ≤ pos)
    (hdiffers : ∀ s ∈ segments, ∀ k x, s.data[k]? = some x → original[s.offset + k]? ≠ some x)
    (hwritten : segments.foldl Segment.write (padded original b) =
      splice b (padded original b) pos) :
    Writing original b segments (pos + 1) (pos + 1) where
  cut_le := le_rfl
  apart := hapart
  inside s hs := ⟨(hinside s hs).1, Nat.lt_succ_of_le (hinside s hs).2⟩
  differs := hdiffers
  written := by
    rw [hwritten, splice_succ (by omega) (by rw [length_padded hlen]; omega)]
    rw [heq, getElem?_padded hpos]
  run i hi hi' := by omega

/-- One byte of the original. -/
theorem diffStep_writing (hlen : original.length ≤ b.length) (hpos : pos < original.length)
    {start : Option ℕ} (h : Writing original b segments (start.getD pos) pos)
    (hstart : ∀ s ∈ start, s < pos) :
    ∃ segments' start', diffStep original b (segments.map patchWrite, start) pos =
        (segments'.map patchWrite, start') ∧
      Writing original b segments' (start'.getD (pos + 1)) (pos + 1) ∧
      ∀ s ∈ start', s < pos + 1 := by
  unfold diffStep
  dsimp only
  split_ifs with hne
  · refine ⟨segments, some (start.getD pos), rfl, ?_, ?_⟩
    · refine ⟨h.cut_le.trans (Nat.le_succ pos), h.apart, h.inside, h.differs, h.written, ?_⟩
      intro i hi hi'
      rcases Nat.lt_succ_iff_lt_or_eq.mp hi' with hi' | rfl
      · exact h.run i hi hi'
      · exact hne
    · intro s hs
      obtain rfl := Option.some.inj hs
      exact Nat.lt_succ_of_le h.cut_le
  · have heq := not_not.mp hne
    cases start with
    | none =>
        exact ⟨segments, none, rfl, writing_succ hlen hpos heq h.apart
          (fun s hs => ⟨(h.inside s hs).1, (h.inside s hs).2.le⟩) h.differs h.written, nofun⟩
    | some cut =>
        obtain ⟨hapart, hinside, hdiffers, hwritten⟩ := h.flush (hstart cut rfl) (by omega)
        refine ⟨segments ++ [between b cut pos], none, ?_,
          writing_succ hlen hpos heq hapart hinside hdiffers hwritten, nofun⟩
        rw [List.map_append]
        rfl

/-- The loop over the original. -/
theorem diff_writing (hlen : original.length ≤ b.length) (hpos : pos ≤ original.length) :
    ∃ segments start, (List.range pos).foldl (diffStep original b) ([], none) =
        (segments.map patchWrite, start) ∧
      Writing original b segments (start.getD pos) pos ∧ ∀ s ∈ start, s < pos := by
  induction pos with
  | zero =>
      refine ⟨[], none, rfl, ⟨le_rfl, List.Pairwise.nil, nofun, nofun, rfl, ?_⟩, nofun⟩
      intro i hi hi'
      omega
  | succ pos ih =>
      obtain ⟨segments, start, hrun, hwriting, hstart⟩ := ih (by omega)
      rw [List.range_succ, List.foldl_append, hrun]
      exact diffStep_writing hlen hpos hwriting hstart

/-- The loop and the run it leaves open. -/
theorem closeRun_writing (hlen : original.length ≤ b.length) :
    ∃ segments : List (Segment U8), closeRun original b
        ((List.range original.length).foldl (diffStep original b) ([], none)) =
          segments.map patchWrite ∧
      segments.Pairwise (fun s s' => s.stop < s'.offset) ∧
      (∀ s ∈ segments, s.data ≠ [] ∧ s.stop ≤ original.length) ∧
      (∀ s ∈ segments, ∀ k x, s.data[k]? = some x → original[s.offset + k]? ≠ some x) ∧
      segments.foldl Segment.write (padded original b) =
        splice b (padded original b) original.length := by
  obtain ⟨segments, start, hrun, h, hstart⟩ := diff_writing hlen le_rfl
  rw [hrun]
  cases start with
  | none =>
      exact ⟨segments, rfl, h.apart, fun s hs => ⟨(h.inside s hs).1, (h.inside s hs).2.le⟩,
        h.differs, h.written⟩
  | some cut =>
      refine ⟨segments ++ [between b cut original.length], ?_, h.flush (hstart cut rfl) hlen⟩
      rw [List.map_append]
      rfl

/-- The writes of a patch are sparse, and turn the original into the patched file. -/
theorem sparseWrites_segments (hlen : original.length ≤ b.length) :
    ∃ segments, sparseWrites original b = segments.map patchWrite ∧ Sparse original b segments ∧
      segments.foldl Segment.write (padded original b) = b := by
  obtain ⟨segments, hloop, hapart, hinside, hdiffers, hwritten⟩ := closeRun_writing hlen
  have hordered : segments.Pairwise fun s s' => s.offset < s'.offset ∧ s.stop ≤ s'.offset ∧
      (s.stop = s'.offset → s'.offset = original.length) := by
    refine hapart.imp fun {s s'} hlt => ⟨?_, hlt.le, fun heq => absurd heq hlt.ne⟩
    exact (Nat.le_add_right ..).trans_lt hlt
  unfold sparseWrites
  rw [hloop]
  dsimp only
  split_ifs with htail
  · have hrest : (⟨original.length, b.drop original.length⟩ : Segment U8) =
        between b original.length b.length := by
      rw [between, List.take_length]
    have hstop : (between b original.length b.length).stop = b.length := stop_between hlen le_rfl
    have hdata : (between b original.length b.length).data.length = b.length - original.length :=
      length_between le_rfl
    refine ⟨segments ++ [between b original.length b.length], ?_, ⟨?_, ?_, ?_⟩, ?_⟩
    · rw [List.map_append, hrest]
      rfl
    · rw [List.pairwise_append]
      refine ⟨hordered, List.pairwise_singleton .., fun s hs s' hs' => ?_⟩
      rw [List.mem_singleton.mp hs']
      obtain ⟨hnonempty, hstop⟩ := hinside s hs
      have hpositive := List.length_pos_iff.mpr hnonempty
      have hdef : s.stop = s.offset + s.data.length := rfl
      refine ⟨?_, hstop, fun _ => rfl⟩
      show s.offset < original.length
      omega
    · intro s hs
      rcases List.mem_append.mp hs with hs | hs
      · exact ⟨(hinside s hs).1, (hinside s hs).2.trans hlen⟩
      · rw [List.mem_singleton.mp hs]
        refine ⟨fun hnil => ?_, hstop.le⟩
        rw [hnil] at hdata
        exact absurd hdata (by simp; omega)
    · intro s hs k x hx hk
      rcases List.mem_append.mp hs with hs | hs
      · exact hdiffers s hs k x hx
      · rw [List.mem_singleton.mp hs] at hk
        exact absurd hk (by simp [between])
    · rw [List.foldl_append, hwritten]
      refine (write_splice hlen le_rfl).trans ?_
      rw [splice, List.take_length, List.drop_of_length_le (length_padded hlen).le, List.append_nil]
  · refine ⟨segments, rfl, ⟨hordered, ?_, fun s hs k x hx _ => hdiffers s hs k x hx⟩, ?_⟩
    · exact fun s hs => ⟨(hinside s hs).1, (hinside s hs).2.trans hlen⟩
    · have heq : b.length = original.length := by omega
      rw [hwritten, splice, ← heq, List.take_length,
        List.drop_of_length_le (length_padded hlen).le, List.append_nil]

end Writer

/-- The reader accepts the patch of two files, and gives back the second from the
first. -/
theorem dol_patch_round_trip (sha256 : List U8 → String) {original b : List U8}
    (h : original.length ≤ b.length) (h' : b.length ≤ original.length + 0x2000) :
    applyPatch sha256 original (sparsePatch sha256 original b) = .ok b ∧
      ∃ segments, sparseWrites original b = segments.map patchWrite ∧
        Sparse original b segments := by
  obtain ⟨segments, hwrites, hsparse, hwritten⟩ := sparseWrites_segments h
  refine ⟨?_, segments, hwrites, hsparse⟩
  have hrun := @applyWrites_segments b.length 0 segments (padded original b)
    (hsparse.apart.imp fun hs => hs.2.1) hsparse.inside (fun s _ => Nat.zero_le _)
  rw [hwritten, ← hwrites, padded, Nat.cast_zero] at hrun
  have hsize : ¬ ¬ ((original.length : ℤ) ≤ b.length ∧ (b.length : ℤ) ≤ original.length + 0x2000) :=
    not_not.mpr ⟨by omega, by omega⟩
  unfold applyPatch sparsePatch
  simp only [field, Option.elim_some, bind, Except.bind, pure, Except.pure, ne_eq,
    not_true_eq_false,
    if_false, hsize, Int.toNat_natCast]
  rw [hrun]
  exact if_neg (not_not.mpr rfl)

/-- Two runs, one up to the end of the original, and two bytes appended. -/
theorem dol_patch_round_trip_twoRuns :
    applyPatch (fun data => String.ofList (hex data)) [1, 2, 3, 4]
        (sparsePatch (fun data => String.ofList (hex data)) [1, 2, 3, 4] [1, 9, 3, 8, 5, 6]) =
      .ok [1, 9, 3, 8, 5, 6] :=
  (dol_patch_round_trip (fun data => String.ofList (hex data)) (by decide) (by decide)).1

end VirtualPortal
