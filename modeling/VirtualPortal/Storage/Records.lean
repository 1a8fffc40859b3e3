/-
# The bytes of a record

`e11_source_hash` and `e11_label` index the catalogue with an id times the size of a
record, in 32-bit arithmetic.  Here they read it byte by byte, and a byte is there only
if it is inside the record of an id that is counted, and inside the buffer
(`Storage.catalogAt`).

| `compact` | record | entries | end of the last record |
| --- | --- | --- | --- |
| 0 | 64 bytes | 256 | 16416 |
| 1 | 32 bytes | 512 | 16416 |
| 2 | 24 bytes | 640 | 15392 |

The largest catalogues of two layouts end where the buffer ends.  If no more entries are
counted than the layout allows, the reads are there and give what the catalogue's own
functions give (`Fits.sourceHashAt`, `Fits.labelAt`).
-/

import VirtualPortal.Lib.Bounded
import VirtualPortal.Storage.Machine
import VirtualPortal.Storage.Catalog

namespace VirtualPortal
namespace Storage

/-- `e11_compact==2?24:e11_compact?32:64` -/
def strideWord (compact : U32) : U32 := if compact = 2 then 24 else if compact ≠ 0 then 32 else 64

/-- The length of a label. -/
def labelLength (compact : U32) : ℕ := if compact = 2 then 19 else if compact ≠ 0 then 27 else 47

/-- `e11_catalog[p]`, read for the record `id`. -/
def catalogAt (st : Storage) (id p : U32) : Option U8 :=
  let start := 32 + id.toNat * catalogStride st.compact
  if id < st.count ∧ start ≤ p.toNat ∧ p.toNat < start + catalogStride st.compact ∧
      p.toNat < 16416 then
    some (st.catalog.byte p.toNat)
  else none

/-- The offset of a record. -/
def recordWord (st : Storage) (id : U32) : U32 := 32 + id * strideWord st.compact

/-- `e11_source_hash` -/
def sourceHashAt (st : Storage) (id : U32) : Option U32 :=
  let p := st.recordWord id + if st.compact ≠ 0 then 0 else 4
  be32At (fun o => st.catalogAt id (p + BitVec.ofNat 32 o)) 0

/-- `e11_label` into the `size` bytes from `dst` on. -/
def labelAt {n : ℕ} (st : Storage) (out : Bytes n) (dst size : ℕ) (id : U32) : Option (Bytes n) :=
  let p := st.recordWord id + if st.compact ≠ 0 then 4 else 8
  copyAt dst (dst + size) out dst (fun k => st.catalogAt id (p + BitVec.ofNat 32 k))
    (labelLength st.compact)

/-- No more entries are counted than the layout allows. -/
def Fits (st : Storage) : Prop := st.count ≤ catalogLimit st.compact

variable {st : Storage} {id : U32}

/-- The records of a layout end inside the buffer. -/
theorem Fits.bound (h : st.Fits) (hid : id < st.count) :
    32 + id.toNat * catalogStride st.compact + catalogStride st.compact ≤ 16416 := by
  have hlt : id.toNat < (catalogLimit st.compact).toNat :=
    lt_of_lt_of_le (BitVec.lt_def.mp hid) (BitVec.le_def.mp h)
  unfold catalogLimit at hlt
  unfold catalogStride
  split_ifs at hlt ⊢
  · rw [show (640 : U32).toNat = 640 from rfl] at hlt
    omega
  · rw [show (512 : U32).toNat = 512 from rfl] at hlt
    omega
  · rw [show (256 : U32).toNat = 256 from rfl] at hlt
    omega

theorem toNat_strideWord (compact : U32) : (strideWord compact).toNat = catalogStride compact := by
  unfold strideWord catalogStride
  split_ifs <;> rfl

/-- Byte `o` of a counted record is there. -/
theorem Fits.catalogAt (h : st.Fits) (hid : id < st.count) {o : ℕ}
    (ho : o < catalogStride st.compact) :
    st.catalogAt id (st.recordWord id + BitVec.ofNat 32 o) =
      some (st.catalog.byte (32 + id.toNat * catalogStride st.compact + o)) := by
  have hbound := h.bound hid
  have hword : (st.recordWord id + BitVec.ofNat 32 o).toNat =
      32 + id.toNat * catalogStride st.compact + o := by
    unfold recordWord
    rw [BitVec.toNat_add, BitVec.toNat_add, BitVec.toNat_mul, toNat_strideWord, BitVec.toNat_ofNat,
      show (32 : U32).toNat = 32 from rfl]
    omega
  unfold Storage.catalogAt
  rw [hword, if_pos ⟨hid, by omega, by omega, by omega⟩]

/-- The same from a field of the record on. -/
theorem Fits.fieldAt (h : st.Fits) (hid : id < st.count) {field o : ℕ}
    (ho : field + o < catalogStride st.compact) :
    st.catalogAt id (st.recordWord id + BitVec.ofNat 32 field + BitVec.ofNat 32 o) =
      some (st.catalog.byte (32 + id.toNat * catalogStride st.compact + field + o)) := by
  rw [BitVec.add_assoc, ← BitVec.ofNat_add, h.catalogAt hid ho, Nat.add_assoc _ field]

/-- A counted record has its hash in the buffer. -/
theorem Fits.sourceHashAt (h : st.Fits) (hid : id < st.count) :
    st.sourceHashAt id = some (e11SourceHash st.catalog st.compact id) := by
  have hfield : (if st.compact ≠ 0 then (0 : U32) else 4) =
      BitVec.ofNat 32 (if st.compact ≠ 0 then 0 else 4) := by split_ifs <;> rfl
  have hinside : (if st.compact ≠ 0 then 0 else 4) + 4 ≤ catalogStride st.compact := by
    unfold catalogStride
    split_ifs <;> omega
  unfold Storage.sourceHashAt
  dsimp only
  rw [hfield]
  refine be32At_of_eq st.catalog.byte fun k hk => ?_
  rw [Nat.zero_add]
  exact h.fieldAt hid (by omega)

/-- A counted record has its label in the buffer, and the label fits its field. -/
theorem Fits.labelAt {n : ℕ} (h : st.Fits) (hid : id < st.count) (out : Bytes n) {dst size : ℕ}
    (hdst : dst + size ≤ n) (hsize : 48 ≤ size) :
    st.labelAt out dst size id = some (e11Label out dst st.catalog st.compact id) := by
  have hfield : (if st.compact ≠ 0 then (4 : U32) else 8) =
      BitVec.ofNat 32 (if st.compact ≠ 0 then 4 else 8) := by split_ifs <;> rfl
  have hinside : (if st.compact ≠ 0 then 4 else 8) + labelLength st.compact <
      catalogStride st.compact := by
    by_cases hzero : st.compact = 0
    · rw [hzero]
      decide
    · rw [if_pos hzero]
      unfold catalogStride labelLength
      rw [if_pos hzero, if_pos hzero]
      split_ifs <;> omega
  have hlength : labelLength st.compact < 48 := by
    unfold labelLength
    split_ifs <;> omega
  unfold Storage.labelAt
  dsimp only
  rw [hfield]
  exact copyAt_eq out le_rfl hdst (by omega) fun k hk => h.fieldAt hid (by omega)

end Storage
end VirtualPortal
