/-
# The codes a slot is shown with

A status packet shows each slot as absent (0), present (1), removed (2) or added
(3).  `Shows q s present c` lists the queue `q`, the committed status `s` and the
presence of a slot whose last delivered code was `c`:

| queue | slot | last code | next codes |
| --- | --- | --- | --- |
| `0` | either | 1 if present, else 0 | the same |
| `0x57` | present | 0, 3 | 3, 1 |
| `5` | present | 3, 1 | 1 |
| `0x46` | absent | any | 2, 0 |
| `4` | absent | 2, 0 | 0 |
| `0x574` | present | 2, 0 | 0, 3, 1 |
| `0x5746` | present | any | 2, 0, 3, 1 |

The table is kept when a figure comes or goes (`Shows.event`), when a packet is
delivered but not committed (`Shows.delivered`) and when it is committed
(`Shows.commit`), and every delivered code follows the one before it (`Follows`).
-/

import VirtualPortal.Hid.Session
import VirtualPortal.Hid.Control
import VirtualPortal.Lib.Packed
import Mathlib.Data.List.Chain

namespace VirtualPortal

/-- The code of a slot in a status packet. -/
def code (packet : Bytes 32) (i : Fin 16) : U8 :=
  (packet ⟨1 + i.val / 4, by omega⟩ >>> (2 * (i.val % 4))) &&& 3

/-- The codes that may follow a code: itself, or the next one of a figure that is
added or removed. -/
def Follows (c d : U8) : Prop := d = c ∨ (c, d) ∈ [(0, 3), (3, 1), (1, 2), (3, 2), (0, 2), (2, 0)]

instance (c d : U8) : Decidable (Follows c d) := inferInstanceAs (Decidable (_ ∨ _))

/-- The code of a slot with the queue `q` and the committed status `s`. -/
def shownCode (q : U16) (s : U8) : U8 := if q ≠ 0 then (q &&& 3).setWidth 8 else s

/-- What a slot whose last delivered code was `c` has still to be shown. -/
inductive Shows : U16 → U8 → Bool → U8 → Prop
  | settled (present : Bool) :
      Shows 0 (if present then 1 else 0) present (if present then 1 else 0)
  | adding (s c : U8) (h : c = 0 ∨ c = 3) : Shows 0x57 s true c
  | added (s c : U8) (h : c = 3 ∨ c = 1) : Shows 5 s true c
  | removing (s c : U8) (h : c < 4) : Shows 0x46 s false c
  | removed (s c : U8) (h : c = 2 ∨ c = 0) : Shows 4 s false c
  | replacing (s c : U8) (h : c = 2 ∨ c = 0) : Shows 0x574 s true c
  | reinserting (s c : U8) (h : c < 4) : Shows 0x5746 s true c

section Table

variable {q : U16} {s c : U8} {present : Bool}

/-- A code has two bits. -/
theorem Shows.lt (h : Shows q s present c) : c < 4 := by
  cases h with
  | settled => cases present <;> decide
  | adding s c h => rcases h with rfl | rfl <;> decide
  | added s c h => rcases h with rfl | rfl <;> decide
  | removing s c h => exact h
  | removed s c h => rcases h with rfl | rfl <;> decide
  | replacing s c h => rcases h with rfl | rfl <;> decide
  | reinserting s c h => exact h

/-- A new session shows the slots that are present as added. -/
theorem Shows.announced (present : Bool) : Shows (if present then 0x57 else 0) 0 present 0 := by
  cases present with
  | true => exact .adding 0 0 (Or.inl rfl)
  | false => exact .settled false

/-- A figure that was not there comes, or one that was there goes. -/
theorem Shows.event {inserted : Bool} (h : Shows q s (!inserted) c) :
    Shows (Session.eventQueue q inserted) s inserted c := by
  have hlt := h.lt
  cases inserted with
  | false => exact .removing s c hlt
  | true =>
      generalize hpresent : (!true) = present at h
      cases h with
      | settled =>
          subst hpresent
          exact .adding _ _ (Or.inl rfl)
      | removing s c h => exact .reinserting s c h
      | removed s c h => exact .replacing s c h
      | adding => cases hpresent
      | added => cases hpresent
      | replacing => cases hpresent
      | reinserting => cases hpresent

/-- Every code may be followed by 2. -/
theorem follows_two : ∀ c : U8, c < 4 → Follows c 2 := by decide

/-- The code shown next follows the last one, and the table holds for it. -/
theorem Shows.next (h : Shows q s present c) :
    Follows c (shownCode q s) ∧ Shows q s present (shownCode q s) := by
  cases h with
  | settled => exact ⟨Or.inl rfl, .settled present⟩
  | adding s c h =>
      refine ⟨?_, .adding s 3 (Or.inr rfl)⟩
      show Follows c 3
      rcases h with rfl | rfl <;> decide
  | added s c h =>
      refine ⟨?_, .added s 1 (Or.inr rfl)⟩
      show Follows c 1
      rcases h with rfl | rfl <;> decide
  | removing s c h => exact ⟨follows_two c h, .removing s 2 (by decide)⟩
  | removed s c h =>
      refine ⟨?_, .removed s 0 (Or.inr rfl)⟩
      show Follows c 0
      rcases h with rfl | rfl <;> decide
  | replacing s c h =>
      refine ⟨?_, .replacing s 0 (Or.inr rfl)⟩
      show Follows c 0
      rcases h with rfl | rfl <;> decide
  | reinserting s c h => exact ⟨follows_two c h, .reinserting s 2 (by decide)⟩

/-- A packet that is committed takes the next transition off the queue. -/
theorem Shows.commit (h : Shows q s present c) :
    Shows (if q ≠ 0 then q >>> 4 else 0) (shownCode q s) present (shownCode q s) := by
  cases h with
  | settled => exact .settled present
  | adding => exact .added 3 3 (Or.inl rfl)
  | added => exact .settled true
  | removing => exact .removed 2 2 (Or.inl rfl)
  | removed => exact .settled false
  | replacing => exact .adding 0 0 (Or.inl rfl)
  | reinserting => exact .replacing 2 2 (Or.inl rfl)

/-- With an empty queue the committed status tells whether the slot is present. -/
theorem Shows.status (h : Shows q s present c) (hq : q = 0) : s = 1 ↔ present = true := by
  cases h with
  | settled => cases present <;> decide
  | _ => exact absurd hq (by decide)

end Table

/-! ### Sequences of codes -/

section Codes

variable {l : List U8} {c b : U8}

/-- After a figure has been seen, 2 comes before 0. -/
theorem two_before_zero (h : (c :: l ++ [0]).IsChain Follows) (hc : c = 1 ∨ c = 3) : 2 ∈ l := by
  induction l generalizing c with
  | nil =>
      have hzero : Follows c 0 := (List.isChain_cons_cons.mp h).1
      rcases hc with rfl | rfl <;> exact absurd hzero (by decide)
  | cons d l ih =>
      obtain ⟨hd, hrest⟩ := List.isChain_cons_cons.mp h
      have hnext : d = 2 ∨ d = 1 ∨ d = 3 := by
        rcases hd with rfl | hd
        · exact Or.inr hc
        · rcases hc with rfl | rfl
          · exact Or.inl (by simpa using hd)
          · rcases (by simpa using hd : d = 1 ∨ d = 2) with rfl | rfl
            · exact Or.inr (Or.inl rfl)
            · exact Or.inl rfl
      rcases hnext with rfl | hd
      · exact List.mem_cons_self
      · exact List.mem_cons_of_mem d (ih hrest hd)

/-- After a figure has been seen, 2 and then 0 come before a 3 that starts anew. -/
theorem two_zero_before_three (h : (c :: l ++ [b, 3]).IsChain Follows) (hc : c = 1 ∨ c = 3)
    (hb : b ≠ 3) : [2, 0].Sublist (l ++ [b]) := by
  have hthree : Follows b 3 := (List.isChain_append.mp h).2.1.rel
  obtain rfl : b = 0 := by
    rcases hthree with hthree | hthree
    · exact absurd hthree.symm hb
    · simpa using hthree
  have hzero : ((c :: l ++ [0]) ++ [3]).IsChain Follows := by simpa using h
  have htwo : 2 ∈ l := two_before_zero hzero.left_of_append hc
  exact (List.singleton_sublist.mpr htwo).append (List.Sublist.refl [0])

end Codes

/-! ### The queue over a run -/

/-- From the queue and the presence of a slot to those after a run in which the codes
were delivered: figures come and go, and packets are delivered, committed or not. -/
inductive Evolves (q : U16) (present : Bool) : List U8 → U16 → Bool → Prop
  | refl : Evolves q present [] q present
  | event {l : List U8} {q' : U16} (inserted : Bool) (h : Evolves q present l q' (!inserted)) :
      Evolves q present l (Session.eventQueue q' inserted) inserted
  | delivered {l : List U8} {q' : U16} {present' : Bool} (c : U8)
      (h : Evolves q present l q' present') :
      Evolves q present (l ++ [c]) q' present'
  | committed {l : List U8} {q' : U16} {present' : Bool} (hq : q' ≠ 0)
      (h : Evolves q present l q' present') :
      Evolves q present (l ++ [(q' &&& 3).setWidth 8]) (q' >>> 4) present'

section Evolution

variable {q q' q'' : U16} {present present' present'' : Bool} {l l' : List U8}

/-- What is reported in two steps. -/
theorem Evolves.trans (h : Evolves q present l q' present')
    (h' : Evolves q' present' l' q'' present'') :
    Evolves q present (l ++ l') q'' present'' := by
  induction h' with
  | refl =>
      rw [List.append_nil]
      exact h
  | event inserted _ ih => exact .event inserted ih
  | delivered c _ ih =>
      rw [← List.append_assoc]
      exact .delivered c ih
  | committed hq _ ih =>
      rw [← List.append_assoc]
      exact .committed hq ih

/-- How far the host has come with a figure that it has seen and that is gone: it has
still to be shown as removed, or as absent, or both have been. -/
inductive Stage (l : List U8) : U16 → Bool → Prop
  | removing : Stage l 0x46 false
  | reinserting : Stage l 0x5746 true
  | removed (h : 2 ∈ l) : Stage l 4 false
  | replacing (h : 2 ∈ l) : Stage l 0x574 true
  | seen (q : U16) (present : Bool) (h : [2, 0].Sublist l) : Stage l q present

/-- What fits fewer codes fits more. -/
theorem Stage.mono {l l' : List U8} (h : Stage l q present) (hl : l.Sublist l') :
    Stage l' q present := by
  cases h with
  | removing => exact .removing
  | reinserting => exact .reinserting
  | removed h => exact .removed (hl.subset h)
  | replacing h => exact .replacing (hl.subset h)
  | seen _ _ h => exact .seen _ _ (h.trans hl)

/-- A figure that is gone is shown as removed and then as absent before anything
else. -/
theorem Evolves.stage (h : Evolves 0x46 false l q present) : Stage l q present := by
  induction h with
  | refl => exact .removing
  | event inserted _ ih =>
      generalize hbefore : (!inserted) = before at ih
      cases ih with
      | removing =>
          obtain rfl : inserted = true := by simpa using hbefore
          exact .reinserting
      | reinserting =>
          obtain rfl : inserted = false := by simpa using hbefore
          exact .removing
      | removed h =>
          obtain rfl : inserted = true := by simpa using hbefore
          exact .replacing h
      | replacing h =>
          obtain rfl : inserted = false := by simpa using hbefore
          exact .removing
      | seen _ _ h => exact .seen _ _ h
  | delivered c _ ih => exact ih.mono (List.sublist_append_left _ _)
  | committed hq _ ih =>
      have htwo {l : List U8} (h : 2 ∈ l) : [2, 0].Sublist (l ++ [0]) :=
        (List.singleton_sublist.mpr h).append (List.Sublist.refl [0])
      cases ih with
      | removing => exact .removed (List.mem_append.mpr (Or.inr List.mem_cons_self))
      | reinserting => exact .replacing (List.mem_append.mpr (Or.inr List.mem_cons_self))
      | removed h => exact .seen _ _ (htwo h)
      | replacing h => exact .seen _ _ (htwo h)
      | seen _ _ h => exact .seen _ _ (h.trans (List.sublist_append_left _ _))

/-- Only then a packet shows the next figure as added. -/
theorem Stage.added (h : Stage l q present) {s : U8} (hshown : shownCode q s = 3) :
    [2, 0].Sublist l := by
  cases h with
  | seen _ _ h => exact h
  | removing => exact absurd (show (2 : U8) = 3 from hshown) (by decide)
  | reinserting => exact absurd (show (2 : U8) = 3 from hshown) (by decide)
  | removed => exact absurd (show (0 : U8) = 3 from hshown) (by decide)
  | replacing => exact absurd (show (0 : U8) = 3 from hshown) (by decide)

end Evolution

/-! ### The packet -/

section Packet

variable {s : Session}

/-- The code in the status is the one shown. -/
theorem statusCode_eq (s : Session) (i : Fin 16) :
    s.statusCode i = (shownCode (s.transitions i) (s.status i)).setWidth 32 := by
  unfold Session.statusCode shownCode
  split_ifs
  · apply BitVec.eq_of_getLsbD_eq
    intro b hb
    simp only [BitVec.getLsbD_setWidth, BitVec.getLsbD_and]
    have hthree : (3 : U16).getLsbD b = (decide (b < 8) && (3 : U16).getLsbD b) := by
      revert hb
      revert b
      decide
    rw [hthree]
    cases (s.transitions i).getLsbD b <;> cases decide (b < 8) <;> simp
  · rfl

/-- A slot reported as added is shown as added. -/
theorem shownCode_of_statusCode {i : Fin 16} (h : s.statusCode i = 3) :
    shownCode (s.transitions i) (s.status i) = 3 := by
  rw [statusCode_eq] at h
  have hnat := congrArg BitVec.toNat h
  rw [BitVec.toNat_setWidth, Nat.mod_eq_of_lt (lt_trans (BitVec.isLt _) (by decide))] at hnat
  exact BitVec.eq_of_toNat_eq hnat

/-- The bits of a code are its lowest two. -/
theorem getLsbD_code {c : U8} (h : c < 4) {b : ℕ} (hb : 2 ≤ b) : c.getLsbD b = false := by
  have hlt : c.toNat < 2 ^ b :=
    lt_of_lt_of_le (show c.toNat < 2 ^ 2 from h) (Nat.pow_le_pow_right (by omega) hb)
  exact Nat.testBit_lt_two_pow hlt

/-- The packet built from a session shows each slot with its code. -/
theorem code_v4Status (h : ∀ i, shownCode (s.transitions i) (s.status i) < 4) (i : Fin 16) :
    code s.v4Status.2 i = shownCode (s.transitions i) (s.status i) := by
  have hfields (j : Fin 16) (b : ℕ) (hb : 2 ≤ b) : (s.statusCode j).getLsbD b = false := by
    rw [statusCode_eq, BitVec.getLsbD_setWidth, getLsbD_code (h j) hb, Bool.and_false]
  have hbyte : s.v4Status.2 ⟨1 + i.val / 4, by omega⟩ =
      (s.statusWord >>> (i.val / 4 * 8)).setWidth 8 := by
    show Bytes.copy _ 1 (fun k => (s.statusWord >>> (k * 8)).setWidth 8) 4 _ = _
    unfold Bytes.copy
    rw [if_pos (by dsimp only; omega)]
    dsimp only
    rw [Nat.add_sub_cancel_left]
  apply BitVec.eq_of_getLsbD_eq
  intro b hb
  have hthree : (3 : U8).getLsbD b = decide (b < 2) := by
    revert hb
    revert b
    decide
  rw [code, hbyte, BitVec.getLsbD_and, hthree, BitVec.getLsbD_ushiftRight, BitVec.getLsbD_setWidth,
    BitVec.getLsbD_ushiftRight]
  by_cases hlow : b < 2
  · have hpack := Packed.getLsbD_pack hfields (by omega) i hlow
    rw [show i.val / 4 * 8 + (2 * (i.val % 4) + b) = i.val * 2 + b by omega]
    rw [show s.statusWord.getLsbD (i.val * 2 + b) = _ from hpack, statusCode_eq,
      BitVec.getLsbD_setWidth]
    simp [hlow, show b < 32 by omega, show 2 * (i.val % 4) + b < 8 by omega]
  · rw [getLsbD_code (h i) (by omega)]
    simp [hlow]

/-- The status has the counter of the session. -/
theorem v4Status_counter (s : Session) : s.v4Status.2 5 = s.counter := by
  show s.counter + 1 - 1 = s.counter
  exact BitVec.add_sub_cancel _ _

end Packet
end VirtualPortal
