/-
# Two alternating copies of a record

A value that has to survive a power cut is kept twice.  Every version carries a
sequence number, a version with number `s` is written to the side `parity s`,
and recovery takes the newer of the copies that are intact.  Numbers are
`w`-bit words and wrap around, so "newer" is the sign of the difference
(`newer`), which orders any two numbers less than half the range apart.

`Stands c s x` is the state between two writes: the side of `s` holds version
`s` with value `x`, and the other side holds nothing readable, the version
before, or the next one.  It survives every way in which writing version `s + 1`
can end (`Stands.put`), recovery from it gives version `s` or the finished
version `s + 1` (`Stands.recover`), and whichever recovery gives is stood on
again (`Stands.reload`).  `Virgin c` is the state before the first version is
known to be complete; there a damaged copy has nothing to fall back on
(`Virgin.recover_damaged`).
-/

import Mathlib.Data.Bool.Basic
import Mathlib.Data.Nat.Notation
import Mathlib.Logic.Function.Basic

namespace VirtualPortal
namespace Alternating

variable {w : ℕ} {α : Type*}

/-- What a side holds: nothing, something unreadable, or a whole version. -/
inductive Copy (w : ℕ) (α : Type*) where
  | absent
  | damaged
  | full (seq : BitVec w) (val : α)

/-- The side a version is written to. -/
def parity (s : BitVec w) : Bool := s.getLsbD 0

/-- Version `t` is newer than version `s` in wrap-around order. -/
def newer (t s : BitVec w) : Prop := 0 < (t - s).toInt

instance (t s : BitVec w) : Decidable (newer t s) := inferInstanceAs (Decidable (0 < _))

/-- The newest whole version on either side. -/
def newest (c : Bool → Copy w α) : Option (BitVec w × α) :=
  match c false, c true with
  | .full a x, .full b y => if newer b a then some (b, y) else some (a, x)
  | .full a x, _ => some (a, x)
  | _, .full b y => some (b, y)
  | _, _ => none

/-- Recovery: the newest whole version, else the base value as version `0`
unless a damaged copy shows that a version has been lost. -/
def recover (base : α) (c : Bool → Copy w α) : Option (BitVec w × α) :=
  match newest c with
  | some r => some r
  | none =>
      match c false, c true with
      | .damaged, _ => none
      | _, .damaged => none
      | _, _ => some (0, base)

/-- Overwrite the side of version `t`. -/
def put (c : Bool → Copy w α) (t : BitVec w) (new : Copy w α) : Bool → Copy w α :=
  Function.update c (parity t) new

/-- The other side may hold nothing readable, the version before `s` or the
version after it. -/
def Beside (s : BitVec w) : Copy w α → Prop
  | .absent => True
  | .damaged => True
  | .full t _ => t = s - 1 ∨ t = s + 1

/-- The side of `s` holds version `s` with value `x`, the other side a
neighbour. -/
structure Stands (c : Bool → Copy w α) (s : BitVec w) (x : α) : Prop where
  here : c (parity s) = .full s x
  beside : Beside s (c (!parity s))

/-- No version is known to be complete: only the side of version `1` may have
been written. -/
structure Virgin (c : Bool → Copy w α) : Prop where
  even : c false = .absent
  odd : ∀ t y, c true = .full t y → t = 1

/-- How writing version `t` may leave its side: whole, unreadable or missing. -/
def Attempted (t : BitVec w) : Copy w α → Prop
  | .absent => True
  | .damaged => True
  | .full s _ => s = t

theorem Attempted.eq_of_full {t s : BitVec w} {x : α} (h : Attempted t (.full s x)) : s = t := h

section Arithmetic

/-- Consecutive numbers are on different sides. -/
theorem parity_succ (hw : 0 < w) (s : BitVec w) : parity (s + 1) = !parity s := by
  unfold parity
  rw [BitVec.getLsbD_add hw]
  simp [hw]

/-- Number 0 is on the first side. -/
@[simp] theorem parity_zero : parity (0 : BitVec w) = false := by
  simp [parity]

/-- Number 1 is on the second side. -/
theorem parity_one (hw : 0 < w) : parity (1 : BitVec w) = true := by
  have h := parity_succ hw (0 : BitVec w)
  rwa [show (0 : BitVec w) + 1 = 1 by grind, parity_zero, Bool.not_false] at h

/-- The next number is newer. -/
theorem newer_succ (hw : 1 < w) (s : BitVec w) : newer (s + 1) s := by
  have h : s + 1 - s = 1 := by grind
  rw [newer, h, BitVec.ofNat_eq_ofNat, BitVec.toInt_one hw]
  decide

/-- A number is not newer than the next. -/
theorem not_newer_succ (hw : 1 < w) (s : BitVec w) : ¬ newer s (s + 1) := by
  have h : s - (s + 1) = -1 := by grind
  rw [newer, h, BitVec.ofNat_eq_ofNat, BitVec.neg_one_eq_allOnes, BitVec.toInt_allOnes,
    if_pos (by omega)]
  decide

/-- The neighbours of a version differ. -/
theorem sub_one_ne_add_one (hw : 1 < w) (s : BitVec w) : s - 1 ≠ s + 1 := by
  intro h
  have h₁ : newer (s - 1 + 1) (s - 1) := newer_succ hw _
  rw [show s - 1 + 1 = s by grind, h] at h₁
  exact not_newer_succ hw s h₁

end Arithmetic

section Recovery

variable {c : Bool → Copy w α} {s : BitVec w} {x base : α}

/-- What is put on a side is there. -/
theorem put_self (c : Bool → Copy w α) (t : BitVec w) (new : Copy w α) :
    put c t new (parity t) = new := Function.update_self ..

/-- The other side stays. -/
theorem put_of_ne (c : Bool → Copy w α) {t : BitVec w} (new : Copy w α) {b : Bool}
    (h : b ≠ parity t) : put c t new b = c b := Function.update_of_ne h ..

/-- With the version before it beside it, or nothing readable, version `s` is
the newest. -/
theorem Stands.newest_of_pred (hw : 1 < w) (h : Stands c s x)
    (hb : ∀ t y, c (!parity s) = .full t y → t = s - 1) : newest c = some (s, x) := by
  have hh := h.here
  unfold newest
  cases hp : parity s with
  | false =>
      rw [hp] at hh hb
      rw [Bool.not_false] at hb
      rw [hh]
      cases ho : c true with
      | absent => rfl
      | damaged => rfl
      | full t y =>
          obtain rfl := hb t y ho
          have hn := not_newer_succ hw (s - 1)
          rw [show s - 1 + 1 = s by grind] at hn
          simp only [hn, if_false]
  | true =>
      rw [hp] at hh hb
      rw [Bool.not_true] at hb
      rw [hh]
      cases ho : c false with
      | absent => rfl
      | damaged => rfl
      | full t y =>
          obtain rfl := hb t y ho
          have hn := newer_succ hw (s - 1)
          rw [show s - 1 + 1 = s by grind] at hn
          simp only [hn, if_true]

/-- A finished version `s + 1` on the other side is stood on as well. -/
theorem Stands.next (hw : 1 < w) (h : Stands c s x) {y : α}
    (hy : c (!parity s) = .full (s + 1) y) : Stands c (s + 1) y := by
  have hp := parity_succ (by omega) s
  refine ⟨by rw [hp, hy], ?_⟩
  rw [hp, Bool.not_not, h.here]
  exact Or.inl (by grind)

/-- Where version `s` still stands, version `s + 1` has nothing newer beside
it. -/
theorem Stands.next_ne (hw : 1 < w) (h : Stands c s x) (z : α) :
    c (!parity (s + 1)) ≠ .full (s + 1 + 1) z := by
  intro hz
  rw [parity_succ (by omega), Bool.not_not, h.here] at hz
  obtain ⟨ht, -⟩ := Copy.full.inj hz
  exact sub_one_ne_add_one hw (s + 1) (by rw [← ht]; grind)

/-- The version before it is all that stands beside a version the other side
does not follow. -/
theorem Stands.pred_of_ne (h : Stands c s x) (hne : ∀ y, c (!parity s) ≠ .full (s + 1) y)
    (t : BitVec w) (y : α) (ht : c (!parity s) = .full t y) : t = s - 1 := by
  have hb := h.beside
  rw [ht] at hb
  rcases hb with hb | rfl
  · exact hb
  · exact absurd ht (hne y)

/-- Recovery from a state that stands on version `s` gives version `s`, or the
finished version after it. -/
theorem Stands.recover (hw : 1 < w) (h : Stands c s x) :
    ((∀ y, c (!parity s) ≠ .full (s + 1) y) ∧ recover base c = some (s, x)) ∨
      ∃ y, c (!parity s) = .full (s + 1) y ∧ recover base c = some (s + 1, y) := by
  by_cases hy : ∃ y, c (!parity s) = .full (s + 1) y
  · obtain ⟨y, hy⟩ := hy
    have hn := (h.next hw hy).newest_of_pred hw
      ((h.next hw hy).pred_of_ne (h.next_ne hw))
    exact Or.inr ⟨y, hy, by rw [Alternating.recover, hn]⟩
  · have hne : ∀ y, c (!parity s) ≠ .full (s + 1) y := fun y h' => hy ⟨y, h'⟩
    have hn := h.newest_of_pred hw (h.pred_of_ne hne)
    exact Or.inl ⟨hne, by rw [Alternating.recover, hn]⟩

/-- What recovery gives is stood on. -/
theorem Stands.reload (hw : 1 < w) (h : Stands c s x) {t : BitVec w} {y : α}
    (hr : Alternating.recover base c = some (t, y)) : Stands c t y := by
  rcases h.recover hw with ⟨-, hs⟩ | ⟨z, hz, hs⟩
  · rw [hs] at hr
    obtain ⟨rfl, rfl⟩ := Prod.mk.inj (Option.some.inj hr)
    exact h
  · rw [hs] at hr
    obtain ⟨rfl, rfl⟩ := Prod.mk.inj (Option.some.inj hr)
    exact h.next hw hz

/-- Writing version `s + 1` leaves version `s` in place however it ends. -/
theorem Stands.put (hw : 0 < w) (h : Stands c s x) {new : Copy w α} (hn : Attempted (s + 1) new) :
    Stands (put c (s + 1) new) s x := by
  have hp := parity_succ hw s
  refine ⟨?_, ?_⟩
  · rw [put_of_ne _ _ (by rw [hp]; cases parity s <;> decide)]
    exact h.here
  · rw [← hp, put_self]
    cases new with
    | absent => trivial
    | damaged => trivial
    | full t y => exact Or.inr hn.eq_of_full

/-- Version `s + 1` written in full is stood on. -/
theorem Stands.commit (hw : 1 < w) (h : Stands c s x) (y : α) :
    Stands (Alternating.put c (s + 1) (.full (s + 1) y)) (s + 1) y :=
  (h.put (by omega) (show Attempted (s + 1) (.full (s + 1) y) from rfl)).next hw
    (by rw [← parity_succ (by omega) s, put_self])

/-- Recovery before the first finished version: the base value when nothing has
been written. -/
theorem Virgin.recover_absent (h : Virgin c) (ho : c true = .absent) :
    recover base c = some (0, base) := by
  simp only [recover, newest, h.even, ho]

/-- Before the first finished version a damaged copy leaves nothing to
recover. -/
theorem Virgin.recover_damaged (h : Virgin c) (ho : c true = .damaged) :
    recover base c = none := by
  simp only [recover, newest, h.even, ho]

/-- A finished first version is stood on. -/
theorem Virgin.stands (hw : 0 < w) (h : Virgin c) {t : BitVec w} {y : α}
    (ho : c true = .full t y) : Stands c 1 y := by
  have hp := parity_one hw
  obtain rfl := h.odd t y ho
  refine ⟨by rw [hp, ho], ?_⟩
  rw [hp, Bool.not_true, h.even]
  trivial

/-- What recovery gives before the first finished version: the base value, or
version `1` to stand on. -/
theorem Virgin.reload (hw : 1 < w) (h : Virgin c) {t : BitVec w} {y : α}
    (hr : recover base c = some (t, y)) :
    (t = 0 ∧ y = base ∧ c true = .absent) ∨ (t = 1 ∧ Stands c 1 y) := by
  cases ho : c true with
  | absent =>
      rw [h.recover_absent ho] at hr
      obtain ⟨rfl, rfl⟩ := Prod.mk.inj (Option.some.inj hr)
      exact Or.inl ⟨rfl, rfl, rfl⟩
  | damaged => rw [h.recover_damaged ho] at hr; cases hr
  | full u z =>
      have hs := h.stands (by omega) ho
      obtain rfl := h.odd u z ho
      have hn : c (!parity (1 : BitVec w)) = .absent := by rw [parity_one (by omega)]; exact h.even
      rcases hs.recover hw with ⟨-, hr'⟩ | ⟨v, hv, -⟩
      · rw [hr'] at hr
        obtain ⟨rfl, rfl⟩ := Prod.mk.inj (Option.some.inj hr)
        exact Or.inr ⟨rfl, hs⟩
      · rw [hn] at hv; cases hv

/-- Writing the first version leaves the other side untouched however it
ends. -/
theorem Virgin.put (hw : 0 < w) (h : Virgin c) {new : Copy w α} (hn : Attempted 1 new) :
    Virgin (Alternating.put c 1 new) := by
  have hp := parity_one hw
  refine ⟨?_, fun t y ht => ?_⟩
  · rw [put_of_ne _ _ (by rw [hp]; decide)]
    exact h.even
  · rw [← hp, put_self] at ht
    rw [ht] at hn
    exact hn

/-! ### The version a session stands on -/

/-- Version `s` is complete, or it is `0` and no version is known to be. -/
def Current (c : Bool → Copy w α) (s : BitVec w) : Prop :=
  (∃ x, Stands c s x) ∨ (Virgin c ∧ s = 0)

/-- Writing the next version leaves the current one current. -/
theorem Current.put (hw : 0 < w) (h : Current c s) {new : Copy w α} (hn : Attempted (s + 1) new) :
    Current (Alternating.put c (s + 1) new) s := by
  rcases h with ⟨x, hs⟩ | ⟨hv, rfl⟩
  · exact Or.inl ⟨x, hs.put hw hn⟩
  · rw [show (0 : BitVec w) + 1 = 1 by grind] at hn ⊢
    exact Or.inr ⟨hv.put hw hn, rfl⟩

/-- The next version written in full becomes the current one and the one
recovered. -/
theorem Current.commit (hw : 1 < w) (h : Current c s) (y : α) :
    Current (Alternating.put c (s + 1) (.full (s + 1) y)) (s + 1) ∧
      recover base (Alternating.put c (s + 1) (.full (s + 1) y)) = some (s + 1, y) := by
  have hs : Stands (Alternating.put c (s + 1) (.full (s + 1) y)) (s + 1) y ∧
      ∀ z, Alternating.put c (s + 1) (.full (s + 1) y) (!parity (s + 1)) ≠ .full (s + 1 + 1) z := by
    rcases h with ⟨x, hs⟩ | ⟨hv, rfl⟩
    · exact ⟨hs.commit hw y, (hs.put (by omega) (show Attempted (s + 1) (.full (s + 1) y) from
        rfl)).next_ne hw⟩
    · rw [show (0 : BitVec w) + 1 = 1 by grind]
      have hv' := hv.put (by omega) (show Attempted 1 (.full 1 y) from rfl)
      have hp := @parity_one w (by omega)
      refine ⟨hv'.stands (by omega) (t := 1) (by rw [← hp, put_self]), fun z => ?_⟩
      rw [hp, Bool.not_true, hv'.even]
      simp
  refine ⟨Or.inl ⟨y, hs.1⟩, ?_⟩
  rcases hs.1.recover hw with ⟨-, hr⟩ | ⟨z, hz, -⟩
  · exact hr
  · exact absurd hz (hs.2 z)

/-- What recovery gives is current. -/
theorem Current.reload (hw : 1 < w) (h : Current c s) {t : BitVec w} {y : α}
    (hr : recover base c = some (t, y)) : Current c t := by
  rcases h with ⟨x, hs⟩ | ⟨hv, rfl⟩
  · exact Or.inl ⟨y, hs.reload hw hr⟩
  · rcases hv.reload hw hr with ⟨rfl, -, -⟩ | ⟨rfl, hs⟩
    · exact Or.inr ⟨hv, rfl⟩
    · exact Or.inl ⟨y, hs⟩

end Recovery

end Alternating
end VirtualPortal
