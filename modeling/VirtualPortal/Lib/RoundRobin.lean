/-
# Service in turn

A machine serves the members of `Fin n` from a cursor: a step that serves takes
the first ready member at or after the cursor, cyclically, and leaves the cursor
behind it.  Which members are ready may change at every step.  `RoundRobin` says
this of a machine whose other steps leave the cursor alone.

`ahead c j` is how far the cursor `c` has to go to reach `j`.  While `j` is ready
nothing beyond it is served, so a serving that is not its own brings the cursor
closer (`RoundRobin.ahead_servings`), and what lies beyond it stays beyond it
(`RoundRobin.behind`).  Hence a member that stays ready waits for at most `n - 1`
servings of others (`RoundRobin.servings_le`), and nobody is served twice before
it (`RoundRobin.served_between`).
-/

import VirtualPortal.Lib.Run
import Mathlib.Algebra.Group.Fin.Basic
import Mathlib.Data.Fin.Basic
import Mathlib.Data.List.FinRange
import Mathlib.Tactic.Abel

namespace VirtualPortal

variable {n : ℕ}

/-- The steps of a cursor at `c` to `j`. -/
def ahead (c j : Fin n) : ℕ := (j - c).val

section Cursor

/-- The distance from the cursor is less than the number of places. -/
theorem ahead_lt (c j : Fin n) : ahead c j < n := (j - c).isLt

variable [NeZero n] {c j k : Fin n}

/-- Different places have different distances. -/
theorem ahead_inj (h : ahead c j = ahead c k) : j = k := sub_left_injective (Fin.ext h)

/-- The cursor behind `k` is closer to what lies beyond `k`. -/
theorem ahead_succ (h : ahead c k < ahead c j) : ahead (k + 1) j + ahead c k + 1 = ahead c j := by
  have hone : ((k - c) + 1).val = (k - c).val + 1 := by
    have hlt : (k - c).val + 1 < n := lt_of_le_of_lt h (ahead_lt c j)
    exact Fin.val_add_one_of_lt' hlt
  have hle : (k - c) + 1 ≤ j - c := by
    rw [Fin.le_def, hone]
    exact h
  have hsub : j - (k + 1) = (j - c) - ((k - c) + 1) := by abel
  have hval : ahead (k + 1) j = (j - c).val - ((k - c).val + 1) := by
    rw [ahead, hsub, Fin.sub_val_of_le hle, hone]
  unfold ahead at *
  omega

/-- The cursor behind `k` reaches `k` last. -/
theorem ahead_succ_self (h : j ≠ k) : ahead (k + 1) j < ahead (k + 1) k := by
  have hlast : ahead (k + 1) k = n - 1 := by
    obtain ⟨m, rfl⟩ := Nat.exists_eq_succ_of_ne_zero (NeZero.ne n)
    have hneg : k - (k + 1) = -1 := by abel
    rw [ahead, hneg, Fin.coe_neg_one]
    rfl
  have hne : ahead (k + 1) j ≠ ahead (k + 1) k := fun he => h (ahead_inj he)
  have hlt := ahead_lt (k + 1) j
  omega

/-- The first member from the cursor on that has the property. -/
def nextFrom (p : Fin n → Bool) (c : Fin n) : Option (Fin n) :=
  ((List.finRange n).find? fun i => p (c + i)).map (c + ·)

/-- The place found is the nearest one that is wanted. -/
theorem nextFrom_eq_some {p : Fin n → Bool} (h : nextFrom p c = some k) :
    p k = true ∧ ∀ j, p j = true → ahead c k ≤ ahead c j := by
  obtain ⟨i, hi, rfl⟩ := Option.map_eq_some_iff.mp h
  have hahead : ahead c (c + i) = i.val := congrArg Fin.val (add_sub_cancel_left c i)
  refine ⟨by simpa using List.find?_some hi, fun j hj => ?_⟩
  obtain ⟨-, before, after, hrange, hbefore⟩ := List.find?_eq_some_iff_append.mp hi
  rw [hahead]
  by_contra hlt
  have hmem : j - c ∈ before ++ i :: after := hrange ▸ List.mem_finRange (j - c)
  have hsorted := hrange ▸ List.pairwise_lt_finRange n
  rcases List.mem_append.mp hmem with hmem | hmem
  · simpa [hj] using hbefore _ hmem
  · rcases List.mem_cons.mp hmem with heq | hmem
    · exact hlt (le_of_eq (congrArg Fin.val heq.symm))
    · have hcons := (List.pairwise_append.mp hsorted).2.1
      exact hlt (Fin.le_def.mp ((List.pairwise_cons.mp hcons).1 _ hmem).le)

/-- Where no place is found none is wanted. -/
theorem nextFrom_eq_none {p : Fin n → Bool} (h : nextFrom p c = none) (j : Fin n) :
    p j = false := by
  have hnone := List.find?_eq_none.mp (Option.map_eq_none_iff.mp h) (j - c) (List.mem_finRange _)
  simpa using hnone

end Cursor

/-- The steps of a machine serve `Fin n` in turn. -/
structure RoundRobin {σ α ε : Type*} [NeZero n] (step : σ → α → σ × List ε) (cursor : σ → Fin n)
    (ready : σ → Fin n → Prop) (served : σ → α → Option (Fin n)) : Prop where
  still : ∀ s a, served s a = none → cursor (step s a).1 = cursor s
  turns : ∀ s a k, served s a = some k → cursor (step s a).1 = k + 1
  first : ∀ s a k, served s a = some k → ∀ j, ready s j → ahead (cursor s) k ≤ ahead (cursor s) j

/-- What a run serves, in order. -/
def servings {σ α ε : Type*} (step : σ → α → σ × List ε) (served : σ → α → Option (Fin n))
    (s : σ) (as : List α) : List (Fin n) :=
  Run.outputs (fun s a => ((step s a).1, (served s a).toList)) s as

/-- The servings of a run are that of its first step and those of the rest. -/
theorem servings_cons {σ α ε : Type*} (step : σ → α → σ × List ε) (served : σ → α → Option (Fin n))
    (s : σ) (a : α) (as : List α) :
    servings step served s (a :: as) =
      (served s a).toList ++ servings step served (step s a).1 as :=
  rfl

namespace RoundRobin

variable {σ α ε : Type*} [NeZero n] {step : σ → α → σ × List ε} {cursor : σ → Fin n}
  {ready : σ → Fin n → Prop} {served : σ → α → Option (Fin n)} {s : σ} {as : List α} {j k : Fin n}

/-- One step: the cursor comes closer to a ready member that is not served, by
at least the serving, and never jumps over it. -/
theorem ahead_step (h : RoundRobin step cursor ready served) {a : α} (hready : ready s j)
    (hj : served s a ≠ some j) :
    (∃ d, ahead (cursor s) j = ahead (cursor (step s a).1) j + d ∧
      (served s a).toList.length ≤ d ∧
      ∀ k, ahead (cursor s) j < ahead (cursor s) k →
        served s a ≠ some k ∧ ahead (cursor s) k = ahead (cursor (step s a).1) k + d) := by
  cases hserved : served s a with
  | none =>
      rw [h.still s a hserved]
      exact ⟨0, rfl, Nat.le_refl 0, fun k _ => ⟨by simp, rfl⟩⟩
  | some i =>
      have hij : i ≠ j := fun he => hj (by rw [hserved, he])
      have hle := h.first s a i hserved j hready
      have hlt : ahead (cursor s) i < ahead (cursor s) j :=
        lt_of_le_of_ne hle fun he => hij (ahead_inj he)
      rw [h.turns s a i hserved]
      refine ⟨ahead (cursor s) i + 1, (ahead_succ hlt).symm, Nat.le_add_left 1 _, fun k hk => ?_⟩
      refine ⟨fun he => ?_, (ahead_succ (hlt.trans hk)).symm⟩
      rw [Option.some.inj he] at hlt
      omega

/-- Each serving of another brings the cursor closer to a member that stays
ready. -/
theorem ahead_servings (h : RoundRobin step cursor ready served)
    (hready : Run.Every step (fun s _ => ready s j) s as) (hj : j ∉ servings step served s as) :
    ahead (cursor (Run.final step s as)) j + (servings step served s as).length ≤
      ahead (cursor s) j := by
  induction as generalizing s with
  | nil => exact Nat.le_refl _
  | cons a as ih =>
      rw [servings_cons] at hj ⊢
      rw [List.mem_append, not_or] at hj
      have hrest := ih hready.2 hj.2
      obtain ⟨d, hd, hlen, -⟩ :=
        @ahead_step _ _ _ _ _ _ _ _ _ s _ h a hready.1 fun he => hj.1 (by simp [he])
      rw [Run.final_cons, List.length_append]
      omega

/-- A member that stays ready waits for fewer than `n` servings. -/
theorem servings_le (h : RoundRobin step cursor ready served)
    (hready : Run.Every step (fun s _ => ready s j) s as) (hj : j ∉ servings step served s as) :
    (servings step served s as).length ≤ n - 1 := by
  have hle := h.ahead_servings hready hj
  have hlt := ahead_lt (cursor s) j
  omega

/-- What the cursor reaches after a waiting member it goes on reaching after it. -/
theorem behind (h : RoundRobin step cursor ready served)
    (hready : Run.Every step (fun s _ => ready s j) s as) (hj : j ∉ servings step served s as)
    (hk : ahead (cursor s) j < ahead (cursor s) k) :
    ahead (cursor (Run.final step s as)) j < ahead (cursor (Run.final step s as)) k := by
  induction as generalizing s with
  | nil => exact hk
  | cons a as ih =>
      rw [servings_cons, List.mem_append, not_or] at hj
      obtain ⟨d, hd, -, hbeyond⟩ :=
        @ahead_step _ _ _ _ _ _ _ _ _ s _ h a hready.1 fun he => hj.1 (by simp [he])
      have hd' := (hbeyond k hk).2
      exact ih hready.2 hj.2 (by omega)

/-- **Nobody is served twice before a member that is ready throughout.** -/
theorem served_between (h : RoundRobin step cursor ready served) {a a' : α}
    (hserved : served s a = some k) (hne : j ≠ k)
    (hready : Run.Every step (fun s _ => ready s j) (step s a).1 (as ++ [a']))
    (hserved' : served (Run.final step (step s a).1 as) a' = some k) :
    j ∈ servings step served (step s a).1 as := by
  by_contra hj
  obtain ⟨hready, hlast, -⟩ := (Run.every_append _ _ _).mp hready
  have hbefore : ahead (cursor (step s a).1) j < ahead (cursor (step s a).1) k := by
    rw [h.turns s a k hserved]
    exact ahead_succ_self hne
  have hbehind := h.behind hready hj hbefore
  have hfirst := h.first _ a' k hserved' j hlast
  omega

end RoundRobin
end VirtualPortal
