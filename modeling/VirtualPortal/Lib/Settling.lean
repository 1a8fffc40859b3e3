/-
# Settling within a number of steps

A family `W` of properties of the states of a machine, where `W n` says that at most
`n` more steps are needed: a step takes `W (n + 1)` to `W n`, and `W 0` stays.  After
`n` steps from a state of `W n` the machine has settled (`Settling.settles`), and two
such stages follow one another (`Settling.then_settles`).
-/

import VirtualPortal.Lib.Run

namespace VirtualPortal

variable {σ α ε : Type*}

/-- Every step that meets `C` brings `W 0` closer, and keeps it. -/
structure Settling (step : σ → α → σ × List ε) (C : σ → α → Prop) (W : ℕ → σ → Prop) : Prop where
  closer : ∀ n s a, C s a → W (n + 1) s → W n (step s a).1
  rests : ∀ s a, C s a → W 0 s → W 0 (step s a).1

namespace Settling

variable {step : σ → α → σ × List ε} {C : σ → α → Prop} {V W : ℕ → σ → Prop}

/-- After as many steps as are needed the machine has settled. -/
theorem settles (h : Settling step C W) {n : ℕ} {s : σ} {as : List α}
    (hC : Run.Every step C s as) (hn : n ≤ as.length) (hs : W n s) :
    W 0 (Run.final step s as) := by
  induction as generalizing n s with
  | nil =>
      obtain rfl : n = 0 := Nat.eq_zero_of_le_zero hn
      exact hs
  | cons a as ih =>
      cases n with
      | zero => exact ih hC.2 (Nat.zero_le _) (h.rests s a hC.1 hs)
      | succ n => exact ih hC.2 (Nat.le_of_succ_le_succ hn) (h.closer n s a hC.1 hs)

/-- A stage of `m` steps after which at most `n` more are needed for the next one. -/
theorem then_settles (h : Settling step C V) (h' : Settling step C W) {m n : ℕ} {s : σ}
    {as : List α} (hC : Run.Every step C s as) (hlength : m + n ≤ as.length) (hs : V m s)
    (hnext : ∀ bs, Run.Every step C s bs → V 0 (Run.final step s bs) →
      W n (Run.final step s bs)) : W 0 (Run.final step s as) := by
  rw [← List.take_append_drop m as] at hC ⊢
  rw [Run.every_append] at hC
  have hfirst : V 0 (Run.final step s (as.take m)) :=
    h.settles hC.1 (by rw [List.length_take]; omega) hs
  rw [Run.final_append]
  exact h'.settles hC.2 (by rw [List.length_drop]; omega) (hnext _ hC.1 hfirst)

end Settling
end VirtualPortal
