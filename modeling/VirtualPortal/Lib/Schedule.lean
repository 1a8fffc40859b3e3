/-
# Endless runs

A schedule gives a machine an input at every moment `n : ℕ`, and `Run.along` is the
state it is in then.  What must happen in an endless run is said of moments: `Recurs p`
has one of `p` come again and again, and `LeadsTo p q` has one of `q` follow every one
of `p`.

`LeadsTo.meets` is the rule the others come from: what persists until a moment of `f`
meets one.  `LeadsTo.of_rank` turns a number that never grows, and shrinks at every
moment of `f`, into an end, and `counted_le` into a bound on the moments before the end.
`LeadsTo.popped` says that what is in a queue is taken from it, if something is taken
again and again.
-/

import VirtualPortal.Lib.Run
import Mathlib.Data.Nat.Init
import Mathlib.Order.Nat

namespace VirtualPortal

/-- A moment of `p` comes again and again. -/
def Recurs (p : ℕ → Prop) : Prop := ∀ n, ∃ k, n ≤ k ∧ p k

/-- A moment of `p` is one of `q`, or is followed by one. -/
def LeadsTo (p q : ℕ → Prop) : Prop := ∀ n, p n → ∃ k, n ≤ k ∧ q k

section Moments

variable {p p' q q' r f : ℕ → Prop}

/-- What implies another property leads to it at once. -/
theorem LeadsTo.of_imp (h : ∀ n, p n → q n) : LeadsTo p q := fun n hn => ⟨n, le_rfl, h n hn⟩

/-- What implies another property one step later leads to it. -/
theorem LeadsTo.next (h : ∀ n, p n → q (n + 1)) : LeadsTo p q :=
  fun n hn => ⟨n + 1, Nat.le_succ n, h n hn⟩

/-- Leading to something is transitive. -/
theorem LeadsTo.trans (h : LeadsTo p q) (h' : LeadsTo q r) : LeadsTo p r := by
  intro n hn
  obtain ⟨k, hk, hq⟩ := h n hn
  obtain ⟨l, hl, hr⟩ := h' k hq
  exact ⟨l, hk.trans hl, hr⟩

/-- Two properties that lead to the same. -/
theorem LeadsTo.or (h : LeadsTo p q) (h' : LeadsTo p' q) : LeadsTo (fun n => p n ∨ p' n) q := by
  intro n hn
  rcases hn with hn | hn
  · exact h n hn
  · exact h' n hn

/-- What a property that recurs leads to recurs. -/
theorem LeadsTo.recurs (h : LeadsTo p q) (hp : Recurs p) : Recurs q := by
  intro n
  obtain ⟨k, hk, hpk⟩ := hp n
  obtain ⟨l, hl, hq⟩ := h k hpk
  exact ⟨l, hk.trans hl, hq⟩

/-- Everything leads to a property that recurs. -/
theorem Recurs.leadsTo (h : Recurs q) : LeadsTo p q := fun n _ => h n

/-- What persists until a moment of `f`, or ends in `q`, meets one or ends. -/
theorem LeadsTo.meets (hf : LeadsTo p f) (hwait : ∀ n, p n → ¬ f n → p (n + 1) ∨ q (n + 1)) :
    LeadsTo p fun n => p n ∧ f n ∨ q n := by
  intro n hn
  obtain ⟨k, hk, hfk⟩ := hf n hn
  obtain ⟨d, rfl⟩ := Nat.exists_eq_add_of_le hk
  clear hk
  induction d generalizing n with
  | zero => exact ⟨n, le_rfl, Or.inl ⟨hn, hfk⟩⟩
  | succ d ih =>
      by_cases hfn : f n
      · exact ⟨n, le_rfl, Or.inl ⟨hn, hfn⟩⟩
      · rcases hwait n hn hfn with hnext | hend
        · obtain ⟨l, hl, hgoal⟩ := ih (n + 1) hnext (by rwa [Nat.add_right_comm, Nat.add_assoc])
          exact ⟨l, (Nat.le_succ n).trans hl, hgoal⟩
        · exact ⟨n + 1, Nat.le_succ n, Or.inr hend⟩

/-- What persists until a moment of `f` meets one. -/
theorem LeadsTo.persists (hf : LeadsTo p f) (hwait : ∀ n, p n → ¬ f n → p (n + 1)) :
    LeadsTo p fun n => p n ∧ f n :=
  (LeadsTo.meets (q := fun _ => False) hf fun n hn hfn => Or.inl (hwait n hn hfn)).trans
    (.of_imp fun _ hn => hn.resolve_right id)

/-- A rank that no step raises, and that each step at a moment of `f` lowers. -/
theorem LeadsTo.of_rank (rank : ℕ → ℕ) (hf : LeadsTo p f)
    (hwait : ∀ n, p n → ¬ f n → p (n + 1) ∧ rank (n + 1) ≤ rank n ∨ q (n + 1))
    (hact : ∀ n, p n → f n → p (n + 1) ∧ rank (n + 1) < rank n ∨ q (n + 1)) : LeadsTo p q := by
  have hrank (k : ℕ) : LeadsTo (fun n => p n ∧ rank n ≤ k) q := by
    induction k using Nat.strong_induction_on with
    | _ k ih =>
        have hstay (n : ℕ) (h : p n ∧ rank n ≤ k) (hn : ¬ f n) :
            (p (n + 1) ∧ rank (n + 1) ≤ k) ∨ q (n + 1) := by
          rcases hwait n h.1 hn with ⟨hnext, hle⟩ | hend
          · exact Or.inl ⟨hnext, hle.trans h.2⟩
          · exact Or.inr hend
        have hmeets := LeadsTo.meets (fun n (h : p n ∧ rank n ≤ k) => hf n h.1) hstay
        refine hmeets.trans (LeadsTo.or ?_ (.of_imp fun n hn => hn))
        rintro n ⟨⟨hn, hle⟩, hfn⟩
        rcases hact n hn hfn with ⟨hnext, hlt⟩ | hend
        · obtain ⟨l, hl, hq⟩ := ih (rank (n + 1)) (hlt.trans_le hle) (n + 1) ⟨hnext, le_rfl⟩
          exact ⟨l, (Nat.le_succ n).trans hl, hq⟩
        · exact ⟨n + 1, Nat.le_succ n, hend⟩
  intro n hn
  exact hrank (rank n) n ⟨hn, le_rfl⟩

/-- While `p` lasts there are no more moments of `f` than the rank allows, and one. -/
theorem counted_le [DecidablePred f] (rank : ℕ → ℕ)
    (hwait : ∀ n, p n → p (n + 1) → rank (n + 1) ≤ rank n)
    (hact : ∀ n, p n → f n → p (n + 1) → rank (n + 1) < rank n) {n l : ℕ}
    (hp : ∀ i < l, p (n + i)) : (List.range l).countP (fun i => f (n + i)) ≤ rank n + 1 := by
  have hcount (l : ℕ) (hp : ∀ i < l + 1, p (n + i)) :
      rank (n + l) + (List.range l).countP (fun i => f (n + i)) ≤ rank n := by
    induction l with
    | zero => exact le_rfl
    | succ l ih =>
        have hle := ih fun i hi => hp i (by omega)
        have hnow := hp l (by omega)
        have hnext : p (n + l + 1) := hp (l + 1) (by omega)
        show rank (n + l + 1) + _ ≤ _
        rw [List.range_succ, List.countP_append, List.countP_singleton]
        split_ifs with hf
        · have hlt := hact (n + l) hnow (of_decide_eq_true hf) hnext
          omega
        · have hle' := hwait (n + l) hnow hnext
          omega
  cases l with
  | zero => exact Nat.zero_le _
  | succ l =>
      have hle := hcount l hp
      rw [List.range_succ, List.countP_append, List.countP_singleton]
      split_ifs <;> omega

/-! ### Queues -/

/-- A queue from which each moment of `pops` takes the front, and to whose end
anything may be added. -/
structure Queues {β : Type*} (queue : ℕ → List β) (pops : ℕ → Prop) : Prop where
  pop : ∀ n, pops n → ∃ new, queue (n + 1) = (queue n).tail ++ new
  keep : ∀ n, ¬ pops n → ∃ new, queue (n + 1) = queue n ++ new

/-- What is in the queue is taken from its front some time. -/
theorem LeadsTo.popped {β : Type*} {queue : ℕ → List β} {pops : ℕ → Prop}
    (h : Queues queue pops) (hpops : Recurs pops) (e : β) :
    LeadsTo (fun n => e ∈ queue n) fun n => pops n ∧ (queue n).head? = some e := by
  have hindex (i : ℕ) : LeadsTo (fun n => (queue n)[i]? = some e)
      fun n => pops n ∧ (queue n).head? = some e := by
    have hstay (i n : ℕ) (hn : (queue n)[i]? = some e) (hpop : ¬ pops n) :
        (queue (n + 1))[i]? = some e := by
      obtain ⟨new, hnew⟩ := h.keep n hpop
      obtain ⟨hlt, -⟩ := List.getElem?_eq_some_iff.mp hn
      rw [hnew, List.getElem?_append_left hlt]
      exact hn
    induction i with
    | zero =>
        refine (LeadsTo.persists hpops.leadsTo (hstay 0)).trans (.of_imp ?_)
        rintro n ⟨hfront, hpop⟩
        exact ⟨hpop, by rwa [List.head?_eq_getElem?]⟩
    | succ i ih =>
        refine (LeadsTo.persists hpops.leadsTo (hstay (i + 1))).trans ((LeadsTo.next ?_).trans ih)
        rintro n ⟨hfront, hpop⟩
        obtain ⟨new, hnew⟩ := h.pop n hpop
        obtain ⟨hlt, -⟩ := List.getElem?_eq_some_iff.mp hfront
        rw [hnew, List.getElem?_append_left (by rw [List.length_tail]; omega), List.getElem?_tail]
        exact hfront
  intro n hn
  obtain ⟨i, hi⟩ := List.getElem?_of_mem hn
  exact hindex i n hi

end Moments

namespace Run

variable {σ α ε : Type*} {step : σ → α → σ × List ε} {C : σ → α → Prop}

/-- The state before the input of moment `n`. -/
def along (step : σ → α → σ × List ε) (s : σ) (as : ℕ → α) : ℕ → σ
  | 0 => s
  | n + 1 => (step (along step s as n) (as n)).1

/-- What the machine emits at moment `n`. -/
def emits (step : σ → α → σ × List ε) (s : σ) (as : ℕ → α) (n : ℕ) : List ε :=
  (step (along step s as n) (as n)).2

/-- The inputs before moment `n`. -/
def before (as : ℕ → α) (n : ℕ) : List α := (List.range n).map as

/-- The actions up to one more. -/
theorem before_succ (as : ℕ → α) (n : ℕ) : before as (n + 1) = before as n ++ [as n] := by
  rw [before, List.range_succ, List.map_append]
  rfl

/-- Every moment of an endless run is the end of a run. -/
theorem along_eq_final (s : σ) (as : ℕ → α) (n : ℕ) :
    along step s as n = final step s (before as n) := by
  induction n with
  | zero => rfl
  | succ n ih =>
      rw [before_succ, final_append, ← ih]
      rfl

/-- A condition on every step of an endless run holds of the runs before. -/
theorem every_before {s : σ} {as : ℕ → α} (h : ∀ n, C (along step s as n) (as n)) (n : ℕ) :
    Every step C s (before as n) := by
  induction n with
  | zero => trivial
  | succ n ih =>
      rw [before_succ, every_append, ← along_eq_final]
      exact ⟨ih, h n, trivial⟩

/-! ### A run and what comes after it -/

/-- The schedule `b` after the inputs of a run. -/
def after : List α → (ℕ → α) → ℕ → α
  | [], b, n => b n
  | a :: _, _, 0 => a
  | _ :: as, b, n + 1 => after as b n

variable {as : List α} {b : ℕ → α} {s : σ}

/-- After the run comes the schedule. -/
theorem after_add (n : ℕ) : after as b (as.length + n) = b n := by
  induction as with
  | nil => rw [List.length_nil, Nat.zero_add, after]
  | cons a as ih =>
      rw [List.length_cons, Nat.add_right_comm, after]
      exact ih

/-- An action of the list or of the schedule after it. -/
theorem after_cases (n : ℕ) : after as b n ∈ as ∨ ∃ k, after as b n = b k := by
  induction as generalizing n with
  | nil => exact Or.inr ⟨n, rfl⟩
  | cons a as ih =>
      cases n with
      | zero => exact Or.inl List.mem_cons_self
      | succ n => exact (ih n).imp_left (List.mem_cons_of_mem a)

/-- What comes again and again in the schedule does so after the run. -/
theorem recurs_after {p : α → Prop} (h : Recurs fun n => p (b n)) :
    Recurs fun n => p (after as b n) := by
  intro n
  obtain ⟨k, hk, hp⟩ := h n
  refine ⟨as.length + k, hk.trans (Nat.le_add_left k _), ?_⟩
  dsimp only
  rw [after_add]
  exact hp

/-- A schedule, with its first step taken. -/
theorem along_succ_left (s : σ) (as : ℕ → α) (n : ℕ) :
    along step s as (n + 1) = along step (step s (as 0)).1 (fun k => as (k + 1)) n := by
  induction n with
  | zero => rfl
  | succ n ih => exact congrArg (fun s => (step s (as (n + 1))).1) ih

/-- The states after the run are those of the schedule from where the run has ended. -/
theorem along_after (n : ℕ) :
    along step s (after as b) (as.length + n) = along step (final step s as) b n := by
  induction as generalizing s with
  | nil =>
      rw [List.length_nil, Nat.zero_add, final_nil]
      rfl
  | cons a as ih =>
      rw [List.length_cons, Nat.add_right_comm, along_succ_left, final_cons]
      exact ih

/-- What a schedule emits after a list of actions. -/
theorem emits_after (n : ℕ) :
    emits step s (after as b) (as.length + n) = emits step (final step s as) b n := by
  rw [emits, emits, along_after, after_add]

end Run
end VirtualPortal
