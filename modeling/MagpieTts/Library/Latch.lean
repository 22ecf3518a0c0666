import Mathlib.Data.List.Basic
import Mathlib.Logic.Basic
import Mathlib.Tactic.SplitIfs

/-!
# A latch

A latch keeps the first value that it is offered. It accepts an offer of the same value, refuses one
that differs, and refuses every offer after that.

## Main definitions

* `Latch`, `Latch.offer`: the latch and an offer.
* `Latch.after`: the latch behind some offers, in closed form.

## Main results

* `Latch.offer_after`: an offer is accepted exactly when it is the value of every offer before.
-/

namespace MagpieTts.Library

/-- The value kept, and whether a different one was offered. -/
structure Latch (τ : Type*) where
  value : Option τ
  conflict : Bool

namespace Latch

variable {τ : Type*} [DecidableEq τ]

/-- The latch that nothing was offered to. -/
def initial : Latch τ := ⟨none, false⟩

/-- The answer to an offer, and the latch behind it. -/
def offer (latch : Latch τ) (candidate : τ) : Bool × Latch τ :=
  if latch.conflict = true then (false, latch)
  else
    match latch.value with
    | none => (true, { latch with value := some candidate })
    | some value =>
      if value = candidate then (true, latch) else (false, { latch with conflict := true })

/-- The latch behind the offers of some values. -/
def after (values : List τ) : Latch τ :=
  ⟨values.head?, decide (∃ value ∈ values, values.head? ≠ some value)⟩

theorem after_nil : after ([] : List τ) = initial := by simp [after, initial]

theorem after_cons (first : τ) (rest : List τ) :
    after (first :: rest) = ⟨some first, decide (∃ value ∈ rest, first ≠ value)⟩ := by
  simp [after]

theorem offer_after_nil (candidate : τ) :
    (after []).offer candidate = (true, after [candidate]) := by
  simp [after, offer]

/-- An offer is answered by whether its value is the one of every offer before. -/
theorem offer_after (values : List τ) (candidate : τ) :
    (after values).offer candidate =
      (decide (∀ value ∈ values, value = candidate), after (values ++ [candidate])) := by
  cases values with
  | nil => simp [offer_after_nil]
  | cons first rest =>
    rw [List.cons_append, after_cons, after_cons, offer]
    by_cases hconflict : ∃ value ∈ rest, first ≠ value
    · -- a different value was offered
      obtain ⟨value, hvalue, hne⟩ := hconflict
      have hdiffers : ¬ ∀ value ∈ first :: rest, value = candidate := fun hall =>
        hne ((hall first List.mem_cons_self).trans
          (hall value (List.mem_cons_of_mem _ hvalue)).symm)
      rw [if_pos (decide_eq_true ⟨value, hvalue, hne⟩), decide_eq_false hdiffers,
        decide_eq_true ⟨value, hvalue, hne⟩,
        decide_eq_true ⟨value, List.mem_append_left _ hvalue, hne⟩]
    · have hrest : ∀ value ∈ rest, value = first := fun value hvalue => by
        by_contra hne
        exact hconflict ⟨value, hvalue, fun heq => hne heq.symm⟩
      rw [if_neg (by rwa [decide_eq_true_iff])]
      dsimp only
      split_ifs with hsame
      · subst hsame
        have hall : ∀ value ∈ first :: rest, value = first :=
          List.forall_mem_cons.mpr ⟨rfl, hrest⟩
        rw [decide_eq_true hall]
        simp
      · have hdiffers : ¬ ∀ value ∈ first :: rest, value = candidate := fun hall =>
          hsame (hall first List.mem_cons_self)
        rw [decide_eq_false hdiffers,
          decide_eq_true ⟨candidate, List.mem_append_right _ List.mem_cons_self, hsame⟩]

end Latch

end MagpieTts.Library
