import Mathlib.Data.List.Basic
import Mathlib.Order.Basic

/-!
# Finite runs of a deterministic step function

A machine is a step function `step : σ → α → σ` on a state type, driven by a list of actions: the
calls of an interface, or the choices of a scheduler. This file collects the induction rules for
its finite runs.

## Main definitions

* `run step s as`: the state after the actions `as`.
* `StepsMeet step C s as`: every action of the run is taken in a state that meets the condition `C`.

## Main results

* `run_induction`: what the initial state has and every step preserves, every reached state has.
* `stepsMeet_iff_of_invariant`: two conditions that an invariant makes equivalent pick the same
  runs.
* `run_induction_of_stepsMeet`: the same for the runs whose steps all meet a condition.
* `run_take_related`: a preorder that the steps respect relates any two states of a run.
* `exists_step_of_run`: what a run brings about, one of its steps does.
-/

namespace MagpieTts.Library

variable {σ τ α : Type*} {step : σ → α → σ}

/-- The state reached from `s` by the actions `as`. -/
def run (step : σ → α → σ) (s : σ) (as : List α) : σ := as.foldl step s

@[simp] theorem run_nil (s : σ) : run step s [] = s := rfl

@[simp] theorem run_cons (s : σ) (a : α) (as : List α) :
    run step s (a :: as) = run step (step s a) as := rfl

theorem run_append (s : σ) (as bs : List α) :
    run step s (as ++ bs) = run step (run step s as) bs :=
  List.foldl_append

theorem run_concat (s : σ) (as : List α) (a : α) :
    run step s (as ++ [a]) = step (run step s as) a := by
  rw [run_append, run_cons, run_nil]

/-- Every action of the run of `as` from `s` is taken in a state that meets `C`. -/
def StepsMeet (step : σ → α → σ) (C : σ → α → Prop) : σ → List α → Prop
  | _, [] => True
  | s, a :: as => C s a ∧ StepsMeet step C (step s a) as

theorem stepsMeet_append {C : σ → α → Prop} : {s : σ} → (as bs : List α) →
    (StepsMeet step C s (as ++ bs) ↔
      StepsMeet step C s as ∧ StepsMeet step C (run step s as) bs)
  | _, [], _ => by simp [StepsMeet]
  | s, a :: as, bs => by
      simp only [List.cons_append, StepsMeet, run_cons, stepsMeet_append as bs, and_assoc]

/-- Under an invariant that the steps with `C` preserve, and that makes `P` and `C` equivalent, the
runs whose steps all meet `P` are those whose steps all meet `C`. -/
theorem stepsMeet_iff_of_invariant {P C : σ → α → Prop} {I : σ → Prop}
    (hiff : ∀ s a, I s → (P s a ↔ C s a)) (hstep : ∀ s a, I s → C s a → I (step s a)) {s : σ}
    (hs : I s) (as : List α) : StepsMeet step P s as ↔ StepsMeet step C s as := by
  induction as generalizing s with
  | nil => exact Iff.rfl
  | cons a as ih =>
    rw [StepsMeet, StepsMeet, hiff s a hs]
    exact and_congr_right fun hC => ih (hstep s a hs hC)

/-- The invariant rule for the runs whose steps all meet `C`. -/
theorem run_induction_of_stepsMeet {C : σ → α → Prop} {I : σ → Prop}
    (hstep : ∀ s a, I s → C s a → I (step s a)) {s : σ} (hs : I s) (as : List α)
    (hC : StepsMeet step C s as) : I (run step s as) := by
  induction as generalizing s with
  | nil => exact hs
  | cons a as ih => exact ih (hstep s a hs hC.1) hC.2

/-- The invariant rule: what holds at the start and is preserved by every step holds at the end of
every run. -/
theorem run_induction {I : σ → Prop} (hstep : ∀ s a, I s → I (step s a)) {s : σ} (hs : I s)
    (as : List α) : I (run step s as) := by
  induction as generalizing s with
  | nil => exact hs
  | cons a as ih => exact ih (hstep s a hs)

theorem stepsMeet_and {C D : σ → α → Prop} {s : σ} (as : List α) :
    StepsMeet step (fun s a => C s a ∧ D s a) s as ↔
      StepsMeet step C s as ∧ StepsMeet step D s as := by
  induction as generalizing s with
  | nil => simp [StepsMeet]
  | cons a as ih =>
    simp only [StepsMeet, ih]
    exact and_and_and_comm

theorem stepsMeet_of_forall_mem {C : σ → α → Prop} {as : List α} (hC : ∀ s, ∀ a ∈ as, C s a)
    {s : σ} : StepsMeet step C s as := by
  induction as generalizing s with
  | nil => trivial
  | cons a as ih =>
    exact ⟨hC s a List.mem_cons_self, ih fun s b hmem => hC s b (List.mem_cons_of_mem a hmem)⟩

/-! ### The states behind the prefixes of a run -/

theorem stepsMeet_take {C : σ → α → Prop} {s : σ} {as : List α} (hC : StepsMeet step C s as)
    (i : ℕ) : StepsMeet step C s (as.take i) := by
  rw [← List.take_append_drop i as, stepsMeet_append] at hC
  exact hC.1

/-- The steps of a run, counted. -/
theorem stepsMeet_iff_getElem {C : σ → α → Prop} {s : σ} {as : List α} :
    StepsMeet step C s as ↔ ∀ i (hi : i < as.length), C (run step s (as.take i)) as[i] := by
  induction as generalizing s with
  | nil => simp [StepsMeet]
  | cons a as ih =>
    rw [StepsMeet, ih]
    constructor
    · rintro ⟨hhead, htail⟩ (_ | i) hi
      · exact hhead
      · exact htail i (by simpa using hi)
    · exact fun hall => ⟨hall 0 (by simp), fun i hi => hall (i + 1) (by simpa using hi)⟩

theorem run_take_succ {s : σ} {as : List α} {i : ℕ} (hi : i < as.length) :
    run step s (as.take (i + 1)) = step (run step s (as.take i)) as[i] := by
  rw [List.take_succ_eq_append_getElem hi, run_concat]

theorem run_take_of_length_le {s : σ} {as : List α} {i : ℕ} (hi : as.length ≤ i) :
    run step s (as.take (i + 1)) = run step s (as.take i) := by
  rw [List.take_of_length_le hi, List.take_of_length_le (by omega)]

/-- A reflexive and transitive relation that every step with `C` respects relates any two states of
a run whose steps meet `C`. -/
theorem run_take_related {C : σ → α → Prop} {I : σ → Prop} {R : σ → σ → Prop}
    (hrefl : ∀ s, R s s) (htrans : ∀ {s t u}, R s t → R t u → R s u)
    (hI : ∀ s a, I s → C s a → I (step s a)) (hR : ∀ s a, I s → C s a → R s (step s a)) {s : σ}
    (hs : I s) {as : List α} (hC : StepsMeet step C s as) {i j : ℕ} (hij : i ≤ j) :
    R (run step s (as.take i)) (run step s (as.take j)) := by
  obtain ⟨d, rfl⟩ := Nat.exists_eq_add_of_le hij
  clear hij
  induction d with
  | zero => exact hrefl _
  | succ d ih =>
    rw [← Nat.add_assoc]
    rcases Nat.lt_or_ge (i + d) as.length with hj | hj
    · rw [run_take_succ hj]
      have hstate := run_induction_of_stepsMeet hI hs (as.take (i + d)) (stepsMeet_take hC (i + d))
      exact htrans ih (hR _ _ hstate (stepsMeet_iff_getElem.mp hC (i + d) hj))
    · rw [run_take_of_length_le hj]
      exact ih

/-- What holds at the end of a run and not at its start was brought about by one of the steps. -/
theorem exists_step_of_run {P : σ → Prop} {s : σ} (hs : ¬ P s) : (as : List α) →
    P (run step s as) → ∃ i, ∃ hi : i < as.length, ¬ P (run step s (as.take i)) ∧
      P (step (run step s (as.take i)) as[i])
  | [], hend => absurd hend hs
  | a :: as, hend => by
      by_cases hfirst : P (step s a)
      · exact ⟨0, Nat.succ_pos _, hs, hfirst⟩
      · obtain ⟨i, hi, hbefore, hafter⟩ := exists_step_of_run hfirst as hend
        exact ⟨i + 1, Nat.succ_lt_succ hi, hbefore, hafter⟩

end MagpieTts.Library
