import Mathlib.Data.List.Basic

/-!
# Computations that throw and keep their state

A member function of an object reads and writes the fields of the object, and it may throw; what it
wrote before it threw stays. In `ExceptT ε (StateM σ)` it is a computation on the state `σ`.

This file has the weakest precondition of such a computation for a postcondition of each outcome,
and its rules.

## Main definitions

* `Meets x s returns throws`: from the state `s`, the computation `x` ends in one of the two
  postconditions.

## Main results

* `meets_bind`, `meets_get`, `meets_modify` and their companions: the rules of the constructs.
* `meets_check`, `meets_tryCatch`: the rules of a check without state and of a handler.
* `meets_foldlM`: the rule of a loop, with an invariant over the passes.
-/

namespace MagpieTts.Library

universe u

variable {ε σ α β : Type u}

/-- From `s`, the computation `x` returns into `returns` or throws into `throws`. -/
def Meets (x : ExceptT ε (StateM σ) α) (s : σ) (returns : α → σ → Prop) (throws : ε → σ → Prop) :
    Prop :=
  match x.run.run s with
  | (.ok value, s') => returns value s'
  | (.error exception, s') => throws exception s'

variable {s : σ} {returns : α → σ → Prop} {throws : ε → σ → Prop}

@[simp] theorem meets_pure (value : α) :
    Meets (pure value : ExceptT ε (StateM σ) α) s returns throws ↔ returns value s := Iff.rfl

@[simp] theorem meets_throw (exception : ε) :
    Meets (throw exception : ExceptT ε (StateM σ) α) s returns throws ↔ throws exception s :=
  Iff.rfl

@[simp] theorem meets_bind (x : ExceptT ε (StateM σ) α) (f : α → ExceptT ε (StateM σ) β)
    {returns : β → σ → Prop} :
    Meets (x >>= f) s returns throws ↔
      Meets x s (fun value s' => Meets (f value) s' returns throws) throws := by
  rw [Meets, Meets, ExceptT.run_bind, StateT.run_bind]
  rcases x.run.run s with ⟨_ | _, _⟩ <;> exact Iff.rfl

@[simp] theorem meets_map (f : α → β) (x : ExceptT ε (StateM σ) α) {returns : β → σ → Prop} :
    Meets (f <$> x) s returns throws ↔
      Meets x s (fun value s' => returns (f value) s') throws := by
  rw [map_eq_pure_bind, meets_bind]
  exact Iff.rfl

@[simp] theorem meets_get {returns : σ → σ → Prop} :
    Meets (get : ExceptT ε (StateM σ) σ) s returns throws ↔ returns s s := Iff.rfl

@[simp] theorem meets_set (s' : σ) {returns : PUnit → σ → Prop} :
    Meets (set s' : ExceptT ε (StateM σ) PUnit) s returns throws ↔ returns ⟨⟩ s' := Iff.rfl

@[simp] theorem meets_modify (f : σ → σ) {returns : PUnit → σ → Prop} :
    Meets (modify f : ExceptT ε (StateM σ) PUnit) s returns throws ↔ returns ⟨⟩ (f s) := Iff.rfl

/-- A check that reads no state. -/
def check (x : Except ε α) : ExceptT ε (StateM σ) α := ExceptT.mk (pure x)

theorem meets_check {x : Except ε α} :
    Meets (check x) s returns throws ↔
      (∀ value, x = .ok value → returns value s) ∧ ∀ exception, x = .error exception →
        throws exception s := by
  rcases x with exception | value
  · exact ⟨fun h => ⟨nofun, fun _ heq => by cases heq; exact h⟩, fun h => h.2 _ rfl⟩
  · exact ⟨fun h => ⟨fun _ heq => by cases heq; exact h, nofun⟩, fun h => h.1 _ rfl⟩

/-- The handler runs in the state of the throw. -/
theorem meets_tryCatch {x : ExceptT ε (StateM σ) α} {handler : ε → ExceptT ε (StateM σ) α} :
    Meets (tryCatch x handler) s returns throws ↔
      Meets x s returns fun exception s' => Meets (handler exception) s' returns throws := by
  rw [Meets, Meets]
  change (match (ExceptT.tryCatch x handler).run.run s with
    | (.ok value, s') => returns value s'
    | (.error exception, s') => throws exception s') ↔ _
  rw [ExceptT.tryCatch]
  simp only [ExceptT.run, ExceptT.mk, StateT.run_bind]
  rcases StateT.run x s with ⟨_ | _, _⟩ <;> exact Iff.rfl

/-- A branch decided by a proposition. -/
theorem meets_ite {c : Prop} [Decidable c] {x y : ExceptT ε (StateM σ) α} :
    Meets (if c then x else y) s returns throws ↔
      (c → Meets x s returns throws) ∧ (¬ c → Meets y s returns throws) := by
  split_ifs with hc <;> simp [hc]

/-- The postconditions may be weakened. -/
theorem Meets.mono {x : ExceptT ε (StateM σ) α} {returns' : α → σ → Prop}
    {throws' : ε → σ → Prop} (h : Meets x s returns throws)
    (hreturns : ∀ value s', returns value s' → returns' value s')
    (hthrows : ∀ exception s', throws exception s' → throws' exception s') :
    Meets x s returns' throws' := by
  rw [Meets] at h ⊢
  revert h
  rcases x.run.run s with ⟨_ | _, _⟩
  · exact hthrows _ _
  · exact hreturns _ _

/-- The two outcomes of a computation that meets its postconditions. -/
theorem Meets.outcome {x : ExceptT ε (StateM σ) α} (h : Meets x s returns throws) :
    (∃ value s', x.run.run s = (.ok value, s') ∧ returns value s') ∨
      ∃ exception s', x.run.run s = (.error exception, s') ∧ throws exception s' := by
  rw [Meets] at h
  rcases hrun : x.run.run s with ⟨exception | value, s'⟩ <;> rw [hrun] at h
  · exact Or.inr ⟨exception, s', rfl, h⟩
  · exact Or.inl ⟨value, s', rfl, h⟩

/-- A computation of which the outcome is known meets what holds of the outcome. -/
theorem meets_of_run_eq {x : ExceptT ε (StateM σ) α} {value : α} {s' : σ}
    (h : x.run.run s = (.ok value, s')) :
    Meets x s returns throws ↔ returns value s' := by
  rw [Meets, h]

/-- The outcome of a computation that meets the equation of its outcome. -/
theorem run_eq_of_meets {x : ExceptT ε (StateM σ) α} {value : α} {s' : σ}
    (h : Meets x s (fun value' s'' => value' = value ∧ s'' = s') fun _ _ => False) :
    x.run.run s = (.ok value, s') := by
  rw [Meets] at h
  rcases hrun : x.run.run s with ⟨_ | _, _⟩ <;> rw [hrun] at h
  · exact h.elim
  · rw [h.1, h.2]

/-- A loop over a list with an accumulator: the invariant speaks of the passes made so far. -/
theorem meets_foldlM {ι : Type u} {f : β → ι → ExceptT ε (StateM σ) β} {list : List ι}
    (invariant : List ι → β → σ → Prop) {b : β} (hstart : invariant [] b s)
    (hpass : ∀ done item rest, list = done ++ item :: rest → ∀ b s, invariant done b s →
      Meets (f b item) s (invariant (done ++ [item])) throws) :
    Meets (list.foldlM f b) s (invariant list) throws := by
  have hloop : ∀ (rest done : List ι) (b : β) (s : σ), list = done ++ rest → invariant done b s →
      Meets (rest.foldlM f b) s (invariant list) throws := by
    intro rest
    induction rest with
    | nil =>
      intro done b s hlist hdone
      rw [List.foldlM_nil, meets_pure, hlist, List.append_nil]
      exact hdone
    | cons item rest ih =>
      intro done b s hlist hdone
      rw [List.foldlM_cons, meets_bind]
      refine (hpass done item rest hlist b s hdone).mono (fun b' s' hnext => ?_) fun _ _ h => h
      exact ih (done ++ [item]) b' s' (by simp [hlist]) hnext
  exact hloop list [] b s rfl hstart

end MagpieTts.Library
