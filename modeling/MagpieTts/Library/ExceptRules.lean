import Mathlib.Data.List.Basic

/-!
# Computations that return or fail

Inversion rules for computations in `Except ε`: what is known of the parts of a computation of
which the whole has returned.

## Main results

* `bind_eq_ok_iff`: a composition that returns.
* `mapM_eq_ok_iff`: a loop over a list that collects the results of its passes.
* `foldlM_eq_ok_induct`: the invariant of a loop that updates a state.
* `failsWith_bind_iff`: the failures of a composition are those of its parts.
-/

namespace MagpieTts.Library

variable {ε α β : Type}

theorem bind_eq_ok_iff {x : Except ε α} {f : α → Except ε β} {result : β} :
    (x >>= f) = .ok result ↔ ∃ value, x = .ok value ∧ f value = .ok result := by
  cases x with
  | error exception => exact ⟨nofun, fun ⟨_, hx, _⟩ => nomatch hx⟩
  | ok value => exact ⟨fun h => ⟨value, rfl, h⟩, fun ⟨_, hx, h⟩ => by cases hx; exact h⟩

theorem ok_bind (value : α) (f : α → Except ε β) :
    (Except.ok value >>= f) = f value :=
  rfl

theorem bind_unit_eq_ok_iff {x : Except ε Unit} {y : Except ε β} {result : β} :
    (x >>= fun _ => y) = .ok result ↔ x = .ok () ∧ y = .ok result := by
  rw [bind_eq_ok_iff]
  exact ⟨fun ⟨_, hx, hy⟩ => ⟨hx, hy⟩, fun ⟨hx, hy⟩ => ⟨(), hx, hy⟩⟩

theorem map_eq_ok_iff {x : Except ε α} {f : α → β} {result : β} :
    x.map f = .ok result ↔ ∃ value, x = .ok value ∧ f value = result := by
  cases x with
  | error exception => exact ⟨nofun, fun ⟨_, hx, _⟩ => nomatch hx⟩
  | ok value =>
    exact ⟨fun h => ⟨value, rfl, Except.ok.inj h⟩, fun ⟨_, hx, h⟩ => by cases hx; rw [← h]; rfl⟩

/-- A check: it returns when the condition holds. -/
def ensure (condition : Prop) [Decidable condition] (failure : ε) : Except ε Unit :=
  if condition then .ok () else .error failure

theorem ensure_of {condition : Prop} [Decidable condition] {failure : ε} (h : condition) :
    ensure condition failure = .ok () :=
  if_pos h

@[simp]
theorem ensure_eq_ok_iff {condition : Prop} [Decidable condition] {failure : ε} :
    ensure condition failure = .ok () ↔ condition := by
  unfold ensure
  split
  next h => exact iff_of_true rfl h
  next h => exact iff_of_false nofun h

/-- A computation fails or returns. -/
theorem exists_error_iff {x : Except ε α} :
    (∃ failure, x = .error failure) ↔ ¬ ∃ value, x = .ok value := by
  cases x with
  | error failure => exact ⟨fun _ => nofun, fun _ => ⟨failure, rfl⟩⟩
  | ok value => exact ⟨nofun, fun h => absurd ⟨value, rfl⟩ h⟩

/-- A loop that collects its results returns when every pass does. -/
theorem mapM_eq_ok_iff {f : α → Except ε β} {list : List α} {results : List β} :
    list.mapM f = .ok results ↔ List.Forall₂ (fun item result => f item = .ok result) list results
    := by
  induction list generalizing results with
  | nil =>
    rw [List.mapM_nil]
    exact ⟨fun h => by cases h; exact .nil, fun h => by cases h; rfl⟩
  | cons item list ih =>
    rw [List.mapM_cons, bind_eq_ok_iff]
    constructor
    · rintro ⟨result, hitem, hrest⟩
      obtain ⟨rest, hlist, hresults⟩ := bind_eq_ok_iff.mp hrest
      cases hresults
      exact .cons hitem (ih.mp hlist)
    · intro h
      cases h with
      | cons hitem hrest => exact ⟨_, hitem, bind_eq_ok_iff.mpr ⟨_, ih.mpr hrest, rfl⟩⟩

theorem exists_of_mem_forall₂ {R : α → β → Prop} {list : List α} {results : List β}
    (h : List.Forall₂ R list results) {result : β} (hresult : result ∈ results) :
    ∃ item ∈ list, R item result := by
  induction h with
  | nil => cases hresult
  | cons hitem hrest ih =>
    rcases List.mem_cons.mp hresult with rfl | hresult
    · exact ⟨_, List.mem_cons_self, hitem⟩
    · obtain ⟨item, hmem, hitem⟩ := ih hresult
      exact ⟨item, List.mem_cons_of_mem _ hmem, hitem⟩

theorem exists_of_mem_mapM {f : α → Except ε β} {list : List α} {results : List β}
    (h : list.mapM f = .ok results) {result : β} (hresult : result ∈ results) :
    ∃ item ∈ list, f item = .ok result :=
  exists_of_mem_forall₂ (mapM_eq_ok_iff.mp h) hresult

/-- A property of the results is a property of the items that they come from. -/
theorem forall_mem_mapM_iff {f : α → Except ε β} {list : List α} {results : List β}
    (h : list.mapM f = .ok results) {P : β → Prop} {Q : α → Prop}
    (hsame : ∀ item result, f item = .ok result → (P result ↔ Q item)) :
    (∀ result ∈ results, P result) ↔ ∀ item ∈ list, Q item := by
  have hpairs := mapM_eq_ok_iff.mp h
  clear h
  induction hpairs with
  | nil => simp
  | cons hitem hrest ih =>
    exact List.forall_mem_cons.trans
      ((and_congr (hsame _ _ hitem) ih).trans List.forall_mem_cons.symm)

theorem exists_mapM_eq_ok_iff {f : α → Except ε β} {list : List α} :
    (∃ results, list.mapM f = .ok results) ↔ ∀ item ∈ list, ∃ result, f item = .ok result := by
  induction list with
  | nil => exact ⟨fun _ => nofun, fun _ => ⟨[], by rw [List.mapM_nil]; rfl⟩⟩
  | cons item list ih =>
    simp only [mapM_eq_ok_iff] at ih ⊢
    rw [List.forall_mem_cons, ← ih]
    constructor
    · rintro ⟨results, h⟩
      cases h with
      | cons hitem hrest => exact ⟨⟨_, hitem⟩, _, hrest⟩
    · rintro ⟨⟨result, hitem⟩, results, hrest⟩
      exact ⟨_, .cons hitem hrest⟩

/-- The rule of a loop that updates a state: an invariant of the items done so far and the state
holds at the end of a loop that returns. -/
theorem foldlM_eq_ok_induct {σ : Type} {f : σ → α → Except ε σ} {list : List α}
    {I : List α → σ → Prop} {start result : σ} (hstart : I [] start)
    (hstep : ∀ done item state next, done ++ [item] <+: list → I done state →
      f state item = .ok next → I (done ++ [item]) next)
    (h : list.foldlM f start = .ok result) : I list result := by
  have hrun : ∀ rest done state, done ++ rest = list → I done state →
      rest.foldlM f state = .ok result → I list result := by
    intro rest
    induction rest with
    | nil =>
      intro done state hlist hdone hresult
      cases hresult
      rwa [← hlist, List.append_nil]
    | cons item rest ih =>
      intro done state hlist hdone hresult
      rw [List.foldlM_cons, bind_eq_ok_iff] at hresult
      obtain ⟨next, hnext, hresult⟩ := hresult
      have hsplit : done ++ [item] ++ rest = list := by rw [List.append_assoc]; exact hlist
      exact ih (done ++ [item]) next hsplit (hstep done item state next ⟨rest, hsplit⟩ hdone hnext)
        hresult
  exact hrun list [] start rfl hstart h

/-! ### Failures -/

/-- Every failure of a computation has a property. -/
def FailsWith (P : ε → Prop) (x : Except ε α) : Prop := ∀ failure, x = .error failure → P failure

variable {P : ε → Prop}

@[simp]
theorem failsWith_ok {value : α} : FailsWith P (.ok value : Except ε α) := nofun

@[simp]
theorem failsWith_pure {value : α} : FailsWith P (pure value : Except ε α) := nofun

@[simp]
theorem failsWith_error_iff {failure : ε} :
    FailsWith P (.error failure : Except ε α) ↔ P failure :=
  ⟨fun h => h failure rfl, fun h _ heq => by cases heq; exact h⟩

theorem failsWith_bind_iff {x : Except ε α} {f : α → Except ε β} :
    FailsWith P (x >>= f) ↔ FailsWith P x ∧ ∀ value, x = .ok value → FailsWith P (f value) := by
  cases x with
  | error failure =>
    exact ⟨fun h => ⟨fun _ heq => by cases heq; exact h failure rfl, nofun⟩,
      fun h _ heq => by cases heq; exact h.1 failure rfl⟩
  | ok value =>
    exact ⟨fun h => ⟨failsWith_ok, fun _ heq => by cases heq; exact h⟩, fun h => h.2 value rfl⟩

theorem failsWith_mapM {f : α → Except ε β} {list : List α}
    (h : ∀ item ∈ list, FailsWith P (f item)) : FailsWith P (list.mapM f) := by
  induction list with
  | nil => rw [List.mapM_nil]; exact failsWith_pure
  | cons item list ih =>
    rw [List.mapM_cons, failsWith_bind_iff]
    refine ⟨h item List.mem_cons_self, fun _ _ => failsWith_bind_iff.mpr ⟨ih fun other hmem =>
      h other (List.mem_cons_of_mem _ hmem), fun _ _ => failsWith_pure⟩⟩

theorem FailsWith.imp {Q : ε → Prop} {x : Except ε α} (h : FailsWith P x)
    (hPQ : ∀ failure, P failure → Q failure) : FailsWith Q x :=
  fun failure heq => hPQ failure (h failure heq)

end MagpieTts.Library
