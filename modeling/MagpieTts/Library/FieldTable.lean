import Mathlib.Data.List.Nodup
import MagpieTts.Library.ExceptRules

/-!
# Tables of fields

A table is a list of keys with values in which no key occurs twice. A loop that collects a table
returns exactly where every item is skipped or is an entry and the keys differ; whether it looks at
the key or at the value first decides its error alone.

## Main definitions

* `Collects`: what an item of such a loop makes of a table.

## Main results

* `lookup_eq_some_iff_mem`: what a table holds, it finds.
* `foldlM_collect_eq_ok_iff`: the loop that collects a table.
-/

namespace MagpieTts.Library

variable {ε α κ β : Type}

theorem lookup_eq_some_iff_mem [BEq κ] [LawfulBEq κ] {table : List (κ × β)}
    (htable : (table.map Prod.fst).Nodup) {key : κ} {value : β} :
    table.lookup key = some value ↔ (key, value) ∈ table := by
  induction table with
  | nil => simp
  | cons entry table ih =>
    obtain ⟨other, found⟩ := entry
    rw [List.map_cons, List.nodup_cons] at htable
    rw [List.lookup_cons, List.mem_cons]
    by_cases hkey : key = other
    · subst hkey
      rw [beq_self_eq_true]
      constructor
      · rintro ⟨⟩
        exact Or.inl rfl
      · rintro (heq | hmem)
        · rw [(Prod.mk.inj heq).2]
        · exact absurd (List.mem_map_of_mem hmem) htable.1
    · rw [beq_eq_false_iff_ne.mpr hkey]
      constructor
      · exact fun h => Or.inr ((ih htable.2).mp h)
      · rintro (heq | hmem)
        · exact absurd (Prod.mk.inj heq).1 hkey
        · exact (ih htable.2).mpr hmem

/-- What an item makes of a table: it is malformed, is skipped, or is an entry with a new key. -/
def Collects (entry : Option (Option (κ × β))) (table result : List (κ × β)) : Prop :=
  match entry with
  | none => False
  | some none => result = table
  | some (some found) => found.1 ∉ table.map Prod.fst ∧ result = found :: table

/-- A loop that collects entries with distinct keys. -/
theorem foldlM_collect_eq_ok_iff {step : List (κ × β) → α → Except ε (List (κ × β))}
    {entry : α → Option (Option (κ × β))}
    (hstep : ∀ table item result, step table item = .ok result ↔
      Collects (entry item) table result)
    {items : List α} {table result : List (κ × β)} (htable : (table.map Prod.fst).Nodup) :
    items.foldlM step table = .ok result ↔
      (∀ item ∈ items, entry item ≠ none) ∧ (result.map Prod.fst).Nodup ∧
        result = (items.filterMap fun item => (entry item).join).reverse ++ table := by
  induction items generalizing table with
  | nil =>
    rw [List.foldlM_nil]
    constructor
    · intro h
      cases h
      exact ⟨fun item hmem => absurd hmem List.not_mem_nil, htable, rfl⟩
    · rintro ⟨-, -, rfl⟩
      rfl
  | cons item items ih =>
    rw [List.foldlM_cons, bind_eq_ok_iff]
    simp only [hstep, Collects, List.forall_mem_cons]
    cases hentry : entry item with
    | none => simp
    | some found =>
      cases found with
      | none =>
        simp only [exists_eq_left, ih htable, ne_eq, reduceCtorEq, not_false_eq_true, true_and]
        rw [List.filterMap_cons_none (by rw [hentry]; rfl)]
      | some found =>
        have hlonger (hnew : found.1 ∉ table.map Prod.fst) :
            ((found :: table).map Prod.fst).Nodup := List.nodup_cons.mpr ⟨hnew, htable⟩
        rw [List.filterMap_cons_some (by rw [hentry]; rfl)]
        simp only [ne_eq, reduceCtorEq, not_false_eq_true, true_and, List.reverse_cons,
          List.append_assoc, List.singleton_append]
        constructor
        · rintro ⟨middle, ⟨hnew, rfl⟩, hrest⟩
          exact (ih (hlonger hnew)).mp hrest
        · rintro ⟨hwellFormed, hnodup, rfl⟩
          have hnew : found.1 ∉ table.map Prod.fst := by
            rw [List.map_append, List.map_cons, List.nodup_append] at hnodup
            exact (List.nodup_cons.mp hnodup.2.1).1
          exact ⟨_, ⟨hnew, rfl⟩, (ih (hlonger hnew)).mpr ⟨hwellFormed, hnodup, rfl⟩⟩

/-- A loop over numbered items that does not look at the numbers collects their entries. -/
theorem numbered_entries {entry : α → Option (Option (κ × β))} (items : List α) (first : ℕ) :
    ((∀ numbered ∈ items.zipIdx first, entry numbered.1 ≠ none) ↔
        ∀ item ∈ items, entry item ≠ none) ∧
      ((items.zipIdx first).filterMap fun numbered => (entry numbered.1).join) =
        items.filterMap fun item => (entry item).join := by
  have hitems : (items.zipIdx first).map Prod.fst = items := List.zipIdx_map_fst first items
  constructor
  · conv_rhs => rw [← hitems]
    rw [List.forall_mem_map]
  · conv_rhs => rw [← hitems, List.filterMap_map]
    rfl

end MagpieTts.Library
