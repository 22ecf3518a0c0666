import Mathlib.Algebra.Group.Nat.Defs
import Mathlib.Data.List.Basic
import Mathlib.Order.MinMax
import Mathlib.Tactic.SplitIfs
import MagpieTts.Library.BlockExecution

/-!
# Reductions of a thread block

The threads of a block hold one entry each in a common array and reduce it in rounds: in the round
of a stride, every thread below the stride combines its entry with the one a stride further on. No
thread touches what another one stores in a round, so a round is a function of the array. The rounds
of the strides `2 ^ (k - 1), …, 2, 1` bring `2 ^ k` entries together at index zero.

The combinations here select one of their arguments, the better one in some order.

## Main definitions

* `reduceRound`, `treeReduce`: one round, and the rounds of halving strides.
* `ReductionOutcome`: the rounds with the stores of their threads in some order.
* `Selects`: an operation that returns the better one of its arguments.
* `fmaxf`: the larger of two floats, of which one may not be a number.

## Main results

* `ReductionOutcome.eq_treeReduce`: the rounds do not depend on the order of their threads.
* `Selects.foldl_spec`: a loop that keeps the best item so far.
* `Selects.treeReduce_spec`: the reduction leaves the best entry of all threads.
-/

namespace MagpieTts.Library

variable {α : Type*}

/-- The round of a stride. -/
def reduceRound (op : α → α → α) (stride : ℕ) (entries : ℕ → α) : ℕ → α := fun thread =>
  if thread < stride then op (entries thread) (entries (thread + stride)) else entries thread

/-- Whatever the order of the stores of a round, it leaves what the function says: a thread stores
at its own index, which no other thread reads. -/
theorem eq_reduceRound_of_phaseOutcome {op : α → α → α} {stride : ℕ} {entries entries' : ℕ → α}
    (h : PhaseOutcome ((List.range stride).map fun thread =>
      [⟨thread, op (entries thread) (entries (thread + stride))⟩]) entries entries') :
    entries' = reduceRound op stride entries := by
  funext thread
  rw [h.apply_eq (f := fun a => op (entries a) (entries (a + stride))) fun t ht s hs => ?_]
  · refine if_congr ⟨?_, fun hthread => ?_⟩ rfl rfl
    · rintro ⟨t, ht, s, hs, rfl⟩
      obtain ⟨i, hi, rfl⟩ := List.mem_map.mp ht
      rw [List.mem_singleton.mp hs]
      exact List.mem_range.mp hi
    · exact ⟨_, List.mem_map.mpr ⟨thread, List.mem_range.mpr hthread, rfl⟩, _,
        List.mem_singleton.mpr rfl, rfl⟩
  · obtain ⟨i, -, rfl⟩ := List.mem_map.mp ht
    rw [List.mem_singleton.mp hs]

/-- The rounds of the strides `2 ^ (k - 1), …, 2, 1`. -/
def treeReduce (op : α → α → α) : ℕ → (ℕ → α) → ℕ → α
  | 0, entries => entries
  | k + 1, entries => treeReduce op k (reduceRound op (2 ^ k) entries)

/-- The rounds of the strides `2 ^ (k - 1), …, 2, 1`, each with the stores of its threads in some
order. -/
inductive ReductionOutcome (op : α → α → α) : ℕ → (ℕ → α) → (ℕ → α) → Prop
  | done (entries : ℕ → α) : ReductionOutcome op 0 entries entries
  | round {k : ℕ} {entries entries' result : ℕ → α} :
      PhaseOutcome ((List.range (2 ^ k)).map fun thread =>
        [⟨thread, op (entries thread) (entries (thread + 2 ^ k))⟩]) entries entries' →
      ReductionOutcome op k entries' result → ReductionOutcome op (k + 1) entries result

/-- The orders do not matter. -/
theorem ReductionOutcome.eq_treeReduce {op : α → α → α} {k : ℕ} {entries result : ℕ → α}
    (h : ReductionOutcome op k entries result) : result = treeReduce op k entries := by
  induction h with
  | done entries => rfl
  | round hphase _ ih => rw [ih, eq_reduceRound_of_phaseOutcome hphase, treeReduce]

/-- The operation returns one of its arguments, which is no worse than the other one. -/
structure Selects (op : α → α → α) (noWorse : α → α → Prop) : Prop where
  eq_or : ∀ a b, op a b = a ∨ op a b = b
  left : ∀ a b, noWorse (op a b) a
  right : ∀ a b, noWorse (op a b) b
  refl : ∀ a, noWorse a a
  trans : ∀ {a b c}, noWorse a b → noWorse b c → noWorse a c

namespace Selects

variable {op : α → α → α} {noWorse : α → α → Prop}

/-- A loop that selects between the item so far and the next one ends with the best of all. -/
theorem foldl_spec (h : Selects op noWorse) (items : List α) (first : α) :
    (items.foldl op first = first ∨ items.foldl op first ∈ items) ∧
      noWorse (items.foldl op first) first ∧
        ∀ item ∈ items, noWorse (items.foldl op first) item := by
  induction items generalizing first with
  | nil => exact ⟨Or.inl rfl, h.refl first, fun _ hmem => absurd hmem List.not_mem_nil⟩
  | cons item items ih =>
    obtain ⟨hmem, hfirst, hitems⟩ := ih (op first item)
    rw [List.foldl_cons]
    refine ⟨?_, h.trans hfirst (h.left first item), fun other hother => ?_⟩
    · rcases hmem with heq | hmem
      · rw [heq]
        rcases h.eq_or first item with hop | hop
        · exact Or.inl hop
        · exact Or.inr (by rw [hop]; exact List.mem_cons_self)
      · exact Or.inr (List.mem_cons_of_mem item hmem)
    · rcases List.mem_cons.mp hother with rfl | hother
      · exact h.trans hfirst (h.right first other)
      · exact hitems other hother

/-- The reduction leaves at index zero an entry that is no worse than any other. -/
theorem treeReduce_spec (h : Selects op noWorse) (k : ℕ) (entries : ℕ → α) :
    (∃ i < 2 ^ k, treeReduce op k entries 0 = entries i) ∧
      ∀ i < 2 ^ k, noWorse (treeReduce op k entries 0) (entries i) := by
  induction k generalizing entries with
  | zero =>
    refine ⟨⟨0, Nat.one_pos, rfl⟩, fun i hi => ?_⟩
    obtain rfl : i = 0 := Nat.lt_one_iff.mp hi
    exact h.refl _
  | succ k ih =>
    obtain ⟨⟨i, hi, heq⟩, hbest⟩ := ih (reduceRound op (2 ^ k) entries)
    have hround (j : ℕ) (hj : j < 2 ^ k) : reduceRound op (2 ^ k) entries j =
        op (entries j) (entries (j + 2 ^ k)) := if_pos hj
    have hsize : 2 ^ (k + 1) = 2 ^ k + 2 ^ k := by rw [Nat.pow_succ, Nat.mul_two]
    rw [treeReduce, hsize]
    refine ⟨?_, fun j hj => ?_⟩
    · rw [heq, hround i hi]
      rcases h.eq_or (entries i) (entries (i + 2 ^ k)) with hop | hop
      · exact ⟨i, by omega, hop⟩
      · exact ⟨i + 2 ^ k, by omega, hop⟩
    · rcases Nat.lt_or_ge j (2 ^ k) with hlow | hhigh
      · refine h.trans (hbest j hlow) ?_
        rw [hround j hlow]
        exact h.left ..
      · obtain ⟨i, rfl⟩ := Nat.exists_eq_add_of_le' hhigh
        have hi : i < 2 ^ k := by omega
        refine h.trans (hbest i hi) ?_
        rw [hround i hi]
        exact h.right ..

end Selects

/-- The larger of two elements of a linear order. -/
theorem selects_max {β : Type*} [LinearOrder β] :
    Selects (max : β → β → β) (fun a b => b ≤ a) where
  eq_or := max_choice
  left := le_max_left
  right := le_max_right
  refl := le_refl
  trans := fun hab hbc => hbc.trans hab

/-! ### Floats -/

section Floats

variable {β : Type*} [LinearOrder β]

/-- `fmaxf` on floats that are elements of a linear order or, as `none`, not a number: it returns
the other argument for one that is not a number. -/
def fmaxf : Option β → Option β → Option β
  | none, other => other
  | some value, none => some value
  | some value, some other => some (max value other)

/-- `value > bound` on floats. -/
def floatExceeds : Option β → Option β → Bool
  | some value, some bound => decide (bound < value)
  | _, _ => false

/-- A float that is a number when the other one is, and no smaller. -/
def FloatNoSmaller (value other : Option β) : Prop := ∀ y ∈ other, ∃ x ∈ value, y ≤ x

theorem selects_fmaxf : Selects (fmaxf : Option β → Option β → Option β) FloatNoSmaller where
  eq_or a b := by
    cases a with
    | none => exact Or.inr rfl
    | some x =>
      cases b with
      | none => exact Or.inl rfl
      | some y => exact (max_choice x y).imp (congrArg some) (congrArg some)
  left a b := by
    intro y hy
    obtain rfl := Option.mem_def.mp hy
    cases b with
    | none => exact ⟨y, rfl, le_refl y⟩
    | some other => exact ⟨_, rfl, le_max_left y other⟩
  right a b := by
    intro y hy
    obtain rfl := Option.mem_def.mp hy
    cases a with
    | none => exact ⟨y, rfl, le_refl y⟩
    | some value => exact ⟨_, rfl, le_max_right value y⟩
  refl _ y hy := ⟨y, hy, le_refl y⟩
  trans hab hbc := by
    intro z hz
    obtain ⟨y, hy, hzy⟩ := hbc z hz
    obtain ⟨x, hx, hyx⟩ := hab y hy
    exact ⟨x, hx, hzy.trans hyx⟩

/-- What exceeds a float exceeds the smaller numbers. -/
theorem floatExceeds_of_noSmaller {value bound other : Option β}
    (hexceeds : floatExceeds value bound = true) (hbound : FloatNoSmaller bound other)
    (hother : other ≠ none) : floatExceeds value other = true := by
  obtain ⟨z, rfl⟩ := Option.ne_none_iff_exists'.mp hother
  obtain ⟨y, hy, hle⟩ := hbound z rfl
  obtain rfl := Option.mem_def.mp hy
  cases value with
  | none => cases hexceeds
  | some x => exact decide_eq_true (hle.trans_lt (of_decide_eq_true hexceeds))

end Floats

end MagpieTts.Library
