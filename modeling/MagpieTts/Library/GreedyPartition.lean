import Mathlib.Data.Set.Finite.Lemmas
import Mathlib.Order.Bounds.Basic

/-!
# Greedy partitions of an interval

An interval of a linear order is cut into pieces whose ends are taken from a set and which all
satisfy a relation. When the relation passes to every part of a piece, the partition that takes the
longest piece at every position has the least number of pieces, and the search for it gets stuck
only when there is no partition at all.

## Main definitions

* `Partition`: the partitions of the interval from a position to `stop`.
* `fittingEnds`: the ends of the pieces that may begin at a position; the longest piece ends at
  the greatest of them.
* `GreedyPartition`: a partition into longest pieces.
* `PartsFit`: the relation passes to pieces that begin later.

## Main results

* `Partition.exists_of_le`: a later start needs no more pieces.
* `GreedyPartition.length_le`: no partition has fewer pieces than the greedy one.
* `Partition.exists_greedyPartition`: where there is a partition there is a greedy one.
-/

namespace MagpieTts.Library

variable {α : Type} [LinearOrder α]

/-- The pieces of an interval from a position to `stop`, in their order; each of them ends in
`ends` and satisfies `fits`. -/
inductive Partition (ends : Set α) (fits : α → α → Prop) (stop : α) : α → List (α × α) → Prop
  | done : Partition ends fits stop stop []
  | piece {start next : α} {rest : List (α × α)} (hend : next ∈ ends) (hlt : start < next)
      (hfits : fits start next) (hrest : Partition ends fits stop next rest) :
      Partition ends fits stop start ((start, next) :: rest)

/-- The ends of the pieces that may begin at a position. -/
def fittingEnds (ends : Set α) (fits : α → α → Prop) (start : α) : Set α :=
  {next | next ∈ ends ∧ start < next ∧ fits start next}

/-- A partition in which every piece is the longest that may begin where it begins. -/
inductive GreedyPartition (ends : Set α) (fits : α → α → Prop) (stop : α) :
    α → List (α × α) → Prop
  | done : GreedyPartition ends fits stop stop []
  | piece {start next : α} {rest : List (α × α)}
      (hnext : IsGreatest (fittingEnds ends fits start) next)
      (hrest : GreedyPartition ends fits stop next rest) :
      GreedyPartition ends fits stop start ((start, next) :: rest)

/-- A piece that begins later and ends at the same end still satisfies the relation. -/
def PartsFit (ends : Set α) (fits : α → α → Prop) : Prop :=
  ∀ start later next, next ∈ ends → start ≤ later → later < next → fits start next →
    fits later next

variable {ends : Set α} {fits : α → α → Prop} {stop : α}

namespace Partition

theorem le {start : α} {pieces : List (α × α)} (h : Partition ends fits stop start pieces) :
    start ≤ stop := by
  induction h with
  | done => exact le_refl _
  | piece hend hlt hfits hrest ih => exact hlt.le.trans ih

theorem forall_mem {start : α} {pieces : List (α × α)}
    (h : Partition ends fits stop start pieces) :
    ∀ piece ∈ pieces, piece.2 ∈ ends ∧ piece.1 < piece.2 ∧ fits piece.1 piece.2 := by
  induction h with
  | done => nofun
  | piece hend hlt hfits hrest ih => exact List.forall_mem_cons.mpr ⟨⟨hend, hlt, hfits⟩, ih⟩

/-- The last piece of an interval that is not empty ends at its end. -/
theorem getLast?_map_snd {start : α} {pieces : List (α × α)}
    (h : Partition ends fits stop start pieces) (hlt : start < stop) :
    pieces.getLast?.map Prod.snd = some stop := by
  induction h with
  | done => exact absurd hlt (lt_irrefl _)
  | piece hend hlt hfits hrest ih =>
    cases hrest with
    | done => rfl
    | piece hend' hlt' hfits' hrest' =>
      rw [List.getLast?_cons_cons]
      exact ih (hlt'.trans_le hrest'.le)

/-- A part of an interval needs no more pieces than the interval, if its start is moved only. -/
theorem exists_of_le (hparts : PartsFit ends fits) {start later : α} {pieces : List (α × α)}
    (h : Partition ends fits stop start pieces) (hle : start ≤ later) (hstop : later ≤ stop) :
    ∃ parts, Partition ends fits stop later parts ∧ parts.length ≤ pieces.length := by
  induction h with
  | done =>
    obtain rfl := le_antisymm hle hstop
    exact ⟨[], .done, Nat.le_refl _⟩
  | @piece start next rest hend hlt hfits hrest ih =>
    rcases lt_or_ge later next with hlater | hnext
    · exact ⟨_, .piece hend hlater (hparts start later next hend hle hlater hfits) hrest,
        Nat.le_refl _⟩
    · obtain ⟨parts, hpartition, hlength⟩ := ih hnext
      exact ⟨parts, hpartition, Nat.le_succ_of_le hlength⟩

end Partition

/-- Where there is a partition there is a greedy one, if there are finitely many ends. -/
theorem Partition.exists_greedyPartition (hfinite : ends.Finite)
    (hstop : ∀ next ∈ ends, next ≤ stop)
    (hparts : PartsFit ends fits) {start : α} {pieces : List (α × α)}
    (h : Partition ends fits stop start pieces) :
    ∃ greedy, GreedyPartition ends fits stop start greedy := by
  obtain ⟨count, hcount⟩ : ∃ count, pieces.length ≤ count := ⟨_, Nat.le_refl _⟩
  -- the number of pieces decreases with every longest piece that is taken
  induction count generalizing start pieces with
  | zero =>
    obtain rfl := List.length_eq_zero_iff.mp (Nat.le_zero.mp hcount)
    cases h
    exact ⟨[], .done⟩
  | succ count ih =>
    cases h with
    | done => exact ⟨[], .done⟩
    | @piece _ other others hend hlt hfits hothers =>
      have hsubset : fittingEnds ends fits start ⊆ ends := fun next hnext => hnext.1
      obtain ⟨next, hnext, hgreatest⟩ := Set.exists_max_image _ id (hfinite.subset hsubset)
        ⟨other, hend, hlt, hfits⟩
      obtain ⟨parts, hpartition, hlength⟩ := hothers.exists_of_le hparts
        (hgreatest other ⟨hend, hlt, hfits⟩) (hstop next hnext.1)
      obtain ⟨greedy, hgreedy⟩ := ih hpartition
        (hlength.trans (Nat.le_of_succ_le_succ hcount))
      exact ⟨_, .piece ⟨hnext, hgreatest⟩ hgreedy⟩

namespace GreedyPartition

theorem partition {start : α} {pieces : List (α × α)}
    (h : GreedyPartition ends fits stop start pieces) : Partition ends fits stop start pieces := by
  induction h with
  | done => exact .done
  | piece hnext hrest ih => exact .piece hnext.1.1 hnext.1.2.1 hnext.1.2.2 ih

/-- The greedy partition stays ahead of every other one. -/
theorem length_le (hparts : PartsFit ends fits) {start : α} {greedy pieces : List (α × α)}
    (hgreedy : GreedyPartition ends fits stop start greedy)
    (h : Partition ends fits stop start pieces) : greedy.length ≤ pieces.length := by
  induction hgreedy generalizing pieces with
  | done => exact Nat.zero_le _
  | @piece start next rest hnext hrest ih =>
    cases h with
    | done => exact absurd (hnext.1.2.1.trans_le hrest.partition.le) (lt_irrefl _)
    | @piece _ other others hend hlt hfits hothers =>
      obtain ⟨parts, hpartition, hlength⟩ := hothers.exists_of_le hparts
        (hnext.2 ⟨hend, hlt, hfits⟩) hrest.partition.le
      exact Nat.succ_le_succ ((ih hpartition).trans hlength)

end GreedyPartition

end MagpieTts.Library
