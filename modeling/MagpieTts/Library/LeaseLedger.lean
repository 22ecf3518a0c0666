import Mathlib.Algebra.BigOperators.Group.List.Basic
import Mathlib.Data.List.Sublists
import Mathlib.Algebra.GroupWithZero.Nat

/-!
# A queue whose items are leased out

Items are accepted into a queue, taken from its front under a key, and settled by the release of
that key; the queue can also be discarded as a whole. The ledger of such a queue keeps what became
of every item that was ever accepted. This file has its four operations and what they conserve.

## Main definitions

* `Ledger`: the items accepted, available, leased, released and discarded, and those taken.
* `Ledger.accept`, `Ledger.take`, `Ledger.release`, `Ledger.discard`: the operations.
* `Ledger.load`: the size of the items that are available or leased.

## Main results

* `Ledger.Conserved.accept` and its companions: every operation keeps each accepted item in exactly
  one place and takes items in the order of their acceptance.
* `Ledger.load_accept` and its companions: what every operation does to the load.
-/

namespace MagpieTts.Library

/-- What became of the items of a queue; `taken` lists those that left its front. -/
structure Ledger (ι κ : Type*) where
  accepted : List ι
  available : List ι
  leased : List (κ × ι)
  released : List ι
  discarded : List ι
  taken : List ι

namespace Ledger

variable {ι κ : Type*}

def accept (l : Ledger ι κ) (item : ι) : Ledger ι κ :=
  { l with accepted := l.accepted ++ [item], available := l.available ++ [item] }

/-- The front of the queue is leased under `key`. -/
def take (l : Ledger ι κ) (key : κ) : Ledger ι κ :=
  match l.available with
  | [] => l
  | item :: rest =>
    { l with
      available := rest
      leased := l.leased ++ [(key, item)]
      taken := l.taken ++ [item] }

/-- The lease of `key` is settled. -/
def release [DecidableEq κ] (l : Ledger ι κ) (key : κ) : Ledger ι κ :=
  match l.leased.find? fun lease => lease.1 = key with
  | none => l
  | some lease =>
    { l with
      leased := l.leased.eraseP fun lease => lease.1 = key
      released := l.released ++ [lease.2] }

/-- All items of the queue are discarded; leases stay. -/
def discard (l : Ledger ι κ) : Ledger ι κ :=
  { l with available := [], discarded := l.discarded ++ l.available }

/-- Every accepted item is in one place, and the items that left the front of the queue did so in
the order of their acceptance. -/
structure Conserved (l : Ledger ι κ) : Prop where
  partition : l.accepted.Perm (l.available ++ l.leased.map Prod.snd ++ l.released ++ l.discarded)
  order : ∃ settled, l.accepted = settled ++ l.available ∧ l.taken.Sublist settled

/-- Erasing the first entry with a property removes the entry that the search finds. -/
theorem perm_cons_eraseP_of_find? {α : Type*} {p : α → Bool} {l : List α} {a : α}
    (h : l.find? p = some a) : l.Perm (a :: l.eraseP p) := by
  obtain ⟨ha, before, after, rfl, hbefore⟩ := List.find?_eq_some_iff_append.mp h
  rw [List.eraseP_append_right _ (by simpa using hbefore), List.eraseP_cons_of_pos ha]
  exact List.perm_middle

theorem conserved_empty : Conserved (⟨[], [], [], [], [], []⟩ : Ledger ι κ) :=
  ⟨List.Perm.refl _, [], rfl, List.Sublist.refl _⟩

namespace Conserved

variable {l : Ledger ι κ} (h : l.Conserved)

include h

theorem accept (item : ι) : (l.accept item).Conserved where
  partition := by
    have hcomm : (l.available ++ l.leased.map Prod.snd ++ l.released ++ l.discarded ++ [item]).Perm
        ([item] ++ (l.available ++ l.leased.map Prod.snd ++ l.released ++ l.discarded)) :=
      List.perm_append_comm
    refine ((h.partition.append_right [item]).trans hcomm).trans ?_
    simp only [Ledger.accept, List.append_assoc, List.singleton_append]
    exact List.perm_middle.symm
  order := by
    obtain ⟨settled, haccepted, hsublist⟩ := h.order
    exact ⟨settled, by simp [Ledger.accept, haccepted], hsublist⟩

theorem take (key : κ) : (l.take key).Conserved := by
  cases havailable : l.available with
  | nil => simpa only [Ledger.take, havailable] using h
  | cons item rest =>
    obtain ⟨settled, haccepted, hsublist⟩ := h.order
    have hpartition := h.partition
    rw [havailable] at haccepted hpartition
    simp only [Ledger.take, havailable]
    refine ⟨hpartition.trans ?_, settled ++ [item], by simp [haccepted],
      hsublist.append (List.Sublist.refl _)⟩
    simp only [List.map_append, List.map_cons, List.map_nil, List.append_assoc, List.cons_append,
      List.nil_append]
    refine (List.perm_middle.symm).trans (List.Perm.append_left rest ?_)
    exact List.perm_middle.symm

theorem release [DecidableEq κ] (key : κ) : (l.release key).Conserved := by
  cases hfind : l.leased.find? fun lease => lease.1 = key with
  | none => simpa only [Ledger.release, hfind] using h
  | some lease =>
    simp only [Ledger.release, hfind]
    refine ⟨h.partition.trans ?_, h.order⟩
    have hleased := (perm_cons_eraseP_of_find? hfind).map Prod.snd
    rw [List.map_cons] at hleased
    simp only [List.append_assoc, List.singleton_append]
    refine List.Perm.append_left _ ((hleased.append_right _).trans ?_)
    rw [List.cons_append, ← List.append_assoc, ← List.append_assoc]
    exact List.perm_middle.symm

theorem discard : l.discard.Conserved where
  partition := by
    refine h.partition.trans ?_
    simp only [Ledger.discard, List.nil_append]
    have hcomm : (l.available ++ (l.leased.map Prod.snd ++ l.released ++ l.discarded)).Perm
        (l.leased.map Prod.snd ++ l.released ++ l.discarded ++ l.available) :=
      List.perm_append_comm
    simpa only [List.append_assoc] using hcomm
  order := by
    obtain ⟨settled, haccepted, hsublist⟩ := h.order
    exact ⟨settled ++ l.available, by simp [Ledger.discard, haccepted],
      hsublist.trans (List.sublist_append_left _ _)⟩

end Conserved

/-! ### The load -/

variable (size : ι → ℕ)

/-- The size of the items that are available or leased. -/
def load (l : Ledger ι κ) : ℕ :=
  (l.available.map size).sum + (l.leased.map fun lease => size lease.2).sum

theorem load_accept (l : Ledger ι κ) (item : ι) :
    (l.accept item).load size = l.load size + size item := by
  simp only [load, accept, List.map_append, List.sum_append, List.map_cons, List.map_nil,
    List.sum_cons, List.sum_nil]
  omega

theorem load_take (l : Ledger ι κ) (key : κ) : (l.take key).load size = l.load size := by
  cases havailable : l.available with
  | nil => simp only [take, havailable]
  | cons item rest =>
    simp only [load, take, havailable, List.map_append, List.sum_append, List.map_cons,
      List.map_nil, List.sum_cons, List.sum_nil]
    omega

theorem load_release [DecidableEq κ] {l : Ledger ι κ} {key : κ} {lease : κ × ι}
    (hfind : (l.leased.find? fun lease => lease.1 = key) = some lease) :
    (l.release key).load size + size lease.2 = l.load size := by
  have hsum := ((perm_cons_eraseP_of_find? hfind).map fun lease => size lease.2).sum_eq
  rw [List.map_cons, List.sum_cons] at hsum
  simp only [load, release, hfind]
  omega

end Ledger

end MagpieTts.Library
