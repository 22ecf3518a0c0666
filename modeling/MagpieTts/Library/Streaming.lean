import Mathlib.Algebra.BigOperators.Group.List.Basic
import Mathlib.Data.List.GetD

/-!
# Layers that stream

A layer of a streaming network reads states by name, maps a chunk of a signal, a list of time steps,
to a chunk of its output, and returns new values for the states that it owns. It *streams* if a
signal gives the same output and the same states whether it is passed as a whole or cut into two
chunks, the second read with the states that the first has left.

A network is built from layers in sequence, from skip connections and from branches whose outputs
are reduced; each of these constructions streams if its parts do, and a run over any list of chunks
is then the run over their concatenation.

## Main definitions

* `StreamLayer`, `Streams`: layers, and the ones that stream.
* `mapLayer`, `seqLayer`, `seqLayers`, `skipLayer`, `fanLayer`: the constructions.

## Main results

* `Streams.seq`, `Streams.seqLayers`, `Streams.skip`, `Streams.fan`: the constructions stream.
* `getD_idxOf_map`, `lookup_eq_some_of_mem`: states that are passed on by their names.
-/

namespace MagpieTts.Library

variable {σ X A B C : Type*}

/-- A layer, from the states and a chunk to the output and the new states, in the order in which
they are written. -/
abbrev StreamLayer (σ X A B : Type*) := (σ → X) → List A → List B × List (σ × X)

/-- The layer writes the states `names`, maps every time step to `rate` of them, keeps the states
good and may be cut between any two time steps. -/
structure Streams (good : σ → X → Prop) (names : List σ) (rate : ℕ) (layer : StreamLayer σ X A B) :
    Prop where
  rate_pos : 0 < rate
  names_eq : ∀ s xs, (layer s xs).2.map Prod.fst = names
  length_eq : ∀ s xs, (∀ name, good name (s name)) → xs ≠ [] →
    (layer s xs).1.length = rate * xs.length
  keeps : ∀ s xs, (∀ name, good name (s name)) → xs ≠ [] →
    ∀ entry ∈ (layer s xs).2, good entry.1 entry.2
  append : ∀ s t xs ys, (∀ name, good name (s name)) → (∀ name, good name (t name)) → xs ≠ [] →
    ys ≠ [] → (∀ entry ∈ (layer s xs).2, t entry.1 = entry.2) →
    layer s (xs ++ ys) = ((layer s xs).1 ++ (layer t ys).1, (layer t ys).2)

/-- A layer without state that acts on every time step separately. -/
def mapLayer (f : A → B) : StreamLayer σ X A B := fun _ xs => (xs.map f, [])

/-- Two layers in sequence. -/
def seqLayer (f : StreamLayer σ X A B) (g : StreamLayer σ X B C) : StreamLayer σ X A C :=
  fun s xs => ((g s (f s xs).1).1, (f s xs).2 ++ (g s (f s xs).1).2)

/-- A list of layers in sequence, as a loop that collects the states. -/
def seqLayers (layers : List (StreamLayer σ X A A)) : StreamLayer σ X A A := fun s xs =>
  layers.foldl (fun acc layer => ((layer s acc.1).1, acc.2 ++ (layer s acc.1).2)) (xs, [])

/-- A layer whose output is combined with its input. -/
def skipLayer (combine : A → A → A) (f : StreamLayer σ X A A) : StreamLayer σ X A A := fun s xs =>
  (List.zipWith combine xs (f s xs).1, (f s xs).2)

/-- Layers that read the same input, with their outputs reduced to one. -/
def fanLayer (reduce : List (List B) → List C) (layers : List (StreamLayer σ X A B)) :
    StreamLayer σ X A C := fun s xs =>
  (reduce (layers.map fun layer => (layer s xs).1), layers.flatMap fun layer => (layer s xs).2)

variable {good : σ → X → Prop} {names names' : List σ} {rate rate' : ℕ}

theorem Streams.ne_nil {f : StreamLayer σ X A B} (hf : Streams good names rate f) {s : σ → X}
    {xs : List A} (hs : ∀ name, good name (s name)) (hxs : xs ≠ []) : (f s xs).1 ≠ [] := by
  rw [← List.length_pos_iff, hf.length_eq s xs hs hxs]
  exact Nat.mul_pos hf.rate_pos (List.length_pos_iff.mpr hxs)

theorem streams_map (f : A → B) : Streams good [] 1 (mapLayer f : StreamLayer σ X A B) where
  rate_pos := Nat.one_pos
  names_eq := fun _ _ => rfl
  length_eq := fun _ _ _ _ => by rw [mapLayer, List.length_map, Nat.one_mul]
  keeps := fun _ _ _ _ _ => nofun
  append := fun _ _ _ _ _ _ _ _ _ => by rw [mapLayer, List.map_append]; rfl

theorem Streams.seq {f : StreamLayer σ X A B} {g : StreamLayer σ X B C}
    (hf : Streams good names rate f) (hg : Streams good names' rate' g) :
    Streams good (names ++ names') (rate' * rate) (seqLayer f g) where
  rate_pos := Nat.mul_pos hg.rate_pos hf.rate_pos
  names_eq := fun s xs => by
    rw [seqLayer, List.map_append, hf.names_eq, hg.names_eq]
  length_eq := fun s xs hs hxs => by
    rw [seqLayer, hg.length_eq s _ hs (hf.ne_nil hs hxs), hf.length_eq s xs hs hxs, Nat.mul_assoc]
  keeps := fun s xs hs hxs entry hentry => by
    rcases List.mem_append.mp hentry with h | h
    · exact hf.keeps s xs hs hxs entry h
    · exact hg.keeps s _ hs (hf.ne_nil hs hxs) entry h
  append := fun s t xs ys hs ht hxs hys hagree => by
    have hfirst := hf.append s t xs ys hs ht hxs hys fun entry h =>
      hagree entry (List.mem_append_left _ h)
    have hsecond := hg.append s t (f s xs).1 (f t ys).1 hs ht (hf.ne_nil hs hxs)
      (hf.ne_nil ht hys) fun entry h => hagree entry (List.mem_append_right _ h)
    simp only [seqLayer, hfirst, hsecond]

/-- A loop over layers is the first one, followed by the loop over the others. -/
theorem seqLayers_cons (layer : StreamLayer σ X A A) (layers : List (StreamLayer σ X A A)) :
    seqLayers (layer :: layers) = seqLayer layer (seqLayers layers) := by
  have hacc : ∀ (layers : List (StreamLayer σ X A A)) (s : σ → X) (xs : List A)
      (entries : List (σ × X)),
      layers.foldl (fun acc layer => ((layer s acc.1).1, acc.2 ++ (layer s acc.1).2))
        (xs, entries) = ((seqLayers layers s xs).1, entries ++ (seqLayers layers s xs).2) := by
    intro layers
    induction layers with
    | nil => intro s xs entries; simp [seqLayers]
    | cons layer layers ih =>
      intro s xs entries
      rw [seqLayers, List.foldl_cons, List.foldl_cons, ih, ih, List.nil_append, List.append_assoc]
  funext s xs
  rw [seqLayers, List.foldl_cons, hacc, List.nil_append]
  rfl

theorem Streams.seqLayers (layers : List (StreamLayer σ X A A × List σ × ℕ))
    (hlayers : ∀ layer ∈ layers, Streams good layer.2.1 layer.2.2 layer.1) :
    Streams good (layers.flatMap fun layer => layer.2.1) (layers.map fun layer => layer.2.2).prod
      (Library.seqLayers (layers.map Prod.fst)) := by
  induction layers with
  | nil =>
    have hid : Library.seqLayers ([] : List (StreamLayer σ X A A)) = mapLayer id := by
      funext s xs
      rw [mapLayer, List.map_id]
      rfl
    simp only [List.map_nil, hid]
    exact streams_map id
  | cons layer layers ih =>
    simp only [List.map_cons, seqLayers_cons, List.flatMap_cons, List.prod_cons]
    rw [Nat.mul_comm]
    exact (hlayers layer List.mem_cons_self).seq
      (ih fun layer hlayer => hlayers layer (List.mem_cons_of_mem _ hlayer))

theorem Streams.skip {f : StreamLayer σ X A A} (hf : Streams good names 1 f)
    (combine : A → A → A) : Streams good names 1 (skipLayer combine f) where
  rate_pos := Nat.one_pos
  names_eq := hf.names_eq
  length_eq := fun s xs hs hxs => by
    rw [skipLayer, List.length_zipWith, hf.length_eq s xs hs hxs, Nat.one_mul, Nat.min_self]
  keeps := hf.keeps
  append := fun s t xs ys hs ht hxs hys hagree => by
    have hlength : xs.length = (f s xs).1.length := by rw [hf.length_eq s xs hs hxs, Nat.one_mul]
    rw [skipLayer, hf.append s t xs ys hs ht hxs hys hagree, List.zipWith_append hlength]
    rfl

/-- A reduction that may be cut: it maps signals of one length to a signal of that length, and the
concatenations of two families of signals to the concatenation of their reductions. -/
structure Reduces (reduce : List (List B) → List C) (count : ℕ) : Prop where
  length_eq : ∀ signals length, signals.length = count → (∀ signal ∈ signals,
    signal.length = length) → (reduce signals).length = length
  append : ∀ signals signals' length length', signals.length = count → signals'.length = count →
    (∀ signal ∈ signals, signal.length = length) → (∀ signal ∈ signals', signal.length = length') →
    reduce (List.zipWith (· ++ ·) signals signals') = reduce signals ++ reduce signals'

theorem Streams.fan {reduce : List (List B) → List C} (layers : List (StreamLayer σ X A B × List σ))
    (hrate : 0 < rate) (hlayers : ∀ layer ∈ layers, Streams good layer.2 rate layer.1)
    (hreduce : Reduces reduce layers.length) :
    Streams good (layers.flatMap Prod.snd) rate (fanLayer reduce (layers.map Prod.fst)) := by
  have hsignals : ∀ s xs, (∀ name, good name (s name)) → xs ≠ [] →
      ∀ signal ∈ (layers.map Prod.fst).map fun layer => (layer s xs).1,
        signal.length = rate * xs.length := by
    intro s xs hs hxs signal hsignal
    rw [List.map_map] at hsignal
    obtain ⟨layer, hlayer, rfl⟩ := List.mem_map.mp hsignal
    exact (hlayers layer hlayer).length_eq s xs hs hxs
  refine ⟨hrate, fun s xs => ?_, fun s xs hs hxs => ?_, fun s xs hs hxs entry hentry => ?_,
    fun s t xs ys hs ht hxs hys hagree => ?_⟩
  · rw [fanLayer, List.map_flatMap, List.flatMap_map]
    exact List.flatMap_congr fun layer hlayer => (hlayers layer hlayer).names_eq s xs
  · exact hreduce.length_eq _ _ (by simp) (hsignals s xs hs hxs)
  · rw [fanLayer, List.flatMap_map] at hentry
    obtain ⟨layer, hlayer, hentry⟩ := List.mem_flatMap.mp hentry
    exact (hlayers layer hlayer).keeps s xs hs hxs entry hentry
  · have hcut : ∀ layer ∈ layers, layer.1 s (xs ++ ys) =
        ((layer.1 s xs).1 ++ (layer.1 t ys).1, (layer.1 t ys).2) := by
      intro layer hlayer
      refine (hlayers layer hlayer).append s t xs ys hs ht hxs hys fun entry hentry => ?_
      refine hagree entry ?_
      rw [fanLayer, List.flatMap_map]
      exact List.mem_flatMap.mpr ⟨layer, hlayer, hentry⟩
    have houtputs : ((layers.map Prod.fst).map fun layer => (layer s (xs ++ ys)).1) =
        List.zipWith (· ++ ·) ((layers.map Prod.fst).map fun layer => (layer s xs).1)
          ((layers.map Prod.fst).map fun layer => (layer t ys).1) := by
      rw [List.map_map, List.map_map, List.map_map, List.zipWith_map, List.zipWith_self]
      exact List.map_congr_left fun layer hlayer => by
        simp only [Function.comp_apply, hcut layer hlayer]
    have hentries : ((layers.map Prod.fst).flatMap fun layer => (layer s (xs ++ ys)).2) =
        (layers.map Prod.fst).flatMap fun layer => (layer t ys).2 := by
      rw [List.flatMap_map, List.flatMap_map]
      exact List.flatMap_congr fun layer hlayer => by rw [hcut layer hlayer]
    simp only [fanLayer, houtputs, hentries]
    rw [hreduce.append _ _ _ _ (by simp) (by simp) (hsignals s xs hs hxs) (hsignals t ys ht hys)]

/-! ### States by name -/

variable [DecidableEq σ]

/-- A list in the order of some names, read at a name. -/
theorem getD_idxOf_map (f : σ → X) {order : List σ} {name : σ} (hname : name ∈ order)
    (default : X) : (order.map f).getD (order.idxOf name) default = f name := by
  have hlt : order.idxOf name < order.length := List.idxOf_lt_length_of_mem hname
  rw [List.getD_eq_getElem _ _ (by rwa [List.length_map]), List.getElem_map,
    List.getElem_idxOf hlt]

/-- States of different names are found again. -/
theorem lookup_eq_some_of_mem {entries : List (σ × X)} (hnodup : (entries.map Prod.fst).Nodup)
    {entry : σ × X} (hentry : entry ∈ entries) : entries.lookup entry.1 = some entry.2 := by
  induction entries with
  | nil => cases hentry
  | cons first entries ih =>
    rw [List.map_cons, List.nodup_cons] at hnodup
    rcases List.mem_cons.mp hentry with rfl | hmem
    · exact List.lookup_cons_self
    · have hne : entry.1 ≠ first.1 := fun heq => hnodup.1 (heq ▸ List.mem_map_of_mem hmem)
      rw [List.lookup_cons, beq_eq_false_iff_ne.mpr hne]
      exact ih hnodup.2 hmem

end MagpieTts.Library
