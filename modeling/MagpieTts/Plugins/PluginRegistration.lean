import Mathlib.Data.List.Basic
import Mathlib.Logic.Function.Basic
import Mathlib.Tactic.SplitIfs

/-!
# The registration of the plugin creators

`register_plugins_explicitly` hands the five creators of the plugin library to the registry of
TensorRT, in order. If the registry refuses one, the creators that it has taken are withdrawn, the
latest first, so that the registry keeps all five or none.

The registry is process-global and keyed by the names of the creators. Each plugin library that is
mapped has creator objects of its own, so a slot is filled by a mapping or by some other library.

## Main definitions

* `PluginRegistry`: the slots of the five creators.
* `registerPluginsExplicitly`: the registration.
* `PluginRegistry.HoldsAll`, `PluginRegistry.HoldsNone`: all creators are those of one mapping; no
  creator belongs to a plugin mapping.

## Main results

* `registerPluginsExplicitly_cases`: all creators are registered, or the registry holds none.
-/

namespace MagpieTts.Plugins

/-- The creators in the order of registration. -/
inductive CreatorKind
  | sampling
  | eos
  | layerNorm
  | geluTanh
  | softmax
  deriving DecidableEq

def CreatorKind.all : List CreatorKind := [sampling, eos, layerNorm, geluTanh, softmax]

theorem CreatorKind.mem_all (kind : CreatorKind) : kind ∈ CreatorKind.all := by
  cases kind <;> decide

/-- `mtt_plugin_status_t`. -/
inductive PluginStatus
  | ok
  | alreadyRegistered
  | invalidArgument
  | abiMismatch
  | registryUnavailable
  | registrationConflict
  | registrationFailed
  | notReady
  | classTableConflict
  deriving DecidableEq

def PluginStatus.code : PluginStatus → ℕ
  | ok => 0
  | alreadyRegistered => 1
  | invalidArgument => 2
  | abiMismatch => 3
  | registryUnavailable => 4
  | registrationConflict => 5
  | registrationFailed => 6
  | notReady => 7
  | classTableConflict => 8

/-- The address of a mapping of a plugin library, as `dlopen` returns it. -/
abbrev Handle := ℕ

/-- Who provides a creator object. -/
inductive Registrant
  | plugin (handle : Handle)
  | other (library : ℕ)
  deriving DecidableEq

/-- The slots of the registry for the creators of the namespace `magpie_tts_rt`. -/
abbrev PluginRegistry := CreatorKind → Option Registrant

/-- What the registry does when a creator is offered for a free slot. -/
inductive RegisterAnswer
  | accepted
  | refused
  /-- Another library has filled the slot since it was looked up. -/
  | taken (library : ℕ)
  deriving DecidableEq

/-- The registry during one registration. -/
structure Registrar where
  available : Bool
  answer : CreatorKind → RegisterAnswer

def registerCreator (registrar : Registrar) (handle : Handle) (kind : CreatorKind)
    (registry : PluginRegistry) : Bool × PluginRegistry :=
  match registry kind, registrar.answer kind with
  | some _, _ => (false, registry)
  | none, .accepted => (true, Function.update registry kind (some (.plugin handle)))
  | none, .refused => (false, registry)
  | none, .taken library => (false, Function.update registry kind (some (.other library)))

def deregisterCreator (kind : CreatorKind) (registry : PluginRegistry) : PluginRegistry :=
  Function.update registry kind none

/-- Withdraws the creators that were registered, the latest first. -/
def rollBack (registered : List CreatorKind) (registry : PluginRegistry) : PluginRegistry :=
  registered.foldl (fun registry kind => deregisterCreator kind registry) registry

/-- Offers the creators of a list, behind those that are `registered`, the latest first. -/
def registerCreators (registrar : Registrar) (handle : Handle) :
    List CreatorKind → List CreatorKind → PluginRegistry → PluginStatus × PluginRegistry
  | _, [], registry => (.ok, registry)
  | registered, kind :: kinds, registry =>
      let offered := registerCreator registrar handle kind registry
      if offered.1 then registerCreators registrar handle (kind :: registered) kinds offered.2
      else
        let remaining := rollBack registered offered.2
        (if remaining kind ≠ none then .registrationConflict else .registrationFailed, remaining)

def registerPluginsExplicitly (registrar : Registrar) (handle : Handle)
    (registry : PluginRegistry) : PluginStatus × PluginRegistry :=
  if ¬ registrar.available then (.registryUnavailable, registry)
  else if ∀ kind ∈ CreatorKind.all, registry kind = some (.plugin handle) then
    (.alreadyRegistered, registry)
  else if ∃ kind ∈ CreatorKind.all, registry kind ≠ none then (.registrationConflict, registry)
  else registerCreators registrar handle [] CreatorKind.all registry

/-! ### All creators or none -/

/-- The five creators are those of the mapping. -/
def PluginRegistry.HoldsAll (registry : PluginRegistry) (handle : Handle) : Prop :=
  ∀ kind, registry kind = some (.plugin handle)

/-- No creator is that of a plugin mapping. -/
def PluginRegistry.HoldsNone (registry : PluginRegistry) : Prop :=
  ∀ kind handle, registry kind ≠ some (.plugin handle)

theorem rollBack_apply (registered : List CreatorKind) (registry : PluginRegistry)
    (kind : CreatorKind) :
    rollBack registered registry kind = if kind ∈ registered then none else registry kind := by
  induction registered generalizing registry with
  | nil => simp [rollBack]
  | cons latest registered ih =>
    rw [rollBack, List.foldl_cons, ← rollBack, ih, deregisterCreator]
    by_cases hmem : kind ∈ registered
    · simp [hmem]
    · by_cases hlatest : kind = latest <;> simp [hmem, hlatest]

/-- During the registration the registered creators are those of the mapping, and no other creator
is one of a plugin mapping. -/
structure Registering (handle : Handle) (registered : List CreatorKind)
    (registry : PluginRegistry) : Prop where
  holds : ∀ kind ∈ registered, registry kind = some (.plugin handle)
  others : ∀ kind, kind ∉ registered → ∀ other, registry kind ≠ some (.plugin other)

variable {registrar : Registrar} {handle : Handle} {registered : List CreatorKind}
  {registry : PluginRegistry}

theorem Registering.accepted {kind : CreatorKind} (h : Registering handle registered registry) :
    Registering handle (kind :: registered)
      (Function.update registry kind (some (.plugin handle))) where
  holds kind' hmem := by
    by_cases heq : kind' = kind
    · rw [heq, Function.update_self]
    · rw [Function.update_of_ne heq]
      exact h.holds kind' ((List.mem_cons.mp hmem).resolve_left heq)
  others kind' hmem other := by
    rw [List.mem_cons, not_or] at hmem
    rw [Function.update_of_ne hmem.1]
    exact h.others kind' hmem.2 other

/-- A slot that another library has filled is no creator of a plugin. -/
theorem Registering.taken {kind : CreatorKind} {library : ℕ} (hfree : registry kind = none)
    (h : Registering handle registered registry) :
    Registering handle registered (Function.update registry kind (some (.other library))) where
  holds kind' hmem := by
    rw [Function.update_of_ne, h.holds kind' hmem]
    rintro rfl
    exact nomatch hfree.symm.trans (h.holds _ hmem)
  others kind' hmem other := by
    by_cases heq : kind' = kind
    · rw [heq, Function.update_self]
      nofun
    · rw [Function.update_of_ne heq]
      exact h.others kind' hmem other

/-- The roll-back leaves no creator of a plugin. -/
theorem Registering.rollBack (h : Registering handle registered registry) :
    (rollBack registered registry).HoldsNone := by
  intro kind other
  rw [rollBack_apply]
  split_ifs with hmem
  · nofun
  · exact h.others kind hmem other

/-- One creator that is offered. -/
theorem Registering.registerCreator {kind : CreatorKind}
    (h : Registering handle registered registry) :
    ((registerCreator registrar handle kind registry).1 = true ∧
      Registering handle (kind :: registered)
        (registerCreator registrar handle kind registry).2) ∨
    ((registerCreator registrar handle kind registry).1 = false ∧
      Registering handle registered (registerCreator registrar handle kind registry).2) := by
  rw [Plugins.registerCreator]
  rcases hslot : registry kind with _ | registrant
  · rcases registrar.answer kind with _ | _ | library
    · exact Or.inl ⟨rfl, h.accepted⟩
    · exact Or.inr ⟨rfl, h⟩
    · exact Or.inr ⟨rfl, h.taken hslot⟩
  · exact Or.inr ⟨rfl, h⟩

/-- The creators that are left to offer, by induction on them: the registration ends with all
creators registered, or with none. -/
theorem registerCreators_cases (kinds : List CreatorKind)
    (h : Registering handle registered registry) :
    ((registerCreators registrar handle registered kinds registry).1 = .ok ∧
      ∀ kind, kind ∈ registered ∨ kind ∈ kinds →
        (registerCreators registrar handle registered kinds registry).2 kind =
          some (.plugin handle)) ∨
    ((registerCreators registrar handle registered kinds registry).1 ≠ .ok ∧
      (registerCreators registrar handle registered kinds registry).1 ≠ .alreadyRegistered ∧
      (registerCreators registrar handle registered kinds registry).2.HoldsNone) := by
  induction kinds generalizing registered registry with
  | nil => exact Or.inl ⟨rfl, fun kind hmem => h.holds kind (hmem.resolve_right nofun)⟩
  | cons kind kinds ih =>
    rw [registerCreators]
    rcases h.registerCreator with ⟨haccepted, hnext⟩ | ⟨hrefused, hnext⟩
    · rw [if_pos haccepted]
      refine (ih hnext).imp_left fun ⟨hok, hall⟩ => ⟨hok, fun kind' hmem => hall kind' ?_⟩
      rw [List.mem_cons] at hmem ⊢
      exact or_assoc.mpr (hmem.elim (fun h => Or.inr (Or.inl h))
        (fun h => h.elim Or.inl fun h => Or.inr (Or.inr h)))
    · rw [if_neg (by simp [hrefused])]
      refine Or.inr ⟨?_, ?_, hnext.rollBack⟩ <;> · dsimp only; split_ifs <;> decide

/-- The registration returns success with all creators registered, or a failure with none. -/
theorem registerPluginsExplicitly_cases (hnone : registry.HoldsNone) :
    ((registerPluginsExplicitly registrar handle registry).1 = .ok ∧
      (registerPluginsExplicitly registrar handle registry).2.HoldsAll handle) ∨
    ((registerPluginsExplicitly registrar handle registry).1 ≠ .ok ∧
      (registerPluginsExplicitly registrar handle registry).1 ≠ .alreadyRegistered ∧
      (registerPluginsExplicitly registrar handle registry).2.HoldsNone) := by
  have hstart : Registering handle [] registry := ⟨nofun, fun kind _ other => hnone kind other⟩
  rw [registerPluginsExplicitly]
  split_ifs with havailable hall hany
  · exact absurd (hall .sampling (CreatorKind.mem_all _)) (hnone .sampling handle)
  · exact Or.inr ⟨nofun, nofun, hnone⟩
  · exact (registerCreators_cases CreatorKind.all hstart).imp_left fun ⟨hok, hall⟩ =>
      ⟨hok, fun kind => hall kind (Or.inr (CreatorKind.mem_all kind))⟩
  · exact Or.inr ⟨nofun, nofun, hnone⟩

end MagpieTts.Plugins
