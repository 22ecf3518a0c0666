import MagpieTts.Library.Run
import MagpieTts.Runtime.PluginLoader

/-!
# The process-wide owner of the plugin library

Any number of runtimes call `authenticate_and_register`, from any threads. A call holds the lock of
its runtime from its first checks to its end, and the lock of the process while it reads and writes
the owner; so the calls of different runtimes interleave between those two parts, and a call of a
runtime that has one under way waits.

## Main definitions

* `PluginProcess`, `PluginAction`: the process, and the two parts of the calls as its actions.
* `PluginProcess.Coherent`: the invariant of the owner, the registry and the runtimes.
* `OwnershipHolds`: what is expected of a run of the process.
* `JoinRunsOutOfMemory`: a call that joins the owner fails when it copies the owner's digest.

## Main results

* `bindUnderProcessLock_meets`: what a call does to a coherent process.
* `ownershipHolds_iff`: a run does what is expected if and only if no join runs out of memory.
-/

namespace MagpieTts.Runtime

open Library Plugins

/-! ### One call under the lock of the process -/

/-- Nothing is owned and no creator is registered, or one mapping is owned and its creators are. -/
def ProcessPluginOwner.Committed (owner : ProcessPluginOwner) (registry : PluginRegistry)
    (mappings : List Handle) : Prop :=
  match owner.handle with
  | none => mappings = [] ∧ registry.HoldsNone
  | some handle => mappings = [handle] ∧ registry.HoldsAll handle

/-- A runtime that is authenticated is so for the owner. -/
def RuntimePluginState.BoundTo (runtime : RuntimePluginState) (owner : ProcessPluginOwner) : Prop :=
  runtime.authenticated = true →
    owner.handle ≠ none ∧ runtime.sha256 = owner.sha256 ∧ runtime.abiVersion = owner.abiVersion

/-- The call joins the owner, every check passes, and the copy of the owner's digest fails. -/
def JoinRunsOutOfMemory (answers : LoaderAnswers) (call : PluginCall)
    (runtime : RuntimePluginState) (owner : ProcessPluginOwner) : Prop :=
  runtime.authenticated = false ∧ owner.handle ≠ none ∧
    requireMatchingProcessOwner answers owner call = .ok () ∧
    answers.outOfMemory .joinedRuntimeSha256 = true

variable {answers : LoaderAnswers} {call : PluginCall} {s : LoaderState}

theorem not_failPlugin_eq_ok {α : Type} {outOfMemory : OutOfMemory} {code : PluginLoadErrorCode}
    {detail : String} {value : α} : failPlugin outOfMemory code detail ≠ .ok value := by
  rw [failPlugin]
  split_ifs <;> nofun

theorem requireMatchingProcessOwner_ok {owner : ProcessPluginOwner}
    (hok : requireMatchingProcessOwner answers owner call = .ok ()) :
    owner.handle ≠ none ∧ owner.sha256 = call.artifact.sha256 := by
  rw [requireMatchingProcessOwner] at hok
  split_ifs at hok with hhandle hsha
  · exact absurd hok not_failPlugin_eq_ok
  · exact absurd hok not_failPlugin_eq_ok
  · exact ⟨hhandle, not_not.mp hsha⟩

/-- What a call that returns leaves. -/
structure CallReturned (call : PluginCall) (s s' : LoaderState) : Prop where
  committed : s'.owner.Committed s'.registry s'.mappings
  bound : s'.runtime.BoundTo s'.owner
  authenticated : s'.runtime.authenticated = true
  sha256 : s'.owner.sha256 = call.artifact.sha256
  owner : s.owner.handle ≠ none → s'.owner = s.owner

/-- What a call that fails leaves. -/
structure CallFailed (s s' : LoaderState) : Prop where
  committed : s'.owner.Committed s'.registry s'.mappings
  runtime : s'.runtime = s.runtime
  owner : s'.owner = s.owner

theorem checkOwner_meets (hcommitted : s.owner.Committed s.registry s.mappings)
    (hbound : s.runtime.BoundTo s.owner) (hauthenticated : s.runtime.authenticated = true) :
    Meets (checkOwner answers call) s (fun _ s' => CallReturned call s s') fun _ s' =>
      CallFailed s s' := by
  have hfailed : CallFailed s s := ⟨hcommitted, rfl, rfl⟩
  simp only [checkOwner, meets_bind, meets_get, meets_check, meets_ite, meets_pure]
  refine ⟨fun _ hmatching => ⟨fun _ => ⟨fun _ h => absurd h not_failPlugin_eq_ok,
    fun _ _ => hfailed⟩, fun _ => ?_⟩, fun _ _ => hfailed⟩
  exact ⟨hcommitted, hbound, hauthenticated, (requireMatchingProcessOwner_ok hmatching).2,
    fun _ => rfl⟩

/-- A runtime that joins and has the memory for the digest. -/
theorem joinOwner_meets (hcommitted : s.owner.Committed s.registry s.mappings)
    (hmemory : requireMatchingProcessOwner answers s.owner call = .ok () →
      answers.outOfMemory .joinedRuntimeSha256 = false) :
    Meets (joinOwner answers call) s (fun _ s' => CallReturned call s s') fun _ s' =>
      CallFailed s s' := by
  simp only [joinOwner, meets_bind, meets_get, meets_check, meets_modify]
  refine ⟨fun _ hmatching => ?_, fun _ _ => ⟨hcommitted, rfl, rfl⟩⟩
  have hallocate : allocate answers.outOfMemory .joinedRuntimeSha256 = .ok () := by
    simp [allocate, hmemory hmatching]
  obtain ⟨hhandle, hsha⟩ := requireMatchingProcessOwner_ok hmatching
  rw [hallocate]
  refine ⟨fun _ _ => ⟨hcommitted, fun _ => ⟨hhandle, rfl, rfl⟩, rfl, hsha, fun _ => rfl⟩, ?_⟩
  rintro _ ⟨⟩

/-- The registration of a candidate: it commits, or it leaves no creator registered. -/
theorem registerAndCommit_meets {candidate : Handle} (hnone : s.registry.HoldsNone)
    (hmapped : s.mappings = [candidate]) :
    Meets (registerAndCommit answers call candidate) s
      (fun _ s' => s'.owner.Committed s'.registry s'.mappings ∧ s'.runtime.BoundTo s'.owner ∧
        s'.runtime.authenticated = true ∧ s'.owner.sha256 = call.artifact.sha256)
      fun _ s' => s'.registry.HoldsNone ∧ s'.mappings = s.mappings ∧ s'.runtime = s.runtime ∧
        s'.owner = s.owner := by
  simp only [registerAndCommit, registerPlugins, meets_bind, meets_get, meets_check, meets_set,
    meets_pure, meets_ite, meets_modify]
  refine ⟨fun prepared _ => ?_, fun _ _ => ⟨hnone, trivial, trivial, trivial⟩⟩
  rcases @registerPluginsExplicitly_cases answers.registrar candidate _ hnone with
    ⟨hok, hall⟩ | ⟨hok, halready, hempty⟩
  · refine ⟨fun hrefused => absurd hok hrefused.1, fun _ => ⟨⟨hmapped, hall⟩, fun _ => ?_, ?_⟩⟩
    · exact ⟨(by rintro ⟨⟩), rfl, rfl⟩
    · exact ⟨trivial, trivial⟩
  · refine ⟨fun _ => ⟨fun _ h => absurd h not_failPlugin_eq_ok, fun _ _ => ?_⟩, fun h => ?_⟩
    · exact ⟨hempty, trivial, trivial, trivial⟩
    · exact absurd ⟨hok, halready⟩ h

theorem loadAndRegister_meets (hcommitted : s.owner.Committed s.registry s.mappings)
    (hfree : s.owner.handle = none) :
    Meets (loadAndRegister answers call) s (fun _ s' => CallReturned call s s') fun _ s' =>
      CallFailed s s' := by
  have hfailed : CallFailed s s := ⟨hcommitted, rfl, rfl⟩
  rw [ProcessPluginOwner.Committed, hfree] at hcommitted
  rw [loadAndRegister, meets_bind, meets_check]
  refine ⟨fun _ _ => ?_, fun _ _ => hfailed⟩
  rcases answers.dlopen with _ | candidate
  · exact meets_check.mpr ⟨fun _ h => absurd h not_failPlugin_eq_ok, fun _ _ => hfailed⟩
  · simp only [meets_bind, meets_modify, meets_tryCatch]
    refine (registerAndCommit_meets (s := { s with mappings := candidate :: s.mappings })
      hcommitted.2 (by rw [hcommitted.1])).mono ?_ ?_
    · rintro _ s' ⟨h, hbound, hauthenticated, hsha⟩
      exact ⟨h, hbound, hauthenticated, hsha, fun howned => absurd hfree howned⟩
    · rintro failure s' ⟨hempty, hmappings, hruntime, howner⟩
      simp only [closeCandidate, meets_bind, meets_get, meets_ite, meets_set, meets_throw,
        meets_pure]
      refine ⟨fun _ => ⟨?_, hruntime, howner⟩, fun howned => ?_⟩
      · rw [ProcessPluginOwner.Committed, howner, hfree, hmappings, hcommitted.1]
        exact ⟨by simp, hempty⟩
      · exact absurd (howner ▸ hfree) howned

/-- A call keeps the process coherent, unless it runs out of memory while it joins; if it fails it
leaves the runtime and the owner as they were. -/
theorem bindUnderProcessLock_meets (hcommitted : s.owner.Committed s.registry s.mappings)
    (hbound : s.runtime.BoundTo s.owner)
    (hmemory : ¬ JoinRunsOutOfMemory answers call s.runtime s.owner) :
    Meets (bindUnderProcessLock answers call) s (fun _ s' => CallReturned call s s') fun _ s' =>
      CallFailed s s' := by
  simp only [bindUnderProcessLock, meets_bind, meets_get, meets_ite]
  refine ⟨checkOwner_meets hcommitted hbound, fun hauthenticated => ⟨fun howned => ?_, fun hfree =>
    loadAndRegister_meets hcommitted (not_not.mp hfree)⟩⟩
  refine joinOwner_meets hcommitted fun hmatching => ?_
  rw [Bool.not_eq_true] at hauthenticated
  exact Bool.not_eq_true _ |>.mp fun h => hmemory ⟨hauthenticated, howned, hmatching, h⟩

/-- A join that runs out of memory fails and leaves the runtime authenticated. -/
theorem bindUnderProcessLock_of_joinRunsOutOfMemory
    (hmemory : JoinRunsOutOfMemory answers call s.runtime s.owner) :
    Meets (bindUnderProcessLock answers call) s (fun _ _ => False) fun failure s' =>
      failure = .badAlloc ∧ s'.runtime = { s.runtime with authenticated := true } := by
  obtain ⟨hauthenticated, howned, hmatching, hfault⟩ := hmemory
  have hallocate : allocate answers.outOfMemory .joinedRuntimeSha256 = .error .badAlloc := by
    simp [allocate, hfault]
  simp only [bindUnderProcessLock, joinOwner, meets_bind, meets_get, meets_ite, meets_check,
    meets_modify, hauthenticated, hmatching, hallocate]
  refine ⟨(by rintro ⟨⟩), fun _ => ⟨fun _ => ⟨fun _ _ => ⟨(by rintro _ ⟨⟩), ?_⟩, (by rintro _ ⟨⟩)⟩,
    fun hfree => ?_⟩⟩
  · rintro _ ⟨⟩
    exact ⟨rfl, trivial⟩
  · exact absurd howned hfree

/-! ### The process -/

variable {ι : Type} [DecidableEq ι]

/-- The process with its runtimes, which `ι` names. -/
structure PluginProcess (ι : Type) where
  owner : ProcessPluginOwner
  registry : PluginRegistry
  mappings : List Handle
  runtimes : ι → RuntimePluginState
  /-- The calls that hold the locks of their runtimes. -/
  calls : ι → Option PluginCall

/-- A process that has loaded no plugin library yet. -/
def PluginProcess.initial (registry : PluginRegistry) : PluginProcess ι where
  owner :=
    { handle := none
      sha256 := ""
      abiVersion := 0
      cublasIdentity := ⟨0, ⟨"", 0, ""⟩, ⟨"", 0, ""⟩⟩
      creators := [] }
  registry := registry
  mappings := []
  runtimes := fun _ => .initial
  calls := fun _ => none

/-- The two parts of a call of `authenticate_and_register`. -/
inductive PluginAction (ι : Type)
  | enter (runtime : ι) (outOfMemory : OutOfMemory) (bundle : PluginBundle) (cudaDeviceIndex : ℤ)
  | finish (runtime : ι) (answers : LoaderAnswers)

/-- What a call of the runtime reads and writes under the lock of the process. -/
def PluginProcess.loaderState (p : PluginProcess ι) (runtime : ι) : LoaderState where
  runtime := p.runtimes runtime
  owner := p.owner
  registry := p.registry
  mappings := p.mappings

/-- The end of a call of the runtime. -/
def PluginProcess.leave (p : PluginProcess ι) (runtime : ι) (s : LoaderState) :
    PluginProcess ι where
  owner := s.owner
  registry := s.registry
  mappings := s.mappings
  runtimes := Function.update p.runtimes runtime s.runtime
  calls := Function.update p.calls runtime none

@[simp] theorem PluginProcess.leave_runtimes_self (p : PluginProcess ι) (runtime : ι)
    (s : LoaderState) : (p.leave runtime s).runtimes runtime = s.runtime :=
  Function.update_self ..

/-- The answer of the call that the action ends, if it ends one, and the process after it. An action
that waits for the lock of its runtime changes nothing. -/
def PluginProcess.act (p : PluginProcess ι) :
    PluginAction ι → Option (Except PluginFailure Unit) × PluginProcess ι
  | .enter runtime outOfMemory bundle cudaDeviceIndex =>
      match p.calls runtime with
      | some _ => (none, p)
      | none =>
          match requireUnboundOrSame outOfMemory (p.runtimes runtime) bundle cudaDeviceIndex with
          | .error failure => (some (.error failure), p)
          | .ok call => (none, { p with calls := Function.update p.calls runtime (some call) })
  | .finish runtime answers =>
      match p.calls runtime with
      | none => (none, p)
      | some call =>
          let outcome := (bindUnderProcessLock answers call).run.run (p.loaderState runtime)
          (some outcome.1, p.leave runtime outcome.2)

def PluginProcess.step (p : PluginProcess ι) (action : PluginAction ι) : PluginProcess ι :=
  (p.act action).2

/-- The owner, the registry and the runtimes agree. -/
structure PluginProcess.Coherent (p : PluginProcess ι) : Prop where
  committed : p.owner.Committed p.registry p.mappings
  bound : ∀ runtime, (p.runtimes runtime).BoundTo p.owner

/-- The action ends a call that joins the owner, and the copy of the owner's digest runs out of
memory. -/
def PluginProcess.JoinFails (p : PluginProcess ι) : PluginAction ι → Prop
  | .enter _ _ _ _ => False
  | .finish runtime answers =>
      ∃ call, p.calls runtime = some call ∧
        JoinRunsOutOfMemory answers call (p.runtimes runtime) p.owner

/-- What is expected of a run of the process, between any two actions of it. -/
structure OwnershipHolds (first : PluginProcess ι) (actions : List (PluginAction ι)) : Prop where
  coherent : ∀ i, (run PluginProcess.step first (actions.take i)).Coherent
  /-- The owner never changes again. -/
  owner : ∀ i j, i ≤ j → (run PluginProcess.step first (actions.take i)).owner.handle ≠ none →
    (run PluginProcess.step first (actions.take j)).owner =
      (run PluginProcess.step first (actions.take i)).owner
  /-- A call that fails leaves the runtimes and the owner as they were. -/
  failed : ∀ i (hi : i < actions.length) failure,
    ((run PluginProcess.step first (actions.take i)).act actions[i]).1 = some (.error failure) →
    (run PluginProcess.step first (actions.take (i + 1))).runtimes =
        (run PluginProcess.step first (actions.take i)).runtimes ∧
      (run PluginProcess.step first (actions.take (i + 1))).owner =
        (run PluginProcess.step first (actions.take i)).owner
  /-- Once a plugin is owned, a bundle whose plugin has another digest is refused. -/
  refused : ∀ i (hi : i < actions.length) runtime answers call,
    actions[i] = .finish runtime answers →
    (run PluginProcess.step first (actions.take i)).calls runtime = some call →
    (run PluginProcess.step first (actions.take i)).owner.handle ≠ none →
    call.artifact.sha256 ≠ (run PluginProcess.step first (actions.take i)).owner.sha256 →
    ∃ failure, ((run PluginProcess.step first (actions.take i)).act actions[i]).1 =
      some (.error failure)

/-! ### The steps -/

variable {p : PluginProcess ι} {action : PluginAction ι}

omit [DecidableEq ι] in
theorem PluginProcess.initial_coherent {registry : PluginRegistry} (hnone : registry.HoldsNone) :
    (PluginProcess.initial registry : PluginProcess ι).Coherent :=
  ⟨⟨rfl, hnone⟩, fun _ => nofun⟩

/-- An action that does not end a call, or ends it with its first checks. -/
theorem PluginProcess.act_enter (runtime : ι) (outOfMemory : OutOfMemory) (bundle : PluginBundle)
    (cudaDeviceIndex : ℤ) :
    (p.step (.enter runtime outOfMemory bundle cudaDeviceIndex)).owner = p.owner ∧
      (p.step (.enter runtime outOfMemory bundle cudaDeviceIndex)).registry = p.registry ∧
      (p.step (.enter runtime outOfMemory bundle cudaDeviceIndex)).mappings = p.mappings ∧
      (p.step (.enter runtime outOfMemory bundle cudaDeviceIndex)).runtimes = p.runtimes := by
  rw [PluginProcess.step, PluginProcess.act]
  rcases p.calls runtime with _ | call
  · rcases requireUnboundOrSame outOfMemory (p.runtimes runtime) bundle cudaDeviceIndex with _ | _
    · exact ⟨rfl, rfl, rfl, rfl⟩
    · exact ⟨rfl, rfl, rfl, rfl⟩
  · exact ⟨rfl, rfl, rfl, rfl⟩

/-- The two ways in which a call of a coherent process ends. -/
theorem PluginProcess.Coherent.finish (h : p.Coherent) {runtime : ι} {answers : LoaderAnswers}
    {call : PluginCall} (hcall : p.calls runtime = some call)
    (hjoin : ¬ p.JoinFails (.finish runtime answers)) :
    (∃ s', p.act (.finish runtime answers) = (some (.ok ()), p.leave runtime s') ∧
      CallReturned call (p.loaderState runtime) s') ∨
    (∃ failure s', p.act (.finish runtime answers) =
        (some (.error failure), p.leave runtime s') ∧
      CallFailed (p.loaderState runtime) s') := by
  have hmeets : Meets (bindUnderProcessLock answers call) (p.loaderState runtime) _ _ :=
    bindUnderProcessLock_meets h.committed (h.bound runtime)
      fun hmemory => hjoin ⟨call, hcall, hmemory⟩
  simp only [PluginProcess.act, hcall]
  rcases hmeets.outcome with ⟨_, s', hrun, hreturned⟩ | ⟨failure, s', hrun, hfailed⟩
  · exact Or.inl ⟨s', by rw [hrun], hreturned⟩
  · exact Or.inr ⟨failure, s', by rw [hrun], hfailed⟩

/-- What an action keeps. -/
structure ProcessKept (p p' : PluginProcess ι) : Prop where
  coherent : p'.Coherent
  owner : p.owner.handle ≠ none → p'.owner = p.owner

omit [DecidableEq ι] in
theorem ProcessKept.refl (h : p.Coherent) : ProcessKept p p := ⟨h, fun _ => rfl⟩

theorem CallReturned.leave (h : p.Coherent) {runtime : ι} {call : PluginCall} {s' : LoaderState}
    (hreturned : CallReturned call (p.loaderState runtime) s') :
    ProcessKept p (p.leave runtime s') where
  coherent := by
    refine ⟨hreturned.committed, fun other => ?_⟩
    by_cases heq : other = runtime
    · simp only [PluginProcess.leave, heq, Function.update_self]
      exact hreturned.bound
    · simp only [PluginProcess.leave, Function.update_of_ne heq]
      intro hauthenticated
      have hbound := h.bound other hauthenticated
      rw [hreturned.owner hbound.1]
      exact hbound
  owner := hreturned.owner

theorem CallFailed.leave_runtimes {runtime : ι} {s' : LoaderState}
    (hfailed : CallFailed (p.loaderState runtime) s') :
    (p.leave runtime s').runtimes = p.runtimes := by
  simp only [PluginProcess.leave, hfailed.runtime, PluginProcess.loaderState,
    Function.update_eq_self]

theorem CallFailed.leave (h : p.Coherent) {runtime : ι} {s' : LoaderState}
    (hfailed : CallFailed (p.loaderState runtime) s') : ProcessKept p (p.leave runtime s') where
  coherent := by
    refine ⟨hfailed.committed, fun other => ?_⟩
    have howner : (p.leave runtime s').owner = p.owner := hfailed.owner
    rw [hfailed.leave_runtimes, howner]
    exact h.bound other
  owner := fun _ => hfailed.owner

/-- The step lemma. -/
theorem PluginProcess.Coherent.step (h : p.Coherent) (hjoin : ¬ p.JoinFails action) :
    ProcessKept p (p.step action) := by
  cases action with
  | enter runtime outOfMemory bundle cudaDeviceIndex =>
    obtain ⟨howner, hregistry, hmappings, hruntimes⟩ :=
      p.act_enter runtime outOfMemory bundle cudaDeviceIndex
    refine ⟨⟨?_, fun other => ?_⟩, fun _ => howner⟩
    · rw [howner, hregistry, hmappings]
      exact h.committed
    · rw [howner, hruntimes]
      exact h.bound other
  | finish runtime answers =>
    rcases hcall : p.calls runtime with _ | call
    · simp only [PluginProcess.step, PluginProcess.act, hcall]
      exact .refl h
    · rcases h.finish hcall hjoin with ⟨s', hact, hreturned⟩ | ⟨failure, s', hact, hfailed⟩
      · rw [PluginProcess.step, hact]
        exact hreturned.leave h
      · rw [PluginProcess.step, hact]
        exact hfailed.leave h

/-- A call that fails leaves the runtimes and the owner as they were. -/
theorem PluginProcess.Coherent.failed (h : p.Coherent) (hjoin : ¬ p.JoinFails action)
    {failure : PluginFailure} (hanswer : (p.act action).1 = some (.error failure)) :
    (p.step action).runtimes = p.runtimes ∧ (p.step action).owner = p.owner := by
  cases action with
  | enter runtime outOfMemory bundle cudaDeviceIndex =>
    have hkept := p.act_enter runtime outOfMemory bundle cudaDeviceIndex
    exact ⟨hkept.2.2.2, hkept.1⟩
  | finish runtime answers =>
    rcases hcall : p.calls runtime with _ | call
    · rw [PluginProcess.act, hcall] at hanswer
      cases hanswer
    · rcases h.finish hcall hjoin with ⟨s', hact, hreturned⟩ | ⟨failure', s', hact, hfailed⟩
      · rw [hact] at hanswer
        cases hanswer
      · rw [PluginProcess.step, hact]
        exact ⟨hfailed.leave_runtimes, hfailed.owner⟩

/-- Once a plugin is owned, a call for a plugin with another digest fails. -/
theorem PluginProcess.Coherent.refused (h : p.Coherent) {runtime : ι} {answers : LoaderAnswers}
    {call : PluginCall} (hcall : p.calls runtime = some call) (howned : p.owner.handle ≠ none)
    (hsha : call.artifact.sha256 ≠ p.owner.sha256) :
    ∃ failure, (p.act (.finish runtime answers)).1 = some (.error failure) := by
  have hjoin : ¬ p.JoinFails (.finish runtime answers) := by
    rintro ⟨call', hcall', -, -, hmatching, -⟩
    rw [hcall] at hcall'
    cases hcall'
    exact hsha (requireMatchingProcessOwner_ok hmatching).2.symm
  rcases h.finish hcall hjoin with ⟨s', hact, hreturned⟩ | ⟨failure, s', hact, -⟩
  · have howner : s'.owner = p.owner := hreturned.owner howned
    exact absurd (howner ▸ hreturned.sha256).symm hsha
  · exact ⟨failure, by rw [hact]⟩

/-- A join that runs out of memory fails, and the runtime that was not authenticated is. -/
theorem PluginProcess.JoinFails.not_kept (hjoin : p.JoinFails action) :
    (∃ failure, (p.act action).1 = some (.error failure)) ∧
      (p.step action).runtimes ≠ p.runtimes := by
  cases action with
  | enter runtime outOfMemory bundle cudaDeviceIndex => exact hjoin.elim
  | finish runtime answers =>
    obtain ⟨call, hcall, hmemory⟩ := hjoin
    have hmeets := bindUnderProcessLock_of_joinRunsOutOfMemory
      (s := p.loaderState runtime) hmemory
    simp only [PluginProcess.step, PluginProcess.act, hcall]
    rcases hmeets.outcome with ⟨_, _, _, hfalse⟩ | ⟨failure, s', hrun, -, hruntime⟩
    · exact hfalse.elim
    · rw [hrun]
      refine ⟨⟨failure, rfl⟩, fun heq => ?_⟩
      have hkept := congrArg RuntimePluginState.authenticated (congrFun heq runtime)
      rw [PluginProcess.leave_runtimes_self, hruntime, hmemory.1] at hkept
      cases hkept

/-! ### The runs -/

/-- The process does what is expected in exactly the runs in which no call that joins the owner
runs out of memory while it copies the owner's digest. -/
theorem ownershipHolds_iff (registry : PluginRegistry) (hnone : registry.HoldsNone)
    (actions : List (PluginAction ι)) :
    OwnershipHolds (.initial registry) actions ↔
      StepsMeet PluginProcess.step (fun p action => ¬ p.JoinFails action)
        (.initial registry) actions := by
  constructor
  · refine fun hholds => stepsMeet_iff_getElem.mpr fun i hi hjoin => ?_
    obtain ⟨⟨failure, hanswer⟩, hchanged⟩ := hjoin.not_kept
    have hkept := (hholds.failed i hi failure hanswer).1
    rw [run_take_succ hi] at hkept
    exact hchanged hkept
  · intro hmeet
    have hcoherent : ∀ i, (run PluginProcess.step (.initial registry) (actions.take i) :
        PluginProcess ι).Coherent := fun i =>
      run_induction_of_stepsMeet (fun _ _ h hjoin => (h.step hjoin).coherent)
        (PluginProcess.initial_coherent hnone) _ (stepsMeet_take hmeet i)
    have hsteps := stepsMeet_iff_getElem.mp hmeet
    refine ⟨hcoherent, fun i j hij howned => ?_, fun i hi failure hanswer => ?_, ?_⟩
    · have hrelated := run_take_related (R := fun p p' : PluginProcess ι =>
          p.owner.handle ≠ none → p'.owner = p.owner) (fun _ _ => rfl)
        (fun hst htu hs => (htu (by rw [hst hs]; exact hs)).trans (hst hs))
        (fun _ _ h hjoin => (PluginProcess.Coherent.step h hjoin).coherent)
        (fun _ _ h hjoin => (PluginProcess.Coherent.step h hjoin).owner)
        (PluginProcess.initial_coherent hnone) hmeet hij
      exact hrelated howned
    · rw [run_take_succ hi]
      exact (hcoherent i).failed (hsteps i hi) hanswer
    · intro i hi runtime answers call haction hcall howned hsha
      rw [haction]
      exact (hcoherent i).refused hcall howned hsha

/-- A host, and a bundle that was built for it. -/
def exampleFingerprint : Manifest.RuntimeFingerprint where
  osName := "linux"
  osVersion := "ubuntu-24.04"
  architecture := "aarch64"
  endianness := .little
  cudaVersion := "13.0"
  cublas := ⟨130000, ⟨"libcublas.so.13", 100, "c1"⟩, ⟨"libcublasLt.so.13", 200, "c2"⟩⟩
  tensorrtVersion := "10.13.0.0"
  driverVersion := "580.0"
  gpuName := "NVIDIA Thor"
  gpuComputeCapability := "11.0"
  pluginAbiVersion := 1

/-- The digest of the plugin. -/
def exampleDigest : String := "a5a5a5a5a5a5a5a5a5a5a5a5a5a5a5a5a5a5a5a5a5a5a5a5a5a5a5a5a5a5a5a5"

def exampleBundle : PluginBundle where
  artifacts := [⟨.engine, "e0", 3⟩, ⟨.plugin, exampleDigest, 4⟩]
  pluginAbiVersion := 1
  runtime := exampleFingerprint
  samplingPluginName := "MagpieLocalARSampling"

/-- The plugin of this source on that host. -/
def exampleAnswers (outOfMemory : OutOfMemory) : LoaderAnswers where
  outOfMemory := outOfMemory
  dlopen := some 7
  dlopenError := none
  dlsym := true
  dlsymError := none
  getApi := getPluginApi
  collectCublasRuntimeIdentity := .ok exampleFingerprint.cublas
  collectRuntimeFingerprint := fun _ _ _ => .ok exampleFingerprint
  registrar := ⟨true, fun _ => .accepted⟩

/-- Two runtimes load the bundle one after the other. -/
def exampleActions (outOfMemory : OutOfMemory) : List (PluginAction ℕ) :=
  [ .enter 0 (fun _ => false) exampleBundle 0, .finish 0 (exampleAnswers fun _ => false),
    .enter 1 (fun _ => false) exampleBundle 0, .finish 1 (exampleAnswers outOfMemory)]

theorem ownershipHolds_iff_two_runtimes :
    OwnershipHolds (.initial fun _ => none) (exampleActions fun _ => false) ∧
      (run PluginProcess.step (.initial fun _ => none)
        (exampleActions fun _ => false)).runtimes 1 = ⟨true, exampleDigest, 1⟩ := by
  refine ⟨(ownershipHolds_iff (fun _ => none) (by rintro _ _ ⟨⟩) _).mpr
    (stepsMeet_of_forall_mem fun p action hmem => ?_), by rfl⟩
  simp only [exampleActions, List.mem_cons, List.not_mem_nil, or_false] at hmem
  rcases hmem with rfl | rfl | rfl | rfl
  · exact id
  · rintro ⟨_, _, _, _, _, ⟨⟩⟩
  · exact id
  · rintro ⟨_, _, _, _, _, ⟨⟩⟩

/-- The second runtime runs out of memory when it copies the digest: it fails, and reports itself
authenticated for an empty digest. -/
theorem not_ownershipHolds_joined_out_of_memory :
    ¬ OwnershipHolds (.initial fun _ => none)
      (exampleActions fun allocation => allocation = .joinedRuntimeSha256) := by
  intro hholds
  have hbound := ((hholds.coherent 4).bound 1 (by rfl)).2.1
  revert hbound
  decide +kernel

end MagpieTts.Runtime
