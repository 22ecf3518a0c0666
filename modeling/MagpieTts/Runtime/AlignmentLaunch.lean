import MagpieTts.Runtime.AlignmentKernel

/-!
# Launches of the alignment controller

`launch_alignment_controller` as a function: the threads of the block run one after the other. The
stores of the block are free of races, so every other order leaves the same memory, and a launch is
this function. It writes its three outputs whatever they held before.

## Main definitions

* `launchAlignmentController`: the launch.

## Main results

* `alignmentKernelStep_iff`: it is the one memory that the kernel can leave.
* `launchAlignmentController_congr`: it depends on the position, the counters and the prior alone.
* `launchAlignmentController_unfinishedText`, `launchAlignmentController_terminal`: the text is
  unfinished until the position leaves its content, and from there on the position does not move.
-/

namespace MagpieTts.Runtime

open MagpieTts.Library

variable {α : Type*} [LinearOrder α] {contract : AlignmentKernelContract}

/-- The prior behind the two barriers, with the threads in turn. -/
def launchPrior (contract : AlignmentKernelContract) (shared : AlignmentShared)
    (prior : ℕ → PriorValue) : ℕ → PriorValue :=
  let filled := storeAll prior ((List.range kThreads).map (epsilonStores contract)).flatten
  storeAll filled
    ((List.range kThreads).map fun thread => (oneStores contract shared thread).getD []).flatten

/-- `launch_alignment_controller`. -/
def launchAlignmentController (contract : AlignmentKernelContract) (scores : ℕ → Score α)
    (memory : AlignmentMemory) : AlignmentMemory :=
  let (shared, written) := controllerThread contract scores memory
  if shared.invalid then written
  else { written with nextPrior := launchPrior contract shared written.nextPrior }

/-! ### The kernel -/

/-- A phase that stores one value everywhere leaves one memory. -/
theorem PhaseOutcome.eq_storeAll {β : Type*} {threads : List (List (Store β))}
    {memory memory' : ℕ → β} {v : β} (hvalue : ∀ t ∈ threads, ∀ s ∈ t, s.value = v)
    (h : PhaseOutcome threads memory memory') : memory' = storeAll memory threads.flatten := by
  funext a
  rw [h.apply_eq (f := fun _ => v) hvalue,
    (phaseOutcome_sequential threads memory).apply_eq (f := fun _ => v) hvalue]

theorem value_of_mem_epsilonStores {stores : List (Store PriorValue)}
    (hstores : stores ∈ (List.range kThreads).map (epsilonStores contract)) :
    ∀ s ∈ stores, s.value = .epsilon := by
  obtain ⟨thread, -, rfl⟩ := List.mem_map.mp hstores
  intro s hs
  obtain ⟨index, -, rfl⟩ := List.mem_map.mp hs
  rfl

theorem value_of_oneStores {shared : AlignmentShared} {thread : ℕ}
    {stores : List (Store PriorValue)} (h : oneStores contract shared thread = some stores) :
    ∀ s ∈ stores, s.value = .one := by
  rw [oneStores] at h
  split_ifs at h
  · obtain ⟨one, -, rfl⟩ := Option.map_eq_some_iff.mp h
    intro s hs
    split_ifs at hs
    · rw [List.mem_singleton.mp hs]
    · cases hs
  · obtain rfl := Option.some.inj h
    exact fun s hs => absurd hs List.not_mem_nil

theorem oneStores_isSome (h : LookaheadEnds contract) (shared : AlignmentShared) (thread : ℕ) :
    ∃ stores, oneStores contract shared thread = some stores := by
  obtain ⟨one, hone⟩ := findsIndex_isSome h shared.attended thread
  rw [oneStores, hone]
  split <;> exact ⟨_, rfl⟩

/-- A launch leaves one memory, whatever the order of its stores. -/
theorem alignmentKernelStep_iff (h : LookaheadEnds contract) (scores : ℕ → Score α)
    (memory memory' : AlignmentMemory) :
    AlignmentKernelStep contract scores memory memory' ↔
      memory' = launchAlignmentController contract scores memory := by
  rw [AlignmentKernelStep, launchAlignmentController]
  obtain ⟨shared, written⟩ := controllerThread contract scores memory
  dsimp only
  split_ifs with hinvalid
  · exact Iff.rfl
  have hall : ∀ thread, oneStores contract shared thread =
      some ((oneStores contract shared thread).getD []) := by
    intro thread
    obtain ⟨stores, hstores⟩ := oneStores_isSome h shared thread
    rw [hstores, Option.getD_some]
  constructor
  · rintro ⟨stores, filled, raised, hstores, hfilled, hraised, rfl⟩
    have hones : (List.range kThreads).map stores =
        (List.range kThreads).map fun thread => (oneStores contract shared thread).getD [] := by
      refine List.map_congr_left fun thread hthread => ?_
      rw [hstores thread (List.mem_range.mp hthread), Option.getD_some]
    rw [PhaseOutcome.eq_storeAll (fun t ht => value_of_mem_epsilonStores ht) hfilled] at hraised
    rw [hones] at hraised
    rw [PhaseOutcome.eq_storeAll (v := .one) ?_ hraised, launchPrior]
    intro t ht
    obtain ⟨thread, -, rfl⟩ := List.mem_map.mp ht
    exact value_of_oneStores (hall thread)
  · rintro rfl
    exact ⟨fun thread => (oneStores contract shared thread).getD [], _, _,
      fun thread _ => hall thread, phaseOutcome_sequential _ _, phaseOutcome_sequential _ _, rfl⟩

/-! ### What a launch depends on -/

/-- The three outputs of a launch are written, whatever they held. -/
theorem launchAlignmentController_congr (hcontract : rejectsContract contract = false)
    {scores : ℕ → Score α} {memory other : AlignmentMemory}
    (hlast : memory.lastAttended = other.lastAttended)
    (hcounters : memory.counters = other.counters)
    (hprior : memory.nextPrior = other.nextPrior) :
    launchAlignmentController contract scores memory =
      launchAlignmentController contract scores other := by
  obtain ⟨counters, lastAttended, nextPrior, attendedTokenIndex, unfinishedText, invalidState⟩ :=
    memory
  obtain ⟨counters', lastAttended', nextPrior', attendedTokenIndex', unfinishedText',
    invalidState'⟩ := other
  obtain rfl : lastAttended = lastAttended' := hlast
  obtain rfl : counters = counters' := hcounters
  obtain rfl : nextPrior = nextPrior' := hprior
  simp only [launchAlignmentController, controllerThread, hcontract, Bool.false_eq_true, if_false]

/-! ### The end of the text -/

/-- The search stays in its window, whatever the scores are. -/
theorem searchWindow_mem (scores : ℕ → Score α) {start stop : ℕ} (hlt : start < stop) :
    start ≤ (searchWindow scores start stop).1 ∧ (searchWindow scores start stop).1 < stop := by
  refine List.foldlRecOn (motive := fun best : ℕ × Score α × Bool => start ≤ best.1 ∧ best.1 < stop)
    _ _ ⟨le_refl start, hlt⟩ ?_
  rintro ⟨attended, best, invalid⟩ hbest index hindex
  rw [List.mem_range'_1] at hindex
  dsimp only
  split_ifs
  · exact ⟨by omega, by omega⟩
  · exact hbest
  · exact hbest

/-- A launch attends to the window that begins at the last position or behind it, and ends in front
of the terminal tokens. -/
theorem launchAlignmentController_attends (hcontract : rejectsContract contract = false)
    (scores : ℕ → Score α) (memory : AlignmentMemory) :
    ∃ searchStart windowEnd, min memory.lastAttended contract.textLength ≤ searchStart ∧
      windowEnd ≤ contract.textLength - contract.ignoredTerminalTokens ∧
      (launchAlignmentController contract scores memory).lastAttended =
        (attendWindow contract scores searchStart windowEnd).1 ∧
      (launchAlignmentController contract scores memory).unfinishedText =
        decide ((attendWindow contract scores searchStart windowEnd).1 <
          contract.textLength - contract.ignoredTerminalTokens) := by
  have hwritten : (launchAlignmentController contract scores memory).lastAttended =
        (controllerThread contract scores memory).2.lastAttended ∧
      (launchAlignmentController contract scores memory).unfinishedText =
        (controllerThread contract scores memory).2.unfinishedText := by
    rw [launchAlignmentController]
    obtain ⟨shared, written⟩ := controllerThread contract scores memory
    dsimp only
    split_ifs <;> exact ⟨rfl, rfl⟩
  have hstart (p : Prop) [Decidable p] : min memory.lastAttended contract.textLength ≤
      min (if p then memory.lastAttended + 1 else memory.lastAttended) contract.textLength := by
    split_ifs <;> omega
  rw [hwritten.1, hwritten.2, controllerThread, hcontract, if_neg Bool.false_ne_true]
  exact ⟨_, _, hstart _, Nat.min_le_right _ _, rfl, rfl⟩

/-- The text is unfinished unless the position is the last one. -/
theorem launchAlignmentController_unfinishedText (hcontract : rejectsContract contract = false)
    (scores : ℕ → Score α) (memory : AlignmentMemory)
    (hfinished : (launchAlignmentController contract scores memory).unfinishedText = false) :
    (launchAlignmentController contract scores memory).lastAttended = contract.textLength - 1 := by
  obtain ⟨searchStart, windowEnd, -, hend, hlast, hunfinished⟩ :=
    launchAlignmentController_attends hcontract scores memory
  rw [hunfinished, decide_eq_false_iff_not, not_lt] at hfinished
  rw [hlast]
  rw [attendWindow] at hfinished ⊢
  split_ifs at hfinished ⊢ with hlt
  · have hmem := (searchWindow_mem scores hlt).2
    exact absurd hfinished (Nat.not_le.mpr (hmem.trans_le hend))
  · rfl

/-- At the last position of the text the window is empty. -/
theorem launchAlignmentController_terminal (hcontract : rejectsContract contract = false)
    (hignored : 0 < contract.ignoredTerminalTokens) (scores : ℕ → Score α)
    {memory : AlignmentMemory} (hlast : memory.lastAttended = contract.textLength - 1) :
    (launchAlignmentController contract scores memory).lastAttended = contract.textLength - 1 ∧
      (launchAlignmentController contract scores memory).unfinishedText = false := by
  obtain ⟨searchStart, windowEnd, hstart, hend, hattended, hunfinished⟩ :=
    launchAlignmentController_attends hcontract scores memory
  have hpositive := (rejectsContract_eq_false_iff.mp hcontract).1
  have hempty : ¬ searchStart < windowEnd := by omega
  rw [attendWindow, if_neg hempty] at hattended hunfinished
  refine ⟨hattended, hunfinished.trans (decide_eq_false ?_)⟩
  omega

end MagpieTts.Runtime
