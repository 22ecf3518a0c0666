import MagpieTts.Library.BlockExecution
import MagpieTts.Runtime.AttentionPrior

/-!
# The device alignment controller

`alignment_controller_kernel` of `alignment_kernel.cu`: one block of 256 threads. Thread zero moves
the attended position; behind a barrier all threads fill the prior with epsilon, and behind another
one each thread raises its own position.

## Main definitions

* `AlignmentMemory`: the device memory the kernel reads and writes.
* `controllerThread`: what thread zero does before the first barrier.
* `AlignmentKernelStep`: the memories a launch can leave, over all orders of the stores.
-/

namespace MagpieTts.Runtime

open MagpieTts.Library

variable {α : Type*} [LinearOrder α]

def kMaximumTextTokens : ℕ := 512

def kThreads : ℕ := 256

/-- The buffers that the launch passes to the kernel, the scores excepted. -/
structure AlignmentMemory where
  counters : ℕ → ℕ
  lastAttended : ℕ
  nextPrior : ℕ → PriorValue
  attendedTokenIndex : ℕ
  unfinishedText : Bool
  invalidState : ℕ

/-- The shared variables of the block. -/
structure AlignmentShared where
  attended : ℕ
  maximumSinkPosition : ℤ
  invalid : Bool
  deriving DecidableEq

/-- The contracts that thread zero rejects. -/
def rejectsContract (contract : AlignmentKernelContract) : Bool :=
  contract.textLength = 0 || kMaximumTextTokens < contract.textLength ||
    contract.textLength ≤ contract.ignoredTerminalTokens ||
    contract.lookahead = 0 || contract.sinkThreshold = 0

/-- The search of the window: the attended position, the best score and whether a score of the
window is not finite. -/
def searchWindow (scores : ℕ → Score α) (searchStart windowEnd : ℕ) : ℕ × Score α × Bool :=
  (List.range' (searchStart + 1) (windowEnd - (searchStart + 1))).foldl
    (fun (attended, best, invalid) index =>
      let candidate := scores index
      if ¬ candidate.isfinite then (attended, best, true)
      else if candidate.gt best then (index, candidate, invalid)
      else (attended, best, invalid))
    (searchStart, scores searchStart, !(scores searchStart).isfinite)

/-- The attended position, the last one of the text when the window is empty, and whether a score of
the window is not finite. -/
def attendWindow (contract : AlignmentKernelContract) (scores : ℕ → Score α)
    (searchStart windowEnd : ℕ) : ℕ × Bool :=
  if searchStart < windowEnd then
    let (attended, _, invalid) := searchWindow scores searchStart windowEnd
    (attended, invalid)
  else
    (contract.textLength - 1, false)

/-- The scan of the counters for the last sink, or `-1`. -/
def scanSinks (contract : AlignmentKernelContract) (counters : ℕ → ℕ) : ℤ :=
  (List.range contract.textLength).foldl
    (fun maximum index =>
      if contract.sinkThreshold ≤ counters index then (index : ℤ) else maximum)
    (-1)

/-- What thread zero does before the first barrier. -/
def controllerThread (contract : AlignmentKernelContract) (scores : ℕ → Score α)
    (memory : AlignmentMemory) : AlignmentShared × AlignmentMemory :=
  if rejectsContract contract then
    ({ attended := 0, maximumSinkPosition := -1, invalid := true },
      { memory with invalidState := 1 })
  else
    let boundedLast := min memory.lastAttended (contract.textLength - 1)
    let overAttended := contract.sinkThreshold ≤ memory.counters boundedLast
    let overflows := overAttended ∧ memory.lastAttended = maximumUint32
    let searchStart :=
      min (if overAttended ∧ ¬ overflows then memory.lastAttended + 1 else memory.lastAttended)
        contract.textLength
    let contentEnd := contract.textLength - contract.ignoredTerminalTokens
    let windowEnd := min (min (searchStart + contract.lookahead) maximumUint32) contentEnd
    let (attended, windowInvalid) := attendWindow contract scores searchStart windowEnd
    -- Corruption outside the search window is rejected as well.
    let rowInvalid := (List.range contract.textLength).any fun index => !(scores index).isfinite
    let exhausted : Bool := memory.counters attended = maximumUint32
    let counters :=
      if exhausted then memory.counters
      else Function.update memory.counters attended (memory.counters attended + 1)
    let invalid := decide overflows || windowInvalid || rowInvalid || exhausted
    ({ attended
       maximumSinkPosition := scanSinks contract counters
       invalid },
     { memory with
       counters
       lastAttended := attended
       attendedTokenIndex := attended
       unfinishedText := attended < contentEnd
       invalidState := if invalid then 1 else 0 })

/-- The stores of a thread between the two barriers. -/
def epsilonStores (contract : AlignmentKernelContract) (thread : ℕ) : List (Store PriorValue) :=
  (stridedIndices thread kThreads (contract.textLength * 2)).map fun index => ⟨index, .epsilon⟩

/-- The history position of the kernel. -/
def kernelHistory (contract : AlignmentKernelContract) (attended : ℕ) : ℕ :=
  let historyFloor := min 1 (contract.textLength - 1)
  max (if attended = 0 then 0 else attended - 1) historyFloor

/-- Some offset of the lookahead loop reaches the index. -/
def reachedByLookahead (contract : AlignmentKernelContract) (attended index : ℕ) : Bool :=
  (List.range' 1 contract.lookahead).any fun offset =>
    index = min (attended + offset) (contract.textLength - 1)

/-- Whether a thread finds its index around the attended position. The result is `none` when its
lookahead loop does not end: a thread whose index no offset reaches leaves the loop at
`offset > contract.lookahead` only, which no `std::uint32_t` satisfies for the largest lookahead. -/
def findsIndex (contract : AlignmentKernelContract) (attended index : ℕ) : Option Bool :=
  if contract.textLength ≤ contract.shortTextNoPriorMaxTokens then some true
  else if index = kernelHistory contract attended ∨ index = attended then some true
  else if reachedByLookahead contract attended index then some true
  else if contract.lookahead = maximumUint32 then none
  else some false

/-- The stores of a thread behind the second barrier. Each thread looks at the one index that is its
own number. -/
def oneStores (contract : AlignmentKernelContract) (shared : AlignmentShared) (thread : ℕ) :
    Option (List (Store PriorValue)) :=
  if thread < contract.textLength then
    (findsIndex contract shared.attended thread).map fun (one : Bool) =>
      if one ∧ (shared.maximumSinkPosition < 0 ∨ shared.maximumSinkPosition < thread) then
        [⟨thread, .one⟩]
      else
        []
  else
    some []

/-- The memories that one launch of the kernel can leave. A launch with a thread that does not
leave its loop has none. -/
def AlignmentKernelStep (contract : AlignmentKernelContract) (scores : ℕ → Score α)
    (memory memory' : AlignmentMemory) : Prop :=
  let (shared, written) := controllerThread contract scores memory
  if shared.invalid then
    memory' = written
  else
    ∃ (stores : ℕ → List (Store PriorValue)) (filled raised : ℕ → PriorValue),
      (∀ thread < kThreads, oneStores contract shared thread = some (stores thread)) ∧
      PhaseOutcome ((List.range kThreads).map (epsilonStores contract)) written.nextPrior filled ∧
      PhaseOutcome ((List.range kThreads).map stores) filled raised ∧
      memory' = { written with nextPrior := raised }

/-! ### Thread zero against the abstract controller -/

variable {contract : AlignmentKernelContract} {memory memory' : AlignmentMemory}

theorem rejectsContract_eq_false_iff :
    rejectsContract contract = false ↔
      0 < contract.textLength ∧ contract.textLength ≤ 512 ∧
        contract.ignoredTerminalTokens < contract.textLength ∧
        0 < contract.lookahead ∧ 0 < contract.sinkThreshold := by
  simp only [rejectsContract, Bool.or_eq_false_iff, decide_eq_false_iff_not, Nat.pos_iff_ne_zero,
    Nat.not_le, and_assoc]
  rw [kMaximumTextTokens, Nat.not_lt]

/-- The abstract state of the controller's buffers. -/
def AlignmentMemory.state (memory : AlignmentMemory) : AttentionPrior.State where
  lastAttended := memory.lastAttended
  counters := memory.counters

omit [LinearOrder α] in
theorem scanSinks_lt_iff (counters : ℕ → ℕ) (p : ℕ) :
    scanSinks contract counters < p ↔
      ∀ sink, AttentionPrior.Sink contract counters sink → sink < p := by
  rw [scanSinks, foldl_last_lt_iff]
  simp only [AttentionPrior.Sink, and_imp]

/-- On finite scores the search finds the first maximum of the window and nothing invalid. -/
theorem searchWindow_eq {scores : ℕ → Score α} {value : ℕ → α} {start stop : ℕ}
    (hlt : start < stop) (h : ∀ p < stop, scores p = .finite (value p)) (otherwise : ℕ) :
    (searchWindow scores start stop).1 = firstMaximum value start stop otherwise ∧
      (searchWindow scores start stop).2.2 = false := by
  have hfold : ∀ (l : List ℕ) (best : ℕ × Score α), (∀ p ∈ l, scores p = .finite (value p)) →
      l.foldl (fun (attended, best, invalid) index =>
        let candidate := scores index
        if ¬ candidate.isfinite then (attended, best, true)
        else if candidate.gt best then (index, candidate, invalid)
        else (attended, best, invalid)) (best.1, best.2, false) =
      ((l.foldl (fun best p => if (scores p).gt best.2 then (p, scores p) else best) best).1,
       (l.foldl (fun best p => if (scores p).gt best.2 then (p, scores p) else best) best).2,
       false) := by
    intro l
    induction l with
    | nil => intro best _; rfl
    | cons p l ih =>
      intro best hl
      have hp : (scores p).isfinite = true := by rw [hl p List.mem_cons_self]; rfl
      have hl' : ∀ q ∈ l, scores q = .finite (value q) :=
        fun q hq => hl q (List.mem_cons_of_mem p hq)
      simp only [List.foldl_cons, hp, not_true_eq_false, if_false]
      by_cases hgt : (scores p).gt best.2 = true
      · rw [if_pos hgt, if_pos hgt]
        exact ih (p, scores p) hl'
      · rw [if_neg hgt, if_neg hgt]
        exact ih best hl'
  have hrange : ∀ p ∈ List.range' (start + 1) (stop - (start + 1)),
      scores p = .finite (value p) := by
    intro p hp
    rw [List.mem_range'_1] at hp
    exact h p (by omega)
  have hstart : (scores start).isfinite = true := by rw [h start hlt]; rfl
  rw [searchWindow, hstart, Bool.not_true, hfold _ (start, scores start) hrange]
  exact ⟨foldl_search_range_eq _ hlt h otherwise, rfl⟩

theorem attendWindow_eq {state : AttentionPrior.State} {start stop : ℕ}
    (hstart : start = AttentionPrior.windowStart contract state)
    (hstop : stop = min (start + contract.lookahead) (AttentionPrior.contentEnd contract))
    (row : ScoreRow α) :
    attendWindow contract (row.buffer contract.textLength) start stop =
      (AttentionPrior.attended contract state row, false) := by
  have hcontent := AttentionPrior.contentEnd_le contract
  rw [AttentionPrior.attended, ← hstart, ← hstop, attendWindow]
  split
  · rename_i hlt
    obtain ⟨hposition, hvalid⟩ := searchWindow_eq hlt
      (fun p hp => row.buffer_of_lt (show p < contract.textLength by omega))
      (contract.textLength - 1)
    exact Prod.ext hposition hvalid
  · rename_i hge
    rw [firstMaximum_of_le (by omega)]

/-- The specification of thread zero on finite scores. -/
theorem controllerThread_eq (hcontract : rejectsContract contract = false)
    (hlast : memory.lastAttended < contract.textLength) (row : ScoreRow α) :
    controllerThread contract (row.buffer contract.textLength) memory =
      let next := AttentionPrior.advance contract memory.state row
      let exhausted : Bool := AttentionPrior.Exhausted contract memory.state row
      ({ attended := next.lastAttended
         maximumSinkPosition := scanSinks contract next.counters
         invalid := exhausted },
       { memory with
         counters := next.counters
         lastAttended := next.lastAttended
         attendedTokenIndex := next.lastAttended
         unfinishedText := next.lastAttended < AttentionPrior.contentEnd contract
         invalidState := if exhausted then 1 else 0 }) := by
  have hle : contract.textLength ≤ 512 := (rejectsContract_eq_false_iff.mp hcontract).2.1
  have hbounded : min memory.lastAttended (contract.textLength - 1) = memory.lastAttended := by
    omega
  have hoverflow : ¬ memory.lastAttended = maximumUint32 := by
    rw [maximumUint32]
    omega
  have hstart : min (if contract.sinkThreshold ≤ memory.counters memory.lastAttended then
      memory.lastAttended + 1 else memory.lastAttended) contract.textLength =
      AttentionPrior.windowStart contract memory.state := by
    change _ = if contract.sinkThreshold ≤ memory.counters memory.lastAttended then _ else _
    split <;> simp only [AlignmentMemory.state] <;> omega
  have hcontent := AttentionPrior.contentEnd_le contract
  have hend : min (min (AttentionPrior.windowStart contract memory.state + contract.lookahead)
      maximumUint32) (contract.textLength - contract.ignoredTerminalTokens) =
      min (AttentionPrior.windowStart contract memory.state + contract.lookahead)
        (AttentionPrior.contentEnd contract) := by
    change min (min _ maximumUint32) (AttentionPrior.contentEnd contract) = _
    rw [maximumUint32]
    omega
  have hrow : ((List.range contract.textLength).any
      fun index => !(row.buffer contract.textLength index).isfinite) = false := by
    simp only [List.any_eq_false, List.mem_range]
    intro p hp
    rw [row.buffer_of_lt hp]
    simp
  rw [controllerThread, hcontract]
  simp only [Bool.false_eq_true, if_false, hbounded, hoverflow, and_false, not_false_eq_true,
    and_true, hstart, hend, attendWindow_eq rfl rfl row, hrow, decide_false, Bool.false_or,
      decide_eq_true_eq]
  rfl

/-! ### The stores of the block -/

theorem kernelHistory_eq (attended : ℕ) :
    kernelHistory contract attended = max (min 1 (contract.textLength - 1)) (attended - 1) := by
  rw [kernelHistory]
  split <;> omega

theorem reachedByLookahead_iff {attended index : ℕ} :
    reachedByLookahead contract attended index = true ↔
      ∃ offset, 1 ≤ offset ∧ offset ≤ contract.lookahead ∧
        index = min (attended + offset) (contract.textLength - 1) := by
  simp only [reachedByLookahead, List.any_eq_true, List.mem_range'_1, decide_eq_true_eq]
  constructor
  · rintro ⟨offset, hoffset, heq⟩
    exact ⟨offset, by omega, by omega, heq⟩
  · rintro ⟨offset, hone, hle, heq⟩
    exact ⟨offset, by omega, heq⟩

theorem findsIndex_eq_true_iff {attended index : ℕ} {one : Bool}
    (h : findsIndex contract attended index = some one) :
    one = true ↔ AttentionPrior.Near contract attended index := by
  simp only [findsIndex, kernelHistory_eq] at h
  rw [AttentionPrior.Near, ← reachedByLookahead_iff]
  split_ifs at h with hshort hnear hreached
  all_goals
    simp only [Option.some.injEq] at h
    subst h
  · simp [hshort]
  · simp only [true_iff]
    tauto
  · simp [hreached]
  · simp only [Bool.false_eq_true, false_iff]
    tauto

theorem findsIndex_isSome (h : LookaheadEnds contract) (attended index : ℕ) :
    ∃ one, findsIndex contract attended index = some one := by
  rw [findsIndex]
  split_ifs with hshort _ _ hlookahead
  · exact ⟨_, rfl⟩
  · exact ⟨_, rfl⟩
  · exact ⟨_, rfl⟩
  · exact absurd hlookahead (h.resolve_left hshort)
  · exact ⟨_, rfl⟩

/-- What a thread stores behind the second barrier: a one at its own number, if that is raised. -/
theorem mem_oneStores_iff {shared : AlignmentShared} {counters : ℕ → ℕ} {thread : ℕ}
    {stores : List (Store PriorValue)}
    (hsinks : shared.maximumSinkPosition = scanSinks contract counters)
    (h : oneStores contract shared thread = some stores) (s : Store PriorValue) :
    s ∈ stores ↔ s = ⟨thread, .one⟩ ∧
      AttentionPrior.Raised contract counters shared.attended thread := by
  rw [oneStores] at h
  rw [AttentionPrior.Raised, ← scanSinks_lt_iff, ← hsinks]
  split_ifs at h with hthread
  · obtain ⟨one, hone, hstores⟩ := Option.map_eq_some_iff.mp h
    rw [← findsIndex_eq_true_iff hone]
    by_cases hraised : one = true ∧ (shared.maximumSinkPosition < 0 ∨
        shared.maximumSinkPosition < thread)
    · rw [if_pos hraised] at hstores
      have hlt : shared.maximumSinkPosition < thread := by omega
      simp [← hstores, hthread, hraised.1, hlt]
    · rw [if_neg hraised] at hstores
      simp only [← hstores, List.not_mem_nil, false_iff, not_and]
      intro _ _ hone hlt
      exact hraised ⟨hone, Or.inr hlt⟩
  · simp only [Option.some.injEq] at h
    simp [← h, hthread]

/-- The memory behind both phases: epsilon in both rows, and one where a raised position has a
thread of its number. -/
theorem prior_after_phases {shared : AlignmentShared} {counters : ℕ → ℕ}
    {stores : ℕ → List (Store PriorValue)} {prior filled raised : ℕ → PriorValue}
    (hsinks : shared.maximumSinkPosition = scanSinks contract counters)
    (hstores : ∀ thread < kThreads, oneStores contract shared thread = some (stores thread))
    (hfilled : PhaseOutcome ((List.range kThreads).map (epsilonStores contract)) prior filled)
    (hraised : PhaseOutcome ((List.range kThreads).map stores) filled raised) {p : ℕ}
    (hp : p < contract.textLength * 2) :
    raised p = .one ↔
      p < kThreads ∧ AttentionPrior.Raised contract counters shared.attended p := by
  have hepsilon : filled p = .epsilon := by
    have hvalue : ∀ t ∈ (List.range kThreads).map (epsilonStores contract), ∀ s ∈ t,
        s.value = (fun _ => PriorValue.epsilon) s.address := by
      intro t ht s hs
      obtain ⟨thread, -, rfl⟩ := List.mem_map.mp ht
      obtain ⟨index, -, rfl⟩ := List.mem_map.mp hs
      rfl
    rw [hfilled.apply_eq (f := fun _ => .epsilon) hvalue, if_pos]
    obtain ⟨thread, hthread, hindex⟩ :=
      (exists_mem_stridedIndices_iff (show 0 < kThreads by decide)).mpr hp
    exact ⟨_, List.mem_map.mpr ⟨thread, List.mem_range.mpr hthread, rfl⟩, ⟨p, .epsilon⟩,
      List.mem_map.mpr ⟨p, hindex, rfl⟩, rfl⟩
  have hvalue : ∀ t ∈ (List.range kThreads).map stores, ∀ s ∈ t,
      s.value = (fun _ => PriorValue.one) s.address := by
    intro t ht s hs
    obtain ⟨thread, hthread, rfl⟩ := List.mem_map.mp ht
    rw [((mem_oneStores_iff hsinks (hstores thread (List.mem_range.mp hthread)) s).mp hs).1]
  rw [hraised.apply_eq (f := fun _ => .one) hvalue, hepsilon]
  have hhit : (∃ t ∈ (List.range kThreads).map stores, ∃ s ∈ t, s.address = p) ↔
      p < kThreads ∧ AttentionPrior.Raised contract counters shared.attended p := by
    constructor
    · rintro ⟨t, ht, s, hs, rfl⟩
      obtain ⟨thread, hthread, rfl⟩ := List.mem_map.mp ht
      rw [List.mem_range] at hthread
      obtain ⟨rfl, h⟩ := (mem_oneStores_iff hsinks (hstores thread hthread) s).mp hs
      exact ⟨hthread, h⟩
    · rintro ⟨hthread, h⟩
      exact ⟨_, List.mem_map.mpr ⟨p, List.mem_range.mpr hthread, rfl⟩, ⟨p, .one⟩,
        (mem_oneStores_iff hsinks (hstores p hthread) _).mpr ⟨rfl, h⟩, rfl⟩
  rw [← hhit]
  split_ifs with h
  · simp only [h]
  · simp only [h]

/-- The launch that runs the threads one after the other is one of the possible ones. -/
theorem exists_alignmentKernelStep (h : LookaheadEnds contract) (scores : ℕ → Score α)
    (memory : AlignmentMemory) : ∃ memory', AlignmentKernelStep contract scores memory memory' := by
  simp only [AlignmentKernelStep]
  obtain ⟨shared, written⟩ := controllerThread contract scores memory
  dsimp only
  by_cases hinvalid : shared.invalid = true
  · exact ⟨written, by rw [if_pos hinvalid]⟩
  · have hstores : ∀ thread, ∃ stores, oneStores contract shared thread = some stores := by
      intro thread
      obtain ⟨one, hone⟩ := findsIndex_isSome h shared.attended thread
      rw [oneStores, hone]
      split <;> exact ⟨_, rfl⟩
    choose stores hstores using hstores
    let filled := storeAll written.nextPrior
      ((List.range kThreads).map (epsilonStores contract)).flatten
    refine ⟨{ written with
      nextPrior := storeAll filled ((List.range kThreads).map stores).flatten }, ?_⟩
    rw [if_neg hinvalid]
    exact ⟨stores, _, _, fun thread _ => hstores thread, phaseOutcome_sequential _ _,
      phaseOutcome_sequential _ _, rfl⟩

/-- The specification of a launch on finite scores. -/
structure LaunchSpec (contract : AlignmentKernelContract) (state : AttentionPrior.State)
    (row : ScoreRow α) (memory' : AlignmentMemory) : Prop where
  state_eq : memory'.state = AttentionPrior.advance contract state row
  attended_eq : memory'.attendedTokenIndex = AttentionPrior.attended contract state row
  unfinished_eq : memory'.unfinishedText =
    decide (AttentionPrior.attended contract state row < AttentionPrior.contentEnd contract)
  invalid_eq : memory'.invalidState =
    if AttentionPrior.Exhausted contract state row then 1 else 0
  prior_iff : ¬ AttentionPrior.Exhausted contract state row → ∀ p < contract.textLength * 2,
    (memory'.nextPrior p = .one ↔ p < kThreads ∧
      AttentionPrior.Raised contract (AttentionPrior.advance contract state row).counters
        (AttentionPrior.attended contract state row) p)

theorem launchSpec_of_step (hcontract : rejectsContract contract = false)
    (hlast : memory.lastAttended < contract.textLength) {row : ScoreRow α}
    (h : AlignmentKernelStep contract (row.buffer contract.textLength) memory memory') :
    LaunchSpec contract memory.state row memory' := by
  rw [AlignmentKernelStep, controllerThread_eq hcontract hlast row] at h
  by_cases hexhausted : AttentionPrior.Exhausted contract memory.state row
  · simp only [hexhausted, decide_true, if_true] at h
    subst h
    exact ⟨rfl, rfl, rfl, by rw [if_pos hexhausted], fun hnot => absurd hexhausted hnot⟩
  · simp only [hexhausted, decide_false, Bool.false_eq_true, if_false] at h
    obtain ⟨stores, filled, raised, hstores, hfilled, hraised, rfl⟩ := h
    refine ⟨rfl, rfl, rfl, by rw [if_neg hexhausted], fun _ p hp => ?_⟩
    exact prior_after_phases rfl hstores hfilled hraised hp

end MagpieTts.Runtime
