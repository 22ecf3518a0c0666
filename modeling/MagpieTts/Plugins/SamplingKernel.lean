import Mathlib.Algebra.Field.Rat
import Mathlib.Data.List.GetD
import Mathlib.Order.WithBot
import MagpieTts.Library.TreeReduction
import MagpieTts.Plugins.PhiloxStream

/-!
# The sampling kernel

`sampling_kernel` of `local_ar_plugins.cu` samples one codec token for a row of guided logits. It
masks the tokens that the gates exclude, takes the eightieth largest value as a threshold from a
sorted copy, adds noise to the values at or above it, and selects the best score by a loop in each
thread and a reduction over the block. `_reference_sample` of `local_ar_wrapper.py` states the same
choice on whole tensors.

The guided logits are elements of a linear order, or marked as not finite; `⊥` is the value minus
infinity. Scores are computed exactly.

## Main definitions

* `SamplingInputs`, `SamplingOutputs`: what the kernel reads and writes.
* `candidateValue`, `threshold`, `threadBest`, `samplingKernel`: the kernel.
* `IsTopKChoice`: the token that the kernel is to choose.
* `referenceSample`: the statement of the exporter.

## Main results

* `reductionResult_spec`: what the threads select.
* `samplingKernel_invalid_iff`: the rows that are reported.
* `samplingKernel_sampledToken`: the token of a row.
* `samplingKernel_spec`: all of it, and the agreement with the exporter.
-/

namespace MagpieTts.Plugins

open MagpieTts.Library

def kSamplingThreads : ℕ := 256

def kItemsPerThread : ℕ := 8

def kTopK : ℕ := 80

def kLocalArCodebookSize : ℕ := 2016

def kLocalArAudioEosId : ℕ := 2017

def kLocalArEmbeddingWidth : ℕ := 768

variable {K β : Type*} [Field K] [LinearOrder K]

/-- What the kernel reads: the scalars of the row, the guided logit of each token, `none` where it
is not finite, and the embedding table. -/
structure SamplingInputs (K β : Type*) where
  scalars : SamplingScalars
  guidedLogit : ℕ → Option K
  embeddingWeight : ℕ → β

/-- What the kernel writes. Both rows of the embedding are written. -/
structure SamplingOutputs (β : Type*) where
  sampledToken : ℕ
  nextEmbedding : ℕ → ℕ → β
  updatedRngCounter : ℤ
  invalidRows : Bool

/-! ### The kernel -/

/-- The value of a token behind the gates. -/
def candidateValue (scalars : SamplingScalars) (token : ℕ) (logit : Option K) : WithBot K :=
  let value : WithBot K := logit.elim ⊥ fun finite => (finite : WithBot K)
  let forbiddenSpecial := kLocalArCodebookSize ≤ token ∧ token ≠ kLocalArAudioEosId
  let value :=
    if forbiddenSpecial ∨
        ((scalars.unfinished = true ∨ scalars.forbidEos = true) ∧ token = kLocalArAudioEosId) then ⊥
    else value
  if scalars.finished = true then if token = kLocalArAudioEosId then ((0 : K) : WithBot K) else ⊥
  else value

variable (inputs : SamplingInputs K β) (noise : ℕ → K)

/-- The entry of `values` for a token of the padded block. -/
def itemValue (token : ℕ) : WithBot K :=
  if token < kLocalArVocabularySize then
    candidateValue inputs.scalars token (inputs.guidedLogit token)
  else ⊥

/-- The tokens of the padded block. -/
def blockTokens : List ℕ := List.range (kSamplingThreads * kItemsPerThread)

/-- `BlockSort::SortDescending`, on the blocked arrangement of the items. -/
def sortDescending (values : List (WithBot K)) : List (WithBot K) :=
  values.mergeSort fun a b => decide (b ≤ a)

/-- `threshold`: an item of one thread of the sorted block. -/
def threshold : WithBot K :=
  (sortDescending (blockTokens.map (itemValue inputs))).getD
    ((kTopK - 1) / kItemsPerThread * kItemsPerThread + (kTopK - 1) % kItemsPerThread) ⊥

/-- The threads find a logit that is not finite. -/
def findsNonFinite : Bool :=
  blockTokens.any fun token =>
    decide (token < kLocalArVocabularySize) && (inputs.guidedLogit token).isNone

/-- `finite_candidates`. -/
def finiteCandidates : ℕ :=
  blockTokens.countP fun token =>
    decide (token < kLocalArVocabularySize) && decide (itemValue inputs token ≠ ⊥)

/-- An entry of `reduction_scores` and `reduction_ids`. -/
structure Candidate (K : Type*) where
  score : WithBot K
  id : ℕ

/-- The comparison of two candidates, by score and then by the lower token. -/
def Candidate.Beats (other own : Candidate K) : Prop :=
  own.score < other.score ∨ other.score = own.score ∧ other.id < own.id

instance (other own : Candidate K) : Decidable (other.Beats own) :=
  inferInstanceAs (Decidable (_ ∨ _))

def Candidate.select (own other : Candidate K) : Candidate K :=
  if other.Beats own then other else own

def kTemperature : K := 6 / 10

/-- `values[item] / kTemperature + gumbel`. -/
def tokenScore (token : ℕ) : WithBot K :=
  (itemValue inputs token).map fun value => value / kTemperature + noise token

/-- The loop of a thread over its items. -/
def threadBest (thread : ℕ) : Candidate K :=
  ((List.range kItemsPerThread).map fun item => thread * kItemsPerThread + item).foldl
    (fun best token =>
      if kLocalArVocabularySize ≤ token ∨ itemValue inputs token < threshold inputs then best
      else best.select ⟨tokenScore inputs noise token, token⟩)
    ⟨⊥, kLocalArVocabularySize⟩

/-- The entry of thread zero behind the reduction over the strides `128, 64, …, 1`. -/
def reductionResult : Candidate K :=
  treeReduce Candidate.select 8 (threadBest inputs noise) 0

/-- The rounds of the block leave that entry, whatever the order of the threads in each. -/
theorem eq_reductionResult_of_outcome {entries : ℕ → Candidate K}
    (h : ReductionOutcome Candidate.select 8 (threadBest inputs noise) entries) :
    entries 0 = reductionResult inputs noise := by
  rw [h.eq_treeReduce, reductionResult]

/-- `sampling_kernel`. -/
def samplingKernel : SamplingOutputs β :=
  let result := reductionResult inputs noise
  let outOfRange := decide (kLocalArVocabularySize ≤ result.id ∨ result.score = ⊥)
  let chosenToken := if outOfRange = true then 0 else result.id
  { sampledToken := chosenToken
    nextEmbedding := fun _ width =>
      inputs.embeddingWeight (chosenToken * kLocalArEmbeddingWidth + width)
    updatedRngCounter := updatedCounter inputs.scalars.counterValue
    invalidRows := invalidRow inputs.scalars
      (findsNonFinite inputs || decide (finiteCandidates inputs = 0) || outOfRange) }

/-! ### What the threads select -/

omit [Field K] in
theorem selects_candidate :
    Selects (Candidate.select : Candidate K → Candidate K → Candidate K)
      (fun a b => ¬ b.Beats a) where
  eq_or := fun own other => by
    unfold Candidate.select
    split_ifs with h
    · exact Or.inr rfl
    · exact Or.inl rfl
  left := fun own other => by
    unfold Candidate.select
    split_ifs with h
    · rintro (hlt | ⟨heq, hid⟩)
      · rcases h with h | ⟨h, -⟩
        · exact absurd hlt h.not_gt
        · exact absurd h hlt.ne
      · rcases h with h | ⟨-, h⟩
        · exact absurd heq h.ne
        · exact absurd hid h.not_gt
    · rintro (hlt | ⟨-, hid⟩)
      · exact lt_irrefl _ hlt
      · exact lt_irrefl _ hid
  right := fun own other => by
    unfold Candidate.select
    split_ifs with h
    · rintro (hlt | ⟨-, hid⟩)
      · exact lt_irrefl _ hlt
      · exact lt_irrefl _ hid
    · exact h
  refl := fun a => by
    rintro (hlt | ⟨-, hid⟩)
    · exact lt_irrefl _ hlt
    · exact lt_irrefl _ hid
  trans := fun {a b c} hab hbc => by
    simp only [Candidate.Beats, not_or, not_lt, not_and] at hab hbc ⊢
    refine ⟨hbc.1.trans hab.1, fun heq => ?_⟩
    have hb : b.score = a.score := le_antisymm hab.1 (heq ▸ hbc.1)
    exact (hab.2 hb).trans (hbc.2 (heq.trans hb.symm))

/-- The tokens that the threads score. -/
def Eligible (token : ℕ) : Prop :=
  token < kLocalArVocabularySize ∧ threshold inputs ≤ itemValue inputs token

instance (token : ℕ) : Decidable (Eligible inputs token) := inferInstanceAs (Decidable (_ ∧ _))

/-- The candidate of a token that a thread scores. -/
def candidateOf (token : ℕ) : Option (Candidate K) :=
  if Eligible inputs token then some ⟨tokenScore inputs noise token, token⟩ else none

theorem threadBest_eq (thread : ℕ) :
    threadBest inputs noise thread =
      (((List.range kItemsPerThread).map fun item => thread * kItemsPerThread + item).filterMap
        (candidateOf inputs noise)).foldl Candidate.select ⟨⊥, kLocalArVocabularySize⟩ := by
  rw [threadBest, List.foldl_filterMap]
  congr 1
  funext best token
  by_cases h : Eligible inputs token
  · rw [if_neg (not_or.mpr ⟨not_le.mpr h.1, not_lt.mpr h.2⟩), candidateOf, if_pos h]
  · have hskip : kLocalArVocabularySize ≤ token ∨ itemValue inputs token < threshold inputs := by
      rwa [Eligible, not_and_or, not_lt, not_le] at h
    rw [if_pos hskip, candidateOf, if_neg h]

/-- The block selects an eligible token, if there is one that beats the initial entry, and no
eligible token beats its selection. -/
theorem reductionResult_spec :
    (reductionResult inputs noise = ⟨⊥, kLocalArVocabularySize⟩ ∨
        ∃ token, Eligible inputs token ∧
          reductionResult inputs noise = ⟨tokenScore inputs noise token, token⟩) ∧
      ∀ token, Eligible inputs token →
        ¬ (⟨tokenScore inputs noise token, token⟩ : Candidate K).Beats
          (reductionResult inputs noise) := by
  obtain ⟨⟨thread, hthread, hresult⟩, hbest⟩ :=
    selects_candidate.treeReduce_spec 8 (threadBest inputs noise)
  refine ⟨?_, fun token htoken => ?_⟩
  · rw [reductionResult, hresult, threadBest_eq]
    rcases ((selects_candidate (K := K)).foldl_spec _ ⟨⊥, kLocalArVocabularySize⟩).1 with
      hfirst | hmem
    · exact Or.inl hfirst
    · obtain ⟨token, -, hcandidate⟩ := List.mem_filterMap.mp hmem
      rw [candidateOf] at hcandidate
      split_ifs at hcandidate with heligible
      exact Or.inr ⟨token, heligible, (Option.some.inj hcandidate).symm⟩
  · -- the thread that holds the token
    have hlt := htoken.1
    rw [kLocalArVocabularySize] at hlt
    have howner := hbest (token / 8) (by show token / 8 < 256; omega)
    refine (selects_candidate (K := K)).trans howner ?_
    rw [threadBest_eq]
    refine ((selects_candidate (K := K)).foldl_spec _ _).2.2 _
      (List.mem_filterMap.mpr ⟨token, ?_, ?_⟩)
    · refine List.mem_map.mpr ⟨token % 8, List.mem_range.mpr (Nat.mod_lt _ (by decide)), ?_⟩
      exact Nat.div_add_mod' token 8
    · rw [candidateOf, if_pos htoken]

/-! ### The threshold -/

omit [Field K] in
theorem sortDescending_perm (values : List (WithBot K)) : (sortDescending values).Perm values :=
  List.mergeSort_perm _ _

omit [Field K] in
theorem sortDescending_pairwise (values : List (WithBot K)) :
    (sortDescending values).Pairwise fun a b => b ≤ a := by
  have hsorted := @List.pairwise_mergeSort _ (fun a b : WithBot K => decide (b ≤ a))
    (fun a b c hab hbc => by
      rw [decide_eq_true_iff] at hab hbc ⊢
      exact hbc.trans hab)
    (fun a b => by
      rw [Bool.or_eq_true, decide_eq_true_iff, decide_eq_true_iff]
      exact le_total b a) values
  exact hsorted.imp fun h => decide_eq_true_iff.mp h

omit [Field K] in
/-- Values minus infinity go to the end. -/
theorem sortDescending_append_bot (values : List (WithBot K)) (n : ℕ) :
    sortDescending (values ++ List.replicate n ⊥) =
      sortDescending values ++ List.replicate n ⊥ := by
  refine List.Perm.eq_of_pairwise (fun a b _ _ hab hba => le_antisymm hba hab)
    (sortDescending_pairwise _) ?_ ?_
  · refine List.pairwise_append.mpr ⟨sortDescending_pairwise values, ?_, ?_⟩
    · exact List.pairwise_replicate.mpr (Or.inr le_rfl)
    · intro a _ b hb
      rw [List.eq_of_mem_replicate hb]
      exact bot_le
  · exact (sortDescending_perm _).trans ((sortDescending_perm values).symm.append_right _)

/-- The `k`-th largest value. -/
def kthLargest (k : ℕ) (values : List (WithBot K)) : WithBot K :=
  (sortDescending values).getD (k - 1) ⊥

/-- The values of the vocabulary. -/
def vocabularyValues : List (WithBot K) :=
  (List.range kLocalArVocabularySize).map (itemValue inputs)

/-- The threshold is the eightieth largest value of the vocabulary, the padding notwithstanding. -/
theorem threshold_eq : threshold inputs = kthLargest kTopK (vocabularyValues inputs) := by
  have hblock : blockTokens.map (itemValue inputs) =
      vocabularyValues inputs ++ List.replicate 24 ⊥ := by
    have hsplit : blockTokens = List.range kLocalArVocabularySize ++
        (List.range 24).map (kLocalArVocabularySize + ·) :=
      @List.range_add kLocalArVocabularySize 24
    rw [hsplit, List.map_append, vocabularyValues, List.map_map, List.append_cancel_left_eq]
    refine List.eq_replicate_iff.mpr ⟨by simp, fun value hvalue => ?_⟩
    obtain ⟨i, -, rfl⟩ := List.mem_map.mp hvalue
    exact if_neg (Nat.not_lt.mpr (Nat.le_add_right _ _))
  have hlength : 79 < (sortDescending (vocabularyValues inputs)).length := by
    rw [(sortDescending_perm _).length_eq, vocabularyValues, List.length_map, List.length_range]
    decide
  rw [threshold, hblock, sortDescending_append_bot, kthLargest]
  exact List.getD_append _ _ _ _ hlength

theorem exists_itemValue_eq_threshold (h : threshold inputs ≠ ⊥) :
    ∃ token, itemValue inputs token = threshold inputs := by
  rw [threshold, List.getD_eq_getElem?_getD] at h ⊢
  cases hentry : (sortDescending (blockTokens.map (itemValue inputs)))[
      (kTopK - 1) / kItemsPerThread * kItemsPerThread + (kTopK - 1) % kItemsPerThread]? with
  | none =>
    rw [hentry] at h
    exact absurd rfl h
  | some value =>
    have hmem := (sortDescending_perm _).mem_iff.mp (List.mem_of_getElem? hentry)
    obtain ⟨token, -, htoken⟩ := List.mem_map.mp hmem
    exact ⟨token, htoken⟩

omit [LinearOrder K] in
theorem lt_of_itemValue_ne_bot {token : ℕ} (h : itemValue inputs token ≠ ⊥) :
    token < kLocalArVocabularySize := by
  by_contra hge
  exact h (if_neg hge)

/-- If a finite candidate remains, an eligible one does. -/
theorem exists_eligible_finite (h : ∃ token, itemValue inputs token ≠ ⊥) :
    ∃ token, Eligible inputs token ∧ itemValue inputs token ≠ ⊥ := by
  by_cases hthreshold : threshold inputs = ⊥
  · obtain ⟨token, htoken⟩ := h
    exact ⟨token, ⟨lt_of_itemValue_ne_bot inputs htoken, hthreshold ▸ bot_le⟩, htoken⟩
  · obtain ⟨token, htoken⟩ := exists_itemValue_eq_threshold inputs hthreshold
    have hfinite : itemValue inputs token ≠ ⊥ := htoken ▸ hthreshold
    exact ⟨token, ⟨lt_of_itemValue_ne_bot inputs hfinite, htoken.ge⟩, hfinite⟩

omit [LinearOrder K] in
theorem tokenScore_ne_bot_iff {token : ℕ} :
    tokenScore inputs noise token ≠ ⊥ ↔ itemValue inputs token ≠ ⊥ :=
  not_congr WithBot.map_eq_bot_iff

/-! ### The choice -/

/-- The token has the best score among those whose value is at least the eightieth largest, and is
the lowest one that has. Minus infinity does not count. -/
structure IsTopKChoice (token : ℕ) : Prop where
  lt : token < kLocalArVocabularySize
  finite : itemValue inputs token ≠ ⊥
  topK : kthLargest kTopK (vocabularyValues inputs) ≤ itemValue inputs token
  best : ∀ other < kLocalArVocabularySize,
    kthLargest kTopK (vocabularyValues inputs) ≤ itemValue inputs other →
      tokenScore inputs noise other < tokenScore inputs noise token ∨
        tokenScore inputs noise other = tokenScore inputs noise token ∧ token ≤ other

/-- With a finite candidate the block selects the choice. -/
theorem reductionResult_choice (h : ∃ token, itemValue inputs token ≠ ⊥) :
    ∃ token, IsTopKChoice inputs noise token ∧
      reductionResult inputs noise = ⟨tokenScore inputs noise token, token⟩ := by
  obtain ⟨hresult, hbest⟩ := reductionResult_spec inputs noise
  obtain ⟨finite, heligible, hfinite⟩ := exists_eligible_finite inputs h
  have hscore : (reductionResult inputs noise).score ≠ ⊥ := by
    intro hbot
    refine hbest finite heligible (Or.inl ?_)
    rw [hbot]
    exact bot_lt_iff_ne_bot.mpr ((tokenScore_ne_bot_iff inputs noise).mpr hfinite)
  rcases hresult with hfirst | ⟨token, htoken, heq⟩
  · rw [hfirst] at hscore
    exact absurd rfl hscore
  · rw [heq] at hscore hbest
    refine ⟨token, ⟨htoken.1, (tokenScore_ne_bot_iff inputs noise).mp hscore, ?_, ?_⟩, heq⟩
    · rw [← threshold_eq]
      exact htoken.2
    · intro other hother hle
      rw [← threshold_eq] at hle
      have hbeats := hbest other ⟨hother, hle⟩
      simp only [Candidate.Beats, not_or, not_lt, not_and] at hbeats
      rcases hbeats.1.lt_or_eq with hlt | heqScore
      · exact Or.inl hlt
      · exact Or.inr ⟨heqScore, hbeats.2 heqScore⟩

omit [LinearOrder K] in
/-- What the gates leave. -/
theorem candidateValue_ne_bot {scalars : SamplingScalars} {token : ℕ} {logit : Option K}
    (h : candidateValue scalars token logit ≠ ⊥) :
    (scalars.finished = true → token = kLocalArAudioEosId) ∧
      (token < kLocalArCodebookSize ∨ token = kLocalArAudioEosId) ∧
      (scalars.finished = false → scalars.unfinished = true ∨ scalars.forbidEos = true →
        token ≠ kLocalArAudioEosId) := by
  unfold candidateValue at h
  dsimp only at h
  cases hfinished : scalars.finished with
  | true =>
    rw [hfinished, if_pos rfl] at h
    have htoken : token = kLocalArAudioEosId := by
      by_contra hne
      exact h (if_neg hne)
    exact ⟨fun _ => htoken, Or.inr htoken, fun hopen => absurd hopen (by decide)⟩
  | false =>
    rw [hfinished, if_neg (by decide)] at h
    obtain ⟨hspecial, hgate⟩ := not_or.mp fun hmasked => h (if_pos hmasked)
    refine ⟨fun hclosed => absurd hclosed (by decide), ?_, fun _ hopen heos => hgate ⟨hopen, heos⟩⟩
    rcases Nat.lt_or_ge token kLocalArCodebookSize with hlow | hhigh
    · exact Or.inl hlow
    · exact Or.inr (not_not.mp fun hne => hspecial ⟨hhigh, hne⟩)

/-- No finite candidate remains. -/
def NoCandidate : Prop := ∀ token, itemValue inputs token = ⊥

theorem finiteCandidates_eq_zero_iff : finiteCandidates inputs = 0 ↔ NoCandidate inputs := by
  rw [finiteCandidates, List.countP_eq_zero, NoCandidate]
  constructor
  · intro hnone token
    by_contra hfinite
    have hlt := lt_of_itemValue_ne_bot inputs hfinite
    refine hnone token (List.mem_range.mpr (Nat.lt_trans hlt (by decide))) ?_
    simp [hlt, hfinite]
  · intro hnone token _
    simp [hnone token]

omit [Field K] [LinearOrder K] in
theorem findsNonFinite_iff : findsNonFinite inputs = true ↔
    ∃ token < kLocalArVocabularySize, inputs.guidedLogit token = none := by
  simp only [findsNonFinite, List.any_eq_true, Bool.and_eq_true, decide_eq_true_iff,
    Option.isNone_iff_eq_none]
  constructor
  · rintro ⟨token, -, hlt, hnone⟩
    exact ⟨token, hlt, hnone⟩
  · rintro ⟨token, hlt, hnone⟩
    exact ⟨token, List.mem_range.mpr (Nat.lt_trans hlt (by decide)), hlt, hnone⟩

/-- What the scalar inputs report. -/
theorem scalars_invalid_iff (scalars : SamplingScalars) : scalars.invalid = true ↔
    (scalars.unfinished = true ∧ scalars.finished = true) ∨
      (scalars.finished = true ∧ scalars.forbidEos = true) ∨
        seedValid scalars.seedValue = false ∨ counterValid scalars.counterValue = false := by
  simp [SamplingScalars.invalid, or_assoc]

/-- The check of the chosen token reports nothing beyond a row without candidates. -/
theorem samplingKernel_invalid_iff : (samplingKernel inputs noise).invalidRows = true ↔
    (∃ token < kLocalArVocabularySize, inputs.guidedLogit token = none) ∨ NoCandidate inputs ∨
      (inputs.scalars.unfinished = true ∧ inputs.scalars.finished = true) ∨
      (inputs.scalars.finished = true ∧ inputs.scalars.forbidEos = true) ∨
      seedValid inputs.scalars.seedValue = false ∨
      counterValid inputs.scalars.counterValue = false := by
  have hrange : kLocalArVocabularySize ≤ (reductionResult inputs noise).id ∨
      (reductionResult inputs noise).score = ⊥ → NoCandidate inputs := by
    intro hout token
    by_contra hfinite
    obtain ⟨chosen, hchoice, hresult⟩ := reductionResult_choice inputs noise ⟨token, hfinite⟩
    rw [hresult] at hout
    rcases hout with hid | hscore
    · exact absurd hchoice.lt (Nat.not_lt.mpr hid)
    · exact (tokenScore_ne_bot_iff inputs noise).mpr hchoice.finite hscore
  simp only [samplingKernel, invalidRow, Bool.or_eq_true, decide_eq_true_iff,
    scalars_invalid_iff, findsNonFinite_iff, finiteCandidates_eq_zero_iff]
  constructor
  · rintro ((h | h | h) | (h | h) | h)
    · exact Or.inr (Or.inr (Or.inl h))
    · exact Or.inr (Or.inr (Or.inr (Or.inl h)))
    · exact Or.inr (Or.inr (Or.inr (Or.inr h)))
    · exact Or.inl h
    · exact Or.inr (Or.inl h)
    · exact Or.inr (Or.inl (hrange h))
  · rintro (h | h | h | h | h)
    · exact Or.inr (Or.inl (Or.inl h))
    · exact Or.inr (Or.inl (Or.inr h))
    · exact Or.inl (Or.inl h)
    · exact Or.inl (Or.inr (Or.inl h))
    · exact Or.inl (Or.inr (Or.inr h))

/-- A row with a candidate gets its choice, and a row without one the token zero. -/
theorem samplingKernel_sampledToken :
    IsTopKChoice inputs noise (samplingKernel inputs noise).sampledToken ∨
      NoCandidate inputs ∧ (samplingKernel inputs noise).sampledToken = 0 := by
  by_cases hcandidate : ∃ token, itemValue inputs token ≠ ⊥
  · obtain ⟨token, hchoice, hresult⟩ := reductionResult_choice inputs noise hcandidate
    have hinside : ¬ (kLocalArVocabularySize ≤ token ∨ tokenScore inputs noise token = ⊥) :=
      not_or.mpr ⟨Nat.not_le.mpr hchoice.lt,
        (tokenScore_ne_bot_iff inputs noise).mpr hchoice.finite⟩
    have hsampled : (samplingKernel inputs noise).sampledToken = token := by
      simp only [samplingKernel, hresult, hinside, decide_false, if_neg Bool.false_ne_true]
    exact Or.inl (hsampled.symm ▸ hchoice)
  · have hnone : NoCandidate inputs := fun token => by
      by_contra hfinite
      exact hcandidate ⟨token, hfinite⟩
    refine Or.inr ⟨hnone, ?_⟩
    have houtside : kLocalArVocabularySize ≤ (reductionResult inputs noise).id ∨
        (reductionResult inputs noise).score = ⊥ := by
      rcases (reductionResult_spec inputs noise).1 with hfirst | ⟨token, -, heq⟩
      · rw [hfirst]
        exact Or.inr rfl
      · rw [heq]
        refine Or.inr (not_not.mp fun hscore => ?_)
        exact (tokenScore_ne_bot_iff inputs noise).mp hscore (hnone token)
    simp only [samplingKernel, houtside, decide_true, if_true]

/-- The token of a row with gates that do not contradict obeys the gates, whatever else is wrong
with the row. -/
theorem samplingKernel_ne_eos (hgates : ¬ (inputs.scalars.unfinished = true ∧
      inputs.scalars.finished = true) ∧
        ¬ (inputs.scalars.finished = true ∧ inputs.scalars.forbidEos = true))
    (hopen : inputs.scalars.unfinished = true ∨ inputs.scalars.forbidEos = true) :
    (samplingKernel inputs noise).sampledToken ≠ kLocalArAudioEosId := by
  have hfinished : inputs.scalars.finished = false := by
    refine Bool.eq_false_iff.mpr fun hfinished => ?_
    rcases hopen with h | h
    · exact hgates.1 ⟨h, hfinished⟩
    · exact hgates.2 ⟨hfinished, h⟩
  rcases samplingKernel_sampledToken inputs noise with hchoice | ⟨-, hzero⟩
  · have hfinite := hchoice.finite
    rw [itemValue, if_pos hchoice.lt] at hfinite
    exact (candidateValue_ne_bot hfinite).2.2 hfinished hopen
  · rw [hzero]
    decide

/-! ### The statement of the exporter -/

/-- `constrained` of `_reference_sample`, for finite logits. -/
def referenceValue (token : ℕ) : WithBot K :=
  let guided : WithBot K := (inputs.guidedLogit token).elim ⊥ fun finite => (finite : WithBot K)
  let specialForbidden := kLocalArCodebookSize ≤ token ∧ token ≠ kLocalArAudioEosId
  let constrained := if specialForbidden then ⊥ else guided
  let eosForbidden := inputs.scalars.unfinished || inputs.scalars.forbidEos
  let constrained :=
    if eosForbidden = true ∧ token = kLocalArAudioEosId then ⊥ else constrained
  let forcedEos : WithBot K := if token = kLocalArAudioEosId then ((0 : K) : WithBot K) else ⊥
  if inputs.scalars.finished = true then forcedEos else constrained

/-- `torch.argmax`: the first index of the largest value. -/
def argmax (values : List (WithBot K)) : ℕ := values.idxOf (values.foldl max ⊥)

/-- `scores` of `_reference_sample`. -/
def referenceScores : List (WithBot K) :=
  let constrained := (List.range kLocalArVocabularySize).map (referenceValue inputs)
  (List.range kLocalArVocabularySize).map fun token =>
    if kthLargest kTopK constrained ≤ referenceValue inputs token then
      (referenceValue inputs token).map fun value => value / kTemperature + noise token
    else ⊥

/-- `_reference_sample` on its one row. -/
def referenceSample : SamplingOutputs β :=
  let sampled := argmax (referenceScores inputs noise)
  let finite := (List.range kLocalArVocabularySize).all fun token =>
    (inputs.guidedLogit token).isSome
  let hasCandidate := (List.range kLocalArVocabularySize).any fun token =>
    decide (referenceValue inputs token ≠ ⊥)
  let statusOverlap := inputs.scalars.unfinished && inputs.scalars.finished
  let invalidForcedGate := inputs.scalars.finished && inputs.scalars.forbidEos
  let valid := finite && hasCandidate && counterValid inputs.scalars.counterValue &&
    !statusOverlap && !invalidForcedGate
  { sampledToken := sampled
    nextEmbedding := fun _ width =>
      inputs.embeddingWeight (sampled * kLocalArEmbeddingWidth + width)
    updatedRngCounter := updatedCounter inputs.scalars.counterValue
    invalidRows := !valid }

omit [LinearOrder K] in
theorem referenceValue_eq {token : ℕ} (htoken : token < kLocalArVocabularySize) :
    referenceValue inputs token = itemValue inputs token := by
  rw [itemValue, if_pos htoken, referenceValue, candidateValue]
  by_cases hspecial : kLocalArCodebookSize ≤ token ∧ token ≠ kLocalArAudioEosId
  · rw [if_pos hspecial, if_pos (Or.inl hspecial), ite_self]
  · simp only [hspecial, if_false, false_or, Bool.or_eq_true]

theorem referenceScores_eq :
    referenceScores inputs noise = (List.range kLocalArVocabularySize).map fun token =>
      if kthLargest kTopK (vocabularyValues inputs) ≤ itemValue inputs token then
        tokenScore inputs noise token
      else ⊥ := by
  have hvalues : (List.range kLocalArVocabularySize).map (referenceValue inputs) =
      vocabularyValues inputs :=
    List.map_congr_left fun token htoken =>
      referenceValue_eq inputs (List.mem_range.mp htoken)
  rw [referenceScores, hvalues]
  refine List.map_congr_left fun token htoken => ?_
  rw [referenceValue_eq inputs (List.mem_range.mp htoken)]
  rfl

/-- The exporter names the choice of a row with a candidate. -/
theorem argmax_referenceScores {token : ℕ} (h : IsTopKChoice inputs noise token) :
    argmax (referenceScores inputs noise) = token := by
  rw [referenceScores_eq]
  generalize hf : (fun token =>
    if kthLargest kTopK (vocabularyValues inputs) ≤ itemValue inputs token then
      tokenScore inputs noise token
    else ⊥) = f
  have hscore (other : ℕ) : f other =
      if kthLargest kTopK (vocabularyValues inputs) ≤ itemValue inputs other then
        tokenScore inputs noise other
      else ⊥ := by rw [← hf]
  have htoken : f token = tokenScore inputs noise token := (hscore token).trans (if_pos h.topK)
  have hfinite : f token ≠ ⊥ := htoken ▸ (tokenScore_ne_bot_iff inputs noise).mpr h.finite
  have hle (other : ℕ) (hother : other < kLocalArVocabularySize) : f other ≤ f token := by
    rw [hscore other]
    split_ifs with heligible
    · rw [htoken]
      exact (h.best other hother heligible).elim (fun hlt => hlt.le) (fun heq => heq.1.le)
    · exact bot_le
  -- the largest score is the one of the choice
  have hmax : ((List.range kLocalArVocabularySize).map f).foldl max ⊥ = f token := by
    obtain ⟨hmem, -, hbest⟩ := selects_max.foldl_spec ((List.range kLocalArVocabularySize).map f) ⊥
    refine le_antisymm ?_ (hbest _ (List.mem_map.mpr ⟨token, List.mem_range.mpr h.lt, rfl⟩))
    rcases hmem with hbot | hmem
    · rw [hbot]
      exact bot_le
    · obtain ⟨other, hother, heq⟩ := List.mem_map.mp hmem
      rw [← heq]
      exact hle other (List.mem_range.mp hother)
  -- and it is reached at no lower token
  have hlength : token < ((List.range kLocalArVocabularySize).map f).length := by
    rw [List.length_map, List.length_range]
    exact h.lt
  rw [argmax, hmax, List.idxOf]
  refine (List.findIdx_eq hlength).mpr ⟨by simp, fun lower hlower => ?_⟩
  rw [List.getElem_map, List.getElem_range, beq_eq_false_iff_ne]
  intro heq
  rw [hscore lower] at heq
  split_ifs at heq with heligible
  · rw [htoken] at heq
    rcases h.best lower (Nat.lt_trans hlower h.lt) heligible with hlt | ⟨-, hge⟩
    · exact absurd heq hlt.ne
    · exact absurd hlower (Nat.not_lt.mpr hge)
  · exact hfinite heq.symm

/-- The number of a token in the kernel, from the integer that is drawn at its offset. -/
def kernelNoise (gumbel : ℤ → K) (scalars : SamplingScalars) (token : ℕ) : K :=
  let seed := if seedValid scalars.seedValue then BitVec.ofInt 32 scalars.seedValue else 0#32
  gumbel (philoxMagnitude (philoxWord seed (samplingOffset scalars.counterValue token)))

/-- The number of a token in `_reference_sample`, for the row zero. -/
def referenceNoise (gumbel : ℤ → K) (scalars : SamplingScalars) (token : ℕ) : K :=
  let safeCounter := if counterValid scalars.counterValue then scalars.counterValue else 0
  let offset := BitVec.ofInt 64 safeCounter * BitVec.ofInt 64 kPhiloxStride + BitVec.ofNat 64 token
  let rowSeed := BitVec.ofInt 64 scalars.seedValue &&& uint32Mask
  gumbel (exporterMagnitude rowSeed offset)

omit [Field K] [LinearOrder K] in
theorem referenceNoise_eq (gumbel : ℤ → K) {scalars : SamplingScalars}
    (hseed : seedValid scalars.seedValue = true) :
    referenceNoise gumbel scalars = kernelNoise gumbel scalars := by
  have hrange : 0 ≤ scalars.seedValue ∧ scalars.seedValue < 4294967296 := by
    simpa [seedValid] using hseed
  obtain ⟨seed, hseedValue⟩ := Int.eq_ofNat_of_zero_le hrange.1
  have hword : BitVec.ofInt 64 scalars.seedValue &&& uint32Mask =
      (BitVec.ofInt 32 scalars.seedValue).setWidth 64 := by
    rw [and_uint32Mask, hseedValue, BitVec.ofInt_natCast, BitVec.ofInt_natCast,
      BitVec.setWidth_ofNat_of_le (by decide)]
  funext token
  rw [referenceNoise, kernelNoise, if_pos hseed, hword, exporterMagnitude_eq]
  congr 3
  rw [samplingOffset, offsetBase]
  split_ifs with hcounter
  · rfl
  · rw [show BitVec.ofInt 64 0 = 0#64 from rfl, BitVec.zero_mul]

/-- The exporter reports a row that the kernel reports, but for the seed, which it does not look
at. -/
theorem referenceSample_invalid (hseed : seedValid inputs.scalars.seedValue = true) :
    (referenceSample inputs noise).invalidRows = (samplingKernel inputs noise).invalidRows := by
  rw [Bool.eq_iff_iff, samplingKernel_invalid_iff]
  have hfinite : ((List.range kLocalArVocabularySize).all fun token =>
      (inputs.guidedLogit token).isSome) = false ↔
        ∃ token < kLocalArVocabularySize, inputs.guidedLogit token = none := by
    simp only [List.all_eq_false, List.mem_range, Bool.not_eq_true, Option.isSome_eq_false_iff,
      Option.isNone_iff_eq_none]
  have hcandidate : ((List.range kLocalArVocabularySize).any fun token =>
      decide (referenceValue inputs token ≠ ⊥)) = false ↔ NoCandidate inputs := by
    simp only [List.any_eq_false, List.mem_range, decide_eq_true_iff, not_not, NoCandidate]
    constructor
    · intro hnone token
      by_contra hvalue
      have hlt := lt_of_itemValue_ne_bot inputs hvalue
      exact hvalue (referenceValue_eq inputs hlt ▸ hnone token hlt)
    · intro hnone token htoken
      rw [referenceValue_eq inputs htoken]
      exact hnone token
  simp only [referenceSample, Bool.not_eq_true', Bool.and_eq_false_iff, hfinite, hcandidate,
    Bool.not_eq_false', Bool.and_eq_true, hseed, Bool.true_eq_false, false_or]
  constructor
  · rintro ((((h | h) | h) | h) | h)
    · exact Or.inl h
    · exact Or.inr (Or.inl h)
    · exact Or.inr (Or.inr (Or.inr (Or.inr h)))
    · exact Or.inr (Or.inr (Or.inl h))
    · exact Or.inr (Or.inr (Or.inr (Or.inl h)))
  · rintro (h | h | h | h | h)
    · exact Or.inl (Or.inl (Or.inl (Or.inl h)))
    · exact Or.inl (Or.inl (Or.inl (Or.inr h)))
    · exact Or.inl (Or.inr h)
    · exact Or.inr h
    · exact Or.inl (Or.inl (Or.inr h))

/-! ### The kernel as a whole -/

/-- The sampling kernel. Whatever the noise, it reports exactly the rows with a logit that is not
finite, without a candidate, with gates that contradict, or with a seed or a counter out of range,
and the token of a row that it does not report is the best scored one of the eighty largest values,
is no special token but the end of the audio, is that one when the row is finished, and is not when
the text is unfinished or the end is forbidden. With a seed in range the exporter, at the numbers of
its own generator, reports the same rows and names the same token, counter and embedding. -/
theorem samplingKernel_spec (inputs : SamplingInputs K β) :
    (∀ noise, (samplingKernel inputs noise).invalidRows = true ↔
      (∃ token < kLocalArVocabularySize, inputs.guidedLogit token = none) ∨ NoCandidate inputs ∨
        (inputs.scalars.unfinished = true ∧ inputs.scalars.finished = true) ∨
        (inputs.scalars.finished = true ∧ inputs.scalars.forbidEos = true) ∨
        seedValid inputs.scalars.seedValue = false ∨
        counterValid inputs.scalars.counterValue = false) ∧
      (∀ noise token, (samplingKernel inputs noise).invalidRows = false →
        (samplingKernel inputs noise).sampledToken = token →
          IsTopKChoice inputs noise token ∧
            (token < kLocalArCodebookSize ∨ token = kLocalArAudioEosId) ∧
            (inputs.scalars.unfinished = true ∨ inputs.scalars.forbidEos = true →
              token ≠ kLocalArAudioEosId) ∧
            (inputs.scalars.finished = true → token = kLocalArAudioEosId)) ∧
      ∀ gumbel, seedValid inputs.scalars.seedValue = true →
        (referenceSample inputs (referenceNoise gumbel inputs.scalars)).invalidRows =
            (samplingKernel inputs (kernelNoise gumbel inputs.scalars)).invalidRows ∧
          ((samplingKernel inputs (kernelNoise gumbel inputs.scalars)).invalidRows = false →
            referenceSample inputs (referenceNoise gumbel inputs.scalars) =
              samplingKernel inputs (kernelNoise gumbel inputs.scalars)) := by
  have hchoice (noise : ℕ → K) (hvalid : (samplingKernel inputs noise).invalidRows = false) :
      IsTopKChoice inputs noise (samplingKernel inputs noise).sampledToken := by
    refine (samplingKernel_sampledToken inputs noise).resolve_right fun hnone => ?_
    rw [(samplingKernel_invalid_iff inputs noise).mpr (Or.inr (Or.inl hnone.1))] at hvalid
    exact Bool.noConfusion hvalid
  refine ⟨samplingKernel_invalid_iff inputs, ?_, ?_⟩
  · rintro noise token hvalid rfl
    have htoken := hchoice noise hvalid
    have hgates := fun hbad => Bool.eq_false_iff.mp hvalid
      ((samplingKernel_invalid_iff inputs noise).mpr (Or.inr (Or.inr hbad)))
    have hfinite := htoken.finite
    rw [itemValue, if_pos htoken.lt] at hfinite
    obtain ⟨hforced, hspecial, -⟩ := candidateValue_ne_bot hfinite
    exact ⟨htoken, hspecial,
      samplingKernel_ne_eos inputs noise
        ⟨fun h => hgates (Or.inl h), fun h => hgates (Or.inr (Or.inl h))⟩, hforced⟩
  · intro gumbel hseed
    rw [referenceNoise_eq gumbel hseed]
    have hinvalid := referenceSample_invalid inputs (kernelNoise gumbel inputs.scalars) hseed
    refine ⟨hinvalid, fun hvalid => ?_⟩
    -- both write the same from the same token
    have hsampled := argmax_referenceScores inputs _ (hchoice _ hvalid)
    rw [referenceSample] at hinvalid ⊢
    dsimp only at hinvalid ⊢
    rw [hinvalid, hsampled]
    rfl

end MagpieTts.Plugins
