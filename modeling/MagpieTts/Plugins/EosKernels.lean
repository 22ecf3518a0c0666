import Mathlib.Order.BoundedOrder.Basic
import Mathlib.Order.Nat
import MagpieTts.Plugins.SamplingKernel

/-!
# The end of the audio

`launch_local_ar_eos` of `local_ar_plugins.cu` decides whether the audio ends in one of the two
frames of a step. `eos_projection_kernel` computes the logits that matter into a workspace with a
compacted vocabulary, `eos_reduce_kernel` tests the sixteen positions and sets the flag of a frame,
and `eos_finalize_kernel` reads the flags. `finalize_local_step` and `pack_codec_frames` of
`synthesis_kernels.cu` carry the tokens of the step to the codec.

The logits are floats: elements of a linear order with minus infinity at the bottom, or `none` where
they are not a number.

## Main definitions

* `LaunchLocalArEos`: the three kernels in turn, the blocks of each in any order.
* `FrameEnds`: a position of the frame ends the audio.
* `FrameExceeds`: the same, where a logit that is not a number keeps its position from ending.
* `finalizeLocalStepThread`, `packCodecFramesThread`: the stores of the threads behind.

## Main results

* `LaunchLocalArEos.open_spec`: the index without a gate.
* `AggregatedSteps.packCodecFrames_apply`: the codec gets the token that the position tests.
* `eos_agrees_with_sampling`: all of it, and that no sampled token contradicts it.
-/

namespace MagpieTts.Plugins

open MagpieTts.Library

def kLocalArPositions : ℕ := 16

def kLocalArCodebooks : ℕ := 8

def kLocalArFrames : ℕ := 2

def kCompactEosVocabulary : ℕ := kLocalArCodebookSize + 1

/-- The gates of a row. -/
structure EosGates where
  unfinished : Bool
  finished : Bool
  forbidEos : Bool

/-- `sampling_kernel` reports a row with gates that contradict. -/
def EosGates.Rejected (gates : EosGates) : Prop :=
  (gates.unfinished = true ∧ gates.finished = true) ∨
    (gates.finished = true ∧ gates.forbidEos = true)

variable {L : Type*} [LinearOrder L] [OrderBot L]

/-- A logit; `none` is not a number. -/
abbrev EosLogit (L : Type*) := Option L

/-! ### The kernels -/

/-- A block of `eos_projection_kernel`. The guided logit of a row of the projection is `projection`
of its index. -/
def eosProjectionBlock (gates : EosGates) (projection : ℕ → EosLogit L) (compactIndex : ℕ) :
    List (Store (EosLogit L)) :=
  if (gates.unfinished || gates.finished || gates.forbidEos) = true then []
  else
    let position := compactIndex / kCompactEosVocabulary
    let compactToken := compactIndex % kCompactEosVocabulary
    let token := if compactToken = kLocalArCodebookSize then kLocalArAudioEosId else compactToken
    let outputIndex := position * kLocalArVocabularySize + token
    [⟨compactIndex, projection outputIndex⟩]

/-- The loop of a thread of `eos_reduce_kernel` over its tokens. -/
def threadMaximum (guidedLogits : ℕ → EosLogit L) (position thread : ℕ) : EosLogit L :=
  ((stridedIndices thread kSamplingThreads kLocalArCodebookSize).map fun token =>
    guidedLogits (position * kCompactEosVocabulary + token)).foldl fmaxf (some ⊥)

/-- A block of `eos_reduce_kernel`: its atomic operations on the flags. -/
def eosReduceBlock (gates : EosGates) (guidedLogits : ℕ → EosLogit L) (codecTokens : ℕ → ℤ)
    (position : ℕ) : List (Store (BitVec 32)) :=
  let frame := position / kLocalArCodebooks
  if gates.finished = true then [⟨frame, 1#32⟩]
  else if (gates.unfinished || gates.forbidEos) = true then []
  else
    let reduction := treeReduce fmaxf 8 (threadMaximum guidedLogits position) 0
    let codebook := position % kLocalArCodebooks
    let eosLogit := guidedLogits (position * kCompactEosVocabulary + kLocalArCodebookSize)
    let argmaxEos := floatExceeds eosLogit reduction
    let sampledEos :=
      decide (codecTokens (codebook * kLocalArFrames + frame) = (kLocalArAudioEosId : ℤ))
    if (argmaxEos || sampledEos) = true then [⟨frame, 1#32⟩] else []

/-- `eos_finalize_kernel`. -/
def eosFinalize (frameEos : ℕ → BitVec 32) : ℤ :=
  if frameEos 0 ≠ 0#32 then 0 else if frameEos 1 ≠ 0#32 then 1 else -1

/-- The values of `end_frame_index` that `launch_local_ar_eos` can leave, from any workspace. The
flags are set to zero before the kernels run. -/
inductive LaunchLocalArEos (gates : EosGates) (projection : ℕ → EosLogit L) (codecTokens : ℕ → ℤ) :
    ℤ → Prop
  | run {workspace guidedLogits : ℕ → EosLogit L} {frameEos : ℕ → BitVec 32} :
      PhaseOutcome ((List.range (kLocalArPositions * kCompactEosVocabulary)).map
        (eosProjectionBlock gates projection)) workspace guidedLogits →
      AtomicOrOutcome ((List.range kLocalArPositions).map
        (eosReduceBlock gates guidedLogits codecTokens)) (fun _ => 0#32) frameEos →
      LaunchLocalArEos gates projection codecTokens (eosFinalize frameEos)

/-! ### What the kernels decide -/

/-- The logit of a token at a codebook and frame. Positions count the codebooks of the first frame
and then those of the second one. -/
def positionLogit (projection : ℕ → EosLogit L) (frame codebook token : ℕ) : EosLogit L :=
  projection ((frame * kLocalArCodebooks + codebook) * kLocalArVocabularySize + token)

/-- The logit of the end of the audio exceeds minus infinity and every codec token's that is a
number, or the end was sampled at the position. -/
def PositionEnds (projection : ℕ → EosLogit L) (codecTokens : ℕ → ℤ) (frame codebook : ℕ) : Prop :=
  (floatExceeds (positionLogit projection frame codebook kLocalArAudioEosId) (some ⊥) = true ∧
    ∀ token < kLocalArCodebookSize, positionLogit projection frame codebook token ≠ none →
      floatExceeds (positionLogit projection frame codebook kLocalArAudioEosId)
        (positionLogit projection frame codebook token) = true) ∨
    codecTokens (codebook * kLocalArFrames + frame) = kLocalArAudioEosId

/-- Some codebook of the frame ends the audio. -/
def FrameEnds (projection : ℕ → EosLogit L) (codecTokens : ℕ → ℤ) (frame : ℕ) : Prop :=
  ∃ codebook < kLocalArCodebooks, PositionEnds projection codecTokens frame codebook

/-- At some codebook of the frame the logit of the end of the audio exceeds every codec token's, or
the end was sampled. -/
def FrameExceeds (projection : ℕ → EosLogit L) (codecTokens : ℕ → ℤ) (frame : ℕ) : Prop :=
  ∃ codebook < kLocalArCodebooks,
    (∀ token < kLocalArCodebookSize,
      floatExceeds (positionLogit projection frame codebook kLocalArAudioEosId)
        (positionLogit projection frame codebook token) = true) ∨
      codecTokens (codebook * kLocalArFrames + frame) = kLocalArAudioEosId

/-- Where the logits of the codec tokens are numbers, the end of the audio exceeds them all. -/
theorem frameEnds_iff_frameExceeds {projection : ℕ → EosLogit L} {codecTokens : ℕ → ℤ} {frame : ℕ}
    (hnumbers : ∀ codebook < kLocalArCodebooks, ∀ token < kLocalArCodebookSize,
      positionLogit projection frame codebook token ≠ none) :
    FrameEnds projection codecTokens frame ↔ FrameExceeds projection codecTokens frame := by
  refine exists_congr fun codebook => and_congr_right fun hcodebook => or_congr_left ?_
  constructor
  · rintro ⟨-, hexceeds⟩ token htoken
    exact hexceeds token htoken (hnumbers codebook hcodebook token htoken)
  · intro hexceeds
    have hbottom : FloatNoSmaller (positionLogit projection frame codebook 0)
        (some (⊥ : L)) := by
      rintro y hy
      obtain rfl := Option.some.inj hy
      obtain ⟨x, hx⟩ := Option.ne_none_iff_exists'.mp (hnumbers codebook hcodebook 0 (by decide))
      exact ⟨x, hx, bot_le⟩
    exact ⟨floatExceeds_of_noSmaller (hexceeds 0 (by decide)) hbottom (Option.some_ne_none _),
      fun token htoken _ => hexceeds token htoken⟩

/-- The smallest frame that ends the audio, or minus one. -/
def IsEndFrame (ends : ℕ → Prop) (endFrameIndex : ℤ) : Prop :=
  (endFrameIndex = -1 ∧ ∀ frame < kLocalArFrames, ¬ ends frame) ∨
    ∃ frame < kLocalArFrames, endFrameIndex = frame ∧ ends frame ∧ ∀ f < frame, ¬ ends f

theorem IsEndFrame.congr {ends ends' : ℕ → Prop} {endFrameIndex : ℤ}
    (h : IsEndFrame ends endFrameIndex)
    (hends : ∀ frame < kLocalArFrames, (ends frame ↔ ends' frame)) :
    IsEndFrame ends' endFrameIndex := by
  rcases h with ⟨heq, hnone⟩ | ⟨frame, hframe, heq, hframeEnds, hfirst⟩
  · exact Or.inl ⟨heq, fun frame hframe => fun h => hnone frame hframe ((hends frame hframe).mpr h)⟩
  · exact Or.inr ⟨frame, hframe, heq, (hends frame hframe).mp hframeEnds,
      fun f hf h => hfirst f hf ((hends f (Nat.lt_trans hf hframe)).mpr h)⟩

theorem eosFinalize_isEndFrame (frameEos : ℕ → BitVec 32) :
    IsEndFrame (fun frame => frameEos frame ≠ 0#32) (eosFinalize frameEos) := by
  unfold eosFinalize
  split_ifs with h0 h1
  · exact Or.inr ⟨0, by decide, rfl, h0, fun f hf => absurd hf (Nat.not_lt_zero f)⟩
  · refine Or.inr ⟨1, by decide, rfl, h1, fun f hf => ?_⟩
    obtain rfl : f = 0 := Nat.lt_one_iff.mp hf
    exact h0
  · refine Or.inl ⟨rfl, fun frame hframe => ?_⟩
    obtain rfl | rfl : frame = 0 ∨ frame = 1 := by
      rw [kLocalArFrames] at hframe
      omega
    · exact h0
    · exact h1

section Reduce

variable {gates : EosGates} {projection guidedLogits : ℕ → EosLogit L} {codecTokens : ℕ → ℤ}

omit [LinearOrder L] [OrderBot L] in
/-- Without a gate the workspace holds the logits of every position. -/
theorem guidedLogits_apply
    (hopen : (gates.unfinished || gates.finished || gates.forbidEos) = false)
    {workspace : ℕ → EosLogit L}
    (h : PhaseOutcome ((List.range (kLocalArPositions * kCompactEosVocabulary)).map
      (eosProjectionBlock gates projection)) workspace guidedLogits)
    {position compactToken : ℕ} (hposition : position < kLocalArPositions)
    (htoken : compactToken < kCompactEosVocabulary) :
    guidedLogits (position * kCompactEosVocabulary + compactToken) =
      projection (position * kLocalArVocabularySize +
        if compactToken = kLocalArCodebookSize then kLocalArAudioEosId else compactToken) := by
  have hblock (compactIndex : ℕ) : eosProjectionBlock gates projection compactIndex =
      [⟨compactIndex, projection (compactIndex / kCompactEosVocabulary * kLocalArVocabularySize +
        if compactIndex % kCompactEosVocabulary = kLocalArCodebookSize then kLocalArAudioEosId
        else compactIndex % kCompactEosVocabulary)⟩] := by
    rw [eosProjectionBlock, hopen, if_neg Bool.false_ne_true]
  refine h.rowMajor_apply (f := fun position compactToken => projection
    (position * kLocalArVocabularySize + if compactToken = kLocalArCodebookSize then
      kLocalArAudioEosId else compactToken)) (fun t ht s hs => ?_) htoken ?_
  · obtain ⟨compactIndex, -, rfl⟩ := List.mem_map.mp ht
    rw [hblock, List.mem_singleton] at hs
    refine ⟨compactIndex / kCompactEosVocabulary, compactIndex % kCompactEosVocabulary,
      Nat.mod_lt _ (by decide), ?_⟩
    rw [hs, Nat.div_add_mod']
  · refine ⟨_, List.mem_map.mpr ⟨position * kCompactEosVocabulary + compactToken,
      List.mem_range.mpr (rowMajor_lt hposition htoken), rfl⟩, ?_⟩
    rw [hblock]
    exact ⟨_, List.mem_singleton.mpr rfl, rfl⟩

/-- A float exceeds the reduction of a block when it exceeds minus infinity and the tokens of the
position that are numbers. -/
theorem floatExceeds_reduction_iff (position : ℕ) (logit : EosLogit L) :
    floatExceeds logit (treeReduce fmaxf 8 (threadMaximum guidedLogits position) 0) = true ↔
      floatExceeds logit (some ⊥) = true ∧
        ∀ token < kLocalArCodebookSize,
          guidedLogits (position * kCompactEosVocabulary + token) ≠ none →
            floatExceeds logit (guidedLogits (position * kCompactEosVocabulary + token)) =
              true := by
  obtain ⟨⟨thread, hlt, hthread⟩, hbest⟩ :=
    (selects_fmaxf (β := L)).treeReduce_spec 8 (threadMaximum guidedLogits position)
  have hloop (thread : ℕ) := (selects_fmaxf (β := L)).foldl_spec
    ((stridedIndices thread kSamplingThreads kLocalArCodebookSize).map fun token =>
      guidedLogits (position * kCompactEosVocabulary + token)) (some ⊥)
  constructor
  · intro hexceeds
    refine ⟨floatExceeds_of_noSmaller hexceeds ?_ (Option.some_ne_none _),
      fun token htoken => floatExceeds_of_noSmaller hexceeds ?_⟩
    · exact selects_fmaxf.trans (hbest 0 (by decide)) (hloop 0).2.1
    · obtain ⟨owner, howner, hmem⟩ :=
        (exists_mem_stridedIndices_iff (show 0 < kSamplingThreads by decide)).mpr htoken
      exact selects_fmaxf.trans (hbest owner howner)
        ((hloop owner).2.2 _ (List.mem_map.mpr ⟨token, hmem, rfl⟩))
  · rintro ⟨hbot, hall⟩
    rw [hthread, threadMaximum]
    obtain ⟨hselected, hfirst, -⟩ := hloop thread
    rcases hselected with hsame | hmem
    · rw [hsame]
      exact hbot
    · obtain ⟨token, htoken, heq⟩ := List.mem_map.mp hmem
      obtain ⟨value, hvalue, -⟩ := hfirst ⊥ rfl
      rw [← heq]
      refine hall token ((exists_mem_stridedIndices_iff
        (show 0 < kSamplingThreads by decide)).mp ⟨thread, hlt, htoken⟩) ?_
      rw [heq, Option.mem_def.mp hvalue]
      exact Option.some_ne_none _

/-- Without a gate a block sets the flag of its frame when its logits or its token say so. -/
theorem eosReduceBlock_eq_singleton_iff
    (hopen : (gates.unfinished || gates.finished || gates.forbidEos) = false) (frame : ℕ)
    {codebook : ℕ} (hcodebook : codebook < kLocalArCodebooks) :
    eosReduceBlock gates guidedLogits codecTokens (frame * kLocalArCodebooks + codebook) =
        [⟨frame, 1#32⟩] ↔
      floatExceeds (guidedLogits ((frame * kLocalArCodebooks + codebook) * kCompactEosVocabulary +
          kLocalArCodebookSize))
        (treeReduce fmaxf 8 (threadMaximum guidedLogits (frame * kLocalArCodebooks + codebook)) 0) =
          true ∨
        codecTokens (codebook * kLocalArFrames + frame) = kLocalArAudioEosId := by
  have hgates : gates.finished = false ∧ (gates.unfinished || gates.forbidEos) = false := by
    simp only [Bool.or_eq_false_iff] at hopen ⊢
    exact ⟨hopen.1.2, hopen.1.1, hopen.2⟩
  rw [eosReduceBlock, hgates.1, hgates.2]
  simp only [Bool.false_eq_true, if_false, rowMajor_div hcodebook, rowMajor_mod hcodebook,
    Bool.or_eq_true, decide_eq_true_iff]
  split_ifs with hends
  · exact ⟨fun _ => hends, fun _ => rfl⟩
  · exact ⟨False.elim, fun h => absurd h hends⟩

/-- A block touches no flag but the one of its frame. -/
theorem eosReduceBlock_eq_or
    (gates : EosGates) (guidedLogits : ℕ → EosLogit L) (codecTokens : ℕ → ℤ)
    (position : ℕ) : eosReduceBlock gates guidedLogits codecTokens position = [] ∨
      eosReduceBlock gates guidedLogits codecTokens position =
        [⟨position / kLocalArCodebooks, 1#32⟩] := by
  unfold eosReduceBlock
  dsimp only
  split_ifs
  · exact Or.inr rfl
  · exact Or.inl rfl
  · exact Or.inr rfl
  · exact Or.inl rfl

/-- The flag of a frame is set when one of its blocks sets it. -/
theorem frameEos_ne_zero_iff {frameEos : ℕ → BitVec 32}
    (h : AtomicOrOutcome ((List.range kLocalArPositions).map
      (eosReduceBlock gates guidedLogits codecTokens)) (fun _ => 0#32) frameEos) {frame : ℕ}
    (hframe : frame < kLocalArFrames) :
    frameEos frame ≠ 0#32 ↔ ∃ codebook < kLocalArCodebooks,
      eosReduceBlock gates guidedLogits codecTokens (frame * kLocalArCodebooks + codebook) =
        [⟨frame, 1#32⟩] := by
  rw [Ne, h.apply_eq_zero_iff]
  constructor
  · intro hset
    by_contra hnone
    refine hset ⟨rfl, fun t ht s hs haddress => ?_⟩
    obtain ⟨position, hposition, rfl⟩ := List.mem_map.mp ht
    rcases eosReduceBlock_eq_or gates guidedLogits codecTokens position with hempty | hsingle
    · rw [hempty] at hs
      exact absurd hs List.not_mem_nil
    · rw [hsingle, List.mem_singleton] at hs
      subst hs
      dsimp only at haddress
      rw [haddress] at hsingle
      refine absurd ⟨position % kLocalArCodebooks, Nat.mod_lt _ (by decide), ?_⟩ hnone
      rw [← haddress, Nat.div_add_mod', hsingle, haddress]
  · rintro ⟨codebook, hcodebook, hsingle⟩ ⟨-, hzero⟩
    have hvalue := hzero _ (List.mem_map.mpr ⟨_, List.mem_range.mpr
      (show frame * kLocalArCodebooks + codebook < kLocalArPositions from
        rowMajor_lt hframe hcodebook), rfl⟩)
      ⟨frame, 1#32⟩ (by rw [hsingle]; exact List.mem_singleton.mpr rfl) rfl
    exact absurd (show 1#32 = 0#32 from hvalue) (by decide)

/-- On the workspace of the projection that is what ends the audio at the position. -/
theorem eosReduceBlock_iff_positionEnds
    (hopen : (gates.unfinished || gates.finished || gates.forbidEos) = false)
    {workspace : ℕ → EosLogit L}
    (h : PhaseOutcome ((List.range (kLocalArPositions * kCompactEosVocabulary)).map
      (eosProjectionBlock gates projection)) workspace guidedLogits)
    {frame codebook : ℕ} (hframe : frame < kLocalArFrames)
    (hcodebook : codebook < kLocalArCodebooks) :
    eosReduceBlock gates guidedLogits codecTokens (frame * kLocalArCodebooks + codebook) =
      [⟨frame, 1#32⟩] ↔ PositionEnds projection codecTokens frame codebook := by
  have hposition : frame * kLocalArCodebooks + codebook < kLocalArPositions :=
    rowMajor_lt hframe hcodebook
  have hlast : kLocalArCodebookSize < kCompactEosVocabulary := Nat.lt_succ_self _
  rw [eosReduceBlock_eq_singleton_iff hopen frame hcodebook, floatExceeds_reduction_iff,
    guidedLogits_apply hopen h hposition hlast, if_pos rfl]
  refine or_congr_left (and_congr_right fun _ => forall₂_congr fun token htoken => ?_)
  rw [guidedLogits_apply hopen h hposition (Nat.lt_trans htoken hlast), if_neg htoken.ne]
  rfl

end Reduce

/-! ### The end frame -/

namespace LaunchLocalArEos

variable {gates : EosGates} {projection : ℕ → EosLogit L} {codecTokens : ℕ → ℤ} {endFrameIndex : ℤ}

/-- The launch leaves an index. -/
theorem exists_endFrameIndex (gates : EosGates) (projection : ℕ → EosLogit L)
    (codecTokens : ℕ → ℤ) :
    ∃ endFrameIndex, LaunchLocalArEos gates projection codecTokens endFrameIndex :=
  ⟨_, .run (phaseOutcome_sequential _ fun _ => none) ⟨_, List.Perm.refl _, rfl⟩⟩

/-- Without a gate the index is the smallest frame that ends the audio. -/
theorem open_spec (h : LaunchLocalArEos gates projection codecTokens endFrameIndex)
    (hopen : (gates.unfinished || gates.finished || gates.forbidEos) = false) :
    IsEndFrame (FrameEnds projection codecTokens) endFrameIndex := by
  obtain ⟨hprojection, hreduce⟩ := h
  refine (eosFinalize_isEndFrame _).congr fun frame hframe => ?_
  rw [frameEos_ne_zero_iff hreduce hframe, FrameEnds]
  exact exists_congr fun codebook => and_congr_right fun hcodebook =>
    eosReduceBlock_iff_positionEnds hopen hprojection hframe hcodebook

/-- A finished row ends with the first frame. -/
theorem finished_spec (h : LaunchLocalArEos gates projection codecTokens endFrameIndex)
    (hfinished : gates.finished = true) : endFrameIndex = 0 := by
  obtain ⟨-, hreduce⟩ := h
  rw [eosFinalize, if_pos]
  refine (frameEos_ne_zero_iff hreduce (by decide)).mpr ⟨0, by decide, ?_⟩
  rw [eosReduceBlock, hfinished, if_pos rfl]
  rfl

/-- A row that must go on does not end. -/
theorem closed_spec (h : LaunchLocalArEos gates projection codecTokens endFrameIndex)
    (hfinished : gates.finished = false)
    (hclosed : gates.unfinished = true ∨ gates.forbidEos = true) : endFrameIndex = -1 := by
  obtain ⟨-, hreduce⟩ := h
  have hzero (frame : ℕ) (hframe : frame < kLocalArFrames) : ¬ _ :=
    (frameEos_ne_zero_iff hreduce hframe).not.mpr fun ⟨codebook, _, hsingle⟩ => by
      rw [eosReduceBlock, hfinished, if_neg Bool.false_ne_true,
        if_pos (Bool.or_eq_true_iff.mpr hclosed)] at hsingle
      exact List.cons_ne_nil _ _ hsingle.symm
  rw [eosFinalize, if_neg (hzero 0 (by decide)), if_neg (hzero 1 (by decide))]

end LaunchLocalArEos

/-! ### The way of the tokens -/

def kSteadyFrames : ℕ := 8

/-- The store of a thread of `finalize_local_step_kernel` into `aggregate_codec_tokens`. -/
def finalizeLocalStepThread (stepCodecTokens : ℕ → ℤ) (frameOffset index : ℕ) : List (Store ℤ) :=
  if index < kLocalArCodebooks * kLocalArFrames then
    let codebook := index / kLocalArFrames
    let frame := index % kLocalArFrames
    [⟨codebook * kSteadyFrames + frameOffset + frame, stepCodecTokens index⟩]
  else []

/-- What `launch_finalize_local_step` requires of the offset. -/
def FrameOffsetValid (frameOffset : ℕ) : Prop :=
  frameOffset ≤ kSteadyFrames - kLocalArFrames ∧ frameOffset % kLocalArFrames = 0

/-- What the first thread of `finalize_local_step_kernel` writes beside the tokens. -/
structure LocalStepScalars where
  stepInvalidRows : ℤ
  stepEndFrameIndex : ℤ
  rngCounter : ℤ
  generationFinished : Bool

/-- The first thread of `finalize_local_step_kernel`. -/
def finalizeLocalStepScalars (canonicalInvalidRows canonicalEndFrameIndex updatedRngCounter : ℤ)
    (generationFinished : Bool) : LocalStepScalars where
  stepInvalidRows := canonicalInvalidRows
  stepEndFrameIndex := canonicalEndFrameIndex
  rngCounter := updatedRngCounter
  generationFinished :=
    if canonicalEndFrameIndex = 0 ∨ canonicalEndFrameIndex = 1 then true else generationFinished

/-- The store of a thread of `pack_codec_frames_kernel`. -/
def packCodecFramesThread (aggregateCodecTokens : ℕ → ℤ) (frameCount index : ℕ) :
    List (Store ℤ) :=
  if kLocalArCodebooks * frameCount ≤ index then []
  else
    let codebook := index / frameCount
    let frame := index % frameCount
    [⟨index, aggregateCodecTokens (codebook * kSteadyFrames + frame)⟩]

/-- The steps of a batch, finalized in turn at their offsets. -/
inductive AggregatedSteps : List (ℕ × (ℕ → ℤ)) → (ℕ → ℤ) → (ℕ → ℤ) → Prop
  | nil (aggregate : ℕ → ℤ) : AggregatedSteps [] aggregate aggregate
  | cons {frameOffset : ℕ} {stepCodecTokens aggregate aggregate' result : ℕ → ℤ}
      {steps : List (ℕ × (ℕ → ℤ))} : FrameOffsetValid frameOffset →
      PhaseOutcome ((List.range (kLocalArCodebooks * kLocalArFrames)).map
        (finalizeLocalStepThread stepCodecTokens frameOffset)) aggregate aggregate' →
      AggregatedSteps steps aggregate' result →
      AggregatedSteps ((frameOffset, stepCodecTokens) :: steps) aggregate result

/-- A finalized step fills its two frames and leaves the others. -/
theorem finalizeLocalStep_apply {stepCodecTokens aggregate aggregate' : ℕ → ℤ} {frameOffset : ℕ}
    (hoffset : FrameOffsetValid frameOffset)
    (h : PhaseOutcome ((List.range (kLocalArCodebooks * kLocalArFrames)).map
      (finalizeLocalStepThread stepCodecTokens frameOffset)) aggregate aggregate')
    {codebook column : ℕ} (hcodebook : codebook < kLocalArCodebooks)
    (hcolumn : column < kSteadyFrames) :
    aggregate' (codebook * kSteadyFrames + column) =
      if frameOffset ≤ column ∧ column < frameOffset + kLocalArFrames then
        stepCodecTokens (codebook * kLocalArFrames + (column - frameOffset))
      else aggregate (codebook * kSteadyFrames + column) := by
  have hfits : frameOffset ≤ 6 := hoffset.1
  have hthread (c frame : ℕ) (hc : c < kLocalArCodebooks) (hframe : frame < kLocalArFrames) :
      finalizeLocalStepThread stepCodecTokens frameOffset (c * kLocalArFrames + frame) =
        [⟨c * kSteadyFrames + (frameOffset + frame),
          stepCodecTokens (c * kLocalArFrames + frame)⟩] := by
    rw [finalizeLocalStepThread, if_pos (rowMajor_lt hc hframe)]
    simp only [rowMajor_div hframe, rowMajor_mod hframe, Nat.add_assoc]
  -- every thread is the one of a codebook and a frame
  have hthreads (t : List (Store ℤ)) : t ∈ (List.range (kLocalArCodebooks * kLocalArFrames)).map
      (finalizeLocalStepThread stepCodecTokens frameOffset) ↔
        ∃ c < kLocalArCodebooks, ∃ frame < kLocalArFrames,
          t = [⟨c * kSteadyFrames + (frameOffset + frame),
            stepCodecTokens (c * kLocalArFrames + frame)⟩] := by
    rw [List.mem_map]
    constructor
    · rintro ⟨index, hindex, rfl⟩
      rw [List.mem_range] at hindex
      refine ⟨index / kLocalArFrames, Nat.div_lt_of_lt_mul (Nat.mul_comm _ _ ▸ hindex),
        index % kLocalArFrames, Nat.mod_lt _ (by decide), ?_⟩
      rw [← hthread _ _ (Nat.div_lt_of_lt_mul (Nat.mul_comm _ _ ▸ hindex))
        (Nat.mod_lt _ (by decide)), Nat.div_add_mod']
    · rintro ⟨c, hc, frame, hframe, rfl⟩
      exact ⟨_, List.mem_range.mpr (rowMajor_lt hc hframe), hthread c frame hc hframe⟩
  have hinside (frame : ℕ) (hframe : frame < kLocalArFrames) :
      frameOffset + frame < kSteadyFrames :=
    Nat.lt_of_lt_of_le (Nat.add_lt_add_of_le_of_lt hfits hframe) (by decide)
  rw [h.apply_eq (f := fun a =>
    stepCodecTokens (a / kSteadyFrames * kLocalArFrames + (a % kSteadyFrames - frameOffset)))
    fun t ht s hs => ?_]
  · rw [rowMajor_div hcolumn, rowMajor_mod hcolumn]
    refine if_congr ⟨?_, fun hrange => ?_⟩ rfl rfl
    · rintro ⟨t, ht, s, hs, haddress⟩
      obtain ⟨c, -, frame, hframe, rfl⟩ := (hthreads t).mp ht
      rw [List.mem_singleton.mp hs] at haddress
      have hmod := congrArg (· % kSteadyFrames) haddress
      simp only [rowMajor_mod (hinside frame hframe), rowMajor_mod hcolumn] at hmod
      omega
    · refine ⟨_, (hthreads _).mpr ⟨codebook, hcodebook, column - frameOffset, by omega, rfl⟩, _,
        List.mem_singleton.mpr rfl, ?_⟩
      show codebook * kSteadyFrames + (frameOffset + (column - frameOffset)) = _
      rw [Nat.add_sub_cancel' hrange.1]
  · obtain ⟨c, -, frame, hframe, rfl⟩ := (hthreads t).mp ht
    rw [List.mem_singleton.mp hs]
    simp only [rowMajor_div (hinside frame hframe), rowMajor_mod (hinside frame hframe),
      Nat.add_sub_cancel_left]

/-- Valid offsets leave the frames of one another. -/
theorem FrameOffsetValid.eq_of_overlap {frameOffset other frame : ℕ}
    (h : FrameOffsetValid frameOffset) (hother : FrameOffsetValid other)
    (hframe : frame < kLocalArFrames) (hlow : other ≤ frameOffset + frame)
    (hhigh : frameOffset + frame < other + kLocalArFrames) : other = frameOffset := by
  have heven : frameOffset % 2 = 0 := h.2
  have hotherEven : other % 2 = 0 := hother.2
  have hsmall : frame < 2 := hframe
  have hnear : frameOffset + frame < other + 2 := hhigh
  omega

namespace AggregatedSteps

variable {steps : List (ℕ × (ℕ → ℤ))} {aggregate result stepCodecTokens : ℕ → ℤ}
  {frameOffset codebook frame : ℕ}

/-- The steps leave the frames of an offset that none of them has. -/
theorem apply_of_notMem (h : AggregatedSteps steps aggregate result)
    (hoffset : FrameOffsetValid frameOffset) (hmem : frameOffset ∉ steps.map Prod.fst)
    (hcodebook : codebook < kLocalArCodebooks) (hframe : frame < kLocalArFrames) :
    result (codebook * kSteadyFrames + (frameOffset + frame)) =
      aggregate (codebook * kSteadyFrames + (frameOffset + frame)) := by
  have hcolumn : frameOffset + frame < kSteadyFrames :=
    Nat.lt_of_lt_of_le (Nat.add_lt_add_of_le_of_lt hoffset.1 hframe) (by decide)
  induction h with
  | nil aggregate => rfl
  | cons hvalid hphase _ ih =>
    rw [List.map_cons, List.mem_cons, not_or] at hmem
    rw [ih hmem.2, finalizeLocalStep_apply hvalid hphase hcodebook hcolumn, if_neg]
    rintro ⟨hlow, hhigh⟩
    exact hmem.1 (hoffset.eq_of_overlap hvalid hframe hlow hhigh).symm

/-- The steps of a batch at distinct offsets stand beside each other. -/
theorem apply_of_mem (h : AggregatedSteps steps aggregate result)
    (hdistinct : (steps.map Prod.fst).Nodup) (hstep : (frameOffset, stepCodecTokens) ∈ steps)
    (hcodebook : codebook < kLocalArCodebooks) (hframe : frame < kLocalArFrames) :
    result (codebook * kSteadyFrames + (frameOffset + frame)) =
      stepCodecTokens (codebook * kLocalArFrames + frame) := by
  induction h with
  | nil aggregate => exact absurd hstep List.not_mem_nil
  | cons hvalid hphase hrest ih =>
    rw [List.map_cons, List.nodup_cons] at hdistinct
    rcases List.mem_cons.mp hstep with heq | hstep
    · obtain ⟨rfl, rfl⟩ := Prod.mk.inj heq
      have hcolumn : frameOffset + frame < kSteadyFrames :=
        Nat.lt_of_lt_of_le (Nat.add_lt_add_of_le_of_lt hvalid.1 hframe) (by decide)
      rw [hrest.apply_of_notMem hvalid hdistinct.1 hcodebook hframe,
        finalizeLocalStep_apply hvalid hphase hcodebook hcolumn,
        if_pos ⟨Nat.le_add_right _ _, Nat.add_lt_add_left hframe _⟩, Nat.add_sub_cancel_left]
    · exact ih hdistinct.2 hstep

/-- The codec gets the token of a step at its codebook and behind the frames of earlier steps. -/
theorem packCodecFrames_apply (h : AggregatedSteps steps aggregate result)
    (hdistinct : (steps.map Prod.fst).Nodup) (hstep : (frameOffset, stepCodecTokens) ∈ steps)
    {frameCount : ℕ} {memory packedCodecTokens : ℕ → ℤ}
    (hpack : PhaseOutcome ((List.range (kLocalArCodebooks * frameCount)).map
      (packCodecFramesThread result frameCount)) memory packedCodecTokens)
    (hcodebook : codebook < kLocalArCodebooks) (hframe : frame < kLocalArFrames)
    (hcount : frameOffset + frame < frameCount) :
    packedCodecTokens (codebook * frameCount + (frameOffset + frame)) =
      stepCodecTokens (codebook * kLocalArFrames + frame) := by
  rw [← h.apply_of_mem hdistinct hstep hcodebook hframe]
  refine hpack.rowMajor_apply (f := fun c column => result (c * kSteadyFrames + column))
    (fun t ht s hs => ?_) hcount ?_
  · obtain ⟨index, hindex, rfl⟩ := List.mem_map.mp ht
    rw [packCodecFramesThread, if_neg (Nat.not_le.mpr (List.mem_range.mp hindex)),
      List.mem_singleton] at hs
    refine ⟨index / frameCount, index % frameCount,
      Nat.mod_lt _ (Nat.zero_lt_of_lt hcount), ?_⟩
    rw [hs, Nat.div_add_mod']
  · have hindex := rowMajor_lt hcodebook hcount
    refine ⟨_, List.mem_map.mpr ⟨_, List.mem_range.mpr hindex, rfl⟩, ?_⟩
    rw [packCodecFramesThread, if_neg (Nat.not_le.mpr hindex)]
    exact ⟨_, List.mem_singleton.mpr rfl, rfl⟩

end AggregatedSteps

/-- The generation finishes with the step whose index names a frame, which without a gate is the one
with a frame that ends. -/
theorem LaunchLocalArEos.generationFinished_iff {gates : EosGates} {projection : ℕ → EosLogit L}
    {codecTokens : ℕ → ℤ} {endFrameIndex : ℤ}
    (h : LaunchLocalArEos gates projection codecTokens endFrameIndex)
    (hopen : (gates.unfinished || gates.finished || gates.forbidEos) = false)
    (canonicalInvalidRows updatedRngCounter : ℤ) (generationFinished : Bool) :
    (finalizeLocalStepScalars canonicalInvalidRows endFrameIndex updatedRngCounter
        generationFinished).generationFinished = true ↔
      generationFinished = true ∨
        ∃ frame < kLocalArFrames, FrameEnds projection codecTokens frame := by
  have hnamed : endFrameIndex = 0 ∨ endFrameIndex = 1 ↔
      ∃ frame < kLocalArFrames, FrameEnds projection codecTokens frame := by
    rcases h.open_spec hopen with ⟨rfl, hnone⟩ | ⟨frame, hframe, rfl, hends, -⟩
    · refine iff_of_false (by decide) ?_
      rintro ⟨frame, hframe, hends⟩
      exact hnone frame hframe hends
    · have hsmall : frame < 2 := hframe
      exact iff_of_true (by omega) ⟨frame, hframe, hends⟩
  rw [finalizeLocalStepScalars]
  dsimp only
  split_ifs with hindex
  · exact iff_of_true rfl (Or.inr (hnamed.mp hindex))
  · rw [or_iff_left (hnamed.not.mp hindex)]

/-! ### The end and the sampling -/

/-- The gates that a sampling call sees. -/
def SamplingScalars.gates (scalars : SamplingScalars) : EosGates :=
  ⟨scalars.unfinished, scalars.finished, scalars.forbidEos⟩

/-- The end frame. For logits, numbers or not, tokens of any kind, and gates that the sampling
kernel does not reject, the launch leaves an index, and it leaves: without a gate the smallest frame
with a position that ends the audio, or minus one, and where the codec tokens' logits are numbers
the end exceeds them all there; zero for a finished row; minus one for an unfinished row or a
forbidden end, and then no sampling call behind the same gates samples the end. The codec gets each
token at the codebook and frame that the reduction counts it for. -/
theorem eos_agrees_with_sampling {K β : Type*} [Field K] [LinearOrder K] (gates : EosGates)
    (projection : ℕ → EosLogit L) (codecTokens : ℕ → ℤ) :
    (∃ endFrameIndex, LaunchLocalArEos gates projection codecTokens endFrameIndex) ∧
      (¬ gates.Rejected →
        ∀ endFrameIndex, LaunchLocalArEos gates projection codecTokens endFrameIndex →
          ((gates.unfinished || gates.finished || gates.forbidEos) = false →
            IsEndFrame (FrameEnds projection codecTokens) endFrameIndex ∧
              ((∀ frame < kLocalArFrames, ∀ codebook < kLocalArCodebooks,
                  ∀ token < kLocalArCodebookSize,
                    positionLogit projection frame codebook token ≠ none) →
                IsEndFrame (FrameExceeds projection codecTokens) endFrameIndex)) ∧
          (gates.finished = true → endFrameIndex = 0) ∧
          (gates.unfinished = true ∨ gates.forbidEos = true → endFrameIndex = -1 ∧
            ∀ (inputs : SamplingInputs K β) noise, inputs.scalars.gates = gates →
              (samplingKernel inputs noise).sampledToken ≠ kLocalArAudioEosId)) ∧
      ∀ steps aggregate result, AggregatedSteps steps aggregate result →
        (steps.map Prod.fst).Nodup →
        ∀ frameOffset, (frameOffset, codecTokens) ∈ steps →
        ∀ frameCount memory packedCodecTokens,
          PhaseOutcome ((List.range (kLocalArCodebooks * frameCount)).map
            (packCodecFramesThread result frameCount)) memory packedCodecTokens →
          ∀ codebook < kLocalArCodebooks, ∀ frame < kLocalArFrames,
            frameOffset + frame < frameCount →
              packedCodecTokens (codebook * frameCount + (frameOffset + frame)) =
                codecTokens (codebook * kLocalArFrames + frame) := by
  refine ⟨LaunchLocalArEos.exists_endFrameIndex gates projection codecTokens, ?_, ?_⟩
  · intro haccepted endFrameIndex h
    refine ⟨fun hopen => ⟨h.open_spec hopen, fun hnumbers => ?_⟩, h.finished_spec,
      fun hclosed => ?_⟩
    · exact (h.open_spec hopen).congr fun frame hframe =>
        frameEnds_iff_frameExceeds (hnumbers frame hframe)
    rw [EosGates.Rejected, not_or] at haccepted
    have hfinished : gates.finished = false := by
      refine Bool.eq_false_iff.mpr fun hfinished => ?_
      exact hclosed.elim (fun hopen => haccepted.1 ⟨hopen, hfinished⟩)
        fun hforbid => haccepted.2 ⟨hfinished, hforbid⟩
    refine ⟨h.closed_spec hfinished hclosed, ?_⟩
    rintro inputs noise rfl
    exact samplingKernel_ne_eos inputs noise haccepted hclosed
  · intro steps aggregate result hsteps hdistinct frameOffset hstep frameCount memory
      packedCodecTokens hpack codebook hcodebook frame hframe hcount
    exact hsteps.packCodecFrames_apply hdistinct hstep hpack hcodebook hframe hcount

/-- Logits of which the first is not a number; the end of the audio exceeds all others of the first
position, and no other one of any position behind. -/
def nanProjection (index : ℕ) : EosLogit ℕ :=
  if index = 0 then none else if index = kLocalArAudioEosId then some 1 else some 0

/-- The kernels report the first frame for them, although the end of the audio does not exceed every
codec token's logit at any position, and no end was sampled. -/
theorem not_frameExceeds_nan :
    ¬ ∀ endFrameIndex, LaunchLocalArEos ⟨false, false, false⟩ nanProjection (fun _ => 0)
      endFrameIndex → IsEndFrame (FrameExceeds nanProjection fun _ => 0) endFrameIndex := by
  intro hclaim
  obtain ⟨endFrameIndex, hlaunch⟩ := LaunchLocalArEos.exists_endFrameIndex ⟨false, false, false⟩
    nanProjection fun _ => 0
  have hends : FrameEnds nanProjection (fun _ => 0) 0 := by
    refine ⟨0, by decide, Or.inl ⟨by decide, fun token htoken hnumber => ?_⟩⟩
    have hsmall : token < 2016 := htoken
    have hlogit : positionLogit nanProjection 0 0 token =
        if token = 0 then none else if token = 2017 then some 1 else some 0 := by
      rw [positionLogit, Nat.zero_mul, Nat.zero_add, Nat.zero_mul, Nat.zero_add]
      rfl
    rw [hlogit] at hnumber ⊢
    split_ifs at hnumber ⊢ with hfirst hlast
    · exact absurd rfl hnumber
    · omega
    · decide
  have hindex : endFrameIndex = 0 := by
    rcases hlaunch.open_spec rfl with ⟨-, hnone⟩ | ⟨frame, -, hindex, -, hfirst⟩
    · exact absurd hends (hnone 0 (by decide))
    · rcases Nat.eq_zero_or_pos frame with rfl | hpositive
      · exact hindex
      · exact absurd hends (hfirst 0 hpositive)
  have hnever : ¬ FrameExceeds nanProjection (fun _ => 0) 0 := by
    rintro ⟨codebook, hcodebook, hexceeds | hsampled⟩
    · have hfirst := hexceeds 0 (by decide)
      rcases Nat.eq_zero_or_pos codebook with rfl | hpositive
      · exact absurd hfirst (by decide)
      · -- at the positions behind the first one all logits are equal
        have hzero (token : ℕ) : positionLogit nanProjection 0 codebook token = some 0 := by
          have hindex : 2024 ≤
              (0 * kLocalArCodebooks + codebook) * kLocalArVocabularySize + token := by
            rw [kLocalArCodebooks, kLocalArVocabularySize]
            omega
          rw [positionLogit, nanProjection, if_neg (by omega),
            if_neg (by rw [kLocalArAudioEosId]; omega)]
        rw [hzero, hzero] at hfirst
        exact absurd hfirst (by decide)
    · cases hsampled
  rcases hclaim endFrameIndex hlaunch with ⟨hnone, -⟩ | ⟨frame, -, hframe, hexceeds, -⟩
  · rw [hindex] at hnone
    cases hnone
  · obtain rfl : frame = 0 := Int.natCast_eq_zero.mp (hframe.symm.trans hindex)
    exact hnever hexceeds

end MagpieTts.Plugins
