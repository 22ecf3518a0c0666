import MagpieTts.Export.NanoCodecStreaming
import MagpieTts.Runtime.ListenedRuns

/-!
# The audio of a request

The engines of the codec are compiled from the exported decoder. When they compute it, on its three
shapes, what a consumer reads in chunks is what the exported decoder makes of the whole utterance in
one call: the frames of the recurrence in front of its end of speech.

## Main definitions

* `ComputesNanoCodec`: the engines compute the exported decoder.
* `Recurrence.codecFrames`: the frames of the stream.

## Main results

* `ComputesNanoCodec.streamPcm_eq_layer`: the samples of a stream against one call of the decoder.
* `heard_prefix_forward`, `heard_eq_forward`: what a consumer has read.
-/

namespace MagpieTts.Runtime

open MagpieTts.Library MagpieTts.Plugins MagpieTts.Export Pipeline

variable {types : SessionTypes}

/-! ### Frames as tensors -/

/-- The tensor of a list of frames, with the frames of a codebook one behind the other. -/
def frameTensor (frames : List CodecFrame) : List ℤ :=
  (List.finRange 8).flatMap fun codebook => frames.map fun frame => (frame codebook : ℤ)

/-- A tensor of rows is read row by row. -/
theorem boundTensor_rows {β : Type} (rows columns : ℕ) (entry : ℕ → ℕ → β) :
    boundTensor (rows * columns) (fun index => entry (index / columns) (index % columns)) =
      (List.range rows).flatMap fun row => (List.range columns).map (entry row) := by
  induction rows with
  | zero => rw [Nat.zero_mul]; rfl
  | succ rows ih =>
    rw [boundTensor, Nat.succ_mul, List.range_add, List.map_append, List.range_succ,
      List.flatMap_append, List.flatMap_singleton, ← ih, boundTensor, List.map_map]
    refine congrArg (_ ++ ·) (List.map_congr_left fun column hcolumn => ?_)
    have hlt : column < columns := List.mem_range.mp hcolumn
    rw [Function.comp_apply, Nat.mul_comm, Nat.mul_add_div (Nat.zero_lt_of_lt hlt),
      Nat.div_eq_of_lt hlt, Nat.add_zero, Nat.mul_add_mod, Nat.mod_eq_of_lt hlt]

/-- The frames of the stream from `first` on. -/
def Recurrence.codecFrames (recurrence : Recurrence types) (first count : ℕ) : List CodecFrame :=
  (List.range count).map fun frame codebook =>
    (recurrence.codecFrame (first + frame) codebook).toNat

section Frames

variable (recurrence : Recurrence types)

theorem Recurrence.length_codecFrames (first count : ℕ) :
    (recurrence.codecFrames first count).length = count := by
  rw [codecFrames, List.length_map, List.length_range]

theorem Recurrence.codecFrames_ne_nil (first : ℕ) {count : ℕ} (hcount : 0 < count) :
    recurrence.codecFrames first count ≠ [] := by
  rw [← List.length_pos_iff, recurrence.length_codecFrames]
  exact hcount

theorem Recurrence.codecFrames_add (first count more : ℕ) :
    recurrence.codecFrames first (count + more) =
      recurrence.codecFrames first count ++ recurrence.codecFrames (first + count) more := by
  rw [codecFrames, List.range_add, List.map_append, List.map_map]
  refine congrArg (_ ++ ·) (List.map_congr_left fun frame _ => ?_)
  rw [Function.comp_apply, Nat.add_assoc]

/-- The Local AR engine returns class numbers. -/
def SessionEngines.SpeaksClasses (engines : SessionEngines types) : Prop :=
  ∀ inputs, ∀ index < kLocalArCodebooks * kLocalArFrames,
    0 ≤ (engines.localAr inputs).codecTokens index

/-- The tensors of the codec are those of the frames. -/
theorem Recurrence.codecTokens_eq (hspeaks : recurrence.engines.SpeaksClasses)
    (first count : ℕ) :
    recurrence.codecTokens first count = frameTensor (recurrence.codecFrames first count) := by
  have hclass : ∀ frame, ∀ codebook < 8, 0 ≤ recurrence.codecFrame frame codebook := by
    intro frame codebook hcodebook
    have hmod : frame % kLocalArFrames < kLocalArFrames := Nat.mod_lt _ (by decide)
    refine hspeaks _ _ ?_
    simp only [kLocalArCodebooks, kLocalArFrames] at hmod ⊢
    omega
  rw [codecTokens, boundTensor_rows _ _ fun codebook frame =>
    recurrence.codecFrame (first + frame) codebook, frameTensor, kLocalArCodebooks,
    ← List.map_coe_finRange_eq_range (n := 8), List.flatMap_map]
  refine List.flatMap_congr fun codebook _ => ?_
  rw [codecFrames, List.map_map]
  refine List.map_congr_left fun frame _ => ?_
  exact (Int.toNat_of_nonneg (hclass _ codebook codebook.2)).symm

end Frames

/-! ### The engines of the codec -/

/-- The engines of the codec compute the exported decoder on their shapes: wherever it returns, the
front of the samples, the valid length and the states are its own. -/
structure ComputesNanoCodec [Field types.Sample] (engines : SessionEngines types)
    (codec : ExplicitStateNanoCodec types.Sample)
    (readStates : types.CodecStates → List (Signal types.Sample)) : Prop where
  initial : ∀ frames result, frames.length = 4 → codec.forward true frames [] = .ok result →
    result = (boundTensor (frames.length * 1024)
        (engines.nanocodecInitial (frameTensor frames)).pcm,
      frames.length * samplesPerFrame,
      readStates (engines.nanocodecInitial (frameTensor frames)).states)
  steady : ∀ frames states result, frames.length = 8 →
    codec.forward false frames (readStates states) = .ok result →
    result = (boundTensor (frames.length * 1024)
        (engines.nanocodecSteady (frameTensor frames) states).pcm,
      frames.length * samplesPerFrame,
      readStates (engines.nanocodecSteady (frameTensor frames) states).states)
  tail : ∀ frames states result, 0 < frames.length → frames.length ≤ 8 →
    codec.forward false frames (readStates states) = .ok result →
    result = (boundTensor (frames.length * 1024)
        (engines.nanocodecTail (frameTensor frames) states).pcm,
      frames.length * samplesPerFrame,
      readStates (engines.nanocodecTail (frameTensor frames) states).states)

/-- The zeros from which the initial route starts. -/
def zeroStates {K : Type} [Field K] (codec : ExplicitStateNanoCodec K) : States K :=
  fun name => List.replicate (codec.decoder.stateSamples name) 0

theorem hasSamples_zeroStates {K : Type} [Field K] (codec : ExplicitStateNanoCodec K)
    (name : StateName) :
    HasSamples codec.decoder.stateSamples name (zeroStates codec name) :=
  List.length_replicate

section Codec

variable [Field types.Sample] {recurrence : Recurrence types}
  {codec : ExplicitStateNanoCodec types.Sample}
  {readStates : types.CodecStates → List (Signal types.Sample)}

/-- The states in front of a chunk, on the whole utterance. -/
def statesBefore (recurrence : Recurrence types) (codec : ExplicitStateNanoCodec types.Sample) :
    ℕ → States types.Sample
  | 0 => zeroStates codec
  | number + 1 => codec.returnedStates (zeroStates codec)
      (recurrence.codecFrames 0 (Recurrence.chunkStart (number + 1)))

theorem hasSamples_statesBefore (number : ℕ) (name : StateName) :
    HasSamples codec.decoder.stateSamples name (statesBefore recurrence codec number name) := by
  cases number with
  | zero => exact hasSamples_zeroStates codec name
  | succ number =>
    exact ExplicitStateNanoCodec.hasSamples_returnedStates (hasSamples_zeroStates codec)
      (recurrence.codecFrames_ne_nil 0 (Nat.add_pos_left (by decide) _)) name

/-- The stateful route on some frames behind the open chunks. -/
theorem forward_codecFrames (recurrence : Recurrence types)
    (codec : ExplicitStateNanoCodec types.Sample) (number : ℕ) {frameCount : ℕ}
    (hpositive : 0 < frameCount) :
    codec.forward false (recurrence.codecFrames (Recurrence.chunkStart number) frameCount)
        (stateNames.map (statesBefore recurrence codec number)) =
      .ok ((codec.layer (statesBefore recurrence codec number)
          (recurrence.codecFrames (Recurrence.chunkStart number) frameCount)).1,
        (recurrence.codecFrames (Recurrence.chunkStart number) frameCount).length *
          samplesPerFrame,
        stateNames.map (codec.returnedStates (statesBefore recurrence codec number)
          (recurrence.codecFrames (Recurrence.chunkStart number) frameCount))) :=
  ExplicitStateNanoCodec.forward_stateful (hasSamples_statesBefore number)
    (recurrence.codecFrames_ne_nil _ hpositive)

/-- The initial route on the first frames. -/
theorem forward_first (recurrence : Recurrence types)
    (codec : ExplicitStateNanoCodec types.Sample) {count : ℕ} (hpositive : 0 < count) :
    codec.forward true (recurrence.codecFrames 0 count) [] =
      .ok ((codec.layer (zeroStates codec) (recurrence.codecFrames 0 count)).1,
        count * samplesPerFrame,
        stateNames.map (codec.returnedStates (zeroStates codec)
          (recurrence.codecFrames 0 count))) := by
  have hforward := @ExplicitStateNanoCodec.forward_initial _ _ codec _
    (recurrence.codecFrames_ne_nil 0 hpositive)
  rw [recurrence.length_codecFrames] at hforward
  exact hforward

/-- The decoder on the whole utterance, continued by some frames. -/
theorem layer_codecFrames (recurrence : Recurrence types)
    (codec : ExplicitStateNanoCodec types.Sample) (number : ℕ) {frameCount : ℕ}
    (hpositive : 0 < frameCount) :
    (codec.layer (zeroStates codec)
        (recurrence.codecFrames 0 (Recurrence.chunkStart number + frameCount))).1 =
      (if number = 0 then [] else (codec.layer (zeroStates codec)
        (recurrence.codecFrames 0 (Recurrence.chunkStart number))).1) ++
        (codec.layer (statesBefore recurrence codec number)
          (recurrence.codecFrames (Recurrence.chunkStart number) frameCount)).1 ∧
    codec.returnedStates (zeroStates codec)
        (recurrence.codecFrames 0 (Recurrence.chunkStart number + frameCount)) =
      codec.returnedStates (statesBefore recurrence codec number)
        (recurrence.codecFrames (Recurrence.chunkStart number) frameCount) := by
  cases number with
  | zero =>
    rw [if_pos rfl, Recurrence.chunkStart, Nat.zero_add]
    exact ⟨rfl, rfl⟩
  | succ number =>
    rw [if_neg (Nat.succ_ne_zero number), recurrence.codecFrames_add, Nat.zero_add]
    exact ExplicitStateNanoCodec.layer_append (hasSamples_zeroStates codec)
      (recurrence.codecFrames_ne_nil 0 (Nat.add_pos_left (by decide) _))
      ⟨_, recurrence.codecFrames_ne_nil _ hpositive⟩

variable (hcomputes : ComputesNanoCodec recurrence.engines codec readStates)
  (hspeaks : recurrence.engines.SpeaksClasses)

include hcomputes hspeaks

/-- The first chunk. -/
theorem ComputesNanoCodec.initial_eq (final : Bool) :
    recurrence.chunkPcm 0 4 final =
        (codec.layer (zeroStates codec) (recurrence.codecFrames 0 4)).1 ∧
      readStates (recurrence.codecStates 0) =
        stateNames.map (codec.returnedStates (zeroStates codec) (recurrence.codecFrames 0 4)) := by
  have hlength := recurrence.length_codecFrames 0 4
  have hforward := forward_first recurrence codec (show 0 < 4 by decide)
  have hresult := hcomputes.initial _ _ hlength hforward
  rw [Prod.mk.injEq, Prod.mk.injEq, hlength, ← recurrence.codecTokens_eq hspeaks] at hresult
  exact ⟨hresult.1.symm, hresult.2.2.symm⟩

/-- The states behind the open chunks. -/
theorem ComputesNanoCodec.codecStates_eq (number : ℕ) :
    readStates (recurrence.codecStates number) =
      stateNames.map (statesBefore recurrence codec (number + 1)) := by
  induction number with
  | zero => exact (hcomputes.initial_eq hspeaks false).2
  | succ number ih =>
    have hlength := recurrence.length_codecFrames (Recurrence.chunkStart (number + 1)) 8
    have hforward := forward_codecFrames recurrence codec (number + 1) (show 0 < 8 by decide)
    rw [← ih] at hforward
    have hresult := hcomputes.steady _ _ _ hlength hforward
    rw [Prod.mk.injEq, Prod.mk.injEq, hlength, ← recurrence.codecTokens_eq hspeaks] at hresult
    have hstates := (layer_codecFrames recurrence codec (number + 1) (show 0 < 8 by decide)).2
    rw [statesBefore, show Recurrence.chunkStart (number + 1 + 1) =
      Recurrence.chunkStart (number + 1) + 8 by simp only [Recurrence.chunkStart]; omega, hstates]
    exact hresult.2.2.symm

/-- The samples of a chunk. -/
theorem ComputesNanoCodec.chunkPcm_eq (number : ℕ) {frameCount : ℕ} (final : Bool)
    (hpositive : 0 < frameCount) (hle : frameCount ≤ 8) (hfirst : number = 0 → frameCount = 4)
    (hsteady : 0 < number → final = false → frameCount = 8) :
    recurrence.chunkPcm number frameCount final =
      (codec.layer (statesBefore recurrence codec number)
        (recurrence.codecFrames (Recurrence.chunkStart number) frameCount)).1 := by
  cases number with
  | zero =>
    rw [hfirst rfl]
    exact (hcomputes.initial_eq hspeaks final).1
  | succ number =>
    have hlength := recurrence.length_codecFrames (Recurrence.chunkStart (number + 1)) frameCount
    have hforward := forward_codecFrames recurrence codec (number + 1) hpositive
    rw [← hcomputes.codecStates_eq hspeaks number] at hforward
    cases final with
    | false =>
      have hresult := hcomputes.steady _ _ _
        (hlength.trans (hsteady (Nat.succ_pos number) rfl)) hforward
      rw [Prod.mk.injEq, hlength, ← recurrence.codecTokens_eq hspeaks] at hresult
      exact hresult.1.symm
    | true =>
      have hresult := hcomputes.tail _ _ _ (hlength.symm ▸ hpositive) (hlength.symm ▸ hle) hforward
      rw [Prod.mk.injEq, hlength, ← recurrence.codecTokens_eq hspeaks] at hresult
      exact hresult.1.symm

/-- The open chunks of a stream. By induction on the chunks from the end. -/
theorem ComputesNanoCodec.streamPcm_open (chunks : List AudioChunk)
    (hchunks : ∀ k chunk, chunks[k]? = some chunk →
      chunk.final = false ∧ chunk.codecFrameCount = if k = 0 then 4 else 8) :
    publishedFrames chunks = Recurrence.chunkStart chunks.length ∧
      recurrence.streamPcm 0 chunks = if chunks.length = 0 then [] else
        (codec.layer (zeroStates codec)
          (recurrence.codecFrames 0 (Recurrence.chunkStart chunks.length))).1 := by
  induction chunks using List.reverseRecOn with
  | nil => exact ⟨rfl, rfl⟩
  | append_singleton earlier last ih =>
    obtain ⟨hpublished, hstream⟩ := ih fun k chunk hk => hchunks k chunk (by
      rw [List.getElem?_append_left (List.getElem?_eq_some_iff.mp hk).1]
      exact hk)
    obtain ⟨hopen, hframes⟩ := hchunks earlier.length last List.getElem?_concat_length
    have hnext : Recurrence.chunkStart (earlier ++ [last]).length =
        Recurrence.chunkStart earlier.length + last.codecFrameCount := by
      rw [hframes, List.length_append, List.length_singleton]
      cases earlier.length with
      | zero => rfl
      | succ number =>
        simp only [Recurrence.chunkStart, Nat.add_eq_zero_iff, one_ne_zero, and_false, if_false]
        omega
    have hpositive : 0 < last.codecFrameCount := by
      rw [hframes]
      split_ifs <;> decide
    have hlast := hcomputes.chunkPcm_eq hspeaks earlier.length last.final hpositive
      (by rw [hframes]; split_ifs <;> decide) (fun hzero => by rw [hframes, if_pos hzero])
      (fun hlength _ => by rw [hframes, if_neg (Nat.pos_iff_ne_zero.mp hlength)])
    refine ⟨?_, ?_⟩
    · rw [publishedFrames, List.map_append, List.sum_append, List.map_singleton,
        List.sum_singleton, ← publishedFrames, hpublished, hnext]
    · rw [recurrence.streamPcm_append, recurrence.streamPcm_singleton, Nat.zero_add, hstream,
        hlast, hnext, (layer_codecFrames recurrence codec earlier.length hpositive).1,
        List.length_append, List.length_singleton, if_neg (Nat.succ_ne_zero _)]

/-- **The samples of a stream are those of one call.** The chunks of a stream with at least one
chunk have the samples that the decoder returns for all their frames at once. -/
theorem ComputesNanoCodec.streamPcm_eq_layer {accepted : List AudioChunk} (hne : accepted ≠ [])
    (hcontiguous : ∀ k chunk, accepted[k]? = some chunk →
      RequestHistory.ContinuesStream accepted k chunk) :
    recurrence.streamPcm 0 accepted = (codec.layer (zeroStates codec)
      (recurrence.codecFrames 0 (publishedFrames accepted))).1 := by
  obtain ⟨earlier, last, rfl⟩ : ∃ earlier last, accepted = earlier ++ [last] :=
    ⟨_, _, (List.dropLast_concat_getLast hne).symm⟩
  have hearlier : ∀ k chunk, earlier[k]? = some chunk →
      chunk.final = false ∧ chunk.codecFrameCount = if k = 0 then 4 else 8 := by
    intro k chunk hk
    have hlt := (List.getElem?_eq_some_iff.mp hk).1
    have hcontinues := hcontiguous k chunk (by rw [List.getElem?_append_left hlt]; exact hk)
    have hopen : chunk.final = false := by
      by_contra hfinal
      have hend := hcontinues.final_last (Bool.not_eq_false _ ▸ hfinal)
      rw [List.length_append, List.length_singleton] at hend
      omega
    refine ⟨hopen, ?_⟩
    split_ifs with hzero
    · exact hcontinues.first_frames hzero
    · exact hcontinues.steady_frames (Nat.pos_of_ne_zero hzero) hopen
  obtain ⟨hpublished, hstream⟩ := hcomputes.streamPcm_open hspeaks earlier hearlier
  have hcontinues := hcontiguous earlier.length last List.getElem?_concat_length
  have htotal : publishedFrames (earlier ++ [last]) =
      Recurrence.chunkStart earlier.length + last.codecFrameCount := by
    rw [publishedFrames, List.map_append, List.sum_append, List.map_singleton, List.sum_singleton,
      ← publishedFrames, hpublished]
  rw [recurrence.streamPcm_append, recurrence.streamPcm_singleton, Nat.zero_add, hstream, htotal]
  rcases Nat.eq_zero_or_pos last.codecFrameCount with hzero | hpositive
  · have hlength : earlier.length ≠ 0 := by
      intro hlength
      rw [hcontinues.first_frames hlength] at hzero
      cases hzero
    rw [if_neg hlength, hzero, Recurrence.chunkPcm, Nat.zero_mul, Nat.add_zero]
    exact List.append_nil _
  · rw [hcomputes.chunkPcm_eq hspeaks earlier.length last.final hpositive hcontinues.tail_frames
      hcontinues.first_frames hcontinues.steady_frames,
      (layer_codecFrames recurrence codec earlier.length hpositive).1]

end Codec

/-! ### A decoder that smooths -/

section Smoothing

/-- A convolution that sums three time steps of a channel. -/
def smoothingConv : HistoryConv ℚ where
  conv :=
    { inChannels := 8
      kernelSize := 3
      stride := 1
      padding := 0
      dilation := 1
      weight := fun output input _ => if output = input then 1 else 0
      bias := none }
  paddingTotal := 2
  extraPadMode := "constant"
  activation := id
  history := 2
  historySamples_eq := rfl

/-- An upsampling that adds each time step to eight behind it, four of which are those of the next.
-/
def overlappingConv : OverlapConv ℚ where
  conv :=
    { inChannels := 8
      kernelSize := 8
      stride := 4
      padding := 0
      outputPadding := 0
      dilation := 1
      weight := fun input output _ => if input = output then 1 else 0
      bias := none }
  paddingLeft := 0
  paddingRight := 4
  activation := id
  overlap := 4
  overlapSamples_eq := rfl
  stride_pos := Nat.succ_pos 3

/-- A decoder whose samples are sums of tokens of their frame and of those before it. -/
def smoothingCodec : ExplicitStateNanoCodec ℚ where
  decoder :=
    { preConv := smoothingConv
      stages := fun _ =>
        { activation := id
          upsampleConv := overlappingConv
          configuredRate := 4
          stride_eq := rfl
          residualBlocks := fun _ _ => ⟨id, smoothingConv, id, smoothingConv⟩ }
      postActivation := id
      postConv := smoothingConv
      outActivation := fun step _ => ∑ channel ∈ Finset.range 8, step channel }
  codebookTable := { dimension := 1, entry := fun _ token _ => token }

/-- None of its states is empty. -/
theorem stateSamples_smoothingCodec (name : StateName) :
    0 < smoothingCodec.decoder.stateSamples name := by
  cases name with
  | pendingOverlap stage => exact Nat.succ_pos 3
  | residualHistory stage branch block convolution =>
    cases convolution <;> exact Nat.succ_pos 1
  | _ => exact Nat.succ_pos 1

/-- The samples of a call for each frame. -/
theorem length_layer {K : Type} [Field K] (codec : ExplicitStateNanoCodec K) {states : States K}
    (hstates : ∀ name, HasSamples codec.decoder.stateSamples name (states name))
    {frames : List CodecFrame} (hframes : frames ≠ []) :
    (codec.layer states frames).1.length =
      ((List.finRange 5).map fun index =>
        (codec.decoder.stages index).upsampleConv.conv.stride).prod * frames.length := by
  have hstages : Streams (HasSamples codec.decoder.stateSamples) _ _ _ := Streams.seqLayers
    ((List.finRange 5).map fun index =>
      (stageLayer (codec.decoder.stages index) index, stageStateNames index,
        1 * (codec.decoder.stages index).upsampleConv.conv.stride * 1))
    fun layer hlayer => by
      obtain ⟨index, -, rfl⟩ := List.mem_map.mp hlayer
      exact streams_stageLayer (codec.decoder.stages index) index rfl
        (codec.decoder.blocksMatch index)
  have hpre : Streams (HasSamples codec.decoder.stateSamples) _ _ _ :=
    streams_causalConv codec.decoder.preConv .preConvHistory rfl
  have hpost : Streams (HasSamples codec.decoder.stateSamples) _ _ _ :=
    streams_causalConv codec.decoder.postConv .postConvHistory rfl
  have h := (((streams_map (dequantizeFrame codec.codebookTable)).seq hpre).seq hstages).seq
    ((streams_map codec.decoder.postActivation).seq (hpost.seq
      (streams_map fun step => codec.decoder.outActivation step 0)))
  have hlength := h.length_eq states frames hstates hframes
  simp only [List.map_map, Nat.one_mul, Nat.mul_one] at hlength
  exact hlength

theorem boundTensor_getD {β : Type} (values : List β) (default : β) :
    boundTensor values.length (fun index => values.getD index default) = values := by
  refine List.ext_getElem (by rw [boundTensor, List.length_map, List.length_range])
    fun index hindex hvalues => ?_
  simp only [boundTensor, List.getElem_map, List.getElem_range, List.getD_eq_getElem _ _ hvalues]

/-- The frames of a tensor. -/
def framesOf (codecTokens : List ℤ) : List CodecFrame :=
  let count := codecTokens.length / 8
  (List.range count).map fun frame codebook =>
    (codecTokens.getD (codebook * count + frame) 0).toNat

theorem frameTensor_eq_boundTensor (frames : List CodecFrame) :
    frameTensor frames = boundTensor (8 * frames.length) fun index =>
      (frames.getD (index % frames.length) 0 (Fin.ofNat 8 (index / frames.length)) : ℤ) := by
  rw [boundTensor_rows 8 frames.length fun codebook frame =>
    (frames.getD frame 0 (Fin.ofNat 8 codebook) : ℤ), frameTensor,
    ← List.map_coe_finRange_eq_range (n := 8), List.flatMap_map]
  refine List.flatMap_congr fun codebook _ => ?_
  conv_lhs => rw [← boundTensor_getD frames 0, boundTensor, List.map_map]
  refine List.map_congr_left fun frame _ => ?_
  rw [Function.comp_apply, Fin.ofNat_val_eq_self]

theorem framesOf_frameTensor (frames : List CodecFrame) :
    framesOf (frameTensor frames) = frames := by
  have hlength : (frameTensor frames).length / 8 = frames.length := by
    rw [frameTensor_eq_boundTensor, boundTensor, List.length_map, List.length_range,
      Nat.mul_div_cancel_left _ (by decide)]
  rw [framesOf]
  simp only [hlength]
  conv_rhs => rw [← boundTensor_getD frames 0, boundTensor]
  refine List.map_congr_left fun frame hframe => funext fun codebook => ?_
  have hlt : frame < frames.length := List.mem_range.mp hframe
  have hindex : codebook.1 * frames.length + frame < 8 * frames.length := by
    have := Nat.mul_le_mul_right frames.length (Nat.succ_le_of_lt codebook.2)
    rw [Nat.succ_mul] at this
    omega
  rw [frameTensor_eq_boundTensor, boundTensor, List.getD_eq_getElem _ _ (by
    rw [List.length_map, List.length_range]; exact hindex), List.getElem_map, List.getElem_range,
    Int.toNat_natCast, Nat.mul_comm, Nat.mul_add_div (Nat.zero_lt_of_lt hlt),
    Nat.div_eq_of_lt hlt, Nat.add_zero, Nat.mul_add_mod, Nat.mod_eq_of_lt hlt,
    Fin.ofNat_val_eq_self]

/-- The buffers of the states, by name. -/
def bufferedStates (buffers : briefTypes.CodecStates) : States ℚ := fun name =>
  boundTensor (smoothingCodec.decoder.stateSamples name) (buffers name)

theorem hasSamples_bufferedStates (buffers : briefTypes.CodecStates) (name : StateName) :
    HasSamples smoothingCodec.decoder.stateSamples name (bufferedStates buffers name) := by
  rw [HasSamples, bufferedStates, boundTensor, List.length_map, List.length_range]

/-- The buffers in the order of the registry. -/
def smoothingStates (buffers : briefTypes.CodecStates) : List (Signal ℚ) :=
  stateNames.map (bufferedStates buffers)

/-- A call of `smoothingCodec`. -/
def smoothingOutputs (codecTokens : List ℤ) (states : States ℚ) : CodecOutputs briefTypes where
  pcm := fun index => (smoothingCodec.layer states (framesOf codecTokens)).1.getD index 0
  validSampleLength := codecTokens.length * 128
  states := fun name sample =>
    (smoothingCodec.returnedStates states (framesOf codecTokens) name).getD sample 0

/-- The engines that run `smoothingCodec`. -/
def smoothingEngines : SessionEngines briefTypes :=
  { briefEngines with
    nanocodecInitial := fun codecTokens => smoothingOutputs codecTokens (zeroStates smoothingCodec)
    nanocodecSteady := fun codecTokens buffers =>
      smoothingOutputs codecTokens (bufferedStates buffers)
    nanocodecTail := fun codecTokens buffers =>
      smoothingOutputs codecTokens (bufferedStates buffers) }

theorem smoothingOutputs_eq {states : States ℚ}
    (hstates : ∀ name, HasSamples smoothingCodec.decoder.stateSamples name (states name))
    {frames : List CodecFrame} (hframes : frames ≠ []) :
    ((smoothingCodec.layer states frames).1, frames.length * samplesPerFrame,
        stateNames.map (smoothingCodec.returnedStates states frames)) =
      (boundTensor (frames.length * 1024) (smoothingOutputs (frameTensor frames) states).pcm,
        frames.length * samplesPerFrame,
        smoothingStates (smoothingOutputs (frameTensor frames) states).states) := by
  have hlength := length_layer smoothingCodec hstates hframes
  rw [show ((List.finRange 5).map fun index =>
    (smoothingCodec.decoder.stages index).upsampleConv.conv.stride).prod = 1024 from rfl,
    Nat.mul_comm] at hlength
  have hreturned : bufferedStates (smoothingOutputs (frameTensor frames) states).states =
      smoothingCodec.returnedStates states frames := by
    funext name
    have hsamples := ExplicitStateNanoCodec.hasSamples_returnedStates hstates hframes name
    rw [HasSamples] at hsamples
    rw [bufferedStates, smoothingOutputs, framesOf_frameTensor, ← hsamples]
    exact boundTensor_getD _ 0
  rw [smoothingStates, hreturned, smoothingOutputs, framesOf_frameTensor, ← hlength,
    boundTensor_getD]

theorem computesNanoCodec_smoothingEngines :
    ComputesNanoCodec smoothingEngines smoothingCodec smoothingStates := by
  have hstateful {frames : List CodecFrame} (hframes : frames ≠ [])
      (buffers : briefTypes.CodecStates) {result : List ℚ × ℕ × List (Signal ℚ)}
      (hresult : smoothingCodec.forward false frames (smoothingStates buffers) = .ok result) :
      result = (boundTensor (frames.length * 1024)
          (smoothingOutputs (frameTensor frames) (bufferedStates buffers)).pcm,
        frames.length * samplesPerFrame,
        smoothingStates
          (smoothingOutputs (frameTensor frames) (bufferedStates buffers)).states) := by
    rw [smoothingStates, ExplicitStateNanoCodec.forward_stateful
      (hasSamples_bufferedStates buffers) hframes, Except.ok.injEq] at hresult
    rw [← hresult, smoothingOutputs_eq (hasSamples_bufferedStates buffers) hframes]
  refine ⟨fun frames result hlength hresult => ?_, fun frames states result hlength hresult => ?_,
    fun frames states result hpositive hle hresult => ?_⟩
  · have hframes : frames ≠ [] := List.length_pos_iff.mp (hlength ▸ by decide)
    rw [ExplicitStateNanoCodec.forward_initial hframes, Except.ok.injEq] at hresult
    rw [← hresult]
    exact smoothingOutputs_eq (hasSamples_zeroStates smoothingCodec) hframes
  · exact hstateful (List.length_pos_iff.mp (hlength ▸ by decide)) states hresult
  · exact hstateful (List.length_pos_iff.mp hpositive) states hresult

theorem speaksClasses_smoothingEngines : smoothingEngines.SpeaksClasses :=
  fun _ index _ => Int.natCast_nonneg index

/-- The runs of the request of `tenTokenArguments` on these engines. -/
def smoothingRun (actions : List DeviceAction) : ListenedRun briefTypes :=
  run (ListenedRun.step smoothingEngines tenTokenArguments)
    (.start tenTokenRequest ⟨1⟩ clearedWorkspace) actions

/-- A run that completes, with the lease of its last chunk. -/
def drainingActions : List DeviceAction := completingActions ++ [.consumer .acquireAudio]

theorem reported_drainingActions : ∀ action ∈ drainingActions, action.Reported := by
  simp [drainingActions, completingActions, leasingActions, DeviceAction.Reported]

end Smoothing

/-! ### Runs -/

section Leases

variable {recurrence : Recurrence types} {workspace : SessionWorkspace types}
  {listened : ListenedRun types}

/-- The chunks that were leased are the first of those that were accepted. -/
theorem ListenedInvariant.taken_prefix
    (hinv : ListenedInvariant recurrence workspace listened) :
    listened.device.observation.run.history.taken.map StoredLease.chunk <+:
      listened.device.observation.run.history.accepted := by
  obtain ⟨h, hworker, hhistory⟩ := hinv.device.run
  rcases hhistory with hhistory | ⟨-, lead, hhistory⟩
  · rw [hhistory]
    exact hworker.stream.orderly.taken_prefix
  · rw [hhistory]
    exact hworker.stream.orderly.taken_prefix

theorem ListenedInvariant.publishedFrames_pos
    (hinv : ListenedInvariant recurrence workspace listened)
    (hne : listened.device.observation.run.history.accepted ≠ []) :
    0 < publishedFrames listened.device.observation.run.history.accepted := by
  obtain ⟨first, rest, haccepted⟩ := List.exists_cons_of_ne_nil hne
  have hpublishes := hinv.device.run.publishesStream exceptionKind_reported
  have hfirst := (hpublishes.contiguous 0 first (by rw [haccepted]; rfl)).first_frames rfl
  rw [haccepted, publishedFrames, List.map_cons, List.sum_cons, hfirst]
  exact Nat.add_pos_left (by decide) _

end Leases

section Runs

variable [Field types.Sample] {engines : SessionEngines types} {arguments : PipelineArguments}
  {request : StreamingRequestState} {codec : ExplicitStateNanoCodec types.Sample}
  {readStates : types.CodecStates → List (Signal types.Sample)}

/-- The decoder on more frames begins with the samples of the first ones. -/
theorem prefix_layer (recurrence : Recurrence types) (codec : ExplicitStateNanoCodec types.Sample)
    {first count : ℕ} (hpositive : 0 < first) (hle : first ≤ count) :
    (codec.layer (zeroStates codec) (recurrence.codecFrames 0 first)).1 <+:
      (codec.layer (zeroStates codec) (recurrence.codecFrames 0 count)).1 := by
  obtain ⟨more, rfl⟩ := Nat.exists_eq_add_of_le hle
  rcases Nat.eq_zero_or_pos more with rfl | hmore
  · exact List.prefix_rfl
  · rw [recurrence.codecFrames_add, (ExplicitStateNanoCodec.layer_append
      (hasSamples_zeroStates codec) (recurrence.codecFrames_ne_nil 0 hpositive)
      ⟨_, recurrence.codecFrames_ne_nil _ hmore⟩).1]
    exact List.prefix_append _ _

section Heard

variable {recurrence : Recurrence types} {workspace : SessionWorkspace types}
  {listened : ListenedRun types} (hinv : ListenedInvariant recurrence workspace listened)

include hinv

variable (hcomputes : ComputesNanoCodec recurrence.engines codec readStates)
  (hspeaks : recurrence.engines.SpeaksClasses)

include hcomputes hspeaks

/-- What the consumer has read, and the samples of all accepted frames. -/
theorem ListenedInvariant.heard_prefix_layer
    (hne : listened.device.observation.run.history.accepted ≠ []) :
    listened.heard <+: (codec.layer (zeroStates codec) (recurrence.codecFrames 0
        (publishedFrames listened.device.observation.run.history.accepted))).1 ∧
      (listened.device.observation.run.history.returned.length =
          listened.device.observation.run.history.accepted.length →
        listened.heard = (codec.layer (zeroStates codec) (recurrence.codecFrames 0
          (publishedFrames listened.device.observation.run.history.accepted))).1) := by
  have hpublishes := hinv.device.run.publishesStream exceptionKind_reported
  have hreturned := hinv.device.run.returned_eq
  have hprefix := hinv.taken_prefix
  rw [← hcomputes.streamPcm_eq_layer hspeaks hne hpublishes.contiguous]
  refine ⟨?_, fun hall => ?_⟩
  · obtain ⟨rest, hrest⟩ := hprefix
    have hsplit := congrArg (recurrence.streamPcm 0) hrest
    rw [recurrence.streamPcm_append, ← hinv.heard_eq] at hsplit
    exact ⟨_, hsplit⟩
  · rw [hreturned, List.length_map] at hall
    rw [hinv.heard_eq, hprefix.eq_of_length (by rw [List.length_map]; exact hall)]

/-- What the consumer has read begins the samples of any number of frames that covers the accepted
ones. -/
theorem ListenedInvariant.heard_prefix {frames : ℕ}
    (hcovers : publishedFrames listened.device.observation.run.history.accepted ≤ frames) :
    listened.heard <+:
      (codec.layer (zeroStates codec) (recurrence.codecFrames 0 frames)).1 := by
  by_cases hne : listened.device.observation.run.history.accepted = []
  · have htaken := hinv.taken_prefix
    rw [hne, List.prefix_nil] at htaken
    rw [hinv.heard_eq, htaken]
    exact List.nil_prefix
  · exact (hinv.heard_prefix_layer hcomputes hspeaks hne).1.trans
      (prefix_layer recurrence codec (hinv.publishedFrames_pos hne) hcovers)

end Heard

/-- **A consumer hears the utterance.** In every state of every run, what the consumer has read so
far is the beginning of what the exported decoder returns in one call for the whole utterance: the
frames of the recurrence in front of its first end of speech. Of a recurrence that does not end, it
is the beginning of what the decoder returns for any number of frames that covers the accepted ones.
-/
theorem heard_prefix_forward (hmanifest : arguments.manifest = acceptedManifest)
    (hlow : 4 ≤ arguments.textTokenIds.length) (hhigh : arguments.textTokenIds.length ≤ 512)
    (hrequest : StreamingRequestState.construct arguments.textTokenIds.length
      arguments.manifest.limits.pcmRingCapacityFrames = .ok request) (leaseIds : LeaseIdSequence)
    (workspace : SessionWorkspace types) (hcomputes : ComputesNanoCodec engines codec readStates)
    (hspeaks : engines.SpeaksClasses) {actions : List DeviceAction}
    (hreported : ∀ action ∈ actions, action.Reported) {listened : ListenedRun types}
    (hrun : run (ListenedRun.step engines arguments) (.start request leaseIds workspace) actions =
      listened) {frames : ℕ} (hpositive : 0 < frames)
    (hwhole : (∃ terminal, (workspace.recurrence engines arguments).EndsAt terminal frames) ∨
      publishedFrames listened.device.observation.run.history.accepted ≤ frames) :
    ∃ pcm returned,
      codec.forward true ((workspace.recurrence engines arguments).codecFrames 0 frames) [] =
        .ok (pcm, frames * samplesPerFrame, returned) ∧
      listened.heard <+: pcm := by
  have hinv := listenedInvariant_run engines hmanifest
    (rejectsContract_eq_false hmanifest hlow hhigh) hrequest leaseIds workspace actions hreported
  rw [hrun] at hinv
  have hcovers : publishedFrames listened.device.observation.run.history.accepted ≤ frames := by
    rcases hwhole with ⟨terminal, hends⟩ | hcovers
    · exact hinv.device.publishedFrames_le hends
    · exact hcovers
  exact ⟨_, _, forward_first _ codec hpositive, hinv.heard_prefix hcomputes hspeaks hcovers⟩

theorem endsAt_smoothingEngines :
    (clearedWorkspace.recurrence smoothingEngines tenTokenArguments).EndsAt 7 14 :=
  ⟨by decide +kernel, 0, by decide +kernel, rfl⟩

/-- The consumer has read the first two chunks of three. -/
theorem heard_prefix_forward_smoothing :
    (∀ name, 0 < smoothingCodec.decoder.stateSamples name) ∧
      publishedFrames (smoothingRun leasingActions).device.observation.run.history.accepted = 12 ∧
      ∃ pcm returned,
        smoothingCodec.forward true ((clearedWorkspace.recurrence smoothingEngines
            tenTokenArguments).codecFrames 0 14) [] =
          .ok (pcm, 14 * samplesPerFrame, returned) ∧
        (smoothingRun leasingActions).heard <+: pcm :=
  ⟨stateSamples_smoothingCodec, by decide +kernel, heard_prefix_forward rfl (by decide)
    (by decide) rfl ⟨1⟩ clearedWorkspace
    computesNanoCodec_smoothingEngines speaksClasses_smoothingEngines reported_leasingActions
    (show _ = smoothingRun leasingActions from rfl) (by decide) (.inl ⟨7, endsAt_smoothingEngines⟩)⟩

/-- **A consumer that misses no chunk hears the whole utterance.** When the request has completed
and the consumer was given every chunk, it has read what the exported decoder returns in one call
for the frames of the recurrence in front of its first end of speech. -/
theorem heard_eq_forward (hmanifest : arguments.manifest = acceptedManifest)
    (hlow : 4 ≤ arguments.textTokenIds.length) (hhigh : arguments.textTokenIds.length ≤ 512)
    (hrequest : StreamingRequestState.construct arguments.textTokenIds.length
      arguments.manifest.limits.pcmRingCapacityFrames = .ok request) (leaseIds : LeaseIdSequence)
    (workspace : SessionWorkspace types) (hcomputes : ComputesNanoCodec engines codec readStates)
    (hspeaks : engines.SpeaksClasses) {actions : List DeviceAction}
    (hreported : ∀ action ∈ actions, action.Reported) {listened : ListenedRun types}
    (hrun : run (ListenedRun.step engines arguments) (.start request leaseIds workspace) actions =
      listened)
    (hcompleted : listened.device.observation.run.history.request.state = .completed)
    (hall : listened.device.observation.run.history.returned.length =
      listened.device.observation.run.history.accepted.length) :
    ∃ terminal frames returned, (workspace.recurrence engines arguments).EndsAt terminal frames ∧
      codec.forward true ((workspace.recurrence engines arguments).codecFrames 0 frames) [] =
        .ok (listened.heard, frames * samplesPerFrame, returned) := by
  have hinv := listenedInvariant_run engines hmanifest
    (rejectsContract_eq_false hmanifest hlow hhigh) hrequest leaseIds workspace actions hreported
  rw [hrun] at hinv
  have hcomplete := (hinv.device.run.publishesStream exceptionKind_reported).complete hcompleted
  have hne : listened.device.observation.run.history.accepted ≠ [] := by
    obtain ⟨earlier, last, haccepted, -⟩ := hcomplete.last
    rw [haccepted]
    exact List.append_ne_nil_of_right_ne_nil _ (List.cons_ne_nil _ _)
  have hheard := (hinv.heard_prefix_layer hcomputes hspeaks hne).2 hall
  obtain ⟨terminal, -, hends⟩ := hinv.device.endsAt_of_completed hcompleted
  have hforward := forward_first (workspace.recurrence engines arguments) codec
    (hinv.publishedFrames_pos hne)
  rw [← hheard] at hforward
  exact ⟨terminal, _, _, hends, hforward⟩

theorem smoothingRun_drainingActions :
    (smoothingRun drainingActions).device.observation.run.history.request.state = .completed ∧
      (smoothingRun drainingActions).device.observation.run.history.returned.length = 3 ∧
      (smoothingRun drainingActions).device.observation.run.history.accepted.length = 3 := by
  decide +kernel

/-- The consumer has read all three chunks. -/
theorem heard_eq_forward_smoothing :
    (smoothingRun drainingActions).device.observation.run.history.returned.length = 3 ∧
      ∃ terminal frames returned, (clearedWorkspace.recurrence smoothingEngines
          tenTokenArguments).EndsAt terminal frames ∧
        smoothingCodec.forward true ((clearedWorkspace.recurrence smoothingEngines
            tenTokenArguments).codecFrames 0 frames) [] =
          .ok ((smoothingRun drainingActions).heard, frames * samplesPerFrame, returned) :=
  ⟨smoothingRun_drainingActions.2.1, heard_eq_forward rfl (by decide) (by decide) rfl ⟨1⟩
    clearedWorkspace computesNanoCodec_smoothingEngines speaksClasses_smoothingEngines
    reported_drainingActions (show _ = smoothingRun drainingActions from rfl)
    smoothingRun_drainingActions.1
    (smoothingRun_drainingActions.2.1.trans smoothingRun_drainingActions.2.2.symm)⟩

end Runs

end MagpieTts.Runtime
