import MagpieTts.Export.NanoCodec
import MagpieTts.Library.RowTensor

/-!
# Decoding in chunks

Every layer of the NanoCodec decoder streams, so the decoder does: the chunks of any schedule, the
first decoded by the initial route and each later one by the stateful route on the states that the
call before has returned, give the samples, the length and the states of one initial call on the
whole sequence.

## Main definitions

* `ExplicitStateNanoCodec.decodeChunks`: the calls of a schedule.

## Main results

* `streams_causalConv`, `streams_causalTransposedConv`: the two kinds of convolution stream.
* `decodeChunks_eq_forward`: a schedule of chunks against the whole sequence.
-/

namespace MagpieTts.Export

open MagpieTts.Library

variable {K : Type*} [Field K]

/-- A state of as many samples as its specification says. -/
def HasSamples (samples : StateName → ℕ) (name : StateName) (value : Signal K) : Prop :=
  value.length = samples name

variable {samples : StateName → ℕ}

/-! ### Causal convolutions -/

theorem HistoryConv.history_eq (convolution : HistoryConv K) :
    convolution.history = (convolution.conv.kernelSize - 1) * convolution.conv.dilation := by
  have h := convolution.historySamples_eq
  simp only [historySamples] at h
  split_ifs at h
  exact (Except.ok.inj h).symm

/-- The output depends on the window as far as the history reaches. -/
theorem RawConv.readWindow_congr (conv : RawConv K) {window window' : ℕ → Step K}
    (h : ∀ j ≤ (conv.kernelSize - 1) * conv.dilation, window j = window' j) :
    conv.readWindow window = conv.readWindow window' := by
  funext channel
  refine congrArg (conv.bias.getD 0 channel + ·) (Finset.sum_congr rfl fun tap htap => ?_)
  have htap' : tap ≤ conv.kernelSize - 1 := by
    have := Finset.mem_range.mp htap
    omega
  rw [h _ (Nat.mul_le_mul_right _ htap')]

theorem causalConv_eq (convolution : HistoryConv K) {inputs history : Signal K}
    (hhistory : history.length = convolution.history) :
    causalConv convolution inputs history =
      ((convolution.conv.apply (history ++ inputs)).map convolution.activation,
        (history ++ inputs).drop inputs.length) := by
  rw [causalConv]
  split_ifs with hzero
  · have hnil : history = [] := List.length_eq_zero_iff.mp (hhistory.trans hzero)
    rw [hnil, List.nil_append, List.drop_length]
  · have hlength : (history ++ inputs).length - convolution.history = inputs.length := by
      rw [List.length_append]
      omega
    simp only [hlength]

/-- A causal convolution on the state of its name. -/
def convLayer (convolution : HistoryConv K) (name : StateName) :
    StreamLayer StateName (Signal K) (Step K) (Step K) := fun states inputs =>
  ((causalConv convolution inputs (states name)).1,
    [(name, (causalConv convolution inputs (states name)).2)])

theorem streams_causalConv (convolution : HistoryConv K) (name : StateName)
    (hname : samples name = convolution.history) :
    Streams (HasSamples samples) [name] 1 (convLayer convolution name) where
  rate_pos := Nat.one_pos
  names_eq := fun _ _ => rfl
  length_eq := fun s xs hs _ => by
    have hhistory : (s name).length = convolution.history := (hs name).trans hname
    rw [convLayer, causalConv_eq _ hhistory, List.length_map, RawConv.apply, length_slide,
      ← convolution.history_eq, List.length_append]
    omega
  keeps := fun s xs hs _ entry hentry => by
    have hhistory : (s name).length = convolution.history := (hs name).trans hname
    rw [convLayer, causalConv_eq _ hhistory, List.mem_singleton] at hentry
    rw [hentry, HasSamples, List.length_drop, List.length_append, hname]
    omega
  append := fun s t xs ys hs ht _ _ hagree => by
    have hs' : (s name).length = convolution.history := (hs name).trans hname
    have ht' : (t name).length = convolution.history := (ht name).trans hname
    have hstate : t name = (s name ++ xs).drop xs.length := by
      have h := hagree _ (List.mem_singleton_self _)
      rwa [causalConv_eq _ hs'] at h
    have hle : xs.length ≤ (s name ++ xs).length := by
      rw [List.length_append]
      omega
    rw [convLayer, convLayer, convLayer, causalConv_eq _ hs', causalConv_eq _ hs',
      causalConv_eq _ ht', hstate]
    have houtput : convolution.conv.apply (s name ++ (xs ++ ys)) =
        convolution.conv.apply (s name ++ xs) ++
          convolution.conv.apply ((s name ++ xs).drop xs.length ++ ys) :=
      slide_append (fun _ _ h => convolution.conv.readWindow_congr h)
        (hs'.trans convolution.history_eq) xs ys
    have hdrop : (s name ++ (xs ++ ys)).drop (xs ++ ys).length =
        ((s name ++ xs).drop xs.length ++ ys).drop ys.length := by
      rw [← List.drop_append_of_le_length hle, List.drop_drop, List.append_assoc,
        List.length_append]
    rw [houtput, List.map_append, hdrop]

/-! ### Transposed convolutions -/

theorem OverlapConv.overlap_eq (convolution : OverlapConv K) :
    convolution.conv.stride ≤ convolution.conv.kernelSize ∧
      convolution.conv.kernelSize - convolution.conv.stride = convolution.overlap ∧
      convolution.overlap ≤ convolution.conv.stride := by
  have h := convolution.overlapSamples_eq
  simp only [overlapSamples] at h
  split_ifs at h with _ _ _ _ hoverlap
  have h' := Except.ok.inj h
  rw [not_or, not_lt, not_lt] at hoverlap
  omega

/-- The final samples of a transposed convolution, before its activation. -/
def finalSamples (convolution : OverlapConv K) (inputs pending : Signal K) : Signal K :=
  (overlapAdd convolution.conv.stride convolution.conv.kernelSize convolution.conv.segment 0 pending
    inputs).map (convolution.conv.bias.getD 0 + ·)

/-- The raw outputs reach as far as the overlap beyond the final samples. -/
theorem OverlapConv.apply_eq (convolution : OverlapConv K) {inputs : Signal K}
    (hinputs : inputs ≠ []) :
    convolution.conv.apply inputs =
      (List.range (inputs.length * convolution.conv.stride + convolution.overlap)).map fun t =>
        convolution.conv.bias.getD 0 + overlapSum convolution.conv.stride
          convolution.conv.kernelSize convolution.conv.segment 0 inputs t := by
  obtain ⟨hstride, hoverlap, -⟩ := convolution.overlap_eq
  have hlength : (inputs.length - 1) * convolution.conv.stride + convolution.conv.kernelSize =
      inputs.length * convolution.conv.stride + convolution.overlap := by
    obtain ⟨count, hcount⟩ := Nat.exists_eq_succ_of_ne_zero
      (Nat.pos_iff_ne_zero.mp (List.length_pos_iff.mpr hinputs))
    rw [hcount, Nat.succ_sub_one, Nat.succ_mul]
    omega
  rw [RawTransposedConv.apply, hlength]

theorem length_finalSamples (convolution : OverlapConv K) (inputs pending : Signal K) :
    (finalSamples convolution inputs pending).length =
      inputs.length * convolution.conv.stride := by
  rw [finalSamples, overlapAdd, List.length_map, List.length_map, List.length_range]

/-- The list of the values of a function behind the first `n`. -/
theorem drop_map_range {V : Type*} (f : ℕ → V) (n m : ℕ) :
    ((List.range (n + m)).map f).drop n = (List.range m).map fun j => f (n + j) := by
  rw [List.range_add, List.map_append, List.map_map,
    List.drop_left' (by rw [List.length_map, List.length_range])]
  rfl

theorem take_map_range {V : Type*} (f : ℕ → V) (n m : ℕ) :
    ((List.range (n + m)).map f).take n = (List.range n).map f := by
  rw [← List.map_take, List.take_range, Nat.min_eq_left (Nat.le_add_right n m)]

theorem causalTransposedConv_eq (convolution : OverlapConv K) {inputs pending : Signal K}
    (hpending : pending.length = convolution.overlap) (hinputs : inputs ≠ []) :
    causalTransposedConv convolution inputs pending =
      ((finalSamples convolution inputs pending).map convolution.activation,
        pendingOverlap convolution.conv.stride convolution.conv.kernelSize
          convolution.conv.segment 0 inputs) := by
  obtain ⟨hstride, hoverlap, hle⟩ := convolution.overlap_eq
  have hreach : convolution.overlap ≤ inputs.length * convolution.conv.stride :=
    hle.trans (Nat.le_mul_of_pos_left _ (List.length_pos_iff.mpr hinputs))
  set bias := convolution.conv.bias.getD 0 with hbias
  set sum := overlapSum convolution.conv.stride convolution.conv.kernelSize
    convolution.conv.segment 0 inputs with hsum
  obtain ⟨rest, hrest⟩ := Nat.exists_eq_add_of_le hreach
  have hfinal : finalSamples convolution inputs pending =
      (List.range (convolution.overlap + rest)).map fun t => bias + (sum t + pending.getD t 0) := by
    rw [finalSamples, overlapAdd, List.map_map, hrest]
    rfl
  have hpendingOverlap : pendingOverlap convolution.conv.stride convolution.conv.kernelSize
      convolution.conv.segment 0 inputs = (List.range convolution.overlap).map fun j =>
        sum (inputs.length * convolution.conv.stride + j) := by
    rw [pendingOverlap, hoverlap]
  have hpendingList : pending = (List.range convolution.overlap).map fun t => pending.getD t 0 := by
    conv_lhs => rw [← map_range_getD pending 0, hpending]
  rw [causalTransposedConv, convolution.apply_eq hinputs, ← hbias, ← hsum, hfinal, hpendingOverlap]
  split_ifs with hzero
  · have htake : ((List.range (inputs.length * convolution.conv.stride + convolution.overlap)).map
        fun t => bias + sum t).take convolution.overlap =
        (List.range convolution.overlap).map fun t => bias + sum t := by
      rw [hrest, Nat.add_assoc, take_map_range]
    have hmiddle : (((List.range (inputs.length * convolution.conv.stride +
        convolution.overlap)).map fun t => bias + sum t).take
          (inputs.length * convolution.conv.stride)).drop convolution.overlap =
        (List.range rest).map fun j => bias + sum (convolution.overlap + j) := by
      rw [take_map_range, hrest, drop_map_range]
    have hfirst : List.zipWith (· + ·) ((List.range convolution.overlap).map fun t => bias + sum t)
        pending = (List.range convolution.overlap).map fun t =>
          bias + (sum t + pending.getD t 0) := by
      conv_lhs => rw [hpendingList, List.zipWith_map, List.zipWith_self]
      exact List.map_congr_left fun t _ => add_assoc _ _ _
    have hlast : (List.range rest).map (fun j => bias + sum (convolution.overlap + j)) =
        (List.range rest).map fun j => bias + (sum (convolution.overlap + j) +
          pending.getD (convolution.overlap + j) 0) := by
      refine List.map_congr_left fun j _ => ?_
      rw [List.getD_eq_default _ _ (by omega), add_zero]
    have hsplit : ((List.range (convolution.overlap + rest)).map fun t =>
          bias + (sum t + pending.getD t 0)) =
        ((List.range convolution.overlap).map fun t => bias + (sum t + pending.getD t 0)) ++
          (List.range rest).map fun j => bias + (sum (convolution.overlap + j) +
            pending.getD (convolution.overlap + j) 0) := by
      rw [List.range_add, List.map_append, List.map_map]
      rfl
    refine Prod.ext ?_ ?_
    · rw [htake, hmiddle, hfirst, hlast, hsplit]
    · rw [drop_map_range]
      rcases hvalue : convolution.conv.bias with _ | value
      · rw [hvalue, Option.getD_none] at hbias
        simp only [hbias, zero_add]
      · rw [hvalue, Option.getD_some] at hbias
        simp only [hbias, List.map_map, Function.comp_def, add_sub_cancel_left]
  · have hnone : convolution.overlap = 0 := Nat.eq_zero_of_not_pos hzero
    rw [hnone] at hpending hrest ⊢
    rw [List.length_eq_zero_iff.mp hpending]
    refine Prod.ext ?_ rfl
    rw [take_map_range, hrest]
    refine congrArg (List.map convolution.activation) (List.map_congr_left fun t _ => ?_)
    rw [List.getD_nil, add_zero]

/-- A transposed convolution on the state of its name. -/
def transposedConvLayer (convolution : OverlapConv K) (name : StateName) :
    StreamLayer StateName (Signal K) (Step K) (Step K) := fun states inputs =>
  ((causalTransposedConv convolution inputs (states name)).1,
    [(name, (causalTransposedConv convolution inputs (states name)).2)])

theorem streams_causalTransposedConv (convolution : OverlapConv K) {name : StateName}
    (hname : samples name = convolution.overlap) :
    Streams (HasSamples samples) [name] convolution.conv.stride
      (transposedConvLayer convolution name) where
  rate_pos := convolution.stride_pos
  names_eq := fun _ _ => rfl
  length_eq := fun s xs hs hxs => by
    rw [transposedConvLayer, causalTransposedConv_eq _ ((hs name).trans hname) hxs, List.length_map,
      length_finalSamples, Nat.mul_comm]
  keeps := fun s xs hs hxs entry hentry => by
    rw [transposedConvLayer, causalTransposedConv_eq _ ((hs name).trans hname) hxs,
      List.mem_singleton] at hentry
    rw [hentry, HasSamples, length_pendingOverlap, hname, convolution.overlap_eq.2.1]
  append := fun s t xs ys hs ht hxs hys hagree => by
    obtain ⟨hstride, hoverlap, hle⟩ := convolution.overlap_eq
    have hs' : (s name).length = convolution.overlap := (hs name).trans hname
    have ht' : (t name).length = convolution.overlap := (ht name).trans hname
    have hxsys : xs ++ ys ≠ [] := List.append_ne_nil_of_left_ne_nil hxs ys
    have hstate : t name = pendingOverlap convolution.conv.stride convolution.conv.kernelSize
        convolution.conv.segment 0 xs := by
      have h := hagree _ (List.mem_singleton_self _)
      rwa [causalTransposedConv_eq _ hs' hxs] at h
    rw [transposedConvLayer, transposedConvLayer, transposedConvLayer,
      causalTransposedConv_eq _ hs' hxsys, causalTransposedConv_eq _ hs' hxs,
      causalTransposedConv_eq _ ht' hys, hstate, finalSamples,
      overlapAdd_append hstride (by omega) (by omega) hxs,
      pendingOverlap_append hstride (by omega) xs hys, List.map_append, List.map_append]
    rfl

/-! ### The residual layers -/

/-- The states of a block. -/
def blockNames (stage : Fin 5) (branch index : Fin 3) : List StateName :=
  [.residualHistory stage branch index .inputConv, .residualHistory stage branch index .skipConv]

theorem streams_residualBlock (block : ResidualBlock K) (stage : Fin 5) (branch index : Fin 3)
    (hinput : samples (.residualHistory stage branch index .inputConv) = block.inputConv.history)
    (hskip : samples (.residualHistory stage branch index .skipConv) = block.skipConv.history) :
    Streams (HasSamples samples) (blockNames stage branch index) 1
      (residualBlock block stage branch index) :=
  ((((streams_map block.inputActivation).seq (streams_causalConv block.inputConv _ hinput)).seq
    (streams_map block.skipActivation)).seq (streams_causalConv block.skipConv _ hskip)).skip
      (· + ·)

/-- The blocks of a stage have the histories of the specification. -/
def BlocksMatch (samples : StateName → ℕ) (blocks : Fin 3 → Fin 3 → ResidualBlock K)
    (stage : Fin 5) : Prop :=
  ∀ branch index,
    samples (.residualHistory stage branch index .inputConv) =
        (blocks branch index).inputConv.history ∧
      samples (.residualHistory stage branch index .skipConv) =
        (blocks branch index).skipConv.history

theorem streams_residualBranch {blocks : Fin 3 → Fin 3 → ResidualBlock K} {stage : Fin 5}
    (hblocks : BlocksMatch samples blocks stage) (branch : Fin 3) :
    Streams (HasSamples samples) ((List.finRange 3).flatMap (blockNames stage branch)) 1
      (residualBranch (blocks branch) stage branch) := by
  have h : Streams (HasSamples samples) _ _ _ := Streams.seqLayers
    ((List.finRange 3).map fun index =>
      (residualBlock (blocks branch index) stage branch index, blockNames stage branch index, 1))
    fun layer hlayer => by
      obtain ⟨index, -, rfl⟩ := List.mem_map.mp hlayer
      exact streams_residualBlock _ _ _ _ (hblocks branch index).1 (hblocks branch index).2
  exact h

/-- The sum of signals of one length is as long. -/
theorem length_foldl_zipWith (rest : List (Signal K)) (first : Signal K)
    (hlength : ∀ signal ∈ rest, signal.length = first.length) :
    (rest.foldl (List.zipWith (· + ·)) first).length = first.length := by
  induction rest generalizing first with
  | nil => rfl
  | cons signal rest ih =>
    have hsum : (List.zipWith (· + ·) first signal).length = first.length := by
      rw [List.length_zipWith, hlength signal List.mem_cons_self, Nat.min_self]
    rw [List.foldl_cons, ih _ fun other hother => ?_, hsum]
    rw [hsum]
    exact hlength other (List.mem_cons_of_mem _ hother)

/-- The sum of signals may be cut between any two time steps. -/
theorem foldl_zipWith_append (rest rest' : List (Signal K)) (first first' : Signal K)
    (hcount : rest.length = rest'.length)
    (hlength : ∀ signal ∈ rest, signal.length = first.length) :
    (List.zipWith (· ++ ·) rest rest').foldl (List.zipWith (· + ·)) (first ++ first') =
      rest.foldl (List.zipWith (· + ·)) first ++ rest'.foldl (List.zipWith (· + ·)) first' := by
  induction rest generalizing first first' rest' with
  | nil =>
    rw [List.eq_nil_of_length_eq_zero hcount.symm]
    rfl
  | cons signal rest ih =>
    rcases rest' with _ | ⟨signal', rest'⟩
    · cases hcount
    · have hsignal := hlength signal List.mem_cons_self
      have hsum : (List.zipWith (· + ·) first signal).length = first.length := by
        rw [List.length_zipWith, hsignal, Nat.min_self]
      rw [List.zipWith_cons_cons, List.foldl_cons, List.foldl_cons, List.foldl_cons,
        List.zipWith_append hsignal.symm]
      refine ih rest' _ _ (Nat.succ.inj hcount) fun other hother => ?_
      rw [hsum]
      exact hlength other (List.mem_cons_of_mem _ hother)

theorem reduces_meanSignal {count : ℕ} (hcount : 0 < count) :
    Reduces (meanSignal (K := K)) count where
  length_eq := fun signals length hsignals hlength => by
    rcases signals with _ | ⟨first, rest⟩
    · exact absurd hsignals.symm hcount.ne'
    · have hfirst := hlength first List.mem_cons_self
      rw [meanSignal, List.length_map, length_foldl_zipWith, hfirst]
      intro signal hsignal
      rw [hfirst, hlength signal (List.mem_cons_of_mem _ hsignal)]
  append := fun signals signals' length length' hsignals hsignals' hlength hlength' => by
    rcases signals with _ | ⟨first, rest⟩
    · exact absurd hsignals.symm hcount.ne'
    rcases signals' with _ | ⟨first', rest'⟩
    · exact absurd hsignals'.symm hcount.ne'
    have hrest : rest.length = rest'.length := Nat.succ.inj (hsignals.trans hsignals'.symm)
    have hzip : (List.zipWith (· ++ ·) (first :: rest) (first' :: rest')).length =
        (first :: rest).length := by
      rw [List.length_zipWith, hsignals, hsignals', Nat.min_self]
    have hcount' : (first' :: rest').length = (first :: rest).length := by rw [hsignals, hsignals']
    rw [List.zipWith_cons_cons] at hzip ⊢
    simp only [meanSignal, hzip, hcount']
    rw [foldl_zipWith_append rest rest' first first' hrest, List.map_append]
    intro signal hsignal
    rw [hlength first List.mem_cons_self, hlength signal (List.mem_cons_of_mem _ hsignal)]

/-- The states of the residual layer of a stage. -/
def residualNames (stage : Fin 5) : List StateName :=
  (List.finRange 3).flatMap fun branch => (List.finRange 3).flatMap (blockNames stage branch)

theorem streams_residualLayer {blocks : Fin 3 → Fin 3 → ResidualBlock K} {stage : Fin 5}
    (hblocks : BlocksMatch samples blocks stage) :
    Streams (HasSamples samples) (residualNames stage) 1 (residualLayer blocks stage) := by
  have h : Streams (HasSamples samples) _ _ (fanLayer meanSignal _) := Streams.fan
    ((List.finRange 3).map fun branch =>
      (residualBranch (blocks branch) stage branch,
        (List.finRange 3).flatMap (blockNames stage branch))) Nat.one_pos
    (fun layer hlayer => by
      obtain ⟨branch, -, rfl⟩ := List.mem_map.mp hlayer
      exact streams_residualBranch hblocks branch)
    (reduces_meanSignal (by rw [List.length_map, List.length_finRange]; decide))
  exact h

/-! ### The stages -/

/-- A stage that emits a valid length. -/
def stageLayer (stage : DecoderStage K) (index : Fin 5) :
    StreamLayer StateName (Signal K) (Step K) (Step K) :=
  seqLayer (mapLayer stage.activation) (seqLayer
    (transposedConvLayer stage.upsampleConv (.pendingOverlap index))
    (residualLayer stage.residualBlocks index))

/-- The states of a stage. -/
def stageStateNames (index : Fin 5) : List StateName := .pendingOverlap index :: residualNames index

theorem streams_stageLayer (stage : DecoderStage K) (index : Fin 5)
    (hoverlap : samples (.pendingOverlap index) = stage.upsampleConv.overlap)
    (hblocks : BlocksMatch samples stage.residualBlocks index) :
    Streams (HasSamples samples) (stageStateNames index) (1 * stage.upsampleConv.conv.stride * 1)
      (stageLayer stage index) :=
  (streams_map stage.activation).seq
    ((streams_causalTransposedConv stage.upsampleConv hoverlap).seq
      (streams_residualLayer hblocks))

/-- The check of the length passes: the final samples are a multiple of the stride. -/
theorem decodeStage_eq_ok (stage : DecoderStage K) (index : Fin 5) {states : States K}
    {outputs : Signal K} (hoverlap : samples (.pendingOverlap index) = stage.upsampleConv.overlap)
    (hstates : ∀ name, HasSamples samples name (states name)) (houtputs : outputs ≠ []) :
    decodeStage stage index states outputs = .ok (stageLayer stage index states outputs) := by
  have hlength := (streams_causalTransposedConv stage.upsampleConv hoverlap).length_eq states
    (outputs.map stage.activation) hstates (by simpa using houtputs)
  rw [decodeStage, if_neg]
  · rfl
  · rw [not_not, ← stage.stride_eq]
    exact (congrArg (· % stage.upsampleConv.conv.stride) hlength).trans
      (Nat.mul_mod_right _ _)

/-- The histories and overlaps of a decoder are those of its specification. -/
theorem Decoder.blocksMatch (decoder : Decoder K) (index : Fin 5) :
    BlocksMatch decoder.stateSamples (decoder.stages index).residualBlocks index :=
  fun _ _ => ⟨rfl, rfl⟩

/-- The loop over the stages, with the states that were written before it. -/
theorem foldlM_decodeStage (decoder : Decoder K) {states : States K}
    (hstates : ∀ name, HasSamples decoder.stateSamples name (states name)) (indices : List (Fin 5))
    {outputs : Signal K} (houtputs : outputs ≠ []) (updated : Updated K) :
    (indices.foldlM (fun acc index => do
        let stage ← decodeStage (decoder.stages index) index states acc.1
        return (stage.1, acc.2 ++ stage.2)) (outputs, updated) :
      Except String (Signal K × Updated K)) =
      .ok ((seqLayers (indices.map fun index => stageLayer (decoder.stages index) index) states
          outputs).1,
        updated ++ (seqLayers (indices.map fun index => stageLayer (decoder.stages index) index)
          states outputs).2) := by
  induction indices generalizing outputs updated with
  | nil => simp [seqLayers, pure, Except.pure]
  | cons index indices ih =>
    have hstage : Streams (HasSamples decoder.stateSamples) _ _ _ :=
      streams_stageLayer (decoder.stages index) index rfl (decoder.blocksMatch index)
    have hnext := hstage.ne_nil hstates houtputs
    have hdecode := decodeStage_eq_ok (decoder.stages index) index rfl hstates houtputs
    rw [List.foldlM_cons, hdecode, List.map_cons, seqLayers_cons, seqLayer]
    exact (ih hnext _).trans (by rw [List.append_assoc])

/-! ### A call -/

namespace ExplicitStateNanoCodec

/-- The computation of a call, as one layer. -/
def layer (codec : ExplicitStateNanoCodec K) :
    StreamLayer StateName (Signal K) CodecFrame K :=
  seqLayer (seqLayer
    (seqLayer (mapLayer (dequantizeFrame codec.codebookTable))
      (convLayer codec.decoder.preConv .preConvHistory))
    (seqLayers ((List.finRange 5).map fun index =>
      stageLayer (codec.decoder.stages index) index)))
    (seqLayer (mapLayer codec.decoder.postActivation)
      (seqLayer (convLayer codec.decoder.postConv .postConvHistory)
        (mapLayer fun step => codec.decoder.outActivation step 0)))

/-- The states in the order in which a call writes them. -/
def writtenNames : List StateName :=
  .preConvHistory :: (List.finRange 5).flatMap stageStateNames ++ [.postConvHistory]

theorem streams_layer (codec : ExplicitStateNanoCodec K) :
    ∃ rate, Streams (HasSamples codec.decoder.stateSamples) writtenNames rate codec.layer := by
  have hstages : Streams (HasSamples codec.decoder.stateSamples) _ _ _ := Streams.seqLayers
    ((List.finRange 5).map fun index =>
      (stageLayer (codec.decoder.stages index) index, stageStateNames index,
        1 * (codec.decoder.stages index).upsampleConv.conv.stride * 1))
    fun layer hlayer => by
      obtain ⟨index, -, rfl⟩ := List.mem_map.mp hlayer
      exact streams_stageLayer (codec.decoder.stages index) index rfl
        (codec.decoder.blocksMatch index)
  have hpre : Streams (HasSamples codec.decoder.stateSamples) _ _ _ :=
    streams_causalConv codec.decoder.preConv .preConvHistory rfl
  have hpost : Streams (HasSamples codec.decoder.stateSamples) _ _ _ :=
    streams_causalConv codec.decoder.postConv .postConvHistory rfl
  have h := (((streams_map (dequantizeFrame codec.codebookTable)).seq hpre).seq hstages).seq
    ((streams_map codec.decoder.postActivation).seq (hpost.seq
      (streams_map fun step => codec.decoder.outActivation step 0)))
  exact ⟨_, h⟩

theorem mem_stateNames (name : StateName) : name ∈ stateNames := by
  cases name with
  | preConvHistory => exact List.mem_cons_self
  | pendingOverlap stage => simp [stateNames]
  | residualHistory stage branch block convolution => cases convolution <;> simp [stateNames]
  | postConvHistory => simp [stateNames]

theorem mem_writtenNames (name : StateName) : name ∈ writtenNames := by
  cases name with
  | preConvHistory => exact List.mem_cons_self
  | pendingOverlap stage => simp [writtenNames, stageStateNames]
  | residualHistory stage branch block convolution =>
    cases convolution <;> simp [writtenNames, stageStateNames, residualNames, blockNames]
  | postConvHistory => simp [writtenNames]

theorem nodup_writtenNames : writtenNames.Nodup := by decide +kernel

theorem length_stateNames : stateNames.length = 97 := by decide +kernel

/-- The states that a call returns, by name. -/
def returnedStates (codec : ExplicitStateNanoCodec K) (states : States K)
    (codecTokens : List CodecFrame) : States K := fun name =>
  ((codec.layer states codecTokens).2.lookup name).getD []

variable {codec : ExplicitStateNanoCodec K} {states : States K} {codecTokens : List CodecFrame}

/-- A state that a call has written is returned under its name. -/
theorem returnedStates_of_mem {entry : StateName × Signal K}
    (hentry : entry ∈ (codec.layer states codecTokens).2) :
    codec.returnedStates states codecTokens entry.1 = entry.2 := by
  obtain ⟨rate, hlayer⟩ := codec.streams_layer
  rw [returnedStates, lookup_eq_some_of_mem _ hentry, Option.getD_some]
  rw [hlayer.names_eq]
  exact nodup_writtenNames

/-- The returned states have the samples of their specification. -/
theorem hasSamples_returnedStates
    (hstates : ∀ name, HasSamples codec.decoder.stateSamples name (states name))
    (htokens : codecTokens ≠ []) (name : StateName) :
    HasSamples codec.decoder.stateSamples name (codec.returnedStates states codecTokens name) := by
  obtain ⟨rate, hlayer⟩ := codec.streams_layer
  have hname : name ∈ (codec.layer states codecTokens).2.map Prod.fst := by
    rw [hlayer.names_eq]
    exact mem_writtenNames name
  obtain ⟨entry, hentry, rfl⟩ := List.mem_map.mp hname
  rw [returnedStates_of_mem hentry]
  exact hlayer.keeps states codecTokens hstates htokens entry hentry

/-- A call on states of the right samples returns. -/
theorem decode_eq_ok
    (hstates : ∀ name, HasSamples codec.decoder.stateSamples name (states name))
    (htokens : codecTokens ≠ []) :
    codec.decode codecTokens states = .ok ((codec.layer states codecTokens).1,
      codecTokens.length * samplesPerFrame,
      stateNames.map (codec.returnedStates states codecTokens)) := by
  have hconv : Streams (HasSamples codec.decoder.stateSamples) _ _ _ :=
    streams_causalConv codec.decoder.preConv .preConvHistory rfl
  have hpre :=
    ((streams_map (dequantizeFrame codec.codebookTable)).seq hconv).ne_nil hstates htokens
  rw [decode]
  exact congrArg (· >>= _) (foldlM_decodeStage codec.decoder hstates (List.finRange 5) hpre _)

/-- A call of the initial route. -/
theorem forward_initial (htokens : codecTokens ≠ []) :
    codec.forward true codecTokens [] =
      .ok ((codec.layer (fun name => List.replicate (codec.decoder.stateSamples name) 0)
          codecTokens).1,
        codecTokens.length * samplesPerFrame,
        stateNames.map (codec.returnedStates
          (fun name => List.replicate (codec.decoder.stateSamples name) 0) codecTokens)) := by
  have hstates : (fun name => codec.initialStates.getD (stateNames.idxOf name) []) =
      fun name => List.replicate (codec.decoder.stateSamples name) (0 : Step K) :=
    funext fun name => getD_idxOf_map _ (mem_stateNames name) []
  rw [forward, if_pos rfl, if_neg (not_not.mpr rfl), hstates]
  exact decode_eq_ok (fun name => List.length_replicate) htokens

/-- A call of the stateful route, on states in the order of the registry. -/
theorem forward_stateful {value : States K}
    (hvalue : ∀ name, HasSamples codec.decoder.stateSamples name (value name))
    (htokens : codecTokens ≠ []) :
    codec.forward false codecTokens (stateNames.map value) =
      .ok ((codec.layer value codecTokens).1, codecTokens.length * samplesPerFrame,
        stateNames.map (codec.returnedStates value codecTokens)) := by
  have hstates : (fun name => (stateNames.map value).getD (stateNames.idxOf name) []) = value :=
    funext fun name => getD_idxOf_map _ (mem_stateNames name) []
  rw [forward, if_neg Bool.false_ne_true, if_neg (by rw [List.length_map, not_not]), hstates]
  exact decode_eq_ok hvalue htokens

/-! ### A schedule of chunks -/

/-- A chunk of at least one frame. -/
abbrev CodecChunk := { frames : List CodecFrame // frames ≠ [] }

/-- The calls of a schedule: the initial route on the first chunk, the stateful one on every later
chunk with the states that the call before has returned. The result has the samples and the valid
length of every chunk, and the states of the last call. -/
def decodeChunks (codec : ExplicitStateNanoCodec K) (first : CodecChunk) (rest : List CodecChunk) :
    Except String (List (List K) × List ℕ × List (Signal K)) := do
  let initial ← codec.forward true first.1 []
  rest.foldlM
    (fun acc chunk => do
      let next ← codec.forward false chunk.1 acc.2.2
      return (acc.1 ++ [next.1], acc.2.1 ++ [next.2.1], next.2.2))
    ([initial.1], [initial.2.1], initial.2.2)

/-- A call on the states that a call on `codecTokens` has returned is the rest of the call on both.
-/
theorem layer_append (hstates : ∀ name, HasSamples codec.decoder.stateSamples name (states name))
    (htokens : codecTokens ≠ []) (chunk : CodecChunk) :
    (codec.layer states (codecTokens ++ chunk.1)).1 = (codec.layer states codecTokens).1 ++
        (codec.layer (codec.returnedStates states codecTokens) chunk.1).1 ∧
      codec.returnedStates states (codecTokens ++ chunk.1) =
        codec.returnedStates (codec.returnedStates states codecTokens) chunk.1 := by
  obtain ⟨rate, hlayer⟩ := codec.streams_layer
  have happend := hlayer.append states (codec.returnedStates states codecTokens) codecTokens chunk.1
    hstates (hasSamples_returnedStates hstates htokens) htokens chunk.2
    fun entry hentry => returnedStates_of_mem hentry
  refine ⟨by rw [happend], ?_⟩
  funext name
  rw [returnedStates, returnedStates, happend]

/-- The later calls of a schedule, behind those that have decoded `codecTokens`. By induction on the
chunks. -/
theorem foldlM_forward (codec : ExplicitStateNanoCodec K)
    (hstates : ∀ name, HasSamples codec.decoder.stateSamples name (states name))
    (htokens : codecTokens ≠ []) (rest : List CodecChunk) (pcm : List (List K)) (lengths : List ℕ)
    (hpcm : pcm.flatten = (codec.layer states codecTokens).1)
    (hlengths : lengths.sum = codecTokens.length * samplesPerFrame) :
    ∃ pcm' lengths', (rest.foldlM (fun acc chunk => do
          let next ← codec.forward false chunk.1 acc.2.2
          return (acc.1 ++ [next.1], acc.2.1 ++ [next.2.1], next.2.2))
        (pcm, lengths, stateNames.map (codec.returnedStates states codecTokens)) :
        Except String (List (List K) × List ℕ × List (Signal K))) =
          .ok (pcm', lengths', stateNames.map
            (codec.returnedStates states (codecTokens ++ rest.flatMap Subtype.val))) ∧
      pcm'.flatten = (codec.layer states (codecTokens ++ rest.flatMap Subtype.val)).1 ∧
      lengths'.sum = (codecTokens ++ rest.flatMap Subtype.val).length * samplesPerFrame := by
  induction rest generalizing codecTokens pcm lengths with
  | nil =>
    rw [List.flatMap_nil, List.append_nil]
    exact ⟨pcm, lengths, rfl, hpcm, hlengths⟩
  | cons chunk rest ih =>
    obtain ⟨hlayer, hreturned⟩ := layer_append hstates htokens chunk
    obtain ⟨pcm', lengths', hrest, hpcm', hlengths'⟩ :=
      ih (List.append_ne_nil_of_left_ne_nil htokens chunk.1)
        (pcm ++ [(codec.layer (codec.returnedStates states codecTokens) chunk.1).1])
        (lengths ++ [chunk.1.length * samplesPerFrame])
        (by rw [List.flatten_append, hpcm, hlayer, List.flatten_singleton])
        (by rw [List.sum_append, hlengths, List.sum_singleton, List.length_append, Nat.add_mul])
    rw [hreturned] at hrest
    rw [List.append_assoc, ← List.flatMap_cons] at hrest hpcm' hlengths'
    refine ⟨pcm', lengths', ?_, hpcm', hlengths'⟩
    rw [List.foldlM_cons, forward_stateful (hasSamples_returnedStates hstates htokens) chunk.2]
    exact hrest

/-- **Streaming decoding is whole-utterance decoding.** For every decoder that the exporter accepts,
every code sequence and every way of cutting it into chunks of at least one frame: the calls of the
schedule and the one initial call on the whole sequence return; the chunks of samples concatenate
to the samples of the whole, the valid lengths add up to its valid length, and the 97 states are the
same. -/
theorem decodeChunks_eq_forward (codec : ExplicitStateNanoCodec K) (first : CodecChunk)
    (rest : List CodecChunk) :
    ∃ pcm length states pcmChunks lengths,
      codec.forward true (first.1 ++ rest.flatMap Subtype.val) [] = .ok (pcm, length, states) ∧
        codec.decodeChunks first rest = .ok (pcmChunks, lengths, states) ∧
        pcmChunks.flatten = pcm ∧ lengths.sum = length ∧ states.length = 97 := by
  have hstates : ∀ name, HasSamples codec.decoder.stateSamples name
      (List.replicate (codec.decoder.stateSamples name) (0 : Step K)) :=
    fun name => List.length_replicate
  obtain ⟨pcmChunks, lengths, hrest, hpcm, hlengths⟩ := foldlM_forward codec hstates first.2 rest
    [_] [_] List.flatten_singleton List.sum_singleton
  refine ⟨_, _, _, pcmChunks, lengths,
    forward_initial (List.append_ne_nil_of_left_ne_nil first.2 _), ?_, hpcm, hlengths, ?_⟩
  · rw [decodeChunks, forward_initial first.2]
    exact hrest
  · rw [List.length_map, length_stateNames]

end ExplicitStateNanoCodec

end MagpieTts.Export
