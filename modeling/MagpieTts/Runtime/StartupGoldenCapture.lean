import Mathlib.Data.List.Basic
import MagpieTts.Bundle.BundleFiles
import MagpieTts.Library.BitFields
import MagpieTts.Library.Run
import MagpieTts.Library.Sha256
import MagpieTts.Library.ThrowingState
import MagpieTts.Manifest.DuplicateKeys

/-!
# The capture of the startup golden

`StartupGoldenCapture` of `startup_golden.cpp` records the chunks of codes and samples that the
pipeline hands to the codec, and hashes them for the comparison with the golden fixture: the codes
in the order of the chunks, and once more rearranged into one tensor with a row for each codebook.
`chunked_codec_code_bytes` of `finalize_runtime_acceptance.py` is how the exporter computes the
former.

Codes and samples are words; SHA-256 is a function `sha256` on lists of bytes.

## Main definitions

* `StartupGoldenCapture`, `recordChunk`, `finish`: the capture, its call and its end.
* `chunkedCodecCodeBytes`: the bytes of the exporter.

## Main results

* `recordChunk_accepted`, `recordChunk_rejected`: what a call does.
* `captureInvariant_run`: what any calls keep.
* `recordSchedule_run`: what the calls of a schedule leave.
* `startupCapture_agrees`: the hashes of a schedule, and what holds of any calls.
-/

namespace MagpieTts.Runtime

open MagpieTts.Library MagpieTts.Manifest MagpieTts.Bundle

/-! ### The capture -/

structure StartupGoldenCapture where
  codebooksPerFrame : UInt32
  codecHopLengthSamples : UInt32
  maximumAudioFrames : UInt32
  codecFrameCount : UInt64
  decoderCodebooks : List (List (BitVec 64))
  scheduledCodecCodes : List (BitVec 64)
  pcm : List (BitVec 32)
  deriving DecidableEq

structure StartupGoldenActual where
  decoderTokensSha256 : Bytes
  codecCodesSha256 : Bytes
  codecFrameCount : UInt64
  pcmF32leSha256 : Bytes
  pcmSampleCount : ℕ
  deriving DecidableEq

/-- What a member function throws: a `StartupGoldenError`, or the exception of `at`. -/
inductive CaptureException
  | startupGolden (error : StartupGoldenError)
  | outOfRange
  deriving DecidableEq

abbrev CaptureM := ExceptT CaptureException (StateM StartupGoldenCapture)

/-- `fail` with `invalid_capture` under a condition. -/
def failCaptureIf (condition : Prop) [Decidable condition] (detail : String) :
    Except CaptureException PUnit :=
  if condition then .error (.startupGolden ⟨.invalidCapture, detail⟩) else .ok ⟨⟩

/-- The constructor. -/
def StartupGoldenCapture.construct
    (codebooksPerFrame codecHopLengthSamples maximumAudioFrames : UInt32) :
    Except CaptureException StartupGoldenCapture := do
  failCaptureIf (codebooksPerFrame = 0 ∨ codecHopLengthSamples = 0 ∨ maximumAudioFrames = 0)
    "capture dimensions must be positive"
  return {
    codebooksPerFrame
    codecHopLengthSamples
    maximumAudioFrames
    codecFrameCount := 0
    decoderCodebooks := List.replicate codebooksPerFrame.toNat []
    scheduledCodecCodes := []
    pcm := [] }

/-- `std::isfinite` of a `float`: the exponent is not all ones. -/
def isFinite (sample : BitVec 32) : Bool := sample.extractLsb' 23 8 != 255#8

/-- The frames of a codebook in the codes of a chunk. -/
def codebookSlice (codecCodes : List (BitVec 64)) (codecFrameCount codebook : ℕ) :
    List (BitVec 64) :=
  (codecCodes.drop (codebook * codecFrameCount)).take codecFrameCount

/-- The pass of the loop of `record_chunk` for a codebook. -/
def appendCodebook (codecCodes : List (BitVec 64)) (codecFrameCount codebook : ℕ) :
    CaptureM PUnit := do
  let capture ← get
  check (if codebook < capture.decoderCodebooks.length then .ok ⟨⟩ else .error .outOfRange)
  set { capture with
    decoderCodebooks := capture.decoderCodebooks.modify codebook
      (· ++ codebookSlice codecCodes codecFrameCount codebook) }

/-- `record_chunk`. -/
def recordChunk (codecCodes : List (BitVec 64)) (codecFrameCount : UInt32)
    (pcm : List (BitVec 32)) : CaptureM PUnit := do
  let capture ← get
  check (failCaptureIf
    (codecFrameCount = 0 ∨
      capture.maximumAudioFrames.toUInt64 - capture.codecFrameCount < codecFrameCount.toUInt64)
    "captured codec frames exceed the authenticated limit")
  let expectedCodes := capture.codebooksPerFrame.toUInt64 * codecFrameCount.toUInt64
  let expectedSamples := capture.codecHopLengthSamples.toUInt64 * codecFrameCount.toUInt64
  check (failCaptureIf
    (codecCodes.length ≠ expectedCodes.toNat ∨ pcm.length ≠ expectedSamples.toNat)
    "captured code or PCM dimensions differ from the codec contract")
  check (failCaptureIf (pcm.any (fun sample => !isFinite sample) = true)
    "captured PCM contains a non-finite sample")
  modify fun self =>
    { self with scheduledCodecCodes := self.scheduledCodecCodes ++ codecCodes }
  (List.range capture.codebooksPerFrame.toNat).foldlM
    (fun _ => appendCodebook codecCodes codecFrameCount.toNat) ⟨⟩
  modify fun self => { self with pcm := self.pcm ++ pcm }
  modify fun self =>
    { self with codecFrameCount := self.codecFrameCount + codecFrameCount.toUInt64 }

/-- `update_little_endian`: the bytes of a word. -/
def updateLittleEndian {width : ℕ} (value : BitVec width) : Bytes :=
  (List.range (width / 8)).map fun index =>
    UInt8.ofBitVec ((value >>> (index * 8) &&& BitVec.ofNat width 255).setWidth 8)

/-- `hash_int64_le` and `hash_float32_le`. -/
def hashLe (sha256 : Bytes → Bytes) {width : ℕ} (values : List (BitVec width)) : Bytes :=
  hexDigest (sha256 (values.flatMap updateLittleEndian))

/-- `finish`. -/
def finish (sha256 : Bytes → Bytes) (capture : StartupGoldenCapture) :
    Except CaptureException StartupGoldenActual := do
  failCaptureIf (capture.codecFrameCount = 0) "startup capture contains no codec frames"
  let decoderTokens ← capture.decoderCodebooks.foldlM (fun decoderTokens codebook => do
    failCaptureIf (codebook.length ≠ capture.codecFrameCount.toNat)
      "decoder codebook lengths are inconsistent"
    return decoderTokens ++ codebook) []
  return {
    decoderTokensSha256 := hashLe sha256 decoderTokens
    codecCodesSha256 := hashLe sha256 capture.scheduledCodecCodes
    codecFrameCount := capture.codecFrameCount
    pcmF32leSha256 := hashLe sha256 capture.pcm
    pcmSampleCount := capture.pcm.length }

/-! ### The exporter -/

/-- An array of codes with its shape. -/
structure CodeArray where
  shape : List ℕ
  entry : ℕ → ℕ → ℕ → BitVec 64

/-- The error of `chunked_codec_code_bytes` and what its text shows. -/
structure ShapeMismatch where
  shape : List ℕ
  frameSchedule : List ℕ
  deriving DecidableEq

/-- `tobytes` of a slice `[:, :, start : stop]` made contiguous as `<i8`. -/
def sliceBytes (codes : CodeArray) (start stop : ℕ) : Bytes :=
  let last := codes.shape.getD 2 0
  (List.range (codes.shape.getD 0 0)).flatMap fun batch =>
    (List.range (codes.shape.getD 1 0)).flatMap fun codebook =>
      (List.range (min stop last - min start last)).flatMap fun frame =>
        (List.range 8).map fun byte =>
          UInt8.ofBitVec ((codes.entry batch codebook (min start last + frame)).extractLsb'
            (8 * byte) 8)

/-- `chunked_codec_code_bytes`. -/
def chunkedCodecCodeBytes (completeCodes : CodeArray) (frameSchedule : List ℕ) :
    Except ShapeMismatch Bytes :=
  if completeCodes.shape.length ≠ 3 ∨ completeCodes.shape[0]? ≠ some 1 ∨
      completeCodes.shape[1]? ≠ some 8 ∨ completeCodes.shape[2]? ≠ some frameSchedule.sum then
    .error ⟨completeCodes.shape, frameSchedule⟩
  else
    let loop := frameSchedule.foldl (fun (offset, chunks) frameCount =>
      (offset + frameCount, chunks ++ [sliceBytes completeCodes offset (offset + frameCount)]))
      (0, [])
    .ok loop.2.flatten

/-! ### One call -/

/-- What every capture has that its calls leave. -/
structure CaptureInvariant (capture : StartupGoldenCapture) : Prop where
  frames : capture.codecFrameCount.toNat ≤ capture.maximumAudioFrames.toNat
  codebooks : capture.decoderCodebooks.length = capture.codebooksPerFrame.toNat
  lengths : ∀ codebook ∈ capture.decoderCodebooks,
    codebook.length = capture.codecFrameCount.toNat

/-- The chunks that a capture takes. -/
structure Accepts (capture : StartupGoldenCapture) (codecCodes : List (BitVec 64))
    (codecFrameCount : UInt32) (pcm : List (BitVec 32)) : Prop where
  positive : 0 < codecFrameCount.toNat
  frames : capture.codecFrameCount.toNat + codecFrameCount.toNat ≤
    capture.maximumAudioFrames.toNat
  codes : codecCodes.length = capture.codebooksPerFrame.toNat * codecFrameCount.toNat
  samples : pcm.length = capture.codecHopLengthSamples.toNat * codecFrameCount.toNat
  finite : ∀ sample ∈ pcm, isFinite sample = true

/-- The capture behind a chunk that it takes. -/
def StartupGoldenCapture.recorded (capture : StartupGoldenCapture) (codecCodes : List (BitVec 64))
    (codecFrameCount : UInt32) (pcm : List (BitVec 32)) : StartupGoldenCapture :=
  { capture with
    codecFrameCount := capture.codecFrameCount + codecFrameCount.toUInt64
    decoderCodebooks := capture.decoderCodebooks.mapIdx fun codebook row =>
      row ++ codebookSlice codecCodes codecFrameCount.toNat codebook
    scheduledCodecCodes := capture.scheduledCodecCodes ++ codecCodes
    pcm := capture.pcm ++ pcm }

theorem failCaptureIf_eq_ok_iff {condition : Prop} [Decidable condition] {detail : String}
    {value : PUnit} : failCaptureIf condition detail = .ok value ↔ ¬ condition := by
  unfold failCaptureIf
  split_ifs with h
  · exact ⟨nofun, fun hnot => absurd h hnot⟩
  · exact ⟨fun _ => h, fun _ => rfl⟩

theorem meets_failCaptureIf {condition : Prop} [Decidable condition] {detail : String}
    {capture : StartupGoldenCapture} {returns : PUnit → StartupGoldenCapture → Prop}
    {throws : CaptureException → StartupGoldenCapture → Prop} :
    Meets (check (failCaptureIf condition detail)) capture returns throws ↔
      (condition → throws (.startupGolden ⟨.invalidCapture, detail⟩) capture) ∧
        (¬ condition → returns ⟨⟩ capture) := by
  unfold failCaptureIf
  split_ifs with h
  · exact ⟨fun hthrows => ⟨fun _ => hthrows, fun hnot => absurd h hnot⟩, fun hboth => hboth.1 h⟩
  · exact ⟨fun hreturns => ⟨fun hyes => absurd hyes h, fun _ => hreturns⟩, fun hboth => hboth.2 h⟩

theorem toNat_toUInt64_mul (a b : UInt32) :
    (a.toUInt64 * b.toUInt64).toNat = a.toNat * b.toNat := by
  have hproduct : a.toNat * b.toNat < 2 ^ 32 * 2 ^ 32 :=
    Nat.mul_lt_mul'' a.toNat_lt b.toNat_lt
  rw [UInt64.toNat_mul, UInt32.toNat_toUInt64, UInt32.toNat_toUInt64]
  exact Nat.mod_eq_of_lt hproduct

/-- The subtraction of the first check does not wrap around. -/
theorem frameCheck_iff {capture : StartupGoldenCapture}
    (hframes : capture.codecFrameCount.toNat ≤ capture.maximumAudioFrames.toNat)
    (codecFrameCount : UInt32) :
    (codecFrameCount = 0 ∨
        capture.maximumAudioFrames.toUInt64 - capture.codecFrameCount < codecFrameCount.toUInt64) ↔
      ¬ (0 < codecFrameCount.toNat ∧ capture.codecFrameCount.toNat + codecFrameCount.toNat ≤
        capture.maximumAudioFrames.toNat) := by
  have hle : capture.codecFrameCount ≤ capture.maximumAudioFrames.toUInt64 := by
    rw [UInt64.le_iff_toNat_le, UInt32.toNat_toUInt64]
    exact hframes
  have hzero : codecFrameCount = 0 ↔ codecFrameCount.toNat = 0 := by
    rw [← UInt32.toNat_inj]
    rfl
  rw [hzero, UInt64.lt_iff_toNat_lt, UInt64.toNat_sub_of_le _ _ hle, UInt32.toNat_toUInt64,
    UInt32.toNat_toUInt64]
  omega

/-- A loop that modifies the rows of a list in turn. -/
theorem modify_mapIdx {β : Type} (rows : List β) (f : ℕ → β → β) (k : ℕ) :
    (rows.mapIdx fun i row => if i < k then f i row else row).modify k (f k) =
      rows.mapIdx fun i row => if i < k + 1 then f i row else row := by
  refine List.ext_getElem? fun i => ?_
  rw [List.getElem?_modify, List.getElem?_mapIdx, List.getElem?_mapIdx]
  rcases rows[i]? with _ | row
  · simp
  · simp only [Option.map_eq_map, Option.map_some]
    rcases Nat.lt_trichotomy i k with hlt | rfl | hgt
    · rw [if_neg hlt.ne', if_pos hlt, if_pos (Nat.lt_succ_of_lt hlt)]
    · rw [if_pos rfl, if_neg (Nat.lt_irrefl i), if_pos (Nat.lt_succ_self i)]
    · rw [if_neg hgt.ne, if_neg (Nat.not_lt.mpr hgt.le), if_neg (Nat.not_lt.mpr hgt)]

/-- The loop of `record_chunk`, over the codebooks below `k`. -/
theorem meets_appendCodebooks {codecCodes : List (BitVec 64)} {codecFrameCount : ℕ} (k : ℕ)
    {capture : StartupGoldenCapture} (hk : k ≤ capture.decoderCodebooks.length)
    {returns : PUnit → StartupGoldenCapture → Prop}
    {throws : CaptureException → StartupGoldenCapture → Prop} :
    Meets ((List.range k).foldlM (fun _ => appendCodebook codecCodes codecFrameCount) ⟨⟩) capture
        returns throws ↔
      returns ⟨⟩ { capture with
        decoderCodebooks := capture.decoderCodebooks.mapIdx fun codebook row =>
          if codebook < k then row ++ codebookSlice codecCodes codecFrameCount codebook
          else row } := by
  induction k generalizing returns with
  | zero =>
    rw [List.range_zero, List.foldlM_nil, meets_pure]
    simp only [Nat.not_lt_zero, if_false, List.mapIdx_eq_zipIdx_map, List.zipIdx_map_fst]
  | succ k ih =>
    rw [List.range_succ, List.foldlM_append, meets_bind, ih (Nat.le_of_succ_le hk),
      List.foldlM_cons, meets_bind, appendCodebook, meets_bind, meets_get, meets_bind, meets_check]
    simp only [List.length_mapIdx, if_pos (Nat.lt_of_succ_le hk), List.foldlM_nil, meets_set,
      meets_pure]
    rw [modify_mapIdx capture.decoderCodebooks fun codebook row =>
      row ++ codebookSlice codecCodes codecFrameCount codebook]
    exact ⟨fun h => h.1 ⟨⟩ trivial, fun h => ⟨fun _ _ => h, fun _ hthrown => by cases hthrown⟩⟩

/-- A call records the chunk or throws and changes nothing. -/
theorem meets_recordChunk {capture : StartupGoldenCapture} (hinv : CaptureInvariant capture)
    (codecCodes : List (BitVec 64)) (codecFrameCount : UInt32) (pcm : List (BitVec 32)) :
    Meets (recordChunk codecCodes codecFrameCount pcm) capture
      (fun _ next => Accepts capture codecCodes codecFrameCount pcm ∧
        next = capture.recorded codecCodes codecFrameCount pcm)
      fun _ next => ¬ Accepts capture codecCodes codecFrameCount pcm ∧ next = capture := by
  rw [recordChunk, meets_bind, meets_get, meets_bind, meets_failCaptureIf,
    frameCheck_iff hinv.frames]
  refine ⟨fun hframes => ⟨fun h => hframes ⟨h.positive, h.frames⟩, rfl⟩, fun hframes => ?_⟩
  obtain ⟨hpositive, hframes⟩ := not_not.mp hframes
  dsimp only
  rw [meets_bind, meets_failCaptureIf, toNat_toUInt64_mul, toNat_toUInt64_mul]
  refine ⟨fun hsizes => ⟨fun h => hsizes.elim (· h.codes) (· h.samples), rfl⟩, fun hsizes => ?_⟩
  obtain ⟨hcodes, hsamples⟩ := not_or.mp hsizes
  rw [meets_bind, meets_failCaptureIf]
  refine ⟨fun hfinite => ⟨fun h => ?_, rfl⟩, fun hfinite => ?_⟩
  · obtain ⟨sample, hsample, hnot⟩ := List.any_eq_true.mp hfinite
    rw [h.finite sample hsample] at hnot
    exact Bool.noConfusion hnot
  · have haccepts : Accepts capture codecCodes codecFrameCount pcm :=
      { positive := hpositive
        frames := hframes
        codes := not_not.mp hcodes
        samples := not_not.mp hsamples
        finite := by simpa using hfinite }
    rw [meets_bind, meets_modify, meets_bind,
      meets_appendCodebooks capture.codebooksPerFrame.toNat (by exact hinv.codebooks.ge)]
    simp only [meets_bind, meets_modify]
    refine ⟨haccepts, ?_⟩
    rw [StartupGoldenCapture.recorded, StartupGoldenCapture.mk.injEq]
    refine ⟨rfl, rfl, rfl, rfl, ?_, rfl, rfl⟩
    refine List.mapIdx_eq_mapIdx_iff.mpr fun codebook hcodebook => if_pos ?_
    exact hinv.codebooks ▸ hcodebook

/-- A chunk that the capture takes is recorded. -/
theorem recordChunk_accepted {capture : StartupGoldenCapture} (hinv : CaptureInvariant capture)
    {codecCodes : List (BitVec 64)} {codecFrameCount : UInt32} {pcm : List (BitVec 32)}
    (h : Accepts capture codecCodes codecFrameCount pcm) :
    (recordChunk codecCodes codecFrameCount pcm).run.run capture =
      (.ok ⟨⟩, capture.recorded codecCodes codecFrameCount pcm) := by
  rcases (meets_recordChunk hinv codecCodes codecFrameCount pcm).outcome with
    ⟨_, next, hrun, -, rfl⟩ | ⟨exception, next, -, hnot, -⟩
  · exact hrun
  · exact absurd h hnot

/-- Any other chunk leaves the capture as it was. -/
theorem recordChunk_rejected {capture : StartupGoldenCapture} (hinv : CaptureInvariant capture)
    {codecCodes : List (BitVec 64)} {codecFrameCount : UInt32} {pcm : List (BitVec 32)}
    (h : ¬ Accepts capture codecCodes codecFrameCount pcm) :
    ∃ exception, (recordChunk codecCodes codecFrameCount pcm).run.run capture =
      (.error exception, capture) := by
  rcases (meets_recordChunk hinv codecCodes codecFrameCount pcm).outcome with
    ⟨_, next, -, haccepts, -⟩ | ⟨exception, next, hrun, -, rfl⟩
  · exact absurd haccepts h
  · exact ⟨exception, hrun⟩

theorem eq_of_recordChunk_error {capture next : StartupGoldenCapture}
    (hinv : CaptureInvariant capture) {codecCodes : List (BitVec 64)} {codecFrameCount : UInt32}
    {pcm : List (BitVec 32)} {exception : CaptureException}
    (h : (recordChunk codecCodes codecFrameCount pcm).run.run capture = (.error exception, next)) :
    next = capture := by
  by_cases haccepts : Accepts capture codecCodes codecFrameCount pcm
  · rw [recordChunk_accepted hinv haccepts] at h
    cases h
  · obtain ⟨_, hrejected⟩ := recordChunk_rejected hinv haccepts
    rw [hrejected] at h
    exact (Prod.mk.inj h).2.symm

/-! ### Any calls -/

/-- A call of `record_chunk`. -/
structure RecordCall where
  codecCodes : List (BitVec 64)
  codecFrameCount : UInt32
  pcm : List (BitVec 32)

/-- The capture behind a call, whether it returns or throws. -/
def recordStep (capture : StartupGoldenCapture) (call : RecordCall) : StartupGoldenCapture :=
  ((recordChunk call.codecCodes call.codecFrameCount call.pcm).run.run capture).2

theorem construct_eq_ok_iff {codebooksPerFrame codecHopLengthSamples maximumAudioFrames : UInt32}
    {capture : StartupGoldenCapture} :
    StartupGoldenCapture.construct codebooksPerFrame codecHopLengthSamples maximumAudioFrames =
        .ok capture ↔
      ¬ (codebooksPerFrame = 0 ∨ codecHopLengthSamples = 0 ∨ maximumAudioFrames = 0) ∧
        (⟨codebooksPerFrame, codecHopLengthSamples, maximumAudioFrames, 0,
          List.replicate codebooksPerFrame.toNat [], [], []⟩ : StartupGoldenCapture) =
            capture := by
  rw [StartupGoldenCapture.construct, bind_eq_ok_iff]
  simp only [failCaptureIf_eq_ok_iff]
  constructor
  · rintro ⟨_, hdimensions, hreturn⟩
    exact ⟨hdimensions, Except.ok.inj hreturn⟩
  · rintro ⟨hdimensions, rfl⟩
    exact ⟨⟨⟩, hdimensions, rfl⟩

theorem captureInvariant_construct {codebooksPerFrame codecHopLengthSamples maximumAudioFrames :
    UInt32} {capture : StartupGoldenCapture}
    (h : StartupGoldenCapture.construct codebooksPerFrame codecHopLengthSamples
      maximumAudioFrames = .ok capture) : CaptureInvariant capture := by
  obtain ⟨-, rfl⟩ := construct_eq_ok_iff.mp h
  exact
    { frames := Nat.zero_le _
      codebooks := List.length_replicate
      lengths := fun codebook hmem => by rw [List.eq_of_mem_replicate hmem]; rfl }

theorem length_codebookSlice {capture : StartupGoldenCapture} {codecCodes : List (BitVec 64)}
    {codecFrameCount : UInt32} {pcm : List (BitVec 32)}
    (h : Accepts capture codecCodes codecFrameCount pcm) {codebook : ℕ}
    (hcodebook : codebook < capture.codebooksPerFrame.toNat) :
    (codebookSlice codecCodes codecFrameCount.toNat codebook).length = codecFrameCount.toNat := by
  rw [codebookSlice, List.length_take, List.length_drop, h.codes, ← Nat.sub_mul]
  exact Nat.min_eq_left (Nat.le_mul_of_pos_left _ (Nat.sub_pos_of_lt hcodebook))

/-- The counter of the frames does not wrap around. -/
theorem toNat_codecFrameCount_recorded {capture : StartupGoldenCapture}
    {codecCodes : List (BitVec 64)} {codecFrameCount : UInt32} {pcm : List (BitVec 32)}
    (h : Accepts capture codecCodes codecFrameCount pcm) :
    (capture.recorded codecCodes codecFrameCount pcm).codecFrameCount.toNat =
      capture.codecFrameCount.toNat + codecFrameCount.toNat := by
  have hmaximum := capture.maximumAudioFrames.toNat_lt
  have hframes := h.frames
  rw [StartupGoldenCapture.recorded, UInt64.toNat_add, UInt32.toNat_toUInt64]
  exact Nat.mod_eq_of_lt (by omega)

theorem captureInvariant_recorded {capture : StartupGoldenCapture}
    (hinv : CaptureInvariant capture) {codecCodes : List (BitVec 64)} {codecFrameCount : UInt32}
    {pcm : List (BitVec 32)} (h : Accepts capture codecCodes codecFrameCount pcm) :
    CaptureInvariant (capture.recorded codecCodes codecFrameCount pcm) where
  frames := by
    rw [toNat_codecFrameCount_recorded h]
    exact h.frames
  codebooks := by
    rw [StartupGoldenCapture.recorded, List.length_mapIdx]
    exact hinv.codebooks
  lengths := fun row hrow => by
    rw [toNat_codecFrameCount_recorded h]
    obtain ⟨codebook, hcodebook, rfl⟩ := List.mem_mapIdx.mp hrow
    rw [List.length_append, hinv.lengths _ (List.getElem_mem hcodebook),
      length_codebookSlice h (hinv.codebooks ▸ hcodebook)]

theorem captureInvariant_recordStep {capture : StartupGoldenCapture}
    (hinv : CaptureInvariant capture) (call : RecordCall) :
    CaptureInvariant (recordStep capture call) := by
  rw [recordStep]
  by_cases h : Accepts capture call.codecCodes call.codecFrameCount call.pcm
  · rw [recordChunk_accepted hinv h]
    exact captureInvariant_recorded hinv h
  · obtain ⟨exception, hrun⟩ := recordChunk_rejected hinv h
    rw [hrun]
    exact hinv

theorem maximumAudioFrames_recordStep {capture : StartupGoldenCapture}
    (hinv : CaptureInvariant capture) (call : RecordCall) :
    (recordStep capture call).maximumAudioFrames = capture.maximumAudioFrames := by
  rw [recordStep]
  by_cases h : Accepts capture call.codecCodes call.codecFrameCount call.pcm
  · rw [recordChunk_accepted hinv h]
    rfl
  · obtain ⟨exception, hrun⟩ := recordChunk_rejected hinv h
    rw [hrun]

/-- Whatever the calls, the capture keeps its limit and codebooks of one length. -/
theorem captureInvariant_run {capture : StartupGoldenCapture} (hinv : CaptureInvariant capture)
    (calls : List RecordCall) : CaptureInvariant (run recordStep capture calls) ∧
      (run recordStep capture calls).maximumAudioFrames = capture.maximumAudioFrames :=
  run_induction (I := fun reached => CaptureInvariant reached ∧
      reached.maximumAudioFrames = capture.maximumAudioFrames)
    (fun _ call h => ⟨captureInvariant_recordStep h.1 call,
      (maximumAudioFrames_recordStep h.1 call).trans h.2⟩) ⟨hinv, rfl⟩ calls

/-- A capture with codebooks of one length finishes, once it has a frame. -/
theorem finish_eq (sha256 : Bytes → Bytes) {capture : StartupGoldenCapture}
    (hinv : CaptureInvariant capture) :
    finish sha256 capture =
      if capture.codecFrameCount = 0 then
        .error (.startupGolden ⟨.invalidCapture, "startup capture contains no codec frames"⟩)
      else .ok {
        decoderTokensSha256 := hashLe sha256 capture.decoderCodebooks.flatten
        codecCodesSha256 := hashLe sha256 capture.scheduledCodecCodes
        codecFrameCount := capture.codecFrameCount
        pcmF32leSha256 := hashLe sha256 capture.pcm
        pcmSampleCount := capture.pcm.length } := by
  have hloop (codebooks : List (List (BitVec 64))) (tokens : List (BitVec 64))
      (hcodebooks : ∀ codebook ∈ codebooks, codebook.length = capture.codecFrameCount.toNat) :
      codebooks.foldlM (fun decoderTokens codebook => do
        failCaptureIf (codebook.length ≠ capture.codecFrameCount.toNat)
          "decoder codebook lengths are inconsistent"
        return decoderTokens ++ codebook) tokens =
      (.ok (tokens ++ codebooks.flatten) : Except CaptureException _) := by
    induction codebooks generalizing tokens with
    | nil => simp [pure, Except.pure]
    | cons codebook codebooks ih =>
      rw [List.forall_mem_cons] at hcodebooks
      rw [List.foldlM_cons, failCaptureIf, if_neg (not_not.mpr hcodebooks.1)]
      refine (ih _ hcodebooks.2).trans ?_
      rw [List.append_assoc, List.flatten_cons]
  rw [finish, hloop _ _ hinv.lengths]
  split_ifs with hframes
  · rw [failCaptureIf, if_pos hframes]
    rfl
  · rw [failCaptureIf, if_neg hframes]
    rfl

/-! ### A schedule -/

section Schedule

variable (codebooks : ℕ) (entry : ℕ → ℕ → BitVec 64)

/-- The codes of a tensor `[1, codebooks, frames]` at `count` frames from `offset` on, codebook by
codebook. -/
def sliceCodes (offset count : ℕ) : List (BitVec 64) :=
  (List.range codebooks).flatMap fun codebook =>
    (List.range count).map fun frame => entry codebook (offset + frame)

/-- The codes of the slices of a schedule, one slice after the other. -/
def scheduledCodes : ℕ → List ℕ → List (BitVec 64)
  | _, [] => []
  | offset, count :: schedule =>
      sliceCodes codebooks entry offset count ++ scheduledCodes (offset + count) schedule

/-- The calls for the slices of a schedule, each with its samples. -/
def scheduleCalls : ℕ → List (ℕ × List (BitVec 32)) → List RecordCall
  | _, [] => []
  | offset, (count, pcm) :: chunks =>
      ⟨sliceCodes codebooks entry offset count, UInt32.ofNat count, pcm⟩ ::
        scheduleCalls (offset + count) chunks

end Schedule

/-- The calls, up to the first that throws. -/
def recordAll (calls : List RecordCall) : CaptureM PUnit :=
  calls.foldlM (fun _ call => recordChunk call.codecCodes call.codecFrameCount call.pcm) ⟨⟩

/-- A chunk of a schedule: it has frames, and finite samples for each. -/
def ChunkValid (codecHopLengthSamples : ℕ) (chunk : ℕ × List (BitVec 32)) : Prop :=
  0 < chunk.1 ∧ chunk.2.length = codecHopLengthSamples * chunk.1 ∧
    ∀ sample ∈ chunk.2, isFinite sample = true

variable {codebooks : ℕ} {entry : ℕ → ℕ → BitVec 64}

theorem length_sliceCodes (offset count : ℕ) :
    (sliceCodes codebooks entry offset count).length = codebooks * count := by
  rw [sliceCodes, List.length_flatMap]
  simp

/-- The row of a codebook in a slice. -/
theorem codebookSlice_sliceCodes {offset count codebook : ℕ} (hcodebook : codebook < codebooks) :
    codebookSlice (sliceCodes codebooks entry offset count) count codebook =
      (List.range count).map fun frame => entry codebook (offset + frame) := by
  obtain ⟨rest, rfl⟩ := Nat.exists_eq_add_of_lt hcodebook
  have hsplit : sliceCodes (codebook + rest + 1) entry offset count =
      sliceCodes codebook entry offset count ++
        ((List.range count).map (fun frame => entry codebook (offset + frame)) ++
          ((List.range rest).map (codebook + 1 + ·)).flatMap fun codebook =>
            (List.range count).map fun frame => entry codebook (offset + frame)) := by
    have hrange : List.range (codebook + rest + 1) =
        List.range codebook ++ codebook :: (List.range rest).map (codebook + 1 + ·) := by
      rw [show codebook + rest + 1 = codebook + 1 + rest by omega, List.range_add,
        List.range_succ, List.append_assoc, List.singleton_append]
    rw [sliceCodes, hrange, List.flatMap_append, List.flatMap_cons, ← sliceCodes]
  rw [codebookSlice, hsplit, List.drop_left' (length_sliceCodes ..), List.take_left' (by simp)]

/-- The rows that a capture holds after the first frames of a tensor. -/
def rowsUntil (codebooks : ℕ) (entry : ℕ → ℕ → BitVec 64) (frames : ℕ) :
    List (List (BitVec 64)) :=
  (List.range codebooks).map fun codebook => (List.range frames).map (entry codebook)

theorem mapIdx_rowsUntil (offset count : ℕ) :
    ((rowsUntil codebooks entry offset).mapIdx fun codebook row =>
        row ++ codebookSlice (sliceCodes codebooks entry offset count) count codebook) =
      rowsUntil codebooks entry (offset + count) := by
  refine List.ext_getElem (by simp [rowsUntil]) fun codebook hcodebook _ => ?_
  have hbound : codebook < codebooks := by simpa [rowsUntil] using hcodebook
  simp only [rowsUntil, List.getElem_mapIdx, List.getElem_map, List.getElem_range]
  rw [codebookSlice_sliceCodes hbound, List.range_add, List.map_append, List.map_map]
  rfl

/-- The calls of a schedule return, and leave the rows of the tensor, the slices one after the other
and the samples. -/
theorem recordSchedule_run {chunks : List (ℕ × List (BitVec 32))} {capture : StartupGoldenCapture}
    {offset : ℕ} (hinv : CaptureInvariant capture)
    (hframes : capture.codecFrameCount.toNat = offset)
    (hrows : capture.decoderCodebooks =
      rowsUntil capture.codebooksPerFrame.toNat entry offset)
    (hchunks : ∀ chunk ∈ chunks, ChunkValid capture.codecHopLengthSamples.toNat chunk)
    (hlimit : offset + (chunks.map Prod.fst).sum ≤ capture.maximumAudioFrames.toNat) :
    ∃ final, (recordAll (scheduleCalls capture.codebooksPerFrame.toNat entry offset chunks)).run.run
        capture = (.ok ⟨⟩, final) ∧ CaptureInvariant final ∧
      final.codecFrameCount.toNat = offset + (chunks.map Prod.fst).sum ∧
      final.decoderCodebooks =
        rowsUntil capture.codebooksPerFrame.toNat entry (offset + (chunks.map Prod.fst).sum) ∧
      final.scheduledCodecCodes = capture.scheduledCodecCodes ++
        scheduledCodes capture.codebooksPerFrame.toNat entry offset (chunks.map Prod.fst) ∧
      final.pcm = capture.pcm ++ (chunks.map Prod.snd).flatten := by
  induction chunks generalizing capture offset with
  | nil =>
    refine ⟨capture, rfl, hinv, hframes, hrows, ?_, ?_⟩
    · exact (List.append_nil _).symm
    · exact (List.append_nil _).symm
  | cons chunk chunks ih =>
    obtain ⟨count, pcm⟩ := chunk
    rw [List.forall_mem_cons] at hchunks
    obtain ⟨⟨hpositive, hsamples, hfinite⟩, hchunks⟩ := hchunks
    rw [List.map_cons, List.sum_cons, ← Nat.add_assoc] at hlimit ⊢
    have hcount : (UInt32.ofNat count).toNat = count := by
      refine UInt32.toNat_ofNat_of_lt' (Nat.lt_of_le_of_lt ?_ capture.maximumAudioFrames.toNat_lt)
      omega
    have haccepts : Accepts capture (sliceCodes capture.codebooksPerFrame.toNat entry offset count)
        (UInt32.ofNat count) pcm := by
      refine ⟨?_, ?_, ?_, ?_, hfinite⟩ <;> rw [hcount]
      · exact hpositive
      · rw [hframes]
        exact Nat.le_trans (Nat.le_add_right _ _) hlimit
      · exact length_sliceCodes ..
      · exact hsamples
    have hrecorded := toNat_codecFrameCount_recorded haccepts
    rw [hcount, hframes] at hrecorded
    have hnextRows : (capture.recorded (sliceCodes capture.codebooksPerFrame.toNat entry offset
        count) (UInt32.ofNat count) pcm).decoderCodebooks =
          rowsUntil capture.codebooksPerFrame.toNat entry (offset + count) := by
      rw [StartupGoldenCapture.recorded, hcount, hrows]
      exact mapIdx_rowsUntil offset count
    obtain ⟨final, hrun, hfinal, hfinalFrames, hfinalRows, hcodes, hpcm⟩ :=
      ih (captureInvariant_recorded hinv haccepts) hrecorded hnextRows hchunks hlimit
    refine ⟨final, ?_, hfinal, hfinalFrames, hfinalRows, ?_, ?_⟩
    · refine run_eq_of_meets ?_
      rw [scheduleCalls, recordAll, List.foldlM_cons, meets_bind,
        meets_of_run_eq (recordChunk_accepted hinv haccepts)]
      exact (meets_of_run_eq hrun).mpr ⟨rfl, rfl⟩
    · rw [hcodes, StartupGoldenCapture.recorded, List.append_assoc]
      rfl
    · rw [hpcm, StartupGoldenCapture.recorded, List.append_assoc]
      rfl

/-- The codes of a tensor in the order of its entries. -/
def rowMajorCodes (codebooks frames : ℕ) (entry : ℕ → ℕ → BitVec 64) : List (BitVec 64) :=
  (List.range codebooks).flatMap fun codebook => (List.range frames).map (entry codebook)

theorem flatten_rowsUntil (frames : ℕ) :
    (rowsUntil codebooks entry frames).flatten = rowMajorCodes codebooks frames entry := by
  rw [rowsUntil, ← List.flatMap_def, rowMajorCodes]

/-- A tensor `[1, codebooks, frames]` of the exporter. -/
def codeArray (codebooks frames : ℕ) (entry : ℕ → ℕ → BitVec 64) : CodeArray :=
  ⟨[1, codebooks, frames], fun _ => entry⟩

theorem littleEndian_eq (value : BitVec 64) :
    ((List.range 8).map fun byte => UInt8.ofBitVec (value.extractLsb' (8 * byte) 8)) =
      updateLittleEndian value := by
  refine List.map_congr_left fun byte _ => congrArg UInt8.ofBitVec ?_
  refine BitVec.eq_of_toNat_eq ?_
  have hmask : (BitVec.ofNat 64 255).toNat = 2 ^ 8 - 1 := rfl
  rw [BitVec.extractLsb'_toNat, BitVec.toNat_setWidth, toNat_ushiftRight_and hmask, Nat.mod_mod,
    Nat.shiftRight_eq_div_pow, Nat.mul_comm]

/-- The bytes of a slice. -/
theorem sliceBytes_codeArray {frames offset count : ℕ} (h : offset + count ≤ frames) :
    sliceBytes (codeArray codebooks frames entry) offset (offset + count) =
      (sliceCodes codebooks entry offset count).flatMap updateLittleEndian := by
  have hstart : min offset frames = offset :=
    Nat.min_eq_left (Nat.le_trans (Nat.le_add_right _ _) h)
  rw [sliceBytes, sliceCodes, List.flatMap_assoc]
  simp only [codeArray, List.getD_cons_succ, List.getD_cons_zero, hstart, Nat.min_eq_left h,
    Nat.add_sub_cancel_left, List.flatMap_map, littleEndian_eq]
  exact List.flatMap_singleton (fun _ => _) 0

/-- The exporter gives the bytes of the slices, one slice after the other. -/
theorem chunkedCodecCodeBytes_eq (entry : ℕ → ℕ → BitVec 64) (schedule : List ℕ) :
    chunkedCodecCodeBytes (codeArray 8 schedule.sum entry) schedule =
      .ok ((scheduledCodes 8 entry 0 schedule).flatMap updateLittleEndian) := by
  have hloop (frames : ℕ) (rest : List ℕ) (offset : ℕ) (chunks : List Bytes)
      (hrest : offset + rest.sum ≤ frames) :
      (rest.foldl (fun (offset, chunks) frameCount => (offset + frameCount,
        chunks ++ [sliceBytes (codeArray 8 frames entry) offset (offset + frameCount)]))
        (offset, chunks)).2.flatten =
        chunks.flatten ++ (scheduledCodes 8 entry offset rest).flatMap updateLittleEndian := by
    induction rest generalizing offset chunks with
    | nil => exact (List.append_nil _).symm
    | cons count rest ih =>
      rw [List.sum_cons, ← Nat.add_assoc] at hrest
      rw [List.foldl_cons, ih _ _ hrest,
        sliceBytes_codeArray (Nat.le_trans (Nat.le_add_right _ _) hrest), scheduledCodes,
        List.flatMap_append, List.flatten_append, List.append_assoc]
      simp
  rw [chunkedCodecCodeBytes, if_neg (by simp [codeArray])]
  exact congrArg Except.ok (hloop _ schedule 0 [] (Nat.zero_add _).le)

/-! ### The capture as a whole -/

/-- The capture of the startup golden. For every tensor and every schedule with at least one chunk,
within the limit, the calls return and the capture finishes; it hashes the codes of the tensor in
the order of the entries, which do not depend on the schedule, and the codes of the slices in the
order of the schedule, which with eight codebooks are those of the exporter. For any calls at all, a
call that throws changes nothing, the frames stay within the limit, and the codebooks are of one
length at the end. -/
theorem startupCapture_agrees (sha256 : Bytes → Bytes)
    (codebooksPerFrame codecHopLengthSamples maximumAudioFrames : UInt32) :
    (∀ (entry : ℕ → ℕ → BitVec 64) (chunks : List (ℕ × List (BitVec 32))) capture,
        StartupGoldenCapture.construct codebooksPerFrame codecHopLengthSamples maximumAudioFrames =
          .ok capture →
        chunks ≠ [] → (∀ chunk ∈ chunks, ChunkValid codecHopLengthSamples.toNat chunk) →
        ∀ schedule, chunks.map Prod.fst = schedule →
        schedule.sum ≤ maximumAudioFrames.toNat →
        ∃ final actual,
          (recordAll (scheduleCalls codebooksPerFrame.toNat entry 0 chunks)).run.run capture =
            (.ok ⟨⟩, final) ∧
          finish sha256 final = .ok actual ∧
          actual.decoderTokensSha256 =
            hashLe sha256 (rowMajorCodes codebooksPerFrame.toNat schedule.sum entry) ∧
          actual.codecCodesSha256 =
            hashLe sha256 (scheduledCodes codebooksPerFrame.toNat entry 0 schedule) ∧
          (codebooksPerFrame = 8 → ∃ bytes,
            chunkedCodecCodeBytes (codeArray codebooksPerFrame.toNat schedule.sum entry) schedule =
              .ok bytes ∧ actual.codecCodesSha256 = hexDigest (sha256 bytes))) ∧
      ∀ capture, StartupGoldenCapture.construct codebooksPerFrame codecHopLengthSamples
          maximumAudioFrames = .ok capture →
        ∀ calls reached, run recordStep capture calls = reached →
          (∀ (call : RecordCall) exception next,
            (recordChunk call.codecCodes call.codecFrameCount call.pcm).run.run reached =
              (.error exception, next) → next = reached) ∧
          reached.codecFrameCount.toNat ≤ maximumAudioFrames.toNat ∧
          finish sha256 reached ≠
            .error (.startupGolden ⟨.invalidCapture, "decoder codebook lengths are inconsistent"⟩)
    := by
  constructor
  · rintro entry chunks capture hconstruct hchunks hvalid schedule rfl hlimit
    have hinv := captureInvariant_construct hconstruct
    obtain ⟨-, rfl⟩ := construct_eq_ok_iff.mp hconstruct
    have hempty : List.replicate codebooksPerFrame.toNat [] =
        rowsUntil codebooksPerFrame.toNat entry 0 := by
      rw [rowsUntil]
      simp only [List.range_zero, List.map_nil, List.map_const', List.length_range]
    have hstart : 0 + (chunks.map Prod.fst).sum ≤ maximumAudioFrames.toNat := by
      rwa [Nat.zero_add]
    obtain ⟨final, hrun, hfinal, hframes, hrows, hcodes, -⟩ :=
      recordSchedule_run hinv (show _ = 0 from rfl) hempty hvalid hstart
    rw [Nat.zero_add] at hframes hrows
    -- some chunk has a frame
    obtain ⟨chunk, hchunk⟩ := List.exists_mem_of_ne_nil chunks hchunks
    have hpositive : 0 < (chunks.map Prod.fst).sum :=
      List.sum_pos_iff_exists_pos_nat.mpr
        ⟨chunk.1, List.mem_map_of_mem hchunk, (hvalid chunk hchunk).1⟩
    have hsome : final.codecFrameCount ≠ 0 := fun hzero => by
      rw [hzero] at hframes
      exact absurd hframes hpositive.ne
    refine ⟨final, _, hrun, (finish_eq sha256 hfinal).trans (if_neg hsome), ?_, ?_, ?_⟩
    · rw [← flatten_rowsUntil, ← hrows]
    · exact congrArg (hashLe sha256) (hcodes.trans (List.nil_append _))
    · rintro rfl
      refine ⟨_, chunkedCodecCodeBytes_eq entry _, ?_⟩
      exact congrArg (hashLe sha256) (hcodes.trans (List.nil_append _))
  · rintro capture hconstruct calls reached rfl
    obtain ⟨hinv, hmaximum⟩ := captureInvariant_run (captureInvariant_construct hconstruct) calls
    obtain ⟨-, rfl⟩ := construct_eq_ok_iff.mp hconstruct
    refine ⟨fun call exception next hrun => ?_, ?_, ?_⟩
    · exact eq_of_recordChunk_error hinv hrun
    · exact (congrArg UInt32.toNat hmaximum).subst hinv.frames
    · rw [finish_eq sha256 hinv]
      split_ifs
      · simp
      · exact nofun

/-- A tensor of three frames, recorded as one frame and two. -/
theorem startupCapture_agrees_two_chunks :
    ∃ entry : ℕ → ℕ → BitVec 64, entry 1 0 ≠ entry 0 1 ∧
      ∃ capture final actual bytes, StartupGoldenCapture.construct 8 2 3 = .ok capture ∧
        (recordAll (scheduleCalls 8 entry 0 [(1, [0, 0]), (2, [0, 0, 0, 0])])).run.run capture =
          (.ok ⟨⟩, final) ∧
        finish sha256 final = .ok actual ∧
        actual.decoderTokensSha256 = hashLe sha256 (rowMajorCodes 8 3 entry) ∧
        chunkedCodecCodeBytes (codeArray 8 3 entry) [1, 2] = .ok bytes ∧
        actual.codecCodesSha256 = hexDigest (sha256 bytes) := by
  have hvalid : ∀ chunk ∈ [(1, [0, 0]), (2, [0, 0, 0, 0])],
      ChunkValid (2 : UInt32).toNat chunk := by
    intro chunk hchunk
    rcases List.mem_cons.mp hchunk with rfl | hchunk
    · exact ⟨by decide, rfl, by simp [isFinite]⟩
    · obtain rfl := List.mem_singleton.mp hchunk
      exact ⟨by decide, rfl, by simp [isFinite]⟩
  obtain ⟨final, actual, hrun, hfinish, hdecoder, -, hcodec⟩ := (startupCapture_agrees sha256 8 2
    3).1 (fun codebook frame => .ofNat 64 (3 * codebook + frame)) _ _ rfl (List.cons_ne_nil _ _)
      hvalid [1, 2] rfl (by decide)
  obtain ⟨bytes, hbytes, hdigest⟩ := hcodec rfl
  exact ⟨_, by decide, _, final, actual, bytes, rfl, hrun, hfinish, hdecoder, hbytes, hdigest⟩

/-- A tensor without frames has the empty schedule, for which the exporter gives no bytes and the
capture does not finish; and the exporter takes no tensor of a single codebook. -/
theorem startupCapture_empty_schedule :
    (∃ capture, StartupGoldenCapture.construct 8 1 1 = .ok capture ∧
        (recordAll (scheduleCalls 8 (fun _ _ => 0#64) 0 [])).run.run capture = (.ok ⟨⟩, capture) ∧
        finish id capture =
          .error (.startupGolden ⟨.invalidCapture, "startup capture contains no codec frames"⟩) ∧
        chunkedCodecCodeBytes (codeArray 8 0 fun _ _ => 0#64) [] = .ok []) ∧
      chunkedCodecCodeBytes (codeArray 1 1 fun _ _ => 0#64) [1] = .error ⟨[1, 1, 1], [1]⟩ :=
  ⟨⟨_, rfl, rfl, rfl, rfl⟩, rfl⟩

end MagpieTts.Runtime
