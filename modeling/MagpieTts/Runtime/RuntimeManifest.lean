import MagpieTts.Runtime.AlignmentContract

/-!
# The manifest of a runtime bundle

The sections of `RuntimeBundleManifest` that the synthesis pipeline reads, and the one combination
of values that the parser of the manifest accepts for them: `parse_kv_cache`, `parse_local_ar`,
`parse_codec`, `parse_limits` and the checks across sections compare every field with a constant.

## Main definitions

* `RuntimeBundleManifest`: the sections.
* `acceptedManifest`: the accepted values.
-/

namespace MagpieTts.Runtime

structure KvCacheManifest where
  prefixLength : ℕ
  maximumGeneratedSteps : ℕ
  firstStepPosition : ℕ
  stepPositionUpperBoundExclusive : ℕ
  deriving DecidableEq

structure LocalArManifest where
  codebooksPerFrame : ℕ
  framesPerDecoderStep : ℕ
  deriving DecidableEq

structure CodecManifest where
  sampleRateHz : ℕ
  hopLengthSamples : ℕ
  initialFrames : ℕ
  steadyFrames : ℕ
  tailMinFrames : ℕ
  tailMaxFrames : ℕ
  deriving DecidableEq

structure LimitsManifest where
  maximumTextTokens : ℕ
  maximumDecoderSteps : ℕ
  maximumAudioFrames : ℕ
  maximumConcurrentRequests : ℕ
  pcmRingCapacityFrames : ℕ
  deriving DecidableEq

structure RuntimeBundleManifest where
  alignment : AlignmentManifest
  kvCache : KvCacheManifest
  localAr : LocalArManifest
  codec : CodecManifest
  limits : LimitsManifest
  deriving DecidableEq

/-- The values that the parser accepts. -/
def acceptedManifest : RuntimeBundleManifest where
  alignment := acceptedAlignment
  kvCache :=
    { prefixLength := 217
      maximumGeneratedSteps := 250
      firstStepPosition := 218
      stepPositionUpperBoundExclusive := 467 }
  localAr :=
    { codebooksPerFrame := 8
      framesPerDecoderStep := 2 }
  codec :=
    { sampleRateHz := 22050
      hopLengthSamples := 1024
      initialFrames := 4
      steadyFrames := 8
      tailMinFrames := 1
      tailMaxFrames := 8 }
  limits :=
    { maximumTextTokens := 512
      maximumDecoderSteps := 250
      maximumAudioFrames := 500
      maximumConcurrentRequests := 1
      pcmRingCapacityFrames := 8 }

end MagpieTts.Runtime
