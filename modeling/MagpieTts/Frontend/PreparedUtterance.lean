import MagpieTts.Frontend.SourceProjection

/-!
# Preparing an utterance

The front end replays OpenJTalk for every prefix of the projected text. A prefix whose core tokens
are a prefix of the tokens of the whole text and end a unit is certified; the certified prefixes at
which tokens are gained cut the source into segments, and every token carries the span of its
segment.

## Main definitions

* `certifiedPrefixes`, `sourceSegments`: the replay and the segments made of it.
* `prepare`: the tokens of a text, the source position behind every number of tokens, and the
  segments.
-/

namespace MagpieTts.Frontend

open MagpieTts.Library

/-! ### Records -/

/-- `SourceSegment`: one step of the prefix replay. -/
structure SourceSegment where
  sourceCharStart : Nat
  sourceCharEnd : Nat
  sourceUtf8Start : Nat
  sourceUtf8End : Nat
  coreTokenStart : Nat
  coreTokenEnd : Nat
  deriving Repr, DecidableEq

/-- `PreparedToken`: a token that the runtime consumes. -/
structure PreparedToken where
  tokenIndex : Nat
  symbol : Text
  kind : TokenKind
  unitIndex : Option Nat
  localTokenId : Option ℤ
  globalTokenId : ℤ
  sourceCharStart : Nat
  sourceCharEnd : Nat
  sourceUtf8Start : Nat
  sourceUtf8End : Nat
  commitCharEnd : Nat
  commitUtf8End : Nat
  deriving Repr, DecidableEq

/-- `SourceProgress`: the source position behind a number of tokens. -/
structure SourceProgress where
  committedTextTokens : Nat
  sourceCharEnd : Nat
  sourceUtf8End : Nat
  deriving Repr, DecidableEq

/-- `AlignmentProof`; its method has one value. -/
structure AlignmentProof where
  preparedCharCount : Nat
  coreTokenCount : Nat
  certifiedPrefixCount : Nat
  segments : List SourceSegment
  deriving Repr, DecidableEq

/-- `PreparedUtterance`. -/
structure PreparedUtterance where
  sourceText : Text
  normalizedText : Text
  g2pTokens : List Text
  globalTokenIds : List ℤ
  tokens : List PreparedToken
  progress : List SourceProgress
  proof : AlignmentProof
  deriving Repr, DecidableEq

/-! ### The prefix replay -/

/-- What two tokenizations are compared by. -/
def identity (tokens : List EncodedCoreToken) : List (Text × ℤ) :=
  tokens.map fun token => (token.symbol, token.localTokenId)

/-- The test of a prefix: its tokens begin the tokens of the whole text and end a unit. -/
def isCertified (fullCore prefixCore : List EncodedCoreToken) : Bool :=
  prefixCore.length ≤ fullCore.length &&
    identity prefixCore == (identity fullCore).take prefixCore.length &&
    (unitEndPositions fullCore).contains prefixCore.length

/-- One pass of the replay loop: the certified prefixes so far, and the largest token end. -/
def certifyPrefix (unicode : UnicodeData) (spec : FrontendSpec) (runner : FrontendRunner)
    (normalizedText : Text) (fullCore : List EncodedCoreToken)
    (certified : List (Nat × Nat) × Nat) (preparedEnd : Nat) :
    Except FrontendException (List (Nat × Nat) × Nat) := do
  let tokenized ← core unicode spec runner (normalizedText.take preparedEnd)
  let prefixCore := tokenized.2
  let tokenEnd := prefixCore.length
  if isCertified fullCore prefixCore then
    raiseIf (tokenEnd < certified.2)
      (.ambiguousAlignmentError "certified OpenJTalk prefixes move token progress backward")
    return (certified.1 ++ [(preparedEnd, tokenEnd)], tokenEnd)
  else return certified

/-- The certified prefixes of a text, the empty one first. -/
def certifiedPrefixes (unicode : UnicodeData) (spec : FrontendSpec) (runner : FrontendRunner)
    (normalizedText : Text) (fullCore : List EncodedCoreToken) :
    Except FrontendException (List (Nat × Nat)) := do
  let certified ← (List.range' 1 normalizedText.length).foldlM
    (certifyPrefix unicode spec runner normalizedText fullCore) ([(0, 0)], 0)
  raiseIf (certified.1.getLast? ≠ some (normalizedText.length, fullCore.length))
    (.ambiguousAlignmentError "full OpenJTalk output is not a certified terminal prefix")
  return certified.1

/-! ### Segments -/

/-- The local variables of the segment loop. -/
structure SegmentState where
  segments : List SourceSegment := []
  sourceStart : Nat := 0
  coreTokenStart : Nat := 0
  deriving Repr, DecidableEq

/-- The byte position of a character position of the source. -/
def SourceProjection.boundary (projection : SourceProjection) (position : Nat) : Nat :=
  projection.utf8Boundaries.getD position 0

/-- The source position after the first `preparedEnd` projected characters. -/
def SourceProjection.charEnd (projection : SourceProjection) (preparedEnd : Nat) : Nat :=
  projection.preparedSourceCharEnds.getD (preparedEnd - 1) 0

/-- One pass of the segment loop. -/
def addSegment (projection : SourceProjection) (state : SegmentState)
    (certified : Nat × Nat) : Except FrontendException SegmentState :=
  let (preparedEnd, coreTokenEnd) := certified
  if coreTokenEnd = state.coreTokenStart then .ok state
  else do
    raiseIf (coreTokenEnd < state.coreTokenStart)
      (.ambiguousAlignmentError "OpenJTalk prefix alignment is not monotonic")
    let sourceEnd := projection.charEnd preparedEnd
    raiseIf (sourceEnd ≤ state.sourceStart)
      (.ambiguousAlignmentError "OpenJTalk token growth has no forward source interval")
    return {
      segments := state.segments ++ [{
        sourceCharStart := state.sourceStart
        sourceCharEnd := sourceEnd
        sourceUtf8Start := projection.boundary state.sourceStart
        sourceUtf8End := projection.boundary sourceEnd
        coreTokenStart := state.coreTokenStart
        coreTokenEnd }]
      sourceStart := sourceEnd
      coreTokenStart := coreTokenEnd }

/-- The segments of a source and the checks that they cover its tokens and its characters. -/
def sourceSegments (projection : SourceProjection) (fullCore : List EncodedCoreToken)
    (certified : List (Nat × Nat)) : Except FrontendException SegmentState := do
  let state ← certified.tail.foldlM (addSegment projection) {}
  raiseIf (state.coreTokenStart ≠ fullCore.length)
    (.ambiguousAlignmentError "source alignment does not cover every prepared core token")
  raiseIf (state.sourceStart ≠ projection.lastNonWhitespaceSourceEnd)
    (.ambiguousAlignmentError "non-whitespace source suffix has no spoken token")
  return state

/-! ### Tokens and progress -/

/-- The arguments of `append_token` that say what a token is. -/
structure TokenContent where
  symbol : Text
  kind : TokenKind
  unitIndex : Option Nat := none
  localTokenId : Option ℤ := none
  globalTokenId : ℤ
  deriving Repr, DecidableEq

/-- The arguments of `append_token`: a token, its source span and the position it commits. -/
structure TokenPlacement where
  content : TokenContent
  sourceCharStart : Nat
  sourceCharEnd : Nat
  commitCharEnd : Nat
  deriving Repr, DecidableEq

/-- The token number `tokenIndex`, with the byte positions of its span. -/
def preparedToken (projection : SourceProjection) (tokenIndex : Nat) (token : TokenPlacement) :
    PreparedToken where
  tokenIndex
  symbol := token.content.symbol
  kind := token.content.kind
  unitIndex := token.content.unitIndex
  localTokenId := token.content.localTokenId
  globalTokenId := token.content.globalTokenId
  sourceCharStart := token.sourceCharStart
  sourceCharEnd := token.sourceCharEnd
  sourceUtf8Start := projection.boundary token.sourceCharStart
  sourceUtf8End := projection.boundary token.sourceCharEnd
  commitCharEnd := token.commitCharEnd
  commitUtf8End := projection.boundary token.commitCharEnd

/-- `append_token`. -/
def appendToken (projection : SourceProjection) (tokens : List PreparedToken)
    (token : TokenPlacement) : List PreparedToken :=
  tokens ++ [preparedToken projection tokens.length token]

def coreContent (coreToken : EncodedCoreToken) : TokenContent where
  symbol := coreToken.symbol
  kind := coreToken.kind
  unitIndex := some coreToken.unitIndex
  localTokenId := some coreToken.localTokenId
  globalTokenId := coreToken.globalTokenId

/-- The placement of the core token number `coreIndex`: all tokens of a segment commit its start
but the last, which commits its end. -/
def placeCoreToken (segment : SourceSegment) (coreToken : EncodedCoreToken) (coreIndex : Nat) :
    TokenPlacement where
  content := coreContent coreToken
  sourceCharStart := segment.sourceCharStart
  sourceCharEnd := segment.sourceCharEnd
  commitCharEnd :=
    if coreIndex + 1 = segment.coreTokenEnd then segment.sourceCharEnd
    else segment.sourceCharStart

/-- The tokens of a segment. -/
def segmentTokens (fullCore : List EncodedCoreToken) (segment : SourceSegment) :
    List TokenPlacement :=
  ((fullCore.zipIdx.take segment.coreTokenEnd).drop segment.coreTokenStart).map fun coreToken =>
    placeCoreToken segment coreToken.1 coreToken.2

def boundarySpace (spec : FrontendSpec) (localTokenId : ℤ) : TokenContent where
  symbol := [' ']
  kind := .boundarySpace
  localTokenId := some localTokenId
  globalTokenId := spec.globalOffset + localTokenId

def eosToken (spec : FrontendSpec) : TokenContent where
  symbol := ['<', 'e', 'o', 's', '>']
  kind := .eos
  globalTokenId := spec.eosTokenId

/-- The calls of `append_token` in their order. -/
def tokenPlacements (spec : FrontendSpec) (boundarySpaceLocalId : ℤ)
    (fullCore : List EncodedCoreToken) (segments : List SourceSegment)
    (sourceStart sourceLength : Nat) : List TokenPlacement :=
  ⟨boundarySpace spec boundarySpaceLocalId, 0, 0, 0⟩ :: segments.flatMap (segmentTokens fullCore) ++
    [⟨boundarySpace spec boundarySpaceLocalId, sourceStart, sourceLength, sourceLength⟩,
      ⟨eosToken spec, sourceLength, sourceLength, sourceLength⟩]

/-- The progress entries: the empty one, then one for every token. -/
def tokenProgress (tokens : List PreparedToken) : List SourceProgress :=
  ⟨0, 0, 0⟩ :: tokens.map fun token =>
    ⟨token.tokenIndex + 1, token.commitCharEnd, token.commitUtf8End⟩

/-- The check that progress never falls below the entry before it. -/
def progressMonotonicFrom (previousChar previousUtf8 : Nat) : List SourceProgress → Bool
  | [] => true
  | item :: rest =>
    !(item.sourceCharEnd < previousChar || item.sourceUtf8End < previousUtf8) &&
      progressMonotonicFrom item.sourceCharEnd item.sourceUtf8End rest

/-- `prepare`. -/
def prepare (unicode : UnicodeData) (spec : FrontendSpec) (runner : FrontendRunner)
    (sourceText : Text) : Except FrontendException PreparedUtterance := do
  let projection ← projectSource unicode sourceText
  let tokenized ← core unicode spec runner projection.normalizedText
  let fullCore := tokenized.2
  raiseIf fullCore.isEmpty
    (.ambiguousAlignmentError "non-whitespace source produced no prepared speech token")
  let certified ← certifiedPrefixes unicode spec runner projection.normalizedText fullCore
  let state ← sourceSegments projection fullCore certified
  let sourceLength := sourceText.length
  let sourceUtf8Length := projection.utf8Boundaries.getLastD 0
  let boundarySpaceLocalId ← spec.localTokenId [' ']
  let placements := tokenPlacements spec boundarySpaceLocalId fullCore state.segments
    state.sourceStart sourceLength
  let tokens := placements.foldl (appendToken projection) []
  let progress := tokenProgress tokens
  raiseIf (!progressMonotonicFrom 0 0 progress)
    (.ambiguousAlignmentError "prepared token progress is not monotonic")
  raiseIf (progress.getLast? ≠ some ⟨tokens.length, sourceLength, sourceUtf8Length⟩)
    (.ambiguousAlignmentError "EOS does not map to the exact source end")
  return {
    sourceText
    normalizedText := projection.normalizedText
    g2pTokens := tokenized.1.map G2PToken.symbol
    globalTokenIds := tokens.map PreparedToken.globalTokenId
    tokens
    progress
    proof := {
      preparedCharCount := projection.normalizedText.length
      coreTokenCount := fullCore.length
      certifiedPrefixCount := certified.length
      segments := state.segments } }

end MagpieTts.Frontend
