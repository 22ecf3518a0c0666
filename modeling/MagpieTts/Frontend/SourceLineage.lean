import MagpieTts.Frontend.PreparedUtterance

/-!
# The source lineage of a prepared utterance

What the front end proves about an utterance before it returns it: the segments cut the core
tokens and the source up to the end of its last character that is not whitespace, the whitespace
behind belongs to the final boundary space, progress runs from the start of the source to its end
without a step back, and every segment ends where the tokens of the source before it are the first
tokens of the whole source.

## Main definitions

* `SegmentsTile`: consecutive segments between two pairs of a source and a token position.
* `SourceLineage`: the soundness of a prepared utterance.

## Main results

* `sourceLineage_of_prepare`: for every runner, an utterance that is returned is sound.
-/

namespace MagpieTts.Frontend

open MagpieTts.Library

/-! ### Consecutive segments -/

/-- Segments that follow one another without a gap from the source and token positions `first` to
the positions `last`, each of them with a character and a token. -/
inductive SegmentsTile : Nat × Nat → List SourceSegment → Nat × Nat → Prop
  | nil (position : Nat × Nat) : SegmentsTile position [] position
  | cons {segment rest last} (hsource : segment.sourceCharStart < segment.sourceCharEnd)
      (htoken : segment.coreTokenStart < segment.coreTokenEnd)
      (hrest : SegmentsTile (segment.sourceCharEnd, segment.coreTokenEnd) rest last) :
      SegmentsTile (segment.sourceCharStart, segment.coreTokenStart) (segment :: rest) last

namespace SegmentsTile

variable {first last : Nat × Nat} {segments : List SourceSegment}

theorem snoc (h : SegmentsTile first segments last) {segment : SourceSegment}
    (hstart : (segment.sourceCharStart, segment.coreTokenStart) = last)
    (hsource : segment.sourceCharStart < segment.sourceCharEnd)
    (htoken : segment.coreTokenStart < segment.coreTokenEnd) :
    SegmentsTile first (segments ++ [segment]) (segment.sourceCharEnd, segment.coreTokenEnd) := by
  induction h with
  | nil position =>
    rw [← hstart]
    exact .cons hsource htoken (.nil _)
  | cons hsource' htoken' hrest ih => exact .cons hsource' htoken' (ih hstart)

theorem le (h : SegmentsTile first segments last) : first.1 ≤ last.1 ∧ first.2 ≤ last.2 := by
  induction h with
  | nil position => exact ⟨Nat.le_refl _, Nat.le_refl _⟩
  | cons hsource htoken hrest ih => exact ⟨by omega, by omega⟩

theorem bounds (h : SegmentsTile first segments last) :
    ∀ segment ∈ segments, first.1 ≤ segment.sourceCharStart ∧
      segment.sourceCharStart < segment.sourceCharEnd ∧ segment.sourceCharEnd ≤ last.1 ∧
      first.2 ≤ segment.coreTokenStart ∧ segment.coreTokenStart < segment.coreTokenEnd ∧
      segment.coreTokenEnd ≤ last.2 := by
  induction h with
  | nil position => nofun
  | @cons segment rest last hsource htoken hrest ih =>
    intro other hother
    rcases List.mem_cons.mp hother with rfl | hother
    · have hle := hrest.le
      exact ⟨Nat.le_refl _, hsource, hle.1, Nat.le_refl _, htoken, hle.2⟩
    · have := ih other hother
      omega

end SegmentsTile

/-! ### The replay -/

section Replay

variable {unicode : UnicodeData} {spec : FrontendSpec} {runner : FrontendRunner}
  {normalizedText : Text} {fullCore : List EncodedCoreToken}

/-- A prefix of the projected text whose tokens are the first tokens of the whole text and end a
unit of them. -/
def CertifiedPrefix (unicode : UnicodeData) (spec : FrontendSpec) (runner : FrontendRunner)
    (normalizedText : Text) (fullCore : List EncodedCoreToken) (entry : Nat × Nat) : Prop :=
  ∃ g2p prefixCore, core unicode spec runner (normalizedText.take entry.1) = .ok (g2p, prefixCore) ∧
    prefixCore.length = entry.2 ∧ entry.2 ≤ fullCore.length ∧
    identity prefixCore = (identity fullCore).take entry.2 ∧ entry.2 ∈ unitEndPositions fullCore

theorem certifyPrefix_eq_ok {certified next : List (Nat × Nat) × Nat} {preparedEnd : Nat}
    (h : certifyPrefix unicode spec runner normalizedText fullCore certified preparedEnd =
      .ok next) :
    next = certified ∨ ∃ tokenEnd, next.1 = certified.1 ++ [(preparedEnd, tokenEnd)] ∧
      CertifiedPrefix unicode spec runner normalizedText fullCore (preparedEnd, tokenEnd) := by
  rw [certifyPrefix, bind_eq_ok_iff] at h
  obtain ⟨⟨g2p, prefixCore⟩, hcore, h⟩ := h
  dsimp only at h
  split at h
  next hcertified =>
    obtain ⟨⟨⟩, -, hnext⟩ := bind_eq_ok_iff.mp h
    cases hnext
    simp only [isCertified, Bool.and_eq_true, decide_eq_true_eq, beq_iff_eq,
      List.contains_iff_mem] at hcertified
    exact .inr ⟨prefixCore.length, rfl, g2p, prefixCore, hcore, rfl, hcertified.1.1,
      hcertified.1.2, hcertified.2⟩
  next =>
    cases h
    exact .inl rfl

/-- The certified prefixes that the replay returns. -/
theorem certifiedPrefixes_spec {certified : List (Nat × Nat)}
    (h : certifiedPrefixes unicode spec runner normalizedText fullCore = .ok certified) :
    ∀ entry ∈ certified.tail, 0 < entry.1 ∧ entry.1 ≤ normalizedText.length ∧
      CertifiedPrefix unicode spec runner normalizedText fullCore entry := by
  rw [certifiedPrefixes, bind_eq_ok_iff] at h
  obtain ⟨⟨replayed, maximum⟩, hreplay, h⟩ := h
  have hinvariant := foldlM_eq_ok_induct
    (I := fun _ state => ∃ rest, state.1 = (0, 0) :: rest ∧
      ∀ entry ∈ rest, 0 < entry.1 ∧ entry.1 ≤ normalizedText.length ∧
        CertifiedPrefix unicode spec runner normalizedText fullCore entry)
    ⟨[], rfl, nofun⟩ ?_ hreplay
  · obtain ⟨rest, hcertified, hrest⟩ := hinvariant
    obtain ⟨⟨⟩, -, hresult⟩ := bind_eq_ok_iff.mp h
    cases hresult
    rw [show replayed = (0, 0) :: rest from hcertified]
    exact hrest
  · rintro done preparedEnd state next hdone ⟨rest, hstate, hrest⟩ hnext
    have hmem : preparedEnd ∈ List.range' 1 normalizedText.length :=
      hdone.subset (List.mem_append_right _ (List.mem_singleton_self _))
    rw [List.mem_range'_1] at hmem
    rcases certifyPrefix_eq_ok hnext with rfl | ⟨tokenEnd, hnext, hentry⟩
    · exact ⟨rest, hstate, hrest⟩
    · refine ⟨rest ++ [(preparedEnd, tokenEnd)], by rw [hnext, hstate, List.cons_append], ?_⟩
      intro entry hmember
      rcases List.mem_append.mp hmember with hmember | hmember
      · exact hrest entry hmember
      · obtain rfl := List.mem_singleton.mp hmember
        exact ⟨by omega, by omega, hentry⟩

end Replay

/-! ### The segments -/

section Segments

variable {projection : SourceProjection} {certified : List (Nat × Nat)}

/-- The segment loop after some of the certified prefixes. -/
structure SegmentState.Follows (projection : SourceProjection) (certified : List (Nat × Nat))
    (state : SegmentState) : Prop where
  tile : SegmentsTile (0, 0) state.segments (state.sourceStart, state.coreTokenStart)
  certified_of_mem : ∀ segment ∈ state.segments, ∃ preparedEnd,
    (preparedEnd, segment.coreTokenEnd) ∈ certified ∧
      segment.sourceCharEnd = projection.charEnd preparedEnd
  utf8_of_mem : ∀ segment ∈ state.segments,
    segment.sourceUtf8Start = projection.boundary segment.sourceCharStart ∧
      segment.sourceUtf8End = projection.boundary segment.sourceCharEnd

theorem SegmentState.follows_initial : ({} : SegmentState).Follows projection certified :=
  ⟨.nil _, by simp, by simp⟩

theorem SegmentState.Follows.addSegment {state next : SegmentState} {entry : Nat × Nat}
    (h : state.Follows projection certified) (hentry : entry ∈ certified)
    (hnext : addSegment projection state entry = .ok next) : next.Follows projection certified := by
  obtain ⟨preparedEnd, coreTokenEnd⟩ := entry
  rw [Frontend.addSegment] at hnext
  dsimp only at hnext
  split at hnext
  next =>
    cases hnext
    exact h
  next hne =>
    simp only [bind_eq_ok_iff, raiseIf_eq_ok_iff] at hnext
    obtain ⟨⟨⟩, hlt, ⟨⟩, hforward, hnext⟩ := hnext
    cases hnext
    refine ⟨h.tile.snoc rfl (by simpa using hforward) (by dsimp only; omega), ?_, ?_⟩
    · intro segment hsegment
      rcases List.mem_append.mp hsegment with hsegment | hsegment
      · exact h.certified_of_mem segment hsegment
      · obtain rfl := List.mem_singleton.mp hsegment
        exact ⟨preparedEnd, hentry, rfl⟩
    · intro segment hsegment
      rcases List.mem_append.mp hsegment with hsegment | hsegment
      · exact h.utf8_of_mem segment hsegment
      · obtain rfl := List.mem_singleton.mp hsegment
        exact ⟨rfl, rfl⟩

/-- The segments that are returned, and the positions behind the last one. -/
theorem sourceSegments_spec {fullCore : List EncodedCoreToken} {state : SegmentState}
    (h : sourceSegments projection fullCore certified = .ok state) :
    state.Follows projection certified.tail ∧ state.coreTokenStart = fullCore.length ∧
      state.sourceStart = projection.lastNonWhitespaceSourceEnd := by
  rw [sourceSegments, bind_eq_ok_iff] at h
  obtain ⟨looped, hloop, h⟩ := h
  have hfollows := foldlM_eq_ok_induct
    (I := fun _ state => SegmentState.Follows projection certified.tail state)
    SegmentState.follows_initial
    (fun done entry state next hdone hstate hnext => hstate.addSegment
      (hdone.subset (List.mem_append_right _ (List.mem_singleton_self _))) hnext) hloop
  simp only [bind_eq_ok_iff, raiseIf_eq_ok_iff] at h
  obtain ⟨⟨⟩, htokens, ⟨⟩, hsource, h⟩ := h
  cases h
  exact ⟨hfollows, not_not.mp htokens, not_not.mp hsource⟩

end Segments

/-! ### The tokens -/

section Tokens

variable {projection : SourceProjection} {fullCore : List EncodedCoreToken}

theorem foldl_appendToken (projection : SourceProjection) (placements : List TokenPlacement)
    (tokens : List PreparedToken) :
    placements.foldl (appendToken projection) tokens = tokens ++
      (placements.zipIdx tokens.length).map fun token =>
        preparedToken projection token.2 token.1 := by
  induction placements generalizing tokens with
  | nil => simp
  | cons token placements ih =>
    rw [List.foldl_cons, ih, appendToken, List.zipIdx_cons, List.map_cons, List.length_append,
      List.length_singleton, List.append_assoc, List.singleton_append]

theorem length_segmentTokens {segment : SourceSegment}
    (hend : segment.coreTokenEnd ≤ fullCore.length) :
    (segmentTokens fullCore segment).length = segment.coreTokenEnd - segment.coreTokenStart := by
  simp only [segmentTokens, List.length_map, List.length_drop, List.length_take,
    List.length_zipIdx]
  omega

theorem getElem?_segmentTokens {segment : SourceSegment} {coreIndex : Nat}
    (hindex : coreIndex < fullCore.length) (hstart : segment.coreTokenStart ≤ coreIndex)
    (hend : coreIndex < segment.coreTokenEnd) :
    (segmentTokens fullCore segment)[coreIndex - segment.coreTokenStart]? =
      some (placeCoreToken segment fullCore[coreIndex] coreIndex) := by
  have hsum : segment.coreTokenStart + (coreIndex - segment.coreTokenStart) = coreIndex := by omega
  rw [segmentTokens, List.getElem?_map, List.getElem?_drop, hsum,
    List.getElem?_take_of_lt hend, List.getElem?_zipIdx, List.getElem?_eq_getElem hindex]
  simp

theorem map_content_segmentTokens (segment : SourceSegment) :
    (segmentTokens fullCore segment).map TokenPlacement.content =
      ((fullCore.take segment.coreTokenEnd).drop segment.coreTokenStart).map coreContent := by
  have hcontent : (TokenPlacement.content ∘ fun coreToken : EncodedCoreToken × Nat =>
      placeCoreToken segment coreToken.1 coreToken.2) = coreContent ∘ Prod.fst := rfl
  rw [segmentTokens, List.map_map, hcontent, ← List.map_map, List.map_drop, List.map_take,
    List.zipIdx_map_fst]

/-- The span and the commit of a token of a segment. -/
theorem placement_of_mem_segmentTokens {segment : SourceSegment} {token : TokenPlacement}
    (h : token ∈ segmentTokens fullCore segment) :
    token.sourceCharStart = segment.sourceCharStart ∧ token.sourceCharEnd = segment.sourceCharEnd ∧
      (token.commitCharEnd = segment.sourceCharEnd ∨
        token.commitCharEnd = segment.sourceCharStart) := by
  obtain ⟨coreToken, -, rfl⟩ := List.mem_map.mp h
  refine ⟨rfl, rfl, ?_⟩
  rw [placeCoreToken]
  dsimp only
  split
  · exact .inl rfl
  · exact .inr rfl

namespace SegmentsTile

variable {first last : Nat × Nat} {segments : List SourceSegment}

theorem length_flatMap (h : SegmentsTile first segments last) (hlast : last.2 ≤ fullCore.length) :
    (segments.flatMap (segmentTokens fullCore)).length = last.2 - first.2 := by
  induction h with
  | nil position => simp
  | cons hsource htoken hrest ih =>
    have hle := hrest.le
    dsimp only at *
    rw [List.flatMap_cons, List.length_append, ih hlast, length_segmentTokens (by omega)]
    omega

/-- The core tokens of consecutive segments appear once each and in their order. -/
theorem map_content (h : SegmentsTile first segments last) (hlast : last.2 ≤ fullCore.length) :
    (segments.flatMap (segmentTokens fullCore)).map TokenPlacement.content =
      ((fullCore.take last.2).drop first.2).map coreContent := by
  induction h with
  | nil position => simp
  | @cons segment rest last hsource htoken hrest ih =>
    have hle : segment.coreTokenEnd ≤ last.2 := hrest.le.2
    have htake : fullCore.take last.2 =
        fullCore.take segment.coreTokenEnd ++ (fullCore.take last.2).drop segment.coreTokenEnd := by
      have hsplit := (List.take_append_drop segment.coreTokenEnd (fullCore.take last.2)).symm
      rwa [List.take_take, Nat.min_eq_left hle] at hsplit
    have hlength : segment.coreTokenStart ≤ (fullCore.take segment.coreTokenEnd).length := by
      rw [List.length_take]
      omega
    rw [List.flatMap_cons, List.map_append, ih hlast, map_content_segmentTokens,
      ← List.map_append, ← List.drop_append_of_le_length hlength, ← htake]

/-- Every core token is placed in its segment. -/
theorem getElem?_flatMap (h : SegmentsTile first segments last)
    (hlast : last.2 ≤ fullCore.length) {segment : SourceSegment} (hsegment : segment ∈ segments)
    {coreIndex : Nat} (hindex : coreIndex < fullCore.length)
    (hstart : segment.coreTokenStart ≤ coreIndex) (hend : coreIndex < segment.coreTokenEnd) :
    (segments.flatMap (segmentTokens fullCore))[coreIndex - first.2]? =
      some (placeCoreToken segment fullCore[coreIndex] coreIndex) := by
  induction h with
  | nil position => cases hsegment
  | @cons head rest last hsource htoken hrest ih =>
    have hend' : head.coreTokenEnd ≤ fullCore.length := Nat.le_trans hrest.le.2 hlast
    have hlength := length_segmentTokens hend'
    dsimp only
    rw [List.flatMap_cons]
    rcases List.mem_cons.mp hsegment with rfl | hsegment
    · rw [List.getElem?_append_left (by omega), getElem?_segmentTokens hindex hstart hend]
    · have hbounds : head.coreTokenEnd ≤ segment.coreTokenStart :=
        (hrest.bounds segment hsegment).2.2.2.1
      rw [List.getElem?_append_right (by omega), hlength, ← ih hlast hsegment]
      congr 1
      dsimp only
      omega

/-- Before its last token no token commits a position inside a segment. -/
theorem commitCharEnd_le (h : SegmentsTile first segments last)
    (hlast : last.2 ≤ fullCore.length) {segment : SourceSegment} (hsegment : segment ∈ segments)
    {coreIndex : Nat} (hfirst : first.2 ≤ coreIndex)
    (hend : coreIndex + 1 < segment.coreTokenEnd) {token : TokenPlacement}
    (htoken : (segments.flatMap (segmentTokens fullCore))[coreIndex - first.2]? = some token) :
    token.commitCharEnd ≤ segment.sourceCharStart := by
  induction h with
  | nil position => cases hsegment
  | @cons head rest last hsource htokens hrest ih =>
    have hheadEnd : head.coreTokenEnd ≤ fullCore.length := Nat.le_trans hrest.le.2 hlast
    have hlength := length_segmentTokens hheadEnd
    dsimp only at hfirst htoken
    rw [List.flatMap_cons] at htoken
    by_cases hhead : coreIndex < head.coreTokenEnd
    · rw [List.getElem?_append_left (by omega),
        getElem?_segmentTokens (by omega) hfirst hhead] at htoken
      obtain rfl := Option.some.inj htoken
      rw [placeCoreToken]
      dsimp only
      rcases List.mem_cons.mp hsegment with rfl | hsegment
      · exact Nat.le_of_eq (if_neg (by omega))
      · have hbounds : head.sourceCharEnd ≤ segment.sourceCharStart :=
          (hrest.bounds segment hsegment).1
        split
        · exact hbounds
        · omega
    · rw [List.getElem?_append_right (by omega), hlength] at htoken
      rcases List.mem_cons.mp hsegment with rfl | hsegment
      · omega
      · refine ih hlast hsegment (by dsimp only; omega) ?_
        rw [← htoken]
        congr 1
        dsimp only
        omega

end SegmentsTile

end Tokens

/-! ### The inversion of a preparation -/

section Prepare

variable {unicode : UnicodeData} {spec : FrontendSpec} {runner : FrontendRunner}
  {sourceText : Text} {prepared : PreparedUtterance}

/-- The parts of a preparation that returns. -/
theorem prepare_eq_ok (h : prepare unicode spec runner sourceText = .ok prepared) :
    ∃ projection g2p fullCore certified state localTokenId,
      Projects unicode sourceText projection ∧
      core unicode spec runner projection.normalizedText = .ok (g2p, fullCore) ∧
      certifiedPrefixes unicode spec runner projection.normalizedText fullCore = .ok certified ∧
      sourceSegments projection fullCore certified = .ok state ∧
      spec.localTokenId [' '] = .ok localTokenId ∧
      prepared.sourceText = sourceText ∧
      prepared.normalizedText = projection.normalizedText ∧
      prepared.proof.segments = state.segments ∧
      prepared.tokens = (tokenPlacements spec localTokenId fullCore state.segments
        state.sourceStart sourceText.length).zipIdx.map (fun token =>
          preparedToken projection token.2 token.1) ∧
      prepared.globalTokenIds = prepared.tokens.map PreparedToken.globalTokenId ∧
      prepared.progress = tokenProgress prepared.tokens ∧
      progressMonotonicFrom 0 0 prepared.progress = true ∧
      prepared.progress.getLast? = some ⟨prepared.tokens.length, sourceText.length,
        projection.utf8Boundaries.getLastD 0⟩ := by
  simp only [prepare, bind_eq_ok_iff, raiseIf_eq_ok_iff] at h
  obtain ⟨projection, hprojection, ⟨g2p, fullCore⟩, hcore, ⟨⟩, -, certified, hcertified, state,
    hstate, localTokenId, hlocal, ⟨⟩, hmonotonic, ⟨⟩, hlast, h⟩ := h
  cases h
  refine ⟨projection, g2p, fullCore, certified, state, localTokenId,
    projects_of_projectSource hprojection, hcore, hcertified, hstate, hlocal, rfl, rfl, rfl, ?_,
    rfl, rfl, by simpa using hmonotonic, not_not.mp hlast⟩
  rw [foldl_appendToken, List.nil_append]
  rfl

end Prepare

/-! ### Soundness -/

/-- The fields of a token that say what it is. -/
def PreparedToken.content (token : PreparedToken) : TokenContent where
  symbol := token.symbol
  kind := token.kind
  unitIndex := token.unitIndex
  localTokenId := token.localTokenId
  globalTokenId := token.globalTokenId

/-- A span of the source: it lies in the source and its byte positions are those of its character
positions. -/
structure SpanOf (sourceText : Text) (charStart charEnd utf8Start utf8End : Nat) : Prop where
  start_le : charStart ≤ charEnd
  end_le : charEnd ≤ sourceText.length
  utf8Start_eq : utf8Start = utf8Length (sourceText.take charStart)
  utf8End_eq : utf8End = utf8Length (sourceText.take charEnd)

/-- The soundness of a prepared utterance, whose source has the core tokens `fullCore` and its last
character that is not whitespace before `spokenEnd`. -/
structure SourceLineage (unicode : UnicodeData) (spec : FrontendSpec) (runner : FrontendRunner)
    (sourceText : Text) (prepared : PreparedUtterance) (fullCore : List EncodedCoreToken)
    (spokenEnd : Nat) : Prop where
  /-- The core tokens are those of the whole source. -/
  core_eq : ∃ g2p, core unicode spec runner (projectedPrefix unicode sourceText sourceText.length) =
    .ok (g2p, fullCore)
  /-- The segments follow one another over all core tokens and the source up to `spokenEnd`. -/
  segmentsTile : SegmentsTile (0, 0) prepared.proof.segments (spokenEnd, fullCore.length)
  spokenEnd_le : spokenEnd ≤ sourceText.length
  isspace_of_mem_drop : ∀ character ∈ sourceText.drop spokenEnd, isspace character = true
  /-- The tokens: a boundary space, the core tokens, a boundary space and the end of the text. -/
  contents_eq : ∃ localTokenId, prepared.tokens.map PreparedToken.content =
    boundarySpace spec localTokenId :: fullCore.map coreContent ++
      [boundarySpace spec localTokenId, eosToken spec]
  /-- The first token has the empty span at the start of the source. -/
  firstToken : ∃ token, prepared.tokens[0]? = some token ∧
    token.sourceCharStart = 0 ∧ token.sourceCharEnd = 0
  /-- A core token has the span of its segment. -/
  coreToken : ∀ segment ∈ prepared.proof.segments, ∀ coreIndex,
    segment.coreTokenStart ≤ coreIndex → coreIndex < segment.coreTokenEnd →
    ∃ token, prepared.tokens[coreIndex + 1]? = some token ∧
      token.sourceCharStart = segment.sourceCharStart ∧ token.sourceCharEnd = segment.sourceCharEnd
  /-- The last boundary space has the whitespace that no segment has. -/
  lastSpace : ∃ token, prepared.tokens[fullCore.length + 1]? = some token ∧
    token.sourceCharStart = spokenEnd ∧ token.sourceCharEnd = sourceText.length
  segmentSpan : ∀ segment ∈ prepared.proof.segments, SpanOf sourceText segment.sourceCharStart
    segment.sourceCharEnd segment.sourceUtf8Start segment.sourceUtf8End
  tokenSpan : ∀ token ∈ prepared.tokens, SpanOf sourceText token.sourceCharStart
    token.sourceCharEnd token.sourceUtf8Start token.sourceUtf8End
  /-- The map has an entry for every number of tokens, from none to all of them. -/
  progress_length : prepared.progress.length = prepared.tokens.length + 1
  committedTextTokens_eq : ∀ count (item : SourceProgress), prepared.progress[count]? = some item →
    item.committedTextTokens = count
  progress_utf8 : ∀ item ∈ prepared.progress,
    SpanOf sourceText 0 item.sourceCharEnd 0 item.sourceUtf8End
  progress_monotone : prepared.progress.Pairwise fun first second =>
    first.sourceCharEnd ≤ second.sourceCharEnd ∧ first.sourceUtf8End ≤ second.sourceUtf8End
  progress_last : prepared.progress.getLast? =
    some ⟨prepared.tokens.length, sourceText.length, utf8Length sourceText⟩
  /-- The tokens of the source up to a segment's end are the first tokens of the whole source. -/
  certified : ∀ segment ∈ prepared.proof.segments, ∃ g2p prefixCore,
    core unicode spec runner (projectedPrefix unicode sourceText segment.sourceCharEnd) =
      .ok (g2p, prefixCore) ∧
    identity prefixCore = (identity fullCore).take segment.coreTokenEnd ∧
    segment.coreTokenEnd ∈ unitEndPositions fullCore
  /-- A segment's end is committed by its last token, and not before it. -/
  commit : ∀ segment ∈ prepared.proof.segments,
    (∃ item, prepared.progress[segment.coreTokenEnd + 1]? = some item ∧
      item.sourceCharEnd = segment.sourceCharEnd) ∧
    ∀ item ∈ prepared.progress, segment.sourceCharEnd ≤ item.sourceCharEnd →
      segment.coreTokenEnd < item.committedTextTokens

/-! ### Placements in the source -/

section Placements

variable {spec : FrontendSpec} {localTokenId : ℤ} {fullCore : List EncodedCoreToken}
  {segments : List SourceSegment} {spokenEnd sourceLength : Nat}
  (h : SegmentsTile (0, 0) segments (spokenEnd, fullCore.length))
include h

theorem getElem?_tokenPlacements_core {coreIndex : Nat} (hindex : coreIndex < fullCore.length) :
    (tokenPlacements spec localTokenId fullCore segments spokenEnd sourceLength)[coreIndex + 1]? =
      (segments.flatMap (segmentTokens fullCore))[coreIndex]? := by
  have hlength := h.length_flatMap (Nat.le_refl _)
  rw [tokenPlacements, List.cons_append, List.getElem?_cons_succ,
    List.getElem?_append_left (by rw [hlength]; exact hindex)]

theorem getElem?_tokenPlacements_lastSpace :
    (tokenPlacements spec localTokenId fullCore segments spokenEnd sourceLength)[
      fullCore.length + 1]? =
      some ⟨boundarySpace spec localTokenId, spokenEnd, sourceLength, sourceLength⟩ := by
  have hlength : (segments.flatMap (segmentTokens fullCore)).length = fullCore.length :=
    h.length_flatMap (Nat.le_refl _)
  rw [tokenPlacements, List.cons_append, List.getElem?_cons_succ,
    List.getElem?_append_right (Nat.le_of_eq hlength), hlength, Nat.sub_self]
  rfl

theorem length_tokenPlacements :
    (tokenPlacements spec localTokenId fullCore segments spokenEnd sourceLength).length =
      fullCore.length + 3 := by
  rw [tokenPlacements, List.cons_append, List.length_cons, List.length_append,
    h.length_flatMap (Nat.le_refl _)]
  rfl

/-- Every token lies in the source, and so does the position that it commits. -/
theorem bounds_of_mem_tokenPlacements (hspoken : spokenEnd ≤ sourceLength) :
    ∀ token ∈ tokenPlacements spec localTokenId fullCore segments spokenEnd sourceLength,
      token.sourceCharStart ≤ token.sourceCharEnd ∧ token.sourceCharEnd ≤ sourceLength ∧
        token.commitCharEnd ≤ sourceLength := by
  intro token htoken
  rw [tokenPlacements, List.cons_append, List.mem_cons, List.mem_append] at htoken
  rcases htoken with rfl | htoken | htoken
  · exact ⟨Nat.le_refl _, Nat.zero_le _, Nat.zero_le _⟩
  · obtain ⟨segment, hsegment, htoken⟩ := List.mem_flatMap.mp htoken
    have hbounds := h.bounds segment hsegment
    obtain ⟨hstart, hend, hcommit⟩ := placement_of_mem_segmentTokens htoken
    dsimp only at hbounds
    omega
  · rcases List.mem_cons.mp htoken with rfl | htoken
    · exact ⟨hspoken, Nat.le_refl _, Nat.le_refl _⟩
    · obtain rfl := List.mem_singleton.mp htoken
      exact ⟨Nat.le_refl _, Nat.le_refl _, Nat.le_refl _⟩

omit h

theorem map_content_tokenPlacements
    (h : SegmentsTile (0, 0) segments (spokenEnd, fullCore.length)) :
    (tokenPlacements spec localTokenId fullCore segments spokenEnd sourceLength).map
      TokenPlacement.content =
      boundarySpace spec localTokenId :: fullCore.map coreContent ++
        [boundarySpace spec localTokenId, eosToken spec] := by
  have hcontent := h.map_content (Nat.le_refl fullCore.length)
  rw [List.take_length, List.drop_zero] at hcontent
  rw [tokenPlacements, List.map_append, List.map_cons, hcontent]
  rfl

theorem getElem?_preparedTokens (projection : SourceProjection)
    (placements : List TokenPlacement) (index : Nat) :
    (placements.zipIdx.map fun token => preparedToken projection token.2 token.1)[index]? =
      placements[index]?.map (preparedToken projection index) := by
  rw [List.getElem?_map, List.getElem?_zipIdx, Option.map_map, Nat.zero_add]
  rfl

theorem map_content_preparedTokens (projection : SourceProjection)
    (placements : List TokenPlacement) :
    (placements.zipIdx.map fun token => preparedToken projection token.2 token.1).map
      PreparedToken.content = placements.map TokenPlacement.content := by
  have hcontent : (PreparedToken.content ∘ fun token : TokenPlacement × Nat =>
      preparedToken projection token.2 token.1) = TokenPlacement.content ∘ Prod.fst := rfl
  rw [List.map_map, hcontent, ← List.map_map, List.zipIdx_map_fst]

end Placements

/-! ### Progress -/

/-- What the check of the progress entries says. -/
theorem pairwise_of_progressMonotonicFrom {previousChar previousUtf8 : Nat}
    {progress : List SourceProgress}
    (h : progressMonotonicFrom previousChar previousUtf8 progress = true) :
    (∀ item ∈ progress, previousChar ≤ item.sourceCharEnd ∧ previousUtf8 ≤ item.sourceUtf8End) ∧
      progress.Pairwise fun first second =>
        first.sourceCharEnd ≤ second.sourceCharEnd ∧
          first.sourceUtf8End ≤ second.sourceUtf8End := by
  induction progress generalizing previousChar previousUtf8 with
  | nil => exact ⟨nofun, .nil⟩
  | cons item rest ih =>
    simp only [progressMonotonicFrom, Bool.and_eq_true, Bool.not_eq_true', Bool.or_eq_false_iff,
      decide_eq_false_iff_not, Nat.not_lt] at h
    obtain ⟨hrest, hpairwise⟩ := ih h.2
    refine ⟨fun other hother => ?_, .cons hrest hpairwise⟩
    rcases List.mem_cons.mp hother with rfl | hother
    · exact h.1
    · have := hrest other hother
      omega

/-- The progress entry behind the token number `index`. -/
def placementProgress (projection : SourceProjection) (token : TokenPlacement × Nat) :
    SourceProgress :=
  ⟨token.2 + 1, token.1.commitCharEnd, projection.boundary token.1.commitCharEnd⟩

theorem tokenProgress_preparedTokens (projection : SourceProjection)
    (placements : List TokenPlacement) :
    tokenProgress (placements.zipIdx.map fun token => preparedToken projection token.2 token.1) =
      ⟨0, 0, 0⟩ :: placements.zipIdx.map (placementProgress projection) := by
  rw [tokenProgress, List.map_map]
  rfl

theorem getElem?_placementProgress (projection : SourceProjection)
    (placements : List TokenPlacement) (index : Nat) :
    (placements.zipIdx.map (placementProgress projection))[index]? =
      placements[index]?.map fun token => placementProgress projection (token, index) := by
  rw [List.getElem?_map, List.getElem?_zipIdx, Option.map_map, Nat.zero_add]
  rfl

/-- A segment's end is in no progress entry before that of its last token. -/
theorem sourceCharEnd_lt_of_progress {projection : SourceProjection} {spec : FrontendSpec}
    {localTokenId : ℤ} {fullCore : List EncodedCoreToken} {segments : List SourceSegment}
    {spokenEnd sourceLength : Nat} {progress : List SourceProgress}
    (htile : SegmentsTile (0, 0) segments (spokenEnd, fullCore.length))
    (hprogress : progress = ⟨0, 0, 0⟩ :: (tokenPlacements spec localTokenId fullCore segments
      spokenEnd sourceLength).zipIdx.map (placementProgress projection))
    (hmonotone : progress.Pairwise fun first second => first.sourceCharEnd ≤ second.sourceCharEnd)
    {segment : SourceSegment} (hsegment : segment ∈ segments) {count : Nat}
    (hcount : count ≤ segment.coreTokenEnd) {item : SourceProgress}
    (hitem : progress[count]? = some item) : item.sourceCharEnd < segment.sourceCharEnd := by
  have hbounds := htile.bounds segment hsegment
  dsimp only at hbounds
  have hplaced : (tokenPlacements spec localTokenId fullCore segments spokenEnd
      sourceLength).length = fullCore.length + 3 := length_tokenPlacements htile
  have hlength : segment.coreTokenEnd < progress.length := by
    rw [hprogress, List.length_cons, List.length_map, List.length_zipIdx, hplaced]
    omega
  -- the entry behind all tokens of the segment but the last
  have hbefore : ∀ entry, progress[segment.coreTokenEnd]? = some entry →
      entry.sourceCharEnd < segment.sourceCharEnd := by
    intro entry hentry
    obtain ⟨tokenIndex, htokenIndex⟩ : ∃ tokenIndex, segment.coreTokenEnd = tokenIndex + 1 :=
      ⟨segment.coreTokenEnd - 1, by omega⟩
    rw [hprogress, htokenIndex, List.getElem?_cons_succ, getElem?_placementProgress,
      Option.map_eq_some_iff] at hentry
    obtain ⟨token, htoken, rfl⟩ := hentry
    rw [placementProgress]
    cases tokenIndex with
    | zero =>
      obtain rfl := Option.some.inj htoken
      dsimp only
      omega
    | succ coreIndex =>
      rw [getElem?_tokenPlacements_core htile (by omega)] at htoken
      have hle : token.commitCharEnd ≤ segment.sourceCharStart :=
        htile.commitCharEnd_le (Nat.le_refl _) hsegment (Nat.zero_le _) (by omega) htoken
      exact Nat.lt_of_le_of_lt hle hbounds.2.1
  rcases Nat.lt_or_ge count segment.coreTokenEnd with hlt | hge
  · obtain ⟨hcountLength, hcountGet⟩ := List.getElem?_eq_some_iff.mp hitem
    have hle := List.pairwise_iff_getElem.mp hmonotone count segment.coreTokenEnd hcountLength
      hlength hlt
    rw [hcountGet] at hle
    exact Nat.lt_of_le_of_lt hle (hbefore _ (List.getElem?_eq_getElem hlength))
  · obtain rfl : count = segment.coreTokenEnd := Nat.le_antisymm hcount hge
    exact hbefore item hitem

/-! ### Main result -/

/-- For every source and every runner: an utterance that `prepare` returns has a sound source
lineage. -/
theorem sourceLineage_of_prepare (unicode : UnicodeData) (spec : FrontendSpec)
    (runner : FrontendRunner) (sourceText : Text) (prepared : PreparedUtterance)
    (h : prepare unicode spec runner sourceText = .ok prepared) :
    ∃ fullCore spokenEnd,
      SourceLineage unicode spec runner sourceText prepared fullCore spokenEnd := by
  obtain ⟨projection, g2p, fullCore, certified, state, localTokenId, hprojects, hcore, hcertified,
    hstate, hlocal, -, -, hsegments, htokens, -, hprogress, hmonotonic, hlast⟩ := prepare_eq_ok h
  obtain ⟨hfollows, hcoreEnd, hsourceEnd⟩ := sourceSegments_spec hstate
  have hlastEnd : projection.normalizedText.length ≠ 0 :=
    fun hzero => hprojects.normalizedText_ne_nil (List.length_eq_zero_iff.mp hzero)
  have hspoken : state.sourceStart ≤ sourceText.length := by
    obtain ⟨-, -, -, -, hle⟩ :=
      hprojects.sourceCharEnd_spec (Nat.pos_of_ne_zero hlastEnd) (Nat.le_refl _)
    rw [hsourceEnd, hprojects.lastNonWhitespaceSourceEnd_eq_getD]
    exact hle
  have htile : SegmentsTile (0, 0) state.segments (state.sourceStart, fullCore.length) :=
    hcoreEnd ▸ hfollows.tile
  have hboundary : ∀ position ≤ sourceText.length,
      projection.boundary position = utf8Length (sourceText.take position) := by
    intro position hposition
    rw [SourceProjection.boundary, hprojects.utf8Boundaries_eq,
      getD_utf8BoundariesFrom 0 sourceText hposition, Nat.zero_add]
  have hbounds : ∀ token ∈ tokenPlacements spec localTokenId fullCore state.segments
      state.sourceStart sourceText.length, token.sourceCharStart ≤ token.sourceCharEnd ∧
        token.sourceCharEnd ≤ sourceText.length ∧ token.commitCharEnd ≤ sourceText.length :=
    bounds_of_mem_tokenPlacements htile hspoken
  have hplacedCore : ∀ {segment coreIndex}, segment ∈ state.segments →
      ∀ hindex : coreIndex < fullCore.length, segment.coreTokenStart ≤ coreIndex →
      coreIndex < segment.coreTokenEnd →
      (tokenPlacements spec localTokenId fullCore state.segments state.sourceStart
        sourceText.length)[coreIndex + 1]? =
          some (placeCoreToken segment fullCore[coreIndex] coreIndex) := by
    intro segment coreIndex hsegment hindex hstart hend
    rw [getElem?_tokenPlacements_core htile hindex]
    exact htile.getElem?_flatMap (Nat.le_refl _) hsegment hindex hstart hend
  obtain ⟨-, hpairwise⟩ := pairwise_of_progressMonotonicFrom hmonotonic
  have hentries := hprogress
  rw [htokens, tokenProgress_preparedTokens] at hentries
  have hcount : ∀ count (item : SourceProgress), prepared.progress[count]? = some item →
      item.committedTextTokens = count := by
    intro count item hitem
    rw [hentries] at hitem
    cases count with
    | zero =>
      obtain rfl := Option.some.inj hitem
      rfl
    | succ index =>
      rw [List.getElem?_cons_succ, getElem?_placementProgress, Option.map_eq_some_iff] at hitem
      obtain ⟨token, -, rfl⟩ := hitem
      rfl
  refine ⟨fullCore, state.sourceStart, ?_⟩
  exact {
    core_eq := ⟨g2p, by rw [hprojects.projectedPrefix_length]; exact hcore⟩
    segmentsTile := hsegments ▸ htile
    spokenEnd_le := hspoken
    isspace_of_mem_drop := hsourceEnd ▸ hprojects.isspace_of_mem_drop
    contents_eq := ⟨localTokenId, by
      rw [htokens, map_content_preparedTokens, map_content_tokenPlacements htile]⟩
    firstToken := ⟨_, by rw [htokens, getElem?_preparedTokens]; rfl, rfl, rfl⟩
    coreToken := by
      intro segment hsegment coreIndex hstart hend
      rw [hsegments] at hsegment
      have hindex : coreIndex < fullCore.length :=
        Nat.lt_of_lt_of_le hend (htile.bounds segment hsegment).2.2.2.2.2
      have hget : prepared.tokens[coreIndex + 1]? = some (preparedToken projection (coreIndex + 1)
          (placeCoreToken segment fullCore[coreIndex] coreIndex)) := by
        rw [htokens, getElem?_preparedTokens, hplacedCore hsegment hindex hstart hend]
        rfl
      exact ⟨_, hget, rfl, rfl⟩
    lastSpace := ⟨_, by
      rw [htokens, getElem?_preparedTokens, getElem?_tokenPlacements_lastSpace htile]; rfl,
      rfl, rfl⟩
    segmentSpan := by
      intro segment hsegment
      rw [hsegments] at hsegment
      obtain ⟨hutf8Start, hutf8End⟩ := hfollows.utf8_of_mem segment hsegment
      obtain ⟨-, hlt, hle, -⟩ := htile.bounds segment hsegment
      have hend : segment.sourceCharEnd ≤ sourceText.length := Nat.le_trans hle hspoken
      exact ⟨Nat.le_of_lt hlt, hend, hutf8Start.trans (hboundary _ (by omega)),
        hutf8End.trans (hboundary _ hend)⟩
    tokenSpan := by
      intro token htoken
      rw [htokens] at htoken
      obtain ⟨⟨placement, index⟩, hmem, rfl⟩ := List.mem_map.mp htoken
      obtain ⟨hstart, hend, -⟩ := hbounds placement (List.fst_mem_of_mem_zipIdx hmem)
      exact ⟨hstart, hend, hboundary _ (Nat.le_trans hstart hend), hboundary _ hend⟩
    progress_length := by rw [hprogress, tokenProgress, List.length_cons, List.length_map]
    committedTextTokens_eq := hcount
    progress_utf8 := by
      intro item hitem
      rw [hentries] at hitem
      rcases List.mem_cons.mp hitem with rfl | hitem
      · exact ⟨Nat.le_refl _, Nat.zero_le _, rfl, rfl⟩
      · obtain ⟨⟨placement, index⟩, hmem, rfl⟩ := List.mem_map.mp hitem
        obtain ⟨-, -, hcommit⟩ := hbounds placement (List.fst_mem_of_mem_zipIdx hmem)
        exact ⟨Nat.zero_le _, hcommit, rfl, hboundary _ hcommit⟩
    progress_monotone := hpairwise
    progress_last := by
      rw [hlast, hprojects.utf8Boundaries_eq, List.getLastD_eq_getLast?,
        List.getLast?_eq_getElem?, length_utf8BoundariesFrom, Nat.add_sub_cancel,
        ← List.getD_eq_getElem?_getD, getD_utf8BoundariesFrom 0 sourceText (Nat.le_refl _),
        List.take_length, Nat.zero_add]
    certified := by
      intro segment hsegment
      rw [hsegments] at hsegment
      obtain ⟨preparedEnd, hentry, hend⟩ := hfollows.certified_of_mem segment hsegment
      obtain ⟨hpositive, hle, prefixG2p, prefixCore, hprefix, -, -, hidentity, hunit⟩ :=
        certifiedPrefixes_spec hcertified _ hentry
      refine ⟨prefixG2p, prefixCore, ?_, hidentity, hunit⟩
      rw [hend, SourceProjection.charEnd, ← hprojects.take_normalizedText hpositive hle]
      exact hprefix
    commit := by
      intro segment hsegment
      rw [hsegments] at hsegment
      obtain ⟨-, -, -, -, hlt, hle⟩ := htile.bounds segment hsegment
      refine ⟨?_, fun item hitem hsource => ?_⟩
      · obtain ⟨coreIndex, hcoreIndex⟩ : ∃ coreIndex, segment.coreTokenEnd = coreIndex + 1 :=
          ⟨segment.coreTokenEnd - 1, by omega⟩
        have hget : prepared.progress[segment.coreTokenEnd + 1]? =
            some (placementProgress projection
              (placeCoreToken segment fullCore[coreIndex] coreIndex, coreIndex + 1)) := by
          rw [hentries, List.getElem?_cons_succ, getElem?_placementProgress, hcoreIndex,
            hplacedCore hsegment (by omega) (by omega) (by omega)]
          rfl
        exact ⟨_, hget, if_pos hcoreIndex.symm⟩
      · obtain ⟨count, hlength, hget⟩ := List.mem_iff_getElem.mp hitem
        have hitem := List.getElem?_eq_some_iff.mpr ⟨hlength, hget⟩
        rw [hcount count item hitem]
        by_contra hnot
        have hbefore := sourceCharEnd_lt_of_progress htile hentries (hpairwise.imp And.left)
          hsegment (Nat.not_lt.mp hnot) hitem
        omega }

/-! ### A greeting -/

/-- A row of `run_frontend` with the fields of a word. -/
def njdRow (word : NjdWord) : FrontendRow :=
  .mapping fun
    | .string => some (.text word.string)
    | .pron => some (.text word.pron)
    | .pos => some (.text word.pos)
    | .posGroup1 => some (.text word.posGroup1)
    | .chainFlag => some (.integer word.chainFlag)
    | .moraSize => some (.integer word.moraSize)
    | .acc => some (.integer word.acc)

/-- The Unicode functions on Japanese text, which they leave as it is. -/
def japaneseUnicode : UnicodeData := ⟨id, id⟩

/-- The words that OpenJTalk finds in the prefixes of a greeting. -/
def greetingWords : Text → List NjdWord
  | ['こ'] => [⟨['こ'], ['コ'], ['フ', 'ィ', 'ラ', 'ー'], ['*'], -1, 1, 1⟩]
  | ['こ', 'ん'] => [⟨['こ', 'ん'], ['コ', 'ン'], ['連', '体', '詞'], ['*'], -1, 2, 0⟩]
  | ['こ', 'ん', 'に'] =>
    [⟨['こ', 'ん'], ['コ', 'ン'], ['連', '体', '詞'], ['*'], -1, 2, 0⟩,
      ⟨['に'], ['ニ'], ['助', '詞'], ['格', '助', '詞'], 1, 1, 0⟩]
  | ['こ', 'ん', 'に', 'ち'] =>
    [⟨['こ', 'ん', 'に', 'ち'], ['コ', 'ン', 'ニ', 'チ'], ['名', '詞'], ['副', '詞', '可', '能'], -1, 4, 1⟩]
  | ['こ', 'ん', 'に', 'ち', 'は'] =>
    [⟨['こ', 'ん', 'に', 'ち', 'は'], ['コ', 'ン', 'ニ', 'チ', 'ワ'], ['感', '動', '詞'], ['*'], -1, 5, 0⟩]
  | ['こ', 'ん', 'に', 'ち', 'は', '。'] =>
    [⟨['こ', 'ん', 'に', 'ち', 'は'], ['コ', 'ン', 'ニ', 'チ', 'ワ'], ['感', '動', '詞'], ['*'], -1, 5, 0⟩,
      ⟨['。'], ['、'], ['記', '号'], ['句', '点'], 0, 0, 0⟩]
  | _ => []

def greetingRunner : FrontendRunner := fun text => .ok ((greetingWords text).map njdRow)

/-- The rows of the token table that the greeting needs. -/
def greetingSpec : FrontendSpec where
  tokenTable := [⟨[' '], 0⟩, ⟨['0'], 1⟩, ⟨['1'], 2⟩, ⟨['コ'], 21⟩, ⟨['チ'], 35⟩, ⟨['ニ'], 45⟩,
    ⟨['ワ'], 81⟩, ⟨['ン'], 83⟩, ⟨['。'], 139⟩]
  globalOffset := 842
  eosTokenId := 3358

/-- The greeting, with a space behind it. -/
def greeting : Text := ['こ', 'ん', 'に', 'ち', 'は', '。', ' ']

theorem prepare_greeting : ∃ prepared,
    prepare japaneseUnicode greetingSpec greetingRunner greeting = .ok prepared ∧
      prepared.proof.segments.map SourceSegment.sourceCharEnd = [2, 3, 5, 6] := by
  have hends : ((prepare japaneseUnicode greetingSpec greetingRunner greeting).map fun prepared =>
      prepared.proof.segments.map SourceSegment.sourceCharEnd) = .ok [2, 3, 5, 6] := by
    decide +kernel
  obtain ⟨prepared, hprepared, hends⟩ := map_eq_ok_iff.mp hends
  exact ⟨prepared, hprepared, hends⟩

theorem sourceLineage_greeting : ∃ prepared fullCore spokenEnd,
    prepare japaneseUnicode greetingSpec greetingRunner greeting = .ok prepared ∧
      SourceLineage japaneseUnicode greetingSpec greetingRunner greeting prepared fullCore
        spokenEnd := by
  obtain ⟨prepared, hprepared, -⟩ := prepare_greeting
  obtain ⟨fullCore, spokenEnd, h⟩ := sourceLineage_of_prepare _ _ _ _ prepared hprepared
  exact ⟨prepared, fullCore, spokenEnd, hprepared, h⟩

theorem SegmentsTile.last_eq_of_getLast? {first last : Nat × Nat} {segments : List SourceSegment}
    (h : SegmentsTile first segments last) {segment : SourceSegment}
    (hlast : segments.getLast? = some segment) :
    last = (segment.sourceCharEnd, segment.coreTokenEnd) := by
  induction h with
  | nil position => cases hlast
  | @cons head rest last hsource htoken hrest ih =>
    cases rest with
    | nil =>
      obtain rfl := Option.some.inj hlast
      generalize hposition : (head.sourceCharEnd, head.coreTokenEnd) = position at hrest
      cases hrest
      exact hposition.symm
    | cons next rest => exact ih (by rwa [List.getLast?_cons_cons] at hlast)

/-- The space behind the greeting is in no segment. -/
theorem not_segmentsTile_source :
    ¬ ∀ unicode spec runner sourceText prepared,
      prepare unicode spec runner sourceText = .ok prepared →
        SegmentsTile (0, 0) prepared.proof.segments
          (sourceText.length, prepared.proof.coreTokenCount) := by
  intro h
  obtain ⟨prepared, hprepared, hends⟩ := prepare_greeting
  have htile := h _ _ _ _ _ hprepared
  have hlast := congrArg List.getLast? hends
  rw [List.getLast?_map] at hlast
  obtain ⟨segment, hsegment, hend⟩ := Option.map_eq_some_iff.mp hlast
  have hlength : greeting.length = segment.sourceCharEnd :=
    congrArg Prod.fst (htile.last_eq_of_getLast? hsegment)
  rw [hend] at hlength
  exact absurd hlength (by decide)

end MagpieTts.Frontend
