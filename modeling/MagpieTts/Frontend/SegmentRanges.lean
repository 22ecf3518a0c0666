import Mathlib.Data.List.Dedup
import Mathlib.Data.List.Sort
import MagpieTts.Library.GreedyPartition
import MagpieTts.Frontend.SourceLineage

/-!
# Splitting a long text at certified sentence ends

A text with more OpenJTalk words than the runtime takes at once is split at positions that are the
end of a certified segment and the end of a sentence. From every split the front end takes the
farthest position that the word limit allows.

## Main definitions

* `certifiedEnds`: the positions at which a text may be split.
* `certifiedSegmentRanges`: the greedy selection of ranges.
* `prepareSegments`: the ranges, each prepared as an utterance of its own.

## Main results

* `certifiedSegmentRanges_eq_ok_iff`: the ranges that are returned are a greedy partition.
* `certifiedSegmentRanges_optimal`: for word counts that are positive and monotone, the ranges are
  a legal partition with the least number of pieces, and they fail to be returned exactly when
  there is no legal partition.
-/

namespace MagpieTts.Frontend

open MagpieTts.Library

/-! ### The positions -/

/-- `MAXIMUM_NJD_WORDS_PER_SEGMENT`. -/
def maximumNjdWordsPerSegment : ℤ := 80

/-- The characters that end a sentence in `_certified_segment_ranges`. -/
def endsSentence (character : Char) : Bool := ['。', '！', '？', '\n'].contains character

/-- The positions after the characters that end a sentence. -/
def sentenceEnds (sourceText : Text) : List Nat :=
  (sourceText.zipIdx.filter fun character => endsSentence character.1).map
    fun character => character.2 + 1

/-- The inner positions that end a segment and a sentence, and the end of the text, in their
order. -/
def certifiedEnds (prepared : PreparedUtterance) : List Nat :=
  let sourceLength := prepared.sourceText.length
  let inner := (prepared.proof.segments.map SourceSegment.sourceCharEnd).filter fun sourceEnd =>
    0 < sourceEnd && sourceEnd < sourceLength &&
      (sentenceEnds prepared.sourceText).contains sourceEnd
  (inner ++ [sourceLength]).dedup.insertionSort (· ≤ ·)

/-! ### The greedy selection -/

/-- `njd_word_count`: the number of words between two positions; it may raise. -/
abbrev WordCount := Nat → Nat → Except FrontendException ℤ

/-- One pass of the inner loop: a position after `start` is selected when the words before it are
within the limit. -/
def considerEnd (njdWordCount : WordCount) (start : Nat)
    (selected : Option {sourceEnd : Nat // start < sourceEnd}) (sourceEnd : Nat) :
    Except FrontendException (Option {sourceEnd : Nat // start < sourceEnd}) :=
  if h : start < sourceEnd then do
    let count ← njdWordCount start sourceEnd
    raiseIf (count ≤ 0)
      (.ambiguousAlignmentError "certified source interval produced no OpenJTalk NJD word")
    return if count ≤ maximumNjdWordsPerSegment then some ⟨sourceEnd, h⟩ else selected
  else .ok selected

/-- The inner loop: the last position within the limit. -/
def selectedEnd (njdWordCount : WordCount) (ends : List Nat) (start : Nat) :
    Except FrontendException (Option {sourceEnd : Nat // start < sourceEnd}) :=
  ends.foldlM (considerEnd njdWordCount start) none

/-- The outer loop from a position on. -/
def rangesFrom (njdWordCount : WordCount) (ends : List Nat) (sourceLength start : Nat) :
    Except FrontendException (List (Nat × Nat)) :=
  if _h : start < sourceLength then do
    match ← selectedEnd njdWordCount ends start with
    | none =>
      .error (.ambiguousAlignmentError
        "no certified sentence boundary satisfies the 80-NJD-word runtime limit")
    | some ⟨sourceEnd, _⟩ =>
      return (start, sourceEnd) :: (← rangesFrom njdWordCount ends sourceLength sourceEnd)
  else .ok []
termination_by sourceLength - start

/-- `_certified_segment_ranges`. -/
def certifiedSegmentRanges (prepared : PreparedUtterance) (njdWordCount : WordCount) :
    Except FrontendException (List (Nat × Nat)) := do
  let sourceLength := prepared.sourceText.length
  let ranges ← rangesFrom njdWordCount (certifiedEnds prepared) sourceLength 0
  raiseIf (ranges.getLast?.map Prod.snd ≠ some sourceLength)
    (.ambiguousAlignmentError "certified long-text segmentation did not cover the exact source")
  return ranges

/-! ### The prepared segments -/

/-- `PreparedSegment`: a range of the source, prepared as an utterance of its own. -/
structure PreparedSegment where
  segmentIndex : Nat
  sourceCharStart : Nat
  sourceCharEnd : Nat
  sourceUtf8Start : Nat
  sourceUtf8End : Nat
  prepared : PreparedUtterance
  deriving Repr, DecidableEq

/-- `PreparedSegments`; its segmentation mode has one value. -/
structure PreparedSegments where
  sourceText : Text
  segments : List PreparedSegment
  deriving Repr, DecidableEq

/-- `source_text[start:end]`. -/
def sourceSlice (sourceText : Text) (sourceStart sourceEnd : Nat) : Text :=
  (sourceText.take sourceEnd).drop sourceStart

/-- The word count that `prepare_segments` hands over. -/
def sliceWordCount (unicode : UnicodeData) (runner : FrontendRunner) (sourceText : Text) :
    WordCount := fun sourceStart sourceEnd =>
  (njdWordCount unicode runner (sourceSlice sourceText sourceStart sourceEnd)).map Int.ofNat

/-- The utterance of a range: the whole source is not prepared again. -/
def rangeUtterance (unicode : UnicodeData) (spec : FrontendSpec) (runner : FrontendRunner)
    (prepared : PreparedUtterance) (sourceText : Text) (range : Nat × Nat) :
    Except FrontendException PreparedUtterance :=
  if range.1 = 0 ∧ range.2 = sourceText.length then .ok prepared
  else prepare unicode spec runner (sourceSlice sourceText range.1 range.2)

/-- One pass of the loop of `prepare_segments`. -/
def prepareSegment (unicode : UnicodeData) (spec : FrontendSpec) (runner : FrontendRunner)
    (prepared : PreparedUtterance) (sourceText : Text) (range : (Nat × Nat) × Nat) :
    Except FrontendException PreparedSegment := do
  let segmentPrepared ← rangeUtterance unicode spec runner prepared sourceText range.1
  let count ← njdWordCount unicode runner (sourceSlice sourceText range.1.1 range.1.2)
  raiseIf (count > maximumNjdWordsPerSegment)
    (.ambiguousAlignmentError "certified source segment exceeds the 80-NJD-word runtime limit")
  return {
    segmentIndex := range.2
    sourceCharStart := range.1.1
    sourceCharEnd := range.1.2
    sourceUtf8Start := (utf8BoundariesFrom 0 sourceText).getD range.1.1 0
    sourceUtf8End := (utf8BoundariesFrom 0 sourceText).getD range.1.2 0
    prepared := segmentPrepared }

/-- `prepare_segments`. -/
def prepareSegments (unicode : UnicodeData) (spec : FrontendSpec) (runner : FrontendRunner)
    (sourceText : Text) : Except FrontendException PreparedSegments := do
  let prepared ← prepare unicode spec runner sourceText
  let ranges ← certifiedSegmentRanges prepared (sliceWordCount unicode runner sourceText)
  let segments ← ranges.zipIdx.mapM
    (prepareSegment unicode spec runner prepared sourceText)
  return { sourceText, segments }

/-! ### What the positions are -/

theorem mem_sentenceEnds_iff {sourceText : Text} {position : Nat} :
    position ∈ sentenceEnds sourceText ↔ ∃ character, 0 < position ∧
      sourceText[position - 1]? = some character ∧ endsSentence character = true := by
  constructor
  · intro h
    obtain ⟨⟨character, index⟩, hmem, rfl⟩ := List.mem_map.mp h
    obtain ⟨hmem, hends⟩ := List.mem_filter.mp hmem
    exact ⟨character, Nat.succ_pos _, List.mem_zipIdx_iff_getElem?.mp hmem, hends⟩
  · rintro ⟨character, hpositive, hget, hends⟩
    refine List.mem_map.mpr ⟨(character, position - 1), ?_, Nat.sub_add_cancel hpositive⟩
    exact List.mem_filter.mpr ⟨List.mem_zipIdx_iff_getElem?.mpr hget, hends⟩

/-- The positions at which a text may be split: the ends of segments that end a sentence, and the
end of the text. -/
def certifiedSentenceEnds (prepared : PreparedUtterance) : Set Nat :=
  {position | position = prepared.sourceText.length ∨
    (0 < position ∧ position < prepared.sourceText.length ∧
      (∃ segment ∈ prepared.proof.segments, segment.sourceCharEnd = position) ∧
      ∃ character, prepared.sourceText[position - 1]? = some character ∧
        endsSentence character = true)}

theorem mem_certifiedEnds_iff {prepared : PreparedUtterance} {position : Nat} :
    position ∈ certifiedEnds prepared ↔ position ∈ certifiedSentenceEnds prepared := by
  simp only [certifiedEnds, List.mem_insertionSort, List.mem_dedup, List.mem_append,
    List.mem_filter, List.mem_map, Bool.and_eq_true, decide_eq_true_eq, List.contains_iff_mem,
    mem_sentenceEnds_iff, List.mem_singleton, certifiedSentenceEnds, Set.mem_ofPred_eq]
  constructor
  · rintro (⟨hsegment, ⟨hpositive, hlt⟩, character, -, hcharacter⟩ | rfl)
    · exact .inr ⟨hpositive, hlt, hsegment, character, hcharacter⟩
    · exact .inl rfl
  · rintro (rfl | ⟨hpositive, hlt, hsegment, character, hcharacter⟩)
    · exact .inr rfl
    · exact .inl ⟨hsegment, ⟨hpositive, hlt⟩, character, hpositive, hcharacter⟩

theorem pairwise_certifiedEnds (prepared : PreparedUtterance) :
    (certifiedEnds prepared).Pairwise (· ≤ ·) :=
  List.pairwise_insertionSort _ _

theorem le_length_of_mem_certifiedSentenceEnds {prepared : PreparedUtterance} {position : Nat}
    (h : position ∈ certifiedSentenceEnds prepared) : position ≤ prepared.sourceText.length := by
  rcases h with rfl | ⟨-, hlt, -⟩
  · exact Nat.le_refl _
  · exact Nat.le_of_lt hlt

/-! ### What the inner loop selects -/

section Selection

variable {njdWordCount : WordCount} {ends : List Nat} {start : Nat}

/-- The words between two positions are counted, and there is at least one. -/
def Counted (njdWordCount : WordCount) (start sourceEnd : Nat) : Prop :=
  ∃ count, njdWordCount start sourceEnd = .ok count ∧ 0 < count

/-- The words between two positions are within the limit. -/
def WithinLimit (njdWordCount : WordCount) (start sourceEnd : Nat) : Prop :=
  ∃ count, njdWordCount start sourceEnd = .ok count ∧ count ≤ maximumNjdWordsPerSegment

/-- The ends of the ranges that may begin at a position. -/
abbrev legalEnds (njdWordCount : WordCount) (ends : List Nat) (start : Nat) : Set Nat :=
  fittingEnds {sourceEnd | sourceEnd ∈ ends} (WithinLimit njdWordCount) start

/-- The selection of the inner loop after some of the positions. -/
def Selects (njdWordCount : WordCount) (ends : List Nat) (start : Nat) :
    Option {sourceEnd : Nat // start < sourceEnd} → Prop
  | none => legalEnds njdWordCount ends start = ∅
  | some sourceEnd => IsGreatest (legalEnds njdWordCount ends start) sourceEnd

/-- Every position behind `start` has words. -/
def AllCounted (njdWordCount : WordCount) (ends : List Nat) (start : Nat) : Prop :=
  ∀ sourceEnd ∈ ends, start < sourceEnd → Counted njdWordCount start sourceEnd

theorem considerEnd_eq_ok {selected next : Option {sourceEnd : Nat // start < sourceEnd}}
    {sourceEnd : Nat}
    (h : considerEnd njdWordCount start selected sourceEnd = .ok next) :
    (start < sourceEnd → Counted njdWordCount start sourceEnd) ∧
      ((next = selected ∧ ¬ (start < sourceEnd ∧ WithinLimit njdWordCount start sourceEnd)) ∨
        ∃ hlt, next = some ⟨sourceEnd, hlt⟩ ∧ WithinLimit njdWordCount start sourceEnd) := by
  rw [considerEnd] at h
  split at h
  next hlt =>
    simp only [bind_eq_ok_iff, raiseIf_eq_ok_iff] at h
    obtain ⟨count, hcount, ⟨⟩, hpositive, h⟩ := h
    refine ⟨fun _ => ⟨count, hcount, not_le.mp hpositive⟩, ?_⟩
    split at h
    next hwithin =>
      cases h
      exact .inr ⟨hlt, rfl, count, hcount, hwithin⟩
    next hbeyond =>
      cases h
      refine .inl ⟨rfl, ?_⟩
      rintro ⟨-, other, hother, hwithin⟩
      rw [hcount] at hother
      cases hother
      exact hbeyond hwithin
  next hle =>
    cases h
    exact ⟨fun hlt => absurd hlt hle, .inl ⟨rfl, fun hboth => hle hboth.1⟩⟩

/-- The inner loop selects the farthest legal end, or none when there is none. -/
theorem selectedEnd_spec (hends : ends.Pairwise (· ≤ ·))
    {selected : Option {sourceEnd : Nat // start < sourceEnd}}
    (h : selectedEnd njdWordCount ends start = .ok selected) :
    AllCounted njdWordCount ends start ∧ Selects njdWordCount ends start selected := by
  refine foldlM_eq_ok_induct
    (I := fun done selected => AllCounted njdWordCount done start ∧
      Selects njdWordCount done start selected) ?_ ?_ h
  · exact ⟨nofun, Set.eq_empty_of_forall_notMem fun _ hmem => nomatch hmem.1⟩
  · intro done sourceEnd selected next hprefix ⟨hcounted, hselects⟩ hnext
    have hlargest : ∀ other ∈ done, other ≤ sourceEnd := by
      have hsorted := List.pairwise_append.mp (hends.sublist hprefix.sublist)
      exact fun other hother => hsorted.2.2 other hother sourceEnd (List.mem_singleton_self _)
    obtain ⟨hcount, hstep⟩ := considerEnd_eq_ok hnext
    refine ⟨?_, ?_⟩
    · intro other hother hlt
      rcases List.mem_append.mp hother with hother | hother
      · exact hcounted other hother hlt
      · obtain rfl := List.mem_singleton.mp hother
        exact hcount hlt
    · rcases hstep with ⟨rfl, hnot⟩ | ⟨hlt, rfl, hwithin⟩
      · have hsame : legalEnds njdWordCount (done ++ [sourceEnd]) start =
            legalEnds njdWordCount done start := by
          ext other
          refine ⟨fun ⟨hmem, hother⟩ => ?_, fun ⟨hmem, hother⟩ =>
            ⟨List.mem_append_left _ hmem, hother⟩⟩
          rcases List.mem_append.mp hmem with hmem | hmem
          · exact ⟨hmem, hother⟩
          · obtain rfl := List.mem_singleton.mp hmem
            exact absurd hother hnot
        cases next with
        | none => exact hsame.trans hselects
        | some chosen =>
          rw [Selects, hsame]
          exact hselects
      · refine ⟨⟨List.mem_append_right _ (List.mem_singleton_self _), hlt, hwithin⟩, ?_⟩
        rintro other ⟨hmem, -⟩
        rcases List.mem_append.mp hmem with hmem | hmem
        · exact hlargest other hmem
        · exact Nat.le_of_eq (List.mem_singleton.mp hmem)

/-- The inner loop returns when every position has words. -/
theorem exists_selectedEnd (h : AllCounted njdWordCount ends start) :
    ∃ selected, selectedEnd njdWordCount ends start = .ok selected := by
  have hrun : ∀ selected, ∃ result,
      ends.foldlM (considerEnd njdWordCount start) selected = .ok result := by
    induction ends with
    | nil => exact fun selected => ⟨selected, rfl⟩
    | cons sourceEnd ends ih =>
      intro selected
      have hrest := ih fun other hother => h other (List.mem_cons_of_mem _ hother)
      obtain ⟨next, hnext⟩ : ∃ next,
          considerEnd njdWordCount start selected sourceEnd = .ok next := by
        rw [considerEnd]
        split
        next hlt =>
          obtain ⟨count, hcount, hpositive⟩ := h sourceEnd List.mem_cons_self hlt
          rw [hcount]
          exact ⟨_, bind_eq_ok_iff.mpr ⟨count, rfl, bind_eq_ok_iff.mpr
            ⟨(), raiseIf_eq_ok_iff.mpr (not_le.mpr hpositive), rfl⟩⟩⟩
        next => exact ⟨selected, rfl⟩
      obtain ⟨result, hresult⟩ := hrest next
      exact ⟨result, by rw [List.foldlM_cons, hnext]; exact hresult⟩
  exact hrun none

end Selection

/-! ### What the outer loop returns -/

section Ranges

variable {njdWordCount : WordCount} {ends : List Nat} {sourceLength : Nat}

/-- The ranges that are returned are a greedy partition, and all positions behind a start have
words. -/
theorem rangesFrom_spec (hends : ends.Pairwise (· ≤ ·))
    (hlength : ∀ sourceEnd ∈ ends, sourceEnd ≤ sourceLength) {start : Nat}
    (hstart : start ≤ sourceLength) {ranges : List (Nat × Nat)}
    (h : rangesFrom njdWordCount ends sourceLength start = .ok ranges) :
    GreedyPartition {sourceEnd | sourceEnd ∈ ends} (WithinLimit njdWordCount) sourceLength start
        ranges ∧
      ∀ range ∈ ranges, AllCounted njdWordCount ends range.1 := by
  induction ranges generalizing start with
  | nil =>
    rw [rangesFrom] at h
    split at h
    next =>
      obtain ⟨selected, -, h⟩ := bind_eq_ok_iff.mp h
      cases selected with
      | none => cases h
      | some chosen =>
        obtain ⟨rest, -, h⟩ := bind_eq_ok_iff.mp h
        cases h
    next hge =>
      obtain rfl : start = sourceLength := by omega
      exact ⟨.done, nofun⟩
  | cons range ranges ih =>
    rw [rangesFrom] at h
    split at h
    next =>
      obtain ⟨selected, hselected, h⟩ := bind_eq_ok_iff.mp h
      obtain ⟨hcounted, hselects⟩ := selectedEnd_spec hends hselected
      cases selected with
      | none => cases h
      | some chosen =>
        obtain ⟨rest, hrest, h⟩ := bind_eq_ok_iff.mp h
        cases h
        obtain ⟨hpartition, hall⟩ := ih (hlength chosen hselects.1.1) hrest
        refine ⟨.piece hselects hpartition, fun other hother => ?_⟩
        rcases List.mem_cons.mp hother with rfl | hother
        · exact hcounted
        · exact hall other hother
    next => cases h

/-- A greedy partition is found, if all positions behind its starts have words. -/
theorem rangesFrom_of_greedyPartition (hends : ends.Pairwise (· ≤ ·)) {start : Nat}
    {ranges : List (Nat × Nat)}
    (h : GreedyPartition {sourceEnd | sourceEnd ∈ ends} (WithinLimit njdWordCount) sourceLength
      start ranges) (hcounted : ∀ range ∈ ranges, AllCounted njdWordCount ends range.1) :
    rangesFrom njdWordCount ends sourceLength start = .ok ranges := by
  induction h with
  | done => rw [rangesFrom, dif_neg (Nat.lt_irrefl _)]
  | @piece start next rest hnext hrest ih =>
    obtain ⟨selected, hselected⟩ := exists_selectedEnd (hcounted _ List.mem_cons_self)
    obtain ⟨-, hselects⟩ := selectedEnd_spec hends hselected
    have hlt : start < sourceLength := Nat.lt_of_lt_of_le hnext.1.2.1 hrest.partition.le
    rw [rangesFrom, dif_pos hlt]
    cases selected with
    | none => exact absurd hnext.1 (Set.eq_empty_iff_forall_notMem.mp hselects next)
    | some chosen =>
      obtain ⟨chosen, hchosen⟩ := chosen
      obtain rfl : chosen = next := hselects.unique hnext
      exact bind_eq_ok_iff.mpr ⟨_, hselected, bind_eq_ok_iff.mpr ⟨rest,
        ih fun range hrange => hcounted range (List.mem_cons_of_mem _ hrange), rfl⟩⟩

end Ranges

/-- The ranges that are returned are the greedy partition at the certified sentence ends, where all
positions behind its starts have words. -/
theorem certifiedSegmentRanges_eq_ok_iff {prepared : PreparedUtterance} {njdWordCount : WordCount}
    {ranges : List (Nat × Nat)} (hsource : 0 < prepared.sourceText.length) :
    certifiedSegmentRanges prepared njdWordCount = .ok ranges ↔
      GreedyPartition (certifiedSentenceEnds prepared) (WithinLimit njdWordCount)
          prepared.sourceText.length 0 ranges ∧
        ∀ range ∈ ranges, AllCounted njdWordCount (certifiedEnds prepared) range.1 := by
  have hsame : {sourceEnd | sourceEnd ∈ certifiedEnds prepared} = certifiedSentenceEnds prepared :=
    Set.ext fun _ => mem_certifiedEnds_iff
  rw [← hsame]
  constructor
  · intro h
    obtain ⟨found, hfound, h⟩ := bind_eq_ok_iff.mp h
    obtain ⟨⟨⟩, -, h⟩ := bind_eq_ok_iff.mp h
    cases h
    exact rangesFrom_spec (pairwise_certifiedEnds prepared)
      (fun sourceEnd hmem => le_length_of_mem_certifiedSentenceEnds (mem_certifiedEnds_iff.mp hmem))
      (Nat.zero_le _) hfound
  · rintro ⟨hgreedy, hcounted⟩
    have hlast := hgreedy.partition.getLast?_map_snd hsource
    exact bind_eq_ok_iff.mpr ⟨ranges,
      rangesFrom_of_greedyPartition (pairwise_certifiedEnds prepared) hgreedy hcounted,
      bind_eq_ok_iff.mpr ⟨(), raiseIf_eq_ok_iff.mpr (not_not.mpr hlast), rfl⟩⟩

/-! ### Optimality -/

/-- A legal partition of a prepared text: the ranges follow one another from its start to its end,
each ends at a certified sentence end or at the end of the text and has words within the limit. -/
def LegalPartition (prepared : PreparedUtterance) (wordCount : Nat → Nat → ℤ)
    (ranges : List (Nat × Nat)) : Prop :=
  Partition (certifiedSentenceEnds prepared)
    (fun start sourceEnd => wordCount start sourceEnd ≤ maximumNjdWordsPerSegment)
    prepared.sourceText.length 0 ranges

/-- What the selection of ranges achieves for a word count: the ranges that are returned are a
legal partition, no legal partition has fewer ranges, and an exception is raised exactly when there
is no legal partition. -/
structure OptimalRanges (prepared : PreparedUtterance) (wordCount : Nat → Nat → ℤ) : Prop where
  optimal : ∀ ranges,
    certifiedSegmentRanges prepared (fun start sourceEnd => .ok (wordCount start sourceEnd)) =
        .ok ranges →
      LegalPartition prepared wordCount ranges ∧
        ∀ others, LegalPartition prepared wordCount others → ranges.length ≤ others.length
  raises_iff :
    (∃ exception,
      certifiedSegmentRanges prepared (fun start sourceEnd => .ok (wordCount start sourceEnd)) =
          .error exception) ↔
        ¬ ∃ ranges, LegalPartition prepared wordCount ranges

theorem sourceText_ne_nil_of_prepare {unicode : UnicodeData} {spec : FrontendSpec}
    {runner : FrontendRunner} {sourceText : Text} {prepared : PreparedUtterance}
    (h : prepare unicode spec runner sourceText = .ok prepared) :
    prepared.sourceText = sourceText ∧ 0 < sourceText.length := by
  obtain ⟨projection, -, -, -, -, -, hprojects, -, -, -, -, hsource, -⟩ := prepare_eq_ok h
  refine ⟨hsource, List.length_pos_iff.mpr fun hnil => hprojects.normalizedText_ne_nil ?_⟩
  rw [hprojects.normalizedText_eq, hnil]
  rfl

/-- For every prepared text and every word count that is positive and does not grow when a range is
cut short, the ranges are optimal. -/
theorem certifiedSegmentRanges_optimal (unicode : UnicodeData) (spec : FrontendSpec)
    (runner : FrontendRunner) (sourceText : Text) (prepared : PreparedUtterance)
    (hprepare : prepare unicode spec runner sourceText = .ok prepared)
    (wordCount : Nat → Nat → ℤ)
    (hpositive : ∀ start sourceEnd, start < sourceEnd → sourceEnd ≤ sourceText.length →
      0 < wordCount start sourceEnd)
    (hmonotone : ∀ start later earlier sourceEnd, start ≤ later → later < earlier →
      earlier ≤ sourceEnd → sourceEnd ≤ sourceText.length →
      wordCount later earlier ≤ wordCount start sourceEnd) :
    OptimalRanges prepared wordCount := by
  obtain ⟨rfl, hsource⟩ := sourceText_ne_nil_of_prepare hprepare
  have hwithin : WithinLimit (fun start sourceEnd => .ok (wordCount start sourceEnd)) =
      fun start sourceEnd => wordCount start sourceEnd ≤ maximumNjdWordsPerSegment := by
    funext start sourceEnd
    refine propext ⟨fun ⟨count, hcount, hle⟩ => ?_, fun hle => ⟨_, rfl, hle⟩⟩
    cases hcount
    exact hle
  have hparts : PartsFit (certifiedSentenceEnds prepared)
      fun start sourceEnd => wordCount start sourceEnd ≤ maximumNjdWordsPerSegment :=
    fun start later next hnext hle hlt hfits =>
      (hmonotone start later next next hle hlt (Nat.le_refl _)
        (le_length_of_mem_certifiedSentenceEnds hnext)).trans hfits
  have hcounted : ∀ start, AllCounted (fun start sourceEnd => .ok (wordCount start sourceEnd))
      (certifiedEnds prepared) start :=
    fun start sourceEnd hend hlt => ⟨_, rfl, hpositive start sourceEnd hlt
      (le_length_of_mem_certifiedSentenceEnds (mem_certifiedEnds_iff.mp hend))⟩
  have hreturns : ∀ ranges,
      certifiedSegmentRanges prepared (fun start sourceEnd => .ok (wordCount start sourceEnd)) =
          .ok ranges ↔
        GreedyPartition (certifiedSentenceEnds prepared)
          (fun start sourceEnd => wordCount start sourceEnd ≤ maximumNjdWordsPerSegment)
          prepared.sourceText.length 0 ranges := by
    intro ranges
    rw [certifiedSegmentRanges_eq_ok_iff hsource, hwithin]
    exact ⟨And.left, fun h => ⟨h, fun range _ => hcounted range.1⟩⟩
  constructor
  · intro ranges hranges
    have hgreedy := (hreturns ranges).mp hranges
    exact ⟨hgreedy.partition, fun others hothers => hgreedy.length_le hparts hothers⟩
  · constructor
    · rintro ⟨exception, hraised⟩ ⟨ranges, hlegal⟩
      have hfinite : (certifiedSentenceEnds prepared).Finite :=
        (List.finite_toSet (certifiedEnds prepared)).subset
          fun _ hmem => mem_certifiedEnds_iff.mpr hmem
      obtain ⟨greedy, hgreedy⟩ := Partition.exists_greedyPartition hfinite
        (fun _ hmem => le_length_of_mem_certifiedSentenceEnds hmem) hparts hlegal
      rw [(hreturns greedy).mpr hgreedy] at hraised
      cases hraised
    · intro hnone
      cases hresult : certifiedSegmentRanges prepared
          (fun start sourceEnd => .ok (wordCount start sourceEnd)) with
      | error exception => exact ⟨exception, rfl⟩
      | ok ranges => exact absurd ⟨ranges, ((hreturns ranges).mp hresult).partition⟩ hnone

/-- One word for every character of the greeting. -/
theorem certifiedSegmentRanges_optimal_greeting : ∃ prepared,
    prepare japaneseUnicode greetingSpec greetingRunner greeting = .ok prepared ∧
      OptimalRanges prepared fun start sourceEnd => (sourceEnd : ℤ) - start := by
  obtain ⟨prepared, hprepared, -⟩ := prepare_greeting
  exact ⟨prepared, hprepared, certifiedSegmentRanges_optimal _ _ _ _ prepared hprepared
    (fun start sourceEnd => (sourceEnd : ℤ) - start) (fun _ _ hlt _ => by omega)
    (fun _ _ _ _ hle _ hend _ => by omega)⟩

end MagpieTts.Frontend
