import Mathlib.Data.Finset.Max
import Mathlib.Data.List.DropRight
import Mathlib.Data.List.Forall2
import Mathlib.Logic.Relation
import Mathlib.Tactic.SplitIfs
import MagpieTts.Frontend.SegmentRanges

/-!
# Newlines as sentence ends

A newline is listed among the characters that end a sentence, and it is whitespace. A segment ends
after a character that is not whitespace, so that no segment ends after a newline: the position
after a newline is never a certified sentence end, and a long text is split after `。`, `！` and `？`
only.

Lines are therefore split at their ends only where such a character happens to stand at the end of
a line. The lines of a text must divide into blocks, each with words within the limit, whose last
lines end with punctuation, and no certified punctuation behind a block, be it at the end of a line
or inside one, may be so near that the block with the text up to it is still within the limit.

## Main definitions

* `SplitsAtLineEnds`: lines are split into prepared segments that end at the ends of lines.
* `certifiedStops`: the certified boundaries after `。`, `！` and `？`, and the end of a text.
* `IsBlock`: consecutive lines that are a segment of their own.
* `IsStretch`: the lines from one stop to the next.

## Main results

* `certifiedSentenceEnds_eq`: newlines contribute no certified sentence end.
* `splitsAtLineEnds_iff`: lines are split at their ends exactly when they divide into blocks; for
  regular lines, when no stretch exceeds the word limit; without punctuation, when the whole text
  is within it.
-/

namespace MagpieTts.Frontend

open MagpieTts.Library

/-! ### Certified ends and newlines -/

/-- The characters of sentence-final punctuation. -/
def isSentencePunctuation (character : Char) : Bool := ['。', '！', '？'].contains character

/-- The positions at which a text may be split when newlines have no part in it: its end, and its
certified boundaries after sentence-final punctuation. -/
def certifiedStops (unicode : UnicodeData) (spec : FrontendSpec) (runner : FrontendRunner)
    (sourceText : Text) : Set Nat :=
  {position | position = sourceText.length ∨
    (0 < position ∧ position < sourceText.length ∧
      (∃ prepared, prepare unicode spec runner sourceText = .ok prepared ∧
        ∃ segment ∈ prepared.proof.segments, segment.sourceCharEnd = position) ∧
      ∃ character, sourceText[position - 1]? = some character ∧
        isSentencePunctuation character = true)}

section Prepared

variable {unicode : UnicodeData} {spec : FrontendSpec} {runner : FrontendRunner}
  {sourceText : Text} {prepared : PreparedUtterance}

/-- A segment ends after a character that is not whitespace. -/
theorem isspace_of_segment (h : prepare unicode spec runner sourceText = .ok prepared)
    {segment : SourceSegment} (hsegment : segment ∈ prepared.proof.segments) :
    ∃ character, sourceText[segment.sourceCharEnd - 1]? = some character ∧
      isspace character = false := by
  obtain ⟨projection, g2p, fullCore, certified, state, -, hprojects, -, hcertified, hstate, -, -, -,
    hsegments, -⟩ := prepare_eq_ok h
  rw [hsegments] at hsegment
  obtain ⟨hfollows, -⟩ := sourceSegments_spec hstate
  obtain ⟨preparedEnd, hentry, hend⟩ := hfollows.certified_of_mem segment hsegment
  obtain ⟨hpositive, hle, -⟩ := certifiedPrefixes_spec hcertified _ hentry
  obtain ⟨character, hget, hspace, -⟩ := hprojects.sourceCharEnd_spec hpositive hle
  exact ⟨character, by rw [hend]; exact hget, hspace⟩

theorem endsSentence_of_isSentencePunctuation {character : Char}
    (h : isSentencePunctuation character = true) : endsSentence character = true := by
  simp only [isSentencePunctuation, List.contains_iff_mem, List.mem_cons, List.not_mem_nil,
    or_false] at h
  rcases h with rfl | rfl | rfl <;> rfl

theorem isSentencePunctuation_of_isspace {character : Char} (hspace : isspace character = false)
    (h : endsSentence character = true) : isSentencePunctuation character = true := by
  simp only [endsSentence, List.contains_iff_mem, List.mem_cons, List.not_mem_nil, or_false] at h
  rcases h with rfl | rfl | rfl | rfl
  · rfl
  · rfl
  · rfl
  · cases hspace

/-- Newlines contribute no certified sentence end. -/
theorem certifiedSentenceEnds_eq (h : prepare unicode spec runner sourceText = .ok prepared) :
    certifiedSentenceEnds prepared = certifiedStops unicode spec runner sourceText := by
  obtain ⟨rfl, -⟩ := sourceText_ne_nil_of_prepare h
  ext position
  refine or_congr_right (and_congr_right fun _ => and_congr_right fun _ => ?_)
  constructor
  · rintro ⟨⟨segment, hsegment, rfl⟩, character, hget, hcharacter⟩
    obtain ⟨kept, hkept, hspace⟩ := isspace_of_segment h hsegment
    rw [hkept] at hget
    obtain rfl := Option.some.inj hget
    exact ⟨⟨prepared, h, segment, hsegment, rfl⟩, kept, hkept,
      isSentencePunctuation_of_isspace hspace hcharacter⟩
  · rintro ⟨⟨other, hother, segment, hsegment, hend⟩, character, hget, hcharacter⟩
    obtain rfl : other = prepared := by
      rw [h] at hother
      exact (Except.ok.inj hother).symm
    exact ⟨⟨segment, hsegment, hend⟩, character, hget,
      endsSentence_of_isSentencePunctuation hcharacter⟩

end Prepared

/-! ### Splitting -/

section Splitting

variable {unicode : UnicodeData} {spec : FrontendSpec} {runner : FrontendRunner}
  {sourceText : Text} {prepared : PreparedUtterance}

theorem sourceSlice_length (sourceText : Text) :
    sourceSlice sourceText 0 sourceText.length = sourceText := by
  rw [sourceSlice, List.take_length, List.drop_zero]

/-- A range within the limit is prepared when its text can be. -/
theorem exists_prepareSegment_iff (h : prepare unicode spec runner sourceText = .ok prepared)
    {range : (Nat × Nat) × Nat}
    (hwithin : WithinLimit (sliceWordCount unicode runner sourceText) range.1.1 range.1.2) :
    (∃ segment, prepareSegment unicode spec runner prepared sourceText range = .ok segment) ↔
      ∃ part, prepare unicode spec runner (sourceSlice sourceText range.1.1 range.1.2) =
        .ok part := by
  obtain ⟨words, hwords, hle⟩ := hwithin
  obtain ⟨count, hcount, rfl⟩ := map_eq_ok_iff.mp hwords
  have hutterance : rangeUtterance unicode spec runner prepared sourceText range.1 =
      prepare unicode spec runner (sourceSlice sourceText range.1.1 range.1.2) := by
    rw [rangeUtterance]
    split
    next hwhole => rw [hwhole.1, hwhole.2, sourceSlice_length, h]
    next => rfl
  rw [← hutterance]
  constructor
  · rintro ⟨segment, h⟩
    obtain ⟨part, hpart, -⟩ := bind_eq_ok_iff.mp h
    exact ⟨part, hpart⟩
  · rintro ⟨part, hpart⟩
    exact ⟨_, bind_eq_ok_iff.mpr ⟨part, hpart, bind_eq_ok_iff.mpr ⟨count, hcount,
      bind_eq_ok_iff.mpr ⟨(), raiseIf_eq_ok_iff.mpr (not_lt.mpr hle), rfl⟩⟩⟩⟩

theorem sourceCharEnd_of_prepareSegment {range : (Nat × Nat) × Nat} {segment : PreparedSegment}
    (h : prepareSegment unicode spec runner prepared sourceText range = .ok segment) :
    segment.sourceCharEnd = range.1.2 := by
  simp only [prepareSegment, bind_eq_ok_iff] at h
  obtain ⟨_, _, _, _, _, _, h⟩ := h
  cases h
  rfl

/-- What is asked of a range that is a segment: the text from its start to every stop behind has
words, its own text can be prepared, and its end is one of those asked for. -/
structure SegmentRange (unicode : UnicodeData) (spec : FrontendSpec) (runner : FrontendRunner)
    (sourceText : Text) (isEnd : Nat → Prop) (range : Nat × Nat) : Prop where
  counted : ∀ stop ∈ certifiedStops unicode spec runner sourceText, range.1 < stop →
    Counted (sliceWordCount unicode runner sourceText) range.1 stop
  prepared : ∃ part, prepare unicode spec runner (sourceSlice sourceText range.1 range.2) = .ok part
  isEnd : isEnd range.2

/-- The segments that are returned are the longest ranges that the stops allow. -/
theorem exists_prepareSegments_iff {isEnd : Nat → Prop} :
    (∃ result, prepareSegments unicode spec runner sourceText = .ok result ∧
        ∀ segment ∈ result.segments, isEnd segment.sourceCharEnd) ↔
      (∃ prepared, prepare unicode spec runner sourceText = .ok prepared) ∧
        ∃ ranges, GreedyPartition (certifiedStops unicode spec runner sourceText)
          (WithinLimit (sliceWordCount unicode runner sourceText)) sourceText.length 0 ranges ∧
          ∀ range ∈ ranges, SegmentRange unicode spec runner sourceText isEnd range := by
  constructor
  · rintro ⟨result, h, hends⟩
    obtain ⟨prepared, hprepare, h⟩ := bind_eq_ok_iff.mp h
    obtain ⟨rfl, hsource⟩ := sourceText_ne_nil_of_prepare hprepare
    obtain ⟨ranges, hranges, h⟩ := bind_eq_ok_iff.mp h
    obtain ⟨segments, hsegments, h⟩ := bind_eq_ok_iff.mp h
    cases h
    obtain ⟨hgreedy, hcounted⟩ := (certifiedSegmentRanges_eq_ok_iff hsource).mp hranges
    rw [certifiedSentenceEnds_eq hprepare] at hgreedy
    have hranges := (forall_mem_mapM_iff hsegments fun range segment hsegment => by
      rw [sourceCharEnd_of_prepareSegment hsegment]).mp hends
    refine ⟨⟨prepared, hprepare⟩, ranges, hgreedy, fun range hrange => ?_⟩
    obtain ⟨index, hindex⟩ := List.mem_iff_getElem?.mp hrange
    have hmem : (range, index) ∈ ranges.zipIdx := List.mem_zipIdx_iff_getElem?.mpr hindex
    refine ⟨fun stop hstop hlt => ?_, ?_, hranges _ hmem⟩
    · rw [← certifiedSentenceEnds_eq hprepare] at hstop
      exact hcounted range hrange stop (mem_certifiedEnds_iff.mpr hstop) hlt
    · exact (exists_prepareSegment_iff hprepare
        (hgreedy.partition.forall_mem range hrange).2.2).mp
          (exists_mapM_eq_ok_iff.mp ⟨segments, hsegments⟩ (range, index) hmem)
  · rintro ⟨⟨prepared, hprepare⟩, ranges, hgreedy, hsegments⟩
    obtain ⟨rfl, hsource⟩ := sourceText_ne_nil_of_prepare hprepare
    have hranges := (certifiedSegmentRanges_eq_ok_iff hsource).mpr
      ⟨by rw [certifiedSentenceEnds_eq hprepare]; exact hgreedy, fun range hrange stop hstop => by
        rw [mem_certifiedEnds_iff, certifiedSentenceEnds_eq hprepare] at hstop
        exact (hsegments range hrange).counted stop hstop⟩
    have hprepared : ∀ range ∈ ranges.zipIdx, ∃ segment,
        prepareSegment unicode spec runner prepared prepared.sourceText range = .ok segment := by
      intro range hrange
      have hmem := List.fst_mem_of_mem_zipIdx hrange
      exact (exists_prepareSegment_iff hprepare
        (hgreedy.partition.forall_mem range.1 hmem).2.2).mpr (hsegments range.1 hmem).prepared
    obtain ⟨segments, hmapped⟩ := exists_mapM_eq_ok_iff.mpr hprepared
    refine ⟨_, bind_eq_ok_iff.mpr ⟨prepared, hprepare, bind_eq_ok_iff.mpr ⟨ranges, hranges,
      bind_eq_ok_iff.mpr ⟨segments, hmapped, rfl⟩⟩⟩, ?_⟩
    refine (forall_mem_mapM_iff hmapped fun range segment hsegment => by
      rw [sourceCharEnd_of_prepareSegment hsegment]).mpr fun range hrange => ?_
    exact (hsegments range.1 (List.fst_mem_of_mem_zipIdx hrange)).isEnd

end Splitting

/-! ### Lines -/

/-- Lines joined by newline characters. -/
def joinLines : List Text → Text
  | [] => []
  | [line] => line
  | line :: next :: rest => line ++ '\n' :: joinLines (next :: rest)

/-- The position at the end of the first `count` lines, in front of the newline behind them. -/
def lineEnd (lines : List Text) (count : Nat) : Nat := (joinLines (lines.take count)).length

/-- The text of the lines from number `first` to number `last`, with the newline in front. -/
def lineBlock (lines : List Text) (first last : Nat) : Text :=
  sourceSlice (joinLines lines) (lineEnd lines first) (lineEnd lines last)

theorem joinLines_append {lines others : List Text} (hlines : lines ≠ []) (hothers : others ≠ []) :
    joinLines (lines ++ others) = joinLines lines ++ '\n' :: joinLines others := by
  induction lines with
  | nil => exact absurd rfl hlines
  | cons line rest ih =>
    cases rest with
    | nil =>
      obtain ⟨other, others, rfl⟩ := List.exists_cons_of_ne_nil hothers
      rfl
    | cons next rest =>
      have hrest := ih (List.cons_ne_nil _ _)
      rw [List.cons_append] at hrest
      rw [List.cons_append, List.cons_append, joinLines, hrest, joinLines, List.append_assoc,
        List.cons_append]

theorem mem_joinLines {lines : List Text} {character : Char} (h : character ∈ joinLines lines) :
    character = '\n' ∨ ∃ line ∈ lines, character ∈ line := by
  induction lines with
  | nil => cases h
  | cons line rest ih =>
    cases rest with
    | nil => exact .inr ⟨line, List.mem_cons_self, h⟩
    | cons next rest =>
      rcases List.mem_append.mp h with h | h
      · exact .inr ⟨line, List.mem_cons_self, h⟩
      · rcases List.mem_cons.mp h with h | h
        · exact .inl h
        · rcases ih h with h | ⟨other, hother, h⟩
          · exact .inl h
          · exact .inr ⟨other, List.mem_cons_of_mem _ hother, h⟩

section Lines

variable {lines : List Text}

@[simp] theorem lineEnd_zero : lineEnd lines 0 = 0 := rfl

@[simp] theorem lineEnd_length : lineEnd lines lines.length = (joinLines lines).length := by
  rw [lineEnd, List.take_length]

/-- Between two lines of a text there is a newline. -/
theorem joinLines_eq_of_lt {count : Nat} (hpositive : 0 < count) (hlt : count < lines.length) :
    joinLines lines = joinLines (lines.take count) ++ '\n' :: joinLines (lines.drop count) := by
  conv_lhs => rw [← List.take_append_drop count lines]
  refine joinLines_append (List.ne_nil_of_length_pos ?_) (List.ne_nil_of_length_pos ?_)
  · rw [List.length_take]
    omega
  · rw [List.length_drop]
    omega

theorem lineEnd_lt_length {count : Nat} (hpositive : 0 < count) (hlt : count < lines.length) :
    lineEnd lines count < (joinLines lines).length := by
  rw [joinLines_eq_of_lt hpositive hlt, List.length_append, List.length_cons, lineEnd]
  omega

theorem getElem?_lineEnd {count : Nat} (hpositive : 0 < count) (hlt : count < lines.length) :
    (joinLines lines)[lineEnd lines count]? = some '\n' := by
  rw [joinLines_eq_of_lt hpositive hlt, lineEnd, List.getElem?_append_right (Nat.le_refl _),
    Nat.sub_self, List.getElem?_cons_zero]

theorem lineEnd_le {first last : Nat} (h : first ≤ last) :
    lineEnd lines first ≤ lineEnd lines last := by
  rcases Nat.eq_zero_or_pos first with rfl | hpositive
  · exact Nat.zero_le _
  rcases Nat.lt_or_ge first (lines.take last).length with hlt | hge
  · have hle := lineEnd_lt_length hpositive hlt
    rw [lineEnd, List.take_take, Nat.min_eq_left h] at hle
    exact hle.le
  · rw [lineEnd, lineEnd, ← List.take_of_length_le hge, List.take_take, Nat.min_eq_left h]

theorem lineBlock_zero_length : lineBlock lines 0 lines.length = joinLines lines := by
  rw [lineBlock, lineEnd_zero, lineEnd_length, sourceSlice_length]

end Lines

/-! ### Blocks of lines -/

/-- A position at the end of a line, in front of the newline or behind it. -/
def IsLineEnd (lines : List Text) (position : Nat) : Prop :=
  ∃ count, 0 < count ∧ count ≤ lines.length ∧
    (position = lineEnd lines count ∨ position = lineEnd lines count + 1)

/-- Lines are split into prepared segments, all of which end at the end of a line. -/
def SplitsAtLineEnds (unicode : UnicodeData) (spec : FrontendSpec) (runner : FrontendRunner)
    (lines : List Text) : Prop :=
  ∃ result, prepareSegments unicode spec runner (joinLines lines) = .ok result ∧
    ∀ segment ∈ result.segments, IsLineEnd lines segment.sourceCharEnd

/-- A text has words, and they are within the limit. -/
def FitsWhole (unicode : UnicodeData) (runner : FrontendRunner) (sourceText : Text) : Prop :=
  ∃ count, njdWordCount unicode runner sourceText = .ok count ∧ 0 < count ∧
    (count : ℤ) ≤ maximumNjdWordsPerSegment

/-- A text has words. -/
def HasWords (unicode : UnicodeData) (runner : FrontendRunner) (sourceText : Text) : Prop :=
  ∃ count, njdWordCount unicode runner sourceText = .ok count ∧ 0 < count

/-- A text has more words than the limit. -/
def ExceedsLimit (unicode : UnicodeData) (runner : FrontendRunner) (sourceText : Text) : Prop :=
  ∃ count : Nat, njdWordCount unicode runner sourceText = .ok count ∧
    maximumNjdWordsPerSegment < count

/-- The lines from number `first` to number `last` can be prepared and are within the limit, they
end with certified punctuation or with the text, and with the text up to any later stop they exceed
the limit. -/
structure IsBlock (unicode : UnicodeData) (spec : FrontendSpec) (runner : FrontendRunner)
    (lines : List Text) (first last : Nat) : Prop where
  lt : first < last
  last_le : last ≤ lines.length
  stops : lineEnd lines last ∈ certifiedStops unicode spec runner (joinLines lines)
  prepared : ∃ part, prepare unicode spec runner (lineBlock lines first last) = .ok part
  fits : FitsWhole unicode runner (lineBlock lines first last)
  hasWords : ∀ stop ∈ certifiedStops unicode spec runner (joinLines lines),
    lineEnd lines first < stop → stop < lineEnd lines last →
      HasWords unicode runner (sourceSlice (joinLines lines) (lineEnd lines first) stop)
  exceeds : ∀ stop ∈ certifiedStops unicode spec runner (joinLines lines),
    lineEnd lines last < stop →
      ExceedsLimit unicode runner (sourceSlice (joinLines lines) (lineEnd lines first) stop)

section Blocks

variable {unicode : UnicodeData} {spec : FrontendSpec} {runner : FrontendRunner}
  {sourceText : Text} {lines : List Text}

theorem counted_sliceWordCount_iff {first last : Nat} :
    Counted (sliceWordCount unicode runner sourceText) first last ↔
      HasWords unicode runner (sourceSlice sourceText first last) := by
  constructor
  · rintro ⟨words, hwords, hpositive⟩
    obtain ⟨count, hcount, rfl⟩ := map_eq_ok_iff.mp hwords
    exact ⟨count, hcount, Int.natCast_pos.mp hpositive⟩
  · rintro ⟨count, hcount, hpositive⟩
    exact ⟨count, map_eq_ok_iff.mpr ⟨count, hcount, rfl⟩, Int.natCast_pos.mpr hpositive⟩

theorem fitsWhole_iff {first last : Nat} :
    FitsWhole unicode runner (sourceSlice sourceText first last) ↔
      Counted (sliceWordCount unicode runner sourceText) first last ∧
        WithinLimit (sliceWordCount unicode runner sourceText) first last := by
  rw [counted_sliceWordCount_iff]
  constructor
  · rintro ⟨count, hcount, hpositive, hle⟩
    exact ⟨⟨count, hcount, hpositive⟩, count, map_eq_ok_iff.mpr ⟨count, hcount, rfl⟩, hle⟩
  · rintro ⟨⟨count, hcount, hpositive⟩, words, hwords, hle⟩
    obtain ⟨other, hother, rfl⟩ := map_eq_ok_iff.mp hwords
    rw [hcount] at hother
    cases hother
    exact ⟨count, hcount, hpositive, hle⟩

theorem FitsWhole.hasWords (h : FitsWhole unicode runner sourceText) :
    HasWords unicode runner sourceText := by
  obtain ⟨count, hcount, hpositive, -⟩ := h
  exact ⟨count, hcount, hpositive⟩

theorem ExceedsLimit.hasWords (h : ExceedsLimit unicode runner sourceText) :
    HasWords unicode runner sourceText := by
  obtain ⟨count, hcount, hlt⟩ := h
  refine ⟨count, hcount, ?_⟩
  rw [maximumNjdWordsPerSegment] at hlt
  omega

/-- A text that has words and is not within the limit exceeds it. -/
theorem exceedsLimit_iff {first last : Nat} :
    ExceedsLimit unicode runner (sourceSlice sourceText first last) ↔
      Counted (sliceWordCount unicode runner sourceText) first last ∧
        ¬ WithinLimit (sliceWordCount unicode runner sourceText) first last := by
  constructor
  · intro h
    refine ⟨counted_sliceWordCount_iff.mpr h.hasWords, ?_⟩
    rintro ⟨words, hwords, hle⟩
    obtain ⟨count, hcount, hlt⟩ := h
    obtain ⟨other, hother, rfl⟩ := map_eq_ok_iff.mp hwords
    rw [hcount] at hother
    cases hother
    exact absurd hle (not_le.mpr hlt)
  · rintro ⟨hcounted, hbeyond⟩
    obtain ⟨count, hcount, -⟩ := counted_sliceWordCount_iff.mp hcounted
    refine ⟨count, hcount, not_le.mp fun hle => hbeyond ?_⟩
    exact ⟨count, map_eq_ok_iff.mpr ⟨count, hcount, rfl⟩, hle⟩

/-- A text with words has characters. -/
theorem HasWords.lt {first last : Nat}
    (h : HasWords unicode runner (sourceSlice sourceText first last)) : first < last := by
  obtain ⟨count, hcount, -⟩ := h
  obtain ⟨projection, hprojection, -⟩ := bind_eq_ok_iff.mp hcount
  refine not_le.mp fun hle => (projects_of_projectSource hprojection).normalizedText_ne_nil ?_
  have hnil : sourceSlice sourceText first last = [] := by
    rw [sourceSlice, List.drop_eq_nil_iff, List.length_take]
    omega
  rw [(projects_of_projectSource hprojection).normalizedText_eq, hnil]
  rfl

/-- A block is the longest range that the stops allow, and it can be prepared. -/
theorem isBlock_iff {first last : Nat} :
    IsBlock unicode spec runner lines first last ↔ first < last ∧ last ≤ lines.length ∧
      IsGreatest (fittingEnds (certifiedStops unicode spec runner (joinLines lines))
        (WithinLimit (sliceWordCount unicode runner (joinLines lines))) (lineEnd lines first))
          (lineEnd lines last) ∧
      SegmentRange unicode spec runner (joinLines lines) (· = lineEnd lines last)
        (lineEnd lines first, lineEnd lines last) := by
  constructor
  · intro h
    obtain ⟨hcounted, hwithin⟩ := fitsWhole_iff.mp h.fits
    refine ⟨h.lt, h.last_le, ⟨⟨h.stops, (counted_sliceWordCount_iff.mp hcounted).lt, hwithin⟩, ?_⟩,
      ⟨fun stop hstop hlt => ?_, h.prepared, rfl⟩⟩
    · rintro stop ⟨hstop, -, hfits⟩
      exact not_lt.mp fun hlt => (exceedsLimit_iff.mp (h.exceeds stop hstop hlt)).2 hfits
    · rcases lt_trichotomy stop (lineEnd lines last) with hbefore | rfl | hbehind
      · exact counted_sliceWordCount_iff.mpr (h.hasWords stop hstop hlt hbefore)
      · exact hcounted
      · exact (exceedsLimit_iff.mp (h.exceeds stop hstop hbehind)).1
  · rintro ⟨hlt, hle, ⟨⟨hstop, hforward, hwithin⟩, hgreatest⟩, hsegment⟩
    exact {
      lt := hlt
      last_le := hle
      stops := hstop
      prepared := hsegment.prepared
      fits := fitsWhole_iff.mpr ⟨hsegment.counted _ hstop hforward, hwithin⟩
      hasWords := fun stop hstop hlt _ =>
        counted_sliceWordCount_iff.mp (hsegment.counted stop hstop hlt)
      exceeds := fun stop hstop hlt => exceedsLimit_iff.mpr
        ⟨hsegment.counted stop hstop (hforward.trans hlt), fun hfits =>
          absurd (hgreatest ⟨hstop, hforward.trans hlt, hfits⟩) (not_le.mpr hlt)⟩ }

/-- A stop at the end of a line is in front of its newline. -/
theorem exists_lineEnd_eq {stop : Nat}
    (hstop : stop ∈ certifiedStops unicode spec runner (joinLines lines))
    (hline : IsLineEnd lines stop) : ∃ last, last ≤ lines.length ∧ lineEnd lines last = stop := by
  obtain ⟨count, hpositive, hle, rfl | rfl⟩ := hline
  · exact ⟨count, hle, rfl⟩
  · rcases hstop with hend | ⟨-, hlt, -, character, hget, hcharacter⟩
    · exact ⟨lines.length, Nat.le_refl _, by rw [lineEnd_length, hend]⟩
    · rcases Nat.lt_or_eq_of_le hle with hinner | rfl
      · rw [Nat.add_sub_cancel, getElem?_lineEnd hpositive hinner] at hget
        cases hget
        exact absurd hcharacter (by decide)
      · rw [lineEnd_length] at hlt
        omega

/-- The ranges of the segments are blocks of lines. -/
theorem reflTransGen_isBlock_iff (hsource : 0 < (joinLines lines).length) {first : Nat}
    (hfirst : first ≤ lines.length) :
    Relation.ReflTransGen (IsBlock unicode spec runner lines) first lines.length ↔
      ∃ ranges, GreedyPartition (certifiedStops unicode spec runner (joinLines lines))
        (WithinLimit (sliceWordCount unicode runner (joinLines lines))) (joinLines lines).length
          (lineEnd lines first) ranges ∧
        ∀ range ∈ ranges,
          SegmentRange unicode spec runner (joinLines lines) (IsLineEnd lines) range := by
  constructor
  · intro h
    induction h using Relation.ReflTransGen.head_induction_on with
    | refl =>
      refine ⟨[], ?_, by simp⟩
      rw [lineEnd_length]
      exact .done
    | @head first last hblock hblocks ih =>
      obtain ⟨hlt, hle, hgreatest, hsegment⟩ := isBlock_iff.mp hblock
      obtain ⟨ranges, hgreedy, hranges⟩ := ih hle
      refine ⟨(lineEnd lines first, lineEnd lines last) :: ranges, .piece hgreatest hgreedy, ?_⟩
      refine List.forall_mem_cons.mpr ⟨⟨hsegment.counted, hsegment.prepared, ?_⟩, hranges⟩
      exact ⟨last, Nat.zero_lt_of_lt hlt, hle, .inl rfl⟩
  · rintro ⟨ranges, hgreedy, hranges⟩
    generalize hstart : lineEnd lines first = start at hgreedy
    induction hgreedy generalizing first with
    | done =>
      rcases Nat.lt_or_eq_of_le hfirst with hlt | rfl
      · rcases Nat.eq_zero_or_pos first with rfl | hpositive
        · rw [lineEnd_zero] at hstart
          omega
        · exact absurd hstart (lineEnd_lt_length hpositive hlt).ne
      · exact .refl
    | @piece start next rest hnext hrest ih =>
      obtain ⟨hsegment, hothers⟩ := List.forall_mem_cons.mp hranges
      obtain ⟨last, hle, rfl⟩ := exists_lineEnd_eq hnext.1.1 hsegment.isEnd
      subst hstart
      have hlt : first < last := not_le.mp fun hle =>
        absurd hnext.1.2.1 (not_lt.mpr (lineEnd_le hle))
      have hblock : IsBlock unicode spec runner lines first last :=
        isBlock_iff.mpr ⟨hlt, hle, hnext, hsegment.counted, hsegment.prepared, rfl⟩
      exact .head hblock (ih hle hothers rfl)

/-- Lines are split at their ends exactly when they divide into blocks. -/
theorem splitsAtLineEnds_iff_reflTransGen : SplitsAtLineEnds unicode spec runner lines ↔
    (∃ prepared, prepare unicode spec runner (joinLines lines) = .ok prepared) ∧
      Relation.ReflTransGen (IsBlock unicode spec runner lines) 0 lines.length := by
  refine exists_prepareSegments_iff.trans (and_congr_right ?_)
  rintro ⟨prepared, hprepared⟩
  exact (reflTransGen_isBlock_iff (sourceText_ne_nil_of_prepare hprepared).2
    (Nat.zero_le _)).symm

/-- Without sentence-final punctuation there is one block. -/
theorem splitsAtLineEnds_iff_fitsWhole
    (hplain : ∀ line ∈ lines, ∀ character ∈ line, isSentencePunctuation character = false) :
    SplitsAtLineEnds unicode spec runner lines ↔
      (∃ prepared, prepare unicode spec runner (joinLines lines) = .ok prepared) ∧
        FitsWhole unicode runner (joinLines lines) := by
  have hstops : ∀ stop ∈ certifiedStops unicode spec runner (joinLines lines),
      stop = lineEnd lines lines.length := by
    rintro stop (hend | ⟨-, -, -, character, hget, hcharacter⟩)
    · rw [hend, lineEnd_length]
    · rcases mem_joinLines (List.mem_of_getElem? hget) with rfl | ⟨line, hline, hmem⟩
      · exact absurd hcharacter (by decide)
      · rw [hplain line hline character hmem] at hcharacter
        cases hcharacter
  rw [splitsAtLineEnds_iff_reflTransGen]
  refine and_congr_right fun hprepared => ?_
  have hcount : 0 < lines.length := List.length_pos_iff.mpr fun hnil => by
    obtain ⟨prepared, hprepared⟩ := hprepared
    rw [hnil] at hprepared
    exact absurd (sourceText_ne_nil_of_prepare hprepared).2 (Nat.lt_irrefl _)
  constructor
  · intro h
    rcases Relation.ReflTransGen.cases_head h with hzero | ⟨last, hblock, -⟩
    · exact absurd hzero hcount.ne
    · have hfits := hblock.fits
      rwa [lineBlock, hstops _ hblock.stops, ← lineBlock, lineBlock_zero_length] at hfits
  · intro h
    rw [← lineBlock_zero_length] at h hprepared
    exact .single {
      lt := hcount
      last_le := Nat.le_refl _
      stops := .inl lineEnd_length
      prepared := hprepared
      fits := h
      hasWords := fun stop hstop _ hlt => absurd (hstops stop hstop) hlt.ne
      exceeds := fun stop hstop hlt => absurd (hstops stop hstop) hlt.ne' }

/-- Lines of which every block can be prepared and has words, no more of them when the block is cut
short, and which have certified punctuation at their ends only. -/
structure RegularLines (unicode : UnicodeData) (spec : FrontendSpec) (runner : FrontendRunner)
    (lines : List Text) : Prop where
  nonempty : 0 < lines.length
  prepared : ∀ first last, first < last → last ≤ lines.length →
    ∃ part, prepare unicode spec runner (lineBlock lines first last) = .ok part
  hasWords : ∀ first last, first < last → last ≤ lines.length →
    HasWords unicode runner (lineBlock lines first last)
  fits_of_le : ∀ first later earlier last, first ≤ later → later < earlier → earlier ≤ last →
    last ≤ lines.length → FitsWhole unicode runner (lineBlock lines first last) →
      FitsWhole unicode runner (lineBlock lines later earlier)
  stops : ∀ stop ∈ certifiedStops unicode spec runner (joinLines lines),
    ∃ count, count ≤ lines.length ∧ lineEnd lines count = stop

/-- A text may be split after the first `count` lines, or begins there. -/
def StopsAfter (unicode : UnicodeData) (spec : FrontendSpec) (runner : FrontendRunner)
    (lines : List Text) (count : Nat) : Prop :=
  count = 0 ∨ lineEnd lines count ∈ certifiedStops unicode spec runner (joinLines lines)

/-- The lines from one stop to the next. -/
structure IsStretch (unicode : UnicodeData) (spec : FrontendSpec) (runner : FrontendRunner)
    (lines : List Text) (first last : Nat) : Prop where
  lt : first < last
  last_le : last ≤ lines.length
  first_stops : StopsAfter unicode spec runner lines first
  last_stops : StopsAfter unicode spec runner lines last
  next : ∀ count, first < count → count < last → ¬ StopsAfter unicode spec runner lines count

namespace RegularLines

variable (h : RegularLines unicode spec runner lines)

include h

/-- The longest block that begins after a stop. -/
theorem exists_isBlock
    (hstretches : ∀ first last, IsStretch unicode spec runner lines first last →
      FitsWhole unicode runner (lineBlock lines first last))
    {first : Nat} (hlt : first < lines.length)
    (hfirst : StopsAfter unicode spec runner lines first) :
    ∃ last, IsBlock unicode spec runner lines first last := by
  classical
  let fitting : Finset Nat := (Finset.range (lines.length + 1)).filter fun last =>
    first < last ∧ StopsAfter unicode spec runner lines last ∧
      FitsWhole unicode runner (lineBlock lines first last)
  have hexists : ∃ last, first < last ∧ StopsAfter unicode spec runner lines last :=
    ⟨lines.length, hlt, .inr (.inl lineEnd_length)⟩
  -- the next stop is one of them
  have hnext : Nat.find hexists ∈ fitting := by
    obtain ⟨hafter, hstop⟩ := Nat.find_spec hexists
    have hle : Nat.find hexists ≤ lines.length :=
      Nat.find_min' hexists ⟨hlt, .inr (.inl lineEnd_length)⟩
    refine Finset.mem_filter.mpr ⟨Finset.mem_range_succ_iff.mpr hle, hafter, hstop, ?_⟩
    exact hstretches _ _ ⟨hafter, hle, hfirst, hstop, fun count hcount hbefore hstops =>
      Nat.find_min hexists hbefore ⟨hcount, hstops⟩⟩
  obtain ⟨last, hlast, hgreatest⟩ := fitting.exists_max_image id ⟨_, hnext⟩
  obtain ⟨hrange, hafter, hstop, hfits⟩ := Finset.mem_filter.mp hlast
  have hle := Finset.mem_range_succ_iff.mp hrange
  have hcounts : ∀ stop ∈ certifiedStops unicode spec runner (joinLines lines),
      lineEnd lines first < stop → ∃ count, first < count ∧ count ≤ lines.length ∧
        lineEnd lines count = stop := by
    intro stop hmem hforward
    obtain ⟨count, hcount, rfl⟩ := h.stops stop hmem
    exact ⟨count, not_le.mp fun hback => absurd hforward (not_lt.mpr (lineEnd_le hback)), hcount,
      rfl⟩
  refine ⟨last, {
    lt := hafter
    last_le := hle
    stops := hstop.resolve_left (Nat.zero_lt_of_lt hafter).ne'
    prepared := h.prepared first last hafter hle
    fits := hfits
    hasWords := fun stop hmem hforward _ => ?_
    exceeds := fun stop hmem hbehind => ?_ }⟩
  · obtain ⟨count, hcount, hcountle, rfl⟩ := hcounts stop hmem hforward
    exact h.hasWords first count hcount hcountle
  · obtain ⟨count, hcount, hcountle, rfl⟩ := hcounts stop hmem
      ((lineEnd_le hafter.le).trans_lt hbehind)
    obtain ⟨words, hwords, hpositive⟩ := h.hasWords first count hcount hcountle
    refine ⟨words, hwords, not_le.mp fun hwithin => ?_⟩
    have hmax := hgreatest count (Finset.mem_filter.mpr ⟨Finset.mem_range_succ_iff.mpr hcountle,
      hcount, .inr hmem, words, hwords, hpositive, hwithin⟩)
    exact absurd hbehind (not_lt.mpr (lineEnd_le hmax))

/-- Regular lines are split at their ends exactly when the lines between neighbouring stops are
within the limit. -/
theorem splitsAtLineEnds_iff_stretches : SplitsAtLineEnds unicode spec runner lines ↔
    ∀ first last, IsStretch unicode spec runner lines first last →
      FitsWhole unicode runner (lineBlock lines first last) := by
  have hwhole := h.prepared 0 lines.length h.nonempty (Nat.le_refl _)
  rw [lineBlock_zero_length] at hwhole
  refine splitsAtLineEnds_iff_reflTransGen.trans ((and_iff_right hwhole).trans ?_)
  constructor
  · intro hblocks first last hstretch
    have hrun : ∀ start, Relation.ReflTransGen (IsBlock unicode spec runner lines) start
        lines.length → start ≤ first → FitsWhole unicode runner (lineBlock lines first last) := by
      intro start hblocks
      induction hblocks using Relation.ReflTransGen.head_induction_on with
      | refl => exact fun hle => absurd (hle.trans_lt hstretch.lt) (not_lt.mpr hstretch.last_le)
      | @head start stop hblock _ ih =>
        intro hle
        rcases Nat.lt_or_ge first stop with hlt | hge
        -- the stretch is a part of the block, whose end is a stop
        · have hbehind : last ≤ stop :=
            not_lt.mp fun hbefore => hstretch.next stop hlt hbefore (.inr hblock.stops)
          exact h.fits_of_le start first last stop hle hstretch.lt hbehind hblock.last_le
            hblock.fits
        · exact ih hge
    exact hrun 0 hblocks (Nat.zero_le _)
  · intro hstretches
    have hrun : ∀ remaining first, lines.length - first ≤ remaining → first ≤ lines.length →
        StopsAfter unicode spec runner lines first →
          Relation.ReflTransGen (IsBlock unicode spec runner lines) first lines.length := by
      intro remaining
      induction remaining with
      | zero =>
        intro first hremaining hle hstops
        obtain rfl : first = lines.length := by omega
        exact .refl
      | succ remaining ih =>
        intro first hremaining hle hstops
        rcases Nat.lt_or_eq_of_le hle with hlt | rfl
        · obtain ⟨last, hblock⟩ := h.exists_isBlock hstretches hlt hstops
          have hforward := hblock.lt
          exact .head hblock (ih last (by omega) hblock.last_le (.inr hblock.stops))
        · exact .refl
    exact hrun _ 0 (Nat.le_refl _) (Nat.zero_le _) (.inl rfl)

end RegularLines

end Blocks

/-- The word that a character is: a picture, a full stop or a comma. -/
def pictureWord (character : Char) : NjdWord :=
  if character = '絵' then ⟨['絵'], ['エ'], ['名', '詞'], ['一', '般'], 0, 1, 1⟩
  else if character = '。' then ⟨['。'], ['、'], ['記', '号'], ['句', '点'], 0, 0, 0⟩
  else ⟨['、'], ['、'], ['記', '号'], ['読', '点'], 0, 0, 0⟩

def pictureRunner : FrontendRunner := fun text =>
  .ok (text.map fun character => njdRow (pictureWord character))

def pictureSpec : FrontendSpec where
  tokenTable := [⟨[' '], 0⟩, ⟨['0'], 1⟩, ⟨['1'], 2⟩, ⟨['エ'], 10⟩, ⟨['、'], 138⟩, ⟨['。'], 139⟩]
  globalOffset := 842
  eosTokenId := 3358

/-- The tokens of a word. -/
def pictureUnit (character : Char) (unitIndex : Nat) : List G2PToken :=
  if character = '絵' then [⟨['1'], .pitch, unitIndex⟩, ⟨['エ'], .mora, unitIndex⟩]
  else if character = '。' then [⟨['。'], .punctuation, unitIndex⟩]
  else [⟨['、'], .punctuation, unitIndex⟩]

def pictureTokens (unitIndex : Nat) : Text → List G2PToken
  | [] => []
  | character :: rest =>
    pictureUnit character unitIndex ++ pictureTokens (unitIndex + 1) rest

theorem addWord_pictureWord (output : List G2PToken) (unitIndex : Nat) (character : Char)
    (rest : Text) :
    G2PState.addWord ⟨output, [], unitIndex⟩ japaneseUnicode (pictureWord character)
      (rest.map pictureWord).head? =
        .ok ⟨output ++ pictureUnit character unitIndex, [], unitIndex + 1⟩ := by
  have hnext : (rest.map pictureWord).head?.any (fun following => following.chainFlag == 1) =
      false := by
    cases rest with
    | nil => rfl
    | cons next rest =>
      change ((pictureWord next).chainFlag == 1) = false
      unfold pictureWord
      split_ifs <;> rfl
  by_cases hpicture : character = '絵'
  · rw [pictureWord, pictureUnit, if_pos hpicture, if_pos hpicture]
    change (if _ = true then _ else G2PState.flushChain _) = _
    rw [hnext]
    rfl
  · rw [pictureWord, pictureUnit, if_neg hpicture, if_neg hpicture]
    split_ifs <;> rfl

theorem addWords_pictures (output : List G2PToken) (unitIndex : Nat) (text : Text) :
    G2PState.addWords japaneseUnicode (text.map pictureWord) ⟨output, [], unitIndex⟩ =
      .ok ⟨output ++ pictureTokens unitIndex text, [], unitIndex + text.length⟩ := by
  induction text generalizing output unitIndex with
  | nil => rw [pictureTokens, List.append_nil]; rfl
  | cons character rest ih =>
    rw [List.map_cons, G2PState.addWords, addWord_pictureWord, ok_bind, ih, pictureTokens,
      List.append_assoc, List.length_cons, Nat.add_assoc, Nat.add_comm 1]

theorem g2pTokens_pictures (text : Text) :
    g2pTokens japaneseUnicode (text.map fun character => njdRow (pictureWord character)) =
      .ok (pictureTokens 0 text) := by
  have hwords : njdWords (text.map fun character => njdRow (pictureWord character)) =
      .ok (text.map pictureWord) := by
    refine mapM_eq_ok_iff.mpr ?_
    generalize 0 = start
    induction text generalizing start with
    | nil => exact .nil
    | cons character rest ih => exact .cons rfl (ih (start + 1))
  rw [g2pTokens, hwords, ok_bind, show ({} : G2PState) = ⟨[], [], 0⟩ from rfl, addWords_pictures]
  rfl

theorem mem_pictureTokens {unitIndex : Nat} {text : Text} {token : G2PToken}
    (h : token ∈ pictureTokens unitIndex text) :
    token.symbol ∈ [['1'], ['エ'], ['。'], ['、']] ∧ unitIndex ≤ token.unitIndex ∧
      token.unitIndex < unitIndex + text.length := by
  induction text generalizing unitIndex with
  | nil => cases h
  | cons character rest ih =>
    rw [List.length_cons]
    rcases List.mem_append.mp h with h | h
    · have hunit : token.symbol ∈ [['1'], ['エ'], ['。'], ['、']] ∧
          token.unitIndex = unitIndex := by
        unfold pictureUnit at h
        split_ifs at h <;>
          simp only [List.mem_cons, List.not_mem_nil, or_false] at h
        · rcases h with rfl | rfl <;> exact ⟨by simp, rfl⟩
        · obtain rfl := h
          exact ⟨by simp, rfl⟩
        · obtain rfl := h
          exact ⟨by simp, rfl⟩
      exact ⟨hunit.1, hunit.2.ge, by omega⟩
    · obtain ⟨hsymbol, hle, hlt⟩ := ih h
      exact ⟨hsymbol, by omega, by omega⟩

theorem pictureTokens_append (unitIndex : Nat) (first second : Text) :
    pictureTokens unitIndex (first ++ second) =
      pictureTokens unitIndex first ++ pictureTokens (unitIndex + first.length) second := by
  induction first generalizing unitIndex with
  | nil => rfl
  | cons character rest ih =>
    rw [List.cons_append, pictureTokens, ih, pictureTokens, List.append_assoc, List.length_cons,
      Nat.add_assoc, Nat.add_comm 1]

/-- The core token of a token of a picture. -/
def encodedPicture (token : G2PToken) : EncodedCoreToken :=
  let localTokenId := (pictureSpec.effectiveLocalIds token.symbol).getD 0
  ⟨token.symbol, token.kind, token.unitIndex, localTokenId, pictureSpec.globalOffset + localTokenId⟩

def pictureCore (text : Text) : List EncodedCoreToken := (pictureTokens 0 text).map encodedPicture

theorem pictureSpec_symbols :
    ∀ symbol ∈ [['1'], ['エ'], ['。'], ['、']], (symbol == [' ']) = false ∧
      (pictureSpec.effectiveLocalIds symbol).isSome = true := by
  decide

theorem foldl_retainTokens {tokens : List G2PToken}
    (h : ∀ token ∈ tokens, token.symbol ∈ [['1'], ['エ'], ['。'], ['、']])
    (retained : List G2PToken) :
    tokens.foldl (retainTokens pictureSpec) retained = retained ++ tokens := by
  induction tokens generalizing retained with
  | nil => rw [List.append_nil]; rfl
  | cons token rest ih =>
    obtain ⟨hspace, hknown⟩ := pictureSpec_symbols token.symbol (h token List.mem_cons_self)
    have hretain : retainTokens pictureSpec retained token = retained ++ [token] := by
      rw [retainTokens, if_neg (Bool.eq_false_iff.mp hspace), if_pos hknown]
    rw [List.foldl_cons, hretain, ih fun token hmem => h token (List.mem_cons_of_mem _ hmem),
      List.append_assoc, List.singleton_append]

theorem core_pictures (text : Text) : core japaneseUnicode pictureSpec pictureRunner text =
    .ok (pictureTokens 0 text, pictureCore text) := by
  have hsymbols : ∀ token ∈ pictureTokens 0 text,
      token.symbol ∈ [['1'], ['エ'], ['。'], ['、']] :=
    fun token hmem => (mem_pictureTokens hmem).1
  have htokenize : tokenizeCore pictureSpec (pictureTokens 0 text) = .ok (pictureCore text) := by
    have hdrop : ((pictureTokens 0 text).reverse.dropWhile fun token =>
        token.symbol == [' ']).reverse = pictureTokens 0 text := by
      refine List.rdropWhile_eq_self_iff.mpr fun hne => ?_
      rw [(pictureSpec_symbols _ (hsymbols _ (List.getLast_mem hne))).1]
      exact Bool.false_ne_true
    rw [tokenizeCore, foldl_retainTokens hsymbols, List.nil_append, hdrop, mapM_eq_ok_iff,
      pictureCore, List.forall₂_map_right_iff, List.forall₂_same]
    intro token hmem
    obtain ⟨localTokenId, hlocal⟩ :=
      Option.isSome_iff_exists.mp (pictureSpec_symbols _ (hsymbols token hmem)).2
    rw [encodeCoreToken, FrontendSpec.localTokenId, encodedPicture, hlocal]
    rfl
  rw [core, pictureRunner, ok_bind, g2pTokens_pictures, ok_bind, htokenize]
  rfl

theorem mem_unitEndsFrom {first second : List EncodedCoreToken} (hne : first ≠ [])
    (hunits : ∀ token ∈ first, ∀ next ∈ second, token.unitIndex ≠ next.unitIndex) (index : Nat) :
    index + first.length ∈ unitEndsFrom index (first ++ second) := by
  induction first generalizing index with
  | nil => exact absurd rfl hne
  | cons token rest ih =>
    cases rest with
    | nil =>
      cases second with
      | nil => exact List.mem_singleton_self _
      | cons next second =>
        have hdiffers : next.unitIndex ≠ token.unitIndex :=
          (hunits token List.mem_cons_self next List.mem_cons_self).symm
        rw [List.singleton_append, unitEndsFrom, if_pos hdiffers]
        exact List.mem_cons_self
    | cons following rest =>
      have hend := ih (List.cons_ne_nil _ _)
        (fun token hmem => hunits token (List.mem_cons_of_mem _ hmem)) (index + 1)
      rw [Nat.add_assoc, Nat.add_comm 1] at hend
      rw [List.cons_append, List.cons_append, unitEndsFrom]
      split_ifs
      · exact List.mem_cons_of_mem _ hend
      · exact hend

theorem isCertified_take (text : Text) (count : Nat) :
    isCertified (pictureCore text) (pictureCore (text.take count)) = true := by
  have happend : pictureCore text = pictureCore (text.take count) ++
      (pictureTokens (text.take count).length (text.drop count)).map encodedPicture := by
    have hsplit := pictureTokens_append 0 (text.take count) (text.drop count)
    rw [List.take_append_drop, Nat.zero_add] at hsplit
    rw [pictureCore, pictureCore, hsplit, List.map_append]
  have hunits : ∀ token ∈ pictureCore (text.take count),
      ∀ next ∈ (pictureTokens (text.take count).length (text.drop count)).map encodedPicture,
        token.unitIndex ≠ next.unitIndex := by
    intro token htoken next hnext
    rw [pictureCore] at htoken
    obtain ⟨first, hfirst, rfl⟩ := List.mem_map.mp htoken
    obtain ⟨second, hsecond, rfl⟩ := List.mem_map.mp hnext
    have hlt := (mem_pictureTokens hfirst).2.2
    have hle := (mem_pictureTokens hsecond).2.1
    change first.unitIndex ≠ second.unitIndex
    omega
  have hend : (pictureCore (text.take count)).length ∈ unitEndPositions (pictureCore text) := by
    by_cases hnil : pictureCore (text.take count) = []
    · rw [hnil]
      exact List.mem_cons_self
    · have hmem := mem_unitEndsFrom hnil hunits 0
      rw [Nat.zero_add, ← happend] at hmem
      exact List.mem_cons_of_mem _ hmem
  have hidentity : identity (pictureCore (text.take count)) =
      (identity (pictureCore text)).take (pictureCore (text.take count)).length := by
    rw [happend, identity, identity, List.map_append, List.take_left' (List.length_map _)]
  rw [isCertified, Bool.and_eq_true, Bool.and_eq_true, decide_eq_true_eq, beq_iff_eq,
    List.contains_iff_mem]
  refine ⟨⟨?_, hidentity⟩, hend⟩
  · rw [happend, List.length_append]
    exact Nat.le_add_right _ _

/-- The prefixes of a text with the numbers of their core tokens. -/
def pictureEnds (text : Text) (count : Nat) : List (Nat × Nat) :=
  (List.range (count + 1)).map fun preparedEnd =>
    (preparedEnd, (pictureCore (text.take preparedEnd)).length)

theorem pictureEnds_succ (text : Text) (count : Nat) : pictureEnds text (count + 1) =
    pictureEnds text count ++ [(count + 1, (pictureCore (text.take (count + 1))).length)] := by
  rw [pictureEnds, List.range_succ, List.map_append]
  rfl

theorem foldlM_certifyPrefix (text : Text) (count : Nat) :
    (List.range' 1 count).foldlM
      (certifyPrefix japaneseUnicode pictureSpec pictureRunner text (pictureCore text))
      ([(0, 0)], 0) = .ok (pictureEnds text count, (pictureCore (text.take count)).length) := by
  induction count with
  | zero => rfl
  | succ count ih =>
    have hle : (pictureCore (text.take count)).length ≤
        (pictureCore (text.take (count + 1))).length := by
      have happend := pictureTokens_append 0 (text.take count) ((text.drop count).take 1)
      rw [← List.take_add] at happend
      rw [pictureCore, pictureCore, List.length_map, List.length_map, happend, List.length_append]
      exact Nat.le_add_right _ _
    rw [List.range'_concat, List.foldlM_append, ih, ok_bind, List.foldlM_cons, Nat.one_mul,
      Nat.add_comm 1, certifyPrefix, core_pictures, ok_bind]
    dsimp only
    rw [if_pos (isCertified_take text (count + 1)), raiseIf, if_neg (Nat.not_lt.mpr hle),
      ok_bind, pictureEnds_succ]
    rfl

theorem certifiedPrefixes_pictures (text : Text) :
    certifiedPrefixes japaneseUnicode pictureSpec pictureRunner text (pictureCore text) =
      .ok (pictureEnds text text.length) := by
  have hlast : (pictureEnds text text.length).getLast? =
      some (text.length, (pictureCore text).length) := by
    rw [pictureEnds, List.range_succ, List.map_append, List.map_singleton, List.take_length,
      List.getLast?_concat]
  rw [certifiedPrefixes, foldlM_certifyPrefix, ok_bind, raiseIf, if_neg (not_not.mpr hlast)]
  rfl

/-- The preparation of a text. -/
theorem prepare_pictures (sourceText : Text) :
    prepare japaneseUnicode pictureSpec pictureRunner sourceText = do
      let projection ← projectSource japaneseUnicode sourceText
      let fullCore := pictureCore projection.normalizedText
      raiseIf fullCore.isEmpty
        (.ambiguousAlignmentError "non-whitespace source produced no prepared speech token")
      let certified := pictureEnds projection.normalizedText projection.normalizedText.length
      let state ← sourceSegments projection fullCore certified
      let placements := tokenPlacements pictureSpec 0 fullCore state.segments
        state.sourceStart sourceText.length
      let tokens := placements.foldl (appendToken projection) []
      let progress := tokenProgress tokens
      raiseIf (!progressMonotonicFrom 0 0 progress)
        (.ambiguousAlignmentError "prepared token progress is not monotonic")
      raiseIf (progress.getLast? ≠
          some ⟨tokens.length, sourceText.length, projection.utf8Boundaries.getLastD 0⟩)
        (.ambiguousAlignmentError "EOS does not map to the exact source end")
      return {
        sourceText
        normalizedText := projection.normalizedText
        g2pTokens := (pictureTokens 0 projection.normalizedText).map G2PToken.symbol
        globalTokenIds := tokens.map PreparedToken.globalTokenId
        tokens
        progress
        proof := {
          preparedCharCount := projection.normalizedText.length
          coreTokenCount := fullCore.length
          certifiedPrefixCount := certified.length
          segments := state.segments } } := by
  simp only [prepare, core_pictures, ok_bind, certifiedPrefixes_pictures]
  rfl

/-! ### Two lines -/

/-- A line of 42 words. -/
def pictureLine : Text := (List.replicate 21 ['絵', '、']).flatten

theorem pictureLine_plain :
    ∀ character ∈ pictureLine, isSentencePunctuation character = false := by
  intro character hmem
  obtain ⟨pair, hpair, hcharacter⟩ := List.mem_flatten.mp hmem
  obtain rfl := List.eq_of_mem_replicate hpair
  rcases List.mem_cons.mp hcharacter with rfl | hcharacter
  · rfl
  · obtain rfl := List.mem_singleton.mp hcharacter
    rfl

/-- The lines of a text, on their own and in the text: each of them can be prepared and is within
the word limit, and its end is a certified boundary of the text. -/
structure LinesFit (unicode : UnicodeData) (spec : FrontendSpec) (runner : FrontendRunner)
    (lines : List Text) : Prop where
  newline_notMem : ∀ line ∈ lines, '\n' ∉ line
  prepared : ∀ line ∈ lines, ∃ prepared, prepare unicode spec runner line = .ok prepared
  fits : ∀ line ∈ lines, FitsWhole unicode runner line
  certified : ∃ prepared, prepare unicode spec runner (joinLines lines) = .ok prepared ∧
    ∀ count, 0 < count → count ≤ lines.length → ∃ segment ∈ prepared.proof.segments,
      segment.sourceCharEnd = lineEnd lines count

/-- A sentence of 43 words. -/
def pictureSentence : Text := pictureLine ++ ['。']

abbrev pictureLines : List Text := [pictureSentence, pictureLine]

theorem njdWordCount_pictures :
    njdWordCount japaneseUnicode pictureRunner pictureLine = .ok 42 ∧
      njdWordCount japaneseUnicode pictureRunner (joinLines [pictureLine, pictureLine]) = .ok 84 ∧
      njdWordCount japaneseUnicode pictureRunner (lineBlock pictureLines 0 1) = .ok 43 ∧
      njdWordCount japaneseUnicode pictureRunner (lineBlock pictureLines 1 2) = .ok 42 ∧
      njdWordCount japaneseUnicode pictureRunner (joinLines pictureLines) = .ok 85 := by
  decide +kernel

/-- The line is prepared, the ends of both lines are ends of segments, and the sentence and the line
are prepared on their own and as one text. -/
theorem map_prepare_pictures :
    ((prepare japaneseUnicode pictureSpec pictureRunner pictureLine).map fun _ => ()) = .ok () ∧
      ((prepare japaneseUnicode pictureSpec pictureRunner
        (joinLines [pictureLine, pictureLine])).map fun prepared =>
          [42, 85].all fun sourceEnd =>
            (prepared.proof.segments.map SourceSegment.sourceCharEnd).contains sourceEnd) =
        .ok true ∧
      ((prepare japaneseUnicode pictureSpec pictureRunner (lineBlock pictureLines 0 1)).map
        fun _ => ()) = .ok () ∧
      ((prepare japaneseUnicode pictureSpec pictureRunner (lineBlock pictureLines 1 2)).map
        fun _ => ()) = .ok () ∧
      ((prepare japaneseUnicode pictureSpec pictureRunner (joinLines pictureLines)).map
        certifiedEnds) = .ok [43, 86] := by
  simp only [prepare_pictures]
  decide +kernel

theorem linesFit_pictures :
    LinesFit japaneseUnicode pictureSpec pictureRunner [pictureLine, pictureLine] := by
  have hline : ∀ line ∈ [pictureLine, pictureLine], line = pictureLine := by simp
  constructor
  · intro line hmem hnewline
    rw [hline line hmem] at hnewline
    obtain ⟨pair, hpair, hcharacter⟩ := List.mem_flatten.mp hnewline
    obtain rfl := List.eq_of_mem_replicate hpair
    exact absurd hcharacter (by decide)
  · intro line hmem
    rw [hline line hmem]
    obtain ⟨prepared, hprepared, -⟩ := map_eq_ok_iff.mp map_prepare_pictures.1
    exact ⟨prepared, hprepared⟩
  · intro line hmem
    rw [hline line hmem]
    exact ⟨42, njdWordCount_pictures.1, by decide, by decide⟩
  · obtain ⟨prepared, hprepared, hall⟩ := map_eq_ok_iff.mp map_prepare_pictures.2.1
    simp only [List.all_cons, List.all_nil, Bool.and_true, Bool.and_eq_true, List.contains_iff_mem,
      List.mem_map] at hall
    refine ⟨prepared, hprepared, fun count hpositive hle => ?_⟩
    obtain rfl | rfl : count = 1 ∨ count = 2 := by
      have hle : count ≤ 2 := hle
      omega
    · exact hall.1
    · exact hall.2

theorem certifiedStops_pictureLines :
    certifiedStops japaneseUnicode pictureSpec pictureRunner (joinLines pictureLines) =
      {lineEnd pictureLines 1, lineEnd pictureLines 2} := by
  obtain ⟨prepared, hprepared, hends⟩ := map_eq_ok_iff.mp map_prepare_pictures.2.2.2.2
  rw [← certifiedSentenceEnds_eq hprepared]
  ext stop
  rw [← mem_certifiedEnds_iff, hends]
  simp only [List.mem_cons, List.not_mem_nil, or_false, Set.mem_insert_iff,
    Set.mem_singleton_iff]
  exact Iff.rfl

theorem forall_pictureLines {P : Nat → Nat → Prop} (hsentence : P 0 1) (hline : P 1 2)
    (hboth : P 0 2) : ∀ first last, first < last → last ≤ pictureLines.length → P first last := by
  intro first last hlt hle
  have hle : last ≤ 2 := hle
  obtain ⟨rfl, rfl⟩ | ⟨rfl, rfl⟩ | ⟨rfl, rfl⟩ :
      (first = 0 ∧ last = 1) ∨ (first = 1 ∧ last = 2) ∨ (first = 0 ∧ last = 2) := by
    omega
  · exact hsentence
  · exact hline
  · exact hboth

theorem fitsWhole_pictureSentence :
    FitsWhole japaneseUnicode pictureRunner (lineBlock pictureLines 0 1) :=
  ⟨43, njdWordCount_pictures.2.2.1, by decide, by decide⟩

theorem fitsWhole_pictureLine :
    FitsWhole japaneseUnicode pictureRunner (lineBlock pictureLines 1 2) :=
  ⟨42, njdWordCount_pictures.2.2.2.1, by decide, by decide⟩

theorem njdWordCount_pictureLines :
    njdWordCount japaneseUnicode pictureRunner (joinLines pictureLines) = .ok 85 :=
  njdWordCount_pictures.2.2.2.2

theorem regularLines_pictureLines :
    RegularLines japaneseUnicode pictureSpec pictureRunner pictureLines where
  nonempty := by decide
  prepared := by
    obtain ⟨sentence, hsentence, -⟩ := map_eq_ok_iff.mp map_prepare_pictures.2.2.1
    obtain ⟨line, hline, -⟩ := map_eq_ok_iff.mp map_prepare_pictures.2.2.2.1
    obtain ⟨both, hboth, -⟩ := map_eq_ok_iff.mp map_prepare_pictures.2.2.2.2
    refine forall_pictureLines ⟨sentence, hsentence⟩ ⟨line, hline⟩ ⟨both, ?_⟩
    exact (congrArg _ lineBlock_zero_length).trans hboth
  hasWords := by
    refine forall_pictureLines fitsWhole_pictureSentence.hasWords fitsWhole_pictureLine.hasWords
      ⟨85, ?_, by decide⟩
    exact (congrArg _ lineBlock_zero_length).trans njdWordCount_pictureLines
  fits_of_le := by
    intro first later earlier last hfirst hlt hlast hle hfits
    have hpart : first = later ∧ earlier = last ∨
        FitsWhole japaneseUnicode pictureRunner (lineBlock pictureLines later earlier) := by
      refine forall_pictureLines (P := fun later earlier => first ≤ later → earlier ≤ last →
        first = later ∧ earlier = last ∨
          FitsWhole japaneseUnicode pictureRunner (lineBlock pictureLines later earlier))
        (fun _ _ => .inr fitsWhole_pictureSentence) (fun _ _ => .inr fitsWhole_pictureLine) ?_
        later earlier hlt (hlast.trans hle) hfirst hlast
      intro hfirst hlast
      have hle : last ≤ 2 := hle
      exact .inl ⟨by omega, by omega⟩
    rcases hpart with ⟨rfl, rfl⟩ | hpart
    · exact hfits
    · exact hpart
  stops := by
    intro stop hstop
    rw [certifiedStops_pictureLines] at hstop
    rcases hstop with rfl | rfl
    · exact ⟨1, by decide, rfl⟩
    · exact ⟨2, by decide, rfl⟩

end MagpieTts.Frontend
