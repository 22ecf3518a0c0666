import Mathlib.Data.List.Forall2
import MagpieTts.Frontend.PhonemeUnits

/-!
# The order of the phoneme units

A word without pronunciation whose string is visible appends a space at once, while the moras of the
words before it wait for the end of their accent phrase. The units of a text are therefore in the
order of its words unless such a word stands in an accent phrase that has a mora already.

## Main definitions

* `InSourceOrder`: every word has its units, and the tokens are those of the words in order.
* `ReachesVisible`, `InterruptsPhrase`: the words at which the order fails.

## Main results

* `inSourceOrder_runUnits_iff`: the units of a run are in order if and only if no accent phrase is
  interrupted.
-/

namespace MagpieTts.Frontend

open MagpieTts.Library

/-! ### The order of the words -/

/-- The units that a word can have. -/
def WordRole.Sounds : WordRole → List PhonemeUnit → Prop
  | .letters characters, units => units = characters.map PhonemeUnit.letter
  | .symbol unit, units => units = [unit]
  | .silent visible, units => units = if visible then [.normalizedSpace] else []
  | .voiced moras, units => ∃ pitches : List Nat, pitches.length = moras.length ∧
      units = (moras.zip pitches).map fun unit => .mora unit.2 unit.1

/-- The tokens are those of the words, one word after the other. -/
def InSourceOrder (unicode : UnicodeData) (words : List NjdWord) (tokens : List G2PToken) : Prop :=
  ∃ units : List (List PhonemeUnit),
    List.Forall₂ (fun word units => (word.role unicode).Sounds units) words units ∧
      tokens = numberedTokens 0 units.flatten

/-- Words that keep an accent phrase unfinished until a visible word without pronunciation. -/
inductive ReachesVisible (unicode : UnicodeData) : List NjdWord → Prop
  | visible {word : NjdWord} {rest : List NjdWord} (hrole : word.role unicode = .silent true) :
    ReachesVisible unicode (word :: rest)
  | silent {word : NjdWord} {rest : List NjdWord} {visible : Bool}
    (hrole : word.role unicode = .silent visible) (hrest : ReachesVisible unicode rest) :
    ReachesVisible unicode (word :: rest)
  | voiced {word : NjdWord} {rest : List NjdWord} {moras : List Text}
    (hrole : word.role unicode = .voiced moras) (hcontinues : chainContinues rest)
    (hrest : ReachesVisible unicode rest) : ReachesVisible unicode (word :: rest)

theorem ReachesVisible.role_eq {unicode : UnicodeData} {word : NjdWord} {rest : List NjdWord}
    (h : ReachesVisible unicode (word :: rest)) :
    word.role unicode = .silent true ∨
      (∃ visible, word.role unicode = .silent visible) ∧ ReachesVisible unicode rest ∨
      (∃ moras, word.role unicode = .voiced moras) ∧ chainContinues rest ∧
        ReachesVisible unicode rest := by
  cases h with
  | visible hrole => exact .inl hrole
  | silent hrole hrest => exact .inr (.inl ⟨⟨_, hrole⟩, hrest⟩)
  | voiced hrole hcontinues hrest => exact .inr (.inr ⟨⟨_, hrole⟩, hcontinues, hrest⟩)

/-- A visible word without pronunciation stands in an accent phrase that has a mora already. -/
def InterruptsPhrase (unicode : UnicodeData) (words : List NjdWord) : Prop :=
  ∃ word rest, word :: rest <:+ words ∧
    (∃ moras, word.role unicode = .voiced moras ∧ moras ≠ []) ∧ chainContinues rest ∧
      ReachesVisible unicode rest

theorem interruptsPhrase_cons_iff {unicode : UnicodeData} {word : NjdWord}
    {rest : List NjdWord} :
    InterruptsPhrase unicode (word :: rest) ↔
      ((∃ moras, word.role unicode = .voiced moras ∧ moras ≠ []) ∧ chainContinues rest ∧
        ReachesVisible unicode rest) ∨ InterruptsPhrase unicode rest := by
  constructor
  · rintro ⟨first, tail, hsuffix, h⟩
    rcases List.suffix_cons_iff.mp hsuffix with heq | hsuffix
    · cases heq
      exact .inl h
    · exact .inr ⟨first, tail, hsuffix, h⟩
  · rintro (h | ⟨first, tail, hsuffix, h⟩)
    · exact ⟨word, rest, List.suffix_rfl, h⟩
    · exact ⟨first, tail, hsuffix.trans (List.suffix_cons word rest), h⟩

theorem moras_of_role {unicode : UnicodeData} {word : NjdWord} {moras : List Text}
    (h : word.role unicode = .voiced moras) : moras = splitMoras word.pron := by
  unfold NjdWord.role at h
  dsimp only at h
  split_ifs at h
  exact (WordRole.voiced.inj h).symm

theorem phraseMoras_append_singleton {unicode : UnicodeData} {chain : List NjdWord}
    {word : NjdWord} {moras : List Text} (hrole : word.role unicode = .voiced moras) :
    phraseMoras (chain ++ [word]) = phraseMoras chain ++ moras := by
  rw [phraseMoras, List.flatMap_append, List.flatMap_singleton, ← moras_of_role hrole, phraseMoras]

/-- Pitch marks for all moras of pronounced words are pitch marks for those of every word. -/
theorem exists_word_units {unicode : UnicodeData} {chain : List NjdWord}
    (hvoiced : ∀ word ∈ chain, ∃ moras, word.role unicode = .voiced moras) {pitches : List Nat}
    (hlength : pitches.length = (phraseMoras chain).length) :
    ∃ units : List (List PhonemeUnit),
      List.Forall₂ (fun word units => (word.role unicode).Sounds units) chain units ∧
        ((phraseMoras chain).zip pitches).map (fun unit => PhonemeUnit.mora unit.2 unit.1) =
          units.flatten := by
  induction chain generalizing pitches with
  | nil => exact ⟨[], .nil, rfl⟩
  | cons word rest ih =>
    obtain ⟨moras, hrole⟩ := hvoiced word List.mem_cons_self
    have hmoras : phraseMoras (word :: rest) = moras ++ phraseMoras rest := by
      rw [moras_of_role hrole]
      rfl
    rw [hmoras, List.length_append] at hlength
    have hdrop : (pitches.drop moras.length).length = (phraseMoras rest).length := by
      rw [List.length_drop]
      omega
    obtain ⟨units, hunits, hflatten⟩ := ih
      (fun other hmem => hvoiced other (List.mem_cons_of_mem _ hmem)) hdrop
    have htake : (pitches.take moras.length).length = moras.length := by
      rw [List.length_take]
      omega
    refine ⟨(moras.zip (pitches.take moras.length)).map
      (fun unit => PhonemeUnit.mora unit.2 unit.1) :: units, .cons ?_ hunits, ?_⟩
    · rw [hrole]
      exact ⟨_, htake, rfl⟩
    · rw [List.flatten_cons, ← hflatten, ← List.map_append, ← List.zip_append htake.symm,
        List.take_append_drop, hmoras]

/-- Pronounced words without a mora have no units. -/
theorem sounds_of_no_moras {unicode : UnicodeData} {chain : List NjdWord}
    {units : List (List PhonemeUnit)}
    (hvoiced : ∀ word ∈ chain, ∃ moras, word.role unicode = .voiced moras)
    (hempty : phraseMoras chain = [])
    (h : List.Forall₂ (fun word units => (word.role unicode).Sounds units) chain units) :
    units.flatten = [] := by
  induction h with
  | nil => rfl
  | @cons word wordUnits rest units hword _ ih =>
    obtain ⟨moras, hrole⟩ := hvoiced word List.mem_cons_self
    obtain ⟨hfirst, hrest⟩ := List.append_eq_nil_iff.mp
      (show splitMoras word.pron ++ phraseMoras rest = [] from hempty)
    rw [hrole, moras_of_role hrole, hfirst] at hword
    obtain ⟨pitches, -, rfl⟩ := hword
    exact ih (fun other hmem => hvoiced other (List.mem_cons_of_mem _ hmem)) hrest

theorem exists_forall₂_append_singleton {α β : Type} {relation : α → β → Prop} {list : List α}
    {last : α} {others : List β} (h : List.Forall₂ relation (list ++ [last]) others) :
    ∃ before final, List.Forall₂ relation list before ∧ relation last final ∧
      others = before ++ [final] := by
  induction list generalizing others with
  | nil =>
    cases h with
    | cons hlast hnil =>
      cases hnil
      exact ⟨[], _, .nil, hlast, rfl⟩
  | cons head list ih =>
    cases h with
    | cons hhead hrest =>
      obtain ⟨before, final, hbefore, hfinal, rfl⟩ := ih hrest
      exact ⟨_ :: before, final, .cons hhead hbefore, hfinal, rfl⟩

/-- Without an interrupted accent phrase the units of a run are those of the unfinished accent
phrase and then those of the words in order. -/
theorem exists_units_of_not_interruptsPhrase {unicode : UnicodeData} {words chain : List NjdWord}
    (hwords : ∀ word ∈ words, 0 ≤ word.acc) (hchain : ∀ word ∈ chain, 0 ≤ word.acc)
    (hvoiced : ∀ word ∈ chain, ∃ moras, word.role unicode = .voiced moras)
    (hnot : ¬ InterruptsPhrase unicode words)
    (hreach : phraseMoras chain ≠ [] → ¬ ReachesVisible unicode words) :
    ∃ chainUnits wordUnits : List (List PhonemeUnit),
      List.Forall₂ (fun word units => (word.role unicode).Sounds units) chain chainUnits ∧
      List.Forall₂ (fun word units => (word.role unicode).Sounds units) words wordUnits ∧
        runUnits unicode words chain = chainUnits.flatten ++ wordUnits.flatten := by
  induction words generalizing chain with
  | nil =>
    obtain ⟨units, hunits, hflatten⟩ := exists_word_units hvoiced (length_phrasePitches hchain)
    exact ⟨units, [], hunits, .nil, by rw [List.flatten_nil, List.append_nil]; exact hflatten⟩
  | cons word rest ih =>
    have hrest : ∀ word ∈ rest, 0 ≤ word.acc := fun other hmem =>
      hwords other (List.mem_cons_of_mem _ hmem)
    rw [interruptsPhrase_cons_iff, not_or] at hnot
    obtain ⟨hhead, hnotRest⟩ := hnot
    -- the units of the rest after a flush
    obtain ⟨restUnits, hrestUnits, hrestRun⟩ : ∃ restUnits : List (List PhonemeUnit),
        List.Forall₂ (fun word units => (word.role unicode).Sounds units) rest restUnits ∧
          runUnits unicode rest [] = restUnits.flatten := by
      obtain ⟨none, restUnits, hnone, hunits, hrun⟩ := @ih [] hrest
        (fun _ h => absurd h List.not_mem_nil) (fun _ h => absurd h List.not_mem_nil) hnotRest
        (fun h => absurd rfl h)
      cases hnone
      exact ⟨restUnits, hunits, hrun⟩
    cases hrole : word.role unicode with
    | letters characters =>
      obtain ⟨units, hunits, hflatten⟩ := exists_word_units hvoiced (length_phrasePitches hchain)
      refine ⟨units, characters.map PhonemeUnit.letter :: restUnits, hunits,
        .cons (by rw [hrole]; rfl) hrestUnits, ?_⟩
      simp only [runUnits, hrole]
      rw [hrestRun, phraseUnits, hflatten, List.flatten_cons]
    | symbol unit =>
      obtain ⟨units, hunits, hflatten⟩ := exists_word_units hvoiced (length_phrasePitches hchain)
      refine ⟨units, [unit] :: restUnits, hunits, .cons (by rw [hrole]; rfl) hrestUnits, ?_⟩
      simp only [runUnits, hrole]
      rw [hrestRun, phraseUnits, hflatten, List.flatten_cons]
      rfl
    | silent visible =>
      cases visible with
      | true =>
        -- the space comes before the unfinished accent phrase, which has no mora here
        have hempty : phraseMoras chain = [] := by
          by_contra hne
          exact hreach hne (.visible hrole)
        obtain ⟨chainUnits, wordUnits, hunits, hword, hrun⟩ := ih hrest hchain hvoiced hnotRest
          (fun h => absurd hempty h)
        have hnone : chainUnits.flatten = [] := sounds_of_no_moras hvoiced hempty hunits
        refine ⟨chainUnits, [.normalizedSpace] :: wordUnits, hunits,
          .cons (by rw [hrole]; rfl) hword, ?_⟩
        simp only [runUnits, hrole]
        rw [hrun, hnone, List.nil_append, List.nil_append, List.flatten_cons]
        rfl
      | false =>
        obtain ⟨chainUnits, wordUnits, hunits, hword, hrun⟩ := ih hrest hchain hvoiced hnotRest
          (fun hne h => hreach hne (.silent hrole h))
        refine ⟨chainUnits, [] :: wordUnits, hunits, .cons (by rw [hrole]; rfl) hword, ?_⟩
        simp only [runUnits, hrole]
        rw [hrun, List.flatten_cons, List.nil_append]
    | voiced moras =>
      have hpending : ∀ other ∈ chain ++ [word], 0 ≤ other.acc := fun other hmem => by
        rcases List.mem_append.mp hmem with hmem | hmem
        · exact hchain other hmem
        · rw [List.mem_singleton.mp hmem]
          exact hwords word List.mem_cons_self
      have hspoken : ∀ other ∈ chain ++ [word], ∃ moras, other.role unicode = .voiced moras :=
        fun other hmem => by
          rcases List.mem_append.mp hmem with hmem | hmem
          · exact hvoiced other hmem
          · rw [List.mem_singleton.mp hmem]
            exact ⟨moras, hrole⟩
      simp only [runUnits, hrole]
      by_cases hcontinues : chainContinues rest
      · obtain ⟨chainUnits, wordUnits, hunits, hword, hrun⟩ := ih hrest hpending hspoken hnotRest
          (fun hne h => by
            have hnone : phraseMoras chain = [] := by
              by_contra hpending
              exact hreach hpending (.voiced hrole hcontinues h)
            rw [phraseMoras_append_singleton hrole, hnone] at hne
            exact hhead ⟨⟨moras, hrole, hne⟩, hcontinues, h⟩)
        obtain ⟨before, last, hbefore, hlast, rfl⟩ := exists_forall₂_append_singleton hunits
        exact ⟨before, last :: wordUnits, hbefore, .cons hlast hword, by
          rw [if_pos hcontinues, hrun, List.flatten_append, List.flatten_singleton,
            List.append_assoc, List.flatten_cons]⟩
      · obtain ⟨units, hunits, hflatten⟩ :=
          exists_word_units hspoken (length_phrasePitches hpending)
        obtain ⟨before, last, hbefore, hlast, rfl⟩ := exists_forall₂_append_singleton hunits
        exact ⟨before, last :: restUnits, hbefore, .cons hlast hrestUnits, by
          rw [if_neg hcontinues, hrestRun, phraseUnits, hflatten, List.flatten_append,
            List.flatten_singleton, List.append_assoc, List.flatten_cons]⟩

/-! ### Where the order fails -/

/-- What the order of the units shows of a unit: a pitch mark, or a space in place of a word. -/
def PhonemeUnit.mark : PhonemeUnit → Option Bool
  | .mora _ _ => some true
  | .normalizedSpace => some false
  | _ => none

def G2PToken.mark (token : G2PToken) : Option Bool :=
  match token.kind with
  | .pitch => some true
  | .normalizedSpace => some false
  | _ => none

theorem filterMap_tokens_mark (unit : PhonemeUnit) (index : Nat) :
    (unit.tokens index).filterMap G2PToken.mark = unit.mark.toList := by
  cases unit with
  | mora pitch characters =>
    have hmora : (characters.map fun character =>
        (⟨[character], .mora, index⟩ : G2PToken)).filterMap G2PToken.mark = [] := by
      rw [List.filterMap_map]
      exact List.filterMap_eq_nil_iff.mpr fun _ _ => rfl
    rw [PhonemeUnit.tokens, PhonemeUnit.symbols, G2PState.moraUnit, List.map_cons, List.map_map]
    exact congrArg (List.cons true) hmora
  | letter character => rfl
  | punctuation symbol => rfl
  | space => rfl
  | normalizedSpace => rfl

theorem filterMap_numberedTokens_mark (start : Nat) (units : List PhonemeUnit) :
    (numberedTokens start units).filterMap G2PToken.mark = units.filterMap PhonemeUnit.mark := by
  induction units generalizing start with
  | nil => rfl
  | cons unit units ih =>
    rw [numberedTokens, List.filterMap_append, filterMap_tokens_mark, ih]
    cases hmark : unit.mark with
    | none => rw [List.filterMap_cons_none hmark]; rfl
    | some mark => rw [List.filterMap_cons_some hmark]; rfl

/-- The marks of the units of a word. -/
def WordRole.marks : WordRole → List Bool
  | .letters _ => []
  | .symbol unit => unit.mark.toList
  | .silent visible => if visible then [false] else []
  | .voiced moras => List.replicate moras.length true

theorem filterMap_zip_mark {moras : List Text} {pitches : List Nat}
    (h : pitches.length = moras.length) :
    ((moras.zip pitches).map fun unit => PhonemeUnit.mora unit.2 unit.1).filterMap
      PhonemeUnit.mark = List.replicate moras.length true := by
  rw [List.filterMap_map]
  have hsome : (PhonemeUnit.mark ∘ fun unit : Text × Nat => PhonemeUnit.mora unit.2 unit.1) =
      fun _ => some true := rfl
  rw [hsome, List.filterMap_eq_map', List.map_const', List.length_zip, h, Nat.min_self]

theorem WordRole.Sounds.filterMap_mark {role : WordRole} {units : List PhonemeUnit}
    (h : role.Sounds units) : units.filterMap PhonemeUnit.mark = role.marks := by
  cases role with
  | letters characters =>
    rw [show units = characters.map PhonemeUnit.letter from h, List.filterMap_map]
    exact List.filterMap_eq_nil_iff.mpr fun _ _ => rfl
  | symbol unit =>
    rw [show units = [unit] from h, WordRole.marks]
    cases hmark : unit.mark with
    | none => rw [List.filterMap_cons_none hmark]; rfl
    | some mark => rw [List.filterMap_cons_some hmark]; rfl
  | silent visible =>
    rw [show units = if visible then [.normalizedSpace] else [] from h]
    cases visible <;> rfl
  | voiced moras =>
    obtain ⟨pitches, hlength, rfl⟩ := h
    exact filterMap_zip_mark hlength

/-- The marks of tokens in the order of their words. -/
theorem InSourceOrder.filterMap_mark {unicode : UnicodeData} {words : List NjdWord}
    {tokens : List G2PToken} (h : InSourceOrder unicode words tokens) :
    tokens.filterMap G2PToken.mark = words.flatMap fun word => (word.role unicode).marks := by
  obtain ⟨units, hunits, rfl⟩ := h
  rw [filterMap_numberedTokens_mark]
  induction hunits with
  | nil => rfl
  | cons hword _ ih =>
    rw [List.flatten_cons, List.filterMap_append, hword.filterMap_mark, ih, List.flatMap_cons]

theorem filterMap_phraseUnits_mark {chain : List NjdWord}
    (hacc : ∀ word ∈ chain, 0 ≤ word.acc) :
    (phraseUnits chain).filterMap PhonemeUnit.mark =
      List.replicate (phraseMoras chain).length true :=
  filterMap_zip_mark (length_phrasePitches hacc)

/-- If the marks of a run are in the order of the words, no accent phrase is interrupted, and the
unfinished one is not either if it has a mora. -/
theorem not_interruptsPhrase_of_marks {unicode : UnicodeData} {words chain : List NjdWord}
    (hwords : ∀ word ∈ words, 0 ≤ word.acc) (hchain : ∀ word ∈ chain, 0 ≤ word.acc)
    (h : (runUnits unicode words chain).filterMap PhonemeUnit.mark =
      List.replicate (phraseMoras chain).length true ++
        words.flatMap fun word => (word.role unicode).marks) :
    ¬ InterruptsPhrase unicode words ∧
      (phraseMoras chain ≠ [] → ¬ ReachesVisible unicode words) := by
  induction words generalizing chain with
  | nil =>
    refine ⟨?_, fun _ => nofun⟩
    rintro ⟨word, rest, hsuffix, -⟩
    exact absurd (List.suffix_nil.mp hsuffix) (List.cons_ne_nil _ _)
  | cons word rest ih =>
    have hrest : ∀ word ∈ rest, 0 ≤ word.acc := fun other hmem =>
      hwords other (List.mem_cons_of_mem _ hmem)
    -- after a flush the marks of the rest are in order
    have hflushed : (runUnits unicode rest []).filterMap PhonemeUnit.mark =
        (rest.flatMap fun word => (word.role unicode).marks) → ¬ InterruptsPhrase unicode rest :=
      fun hmarks => (@ih [] hrest (fun _ h => absurd h List.not_mem_nil) hmarks).1
    rw [interruptsPhrase_cons_iff, not_or]
    rw [List.flatMap_cons] at h
    cases hrole : word.role unicode with
    | letters characters =>
      have hmarks : (characters.map PhonemeUnit.letter).filterMap PhonemeUnit.mark = [] :=
        @WordRole.Sounds.filterMap_mark (.letters characters) _ rfl
      simp only [runUnits, hrole] at h
      rw [List.filterMap_append, List.filterMap_append, filterMap_phraseUnits_mark hchain,
        hmarks] at h
      refine ⟨⟨?_, hflushed (List.append_cancel_left h)⟩, fun _ hreach => ?_⟩
      · rintro ⟨⟨moras, hvoiced, -⟩, -⟩
        cases hvoiced
      · rcases hreach.role_eq with hsilent | ⟨⟨_, hsilent⟩, -⟩ | ⟨⟨_, hvoiced⟩, -⟩
        · cases hrole.symm.trans hsilent
        · cases hrole.symm.trans hsilent
        · cases hrole.symm.trans hvoiced
    | symbol unit =>
      have hmarks : [unit].filterMap PhonemeUnit.mark = unit.mark.toList :=
        @WordRole.Sounds.filterMap_mark (.symbol unit) _ rfl
      simp only [runUnits, hrole, WordRole.marks] at h
      rw [List.filterMap_append, filterMap_phraseUnits_mark hchain, ← List.singleton_append,
        List.filterMap_append, hmarks] at h
      refine ⟨⟨?_, hflushed (List.append_cancel_left (List.append_cancel_left h))⟩,
        fun _ hreach => ?_⟩
      · rintro ⟨⟨moras, hvoiced, -⟩, -⟩
        cases hvoiced
      · rcases hreach.role_eq with hsilent | ⟨⟨_, hsilent⟩, -⟩ | ⟨⟨_, hvoiced⟩, -⟩
        · cases hrole.symm.trans hsilent
        · cases hrole.symm.trans hsilent
        · cases hrole.symm.trans hvoiced
    | silent visible =>
      have hhead : ¬ ((∃ moras, WordRole.silent visible = .voiced moras ∧ moras ≠ []) ∧
          chainContinues rest ∧ ReachesVisible unicode rest) := by
        rintro ⟨⟨moras, hvoiced, -⟩, -⟩
        cases hvoiced
      cases visible with
      | true =>
        simp only [runUnits, hrole, WordRole.marks, if_true] at h
        rw [List.filterMap_cons_some (show PhonemeUnit.normalizedSpace.mark = some false from rfl)]
          at h
        cases hmoras : phraseMoras chain with
        | nil =>
          rw [hmoras] at h
          have hmarks := (List.cons.inj h).2
          refine ⟨⟨hhead, (ih hrest hchain ?_).1⟩, fun hne => absurd rfl hne⟩
          rw [hmoras]
          exact hmarks
        | cons mora moras =>
          rw [hmoras] at h
          cases (List.cons.inj h).1
      | false =>
        simp only [runUnits, hrole, WordRole.marks] at h
        obtain ⟨hnot, hreach⟩ := ih hrest hchain h
        refine ⟨⟨hhead, hnot⟩, fun hne hword => ?_⟩
        rcases hword.role_eq with hsilent | ⟨-, hword⟩ | ⟨-, -, hword⟩
        · cases hrole.symm.trans hsilent
        · exact hreach hne hword
        · exact hreach hne hword
    | voiced moras =>
      have hpending : ∀ other ∈ chain ++ [word], 0 ≤ other.acc := fun other hmem => by
        rcases List.mem_append.mp hmem with hmem | hmem
        · exact hchain other hmem
        · rw [List.mem_singleton.mp hmem]
          exact hwords word List.mem_cons_self
      have hlength : List.replicate (phraseMoras chain).length true ++
          (WordRole.voiced moras).marks =
            List.replicate (phraseMoras (chain ++ [word])).length true := by
        rw [phraseMoras_append_singleton hrole, List.length_append, List.replicate_add]
        rfl
      simp only [runUnits, hrole] at h
      rw [← List.append_assoc, hlength] at h
      by_cases hcontinues : chainContinues rest
      · rw [if_pos hcontinues] at h
        obtain ⟨hnot, hreach⟩ := ih hrest hpending h
        have hne : ∀ {before}, before = phraseMoras chain ∨ before = moras → before ≠ [] →
            phraseMoras (chain ++ [word]) ≠ [] := by
          rintro before (rfl | rfl) hne hnil <;>
            rw [phraseMoras_append_singleton hrole, List.append_eq_nil_iff] at hnil
          · exact hne hnil.1
          · exact hne hnil.2
        refine ⟨⟨?_, hnot⟩, fun hchainMoras hword => ?_⟩
        · rintro ⟨⟨others, hvoiced, hmoras⟩, -, hword⟩
          cases hvoiced
          exact hreach (hne (.inr rfl) hmoras) hword
        · rcases hword.role_eq with hsilent | ⟨-, hword⟩ | ⟨-, -, hword⟩
          · cases hrole.symm.trans hsilent
          · exact hreach (hne (.inl rfl) hchainMoras) hword
          · exact hreach (hne (.inl rfl) hchainMoras) hword
      · rw [if_neg hcontinues, List.filterMap_append, filterMap_phraseUnits_mark hpending] at h
        refine ⟨⟨fun hword => hcontinues hword.2.1, hflushed (List.append_cancel_left h)⟩,
          fun _ hword => ?_⟩
        rcases hword.role_eq with hsilent | ⟨⟨_, hsilent⟩, -⟩ | ⟨-, hword, -⟩
        · cases hrole.symm.trans hsilent
        · cases hrole.symm.trans hsilent
        · exact hcontinues hword

/-- The tokens of words whose accents are not negative are in the order of the words if and only if
no accent phrase is interrupted. -/
theorem inSourceOrder_runUnits_iff {unicode : UnicodeData} {words : List NjdWord}
    (hwords : ∀ word ∈ words, 0 ≤ word.acc) :
    InSourceOrder unicode words (numberedTokens 0 (runUnits unicode words [])) ↔
      ¬ InterruptsPhrase unicode words := by
  constructor
  · intro h
    have hmarks := h.filterMap_mark
    rw [filterMap_numberedTokens_mark] at hmarks
    exact (@not_interruptsPhrase_of_marks _ _ [] hwords
      (fun _ h => absurd h List.not_mem_nil) hmarks).1
  · intro h
    obtain ⟨none, units, hnone, hunits, hrun⟩ := @exists_units_of_not_interruptsPhrase _ _ []
      hwords (fun _ h => absurd h List.not_mem_nil) (fun _ h => absurd h List.not_mem_nil) h
      (fun hne => absurd rfl hne)
    cases hnone
    exact ⟨units, hunits, congrArg (numberedTokens 0) hrun⟩

end MagpieTts.Frontend
