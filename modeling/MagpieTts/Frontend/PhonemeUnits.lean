import Mathlib.Tactic.SplitIfs
import MagpieTts.Frontend.SourceProjection

/-!
# The phoneme units of a text

The phoneme tokens come in units: the pitch mark of a mora with its characters, a letter, a
punctuation mark, or a space. The moras of a pronounced word wait until its accent phrase is
complete.

## Main definitions

* `PhonemeUnit`, `numberedTokens`: the units, and the tokens that they become.
* `WordRole`: what is done with a word.
* `accentPhrases`, `runUnits`: the accent phrases of a list of words, and the units of a run.

## Main results

* `length_phrasePitches`: the moras and the pitch marks of an accent phrase are as many.
* `g2pTokens_eq`: the tokens that rows become.
* `filter_runUnits`: the moras of a run are those of its accent phrases.
-/

namespace MagpieTts.Frontend

open MagpieTts.Library

/-! ### Units -/

/-- What one call of `append_unit` appends. -/
inductive PhonemeUnit
  /-- A mora after its pitch mark. -/
  | mora (pitch : Nat) (characters : Text)
  | letter (character : Char)
  | punctuation (symbol : Text)
  | space
  | normalizedSpace
  deriving Repr, DecidableEq

namespace PhonemeUnit

def symbols : PhonemeUnit → List (Text × TokenKind)
  | .mora pitch characters => G2PState.moraUnit characters pitch
  | .letter character => [([character], .ascii)]
  | .punctuation symbol => [(symbol, .punctuation)]
  | .space => [([' '], .space)]
  | .normalizedSpace => [([' '], .normalizedSpace)]

def isMora : PhonemeUnit → Bool
  | .mora _ _ => true
  | _ => false

/-- The tokens of the unit with a number. -/
def tokens (unit : PhonemeUnit) (index : Nat) : List G2PToken :=
  unit.symbols.map fun symbol => ⟨symbol.1, symbol.2, index⟩

end PhonemeUnit

/-- The tokens of units that are numbered from `start`. -/
def numberedTokens (start : Nat) : List PhonemeUnit → List G2PToken
  | [] => []
  | unit :: rest => unit.tokens start ++ numberedTokens (start + 1) rest

theorem numberedTokens_append (start : Nat) (units rest : List PhonemeUnit) :
    numberedTokens start (units ++ rest) =
      numberedTokens start units ++ numberedTokens (start + units.length) rest := by
  induction units generalizing start with
  | nil => rfl
  | cons unit units ih =>
    rw [List.cons_append, numberedTokens, numberedTokens, ih, List.append_assoc, List.length_cons,
      Nat.add_right_comm, Nat.add_assoc]

theorem exists_unit_of_mem_numberedTokens {start : Nat} {units : List PhonemeUnit}
    {token : G2PToken} (h : token ∈ numberedTokens start units) :
    ∃ unit ∈ units, ∃ index, token ∈ unit.tokens index := by
  induction units generalizing start with
  | nil => cases h
  | cons unit units ih =>
    rcases List.mem_append.mp h with h | h
    · exact ⟨unit, List.mem_cons_self, start, h⟩
    · obtain ⟨other, hmem, hother⟩ := ih h
      exact ⟨other, List.mem_cons_of_mem _ hmem, hother⟩

/-! ### Words -/

/-- What `_g2p_tokens` does with a word. -/
inductive WordRole
  | letters (characters : Text)
  | symbol (unit : PhonemeUnit)
  /-- A word without pronunciation; a visible one becomes a space. -/
  | silent (visible : Bool)
  | voiced (moras : List Text)
  deriving Repr, DecidableEq

def NjdWord.role (unicode : UnicodeData) (word : NjdWord) : WordRole :=
  let normalizedString := unicode.nfkc word.string
  if !normalizedString.isEmpty && normalizedString.all (fun c => 'a' ≤ c && c ≤ 'z') &&
      word.pos == ['フ', 'ィ', 'ラ', 'ー'] then .letters normalizedString
  else if [['記', '号'], ['補', '助', '記', '号']].contains word.pos &&
      word.posGroup1 != ['ア', 'ル', 'フ', 'ァ', 'ベ', 'ッ', 'ト'] then
    if isspaceText normalizedString then .symbol .space
    else if japanesePunctuation.contains normalizedString then
      .symbol (.punctuation normalizedString)
    else .symbol .normalizedSpace
  else if word.pron.isEmpty || word.moraSize == 0 then
    .silent (!normalizedString.isEmpty && !isspaceText normalizedString)
  else .voiced (splitMoras word.pron)

/-- The word after this one belongs to the accent phrase of the words before it. -/
def chainContinues (rest : List NjdWord) : Bool :=
  rest.head?.any fun following => following.chainFlag == 1

/-- The moras of an accent phrase. -/
def phraseMoras (chain : List NjdWord) : List Text :=
  chain.flatMap fun word => splitMoras word.pron

/-- The accent of an accent phrase: that of its first word that begins a chain, or of its first
word. -/
def phraseAccent : List NjdWord → ℤ
  | [] => 0
  | first :: rest =>
    (((first :: rest).find? fun word => word.chainFlag != 1).getD first).acc

/-- The pitch marks of an accent phrase. -/
def phrasePitches (chain : List NjdWord) : List Nat :=
  pitchPattern (phraseAccent chain) (phraseMoras chain).length

/-- The units of an accent phrase. -/
def phraseUnits (chain : List NjdWord) : List PhonemeUnit :=
  ((phraseMoras chain).zip (phrasePitches chain)).map fun unit => .mora unit.2 unit.1

/-- The accent phrases of words that follow an unfinished accent phrase. -/
def accentPhrases (unicode : UnicodeData) : List NjdWord → List NjdWord → List (List NjdWord)
  | [], chain => [chain]
  | word :: rest, chain =>
    match word.role unicode with
    | .letters _ => chain :: accentPhrases unicode rest []
    | .symbol _ => chain :: accentPhrases unicode rest []
    | .silent _ => accentPhrases unicode rest chain
    | .voiced _ =>
      if chainContinues rest then accentPhrases unicode rest (chain ++ [word])
      else (chain ++ [word]) :: accentPhrases unicode rest []

/-- The units of words that follow an unfinished accent phrase, in the order of the run. -/
def runUnits (unicode : UnicodeData) : List NjdWord → List NjdWord → List PhonemeUnit
  | [], chain => phraseUnits chain
  | word :: rest, chain =>
    match word.role unicode with
    | .letters characters =>
      phraseUnits chain ++ (characters.map PhonemeUnit.letter ++ runUnits unicode rest [])
    | .symbol unit => phraseUnits chain ++ (unit :: runUnits unicode rest [])
    | .silent true => .normalizedSpace :: runUnits unicode rest chain
    | .silent false => runUnits unicode rest chain
    | .voiced _ =>
      if chainContinues rest then runUnits unicode rest (chain ++ [word])
      else phraseUnits (chain ++ [word]) ++ runUnits unicode rest []

/-! ### Pitch marks -/

/-- An accent that is not negative gives every mora its pitch mark. -/
theorem length_pitchPattern {acc : ℤ} (hacc : 0 ≤ acc) (totalMora : Nat) :
    (pitchPattern acc totalMora).length = totalMora := by
  unfold pitchPattern
  split
  next h => exact h.symm
  next hmora =>
    split
    next => simp only [List.length_cons, List.length_replicate]; omega
    next =>
      split
      next => simp only [List.length_cons, List.length_replicate]; omega
      next =>
        split
        next => simp only [List.length_cons, List.length_replicate]; omega
        next =>
          simp only [List.length_cons, List.length_append, List.length_replicate]
          omega

theorem phraseAccent_nonneg {chain : List NjdWord} (hacc : ∀ word ∈ chain, 0 ≤ word.acc) :
    0 ≤ phraseAccent chain := by
  cases chain with
  | nil => exact Int.le_refl 0
  | cons first rest =>
    rw [phraseAccent]
    cases hfind : (first :: rest).find? fun word => word.chainFlag != 1 with
    | none => exact hacc first List.mem_cons_self
    | some starter => exact hacc starter (List.mem_of_find?_eq_some hfind)

theorem length_phrasePitches {chain : List NjdWord} (hacc : ∀ word ∈ chain, 0 ≤ word.acc) :
    (phrasePitches chain).length = (phraseMoras chain).length :=
  length_pitchPattern (phraseAccent_nonneg hacc) _

theorem isMora_of_mem_phraseUnits {chain : List NjdWord} {unit : PhonemeUnit}
    (h : unit ∈ phraseUnits chain) :
    ∃ pitch, ∃ characters ∈ phraseMoras chain, unit = .mora pitch characters := by
  obtain ⟨⟨characters, pitch⟩, hmem, rfl⟩ := List.mem_map.mp h
  exact ⟨pitch, characters, (List.of_mem_zip hmem).1, rfl⟩

/-! ### The run -/

/-- The state of a run that has appended these units. -/
structure G2PState.HasAppended (state : G2PState) (units : List PhonemeUnit) : Prop where
  output_eq : state.output = numberedTokens 0 units
  nextUnit_eq : state.nextUnit = units.length

namespace G2PState

theorem HasAppended.appendUnit {state : G2PState} {units : List PhonemeUnit}
    (h : state.HasAppended units) (unit : PhonemeUnit) :
    (state.appendUnit unit.symbols).HasAppended (units ++ [unit]) where
  output_eq := by
    rw [numberedTokens_append, ← h.output_eq, Nat.zero_add, ← h.nextUnit_eq, numberedTokens,
      numberedTokens, List.append_nil]
    rfl
  nextUnit_eq := by
    rw [List.length_append, ← h.nextUnit_eq]
    rfl

/-- A loop that appends units. -/
theorem HasAppended.foldl {state : G2PState} {units : List PhonemeUnit}
    (h : state.HasAppended units) (more : List PhonemeUnit) :
    (more.foldl (fun state unit => state.appendUnit unit.symbols) state).HasAppended
        (units ++ more) ∧
      (more.foldl (fun state unit => state.appendUnit unit.symbols) state).currentChain =
        state.currentChain := by
  induction more generalizing state units with
  | nil => exact ⟨by rwa [List.append_nil], rfl⟩
  | cons unit more ih =>
    have hrest := ih (h.appendUnit unit)
    rw [List.append_assoc] at hrest
    exact hrest

/-- A flush that does not fail appends the units of the accent phrase. -/
theorem flushChain_spec {state : G2PState} {units : List PhonemeUnit}
    (h : state.HasAppended units) (hacc : ∀ word ∈ state.currentChain, 0 ≤ word.acc) :
    ∃ flushed, state.flushChain = .ok flushed ∧ flushed.currentChain = [] ∧
      flushed.HasAppended (units ++ phraseUnits state.currentChain) := by
  cases hchain : state.currentChain with
  | nil =>
    refine ⟨state, ?_, hchain, ?_⟩
    · rw [flushChain, hchain]
    · rwa [phraseUnits, phraseMoras, List.flatMap_nil, List.zip_nil_left, List.map_nil,
        List.append_nil]
  | cons first rest =>
    rw [hchain] at hacc
    have hlength := length_phrasePitches hacc
    have hfold : ((phraseMoras (first :: rest)).zip (phrasePitches (first :: rest))).foldl
        (fun state unit => state.appendUnit (moraUnit unit.1 unit.2)) state =
          (phraseUnits (first :: rest)).foldl (fun state unit => state.appendUnit unit.symbols)
            state := by
      rw [phraseUnits, List.foldl_map]
      rfl
    obtain ⟨happended, -⟩ := h.foldl (phraseUnits (first :: rest))
    refine ⟨{ (phraseUnits (first :: rest)).foldl
      (fun state unit => state.appendUnit unit.symbols) state with currentChain := [] }, ?_, rfl,
      ⟨happended.output_eq, happended.nextUnit_eq⟩⟩
    rw [← hfold, flushChain, hchain]
    exact if_neg fun hne => hne hlength.symm

/-- One pass of the loop, by the role of the word. -/
theorem addWord_eq (unicode : UnicodeData) (state : G2PState) (word : NjdWord)
    (next : Option NjdWord) :
    state.addWord unicode word next =
      match word.role unicode with
      | .letters characters =>
        state.flushChain.map fun flushed =>
          (characters.map PhonemeUnit.letter).foldl (fun state unit =>
            state.appendUnit unit.symbols) flushed
      | .symbol unit => state.flushChain.map fun flushed => flushed.appendUnit unit.symbols
      | .silent true => .ok (state.appendUnit PhonemeUnit.normalizedSpace.symbols)
      | .silent false => .ok state
      | .voiced _ =>
        if next.any fun following => following.chainFlag == 1 then
          .ok { state with currentChain := state.currentChain ++ [word] }
        else flushChain { state with currentChain := state.currentChain ++ [word] } := by
  unfold addWord NjdWord.role
  dsimp only
  split
  next =>
    dsimp only
    rw [funext fun flushed => List.foldl_map]
    cases state.flushChain <;> rfl
  next =>
    split
    next =>
      split
      next => cases state.flushChain <;> rfl
      next =>
        split
        next => cases state.flushChain <;> rfl
        next => cases state.flushChain <;> rfl
    next =>
      split
      next =>
        cases hvisible : !(unicode.nfkc word.string).isEmpty &&
          !isspaceText (unicode.nfkc word.string) with
        | true => exact if_pos rfl
        | false => exact if_neg nofun
      next => rfl

theorem addWords_cons (unicode : UnicodeData) (word : NjdWord) (rest : List NjdWord)
    (state : G2PState) :
    addWords unicode (word :: rest) state =
      (state.addWord unicode word rest.head?).bind (addWords unicode rest) :=
  rfl

/-- The loop appends the units of the words to those of the state. -/
theorem addWords_spec (unicode : UnicodeData) {words : List NjdWord}
    (hwords : ∀ word ∈ words, 0 ≤ word.acc) {state : G2PState} {units : List PhonemeUnit}
    (h : state.HasAppended units) (hchain : ∀ word ∈ state.currentChain, 0 ≤ word.acc) :
    ∃ final, addWords unicode words state = .ok final ∧
      final.HasAppended (units ++ runUnits unicode words state.currentChain) := by
  induction words generalizing state units with
  | nil =>
    obtain ⟨flushed, hflushed, -, happended⟩ := flushChain_spec h hchain
    exact ⟨flushed, hflushed, happended⟩
  | cons word rest ih =>
    have hrest : ∀ word ∈ rest, 0 ≤ word.acc := fun word hword =>
      hwords word (List.mem_cons_of_mem _ hword)
    rw [addWords_cons, addWord_eq]
    unfold runUnits
    split
    next characters _ =>
      obtain ⟨flushed, hflushed, hnone, happended⟩ := flushChain_spec h hchain
      obtain ⟨hmore, hkept⟩ := happended.foldl (characters.map PhonemeUnit.letter)
      obtain ⟨final, hfinal, hunits⟩ := ih hrest hmore
        (by rw [hkept, hnone]; exact nofun)
      rw [hkept, hnone, List.append_assoc, List.append_assoc] at hunits
      rw [hflushed]
      exact ⟨final, hfinal, hunits⟩
    next unit _ =>
      obtain ⟨flushed, hflushed, hnone, happended⟩ := flushChain_spec h hchain
      have hmore := happended.appendUnit unit
      obtain ⟨final, hfinal, hunits⟩ := ih hrest hmore
        (show ∀ word ∈ flushed.currentChain, 0 ≤ word.acc by rw [hnone]; exact nofun)
      rw [show (flushed.appendUnit unit.symbols).currentChain = [] from hnone, List.append_assoc,
        List.append_assoc] at hunits
      rw [hflushed]
      exact ⟨final, hfinal, hunits⟩
    next =>
      obtain ⟨final, hfinal, hunits⟩ := ih hrest (h.appendUnit .normalizedSpace) hchain
      rw [List.append_assoc] at hunits
      exact ⟨final, hfinal, hunits⟩
    next => exact ih hrest h hchain
    next =>
      have hpending : ∀ other ∈ state.currentChain ++ [word], 0 ≤ other.acc := fun other hmem => by
        rcases List.mem_append.mp hmem with hmem | hmem
        · exact hchain other hmem
        · rw [List.mem_singleton.mp hmem]
          exact hwords word List.mem_cons_self
      have happended : G2PState.HasAppended
          { state with currentChain := state.currentChain ++ [word] } units :=
        ⟨h.output_eq, h.nextUnit_eq⟩
      by_cases hcontinues : chainContinues rest
      · rw [if_pos hcontinues, if_pos (show (rest.head?.any _) = true from hcontinues)]
        exact ih hrest happended hpending
      · rw [if_neg hcontinues, if_neg (show ¬ (rest.head?.any _) = true from hcontinues)]
        obtain ⟨flushed, hflushed, hnone, hunits⟩ := flushChain_spec happended hpending
        obtain ⟨final, hfinal, hmore⟩ := ih hrest hunits (by rw [hnone]; exact nofun)
        rw [hnone, List.append_assoc] at hmore
        rw [hflushed]
        exact ⟨final, hfinal, hmore⟩

end G2PState

/-- Rows whose accents are not negative become the tokens of the units of their words. -/
theorem g2pTokens_eq (unicode : UnicodeData) {rows : List FrontendRow} {words : List NjdWord}
    (hrows : njdWords rows = .ok words) (hacc : ∀ word ∈ words, 0 ≤ word.acc) :
    g2pTokens unicode rows = .ok (numberedTokens 0 (runUnits unicode words [])) := by
  have hempty : G2PState.HasAppended {} [] := ⟨rfl, rfl⟩
  obtain ⟨final, hfinal, happended⟩ := G2PState.addWords_spec unicode hacc hempty nofun
  rw [g2pTokens, hrows]
  refine (congrArg (Except.map G2PState.output) hfinal).trans ?_
  exact congrArg Except.ok happended.output_eq

/-! ### Accent phrases -/

theorem isMora_of_phraseUnits (chain : List NjdWord) :
    (phraseUnits chain).filter PhonemeUnit.isMora = phraseUnits chain :=
  List.filter_eq_self.mpr fun unit hunit => by
    obtain ⟨pitch, characters, -, rfl⟩ := isMora_of_mem_phraseUnits hunit
    rfl

/-- No symbol becomes a mora. -/
theorem isMora_of_role_symbol {unicode : UnicodeData} {word : NjdWord} {unit : PhonemeUnit}
    (h : word.role unicode = .symbol unit) : unit.isMora = false := by
  unfold NjdWord.role at h
  dsimp only at h
  split_ifs at h <;> cases h <;> rfl

/-- The moras of a run are those of its accent phrases, in order. -/
theorem filter_runUnits (unicode : UnicodeData) (words chain : List NjdWord) :
    (runUnits unicode words chain).filter PhonemeUnit.isMora =
      (accentPhrases unicode words chain).flatMap phraseUnits := by
  induction words generalizing chain with
  | nil =>
    rw [runUnits, accentPhrases, isMora_of_phraseUnits, List.flatMap_cons, List.flatMap_nil,
      List.append_nil]
  | cons word rest ih =>
    cases hrole : word.role unicode with
    | letters characters =>
      have hletters : (characters.map PhonemeUnit.letter).filter PhonemeUnit.isMora = [] :=
        List.filter_eq_nil_iff.mpr fun unit hunit => by
          obtain ⟨character, -, rfl⟩ := List.mem_map.mp hunit
          exact nofun
      simp only [runUnits, accentPhrases, hrole]
      rw [List.filter_append, List.filter_append, hletters, isMora_of_phraseUnits, ih,
        List.nil_append, List.flatMap_cons]
    | symbol unit =>
      simp only [runUnits, accentPhrases, hrole]
      rw [List.filter_append, isMora_of_phraseUnits,
        List.filter_cons_of_neg (by rw [isMora_of_role_symbol hrole]; exact nofun), ih,
        List.flatMap_cons]
    | silent visible =>
      cases visible with
      | true =>
        simp only [runUnits, accentPhrases, hrole]
        rw [List.filter_cons_of_neg (show ¬ PhonemeUnit.normalizedSpace.isMora = true from nofun),
          ih]
      | false =>
        simp only [runUnits, accentPhrases, hrole]
        exact ih chain
    | voiced moras =>
      simp only [runUnits, accentPhrases, hrole]
      by_cases hcontinues : chainContinues rest
      · rw [if_pos hcontinues, if_pos hcontinues]
        exact ih _
      · rw [if_neg hcontinues, if_neg hcontinues, List.filter_append, isMora_of_phraseUnits, ih,
          List.flatMap_cons]

/-- The words of the accent phrases are words of the text. -/
theorem mem_of_mem_accentPhrases {unicode : UnicodeData} {words chain phrase : List NjdWord}
    (hphrase : phrase ∈ accentPhrases unicode words chain) {word : NjdWord}
    (hword : word ∈ phrase) : word ∈ chain ∨ word ∈ words := by
  induction words generalizing chain with
  | nil =>
    rw [accentPhrases, List.mem_singleton] at hphrase
    exact .inl (hphrase ▸ hword)
  | cons head rest ih =>
    unfold accentPhrases at hphrase
    have hfresh : phrase ∈ chain :: accentPhrases unicode rest [] →
        word ∈ chain ∨ word ∈ head :: rest := fun hmem => by
      rcases List.mem_cons.mp hmem with rfl | hmem
      · exact .inl hword
      · exact .inr (List.mem_cons_of_mem _ ((ih hmem).resolve_left nofun))
    split at hphrase
    next => exact hfresh hphrase
    next => exact hfresh hphrase
    next =>
      rcases ih hphrase with hmem | hmem
      · exact .inl hmem
      · exact .inr (List.mem_cons_of_mem _ hmem)
    next =>
      have happend : word ∈ chain ++ [head] → word ∈ chain ∨ word ∈ head :: rest := fun hmem => by
        rcases List.mem_append.mp hmem with hmem | hmem
        · exact .inl hmem
        · rw [List.mem_singleton.mp hmem]
          exact .inr List.mem_cons_self
      split at hphrase
      next =>
        rcases ih hphrase with hmem | hmem
        · exact happend hmem
        · exact .inr (List.mem_cons_of_mem _ hmem)
      next =>
        rcases List.mem_cons.mp hphrase with rfl | hmem
        · exact happend hword
        · exact .inr (List.mem_cons_of_mem _ ((ih hmem).resolve_left nofun))

end MagpieTts.Frontend
