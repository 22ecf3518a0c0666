import Mathlib.Data.List.Chain
import Mathlib.Data.List.DropRight
import MagpieTts.Frontend.PhonemeOrder

/-!
# The structure of the phoneme tokens

What the tokens of a text are meant to be: moras with their pitch marks, in the order of the words,
and a joined text without spaces at its ends and without two spaces in a row.

## Main definitions

* `WellSpaced`: the spaces of a joined text.
* `PhonemeStructure`: the structure of the tokens of a list of rows.

## Main results

* `wellSpaced_tokenizeCore`: the joined text of the core tokens is well spaced.
* `phonemeStructure_iff`: the tokens have their structure if and only if no accent phrase is
  interrupted.
-/

namespace MagpieTts.Frontend

open MagpieTts.Library

/-! ### Spaces -/

/-- A text without a space at an end and without two spaces in a row. -/
structure WellSpaced (text : Text) : Prop where
  leading : text.head? ≠ some ' '
  trailing : text.getLast? ≠ some ' '
  doubled : text.IsChain fun first second => first ≠ ' ' ∨ second ≠ ' '

/-- One space, or a text that is not empty and has no space. -/
def IsSpaceOrWord (symbol : Text) : Prop := symbol = [' '] ∨ symbol ≠ [] ∧ ' ' ∉ symbol

instance (symbol : Text) : Decidable (IsSpaceOrWord symbol) :=
  inferInstanceAs (Decidable (_ ∨ _))

theorem IsSpaceOrWord.ne_space {symbol : Text} (h : IsSpaceOrWord symbol) (hne : symbol ≠ [' '])
    {character : Char} (hmem : character ∈ symbol) : character ≠ ' ' := fun heq =>
  (h.resolve_left hne).2 (heq ▸ hmem)

/-- Symbols whose spaces are neither first nor last nor next to one another. -/
theorem wellSpaced_flatten {symbols : List Text}
    (hsymbols : ∀ symbol ∈ symbols, IsSpaceOrWord symbol) (hhead : symbols.head? ≠ some [' '])
    (hlast : symbols.getLast? ≠ some [' '])
    (hapart : symbols.IsChain fun first second => first ≠ [' '] ∨ second ≠ [' ']) :
    WellSpaced symbols.flatten := by
  have hne : ∀ symbol ∈ symbols, symbol ≠ [] := fun symbol hmem hnil => by
    rcases hsymbols symbol hmem with h | h
    · rw [h] at hnil
      cases hnil
    · exact h.1 hnil
  constructor
  · cases symbols with
    | nil => exact nofun
    | cons symbol rest =>
      rw [List.flatten_cons, List.head?_append_of_ne_nil _ (hne symbol List.mem_cons_self)]
      intro hspace
      exact (hsymbols symbol List.mem_cons_self).ne_space
        (fun heq => hhead (congrArg some heq)) (List.mem_of_head? hspace) rfl
  · rcases List.eq_nil_or_concat symbols with rfl | ⟨rest, symbol, rfl⟩
    · exact nofun
    · have hmem : symbol ∈ rest ++ [symbol] := List.mem_append_right _ List.mem_cons_self
      rw [List.concat_eq_append] at hlast hsymbols hne ⊢
      rw [List.flatten_append, List.flatten_singleton,
        List.getLast?_append_of_ne_nil _ (hne symbol hmem)]
      intro hspace
      refine (hsymbols symbol hmem).ne_space (fun heq => hlast ?_)
        (List.mem_of_getLast? hspace) rfl
      rw [List.getLast?_concat, heq]
  · refine (List.isChain_flatten fun hnil => hne [] hnil rfl).mpr ⟨fun symbol hmem => ?_, ?_⟩
    · rcases hsymbols symbol hmem with rfl | h
      · exact .singleton _
      · exact (List.pairwise_of_forall_mem_list fun first hfirst _ _ =>
          .inl fun heq => h.2 (heq ▸ hfirst)).isChain
    · refine hapart.imp_of_mem_imp fun first second hfirst hsecond hor character hcharacter other
        hother => ?_
      rcases hor with hor | hor
      · exact .inl ((hsymbols first hfirst).ne_space hor (List.mem_of_getLast? hcharacter))
      · exact .inr ((hsymbols second hsecond).ne_space hor (List.mem_of_head? hother))

/-! ### The joined text -/

theorem ne_space_of_mem_splitMoras {katakana mora : Text} (hmora : mora ∈ splitMoras katakana)
    {character : Char} (hcharacter : character ∈ mora) : character ≠ ' ' := by
  have hbegins : beginsMora ' ' = false := by decide
  have hjoins : joinsMora ' ' = false := by decide
  have hstands : standsAlone ' ' = false := by decide
  have hsingle : ∀ {first : Char}, beginsMora first = true ∨ standsAlone first = true →
      mora = [first] → character ≠ ' ' := by
    rintro first hfirst rfl rfl
    cases List.mem_singleton.mp hcharacter
    rw [hbegins, hstands] at hfirst
    exact hfirst.elim nofun nofun
  induction katakana using splitMoras.induct with
  | case1 => cases hmora
  | case2 first hfirst =>
    rw [splitMoras, if_pos hfirst, List.mem_singleton] at hmora
    exact hsingle (Bool.or_eq_true_iff.mp hfirst) hmora
  | case3 first hfirst =>
    rw [splitMoras, if_neg hfirst] at hmora
    cases hmora
  | case4 first next rest hfirst hnext ih =>
    rw [splitMoras, if_pos hfirst, if_pos hnext] at hmora
    rcases List.mem_cons.mp hmora with rfl | hmora
    · rintro rfl
      rcases List.mem_cons.mp hcharacter with heq | hmem
      · rw [← heq, hbegins] at hfirst
        cases hfirst
      · rw [← List.mem_singleton.mp hmem, hjoins] at hnext
        cases hnext
    · exact ih hmora
  | case5 first next rest hfirst hnext ih =>
    rw [splitMoras, if_pos hfirst, if_neg hnext] at hmora
    rcases List.mem_cons.mp hmora with hmora | hmora
    · exact hsingle (.inl hfirst) hmora
    · exact ih hmora
  | case6 first next rest hfirst hstand ih =>
    rw [splitMoras, if_neg hfirst, if_pos hstand] at hmora
    rcases List.mem_cons.mp hmora with hmora | hmora
    · exact hsingle (.inr hstand) hmora
    · exact ih hmora
  | case7 first next rest hfirst hstand ih =>
    rw [splitMoras, if_neg hfirst, if_neg hstand] at hmora
    exact ih hmora

/-- The symbols of a unit are spaces or have no space. -/
def PhonemeUnit.Legible (unit : PhonemeUnit) : Prop :=
  ∀ symbol ∈ unit.symbols, IsSpaceOrWord symbol.1

theorem isSpaceOrWord_singleton {character : Char} (h : character ≠ ' ') :
    IsSpaceOrWord [character] :=
  .inr ⟨nofun, fun hmem => h (List.mem_singleton.mp hmem).symm⟩

theorem legible_of_mem_phraseUnits {chain : List NjdWord} {unit : PhonemeUnit}
    (h : unit ∈ phraseUnits chain) : unit.Legible := by
  obtain ⟨pitch, characters, hcharacters, rfl⟩ := isMora_of_mem_phraseUnits h
  obtain ⟨word, -, hmora⟩ := List.mem_flatMap.mp hcharacters
  intro symbol hsymbol
  rcases List.mem_cons.mp hsymbol with rfl | hsymbol
  · refine .inr ⟨Nat.toDigits_ne_nil, fun hspace => ?_⟩
    have hdigit := Nat.isDigit_of_mem_toDigits (by decide) (by decide) hspace
    exact absurd hdigit (by decide)
  · obtain ⟨character, hcharacter, rfl⟩ := List.mem_map.mp hsymbol
    exact isSpaceOrWord_singleton (ne_space_of_mem_splitMoras hmora hcharacter)

theorem legible_normalizedSpace : PhonemeUnit.normalizedSpace.Legible := fun symbol hsymbol => by
  cases List.mem_singleton.mp hsymbol
  exact .inl rfl

theorem isSpaceOrWord_japanesePunctuation {symbol : Text}
    (h : japanesePunctuation.contains symbol = true) : IsSpaceOrWord symbol := by
  have hall : japanesePunctuation.all fun symbol => decide (IsSpaceOrWord symbol) := by
    decide +kernel
  exact of_decide_eq_true (List.all_eq_true.mp hall symbol (List.contains_iff_mem.mp h))

/-- The units of letters and of symbols. -/
theorem legible_of_role {unicode : UnicodeData} {word : NjdWord} :
    (∀ {characters}, word.role unicode = .letters characters →
      ∀ character ∈ characters, (PhonemeUnit.letter character).Legible) ∧
    ∀ {unit}, word.role unicode = .symbol unit → unit.Legible := by
  unfold NjdWord.role
  dsimp only
  constructor
  · intro characters h character hcharacter symbol hsymbol
    split_ifs at h with hletters
    cases h
    cases List.mem_singleton.mp hsymbol
    refine isSpaceOrWord_singleton ?_
    rintro rfl
    simp only [Bool.and_eq_true] at hletters
    exact absurd (List.all_eq_true.mp hletters.1.2 _ hcharacter) (by decide)
  · intro unit h symbol hsymbol
    split_ifs at h with _ _ _ hpunctuation
    · cases h
      cases List.mem_singleton.mp hsymbol
      exact .inl rfl
    · cases h
      cases List.mem_singleton.mp hsymbol
      exact isSpaceOrWord_japanesePunctuation hpunctuation
    · cases h
      exact legible_normalizedSpace symbol hsymbol

theorem legible_of_mem_runUnits {unicode : UnicodeData} {words chain : List NjdWord}
    {unit : PhonemeUnit} (h : unit ∈ runUnits unicode words chain) : unit.Legible := by
  induction words generalizing chain with
  | nil => exact legible_of_mem_phraseUnits h
  | cons word rest ih =>
    cases hrole : word.role unicode with
    | letters characters =>
      simp only [runUnits, hrole, List.mem_append, List.mem_map] at h
      rcases h with h | ⟨character, hcharacter, rfl⟩ | h
      · exact legible_of_mem_phraseUnits h
      · exact legible_of_role.1 hrole character hcharacter
      · exact ih h
    | symbol symbolUnit =>
      simp only [runUnits, hrole, List.mem_append, List.mem_cons] at h
      rcases h with h | rfl | h
      · exact legible_of_mem_phraseUnits h
      · exact legible_of_role.2 hrole
      · exact ih h
    | silent visible =>
      cases visible with
      | true =>
        simp only [runUnits, hrole, List.mem_cons] at h
        rcases h with rfl | h
        · exact legible_normalizedSpace
        · exact ih h
      | false =>
        simp only [runUnits, hrole] at h
        exact ih h
    | voiced moras =>
      simp only [runUnits, hrole] at h
      split at h
      next => exact ih h
      next =>
        rcases List.mem_append.mp h with h | h
        · exact legible_of_mem_phraseUnits h
        · exact ih h

/-- What the loop of `_tokenize_core` keeps. -/
structure RetainedTokens (tokens retained : List G2PToken) : Prop where
  subset : ∀ token ∈ retained, token ∈ tokens
  leading : (retained.map G2PToken.symbol).head? ≠ some [' ']
  doubled : (retained.map G2PToken.symbol).IsChain
    fun first second => first ≠ [' '] ∨ second ≠ [' ']

theorem RetainedTokens.retain {tokens retained : List G2PToken}
    (h : RetainedTokens tokens retained) (spec : FrontendSpec) {token : G2PToken}
    (htoken : token ∈ tokens) : RetainedTokens tokens (retainTokens spec retained token) := by
  have happend : (token.symbol = [' '] → retained.getLast?.any fun last =>
      last.symbol != [' ']) → RetainedTokens tokens (retained ++ [token]) := fun hspace => by
    refine ⟨fun other hmem => ?_, ?_, ?_⟩
    · rcases List.mem_append.mp hmem with hmem | hmem
      · exact h.subset other hmem
      · rw [List.mem_singleton.mp hmem]
        exact htoken
    · cases retained with
      | nil => exact fun hhead => absurd (hspace (Option.some.inj hhead)) nofun
      | cons first rest => exact h.leading
    · rw [List.map_append]
      refine h.doubled.append (.singleton _) fun last hlast symbol hsymbol => ?_
      cases Option.some.inj hsymbol
      by_cases hsymbolSpace : token.symbol = [' ']
      · left
        rw [List.getLast?_map] at hlast
        obtain ⟨previous, hprevious, rfl⟩ := Option.map_eq_some_iff.mp hlast
        have hany := hspace hsymbolSpace
        rw [hprevious] at hany
        exact bne_iff_ne.mp hany
      · exact .inr hsymbolSpace
  unfold retainTokens
  split
  next hspace =>
    split
    next hlast => exact happend fun _ => hlast
    next => exact h
  next hspace =>
    split
    next => exact happend fun heq => absurd (beq_iff_eq.mpr heq) hspace
    next => exact h

theorem retainedTokens_foldl (spec : FrontendSpec) (tokens : List G2PToken) :
    RetainedTokens tokens (tokens.foldl (retainTokens spec) []) := by
  have hrun : ∀ rest retained : List G2PToken, (∀ token ∈ rest, token ∈ tokens) →
      RetainedTokens tokens retained →
        RetainedTokens tokens (rest.foldl (retainTokens spec) retained) := by
    intro rest
    induction rest with
    | nil => exact fun _ _ h => h
    | cons token rest ih =>
      intro retained hrest h
      exact ih _ (fun other hmem => hrest other (List.mem_cons_of_mem _ hmem))
        (h.retain spec (hrest token List.mem_cons_self))
  exact hrun tokens [] (fun _ h => h) ⟨nofun, nofun, .nil⟩

theorem map_symbol_of_mapM {spec : FrontendSpec} {tokens : List G2PToken}
    {encoded : List EncodedCoreToken} (h : tokens.mapM (encodeCoreToken spec) = .ok encoded) :
    encoded.map EncodedCoreToken.symbol = tokens.map G2PToken.symbol := by
  have hforall := mapM_eq_ok_iff.mp h
  clear h
  induction hforall with
  | nil => rfl
  | @cons token result tokens results htoken _ ih =>
    obtain ⟨localTokenId, -, hresult⟩ := bind_eq_ok_iff.mp htoken
    cases hresult
    rw [List.map_cons, List.map_cons, ih]

/-- The joined text of the core tokens is well spaced. -/
theorem wellSpaced_tokenizeCore {spec : FrontendSpec} {tokens : List G2PToken}
    (htokens : ∀ token ∈ tokens, IsSpaceOrWord token.symbol) {encoded : List EncodedCoreToken}
    (h : tokenizeCore spec tokens = .ok encoded) :
    WellSpaced (encoded.flatMap EncodedCoreToken.symbol) := by
  have hretained := retainedTokens_foldl spec tokens
  set retained := tokens.foldl (retainTokens spec) [] with hdef
  have hkept : (retained.rdropWhile fun token => token.symbol == [' ']) <+: retained :=
    List.rdropWhile_prefix _ _
  rw [List.flatMap_def, map_symbol_of_mapM (show (retained.rdropWhile fun token =>
    token.symbol == [' ']).mapM (encodeCoreToken spec) = .ok encoded from h)]
  refine wellSpaced_flatten ?_ ?_ ?_ ?_
  · intro symbol hsymbol
    obtain ⟨token, htoken, rfl⟩ := List.mem_map.mp hsymbol
    exact htokens token (hretained.subset token (hkept.subset htoken))
  · intro hhead
    obtain ⟨tail, htail⟩ := hkept.map G2PToken.symbol
    refine hretained.leading ?_
    rw [← htail, List.head?_append, hhead]
    rfl
  · intro hlast
    rw [List.getLast?_map, Option.map_eq_some_iff] at hlast
    obtain ⟨token, htoken, hsymbol⟩ := hlast
    obtain ⟨hne, rfl⟩ := List.mem_getLast?_eq_getLast htoken
    exact List.rdropWhile_last_not _ _ hne (beq_iff_eq.mpr hsymbol)
  · exact hretained.doubled.prefix (hkept.map G2PToken.symbol)

/-! ### The structure of the phonemes -/

/-- What the tokens of a list of rows are meant to be. -/
structure PhonemeStructure (unicode : UnicodeData) (rows : List FrontendRow) : Prop where
  /-- The moras and the pitch marks of an accent phrase are as many. -/
  zips : g2pTokens unicode rows ≠ .error .valueError
  pitchMarks : ∀ words, njdWords rows = .ok words → ∀ phrase ∈ accentPhrases unicode words [],
    (phrasePitches phrase).length = (phraseMoras phrase).length
  /-- A mora and its pitch mark are one unit, and the moras are those of the accent phrases. -/
  atomic : ∀ words tokens, njdWords rows = .ok words → g2pTokens unicode rows = .ok tokens →
    ∃ units, tokens = numberedTokens 0 units ∧
      units.filter PhonemeUnit.isMora = (accentPhrases unicode words []).flatMap phraseUnits
  ordered : ∀ words tokens, njdWords rows = .ok words → g2pTokens unicode rows = .ok tokens →
    InSourceOrder unicode words tokens
  spaced : ∀ spec tokens encoded, g2pTokens unicode rows = .ok tokens →
    tokenizeCore spec tokens = .ok encoded → WellSpaced (encoded.flatMap EncodedCoreToken.symbol)

theorem textField_failsWith (index : Nat) (get : FieldName → Option FieldValue)
    (name : FieldName) :
    FailsWith (fun exception => ∃ message, exception = .frontendError message)
      (textField index get name) := by
  unfold textField
  split
  next => exact failsWith_ok
  next => exact failsWith_error_iff.mpr ⟨_, rfl⟩

theorem integerField_failsWith (index : Nat) (get : FieldName → Option FieldValue)
    (name : FieldName) :
    FailsWith (fun exception => ∃ message, exception = .frontendError message)
      (integerField index get name) := by
  unfold integerField
  split
  next => exact failsWith_ok
  next => exact failsWith_error_iff.mpr ⟨_, rfl⟩

/-- Rows that are not words raise a front-end error. -/
theorem njdWords_failsWith (rows : List FrontendRow) :
    FailsWith (fun exception => ∃ message, exception = .frontendError message)
      (njdWords rows) := by
  refine failsWith_mapM fun row _ => ?_
  cases row.1 with
  | other => exact failsWith_error_iff.mpr ⟨_, rfl⟩
  | mapping get =>
    simp only [njdWord, failsWith_bind_iff]
    exact ⟨textField_failsWith _ _ _, fun _ _ => ⟨textField_failsWith _ _ _, fun _ _ =>
      ⟨textField_failsWith _ _ _, fun _ _ => ⟨textField_failsWith _ _ _, fun _ _ =>
      ⟨integerField_failsWith _ _ _, fun _ _ => ⟨integerField_failsWith _ _ _, fun _ _ =>
      ⟨integerField_failsWith _ _ _, fun _ _ => failsWith_pure⟩⟩⟩⟩⟩⟩⟩

/-- The fields of a row with accent zero. -/
def wordFields (string pron pos : Text) (chainFlag moraSize : ℤ) : FieldName → Option FieldValue
  | .string => some (.text string)
  | .pron => some (.text pron)
  | .pos => some (.text pos)
  | .posGroup1 => some (.text ['*'])
  | .chainFlag => some (.integer chainFlag)
  | .moraSize => some (.integer moraSize)
  | .acc => some (.integer 0)

theorem acc_of_wordFields {rows : List FrontendRow}
    (hrows : ∀ row ∈ rows, ∃ string pron pos chainFlag moraSize,
      row = .mapping (wordFields string pron pos chainFlag moraSize))
    (words : List NjdWord) (h : njdWords rows = .ok words) (word : NjdWord) (hword : word ∈ words) :
    0 ≤ word.acc := by
  obtain ⟨⟨row, index⟩, hrow, hok⟩ := exists_of_mem_mapM h hword
  obtain ⟨string, pron, pos, chainFlag, moraSize, rfl⟩ :=
    hrows row (List.fst_mem_of_mem_zipIdx hrow)
  cases hok
  exact Int.le_refl 0

/-- **The structure of the phonemes.** If the accents are not negative, the tokens have their
structure if and only if no accent phrase is interrupted by a visible word without
pronunciation. -/
theorem phonemeStructure_iff (unicode : UnicodeData) (rows : List FrontendRow)
    (haccent : ∀ words, njdWords rows = .ok words → ∀ word ∈ words, 0 ≤ word.acc) :
    PhonemeStructure unicode rows ↔
      ∀ words, njdWords rows = .ok words → ¬ InterruptsPhrase unicode words := by
  constructor
  · intro h words hwords
    have hacc := haccent words hwords
    exact (inSourceOrder_runUnits_iff hacc).mp
      (h.ordered words _ hwords (g2pTokens_eq unicode hwords hacc))
  · intro h
    have htokens : ∀ words tokens, njdWords rows = .ok words → g2pTokens unicode rows = .ok tokens →
        tokens = numberedTokens 0 (runUnits unicode words []) := fun words tokens hwords htokens =>
      Except.ok.inj (htokens.symm.trans (g2pTokens_eq unicode hwords (haccent words hwords)))
    refine ⟨?_, ?_, ?_, ?_, ?_⟩
    · intro hmismatch
      cases hrows : njdWords rows with
      | error exception =>
        obtain ⟨message, rfl⟩ := njdWords_failsWith rows exception hrows
        rw [g2pTokens, hrows] at hmismatch
        cases hmismatch
      | ok words =>
        rw [g2pTokens_eq unicode hrows (haccent words hrows)] at hmismatch
        cases hmismatch
    · intro words hwords phrase hphrase
      refine length_phrasePitches fun word hword => ?_
      exact haccent words hwords word ((mem_of_mem_accentPhrases hphrase hword).resolve_left
        List.not_mem_nil)
    · intro words tokens hwords htoken
      exact ⟨_, htokens words tokens hwords htoken, filter_runUnits unicode words []⟩
    · intro words tokens hwords htoken
      rw [htokens words tokens hwords htoken]
      exact (inSourceOrder_runUnits_iff (haccent words hwords)).mpr (h words hwords)
    · intro spec tokens encoded htoken hencoded
      obtain ⟨words, hwords, -⟩ := bind_eq_ok_iff.mp htoken
      refine wellSpaced_tokenizeCore (fun token hmem => ?_) hencoded
      rw [htokens words tokens hwords htoken] at hmem
      obtain ⟨unit, hunit, index, hmem⟩ := exists_unit_of_mem_numberedTokens hmem
      obtain ⟨symbol, hsymbol, rfl⟩ := List.mem_map.mp hmem
      exact legible_of_mem_runUnits hunit symbol hsymbol

/-- A phrase of two words, a comma, a phrase of one word, and a letter without pronunciation. -/
def phraseRows : List FrontendRow :=
  [wordFields ['加'] ['カ'] ['名', '詞'] 0 1, wordFields ['減'] ['ゲ', 'ン'] ['名', '詞'] 1 2,
    wordFields ['、'] ['、'] ['記', '号'] 0 0, wordFields ['加'] ['カ'] ['名', '詞'] 0 1,
    wordFields ['x'] [] ['名', '詞'] 0 0].map .mapping

theorem acc_phraseRows (words : List NjdWord) (h : njdWords phraseRows = .ok words)
    (word : NjdWord) (hword : word ∈ words) : 0 ≤ word.acc := by
  refine acc_of_wordFields (fun row hrow => ?_) words h word hword
  simp only [phraseRows, List.map_cons, List.map_nil, List.mem_cons, List.not_mem_nil,
    or_false] at hrow
  rcases hrow with rfl | rfl | rfl | rfl | rfl <;> exact ⟨_, _, _, _, _, rfl⟩

theorem not_interruptsPhrase_phraseRows (words : List NjdWord)
    (h : njdWords phraseRows = .ok words) : ¬ InterruptsPhrase ⟨id, id⟩ words := by
  obtain ⟨first, second, third, fourth, fifth, rfl, hsecond, hcomma, hfourth, hfifth⟩ :
      ∃ first second third fourth fifth, words = [first, second, third, fourth, fifth] ∧
        second.role ⟨id, id⟩ = .voiced [['ゲ'], ['ン']] ∧
        chainContinues [third, fourth, fifth] = false ∧ chainContinues [fourth, fifth] = false ∧
        chainContinues [fifth] = false := by
    cases h
    exact ⟨_, _, _, _, _, rfl, rfl, rfl, rfl, rfl⟩
  rintro ⟨word, rest, hsuffix, -, hcontinues, hreaches⟩
  simp only [List.suffix_cons_iff, List.suffix_nil, List.cons.injEq, reduceCtorEq,
    or_false] at hsuffix
  rcases hsuffix with ⟨rfl, rfl⟩ | ⟨rfl, rfl⟩ | ⟨rfl, rfl⟩ | ⟨rfl, rfl⟩ | ⟨rfl, rfl⟩
  · -- the second word ends the phrase of the first
    rcases hreaches.role_eq with hrole | ⟨⟨visible, hrole⟩, -⟩ | ⟨-, hmore, -⟩
    · rw [hsecond] at hrole
      cases hrole
    · rw [hsecond] at hrole
      cases hrole
    · exact Bool.false_ne_true (hcomma.symm.trans hmore)
  · exact Bool.false_ne_true (hcomma.symm.trans hcontinues)
  · exact Bool.false_ne_true (hfourth.symm.trans hcontinues)
  · exact Bool.false_ne_true (hfifth.symm.trans hcontinues)
  · cases hcontinues

theorem phonemeStructure_iff_phraseRows :
    PhonemeStructure ⟨id, id⟩ phraseRows ∧
      (g2pTokens ⟨id, id⟩ phraseRows).map (fun tokens => tokens.map G2PToken.unitIndex) =
        .ok [0, 0, 1, 1, 2, 2, 3, 4, 4, 5] :=
  ⟨(phonemeStructure_iff ⟨id, id⟩ phraseRows acc_phraseRows).mpr not_interruptsPhrase_phraseRows,
    rfl⟩

/-- The space of a visible word without pronunciation comes before the mora of the word that it
follows. -/
theorem not_phonemeStructure_interrupted :
    ¬ ∀ (unicode : UnicodeData) (rows : List FrontendRow),
      (∀ words, njdWords rows = .ok words → ∀ word ∈ words, 0 ≤ word.acc) →
        PhonemeStructure unicode rows := by
  intro h
  have hstructure := h ⟨id, id⟩ [.mapping (wordFields ['加'] ['カ'] ['名', '詞'] 0 1),
    .mapping (wordFields ['x'] [] ['名', '詞'] 1 0)] (acc_of_wordFields fun row hrow => by
      rcases List.mem_cons.mp hrow with rfl | hrow
      · exact ⟨_, _, _, _, _, rfl⟩
      · exact ⟨_, _, _, _, _, List.mem_singleton.mp hrow⟩)
  have hmarks := (hstructure.ordered _ _ rfl rfl).filterMap_mark
  exact absurd hmarks (by decide)

end MagpieTts.Frontend
