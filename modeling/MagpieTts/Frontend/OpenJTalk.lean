import Mathlib.Data.Int.Notation
import MagpieTts.Library.ExceptRules

/-!
# Phoneme tokens of the locked OpenJTalk front end

The part of the Japanese front end between the rows that OpenJTalk returns for a text and the
phoneme tokens made of them. The runner that produces the rows is a parameter, and so are the two
functions of the Unicode database whose tables depend on the interpreter, lower case and
compatibility normalization.

## Main definitions

* `FrontendRunner`, `UnicodeData`: the parameters of the front end.
* `njdWords`: the fields that the front end reads of every row.
* `g2pTokens`: pitch marks, moras, punctuation and spaces of a list of rows.
-/

namespace MagpieTts.Frontend

/-- A character string: its Unicode scalar values in order. -/
abbrev Text := List Char

/-- What a call of the front end raises. -/
inductive FrontendException
  | sourceNormalizationError (message : String)
  | ambiguousAlignmentError (message : String)
  | frontendError (message : String)
  /-- `zip(…, strict=True)` of sequences of different lengths. -/
  | valueError
  | keyError (key : Text)
  /-- An exception of the runner itself. -/
  | runnerError (message : String)
  deriving Repr, DecidableEq

/-- `if condition: raise exception`. -/
def raiseIf (condition : Prop) [Decidable condition] (exception : FrontendException) :
    Except FrontendException Unit :=
  if condition then .error exception else .ok ()

theorem raiseIf_eq_ok_iff {condition : Prop} [Decidable condition]
    {exception : FrontendException} {result : Unit} :
    raiseIf condition exception = .ok result ↔ ¬ condition := by
  rw [raiseIf]
  split
  next h => exact ⟨nofun, fun hnot => absurd h hnot⟩
  next h => exact ⟨fun _ => h, fun _ => rfl⟩

/-- The tables of the interpreter's Unicode database that the front end uses. -/
structure UnicodeData where
  /-- `str.lower`, which depends on the context of a character. -/
  lower : Text → Text
  /-- `unicodedata.normalize("NFKC", …)`. -/
  nfkc : Text → Text

/-- `str.isspace` of one character: category `Zs`, or bidirectional class `WS`, `B` or `S`. -/
def isspace (character : Char) : Bool :=
  let code := character.toNat
  (0x09 ≤ code && code ≤ 0x0d) || (0x1c ≤ code && code ≤ 0x20) || code == 0x85 || code == 0xa0 ||
    code == 0x1680 || (0x2000 ≤ code && code ≤ 0x200a) || code == 0x2028 || code == 0x2029 ||
    code == 0x202f || code == 0x205f || code == 0x3000

/-- `str.isspace`: a string that is not empty and has whitespace only. -/
def isspaceText (text : Text) : Bool := !text.isEmpty && text.all isspace

/-! ### The rows of OpenJTalk -/

/-- A value of a row. -/
inductive FieldValue
  | text (value : Text)
  | integer (value : ℤ)
  | boolean (value : Bool)
  | other

/-- The keys that the front end looks up in a row. -/
inductive FieldName
  | string | pron | pos | posGroup1 | chainFlag | moraSize | acc
  deriving Repr, DecidableEq

instance : ToString FieldName where
  toString
    | .string => "string"
    | .pron => "pron"
    | .pos => "pos"
    | .posGroup1 => "pos_group1"
    | .chainFlag => "chain_flag"
    | .moraSize => "mora_size"
    | .acc => "acc"

/-- A row of `run_frontend`: a mapping, or a value of another type. -/
inductive FrontendRow
  | mapping (get : FieldName → Option FieldValue)
  | other

/-- `run_frontend`: any function from a text to rows; it may raise. -/
abbrev FrontendRunner := Text → Except FrontendException (List FrontendRow)

/-- The fields of a row that the front end reads. -/
structure NjdWord where
  string : Text
  pron : Text
  pos : Text
  posGroup1 : Text
  chainFlag : ℤ
  moraSize : ℤ
  acc : ℤ
  deriving Repr, DecidableEq

def textField (index : Nat) (get : FieldName → Option FieldValue) (name : FieldName) :
    Except FrontendException Text :=
  match get name with
  | some (.text value) => .ok value
  | _ => .error (.frontendError s!"OpenJTalk row {index}.{name} is not a string")

/-- A Boolean is not an integer here. -/
def integerField (index : Nat) (get : FieldName → Option FieldValue) (name : FieldName) :
    Except FrontendException ℤ :=
  match get name with
  | some (.integer value) => .ok value
  | _ => .error (.frontendError s!"OpenJTalk row {index}.{name} is not an integer")

def njdWord (index : Nat) : FrontendRow → Except FrontendException NjdWord
  | .other => .error (.frontendError s!"OpenJTalk row {index} is not a mapping")
  | .mapping get => do
    let string ← textField index get .string
    let pron ← textField index get .pron
    let pos ← textField index get .pos
    let posGroup1 ← textField index get .posGroup1
    let chainFlag ← integerField index get .chainFlag
    let moraSize ← integerField index get .moraSize
    let acc ← integerField index get .acc
    return { string, pron, pos, posGroup1, chainFlag, moraSize, acc }

/-- `_njd_words`. -/
def njdWords (rows : List FrontendRow) : Except FrontendException (List NjdWord) :=
  rows.zipIdx.mapM fun row => njdWord row.2 row.1

/-! ### Moras and pitch -/

/-- `[ア-ンヴ]`: a character that begins a mora. -/
def beginsMora (character : Char) : Bool :=
  ('ア' ≤ character && character ≤ 'ン') || character == 'ヴ'

/-- `[ャュョァィゥェォヮ]`: a small character that joins the mora before it. -/
def joinsMora (character : Char) : Bool :=
  ['ャ', 'ュ', 'ョ', 'ァ', 'ィ', 'ゥ', 'ェ', 'ォ', 'ヮ'].contains character

/-- `[ァィゥェォヵヶッャュョヮ]` or `ー`: a mora of one character. -/
def standsAlone (character : Char) : Bool :=
  ['ァ', 'ィ', 'ゥ', 'ェ', 'ォ', 'ヵ', 'ヶ', 'ッ', 'ャ', 'ュ', 'ョ', 'ヮ', 'ー'].contains character

/-- `_split_moras`: the matches of `MORA_PATTERN` from left to right; a character that begins none
is skipped. -/
def splitMoras : Text → List Text
  | [] => []
  | [character] => if beginsMora character || standsAlone character then [[character]] else []
  | character :: next :: rest =>
    if beginsMora character then
      if joinsMora next then [character, next] :: splitMoras rest
      else [character] :: splitMoras (next :: rest)
    else if standsAlone character then [character] :: splitMoras (next :: rest)
    else splitMoras (next :: rest)

/-- `_pitch_pattern`. -/
def pitchPattern (acc : ℤ) (totalMora : Nat) : List Nat :=
  if totalMora = 0 then []
  else if acc = 0 then 0 :: List.replicate (totalMora - 1) 1
  else if acc = 1 then 1 :: List.replicate (totalMora - 1) 0
  else if acc ≥ totalMora then 0 :: List.replicate (totalMora - 1) 1
  else 0 :: (List.replicate (acc - 1).toNat 1 ++ List.replicate (totalMora - acc).toNat 0)

/-! ### Tokens -/

/-- The kinds of tokens. -/
inductive TokenKind
  | ascii | space | punctuation | normalizedSpace | pitch | mora | boundarySpace | eos
  deriving Repr, DecidableEq

/-- `G2PToken`. -/
structure G2PToken where
  symbol : Text
  kind : TokenKind
  unitIndex : Nat
  deriving Repr, DecidableEq

/-- `JAPANESE_PUNCTUATION`. -/
def japanesePunctuation : List Text :=
  [['!'], ['\x22'], ['('], [')'], [','], ['-'], ['.'], ['/'], [':'], [';'], ['?'], ['['], [']'],
    ['\x7b'], ['\x7d'], ['«'], ['»'], ['•'], ['‥'], ['…'], ['‹'], ['›'], ['※'], ['◦'], ['、'], ['。'],
    ['〃'], ['〈'], ['〉'], ['《'], ['》'], ['「'], ['」'], ['『'], ['』'], ['【'], ['】'], ['〒'], ['〓'],
    ['〔'], ['〕'], ['〖'], ['〗'], ['〘'], ['〙'], ['〚'], ['〛'], ['〜'], ['〽'], ['・'],
    ['・', '・', '・'], ['ー'], ['﹅'], ['﹆'], ['！'], ['＊'], ['？'], ['｟'], ['｠']]

/-- The local variables of `_g2p_tokens`. -/
structure G2PState where
  output : List G2PToken := []
  currentChain : List NjdWord := []
  nextUnit : Nat := 0
  deriving Repr, DecidableEq

namespace G2PState

variable (self : G2PState)

/-- `append_unit`. -/
def appendUnit (symbols : List (Text × TokenKind)) : G2PState :=
  { self with
    output := self.output ++ symbols.map fun symbol => ⟨symbol.1, symbol.2, self.nextUnit⟩
    nextUnit := self.nextUnit + 1 }

/-- The unit of a mora: its pitch mark and its characters. -/
def moraUnit (mora : Text) (pitch : Nat) : List (Text × TokenKind) :=
  (Nat.toDigits 10 pitch, .pitch) :: mora.map fun character => ([character], .mora)

/-- `flush_chain`. -/
def flushChain : Except FrontendException G2PState :=
  match self.currentChain with
  | [] => .ok self
  | first :: _ =>
    let chainStarter := (self.currentChain.find? fun word => word.chainFlag != 1).getD first
    let moras := self.currentChain.flatMap fun word => splitMoras word.pron
    let pitches := pitchPattern chainStarter.acc moras.length
    if moras.length ≠ pitches.length then .error .valueError
    else
      .ok { (moras.zip pitches).foldl (fun state unit => state.appendUnit (moraUnit unit.1 unit.2))
        self with currentChain := [] }

/-- One pass of the loop of `_g2p_tokens`: a word, and the word after it. -/
def addWord (unicode : UnicodeData) (word : NjdWord) (next : Option NjdWord) :
    Except FrontendException G2PState := do
  let normalizedString := unicode.nfkc word.string
  if !normalizedString.isEmpty && normalizedString.all (fun c => 'a' ≤ c && c ≤ 'z') &&
      word.pos == ['フ', 'ィ', 'ラ', 'ー'] then
    let flushed ← self.flushChain
    return normalizedString.foldl (fun state c => state.appendUnit [([c], .ascii)]) flushed
  else if [['記', '号'], ['補', '助', '記', '号']].contains word.pos &&
      word.posGroup1 != ['ア', 'ル', 'フ', 'ァ', 'ベ', 'ッ', 'ト'] then
    let flushed ← self.flushChain
    if isspaceText normalizedString then return flushed.appendUnit [([' '], .space)]
    else if japanesePunctuation.contains normalizedString then
      return flushed.appendUnit [(normalizedString, .punctuation)]
    else return flushed.appendUnit [([' '], .normalizedSpace)]
  else if word.pron.isEmpty || word.moraSize == 0 then
    if !normalizedString.isEmpty && !isspaceText normalizedString then
      return self.appendUnit [([' '], .normalizedSpace)]
    else return self
  else
    let chained := { self with currentChain := self.currentChain ++ [word] }
    if next.any fun following => following.chainFlag == 1 then return chained
    else chained.flushChain

/-- The loop of `_g2p_tokens` and the flush after it. -/
def addWords (unicode : UnicodeData) : List NjdWord → G2PState → Except FrontendException G2PState
  | [], self => self.flushChain
  | word :: rest, self => do addWords unicode rest (← self.addWord unicode word rest.head?)

end G2PState

/-- `_g2p_tokens`. -/
def g2pTokens (unicode : UnicodeData) (rows : List FrontendRow) :
    Except FrontendException (List G2PToken) := do
  let words ← njdWords rows
  let state ← G2PState.addWords unicode words {}
  return state.output

end MagpieTts.Frontend
