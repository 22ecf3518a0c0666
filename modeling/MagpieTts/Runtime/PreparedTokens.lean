import Mathlib.Data.List.Basic
import Mathlib.Algebra.Group.Int.Defs
import Mathlib.Algebra.Group.Nat.Defs

/-!
# The validation of prepared tokens

`validate_prepared_token_ids` accepts the token sequences that the text front end prepares: rows of
the tokenizer, then the token that ends the text. One template is instantiated at 32-bit tokens,
which the startup fixture has, and at 64-bit tokens, which cross the C interface.

## Main definitions

* `validatePreparedTokenIds32`, `validatePreparedTokenIds64`: the two instances.
* `IsPrepared`: the sequences they accept.

## Main results

* `validatePreparedTokenIds32_eq`: both instances say the same of the same numbers.
* `validatePreparedTokenIds64_valid_iff`: what they accept.
* `exists_int32_of_isPrepared`: what they accept has 32-bit tokens when the vocabulary does.
-/

namespace MagpieTts.Runtime

inductive PreparedTokenErrorCode
  | none
  | empty
  | finalTokenIsNotEos
  | nonFinalTokenIsNotANormalRow
  deriving DecidableEq

structure PreparedTokenValidation where
  code : PreparedTokenErrorCode
  index : ℕ
  tokenId : Int64
  deriving DecidableEq

def PreparedTokenValidation.valid (self : PreparedTokenValidation) : Bool := self.code = .none

/-- The conversion of a `std::uint32_t` to `std::int64_t`. -/
def int64OfUint32 (value : UInt32) : Int64 := value.toUInt64.toInt64

section Template

variable {Token : Type} (widen : Token → Int64) (tokenizerVocabularySize : UInt32)

/-- The loop over the tokens in front of the last one. -/
def validateNonFinalTokens : ℕ → List Token → PreparedTokenValidation
  | _, [] => ⟨.none, 0, 0⟩
  | index, tokenId :: rest =>
    let token := widen tokenId
    if token < 0 ∨ int64OfUint32 tokenizerVocabularySize ≤ token then
      ⟨.nonFinalTokenIsNotANormalRow, index, token⟩
    else validateNonFinalTokens (index + 1) rest

/-- `validate_prepared_token_ids_impl`. The conversion to `std::int64_t` depends on the type of the
tokens. -/
def validatePreparedTokenIdsImpl (tokenIds : List Token) (eosTokenId : UInt32) :
    PreparedTokenValidation :=
  match tokenIds.getLast? with
  | none => ⟨.empty, 0, -1⟩
  | some last =>
    let finalToken := widen last
    if finalToken ≠ int64OfUint32 eosTokenId then
      ⟨.finalTokenIsNotEos, tokenIds.length - 1, finalToken⟩
    else validateNonFinalTokens widen tokenizerVocabularySize 0 tokenIds.dropLast

end Template

/-- `validate_prepared_token_ids` of `std::int32_t` tokens. -/
def validatePreparedTokenIds32 (tokenIds : List Int32)
    (tokenizerVocabularySize eosTokenId : UInt32) : PreparedTokenValidation :=
  validatePreparedTokenIdsImpl Int32.toInt64 tokenizerVocabularySize tokenIds eosTokenId

/-- `validate_prepared_token_ids` of `std::int64_t` tokens. -/
def validatePreparedTokenIds64 (tokenIds : List Int64)
    (tokenizerVocabularySize eosTokenId : UInt32) : PreparedTokenValidation :=
  validatePreparedTokenIdsImpl id tokenizerVocabularySize tokenIds eosTokenId

variable {tokenizerVocabularySize eosTokenId : UInt32}

/-! ### The two instances -/

theorem validateNonFinalTokens_map {Token : Type} (widen : Token → Int64) (index : ℕ)
    (tokenIds : List Token) :
    validateNonFinalTokens id tokenizerVocabularySize index (tokenIds.map widen) =
      validateNonFinalTokens widen tokenizerVocabularySize index tokenIds := by
  induction tokenIds generalizing index with
  | nil => rfl
  | cons tokenId rest ih =>
    rw [List.map_cons, validateNonFinalTokens, validateNonFinalTokens, ih]
    rfl

/-- The result depends on the widened tokens only. -/
theorem validatePreparedTokenIdsImpl_map {Token : Type} (widen : Token → Int64)
    (tokenIds : List Token) :
    validatePreparedTokenIdsImpl id tokenizerVocabularySize (tokenIds.map widen) eosTokenId =
      validatePreparedTokenIdsImpl widen tokenizerVocabularySize tokenIds eosTokenId := by
  rw [validatePreparedTokenIdsImpl, validatePreparedTokenIdsImpl, List.getLast?_map,
    List.length_map, ← List.map_dropLast, validateNonFinalTokens_map]
  cases tokenIds.getLast? <;> rfl

/-- Both instances report the same first defect of the same sequence of numbers. -/
theorem validatePreparedTokenIds32_eq (tokenIds : List Int32) :
    validatePreparedTokenIds32 tokenIds tokenizerVocabularySize eosTokenId =
      validatePreparedTokenIds64 (tokenIds.map Int32.toInt64) tokenizerVocabularySize eosTokenId :=
  (validatePreparedTokenIdsImpl_map Int32.toInt64 tokenIds).symm

/-! ### The accepted sequences -/

theorem toInt_int64OfUint32 (value : UInt32) : (int64OfUint32 value).toInt = value.toNat := by
  have hlt := value.toNat_lt
  rw [int64OfUint32, ← Int64.toInt_toBitVec, UInt64.toBitVec_toInt64,
    BitVec.toInt_eq_toNat_of_lt]
  · rfl
  · change 2 * value.toNat < 2 ^ 64
    omega

/-- Rows of the tokenizer, and the token that ends the text. -/
def IsPrepared (tokenizerVocabularySize eosTokenId : UInt32) (tokenIds : List Int64) : Prop :=
  ∃ rows, tokenIds = rows ++ [int64OfUint32 eosTokenId] ∧
    ∀ row ∈ rows, 0 ≤ row ∧ row < int64OfUint32 tokenizerVocabularySize

theorem validateNonFinalTokens_valid_iff (index : ℕ) (rows : List Int64) :
    (validateNonFinalTokens id tokenizerVocabularySize index rows).valid = true ↔
      ∀ row ∈ rows, 0 ≤ row ∧ row < int64OfUint32 tokenizerVocabularySize := by
  induction rows generalizing index with
  | nil => simp [validateNonFinalTokens, PreparedTokenValidation.valid]
  | cons row rows ih =>
    rw [validateNonFinalTokens, List.forall_mem_cons, ← ih (index + 1)]
    split_ifs with hdefect
    · refine ⟨nofun, fun h => ?_⟩
      rcases hdefect with hneg | hlarge
      · exact absurd hneg (Int64.not_lt.mpr h.1.1)
      · exact absurd hlarge (Int64.not_le.mpr h.1.2)
    · rw [not_or, id_eq, Int64.not_lt, Int64.not_le] at hdefect
      exact (and_iff_right hdefect).symm

theorem validatePreparedTokenIds64_valid_iff {tokenIds : List Int64} :
    (validatePreparedTokenIds64 tokenIds tokenizerVocabularySize eosTokenId).valid = true ↔
      IsPrepared tokenizerVocabularySize eosTokenId tokenIds := by
  rcases List.eq_nil_or_concat' tokenIds with rfl | ⟨rows, last, rfl⟩
  · refine ⟨nofun, ?_⟩
    rintro ⟨rows, hrows, -⟩
    exact absurd hrows.symm (List.concat_ne_nil _ _)
  · rw [validatePreparedTokenIds64, validatePreparedTokenIdsImpl, List.getLast?_concat,
      List.dropLast_concat]
    simp only [id_eq]
    split_ifs with hlast
    · refine ⟨nofun, ?_⟩
      rintro ⟨rows', hrows, -⟩
      exact absurd (List.append_inj' hrows rfl).2 (by simpa using hlast)
    · rw [validateNonFinalTokens_valid_iff]
      rw [not_not] at hlast
      constructor
      · exact fun h => ⟨rows, by rw [hlast], h⟩
      · rintro ⟨rows', hrows, h⟩
        rwa [(List.append_inj' hrows rfl).1]

/-- A number that is not negative and below `2 ^ 31` is a 32-bit token. -/
theorem toInt64_toInt32 {token : Int64} (hnonneg : 0 ≤ token) (hlt : token.toInt < 2 ^ 31) :
    token.toInt32.toInt64 = token := by
  rw [Int64.le_iff_toInt_le] at hnonneg
  rw [← Int64.toInt_inj, Int32.toInt_toInt64, Int64.toInt_toInt32]
  exact Int.bmod_eq_of_le (by change _ ≤ _ at hnonneg; simp at hnonneg; omega) (by omega)

/-- With a vocabulary and an end token below `2 ^ 31`, accepted sequences have 32-bit tokens. -/
theorem exists_int32_of_isPrepared {tokenIds : List Int64}
    (hvocabulary : tokenizerVocabularySize.toNat < 2 ^ 31) (heos : eosTokenId.toNat < 2 ^ 31)
    (h : IsPrepared tokenizerVocabularySize eosTokenId tokenIds) :
    (tokenIds.map Int64.toInt32).map Int32.toInt64 = tokenIds := by
  obtain ⟨rows, rfl, hrows⟩ := h
  have hfits : ∀ token ∈ rows ++ [int64OfUint32 eosTokenId],
      (Int32.toInt64 ∘ Int64.toInt32) token = id token := by
    intro token htoken
    rcases List.mem_append.mp htoken with hrow | heq
    · obtain ⟨hnonneg, hlt⟩ := hrows token hrow
      rw [Int64.lt_iff_toInt_lt, toInt_int64OfUint32] at hlt
      exact toInt64_toInt32 hnonneg (by omega)
    · rw [List.mem_singleton.mp heq]
      refine toInt64_toInt32 ?_ (by rw [toInt_int64OfUint32]; omega)
      rw [Int64.le_iff_toInt_le, toInt_int64OfUint32]
      exact Int.natCast_nonneg _
  rw [List.map_map, List.map_congr_left hfits, List.map_id]

end MagpieTts.Runtime
