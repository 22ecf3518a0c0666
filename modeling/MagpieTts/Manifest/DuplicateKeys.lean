import Mathlib.Data.Int.Notation
import Mathlib.Data.List.Duplicate
import Mathlib.Logic.Function.Basic
import MagpieTts.Library.ExceptRules
import MagpieTts.Manifest.ManifestError

/-!
# Duplicate keys of a JSON document

The manifest of a runtime bundle and the fixture of the startup golden are parsed with the same
callback. The parser reports the start and the end of an object at the depth of the object and its
keys one below, an array taking a depth of its own; the callback keeps the keys of each depth,
empties them when an object starts, forgets them when it ends, and fails at a key it has.

## Main definitions

* `Json`, `Json.events`: a document and the events that its parser reports.
* `rejectDuplicateKeys`: the callback.
* `parseManifestJson`, `parseStartupGoldenJson`: its two uses.
* `Json.RepeatsKey`: some object of the document has a key twice.

## Main results

* `settles_events`: what the callback does over a document, from any keys it holds.
* `duplicateKeys_rejected`: a document is rejected exactly when an object of it repeats a key.
-/

namespace MagpieTts.Manifest

open MagpieTts.Library

/-- A JSON document with the members of each object in their order. -/
inductive Json (κ σ : Type*) where
  | value (scalar : σ)
  | array (elements : List (Json κ σ))
  | object (members : List (κ × Json κ σ))

/-- The events of the parser. -/
inductive ParseEvent (κ : Type*) where
  | objectStart
  | objectEnd
  | arrayStart
  | arrayEnd
  | key (key : κ)
  | value

variable {κ σ ε : Type*}

mutual

/-- The events of a document at a depth. -/
def Json.events (depth : ℤ) : Json κ σ → List (ℤ × ParseEvent κ)
  | .value _ => [(depth, .value)]
  | .array elements =>
      (depth, .arrayStart) :: (elementEvents (depth + 1) elements ++ [(depth, .arrayEnd)])
  | .object members =>
      (depth, .objectStart) :: (memberEvents (depth + 1) members ++ [(depth, .objectEnd)])

/-- The events of the elements of an array. -/
def elementEvents (depth : ℤ) : List (Json κ σ) → List (ℤ × ParseEvent κ)
  | [] => []
  | element :: elements => element.events depth ++ elementEvents depth elements

/-- The events of the members of an object. -/
def memberEvents (depth : ℤ) : List (κ × Json κ σ) → List (ℤ × ParseEvent κ)
  | [] => []
  | (key, value) :: members =>
      (depth, .key key) :: (value.events depth ++ memberEvents depth members)

end

/-- Some object of the document has `key` twice. -/
inductive Json.RepeatsKey (key : κ) : Json κ σ → Prop
  | here {members : List (κ × Json κ σ)} (hkey : List.Duplicate key (members.map Prod.fst)) :
      RepeatsKey key (.object members)
  | member {members : List (κ × Json κ σ)} {member : κ × Json κ σ} (hmem : member ∈ members)
      (hvalue : member.2.RepeatsKey key) : RepeatsKey key (.object members)
  | element {elements : List (Json κ σ)} {element : Json κ σ} (hmem : element ∈ elements)
      (helement : element.RepeatsKey key) : RepeatsKey key (.array elements)

theorem Json.not_repeatsKey_value (key : κ) (scalar : σ) :
    ¬ (Json.value scalar : Json κ σ).RepeatsKey key :=
  fun h => nomatch h

theorem Json.repeatsKey_array_iff {key : κ} {elements : List (Json κ σ)} :
    (Json.array elements).RepeatsKey key ↔ ∃ element ∈ elements, element.RepeatsKey key := by
  constructor
  · rintro (_ | _ | ⟨hmem, helement⟩)
    exact ⟨_, hmem, helement⟩
  · rintro ⟨element, hmem, helement⟩
    exact .element hmem helement

theorem Json.repeatsKey_object_iff {key : κ} {members : List (κ × Json κ σ)} :
    (Json.object members).RepeatsKey key ↔ List.Duplicate key (members.map Prod.fst) ∨
      ∃ member ∈ members, member.2.RepeatsKey key := by
  constructor
  · rintro (hkey | ⟨hmem, hvalue⟩)
    · exact Or.inl hkey
    · exact Or.inr ⟨_, hmem, hvalue⟩
  · rintro (hkey | ⟨member, hmem, hvalue⟩)
    · exact .here hkey
    · exact .member hmem hvalue

variable [DecidableEq κ]

/-- The keys that the callback holds: `std::unordered_map` from depths to sets of keys. -/
abbrev ObjectKeys (κ : Type*) := ℤ → Option (List κ)

/-- The lambda `reject_duplicate_keys`: what it throws at a key is `fail key`. -/
def rejectDuplicateKeys (fail : κ → ε) (objectKeys : ObjectKeys κ) (depth : ℤ) :
    ParseEvent κ → Except ε (ObjectKeys κ)
  | .objectStart => .ok (Function.update objectKeys depth (some []))
  | .key key =>
      let objectDepth := depth - 1
      let keys := (objectKeys objectDepth).getD []
      if key ∈ keys then .error (fail key)
      else .ok (Function.update objectKeys objectDepth (some (key :: keys)))
  | .objectEnd => .ok (Function.update objectKeys depth none)
  | .arrayStart | .arrayEnd | .value => .ok objectKeys

/-- The callback over the events of a parse. -/
def feed (fail : κ → ε) (objectKeys : ObjectKeys κ) (events : List (ℤ × ParseEvent κ)) :
    Except ε (ObjectKeys κ) :=
  events.foldlM (fun keys event => rejectDuplicateKeys fail keys event.1 event.2) objectKeys

/-- `Json::parse` of a well-formed text with the callback. -/
def parseRejectingDuplicates (fail : κ → ε) (document : Json κ σ) : Except ε (Json κ σ) :=
  (feed fail (fun _ => none) (document.events 0)).map fun _ => document

/-! ### What the callback does over a document -/

/-- How the callback comes out of a part of the document whose repeated keys are those of `P`, the
part being at `depth` or below: it fails at one of them, or there are none and it still holds the
keys of the objects above. -/
def Settles (fail : κ → ε) (P : κ → Prop) (depth : ℤ) (objectKeys : ObjectKeys κ) :
    Except ε (ObjectKeys κ) → Prop
  | .error error => ∃ key, P key ∧ error = fail key
  | .ok after => (∀ key, ¬ P key) ∧ ∀ above < depth, after above = objectKeys above

variable {fail : κ → ε} {P Q : κ → Prop} {depth : ℤ} {objectKeys : ObjectKeys κ}

omit [DecidableEq κ] in
theorem Settles.congr {result : Except ε (ObjectKeys κ)}
    (h : Settles fail P depth objectKeys result) (hiff : ∀ key, P key ↔ Q key) :
    Settles fail Q depth objectKeys result := by
  rwa [← show P = Q from funext fun key => propext (hiff key)]

omit [DecidableEq κ] in
/-- One part of the document after another that lies deeper. -/
theorem Settles.bind {inner : ℤ} (hle : depth ≤ inner) {result : Except ε (ObjectKeys κ)}
    {next : ObjectKeys κ → Except ε (ObjectKeys κ)}
    (h : Settles fail P inner objectKeys result)
    (hnext : ∀ after, (∀ above < inner, after above = objectKeys above) →
      Settles fail Q depth after (next after)) :
    Settles fail (fun key => P key ∨ Q key) depth objectKeys (result >>= next) := by
  cases result with
  | error error =>
    obtain ⟨key, hkey, herror⟩ := h
    exact ⟨key, Or.inl hkey, herror⟩
  | ok after =>
    have hsettled := hnext after h.2
    show Settles _ _ _ _ (next after)
    cases hresult : next after with
    | error error =>
      rw [hresult] at hsettled
      obtain ⟨key, hkey, herror⟩ := hsettled
      exact ⟨key, Or.inr hkey, herror⟩
    | ok last =>
      rw [hresult] at hsettled
      refine ⟨fun key => not_or.mpr ⟨h.1 key, hsettled.1 key⟩, fun above habove => ?_⟩
      rw [hsettled.2 above habove, h.2 above (Int.lt_of_lt_of_le habove hle)]

omit [DecidableEq κ] in
/-- What the callback held at the depth of the part does not matter. -/
theorem Settles.of_agree {result : Except ε (ObjectKeys κ)} {start : ObjectKeys κ}
    (h : Settles fail P depth start result)
    (hagree : ∀ above < depth, start above = objectKeys above) :
    Settles fail P depth objectKeys result := by
  cases result with
  | error error => exact h
  | ok after => exact ⟨h.1, fun above habove => (h.2 above habove).trans (hagree above habove)⟩

theorem feed_cons (event : ℤ × ParseEvent κ) (events : List (ℤ × ParseEvent κ)) :
    feed fail objectKeys (event :: events) =
      rejectDuplicateKeys fail objectKeys event.1 event.2 >>= fun keys => feed fail keys events :=
  List.foldlM_cons

theorem feed_append (events rest : List (ℤ × ParseEvent κ)) :
    feed fail objectKeys (events ++ rest) =
      feed fail objectKeys events >>= fun keys => feed fail keys rest :=
  List.foldlM_append

theorem feed_singleton (event : ℤ × ParseEvent κ) :
    feed fail objectKeys [event] = rejectDuplicateKeys fail objectKeys event.1 event.2 := by
  rw [feed_cons]
  exact bind_pure _

/-- The end of an array changes nothing, the one of an object only the keys of its own depth. -/
theorem settles_end {event : ParseEvent κ} (hend : event = .arrayEnd ∨ event = .objectEnd) :
    Settles fail (fun _ => False) depth objectKeys (feed fail objectKeys [(depth, event)]) := by
  rw [feed_singleton]
  rcases hend with rfl | rfl
  · exact ⟨fun _ h => h, fun _ _ => rfl⟩
  · exact ⟨fun _ h => h, fun above habove => Function.update_of_ne (Int.ne_of_lt habove) ..⟩

mutual

/-- The callback over a document, from any keys. -/
theorem settles_events (fail : κ → ε) : (document : Json κ σ) → (depth : ℤ) →
    (objectKeys : ObjectKeys κ) →
    Settles fail (fun key => document.RepeatsKey key) depth objectKeys
      (feed fail objectKeys (document.events depth))
  | .value scalar, depth, objectKeys => by
      rw [Json.events, feed_singleton]
      exact ⟨fun key => Json.not_repeatsKey_value key scalar, fun _ _ => rfl⟩
  | .array elements, depth, objectKeys => by
      have helements := settles_elementEvents fail elements (depth + 1) objectKeys
      rw [Json.events, feed_cons]
      show Settles _ _ _ _ (feed fail objectKeys _)
      rw [feed_append]
      exact (helements.bind (by omega) fun after _ => settles_end (Or.inl rfl)).congr fun key => by
        rw [Json.repeatsKey_array_iff, or_false]
  | .object members, depth, objectKeys => by
      let opened : ObjectKeys κ := Function.update objectKeys depth (some [])
      have hopened : opened depth = some [] := Function.update_self ..
      rw [Json.events, feed_cons]
      show Settles _ _ _ _ (feed fail opened _)
      rw [feed_append]
      have hmembers := settles_memberEvents fail members depth opened
      have hsettles := hmembers.bind (Int.le_refl depth) fun after _ => settles_end (Or.inr rfl)
      refine (hsettles.congr fun key => ?_).of_agree fun above habove =>
        Function.update_of_ne (Int.ne_of_lt habove) ..
      rw [Json.repeatsKey_object_iff, hopened]
      simp

/-- The callback over the elements of an array. -/
theorem settles_elementEvents (fail : κ → ε) : (elements : List (Json κ σ)) → (depth : ℤ) →
    (objectKeys : ObjectKeys κ) →
    Settles fail (fun key => ∃ element ∈ elements, element.RepeatsKey key) depth objectKeys
      (feed fail objectKeys (elementEvents depth elements))
  | [], depth, objectKeys => ⟨fun key h => by simp at h, fun _ _ => rfl⟩
  | element :: elements, depth, objectKeys => by
      rw [elementEvents, feed_append]
      exact ((settles_events fail element depth objectKeys).bind (Int.le_refl depth) fun after _ =>
        settles_elementEvents fail elements depth after).congr fun key => by simp

/-- The callback over the members of an object that it has seen some keys of. -/
theorem settles_memberEvents (fail : κ → ε) : (members : List (κ × Json κ σ)) → (depth : ℤ) →
    (objectKeys : ObjectKeys κ) →
    Settles fail (fun key => (key ∈ (objectKeys depth).getD [] ∧ key ∈ members.map Prod.fst) ∨
        List.Duplicate key (members.map Prod.fst) ∨ ∃ member ∈ members, member.2.RepeatsKey key)
      depth objectKeys (feed fail objectKeys (memberEvents (depth + 1) members))
  | [], depth, objectKeys => ⟨fun key h => by simp at h, fun _ _ => rfl⟩
  | (key, value) :: members, depth, objectKeys => by
      rw [memberEvents, feed_cons, rejectDuplicateKeys, Int.add_sub_cancel]
      by_cases hmem : key ∈ (objectKeys depth).getD []
      · rw [if_pos hmem]
        exact ⟨key, Or.inl ⟨hmem, List.mem_cons_self⟩, rfl⟩
      · rw [if_neg hmem]
        let extended : ObjectKeys κ :=
          Function.update objectKeys depth (some (key :: (objectKeys depth).getD []))
        show Settles _ _ _ _ (feed fail extended _)
        rw [feed_append]
        have hvalue := settles_events fail value (depth + 1) extended
        have hsettles := hvalue.bind (show depth ≤ depth + 1 by omega) fun after hafter => by
          -- the value has left the keys of this object, `key` now among them
          have hseen : after depth = some (key :: (objectKeys depth).getD []) :=
            (hafter depth (by omega)).trans (Function.update_self ..)
          have hrest := settles_memberEvents fail members depth after
          rw [hseen] at hrest
          exact hrest
        refine (hsettles.congr fun other => ?_).of_agree fun above habove =>
          Function.update_of_ne (Int.ne_of_lt habove) ..
        have hnew : key = other → other ∉ (objectKeys depth).getD [] := fun h => h ▸ hmem
        simp only [Option.getD_some, List.mem_cons, List.map_cons, List.duplicate_cons_iff,
          exists_eq_or_imp, eq_comm (a := other)]
        grind

end

/-! ### The two uses -/

/-- The parse of the manifest of a runtime bundle, from its text as a document. -/
def parseManifestJson (document : Json String σ) : Except ManifestError (Json String σ) :=
  parseRejectingDuplicates (fun key => ⟨.json, .duplicateValue, childPath "" key,
    "duplicate JSON object key is not permitted"⟩) document

inductive StartupGoldenErrorCode
  | invalidFixture
  | invalidCapture
  | countMismatch
  | hashMismatch
  deriving DecidableEq

structure StartupGoldenError where
  code : StartupGoldenErrorCode
  detail : String
  deriving DecidableEq

/-- The parse of the fixture of the startup golden, from its text as a document. -/
def parseStartupGoldenJson (document : Json String σ) : Except StartupGoldenError (Json String σ) :=
  parseRejectingDuplicates
    (fun key => ⟨.invalidFixture, childPath "" key ++ ": duplicate JSON object key"⟩) document

theorem parseRejectingDuplicates_cases (fail : κ → ε) (document : Json κ σ) :
    (∃ key, document.RepeatsKey key ∧
        parseRejectingDuplicates fail document = .error (fail key)) ∨
      ((∀ key, ¬ document.RepeatsKey key) ∧
        parseRejectingDuplicates fail document = .ok document) := by
  have hsettles := settles_events fail document 0 fun _ => none
  rw [parseRejectingDuplicates]
  cases hresult : feed fail (fun _ => none) (document.events 0) with
  | error error =>
    rw [hresult] at hsettles
    obtain ⟨key, hkey, rfl⟩ := hsettles
    exact Or.inl ⟨key, hkey, rfl⟩
  | ok after =>
    rw [hresult] at hsettles
    exact Or.inr ⟨hsettles.1, rfl⟩

/-- What a parser does that rejects the documents with a duplicate key and no others: an error names
a key that some object has twice. So a key that returns in an object is reported whatever stands
between and within its values, and an object whose own keys differ is accepted with any values that
are, whatever keys these have. -/
structure RejectsDuplicates (parse : Json κ σ → Except ε (Json κ σ)) (fail : κ → ε) : Prop where
  rejects_iff : ∀ document, (∃ error, parse document = .error error) ↔
    ∃ key, document.RepeatsKey key
  names_key : ∀ {document error}, parse document = .error error →
    ∃ key, document.RepeatsKey key ∧ error = fail key
  repeated : ∀ key before first between second after, ∃ error,
    parse (.object (before ++ (key, first) :: (between ++ (key, second) :: after))) = .error error
  separate : ∀ members, (members.map Prod.fst).Nodup →
    (∀ member ∈ members, parse member.2 = .ok member.2) →
      parse (.object members) = .ok (.object members)

theorem duplicate_append (key : κ) (before between after : List κ) :
    List.Duplicate key (before ++ key :: (between ++ key :: after)) := by
  rw [List.duplicate_iff_two_le_count]
  simp only [List.count_append, List.count_cons_self]
  omega

theorem rejectsDuplicates_parse (fail : κ → ε) :
    RejectsDuplicates (parseRejectingDuplicates fail : Json κ σ → _) fail := by
  have hrejects (document : Json κ σ) :
      (∃ error, parseRejectingDuplicates fail document = .error error) ↔
        ∃ key, document.RepeatsKey key := by
    rcases parseRejectingDuplicates_cases fail document with ⟨key, hkey, herror⟩ | ⟨hfree, hok⟩
    · exact ⟨fun _ => ⟨key, hkey⟩, fun _ => ⟨fail key, herror⟩⟩
    · rw [hok]
      exact ⟨fun ⟨_, h⟩ => (nomatch h), fun ⟨key, hkey⟩ => absurd hkey (hfree key)⟩
  refine ⟨hrejects, fun {document error} h => ?_, fun key before first between second after => ?_,
    fun members hnodup hvalues => ?_⟩
  · rcases parseRejectingDuplicates_cases fail document with ⟨key, hkey, herror⟩ | ⟨-, hok⟩
    · exact ⟨key, hkey, Except.error.inj (h.symm.trans herror)⟩
    · rw [hok] at h
      cases h
  · refine (hrejects _).mpr ⟨key, .here ?_⟩
    simp only [List.map_append, List.map_cons]
    exact duplicate_append key ..
  · rcases parseRejectingDuplicates_cases fail (Json.object members) with ⟨key, hkey, -⟩ | ⟨-, hok⟩
    · rcases Json.repeatsKey_object_iff.mp hkey with hkey | ⟨member, hmem, hvalue⟩
      · exact absurd hnodup hkey.not_nodup
      · obtain ⟨error, herror⟩ := (hrejects member.2).mpr ⟨key, hvalue⟩
        rw [hvalues member hmem] at herror
        cases herror
    · exact hok

/-- The parsers of the manifest and of the startup golden reject as duplicate-keyed exactly the
documents of which some object has a key twice. -/
theorem duplicateKeys_rejected :
    RejectsDuplicates (parseManifestJson : Json String σ → _) (fun key => ⟨.json, .duplicateValue,
        childPath "" key, "duplicate JSON object key is not permitted"⟩) ∧
      RejectsDuplicates (parseStartupGoldenJson : Json String σ → _) (fun key => ⟨.invalidFixture,
        childPath "" key ++ ": duplicate JSON object key"⟩) :=
  ⟨rejectsDuplicates_parse _, rejectsDuplicates_parse _⟩

/-- Objects in an array, one with a nested object between two members of the same key. -/
example :
    let document : Json ℕ Unit := .array [.object [(0, .value ())],
      .object [(0, .value ()), (1, .object [(0, .value ())]), (0, .value ())]]
    (parseRejectingDuplicates id document).isOk = false := by
  decide

end MagpieTts.Manifest
