import MagpieTts.Frontend.ServerRequest

/-!
# The loop of the front-end server

`serve` of `japanese_frontend_server.py` writes a ready line and then one line for each request
line.

## Main definitions

* `readline`, `serveLoop`, `serve`: the loop.
* `ServesRequests`: one line for every request, in order, with its identifier.
* `KeepsTransport`: the ready line and the replies of the front end can be expressed.

## Main results

* `servesRequests_iff_expressible`: every request is answered if and only if every reply can be
  expressed.
* `frontendServer_iff`: the requests and their answers.
-/

namespace MagpieTts.Frontend

open MagpieTts.Library

/-! ### The loop -/

/-- `_write`: the line of a record. -/
def writeRecord (limits : JsonLimits) (value : JsonRecord) : Except ServerException Bytes :=
  if ¬ ∀ integer ∈ value.integers, IntegerFits limits integer then .error .valueError
  else
    match encodePoints (value.dumps ++ [0x0a]) with
    | none => .error .unicodeEncodeError
    | some line => .ok line

/-- `asdict` of a `SourceProgress`. -/
structure ServedProgress where
  committedTextTokens : ℤ
  sourceCharEnd : ℤ
  sourceUtf8End : ℤ

/-- What `prepared_response` reads of a `PreparedSegment`. -/
structure ServedSegment where
  segmentIndex : ℤ
  sourceCharStart : ℤ
  sourceCharEnd : ℤ
  sourceUtf8Start : ℤ
  sourceUtf8End : ℤ
  normalizedText : CodePoints
  globalTokenIds : List ℤ
  progress : List ServedProgress

/-- What a front end does with a text. -/
inductive FrontendReply
  /-- `PreparedSegments`. -/
  | prepared (sourceText segmentationMode : CodePoints) (segments : List ServedSegment)
  /-- `FrontendError`, `TypeError` or `ValueError`, or a class derived of one. -/
  | raised (errorCode message : CodePoints)

/-- A front end: `prepare_segments` and the constants of the ready line. -/
structure ServedFrontend where
  prepareSegments : CodePoints → FrontendReply
  aggregateVocabularySize : ℤ
  textEmbeddingRows : ℤ
  bosTokenId : ℤ
  eosTokenId : ℤ
  globalPadTokenId : ℤ

def ServedProgress.record (progress : ServedProgress) : JsonRecord :=
  .object [(codePoints "committed_text_tokens", .integer progress.committedTextTokens),
    (codePoints "source_char_end", .integer progress.sourceCharEnd),
    (codePoints "source_utf8_end", .integer progress.sourceUtf8End)]

def ServedSegment.record (segment : ServedSegment) : JsonRecord :=
  .object [(codePoints "segment_index", .integer segment.segmentIndex),
    (codePoints "source_char_start", .integer segment.sourceCharStart),
    (codePoints "source_char_end", .integer segment.sourceCharEnd),
    (codePoints "source_utf8_start", .integer segment.sourceUtf8Start),
    (codePoints "source_utf8_end", .integer segment.sourceUtf8End),
    (codePoints "normalized_text", .string segment.normalizedText),
    (codePoints "global_token_ids", .array (segment.globalTokenIds.map JsonRecord.integer)),
    (codePoints "progress", .array (segment.progress.map ServedProgress.record))]

/-- `prepared_response`, or the error record that `serve` makes of an exception. -/
def FrontendReply.members (identity requestId : CodePoints) :
    FrontendReply → List (CodePoints × JsonRecord)
  | .prepared sourceText segmentationMode segments =>
    [(codePoints "schema_version", .integer 1),
      (codePoints "type", .string (codePoints "prepared_segments")),
      (codePoints "request_id", .string requestId),
      (codePoints "tokenizer_identity_sha256", .string identity),
      (codePoints "source_text", .string sourceText),
      (codePoints "segmentation_mode", .string segmentationMode),
      (codePoints "segments", .array (segments.map ServedSegment.record))]
  | .raised errorCode message =>
    [(codePoints "schema_version", .integer 1),
      (codePoints "type", .string (codePoints "error")),
      (codePoints "request_id", .string requestId),
      (codePoints "error_code", .string errorCode), (codePoints "message", .string message)]

/-- The record of the ready line. -/
def ServedFrontend.readyRecord (frontend : ServedFrontend) (identity : CodePoints) :
    JsonRecord :=
  .object [(codePoints "schema_version", .integer 1),
    (codePoints "type", .string (codePoints "ready")),
    (codePoints "tokenizer_identity_sha256", .string identity),
    (codePoints "tokenizer_vocabulary_size", .integer frontend.aggregateVocabularySize),
    (codePoints "text_embedding_rows", .integer frontend.textEmbeddingRows),
    (codePoints "bos_token_id", .integer frontend.bosTokenId),
    (codePoints "eos_token_id", .integer frontend.eosTokenId),
    (codePoints "japanese_global_pad_token_id", .integer frontend.globalPadTokenId)]

def ServedProgress.integers (progress : ServedProgress) : List ℤ :=
  [progress.committedTextTokens, progress.sourceCharEnd, progress.sourceUtf8End]

def ServedSegment.integers (segment : ServedSegment) : List ℤ :=
  [segment.segmentIndex, segment.sourceCharStart, segment.sourceCharEnd, segment.sourceUtf8Start,
    segment.sourceUtf8End] ++ segment.globalTokenIds ++
    segment.progress.flatMap ServedProgress.integers

/-- The integers that a front end returns. -/
def FrontendReply.integers : FrontendReply → List ℤ
  | .prepared _ _ segments => segments.flatMap ServedSegment.integers
  | .raised _ _ => []

/-- The strings that a front end returns. -/
def FrontendReply.strings : FrontendReply → List CodePoints
  | .prepared sourceText segmentationMode segments =>
    sourceText :: segmentationMode :: segments.map ServedSegment.normalizedText
  | .raised errorCode message => [errorCode, message]

/-- The integers of the ready line. -/
def ServedFrontend.integers (frontend : ServedFrontend) : List ℤ :=
  [frontend.aggregateVocabularySize, frontend.textEmbeddingRows, frontend.bosTokenId,
    frontend.eosTokenId, frontend.globalPadTokenId]

def maxRequestBytes : ℕ := 1024 * 1024

/-- `source.readline(limit)`: the line, and what is left of the source. -/
def readline : ℕ → Bytes → Bytes × Bytes
  | 0, source => ([], source)
  | _ + 1, [] => ([], [])
  | limit + 1, byte :: source =>
    if byte = 0x0a then ([byte], source)
    else (byte :: (readline limit source).1, (readline limit source).2)

/-- The lines that are written, and the exception that ends the run, if one does. -/
structure ServeResult where
  lines : List Bytes
  raised : Option ServerException
  deriving Repr, DecidableEq

/-- The `while` loop of `serve`. It reads a byte in every pass. -/
def serveLoop (limits : JsonLimits) (frontend : ServedFrontend) (identity : CodePoints) :
    ℕ → Bytes → List Bytes → ServeResult
  | 0, _, written => ⟨written, none⟩
  | fuel + 1, source, written =>
    let line := (readline (maxRequestBytes + 1) source).1
    if line = [] then ⟨written, none⟩
    else if maxRequestBytes < line.length then
      ⟨written, some (.protocolError "request exceeds the one-MiB transport limit")⟩
    else
      match request limits line with
      | .error exception => ⟨written, some exception⟩
      | .ok (requestId, text) =>
        match writeRecord limits
          (.object ((frontend.prepareSegments text).members identity requestId)) with
        | .error exception => ⟨written, some exception⟩
        | .ok response =>
          serveLoop limits frontend identity fuel (readline (maxRequestBytes + 1) source).2
            (written ++ [response])

/-- `serve`. -/
def serve (limits : JsonLimits) (frontend : ServedFrontend) (identity : CodePoints)
    (source : Bytes) : ServeResult :=
  match writeRecord limits (frontend.readyRecord identity) with
  | .error exception => ⟨[], some exception⟩
  | .ok ready => serveLoop limits frontend identity (source.length + 1) source [ready]

theorem writeRecord_eq_ok_iff {limits : JsonLimits} {value : JsonRecord} {line : Bytes} :
    writeRecord limits value = .ok line ↔ value.Writable limits ∧ line = recordLine value := by
  have hfeed : Encodable (value.dumps ++ [0x0a]) ↔ AllEncodable value.strings := by
    rw [encodable_append_iff, value.encodable_dumps_iff]
    refine and_iff_left fun point hpoint => ?_
    rw [List.mem_singleton.mp hpoint]
    exact .inl (by omega)
  have hline : encodeUtf8 ((value.dumps ++ [0x0a]).map Char.ofNat) = recordLine value := by
    rw [List.map_append, encodeUtf8, List.flatMap_append]
    rfl
  unfold writeRecord encodePoints
  constructor
  · intro h
    split at h
    next => cases h
    next hintegers =>
      split at h
      next => cases h
      next found hfound =>
        split at hfound
        next hstrings =>
          cases h
          cases hfound
          exact ⟨⟨not_not.mp hintegers, hfeed.mp hstrings⟩, hline⟩
        next => cases hfound
  · rintro ⟨hwritable, rfl⟩
    have hpoints : ∀ point ∈ value.dumps ++ [0x0a], point.isValidChar :=
      hfeed.mpr hwritable.strings
    rw [if_neg (not_not.mpr hwritable.integers), if_pos hpoints, hline]

theorem readline_append {body : Bytes} (hbody : 0x0a ∉ body) {limit : ℕ}
    (hlimit : body.length < limit) (rest : Bytes) :
    readline limit (body ++ [0x0a] ++ rest) = (body ++ [0x0a], rest) := by
  induction body generalizing limit with
  | nil =>
    obtain ⟨limit, rfl⟩ := Nat.exists_eq_succ_of_ne_zero (Nat.ne_of_gt hlimit)
    rfl
  | cons byte body ih =>
    obtain ⟨limit, rfl⟩ := Nat.exists_eq_succ_of_ne_zero
      (Nat.ne_of_gt (Nat.lt_of_le_of_lt (Nat.zero_le _) hlimit))
    rw [List.mem_cons, not_or] at hbody
    rw [List.cons_append, List.cons_append, readline, if_neg (Ne.symm hbody.1),
      ih hbody.2 (Nat.lt_of_succ_lt_succ hlimit)]

/-! ### Whole runs -/

/-- A request line within the limit that is accepted. -/
structure AcceptedLine (limits : JsonLimits) (line : Bytes) : Prop where
  isLine : IsLine line
  length_le : line.length ≤ maxRequestBytes
  accepted : ∃ requestId text, request limits line = .ok (requestId, text)

/-- The line answers the request: it is the line of one record that carries the identifier. -/
structure AnswersRequest (limits : JsonLimits) (line response : Bytes) : Prop where
  isLine : IsLine response
  identifier : ∃ requestId text members, request limits line = .ok (requestId, text) ∧
    response = recordLine (.object members) ∧
      (codePoints "request_id", .string requestId) ∈ members

/-- After the ready line there is one line for every request, in order, and the run ends with the
source. -/
def ServesRequests (limits : JsonLimits) (frontend : ServedFrontend) (identity : CodePoints)
    (lines : List Bytes) : Prop :=
  ∃ ready responses, serve limits frontend identity lines.flatten = ⟨ready :: responses, none⟩ ∧
    List.Forall₂ (AnswersRequest limits) lines responses

/-- The record of the answer to a line can be written. -/
def Answerable (limits : JsonLimits) (frontend : ServedFrontend) (identity : CodePoints)
    (line : Bytes) : Prop :=
  ∀ requestId text, request limits line = .ok (requestId, text) →
    JsonRecord.Writable limits
      (.object ((frontend.prepareSegments text).members identity requestId))

/-- No string has half of a surrogate pair, and no integer too many digits. -/
@[mk_iff]
structure Expressible (limits : JsonLimits) (strings : List CodePoints) (integers : List ℤ) :
    Prop where
  integers : ∀ integer ∈ integers, IntegerFits limits integer
  strings : AllEncodable strings

/-- The ready line and the replies of the front end can be expressed. -/
def KeepsTransport (limits : JsonLimits) (frontend : ServedFrontend) (identity : CodePoints)
    (lines : List Bytes) : Prop :=
  Expressible limits [identity] frontend.integers ∧
    ∀ line ∈ lines, ∀ requestId text, request limits line = .ok (requestId, text) →
      Expressible limits (frontend.prepareSegments text).strings
        (frontend.prepareSegments text).integers

/-! ### What a record reads -/

@[simp]
theorem ServedProgress.allEncodable_record (progress : ServedProgress) :
    AllEncodable progress.record.strings := by
  simp [record, encodable_codePoints]

@[simp]
theorem ServedSegment.allEncodable_record (segment : ServedSegment) :
    AllEncodable segment.record.strings ↔ Encodable segment.normalizedText := by
  simp [record, encodable_codePoints]

theorem ServedSegment.mem_integers_record (segment : ServedSegment) {integer : ℤ} :
    integer ∈ segment.record.integers ↔ integer ∈ segment.integers := by
  simp [record, integers, JsonRecord.integers, JsonRecord.memberIntegers,
    JsonRecord.mem_elementIntegers_iff, ServedProgress.record, ServedProgress.integers]

theorem FrontendReply.allEncodable_members {identity requestId : CodePoints}
    (hidentity : Encodable identity) (hid : Encodable requestId) (reply : FrontendReply) :
    AllEncodable (JsonRecord.object (reply.members identity requestId)).strings ↔
      AllEncodable reply.strings := by
  cases reply with
  | prepared sourceText segmentationMode segments =>
    have hsegments : AllEncodable (segments.map ServedSegment.normalizedText) ↔
        ∀ segment ∈ segments, Encodable segment.normalizedText := List.forall_mem_map
    simp [members, strings, encodable_codePoints, hidentity, hid, hsegments]
  | raised errorCode message =>
    simp [members, strings, encodable_codePoints, hid]

theorem FrontendReply.mem_integers_members {identity requestId : CodePoints}
    (reply : FrontendReply) {integer : ℤ} :
    integer ∈ (JsonRecord.object (reply.members identity requestId)).integers ↔
      integer = 1 ∨ integer ∈ reply.integers := by
  cases reply <;>
    simp [members, integers, JsonRecord.integers, JsonRecord.memberIntegers,
      JsonRecord.mem_elementIntegers_iff, ServedSegment.mem_integers_record]

/-- The identifier of a request has an encoding. -/
theorem encodable_requestId {limits : JsonLimits} {line : Bytes} {requestId text : CodePoints}
    (h : request limits line = .ok (requestId, text)) : Encodable requestId := by
  obtain ⟨-, -, members, -, -, hmembers⟩ := request_eq_ok_iff.mp h
  obtain ⟨-, -, -, hvalid, -⟩ := requestMembers_eq_ok_iff.mp hmembers
  obtain ⟨bytes, hbytes, -⟩ := hvalid.bounded
  unfold encodePoints at hbytes
  split at hbytes
  next hpoints => exact hpoints
  next => cases hbytes

/-- The record of an answer can be written when the reply can be expressed. -/
theorem FrontendReply.writable_members_iff {limits : JsonLimits} (hdigits : 0 < limits.maxDigits)
    {identity requestId : CodePoints} (hidentity : Encodable identity)
    (hid : Encodable requestId) (reply : FrontendReply) :
    JsonRecord.Writable limits (.object (reply.members identity requestId)) ↔
      Expressible limits reply.strings reply.integers := by
  have hone : IntegerFits limits 1 := hdigits
  rw [JsonRecord.writable_iff, expressible_iff, reply.allEncodable_members hidentity hid]
  simp only [reply.mem_integers_members, forall_eq_or_imp, hone, true_and]

/-- The ready line can be written. -/
theorem ServedFrontend.writable_readyRecord_iff {limits : JsonLimits}
    (hdigits : 0 < limits.maxDigits) (frontend : ServedFrontend) (identity : CodePoints) :
    (frontend.readyRecord identity).Writable limits ↔
      Expressible limits [identity] frontend.integers := by
  have hone : IntegerFits limits 1 := hdigits
  rw [JsonRecord.writable_iff, expressible_iff]
  simp [readyRecord, encodable_codePoints, integers, JsonRecord.integers,
    JsonRecord.memberIntegers, hone]

section Runs

variable {limits : JsonLimits} {frontend : ServedFrontend} {identity : CodePoints}

theorem requestId_mem_members (reply : FrontendReply) (requestId : CodePoints) :
    (codePoints "request_id", .string requestId) ∈ reply.members identity requestId := by
  cases reply <;>
    exact List.mem_cons_of_mem _ (List.mem_cons_of_mem _ List.mem_cons_self)

/-- One pass of the loop. -/
theorem serveLoop_succ {line : Bytes} (hline : AcceptedLine limits line)
    {requestId text : CodePoints}
    (hrequest : request limits line = .ok (requestId, text)) (fuel : ℕ) (rest : Bytes)
    (written : List Bytes) :
    serveLoop limits frontend identity (fuel + 1) (line ++ rest) written =
      match writeRecord limits
        (.object ((frontend.prepareSegments text).members identity requestId)) with
      | .error exception => ⟨written, some exception⟩
      | .ok response => serveLoop limits frontend identity fuel rest (written ++ [response]) := by
  obtain ⟨body, rfl, hbody⟩ := hline.isLine
  have hlength := hline.length_le
  have hread : readline (maxRequestBytes + 1) (body ++ [0x0a] ++ rest) = (body ++ [0x0a], rest) :=
    readline_append hbody (by rw [List.length_append, List.length_singleton] at hlength; omega) rest
  rw [serveLoop, hread]
  dsimp only
  rw [if_neg (List.append_ne_nil_of_right_ne_nil _ (List.cons_ne_nil _ _)),
    if_neg (Nat.not_lt.mpr hlength), hrequest]

/-- If all records can be written, the loop answers every line. -/
theorem serveLoop_of_answerable {lines : List Bytes}
    (hlines : ∀ line ∈ lines, AcceptedLine limits line)
    (hanswers : ∀ line ∈ lines, Answerable limits frontend identity line) {fuel : ℕ}
    (hfuel : lines.length < fuel) (written : List Bytes) :
    ∃ responses, serveLoop limits frontend identity fuel lines.flatten written =
        ⟨written ++ responses, none⟩ ∧ List.Forall₂ (AnswersRequest limits) lines responses := by
  induction lines generalizing fuel written with
  | nil =>
    obtain ⟨fuel, rfl⟩ := Nat.exists_eq_succ_of_ne_zero (Nat.ne_of_gt hfuel)
    exact ⟨[], by rw [List.append_nil]; rfl, .nil⟩
  | cons line lines ih =>
    obtain ⟨fuel, rfl⟩ := Nat.exists_eq_succ_of_ne_zero
      (Nat.ne_of_gt (Nat.lt_of_le_of_lt (Nat.zero_le _) hfuel))
    have hline := hlines line List.mem_cons_self
    obtain ⟨requestId, text, hrequest⟩ := hline.accepted
    have hwrite := writeRecord_eq_ok_iff.mpr
      ⟨hanswers line List.mem_cons_self requestId text hrequest, rfl⟩
    obtain ⟨responses, hloop, hresponses⟩ :=
      ih (fun other hmem => hlines other (List.mem_cons_of_mem _ hmem))
        (fun other hmem => hanswers other (List.mem_cons_of_mem _ hmem))
        (Nat.lt_of_succ_lt_succ hfuel) (written ++ [recordLine
          (.object ((frontend.prepareSegments text).members identity requestId))])
    refine ⟨recordLine (.object ((frontend.prepareSegments text).members identity requestId)) ::
      responses, ?_, .cons ⟨isLine_recordLine _, requestId, text, _, hrequest, rfl,
        requestId_mem_members _ _⟩ hresponses⟩
    rw [List.flatten_cons, serveLoop_succ hline hrequest, hwrite]
    dsimp only
    rw [hloop, List.append_assoc, List.singleton_append]

/-- A loop that ends without an exception has written every record. -/
theorem answerable_of_serveLoop {lines : List Bytes}
    (hlines : ∀ line ∈ lines, AcceptedLine limits line) {fuel : ℕ} (hfuel : lines.length < fuel)
    {written : List Bytes}
    (h : (serveLoop limits frontend identity fuel lines.flatten written).raised = none) :
    ∀ line ∈ lines, Answerable limits frontend identity line := by
  induction lines generalizing fuel written with
  | nil => exact fun _ hmem => nomatch hmem
  | cons line lines ih =>
    obtain ⟨fuel, rfl⟩ := Nat.exists_eq_succ_of_ne_zero
      (Nat.ne_of_gt (Nat.lt_of_le_of_lt (Nat.zero_le _) hfuel))
    have hline := hlines line List.mem_cons_self
    obtain ⟨requestId, text, hrequest⟩ := hline.accepted
    rw [List.flatten_cons, serveLoop_succ hline hrequest] at h
    split at h
    next => cases h
    next response hwrite =>
      intro other hmem
      rcases List.mem_cons.mp hmem with rfl | hmem
      · intro requestId' text' hrequest'
        cases hrequest.symm.trans hrequest'
        exact (writeRecord_eq_ok_iff.mp hwrite).1
      · exact ih (fun other hmem => hlines other (List.mem_cons_of_mem _ hmem))
          (Nat.lt_of_succ_lt_succ hfuel) h other hmem

theorem length_le_length_flatten {lines : List Bytes} (h : ∀ line ∈ lines, line ≠ []) :
    lines.length ≤ lines.flatten.length := by
  induction lines with
  | nil => exact Nat.le_refl 0
  | cons line lines ih =>
    have hpos := List.length_pos_iff.mpr (h line List.mem_cons_self)
    have hle := ih fun other hmem => h other (List.mem_cons_of_mem _ hmem)
    rw [List.length_cons, List.flatten_cons, List.length_append]
    omega

/-- Every request is answered by one line if and only if the ready line and the records of all
answers can be written. -/
theorem servesRequests_iff_answerable {lines : List Bytes}
    (hlines : ∀ line ∈ lines, AcceptedLine limits line) :
    ServesRequests limits frontend identity lines ↔
      (frontend.readyRecord identity).Writable limits ∧
        ∀ line ∈ lines, Answerable limits frontend identity line := by
  have hfuel : lines.length < lines.flatten.length + 1 :=
    Nat.lt_succ_of_le (length_le_length_flatten fun line hmem hnil => by
      obtain ⟨body, hbody, -⟩ := (hlines line hmem).isLine
      rw [hnil] at hbody
      exact List.append_ne_nil_of_right_ne_nil body (List.cons_ne_nil _ _) hbody.symm)
  constructor
  · rintro ⟨ready, responses, hserve, -⟩
    unfold serve at hserve
    split at hserve
    next => cases hserve
    next written hready =>
      exact ⟨(writeRecord_eq_ok_iff.mp hready).1,
        answerable_of_serveLoop hlines hfuel (congrArg ServeResult.raised hserve)⟩
  · rintro ⟨hready, hanswers⟩
    obtain ⟨responses, hloop, hresponses⟩ := serveLoop_of_answerable hlines hanswers hfuel
      [recordLine (frontend.readyRecord identity)]
    refine ⟨recordLine (frontend.readyRecord identity), responses, ?_, hresponses⟩
    rw [serve, writeRecord_eq_ok_iff.mpr ⟨hready, rfl⟩]
    exact hloop

/-- **Every request is answered** by one line if and only if the ready line and the reply of the
front end to every request can be expressed. -/
theorem servesRequests_iff_expressible (hdigits : 0 < limits.maxDigits) {lines : List Bytes}
    (hlines : ∀ line ∈ lines, AcceptedLine limits line) :
    ServesRequests limits frontend identity lines ↔
      KeepsTransport limits frontend identity lines := by
  rw [servesRequests_iff_answerable hlines, frontend.writable_readyRecord_iff hdigits,
    KeepsTransport]
  refine and_congr_right fun hready => forall₂_congr fun line hline =>
    forall₂_congr fun requestId text => imp_congr_right fun hrequest => ?_
  have hidentity : Encodable identity := hready.strings identity List.mem_cons_self
  exact FrontendReply.writable_members_iff hdigits hidentity (encodable_requestId hrequest) _

end Runs

/-! ### The server -/

/-- **The front-end server.** A line is parsed as the protocol asks if and only if it does not leave
the protocol. Accepted lines are answered one by one if and only if the constants of the front end
and its replies can be expressed. -/
theorem frontendServer_iff {limits : JsonLimits} (hdepth : 0 < limits.depth)
    (hdigits : 0 < limits.maxDigits) :
    (∀ line, ExactRequest limits line ↔ ¬ LeavesProtocol limits line) ∧
      ∀ frontend identity lines, (∀ line ∈ lines, AcceptedLine limits line) →
        (ServesRequests limits frontend identity lines ↔
          KeepsTransport limits frontend identity lines) :=
  ⟨exactRequest_iff hdepth hdigits, fun _ _ _ hlines =>
    servesRequests_iff_expressible hdigits hlines⟩

/-- The limits of the interpreter. -/
def defaultLimits : JsonLimits := ⟨4300, 1000⟩

def plainLine : Bytes :=
  encodeUtf8 "\x7b\"schema_version\":1,\"request_id\":\"a\",\"text\":\"x\"\x7d\n".toList

/-- A front end that refuses every text. -/
def refusingFrontend : ServedFrontend :=
  ⟨fun _ => .raised (codePoints "FrontendError") (codePoints "refused"), 1, 2, 3, 4, 5⟩

theorem acceptedLine_plainLine : AcceptedLine defaultLimits plainLine where
  isLine := ⟨plainLine.dropLast, by decide, by decide⟩
  length_le := by decide
  accepted := ⟨codePoints "a", codePoints "x", by decide⟩

theorem keepsTransport_plainLine :
    KeepsTransport defaultLimits refusingFrontend (codePoints "5d") [plainLine] := by
  refine ⟨⟨by decide, ?_⟩, fun line _ requestId text _ => ⟨nofun, ?_⟩⟩
  · simp [encodable_codePoints]
  · simp [refusingFrontend, FrontendReply.strings, encodable_codePoints]

theorem frontendServer_iff_plainLine :
    (ExactRequest defaultLimits plainLine ↔ ¬ LeavesProtocol defaultLimits plainLine) ∧
      ServesRequests defaultLimits refusingFrontend (codePoints "5d") [plainLine] := by
  obtain ⟨hexact, hserves⟩ := @frontendServer_iff defaultLimits (by decide) (by decide)
  exact ⟨hexact plainLine, (hserves refusingFrontend (codePoints "5d") [plainLine] fun line hmem =>
    List.mem_singleton.mp hmem ▸ acceptedLine_plainLine).mpr keepsTransport_plainLine⟩

/-- A request with two texts. -/
def repeatedLine : Bytes :=
  encodeUtf8
    "\x7b\"schema_version\":1,\"request_id\":\"a\",\"text\":\"x\",\"text\":\"y\"\x7d\n".toList

/-- The number of members that are scanned of a line. -/
def scannedMembers (limits : JsonLimits) (line : Bytes) : Option ℕ :=
  match (decodeUtf8 line).map (scanText limits) with
  | some (.ok (.object members)) => some members.length
  | _ => none

theorem not_exactRequest_repeatedLine : ¬ ExactRequest defaultLimits repeatedLine := by
  intro hexact
  have hrequest : request defaultLimits repeatedLine = .ok (codePoints "a", codePoints "y") := by
    decide
  have hdepth : 0 < defaultLimits.depth := by decide
  have hdigits : 0 < defaultLimits.maxDigits := by decide
  obtain ⟨chars, members, hchars, hmembers, hperm⟩ :=
    ((hexact.accepted _ _).mp hrequest).scanned hdepth hdigits
  have hcount : scannedMembers defaultLimits repeatedLine = some 4 := by decide
  rw [scannedMembers, hchars, Option.map_some, hmembers] at hcount
  have hlength := hperm.length_eq
  rw [Option.some.inj hcount] at hlength
  cases hlength

end MagpieTts.Frontend
