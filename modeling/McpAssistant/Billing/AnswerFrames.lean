import McpAssistant.Foundations.EventBlocks
import McpAssistant.Foundations.PhpArrays
import McpAssistant.Foundations.Rewriting
import Mathlib.Data.List.SplitBy

/-!
# Frames of a buffered answer

An answer that was not streamed is sent as events, its text in a few pieces.  An observer
reads the bytes as they are cut by the network and counts the letters of the text.
-/

namespace McpAssistant.Billing.AnswerFrames

open List
open Foundations EventBlocks JsonReading JsonText PhpArrays Rewriting

abbrev Text := List Char

abbrev Bytes := List UInt8

/-- `$value[$key] ?? null`, of an array as it is encoded: a float without a fraction is an
integer there. -/
def field (value : Json) (key : String) : Option Json :=
  match value with
  | .dict entries => (entries.lookup key).filter fun found => !found.isNull
  | _ => none

def isArray : Json → Bool
  | .list _ | .dict _ => true
  | _ => false

def isText : Json → Bool
  | .text _ => true
  | _ => false

def items : Option Json → List Json
  | some (.list values) => values
  | some (.dict entries) => entries.map Prod.snd
  | _ => []

def isTrimmed (code : Nat) : Bool :=
  [0, 9, 10, 11, 13, 32].contains code

def trimWith {Letter : Type} (test : Letter → Bool) (letters : List Letter) : List Letter :=
  ((letters.dropWhile test).reverse.dropWhile test).reverse

def trim : Text → Text :=
  trimWith fun letter => isTrimmed letter.toNat

def isBlank (letter : Char) : Bool :=
  9 ≤ letter.toNat && letter.toNat ≤ 13 || letter = ' '

/-- `\[(?:Source\s+)?(\d+)\]` on bytes, with the digits. -/
def markerAt : Recognizer Char (Text × Text) :=
  fun _ text => match text with
  | '[' :: rest =>
    let behind := rest.drop 6
    let inner :=
      if (rest.take 6).map Char.toLower = "source".toList ∧ behind.head?.any isBlank then
        behind.dropWhile isBlank
      else rest
    let digits := inner.takeWhile Char.isDigit
    let after := inner.drop digits.length
    if digits ≠ [] ∧ after.head? = some ']' then
      let covered := rest.length - after.length + 1
      some (covered, text.take (covered + 1), digits)
    else none
  | _ => none

structure MappedSource where
  id : Text
  title : Text
  snippet : Text

def basename (path : Text) : Text :=
  ((path.reverse.dropWhile (· = '/')).takeWhile (· ≠ '/')).reverse

def stripUnboundCitationMarkers (text : Text) (citations : List (Text × Text)) : Text :=
  textOf (fun found : Text × Text =>
      if found.2 ∈ citations.map Prod.fst then found.1 else [])
    (rewrite markerAt none 0 text)

/-- Chunks, the one that is filled, and its pieces. -/
abbrev Filling := List Text × Text × Nat

def addPiece (piecesPerChunk : Nat) (filling : Filling) (piece : Text) : Filling :=
  let buffer := filling.2.1 ++ piece
  if filling.2.2 + 1 ≥ piecesPerChunk then (filling.1 ++ [buffer], [], 0)
  else (filling.1, buffer, filling.2.2 + 1)

def maxTokenFrames : Nat := 30
def wordsPerChunk : Nat := 4

inductive EventName where
  | status | token | sources | citations | sqlProvenance | done

def EventName.text : EventName → String
  | .status => "status"
  | .token => "token"
  | .sources => "sources"
  | .citations => "citations"
  | .sqlProvenance => "sql_provenance"
  | .done => "done"

abbrev Frame := EventName × Json

def textJson (text : Text) : Json :=
  .text (String.ofList text)

def status (phase label : String) : Frame :=
  (.status, .dict [("phase", .text phase), ("label", .text label)])

section Frames

-- How a float is cast, the spaces of Unicode, `(int)`, and what suggestions are mapped to.
variable (castFloat : String → Text) (isSpace : Char → Bool) (castInt : Json → Int)
  (mapFollowUpSuggestions : Option Json → List String)

/-- `(string)`. -/
def castText : Json → Text
  | .null | .boolean false => []
  | .boolean true => ['1']
  | .integer value => dumpInteger value
  | .float _ printed => castFloat printed
  | .text value => value.toList
  | .list _ | .dict _ => "Array".toList

def textField (value : Json) (key default : String) : Text :=
  ((field value key).map (castText castFloat)).getD default.toList

def mapSource (source : Json) (index : Nat) : MappedSource :=
  let sourceFile := textField castFloat source "source_file" ""
  let upstreamId := trim (textField castFloat source "id" "")
  let place := ((field source "chunk_index").map (castText castFloat)).getD (Nat.toDigits 10 index)
  { id := if upstreamId ≠ [] then upstreamId else sourceFile ++ ':' :: place
    title := if basename sourceFile ≠ [] then basename sourceFile else sourceFile
    snippet := (textField castFloat source "content" "").take 200 }

def mapSources (raw : Option Json) : List MappedSource :=
  (items raw).zipIdx.map fun (source, index) => mapSource castFloat source index

def mapCitations (raw : Option Json) (sources : List MappedSource) (answer : Text) :
    List (Text × Text) :=
  if raw.any fun raw => (field raw "parsed").any fun
      | .boolean value => value
      | _ => false then
    ((items (raw.bind (field · "cited"))).filter isArray).filterMap fun citation =>
      let marker := trim (textField castFloat citation "marker" "")
      let id := trim (textField castFloat citation "id" "")
      if marker ≠ [] ∧ marker.all Char.isDigit ∧ marker.any (· ≠ '0') ∧
          id ∈ sources.map MappedSource.id ∧
          answer.tails.any fun tail => (markerAt none tail).any fun found => found.2.2 = marker then
        some (marker, id)
      else none
  else []

def chunkAnswer (text : Text) : List Text :=
  let pieces := text.splitBy fun before letter => isSpace before == isSpace letter
  let wordCount := (pieces.length + 1) / 2
  let words := if wordCount > maxTokenFrames * wordsPerChunk then
      (wordCount + maxTokenFrames - 1) / maxTokenFrames
    else wordsPerChunk
  let filled := pieces.foldl (addPiece (max 1 (words * 2))) ([], [], 0)
  filled.1 ++ if filled.2.1 = [] then [] else [filled.2.1]

def citationsOf (answer : Json) : List (Text × Text) :=
  mapCitations castFloat (field answer "citations") (mapSources castFloat (field answer "sources"))
    (textField castFloat answer "answer" "")

def strippedText (answer : Json) : Text :=
  stripUnboundCitationMarkers (textField castFloat answer "answer" "") (citationsOf castFloat answer)

def sqlProvenance (answer : Json) : Option Json :=
  (field answer "sql_provenance").bind fun raw =>
  let queries := items (field raw "queries")
  let links := items (field raw "record_links")
  if queries.isEmpty && links.isEmpty then none
  else some (.dict [("queries", .list (queries.filter isText)),
    ("record_links", .list ((links.filter isArray).map fun link => .dict [
      ("table", textJson (textField castFloat link "table" "")),
      ("record_id", .integer (((field link "record_id").map castInt).getD 0)),
      ("label", textJson (textField castFloat link "label" "")),
      ("url", textJson (textField castFloat link "url" ""))]))])

def doneData (answer : Json) : Json :=
  let raw := fun key => (key, (field answer key).getD .null)
  .dict ([("model", textJson (textField castFloat answer "model" "default")), raw "thread_id",
    raw "exchange_id", ("context_mode", textJson (textField castFloat answer "context_mode" "none")),
    raw "trace_id", raw "feedback_token",
    ("operation", textJson (textField castFloat answer "operation" "ask")),
    ("follow_up_suggestions",
      .list ((mapFollowUpSuggestions (field answer "follow_up_suggestions")).map .text))] ++
    ((field answer "business_query").filter isArray).toList.map ("business_query", ·))

/-- What comes before the text. -/
def opening (answer : Json) : List Frame :=
  [status "understanding" "Understanding your question"] ++
    (if textField castFloat answer "query_type" "" = "structured".toList then [
      status "searching_database" "Finding relevant records",
      status "inspecting_access" "Checking access",
      status "writing_query" "Preparing the lookup",
      status "running_query" "Reading current data"] else []) ++
    [status "writing_answer" "Writing the answer"]

def tokenFrame (chunk : Text) : Frame :=
  (.token, .dict [("d", textJson chunk)])

/-- What comes between the text and the end. -/
def references (answer : Json) : List Frame :=
  let sources := mapSources castFloat (field answer "sources")
  let cited := citationsOf castFloat answer
  (if sources.isEmpty then [] else [(.sources, .list (sources.map fun source =>
    .dict [("id", textJson source.id), ("title", textJson source.title),
      ("snippet", textJson source.snippet)]))]) ++
    [(.citations, .dict [("parsed", .boolean !cited.isEmpty), ("cited", .list (cited.map
      fun entry => .dict [("marker", textJson entry.1), ("id", textJson entry.2)]))])] ++
    (sqlProvenance castFloat castInt answer).toList.map (.sqlProvenance, ·)

def framesForAnswer (answer : Json) : List Frame :=
  opening castFloat answer ++
    (chunkAnswer isSpace (strippedText castFloat answer)).map tokenFrame ++
    references castFloat castInt answer ++
    [(.done, doneData castFloat mapFollowUpSuggestions answer)]

def tokenTexts (frames : List Frame) : List Text :=
  frames.filterMap fun
    | (.token, data) => (field data "d").map (castText castFloat)
    | _ => none

end Frames

structure Observer where
  outcome : Text := "incomplete".toList
  usage : Option Json := none
  model : Option Text := none
  answerChars : Nat := 0

def utf8 (letters : Text) : Bytes :=
  letters.flatMap String.utf8EncodeChar

def decodeUtf8 (bytes : Bytes) : Option Text :=
  bytes.toByteArray.utf8Decode?.map Array.toList

def trimBytes : Bytes → Bytes :=
  trimWith fun byte => isTrimmed byte.toNat

/-- The event's name and the lines of its data, once a line is read. -/
def readLine (seen : Option Bytes × List Bytes) (line : Bytes) : Option Bytes × List Bytes :=
  if (utf8 "event:".toList).isPrefixOf line then (some (trimBytes (line.drop 6)), seen.2)
  else if (utf8 "data:".toList).isPrefixOf line then
    (seen.1, seen.2 ++ [trimBytes (line.drop 5)])
  else seen

section Observing

variable (castFloat : String → Text) (floatOf : String → Json)

def observe (state : Observer) (name : Bytes) (decoded : Option Json) : Observer :=
  let find := fun key => decoded.bind (field · key)
  if name = utf8 "token".toList then
    { state with answerChars :=
        state.answerChars + ((find "d").map (castText castFloat)).elim 0 length }
  else if name = utf8 "done".toList ∧ decoded.any isArray then
    { state with outcome := "done".toList, model := (find "model").map (castText castFloat),
                 usage := (find "usage").filter isArray }
  else if name = utf8 "error".toList then
    { state with outcome :=
        "error:".toList ++ ((find "error").map (castText castFloat)).getD "unknown".toList }
  else state

/-- `json_decode` on what is encoded, of 512 levels. -/
def jsonDecode (bytes : Bytes) : Option Json :=
  (decodeUtf8 bytes).bind fun letters => (loads floatOf 512 (String.ofList letters)).toOption

def processFrame (state : Observer) (block : Bytes) : Observer :=
  -- Trimming the end as well would leave a first colon.
  if (block.dropWhile fun byte => isTrimmed byte.toNat).head? = some 58 then state
  else
    match (block.splitOn 10).foldl readLine (none, []) with
    | (some name, line :: lines) =>
      observe castFloat state name (jsonDecode floatOf ([10].intercalate (line :: lines)))
    | _ => state

/-- The observer and the bytes that it keeps, once all chunks are fed. -/
def observed (chunks : List Bytes) : Observer × Bytes :=
  chunks.foldl (feed 10 (processFrame castFloat floatOf)) ({}, [])

end Observing

def eventLine (name : EventName) : Bytes :=
  utf8 ("event: ".toList ++ name.text.toList)

def dataLine (data : Json) : Bytes :=
  utf8 ("data: ".toList ++ printWith encodeLetter data)

/-- An event, without the two line ends behind it. -/
def event (frame : Frame) : Bytes :=
  eventLine frame.1 ++ 10 :: dataLine frame.2

section Encoding

variable {castFloat : String → Text} {floatOf : String → Json}

theorem spells_encodeLetter : Spells encodeLetter := by
  intro letter rest
  unfold encodeLetter
  split
  case isTrue separator =>
    rcases separator with rfl | rfl
    · show JsonText.readText ('\\' :: 'u' :: '2' :: '0' :: '2' :: '8' :: rest) = _
      rw [JsonText.readText]
      cases JsonText.readText rest <;> rfl
    · show JsonText.readText ('\\' :: 'u' :: '2' :: '0' :: '2' :: '9' :: rest) = _
      rw [JsonText.readText]
      cases JsonText.readText rest <;> rfl
  case isFalse => exact readText_escape letter rest

theorem newline_of_utf8 {letters : Text} (member : 10 ∈ utf8 letters) : '\n' ∈ letters := by
  rcases mem_flatMap.mp member with ⟨letter, isLetter, inside⟩
  have code : letter.val.toNat = 10 := by
    simp only [String.utf8EncodeChar] at inside
    split_ifs at inside <;>
      simp only [mem_cons, not_mem_nil, or_false, ← UInt8.toNat_inj, UInt8.toNat_ofNat',
        UInt8.reduceToNat] at inside <;> omega
  have isNewline : letter = '\n' := Char.toNat_inj.mp code
  exact isNewline ▸ isLetter

theorem decodeUtf8_utf8 (letters : Text) : decodeUtf8 (utf8 letters) = some letters := by
  show (ByteArray.utf8Decode? letters.utf8Encode).map Array.toList = _
  rw [utf8Decode?_utf8Encode]
  rfl

theorem utf8_append (first second : Text) : utf8 (first ++ second) = utf8 first ++ utf8 second :=
  flatMap_append

theorem newline_not_mem_encodeLetter (letter : Char) : '\n' ∉ encodeLetter letter := by
  have short : ∀ entry ∈ shortEscapes, entry.2 ≠ '\n' := by decide
  have digit : ∀ code < 16, Nat.digitChar code ≠ '\n' := by decide
  unfold encodeLetter
  split
  case isTrue separator => rcases separator with rfl | rfl <;> decide
  case isFalse =>
    unfold escape
    cases found : shortEscapes.find? fun entry => entry.1 = letter with
    | some entry => simpa using (short entry (mem_of_find?_eq_some found)).symm
    | none =>
      dsimp only
      split
      case isTrue small =>
        simp [(digit _ (by omega : letter.toNat / 16 < 16)).symm,
          (digit _ (by omega : letter.toNat % 16 < 16)).symm]
      case isFalse large =>
        rw [mem_singleton]
        rintro rfl
        exact large (by decide)

theorem newline_not_mem_spellText (text : String) : '\n' ∉ spellText encodeLetter text := by
  simp [spellText, newline_not_mem_encodeLetter]

theorem newline_not_mem_number {token : List Char}
    (number : ∀ letter ∈ token, isNumberLetter letter = true) : '\n' ∉ token :=
  fun member => absurd (number _ member) (by decide)

mutual

/-- No printed value holds a line end. -/
theorem clear_printWith : ∀ json : Json, Genuine floatOf json → '\n' ∉ printWith encodeLetter json
  | .null, _ | .boolean true, _ | .boolean false, _ => by decide
  | .integer value, _ => newline_not_mem_number (dumpInteger_letters value).2
  | .float _ _, genuine => newline_not_mem_number (floatToken_letters genuine.1).2
  | .text value, _ => newline_not_mem_spellText value
  | .list [], _ | .dict [], _ => by decide
  | .list (item :: items), genuine => by
      simp [printWith, clear_printWith item genuine.1, clear_printItems items genuine.2]
  | .dict ((key, value) :: entries), genuine => by
      simp [printWith, newline_not_mem_spellText, clear_printWith value genuine.2.1,
        clear_printEntries entries genuine.2.2]

theorem clear_printItems : ∀ items : List Json, GenuineItems floatOf items →
    '\n' ∉ printItems encodeLetter items
  | [], _ => by decide
  | item :: items, genuine => by
      simp [printItems, clear_printWith item genuine.1, clear_printItems items genuine.2]

theorem clear_printEntries : ∀ entries : List (String × Json), GenuineEntries floatOf entries →
    '\n' ∉ printEntries encodeLetter entries
  | [], _ => by decide
  | (key, value) :: entries, genuine => by
      simp [printEntries, newline_not_mem_spellText, clear_printWith value genuine.1,
        clear_printEntries entries genuine.2]

end

theorem printEntries_last (entries : List (String × Json)) :
    ∃ front, printEntries encodeLetter entries = front ++ ['\x7d'] := by
  induction entries with
  | nil => exact ⟨[], rfl⟩
  | cons entry entries rest =>
    rcases rest with ⟨front, same⟩
    exact ⟨',' :: (spellText encodeLetter entry.1 ++ ':' :: (printWith encodeLetter entry.2 ++ front)),
      by simp [printEntries, same]⟩

theorem trimBytes_utf8_dict (entries : Entries) :
    trimBytes (32 :: utf8 (printWith encodeLetter (.dict entries))) =
      utf8 (printWith encodeLetter (.dict entries)) := by
  have braced : ∃ inner, printWith encodeLetter (.dict entries) = '\x7b' :: inner ++ ['\x7d'] := by
    cases entries with
    | nil => exact ⟨[], rfl⟩
    | cons entry entries =>
      rcases printEntries_last entries with ⟨front, same⟩
      exact ⟨spellText encodeLetter entry.1 ++ ':' :: (printWith encodeLetter entry.2 ++ front),
        by simp [printWith, same]⟩
  rcases braced with ⟨inner, same⟩
  have bytes : utf8 ('\x7b' :: inner ++ ['\x7d']) = 123 :: utf8 inner ++ [125] := utf8_append _ _
  rw [same, bytes]
  simp [trimBytes, trimWith, isTrimmed]

variable {state : Observer} {frame : Frame}

theorem lines_clear (genuine : Genuine floatOf frame.2) :
    10 ∉ eventLine frame.1 ∧ 10 ∉ dataLine frame.2 := by
  constructor
  · cases frame.1 <;> decide
  · intro member
    rcases mem_append.mp (newline_of_utf8 member) with label | value
    · exact absurd label (by decide)
    · exact clear_printWith _ genuine value

theorem isBlock_event (genuine : Genuine floatOf frame.2) : IsBlock 10 (event frame) :=
  isBlock_lines (lines_clear genuine).1 (lines_clear genuine).2 (by simp [dataLine, utf8])

theorem processFrame_event (genuine : Genuine floatOf frame.2) :
    processFrame castFloat floatOf state (event frame) = observe castFloat state (utf8 frame.1.text.toList)
      (jsonDecode floatOf (trimBytes (32 :: utf8 (printWith encodeLetter frame.2)))) := by
  rcases lines_clear genuine with ⟨first, second⟩
  have lines : (event frame).splitOn 10 = [eventLine frame.1, dataLine frame.2] := by
    rw [splitOn_eq_splitOnP, event, splitOnP_append_cons_of_forall_mem, splitOnP_eq_singleton]
    · exact fun byte member => beq_eq_false_iff_ne.mpr fun same => second (same ▸ member)
    · exact fun byte member => beq_eq_false_iff_ne.mpr fun same => first (same ▸ member)
    · rfl
  have name : readLine (none, []) (eventLine frame.1) =
      (some (utf8 frame.1.text.toList), []) := by
    cases frame.1 <;> decide
  have data : readLine (some (utf8 frame.1.text.toList), []) (dataLine frame.2) =
      (some (utf8 frame.1.text.toList),
        [trimBytes (32 :: utf8 (printWith encodeLetter frame.2))]) := by
    rw [dataLine, utf8_append]
    rfl
  have opens : ((event frame).dropWhile fun byte => isTrimmed byte.toNat).head? = some 101 := by
    rw [event, eventLine, utf8_append]
    rfl
  rw [processFrame, opens, if_neg (by decide), lines, foldl_cons, name, foldl_cons, data]
  simp [intercalate]

theorem processFrame_dict {name : EventName} {entries : Entries}
    (printable : Printable floatOf (.dict entries)) (shallow : depth (.dict entries) ≤ 512) :
    processFrame castFloat floatOf state (event (name, .dict entries)) =
      observe castFloat state (utf8 name.text.toList) (some (.dict entries)) := by
  rw [processFrame_event printable.genuine, trimBytes_utf8_dict, jsonDecode, decodeUtf8_utf8,
    Option.bind_some, loads_printWith spells_encodeLetter printable shallow]
  rfl

/-- The observer takes something from the frames of that name. -/
def isObserved : EventName → Bool
  | .token | .done => true
  | _ => false

theorem observe_other (other : isObserved frame.1 = false) (decoded : Option Json) :
    observe castFloat state (utf8 frame.1.text.toList) decoded = state := by
  have names : ∀ name : EventName, isObserved name = false → utf8 name.text.toList ∉
      [utf8 "token".toList, utf8 "done".toList, utf8 "error".toList] := by
    intro name
    cases name <;> decide
  have apart := names frame.1 other
  simp only [mem_cons, not_mem_nil, or_false, not_or] at apart
  rw [observe, if_neg apart.1, if_neg fun both => apart.2.1 both.1, if_neg apart.2.2]

theorem foldl_others {frames : List Frame}
    (each : ∀ frame ∈ frames, isObserved frame.1 = false ∧ Genuine floatOf frame.2) :
    (frames.map event).foldl (processFrame castFloat floatOf) state = state := by
  induction frames with
  | nil => rfl
  | cons frame frames later =>
    rcases forall_mem_cons.mp each with ⟨⟨other, genuine⟩, others⟩
    rw [map_cons, foldl_cons, processFrame_event genuine, observe_other other, later others]

theorem castText_textJson (text : Text) : castText castFloat (textJson text) = text :=
  String.toList_ofList

theorem field_textJson (entries : Entries) (key : String) (text : Text) :
    field (.dict ((key, textJson text) :: entries)) key = some (textJson text) := by
  rw [field, lookup_cons_self]
  rfl

theorem observe_token (chunk : Text) :
    observe castFloat state (utf8 EventName.token.text.toList) (some (tokenFrame chunk).2) =
      { state with answerChars := state.answerChars + chunk.length } := by
  rw [observe, if_pos (show utf8 EventName.token.text.toList = utf8 "token".toList from rfl)]
  dsimp only [Option.bind_some, tokenFrame]
  rw [field_textJson, Option.map_some, castText_textJson]
  rfl

theorem foldl_tokens (chunks : List Text) :
    ((chunks.map tokenFrame).map event).foldl (processFrame castFloat floatOf) state =
      { state with answerChars := state.answerChars + chunks.flatten.length } := by
  induction chunks generalizing state with
  | nil => rfl
  | cons chunk chunks later =>
    have printable : Printable floatOf (tokenFrame chunk).2 :=
      ⟨rfl, nodup_singleton _, trivial, trivial⟩
    have read : processFrame castFloat floatOf state (event (tokenFrame chunk)) =
        observe castFloat state (utf8 EventName.token.text.toList) (some (tokenFrame chunk).2) :=
      processFrame_dict printable (show 1 ≤ 512 by decide)
    rw [map_cons, map_cons, foldl_cons, read, observe_token, later, flatten_cons, length_append,
      Nat.add_assoc]

theorem flatten_chunkAnswer (isSpace : Char → Bool) (text : Text) :
    (chunkAnswer isSpace text).flatten = text := by
  have keeps : ∀ (limit : Nat) (pieces : List Text) (filling : Filling),
      (pieces.foldl (addPiece limit) filling).1.flatten ++
          (pieces.foldl (addPiece limit) filling).2.1 =
        filling.1.flatten ++ filling.2.1 ++ pieces.flatten := by
    intro limit pieces
    induction pieces with
    | nil => simp
    | cons piece pieces later =>
      intro filling
      rw [foldl_cons, later, addPiece]
      split <;> simp
  have whole : ∀ filled : Filling,
      (filled.1 ++ if filled.2.1 = [] then [] else [filled.2.1]).flatten =
        filled.1.flatten ++ filled.2.1 := by
    intro filled
    split
    case isTrue empty => rw [empty, append_nil, append_nil]
    case isFalse => rw [flatten_append, flatten_singleton]
  rw [chunkAnswer, whole, keeps, flatten_splitBy]
  rfl

theorem observe_done (mapFollowUpSuggestions : Option Json → List String) (answer : Json) :
    let seen := observe castFloat state (utf8 EventName.done.text.toList)
      (some (doneData castFloat mapFollowUpSuggestions answer))
    seen.outcome = "done".toList ∧
      seen.model = some (textField castFloat answer "model" "default") ∧
      seen.answerChars = state.answerChars := by
  have other : utf8 EventName.done.text.toList ≠ utf8 "token".toList := by decide
  rw [observe, if_neg other, if_pos ⟨rfl, rfl⟩]
  refine ⟨rfl, ?_, rfl⟩
  dsimp only [Option.bind_some, doneData, cons_append]
  rw [field_textJson, Option.map_some, castText_textJson]

theorem others_opening (answer : Json) :
    ∀ frame ∈ opening castFloat answer, isObserved frame.1 = false := by
  unfold opening
  split
  case isTrue => decide
  case isFalse => decide

theorem others_references (castInt : Json → Int) (answer : Json) :
    ∀ frame ∈ references castFloat castInt answer, isObserved frame.1 = false := by
  intro frame member
  unfold references at member
  rcases mem_append.mp member with before | behind
  · rcases mem_append.mp before with listed | cited
    · split at listed
      · cases listed
      · cases mem_singleton.mp listed
        rfl
    · cases mem_singleton.mp cited
      rfl
  · rcases mem_map.mp behind with ⟨shown, _, rfl⟩
    rfl

theorem tokenTexts_append (first second : List Frame) : tokenTexts castFloat (first ++ second) =
    tokenTexts castFloat first ++ tokenTexts castFloat second :=
  filterMap_append

theorem tokenTexts_others {frames : List Frame}
    (each : ∀ frame ∈ frames, isObserved frame.1 = false) : tokenTexts castFloat frames = [] := by
  apply filterMap_eq_nil_iff.mpr
  rintro ⟨name, data⟩ member
  cases name with
  | token => cases each _ member
  | status | sources | citations | sqlProvenance | done => rfl

theorem tokenTexts_tokens (chunks : List Text) :
    tokenTexts castFloat (chunks.map tokenFrame) = chunks := by
  induction chunks with
  | nil => rfl
  | cons chunk chunks later =>
    refine (filterMap_cons_some (b := chunk) ?_).trans (congrArg _ later)
    show (field (.dict [("d", textJson chunk)]) "d").map (castText castFloat) = some chunk
    rw [field_textJson, Option.map_some, castText_textJson]

end Encoding

section Sent

variable (castFloat : String → Text) (floatOf : String → Json) (isSpace : Char → Bool)
  (castInt : Json → Int) (mapFollowUpSuggestions : Option Json → List String)

/-- An answer with frames that `json_encode` does not refuse, and floats that read back. -/
structure SentAnswer where
  answer : Json
  encoded : ∀ frame ∈ framesForAnswer castFloat isSpace castInt mapFollowUpSuggestions answer,
    Printable floatOf frame.2 ∧ depth frame.2 ≤ 512

variable {castFloat floatOf isSpace castInt mapFollowUpSuggestions}
  (sent : SentAnswer castFloat floatOf isSpace castInt mapFollowUpSuggestions)

def SentAnswer.frames : List Frame :=
  framesForAnswer castFloat isSpace castInt mapFollowUpSuggestions sent.answer

/-- The bytes of the frames, as the network cuts them. -/
structure Cutting where
  chunks : List Bytes
  whole : chunks.flatten = sent.frames.flatMap fun frame => event frame ++ [10, 10]

theorem foldl_frames : ∃ last : Observer,
    (sent.frames.map event).foldl (processFrame castFloat floatOf) {} =
      observe castFloat last (utf8 EventName.done.text.toList)
        (some (doneData castFloat mapFollowUpSuggestions sent.answer)) ∧
    last.answerChars = (strippedText castFloat sent.answer).length := by
  have ⟨front, ends⟩ := forall_mem_append.mp sent.encoded
  have ⟨middle, behind⟩ := forall_mem_append.mp front
  have ⟨before, _⟩ := forall_mem_append.mp middle
  have starts := fun frame member => And.intro
    (@others_opening castFloat sent.answer frame member) (before frame member).1.genuine
  have refers := fun frame member => And.intro
    (@others_references castFloat castInt sent.answer frame member)
    (behind frame member).1.genuine
  have ⟨printable, shallow⟩ := ends _ mem_cons_self
  refine ⟨{ answerChars := 0 + (strippedText castFloat sent.answer).length }, ?_, Nat.zero_add _⟩
  rw [SentAnswer.frames, framesForAnswer, map_append, map_append, map_append, foldl_append,
    foldl_append, foldl_append, foldl_others starts, foldl_tokens, flatten_chunkAnswer,
    foldl_others refers]
  exact processFrame_dict printable shallow

end Sent

end McpAssistant.Billing.AnswerFrames
