import McpAssistant.BusinessQuery.DecodingFaults
import McpAssistant.BusinessQuery.DetailOwnership
import McpAssistant.BusinessQuery.EventMetadata

/-!
# Resolving stored events

A sealed event resolves, under an allowed access before its retention end, to
what was sealed; as an equal event, where none of its decimals is the one that
is equal to nothing.  Any change of its record resolves to the sealed event, to a
resolution error, or to an exception that the decoder does not catch, and which
of these is read off the changed record.
-/

namespace McpAssistant.BusinessQuery.ResolvedEvents

open Foundations.Fallible Foundations.JsonReading Foundations.JsonText
  Foundations.PrintedValues
open EvidenceSealing (EventValueKind ResultMember)
open ExecutionEvents SealedEvents DecodingFaults

variable {Key Bytes : Type} {lib : Libraries Key Bytes}

def EqualCells : Cell → Cell → Prop
  | .decimal first, .decimal second => equalDecimals first second = true
  | first, second => first = second

def EqualRows (first second : ResultRow) : Prop :=
  List.Forall₂ (fun entry other => entry.1 = other.1 ∧ EqualCells entry.2 other.2)
    first.cells second.cells

structure EqualEvents (first second : ExecutionEvent) : Prop where
  fields : first.fields = second.fields
  rows : List.Forall₂ EqualRows first.resultRows second.resultRows
  integrityDigest : first.integrityDigest = second.integrityDigest

def Cell.IsNan : Cell → Prop
  | .decimal printed => isNan printed = true
  | _ => False

theorem equalCells_self {cell : Cell} (canonical : Canonical cell) :
    EqualCells cell cell ↔ ¬ Cell.IsNan cell := by
  cases cell with
  | decimal printed =>
    show equalDecimals printed printed = true ↔ _
    rw [equalDecimals_self canonical, Bool.not_eq_true', Cell.IsNan, Bool.not_eq_true]
  | _ => exact iff_of_true rfl id

variable {event : ExecutionEvent}

theorem equalEvents_self
    (canonical : ∀ row ∈ event.resultRows, ∀ entry ∈ row.cells, Canonical entry.2) :
    EqualEvents event event ↔ ∀ entry ∈ allCells event.resultRows, ¬ Cell.IsNan entry.2 := by
  have rows : List.Forall₂ EqualRows event.resultRows event.resultRows ↔
      ∀ entry ∈ allCells event.resultRows, ¬ Cell.IsNan entry.2 := by
    simp only [EqualRows, List.forall₂_same, true_and, allCells, List.mem_flatMap]
    constructor
    · rintro equal entry ⟨row, isRow, isCell⟩
      exact (equalCells_self (canonical row isRow entry isCell)).mp (equal row isRow entry isCell)
    · intro numbers row isRow entry isCell
      exact (equalCells_self (canonical row isRow entry isCell)).mpr
        (numbers entry ⟨row, isRow, isCell⟩)
  constructor
  · exact fun equal => rows.mp equal.rows
  · exact fun numbers => ⟨rfl, rows.mpr numbers, rfl⟩

def IsResolution (raised : Raised) : Prop :=
  ∃ message, raised = .resolution message

theorem failsOnly_refuseWhen (refused : Bool) (message : String) :
    FailsOnly IsResolution (refuseWhen refused message) := by
  cases refused with
  | false => exact failsOnly_ok
  | true => exact failsOnly_error.mpr ⟨message, rfl⟩

theorem refuseWhen_eq_ok {refused : Bool} {message : String} {done : Unit} :
    refuseWhen refused message = .ok done ↔ refused = false := by
  unfold refuseWhen
  cases refused <;> simp

theorem failsOnly_isExpired (retentionAt : Column Bytes) (now : Stamp) :
    FailsOnly IsResolution (isExpired retentionAt now) ↔ Comparable retentionAt now := by
  have typeError {Value : Type} : ¬ FailsOnly IsResolution
      (.error .typeError : Except Raised Value) := by
    intro only
    obtain ⟨_, resolution⟩ := failsOnly_error.mp only
    cases resolution
  cases retentionAt with
  | stamp retentionAt =>
    cases retentionAt <;> cases now <;>
      first
        | exact iff_of_true failsOnly_ok trivial
        | exact iff_of_false typeError id
  | _ => exact iff_of_false typeError id

/-- What opens the record behind the decoder's checks. -/
def caughtOpen (lib : Libraries Key Bytes) (keyring : EventEncryptionKeyring Key)
    (record : StoredExecutionEvent Bytes) : Except Raised ExecutionEvent :=
  match openEvent lib keyring record with
  | .ok event => .ok event
  | .error raised => .error (if raised.caught then resolutionOf raised else raised)

section Decoding

variable {keyring : EventEncryptionKeyring Key} {nonce : Bytes}
  {draft : EventFields} {rows : List ResultRow} {event : ExecutionEvent}
  {stored record : StoredExecutionEvent Bytes}

theorem resolutionOf_isResolution (raised : Raised) : IsResolution (resolutionOf raised) := by
  cases raised <;> exact ⟨_, rfl⟩

theorem failsOnly_caughtOpen : FailsOnly IsResolution (caughtOpen lib keyring record) ↔
      FailsOnly Refuses (openEvent lib keyring record) := by
  unfold caughtOpen
  cases openEvent lib keyring record with
  | ok event => exact iff_of_true failsOnly_ok failsOnly_ok
  | error raised =>
    show FailsOnly _ (.error _) ↔ _
    rw [failsOnly_error, failsOnly_error]
    split
    · rename_i caught
      exact iff_of_true (resolutionOf_isResolution raised) (.inl caught)
    · rename_i uncaught
      exact ⟨.inr, fun refuses => refuses.resolve_left uncaught⟩

variable {found : ExecutionEvent}

theorem caughtOpen_eq_ok : caughtOpen lib keyring record = .ok found ↔
      openEvent lib keyring record = .ok found := by
  unfold caughtOpen
  cases openEvent lib keyring record <;> simp

theorem decodeEvent_eq (access : EventAccessContext) (now : Stamp) :
    decodeEvent lib record (some keyring) access now = (do
      refuseWhen (!record.projectId.isText access.projectId ||
          !purposeAllowed record.payloadClassification access.purpose)
        "execution event not accessible"
      refuseWhen (!record.tombstonedAt.isNone) "execution event tombstoned"
      refuseWhen (← isExpired record.retentionAt now) "execution event expired"
      refuseWhen (record.payloadCiphertext.isNone || record.payloadNonce.isNone ||
        record.payloadKeyVersion.isNone) "execution event payload unavailable"
      caughtOpen lib keyring record) := rfl

variable {access : EventAccessContext}

theorem opened_of_decoded {now : Stamp}
    (decoded : decodeEvent lib record (some keyring) access now = .ok found) :
    openEvent lib keyring record = .ok found := by
  rw [decodeEvent_eq] at decoded
  simp only [bind_eq_ok] at decoded
  obtain ⟨_, _, _, _, _, _, _, _, _, _, opened⟩ := decoded
  exact caughtOpen_eq_ok.mp opened

theorem failsOnly_decodeEvent (lawful : Lawful lib)
    (sealing : Sealing lib keyring nonce draft rows event stored)
    (changed : Changed lib keyring stored record) (access : EventAccessContext)
    (now : Stamp) :
    FailsOnly IsResolution (decodeEvent lib record (some keyring) access now) ↔
      Shaped lib keyring stored event access now record := by
  rw [decodeEvent_eq]
  simp only [failsOnly_bind, failsOnly_refuseWhen, true_and, refuseWhen_eq_ok,
    Bool.or_eq_false_iff, Bool.not_eq_false', failsOnly_caughtOpen,
    failsOnly_openEvent lawful sealing changed, failsOnly_isExpired, and_imp]
  constructor
  · intro only isProject allowed isNone
    have ⟨comparable, rest⟩ := only () isProject allowed () isNone
    exact ⟨comparable, fun current ciphertext nonce version =>
      rest false current () rfl () ciphertext nonce version⟩
  · intro shaped _ isProject allowed _ isNone
    have ⟨comparable, rest⟩ := shaped isProject allowed isNone
    refine ⟨comparable, fun expired current _ isCurrent _ ciphertext nonce version => ?_⟩
    rw [isCurrent] at current
    exact rest current ciphertext nonce version

theorem decodeEvent_stored (lawful : Lawful lib)
    (sealing : Sealing lib keyring nonce draft rows event stored)
    {now : Stamp}
    (isProject : access.projectId = event.fields.projectId)
    (allowed : purposeAllowed stored.payloadClassification access.purpose = true)
    (current : now.precedes event.fields.retentionAt = .ok true) :
    decodeEvent lib stored (some keyring) access now = .ok event := by
  obtain ⟨_, _, _, _, columns⟩ := sealing.columns
  rw [decodeEvent_eq]
  simp only [bind_eq_ok, refuseWhen_eq_ok, Bool.or_eq_false_iff,
    Bool.not_eq_false', caughtOpen_eq_ok]
  refine ⟨(), ⟨?_, allowed⟩, (), ?_, false, ?_, (), rfl, (), ?_, openEvent_stored lawful sealing⟩
  · rw [columns.columns, isProject]
    exact decide_eq_true rfl
  · rw [columns.columns]
    rfl
  · rw [columns.columns]
    show (now.precedes event.fields.retentionAt).map (!·) = _
    rw [current]
    rfl
  · rw [columns.columns]
    exact ⟨⟨rfl, rfl⟩, rfl⟩

/-- A sealed event resolves to an equal one exactly when every decimal of it is a
number, and a changed record resolves to the event or is refused exactly when it
has the shape of a record up to its first fault. -/
theorem decodeEvent_faithful_iff (lawful : Lawful lib)
    (sealing : Sealing lib keyring nonce draft rows event stored) :
    (∀ (access : EventAccessContext) (now : Stamp), access.projectId = event.fields.projectId →
        purposeAllowed stored.payloadClassification access.purpose = true →
          now.precedes event.fields.retentionAt = .ok true →
            ((∃ decoded, decodeEvent lib stored (some keyring) access now =
                .ok decoded ∧ EqualEvents decoded event) ↔
              ∀ entry ∈ allCells event.resultRows, ¬ Cell.IsNan entry.2)) ∧
    ∀ record : StoredExecutionEvent Bytes, Changed lib keyring stored record →
      ∀ (access : EventAccessContext) (now : Stamp),
        ((decodeEvent lib record (some keyring) access now = .ok event ∨
            ∃ message, decodeEvent lib record (some keyring) access now =
              .error (.resolution message)) ↔
          Shaped lib keyring stored event access now record) := by
  constructor
  · intro access now isProject allowed current
    have decodes := decodeEvent_stored lawful sealing isProject allowed current
    have canonical := sealing.canonical
    rw [← sealing.created_fields.2.2] at canonical
    rw [← equalEvents_self canonical, decodes]
    constructor
    · rintro ⟨decoded, same, equal⟩
      cases same
      exact equal
    · exact fun equal => ⟨event, rfl, equal⟩
  · intro record changed access now
    rw [← failsOnly_decodeEvent lawful sealing changed]
    cases decoded : decodeEvent lib record (some keyring) access now with
    | ok found =>
      have same := openEvent_eq lawful sealing changed (opened_of_decoded decoded)
      rw [same]
      exact iff_of_true (.inl rfl) failsOnly_ok
    | error raised =>
      rw [failsOnly_error]
      constructor
      · rintro (isOk | ⟨message, same⟩)
        · cases isOk
        · exact ⟨message, Except.error.inj same⟩
      · rintro ⟨message, rfl⟩
        exact .inr ⟨message, rfl⟩

/-- Sealed events with one integrity digest are one event, whatever keys and nonces they
were encrypted with. -/
theorem sealed_eq_of_integrityDigest (lawful : Lawful lib)
    {keyring' : EventEncryptionKeyring Key} {nonce' : Bytes} {draft' : EventFields}
    {rows' : List ResultRow} {stored' : StoredExecutionEvent Bytes}
    (first : Sealing lib keyring nonce draft rows event stored)
    (second : Sealing lib keyring' nonce' draft' rows' found stored')
    (same : event.integrityDigest = found.integrityDigest) : event = found := by
  obtain ⟨bounded, floats, _⟩ := first.created_fields
  exact eq_of_digested lawful second bounded floats same first.digested.1

end Decoding

/-- Bytes as what they are made of: a text, or what was encrypted. -/
inductive Sealed where
  | text (value : String)
  | box (key : String) (nonce plaintext associated : Sealed)
deriving DecidableEq

def openSealed (key : String) (nonce ciphertext associated : Sealed) : Except Raised Sealed :=
  match ciphertext with
  | .text _ => .error .invalidTag
  | .box ownKey ownNonce plaintext ownAssociated =>
    if ownKey = key ∧ ownNonce = nonce ∧ ownAssociated = associated then
      .ok plaintext
    else .error .invalidTag

def kindOf (name : String) : Option EventValueKind :=
  [.null, .boolean, .integer, .decimal, .percent, .currency, .string, .date,
    .datetime].find? fun kind => kindName kind = name

def readSortedMember (entries : Entries) : Except String ResultMember :=
  match entries with
  | [("name", .text name), ("nullable", .boolean nullable),
      ("value_kind", .text kind)] =>
      match kindOf kind with
      | none => .error "Input should be a value kind"
      | some valueKind =>
        if named : EvidenceSealing.fits name 1 128 = true then
          .ok { name, valueKind, nullable, named }
        else .error "String should have at most 128 characters"
  | _ => .error "Field required"

def stampMark : Stamp → String
  | .aware instant => "@" ++ instant.repr
  | .naive clock => "~" ++ clock.repr

def symbolic : Libraries String Sealed where
  utf8 := .text
  decode
    | .text value => some value
    | .box .. => none
  sha256
    | .text value => value
    | .box .. => ""
  encrypt := .box
  decrypt := openSealed
  floatOf := .float 0
  recursionLimit := 1000
  stampString := stampMark
  bytesString _ := "b''"
  stampText := stampMark
  readMember := readSortedMember
  readFields _ := .error "Field required"

structure SpelledOut (entries : Entries) (fields : EventFields) : Prop where
  bounded : fields.bounded = true
  floats : GenuineFloats symbolic.floatOf fields
  details : detailEvidenceDigest symbolic fields.detailEvidence = .ok fields.detailEvidenceDigest
  spelled : sortedEntries (fields.metadata stampMark) = entries

open Classical in
noncomputable def symbolicLibraries : Libraries String Sealed :=
  { symbolic with
    readFields := fun entries =>
      if spelled : ∃ fields, SpelledOut entries fields then .ok spelled.choose
      else .error "Field required" }

theorem stampMark_injective : Function.Injective stampMark := by
  intro first second same
  have letters := congrArg String.toList same
  cases first <;> cases second <;>
    simp [stampMark] at letters <;>
      exact congrArg _ (Int.repr_injective (String.toList_injective letters))

theorem readSortedMember_dump (member : ResultMember) :
    readSortedMember (sortedEntries (dumpMember member)) = .ok member := by
  have kind : kindOf (kindName member.valueKind) = some member.valueKind := by
    cases member.valueKind <;> decide +kernel
  have sorted : sortedEntries (dumpMember member) = [
      ("name", .text member.name), ("nullable", .boolean member.nullable),
      ("value_kind", .text (kindName member.valueKind))] := by
    have order : "name" ≤ "value_kind" ∧ "name" ≤ "nullable" ∧
        ¬ "value_kind" ≤ "nullable" := by
      decide +kernel
    simp [sortedEntries, dumpMember, sortValues, sortKeys, List.insertionSort,
      List.orderedInsert, order]
  rw [sorted]
  show (match kindOf (kindName member.valueKind) with
    | none => _
    | some valueKind => _ : Except String ResultMember) = _
  rw [kind]
  exact dif_pos member.named

theorem lawful_symbolicLibraries : Lawful symbolicLibraries where
  decodes _ := rfl
  noCollision _ _ same := same
  opens key nonce plaintext associated := if_pos ⟨rfl, rfl, rfl⟩
  refuses key nonce ciphertext associated raised failed := by
    change openSealed key nonce ciphertext associated = _ at failed
    unfold openSealed at failed
    split at failed
    · cases failed
      rfl
    · split at failed
      · cases failed
      · cases failed
        rfl
  deepEnough := by decide
  readsMember := readSortedMember_dump
  readsFields fields bounded floats details := by
    have spelled : ∃ found, SpelledOut (sortedEntries (fields.metadata stampMark))
        found := ⟨fields, bounded, floats, details, rfl⟩
    have chosen := spelled.choose_spec
    have same : spelled.choose = fields :=
      @EventMetadata.fields_eq_of_metadata _ _ symbolic stampMark_injective _ _
        chosen.details details chosen.spelled
    exact (dif_pos spelled).trans (congrArg Except.ok same)
  readFields_bounded entries fields read := by
    by_cases spelled : ∃ found, SpelledOut entries found
    · have same : spelled.choose = fields :=
        Except.ok.inj ((dif_pos spelled).symm.trans read)
      rw [← same]
      exact ⟨spelled.choose_spec.bounded, spelled.choose_spec.floats⟩
    · have refused := (dif_neg spelled).symm.trans read
      cases refused

def sampleDigest : String := String.ofList (List.replicate 64 'a')

def sampleDraft : EventFields where
  answerQueryId := "answer-1"
  projectId := "erp"
  adapter := "ask"
  backend := "postgres"
  planFingerprint := sampleDigest
  compiledQueryDigest := sampleDigest
  parameterScopeDigest := sampleDigest
  bundleHash := sampleDigest
  manifestHash := sampleDigest
  resultMembers := [
    { name := "invoice_total", valueKind := .currency, named := by decide }]
  resultDigest := ""
  detailEvidenceDigest := ""
  returnedRowCount := 1
  totalRowCount := 1
  truncated := false
  databaseIdentity := "erp@replica"
  startedAt := .aware 0
  finishedAt := .aware 1
  retentionAt := .aware 10
  payloadMode := .encrypted

def sampleRows : List ResultRow :=
  [ResultRow.ofCells [("invoice_total", .decimal "12.50")]]

def sampleKeyring : EventEncryptionKeyring String :=
  { currentVersion := "v1", keys := [("v1", "secret")] }

def sampleAccess : EventAccessContext :=
  { projectId := "erp", purpose := .evaluation }

variable {draft : EventFields} {rows : List ResultRow}

theorem created_draft (created : createEvent lib draft rows = .ok event) :
    ∃ detailEvidenceDigest resultDigest,
      event.fields = { draft with detailEvidenceDigest, resultDigest } ∧
        event.resultRows = rows := by
  simp only [createEvent, bind_eq_ok] at created
  obtain ⟨details, _, _, _, result, _, made⟩ := created
  split at made
  · cases made
  · obtain ⟨_, _, made⟩ := bind_eq_ok.mp made
    cases made
    exact ⟨details, result, rfl, rfl⟩

theorem exists_canonicalJson {payload : Json} (shallow : depth payload ≤ lib.recursionLimit)
    (short : shortIntegers payload = true) :
    ∃ printed, canonicalJson lib payload = .ok printed := by
  refine ⟨lib.utf8 (String.ofList (dumps (sortKeys payload))), map_eq_ok.mpr ?_⟩
  refine ⟨_, ?_, rfl⟩
  rw [canonicalJsonStr, if_neg (Nat.not_lt.mpr shallow), if_pos short]

theorem exists_canonicalDigest {payload : Json} (shallow : depth payload ≤ lib.recursionLimit)
    (short : shortIntegers payload = true) :
    ∃ digest, canonicalDigest lib payload = .ok digest := by
  obtain ⟨printed, isPrinted⟩ := exists_canonicalJson shallow short
  exact ⟨lib.sha256 printed, map_eq_ok.mpr ⟨printed, isPrinted, rfl⟩⟩

theorem digested_of_created (created : createEvent lib draft rows = .ok event) :
    Digested lib event := by
  simp only [createEvent, bind_eq_ok] at created
  obtain ⟨details, isDetails, _, valid, result, isResult, made⟩ := created
  split at made
  · cases made
  · obtain ⟨integrity, isIntegrity, made⟩ := bind_eq_ok.mp made
    cases made
    exact ⟨valid, isResult, isDetails, isIntegrity⟩

theorem exists_aad {record : StoredExecutionEvent Bytes}
    {answerQueryId projectId integrityDigest resultDigest : String}
    (deepEnough : 1 ≤ lib.recursionLimit)
    (isId : record.answerQueryId = .text answerQueryId)
    (isProject : record.projectId = .text projectId)
    (isIntegrity : record.integrityDigest = .text integrityDigest)
    (isResult : record.resultDigest = .text resultDigest) :
    ∃ associated, aad lib record = .ok associated := by
  simp only [aad, isId, isProject, isIntegrity, isResult]
  exact exists_canonicalJson deepEnough rfl

theorem exists_stored {key : Key} {keyring : EventEncryptionKeyring Key} (nonce : Bytes)
    (deepEnough : 1 ≤ lib.recursionLimit) (digested : Digested lib event)
    (counts : validateCounts event.fields event.resultRows.length = .ok ())
    (encrypted : event.fields.payloadMode = .encrypted)
    (isKey : keyFor keyring (.text keyring.currentVersion : Column Bytes) = .ok key) :
    ∃ stored, encodeEvent lib (some keyring) nonce event = .ok stored := by
  obtain ⟨metadata, isMetadata, _⟩ := map_eq_ok.mp digested.integrity
  obtain ⟨payload, isPayload, _⟩ := map_eq_ok.mp digested.result
  have valid : validateIntegrity lib event = .ok () :=
    bind_eq_ok.mpr ⟨(), validateDigests_eq_ok.mpr digested, counts⟩
  rw [encodeEvent, valid, isMetadata, encrypted]
  obtain ⟨associated, isAssociated⟩ := @exists_aad _ _ lib {
      answerQueryId := .text event.fields.answerQueryId
      projectId := .text event.fields.projectId
      payloadClassification := .text event.fields.payloadClassification.name
      metadataJson := .bytes metadata
      integrityDigest := .text event.integrityDigest
      resultDigest := .text event.fields.resultDigest
      retentionAt := .stamp event.fields.retentionAt }
    _ _ _ _ deepEnough rfl rfl rfl rfl
  refine ⟨_, bind_eq_ok.mpr ⟨(), rfl, bind_eq_ok.mpr ⟨metadata, rfl,
    bind_eq_ok.mpr ⟨payload, isPayload, bind_eq_ok.mpr ⟨associated, isAssociated,
      bind_eq_ok.mpr ⟨key, isKey, rfl⟩⟩⟩⟩⟩⟩

theorem exists_sampleCreated : ∃ event,
    createEvent symbolicLibraries sampleDraft sampleRows = .ok event := by
  obtain ⟨details, isDetails⟩ := @exists_canonicalDigest _ _ symbolicLibraries
    (detailsJson []) (by decide) rfl
  obtain ⟨result, isResult⟩ := @exists_canonicalDigest _ _ symbolicLibraries
    (rowsJson sampleRows) (by decide) rfl
  have valid : validateResultRows sampleDraft.resultMembers sampleRows = .ok () := by
    rfl
  have bounded : sampleDraft.bounded = true := by
    simp only [EventFields.bounded, sampleDraft]
    decide
  let fields : EventFields :=
    { sampleDraft with detailEvidenceDigest := details, resultDigest := result }
  have short : shortIntegers (.dict (fields.metadata stampMark)) = true := by
    have oneDigit : (Nat.toDigits 10 1).length ≤ 4300 := by decide
    have all : ∀ entry ∈ fields.dump stampMark, shortIntegers entry.2 = true := by
      simp only [fields, EventFields.dump, sampleDraft, List.forall_mem_cons]
      simp [shortIntegers, shortItems, shortEntries, optionalText, optionalCount,
        optionalMs, detailsJson, dumpMember, maxDigits, oneDigit]
    apply shortEntries_iff.mpr
    intro entry member
    exact all entry (List.mem_filter.mp member).1
  obtain ⟨integrity, isIntegrity⟩ := @exists_canonicalDigest _ _ symbolicLibraries
    _ (le_trans (depth_metadata stampMark fields) (by decide)) short
  refine ⟨⟨fields, sampleRows, integrity⟩, ?_⟩
  simp only [createEvent, bind_eq_ok]
  refine ⟨details, isDetails, (), valid, result, isResult, ?_⟩
  rw [if_neg]
  · exact bind_eq_ok.mpr ⟨integrity, isIntegrity, rfl⟩
  · show ¬ (!sampleDraft.bounded) = true
    rw [bounded]
    decide

theorem readDecimal_sample : readDecimal "12.50" = some (.finite false 1250 (-2)) := by
  decide +kernel

theorem exists_sampleSealing : ∃ event stored,
    Sealing symbolicLibraries sampleKeyring (.text "nonce") sampleDraft sampleRows
      event stored := by
  obtain ⟨event, created⟩ := exists_sampleCreated
  obtain ⟨_, _, fields, sameRows⟩ := created_draft created
  have counts : validateCounts event.fields event.resultRows.length = .ok () := by
    rw [fields, sameRows]
    rfl
  have encrypted : event.fields.payloadMode = .encrypted := by
    rw [fields]
    rfl
  obtain ⟨stored, encoded⟩ := exists_stored (.text "nonce") (by decide)
    (digested_of_created created) counts encrypted
    (show keyFor sampleKeyring _ = .ok "secret" from rfl)
  refine ⟨event, stored, ⟨?_, ?_, created, encrypted, encoded⟩⟩
  · intro row isRow entry isCell
    rw [List.mem_singleton.mp isRow] at isCell
    rw [List.mem_singleton.mp isCell]
    show decimalText "12.50" = some "12.50"
    rw [decimalText, readDecimal_sample]
    rfl
  · simp [GenuineFloats, GenuineMs, sampleDraft, optionalMs, Genuine]

/-- The record with metadata that name nothing. -/
def emptied (stored : StoredExecutionEvent Sealed) : StoredExecutionEvent Sealed :=
  { stored with metadataJson := .bytes (.text "\x7b\x7d") }

theorem sealed_eq_of_integrityDigest_sample : ∃ event, ∀ found stored,
    Sealing symbolicLibraries sampleKeyring (.text "nonce") sampleDraft sampleRows found stored →
      found.integrityDigest = event.integrityDigest → found = event := by
  obtain ⟨event, stored, sealing⟩ := exists_sampleSealing
  exact ⟨event, fun _ _ other same =>
    sealed_eq_of_integrityDigest lawful_symbolicLibraries other sealing same⟩

section Emptied

variable {event : ExecutionEvent} {stored : StoredExecutionEvent Sealed}

theorem samePayload_emptied (keyring : EventEncryptionKeyring String) :
    SamePayload symbolicLibraries keyring stored (emptied stored) :=
  ⟨rfl, rfl, rfl, rfl⟩

theorem changed_emptied
    (sealing : Sealing symbolicLibraries sampleKeyring (.text "nonce") sampleDraft
      sampleRows event stored) :
    Changed symbolicLibraries sampleKeyring stored (emptied stored) := by
  refine ⟨fun _ _ => samePayload_emptied sampleKeyring, ?_⟩
  obtain ⟨_, _, _, _, columns⟩ := sealing.columns
  rw [columns.columns]
  exact ⟨trivial, trivial, trivial, trivial⟩

end Emptied

/-- An invoice total resolves to what was sealed, and whether its record without
metadata is refused depends on its shape. -/
theorem decodeEvent_faithful_invoice : ∃ event stored,
    (∃ decoded, decodeEvent symbolicLibraries stored (some sampleKeyring)
        sampleAccess (.aware 5) = .ok decoded ∧ EqualEvents decoded event) ∧
      ((decodeEvent symbolicLibraries (emptied stored) (some sampleKeyring)
            sampleAccess (.aware 5) = .ok event ∨
          ∃ message, decodeEvent symbolicLibraries (emptied stored)
            (some sampleKeyring) sampleAccess (.aware 5) = .error (.resolution message)) ↔
        Shaped symbolicLibraries sampleKeyring stored event sampleAccess (.aware 5)
          (emptied stored)) := by
  obtain ⟨event, stored, sealing⟩ := exists_sampleSealing
  obtain ⟨_, _, fields, _⟩ := created_draft sealing.created
  obtain ⟨_, _, _, _, columns⟩ := sealing.columns
  have ⟨resolves, refused⟩ :=
    decodeEvent_faithful_iff lawful_symbolicLibraries sealing
  refine ⟨event, stored, ?_, refused _ (changed_emptied sealing) _ _⟩
  apply (resolves sampleAccess (.aware 5) ?_ ?_ ?_).mpr
  · rw [sealing.created_fields.2.2]
    intro entry member
    rw [List.mem_singleton.mp member]
    show ¬ isNan "12.50" = true
    rw [isNan, readDecimal_sample]
    exact Bool.false_ne_true
  · rw [fields]
    rfl
  · rw [columns.columns, fields]
    rfl
  · rw [fields]
    rfl

/-- Without metadata a sealed record is neither resolved nor refused: the decoder
lets the missing key through. -/
theorem not_decodeEvent_faithful : ∃ event stored,
    Sealing symbolicLibraries sampleKeyring (.text "nonce") sampleDraft sampleRows
        event stored ∧
      Changed symbolicLibraries sampleKeyring stored (emptied stored) ∧
        ¬ (decodeEvent symbolicLibraries (emptied stored) (some sampleKeyring)
              sampleAccess (.aware 5) = .ok event ∨
            ∃ message, decodeEvent symbolicLibraries (emptied stored)
              (some sampleKeyring) sampleAccess (.aware 5) = .error (.resolution message)) := by
  obtain ⟨event, stored, sealing⟩ := exists_sampleSealing
  obtain ⟨_, _, fields, _⟩ := created_draft sealing.created
  obtain ⟨_, payload, _, _, columns⟩ := sealing.columns
  refine ⟨event, stored, sealing, changed_emptied sealing, ?_⟩
  have missing : decodeEvent symbolicLibraries (emptied stored)
      (some sampleKeyring) sampleAccess (.aware 5) =
        .error (.keyError "result_members") := by
    have opened : openEvent symbolicLibraries sampleKeyring (emptied stored) =
        .error (.keyError "result_members") := by
      have ⟨genuine, sorted⟩ := genuine_rowsJson
        (typed_of_valid sealing.digested.1.rows) symbolicLibraries.floatOf
      have rowsRead :=
        loadBytes_canonicalJson lawful_symbolicLibraries genuine columns.isPayload
      rw [openEvent, decryptPayload_of_same (samePayload_emptied sampleKeyring),
        decryptPayload_stored lawful_symbolicLibraries columns]
      show eventOf symbolicLibraries (emptied stored) payload = _
      rw [eventOf, rowsRead]
      rfl
    have gates : (emptied stored).projectId = .text "erp" ∧
        (emptied stored).payloadClassification = .text "evaluation" ∧
          (emptied stored).retentionAt = .stamp (.aware 10) := by
      rw [emptied, columns.columns, fields]
      exact ⟨rfl, rfl, rfl⟩
    have present : (emptied stored).tombstonedAt.isNone = true ∧
        (emptied stored).payloadCiphertext.isNone = false ∧
          (emptied stored).payloadNonce.isNone = false ∧
            (emptied stored).payloadKeyVersion.isNone = false := by
      rw [emptied, columns.columns]
      exact ⟨rfl, rfl, rfl, rfl⟩
    rw [decodeEvent_eq, gates.1, gates.2.1, gates.2.2, present.1, present.2.1,
      present.2.2.1, present.2.2.2]
    show caughtOpen symbolicLibraries sampleKeyring (emptied stored) = _
    rw [caughtOpen, opened]
    rfl
  rw [missing]
  rintro (isOk | ⟨_, resolution⟩)
  · cases isOk
  · cases resolution

end McpAssistant.BusinessQuery.ResolvedEvents
