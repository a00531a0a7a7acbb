import McpAssistant.BusinessQuery.SealedEvents

/-!
# How decoding a changed record fails

The decoder catches what decryption, parsing and validation raise for bad
values.  It does not catch what Python raises for values of the wrong type, for
a missing key, for a text that nests too deep, or for a decimal that is none.
A changed record is refused as it should be exactly when the first fault of it
is one of the former.
-/

namespace McpAssistant.BusinessQuery.DecodingFaults

open Foundations.Fallible Foundations.JsonReading Foundations.JsonText
  Foundations.PrintedValues
open EvidenceSealing (EventValueKind ResultMember)
open ExecutionEvents SealedEvents

variable {Key Bytes : Type} {lib : Libraries Key Bytes}

/-- What ends as a resolution error. -/
def Refuses (raised : Raised) : Prop :=
  raised.caught = true ∨ ∃ message, raised = .resolution message

/-- Whether now and the retention end are both instants or both clock times. -/
def Comparable : Column Bytes → Stamp → Prop
  | .stamp (.aware _), .aware _ => True
  | .stamp (.naive _), .naive _ => True
  | _, _ => False

structure PayloadShaped (lib : Libraries Key Bytes) (keyring : EventEncryptionKeyring Key)
    (record : StoredExecutionEvent Bytes) : Prop where
  printed : FailsOnly Refuses (aad lib record)
  hashable : Succeeds (aad lib record) → record.payloadKeyVersion.hashable = true
  bytes : Succeeds (aad lib record) → Succeeds (keyFor keyring record.payloadKeyVersion) →
      ∃ nonce ciphertext, record.payloadNonce = .bytes nonce ∧
        record.payloadCiphertext = .bytes ciphertext

def MembersShaped (lib : Libraries Key Bytes) : Json → Prop
  | .list items => ∀ before item after, items = before ++ item :: after →
      (∀ earlier ∈ before, ∃ entries member,
        earlier = .dict entries ∧ lib.readMember entries = .ok member) →
        ∃ entries, item = .dict entries
  | .dict entries => entries = []
  | .text value => value = ""
  | _ => False

def Misread (members : List ResultMember) (entry : String × Cell) : Prop :=
  ∃ kind, kindNamed members entry.1 = some kind ∧ isDecimalKind kind = true ∧
    entry.2.json.isNull = false ∧ (plainText entry.2.json).bind decimalText = none

def Restores (members : List ResultMember) (entry : String × Cell) : Prop :=
  Succeeds (restoreCell (kindNamed members entry.1) entry.2.json)

def RowsShaped (members : List ResultMember) (cells : List (String × Cell)) : Prop :=
  ∀ before entry after, cells = before ++ entry :: after →
    (∀ earlier ∈ before, Restores members earlier) → ¬ Misread members entry

def allCells (rows : List ResultRow) : List (String × Cell) :=
  rows.flatMap ResultRow.cells

structure MetadataShaped (lib : Libraries Key Bytes) (rows : List ResultRow)
    (column : Column Bytes) : Prop where
  isText : (∃ text, column = .text text) ∨ ∃ bytes, column = .bytes bytes
  shallow : loadColumn lib column ≠ .error .recursionError
  spelled : ∀ json, loadColumn lib column = .ok json → ∃ entries listed, json = .dict entries ∧
      entries.lookup "result_members" = some listed ∧
      MembersShaped lib listed ∧
      ∀ members, readMembers lib listed = .ok members → RowsShaped members (allCells rows) ∧
          ((∀ entry ∈ allCells rows, Restores members entry) →
            hasKey entries "result_rows" = false ∧
              hasKey entries "integrity_digest" = false)

/-- A record that is refused before its payload is read, or is shaped as the
decoder expects up to the first fault it catches. -/
def Shaped (lib : Libraries Key Bytes) (keyring : EventEncryptionKeyring Key)
    (stored : StoredExecutionEvent Bytes) (event : ExecutionEvent)
    (access : EventAccessContext) (now : Stamp)
    (record : StoredExecutionEvent Bytes) : Prop :=
  record.projectId.isText access.projectId = true →
    purposeAllowed record.payloadClassification access.purpose = true →
      record.tombstonedAt.isNone = true → Comparable record.retentionAt now ∧
          (isExpired record.retentionAt now = .ok false →
            record.payloadCiphertext.isNone = false → record.payloadNonce.isNone = false →
                record.payloadKeyVersion.isNone = false → PayloadShaped lib keyring record ∧
                    (SamePayload lib keyring stored record →
                      MetadataShaped lib event.resultRows record.metadataJson))

section Stages

variable {keyring : EventEncryptionKeyring Key} {record : StoredExecutionEvent Bytes}

theorem not_refuses_typeError : ¬ Refuses .typeError := by
  rintro (caught | ⟨_, resolution⟩)
  · cases caught
  · cases resolution

theorem failsOnly_keyFor {version : Column Bytes} :
    FailsOnly Refuses (keyFor keyring version) ↔ version.hashable = true := by
  have ofOther : FailsOnly Refuses (.error (if version.hashable then
      .valueError "event encryption key version unavailable" else .typeError) :
        Except Raised Key) ↔ version.hashable = true := by
    rw [failsOnly_error]
    split
    · rename_i hashable
      exact iff_of_true (.inl rfl) hashable
    · rename_i unhashable
      exact iff_of_false not_refuses_typeError unhashable
  cases version with
  | text version =>
    refine iff_of_true ?_ rfl
    simp only [keyFor]
    split
    · exact failsOnly_ok
    · exact failsOnly_error.mpr (.inl rfl)
  | _ => exact ofOther

theorem failsOnly_decryptPayload (lawful : Lawful lib) :
    FailsOnly Refuses (decryptPayload lib keyring record) ↔ PayloadShaped lib keyring record := by
  simp only [decryptPayload, failsOnly_bind, failsOnly_keyFor]
  constructor
  · rintro ⟨printed, rest⟩
    refine ⟨printed, fun ⟨associated, isAssociated⟩ =>
      (rest associated isAssociated).1, ?_⟩
    rintro ⟨associated, isAssociated⟩ ⟨key, isKey⟩
    have only := (rest associated isAssociated).2 key isKey
    split at only
    · rename_i nonce ciphertext isNonce isCiphertext
      exact ⟨nonce, ciphertext, isNonce, isCiphertext⟩
    · exact absurd (failsOnly_error.mp only) not_refuses_typeError
  · intro shaped
    refine ⟨shaped.printed, fun associated isAssociated =>
      ⟨shaped.hashable ⟨associated, isAssociated⟩, fun key isKey => ?_⟩⟩
    obtain ⟨nonce, ciphertext, isNonce, isCiphertext⟩ :=
      shaped.bytes ⟨associated, isAssociated⟩ ⟨key, isKey⟩
    rw [isNonce, isCiphertext]
    exact fun raised failed => .inl (lawful.refuses _ _ _ _ _ failed)

theorem failsOnly_loadText (text : String) : FailsOnly Refuses (loadText lib text) ↔
      loadText lib text ≠ .error .recursionError := by
  unfold loadText
  split
  · exact iff_of_true failsOnly_ok nofun
  · exact iff_of_true (failsOnly_error.mpr (.inl rfl)) nofun
  · refine iff_of_false ?_ (not_not.mpr rfl)
    intro only
    rcases failsOnly_error.mp only with caught | ⟨_, resolution⟩
    · cases caught
    · cases resolution

theorem failsOnly_loadBytes (bytes : Bytes) : FailsOnly Refuses (loadBytes lib bytes) ↔
      loadBytes lib bytes ≠ .error .recursionError := by
  unfold loadBytes
  split
  · exact iff_of_true (failsOnly_error.mpr (.inl rfl)) nofun
  · exact failsOnly_loadText _

theorem failsOnly_loadColumn (column : Column Bytes) : FailsOnly Refuses (loadColumn lib column) ↔
      ((∃ text, column = .text text) ∨ ∃ bytes, column = .bytes bytes) ∧
        loadColumn lib column ≠ .error .recursionError := by
  cases column with
  | text text =>
    show FailsOnly Refuses (loadText lib text) ↔ _
    rw [failsOnly_loadText]
    exact ⟨fun shallow => ⟨.inl ⟨text, rfl⟩, shallow⟩, And.right⟩
  | bytes bytes =>
    show FailsOnly Refuses (loadBytes lib bytes) ↔ _
    rw [failsOnly_loadBytes]
    exact ⟨fun shallow => ⟨.inr ⟨bytes, rfl⟩, shallow⟩, And.right⟩
  | _ =>
    refine iff_of_false (fun only => not_refuses_typeError (failsOnly_error.mp only)) ?_
    rintro ⟨⟨_, isText⟩ | ⟨_, isBytes⟩, _⟩
    · cases isText
    · cases isBytes

theorem failsOnly_listedMembers (json : Json) : FailsOnly Refuses (listedMembers json) ↔
      ∃ entries listed, json = .dict entries ∧ entries.lookup "result_members" = some listed := by
  cases json with
  | dict entries =>
    cases found : entries.lookup "result_members" with
    | some listed =>
      refine iff_of_true ?_ ⟨entries, listed, rfl, found⟩
      simp only [listedMembers, found]
      exact failsOnly_ok
    | none =>
      refine iff_of_false ?_ ?_
      · simp only [listedMembers, found]
        intro only
        rcases failsOnly_error.mp only with caught | ⟨_, resolution⟩
        · cases caught
        · cases resolution
      · rintro ⟨_, _, same, held⟩
        cases same
        rw [found] at held
        cases held
  | _ =>
    refine iff_of_false (fun only => not_refuses_typeError (failsOnly_error.mp only)) ?_
    rintro ⟨_, _, same, _⟩
    cases same

theorem failsOnly_valueError {Value : Type} {run : Except String Value} :
    FailsOnly Refuses (run.mapError Raised.valueError) := by
  cases run with
  | error message => exact failsOnly_error.mpr (.inl rfl)
  | ok value => exact failsOnly_ok

theorem failsOnly_readItem (item : Json) :
    FailsOnly Refuses (readItem lib item) ↔ ∃ entries, item = .dict entries := by
  cases item with
  | dict entries => exact iff_of_true failsOnly_valueError ⟨entries, rfl⟩
  | _ =>
    refine iff_of_false (fun only => not_refuses_typeError (failsOnly_error.mp only)) ?_
    rintro ⟨_, same⟩
    cases same

theorem succeeds_readItem (item : Json) : Succeeds (readItem lib item) ↔
      ∃ entries member, item = .dict entries ∧ lib.readMember entries = .ok member := by
  cases item with
  | dict entries =>
    constructor
    · rintro ⟨member, read⟩
      exact ⟨entries, member, rfl, mapError_eq_ok.mp read⟩
    · rintro ⟨_, member, same, read⟩
      cases same
      exact ⟨member, mapError_eq_ok.mpr read⟩
  | _ =>
    constructor
    · rintro ⟨_, read⟩
      cases read
    · rintro ⟨_, _, same, _⟩
      cases same

theorem failsOnly_readMembers (listed : Json) :
    FailsOnly Refuses (readMembers lib listed) ↔ MembersShaped lib listed := by
  have typeError {shaped : Prop} (unshaped : ¬ shaped) :
      FailsOnly Refuses (.error .typeError : Except Raised (List ResultMember)) ↔ shaped :=
    iff_of_false (fun only => not_refuses_typeError (failsOnly_error.mp only)) unshaped
  cases listed with
  | list items =>
    show FailsOnly Refuses (items.mapM (readItem lib)) ↔ _
    rw [failsOnly_mapM]
    simp only [EachFailsOnly, failsOnly_readItem, succeeds_readItem]
    rfl
  | dict entries =>
    cases entries with
    | nil => exact iff_of_true failsOnly_ok rfl
    | cons entry entries => exact typeError (fun empty => by cases empty)
  | text value =>
    by_cases empty : value = ""
    · rw [empty]
      exact iff_of_true failsOnly_ok rfl
    · unfold readMembers
      split
      · rename_i isList
        cases isList
      · rename_i isDict
        cases isDict
      · rename_i isText
        exact absurd (Json.text.inj isText) empty
      · exact typeError empty
  | _ => exact typeError id

theorem failsOnly_invalidOperation {Value : Type} :
    ¬ FailsOnly Refuses (.error .invalidOperation : Except Raised Value) := by
  intro only
  rcases failsOnly_error.mp only with caught | ⟨_, resolution⟩
  · cases caught
  · cases resolution

theorem failsOnly_restoreCell (kind : Option EventValueKind) (json : Json) :
    FailsOnly Refuses (restoreCell kind json) ↔
      ¬ ∃ named, kind = some named ∧ isDecimalKind named = true ∧
        json.isNull = false ∧ (plainText json).bind decimalText = none := by
  unfold restoreCell
  split
  · rename_i isNull
    refine iff_of_true failsOnly_ok ?_
    rintro ⟨_, _, _, notNull, _⟩
    rw [isNull] at notNull
    cases notNull
  · rename_i notNull
    have notNull : json.isNull = false := by simpa using notNull
    have decimalRead (named : EventValueKind) (printed : String)
        (read : (plainText json).bind decimalText = some printed) :
        ¬ ∃ other, some named = some other ∧ isDecimalKind other = true ∧
          json.isNull = false ∧ (plainText json).bind decimalText = none := by
      rintro ⟨_, _, _, _, none⟩
      rw [read] at none
      cases none
    have decimalUnread (named : EventValueKind) (decimal : isDecimalKind named = true)
        (unread : (plainText json).bind decimalText = none) :
        ¬¬ ∃ other, some named = some other ∧ isDecimalKind other = true ∧
          json.isNull = false ∧ (plainText json).bind decimalText = none :=
      not_not.mpr ⟨named, rfl, decimal, notNull, unread⟩
    have notDecimal (other : Option EventValueKind)
        (without : ∀ named, other = some named → isDecimalKind named = false) :
        ¬ ∃ named, other = some named ∧ isDecimalKind named = true ∧
          json.isNull = false ∧ (plainText json).bind decimalText = none := by
      rintro ⟨named, same, decimal, _⟩
      rw [without named same] at decimal
      cases decimal
    split
    · split
      · exact iff_of_true failsOnly_ok (decimalRead .decimal _ ‹_›)
      · exact iff_of_false failsOnly_invalidOperation (decimalUnread .decimal rfl ‹_›)
    · split
      · exact iff_of_true failsOnly_ok (decimalRead .percent _ ‹_›)
      · exact iff_of_false failsOnly_invalidOperation (decimalUnread .percent rfl ‹_›)
    · split
      · exact iff_of_true failsOnly_ok (decimalRead .currency _ ‹_›)
      · exact iff_of_false failsOnly_invalidOperation (decimalUnread .currency rfl ‹_›)
    · refine iff_of_true ?_ (notDecimal _ fun _ same => by cases same; rfl)
      split
      · exact failsOnly_ok
      · exact failsOnly_error.mpr (.inl rfl)
    · refine iff_of_true ?_ (notDecimal _ fun _ same => by cases same; rfl)
      split
      · exact failsOnly_ok
      · exact failsOnly_error.mpr (.inl rfl)
    · rename_i notDecimalKind notPercent notCurrency _ _
      refine iff_of_true failsOnly_ok (notDecimal _ fun named same => ?_)
      cases named with
      | decimal => exact absurd same notDecimalKind
      | percent => exact absurd same notPercent
      | currency => exact absurd same notCurrency
      | _ => rfl

/-- Reading a cell of a row under the last member of its name. -/
def restoreEntry (members : List ResultMember) (entry : String × Cell) :
    Except Raised (String × Cell) := do
  return (entry.1, ← restoreCell (kindNamed members entry.1) entry.2.json)

theorem failsOnly_restoreEntry (members : List ResultMember) (entry : String × Cell) :
    FailsOnly Refuses (restoreEntry members entry) ↔ ¬ Misread members entry := by
  show FailsOnly Refuses (restoreCell _ _ >>= _) ↔ _
  rw [failsOnly_bind, failsOnly_restoreCell]
  exact ⟨And.left, fun only => ⟨only, fun _ _ => failsOnly_ok⟩⟩

theorem succeeds_restoreEntry (members : List ResultMember) (entry : String × Cell) :
    Succeeds (restoreEntry members entry) ↔ Restores members entry := by
  constructor
  · rintro ⟨_, restored⟩
    obtain ⟨cell, isCell, _⟩ := bind_eq_ok.mp restored
    exact ⟨cell, isCell⟩
  · rintro ⟨cell, isCell⟩
    exact ⟨(entry.1, cell), bind_eq_ok.mpr ⟨cell, isCell, rfl⟩⟩

theorem restoreItem_json (members : List ResultMember) (row : ResultRow) :
    restoreItem members row.json = do
      let cells ← row.cells.mapM (restoreEntry members)
      return ResultRow.ofCells cells := by
  show restoreRow members (row.cells.map fun cell => (cell.1, cell.2.json)) = _
  rw [restoreRow, List.mapM_map]
  rfl

theorem failsOnly_restoreItem (members : List ResultMember) (row : ResultRow) :
    FailsOnly Refuses (restoreItem members row.json) ↔
      EachFailsOnly Refuses (restoreEntry members) row.cells := by
  rw [restoreItem_json, failsOnly_bind, failsOnly_mapM]
  exact ⟨And.left, fun only => ⟨only, fun _ _ => failsOnly_ok⟩⟩

theorem succeeds_restoreItem (members : List ResultMember) (row : ResultRow) :
    Succeeds (restoreItem members row.json) ↔
      ∀ entry ∈ row.cells, Succeeds (restoreEntry members entry) := by
  rw [restoreItem_json, ← succeeds_mapM]
  constructor
  · rintro ⟨_, restored⟩
    obtain ⟨cells, isCells, _⟩ := bind_eq_ok.mp restored
    exact ⟨cells, isCells⟩
  · rintro ⟨cells, isCells⟩
    exact ⟨ResultRow.ofCells cells, bind_eq_ok.mpr ⟨cells, isCells, rfl⟩⟩

theorem failsOnly_restoreTypedRows (members : List ResultMember) (rows : List ResultRow) :
    FailsOnly Refuses (restoreTypedRows members (rowsJson rows)) ↔
      RowsShaped members (allCells rows) := by
  rw [rowsJson, restoreTypedRows, List.mapM_map, failsOnly_mapM]
  have flat := eachFailsOnly_flatMap (failsOnly_restoreItem members)
    (succeeds_restoreItem members) rows
  apply flat.trans
  simp only [EachFailsOnly, failsOnly_restoreEntry, succeeds_restoreEntry]
  rfl

theorem succeeds_restoreTypedRows (members : List ResultMember) (rows : List ResultRow) :
    Succeeds (restoreTypedRows members (rowsJson rows)) ↔
      ∀ entry ∈ allCells rows, Restores members entry := by
  rw [rowsJson, restoreTypedRows, List.mapM_map, succeeds_mapM]
  simp only [Function.comp, succeeds_restoreItem, succeeds_restoreEntry, allCells, List.mem_flatMap]
  constructor
  · rintro each entry ⟨row, isRow, isCell⟩
    exact each row isRow entry isCell
  · intro each row isRow entry isCell
    exact each entry ⟨row, isRow, isCell⟩

theorem failsOnly_buildFields (entries : Entries) : FailsOnly Refuses (buildFields lib entries) ↔
      hasKey entries "result_rows" = false ∧ hasKey entries "integrity_digest" = false := by
  unfold buildFields
  split
  · rename_i twice
    refine iff_of_false (fun only => not_refuses_typeError (failsOnly_error.mp only)) ?_
    rintro ⟨noRows, noDigest⟩
    rw [noRows, noDigest] at twice
    cases twice
  · rename_i once
    apply iff_of_true failsOnly_valueError
    simpa using once

theorem failsOnly_textOf (column : Column Bytes) : FailsOnly Refuses (textOf column) := by
  cases column with
  | text value => exact failsOnly_ok
  | _ => exact failsOnly_error.mpr (.inl rfl)

theorem failsOnly_raiseWhen (wrong : Bool) (message : String) :
    FailsOnly Refuses (raiseWhen wrong message) := by
  cases wrong with
  | false => exact failsOnly_ok
  | true => exact failsOnly_error.mpr (.inl rfl)

theorem failsOnly_canonicalDigest {payload : Json} (shallow : depth payload ≤ lib.recursionLimit) :
    FailsOnly Refuses (canonicalDigest lib payload) := by
  unfold canonicalDigest canonicalJson canonicalJsonStr
  rw [if_neg (Nat.not_lt.mpr shallow)]
  split
  · exact failsOnly_ok
  · exact failsOnly_error.mpr (.inl rfl)

theorem depth_optionalText (text : Option String) : depth (optionalText text) = 0 := by
  cases text <;> rfl

theorem depth_optionalCount (count : Option Nat) : depth (optionalCount count) = 0 := by
  cases count <;> rfl

theorem depth_optionalMs (duration : Option Milliseconds) : depth (optionalMs duration) = 0 := by
  cases duration <;> rfl

theorem depth_detailsJson (details : List DetailEvidence) : depth (detailsJson details) ≤ 2 := by
  apply Nat.succ_le_succ
  apply itemsDepth_le_iff.mpr
  intro item member
  obtain ⟨detail, _, rfl⟩ := List.mem_map.mp member
  apply Nat.succ_le_succ
  apply entriesDepth_le_iff.mpr
  simp [DetailEvidence.dump, depth_optionalText, depth]

theorem depth_membersJson (members : List ResultMember) :
    depth (.list (members.map fun member => .dict (dumpMember member))) ≤ 2 := by
  apply Nat.succ_le_succ
  apply itemsDepth_le_iff.mpr
  intro item member
  obtain ⟨member, _, rfl⟩ := List.mem_map.mp member
  exact Nat.le_refl 1

theorem depth_metadata (stampText : Stamp → String) (fields : EventFields) :
    depth (.dict (fields.metadata stampText)) ≤ 3 := by
  apply Nat.succ_le_succ
  apply entriesDepth_le_iff.mpr
  have all : ∀ entry ∈ fields.dump stampText, depth entry.2 ≤ 2 := by
    have details := depth_detailsJson fields.detailEvidence
    have members := depth_membersJson fields.resultMembers
    have families : depth (.list (fields.failedDetailFamilies.map .text)) ≤ 2 := by
      apply Nat.succ_le_succ
      apply itemsDepth_le_iff.mpr
      intro item member
      obtain ⟨family, _, rfl⟩ := List.mem_map.mp member
      exact Nat.zero_le 1
    simp [EventFields.dump, depth_optionalText, depth_optionalCount,
      depth_optionalMs, details, members, families]
    simp [depth]
  intro entry member
  unfold EventFields.metadata at member
  split at member
  · exact all entry (List.mem_filter.mp member).1
  · exact all entry member

theorem depth_rowsJson {members : List ResultMember} {rows : List ResultRow}
    (typed : ∀ row ∈ rows, ∀ entry ∈ row.cells, Typed members entry) :
    depth (rowsJson rows) ≤ 2 := by
  apply Nat.succ_le_succ
  apply itemsDepth_le_iff.mpr
  intro item member
  obtain ⟨row, isRow, rfl⟩ := List.mem_map.mp member
  apply Nat.succ_le_succ
  apply entriesDepth_le_iff.mpr
  intro printed member
  obtain ⟨entry, isCell, rfl⟩ := List.mem_map.mp member
  obtain ⟨schema, _, ofKind⟩ := typed row isRow entry isCell
  show depth entry.2.json ≤ 0
  cases cell : entry.2 with
  | other json =>
    rw [cell] at ofKind
    rcases ofKind with isNull | ofKind
    · cases isNull
    · cases schema.valueKind <;> cases ofKind
  | _ => exact Nat.le_refl 0

theorem failsOnly_validateResultRows (members : List ResultMember) (rows : List ResultRow) :
    FailsOnly Refuses (validateResultRows members rows) := by
  have conflict {message : String} :
      FailsOnly Refuses (.error (.conflict message) : Except Raised Unit) :=
    failsOnly_error.mpr (.inl rfl)
  simp only [validateResultRows]
  split
  · exact conflict
  · split
    · exact conflict
    · apply failsOnly_forM
      intro row _
      apply failsOnly_forM
      rintro ⟨name, cell⟩ _
      dsimp only
      split
      · exact failsOnly_ok
      · unfold validateCell
        split <;> split <;> first | exact failsOnly_ok | exact conflict

/-- The digests of rows and fields of an event are taken without going too deep,
so that a difference is all that can be found. -/
theorem failsOnly_validateDigests (lawful : Lawful lib) (event : ExecutionEvent) :
    FailsOnly Refuses (validateDigests lib event) := by
  have deepEnough := lawful.deepEnough
  have digests {payload : Json} (shallow : depth payload ≤ 3) :=
    failsOnly_canonicalDigest (shallow.trans (by omega : 3 ≤ lib.recursionLimit))
  simp only [validateDigests, failsOnly_bind, failsOnly_raiseWhen, true_and]
  refine ⟨failsOnly_validateResultRows _ _, fun _ valid => ⟨?_, fun _ _ _ _ =>
    ⟨?_, fun _ _ _ _ => ?_⟩⟩⟩
  · exact digests ((depth_rowsJson (typed_of_valid valid)).trans (by omega))
  · exact digests ((depth_detailsJson _).trans (by omega))
  · refine ⟨digests (depth_metadata _ _), fun _ _ => trivial⟩

theorem failsOnly_validateRecordBinding (event : ExecutionEvent) :
    FailsOnly Refuses (validateRecordBinding record event) := by
  have guarded (bound : Bool) : FailsOnly Refuses (if bound then .ok ()
        else .error (.resolution "execution event integrity check failed") :
          Except Raised Unit) := by
    cases bound with
    | true => exact failsOnly_ok
    | false => exact failsOnly_error.mpr (.inr ⟨_, rfl⟩)
  exact guarded _

end Stages

section Records

variable {keyring : EventEncryptionKeyring Key} {nonce : Bytes}
  {draft : EventFields} {rows : List ResultRow} {event : ExecutionEvent}
  {stored record : StoredExecutionEvent Bytes}

theorem failsOnly_validateIntegrity (lawful : Lawful lib)
    (sealing : Sealing lib keyring nonce draft rows event stored)
    {found : ExecutionEvent} (bounded : found.fields.bounded = true)
    (floats : GenuineFloats lib.floatOf found.fields)
    (sameDigest : found.integrityDigest = event.integrityDigest) :
    FailsOnly Refuses (validateIntegrity lib found) := by
  rw [validateIntegrity, failsOnly_bind]
  refine ⟨failsOnly_validateDigests lawful found, fun _ valid => ?_⟩
  have same : found = event :=
    eq_of_digested lawful sealing bounded floats sameDigest (validateDigests_eq_ok.mp valid)
  rw [same, sealing.digested.2]
  exact failsOnly_ok

theorem failsOnly_eventOf (lawful : Lawful lib)
    (sealing : Sealing lib keyring nonce draft rows event stored)
    (genuine : GenuineColumns lib record)
    (same : SamePayload lib keyring stored record) {raw : Bytes}
    (decrypted : decryptPayload lib keyring record = .ok raw) :
    FailsOnly Refuses (eventOf lib record raw) ↔
      MetadataShaped lib event.resultRows record.metadataJson := by
  obtain ⟨metadata, payload, associated, key, columns⟩ := sealing.columns
  have isPayload : payload = raw := by
    rw [decryptPayload_of_same same, decryptPayload_stored lawful columns] at decrypted
    exact Except.ok.inj decrypted
  obtain ⟨rowsGenuine, sorted⟩ :=
    genuine_rowsJson (typed_of_valid sealing.digested.1.rows) lib.floatOf
  have rowsRead := loadBytes_canonicalJson lawful rowsGenuine columns.isPayload
  rw [sorted, isPayload] at rowsRead
  simp only [eventOf, failsOnly_bind]
  constructor
  · rintro ⟨_, rest⟩
    obtain ⟨loaded, rest⟩ := rest _ rowsRead
    obtain ⟨isText, shallow⟩ := (failsOnly_loadColumn _).mp loaded
    refine ⟨isText, shallow, fun json read => ?_⟩
    obtain ⟨listedOnly, rest⟩ := rest json read
    obtain ⟨entries, listed, rfl, found⟩ := (failsOnly_listedMembers json).mp listedOnly
    have isListed : listedMembers (.dict entries) = .ok (entries, listed) := by
      rw [listedMembers, found]
    obtain ⟨membersOnly, rest⟩ := rest _ isListed
    refine ⟨entries, listed, rfl, found, (failsOnly_readMembers _).mp membersOnly,
      fun members isMembers => ?_⟩
    obtain ⟨rowsOnly, rest⟩ := rest members isMembers
    refine ⟨(failsOnly_restoreTypedRows _ _).mp rowsOnly, fun restores => ?_⟩
    obtain ⟨_, restored⟩ := (succeeds_restoreTypedRows _ _).mpr restores
    exact (failsOnly_buildFields _).mp (rest _ restored).1
  · intro shaped
    have rowsOnly : FailsOnly Refuses (loadBytes lib raw) := by
      rw [rowsRead]
      exact failsOnly_ok
    refine ⟨rowsOnly, ?_⟩
    intro _ read
    rw [rowsRead] at read
    cases read
    refine ⟨(failsOnly_loadColumn _).mpr ⟨shaped.isText, shaped.shallow⟩, ?_⟩
    intro json loaded
    obtain ⟨entries, listed, rfl, found, membersShaped, spelled⟩ := shaped.spelled json loaded
    refine ⟨(failsOnly_listedMembers _).mpr ⟨entries, listed, rfl, found⟩, ?_⟩
    intro pair isListed
    rw [listedMembers, found] at isListed
    cases isListed
    refine ⟨(failsOnly_readMembers _).mpr membersShaped, ?_⟩
    intro members isMembers
    obtain ⟨rowsShaped, once⟩ := spelled members isMembers
    refine ⟨(failsOnly_restoreTypedRows _ _).mpr rowsShaped, ?_⟩
    intro resultRows restored
    have restores := (succeeds_restoreTypedRows _ _).mp ⟨resultRows, restored⟩
    refine ⟨(failsOnly_buildFields _).mpr (once restores), ?_⟩
    intro fields built
    refine ⟨failsOnly_textOf _, ?_⟩
    intro digest isDigest
    obtain ⟨bounded, floats⟩ := lawful.readFields_bounded entries fields (readFields_of_built built)
    have sameDigest := digest_eq_of_same columns same lawful genuine isDigest
    refine ⟨failsOnly_validateIntegrity lawful sealing bounded floats sameDigest, ?_⟩
    intro _ _
    exact ⟨failsOnly_validateRecordBinding _, fun _ _ => failsOnly_ok⟩

theorem failsOnly_openEvent (lawful : Lawful lib)
    (sealing : Sealing lib keyring nonce draft rows event stored)
    (changed : Changed lib keyring stored record) :
    FailsOnly Refuses (openEvent lib keyring record) ↔ PayloadShaped lib keyring record ∧
        (SamePayload lib keyring stored record →
          MetadataShaped lib event.resultRows record.metadataJson) := by
  rw [openEvent, failsOnly_bind, failsOnly_decryptPayload lawful]
  apply and_congr_right
  intro _
  constructor
  · intro only same
    obtain ⟨_, payload, _, _, columns⟩ := sealing.columns
    have decrypted : decryptPayload lib keyring record = .ok payload := by
      rw [decryptPayload_of_same same, decryptPayload_stored lawful columns]
    exact (failsOnly_eventOf lawful sealing changed.genuine same decrypted).mp
      (only payload decrypted)
  · intro shaped raw decrypted
    have same := changed.authentic raw decrypted
    exact (failsOnly_eventOf lawful sealing changed.genuine same decrypted).mpr (shaped same)

end Records

end McpAssistant.BusinessQuery.DecodingFaults
