import McpAssistant.BusinessQuery.ExecutionEvents

/-!
# Sealed events come back or are refused

A sealed event decodes to what was sealed.  A record changed in any way still
decodes to the sealed event or not at all, because its metadata is bound by a
digest that the encryption binds.  What a change can do is make the decoder
fail with an exception it does not catch.
-/

namespace McpAssistant.BusinessQuery.SealedEvents

open Foundations.Fallible Foundations.JsonReading Foundations.JsonText
  Foundations.PrintedValues
open EvidenceSealing (EventValueKind ResultMember)
open ExecutionEvents List

variable {Key Bytes : Type} {lib : Libraries Key Bytes}

/-- A duration is printed as a literal that is read as it. -/
def GenuineMs (floatOf : String → Json) (duration : Option Milliseconds) : Prop :=
  Genuine floatOf (optionalMs duration)

def GenuineFloats (floatOf : String → Json) (fields : EventFields) : Prop :=
  ∀ duration ∈ [fields.classifierMs, fields.plannerMs, fields.sqlMs,
    fields.detailReadMs, fields.richRenderMs, fields.finalizationMs,
    fields.firstProgressMs, fields.totalMs], GenuineMs floatOf duration

structure Lawful (lib : Libraries Key Bytes) : Prop where
  decodes : ∀ text, lib.decode (lib.utf8 text) = some text
  noCollision : ∀ first second : String,
    lib.sha256 (lib.utf8 first) = lib.sha256 (lib.utf8 second) → first = second
  opens : ∀ key nonce plaintext associated,
    lib.decrypt key nonce (lib.encrypt key nonce plaintext associated) associated = .ok plaintext
  refuses : ∀ key nonce ciphertext associated raised,
    lib.decrypt key nonce ciphertext associated = .error raised → raised.caught = true
  deepEnough : 4 ≤ lib.recursionLimit
  readsMember : ∀ member, lib.readMember (sortedEntries (dumpMember member)) = .ok member
  readsFields : ∀ fields : EventFields, fields.bounded = true →
    GenuineFloats lib.floatOf fields → detailEvidenceDigest lib fields.detailEvidence =
          .ok fields.detailEvidenceDigest →
        lib.readFields (sortedEntries (fields.metadata lib.stampText)) = .ok fields
  readFields_bounded : ∀ entries fields, lib.readFields entries = .ok fields →
    fields.bounded = true ∧ GenuineFloats lib.floatOf fields

variable {payload : Json}

theorem canonicalJsonStr_ok {text : String} (printed : canonicalJsonStr lib payload = .ok text) :
    depth payload ≤ lib.recursionLimit ∧ shortIntegers payload = true ∧
      text = String.ofList (dumps (sortKeys payload)) := by
  unfold canonicalJsonStr at printed
  split at printed
  · cases printed
  · rename_i shallow
    split at printed
    · rename_i short
      cases printed
      exact ⟨Nat.le_of_not_lt shallow, short, rfl⟩
    · cases printed

theorem loads_canonicalJsonStr {text : String} (genuine : Genuine lib.floatOf payload)
    (printed : canonicalJsonStr lib payload = .ok text) :
    loads lib.floatOf lib.recursionLimit text = .ok (sortKeys payload) := by
  have ⟨shallow, short, same⟩ := canonicalJsonStr_ok printed
  rw [same]
  apply loads_dumps (Printable.sorted ⟨short, genuine⟩)
  exact le_trans (depth_sortKeys payload) shallow

variable {bytes : Bytes}

theorem canonicalJson_ok (printed : canonicalJson lib payload = .ok bytes) :
    ∃ text, canonicalJsonStr lib payload = .ok text ∧ lib.utf8 text = bytes := by
  exact map_eq_ok.mp printed

theorem loadBytes_canonicalJson (lawful : Lawful lib) (genuine : Genuine lib.floatOf payload)
    (printed : canonicalJson lib payload = .ok bytes) :
    loadBytes lib bytes = .ok (sortKeys payload) := by
  obtain ⟨text, isText, rfl⟩ := canonicalJson_ok printed
  rw [loadBytes, lawful.decodes]
  show loadText lib text = _
  rw [loadText, loads_canonicalJsonStr genuine isText]

theorem sortKeys_eq_of_canonicalJson (lawful : Lawful lib) {first second : Json}
    (firstGenuine : Genuine lib.floatOf first)
    (secondGenuine : Genuine lib.floatOf second)
    (firstPrinted : canonicalJson lib first = .ok bytes)
    (secondPrinted : canonicalJson lib second = .ok bytes) :
    sortKeys first = sortKeys second := by
  have read := loadBytes_canonicalJson lawful firstGenuine firstPrinted
  rw [loadBytes_canonicalJson lawful secondGenuine secondPrinted] at read
  exact (Except.ok.inj read).symm

theorem sortKeys_eq_of_digest (lawful : Lawful lib) {first second : Json}
    {digest : String} (firstGenuine : Genuine lib.floatOf first)
    (secondGenuine : Genuine lib.floatOf second)
    (firstDigest : canonicalDigest lib first = .ok digest)
    (secondDigest : canonicalDigest lib second = .ok digest) :
    sortKeys first = sortKeys second := by
  obtain ⟨bytes, firstPrinted, isDigest⟩ := map_eq_ok.mp firstDigest
  obtain ⟨others, secondPrinted, sameDigest⟩ := map_eq_ok.mp secondDigest
  obtain ⟨text, _, isBytes⟩ := canonicalJson_ok firstPrinted
  obtain ⟨other, _, isOthers⟩ := canonicalJson_ok secondPrinted
  have same : other = text := by
    apply lawful.noCollision
    rw [isOthers, isBytes, sameDigest, isDigest]
  rw [← isOthers, same, isBytes] at secondPrinted
  exact sortKeys_eq_of_canonicalJson lawful firstGenuine secondGenuine firstPrinted secondPrinted

theorem genuine_optionalText (floatOf : String → Json) (text : Option String) :
    Genuine floatOf (optionalText text) := by
  cases text <;> trivial

theorem genuine_optionalCount (floatOf : String → Json) (count : Option Nat) :
    Genuine floatOf (optionalCount count) := by
  cases count <;> trivial

theorem genuineItems_iff {floatOf : String → Json} {items : List Json} :
    GenuineItems floatOf items ↔ ∀ item ∈ items, Genuine floatOf item := by
  induction items with
  | nil => exact ⟨fun _ _ member => absurd member not_mem_nil, fun _ => trivial⟩
  | cons item items ih => rw [GenuineItems, ih, forall_mem_cons]

theorem genuine_dumpMember (floatOf : String → Json) (member : ResultMember) :
    Genuine floatOf (.dict (dumpMember member)) := by
  refine ⟨?_, trivial, trivial, trivial, trivial⟩
  show ["name", "value_kind", "nullable"].Nodup
  decide

theorem genuine_detailsJson (floatOf : String → Json)
    (details : List DetailEvidence) : Genuine floatOf (detailsJson details) := by
  apply genuineItems_iff.mpr
  intro item member
  obtain ⟨detail, _, rfl⟩ := List.mem_map.mp member
  constructor
  · show ["family", "owner_resource", "owner_ref_digest", "revision_digest",
      "definition_digest", "profile_digest", "coverage_status",
      "coverage_digest", "provenance_digest"].Nodup
    decide +kernel
  · apply genuineEntries_iff.mpr
    simp [DetailEvidence.dump, genuine_optionalText, Genuine]

/-- The names the metadata may have. -/
def fieldNames : List String := [
  "schema_version", "answer_query_id", "root_answer_query_id", "project_id",
  "adapter", "backend", "plan_fingerprint", "compiled_query_digest",
  "parameter_scope_digest", "bundle_hash", "manifest_hash", "result_members",
  "result_digest", "detail_evidence", "detail_evidence_digest",
  "returned_row_count", "total_row_count", "truncated", "database_identity",
  "started_at", "finished_at", "retention_at", "payload_mode",
  "payload_classification", "route", "provider", "deployment", "output_mode",
  "effort", "input_tokens", "output_tokens", "correlation_id", "case_id",
  "repeat_index", "planner_attempt_id", "resolver_query_id", "classifier_ms",
  "planner_ms", "sql_ms", "detail_read_ms", "rich_render_ms", "finalization_ms",
  "first_progress_ms", "total_ms", "result_completeness", "coverage_status",
  "failed_detail_families", "policy_hash", "record_referent_digest",
  "terminal_reason"
]

theorem nodup_fieldNames : fieldNames.Nodup := by
  decide +kernel

theorem names_dump (stampText : Stamp → String) (fields : EventFields) :
    (fields.dump stampText).map Prod.fst = fieldNames := rfl

theorem names_metadata (stampText : Stamp → String) (fields : EventFields) :
    ((fields.metadata stampText).map Prod.fst).Sublist fieldNames := by
  rw [← names_dump stampText fields]
  unfold EventFields.metadata
  split
  · exact List.filter_sublist.map Prod.fst
  · exact List.Sublist.refl _

theorem nodup_metadata (stampText : Stamp → String) (fields : EventFields) :
    ((fields.metadata stampText).map Prod.fst).Nodup :=
  nodup_fieldNames.sublist (names_metadata stampText fields)

variable {fields : EventFields}

theorem genuine_dump (stampText : Stamp → String) (floats : GenuineFloats lib.floatOf fields) :
    ∀ entry ∈ fields.dump stampText, Genuine lib.floatOf entry.2 := by
  simp only [GenuineFloats, GenuineMs, forall_mem_cons] at floats
  simp [EventFields.dump, genuine_optionalText, genuine_optionalCount,
    genuine_detailsJson, floats, Genuine, genuineItems_iff]
  exact fun member _ => genuine_dumpMember lib.floatOf member

theorem genuine_metadata (stampText : Stamp → String) (floats : GenuineFloats lib.floatOf fields) :
    Genuine lib.floatOf (.dict (fields.metadata stampText)) := by
  refine ⟨nodup_metadata stampText fields, genuineEntries_iff.mpr ?_⟩
  intro entry member
  apply genuine_dump stampText floats
  unfold EventFields.metadata at member
  split at member
  · exact (List.mem_filter.mp member).1
  · exact member

theorem fields_eq_of_digest (lawful : Lawful lib) {first second : EventFields}
    {digest : String} (firstBounded : first.bounded = true)
    (secondBounded : second.bounded = true)
    (firstFloats : GenuineFloats lib.floatOf first)
    (secondFloats : GenuineFloats lib.floatOf second)
    (firstDetails : detailEvidenceDigest lib first.detailEvidence = .ok first.detailEvidenceDigest)
    (secondDetails : detailEvidenceDigest lib second.detailEvidence =
      .ok second.detailEvidenceDigest)
    (firstDigest : recomputedIntegrityDigest lib first = .ok digest)
    (secondDigest : recomputedIntegrityDigest lib second = .ok digest) :
    first = second := by
  have same : sortKeys (.dict (first.metadata lib.stampText)) =
      sortKeys (.dict (second.metadata lib.stampText)) :=
    sortKeys_eq_of_digest lawful (genuine_metadata _ firstFloats)
      (genuine_metadata _ secondFloats) firstDigest secondDigest
  have entries : sortedEntries (first.metadata lib.stampText) =
      sortedEntries (second.metadata lib.stampText) := Json.dict.inj same
  have read := lawful.readsFields first firstBounded firstFloats firstDetails
  rw [entries, lawful.readsFields second secondBounded secondFloats secondDetails] at read
  exact (Except.ok.inj read).symm

def Typed (members : List ResultMember) (entry : String × Cell) : Prop :=
  ∃ member, memberNamed members entry.1 = some member ∧
    (entry.2 = .null ∨ entry.2.isOfKind member.valueKind = true)

variable {member : ResultMember}

theorem validateCell_ok {cell : Cell} (valid : validateCell member cell = .ok ()) :
    cell = .null ∨ cell.isOfKind member.valueKind = true := by
  unfold validateCell at valid
  split at valid
  · exact .inl rfl
  · split at valid
    · rename_i ofKind
      exact .inr ofKind
    · cases valid

variable {members : List ResultMember} {rows : List ResultRow}

theorem typed_of_valid (valid : validateResultRows members rows = .ok ()) :
    ∀ row ∈ rows, ∀ entry ∈ row.cells, Typed members entry := by
  intro row isRow entry member
  simp only [validateResultRows] at valid
  split at valid
  · cases valid
  · split at valid
    · cases valid
    · rename_i complete
      have named : row.hasNames (members.map ResultMember.name) = true := by
        by_contra missing
        apply complete
        apply List.any_eq_true.mpr
        exact ⟨row, isRow, by simpa using missing⟩
      have isName : entry.1 ∈ members.map ResultMember.name := by
        have all := (Bool.and_eq_true_iff.mp named).2
        have found := List.all_eq_true.mp all entry.1 (mem_map_of_mem member)
        exact List.contains_iff_mem.mp found
      have checked := forM_eq_ok.mp (forM_eq_ok.mp valid row isRow) entry member
      cases found : memberNamed members entry.1 with
      | none =>
        obtain ⟨schema, isMember, same⟩ := List.mem_map.mp isName
        have absent := List.find?_eq_none.mp found schema isMember
        exact absurd (decide_eq_true same) absent
      | some schema =>
        rw [found] at checked
        exact ⟨schema, found, validateCell_ok checked⟩

variable {kind : EventValueKind}

theorem cell_eq_of_json {first second : Cell}
    (firstOfKind : first = .null ∨ first.isOfKind kind = true)
    (secondOfKind : second = .null ∨ second.isOfKind kind = true)
    (same : first.json = second.json) : first = second := by
  cases first <;> cases second <;>
    simp only [Cell.json, reduceCtorEq, Json.boolean.injEq, Json.integer.injEq,
      Json.text.injEq, false_or] at same firstOfKind secondOfKind ⊢
  -- What is left prints as text, or is of no kind at all.
  all_goals first
    | rw [same]
    | cases kind <;> cases firstOfKind <;> cases secondOfKind

/-- A cell of a schema is neither a list nor a dictionary nor a float. -/
theorem scalar_of_typed {entry : String × Cell}
    (typed : Typed members entry) (floatOf : String → Json) :
    Genuine floatOf entry.2.json ∧ sortKeys entry.2.json = entry.2.json := by
  obtain ⟨member, _, ofKind⟩ := typed
  cases cell : entry.2 with
  | other json =>
    rw [cell] at ofKind
    rcases ofKind with isNull | ofKind
    · cases isNull
    · cases member.valueKind <;> cases ofKind
  | _ => exact ⟨trivial, rfl⟩

theorem genuine_row {row : ResultRow} (typed : ∀ entry ∈ row.cells, Typed members entry)
    (floatOf : String → Json) :
    Genuine floatOf row.json ∧ sortKeys row.json = row.json := by
  have names : ((row.cells.map fun entry => (entry.1, entry.2.json)).map
      Prod.fst).Pairwise (· < ·) := by
    rw [map_map]
    exact List.pairwise_map.mpr row.ordered
  constructor
  · refine ⟨names.imp ne_of_lt, genuineEntries_iff.mpr ?_⟩
    intro printed member
    obtain ⟨entry, isCell, rfl⟩ := List.mem_map.mp member
    exact (scalar_of_typed (typed entry isCell) floatOf).1
  · have scalars : ∀ cells : List (String × Cell), (∀ entry ∈ cells, Typed members entry) →
          sortValues (cells.map fun entry => (entry.1, entry.2.json)) =
            cells.map fun entry => (entry.1, entry.2.json) := by
      intro cells typed
      induction cells with
      | nil => rfl
      | cons entry cells ih =>
        rw [map_cons, sortValues, ih fun other member =>
          typed other (mem_cons_of_mem _ member),
          (scalar_of_typed (typed entry mem_cons_self) floatOf).2]
    show Json.dict (sortedEntries (row.cells.map fun entry => (entry.1, entry.2.json))) = _
    rw [sortedEntries, scalars row.cells typed, List.Pairwise.insertionSort_eq]
    · rfl
    · exact (List.pairwise_map.mp names).imp le_of_lt

theorem genuine_rowsJson (typed : ∀ row ∈ rows, ∀ entry ∈ row.cells, Typed members entry)
    (floatOf : String → Json) :
    Genuine floatOf (rowsJson rows) ∧ sortKeys (rowsJson rows) = rowsJson rows := by
  constructor
  · apply genuineItems_iff.mpr
    intro item member
    obtain ⟨row, isRow, rfl⟩ := List.mem_map.mp member
    exact (genuine_row (typed row isRow) floatOf).1
  · show Json.list (sortItems (rows.map ResultRow.json)) = _
    rw [rowsJson]
    congr 1
    induction rows with
    | nil => rfl
    | cons row rows ih =>
      rw [map_cons, sortItems, (genuine_row (typed row mem_cons_self) floatOf).2,
        ih fun other member => typed other (mem_cons_of_mem _ member)]

theorem cells_eq_of_json {first second : List (String × Cell)}
    (firstTyped : ∀ entry ∈ first, Typed members entry)
    (secondTyped : ∀ entry ∈ second, Typed members entry)
    (same : (first.map fun (name, cell) => (name, cell.json)) =
      second.map fun (name, cell) => (name, cell.json)) : first = second := by
  induction first generalizing second with
  | nil => exact (List.map_eq_nil_iff.mp same.symm).symm
  | cons entry rest ih =>
    cases second with
    | nil => cases same
    | cons other others =>
      obtain ⟨same, sameRest⟩ := List.cons.inj same
      obtain ⟨sameName, sameJson⟩ := Prod.mk.inj same
      obtain ⟨member, found, ofKind⟩ := firstTyped entry mem_cons_self
      obtain ⟨again, refound, otherOfKind⟩ := secondTyped other mem_cons_self
      rw [← sameName, found] at refound
      cases refound
      rw [Prod.ext sameName (cell_eq_of_json ofKind otherOfKind sameJson),
        ih (fun entry isRest => firstTyped entry (mem_cons_of_mem _ isRest))
          (fun entry isRest => secondTyped entry (mem_cons_of_mem _ isRest))
          sameRest]

theorem row_eq_of_cells {first second : ResultRow}
    (same : first.cells = second.cells) : first = second := by
  cases first
  cases second
  cases same
  rfl

theorem rows_eq_of_json {first second : List ResultRow}
    (firstTyped : ∀ row ∈ first, ∀ entry ∈ row.cells, Typed members entry)
    (secondTyped : ∀ row ∈ second, ∀ entry ∈ row.cells, Typed members entry)
    (same : rowsJson first = rowsJson second) : first = second := by
  have same : first.map ResultRow.json = second.map ResultRow.json := Json.list.inj same
  induction first generalizing second with
  | nil => exact (List.map_eq_nil_iff.mp same.symm).symm
  | cons row rest ih =>
    cases second with
    | nil => cases same
    | cons other others =>
      obtain ⟨same, sameRest⟩ := List.cons.inj same
      have sameCells := cells_eq_of_json (firstTyped row mem_cons_self)
        (secondTyped other mem_cons_self) (Json.dict.inj same)
      rw [row_eq_of_cells sameCells,
        ih (fun row isRest => firstTyped row (mem_cons_of_mem _ isRest))
          (fun row isRest => secondTyped row (mem_cons_of_mem _ isRest))
          (congrArg Json.list sameRest) sameRest]

theorem name_of_memberNamed {name : String} (found : memberNamed members name = some member) :
    member.name = name := by
  simpa using List.find?_some found

theorem kindNamed_of_nodup {name : String} (distinct : (members.map ResultMember.name).Nodup)
    (found : memberNamed members name = some member) :
    kindNamed members name = some member.valueKind := by
  have isMember := mem_of_find?_eq_some found
  have named := name_of_memberNamed found
  cases last : memberNamed members.reverse name with
  | none =>
    have absent := List.find?_eq_none.mp last member (List.mem_reverse.mpr isMember)
    exact absurd (decide_eq_true named) absent
  | some other =>
    have isOther := List.mem_reverse.mp (mem_of_find?_eq_some last)
    have same : other = member :=
      inj_on_of_nodup_map distinct isOther isMember ((name_of_memberNamed last).trans named.symm)
    rw [kindNamed, last, same]
    rfl

/-- A cell that stands for a value: its text is the one that value prints as. -/
def Canonical : Cell → Prop
  | .decimal printed => decimalText printed = some printed
  | .date printed => dateText printed = some printed
  | .datetime printed => datetimeText printed = some printed
  | _ => True

theorem restoreCell_json {cell : Cell} (canonical : Canonical cell)
    (ofKind : cell = .null ∨ cell.isOfKind kind = true) :
    restoreCell (some kind) cell.json = .ok cell := by
  rcases ofKind with rfl | ofKind
  · rfl
  cases cell with
  | null => rfl
  | other json => cases kind <;> cases ofKind
  | decimal printed =>
    have read : (plainText (.text printed)).bind decimalText = some printed := canonical
    cases kind with
    | decimal | percent | currency =>
      rw [restoreCell, Cell.json, read]
      rfl
    | _ => cases ofKind
  | date printed =>
    have read : (plainText (.text printed)).bind dateText = some printed := canonical
    cases kind with
    | date =>
      rw [restoreCell, Cell.json, read]
      rfl
    | _ => cases ofKind
  | datetime printed =>
    have read : (plainText (.text printed)).bind datetimeText = some printed := canonical
    cases kind with
    | datetime =>
      rw [restoreCell, Cell.json, read]
      rfl
    | _ => cases ofKind
  | _ => cases kind <;> first | rfl | cases ofKind

theorem ofCells_of_ordered {cells : List (String × Cell)}
    (ordered : cells.Pairwise fun first second => first.1 < second.1) :
    (ResultRow.ofCells cells).cells = cells := by
  induction cells with
  | nil => rfl
  | cons entry cells ih =>
    have ⟨before, rest⟩ := List.pairwise_cons.mp ordered
    show insertCell entry.1 entry.2 (ResultRow.ofCells cells).cells = _
    rw [ih rest]
    cases cells with
    | nil => rfl
    | cons next cells =>
      show (if entry.1 < next.1 then _ else _) = _
      rw [if_pos (before next mem_cons_self)]

theorem restoreRow_json {row : ResultRow} (distinct : (members.map ResultMember.name).Nodup)
    (typed : ∀ entry ∈ row.cells, Typed members entry)
    (canonical : ∀ entry ∈ row.cells, Canonical entry.2) :
    restoreRow members (row.cells.map fun (name, cell) => (name, cell.json)) = .ok row := by
  have restored : (row.cells.map fun entry => (entry.1, entry.2.json)).mapM (fun entry => do
        return (entry.1, ← restoreCell (kindNamed members entry.1) entry.2)) =
      .ok row.cells := by
    rw [mapM_map]
    refine (@mapM_of_ok _ _ _ _ row.cells id fun entry isCell => ?_).trans
      (congrArg Except.ok (map_id _))
    obtain ⟨member, found, ofKind⟩ := typed entry isCell
    show (do return (entry.1, ← restoreCell (kindNamed members entry.1) entry.2.json)) = _
    rw [kindNamed_of_nodup distinct found, restoreCell_json (canonical entry isCell) ofKind]
    rfl
  show ((row.cells.map fun entry => (entry.1, entry.2.json)).mapM (fun entry => do
    return (entry.1, ← restoreCell (kindNamed members entry.1) entry.2)) >>= fun cells =>
      return ResultRow.ofCells cells) = _
  rw [restored]
  show Except.ok (ResultRow.ofCells row.cells) = _
  rw [row_eq_of_cells (ofCells_of_ordered row.ordered)]

theorem restoreTypedRows_json (valid : validateResultRows members rows = .ok ())
    (canonical : ∀ row ∈ rows, ∀ entry ∈ row.cells, Canonical entry.2) :
    restoreTypedRows members (rowsJson rows) = .ok rows := by
  have distinct : (members.map ResultMember.name).Nodup := by
    simp only [validateResultRows] at valid
    split at valid
    · cases valid
    · rename_i nodup
      exact not_not.mp nodup
  have typed := typed_of_valid valid
  rw [rowsJson, restoreTypedRows, mapM_map]
  refine (@mapM_of_ok _ _ _ _ rows id fun row isRow => ?_).trans (congrArg Except.ok (map_id _))
  exact restoreRow_json distinct (typed row isRow) (canonical row isRow)

structure Sealing (lib : Libraries Key Bytes)
    (keyring : EventEncryptionKeyring Key) (nonce : Bytes) (draft : EventFields)
    (rows : List ResultRow) (event : ExecutionEvent)
    (stored : StoredExecutionEvent Bytes) : Prop where
  canonical : ∀ row ∈ rows, ∀ entry ∈ row.cells, Canonical entry.2
  floats : GenuineFloats lib.floatOf draft
  created : createEvent lib draft rows = .ok event
  encrypted : event.fields.payloadMode = .encrypted
  encoded : encodeEvent lib (some keyring) nonce event = .ok stored

theorem raiseWhen_eq_ok {wrong : Bool} {message : String} {done : Unit} :
    raiseWhen wrong message = .ok done ↔ wrong = false := by
  unfold raiseWhen
  cases wrong <;> simp

structure Digested (lib : Libraries Key Bytes) (event : ExecutionEvent) : Prop where
  rows : validateResultRows event.fields.resultMembers event.resultRows = .ok ()
  result : canonicalDigest lib (rowsJson event.resultRows) = .ok event.fields.resultDigest
  details : detailEvidenceDigest lib event.fields.detailEvidence =
    .ok event.fields.detailEvidenceDigest
  integrity : recomputedIntegrityDigest lib event.fields = .ok event.integrityDigest

theorem validateDigests_eq_ok {event : ExecutionEvent} :
    validateDigests lib event = .ok () ↔ Digested lib event := by
  simp only [validateDigests, bind_eq_ok, raiseWhen_eq_ok, decide_eq_false_iff_not, not_not]
  constructor
  · rintro ⟨_, rows, _, result, _, rfl, _, details, _, rfl, _, integrity, rfl⟩
    exact ⟨rows, result, details, integrity⟩
  · rintro ⟨rows, result, details, integrity⟩
    exact ⟨(), rows, _, result, (), rfl, _, details, (), rfl, _, integrity, rfl⟩

section Sealed

variable {keyring : EventEncryptionKeyring Key} {nonce : Bytes}
  {draft : EventFields} {rows : List ResultRow} {event : ExecutionEvent}
  {stored : StoredExecutionEvent Bytes}

theorem Sealing.digested (sealing : Sealing lib keyring nonce draft rows event stored) :
    Digested lib event ∧ validateCounts event.fields event.resultRows.length = .ok () := by
  obtain ⟨_, valid, _⟩ := bind_eq_ok.mp sealing.encoded
  obtain ⟨_, digests, counts⟩ := bind_eq_ok.mp valid
  exact ⟨validateDigests_eq_ok.mp digests, counts⟩

theorem Sealing.created_fields (sealing : Sealing lib keyring nonce draft rows event stored) :
    event.fields.bounded = true ∧ GenuineFloats lib.floatOf event.fields ∧
      event.resultRows = rows := by
  have created := sealing.created
  simp only [createEvent, bind_eq_ok] at created
  obtain ⟨details, _, _, _, result, _, made⟩ := created
  split at made
  · cases made
  · rename_i bounded
    obtain ⟨integrity, _, made⟩ := bind_eq_ok.mp made
    cases made
    exact ⟨by simpa using bounded, sealing.floats, rfl⟩

structure Stored (lib : Libraries Key Bytes)
    (keyring : EventEncryptionKeyring Key) (nonce : Bytes) (event : ExecutionEvent)
    (stored : StoredExecutionEvent Bytes) (metadata payload associated : Bytes)
    (key : Key) : Prop where
  isMetadata : canonicalJson lib (.dict (event.fields.metadata lib.stampText)) = .ok metadata
  isPayload : canonicalJson lib (rowsJson event.resultRows) = .ok payload
  isAssociated : aad lib stored = .ok associated
  isKey : keyFor keyring stored.payloadKeyVersion = .ok key
  columns : stored = {
    answerQueryId := .text event.fields.answerQueryId
    projectId := .text event.fields.projectId
    payloadClassification := .text event.fields.payloadClassification.name
    metadataJson := .bytes metadata
    integrityDigest := .text event.integrityDigest
    resultDigest := .text event.fields.resultDigest
    payloadCiphertext := .bytes (lib.encrypt key nonce payload associated)
    payloadNonce := .bytes nonce
    payloadKeyVersion := .text keyring.currentVersion
    retentionAt := .stamp event.fields.retentionAt }

theorem Sealing.columns (sealing : Sealing lib keyring nonce draft rows event stored) :
    ∃ metadata payload associated key,
      Stored lib keyring nonce event stored metadata payload associated key := by
  obtain ⟨_, _, rest⟩ := bind_eq_ok.mp sealing.encoded
  obtain ⟨metadata, isMetadata, rest⟩ := bind_eq_ok.mp rest
  rw [sealing.encrypted] at rest
  obtain ⟨payload, isPayload, rest⟩ := bind_eq_ok.mp rest
  obtain ⟨associated, isAssociated, rest⟩ := bind_eq_ok.mp rest
  obtain ⟨key, isKey, rest⟩ := bind_eq_ok.mp rest
  cases rest
  exact ⟨metadata, payload, associated, key, isMetadata, isPayload, isAssociated, isKey, rfl⟩

/-- A JSON column holds what Python holds. -/
def GenuineColumn (floatOf : String → Json) : Column Bytes → Prop
  | .json value => Genuine floatOf value
  | _ => True

/-- The columns that are bound by the associated data. -/
def GenuineColumns (lib : Libraries Key Bytes) (record : StoredExecutionEvent Bytes) : Prop :=
  GenuineColumn lib.floatOf record.answerQueryId ∧ GenuineColumn lib.floatOf record.projectId ∧
    GenuineColumn lib.floatOf record.integrityDigest ∧
    GenuineColumn lib.floatOf record.resultDigest

theorem genuine_payload {column : Column Bytes} {json : Json}
    (genuine : GenuineColumn lib.floatOf column)
    (printed : column.payload lib = .ok json) : Genuine lib.floatOf json := by
  cases column with
  | json value =>
    obtain ⟨_, _, rfl⟩ := map_eq_ok.mp printed
    exact genuine
  | object text hashable =>
    obtain ⟨_, _, rfl⟩ := map_eq_ok.mp printed
    trivial
  | _ =>
    cases printed
    trivial

theorem nodup_aadEntries (answerQueryId projectId integrityDigest resultDigest :
    Json) : ((aadEntries answerQueryId projectId integrityDigest
      resultDigest).map Prod.fst).Nodup := by
  show ["answer_query_id", "project_id", "integrity_digest", "result_digest"].Nodup
  decide

theorem genuine_aadEntries {floatOf : String → Json}
    {answerQueryId projectId resultDigest : Json} (digest : String)
    (genuineId : Genuine floatOf answerQueryId)
    (genuineProject : Genuine floatOf projectId)
    (genuineResult : Genuine floatOf resultDigest) :
    Genuine floatOf (.dict (aadEntries answerQueryId projectId (.text digest) resultDigest)) :=
  ⟨nodup_aadEntries _ _ _ _, genuineId, genuineProject, trivial, genuineResult, trivial⟩

variable {associated : Bytes}

theorem integrity_eq_of_aad (lawful : Lawful lib) {first second : StoredExecutionEvent Bytes}
    {digest other : String} (firstGenuine : GenuineColumns lib first)
    (secondGenuine : GenuineColumns lib second)
    (firstAad : aad lib first = .ok associated)
    (secondAad : aad lib second = .ok associated)
    (firstDigest : first.integrityDigest = .text digest)
    (secondDigest : second.integrityDigest = .text other) : digest = other := by
  simp only [aad, bind_eq_ok] at firstAad secondAad
  obtain ⟨firstId, isFirstId, _, isFirst, firstProject, isFirstProject,
    firstResult, isFirstResult, firstPrinted⟩ := firstAad
  obtain ⟨secondId, isSecondId, _, isSecond, secondProject, isSecondProject,
    secondResult, isSecondResult, secondPrinted⟩ := secondAad
  rw [firstDigest] at isFirst
  rw [secondDigest] at isSecond
  cases isFirst
  cases isSecond
  have same := sortKeys_eq_of_canonicalJson lawful
    (genuine_aadEntries digest (genuine_payload firstGenuine.1 isFirstId)
      (genuine_payload firstGenuine.2.1 isFirstProject)
      (genuine_payload firstGenuine.2.2.2 isFirstResult))
    (genuine_aadEntries other (genuine_payload secondGenuine.1 isSecondId)
      (genuine_payload secondGenuine.2.1 isSecondProject)
      (genuine_payload secondGenuine.2.2.2 isSecondResult))
    firstPrinted secondPrinted
  have found := congrArg (List.lookup "integrity_digest") (Json.dict.inj same)
  change (sortedEntries _).lookup _ = (sortedEntries _).lookup _ at found
  rw [lookup_sortedEntries (nodup_aadEntries _ _ _ _),
    lookup_sortedEntries (nodup_aadEntries _ _ _ _)] at found
  exact Json.text.inj (Option.some.inj found)

/-- A record whose payload, key and associated data are those of another. -/
structure SamePayload (lib : Libraries Key Bytes) (keyring : EventEncryptionKeyring Key)
    (stored record : StoredExecutionEvent Bytes) : Prop where
  nonce : record.payloadNonce = stored.payloadNonce
  ciphertext : record.payloadCiphertext = stored.payloadCiphertext
  key : keyFor keyring record.payloadKeyVersion = keyFor keyring stored.payloadKeyVersion
  associated : aad lib record = aad lib stored

/-- What is made of a sealed record: nothing decrypts but its payload with its
associated data. -/
structure Changed (lib : Libraries Key Bytes) (keyring : EventEncryptionKeyring Key)
    (stored record : StoredExecutionEvent Bytes) : Prop where
  authentic : ∀ raw, decryptPayload lib keyring record = .ok raw →
    SamePayload lib keyring stored record
  genuine : GenuineColumns lib record

variable {record : StoredExecutionEvent Bytes}

theorem decryptPayload_of_same (same : SamePayload lib keyring stored record) :
    decryptPayload lib keyring record = decryptPayload lib keyring stored := by
  unfold decryptPayload
  rw [same.associated, same.key, same.nonce, same.ciphertext]

theorem decryptPayload_stored (lawful : Lawful lib) {metadata payload : Bytes} {key : Key}
    (columns : Stored lib keyring nonce event stored metadata payload associated
      key) : decryptPayload lib keyring stored = .ok payload := by
  unfold decryptPayload
  rw [columns.isAssociated, columns.isKey, columns.columns]
  exact lawful.opens key nonce payload associated

variable {found : ExecutionEvent}

theorem eq_of_digested (lawful : Lawful lib)
    (sealing : Sealing lib keyring nonce draft rows event stored)
    (bounded : found.fields.bounded = true)
    (floats : GenuineFloats lib.floatOf found.fields)
    (sameDigest : found.integrityDigest = event.integrityDigest)
    (digested : Digested lib found) : found = event := by
  have own := sealing.digested.1
  have ⟨ownBounded, ownFloats, _⟩ := sealing.created_fields
  have foundIntegrity := digested.integrity
  rw [sameDigest] at foundIntegrity
  have sameFields : found.fields = event.fields :=
    fields_eq_of_digest lawful bounded ownBounded floats ownFloats digested.details
      own.details foundIntegrity own.integrity
  have foundValid := digested.rows
  have foundResult := digested.result
  rw [sameFields] at foundValid foundResult
  have foundTyped := typed_of_valid foundValid
  have ownTyped := typed_of_valid own.rows
  have ⟨foundGenuine, foundSorted⟩ := genuine_rowsJson foundTyped lib.floatOf
  have ⟨ownGenuine, ownSorted⟩ := genuine_rowsJson ownTyped lib.floatOf
  have sameJson := sortKeys_eq_of_digest lawful foundGenuine ownGenuine foundResult own.result
  rw [foundSorted, ownSorted] at sameJson
  have sameRows := rows_eq_of_json foundTyped ownTyped sameJson
  cases found
  cases event
  cases sameFields
  cases sameRows
  cases sameDigest
  rfl

theorem digest_eq_of_same {metadata payload : Bytes} {key : Key}
    (columns : Stored lib keyring nonce event stored metadata payload associated key)
    (same : SamePayload lib keyring stored record) (lawful : Lawful lib)
    (genuine : GenuineColumns lib record) {digest : String}
    (isDigest : textOf record.integrityDigest = .ok digest) :
    digest = event.integrityDigest := by
  have storedGenuine : GenuineColumns lib stored := by
    rw [columns.columns]
    exact ⟨trivial, trivial, trivial, trivial⟩
  cases column : record.integrityDigest with
  | text found =>
    rw [column] at isDigest
    cases isDigest
    apply integrity_eq_of_aad lawful genuine storedGenuine
      (same.associated.trans columns.isAssociated) columns.isAssociated column
    rw [columns.columns]
  | _ =>
    rw [column] at isDigest
    cases isDigest

variable {fields : EventFields}

theorem readFields_of_built {entries : Entries} (built : buildFields lib entries = .ok fields) :
    lib.readFields entries = .ok fields := by
  unfold buildFields at built
  split at built
  · cases built
  · exact mapError_eq_ok.mp built

theorem openEvent_eq (lawful : Lawful lib)
    (sealing : Sealing lib keyring nonce draft rows event stored)
    (changed : Changed lib keyring stored record)
    (opened : openEvent lib keyring record = .ok found) : found = event := by
  obtain ⟨metadata, payload, associated, key, columns⟩ := sealing.columns
  simp only [openEvent, eventOf, bind_eq_ok] at opened
  obtain ⟨raw, decrypted, _, _, _, _, ⟨entries, listed⟩, _, members, _, resultRows,
    _, fields, built, digest, isDigest, _, valid, _, _, made⟩ := opened
  cases made
  have sameDigest := digest_eq_of_same columns (changed.authentic raw decrypted)
    lawful changed.genuine isDigest
  have ⟨bounded, floats⟩ := lawful.readFields_bounded entries fields (readFields_of_built built)
  obtain ⟨_, digests, _⟩ := bind_eq_ok.mp valid
  exact eq_of_digested lawful sealing bounded floats sameDigest (validateDigests_eq_ok.mp digests)

theorem lookup_members (stampText : Stamp → String) (fields : EventFields) :
    (fields.metadata stampText).lookup "result_members" =
      some (.list (fields.resultMembers.map fun member =>
        .dict (dumpMember member))) := by
  unfold EventFields.metadata
  split
  · have kept := @lookup_filter_keys _ (fields.dump stampText) "result_members"
      fun name => decide (name ≠ "detail_evidence" ∧ name ≠ "detail_evidence_digest")
    exact kept
  · rfl

theorem readMembers_metadata (lawful : Lawful lib) (members : List ResultMember) :
    readMembers lib (sortKeys (.list (members.map fun member =>
      .dict (dumpMember member)))) = .ok members := by
  have sorted : sortItems (members.map fun member => Json.dict (dumpMember member)) =
      members.map fun member => Json.dict (sortedEntries (dumpMember member)) := by
    induction members with
    | nil => rfl
    | cons member members ih => rw [map_cons, sortItems, ih]; rfl
  rw [sortKeys, sorted, readMembers, mapM_map]
  refine (@mapM_of_ok _ _ _ _ members id fun member _ => ?_).trans (congrArg Except.ok (map_id _))
  show (lib.readMember (sortedEntries (dumpMember member))).mapError _ = _
  rw [lawful.readsMember]
  rfl

theorem hasKey_metadata (stampText : Stamp → String) (fields : EventFields)
    {name : String} (foreign : name ∉ fieldNames) :
    hasKey (sortedEntries (fields.metadata stampText)) name = false := by
  rw [hasKey, lookup_sortedEntries (nodup_metadata stampText fields)]
  cases found : (fields.metadata stampText).lookup name with
  | none => rfl
  | some value =>
    have member := mem_map_of_mem (f := Prod.fst) (mem_of_lookup_eq_some found)
    exact absurd ((names_metadata stampText fields).subset member) foreign

theorem buildFields_metadata (lawful : Lawful lib)
    (bounded : fields.bounded = true) (floats : GenuineFloats lib.floatOf fields)
    (details : detailEvidenceDigest lib fields.detailEvidence = .ok fields.detailEvidenceDigest) :
    buildFields lib (sortedEntries (fields.metadata lib.stampText)) = .ok fields := by
  rw [buildFields, hasKey_metadata _ _ (by decide +kernel), hasKey_metadata _ _ (by decide +kernel),
    lawful.readsFields fields bounded floats details]
  rfl

theorem openEvent_stored (lawful : Lawful lib)
    (sealing : Sealing lib keyring nonce draft rows event stored) :
    openEvent lib keyring stored = .ok event := by
  obtain ⟨metadata, payload, associated, key, columns⟩ := sealing.columns
  have ⟨digested, counts⟩ := sealing.digested
  have ⟨bounded, floats, sameRows⟩ := sealing.created_fields
  have canonical := sealing.canonical
  rw [← sameRows] at canonical
  have ⟨genuine, sorted⟩ := genuine_rowsJson (typed_of_valid digested.rows) lib.floatOf
  have rowsRead := loadBytes_canonicalJson lawful genuine columns.isPayload
  rw [sorted] at rowsRead
  have metadataRead := loadBytes_canonicalJson lawful (genuine_metadata _ floats) columns.isMetadata
  have listed : listedMembers (sortKeys (.dict (event.fields.metadata lib.stampText)))
      = .ok (sortedEntries (event.fields.metadata lib.stampText),
        sortKeys (.list (event.fields.resultMembers.map fun member =>
          .dict (dumpMember member)))) := by
    show listedMembers (.dict (sortedEntries _)) = _
    rw [listedMembers, lookup_sortedEntries (nodup_metadata _ _), lookup_members]
    rfl
  have valid : validateIntegrity lib event = .ok () :=
    bind_eq_ok.mpr ⟨(), validateDigests_eq_ok.mpr digested, counts⟩
  have bound : validateRecordBinding stored event = .ok () := by
    rw [columns.columns]
    simp [validateRecordBinding, Column.isText]
  have isMetadata : stored.metadataJson = .bytes metadata := by
    rw [columns.columns]
  have isDigest : stored.integrityDigest = .text event.integrityDigest := by
    rw [columns.columns]
  simp only [openEvent, eventOf, bind_eq_ok]
  refine ⟨payload, decryptPayload_stored lawful columns, _, rowsRead, _, ?_, _,
    listed, _, readMembers_metadata lawful _, _,
    restoreTypedRows_json digested.rows canonical, _,
    buildFields_metadata lawful bounded floats digested.details, _, ?_, _, valid, _, bound,
    rfl⟩
  · rw [isMetadata]
    exact metadataRead
  · rw [isDigest]
    rfl

end Sealed

end McpAssistant.BusinessQuery.SealedEvents
