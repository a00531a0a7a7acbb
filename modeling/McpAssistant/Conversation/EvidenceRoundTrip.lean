import McpAssistant.Conversation.EvidenceStore

/-!
# Evidence that reads back

A stored snapshot is returned exactly when its row says again what was bound:
the project is the fixed one, both times show the offset the database gives
back, and the stored key version leads to the key it was sealed with.  A row
whose bound columns or ciphertext were changed returns nothing.
-/

namespace McpAssistant.Conversation.EvidenceRoundTrip

open Foundations.Fallible
open Foundations.FlatJson
open Foundations.JsonText
open EvidenceStore

variable {Payload Key Bytes : Type} {lib : Libraries Payload Key Bytes}
  {keyring : EventEncryptionKeyring Key}

/-- A message that was encrypted. -/
structure Sealed (Key Bytes : Type) where
  key : Key
  nonce : Bytes
  plain : Bytes
  associated : Bytes

structure Lawful (lib : Libraries Payload Key Bytes) (sealed : Sealed Key Bytes → Prop) : Prop where
  utf8_injective : ∀ first second, lib.utf8 first = lib.utf8 second → first = second
  isoText_utc : ∀ instant time, lib.isoText (utc instant) = lib.isoText time → time = utc instant
  opens : ∀ message, sealed message → lib.decrypt message.key message.nonce
        (lib.encrypt message.key message.nonce message.plain message.associated)
        message.associated =
      some message.plain
  authentic : ∀ key nonce ciphertext associated plain,
    lib.decrypt key nonce ciphertext associated = some plain →
      sealed ⟨key, nonce, plain, associated⟩ ∧
      ciphertext = lib.encrypt key nonce plain associated

def boundWith (lib : Libraries Payload Key Bytes) (bindings : SnapshotBindings)
    (payload : Payload) : SnapshotBindings :=
  { bindings with contentDigest := some (lib.hexdigest (lib.dumpPayload payload)) }

theorem optionalInteger_inj {first second : Option Int} :
    optionalInteger first = optionalInteger second ↔ first = second := by
  cases first <;> cases second <;> simp [optionalInteger]

theorem optionalText_inj {first second : Option String} :
    optionalText first = optionalText second ↔ first = second := by
  cases first <;> cases second <;> simp [optionalText]

/-- What a row gives back as the associated data of some bindings is these
bindings. -/
theorem rebuiltBindings_eq {sealed : Sealed Key Bytes → Prop}
    (lawful : Lawful lib sealed) {row : AskEvidenceSnapshot Bytes}
    {bound : SnapshotBindings}
    (same : canonicalBindingBytes lib (rebuiltBindings row) =
      canonicalBindingBytes lib bound) : rebuiltBindings row = bound := by
  have sorted := dumpFlat_injective (String.ofList_injective (lawful.utf8_injective _ _ same))
  have member : ∀ entry ∈ dumpBindings lib (rebuiltBindings row),
      entry ∈ dumpBindings lib bound := by
    intro entry isFirst
    rw [← List.mem_insertionSort fun left right => left.1 ≤ right.1, ← sorted,
      List.mem_insertionSort]
    exact isFirst
  simp [dumpBindings, optionalInteger_inj, optionalText_inj] at member
  rcases member with ⟨project, actorId, entityId, departmentId, threadId, runId,
    exchangeId, schemaVersion, contentDigest, createdAt, expiresAt, tombstone⟩
  have created := lawful.isoText_utc _ _ createdAt
  have expires := lawful.isoText_utc _ _ expiresAt
  cases bound
  simp only [SnapshotBindings.mk.injEq, rebuiltBindings] at created expires ⊢
  exact ⟨project, actorId, entityId, departmentId, threadId, runId, exchangeId,
    schemaVersion, contentDigest, created.symm, expires.symm, tombstone⟩

section Stored

variable {sealed : Sealed Key Bytes → Prop} {nonce : Bytes}
  {bindings : SnapshotBindings} {payload : Payload}
  {stored row : AskEvidenceSnapshot Bytes}

def SealedOnce (lib : Libraries Payload Key Bytes)
    (keyring : EventEncryptionKeyring Key) (sealed : Sealed Key Bytes → Prop)
    (nonce : Bytes) (bindings : SnapshotBindings) (payload : Payload) : Prop :=
  ∀ message, message.nonce = nonce → (sealed message ↔
      keyFor keyring keyring.currentVersion = some message.key ∧
      message.plain = lib.dumpPayload payload ∧
      message.associated = canonicalBindingBytes lib (boundWith lib bindings payload))

structure Stored (lib : Libraries Payload Key Bytes)
    (keyring : EventEncryptionKeyring Key) (nonce : Bytes) (bindings : SnapshotBindings)
    (payload : Payload) (stored : AskEvidenceSnapshot Bytes) : Prop where
  columns : rebuiltBindings stored = {
    boundWith lib bindings payload with
    project := "default"
    createdAt := utc bindings.createdAt.instant
    expiresAt := utc bindings.expiresAt.instant }
  version : storedVersion lib keyring.currentVersion = some stored.keyVersion
  underNonce : stored.nonce = nonce
  ciphertext : ∃ key, keyFor keyring keyring.currentVersion = some key ∧
    stored.ciphertext = lib.encrypt key nonce (lib.dumpPayload payload)
      (canonicalBindingBytes lib (boundWith lib bindings payload))

theorem require_eq_ok {Failure Value : Type} {failure : Failure} {found : Option Value}
    {value : Value} : require failure found = .ok value ↔ found = some value := by
  cases found <;> simp [require]

variable {table : List (AskEvidenceSnapshot Bytes)}

theorem stored_of_put {drawn : String} {restoreRef : Option String}
    (isPut : put lib keyring table nonce drawn bindings payload restoreRef =
      .ok stored) : Stored lib keyring nonce bindings payload stored := by
  unfold put at isPut
  simp only at isPut
  split at isPut
  · cases isPut
  · rcases bind_eq_ok.mp isPut with ⟨key, isKey, isPut⟩
    split at isPut
    · cases isPut
    · rcases bind_eq_ok.mp isPut with ⟨version, isVersion, isPut⟩
      split at isPut
      · cases isPut
        exact ⟨rfl, require_eq_ok.mp isVersion, rfl, key, require_eq_ok.mp isKey, rfl⟩
      · cases isPut

theorem decryptRow_eq_some (lawful : Lawful lib sealed)
    (once : SealedOnce lib keyring sealed nonce bindings payload)
    (isStored : Stored lib keyring nonce bindings payload stored)
    (sameNonce : row.nonce = stored.nonce) {plain : Bytes} :
    decryptRow lib keyring row = some plain ↔
      keyFor keyring (lookupVersion keyring row.keyVersion) =
        keyFor keyring keyring.currentVersion ∧
      canonicalBindingBytes lib (rebuiltBindings row) =
        canonicalBindingBytes lib (boundWith lib bindings payload) ∧
      row.ciphertext = stored.ciphertext ∧
      plain = lib.dumpPayload payload := by
  rcases isStored.ciphertext with ⟨key, current, ciphertext⟩
  unfold decryptRow
  rw [sameNonce, isStored.underNonce, current, ciphertext]
  constructor
  · intro opened
    rcases Option.bind_eq_some_iff.mp opened with ⟨used, isUsed, opened⟩
    rcases lawful.authentic _ _ _ _ _ opened with ⟨isSealed, isCiphertext⟩
    rcases (once _ rfl).mp isSealed with ⟨sameKey, samePlain, sameData⟩
    cases sameKey.symm.trans current
    cases samePlain
    exact ⟨isUsed, sameData, isCiphertext.trans (congrArg _ sameData), rfl⟩
  · rintro ⟨sameKey, sameData, sameText, rfl⟩
    apply Option.bind_eq_some_iff.mpr
    refine ⟨key, sameKey, ?_⟩
    rw [sameText, sameData]
    apply lawful.opens ⟨key, nonce, _, _⟩
    exact (once ⟨key, nonce, _, _⟩ rfl).mpr ⟨current, rfl, rfl⟩

/-- Bindings with their times shown in UTC, as two bindings are compared. -/
def inUtc (bound : SnapshotBindings) : SnapshotBindings :=
  { bound with
    createdAt := utc bound.createdAt.instant
    expiresAt := utc bound.expiresAt.instant }

def GivesContent (lib : Libraries Payload Key Bytes) (bindings : SnapshotBindings)
    (payload : Payload) (restoreRef : String)
    (read : Except GetFailure (Option (EvidenceSnapshot Payload))) : Prop :=
  ∃ snapshot, read = .ok (some snapshot) ∧ snapshot.restoreRef = restoreRef ∧
    snapshot.payload = payload ∧
    inUtc snapshot.bindings = inUtc (boundWith lib bindings payload)

/-- The snapshots that read back: of the project that reading assumes, with both
times in UTC, of a schema version the reader knows, sealed under a key version
that its stored number leads back to, and with a payload that reads back from its
own text. -/
structure ReadsBack (lib : Libraries Payload Key Bytes)
    (keyring : EventEncryptionKeyring Key) (bindings : SnapshotBindings)
    (payload : Payload) : Prop where
  project : bindings.project = "default"
  created : bindings.createdAt.offset = 0
  expires : bindings.expiresAt.offset = 0
  schemaVersion : bindings.schemaVersion ≤ readableSchemaVersion
  keyVersion : ∀ number, storedVersion lib keyring.currentVersion = some number →
    keyFor keyring (lookupVersion keyring number) = keyFor keyring keyring.currentVersion
  payload : readPayload lib (lib.dumpPayload payload) = .ok (some payload)

theorem eq_utc_iff {time : Datetime} : utc time.instant = time ↔ time.offset = 0 := by
  cases time
  simp [utc, eq_comm]

/-- A stored row says again what was bound when the project is the fixed one and
both times are in UTC. -/
theorem rebuiltBindings_eq_boundWith (isStored : Stored lib keyring nonce bindings payload stored) :
    rebuiltBindings stored = boundWith lib bindings payload ↔
      bindings.project = "default" ∧ bindings.createdAt.offset = 0 ∧
      bindings.expiresAt.offset = 0 := by
  rw [isStored.columns, ← eq_utc_iff, ← eq_utc_iff]
  simp [boundWith, eq_comm]

theorem readRow_eq_none (closed : decryptRow lib keyring row = none) :
    readRow lib keyring row = .ok none := by
  unfold readRow
  simp only [closed, ite_self]

theorem readRow_stored (lawful : Lawful lib sealed)
    (once : SealedOnce lib keyring sealed nonce bindings payload)
    (isStored : Stored lib keyring nonce bindings payload stored) :
    GivesContent lib bindings payload stored.restoreRef (readRow lib keyring stored) ↔
      ReadsBack lib keyring bindings payload := by
  have opens := fun plain =>
    @decryptRow_eq_some _ _ _ lib keyring _ _ _ _ _ stored lawful once isStored rfl plain
  have schemaVersion : stored.schemaVersion = bindings.schemaVersion :=
    congrArg SnapshotBindings.schemaVersion isStored.columns
  have digest : some stored.contentDigest = some (lib.hexdigest (lib.dumpPayload payload)) :=
    congrArg SnapshotBindings.contentDigest isStored.columns
  have digest := Option.some.inj digest
  constructor
  · rintro ⟨snapshot, read, -, samePayload, -⟩
    unfold readRow at read
    split at read
    · cases read
    · next isReadable =>
        split at read
        · cases read
        · next plain opened =>
            rcases (opens plain).mp opened with ⟨sameKey, sameData, -, rfl⟩
            rw [if_neg (not_not.mpr digest.symm)] at read
            rcases map_eq_ok.mp read with ⟨found, isRead, isSnapshot⟩
            rcases Option.map_eq_some_iff.mp isSnapshot with ⟨kept, rfl, rfl⟩
            rcases (rebuiltBindings_eq_boundWith isStored).mp
              (rebuiltBindings_eq lawful sameData) with ⟨project, created, expires⟩
            constructor
            · exact project
            · exact created
            · exact expires
            · exact schemaVersion ▸ Int.not_lt.mp isReadable
            · intro number isNumber
              cases isStored.version.symm.trans isNumber
              exact sameKey
            · exact isRead.trans (by rw [← samePayload])
  · intro readsBack
    have rebuilt := (rebuiltBindings_eq_boundWith isStored).mpr
      ⟨readsBack.project, readsBack.created, readsBack.expires⟩
    have opened := (opens (lib.dumpPayload payload)).mpr
      ⟨readsBack.keyVersion _ isStored.version, by rw [rebuilt], rfl, rfl⟩
    refine ⟨⟨stored.restoreRef, rebuiltBindings stored, payload⟩, ?_, rfl, rfl, ?_⟩
    · unfold readRow
      rw [if_neg (Int.not_lt.mpr (schemaVersion ▸ readsBack.schemaVersion))]
      simp only [opened]
      rw [if_neg (not_not.mpr digest.symm), readsBack.payload]
      rfl
    · rw [rebuilt]

/-- As long as it has not expired, a stored snapshot is returned with the content
that was put. -/
def RoundTrips (lib : Libraries Payload Key Bytes)
    (keyring : EventEncryptionKeyring Key) (bindings : SnapshotBindings)
    (payload : Payload) (stored : AskEvidenceSnapshot Bytes) : Prop :=
  ∀ (now : Int) (table : List (AskEvidenceSnapshot Bytes)), now < bindings.expiresAt.instant →
    (table.filter fun row => row.restoreRef = stored.restoreRef) = [stored] →
    GivesContent lib bindings payload stored.restoreRef (get lib keyring table stored.restoreRef)

/-- A row of which a bound column or the ciphertext was changed returns nothing. -/
def RefusesChanges (lib : Libraries Payload Key Bytes)
    (keyring : EventEncryptionKeyring Key) (stored : AskEvidenceSnapshot Bytes) :
    Prop :=
  ∀ (changed : AskEvidenceSnapshot Bytes) (table : List (AskEvidenceSnapshot Bytes)),
    (table.filter fun row => row.restoreRef = stored.restoreRef) = [changed] →
    changed.nonce = stored.nonce →
    rebuiltBindings changed ≠ rebuiltBindings stored ∨ changed.ciphertext ≠ stored.ciphertext →
    get lib keyring table stored.restoreRef = .ok none

theorem get_of_filter {restoreRef : String}
    (only : (table.filter fun other => other.restoreRef = restoreRef) = [row]) :
    get lib keyring table restoreRef = readRow lib keyring row := by
  unfold EvidenceStore.get
  rw [only]

/-- Whether a snapshot reads back or not, a change to its bound columns or its
ciphertext is refused. -/
theorem refusesChanges (lawful : Lawful lib sealed)
    (once : SealedOnce lib keyring sealed nonce bindings payload)
    (isStored : Stored lib keyring nonce bindings payload stored) :
    RefusesChanges lib keyring stored := by
  intro changed table only sameNonce isChanged
  rw [get_of_filter only]
  apply readRow_eq_none
  apply Option.eq_none_iff_forall_ne_some.mpr
  intro plain opened
  rcases (decryptRow_eq_some lawful once isStored sameNonce).mp opened with
    ⟨-, sameData, sameText, -⟩
  have isBound := rebuiltBindings_eq lawful sameData
  have inDefault : bindings.project = "default" ∧ bindings.createdAt.offset = 0 ∧
      bindings.expiresAt.offset = 0 := by
    refine ⟨?_, ?_, ?_⟩
    · exact (congrArg SnapshotBindings.project isBound).symm
    · exact (congrArg (fun bound => bound.createdAt.offset) isBound).symm
    · exact (congrArg (fun bound => bound.expiresAt.offset) isBound).symm
  rcases isChanged with otherColumn | otherText
  · apply otherColumn
    exact isBound.trans ((rebuiltBindings_eq_boundWith isStored).mpr inDefault).symm
  · exact otherText sameText

/-- **A stored snapshot comes back with its content, and changed rows return
nothing, exactly when the snapshot reads back.** -/
theorem keepsSnapshot_iff_readsBack {table : List (AskEvidenceSnapshot Bytes)}
    {drawn : String} {restoreRef : Option String} (lawful : Lawful lib sealed)
    (once : SealedOnce lib keyring sealed nonce bindings payload)
    (isPut : put lib keyring table nonce drawn bindings payload restoreRef = .ok stored) :
    RoundTrips lib keyring bindings payload stored ∧ RefusesChanges lib keyring stored ↔
      ReadsBack lib keyring bindings payload := by
  have isStored := stored_of_put isPut
  rw [and_iff_left (refusesChanges lawful once isStored), ← readRow_stored lawful once isStored]
  constructor
  · intro roundTrips
    have alone : ([stored].filter fun row => row.restoreRef = stored.restoreRef) = [stored] := by
      simp
    have given := roundTrips (bindings.expiresAt.instant - 1) [stored]
      (Int.sub_one_lt_of_le (Int.le_refl _)) alone
    rw [get_of_filter alone] at given
    exact given
  · intro given now others _ only
    rw [get_of_filter only]
    exact given

end Stored

/-- Bytes with a constructor for what encryption gives. -/
inductive BoxedBytes where
  | text (value : String)
  | box (key : Nat) (nonce plain associated : BoxedBytes)
deriving DecidableEq

def epoch : Datetime :=
  utc 0

def nextDay : Datetime :=
  utc 86400000000

def otherTimeText (time : Datetime) : List Char :=
  '@' :: (dumpInteger time.instant ++ ',' :: dumpInteger time.offset)

/-- The text of the two times of the snapshot; any other time as its numbers. -/
def timeText (time : Datetime) : String :=
  if time = epoch then "1970-01-01T00:00:00Z"
  else if time = nextDay then "1970-01-02T00:00:00Z"
  else String.ofList (otherTimeText time)

theorem timeText_cases (time : Datetime) :
    (time = epoch ∧ (timeText time).toList = "1970-01-01T00:00:00Z".toList) ∨
    (time = nextDay ∧ (timeText time).toList = "1970-01-02T00:00:00Z".toList) ∨
    (timeText time).toList = otherTimeText time := by
  unfold timeText
  split
  · next isEpoch => exact .inl ⟨isEpoch, rfl⟩
  · split
    · next isNext => exact .inr (.inl ⟨isNext, rfl⟩)
    · exact .inr (.inr String.toList_ofList)

theorem otherTimeText_injective {first second : Datetime}
    (same : otherTimeText first = otherTimeText second) : first = second := by
  rcases dumpInteger_append_inj (List.cons.inj same).2 (ends_of_closing _ rfl)
    (ends_of_closing _ rfl) with
    ⟨instant, rest⟩
  cases first
  cases second
  cases instant
  cases dumpInteger_injective (List.cons.inj rest).2
  rfl

theorem timeText_injective {first second : Datetime}
    (same : timeText first = timeText second) : first = second := by
  have letters := congrArg String.toList same
  rcases timeText_cases first with ⟨isFirst, left⟩ | ⟨isFirst, left⟩ | left
  all_goals
    rw [left] at letters
    rcases timeText_cases second with ⟨isSecond, right⟩ | ⟨isSecond, right⟩ | right
  all_goals rw [right] at letters
  case inr.inr.inr.inr => exact otherTimeText_injective letters
  all_goals first
    | exact isFirst.trans isSecond.symm
    | simp [otherTimeText] at letters

/-- Libraries whose decryption opens nothing. -/
def closedLibraries : Libraries String Nat BoxedBytes where
  dumpPayload := .text
  validateJson
    | .text payload => .ok payload
    | .box .. => .error []
  loads _ := .null
  dumps _ := .text "null"
  size
    | .text value => value.utf8ByteSize
    | .box .. => 0
  hexdigest _ := "44136fa355b3678a1146ad16f7e8649e94fb4fc21fe77e8310c060f61caaff8a"
  utf8 := .text
  isoText := timeText
  encrypt := .box
  decrypt _ _ _ _ := none
  decimalDigit letter := if letter.isDigit then some (letter.toNat - 48) else none
  isSpace := Char.isWhitespace
  accepts _ := true

def drawnNonce : BoxedBytes :=
  .text "123456789abc"

def emptyMessage (bindings : SnapshotBindings) : Sealed Nat BoxedBytes where
  key := 7
  nonce := drawnNonce
  plain := .text "\x7b\x7d"
  associated := canonicalBindingBytes closedLibraries
    (boundWith closedLibraries bindings "\x7b\x7d")

def librariesOpening (message : Sealed Nat BoxedBytes) : Libraries String Nat BoxedBytes :=
  { closedLibraries with
    decrypt key nonce ciphertext associated :=
      if key = message.key ∧ nonce = message.nonce ∧ associated = message.associated ∧
          ciphertext = .box key nonce message.plain associated then
        some message.plain
      else none }

theorem lawful_librariesOpening (message : Sealed Nat BoxedBytes) :
    Lawful (librariesOpening message) (· = message) := by
  constructor
  · intro first second same
    exact BoxedBytes.text.inj same
  · intro instant time same
    exact (timeText_injective same).symm
  · rintro _ rfl
    exact if_pos ⟨rfl, rfl, rfl, rfl⟩
  · intro key nonce ciphertext associated plain opened
    simp only [librariesOpening] at opened
    split at opened
    · next isMessage =>
        rcases isMessage with ⟨rfl, rfl, rfl, rfl⟩
        cases opened
        exact ⟨rfl, rfl⟩
    · cases opened

def firstKeyring : EventEncryptionKeyring Nat where
  currentVersion := "v1"
  keys := [("v1", 7)]

def dayBindings (project : String) : SnapshotBindings where
  project := project
  actorId := "4"
  entityId := 2
  threadId := "thread"
  runId := "run"
  exchangeId := "exchange"
  createdAt := epoch
  expiresAt := nextDay

def dayRef : String :=
  "0123456789012345678901234567890123456789012"

def dayRow (project : String) : AskEvidenceSnapshot BoxedBytes where
  restoreRef := dayRef
  actorId := "4"
  entityId := 2
  departmentId := none
  threadId := "thread"
  runId := "run"
  exchangeId := "exchange"
  schemaVersion := 1
  contentDigest := "44136fa355b3678a1146ad16f7e8649e94fb4fc21fe77e8310c060f61caaff8a"
  keyVersion := 1
  nonce := drawnNonce
  ciphertext := .box 7 drawnNonce (.text "\x7b\x7d") (emptyMessage (dayBindings project)).associated
  createdAt := 0
  expiresAt := 86400000000
  tombstone := false

theorem sealedOnce_emptyMessage (bindings : SnapshotBindings) :
    SealedOnce (librariesOpening (emptyMessage bindings)) firstKeyring
      (· = emptyMessage bindings) drawnNonce bindings "\x7b\x7d" := by
  intro message sameNonce
  constructor
  · rintro rfl
    exact ⟨rfl, rfl, rfl⟩
  · rintro ⟨sameKey, samePlain, sameData⟩
    cases message
    cases sameNonce
    cases Option.some.inj sameKey
    cases samePlain
    cases sameData
    rfl

theorem put_dayRow (project : String) :
    put (librariesOpening (emptyMessage (dayBindings project))) firstKeyring []
      drawnNonce dayRef (dayBindings project) "\x7b\x7d" none =
      .ok (dayRow project) := by
  rfl

theorem storedVersion_first (message : Sealed Nat BoxedBytes) :
    storedVersion (librariesOpening message) firstKeyring.currentVersion = some 1 := by
  rfl

theorem readsBack_day :
    ReadsBack (librariesOpening (emptyMessage (dayBindings "default"))) firstKeyring
      (dayBindings "default") "\x7b\x7d" := by
  constructor
  · rfl
  · rfl
  · rfl
  · decide
  · intro number isNumber
    cases (storedVersion_first _).symm.trans isNumber
    rfl
  · rfl

theorem keepsSnapshot_iff_readsBack_day :
    RoundTrips (librariesOpening (emptyMessage (dayBindings "default"))) firstKeyring
        (dayBindings "default") "\x7b\x7d" (dayRow "default") ∧
      RefusesChanges (librariesOpening (emptyMessage (dayBindings "default")))
        firstKeyring (dayRow "default") :=
  (keepsSnapshot_iff_readsBack (lawful_librariesOpening _) (sealedOnce_emptyMessage _)
    (put_dayRow "default")).mpr readsBack_day

/-- A snapshot of the project that the settings name by default is stored and does
not come back. -/
theorem not_keepsSnapshot_of_project :
    Lawful (librariesOpening (emptyMessage (dayBindings "mcp-default")))
        (· = emptyMessage (dayBindings "mcp-default")) ∧
      put (librariesOpening (emptyMessage (dayBindings "mcp-default"))) firstKeyring []
        drawnNonce dayRef (dayBindings "mcp-default") "\x7b\x7d" none =
        .ok (dayRow "mcp-default") ∧
      ¬ (RoundTrips (librariesOpening (emptyMessage (dayBindings "mcp-default")))
          firstKeyring (dayBindings "mcp-default") "\x7b\x7d" (dayRow "mcp-default") ∧
        RefusesChanges (librariesOpening (emptyMessage (dayBindings "mcp-default")))
          firstKeyring (dayRow "mcp-default")) := by
  refine ⟨lawful_librariesOpening _, put_dayRow _, ?_⟩
  rintro ⟨roundTrips, -⟩
  have alone : ([dayRow "mcp-default"].filter fun row =>
      row.restoreRef = (dayRow "mcp-default").restoreRef) = [dayRow "mcp-default"] := by
    simp
  have given := roundTrips 0 _ (by decide) alone
  rw [get_of_filter alone, readRow_stored (lawful_librariesOpening _)
    (sealedOnce_emptyMessage _) (stored_of_put (put_dayRow _))] at given
  exact absurd given.project (by decide)

end McpAssistant.Conversation.EvidenceRoundTrip
