import McpAssistant.Foundations.FlatJson

/-!
# Retained evidence

A snapshot is encrypted with its bindings as associated data and stored with
them as columns.  Reading it builds the bindings again from the columns: with a
fixed project, and with the instants of its times but not their offsets.  The
key version is stored as a number and looked up as that number's text.
-/

namespace McpAssistant.Conversation.EvidenceStore

open Foundations.FlatJson
open Foundations.JsonReading

/-- An instant in microseconds, with the offset its clock shows, in seconds. -/
structure Datetime where
  instant : Int
  offset : Int
deriving DecidableEq

/-- What `timestamptz` gives back for an instant. -/
def utc (instant : Int) : Datetime where
  instant := instant
  offset := 0

structure SnapshotBindings where
  project : String := "default"
  actorId : String
  entityId : Int
  departmentId : Option Int := none
  threadId : String
  runId : String
  exchangeId : String
  schemaVersion : Int := 1
  contentDigest : Option String := none
  createdAt : Datetime
  expiresAt : Datetime
  tombstone : Bool := false
deriving DecidableEq

/-- A row of `ask_evidence_snapshots`; its times are instants. -/
structure AskEvidenceSnapshot (Bytes : Type) where
  restoreRef : String
  actorId : String
  entityId : Int
  departmentId : Option Int
  threadId : String
  runId : String
  exchangeId : String
  schemaVersion : Int
  contentDigest : String
  keyVersion : Int
  nonce : Bytes
  ciphertext : Bytes
  createdAt : Int
  expiresAt : Int
  tombstone : Bool

structure EvidenceSnapshot (Payload : Type) where
  restoreRef : String
  bindings : SnapshotBindings
  payload : Payload

/-! ## Libraries -/

/-- A step of an error's location. -/
inductive Step where
  | key (name : String)
  | index (place : Nat)
deriving DecidableEq

/-- What validation finds wrong, and where. -/
structure Issue where
  kind : String
  location : List Step

/-- What the store rests on: the payload models, hashing, encryption, the text of
a time, and the database's own checks of a row. -/
structure Libraries (Payload Key Bytes : Type) where
  dumpPayload : Payload → Bytes
  validateJson : Bytes → Except (List Issue) Payload
  loads : Bytes → Json
  dumps : Json → Bytes
  size : Bytes → Nat
  hexdigest : Bytes → String
  utf8 : String → Bytes
  isoText : Datetime → String
  encrypt : Key → Bytes → Bytes → Bytes → Bytes
  decrypt : Key → Bytes → Bytes → Bytes → Option Bytes
  decimalDigit : Char → Option Nat
  isSpace : Char → Bool
  accepts : AskEvidenceSnapshot Bytes → Bool

structure EventEncryptionKeyring (Key : Type) where
  currentVersion : String
  keys : List (String × Key)

def keyFor {Key : Type} (keyring : EventEncryptionKeyring Key) (version : String) : Option Key :=
  (keyring.keys.find? fun entry => entry.1 = version).map Prod.snd

variable {Payload Key Bytes : Type}

def optionalInteger : Option Int → Scalar
  | none => .null
  | some value => .integer value

def optionalText : Option String → Scalar
  | none => .null
  | some value => .text value

section Storing

variable (lib : Libraries Payload Key Bytes)

/-- The bindings as JSON values. -/
def dumpBindings (bound : SnapshotBindings) : List (String × Scalar) := [
  ("project", .text bound.project),
  ("actor_id", .text bound.actorId),
  ("entity_id", .integer bound.entityId),
  ("department_id", optionalInteger bound.departmentId),
  ("thread_id", .text bound.threadId),
  ("run_id", .text bound.runId),
  ("exchange_id", .text bound.exchangeId),
  ("schema_version", .integer bound.schemaVersion),
  ("content_digest", optionalText bound.contentDigest),
  ("created_at", .text (lib.isoText bound.createdAt)),
  ("expires_at", .text (lib.isoText bound.expiresAt)),
  ("tombstone", .boolean bound.tombstone)]

def canonicalBindingBytes (bound : SnapshotBindings) : Bytes :=
  lib.utf8 (String.ofList (dumpFlat
    ((dumpBindings lib bound).insertionSort fun first second => first.1 ≤ second.1)))

/-- The digits of a number, each with at most one underscore before it. -/
def readDigits : List Char → Option Nat → Option Nat
  | [], value => value
  | '_' :: letter :: letters, some value =>
    match lib.decimalDigit letter with
    | some digit => readDigits letters (some (10 * value + digit))
    | none => none
  | letter :: letters, value =>
    match lib.decimalDigit letter with
    | some digit => readDigits letters (some (10 * value.getD 0 + digit))
    | none => none

def intOf (text : String) : Option Int :=
  let letters := ((text.toList.dropWhile lib.isSpace).reverse.dropWhile lib.isSpace).reverse
  match letters with
  | '-' :: digits => (readDigits lib digits none).map fun value => -(value : Int)
  | '+' :: digits => (readDigits lib digits none).map Int.ofNat
  | digits => (readDigits lib digits none).map Int.ofNat

/-- The number a key version is stored as. -/
def storedVersion (version : String) : Option Int :=
  intOf lib (String.ofList (version.toList.dropWhile (· = 'v')))

end Storing

def lookupVersion (keyring : EventEncryptionKeyring Key) (stored : Int) : String :=
  let text := toString stored
  if (keyFor keyring text).isNone && (keyFor keyring ("v" ++ text)).isSome then
    "v" ++ text
  else text

def maxSnapshotBytes : Nat := 1048576

inductive PutFailure where
  | tooLarge (message : String)
  | valueError (message : String)
  | refused
deriving DecidableEq

def require {Failure Value : Type} (failure : Failure) : Option Value → Except Failure Value
  | some value => .ok value
  | none => .error failure

section Store

variable (lib : Libraries Payload Key Bytes) (keyring : EventEncryptionKeyring Key)

/-- The reference a caller gives, or one that the store draws. -/
def chooseRef (drawn : String) (restoreRef : Option String) : String :=
  match restoreRef with
  | none => drawn
  | some text => if text = "" then drawn else text

/-- Stores a snapshot under a drawn nonce.  The table holds a reference once. -/
def put (table : List (AskEvidenceSnapshot Bytes)) (nonce : Bytes) (drawn : String)
    (bindings : SnapshotBindings) (payload : Payload) (restoreRef : Option String) :
    Except PutFailure (AskEvidenceSnapshot Bytes) := do
  let plain := lib.dumpPayload payload
  if maxSnapshotBytes < lib.size plain then
    .error (.tooLarge ("snapshot exceeds limit (" ++ toString (lib.size plain) ++ " > " ++
      toString maxSnapshotBytes ++ " bytes)"))
  else
    let digest := lib.hexdigest plain
    let bound := { bindings with contentDigest := some digest }
    let associated := canonicalBindingBytes lib bound
    let key ← require (.valueError "event encryption key version unavailable")
      (keyFor keyring keyring.currentVersion)
    let reference := chooseRef drawn restoreRef
    if reference.length ≠ 43 then
      .error (.valueError ("restore_ref must be exactly 43 characters, got " ++
        toString reference.length))
    else
      let version ← require (.valueError "invalid literal for int() with base 10")
        (storedVersion lib keyring.currentVersion)
      let row : AskEvidenceSnapshot Bytes := {
        restoreRef := reference
        actorId := bound.actorId
        entityId := bound.entityId
        departmentId := bound.departmentId
        threadId := bound.threadId
        runId := bound.runId
        exchangeId := bound.exchangeId
        schemaVersion := bound.schemaVersion
        contentDigest := digest
        keyVersion := version
        nonce := nonce
        ciphertext := lib.encrypt key nonce plain associated
        createdAt := bound.createdAt.instant
        expiresAt := bound.expiresAt.instant
        tombstone := bound.tombstone }
      if lib.accepts row && table.all fun other => other.restoreRef ≠ reference then
        .ok row
      else .error .refused

inductive GetFailure where
  | multipleResults
  | attributeError
  | valueError
deriving DecidableEq

/-- `node[part]`, where a miss is caught. -/
def child : Json → Step → Option Json
  | .dict entries, .key name => (entries.find? fun entry => entry.1 = name).map Prod.snd
  | .list items, .index place => items[place]?
  | .text value, .index place => (value.toList[place]?).map fun letter =>
    .text (String.ofList [letter])
  | _, _ => none

def replaceChild : Json → Step → Json → Json
  | .dict entries, .key name, value =>
    .dict (entries.map fun entry => if entry.1 = name then (name, value) else entry)
  | .list items, .index place, value => .list (items.set place value)
  | node, _, _ => node

def popChild (node : Json) (part : Step) : Except GetFailure (Option Json) :=
  match node, part with
  | .dict entries, .key name =>
    .ok (if entries.any fun entry => entry.1 = name then
      some (.dict (entries.filter fun entry => entry.1 ≠ name)) else none)
  | .list items, .index place =>
    .ok (if place < items.length then some (.list (items.eraseIdx place)) else none)
  | .dict _, .index _ => .ok none
  | .list _, .key _ => .ok none
  | _, _ => .error .attributeError

/-- Drops the part a location leads to; `none` where the way is lost. -/
def dropAt : Json → List Step → Except GetFailure (Option Json)
  | _, [] => .error .valueError
  | node, [part] => popChild node part
  | node, part :: path =>
    match child node part with
    | none => .ok none
    | some inner => (dropAt inner path).map fun dropped =>
      dropped.map (replaceChild node part)

def dropAll (node : Json) : List (List Step) → Except GetFailure (Option Json)
  | [] => .ok (some node)
  | path :: paths => do
      match ← dropAt node path with
      | none => .ok none
      | some dropped => dropAll dropped paths

/-- Drops the fields this reader does not know, then validates the rest. -/
def payloadWithout (plain : Bytes) (unknown : List (List Step)) :
    Except GetFailure (Option Payload) := do
  match ← dropAll (lib.loads plain) unknown with
  | none => .ok none
  | some data => .ok (lib.validateJson (lib.dumps data)).toOption

def readPayload (plain : Bytes) : Except GetFailure (Option Payload) :=
  match lib.validateJson plain with
  | .ok payload => .ok (some payload)
  | .error issues =>
    if issues.all fun issue => issue.kind = "extra_forbidden" then
      payloadWithout lib plain (issues.map Issue.location)
    else .ok none

def readableSchemaVersion : Int := 1

/-- The bindings as a row gives them back. -/
def rebuiltBindings (row : AskEvidenceSnapshot Bytes) : SnapshotBindings where
  project := "default"
  actorId := row.actorId
  entityId := row.entityId
  departmentId := row.departmentId
  threadId := row.threadId
  runId := row.runId
  exchangeId := row.exchangeId
  schemaVersion := row.schemaVersion
  contentDigest := some row.contentDigest
  createdAt := utc row.createdAt
  expiresAt := utc row.expiresAt
  tombstone := row.tombstone

/-- What a row decrypts to; a missing key and a failed decryption are caught. -/
def decryptRow (row : AskEvidenceSnapshot Bytes) : Option Bytes := do
  let key ← keyFor keyring (lookupVersion keyring row.keyVersion)
  lib.decrypt key row.nonce row.ciphertext (canonicalBindingBytes lib (rebuiltBindings row))

def readRow (row : AskEvidenceSnapshot Bytes) :
    Except GetFailure (Option (EvidenceSnapshot Payload)) :=
  if readableSchemaVersion < row.schemaVersion then .ok none
  else
    match decryptRow lib keyring row with
    | none => .ok none
    | some plain =>
      if lib.hexdigest plain ≠ row.contentDigest then .ok none
      else
        (readPayload lib plain).map fun read => read.map fun payload => {
          restoreRef := row.restoreRef
          bindings := rebuiltBindings row
          payload := payload }

def get (table : List (AskEvidenceSnapshot Bytes)) (restoreRef : String) :
    Except GetFailure (Option (EvidenceSnapshot Payload)) :=
  match table.filter fun row => row.restoreRef = restoreRef with
  | [] => .ok none
  | [row] => readRow lib keyring row
  | _ => .error .multipleResults

end Store

end McpAssistant.Conversation.EvidenceStore
