import McpAssistant.Foundations.PhpJson

/-!
# Record contexts and their digests

Billing sends the records a person looks at with a question, and signs a digest of
them.  The API computes the digest again from the JSON it received.  Both sides hash
one canonical text: keys in order, no spaces, letters of Unicode as they are.
-/

namespace McpAssistant.Auth.RecordContexts

open Foundations
open JsonReading
open JsonText
open PhpArrays

/-- What of PHP the digest depends on beyond its values. -/
structure Engine where
  doubles : Doubles
  ksort : PhpArray → PhpArray

/-- Sorting loses no entry.  Where the comparison orders the keys, the entries come
in that order, and those that compare as equal stay as they were. -/
structure Engine.Sorts (engine : Engine) : Prop where
  perm : ∀ entries, (engine.ksort entries).Perm entries
  stable : ∀ entries, Consistent engine.doubles (entries.map Prod.fst) →
    engine.ksort entries = entries.insertionSort fun first second =>
      NotAfter engine.doubles first.1 second.1

mutual

/-- The keys of every array in order.  A list keeps the order of its items. -/
def canonicalize (engine : Engine) : PhpValue → PhpValue
  | .array entries =>
    if isList (entries.map Prod.fst) then
      .array (canonicalizeValues engine entries)
    else .array (engine.ksort (canonicalizeValues engine entries))
  | .null => .null
  | .boolean value => .boolean value
  | .integer value => .integer value
  | .text value => .text value
  | .emptyObject => .emptyObject

/-- `array_map` keeps the keys, so values may be canonical before keys are sorted. -/
def canonicalizeValues (engine : Engine) : PhpArray → PhpArray
  | [] => []
  | (key, value) :: entries =>
    (key, canonicalize engine value) :: canonicalizeValues engine entries

end

/-- A record that the person may read.  A map holds a field once. -/
structure TrustedRecordContextRecord where
  resourceType : String
  recordId : String
  label : String
  fields : List (String × String)
  linkKey : String
  distinct : (fields.map Prod.fst).Nodup

structure TrustedRecordContext where
  title : String
  records : List TrustedRecordContextRecord

def version : Int :=
  1

def fieldEntries (fields : List (String × String)) : PhpArray :=
  fields.map fun (key, value) => (phpKey key, .text value)

def fieldsValue (fields : List (String × String)) : PhpValue :=
  if fields = [] then .emptyObject else .array (fieldEntries fields)

def TrustedRecordContextRecord.toArray (record : TrustedRecordContextRecord) : PhpValue :=
  .array [
    (.name "resource_type", .text record.resourceType),
    (.name "record_id", .text record.recordId),
    (.name "label", .text record.label),
    (.name "fields", fieldsValue record.fields),
    (.name "link_key", .text record.linkKey)]

def TrustedRecordContext.toWireArray (context : TrustedRecordContext) : PhpValue :=
  .array [
    (.name "version", .integer version),
    (.name "title", .text context.title),
    (.name "records", listOf (context.records.map TrustedRecordContextRecord.toArray))]

def phpCanonicalJsonBytes (engine : Engine) (data : PhpValue) : String :=
  String.ofList (jsonEncode (canonicalize engine data))

def compute (engine : Engine) (sha256 : String → String) (data : PhpValue) : String :=
  "sha256:" ++ sha256 (phpCanonicalJsonBytes engine data)

def canonicalJsonBytes (data : Json) : String :=
  String.ofList (dumps (sortKeys data))

def computeRecordContextDigest (sha256 : String → String) (data : Json) : String :=
  "sha256:" ++ sha256 (canonicalJsonBytes data)

def resourceTypes : List String := [
  "invoice", "quotation", "payable_quotation", "credit_note", "customer_order",
  "job", "customer", "supplier", "product", "inventory"
]

def maxRecords : Nat := 20
def maxFieldsPerRecord : Nat := 10
def maxFieldKeyLen : Nat := 64
def maxFieldValueLen : Nat := 256
def maxLabelLen : Nat := 128
def maxTitleLen : Nat := 256
def maxRecordIdLen : Nat := 64
def maxRecordContextBytes : Nat := 16384

/-- A text of one letter at least and so many at most. -/
def boundedText (most : Nat) : Json → Bool
  | .text value => 1 ≤ value.length && value.length ≤ most
  | _ => false

def boundedField (entry : String × Json) : Bool :=
  match entry.2 with
  | .text value =>
    entry.1 ≠ "" && entry.1.length ≤ maxFieldKeyLen && value.length ≤ maxFieldValueLen
  | _ => false

/-- Fields that are left out are none. -/
def boundedFields : Option Json → Bool
  | none => true
  | some (.dict entries) =>
    entries.length ≤ maxFieldsPerRecord && entries.all boundedField
  | some _ => false

def isLinkKey : Option Json → Bool
  | none => true
  | some .null => true
  | some (.text value) => 1 ≤ value.length
  | some _ => false

def isResourceType : Json → Bool
  | .text value => resourceTypes.contains value
  | _ => false

/-- No key but the allowed ones. -/
def onlyKeys (allowed : List String) (entries : List (String × Json)) : Bool :=
  entries.all fun entry => allowed.contains entry.1

def acceptsRecord : Json → Bool
  | .dict entries =>
    onlyKeys ["resource_type", "record_id", "label", "fields", "link_key"]
        entries &&
      (entries.lookup "resource_type").any isResourceType &&
      (entries.lookup "record_id").any (boundedText maxRecordIdLen) &&
      (entries.lookup "label").any (boundedText maxLabelLen) &&
      boundedFields (entries.lookup "fields") &&
      isLinkKey (entries.lookup "link_key")
  | _ => false

def acceptsRecords : Option Json → Bool
  | none => true
  | some (.list records) =>
    records.length ≤ maxRecords && records.all acceptsRecord
  | some _ => false

def isVersion : Json → Bool
  | .integer value => value = version
  | _ => false

/-- The size is checked first, on the text that is hashed. -/
def acceptsContext : Json → Bool
  | .dict entries =>
    (canonicalJsonBytes (.dict entries)).utf8ByteSize ≤ maxRecordContextBytes &&
      onlyKeys ["version", "title", "records"] entries &&
      (entries.lookup "version").any isVersion &&
      (entries.lookup "title").any (boundedText maxTitleLen) &&
      acceptsRecords (entries.lookup "records")
  | _ => false

/-- The JSON value that the API reads from the body. -/
def TrustedRecordContext.received (context : TrustedRecordContext) : Json :=
  toJson context.toWireArray

def TrustedRecordContext.Accepted (context : TrustedRecordContext) : Prop :=
  acceptsContext context.received = true

instance (context : TrustedRecordContext) : Decidable context.Accepted :=
  inferInstanceAs (Decidable (_ = true))

end McpAssistant.Auth.RecordContexts
