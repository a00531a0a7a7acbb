import McpAssistant.Foundations.FlatJson
import McpAssistant.Foundations.PrintedValues

/-!
# Passages for an answer

The documents that a search returns are checked against the tiers of the caller, numbered, and
cut to one budget of bytes.  A cut falls between letters, so it may leave a few bytes over.
-/

namespace McpAssistant.Rag.DocumentPassages

open Foundations.FlatJson Foundations.JsonText Foundations.PrintedValues List

/-- What the index stores beside a passage.  A tier may be missing or null. -/
structure Metadata where
  source : Option String := none
  headings : Option String := none
  accessTier : Option (Option String) := none
  chunkIndex : Option Int := none
  sourceId : Option String := none
  contentHash : Option String := none
  chunkId : Option String := none
  ingestRunId : Option String := none
  indexName : Option String := none

structure Document where
  pageContent : String
  metadata : Metadata

structure RetrievedSource where
  id : String
  content : String
  sourceFile : String
  title : String
  accessTier : Option String
  chunkIndex : Option Int
  marker : Nat
  headings : Option String

structure DocumentProvenance where
  sourceId : Option String
  accessTier : Option String
  contentHash : Option String
  chunkId : Option String
  ingestRunId : Option String
  indexName : Option String
  chunkIndex : Option Int

structure DocumentSearchResult where
  passages : List RetrievedSource
  provenance : List DocumentProvenance
  truncated : Bool

inductive DocumentFailure where
  | policyDenied
  | invalidProvenance
  | outputLimit

structure DocumentExecutionPolicy where
  maxPassageUtf8Bytes : Int := 32768
  maxSerializedUtf8Bytes : Int := 65536

def allTiers : List String :=
  ["admin", "all", "customers", "finance", "graphic design", "printing", "sales", "warehouse"]

/-- What stands before the first `" > "`. -/
def firstHeading : List Char → List Char
  | [] => []
  | ' ' :: '>' :: ' ' :: _ => []
  | letter :: letters => letter :: firstHeading letters

def documentTitle (headings : Option String) (sourceFile : String) : String :=
  let heading := strip (firstHeading (headings.getD "").toList)
  let basename := (sourceFile.toList.reverse.takeWhile (· ≠ '/')).reverse
  if heading ≠ [] then String.ofList heading
  else if basename ≠ [] then String.ofList basename
  else sourceFile

def stableSourceId (doc : Document) (index : Nat) : String :=
  doc.metadata.source.getD "unknown" ++ ":" ++
    String.ofList (dumpInteger (doc.metadata.chunkIndex.getD index))

def retrievedSource (doc : Document) (index : Nat) : RetrievedSource :=
  let sourceFile := doc.metadata.source.getD "unknown"
  { id := stableSourceId doc index
    content := doc.pageContent
    sourceFile
    title := documentTitle doc.metadata.headings sourceFile
    accessTier := doc.metadata.accessTier.getD (some "unknown")
    chunkIndex := doc.metadata.chunkIndex
    marker := index + 1
    headings := doc.metadata.headings }

def retrievedFromDocs (docs : List Document) : List RetrievedSource :=
  docs.zipIdx.map fun (doc, index) => retrievedSource doc index

def provenanceFor (doc : Document) (source : RetrievedSource) : DocumentProvenance :=
  { sourceId := ((doc.metadata.sourceId.filter (· ≠ "")).or (some source.id)).filter (· ≠ "")
    accessTier := doc.metadata.accessTier.getD source.accessTier
    contentHash := doc.metadata.contentHash
    chunkId := doc.metadata.chunkId
    ingestRunId := doc.metadata.ingestRunId
    indexName := doc.metadata.indexName
    chunkIndex := doc.metadata.chunkIndex.or source.chunkIndex }

def textOrNull (text : Option String) : Scalar :=
  (text.map Scalar.text).getD .null

def integerOrNull (value : Option Int) : Scalar :=
  (value.map Scalar.integer).getD .null

def RetrievedSource.asdict (source : RetrievedSource) : List (String × Scalar) :=
  [("id", .text source.id), ("content", .text source.content),
    ("source_file", .text source.sourceFile), ("title", .text source.title),
    ("access_tier", textOrNull source.accessTier), ("chunk_index", integerOrNull source.chunkIndex),
    ("marker", .integer source.marker), ("section", textOrNull source.headings),
    ("resource_type", .null), ("record_id", .null), ("label", .null), ("link_key", .null)]

def DocumentProvenance.asdict (provenance : DocumentProvenance) : List (String × Scalar) :=
  [("source_id", textOrNull provenance.sourceId), ("access_tier", textOrNull provenance.accessTier),
    ("content_hash", textOrNull provenance.contentHash),
    ("chunk_id", textOrNull provenance.chunkId),
    ("ingest_run_id", textOrNull provenance.ingestRunId),
    ("index_name", textOrNull provenance.indexName),
    ("chunk_index", integerOrNull provenance.chunkIndex)]

def separated (items : List (List Char)) : List Char :=
  (items.intersperse [',', ' ']).flatten

def dumpItem (entries : List (String × Scalar)) : List Char :=
  '\x7b' :: separated (entries.map fun entry =>
    '"' :: asciiLetters entry.1 ++ ':' :: ' ' :: dumpScalar entry.2) ++ ['\x7d']

/-- The text is ASCII, so its letters are its bytes. -/
def serializedSize (result : DocumentSearchResult) : Nat :=
  ("\x7b\"passages\": [".toList ++ separated (result.passages.map fun item => dumpItem item.asdict) ++
    "], \"provenance\": [".toList ++
    separated (result.provenance.map fun item => dumpItem item.asdict) ++
    "], \"truncated\": ".toList ++ dumpScalar (.boolean result.truncated) ++ ['\x7d']).length

/-- The letters whose bytes are all within a limit. -/
def decodeIgnore (maxBytes : Nat) : List Char → List Char
  | [] => []
  | letter :: letters =>
    if letter.utf8Size ≤ maxBytes then
      letter :: decodeIgnore (maxBytes - letter.utf8Size) letters
    else []

def cutUtf8 (text : String) (maxBytes : Nat) : String × Bool :=
  if text.utf8ByteSize ≤ maxBytes then (text, false)
  else (String.ofList (decodeIgnore maxBytes text.toList), true)

/-- The loop excess the documents, and whether it left text out. -/
def keep (remaining : Nat) : List (Document × RetrievedSource) →
    List (RetrievedSource × DocumentProvenance) × Bool
  | [] => ([], false)
  | (doc, source) :: rest =>
    if remaining = 0 then ([], true)
    else
      let cut := cutUtf8 source.content remaining
      let kept := keep (remaining - cut.1.utf8ByteSize) rest
      (({ source with content := cut.1 }, provenanceFor doc source) :: kept.1, cut.2 || kept.2)

def denied (grants : List String) (doc : Document) : Option DocumentFailure :=
  doc.metadata.accessTier.join.bind fun tier =>
    if grants ≠ [] ∧ tier ∉ grants then
      some (if tier ∈ allTiers then .policyDenied else .invalidProvenance)
    else none

def normalizeDocuments (docs : List Document) (policy : DocumentExecutionPolicy)
    (grantedTiers : Option (List String)) : Except DocumentFailure DocumentSearchResult :=
  match docs.findSome? (denied (grantedTiers.getD [])) with
  | some failure => .error failure
  | none =>
    let kept := keep policy.maxPassageUtf8Bytes.toNat (docs.zip (retrievedFromDocs docs))
    let result := ⟨kept.1.map Prod.fst, kept.1.map Prod.snd, kept.2⟩
    if policy.maxSerializedUtf8Bytes < serializedSize result then .error .outputLimit
    else .ok result

theorem utf8ByteSize_cons (letter : Char) (letters : List Char) :
    (String.ofList (letter :: letters)).utf8ByteSize =
      letter.utf8Size + (String.ofList letters).utf8ByteSize := by
  rw [← singleton_append, String.ofList_append, String.utf8ByteSize_append,
    ← String.singleton_eq_ofList, String.utf8ByteSize_singleton]

/-- A cut keeps a beginning, and what it leaves of the limit does not hold the next letter. -/
theorem decodeIgnore_spec (letters : List Char) (maxBytes : Nat) :
    decodeIgnore maxBytes letters <+: letters ∧
      (String.ofList (decodeIgnore maxBytes letters)).utf8ByteSize ≤ maxBytes ∧
      (decodeIgnore maxBytes letters ≠ letters →
        maxBytes - (String.ofList (decodeIgnore maxBytes letters)).utf8ByteSize ≤ 3) := by
  induction letters generalizing maxBytes with
  | nil => exact ⟨prefix_rfl, Nat.zero_le _, fun cut => absurd rfl cut⟩
  | cons letter letters ih =>
    rw [decodeIgnore]
    split
    · rename_i fits
      rcases ih (maxBytes - letter.utf8Size) with ⟨begins, within, leaves⟩
      rw [utf8ByteSize_cons]
      refine ⟨(prefix_cons_inj letter).mpr begins, by omega, fun cut => ?_⟩
      have left := leaves fun whole => cut (congrArg _ whole)
      omega
    · rename_i excess
      refine ⟨List.nil_prefix, Nat.zero_le _, fun _ => ?_⟩
      show maxBytes - 0 ≤ 3
      have small := letter.utf8Size_le_four
      omega

theorem cutUtf8_spec (text : String) (maxBytes : Nat) :
    (cutUtf8 text maxBytes).1.toList <+: text.toList ∧
      (cutUtf8 text maxBytes).1.utf8ByteSize ≤ maxBytes ∧
      ((cutUtf8 text maxBytes).1 ≠ text →
        maxBytes - (cutUtf8 text maxBytes).1.utf8ByteSize ≤ 3) := by
  rw [cutUtf8]
  split
  · rename_i fits
    exact ⟨prefix_rfl, fits, fun cut => absurd rfl cut⟩
  · rcases decodeIgnore_spec text.toList maxBytes with ⟨begins, within, leaves⟩
    refine ⟨?_, within, fun cut => leaves fun whole => cut ?_⟩
    · rw [String.toList_ofList]
      exact begins
    · rw [whole, String.ofList_toList]

def textBytes (passages : List RetrievedSource) : Nat :=
  (passages.map fun passage => passage.content.utf8ByteSize).sum

theorem textBytes_keep (pairs : List (Document × RetrievedSource)) (remaining : Nat) :
    textBytes ((keep remaining pairs).1.map Prod.fst) ≤ remaining := by
  induction pairs generalizing remaining with
  | nil => exact Nat.zero_le _
  | cons pair rest ih =>
    rw [keep]
    split
    · exact Nat.zero_le _
    · have within := (cutUtf8_spec pair.2.content remaining).2.1
      have later := ih (remaining - (cutUtf8 pair.2.content remaining).1.utf8ByteSize)
      rw [textBytes] at later ⊢
      simp only [map_cons, sum_cons]
      omega

/-- A source whose text may be cut, and where the texts after a cut one have at most `excess` bytes. -/
structure Delivers (excess : Nat) (source passage : RetrievedSource)
    (later : List RetrievedSource) : Prop where
  same : passage = { source with content := passage.content }
  begins : passage.content.toList <+: source.content.toList
  leaves : passage.content ≠ source.content → textBytes later ≤ excess

def InOrder (excess : Nat) (sources passages : List RetrievedSource) : Prop :=
  ∀ place passage, passages[place]? = some passage → ∃ source, sources[place]? = some source ∧
    Delivers excess source passage (passages.drop (place + 1))

theorem inOrder_keep (pairs : List (Document × RetrievedSource)) (remaining : Nat) :
    InOrder 3 (pairs.map Prod.snd) ((keep remaining pairs).1.map Prod.fst) := by
  induction pairs generalizing remaining with
  | nil => exact fun _ _ found => nomatch found
  | cons pair rest ih =>
    rw [keep]
    split
    · exact fun _ _ found => nomatch found
    · intro place passage found
      cases place with
      | zero =>
        rcases cutUtf8_spec pair.2.content remaining with ⟨begins, _, leaves⟩
        cases found
        refine ⟨pair.2, rfl, ⟨rfl, begins, fun cut => ?_⟩⟩
        exact Nat.le_trans (textBytes_keep rest _) (leaves cut)
      | succ place => exact ih _ place passage found

def TiersGranted (grants : List String) (docs : List Document)
    (passages : List RetrievedSource) : Prop :=
  ∀ (place : Nat) (passage : RetrievedSource) (tier : String), passages[place]? = some passage →
    passage.accessTier = some tier → grants ≠ [] → tier ∈ grants ∨
      tier = "unknown" ∧ ∃ doc : Document, docs[place]? = some doc ∧ doc.metadata.accessTier = none

variable {docs : List Document}

theorem exists_doc_of_retrieved {place : Nat} {source : RetrievedSource}
    (found : (retrievedFromDocs docs)[place]? = some source) :
    ∃ doc, docs[place]? = some doc ∧ source = retrievedSource doc place := by
  rw [retrievedFromDocs, List.getElem?_map, List.getElem?_zipIdx, Option.map_map] at found
  rcases Option.map_eq_some_iff.mp found with ⟨doc, isDoc, rfl⟩
  exact ⟨doc, isDoc, congrArg (retrievedSource doc) (Nat.zero_add place)⟩

variable {grants : List String}

theorem granted_of_not_denied {doc : Document} {tier : String}
    (passed : denied grants doc = none) (carried : doc.metadata.accessTier = some (some tier))
    (some_granted : grants ≠ []) : tier ∈ grants := by
  rw [denied, carried] at passed
  by_contra missing
  rw [show (some (some tier)).join = some tier from rfl, Option.bind_some,
    if_pos ⟨some_granted, missing⟩] at passed
  cases passed

theorem tiersGranted_of_inOrder {passages : List RetrievedSource} {excess : Nat}
    (passed : docs.findSome? (denied grants) = none)
    (ordered : InOrder excess (retrievedFromDocs docs) passages) :
    TiersGranted grants docs passages := by
  intro place passage tier found carries some_granted
  rcases ordered place passage found with ⟨source, isSource, delivers⟩
  rcases exists_doc_of_retrieved isSource with ⟨doc, isDoc, rfl⟩
  rw [delivers.same] at carries
  change doc.metadata.accessTier.getD (some "unknown") = some tier at carries
  cases stored : doc.metadata.accessTier with
  | none =>
    rw [stored] at carries
    cases carries
    exact Or.inr ⟨rfl, doc, isDoc, stored⟩
  | some recorded =>
    rw [stored] at carries
    apply Or.inl
    apply granted_of_not_denied _ (stored.trans (congrArg some carries)) some_granted
    exact List.findSome?_eq_none_iff.mp passed doc (mem_of_getElem? isDoc)

def Returns (docs : List Document) (policy : DocumentExecutionPolicy)
    (grantedTiers : Option (List String)) (Holds : List RetrievedSource → Prop) : Prop :=
  ∀ result, normalizeDocuments docs policy grantedTiers = .ok result → Holds result.passages

theorem normalizeDocuments_delivers (docs : List Document) (policy : DocumentExecutionPolicy)
    (grantedTiers : Option (List String)) :
    Returns docs policy grantedTiers fun passages =>
      TiersGranted (grantedTiers.getD []) docs passages ∧
      InOrder 3 (retrievedFromDocs docs) passages ∧
      (textBytes passages : Int) ≤ max policy.maxPassageUtf8Bytes 0 := by
  intro result returned
  rw [normalizeDocuments] at returned
  split at returned
  · cases returned
  · rename_i passed
    dsimp only at returned
    split at returned
    · cases returned
    · cases returned
      have sources : (docs.zip (retrievedFromDocs docs)).map Prod.snd = retrievedFromDocs docs :=
        map_snd_zip (by rw [retrievedFromDocs, length_map, length_zipIdx])
      have ordered := inOrder_keep (docs.zip (retrievedFromDocs docs))
        policy.maxPassageUtf8Bytes.toNat
      rw [sources] at ordered
      refine ⟨tiersGranted_of_inOrder passed ordered, ordered, ?_⟩
      have within := textBytes_keep (docs.zip (retrievedFromDocs docs))
        policy.maxPassageUtf8Bytes.toNat
      exact Int.toNat_eq_max _ ▸ Int.ofNat_le.mpr within

/-- A letter of two bytes that no document tier protects, then one byte of a granted one. -/
def accentThenLetter : List Document :=
  [⟨"é", {}⟩, ⟨"a", { accessTier := some (some "sales") }⟩]

theorem accentThenLetter_passages :
    (normalizeDocuments accentThenLetter { maxPassageUtf8Bytes := 1 } (some ["sales"])).toOption.map
        (fun result => result.passages.map fun passage => (passage.accessTier, passage.content)) =
      some [(some "unknown", ""), (some "sales", "a")] := by
  decide +kernel

theorem exists_accentThenLetter : ∃ result first second,
    normalizeDocuments accentThenLetter { maxPassageUtf8Bytes := 1 } (some ["sales"]) = .ok result ∧
      result.passages = [first, second] ∧ first.accessTier = some "unknown" ∧
      first.content = "" ∧ second.content = "a" := by
  have computed := accentThenLetter_passages
  cases outcome : normalizeDocuments accentThenLetter { maxPassageUtf8Bytes := 1 }
      (some ["sales"]) with
  | error failure =>
    rw [outcome] at computed
    cases computed
  | ok result =>
    rw [outcome] at computed
    have passages := Option.some.inj computed
    simp only [map_eq_cons_iff, map_eq_nil_iff, Prod.mk.injEq] at passages
    rcases passages with ⟨first, _, isPassages, ⟨tier, empty⟩, second, _, rfl, ⟨_, letter⟩, rfl⟩
    exact ⟨result, first, second, rfl, isPassages, tier, empty, letter⟩

/-- A passage without a tier is returned, and the byte that a cut leaves goes to the next. -/
theorem not_all_granted_and_cut :
    (¬ ∀ docs policy grantedTiers, Returns docs policy grantedTiers fun passages =>
      ∀ passage ∈ passages, ∃ tier ∈ grantedTiers.getD [], passage.accessTier = some tier) ∧
    ¬ ∀ docs policy grantedTiers, Returns docs policy grantedTiers fun passages =>
      InOrder 0 (retrievedFromDocs docs) passages := by
  rcases exists_accentThenLetter with ⟨result, first, second, returned, passages, tier, empty, letter⟩
  constructor
  · intro claim
    have granted := claim _ _ _ result returned first (passages ▸ mem_cons_self)
    rw [tier] at granted
    exact absurd granted (by decide)
  · intro claim
    have ordered := claim _ _ _ result returned
    rw [passages] at ordered
    rcases ordered 0 first rfl with ⟨source, isSource, delivers⟩
    cases isSource
    have nothing := delivers.leaves (empty ▸ (by decide : ("" : String) ≠ "é"))
    rw [textBytes, drop_one, tail_cons, map_singleton, letter] at nothing
    exact absurd nothing (by decide)

end McpAssistant.Rag.DocumentPassages
