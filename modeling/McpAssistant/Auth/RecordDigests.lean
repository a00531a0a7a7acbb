import McpAssistant.Auth.RecordContexts
import Mathlib.Data.List.Perm.Basic

/-!
# Where both sides digest a record context the same way

The texts of the two sides are one where no text holds a letter that only PHP spells
out and PHP lists the fields of every record in the order of their letters.
-/

namespace McpAssistant.Auth.RecordDigests

open Foundations
open JsonReading
open JsonText
open PhpArrays
open PhpJson
open RecordContexts List

/-- A key that is no number. -/
def Wordy : PhpKey → Prop
  | .index _ => False
  | .name text => numericText text = none

instance : (key : PhpKey) → Decidable (Wordy key)
  | .index _ => isFalse id
  | .name text => inferInstanceAs (Decidable (numericText text = none))

theorem Wordy.name {key : PhpKey} (word : Wordy key) :
    ∃ text, key = .name text ∧ numericText text = none := by
  cases key with
  | index value => exact word.elim
  | name text => exact ⟨text, rfl, word⟩

theorem compareTexts_ne_gt_iff {first second : String} :
    compareTexts first second ≠ .gt ↔ first ≤ second := by
  unfold compareTexts
  split_ifs with before behind
  · exact iff_of_true nofun (le_of_lt before)
  · exact iff_of_false (fun apart => apart rfl) (not_le.mpr behind)
  · exact iff_of_true nofun (not_lt.mp behind)

variable {doubles : Doubles}

theorem notAfter_words {first second : String} (left : numericText first = none) :
    NotAfter doubles (.name first) (.name second) ↔ first ≤ second := by
  rw [NotAfter, compareKeys, smartCompare, left]
  exact compareTexts_ne_gt_iff

theorem consistent_words {keys : List PhpKey}
    (words : ∀ key ∈ keys, Wordy key) : Consistent doubles keys := by
  constructor
  · intro first isFirst second isSecond
    rcases (words first isFirst).name with ⟨left, rfl, leftWord⟩
    rcases (words second isSecond).name with ⟨right, rfl, rightWord⟩
    rw [notAfter_words leftWord, notAfter_words rightWord]
    exact le_total left right
  · intro first isFirst second isSecond third isThird
    rcases (words first isFirst).name with ⟨left, rfl, leftWord⟩
    rcases (words second isSecond).name with ⟨middle, rfl, middleWord⟩
    rcases (words third isThird).name with ⟨right, rfl, rightWord⟩
    rw [notAfter_words leftWord, notAfter_words middleWord, notAfter_words leftWord]
    exact le_trans

variable {engine : Engine}

theorem ksort_words (sorts : engine.Sorts) {entries : PhpArray}
    (words : ∀ key ∈ entries.map Prod.fst, Wordy key) :
    engine.ksort entries =
      entries.insertionSort fun first second => first.1.text ≤ second.1.text := by
  rw [sorts.stable entries (consistent_words words)]
  have same := map_insertionSort (fun first second : PhpKey × PhpValue =>
      NotAfter engine.doubles first.1 second.1)
    (fun first second : PhpKey × PhpValue => first.1.text ≤ second.1.text) id entries
    (by
      intro first isFirst second isSecond
      rcases (words first.1 (mem_map_of_mem isFirst)).name with ⟨left, isLeft, word⟩
      rcases (words second.1 (mem_map_of_mem isSecond)).name with ⟨right, isRight, _⟩
      rw [isLeft, isRight, id, id, isLeft, isRight]
      exact notAfter_words word)
  rw [map_id, map_id] at same
  exact same

def recordKeys : List PhpKey := [
  .name "resource_type", .name "record_id", .name "label", .name "fields",
  .name "link_key"
]

def contextKeys : List PhpKey := [
  .name "version", .name "title", .name "records"
]

theorem wordy_recordKeys : ∀ key ∈ recordKeys, Wordy key := by
  decide +kernel

theorem wordy_contextKeys : ∀ key ∈ contextKeys, Wordy key := by
  decide +kernel

section Canonical

variable {engine : Engine}

theorem keys_canonicalizeValues (entries : PhpArray) :
    (canonicalizeValues engine entries).map Prod.fst = entries.map Prod.fst := by
  induction entries with
  | nil => rfl
  | cons entry entries inductionHypothesis =>
    rcases entry with ⟨key, value⟩
    rw [canonicalizeValues, map_cons, map_cons, inductionHypothesis]

theorem canonicalize_words (sorts : engine.Sorts) {entries : PhpArray}
    {keys : List PhpKey} (isKeys : entries.map Prod.fst = keys)
    (noList : ¬isList keys = true) (words : ∀ key ∈ keys, Wordy key) :
    canonicalize engine (.array entries) = .array ((canonicalizeValues engine entries).insertionSort
        fun first second => first.1.text ≤ second.1.text) := by
  rw [← isKeys] at noList words
  rw [← @keys_canonicalizeValues engine] at words
  rw [canonicalize, if_neg noList, ksort_words sorts words]

theorem canonicalize_record (sorts : engine.Sorts) (record : TrustedRecordContextRecord) :
    canonicalize engine record.toArray = .array [
      (.name "fields", canonicalize engine (fieldsValue record.fields)),
      (.name "label", .text record.label),
      (.name "link_key", .text record.linkKey),
      (.name "record_id", .text record.recordId),
      (.name "resource_type", .text record.resourceType)] := by
  refine (canonicalize_words sorts ?_ ?_ wordy_recordKeys).trans ?_
  · rfl
  · decide
  · simp [canonicalizeValues, canonicalize]

theorem canonicalize_context (sorts : engine.Sorts) (context : TrustedRecordContext) :
    canonicalize engine context.toWireArray = .array [
      (.name "records", canonicalize engine
        (listOf (context.records.map TrustedRecordContextRecord.toArray))),
      (.name "title", .text context.title),
      (.name "version", .integer version)] := by
  refine (canonicalize_words sorts ?_ ?_ wordy_contextKeys).trans ?_
  · rfl
  · decide
  · simp [canonicalizeValues, canonicalize]

end Canonical

def numbered (positions : List Nat) (items : List PhpValue) : PhpArray :=
  positions.zipWith (fun position item => (.index position, item)) items

variable {positions : List Nat} {items : List PhpValue}

theorem keys_numbered (sameLength : positions.length = items.length) :
    (numbered positions items).map Prod.fst =
      positions.map fun position : Nat => PhpKey.index position := by
  induction positions generalizing items with
  | nil => rfl
  | cons position positions inductionHypothesis =>
    cases items with
    | nil => cases sameLength
    | cons item items =>
      show PhpKey.index position :: (numbered positions items).map Prod.fst = _
      rw [inductionHypothesis (Nat.succ.inj sameLength)]
      rfl

theorem toItems_numbered (sameLength : positions.length = items.length) :
    toItems (numbered positions items) = items.map toJson := by
  induction positions generalizing items with
  | nil =>
    cases items with
    | nil => rfl
    | cons item items => cases sameLength
  | cons position positions inductionHypothesis =>
    cases items with
    | nil => cases sameLength
    | cons item items =>
      show toJson item :: toItems (numbered positions items) = _
      rw [inductionHypothesis (Nat.succ.inj sameLength)]
      rfl

theorem canonicalizeValues_numbered (engine : Engine) (positions : List Nat)
    (items : List PhpValue) :
    canonicalizeValues engine (numbered positions items) =
      numbered positions (items.map (canonicalize engine)) := by
  induction positions generalizing items with
  | nil => rfl
  | cons position positions inductionHypothesis =>
    cases items with
    | nil => rfl
    | cons item items =>
      show (_, canonicalize engine item) :: canonicalizeValues engine (numbered positions items) = _
      rw [inductionHypothesis]
      rfl

theorem listOf_eq (items : List PhpValue) :
    listOf items = .array (numbered (List.range items.length) items) :=
  rfl

theorem isList_numbered (items : List PhpValue) :
    isList ((numbered (List.range items.length) items).map Prod.fst) = true := by
  rw [keys_numbered length_range, isList, length_map, length_range]
  exact decide_eq_true rfl

theorem toJson_listOf (items : List PhpValue) :
    toJson (listOf items) = .list (items.map toJson) := by
  rw [listOf_eq, toJson, if_pos (isList_numbered items), toItems_numbered length_range]

theorem canonicalize_listOf (engine : Engine) (items : List PhpValue) :
    canonicalize engine (listOf items) = listOf (items.map (canonicalize engine)) := by
  rw [listOf_eq, canonicalize, if_pos (isList_numbered items),
    canonicalizeValues_numbered, listOf_eq, length_map]

theorem sortItems_eq_map (items : List Json) : sortItems items = items.map sortKeys := by
  induction items with
  | nil => rfl
  | cons item items inductionHypothesis =>
    rw [sortItems, inductionHypothesis, map_cons]

def sortedRecord (record : TrustedRecordContextRecord) (fields : Json) : Json :=
  .dict [
    ("fields", fields),
    ("label", .text record.label),
    ("link_key", .text record.linkKey),
    ("record_id", .text record.recordId),
    ("resource_type", .text record.resourceType)]

def sortedContext (title : String) (records : List Json) : Json :=
  .dict [
    ("records", .list records),
    ("title", .text title),
    ("version", .integer version)]

def phpFields (engine : Engine) (record : TrustedRecordContextRecord) : Json :=
  toJson (canonicalize engine (fieldsValue record.fields))

def pythonFields (record : TrustedRecordContextRecord) : Json :=
  sortKeys (toJson (fieldsValue record.fields))

theorem toJson_canonicalize_record (sorts : engine.Sorts) (record : TrustedRecordContextRecord) :
    toJson (canonicalize engine record.toArray) =
      sortedRecord record (phpFields engine record) := by
  rw [canonicalize_record sorts]
  rfl

theorem toJson_canonicalize_context (sorts : engine.Sorts) (context : TrustedRecordContext) :
    toJson (canonicalize engine context.toWireArray) =
      sortedContext context.title (context.records.map fun record =>
        sortedRecord record (phpFields engine record)) := by
  have records : toJson (canonicalize engine
      (listOf (context.records.map TrustedRecordContextRecord.toArray))) =
        .list (context.records.map fun record =>
          sortedRecord record (phpFields engine record)) := by
    rw [canonicalize_listOf, toJson_listOf, map_map, map_map]
    congr 1
    apply map_congr_left
    intro record _
    exact toJson_canonicalize_record sorts record
  rw [canonicalize_context sorts, sortedContext, ← records]
  rfl

theorem sortKeys_record (record : TrustedRecordContextRecord) :
    sortKeys (toJson record.toArray) = sortedRecord record (pythonFields record) := by
  show sortKeys (.dict [
    ("resource_type", .text record.resourceType),
    ("record_id", .text record.recordId),
    ("label", .text record.label),
    ("fields", toJson (fieldsValue record.fields)),
    ("link_key", .text record.linkKey)]) = _
  simp [sortKeys, sortValues, sortedRecord, pythonFields]

theorem received_eq (context : TrustedRecordContext) : context.received = .dict [
      ("version", .integer version),
      ("title", .text context.title),
      ("records", .list (context.records.map fun record =>
        toJson record.toArray))] := by
  have records := toJson_listOf (context.records.map TrustedRecordContextRecord.toArray)
  rw [map_map] at records
  show Json.dict [("version", .integer version), ("title", .text context.title),
    ("records", toJson (listOf (context.records.map TrustedRecordContextRecord.toArray)))] = _
  rw [records]
  rfl

theorem sortKeys_received (context : TrustedRecordContext) : sortKeys context.received =
      sortedContext context.title (context.records.map fun record =>
        sortedRecord record (pythonFields record)) := by
  have records : sortItems (context.records.map fun record =>
      toJson record.toArray) = context.records.map fun record =>
          sortedRecord record (pythonFields record) := by
    rw [sortItems_eq_map, map_map]
    apply map_congr_left
    intro record _
    exact sortKeys_record record
  rw [received_eq, sortedContext, ← records]
  simp [sortKeys, sortValues]

def listedKeys (engine : Engine) (fields : List (String × String)) : List PhpKey :=
  (engine.ksort (fieldEntries fields)).map Prod.fst

def InTextOrder (engine : Engine) (fields : List (String × String)) : Prop :=
  fields = [] ∨ (¬isList (listedKeys engine fields) = true ∧
      ((listedKeys engine fields).map PhpKey.text).Pairwise (· < ·))

theorem toEntries_eq_map (entries : PhpArray) : toEntries entries =
      entries.map fun entry => (entry.1.text, toJson entry.2) := by
  induction entries with
  | nil => rfl
  | cons entry entries inductionHypothesis =>
    rw [toEntries, inductionHypothesis, map_cons]

theorem toEntries_fieldEntries (fields : List (String × String)) : toEntries (fieldEntries fields) =
      fields.map fun entry => (entry.1, Json.text entry.2) := by
  rw [toEntries_eq_map, fieldEntries, map_map]
  apply map_congr_left
  intro entry _
  show ((phpKey entry.1).text, Json.text entry.2) = _
  rw [text_phpKey]

theorem canonicalizeValues_fieldEntries (engine : Engine) (fields : List (String × String)) :
    canonicalizeValues engine (fieldEntries fields) = fieldEntries fields := by
  induction fields with
  | nil => rfl
  | cons entry fields inductionHypothesis =>
    show (phpKey entry.1, PhpValue.text entry.2) ::
      canonicalizeValues engine (fieldEntries fields) = _
    rw [inductionHypothesis]
    rfl

theorem sortValues_texts (fields : List (String × String)) :
    sortValues (fields.map fun entry => (entry.1, Json.text entry.2)) =
      fields.map fun entry => (entry.1, Json.text entry.2) := by
  induction fields with
  | nil => rfl
  | cons entry fields inductionHypothesis =>
    rw [map_cons, sortValues, inductionHypothesis]
    rfl

def sortedFields (fields : List (String × String)) : List (String × Json) :=
  (fields.map fun entry => (entry.1, Json.text entry.2)).insertionSort
    fun first second => first.1 ≤ second.1

theorem keys_ne_nil {fields : List (String × String)} (some : fields ≠ []) :
    fieldsValue fields = .array (fieldEntries fields) :=
  if_neg some

section Fields

variable {engine : Engine} {record : TrustedRecordContextRecord}

theorem pythonFields_eq (some : record.fields ≠ [])
    (noList : ¬isList ((fieldEntries record.fields).map Prod.fst) = true) :
    pythonFields record = .dict (sortedFields record.fields) := by
  rw [pythonFields, keys_ne_nil some, toJson, if_neg noList,
    toEntries_fieldEntries, sortKeys, sortValues_texts]
  rfl

theorem phpFields_eq (some : record.fields ≠ [])
    (noList : ¬isList ((fieldEntries record.fields).map Prod.fst) = true) :
    phpFields engine record =
      if isList (listedKeys engine record.fields) then
        .list (toItems (engine.ksort (fieldEntries record.fields)))
      else .dict (toEntries (engine.ksort (fieldEntries record.fields))) := by
  rw [phpFields, keys_ne_nil some, canonicalize, if_neg noList,
    canonicalizeValues_fieldEntries, toJson]
  rfl

theorem perm_toEntries_ksort (sorts : engine.Sorts) (fields : List (String × String)) :
    (toEntries (engine.ksort (fieldEntries fields))).Perm
      (fields.map fun entry => (entry.1, Json.text entry.2)) := by
  rw [← toEntries_fieldEntries, toEntries_eq_map, toEntries_eq_map]
  exact (sorts.perm _).map _

theorem keys_toEntries (entries : PhpArray) : (toEntries entries).map Prod.fst =
      (entries.map Prod.fst).map PhpKey.text := by
  rw [toEntries_eq_map, map_map, map_map]
  rfl

theorem sortedFields_pairwise (record : TrustedRecordContextRecord) :
    (sortedFields record.fields).Pairwise fun first second =>
      first.1 < second.1 := by
  have sorted : (sortedFields record.fields).Pairwise fun first second =>
      first.1 ≤ second.1 := by
    have total : Std.Total fun first second : String × Json =>
        first.1 ≤ second.1 := ⟨fun first second => le_total _ _⟩
    have transitive : IsTrans (String × Json) fun first second =>
        first.1 ≤ second.1 := ⟨fun _ _ _ => le_trans⟩
    exact pairwise_insertionSort _ _
  have distinct : (sortedFields record.fields).Pairwise fun first second =>
      first.1 ≠ second.1 := by
    apply List.pairwise_map.mp
    have keys : ((sortedFields record.fields).map Prod.fst).Perm (record.fields.map Prod.fst) := by
      have perm := (perm_insertionSort (fun first second => first.1 ≤ second.1)
        (record.fields.map fun entry => (entry.1, Json.text entry.2))).map Prod.fst
      rw [map_map] at perm
      exact perm
    exact keys.nodup_iff.mpr record.distinct
  exact (sorted.and distinct).imp fun both => lt_of_le_of_ne both.1 both.2

theorem fields_eq_iff (sorts : engine.Sorts) (sent : record.fields ≠ [] →
      ¬isList ((fieldEntries record.fields).map Prod.fst) = true) :
    phpFields engine record = pythonFields record ↔ InTextOrder engine record.fields := by
  by_cases empty : record.fields = []
  · apply iff_of_true _ (Or.inl empty)
    rw [phpFields, pythonFields, empty]
    rfl
  · rw [phpFields_eq empty (sent empty), pythonFields_eq empty (sent empty),
      InTextOrder, or_iff_right empty]
    have keys := keys_toEntries (engine.ksort (fieldEntries record.fields))
    split_ifs with counted
    · exact iff_of_false nofun fun both => both.1 counted
    · constructor
      · intro same
        refine ⟨counted, ?_⟩
        have entries := Json.dict.inj same
        show (((engine.ksort (fieldEntries record.fields)).map Prod.fst).map
          PhpKey.text).Pairwise (· < ·)
        rw [← keys, entries]
        exact List.pairwise_map.mpr (sortedFields_pairwise record)
      · rintro ⟨_, ordered⟩
        congr 1
        have listed : (toEntries (engine.ksort
            (fieldEntries record.fields))).Pairwise fun first second =>
              first.1 < second.1 := by
          apply List.pairwise_map.mp
          rw [keys]
          exact ordered
        apply List.Perm.eq_of_pairwise _ listed (sortedFields_pairwise record)
        · exact (perm_toEntries_ksort sorts record.fields).trans (perm_insertionSort _ _).symm
        · intro first second _ _ before behind
          exact absurd behind (lt_asymm before)

end Fields

/-- PHP lists fields whose names are no numbers in the order of their letters. -/
theorem inTextOrder_of_words (sorts : engine.Sorts) (record : TrustedRecordContextRecord)
    (words : ∀ entry ∈ record.fields, Wordy (phpKey entry.1)) :
    InTextOrder engine record.fields := by
  by_cases empty : record.fields = []
  · exact Or.inl empty
  right
  have wordyKeys : ∀ key ∈ (fieldEntries record.fields).map Prod.fst, Wordy key := by
    intro key isKey
    rw [fieldEntries, map_map] at isKey
    rcases List.mem_map.mp isKey with ⟨entry, isEntry, rfl⟩
    exact words entry isEntry
  have listed : (toEntries (engine.ksort (fieldEntries record.fields))) =
      sortedFields record.fields := by
    rw [ksort_words sorts wordyKeys, toEntries_eq_map, map_insertionSort
      (fun first second : PhpKey × PhpValue => first.1.text ≤ second.1.text)
      (fun first second : String × Json => first.1 ≤ second.1) _ _
      (fun _ _ _ _ => Iff.rfl), ← toEntries_eq_map, toEntries_fieldEntries]
    rfl
  constructor
  · intro counted
    have keys := of_decide_eq_true counted
    have perm : (listedKeys engine record.fields).Perm
        ((fieldEntries record.fields).map Prod.fst) := (sorts.perm _).map Prod.fst
    cases isKeys : listedKeys engine record.fields with
    | nil =>
      rw [isKeys] at perm
      exact empty (List.map_eq_nil_iff.mp (List.map_eq_nil_iff.mp perm.nil_eq.symm))
    | cons first rest =>
      have word : Wordy first := by
        apply wordyKeys
        rw [isKeys] at perm
        exact perm.mem_iff.mp (.head _)
      rw [isKeys, length_cons, range_succ_eq_map, map_cons] at keys
      rw [(List.cons.inj keys).1] at word
      exact word
  · rw [listedKeys, ← keys_toEntries, listed]
    exact List.pairwise_map.mpr (sortedFields_pairwise record)

def noFloat (_ : String) : Json :=
  .null

theorem printable_text (value : String) : Printable noFloat (.text value) := ⟨rfl, trivial⟩

theorem printable_list {items : List Json} (printable : ∀ item ∈ items, Printable noFloat item) :
    Printable noFloat (.list items) := by
  induction items with
  | nil => exact ⟨rfl, trivial⟩
  | cons item items inductionHypothesis =>
    have first := printable item (.head _)
    have rest := inductionHypothesis fun other member =>
      printable other (.tail _ member)
    exact ⟨Bool.and_eq_true_iff.mpr ⟨first.short, rest.short⟩, first.genuine, rest.genuine⟩

theorem printable_dict {entries : List (String × Json)} (distinct : (entries.map Prod.fst).Nodup)
    (printable : ∀ entry ∈ entries, Printable noFloat entry.2) :
    Printable noFloat (.dict entries) := by
  constructor
  · exact shortEntries_iff.mpr fun entry member => (printable entry member).short
  · exact ⟨distinct, genuineEntries_iff.mpr fun entry member =>
      (printable entry member).genuine⟩

theorem printable_record (record : TrustedRecordContextRecord) {fields : Json}
    (printable : Printable noFloat fields) :
    Printable noFloat (sortedRecord record fields) := by
  apply printable_dict
  · show ["fields", "label", "link_key", "record_id", "resource_type"].Nodup
    decide
  · simp only [forall_mem_cons, not_mem_nil, IsEmpty.forall_iff, implies_true, and_true]
    exact ⟨printable, printable_text _, printable_text _, printable_text _, printable_text _⟩

theorem printable_context (title : String) {records : List Json}
    (printable : ∀ record ∈ records, Printable noFloat record) :
    Printable noFloat (sortedContext title records) := by
  apply printable_dict
  · show ["records", "title", "version"].Nodup
    decide
  · simp only [forall_mem_cons, not_mem_nil, IsEmpty.forall_iff, implies_true, and_true]
    exact ⟨printable_list printable, printable_text _, by decide, trivial⟩

section Fields

variable {engine : Engine} {record : TrustedRecordContextRecord}

theorem texts_of_perm {entries : List (String × Json)} (perm : entries.Perm
      (record.fields.map fun entry => (entry.1, Json.text entry.2))) :
    Printable noFloat (.dict entries) := by
  apply printable_dict
  · have keys := perm.map Prod.fst
    rw [map_map] at keys
    exact keys.nodup_iff.mpr record.distinct
  · intro entry member
    rcases List.mem_map.mp (perm.mem_iff.mp member) with ⟨field, _, rfl⟩
    exact printable_text field.2

theorem toItems_eq_map (entries : PhpArray) :
    toItems entries = (toEntries entries).map Prod.snd := by
  induction entries with
  | nil => rfl
  | cons entry entries inductionHypothesis =>
    rw [toItems, toEntries, inductionHypothesis, map_cons]

theorem printable_phpFields (sorts : engine.Sorts) (sent : record.fields ≠ [] →
      ¬isList ((fieldEntries record.fields).map Prod.fst) = true) :
    Printable noFloat (phpFields engine record) := by
  by_cases empty : record.fields = []
  · rw [phpFields, empty]
    exact ⟨rfl, nodup_nil, trivial⟩
  · have perm := perm_toEntries_ksort sorts record.fields
    rw [phpFields_eq empty (sent empty)]
    split_ifs with counted
    · apply printable_list
      intro item member
      rw [toItems_eq_map] at member
      rcases List.mem_map.mp member with ⟨entry, isEntry, rfl⟩
      rcases List.mem_map.mp (perm.mem_iff.mp isEntry) with ⟨field, _, rfl⟩
      exact printable_text field.2
    · exact texts_of_perm perm

theorem pythonFields_eq_sorted (sent : record.fields ≠ [] →
      ¬isList ((fieldEntries record.fields).map Prod.fst) = true) :
    pythonFields record = .dict (sortedFields record.fields) := by
  by_cases empty : record.fields = []
  · rw [pythonFields, empty]
    rfl
  · exact pythonFields_eq empty (sent empty)

theorem printable_pythonFields (sent : record.fields ≠ [] →
      ¬isList ((fieldEntries record.fields).map Prod.fst) = true) :
    Printable noFloat (pythonFields record) := by
  rw [pythonFields_eq_sorted sent]
  exact texts_of_perm (perm_insertionSort _ _)

end Fields

variable {context : TrustedRecordContext}

theorem acceptsRecord_of_accepted (accepted : context.Accepted) :
    ∀ record ∈ context.records, acceptsRecord (toJson record.toArray) = true := by
  rw [TrustedRecordContext.Accepted, received_eq] at accepted
  have records := (Bool.and_eq_true_iff.mp accepted).2
  have each := (Bool.and_eq_true_iff.mp records).2
  intro record member
  exact List.all_eq_true.mp each _ (mem_map_of_mem member)

theorem sent_of_accepted (accepted : context.Accepted) {record : TrustedRecordContextRecord}
    (member : record ∈ context.records) (some : record.fields ≠ []) :
    ¬isList ((fieldEntries record.fields).map Prod.fst) = true := by
  intro counted
  have fields : toJson (fieldsValue record.fields) =
      .list (toItems (fieldEntries record.fields)) := by
    rw [keys_ne_nil some, toJson, if_pos counted]
  have accepts := acceptsRecord_of_accepted accepted record member
  have checked := (Bool.and_eq_true_iff.mp (Bool.and_eq_true_iff.mp accepts).1).2
  have isList : boundedFields (Option.some (toJson (fieldsValue record.fields))) = true := checked
  rw [fields] at isList
  cases isList

def fieldTexts (entry : String × String) : List String :=
  [entry.1, entry.2]

def recordTexts (record : TrustedRecordContextRecord) : List String :=
  [record.label, record.linkKey, record.recordId, record.resourceType] ++
    record.fields.flatMap fieldTexts

def contextTexts (context : TrustedRecordContext) : List String :=
  context.title :: context.records.flatMap recordTexts

def NoSeparators (context : TrustedRecordContext) : Prop :=
  ∀ text ∈ contextTexts context, ∀ letter ∈ text.toList, ¬IsSeparator letter

theorem noSeparators_iff :
    ((contextTexts context).all fun text => noneSeparates text.toList) = true ↔
      NoSeparators context := by
  simp [NoSeparators, noneSeparates, all_eq_true]

instance (context : TrustedRecordContext) : Decidable (NoSeparators context) :=
  decidable_of_iff _ noSeparators_iff

section Letters

variable {letter : Char}

theorem holds_itemTexts {items : List Json} :
    Holds letter (itemTexts items) ↔ ∃ item ∈ items, Holds letter (texts item) := by
  induction items with
  | nil =>
    apply iff_of_false (holds_nil letter)
    rintro ⟨_, member, _⟩
    cases member
  | cons item items inductionHypothesis =>
    rw [itemTexts, holds_append, inductionHypothesis, exists_mem_cons_iff]

theorem holds_entryTexts {entries : List (String × Json)} : Holds letter (entryTexts entries) ↔
      ∃ entry ∈ entries, letter ∈ entry.1.toList ∨ Holds letter (texts entry.2) := by
  induction entries with
  | nil =>
    apply iff_of_false (holds_nil letter)
    rintro ⟨_, member, _⟩
    cases member
  | cons entry entries inductionHypothesis =>
    rcases entry with ⟨key, value⟩
    rw [entryTexts, holds_cons, holds_append, inductionHypothesis, exists_mem_cons_iff, or_assoc]

theorem holds_flatMap {Item : Type} {items : List Item} {held : Item → List String} :
    Holds letter (items.flatMap held) ↔ ∃ item ∈ items, Holds letter (held item) := by
  simp only [Holds, mem_flatMap]
  constructor
  · rintro ⟨text, ⟨item, isItem, isText⟩, isLetter⟩
    exact ⟨item, isItem, text, isText, isLetter⟩
  · rintro ⟨item, isItem, text, isText, isLetter⟩
    exact ⟨text, ⟨item, isItem, isText⟩, isLetter⟩

theorem holds_text (value : String) :
    Holds letter (texts (.text value)) ↔ letter ∈ value.toList := by
  rw [texts, holds_cons]
  exact or_iff_left (holds_nil letter)

theorem holds_sortedFields (fields : List (String × String)) :
    Holds letter (texts (.dict (sortedFields fields))) ↔
      Holds letter (fields.flatMap fieldTexts) := by
  rw [texts, holds_entryTexts, holds_flatMap]
  constructor
  · rintro ⟨entry, isEntry, held⟩
    rcases List.mem_map.mp ((mem_insertionSort _).mp isEntry) with ⟨field, isField, rfl⟩
    rw [holds_text] at held
    refine ⟨field, isField, ?_⟩
    rw [fieldTexts, holds_cons, holds_cons]
    exact held.imp_right Or.inl
  · rintro ⟨field, isField, held⟩
    refine ⟨(field.1, .text field.2), ?_, ?_⟩
    · exact (mem_insertionSort _).mpr (mem_map_of_mem isField)
    · rw [holds_text]
      rw [fieldTexts, holds_cons, holds_cons] at held
      exact held.imp_right fun rest => rest.resolve_right (holds_nil letter)

variable (separator : IsSeparator letter)

include separator

theorem not_mem_of_plain {text : String}
    (plain : ∀ other ∈ text.toList, ¬IsSeparator other) : letter ∉ text.toList :=
  not_mem_of_ordinary separator plain

theorem holds_sortedRecord (record : TrustedRecordContextRecord) :
    Holds letter (texts (sortedRecord record (.dict (sortedFields record.fields)))) ↔
      Holds letter (recordTexts record) := by
  have fields := @holds_sortedFields letter record.fields
  have noFields : letter ∉ "fields".toList := not_mem_of_plain separator (ordinary_of_none rfl)
  have noLabel : letter ∉ "label".toList := not_mem_of_plain separator (ordinary_of_none rfl)
  have noLink : letter ∉ "link_key".toList := not_mem_of_plain separator (ordinary_of_none rfl)
  have noRecord : letter ∉ "record_id".toList := not_mem_of_plain separator (ordinary_of_none rfl)
  have noResource : letter ∉ "resource_type".toList :=
    not_mem_of_plain separator (ordinary_of_none rfl)
  rw [sortedRecord, texts, recordTexts, holds_append]
  simp only [entryTexts, holds_cons, holds_append, holds_text, fields, noFields,
    noLabel, noLink, noRecord, noResource, holds_nil, false_or, or_false]
  exact or_comm

theorem holds_received {context : TrustedRecordContext} (fields : ∀ record ∈ context.records,
      pythonFields record = .dict (sortedFields record.fields)) :
    Holds letter (texts (sortKeys context.received)) ↔ Holds letter (contextTexts context) := by
  have noRecords : letter ∉ "records".toList := not_mem_of_plain separator (ordinary_of_none rfl)
  have noTitle : letter ∉ "title".toList := not_mem_of_plain separator (ordinary_of_none rfl)
  have noVersion : letter ∉ "version".toList := not_mem_of_plain separator (ordinary_of_none rfl)
  have records : Holds letter (itemTexts (context.records.map fun record =>
        sortedRecord record (pythonFields record))) ↔
        Holds letter (context.records.flatMap recordTexts) := by
    rw [holds_itemTexts, holds_flatMap]
    constructor
    · rintro ⟨item, isItem, held⟩
      rcases List.mem_map.mp isItem with ⟨record, isRecord, rfl⟩
      rw [fields record isRecord, holds_sortedRecord separator] at held
      exact ⟨record, isRecord, held⟩
    · rintro ⟨record, isRecord, held⟩
      refine ⟨_, mem_map_of_mem isRecord, ?_⟩
      rw [fields record isRecord, holds_sortedRecord separator]
      exact held
  rw [sortKeys_received, sortedContext, texts, contextTexts, holds_cons]
  simp only [entryTexts, holds_cons, holds_append, texts, noRecords, noTitle,
    noVersion, holds_nil, false_or, or_false, records]
  exact or_comm

end Letters

theorem ordinary_iff (fields : ∀ record ∈ context.records,
      pythonFields record = .dict (sortedFields record.fields)) :
    (∀ letter ∈ dumps (sortKeys context.received), ¬IsSeparator letter) ↔ NoSeparators context := by
  constructor
  · intro ordinary text isText letter isLetter separator
    apply ordinary letter _ separator
    rw [mem_dumps_iff separator, holds_received separator fields]
    exact ⟨text, isText, isLetter⟩
  · intro none letter member separator
    rw [mem_dumps_iff separator, holds_received separator fields] at member
    rcases member with ⟨text, isText, isLetter⟩
    exact none text isText letter isLetter separator

/-- A record whose fields are the same map. -/
structure SameRecord (first second : TrustedRecordContextRecord) : Prop where
  resourceType : first.resourceType = second.resourceType
  recordId : first.recordId = second.recordId
  label : first.label = second.label
  linkKey : first.linkKey = second.linkKey
  fields : first.fields.Perm second.fields

structure SameContext (first second : TrustedRecordContext) : Prop where
  title : first.title = second.title
  records : List.Forall₂ SameRecord first.records second.records

theorem field_injective : Function.Injective fun entry : String × String =>
      (entry.1, Json.text entry.2) := by
  rintro ⟨firstKey, firstValue⟩ ⟨secondKey, secondValue⟩ same
  simp only [Prod.mk.injEq, Json.text.injEq] at same
  rw [same.1, same.2]

theorem perm_of_sortedFields {first second : List (String × String)}
    (same : sortedFields first = sortedFields second) : first.Perm second := by
  apply (map_perm_map_iff field_injective).mp
  have left := perm_insertionSort (fun first second => first.1 ≤ second.1)
    (first.map fun entry => (entry.1, Json.text entry.2))
  have right := perm_insertionSort (fun first second => first.1 ≤ second.1)
    (second.map fun entry => (entry.1, Json.text entry.2))
  have sorted : (first.map fun entry => (entry.1, Json.text entry.2)).insertionSort
      (fun first second => first.1 ≤ second.1) =
        (second.map fun entry => (entry.1, Json.text entry.2)).insertionSort
          (fun first second => first.1 ≤ second.1) := same
  rw [sorted] at left
  exact left.symm.trans right

theorem toEntries_eq_zip (entries : PhpArray) : toEntries entries =
      ((entries.map Prod.fst).map PhpKey.text).zip (toItems entries) := by
  induction entries with
  | nil => rfl
  | cons entry entries inductionHypothesis =>
    rw [toEntries, inductionHypothesis]
    rfl

theorem length_toItems (entries : PhpArray) : (toItems entries).length = entries.length := by
  rw [toItems_eq_map, toEntries_eq_map, length_map, length_map]

theorem toEntries_of_lists {first second : PhpArray} (left : isList (first.map Prod.fst) = true)
    (right : isList (second.map Prod.fst) = true)
    (items : toItems first = toItems second) : toEntries first = toEntries second := by
  have sameLength := congrArg List.length items
  rw [length_toItems, length_toItems] at sameLength
  have leftKeys := of_decide_eq_true left
  have rightKeys := of_decide_eq_true right
  rw [length_map] at leftKeys rightKeys
  rw [toEntries_eq_zip, toEntries_eq_zip, items, leftKeys, rightKeys, sameLength]

section Apart

variable {engine : Engine} {first second : TrustedRecordContextRecord}

theorem perm_of_toEntries (sorts : engine.Sorts)
    (same : toEntries (engine.ksort (fieldEntries first.fields)) =
      toEntries (engine.ksort (fieldEntries second.fields))) :
    first.fields.Perm second.fields := by
  apply (map_perm_map_iff field_injective).mp
  have left := perm_toEntries_ksort sorts first.fields
  rw [same] at left
  exact left.symm.trans (perm_toEntries_ksort sorts second.fields)

/-- The fields of a record as the canonical text of PHP shows them. -/
theorem phpFields_of_sent (sent : first.fields ≠ [] →
      ¬isList ((fieldEntries first.fields).map Prod.fst) = true) :
    (first.fields = [] ∧ phpFields engine first = .dict []) ∨
      (first.fields ≠ [] ∧ isList (listedKeys engine first.fields) = true ∧
        phpFields engine first = .list (toItems (engine.ksort (fieldEntries first.fields)))) ∨
      (first.fields ≠ [] ∧ phpFields engine first =
        .dict (toEntries (engine.ksort (fieldEntries first.fields)))) := by
  by_cases empty : first.fields = []
  · left
    refine ⟨empty, ?_⟩
    rw [phpFields, empty]
    rfl
  · right
    rw [phpFields_eq empty (sent empty)]
    by_cases counted : isList (listedKeys engine first.fields) = true
    · left
      exact ⟨empty, counted, if_pos counted⟩
    · right
      exact ⟨empty, if_neg counted⟩

theorem toEntries_ne_nil (sorts : engine.Sorts) (some : first.fields ≠ []) :
    toEntries (engine.ksort (fieldEntries first.fields)) ≠ [] := by
  intro empty
  have perm := perm_toEntries_ksort sorts first.fields
  rw [empty] at perm
  exact some (List.map_eq_nil_iff.mp perm.nil_eq.symm)

theorem perm_of_phpFields (sorts : engine.Sorts) (firstSent : first.fields ≠ [] →
      ¬isList ((fieldEntries first.fields).map Prod.fst) = true)
    (secondSent : second.fields ≠ [] → ¬isList ((fieldEntries second.fields).map Prod.fst) = true)
    (same : phpFields engine first = phpFields engine second) :
    first.fields.Perm second.fields := by
  rcases @phpFields_of_sent engine _ firstSent with
    ⟨isEmpty, left⟩ | ⟨isSome, counted, left⟩ | ⟨isSome, left⟩ <;>
  rcases @phpFields_of_sent engine _ secondSent with
    ⟨otherEmpty, right⟩ | ⟨otherSome, otherCounted, right⟩ | ⟨otherSome, right⟩ <;>
  rw [left, right] at same
  · rw [isEmpty, otherEmpty]
  · cases same
  · exact absurd (Json.dict.inj same).symm (toEntries_ne_nil sorts otherSome)
  · cases same
  · exact perm_of_toEntries sorts (toEntries_of_lists counted otherCounted (Json.list.inj same))
  · cases same
  · exact absurd (Json.dict.inj same) (toEntries_ne_nil sorts isSome)
  · cases same
  · exact perm_of_toEntries sorts (Json.dict.inj same)

end Apart

theorem sameContext_of_sorted {first second : TrustedRecordContext}
    {firstFields secondFields : TrustedRecordContextRecord → Json}
    (same : sortedContext first.title (first.records.map fun record =>
        sortedRecord record (firstFields record)) =
      sortedContext second.title (second.records.map fun record =>
        sortedRecord record (secondFields record)))
    (fields : ∀ left ∈ first.records, ∀ right ∈ second.records,
      firstFields left = secondFields right → left.fields.Perm right.fields) :
    SameContext first second := by
  simp only [sortedContext, Json.dict.injEq, List.cons.injEq, Prod.mk.injEq,
    Json.list.injEq, Json.text.injEq, true_and, and_true] at same
  refine ⟨same.2, ?_⟩
  have records := same.1
  revert records fields
  generalize first.records = left, second.records = right
  intro fields records
  induction left generalizing right with
  | nil =>
    rw [map_nil, eq_comm, map_eq_nil_iff] at records
    rw [records]
    exact .nil
  | cons record left inductionHypothesis =>
    cases right with
    | nil => cases records
    | cons other right =>
      have parts := List.cons.inj records
      have texts := parts.1
      simp only [sortedRecord, Json.dict.injEq, List.cons.injEq, Prod.mk.injEq,
        Json.text.injEq, true_and, and_true] at texts
      rcases texts with ⟨sameFields, label, linkKey, recordId, resourceType⟩
      apply List.Forall₂.cons
      · exact ⟨resourceType, recordId, label, linkKey,
          fields record (.head _) other (.head _) sameFields⟩
      · apply inductionHypothesis
        · intro next isNext behind isBehind
          exact fields next (.tail _ isNext) behind (.tail _ isBehind)
        · exact parts.2

/-- Both sides compute one digest, whatever the hash. -/
def SameDigest (engine : Engine) (context : TrustedRecordContext) : Prop :=
  ∀ sha256 : String → String, compute engine sha256 context.toWireArray =
      computeRecordContextDigest sha256 context.received

def TextsApart (engine : Engine) (context : TrustedRecordContext) : Prop :=
  ∀ other : TrustedRecordContext, other.Accepted → ¬SameContext context other →
    phpCanonicalJsonBytes engine context.toWireArray ≠
        phpCanonicalJsonBytes engine other.toWireArray ∧
      canonicalJsonBytes context.received ≠ canonicalJsonBytes other.received

/-- PHP lists the fields of every record in the order of their letters. -/
def AllInTextOrder (engine : Engine) (context : TrustedRecordContext) : Prop :=
  ∀ record ∈ context.records, InTextOrder engine record.fields

theorem sameDigest_iff_texts :
    SameDigest engine context ↔ jsonEncode (canonicalize engine context.toWireArray) =
        dumps (sortKeys context.received) := by
  constructor
  · intro same
    have digests := same id
    rw [compute, computeRecordContextDigest, id, id] at digests
    exact String.ofList_injective ((String.append_right_inj _).mp digests)
  · intro same sha256
    rw [compute, computeRecordContextDigest, phpCanonicalJsonBytes, canonicalJsonBytes, same]

theorem map_eq_map_iff_fields {records : List TrustedRecordContextRecord} :
    (records.map fun record => sortedRecord record (phpFields engine record)) =
        (records.map fun record => sortedRecord record (pythonFields record)) ↔
      ∀ record ∈ records, phpFields engine record = pythonFields record := by
  rw [map_inj_left]
  apply forall₂_congr
  intro record _
  simp only [sortedRecord, Json.dict.injEq, List.cons.injEq, Prod.mk.injEq, true_and, and_true]

section Accepted

variable {engine : Engine} {context : TrustedRecordContext}

theorem printable_canonical (sorts : engine.Sorts) (accepted : context.Accepted) :
    Printable noFloat (toJson (canonicalize engine context.toWireArray)) := by
  rw [toJson_canonicalize_context sorts]
  apply printable_context
  intro item isItem
  rcases List.mem_map.mp isItem with ⟨record, isRecord, rfl⟩
  exact printable_record record (printable_phpFields sorts (sent_of_accepted accepted isRecord))

theorem printable_sorted (accepted : context.Accepted) :
    Printable noFloat (sortKeys context.received) := by
  rw [sortKeys_received]
  apply printable_context
  intro item isItem
  rcases List.mem_map.mp isItem with ⟨record, isRecord, rfl⟩
  exact printable_record record (printable_pythonFields (sent_of_accepted accepted isRecord))

theorem sameDigest_iff (sorts : engine.Sorts) (accepted : context.Accepted) :
    SameDigest engine context ↔ AllInTextOrder engine context ∧ NoSeparators context := by
  rw [sameDigest_iff_texts, jsonEncode_eq_dumps_iff (printable_canonical sorts accepted)
      (printable_sorted accepted),
    ordinary_iff fun record isRecord =>
      pythonFields_eq_sorted (sent_of_accepted accepted isRecord),
    toJson_canonicalize_context sorts, sortKeys_received]
  apply and_congr_left'
  simp only [sortedContext, Json.dict.injEq, List.cons.injEq, Prod.mk.injEq,
    Json.list.injEq, true_and, and_true]
  rw [map_eq_map_iff_fields]
  apply forall₂_congr
  intro record isRecord
  exact fields_eq_iff sorts (sent_of_accepted accepted isRecord)

theorem textsApart (sorts : engine.Sorts) (accepted : context.Accepted) :
    TextsApart engine context := by
  intro other otherAccepted differ
  constructor
  · intro same
    apply differ
    have letters := String.ofList_injective same
    rw [jsonEncode_eq_iff (printable_canonical sorts accepted)
      (printable_canonical sorts otherAccepted),
      toJson_canonicalize_context sorts, toJson_canonicalize_context sorts] at letters
    apply sameContext_of_sorted letters
    intro left isLeft right isRight
    exact perm_of_phpFields sorts (sent_of_accepted accepted isLeft)
      (sent_of_accepted otherAccepted isRight)
  · intro same
    apply differ
    have values := dumps_injective (printable_sorted accepted)
      (printable_sorted otherAccepted) (String.ofList_injective same)
    rw [sortKeys_received, sortKeys_received] at values
    apply sameContext_of_sorted values
    intro left isLeft right isRight fields
    rw [pythonFields_eq_sorted (sent_of_accepted accepted isLeft),
      pythonFields_eq_sorted (sent_of_accepted otherAccepted isRight)] at fields
    exact perm_of_sortedFields (Json.dict.inj fields)

/-- Both sides digest an accepted context the same way, and no other context, exactly
where PHP lists the fields of every record in the order of their letters and no text
holds a letter that only PHP spells out. -/
theorem digested_iff_inTextOrder (sorts : engine.Sorts) (accepted : context.Accepted) :
    (SameDigest engine context ∧ TextsApart engine context) ↔
      AllInTextOrder engine context ∧ NoSeparators context := by
  rw [sameDigest_iff sorts accepted]
  exact and_iff_left (textsApart sorts accepted)

end Accepted

/-- Sorting as documented, on keys whose numbers are doubles. -/
def sortingEngine : Engine where
  doubles := { nearest := id, infinite := 2 ^ 1024 }
  ksort := fun entries => entries.insertionSort fun first second =>
    NotAfter { nearest := id, infinite := 2 ^ 1024 } first.1 second.1

theorem sortingEngine_sorts : sortingEngine.Sorts where
  perm := fun entries => perm_insertionSort _ entries
  stable := fun _ _ => rfl

def jobRecord (label : String) : TrustedRecordContextRecord where
  resourceType := "job"
  recordId := "7"
  label := label
  fields := [("status", "open"), ("customer", "Acme")]
  linkKey := "jobs"
  distinct := by decide

def plainContext : TrustedRecordContext where
  title := "Search results for 7"
  records := [jobRecord "E7"]

def separatedContext : TrustedRecordContext where
  title := "Search results for 7"
  records := [jobRecord (String.ofList ['E', lineSeparator, '7'])]

/-- Fields whose names are numbers. -/
def numericContext : TrustedRecordContext where
  title := "Search results for 7"
  records := [{
    resourceType := "job"
    recordId := "7"
    label := "E7"
    fields := [("10", "open"), ("9", "Acme")]
    linkKey := "jobs"
    distinct := by decide }]

theorem not_sameDigest_of_separator :
    (separatedContext.Accepted ∧ ¬SameDigest sortingEngine separatedContext) ∧
      numericContext.Accepted ∧ ¬SameDigest sortingEngine numericContext := by
  rw [sameDigest_iff_texts, sameDigest_iff_texts]
  decide +kernel

theorem digested_iff_inTextOrder_job : SameDigest sortingEngine plainContext ∧
      TextsApart sortingEngine plainContext := by
  apply (digested_iff_inTextOrder sortingEngine_sorts (by decide +kernel)).mpr
  constructor
  · intro record isRecord
    rw [List.mem_singleton.mp isRecord]
    exact inTextOrder_of_words sortingEngine_sorts _ (by decide +kernel)
  · decide +kernel

end McpAssistant.Auth.RecordDigests
