import McpAssistant.Foundations.Fallible
import Mathlib.Data.List.Forall2

/-!
# JSON values and readers

A reader turns a JSON value into a value of its own or refuses it.  The parts
of a value are read side by side: every fault is collected, and an exception
that no reader collects ends the reading.  A reader and a printer agree when
whatever was read prints as something that reads back the same.
-/

namespace McpAssistant.Foundations.JsonReading

open Fallible List

/-- A JSON value as a parser leaves it.  A finite float is the rational number
it denotes and the text it prints as. -/
inductive Json where
  | null
  | boolean (value : Bool)
  | integer (value : Int)
  | float (value : Rat) (printed : String)
  | text (value : String)
  | list (items : List Json)
  | dict (entries : List (String × Json))

abbrev Entries := List (String × Json)

/-- A set or a dictionary can hold the value as a key. -/
def Json.hashable : Json → Bool
  | .list _ => false
  | .dict _ => false
  | _ => true

def Json.isNull : Json → Bool
  | .null => true
  | _ => false

section Entries

variable {Value : Type} (entries : List (String × Value)) (key : String)

/-- The keys a dictionary holds. -/
def hasKey : Bool :=
  (entries.lookup key).isSome

def eraseKey : List (String × Value) :=
  entries.filter fun entry => entry.1 != key

/-- Stores a value at a key, in its place where the key is held already. -/
def putKey (value : Value) : List (String × Value) → List (String × Value)
  | [] => [(key, value)]
  | entry :: entries =>
    if entry.1 = key then (key, value) :: entries
    else entry :: putKey value entries

variable {entries key} {value : Value} {other : String}

theorem lookup_cons_of_ne {entry : String × Value}
    (apart : key ≠ entry.1) (rest : List (String × Value)) :
    (entry :: rest).lookup key = rest.lookup key := by
  rw [lookup_cons, beq_false_of_ne apart]

theorem lookup_putKey_self : (putKey key value entries).lookup key = some value := by
  induction entries with
  | nil => exact lookup_cons_self
  | cons entry entries ih =>
    rw [putKey]
    split
    · exact lookup_cons_self
    · rename_i apart
      rw [lookup_cons_of_ne (Ne.symm apart), ih]

theorem lookup_putKey_of_ne (apart : other ≠ key) :
    (putKey key value entries).lookup other = entries.lookup other := by
  induction entries with
  | nil => exact lookup_cons_of_ne apart []
  | cons entry entries ih =>
    rw [putKey]
    split
    · rename_i same
      rw [lookup_cons_of_ne apart, lookup_cons_of_ne (by rw [same]; exact apart)]
    · rw [lookup_cons, lookup_cons, ih]

/-- Storing what a key holds already changes nothing. -/
theorem putKey_of_lookup (found : entries.lookup key = some value) :
    putKey key value entries = entries := by
  induction entries with
  | nil => cases found
  | cons entry entries ih =>
    rcases entry with ⟨name, held⟩
    rw [putKey]
    split
    · rename_i same
      cases same
      rw [lookup_cons_self] at found
      rw [Option.some.inj found]
    · rename_i apart
      rw [lookup_cons_of_ne (Ne.symm apart)] at found
      rw [ih found]

theorem lookup_eraseKey_self : (eraseKey entries key).lookup key = none := by
  induction entries with
  | nil => rfl
  | cons entry entries ih =>
    rw [eraseKey, filter_cons]
    split
    · rename_i kept
      have apart : entry.1 ≠ key := bne_iff_ne.mp kept
      rw [lookup_cons_of_ne apart.symm]
      exact ih
    · exact ih

theorem lookup_eraseKey_of_ne (apart : other ≠ key) :
    (eraseKey entries key).lookup other = entries.lookup other := by
  induction entries with
  | nil => rfl
  | cons entry entries ih =>
    rw [eraseKey, filter_cons]
    split
    · rw [lookup_cons, lookup_cons, ← ih, eraseKey]
    · rename_i dropped
      have isKey : entry.1 = key := by
        by_contra differs
        exact dropped (bne_iff_ne.mpr differs)
      rw [lookup_cons_of_ne (by rw [isKey]; exact apart), ← ih, eraseKey]

theorem lookup_map_values {Result : Type} (read : Value → Result) :
    (entries.map fun entry => (entry.1, read entry.2)).lookup key =
      (entries.lookup key).map read := by
  induction entries with
  | nil => rfl
  | cons entry entries ih =>
    rw [map_cons, lookup_cons, lookup_cons, ih]
    cases key == entry.1 with
    | true => rfl
    | false => rfl

theorem mem_of_lookup_eq_some (found : entries.lookup key = some value) :
    (key, value) ∈ entries := by
  induction entries with
  | nil => cases found
  | cons entry entries ih =>
    rw [lookup_cons] at found
    cases same : key == entry.1 with
    | true =>
      rw [same] at found
      cases found
      rw [beq_iff_eq.mp same]
      exact mem_cons_self ..
    | false =>
      rw [same] at found
      exact mem_cons_of_mem _ (ih found)

/-- The entries at some of the keys hold what they held. -/
theorem lookup_filter_keys (keep : String → Bool) :
    (entries.filter fun entry => keep entry.1).lookup key =
      if keep key then entries.lookup key else none := by
  induction entries with
  | nil => exact (ite_self none).symm
  | cons entry entries ih =>
    rw [filter_cons]
    by_cases same : key = entry.1
    · subst same
      cases kept : keep entry.1 with
      | true =>
        rw [if_pos rfl, if_pos rfl, lookup_cons, lookup_cons]
        rw [beq_self_eq_true]
      | false =>
        rw [if_neg Bool.false_ne_true, ih, kept]
        rfl
    · rw [apply_ite (List.lookup key), lookup_cons_of_ne same, lookup_cons_of_ne same, ih, ite_self]

theorem mem_keys_putKey : other ∈ (putKey key value entries).map Prod.fst ↔
      other = key ∨ other ∈ entries.map Prod.fst := by
  induction entries with
  | nil => simp [putKey]
  | cons entry entries ih =>
    rw [putKey]
    split
    · rename_i same
      simp [same]
    · rw [map_cons, mem_cons, ih, map_cons, mem_cons]
      exact or_left_comm

theorem nodup_keys_putKey (distinct : (entries.map Prod.fst).Nodup) :
    ((putKey key value entries).map Prod.fst).Nodup := by
  induction entries with
  | nil => simp [putKey]
  | cons entry entries ih =>
    rw [map_cons, nodup_cons] at distinct
    rw [putKey]
    split
    · rename_i same
      rw [map_cons, nodup_cons, ← same]
      exact distinct
    · rename_i apart
      rw [map_cons, nodup_cons, mem_keys_putKey]
      refine ⟨?_, ih distinct.2⟩
      rintro (same | held)
      · exact apart same
      · exact distinct.1 held

theorem lookup_of_mem (distinct : (entries.map Prod.fst).Nodup)
    (held : (key, value) ∈ entries) : entries.lookup key = some value := by
  induction entries with
  | nil => cases held
  | cons entry entries ih =>
    rw [map_cons, nodup_cons] at distinct
    rcases List.mem_cons.mp held with here | later
    · rw [← here]
      exact lookup_cons_self
    · have apart : key ≠ entry.1 := by
        rintro rfl
        exact distinct.1 (List.mem_map.mpr ⟨_, later, rfl⟩)
      rw [lookup_cons_of_ne apart]
      exact ih distinct.2 later

end Entries

/-! ## Readers -/

/-- Why a reader refuses a value: its shape, or a rule of the data's own. -/
inductive Fault (Rule : Type) where
  | wrongType
  | missing (field : String)
  | extraForbidden (field : String)
  | broken (rule : Rule)
deriving DecidableEq

/-- A refused value, or an exception that escapes the readers. -/
inductive Refusal (Rule : Type) where
  | escaped
  | invalid (faults : List (Fault Rule))
deriving DecidableEq

abbrev Reading (Rule Value : Type) := Except (Refusal Rule) Value

section Readings

variable {Rule First Second Value : Type}

def refuse (fault : Fault Rule) : Reading Rule Value :=
  .error (.invalid [fault])

/-- Two parts read side by side. -/
def both (first : Reading Rule First) (second : Reading Rule Second) :
    Reading Rule (First × Second) :=
  match first, second with
  | .ok left, .ok right => .ok (left, right)
  | .ok _, .error refusal => .error refusal
  | .error refusal, .ok _ => .error refusal
  | .error .escaped, .error _ => .error .escaped
  | .error (.invalid _), .error .escaped => .error .escaped
  | .error (.invalid left), .error (.invalid right) =>
    .error (.invalid (left ++ right))

@[simp] theorem both_eq_ok {first : Reading Rule First}
    {second : Reading Rule Second} {left : First} {right : Second} :
    both first second = .ok (left, right) ↔ first = .ok left ∧ second = .ok right := by
  unfold both
  split
  · simp
  · simp
  · simp
  · simp
  · simp
  · simp

def readEach (read : Json → Reading Rule Value) : List Json → Reading Rule (List Value)
  | [] => .ok []
  | item :: items =>
    (both (read item) (readEach read items)).map fun parts =>
      parts.1 :: parts.2

def readList (read : Json → Reading Rule Value) : Json → Reading Rule (List Value)
  | .list items => readEach read items
  | _ => refuse .wrongType

def readNullable (read : Json → Reading Rule Value) : Json → Reading Rule (Option Value)
  | .null => .ok none
  | json => (read json).map some

def readText : Json → Reading Rule String
  | .text value => .ok value
  | _ => refuse .wrongType

def readLiteral (names : List (String × Value)) : Json → Reading Rule Value
  | .text name =>
    match names.lookup name with
    | some value => .ok value
    | none => refuse .wrongType
  | _ => refuse .wrongType

def readField (entries : Entries) (key : String) (absent : Option Value)
    (read : Json → Reading Rule Value) : Reading Rule Value :=
  match entries.lookup key with
  | some json => read json
  | none =>
    match absent with
    | some value => .ok value
    | none => refuse (.missing key)

/-- A dictionary has no other keys. -/
def forbidExtra (keys : List String) (entries : Entries) : Reading Rule Unit :=
  match entries.find? fun entry => !keys.contains entry.1 with
  | none => .ok ()
  | some entry => refuse (.extraForbidden entry.1)

/-- The one of three forms a value has. -/
def oneOf (first second third : Reading Rule Value) : Reading Rule Value :=
  match first, second, third with
  | .ok value, _, _ => .ok value
  | .error .escaped, _, _ => .error .escaped
  | .error (.invalid _), .ok value, _ => .ok value
  | .error (.invalid _), .error .escaped, _ => .error .escaped
  | .error (.invalid _), .error (.invalid _), reading => reading

theorem oneOf_eq_ok {first second third : Reading Rule Value} {value : Value}
    (read : oneOf first second third = .ok value) :
    first = .ok value ∨ second = .ok value ∨ third = .ok value := by
  unfold oneOf at read
  split at read
  · exact .inl read
  · cases read
  · exact .inr (.inl read)
  · cases read
  · exact .inr (.inr read)

def Refused (reading : Reading Rule Value) : Prop :=
  ∃ faults, reading = .error (.invalid faults)

theorem Refused.both_of_ok {first : Reading Rule First} {second : Second}
    (refused : Refused first) : Refused (both first (.ok second)) := by
  rcases refused with ⟨faults, rfl⟩
  exact ⟨faults, rfl⟩

theorem Refused.both {first : Reading Rule First} {second : Reading Rule Second}
    (refused : Refused first) (other : Refused second) :
    Refused (both first second) := by
  rcases refused with ⟨faults, rfl⟩
  rcases other with ⟨others, rfl⟩
  exact ⟨faults ++ others, rfl⟩

variable {reading : Reading Rule First}

theorem Refused.bind {next : First → Reading Rule Value} (refused : Refused reading) :
    Refused (reading >>= next) := by
  rcases refused with ⟨faults, rfl⟩
  exact ⟨faults, rfl⟩

theorem Refused.map {next : First → Value}
    (refused : Refused reading) : Refused (reading.map next) := by
  rcases refused with ⟨faults, rfl⟩
  exact ⟨faults, rfl⟩

theorem Refused.oneOf_second {first second third : Reading Rule Value}
    {value : Value} (refused : Refused first) (read : second = .ok value) :
    oneOf first second third = .ok value := by
  rcases refused with ⟨faults, rfl⟩
  rw [read]
  rfl

theorem Refused.oneOf_third {first second third : Reading Rule Value}
    (refused : Refused first) (other : Refused second) :
    oneOf first second third = third := by
  rcases refused with ⟨faults, rfl⟩
  rcases other with ⟨others, rfl⟩
  rfl

theorem forbidExtra_eq_ok {keys : List String} {entries : Entries} {done : Unit} :
    @forbidExtra Rule keys entries = .ok done ↔ ∀ entry ∈ entries, entry.1 ∈ keys := by
  unfold forbidExtra
  cases found : entries.find? fun entry => !keys.contains entry.1 with
  | none =>
    simp only [true_iff]
    intro entry listed
    simpa using List.find?_eq_none.mp found entry listed
  | some entry =>
    constructor
    · intro passed
      cases passed
    · intro known
      have unknown := List.find?_some found
      simp [known entry (mem_of_find?_eq_some found)] at unknown

end Readings

/-- Whatever the reader reads prints as something that reads back the same. -/
def Rereads {Rule Value : Type} (read : Json → Reading Rule Value) (dump : Value → Json) : Prop :=
  ∀ json value, read json = .ok value → read (dump value) = .ok value

section Rereading

variable {Rule Value : Type} {read : Json → Reading Rule Value} {dump : Value → Json}
  {items : List Json} {values : List Value}

theorem readEach_cons_eq_ok {item : Json} {value : Value} :
    readEach read (item :: items) = .ok (value :: values) ↔
      read item = .ok value ∧ readEach read items = .ok values := by
  rw [readEach, map_eq_ok]
  constructor
  · rintro ⟨⟨first, rest⟩, parts, same⟩
    cases same
    exact both_eq_ok.mp parts
  · rintro ⟨first, rest⟩
    exact ⟨(value, values), both_eq_ok.mpr ⟨first, rest⟩, rfl⟩

theorem readEach_eq_ok : readEach read items = .ok values ↔
      List.Forall₂ (fun item value => read item = .ok value) items values := by
  induction items generalizing values with
  | nil =>
    rw [readEach, forall₂_nil_left_iff, Except.ok.injEq]
    exact eq_comm
  | cons item items ih =>
    cases values with
    | nil =>
      rw [readEach, map_eq_ok]
      constructor
      · rintro ⟨parts, _, same⟩
        cases same
      · intro none
        cases none
    | cons value values =>
      rw [readEach_cons_eq_ok, ih, forall₂_cons]

theorem readEach_map_dump (each : ∀ value ∈ values, read (dump value) = .ok value) :
    readEach read (values.map dump) = .ok values := by
  rw [readEach_eq_ok, forall₂_map_left_iff, forall₂_same]
  exact each

theorem exists_read_of_mem_readEach (readAll : readEach read items = .ok values) {value : Value}
    (listed : value ∈ values) : ∃ item ∈ items, read item = .ok value := by
  rw [readEach_eq_ok] at readAll
  induction readAll with
  | nil => cases listed
  | cons own _ ih =>
    rcases List.mem_cons.mp listed with rfl | later
    · exact ⟨_, mem_cons_self .., own⟩
    · rcases ih later with ⟨item, isItem, found⟩
      exact ⟨item, mem_cons_of_mem _ isItem, found⟩

def dumpNullable (dump : Value → Json) : Option Value → Json
  | none => .null
  | some value => dump value

variable {json : Json}

theorem readNullable_of_ne_null (present : json ≠ .null) :
    readNullable read json = (read json).map some := by
  cases json with
  | null => exact absurd rfl present
  | _ => rfl

theorem read_of_readNullable {value : Value} (readIt : readNullable read json = .ok (some value)) :
    read json = .ok value := by
  cases json with
  | null => cases readIt
  | _ =>
    rcases map_eq_ok.mp readIt with ⟨found, isFound, same⟩
    cases same
    exact isFound

theorem Rereads.nullable (each : Rereads read dump) (present : ∀ value, dump value ≠ .null) :
    Rereads (readNullable read) (dumpNullable dump) := by
  intro json value readIt
  cases value with
  | none => rfl
  | some value =>
    show readNullable read (dump value) = _
    rw [readNullable_of_ne_null (present value), each json value (read_of_readNullable readIt)]
    rfl

theorem rereads_literal {names : List (String × Value)} {name : Value → String}
    (named : ∀ value, names.lookup (name value) = some value) :
    Rereads (@readLiteral Rule Value names) fun value => .text (name value) := by
  intro json value _
  rw [readLiteral, named value]

variable {entries : Entries} {key : String} {absent : Option Value}

theorem readField_of_lookup (found : entries.lookup key = some json) :
    readField entries key absent read = read json := by
  unfold readField
  rw [found]

theorem readField_of_lookup_none {absent : Value} (missing : entries.lookup key = none) :
    readField entries key (some absent) read = .ok absent := by
  unfold readField
  rw [missing]

theorem Rereads.value {value : Value} (each : Rereads read dump)
    (default : ∀ value, absent = some value → read (dump value) = .ok value)
    (readIt : readField entries key absent read = .ok value) :
    read (dump value) = .ok value := by
  unfold readField at readIt
  split at readIt
  · exact each _ _ readIt
  · split at readIt
    · cases readIt
      exact default value rfl
    · cases readIt

theorem Rereads.nullValue {value : Option Value} (each : Rereads read dump)
    (present : ∀ value, dump value ≠ .null)
    (readIt : readField entries key (some none) (readNullable read) = .ok value) :
    readNullable read (dumpNullable dump value) = .ok value := by
  apply (each.nullable present).value _ readIt
  intro absent same
  cases same
  rfl

theorem Rereads.nullField {printed : Entries} {value : Option Value} (each : Rereads read dump)
    (present : ∀ value, dump value ≠ .null)
    (readIt : readField entries key (some none) (readNullable read) = .ok value)
    (stored : printed.lookup key = some (dumpNullable dump value)) :
    readField printed key (some none) (readNullable read) = .ok value :=
  (readField_of_lookup stored).trans (each.nullValue present readIt)

end Rereading

end McpAssistant.Foundations.JsonReading
