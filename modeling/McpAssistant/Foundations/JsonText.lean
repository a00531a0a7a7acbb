import McpAssistant.Foundations.JsonReading
import Mathlib.Data.List.TakeWhile
import Mathlib.Tactic.IntervalCases
import Mathlib.Data.List.Sort

/-!
# JSON texts

A JSON value is printed without spaces, its keys in order, and a text is read
as the value it denotes.  A reader gives up on a text that nests deeper than it
can follow.  What is printed is read back.
-/

namespace McpAssistant.Foundations.JsonText

open JsonReading List

/-- The letters that are escaped, with the letter that stands for each behind a
backslash. -/
def shortEscapes : List (Char × Char) := [
  ('"', '"'),
  ('\\', '\\'),
  ('\n', 'n'),
  ('\r', 'r'),
  ('\t', 't'),
  (Char.ofNat 8, 'b'),
  (Char.ofNat 12, 'f')
]

def escape (letter : Char) : List Char :=
  match shortEscapes.find? fun entry => entry.1 = letter with
  | some (_, short) => ['\\', short]
  | none =>
    if letter.toNat < 32 then
      ['\\', 'u', '0', '0', Nat.digitChar (letter.toNat / 16), Nat.digitChar (letter.toNat % 16)]
    else [letter]

def dumpText (text : String) : List Char :=
  '"' :: text.toList.flatMap escape ++ ['"']

def dumpInteger : Int → List Char
  | .ofNat value => Nat.toDigits 10 value
  | .negSucc value => '-' :: Nat.toDigits 10 (value + 1)

mutual

def dumps : Json → List Char
  | .null => ['n', 'u', 'l', 'l']
  | .boolean true => ['t', 'r', 'u', 'e']
  | .boolean false => ['f', 'a', 'l', 's', 'e']
  | .integer value => dumpInteger value
  | .float _ printed => printed.toList
  | .text value => dumpText value
  | .list [] => ['[', ']']
  | .list (item :: items) => '[' :: (dumps item ++ dumpItems items)
  | .dict [] => ['\x7b', '\x7d']
  | .dict ((key, value) :: entries) =>
    '\x7b' :: (dumpText key ++ ':' :: (dumps value ++ dumpEntries entries))

def dumpItems : List Json → List Char
  | [] => [']']
  | item :: items => ',' :: (dumps item ++ dumpItems items)

def dumpEntries : List (String × Json) → List Char
  | [] => ['\x7d']
  | (key, value) :: entries =>
    ',' :: (dumpText key ++ ':' :: (dumps value ++ dumpEntries entries))

end

section Spelling

-- How each letter of a text is spelled.
variable (spell : Char → List Char)

def spellText (text : String) : List Char :=
  '"' :: text.toList.flatMap spell ++ ['"']

mutual

def printWith : Json → List Char
  | .null => ['n', 'u', 'l', 'l']
  | .boolean true => ['t', 'r', 'u', 'e']
  | .boolean false => ['f', 'a', 'l', 's', 'e']
  | .integer value => dumpInteger value
  | .float _ printed => printed.toList
  | .text value => spellText spell value
  | .list [] => ['[', ']']
  | .list (item :: items) => '[' :: (printWith item ++ printItems items)
  | .dict [] => ['\x7b', '\x7d']
  | .dict ((key, value) :: entries) =>
    '\x7b' :: (spellText spell key ++ ':' :: (printWith value ++ printEntries entries))

def printItems : List Json → List Char
  | [] => [']']
  | item :: items => ',' :: (printWith item ++ printItems items)

def printEntries : List (String × Json) → List Char
  | [] => ['\x7d']
  | (key, value) :: entries =>
    ',' :: (spellText spell key ++ ':' :: (printWith value ++ printEntries entries))

end

end Spelling

mutual

theorem dumps_eq_printWith : ∀ json : Json, dumps json = printWith escape json
  | .null | .boolean true | .boolean false | .integer _ | .float _ _ | .text _ => rfl
  | .list [] | .dict [] => rfl
  | .list (item :: items) => by
      rw [dumps, printWith, dumps_eq_printWith item, dumpItems_eq_printItems items]
  | .dict ((key, value) :: entries) => by
      rw [dumps, printWith, dumps_eq_printWith value, dumpEntries_eq_printEntries entries]
      rfl

theorem dumpItems_eq_printItems : ∀ items : List Json, dumpItems items = printItems escape items
  | [] => rfl
  | item :: items => by
      rw [dumpItems, printItems, dumps_eq_printWith item, dumpItems_eq_printItems items]

theorem dumpEntries_eq_printEntries : ∀ entries : List (String × Json),
    dumpEntries entries = printEntries escape entries
  | [] => rfl
  | (key, value) :: entries => by
      rw [dumpEntries, printEntries, dumps_eq_printWith value, dumpEntries_eq_printEntries entries]
      rfl

end

mutual

def sortKeys : Json → Json
  | .list items => .list (sortItems items)
  | .dict entries =>
    .dict ((sortValues entries).insertionSort fun first second =>
      first.1 ≤ second.1)
  | .null => .null
  | .boolean value => .boolean value
  | .integer value => .integer value
  | .float value printed => .float value printed
  | .text value => .text value

def sortItems : List Json → List Json
  | [] => []
  | item :: items => sortKeys item :: sortItems items

def sortValues : List (String × Json) → List (String × Json)
  | [] => []
  | (key, value) :: entries => (key, sortKeys value) :: sortValues entries

end

def sortedEntries (entries : List (String × Json)) : List (String × Json) :=
  (sortValues entries).insertionSort fun first second => first.1 ≤ second.1

inductive LoadError where
  | malformed
  | tooDeep
deriving DecidableEq

def isBlank (letter : Char) : Bool :=
  letter = ' ' || letter = '\t' || letter = '\n' || letter = '\r'

def skip (letters : List Char) : List Char :=
  letters.dropWhile isBlank

/-- A slash may be escaped but is not printed so. -/
def unescape (short : Char) : Option Char :=
  ((('/', '/') :: shortEscapes).find? fun entry => entry.2 = short).map Prod.fst

def readHex (letter : Char) : Option Nat :=
  if letter.isDigit then some (letter.toNat - 48)
  else if 'a' ≤ letter ∧ letter ≤ 'f' then some (letter.toNat - 87)
  else if 'A' ≤ letter ∧ letter ≤ 'F' then some (letter.toNat - 55)
  else none

def readUnit (a b c d : Char) : Option Nat := do
  let a ← readHex a
  let b ← readHex b
  let c ← readHex c
  let d ← readHex d
  return ((a * 16 + b) * 16 + c) * 16 + d

/-- The letters up to the closing quote, and what follows it.  Half of a
surrogate pair is no letter. -/
def readText : List Char → Option (List Char × List Char)
  | [] => none
  | letter :: rest =>
    if letter = '"' then some ([], rest)
    else if letter = '\\' then
      match rest with
      | 'u' :: a :: b :: c :: d :: rest => do
          let high ← readUnit a b c d
          if 0xD800 ≤ high ∧ high < 0xDC00 then
            match rest with
            | '\\' :: 'u' :: a :: b :: c :: d :: rest => do
                let low ← readUnit a b c d
                if 0xDC00 ≤ low ∧ low < 0xE000 then
                  let (letters, rest) ← readText rest
                  return (Char.ofNat (0x10000 + (high - 0xD800) * 0x400 + (low - 0xDC00)) ::
                      letters, rest)
                else none
            | _ => none
          else if 0xDC00 ≤ high ∧ high < 0xE000 then none
          else
            let (letters, rest) ← readText rest
            return (Char.ofNat high :: letters, rest)
      | short :: rest => do
          let letter ← unescape short
          let (letters, rest) ← readText rest
          return (letter :: letters, rest)
      | [] => none
    else if letter.toNat < 32 then none
    else do
      let (letters, rest) ← readText rest
      return (letter :: letters, rest)

def isNumberLetter (letter : Char) : Bool :=
  letter.isDigit || letter = '-' || letter = '+' || letter = '.' || letter = 'e' || letter = 'E'

/-- How many digits an integer may have. -/
def maxDigits : Nat := 4300

/-- Digits without a leading zero. -/
def isNatural (letters : List Char) : Bool :=
  letters.all Char.isDigit && !letters.isEmpty && (letters.head? ≠ some '0' || letters.length = 1)

def readNatural (digits : List Char) : Option Nat :=
  if isNatural digits && digits.length ≤ maxDigits then
    some (Nat.ofDigitChars 10 digits 0)
  else none

def readInteger : List Char → Option Int
  | '-' :: digits => (readNatural digits).map fun value : Nat => -Int.ofNat value
  | digits => (readNatural digits).map Int.ofNat

def unsigned : List Char → List Char
  | '-' :: letters => letters
  | letters => letters

def isExponent (letters : List Char) : Bool :=
  match letters with
  | [] => true
  | mark :: rest =>
    let digits := rest.dropWhile fun letter => letter = '+' || letter = '-'
    (mark = 'e' || mark = 'E') && rest.length ≤ digits.length + 1 &&
      digits.all Char.isDigit && !digits.isEmpty

def isFloatToken (letters : List Char) : Bool :=
  let whole := (unsigned letters).takeWhile Char.isDigit
  let rest := (unsigned letters).dropWhile Char.isDigit
  letters.all isNumberLetter && isNatural whole && !rest.isEmpty &&
    match rest with
    | '.' :: fraction =>
      !(fraction.takeWhile Char.isDigit).isEmpty && isExponent (fraction.dropWhile Char.isDigit)
    | exponent => isExponent exponent

section Reading

-- The value of a float literal, of the constants that are no number among them.
variable (floatOf : String → Json)

/-- The constants; `NaN` and the infinities are read but never printed. -/
def readWord (letters : List Char) : Except LoadError (Json × List Char) :=
  match letters with
  | 'n' :: 'u' :: 'l' :: 'l' :: rest => .ok (.null, rest)
  | 't' :: 'r' :: 'u' :: 'e' :: rest => .ok (.boolean true, rest)
  | 'f' :: 'a' :: 'l' :: 's' :: 'e' :: rest => .ok (.boolean false, rest)
  | 'N' :: 'a' :: 'N' :: rest => .ok (floatOf "NaN", rest)
  | 'I' :: 'n' :: 'f' :: 'i' :: 'n' :: 'i' :: 't' :: 'y' :: rest =>
    .ok (floatOf "Infinity", rest)
  | '-' :: 'I' :: 'n' :: 'f' :: 'i' :: 'n' :: 'i' :: 't' :: 'y' :: rest =>
    .ok (floatOf "-Infinity", rest)
  | _ => .error .malformed

def readNumber (letters : List Char) : Except LoadError (Json × List Char) :=
  let token := letters.takeWhile isNumberLetter
  let rest := letters.dropWhile isNumberLetter
  match readInteger token with
  | some value => .ok (.integer value, rest)
  | none =>
    if isFloatToken token then .ok (floatOf (String.ofList token), rest)
    else readWord floatOf letters

/-- The last value of each key, at the key's first place. -/
def toDict (entries : List (String × Json)) : Json :=
  .dict (entries.foldl (fun dict entry => putKey entry.1 entry.2 dict) [])

/-- The key of an entry, behind its quote, and what follows the colon. -/
def readKey (letters : List Char) : Except LoadError (String × List Char) :=
  match readText letters with
  | none => .error .malformed
  | some (key, rest) =>
    match skip rest with
    | ':' :: rest => .ok (String.ofList key, rest)
    | _ => .error .malformed

mutual

/-- The value a text starts with, and what follows it; `depth` is how much
deeper the reader can follow, and the first argument bounds its steps. -/
def readValue : Nat → Nat → List Char → Except LoadError (Json × List Char)
  | 0, _, _ => .error .malformed
  | steps + 1, depth, letters =>
    match skip letters with
    | [] => .error .malformed
    | first :: rest =>
      if first = '"' then
        match readText rest with
        | none => .error .malformed
        | some (text, rest) => .ok (.text (String.ofList text), rest)
      else if first = '[' then
        match depth with
        | 0 => .error .tooDeep
        | depth + 1 =>
          match skip rest with
          | ']' :: rest => .ok (.list [], rest)
          | _ => do
              let (items, rest) ← readItems steps depth rest
              return (.list items, rest)
      else if first = '\x7b' then
        match depth with
        | 0 => .error .tooDeep
        | depth + 1 =>
          match skip rest with
          | '\x7d' :: rest => .ok (.dict [], rest)
          | '"' :: rest => do
              let (entries, rest) ← readEntries steps depth rest
              return (toDict entries, rest)
          | _ => .error .malformed
      else if isNumberLetter first then readNumber floatOf (first :: rest)
      else readWord floatOf (first :: rest)

/-- The items up to the closing bracket. -/
def readItems : Nat → Nat → List Char → Except LoadError (List Json × List Char)
  | 0, _, _ => .error .malformed
  | steps + 1, depth, letters => do
      let (item, rest) ← readValue steps depth letters
      match skip rest with
      | ']' :: rest => return ([item], rest)
      | ',' :: rest => do
          let (items, rest) ← readItems steps depth rest
          return (item :: items, rest)
      | _ => .error .malformed

/-- The entries from behind the quote of a key up to the closing brace. -/
def readEntries : Nat → Nat → List Char → Except LoadError (List (String × Json) × List Char)
  | 0, _, _ => .error .malformed
  | steps + 1, depth, letters => do
      let (key, rest) ← readKey letters
      let (value, rest) ← readValue steps depth rest
      match skip rest with
      | '\x7d' :: rest => return ([(key, value)], rest)
      | ',' :: rest =>
        match skip rest with
        | '"' :: rest => do
            let (entries, rest) ← readEntries steps depth rest
            return ((key, value) :: entries, rest)
        | _ => .error .malformed
      | _ => .error .malformed

end

def loads (limit : Nat) (text : String) : Except LoadError Json := do
  let letters := text.toList
  let (value, rest) ← readValue floatOf (letters.length + 1) limit letters
  if (skip rest).isEmpty then return value
  else .error .malformed

end Reading

mutual

def depth : Json → Nat
  | .list items => itemsDepth items + 1
  | .dict entries => entriesDepth entries + 1
  | _ => 0

def itemsDepth : List Json → Nat
  | [] => 0
  | item :: items => max (depth item) (itemsDepth items)

def entriesDepth : List (String × Json) → Nat
  | [] => 0
  | (_, value) :: entries => max (depth value) (entriesDepth entries)

end

mutual

def shortIntegers : Json → Bool
  | .integer value => (Nat.toDigits 10 value.natAbs).length ≤ maxDigits
  | .list items => shortItems items
  | .dict entries => shortEntries entries
  | _ => true

def shortItems : List Json → Bool
  | [] => true
  | item :: items => shortIntegers item && shortItems items

def shortEntries : List (String × Json) → Bool
  | [] => true
  | (_, value) :: entries => shortIntegers value && shortEntries entries

end

section Printing

variable (floatOf : String → Json)

mutual

/-- Floats are literals of their values, and no dictionary holds a key twice. -/
def Genuine : Json → Prop
  | .float value printed =>
    isFloatToken printed.toList = true ∧ floatOf printed = .float value printed
  | .list items => GenuineItems items
  | .dict entries => (entries.map Prod.fst).Nodup ∧ GenuineEntries entries
  | _ => True

def GenuineItems : List Json → Prop
  | [] => True
  | item :: items => Genuine item ∧ GenuineItems items

def GenuineEntries : List (String × Json) → Prop
  | [] => True
  | (_, value) :: entries => Genuine value ∧ GenuineEntries entries

end

/-- A value whose text can be printed and denotes it. -/
structure Printable (json : Json) : Prop where
  short : shortIntegers json = true
  genuine : Genuine floatOf json

variable {floatOf}

theorem Printable.items {item : Json} {items : List Json}
    (printable : Printable floatOf (.list (item :: items))) :
    Printable floatOf item ∧ Printable floatOf (.list items) := by
  have short := Bool.and_eq_true_iff.mp printable.short
  exact ⟨⟨short.1, printable.genuine.1⟩, ⟨short.2, printable.genuine.2⟩⟩

theorem Printable.entries {key : String} {value : Json} {entries : List (String × Json)}
    (printable : Printable floatOf (.dict ((key, value) :: entries))) :
    Printable floatOf value ∧ Printable floatOf (.dict entries) := by
  have short := Bool.and_eq_true_iff.mp printable.short
  have distinct := (List.nodup_cons.mp printable.genuine.1).2
  exact ⟨⟨short.1, printable.genuine.2.1⟩, ⟨short.2, distinct, printable.genuine.2.2⟩⟩

end Printing

theorem unescape_short : ∀ entry ∈ shortEscapes,
    unescape entry.2 = some entry.1 ∧ entry.2 ≠ 'u' := by
  decide

theorem readHex_digitChar {value : Nat} (small : value < 16) :
    readHex (Nat.digitChar value) = some value := by
  interval_cases value <;> rfl

theorem readText_escape (letter : Char) (rest : List Char) : readText (escape letter ++ rest) =
      (readText rest).map fun read => (letter :: read.1, read.2) := by
  unfold escape
  cases found : shortEscapes.find? fun entry => entry.1 = letter with
  | some entry =>
    have ⟨stands, notUnit⟩ := unescape_short entry (mem_of_find?_eq_some found)
    have same : entry.1 = letter := by simpa using List.find?_some found
    show readText ('\\' :: entry.2 :: rest) = _
    rw [readText, if_neg (by decide), if_pos rfl, stands, same]
    · cases readText rest <;> rfl
    · exact fun _ _ _ _ _ isUnit => absurd isUnit notUnit
  | none =>
    have plain : ∀ entry ∈ shortEscapes, entry.1 ≠ letter := by
      intro entry member same
      exact absurd (decide_eq_true same) (List.find?_eq_none.mp found entry member)
    dsimp only
    split
    · rename_i control
      have unit : readUnit '0' '0' (Nat.digitChar (letter.toNat / 16))
          (Nat.digitChar (letter.toNat % 16)) = some letter.toNat := by
        rw [readUnit, readHex_digitChar (by omega), readHex_digitChar (by omega)]
        show some (((0 * 16 + 0) * 16 + letter.toNat / 16) * 16 + letter.toNat % 16) = _
        congr 1
        omega
      show readText ('\\' :: 'u' :: '0' :: '0' :: _ :: _ :: rest) = _
      rw [readText, if_neg (by decide), if_pos rfl, unit]
      show (if _ then _ else if _ then _ else _) = _
      rw [if_neg (by omega), if_neg (by omega), Char.ofNat_toNat]
      cases readText rest <;> rfl
    · rename_i visible
      show readText (letter :: rest) = _
      rw [readText.eq_def]
      dsimp only
      rw [if_neg, if_neg, if_neg visible]
      · cases readText rest <;> rfl
      · exact fun same => plain ('\\', '\\') (by decide) same.symm
      · exact fun same => plain ('"', '"') (by decide) same.symm

/-- Each letter reads as itself from its spelling, whatever follows it. -/
def Spells (spell : Char → List Char) : Prop :=
  ∀ (letter : Char) (rest : List Char), readText (spell letter ++ rest) =
    (readText rest).map fun read => (letter :: read.1, read.2)

theorem spells_escape : Spells escape := readText_escape

theorem Spells.readText {spell : Char → List Char} (spells : Spells spell)
    (letters rest : List Char) :
    JsonText.readText (letters.flatMap spell ++ '"' :: rest) = some (letters, rest) := by
  induction letters with
  | nil =>
    show JsonText.readText ('"' :: rest) = _
    rw [readText.eq_def]
    exact if_pos rfl
  | cons letter letters ih =>
    rw [flatMap_cons, append_assoc, spells, ih]
    rfl

theorem isDigit_isNumberLetter {letter : Char} (digit : letter.isDigit = true) :
    isNumberLetter letter = true := by
  simp [isNumberLetter, digit]

/-- A printed number but zero starts with another digit. -/
theorem head_toDigits_ne_zero {value : Nat} (positive : 0 < value) :
    (Nat.toDigits 10 value).head? ≠ some '0' := by
  induction value using Nat.strong_induction_on with
  | _ value ih =>
    rw [Nat.toDigits_eq_if (by decide)]
    split
    · intro same
      have isZero := Nat.digitChar_eq_zero.mp (Option.some.inj same)
      omega
    · have started := ih (value / 10) (by omega) (by omega)
      rwa [List.head?_append_of_ne_nil _ Nat.toDigits_ne_nil]

theorem isNatural_toDigits (value : Nat) : isNatural (Nat.toDigits 10 value) = true := by
  have allDigits : (Nat.toDigits 10 value).all Char.isDigit = true := by
    apply List.all_eq_true.mpr
    exact fun letter member =>
      Nat.isDigit_of_mem_toDigits (by decide) (by decide) member
  have start : (Nat.toDigits 10 value).head? ≠ some '0' ∨ (Nat.toDigits 10 value).length = 1 := by
    rcases Nat.eq_zero_or_pos value with rfl | positive
    · exact .inr rfl
    · exact .inl (head_toDigits_ne_zero positive)
  simp [isNatural, allDigits, start]

theorem readNatural_toDigits {value : Nat} (short : (Nat.toDigits 10 value).length ≤ maxDigits) :
    readNatural (Nat.toDigits 10 value) = some value := by
  unfold readNatural
  rw [isNatural_toDigits, Bool.true_and, if_pos (decide_eq_true short),
    Nat.ofDigitChars_ten_toDigits]

theorem readInteger_of_unsigned {digits : List Char} (noSign : digits.head? ≠ some '-') :
    readInteger digits = (readNatural digits).map Int.ofNat := by
  unfold readInteger
  split
  · exact absurd rfl noSign
  · rfl

theorem readInteger_dumpInteger {value : Int}
    (short : (Nat.toDigits 10 value.natAbs).length ≤ maxDigits) :
    readInteger (dumpInteger value) = some value := by
  cases value with
  | ofNat value =>
    show readInteger (Nat.toDigits 10 value) = _
    rw [readInteger_of_unsigned, @readNatural_toDigits value short]
    · rfl
    · intro negative
      have digit := @Nat.isDigit_of_mem_toDigits 10 value '-' (by decide)
        (by decide) (mem_of_head? negative)
      exact absurd digit (by decide)
  | negSucc value =>
    show (readNatural (Nat.toDigits 10 (value + 1))).map _ = _
    rw [@readNatural_toDigits (value + 1) short]
    rfl

theorem dumpInteger_letters (value : Int) : dumpInteger value ≠ [] ∧
      ∀ letter ∈ dumpInteger value, isNumberLetter letter = true := by
  have digits : ∀ number : Nat, ∀ letter ∈ Nat.toDigits 10 number,
      isNumberLetter letter = true := fun number letter member =>
    isDigit_isNumberLetter (Nat.isDigit_of_mem_toDigits (by decide) (by decide) member)
  cases value with
  | ofNat value => exact ⟨Nat.toDigits_ne_nil, digits value⟩
  | negSucc value =>
    refine ⟨cons_ne_nil _ _, fun letter member => ?_⟩
    rcases List.mem_cons.mp member with rfl | member
    · rfl
    · exact digits (value + 1) letter member

variable {letters : List Char}

theorem readInteger_floatToken
    (literal : isFloatToken letters = true) : readInteger letters = none := by
  simp only [isFloatToken, Bool.and_eq_true, Bool.not_eq_true'] at literal
  have more := literal.1.2
  have notNatural : readNatural (unsigned letters) = none := by
    unfold readNatural
    rw [if_neg]
    intro natural
    simp only [isNatural, Bool.and_eq_true] at natural
    rw [List.dropWhile_eq_nil_iff.mpr (List.all_eq_true.mp natural.1.1.1)] at more
    cases more
  unfold readInteger
  split
  · rename_i digits
    rw [show readNatural digits = none from notNatural]
    rfl
  · rename_i noSign
    have same : unsigned letters = letters := by
      unfold unsigned
      split
      · exact absurd rfl (noSign _)
      · rfl
    rw [← same, notNatural]
    rfl

theorem floatToken_letters (literal : isFloatToken letters = true) :
    letters ≠ [] ∧ ∀ letter ∈ letters, isNumberLetter letter = true := by
  simp only [isFloatToken, Bool.and_eq_true, Bool.not_eq_true'] at literal
  refine ⟨?_, List.all_eq_true.mp literal.1.1.1⟩
  rintro rfl
  cases literal.1.2

section RoundTrip

variable {floatOf : String → Json} {steps limit : Nat} {spell : Char → List Char}

/-- What follows a number does not go on with it. -/
def Ends (rest : List Char) : Prop :=
  ∀ letter ∈ rest.head?, isNumberLetter letter = false

theorem readNumber_append {token rest : List Char}
    (letters : ∀ letter ∈ token, isNumberLetter letter = true) (ends : Ends rest) :
    (token ++ rest).takeWhile isNumberLetter = token ∧
      (token ++ rest).dropWhile isNumberLetter = rest := by
  rw [takeWhile_append_of_pos letters, dropWhile_append_of_pos letters]
  cases rest with
  | nil => exact ⟨append_nil _, rfl⟩
  | cons letter rest =>
    have stops := ends letter rfl
    rw [takeWhile_cons_of_neg (by rw [stops]; exact Bool.false_ne_true),
      dropWhile_cons_of_neg (by rw [stops]; exact Bool.false_ne_true)]
    exact ⟨append_nil _, rfl⟩

theorem readValue_number {first : Char} {rest : List Char}
    (isNumber : isNumberLetter first = true) :
    readValue floatOf (steps + 1) limit (first :: rest) = readNumber floatOf (first :: rest) := by
  have apart : ∀ letter, isNumberLetter letter = false → first ≠ letter := by
    rintro letter noNumber rfl
    rw [isNumber] at noNumber
    cases noNumber
  have shown : skip (first :: rest) = first :: rest := by
    apply dropWhile_cons_of_neg
    simp [isBlank, apart ' ' rfl, apart '\t' rfl, apart '\n' rfl, apart '\r' rfl]
  simp only [readValue, shown]
  rw [if_neg (apart _ rfl), if_neg (apart _ rfl), if_neg (apart _ rfl), if_pos isNumber]

theorem readValue_token {token rest : List Char} {value : Json} (nonempty : token ≠ [])
    (letters : ∀ letter ∈ token, isNumberLetter letter = true) (ends : Ends rest)
    (read : match readInteger token with
      | some integer => value = .integer integer
      | none => isFloatToken token = true ∧ value = floatOf (String.ofList token)) :
    readValue floatOf (steps + 1) limit (token ++ rest) = .ok (value, rest) := by
  obtain ⟨first, more, rfl⟩ := exists_cons_of_ne_nil nonempty
  have ⟨taken, left⟩ := readNumber_append letters ends
  have number := @readValue_number floatOf steps limit first (more ++ rest)
    (letters first mem_cons_self)
  rw [cons_append, number, ← cons_append, readNumber, taken, left]
  split at read
  · rename_i integer isInteger
    simp only [read]
  · rename_i noInteger
    simp only [read.1, read.2, if_true]

theorem putKey_of_absent {key : String} {value : Json}
    {entries : List (String × Json)} (absent : key ∉ entries.map Prod.fst) :
    putKey key value entries = entries ++ [(key, value)] := by
  induction entries with
  | nil => rfl
  | cons first entries ih =>
    rw [map_cons, mem_cons, not_or] at absent
    rw [putKey, if_neg (Ne.symm absent.1), ih absent.2]
    rfl

/-- Storing new keys one after another lists them. -/
theorem toDict_of_nodup {entries : List (String × Json)}
    (distinct : (entries.map Prod.fst).Nodup) : toDict entries = .dict entries := by
  have stored : ∀ dict : List (String × Json), (dict.map Prod.fst ++ entries.map Prod.fst).Nodup →
        entries.foldl (fun dict entry => putKey entry.1 entry.2 dict) dict = dict ++ entries := by
    clear distinct
    induction entries with
    | nil => exact fun dict _ => (append_nil dict).symm
    | cons entry entries ih =>
      intro dict distinct
      have absent : entry.1 ∉ dict.map Prod.fst := by
        intro member
        have apart := (List.nodup_append.mp distinct).2.2
        exact apart _ member _ mem_cons_self rfl
      rw [foldl_cons, putKey_of_absent absent, ih]
      · rw [append_assoc]
        rfl
      · rw [map_append, append_assoc]
        exact distinct
  rw [toDict, stored [] distinct]
  rfl

variable {json : Json}

theorem exists_head (printable : Printable floatOf json) :
    ∃ first more, printWith spell json = first :: more ∧ isBlank first = false ∧ first ≠ ']' := by
  have ofNumber : ∀ token : List Char, token ≠ [] →
      (∀ letter ∈ token, isNumberLetter letter = true) →
        ∃ first more, token = first :: more ∧ isBlank first = false ∧ first ≠ ']' := by
    intro token nonempty letters
    obtain ⟨first, more, rfl⟩ := exists_cons_of_ne_nil nonempty
    have isNumber := letters first mem_cons_self
    refine ⟨first, more, rfl, ?_, ?_⟩
    · by_contra blank
      simp only [isBlank, Bool.not_eq_false, Bool.or_eq_true, decide_eq_true_eq] at blank
      rcases blank with ((rfl | rfl) | rfl) | rfl <;> cases isNumber
    · rintro rfl
      cases isNumber
  cases json with
  | null => exact ⟨_, _, rfl, rfl, by decide⟩
  | boolean value => cases value <;> exact ⟨_, _, rfl, rfl, by decide⟩
  | integer value =>
    have ⟨nonempty, letters⟩ := dumpInteger_letters value
    exact ofNumber _ nonempty letters
  | float value printed =>
    have ⟨nonempty, letters⟩ := floatToken_letters printable.genuine.1
    exact ofNumber _ nonempty letters
  | text value => exact ⟨_, _, rfl, rfl, by decide⟩
  | list items => cases items <;> exact ⟨_, _, rfl, rfl, by decide⟩
  | dict entries => cases entries <;> exact ⟨_, _, rfl, rfl, by decide⟩

theorem skip_cons {first : Char} (more : List Char)
    (shown : isBlank first = false) : skip (first :: more) = first :: more := by
  apply dropWhile_cons_of_neg
  rw [shown]
  exact Bool.false_ne_true

theorem ends_of_closing {first : Char} (rest : List Char)
    (closing : isNumberLetter first = false) : Ends (first :: rest) := by
  intro letter isFirst
  cases isFirst
  exact closing

theorem ends_printItems (items : List Json) (rest : List Char) :
    Ends (printItems spell items ++ rest) := by
  cases items <;> exact ends_of_closing _ rfl

theorem ends_printEntries (entries : List (String × Json)) (rest : List Char) :
    Ends (printEntries spell entries ++ rest) := by
  cases entries <;> exact ends_of_closing _ rfl

theorem printItems_positive (items : List Json) : 0 < (printItems spell items).length := by
  cases items <;> exact Nat.succ_pos _

theorem printEntries_positive (entries : List (String × Json)) :
    0 < (printEntries spell entries).length := by
  cases entries <;> exact Nat.succ_pos _

theorem readKey_spellText (spells : Spells spell) (key : String) (rest : List Char) :
    readKey (key.toList.flatMap spell ++ '"' :: ':' :: rest) = .ok (key, rest) := by
  rw [readKey, spells.readText]
  show Except.ok (String.ofList key.toList, rest) = _
  rw [String.ofList_toList]

theorem readValue_quote (rest : List Char) : readValue floatOf (steps + 1) limit ('"' :: rest) =
      match readText rest with
      | none => .error .malformed
      | some (text, rest) => .ok (.text (String.ofList text), rest) := by
  rw [readValue]
  rfl

theorem readValue_bracket (rest : List Char) :
    readValue floatOf (steps + 1) (limit + 1) ('[' :: rest) =
      match skip rest with
      | ']' :: rest => .ok (.list [], rest)
      | _ => do
          let (items, rest) ← readItems floatOf steps limit rest
          return (.list items, rest) := by
  rw [readValue]
  rfl

theorem readValue_brace (rest : List Char) :
    readValue floatOf (steps + 1) (limit + 1) ('\x7b' :: rest) =
      match skip rest with
      | '\x7d' :: rest => .ok (.dict [], rest)
      | '"' :: rest => do
          let (entries, rest) ← readEntries floatOf steps limit rest
          return (toDict entries, rest)
      | _ => .error .malformed := by
  rw [readValue]
  rfl

mutual

theorem readValue_printWith (spells : Spells spell) :
    ∀ (json : Json) (steps limit : Nat) (rest : List Char),
    Printable floatOf json → (printWith spell json).length < steps → depth json ≤ limit →
      Ends rest → readValue floatOf steps limit (printWith spell json ++ rest) = .ok (json, rest)
  | .null, steps + 1, limit, rest, _, _, _, _ => by
      rw [readValue]
      rfl
  | .boolean true, steps + 1, limit, rest, _, _, _, _ => by
      rw [readValue]
      rfl
  | .boolean false, steps + 1, limit, rest, _, _, _, _ => by
      rw [readValue]
      rfl
  | .integer value, steps + 1, limit, rest, printable, _, _, ends => by
      have ⟨nonempty, letters⟩ := dumpInteger_letters value
      apply readValue_token nonempty letters ends
      rw [readInteger_dumpInteger (of_decide_eq_true printable.short)]
  | .float value printed, steps + 1, limit, rest, printable, _, _, ends => by
      have ⟨nonempty, letters⟩ := floatToken_letters printable.genuine.1
      apply readValue_token nonempty letters ends
      rw [readInteger_floatToken printable.genuine.1]
      refine ⟨printable.genuine.1, ?_⟩
      rw [String.ofList_toList, printable.genuine.2]
  | .text value, steps + 1, limit, rest, _, _, _, _ => by
      show readValue floatOf (steps + 1) limit
        ('"' :: (value.toList.flatMap spell ++ ['"']) ++ rest) = _
      rw [cons_append, append_assoc, readValue_quote]
      have read := spells.readText value.toList rest
      rw [← singleton_append] at read
      rw [read]
      show Except.ok (Json.text (String.ofList value.toList), rest) = _
      rw [String.ofList_toList]
  | .list [], steps + 1, limit + 1, rest, _, _, _, _ => readValue_bracket _
  | .list (item :: items), steps + 2, limit + 1, rest, printable, short, shallow, ends => by
      have positive := @printItems_positive spell items
      simp only [printWith, length_cons, length_append] at short
      simp only [depth, itemsDepth] at shallow
      have readItem := readValue_printWith spells item steps limit (printItems spell items ++ rest)
        printable.items.1 (by omega) (by omega) (ends_printItems items rest)
      have readAll := readItems_printItems spells items item steps limit _ rest readItem
        printable.items.2 (by omega) (by omega)
      obtain ⟨first, more, isFirst, shown, notClosed⟩ := exists_head printable.items.1
      show readValue floatOf (steps + 2) (limit + 1)
        ('[' :: (printWith spell item ++ printItems spell items) ++ rest) = _
      rw [cons_append, append_assoc, readValue_bracket]
      rw [isFirst] at readAll ⊢
      rw [cons_append, skip_cons _ shown]
      split
      · rename_i closed
        exact absurd (List.cons.inj closed).1 notClosed
      · rw [← cons_append, readAll]
        rfl
  | .dict [], steps + 1, limit + 1, rest, _, _, _, _ => readValue_brace _
  | .dict ((key, value) :: entries), steps + 2, limit + 1, rest, printable, short, shallow, ends => by
      have positive := @printEntries_positive spell entries
      simp only [printWith, length_cons, length_append] at short
      simp only [depth, entriesDepth] at shallow
      have readFirst := readValue_printWith spells value steps limit
        (printEntries spell entries ++ rest) printable.entries.1 (by omega) (by omega)
        (ends_printEntries entries rest)
      have readAll := readEntries_printEntries spells entries key value steps limit _ rest
        readFirst printable.entries.2 (by omega) (by omega)
      show readValue floatOf (steps + 2) (limit + 1) ('\x7b' :: (spellText spell key ++ ':' ::
          (printWith spell value ++ printEntries spell entries)) ++
          rest) = _
      rw [cons_append, readValue_brace]
      have text : spellText spell key ++ ':' ::
          (printWith spell value ++ printEntries spell entries) ++ rest =
          '"' :: (key.toList.flatMap spell ++ '"' :: ':' ::
            (printWith spell value ++ (printEntries spell entries ++ rest))) := by
        simp [spellText]
      rw [text, skip_cons _ rfl]
      show (do
        let (entries, rest) ← readEntries floatOf (steps + 1) limit _
        return (toDict entries, rest)) = _
      rw [readAll]
      show Except.ok (toDict ((key, value) :: entries), rest) = _
      rw [toDict_of_nodup printable.genuine.1]

theorem readItems_printItems (spells : Spells spell) : ∀ (items : List Json) (first : Json)
    (steps limit : Nat) (letters rest : List Char),
    readValue floatOf steps limit letters = .ok (first, printItems spell items ++ rest) →
      Printable floatOf (.list items) → (printItems spell items).length ≤ steps →
        itemsDepth items ≤ limit →
          readItems floatOf (steps + 1) limit letters = .ok (first :: items, rest)
  | [], first, steps, limit, letters, rest, read, _, _, _ => by
      rw [readItems, read]
      rfl
  | item :: items, first, steps + 1, limit, letters, rest, read, printable, short, shallow => by
      have positive := @printItems_positive spell items
      simp only [printItems, length_cons, length_append] at short
      have readItem := readValue_printWith spells item steps limit (printItems spell items ++ rest)
        printable.items.1 (by omega) (le_trans (le_max_left _ _) shallow)
        (ends_printItems items rest)
      have readRest := readItems_printItems spells items item steps limit _ rest readItem
        printable.items.2 (by omega) (le_trans (le_max_right _ _) shallow)
      rw [readItems, read]
      show (do
        let (items, rest) ← readItems floatOf (steps + 1) limit
          (printWith spell item ++ printItems spell items ++ rest)
        return (first :: items, rest)) = _
      rw [append_assoc, readRest]
      rfl

/-- Entries are read back from behind the quote of the first key. -/
theorem readEntries_printEntries (spells : Spells spell) : ∀ (entries : List (String × Json))
    (key : String) (value : Json) (steps limit : Nat) (letters rest : List Char),
    readValue floatOf steps limit letters = .ok (value, printEntries spell entries ++ rest) →
      Printable floatOf (.dict entries) → (printEntries spell entries).length ≤ steps →
        entriesDepth entries ≤ limit → readEntries floatOf (steps + 1) limit
              (key.toList.flatMap spell ++ '"' :: ':' :: letters) =
            .ok ((key, value) :: entries, rest)
  | [], key, value, steps, limit, letters, rest, read, _, _, _ => by
      rw [readEntries, readKey_spellText spells]
      show (do
        let (value, rest) ← readValue floatOf steps limit letters
        _) = _
      rw [read]
      rfl
  | (next, item) :: entries, key, value, steps + 1, limit, letters, rest, read, printable, short, shallow => by
      have positive := @printEntries_positive spell entries
      simp only [printEntries, length_cons, length_append] at short
      simp only [entriesDepth] at shallow
      have readNext := readValue_printWith spells item steps limit
        (printEntries spell entries ++ rest) printable.entries.1 (by omega) (by omega)
        (ends_printEntries entries rest)
      have readRest := readEntries_printEntries spells entries next item steps limit _ rest
        readNext printable.entries.2 (by omega) (by omega)
      have text : printEntries spell ((next, item) :: entries) ++ rest =
          ',' :: '"' :: (next.toList.flatMap spell ++ '"' :: ':' ::
            (printWith spell item ++ (printEntries spell entries ++ rest))) := by
        simp [printEntries, spellText]
      rw [text] at read
      rw [readEntries, readKey_spellText spells]
      show (do
        let (value, rest) ← readValue floatOf (steps + 1) limit letters
        _) = _
      rw [read]
      show (do
        let (entries, rest) ← readEntries floatOf (steps + 1) limit _
        return ((key, value) :: entries, rest)) = _
      rw [readRest]
      rfl

end

theorem shortEntries_iff {entries : List (String × Json)} : shortEntries entries = true ↔
      ∀ entry ∈ entries, shortIntegers entry.2 = true := by
  induction entries with
  | nil => exact ⟨fun _ _ member => absurd member not_mem_nil, fun _ => rfl⟩
  | cons entry entries ih =>
    rcases entry with ⟨key, value⟩
    rw [shortEntries, Bool.and_eq_true, ih, forall_mem_cons]

theorem genuineEntries_iff {entries : List (String × Json)} : GenuineEntries floatOf entries ↔
      ∀ entry ∈ entries, Genuine floatOf entry.2 := by
  induction entries with
  | nil => exact ⟨fun _ _ member => absurd member not_mem_nil, fun _ => trivial⟩
  | cons entry entries ih =>
    rcases entry with ⟨key, value⟩
    rw [GenuineEntries, ih, forall_mem_cons]

theorem entriesDepth_le_iff {entries : List (String × Json)} :
    entriesDepth entries ≤ limit ↔ ∀ entry ∈ entries, depth entry.2 ≤ limit := by
  induction entries with
  | nil => exact ⟨fun _ _ member => absurd member not_mem_nil, fun _ => Nat.zero_le _⟩
  | cons entry entries ih =>
    rcases entry with ⟨key, value⟩
    rw [entriesDepth, max_le_iff, ih, forall_mem_cons]

theorem itemsDepth_le_iff {items : List Json} :
    itemsDepth items ≤ limit ↔ ∀ item ∈ items, depth item ≤ limit := by
  induction items with
  | nil => exact ⟨fun _ _ member => absurd member not_mem_nil, fun _ => Nat.zero_le _⟩
  | cons item items ih => rw [itemsDepth, max_le_iff, ih, forall_mem_cons]

theorem keys_sortValues (entries : List (String × Json)) :
    (sortValues entries).map Prod.fst = entries.map Prod.fst := by
  induction entries with
  | nil => rfl
  | cons entry entries ih =>
    rcases entry with ⟨key, value⟩
    rw [sortValues, map_cons, ih]
    rfl

theorem lookup_sortValues (entries : List (String × Json)) (key : String) :
    (sortValues entries).lookup key = (entries.lookup key).map sortKeys := by
  induction entries with
  | nil => rfl
  | cons entry entries ih =>
    rcases entry with ⟨name, value⟩
    rw [sortValues]
    by_cases same : key = name
    · rw [same, lookup_cons_self, lookup_cons_self]
      rfl
    · rw [lookup_cons_of_ne same, lookup_cons_of_ne same, ih]

theorem perm_sortedEntries (entries : List (String × Json)) :
    (sortedEntries entries).Perm (sortValues entries) :=
  perm_insertionSort _ _

theorem nodup_sortedEntries {entries : List (String × Json)}
    (distinct : (entries.map Prod.fst).Nodup) :
    ((sortedEntries entries).map Prod.fst).Nodup := by
  rw [((perm_sortedEntries entries).map Prod.fst).nodup_iff, keys_sortValues]
  exact distinct

theorem lookup_sortedEntries {entries : List (String × Json)}
    (distinct : (entries.map Prod.fst).Nodup) (key : String) :
    (sortedEntries entries).lookup key = (entries.lookup key).map sortKeys := by
  rw [← lookup_sortValues]
  have sorted := perm_sortedEntries entries
  have stillDistinct : ((sortValues entries).map Prod.fst).Nodup := by
    rw [keys_sortValues]
    exact distinct
  cases found : (sortValues entries).lookup key with
  | some value =>
    apply lookup_of_mem (nodup_sortedEntries distinct)
    exact sorted.mem_iff.mpr (mem_of_lookup_eq_some found)
  | none =>
    cases again : (sortedEntries entries).lookup key with
    | none => rfl
    | some value =>
      have member := sorted.mem_iff.mp (mem_of_lookup_eq_some again)
      rw [lookup_of_mem stillDistinct member] at found
      cases found

mutual

theorem short_sortKeys : ∀ json : Json,
    shortIntegers json = true → shortIntegers (sortKeys json) = true
  | .null, _ => rfl
  | .boolean _, _ => rfl
  | .integer _, short => short
  | .float _ _, _ => rfl
  | .text _, _ => rfl
  | .list items, short => shortItems_sortItems items short
  | .dict entries, short => by
      apply shortEntries_iff.mpr
      intro entry member
      exact shortEntries_iff.mp (shortEntries_sortValues entries short) entry
        ((perm_sortedEntries entries).mem_iff.mp member)

theorem shortItems_sortItems : ∀ items : List Json,
    shortItems items = true → shortItems (sortItems items) = true
  | [], _ => rfl
  | item :: items, short => by
      have ⟨first, rest⟩ := Bool.and_eq_true_iff.mp short
      exact Bool.and_eq_true_iff.mpr ⟨short_sortKeys item first, shortItems_sortItems items rest⟩

theorem shortEntries_sortValues : ∀ entries : List (String × Json),
    shortEntries entries = true → shortEntries (sortValues entries) = true
  | [], _ => rfl
  | (_, value) :: entries, short => by
      have ⟨first, rest⟩ := Bool.and_eq_true_iff.mp short
      exact Bool.and_eq_true_iff.mpr
        ⟨short_sortKeys value first, shortEntries_sortValues entries rest⟩

end

mutual

theorem genuine_sortKeys : ∀ json : Json, Genuine floatOf json → Genuine floatOf (sortKeys json)
  | .null, _ => trivial
  | .boolean _, _ => trivial
  | .integer _, _ => trivial
  | .float _ _, genuine => genuine
  | .text _, _ => trivial
  | .list items, genuine => genuineItems_sortItems items genuine
  | .dict entries, genuine => by
      constructor
      · exact nodup_sortedEntries genuine.1
      · apply genuineEntries_iff.mpr
        intro entry member
        exact genuineEntries_iff.mp (genuineEntries_sortValues entries genuine.2) entry
          ((perm_sortedEntries entries).mem_iff.mp member)

theorem genuineItems_sortItems : ∀ items : List Json,
    GenuineItems floatOf items → GenuineItems floatOf (sortItems items)
  | [], _ => trivial
  | item :: items, genuine =>
    ⟨genuine_sortKeys item genuine.1, genuineItems_sortItems items genuine.2⟩

theorem genuineEntries_sortValues : ∀ entries : List (String × Json),
    GenuineEntries floatOf entries → GenuineEntries floatOf (sortValues entries)
  | [], _ => trivial
  | (_, value) :: entries, genuine =>
    ⟨genuine_sortKeys value genuine.1, genuineEntries_sortValues entries genuine.2⟩

end

theorem Printable.sorted (printable : Printable floatOf json) : Printable floatOf (sortKeys json) :=
  ⟨short_sortKeys json printable.short, genuine_sortKeys json printable.genuine⟩

mutual

theorem depth_sortKeys : ∀ json : Json, depth (sortKeys json) ≤ depth json
  | .null => le_rfl
  | .boolean _ => le_rfl
  | .integer _ => le_rfl
  | .float _ _ => le_rfl
  | .text _ => le_rfl
  | .list items => Nat.succ_le_succ (itemsDepth_sortItems items)
  | .dict entries => by
      apply Nat.succ_le_succ
      apply entriesDepth_le_iff.mpr
      intro entry member
      exact entriesDepth_le_iff.mp (entriesDepth_sortValues entries) entry
        ((perm_sortedEntries entries).mem_iff.mp member)

theorem itemsDepth_sortItems : ∀ items : List Json, itemsDepth (sortItems items) ≤ itemsDepth items
  | [] => le_rfl
  | item :: items =>
    max_le_max (depth_sortKeys item) (itemsDepth_sortItems items)

theorem entriesDepth_sortValues : ∀ entries : List (String × Json),
    entriesDepth (sortValues entries) ≤ entriesDepth entries
  | [] => le_rfl
  | (_, value) :: entries =>
    max_le_max (depth_sortKeys value) (entriesDepth_sortValues entries)

end

theorem loads_printWith (spells : Spells spell)
    (printable : Printable floatOf json) (shallow : depth json ≤ limit) :
    loads floatOf limit (String.ofList (printWith spell json)) = .ok json := by
  have read := readValue_printWith spells json ((printWith spell json).length + 1) limit []
    printable (Nat.lt_succ_self _) shallow (fun _ => nofun)
  rw [append_nil] at read
  rw [loads, String.toList_ofList, read]
  rfl

/-- A printed value is what its text is read as. -/
theorem loads_dumps (printable : Printable floatOf json) (shallow : depth json ≤ limit) :
    loads floatOf limit (String.ofList (dumps json)) = .ok json := by
  rw [dumps_eq_printWith]
  exact loads_printWith spells_escape printable shallow

end RoundTrip

end McpAssistant.Foundations.JsonText
