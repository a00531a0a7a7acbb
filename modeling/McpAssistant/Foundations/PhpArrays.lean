import McpAssistant.Foundations.JsonText
import Mathlib.Data.String.Basic

/-!
# PHP arrays, their keys and their JSON texts

A PHP array is an ordered map.  A key that reads as an integer is one, numeric keys
compare as numbers, and an array whose keys count up from zero is a list.
-/

namespace McpAssistant.Foundations.PhpArrays

open JsonReading
open JsonText

inductive PhpKey where
  | index (value : Int)
  | name (text : String)
deriving DecidableEq

def longMin : Int :=
  -9223372036854775808

def longMax : Int :=
  9223372036854775807

def isLong (value : Int) : Bool :=
  longMin ≤ value && value ≤ longMax

def phpKey (text : String) : PhpKey :=
  match readInteger text.toList with
  | none => .name text
  | some value =>
    if isLong value ∧ dumpInteger value = text.toList then .index value
    else .name text

def PhpKey.text : PhpKey → String
  | .index value => String.ofList (dumpInteger value)
  | .name text => text

@[simp]
theorem text_name (text : String) : (PhpKey.name text).text = text := rfl

theorem text_phpKey (text : String) : (phpKey text).text = text := by
  unfold phpKey
  cases readInteger text.toList with
  | none => rfl
  | some value =>
    dsimp only
    split_ifs with printed
    · rw [PhpKey.text, printed.2, String.ofList_toList]
    · rfl

/-- A text that stands for a number.  `overflow` is the sign of an integer that is
too large. -/
structure Numeric where
  value : Rat
  isInteger : Bool
  overflow : Int
deriving DecidableEq

def isWhitespace (letter : Char) : Bool :=
  letter = ' ' || letter = '\t' || letter = '\n' || letter = '\r' ||
    letter = Char.ofNat 11 || letter = Char.ofNat 12

def digits (letters : List Char) : List Char × List Char :=
  letters.span Char.isDigit

def naturalOf (letters : List Char) : Nat :=
  letters.foldl (fun value letter => value * 10 + (letter.toNat - '0'.toNat)) 0

def exponentOf : List Char → Int × List Char
  | 'e' :: letters => readPower ('e' :: letters) letters
  | 'E' :: letters => readPower ('E' :: letters) letters
  | letters => (0, letters)
where
  readPower (whole letters : List Char) : Int × List Char :=
    let (negative, unsigned) :=
      match letters with
      | '-' :: rest => (true, rest)
      | '+' :: rest => (false, rest)
      | rest => (false, rest)
    match digits unsigned with
    | ([], _) => (0, whole)
    | (power, rest) =>
      (if negative then -(naturalOf power : Int) else naturalOf power, rest)

def scaled (value : Rat) (exponent : Int) : Rat :=
  if 0 ≤ exponent then value * (10 : Rat) ^ exponent.toNat
  else value / (10 : Rat) ^ (-exponent).toNat

/-- An integer of 64 bits is one; a larger one is a float that overflowed. -/
def integerNumeric (value : Int) : Numeric where
  value := value
  isInteger := isLong value
  overflow := if longMax < value then 1 else if value < longMin then -1 else 0

/-- The number after the sign, and what follows it. -/
def readUnsigned (negative : Bool) (letters : List Char) : Option (Numeric × List Char) :=
  let (whole, rest) := digits letters
  let signed (value : Rat) : Rat := if negative then -value else value
  match rest with
  | '.' :: behind =>
    let (fraction, rest) := digits behind
    if whole = [] ∧ fraction = [] then none
    else
      let (exponent, rest) := exponentOf rest
      let value := naturalOf (whole ++ fraction)
      some
        ({ value := signed (scaled value (exponent - fraction.length))
           isInteger := false
           overflow := 0 }, rest)
  | rest =>
    if whole = [] then none
    else
      match exponentOf rest with
      | (exponent, behind) =>
        if behind.length = rest.length then
          let value : Int := naturalOf whole
          some (integerNumeric (if negative then -value else value), rest)
        else
          some
            ({ value := signed (scaled (naturalOf whole) exponent)
               isInteger := false
               overflow := 0 }, behind)

def numericText (text : String) : Option Numeric :=
  let letters := text.toList.dropWhile isWhitespace
  let number :=
    match letters with
    | '-' :: letters => readUnsigned true letters
    | '+' :: letters => readUnsigned false letters
    | letters => readUnsigned false letters
  number.bind fun (numeric, rest) =>
    if rest.all isWhitespace then some numeric else none

section Comparison

/-- The nearest double of a number.  A number that no finite double is near goes to
`infinite` or its negative. -/
structure Doubles where
  nearest : Rat → Rat
  infinite : Rat

variable (doubles : Doubles)

def compareTexts (first second : String) : Ordering :=
  if first < second then .lt else if second < first then .gt else .eq

def compareRats (first second : Rat) : Ordering :=
  if first < second then .lt else if second < first then .gt else .eq

def Numeric.double (numeric : Numeric) : Rat :=
  doubles.nearest numeric.value

def Doubles.isInfinite (double : Rat) : Bool :=
  double = doubles.infinite || double = -doubles.infinite

def smartCompare (first second : String) : Ordering :=
  match numericText first, numericText second with
  | some left, some right =>
    let leftDouble := left.double doubles
    let rightDouble := right.double doubles
    if left.overflow ≠ 0 ∧ left.overflow = right.overflow ∧ leftDouble = rightDouble then
      compareTexts first second
    else if left.isInteger then
      if right.isInteger then compareRats left.value right.value
      else if right.overflow = 1 then .lt
      else if right.overflow = -1 then .gt
      else compareRats leftDouble rightDouble
    else if right.isInteger then
      if left.overflow = 1 then .gt
      else if left.overflow = -1 then .lt
      else compareRats leftDouble rightDouble
    else if leftDouble = rightDouble ∧ doubles.isInfinite leftDouble then
      compareTexts first second
    else compareRats leftDouble rightDouble
  | _, _ => compareTexts first second

def compareIndexToName (value : Int) (text : String) : Ordering :=
  match numericText text with
  | some numeric =>
    if numeric.isInteger then compareRats value numeric.value
    else compareRats (doubles.nearest value) (numeric.double doubles)
  | none => compareTexts (String.ofList (dumpInteger value)) text

def compareKeys : PhpKey → PhpKey → Ordering
  | .index first, .index second => compareRats first second
  | .name first, .name second => smartCompare doubles first second
  | .index value, .name text => compareIndexToName doubles value text
  | .name text, .index value => (compareIndexToName doubles value text).swap

def NotAfter (first second : PhpKey) : Prop :=
  compareKeys doubles first second ≠ .gt

instance (first second : PhpKey) : Decidable (NotAfter doubles first second) :=
  inferInstanceAs (Decidable (_ ≠ _))

/-- Keys that the comparison puts in an order.  As numbers and as texts, `9` is
before `10`, `10` before `1a` and `1a` before `9`: these it does not. -/
structure Consistent (keys : List PhpKey) : Prop where
  total : ∀ first ∈ keys, ∀ second ∈ keys,
    NotAfter doubles first second ∨ NotAfter doubles second first
  transitive : ∀ first ∈ keys, ∀ second ∈ keys, ∀ third ∈ keys,
    NotAfter doubles first second → NotAfter doubles second third → NotAfter doubles first third

end Comparison

inductive PhpValue where
  | null
  | boolean (value : Bool)
  | integer (value : Int)
  | text (value : String)
  | array (entries : List (PhpKey × PhpValue))
  | emptyObject

abbrev PhpArray := List (PhpKey × PhpValue)

/-- The keys count up from zero. -/
def isList (keys : List PhpKey) : Bool :=
  keys = (List.range keys.length).map fun position => .index position

def listOf (items : List PhpValue) : PhpValue :=
  .array ((List.range items.length).zipWith (fun position item => (.index position, item)) items)

mutual

def toJson : PhpValue → Json
  | .null => .null
  | .boolean value => .boolean value
  | .integer value => .integer value
  | .text value => .text value
  | .array entries =>
    if isList (entries.map Prod.fst) then .list (toItems entries)
    else .dict (toEntries entries)
  | .emptyObject => .dict []

def toItems : PhpArray → List Json
  | [] => []
  | (_, value) :: entries => toJson value :: toItems entries

def toEntries : PhpArray → List (String × Json)
  | [] => []
  | (key, value) :: entries => (key.text, toJson value) :: toEntries entries

end

def lineSeparator : Char :=
  Char.ofNat 0x2028

def paragraphSeparator : Char :=
  Char.ofNat 0x2029

/-- The two letters that are escaped even where other letters of Unicode are not. -/
def spellLetter (letter : Char) : List Char :=
  if letter = lineSeparator then ['\\', 'u', '2', '0', '2', '8']
  else if letter = paragraphSeparator then ['\\', 'u', '2', '0', '2', '9']
  else [letter]

/-- A letter with slashes and Unicode unescaped. -/
def encodeLetter (letter : Char) : List Char :=
  if letter = lineSeparator ∨ letter = paragraphSeparator then spellLetter letter
  else escape letter

def encodeText (text : String) : List Char :=
  '"' :: text.toList.flatMap encodeLetter ++ ['"']

mutual

/-- `json_encode` with slashes and Unicode unescaped. -/
def jsonEncode : PhpValue → List Char
  | .null => ['n', 'u', 'l', 'l']
  | .boolean true => ['t', 'r', 'u', 'e']
  | .boolean false => ['f', 'a', 'l', 's', 'e']
  | .integer value => dumpInteger value
  | .text value => encodeText value
  | .emptyObject => ['\x7b', '\x7d']
  | .array [] => ['[', ']']
  | .array ((key, value) :: entries) =>
    if isList (key :: entries.map Prod.fst) then
      '[' :: (jsonEncode value ++ encodeItems entries)
    else
      '\x7b' :: (encodeText key.text ++ ':' :: (jsonEncode value ++ encodeEntries entries))

def encodeItems : PhpArray → List Char
  | [] => [']']
  | (_, value) :: entries => ',' :: (jsonEncode value ++ encodeItems entries)

def encodeEntries : PhpArray → List Char
  | [] => ['\x7d']
  | (key, value) :: entries =>
    ',' :: (encodeText key.text ++ ':' :: (jsonEncode value ++ encodeEntries entries))

end

end McpAssistant.Foundations.PhpArrays
