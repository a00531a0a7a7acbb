import McpAssistant.Foundations.IsoDate

/-!
# Decimals, dates and instants by their texts

A decimal, a date and an instant stand for the text they print as.  A text is read in
any of the forms it may be written in, and what it denotes prints as one text.
-/

namespace McpAssistant.Foundations.PrintedValues

open IsoDate

/-! ## Decimals -/

/-- The first of each run of ten decimal digits in Unicode. -/
def digitRuns : List Nat := [
  0x30, 0x660, 0x6F0, 0x7C0, 0x966, 0x9E6, 0xA66, 0xAE6, 0xB66, 0xBE6, 0xC66,
  0xCE6, 0xD66, 0xDE6, 0xE50, 0xED0, 0xF20, 0x1040, 0x1090, 0x17E0, 0x1810,
  0x1946, 0x19D0, 0x1A80, 0x1A90, 0x1B50, 0x1BB0, 0x1C40, 0x1C50, 0xA620,
  0xA8D0, 0xA900, 0xA9D0, 0xA9F0, 0xAA50, 0xABF0, 0xFF10, 0x104A0, 0x10D30,
  0x11066, 0x110F0, 0x11136, 0x111D0, 0x112F0, 0x11450, 0x114D0, 0x11650,
  0x116C0, 0x11730, 0x118E0, 0x11950, 0x11C50, 0x11D50, 0x11DA0, 0x11F50,
  0x16A60, 0x16AC0, 0x16B50, 0x1D7CE, 0x1D7D8, 0x1D7E2, 0x1D7EC, 0x1D7F6,
  0x1E140, 0x1E2F0, 0x1E4F0, 0x1E950, 0x1FBF0
]

def digitValue (letter : Char) : Option Nat :=
  digitRuns.findSome? fun first =>
    if first ≤ letter.toNat ∧ letter.toNat < first + 10 then
      some (letter.toNat - first)
    else none

def isDecimalDigit (letter : Char) : Bool :=
  (digitValue letter).isSome

def isSpace (letter : Char) : Bool :=
  let code := letter.toNat
  9 ≤ code && code ≤ 13 || 28 ≤ code && code ≤ 32 || 0x2000 ≤ code && code ≤ 0x200A ||
    [0x85, 0xA0, 0x1680, 0x2028, 0x2029, 0x202F, 0x205F, 0x3000].contains code

def strip (letters : List Char) : List Char :=
  ((letters.dropWhile isSpace).reverse.dropWhile isSpace).reverse

inductive DecimalNumber where
  | finite (negative : Bool) (coefficient : Nat) (exponent : Int)
  | infinity (negative : Bool)
  | nan (negative signaling : Bool) (payload : Nat)
deriving DecidableEq

def decimalDigits (letters : List Char) : Option Nat :=
  letters.foldlM (fun value letter => (digitValue letter).map (value * 10 + ·)) 0

def readExponent : List Char → Option Int
  | [] => some 0
  | 'e' :: '-' :: digits =>
    if digits.isEmpty then none
    else (decimalDigits digits).map fun value => -Int.ofNat value
  | 'e' :: '+' :: digits | 'e' :: digits =>
    if digits.isEmpty then none else (decimalDigits digits).map Int.ofNat
  | _ => none

/-- Exponents out of these bounds are refused. -/
def inBounds (coefficient : Nat) (exponent : Int) : Bool :=
  -1999999999999999997 ≤ exponent &&
    exponent + ((Nat.toDigits 10 coefficient).length - 1 : Int) ≤ 999999999999999999

def readFinite (negative : Bool) (letters : List Char) : Option DecimalNumber := do
  let whole := letters.takeWhile isDecimalDigit
  let rest := letters.dropWhile isDecimalDigit
  let (fraction, rest) := match rest with
    | '.' :: rest =>
      (rest.takeWhile isDecimalDigit, rest.dropWhile isDecimalDigit)
    | _ => ([], rest)
  if (whole ++ fraction).isEmpty then none
  else
    let coefficient ← decimalDigits (whole ++ fraction)
    let exponent ← readExponent rest
    let exponent := exponent - fraction.length
    if inBounds coefficient exponent then
      some (.finite negative coefficient exponent)
    else none

def readUnsigned (negative : Bool) (letters : List Char) : Option DecimalNumber :=
  match letters.map Char.toLower with
  | ['i', 'n', 'f'] | ['i', 'n', 'f', 'i', 'n', 'i', 't', 'y'] =>
    some (.infinity negative)
  | 'n' :: 'a' :: 'n' :: digits =>
    (decimalDigits digits).map (.nan negative false)
  | 's' :: 'n' :: 'a' :: 'n' :: digits =>
    (decimalDigits digits).map (.nan negative true)
  | letters => readFinite negative letters

def readDecimal (text : String) : Option DecimalNumber :=
  match (strip text.toList).filter (· ≠ '_') with
  | '-' :: letters => readUnsigned true letters
  | '+' :: letters => readUnsigned false letters
  | letters => readUnsigned false letters

def zeros (count : Int) : List Char :=
  List.replicate count.toNat '0'

/-- The digits with the point where the exponent puts it, or after the first
digit when that is too far off. -/
def printFinite (coefficient : Nat) (exponent : Int) : List Char :=
  let digits := Nat.toDigits 10 coefficient
  let left := exponent + digits.length
  let point := if exponent ≤ 0 ∧ -6 < left then left else 1
  let number :=
    if point ≤ 0 then ['0', '.'] ++ zeros (-point) ++ digits
    else if (digits.length : Int) ≤ point then
      digits ++ zeros (point - digits.length)
    else digits.take point.toNat ++ ['.'] ++ digits.drop point.toNat
  if left = point then number
  else
    number ++ (if left < point then ['E', '-'] else ['E', '+']) ++
      Nat.toDigits 10 (left - point).natAbs

def printDecimal : DecimalNumber → String
  | .finite negative coefficient exponent =>
    String.ofList ((if negative then ['-'] else []) ++ printFinite coefficient exponent)
  | .infinity negative => if negative then "-Infinity" else "Infinity"
  | .nan negative signaling payload =>
    String.ofList ((if negative then ['-'] else []) ++
      (if signaling then ['s'] else []) ++ ['N', 'a', 'N'] ++
      if payload = 0 then [] else Nat.toDigits 10 payload)

def decimalText (text : String) : Option String :=
  (readDecimal text).map printDecimal

def isNan (printed : String) : Bool :=
  match readDecimal printed with
  | some (.nan ..) => true
  | _ => false

def signed (negative : Bool) (coefficient : Nat) : Int :=
  if negative then -coefficient else coefficient

/-- Numbers of one value are equal however they are written. -/
def DecimalNumber.equals : DecimalNumber → DecimalNumber → Bool
  | .finite negative coefficient exponent, .finite negative' coefficient' exponent' =>
    let least := min exponent exponent'
    signed negative coefficient * 10 ^ (exponent - least).toNat =
      signed negative' coefficient' * 10 ^ (exponent' - least).toNat
  | .infinity negative, .infinity negative' => negative = negative'
  | _, _ => false

/-- Whether the decimals that two texts stand for are equal. -/
def equalDecimals (first second : String) : Bool :=
  match readDecimal first, readDecimal second with
  | some first, some second => first.equals second
  | _, _ => false

/-- A decimal is equal to itself exactly when it is a number. -/
theorem equalDecimals_self {printed : String} (canonical : decimalText printed = some printed) :
    equalDecimals printed printed = !isNan printed := by
  cases read : readDecimal printed with
  | none =>
    rw [decimalText, read] at canonical
    cases canonical
  | some number => cases number <;> simp [equalDecimals, isNan, read, DecimalNumber.equals]

def dateText (text : String) : Option String :=
  (fromIsoFormat text).map isoFormat

/-- A time of day in microseconds. -/
def clockMicros (hour minute second micros : Nat) : Option Nat :=
  if hour < 24 ∧ minute < 60 ∧ second < 60 then
    some (((hour * 60 + minute) * 60 + second) * 1000000 + micros)
  else none

/-- The microseconds of a fraction of a second; further digits are cut. -/
def readMicros (letters : List Char) : Option Nat :=
  if letters.isEmpty || !(letters.all Char.isDigit) then none
  else readDigits ((letters ++ ['0', '0', '0', '0', '0']).take 6)

def readSeconds (hour minute : Nat) (letters : List Char) : Option Nat :=
  match letters with
  | [] => clockMicros hour minute 0 0
  | e :: f :: rest => do
      let second ← readDigits [e, f]
      match rest with
      | [] => clockMicros hour minute second 0
      | '.' :: fraction | ',' :: fraction =>
        clockMicros hour minute second (← readMicros fraction)
      | _ => none
  | _ => none

def readClock (letters : List Char) : Option Nat :=
  match letters with
  | [a, b] => do clockMicros (← readDigits [a, b]) 0 0 0
  | [a, b, ':', c, d] => do
      clockMicros (← readDigits [a, b]) (← readDigits [c, d]) 0 0
  | a :: b :: ':' :: c :: d :: ':' :: rest =>
    if rest.isEmpty then none
    else do readSeconds (← readDigits [a, b]) (← readDigits [c, d]) rest
  | a :: b :: c :: d :: rest => do
      readSeconds (← readDigits [a, b]) (← readDigits [c, d]) rest
  | _ => none

def isOffsetMark (letter : Char) : Bool :=
  letter = '+' || letter = '-' || letter = 'Z'

/-- The offset from universal time in microseconds, where one is given. -/
def readOffset : List Char → Option (Option Int)
  | [] => some none
  | ['Z'] => some (some 0)
  | '+' :: clock => (readClock clock).map fun micros => some (Int.ofNat micros)
  | '-' :: clock => (readClock clock).map fun micros => some (-Int.ofNat micros)
  | _ => none

def printClock (micros : Nat) : List Char :=
  let seconds := micros / 1000000
  padded 2 (seconds / 3600) ++ [':'] ++ padded 2 (seconds / 60 % 60) ++ [':'] ++
    padded 2 (seconds % 60) ++
    if micros % 1000000 = 0 then [] else '.' :: padded 6 (micros % 1000000)

def printOffset : Option Int → List Char
  | none => []
  | some offset =>
    let minutes := offset.natAbs / 60000000
    (if offset < 0 then '-' else '+') ::
      if offset.natAbs % 60000000 = 0 then
        padded 2 (minutes / 60) ++ [':'] ++ padded 2 (minutes % 60)
      else printClock offset.natAbs

def printInstant (day : Int) (micros : Nat) (offset : Option Int) : String :=
  isoFormat day ++ String.ofList (' ' :: printClock micros ++ printOffset offset)

/-- An instant whose date takes the first letters of the text. -/
def readInstantAt (letters : List Char) (width : Nat) : Option String := do
  let day ← fromIsoFormat (String.ofList (letters.take width))
  match letters.drop width with
  | [] => some (printInstant day 0 none)
  | _ :: clock =>
    let micros ← readClock (clock.takeWhile fun letter => !isOffsetMark letter)
    let offset ← readOffset (clock.dropWhile fun letter => !isOffsetMark letter)
    some (printInstant day micros offset)

/-- The text of the instant that a text denotes; any letter may stand between
its date and its time. -/
def datetimeText (text : String) : Option String :=
  [10, 8, 7].findSome? (readInstantAt text.toList)

end McpAssistant.Foundations.PrintedValues
