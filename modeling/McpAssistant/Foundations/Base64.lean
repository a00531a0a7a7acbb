import Mathlib.Data.List.DropRight

/-!
# Base64 text

Bytes are written as letters of six bits, three bytes as four letters, in the
alphabet that is safe in an address.  The reader is lenient: it passes over
every letter that is no digit, stops at the padding that completes a group, and
drops the bits that complete no byte.  What was written is read back, but many
texts read as the same bytes.
-/

namespace McpAssistant.Foundations.Base64

open List

def alphabet : List Char :=
  "ABCDEFGHIJKLMNOPQRSTUVWXYZabcdefghijklmnopqrstuvwxyz0123456789-_".toList

def digit (value : Nat) : Char :=
  (alphabet[value]?).getD 'A'

/-- The digits of both alphabets are read. -/
def readDigit (letter : Char) : Option Nat :=
  if 'A' ≤ letter ∧ letter ≤ 'Z' then some (letter.toNat - 65)
  else if 'a' ≤ letter ∧ letter ≤ 'z' then some (letter.toNat - 71)
  else if '0' ≤ letter ∧ letter ≤ '9' then some (letter.toNat + 4)
  else if letter = '+' ∨ letter = '-' then some 62
  else if letter = '/' ∨ letter = '_' then some 63
  else none

def isAscii (letter : Char) : Bool :=
  letter.toNat < 128

variable {value : Nat}

theorem digit_of_le (large : 64 ≤ value) : digit value = 'A' := by
  unfold digit
  rw [List.getElem?_eq_none large]
  rfl

theorem readDigit_digit (small : value < 64) : readDigit (digit value) = some value := by
  have all : ∀ value < 64, readDigit (digit value) = some value := by decide +kernel
  exact all value small

theorem digit_ne_pad (value : Nat) : digit value ≠ '=' := by
  intro pad
  rcases Nat.lt_or_ge value 64 with small | large
  · have read := readDigit_digit small
    rw [pad] at read
    cases read
  · rw [digit_of_le large] at pad
    exact absurd pad (by decide)

theorem digit_ne_dot (value : Nat) : digit value ≠ '.' := by
  intro dot
  rcases Nat.lt_or_ge value 64 with small | large
  · have read := readDigit_digit small
    rw [dot] at read
    cases read
  · rw [digit_of_le large] at dot
    exact absurd dot (by decide)

theorem isAscii_digit (value : Nat) : isAscii (digit value) = true := by
  rcases Nat.lt_or_ge value 64 with small | large
  · have all : ∀ value < 64, isAscii (digit value) = true := by decide +kernel
    exact all value small
  · rw [digit_of_le large]
    rfl

/-- The digits of bytes, without padding. -/
def digits : List UInt8 → List Char
  | [] => []
  | [a] => [digit (a.toNat / 4), digit (a.toNat % 4 * 16)]
  | [a, b] =>
    [digit (a.toNat / 4), digit (a.toNat % 4 * 16 + b.toNat / 16), digit (b.toNat % 16 * 4)]
  | a :: b :: c :: rest =>
    digit (a.toNat / 4) :: digit (a.toNat % 4 * 16 + b.toNat / 16) ::
      digit (b.toNat % 16 * 4 + c.toNat / 64) :: digit (c.toNat % 64) :: digits rest

def urlsafeB64encode (bytes : List UInt8) : List Char :=
  digits bytes ++ List.replicate ((3 - bytes.length % 3) % 3) '='

/-- The text of bytes, with its padding stripped. -/
def b64urlEncode (bytes : List UInt8) : String :=
  String.ofList ((urlsafeB64encode bytes).rdropWhile (· = '='))

/-- What is read of a group of four digits, with the bits that are in no byte
yet, and whether padding came after the second. -/
inductive Group where
  | empty
  | one (bits : Nat)
  | two (bits : Nat) (padded : Bool)
  | three (bits : Nat)

def readFrom : Group → List Char → Option (List UInt8)
  | .empty, [] => some []
  | _, [] => none
  | group, letter :: letters =>
    if letter = '=' then
      match group with
      | .empty => readFrom .empty letters
      | .one bits => readFrom (.one bits) letters
      | .two bits false => readFrom (.two bits true) letters
      | .two _ true => some []
      | .three _ => some []
    else
      match readDigit letter with
      | none => readFrom group letters
      | some value =>
        match group with
        | .empty => readFrom (.one value) letters
        | .one bits =>
          (readFrom (.two (value % 16) false) letters).map
            (UInt8.ofNat (bits * 4 + value / 16) :: ·)
        | .two bits _ =>
          (readFrom (.three (value % 4)) letters).map (UInt8.ofNat (bits * 16 + value / 4) :: ·)
        | .three bits =>
          (readFrom .empty letters).map (UInt8.ofNat (bits * 64 + value) :: ·)

def urlsafeB64decode (letters : List Char) : Option (List UInt8) :=
  if letters.all isAscii then readFrom .empty letters else none

/-- The bytes of a text whose padding was stripped. -/
def b64urlDecode (text : String) : Option (List UInt8) :=
  urlsafeB64decode (text.toList ++ List.replicate ((4 - text.length % 4) % 4) '=')

theorem readFrom_digit (group : Group) (letters : List Char) (small : value < 64) :
    readFrom group (digit value :: letters) =
      match group with
      | .empty => readFrom (.one value) letters
      | .one bits =>
        (readFrom (.two (value % 16) false) letters).map (UInt8.ofNat (bits * 4 + value / 16) :: ·)
      | .two bits _ =>
        (readFrom (.three (value % 4)) letters).map (UInt8.ofNat (bits * 16 + value / 4) :: ·)
      | .three bits =>
        (readFrom .empty letters).map (UInt8.ofNat (bits * 64 + value) :: ·) := by
  rw [readFrom.eq_def]
  cases group <;> simp only [if_neg (digit_ne_pad value), readDigit_digit small]

theorem ofNat_eq_of_toNat {byte : UInt8} (same : value = byte.toNat) :
    UInt8.ofNat value = byte := by
  rw [same]
  exact UInt8.ofNat_toNat

/-- A byte is split over two digits and put together again, wherever it is split. -/
theorem readFrom_first (a : UInt8) (letters : List Char)
    (high : value / 16 = a.toNat % 4) (small : value < 64) :
    readFrom .empty (digit (a.toNat / 4) :: digit value :: letters) =
      (readFrom (.two (value % 16) false) letters).map (a :: ·) := by
  have bound := a.toNat_lt
  rw [readFrom_digit _ _ (by omega)]
  show readFrom (.one (a.toNat / 4)) _ = _
  rw [readFrom_digit _ _ small]
  show Option.map _ _ = _
  rw [show UInt8.ofNat (a.toNat / 4 * 4 + value / 16) = a from
    ofNat_eq_of_toNat (by omega)]

theorem readFrom_second (b : UInt8) (padded : Bool) (letters : List Char)
    (high : value / 4 = b.toNat % 16) (small : value < 64) :
    readFrom (.two (b.toNat / 16) padded) (digit value :: letters) =
      (readFrom (.three (value % 4)) letters).map (b :: ·) := by
  rw [readFrom_digit _ _ small]
  show Option.map _ _ = _
  rw [show UInt8.ofNat (b.toNat / 16 * 16 + value / 4) = b from
    ofNat_eq_of_toNat (by omega)]

theorem readFrom_third (c : UInt8) (letters : List Char) :
    readFrom (.three (c.toNat / 64)) (digit (c.toNat % 64) :: letters) =
      (readFrom .empty letters).map (c :: ·) := by
  rw [readFrom_digit _ _ (by omega)]
  show Option.map _ _ = _
  rw [show UInt8.ofNat (c.toNat / 64 * 64 + c.toNat % 64) = c from
    ofNat_eq_of_toNat (by omega)]

theorem readFrom_digits (bytes : List UInt8) : readFrom .empty
      (digits bytes ++ List.replicate ((4 - (digits bytes).length % 4) % 4) '=') = some bytes := by
  induction bytes using digits.induct with
  | case1 => rfl
  | case2 a =>
    have bound := a.toNat_lt
    show readFrom .empty (digit _ :: digit _ :: ['=', '=']) = _
    rw [readFrom_first a _ (by omega) (by omega)]
    rfl
  | case3 a b =>
    have bound := a.toNat_lt
    have bound' := b.toNat_lt
    show readFrom .empty (digit _ :: digit _ :: digit _ :: ['=']) = _
    rw [readFrom_first a _ (by omega) (by omega),
      show (a.toNat % 4 * 16 + b.toNat / 16) % 16 = b.toNat / 16 by omega,
      readFrom_second b _ _ (by omega) (by omega)]
    rfl
  | case4 a b c rest ih =>
    have bound := a.toNat_lt
    have bound' := b.toNat_lt
    have bound'' := c.toNat_lt
    have length : (digits (a :: b :: c :: rest)).length % 4 = (digits rest).length % 4 := by
      show ((digits rest).length + 1 + 1 + 1 + 1) % 4 = _
      omega
    rw [length]
    show readFrom .empty (digit _ :: digit _ :: digit _ :: digit _ :: (digits rest ++ _)) = _
    rw [readFrom_first a _ (by omega) (by omega),
      show (a.toNat % 4 * 16 + b.toNat / 16) % 16 = b.toNat / 16 by omega,
      readFrom_second b _ _ (by omega) (by omega),
      show (b.toNat % 16 * 4 + c.toNat / 64) % 4 = c.toNat / 64 by omega,
      readFrom_third, ih]
    rfl

theorem forall_digits {property : Char → Prop} (holds : ∀ value, property (digit value))
    (bytes : List UInt8) : ∀ letter ∈ digits bytes, property letter := by
  induction bytes using digits.induct with
  | case1 => nofun
  | case2 a =>
    intro letter member
    rcases List.mem_pair.mp member with rfl | rfl <;> exact holds _
  | case3 a b =>
    intro letter member
    simp only [digits, mem_cons, not_mem_nil, or_false] at member
    rcases member with rfl | rfl | rfl <;> exact holds _
  | case4 a b c rest ih =>
    intro letter member
    simp only [digits, mem_cons] at member
    rcases member with rfl | rfl | rfl | rfl | member
    · exact holds _
    · exact holds _
    · exact holds _
    · exact holds _
    · exact ih letter member

/-- Stripping the padding leaves the digits. -/
theorem toList_b64urlEncode (bytes : List UInt8) : (b64urlEncode bytes).toList = digits bytes := by
  unfold b64urlEncode urlsafeB64encode
  rw [String.toList_ofList]
  induction (3 - bytes.length % 3) % 3 with
  | zero =>
    rw [replicate_zero, append_nil, rdropWhile_eq_self_iff]
    intro nonempty
    have apart := @forall_digits (· ≠ '=') digit_ne_pad bytes _ (getLast_mem nonempty)
    simpa using apart
  | succ count ih =>
    rw [replicate_succ', ← append_assoc, rdropWhile_concat_pos]
    · exact ih
    · rfl

theorem isAscii_b64urlEncode (bytes : List UInt8) :
    (b64urlEncode bytes).toList.all isAscii = true := by
  rw [toList_b64urlEncode, all_eq_true]
  exact forall_digits isAscii_digit bytes

theorem b64urlDecode_b64urlEncode (bytes : List UInt8) :
    b64urlDecode (b64urlEncode bytes) = some bytes := by
  have padding : (List.replicate ((4 - (digits bytes).length % 4) % 4) '=').all isAscii =
      true := by
    rw [all_eq_true]
    intro letter member
    rw [eq_of_mem_replicate member]
    rfl
  have ascii := isAscii_b64urlEncode bytes
  rw [toList_b64urlEncode] at ascii
  unfold b64urlDecode urlsafeB64decode
  rw [← String.length_toList, toList_b64urlEncode, all_append, ascii, padding]
  exact readFrom_digits bytes

/-- A letter that is neither a digit nor padding. -/
def isSkipped (letter : Char) : Bool :=
  isAscii letter && letter != '=' && (readDigit letter).isNone

theorem readFrom_skipped {skipped : List Char} (letters : List Char)
    (plain : skipped.all isSkipped = true) (group : Group) :
    readFrom group (skipped ++ letters) = readFrom group letters := by
  induction skipped with
  | nil => rfl
  | cons letter skipped ih =>
    simp only [all_cons, Bool.and_eq_true] at plain
    rcases plain with ⟨isPlain, plain⟩
    simp only [isSkipped, Bool.and_eq_true, bne_iff_ne, Option.isNone_iff_eq_none] at isPlain
    show readFrom group (letter :: (skipped ++ letters)) = _
    rw [readFrom.eq_def]
    cases group <;> simp only [if_neg isPlain.1.2, isPlain.2, ih plain]

/-- Whole groups of other letters are passed over. -/
theorem b64urlDecode_skipped {skipped : String} (text : String)
    (plain : skipped.toList.all isSkipped = true) (whole : skipped.length % 4 = 0) :
    b64urlDecode (skipped ++ text) = b64urlDecode text := by
  have length : (skipped ++ text).length % 4 = text.length % 4 := by
    rw [String.length_append, Nat.add_mod, whole, Nat.zero_add, Nat.mod_mod]
  have ascii : skipped.toList.all isAscii = true := by
    rw [all_eq_true] at plain ⊢
    intro letter member
    have isPlain := plain letter member
    simp only [isSkipped, Bool.and_eq_true] at isPlain
    exact isPlain.1.1
  unfold b64urlDecode urlsafeB64decode
  rw [length, String.toList_append, append_assoc, all_append, ascii,
    Bool.true_and, readFrom_skipped _ plain]

/-- Other letters are passed over, and bits that complete no byte are dropped. -/
example : b64urlDecode "QU!!JD" = b64urlDecode "QUJD" ∧
    b64urlDecode "QR" = b64urlDecode "QQ" := by decide +kernel

end McpAssistant.Foundations.Base64
