import McpAssistant.Foundations.Base64
import McpAssistant.Foundations.PythonExceptions

/-!
# Signed texts

A text that carries bytes and their signature, both in base64 around a dot.  It
opens to the bytes it was made of; what opens to signed bytes was made of them,
up to the spelling of the bytes.
-/

namespace McpAssistant.Foundations.SignedText

open Base64 PythonExceptions

def encodeUtf8 (text : String) : List UInt8 :=
  text.toUTF8.data.toList

def decodeUtf8 (bytes : List UInt8) : Option String :=
  String.fromUTF8? ⟨bytes.toArray⟩

theorem decodeUtf8_encodeUtf8 (text : String) : decodeUtf8 (encodeUtf8 text) = some text := by
  have valid := text.isValidUTF8
  unfold decodeUtf8 encodeUtf8 String.fromUTF8?
  rw [Array.toArray_toList]
  exact dif_pos valid

def splitLast : List Char → Option (List Char × List Char)
  | [] => none
  | letter :: letters =>
    match splitLast letters with
    | some (before, behind) => some (letter :: before, behind)
    | none => if letter = '.' then some ([], letters) else none

/-- The comparison takes ASCII texts only. -/
def compareDigest (first second : String) : Raising Bool :=
  if first.toList.all isAscii && second.toList.all isAscii then .ok (first = second)
  else .error .typeError

section Signing

-- The digest of bytes under the key.
variable (digest : List UInt8 → List UInt8)

def sign (payload : List UInt8) : String :=
  b64urlEncode (digest payload)

def signedText (payload : List UInt8) : String :=
  b64urlEncode payload ++ "." ++ sign digest payload

def openText (token : String) : Raising (Option (List UInt8)) :=
  match splitLast token.toList with
  | none => .ok none
  | some (before, behind) =>
    match b64urlDecode (String.ofList before) with
    | none => .ok none
    | some payload => do
        if ← compareDigest (sign digest payload) (String.ofList behind) then
          return some payload
        else return none

/-- A text that spells the bytes it opens to as they are written. -/
def Spelled (token : String) : Prop :=
  ∀ before behind payload, splitLast token.toList = some (before, behind) →
    b64urlDecode (String.ofList before) = some payload → b64urlEncode payload = String.ofList before

end Signing

section Opening

variable {digest : List UInt8 → List UInt8} {letters : List Char}

theorem splitLast_eq_none : splitLast letters = none ↔ '.' ∉ letters := by
  induction letters with
  | nil => simp [splitLast]
  | cons letter letters ih =>
    rw [List.mem_cons, not_or, ← ih, splitLast]
    cases splitLast letters with
    | some split => simp
    | none =>
      by_cases dot : letter = '.'
      · simp [dot]
      · simp [dot, Ne.symm dot]

variable {before behind : List Char}

theorem splitLast_append (clear : '.' ∉ behind) :
    splitLast (before ++ '.' :: behind) = some (before, behind) := by
  induction before with
  | nil =>
    show splitLast ('.' :: behind) = _
    rw [splitLast, splitLast_eq_none.mpr clear]
    rfl
  | cons letter before ih =>
    show splitLast (letter :: (before ++ '.' :: behind)) = _
    rw [splitLast, ih]

theorem eq_append_of_splitLast (split : splitLast letters = some (before, behind)) :
    letters = before ++ '.' :: behind := by
  induction letters generalizing before with
  | nil => cases split
  | cons letter letters ih =>
    rw [splitLast] at split
    cases rest : splitLast letters with
    | some found =>
      rw [rest] at split
      cases split
      rw [ih rest]
      rfl
    | none =>
      rw [rest] at split
      dsimp only at split
      split at split
      · rename_i dot
        cases split
        rw [dot]
        rfl
      · cases split

theorem splitLast_append_left (more : List Char)
    (split : splitLast letters = some (before, behind)) :
    splitLast (more ++ letters) = some (more ++ before, behind) := by
  induction more with
  | nil => exact split
  | cons letter more ih =>
    show splitLast (letter :: (more ++ letters)) = _
    rw [splitLast, ih]
    rfl

theorem compareDigest_eq_ok {first second : String} {same : Bool}
    (compared : compareDigest first second = .ok same) : same = decide (first = second) := by
  unfold compareDigest at compared
  split at compared
  · exact (Except.ok.inj compared).symm
  · cases compared

theorem dot_not_mem_b64urlEncode (bytes : List UInt8) : '.' ∉ (b64urlEncode bytes).toList := by
  rw [toList_b64urlEncode]
  intro member
  exact @forall_digits (· ≠ '.') digit_ne_dot bytes _ member rfl

theorem splitLast_signedText (payload : List UInt8) : splitLast (signedText digest payload).toList =
      some ((b64urlEncode payload).toList, (sign digest payload).toList) := by
  rw [signedText, String.toList_append, String.toList_append, List.append_assoc]
  exact splitLast_append (dot_not_mem_b64urlEncode _)

theorem compareDigest_sign (payload : List UInt8) :
    compareDigest (sign digest payload) (sign digest payload) = .ok true := by
  have ascii := isAscii_b64urlEncode (digest payload)
  unfold compareDigest sign
  rw [ascii]
  simp

theorem openText_signedText (payload : List UInt8) :
    openText digest (signedText digest payload) = .ok (some payload) := by
  have split := @splitLast_signedText digest payload
  unfold openText
  simp only [split, String.ofList_toList, b64urlDecode_b64urlEncode, compareDigest_sign]
  rfl

variable {payload : List UInt8}

theorem exists_of_openText {token : String} (opened : openText digest token = .ok (some payload)) :
    ∃ before : String, token = before ++ "." ++ sign digest payload ∧
      b64urlDecode before = some payload ∧
      splitLast token.toList = some (before.toList, (sign digest payload).toList) := by
  unfold openText at opened
  cases split : splitLast token.toList with
  | none =>
    rw [split] at opened
    cases opened
  | some parts =>
    rcases parts with ⟨before, behind⟩
    cases decoded : b64urlDecode (String.ofList before) with
    | none =>
      simp only [split, decoded] at opened
      cases opened
    | some bytes =>
      simp only [split, decoded] at opened
      cases compared : compareDigest (sign digest bytes) (String.ofList behind) with
      | error raised =>
        rw [compared] at opened
        cases opened
      | ok same =>
        have equal := compareDigest_eq_ok compared
        rw [compared] at opened
        cases same with
        | false => cases opened
        | true =>
          cases opened
          have signature := of_decide_eq_true equal.symm
          refine ⟨String.ofList before, ?_, decoded, ?_⟩
          · rw [signature, ← String.toList_inj, eq_append_of_splitLast split]
            simp
          · rw [signature, String.toList_ofList, String.toList_ofList]

theorem Spelled.eq_signedText {token : String}
    (spelled : Spelled token) (opened : openText digest token = .ok (some payload)) :
    token = signedText digest payload := by
  rcases exists_of_openText opened with ⟨before, isToken, decoded, split⟩
  rw [isToken, signedText, spelled _ _ payload split, String.ofList_toList]
  rw [String.ofList_toList]
  exact decoded

theorem spelled_signedText (payload : List UInt8) : Spelled (signedText digest payload) := by
  intro before behind bytes split decoded
  rw [splitLast_signedText] at split
  cases split
  rw [String.ofList_toList, b64urlDecode_b64urlEncode] at decoded
  cases decoded
  rw [String.ofList_toList]

/-- Letters that are passed over may stand in front. -/
theorem openText_skipped {skipped : String} (payload : List UInt8)
    (plain : skipped.toList.all isSkipped = true) (whole : skipped.length % 4 = 0) :
    openText digest (skipped ++ signedText digest payload) = .ok (some payload) := by
  have split := splitLast_append_left skipped.toList (@splitLast_signedText digest payload)
  rw [← String.toList_append] at split
  have decoded := b64urlDecode_skipped (b64urlEncode payload) plain whole
  rw [b64urlDecode_b64urlEncode] at decoded
  have spelled : String.ofList (skipped.toList ++ (b64urlEncode payload).toList) =
      skipped ++ b64urlEncode payload := by
    rw [← String.toList_append, String.ofList_toList]
  unfold openText
  simp only [split, spelled, decoded, String.ofList_toList, compareDigest_sign]
  rfl

end Opening

end McpAssistant.Foundations.SignedText
