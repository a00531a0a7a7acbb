import McpAssistant.Foundations.JsonText

/-!
# Flat dictionaries as ASCII text

A dictionary of plain values is printed without spaces and in ASCII: a letter
outside it is printed as the escape of its code, or as those of its surrogate
pair.  The text determines the dictionary.
-/

namespace McpAssistant.Foundations.FlatJson

open JsonText List

/-- A JSON value that holds no others. -/
inductive Scalar where
  | null
  | boolean (value : Bool)
  | integer (value : Int)
  | text (value : String)
deriving DecidableEq

/-- The escape of a code of sixteen bits. -/
def escapeUnit (code : Nat) : List Char :=
  ['\\', 'u', Nat.digitChar (code / 4096 % 16), Nat.digitChar (code / 256 % 16),
    Nat.digitChar (code / 16 % 16), Nat.digitChar (code % 16)]

/-- The letters that ASCII text shows as they are. -/
def isShown (letter : Char) : Bool :=
  32 ≤ letter.toNat && letter.toNat < 127

def escapeAscii (letter : Char) : List Char :=
  match shortEscapes.find? fun entry => entry.1 = letter with
  | some (_, short) => ['\\', short]
  | none =>
    if isShown letter then [letter]
    else if letter.toNat < 0x10000 then escapeUnit letter.toNat
    else
      escapeUnit (0xD800 + (letter.toNat - 0x10000) / 0x400) ++
        escapeUnit (0xDC00 + (letter.toNat - 0x10000) % 0x400)

/-- The letters of a text and its closing quote. -/
def asciiLetters (text : String) : List Char :=
  text.toList.flatMap escapeAscii ++ ['"']

def dumpScalar : Scalar → List Char
  | .null => ['n', 'u', 'l', 'l']
  | .boolean true => ['t', 'r', 'u', 'e']
  | .boolean false => ['f', 'a', 'l', 's', 'e']
  | .integer value => dumpInteger value
  | .text value => '"' :: asciiLetters value

def dumpEntry (entry : String × Scalar) : List Char :=
  '"' :: asciiLetters entry.1 ++ ':' :: dumpScalar entry.2

def dumpRest : List (String × Scalar) → List Char
  | [] => ['\x7d']
  | entry :: entries => ',' :: dumpEntry entry ++ dumpRest entries

/-- A dictionary without spaces, in the order it is given. -/
def dumpFlat : List (String × Scalar) → List Char
  | [] => ['\x7b', '\x7d']
  | entry :: entries => '\x7b' :: dumpEntry entry ++ dumpRest entries

theorem readUnit_escapeUnit {code : Nat} (small : code < 0x10000) :
    readUnit (Nat.digitChar (code / 4096 % 16)) (Nat.digitChar (code / 256 % 16))
      (Nat.digitChar (code / 16 % 16)) (Nat.digitChar (code % 16)) = some code := by
  rw [readUnit, readHex_digitChar (Nat.mod_lt _ (by decide)),
    readHex_digitChar (Nat.mod_lt _ (by decide)),
    readHex_digitChar (Nat.mod_lt _ (by decide)),
    readHex_digitChar (Nat.mod_lt _ (by decide))]
  show some (((code / 4096 % 16 * 16 + code / 256 % 16) * 16 + code / 16 % 16) * 16 +
    code % 16) = some code
  congr 1
  omega

theorem toNat_not_surrogate (letter : Char) :
    letter.toNat < 0xD800 ∨ 0xE000 ≤ letter.toNat ∧ letter.toNat < 0x110000 := by
  rcases letter.valid with low | ⟨high, bound⟩
  · exact Or.inl low
  · exact Or.inr ⟨high, bound⟩

theorem readText_escapeUnit {code : Nat} (rest : List Char)
    (small : code < 0xD800 ∨ 0xE000 ≤ code ∧ code < 0x10000) :
    readText (escapeUnit code ++ rest) =
      (readText rest).map fun read => (Char.ofNat code :: read.1, read.2) := by
  show readText ('\\' :: 'u' :: _ :: _ :: _ :: _ :: rest) = _
  rw [readText, if_neg (by decide), if_pos rfl, readUnit_escapeUnit (by omega)]
  show (if _ then _ else if _ then _ else _) = _
  rw [if_neg (by omega), if_neg (by omega)]
  cases readText rest with
  | none => rfl
  | some read => rfl

theorem readText_escapePair {high low : Nat} (rest : List Char)
    (isHigh : 0xD800 ≤ high ∧ high < 0xDC00) (isLow : 0xDC00 ≤ low ∧ low < 0xE000) :
    readText (escapeUnit high ++ escapeUnit low ++ rest) = (readText rest).map fun read =>
        (Char.ofNat (0x10000 + (high - 0xD800) * 0x400 + (low - 0xDC00)) :: read.1, read.2) := by
  show readText ('\\' :: 'u' :: _ :: _ :: _ :: _ :: '\\' :: 'u' :: _ :: _ :: _ :: _ :: rest) = _
  rw [readText, if_neg (by decide), if_pos rfl, readUnit_escapeUnit (by omega)]
  show (if _ then _ else _) = _
  rw [if_pos isHigh]
  show (readUnit _ _ _ _ >>= _) = _
  rw [readUnit_escapeUnit (by omega)]
  show (if _ then _ else _) = _
  rw [if_pos isLow]
  cases readText rest with
  | none => rfl
  | some read => rfl

/-- A printed letter reads as itself, whatever follows it. -/
theorem readText_escapeAscii (letter : Char) (rest : List Char) :
    readText (escapeAscii letter ++ rest) =
      (readText rest).map fun read => (letter :: read.1, read.2) := by
  have plain : escapeAscii letter = escape letter → readText (escapeAscii letter ++ rest) =
        (readText rest).map fun read => (letter :: read.1, read.2) := by
    intro same
    rw [same]
    exact readText_escape letter rest
  unfold escapeAscii at plain ⊢
  unfold escape at plain
  cases found : shortEscapes.find? fun entry => entry.1 = letter with
  | some entry =>
    rw [found] at plain
    exact plain rfl
  | none =>
    rw [found] at plain
    dsimp only at plain ⊢
    have surrogate := toNat_not_surrogate letter
    split
    · rename_i shown
      rw [if_pos shown] at plain
      apply plain
      simp only [isShown, Bool.and_eq_true, decide_eq_true_eq] at shown
      rw [if_neg (by omega)]
    · split
      · rw [readText_escapeUnit rest (by omega), Char.ofNat_toNat]
      · rw [readText_escapePair rest (by omega) (by omega)]
        have code : 0x10000 + (0xD800 + (letter.toNat - 0x10000) / 0x400 - 0xD800) *
            0x400 + (0xDC00 + (letter.toNat - 0x10000) % 0x400 - 0xDC00) =
            letter.toNat := by
          omega
        rw [code, Char.ofNat_toNat]

theorem spells_escapeAscii : Spells escapeAscii := readText_escapeAscii

theorem readText_asciiLetters (text : String) (rest : List Char) :
    readText (asciiLetters text ++ rest) = some (text.toList, rest) := by
  rw [asciiLetters, append_assoc]
  exact spells_escapeAscii.readText text.toList rest

variable {rest other : List Char}

theorem asciiLetters_inj {first second : String}
    (same : asciiLetters first ++ rest = asciiLetters second ++ other) :
    first = second ∧ rest = other := by
  have read := readText_asciiLetters first rest
  rw [same, readText_asciiLetters] at read
  rcases Prod.mk.inj (Option.some.inj read) with ⟨letters, left⟩
  exact ⟨String.toList_inj.mp letters.symm, left.symm⟩

theorem dumpInteger_injective {first second : Int}
    (same : dumpInteger first = dumpInteger second) : first = second := by
  have digits : ∀ {left right : Nat}, Nat.toDigits 10 left = Nat.toDigits 10 right →
      left = right := by
    intro left right equal
    have value := congrArg (fun letters => Nat.ofDigitChars 10 letters 0) equal
    simpa using value
  have unsigned : ∀ {left right : Nat}, Nat.toDigits 10 left ≠ '-' :: Nat.toDigits 10 right := by
    intro left right equal
    have digit := @Nat.isDigit_of_mem_toDigits 10 left '-' (by decide) (by decide)
      (by rw [equal]; exact mem_cons_self)
    exact absurd digit (by decide)
  cases first with
  | ofNat left =>
    cases second with
    | ofNat right => rw [digits same]
    | negSucc right => exact absurd same unsigned
  | negSucc left =>
    cases second with
    | ofNat right => exact absurd same.symm unsigned
    | negSucc right =>
      have value := digits (List.cons.inj same).2
      rw [Nat.succ.inj value]

theorem dumpInteger_append_ne {value : Int} {letter : Char} {more : List Char}
    (plain : isNumberLetter letter = false) :
    dumpInteger value ++ rest ≠ letter :: more := by
  intro same
  rcases dumpInteger_letters value with ⟨nonempty, letters⟩
  rcases exists_cons_of_ne_nil nonempty with ⟨first, others, isFirst⟩
  rw [isFirst, cons_append] at same
  rw [isFirst] at letters
  have number := letters first mem_cons_self
  rw [(List.cons.inj same).1, plain] at number
  cases number

theorem dumpInteger_append_inj {first second : Int}
    (same : dumpInteger first ++ rest = dumpInteger second ++ other)
    (ends : Ends rest) (ends' : Ends other) : first = second ∧ rest = other := by
  have left := readNumber_append (dumpInteger_letters first).2 ends
  have right := readNumber_append (dumpInteger_letters second).2 ends'
  rw [same] at left
  constructor
  · exact dumpInteger_injective (left.1.symm.trans right.1)
  · exact left.2.symm.trans right.2

theorem dumpScalar_inj {first second : Scalar}
    (same : dumpScalar first ++ rest = dumpScalar second ++ other)
    (ends : Ends rest) (ends' : Ends other) : first = second ∧ rest = other := by
  have number : ∀ {value : Int} {scalar : Scalar} {more after : List Char},
      (∀ number, scalar ≠ .integer number) →
      dumpInteger value ++ more ≠ dumpScalar scalar ++ after := by
    intro value scalar more after noNumber
    cases scalar with
    | null => exact dumpInteger_append_ne rfl
    | boolean value => cases value <;> exact dumpInteger_append_ne rfl
    | integer value => exact absurd rfl (noNumber value)
    | text value => exact dumpInteger_append_ne rfl
  have head : ∀ {letter letter' : Char} {more more' : List Char}, letter ≠ letter' →
      letter :: more ≠ letter' :: more' := by
    intro letter letter' more more' apart equal
    exact apart (List.cons.inj equal).1
  cases first with
  | null =>
    cases second with
    | null => exact ⟨rfl, append_cancel_left same⟩
    | boolean value => cases value <;> exact absurd same (head (by decide))
    | integer value => exact absurd same.symm (number nofun)
    | text value => exact absurd same (head (by decide))
  | boolean value =>
    cases second with
    | null => cases value <;> exact absurd same (head (by decide))
    | boolean value' =>
      cases value <;> cases value'
      · exact ⟨rfl, append_cancel_left same⟩
      · exact absurd same (head (by decide))
      · exact absurd same (head (by decide))
      · exact ⟨rfl, append_cancel_left same⟩
    | integer value' => exact absurd same.symm (number nofun)
    | text value' => cases value <;> exact absurd same (head (by decide))
  | integer value =>
    cases second with
    | integer value' =>
      rcases dumpInteger_append_inj same ends ends' with ⟨rfl, left⟩
      exact ⟨rfl, left⟩
    | _ => exact absurd same (number nofun)
  | text value =>
    cases second with
    | text value' =>
      rcases asciiLetters_inj (List.cons.inj same).2 with ⟨rfl, left⟩
      exact ⟨rfl, left⟩
    | null => exact absurd same (head (by decide))
    | boolean value' => cases value' <;> exact absurd same (head (by decide))
    | integer value' => exact absurd same.symm (number nofun)

theorem ends_dumpRest (entries : List (String × Scalar)) (rest : List Char) :
    Ends (dumpRest entries ++ rest) := by
  cases entries with
  | nil => exact ends_of_closing _ rfl
  | cons entry entries => exact ends_of_closing _ rfl

theorem dumpEntry_inj {first second : String × Scalar}
    (same : dumpEntry first ++ rest = dumpEntry second ++ other)
    (ends : Ends rest) (ends' : Ends other) : first = second ∧ rest = other := by
  simp only [dumpEntry, cons_append, append_assoc] at same
  rcases asciiLetters_inj (List.cons.inj same).2 with ⟨sameKey, values⟩
  rcases dumpScalar_inj (List.cons.inj values).2 ends ends' with ⟨sameValue, left⟩
  exact ⟨Prod.ext sameKey sameValue, left⟩

theorem dumpRest_injective {first second : List (String × Scalar)}
    (same : dumpRest first = dumpRest second) : first = second := by
  induction first generalizing second with
  | nil =>
    cases second with
    | nil => rfl
    | cons entry entries => exact absurd (List.cons.inj same).1 (by decide)
  | cons entry entries ih =>
    cases second with
    | nil => exact absurd (List.cons.inj same).1 (by decide)
    | cons entry' entries' =>
      have left := ends_dumpRest entries []
      have right := ends_dumpRest entries' []
      rw [append_nil] at left right
      rcases dumpEntry_inj (List.cons.inj same).2 left right with ⟨rfl, rest⟩
      rw [ih rest]

/-- A dictionary is determined by its text. -/
theorem dumpFlat_injective {first second : List (String × Scalar)}
    (same : dumpFlat first = dumpFlat second) : first = second := by
  have closes : ∀ {entry : String × Scalar} {entries : List (String × Scalar)},
      ['\x7b', '\x7d'] ≠ '\x7b' :: dumpEntry entry ++ dumpRest entries := by
    intro entry entries equal
    exact absurd (List.cons.inj (List.cons.inj equal).2).1 (by decide)
  cases first with
  | nil =>
    cases second with
    | nil => rfl
    | cons entry entries => exact absurd same closes
  | cons entry entries =>
    cases second with
    | nil => exact absurd same.symm closes
    | cons entry' entries' =>
      apply dumpRest_injective
      exact congrArg (List.cons ',') (List.cons.inj same).2

end McpAssistant.Foundations.FlatJson
