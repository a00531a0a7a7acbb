import McpAssistant.Foundations.PhpArrays

/-!
# What PHP encodes and what is printed

`json_encode` prints a value as it is printed elsewhere, but for two letters that it
always spells out.  Its texts are apart where the values are.
-/

namespace McpAssistant.Foundations.PhpJson

open JsonReading
open JsonText
open PhpArrays List

def IsSeparator (letter : Char) : Prop :=
  letter = lineSeparator ∨ letter = paragraphSeparator

instance (letter : Char) : Decidable (IsSeparator letter) :=
  inferInstanceAs (Decidable (_ ∨ _))

def noneSeparates (letters : List Char) : Bool :=
  letters.all fun letter => !decide (IsSeparator letter)

variable {letters : List Char}

theorem ordinary_of_none (none : noneSeparates letters = true) :
    ∀ letter ∈ letters, ¬IsSeparator letter := by
  intro letter member separator
  have checked := List.all_eq_true.mp none letter member
  rw [decide_eq_true separator] at checked
  cases checked

variable {letter : Char}

theorem spellLetter_of_ordinary (ordinary : ¬IsSeparator letter) :
    spellLetter letter = [letter] := by
  rw [spellLetter, if_neg fun same => ordinary (Or.inl same),
    if_neg fun same => ordinary (Or.inr same)]

theorem not_isSeparator_of_mem_spellLetter {spelled : Char}
    (member : spelled ∈ spellLetter letter) : ¬IsSeparator spelled := by
  unfold spellLetter at member
  split_ifs at member with line paragraph
  · exact ordinary_of_none rfl spelled member
  · exact ordinary_of_none rfl spelled member
  · rw [List.mem_singleton.mp member]
    rintro (isLine | isParagraph)
    · exact line isLine
    · exact paragraph isParagraph

theorem flatMap_spellLetter_of_ordinary (ordinary : ∀ letter ∈ letters, ¬IsSeparator letter) :
    letters.flatMap spellLetter = letters := by
  induction letters with
  | nil => rfl
  | cons letter letters inductionHypothesis =>
    rw [flatMap_cons, spellLetter_of_ordinary (ordinary letter (.head _)),
      inductionHypothesis fun other member =>
        ordinary other (.tail _ member)]
    rfl

theorem isSeparator_escape (separator : IsSeparator letter) : escape letter = [letter] := by
  rcases separator with rfl | rfl
  · rfl
  · rfl

theorem ordinary_short : ∀ entry ∈ shortEscapes, ¬IsSeparator entry.2 := by
  intro entry member
  apply ordinary_of_none (show noneSeparates (shortEscapes.map Prod.snd) = true from
    rfl)
  exact mem_map_of_mem member

theorem ordinary_digitChar {value : Nat} (small : value < 16) :
    ¬IsSeparator (Nat.digitChar value) := by
  interval_cases value <;> decide

/-- How a letter is printed: as itself, behind a backslash, or as its number. -/
theorem escape_cases (letter : Char) : (escape letter = [letter] ∧ letter ≠ '\\') ∨
      (∃ short, escape letter = ['\\', short] ∧ ¬IsSeparator short ∧ short ≠ 'u') ∨
      (∃ high low, escape letter = ['\\', 'u', '0', '0', high, low] ∧
        ¬IsSeparator high ∧ ¬IsSeparator low ∧ high ≠ '\\' ∧ low ≠ '\\') := by
  unfold escape
  cases found : shortEscapes.find? fun entry => entry.1 = letter with
  | some entry =>
    right
    left
    have member := mem_of_find?_eq_some found
    exact ⟨entry.2, rfl, ordinary_short entry member, (unescape_short entry member).2⟩
  | none =>
    dsimp only
    split_ifs with control
    · right
      right
      have notBackslash : ∀ value < 16, Nat.digitChar value ≠ '\\' := by
        decide
      exact ⟨_, _, rfl, ordinary_digitChar (by omega),
        ordinary_digitChar (by omega), notBackslash _ (by omega),
        notBackslash _ (by omega)⟩
    · left
      refine ⟨rfl, ?_⟩
      rintro rfl
      have missing := List.find?_eq_none.mp found ('\\', '\\') (by decide)
      exact missing rfl

theorem encodeLetter_eq (letter : Char) :
    encodeLetter letter = (escape letter).flatMap spellLetter := by
  unfold encodeLetter
  split_ifs with separator
  · rw [isSeparator_escape separator]
    exact (append_nil _).symm
  · rcases escape_cases letter with
      ⟨itself, _⟩ | ⟨short, behind, ordinary, _⟩ | ⟨high, low, spelled, ordinary⟩
    · rw [itself]
      exact (flatMap_spellLetter_of_ordinary (List.forall_mem_singleton.mpr separator)).symm
    · rw [behind, flatMap_spellLetter_of_ordinary]
      intro other member
      rcases List.mem_cons.mp member with rfl | last
      · decide
      · rw [List.mem_singleton.mp last]
        exact ordinary
    · rw [spelled]
      show _ = ['\\', 'u', '0', '0'] ++ (spellLetter high ++ (spellLetter low ++ []))
      rw [spellLetter_of_ordinary ordinary.1, spellLetter_of_ordinary ordinary.2.1]
      rfl

theorem encodeText_eq (text : String) : encodeText text = (dumpText text).flatMap spellLetter := by
  have letters : encodeLetter = fun letter => (escape letter).flatMap spellLetter :=
    funext encodeLetter_eq
  rw [encodeText, dumpText, cons_append, cons_append, flatMap_cons,
    flatMap_append, flatMap_assoc, letters]
  rfl

theorem ordinary_dumpInteger (value : Int) : ∀ letter ∈ dumpInteger value, ¬IsSeparator letter := by
  intro letter member
  have number := (dumpInteger_letters value).2 letter member
  rintro (rfl | rfl)
  · exact absurd number (by decide)
  · exact absurd number (by decide)

theorem flatMap_spell_cons (ordinary : ¬IsSeparator letter) (letters : List Char) :
    (letter :: letters).flatMap spellLetter = letter :: letters.flatMap spellLetter := by
  rw [flatMap_cons, spellLetter_of_ordinary ordinary]
  rfl

mutual

theorem jsonEncode_eq : ∀ value : PhpValue,
    jsonEncode value = (dumps (toJson value)).flatMap spellLetter
  | .null => rfl
  | .boolean true => rfl
  | .boolean false => rfl
  | .integer value =>
    (flatMap_spellLetter_of_ordinary (ordinary_dumpInteger value)).symm
  | .text value => encodeText_eq value
  | .emptyObject => rfl
  | .array [] => rfl
  | .array ((key, value) :: entries) => by
      rw [jsonEncode, toJson, map_cons]
      split_ifs with counted
      · rw [toItems, dumps, flatMap_spell_cons (by decide), flatMap_append,
          jsonEncode_eq value, encodeItems_eq entries]
      · rw [toEntries, dumps, flatMap_spell_cons (by decide), flatMap_append,
          flatMap_spell_cons (by decide), flatMap_append,
          encodeText_eq key.text, jsonEncode_eq value, encodeEntries_eq entries]

theorem encodeItems_eq : ∀ entries : PhpArray,
    encodeItems entries = (dumpItems (toItems entries)).flatMap spellLetter
  | [] => rfl
  | (_, value) :: entries => by
      rw [encodeItems, toItems, dumpItems, flatMap_spell_cons (by decide),
        flatMap_append, jsonEncode_eq value, encodeItems_eq entries]

theorem encodeEntries_eq : ∀ entries : PhpArray,
    encodeEntries entries = (dumpEntries (toEntries entries)).flatMap spellLetter
  | [] => rfl
  | (key, value) :: entries => by
      rw [encodeEntries, toEntries, dumpEntries, flatMap_spell_cons (by decide),
        flatMap_append, flatMap_spell_cons (by decide), flatMap_append,
        encodeText_eq key.text, jsonEncode_eq value, encodeEntries_eq entries]

end

theorem not_isSeparator_of_mem_jsonEncode {value : PhpValue}
    (member : letter ∈ jsonEncode value) : ¬IsSeparator letter := by
  rw [jsonEncode_eq] at member
  rcases List.mem_flatMap.mp member with ⟨printed, _, spelled⟩
  exact not_isSeparator_of_mem_spellLetter spelled

/-! ## Encoded values are apart -/

/-- Letters where each backslash stands before one letter, and before no number but
a small one. -/
inductive Escaped : List Char → Prop where
  | nil : Escaped []
  | plain {letter : Char} {rest : List Char} (notBackslash : letter ≠ '\\')
      (escaped : Escaped rest) : Escaped (letter :: rest)
  | behind {short : Char} {rest : List Char} (ordinary : ¬IsSeparator short)
      (unit : short = 'u' → ∃ more, rest = '0' :: more) (escaped : Escaped rest) :
      Escaped ('\\' :: short :: rest)

def noBackslash (letters : List Char) : Bool :=
  letters.all fun letter => !decide (letter = '\\')

namespace Escaped

theorem append {first second : List Char} (left : Escaped first)
    (right : Escaped second) : Escaped (first ++ second) := by
  induction left with
  | nil => exact right
  | plain notBackslash _ inductionHypothesis =>
    exact .plain notBackslash inductionHypothesis
  | @behind short rest ordinary unit _ inductionHypothesis =>
    apply Escaped.behind ordinary _ inductionHypothesis
    intro isUnit
    rcases unit isUnit with ⟨more, rfl⟩
    exact ⟨more ++ second, rfl⟩

variable {letters : List Char}

theorem of_forall_ne (none : ∀ letter ∈ letters, letter ≠ '\\') : Escaped letters := by
  induction letters with
  | nil => exact .nil
  | cons letter letters inductionHypothesis =>
    exact .plain (none letter (.head _))
      (inductionHypothesis fun other member => none other (.tail _ member))

theorem of_no_backslash (none : noBackslash letters = true) : Escaped letters := by
  apply of_forall_ne
  intro letter member isBackslash
  have checked := List.all_eq_true.mp none letter member
  rw [decide_eq_true isBackslash] at checked
  cases checked

theorem escape (letter : Char) : Escaped (JsonText.escape letter) := by
  rcases escape_cases letter with
    ⟨itself, notBackslash⟩ | ⟨short, isShort, ordinary, notUnit⟩ |
      ⟨high, low, spelled, _, _, highPlain, lowPlain⟩
  · rw [itself]
    exact .plain notBackslash .nil
  · rw [isShort]
    exact .behind ordinary (fun isUnit => absurd isUnit notUnit) .nil
  · rw [spelled]
    exact .behind (by decide) (fun _ => ⟨_, rfl⟩) (.plain (by decide) (.plain (by decide)
        (.plain highPlain (.plain lowPlain .nil))))

theorem escapes (letters : List Char) : Escaped (letters.flatMap JsonText.escape) := by
  induction letters with
  | nil => exact .nil
  | cons letter letters inductionHypothesis =>
    rw [flatMap_cons]
    exact (escape letter).append inductionHypothesis

theorem dumpText (text : String) : Escaped (JsonText.dumpText text) := by
  rw [JsonText.dumpText, cons_append]
  apply Escaped.plain (by decide)
  exact (escapes text.toList).append (.plain (by decide) .nil)

theorem number (number : ∀ letter ∈ letters, isNumberLetter letter = true) : Escaped letters := by
  apply of_forall_ne
  intro letter member
  rintro rfl
  exact absurd (number _ member) (by decide)

end Escaped

section Values

variable {floatOf : String → Json}

mutual

theorem escaped_dumps : ∀ json : Json, Genuine floatOf json → Escaped (dumps json)
  | .null, _ => .of_no_backslash rfl
  | .boolean true, _ => .of_no_backslash rfl
  | .boolean false, _ => .of_no_backslash rfl
  | .integer value, _ => .number (dumpInteger_letters value).2
  | .float _ _, genuine => .number (floatToken_letters genuine.1).2
  | .text value, _ => .dumpText value
  | .list [], _ => .of_no_backslash rfl
  | .list (item :: items), genuine => by
      rw [dumps]
      apply Escaped.plain (by decide)
      exact (escaped_dumps item genuine.1).append (escaped_dumpItems items genuine.2)
  | .dict [], _ => .of_no_backslash rfl
  | .dict ((key, value) :: entries), genuine => by
      rw [dumps]
      apply Escaped.plain (by decide)
      apply (Escaped.dumpText key).append
      apply Escaped.plain (by decide)
      exact (escaped_dumps value genuine.2.1).append (escaped_dumpEntries entries genuine.2.2)

theorem escaped_dumpItems : ∀ items : List Json,
    GenuineItems floatOf items → Escaped (dumpItems items)
  | [], _ => .of_no_backslash rfl
  | item :: items, genuine => by
      rw [dumpItems]
      apply Escaped.plain (by decide)
      exact (escaped_dumps item genuine.1).append (escaped_dumpItems items genuine.2)

theorem escaped_dumpEntries : ∀ entries : List (String × Json),
    GenuineEntries floatOf entries → Escaped (dumpEntries entries)
  | [], _ => .of_no_backslash rfl
  | (key, value) :: entries, genuine => by
      rw [dumpEntries]
      apply Escaped.plain (by decide)
      apply (Escaped.dumpText key).append
      apply Escaped.plain (by decide)
      exact (escaped_dumps value genuine.1).append (escaped_dumpEntries entries genuine.2)

end

end Values

theorem spellLetter_cases (letter : Char) :
    (¬IsSeparator letter ∧ spellLetter letter = [letter]) ∨ (letter = lineSeparator ∧
        spellLetter letter = ['\\', 'u', '2', '0', '2', '8']) ∨
      (letter = paragraphSeparator ∧ spellLetter letter = ['\\', 'u', '2', '0', '2', '9']) := by
  by_cases line : letter = lineSeparator
  · right
    left
    exact ⟨line, if_pos line⟩
  · by_cases paragraph : letter = paragraphSeparator
    · right
      right
      refine ⟨paragraph, ?_⟩
      rw [spellLetter, if_neg line, if_pos paragraph]
    · left
      have ordinary : ¬IsSeparator letter := by
        rintro (isLine | isParagraph)
        · exact line isLine
        · exact paragraph isParagraph
      exact ⟨ordinary, spellLetter_of_ordinary ordinary⟩

theorem spellLetter_append_inj {first second : Char} {left right : List Char}
    (firstPlain : first ≠ '\\') (secondPlain : second ≠ '\\')
    (same : spellLetter first ++ left = spellLetter second ++ right) :
    first = second ∧ left = right := by
  have plainSecond := secondPlain.symm
  rcases spellLetter_cases first with ⟨_, isFirst⟩ | ⟨rfl, isFirst⟩ | ⟨rfl, isFirst⟩ <;>
  rcases spellLetter_cases second with ⟨_, isSecond⟩ | ⟨rfl, isSecond⟩ | ⟨rfl, isSecond⟩ <;>
  simp only [isFirst, isSecond, cons_append, nil_append, List.cons.injEq] at same <;>
  simp_all

variable {short : Char}

theorem spellLetter_append_ne {left right : List Char} (notBackslash : letter ≠ '\\')
    (unit : short = 'u' → ∃ more, right = '0' :: more) :
    spellLetter letter ++ left ≠ '\\' :: short :: right := by
  intro same
  rcases spellLetter_cases letter with ⟨_, isLetter⟩ | ⟨rfl, isLetter⟩ | ⟨rfl, isLetter⟩
  · rw [isLetter] at same
    exact notBackslash (List.cons.inj same).1
  · rw [isLetter] at same
    have tail := List.cons.inj (List.cons.inj same).2
    rcases unit tail.1.symm with ⟨more, rfl⟩
    exact absurd (List.cons.inj tail.2).1 (by decide)
  · rw [isLetter] at same
    have tail := List.cons.inj (List.cons.inj same).2
    rcases unit tail.1.symm with ⟨more, rfl⟩
    exact absurd (List.cons.inj tail.2).1 (by decide)

theorem flatMap_spell_behind (ordinary : ¬IsSeparator short) (rest : List Char) :
    ('\\' :: short :: rest).flatMap spellLetter = '\\' :: short :: rest.flatMap spellLetter := by
  rw [flatMap_spell_cons (by decide), flatMap_spell_cons ordinary]

/-- What stands behind a backslash stays there. -/
theorem unit_flatMap {rest : List Char} (unit : short = 'u' → ∃ more, rest = '0' :: more) :
    short = 'u' → ∃ more, rest.flatMap spellLetter = '0' :: more := by
  intro isUnit
  rcases unit isUnit with ⟨more, rfl⟩
  exact ⟨_, flatMap_spell_cons (by decide) more⟩

theorem spell_injective {first second : List Char} (left : Escaped first) (right : Escaped second)
    (same : first.flatMap spellLetter = second.flatMap spellLetter) :
    first = second := by
  induction left generalizing second with
  | nil =>
    cases right with
    | nil => rfl
    | @plain letter rest notBackslash escaped =>
      rw [flatMap_cons] at same
      rcases spellLetter_cases letter with ⟨_, spelled⟩ | ⟨_, spelled⟩ | ⟨_, spelled⟩ <;>
      · rw [spelled] at same
        cases same
    | behind ordinary unit escaped =>
      rw [flatMap_spell_behind ordinary] at same
      cases same
  | @plain letter rest notBackslash escaped inductionHypothesis =>
    cases right with
    | nil =>
      rw [flatMap_cons] at same
      rcases spellLetter_cases letter with ⟨_, spelled⟩ | ⟨_, spelled⟩ | ⟨_, spelled⟩ <;>
      · rw [spelled] at same
        cases same
    | plain otherNot otherEscaped =>
      rw [flatMap_cons, flatMap_cons] at same
      rcases spellLetter_append_inj notBackslash otherNot same with ⟨rfl, rests⟩
      rw [inductionHypothesis otherEscaped rests]
    | behind ordinary unit otherEscaped =>
      rw [flatMap_cons, flatMap_spell_behind ordinary] at same
      exact absurd same (spellLetter_append_ne notBackslash (unit_flatMap unit))
  | behind ordinary unit escaped inductionHypothesis =>
    rw [flatMap_spell_behind ordinary] at same
    cases right with
    | nil => cases same
    | plain otherNot otherEscaped =>
      rw [flatMap_cons] at same
      exact absurd same.symm (spellLetter_append_ne otherNot (unit_flatMap unit))
    | behind otherOrdinary otherUnit otherEscaped =>
      rw [flatMap_spell_behind otherOrdinary] at same
      have parts := List.cons.inj (List.cons.inj same).2
      rw [parts.1, inductionHypothesis otherEscaped parts.2]

section Comparison

variable {floatOf : String → Json}

theorem dumps_injective {first second : Json} (left : Printable floatOf first)
    (right : Printable floatOf second) (same : dumps first = dumps second) :
    first = second := by
  have firstRead := loads_dumps left (Nat.le_max_left _ (depth second))
  have secondRead := loads_dumps right (Nat.le_max_right (depth first) _)
  rw [same, secondRead] at firstRead
  exact (Except.ok.inj firstRead).symm

theorem jsonEncode_eq_iff {first second : PhpValue} (left : Printable floatOf (toJson first))
    (right : Printable floatOf (toJson second)) :
    jsonEncode first = jsonEncode second ↔ toJson first = toJson second := by
  rw [jsonEncode_eq, jsonEncode_eq]
  constructor
  · intro same
    exact dumps_injective left right (spell_injective (escaped_dumps _ left.genuine)
        (escaped_dumps _ right.genuine) same)
  · intro same
    rw [same]

theorem jsonEncode_eq_dumps_iff {value : PhpValue} {json : Json}
    (left : Printable floatOf (toJson value)) (right : Printable floatOf json) :
    jsonEncode value = dumps json ↔
      toJson value = json ∧ ∀ letter ∈ dumps json, ¬IsSeparator letter := by
  constructor
  · intro same
    have ordinary : ∀ letter ∈ dumps json, ¬IsSeparator letter := by
      intro letter member
      rw [← same] at member
      exact not_isSeparator_of_mem_jsonEncode member
    refine ⟨?_, ordinary⟩
    apply dumps_injective left right
    apply spell_injective (escaped_dumps _ left.genuine) (escaped_dumps _ right.genuine)
    rw [← jsonEncode_eq, same, flatMap_spellLetter_of_ordinary ordinary]
  · rintro ⟨rfl, ordinary⟩
    rw [jsonEncode_eq, flatMap_spellLetter_of_ordinary ordinary]

end Comparison

mutual

def texts : Json → List String
  | .text value => [value]
  | .float _ printed => [printed]
  | .list items => itemTexts items
  | .dict entries => entryTexts entries
  | _ => []

def itemTexts : List Json → List String
  | [] => []
  | item :: items => texts item ++ itemTexts items

def entryTexts : List (String × Json) → List String
  | [] => []
  | (key, value) :: entries => key :: (texts value ++ entryTexts entries)

end

def Holds (letter : Char) (held : List String) : Prop :=
  ∃ text ∈ held, letter ∈ text.toList

theorem holds_nil (letter : Char) : ¬Holds letter [] := fun ⟨_, member, _⟩ => not_mem_nil member

theorem holds_cons {text : String} {held : List String} :
    Holds letter (text :: held) ↔ letter ∈ text.toList ∨ Holds letter held := by
  simp [Holds]

theorem holds_append {first second : List String} :
    Holds letter (first ++ second) ↔ Holds letter first ∨ Holds letter second := by
  simp [Holds, or_and_right, exists_or]

section Printed

variable {letter : Char}

theorem ne_of_isSeparator (separator : IsSeparator letter) {other : Char}
    (ordinary : ¬IsSeparator other) : letter ≠ other := by
  rintro rfl
  exact ordinary separator

variable {letters : List Char} (separator : IsSeparator letter)
include separator

theorem mem_cons_of_ordinary {other : Char} (ordinary : ¬IsSeparator other) :
    letter ∈ other :: letters ↔ letter ∈ letters := by
  rw [mem_cons]
  exact or_iff_right (ne_of_isSeparator separator ordinary)

theorem not_mem_of_ordinary (ordinary : ∀ other ∈ letters, ¬IsSeparator other) : letter ∉ letters :=
  fun member => ordinary letter member separator

theorem mem_escape_iff {printed : Char} : letter ∈ escape printed ↔ letter = printed := by
  rcases escape_cases printed with
    ⟨itself, _⟩ | ⟨short, isShort, ordinary, _⟩ | ⟨high, low, spelled, highOrdinary, lowOrdinary, _⟩
  · rw [itself, mem_singleton]
  · have apart : letter ≠ printed := by
      rintro rfl
      rw [isSeparator_escape separator] at isShort
      cases isShort
    rw [isShort, mem_cons_of_ordinary separator (by decide),
      mem_cons_of_ordinary separator ordinary]
    exact iff_of_false not_mem_nil apart
  · have apart : letter ≠ printed := by
      rintro rfl
      rw [isSeparator_escape separator] at spelled
      cases spelled
    rw [spelled, mem_cons_of_ordinary separator (by decide),
      mem_cons_of_ordinary separator (by decide),
      mem_cons_of_ordinary separator (by decide),
      mem_cons_of_ordinary separator (by decide),
      mem_cons_of_ordinary separator highOrdinary,
      mem_cons_of_ordinary separator lowOrdinary]
    exact iff_of_false not_mem_nil apart

theorem mem_dumpText_iff {text : String} : letter ∈ dumpText text ↔ letter ∈ text.toList := by
  rw [dumpText, cons_append, mem_cons_of_ordinary separator (by decide),
    mem_append, mem_cons_of_ordinary separator (by decide), mem_flatMap]
  simp only [mem_escape_iff separator, not_mem_nil, or_false, exists_eq_right']

omit separator

mutual

theorem mem_dumps_iff (separator : IsSeparator letter) : ∀ json : Json,
    letter ∈ dumps json ↔ Holds letter (texts json)
  | .null => iff_of_false (not_mem_of_ordinary separator (ordinary_of_none rfl)) (holds_nil _)
  | .boolean true => iff_of_false
      (not_mem_of_ordinary separator (ordinary_of_none rfl)) (holds_nil _)
  | .boolean false => iff_of_false
      (not_mem_of_ordinary separator (ordinary_of_none rfl)) (holds_nil _)
  | .integer value => iff_of_false
      (not_mem_of_ordinary separator (ordinary_dumpInteger value)) (holds_nil _)
  | .float _ printed => by
      rw [dumps, texts, holds_cons]
      exact (or_iff_left (holds_nil letter)).symm
  | .text value => by
      rw [dumps, texts, holds_cons, mem_dumpText_iff separator]
      exact (or_iff_left (holds_nil letter)).symm
  | .list [] => iff_of_false (not_mem_of_ordinary separator (ordinary_of_none rfl)) (holds_nil _)
  | .list (item :: items) => by
      rw [dumps, texts, itemTexts, mem_cons_of_ordinary separator (by decide),
        mem_append, holds_append, mem_dumps_iff separator item,
        mem_dumpItems_iff separator items]
  | .dict [] => iff_of_false (not_mem_of_ordinary separator (ordinary_of_none rfl)) (holds_nil _)
  | .dict ((key, value) :: entries) => by
      rw [dumps, texts, entryTexts, mem_cons_of_ordinary separator (by decide),
        mem_append, mem_cons_of_ordinary separator (by decide),
        mem_append, holds_cons, holds_append, mem_dumpText_iff separator,
        mem_dumps_iff separator value, mem_dumpEntries_iff separator entries]

theorem mem_dumpItems_iff (separator : IsSeparator letter) : ∀ items : List Json,
    letter ∈ dumpItems items ↔ Holds letter (itemTexts items)
  | [] => iff_of_false (not_mem_of_ordinary separator (ordinary_of_none rfl)) (holds_nil _)
  | item :: items => by
      rw [dumpItems, itemTexts, mem_cons_of_ordinary separator (by decide),
        mem_append, holds_append, mem_dumps_iff separator item,
        mem_dumpItems_iff separator items]

theorem mem_dumpEntries_iff (separator : IsSeparator letter) : ∀ entries : List (String × Json),
      letter ∈ dumpEntries entries ↔ Holds letter (entryTexts entries)
  | [] => iff_of_false (not_mem_of_ordinary separator (ordinary_of_none rfl)) (holds_nil _)
  | (key, value) :: entries => by
      rw [dumpEntries, entryTexts, mem_cons_of_ordinary separator (by decide),
        mem_append, mem_cons_of_ordinary separator (by decide),
        mem_append, holds_cons, holds_append, mem_dumpText_iff separator,
        mem_dumps_iff separator value, mem_dumpEntries_iff separator entries]

end

end Printed

end McpAssistant.Foundations.PhpJson
