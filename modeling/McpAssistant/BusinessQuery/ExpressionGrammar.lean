import McpAssistant.BusinessQuery.SetKeys
import McpAssistant.Foundations.PrintedValues
import Mathlib.Data.List.TakeWhile
import Mathlib.Data.List.Infix

/-!
# The grammar of bundle expressions

A bundle declares SQL fragments over the columns of its views.  A fragment is read as a
sequence of tokens, and is admitted when every token is of a known kind and every
identifier is a function, a keyword or a declared column.
-/

namespace McpAssistant.BusinessQuery.ExpressionGrammar

open SetKeys (isSqlIdentifier)
open Foundations.PrintedValues List

def isIdentifierStart (letter : Char) : Bool :=
  (letter.toNat < 128 && letter.isAlpha) || letter == '_'

def isIdentifierLetter (letter : Char) : Bool :=
  isIdentifierStart letter || letter.isDigit

theorem isSqlIdentifier_cons (first : Char) (rest : List Char) : isSqlIdentifier (first :: rest) =
      (isIdentifierStart first && rest.all isIdentifierLetter) :=
  rfl

/-- What a scan of an expression yields; a literal is given by what it quotes. -/
inductive Token where
  | ws (text : List Char)
  | str (inner : List Char)
  | num (text : List Char)
  | op (text : List Char)
  | punct (letter : Char)
  | ident (text : List Char)
  | bad (letter : Char)
deriving DecidableEq

def Token.text : Token → List Char
  | ws text => text
  | str inner => '\'' :: inner ++ ['\'']
  | num text => text
  | op text => text
  | punct letter => [letter]
  | ident text => text
  | bad letter => [letter]

def isQuotable (letter : Char) : Bool :=
  letter != '\'' && letter != '\\'

def isOperator (letter : Char) : Bool :=
  ['=', '<', '>', '+', '-', '*', '/'].contains letter

/-- The operators of two letters. -/
def isOperatorPair (first second : Char) : Bool :=
  [('<', '>'), ('!', '='), ('<', '='), ('>', '=')].contains (first, second)

def isPunctuation (letter : Char) : Bool :=
  ['(', ')', ','].contains letter

/-- A number: digits, then a point and digits if both follow. -/
def scanNumber (first : Char) (rest : List Char) : List Char × List Char :=
  let digits := first :: rest.takeWhile isDecimalDigit
  match rest.dropWhile isDecimalDigit with
  | '.' :: digit :: after =>
    if isDecimalDigit digit then
      (digits ++ '.' :: digit :: after.takeWhile isDecimalDigit, after.dropWhile isDecimalDigit)
    else (digits, '.' :: digit :: after)
  | after => (digits, after)

def scanLiteral (rest : List Char) : Option (List Char × List Char) :=
  match rest.dropWhile isQuotable with
  | '\'' :: after => some (rest.takeWhile isQuotable, after)
  | _ => none

def scanOperator (first : Char) (rest : List Char) : Option (List Char × List Char) :=
  match rest with
  | second :: after =>
    if isOperatorPair first second then some ([first, second], after)
    else if isOperator first then some ([first], rest)
    else none
  | [] => if isOperator first then some ([first], []) else none

def nextToken (first : Char) (rest : List Char) : Token × List Char :=
  if isSpace first then
    (.ws (first :: rest.takeWhile isSpace), rest.dropWhile isSpace)
  else if first = '\'' then
    match scanLiteral rest with
    | some (inner, after) => (.str inner, after)
    | none => (.bad first, rest)
  else if isDecimalDigit first then
    (.num (scanNumber first rest).1, (scanNumber first rest).2)
  else
    match scanOperator first rest with
    | some (text, after) => (.op text, after)
    | none =>
      if isPunctuation first then (.punct first, rest)
      else if isIdentifierStart first then
        (.ident (first :: rest.takeWhile isIdentifierLetter), rest.dropWhile isIdentifierLetter)
      else (.bad first, rest)

/-- The first tokens of a text, at most as many as given. -/
def tokens : Nat → List Char → List Token
  | _, [] => []
  | 0, _ => []
  | count + 1, first :: rest =>
    (nextToken first rest).1 :: tokens count (nextToken first rest).2

def tokenize (letters : List Char) : List Token :=
  tokens letters.length letters

def allowedFunctions : List String :=
  ["SUM", "AVG", "MIN", "MAX", "COUNT", "COALESCE", "CASE", "WHEN", "THEN", "ELSE", "END"]

def sqlKeywords : List String :=
  ["AND", "OR", "NOT", "IN", "IS", "NULL", "AS"]

def bannedSubstrings : List String :=
  [";", "--", "/*", "CURRENT_DATE", "INTERVAL", "DATEDIFF", "julianday"]

/-- A violation, with the text its message shows. -/
inductive Violation where
  | bannedToken (banned : String)
  | embeddedQuote (text : String)
  | invalidIdentifier (text : String)
  | undeclaredColumn (text : String)
  | unexpectedToken (text : String)
deriving DecidableEq

def isReserved (text : List Char) : Bool :=
  let name := String.ofList (text.map Char.toUpper)
  allowedFunctions.contains name || sqlKeywords.contains name

section Admission

variable (upper : String → String) (allowed : List String)

def occursIn (part text : String) : Bool :=
  decide (part.toList <:+: text.toList)

/-- A banned word is looked for in any case. -/
def hasBanned (expression banned : String) : Bool :=
  if banned.toList.head?.any Char.isAlpha then occursIn (upper banned) (upper expression)
  else occursIn banned expression

def tokenViolation (token : Token) : Option Violation :=
  match token with
  | .str inner =>
    if inner.contains '\'' || inner.contains '\\' then
      some (.embeddedQuote (String.ofList token.text))
    else none
  | .ident text =>
    if isReserved text then none
    else if !isSqlIdentifier text then some (.invalidIdentifier (String.ofList text))
    else if !allowed.contains (String.ofList text) then
      some (.undeclaredColumn (String.ofList text))
    else none
  | .bad letter => some (.unexpectedToken (String.ofList [letter]))
  | _ => none

/-- `_validate_expression`: what is wrong with an expression; a banned text ends the
check. -/
def validateExpression (expression : String) : List Violation :=
  let banned := bannedSubstrings.filter (hasBanned upper expression)
  if banned = [] then (tokenize expression.toList).filterMap (tokenViolation allowed)
  else banned.map .bannedToken

end Admission

structure BundleExpression (upper : String → String) where
  expression : String
  allowed : List String
  admitted : validateExpression upper allowed expression = []

/-- A number is of digits and points, and ends with a digit. -/
structure IsNumber (text : List Char) : Prop where
  letters : ∀ letter ∈ text, isDecimalDigit letter = true ∨ letter = '.'
  last : ∃ before digit, text = before ++ [digit] ∧ isDecimalDigit digit = true

/-- The tokens a letter may begin, with what follows them. -/
inductive Scans : Char → List Char → Token → List Char → Prop where
  | ws {first : Char} {rest : List Char} (space : isSpace first = true) :
      Scans first rest (.ws (first :: rest.takeWhile isSpace)) (rest.dropWhile isSpace)
  | str {inner after : List Char} (quotable : ∀ letter ∈ inner, isQuotable letter = true) :
      Scans '\'' (inner ++ '\'' :: after) (.str inner) after
  | num {first : Char} {rest text after : List Char} (digit : isDecimalDigit first = true)
      (number : IsNumber text) (whole : text ++ after = first :: rest) :
      Scans first rest (.num text) after
  | op {first : Char} {rest text after : List Char}
      (operators : ∀ letter ∈ text, letter = '!' ∨ isOperator letter = true)
      (whole : text ++ after = first :: rest) (nonempty : text ≠ []) :
      Scans first rest (.op text) after
  | punct {first : Char} {rest : List Char} (punctuation : isPunctuation first = true) :
      Scans first rest (.punct first) rest
  | ident {first : Char} {rest : List Char} (start : isIdentifierStart first = true) :
      Scans first rest (.ident (first :: rest.takeWhile isIdentifierLetter))
        (rest.dropWhile isIdentifierLetter)
  | bad (first : Char) (rest : List Char) : Scans first rest (.bad first) rest

variable {first : Char}

theorem isNumber_of_digits {digits : List Char}
    (all : ∀ letter ∈ first :: digits, isDecimalDigit letter = true) :
    IsNumber (first :: digits) := by
  constructor
  · intro letter member
    exact .inl (all letter member)
  · have nonempty : first :: digits ≠ [] := cons_ne_nil first digits
    exact ⟨_, _, (dropLast_append_getLast nonempty).symm, all _ (getLast_mem nonempty)⟩

theorem IsNumber.point {whole part : List Char}
    (digits : ∀ letter ∈ whole, isDecimalDigit letter = true) (number : IsNumber part) :
    IsNumber (whole ++ '.' :: part) := by
  constructor
  · intro letter member
    rcases List.mem_append.mp member with before | after
    · exact .inl (digits letter before)
    · rcases List.mem_cons.mp after with isPoint | inside
      · exact .inr isPoint
      · exact number.letters letter inside
  · rcases number.last with ⟨before, digit, rfl, isDigit⟩
    exact ⟨whole ++ '.' :: before, digit, by simp, isDigit⟩

variable {rest : List Char}

theorem scans_number (digit : isDecimalDigit first = true) :
    Scans first rest (.num (scanNumber first rest).1) (scanNumber first rest).2 := by
  have whole : rest.takeWhile isDecimalDigit ++ rest.dropWhile isDecimalDigit = rest :=
    takeWhile_append_dropWhile
  have digits : ∀ letter ∈ first :: rest.takeWhile isDecimalDigit,
      isDecimalDigit letter = true := by
    intro letter member
    rcases List.mem_cons.mp member with rfl | inside
    · exact digit
    · exact mem_takeWhile_imp inside
  simp only [scanNumber]
  split
  · next next' after tail =>
      rw [tail] at whole
      by_cases more : isDecimalDigit next' = true
      · rw [if_pos more]
        apply Scans.num digit
        · apply IsNumber.point digits
          apply isNumber_of_digits
          intro letter member
          rcases List.mem_cons.mp member with rfl | inside
          · exact more
          · exact mem_takeWhile_imp inside
        · simp only [cons_append, append_assoc, takeWhile_append_dropWhile]
          rw [whole]
      · rw [if_neg more]
        exact .num digit (isNumber_of_digits digits) (by rw [cons_append, whole])
  · exact .num digit (isNumber_of_digits digits) (by rw [cons_append, whole])

variable {after : List Char}

theorem scans_literal {inner : List Char} (found : scanLiteral rest = some (inner, after)) :
    Scans '\'' rest (.str inner) after := by
  have whole : rest.takeWhile isQuotable ++ rest.dropWhile isQuotable = rest :=
    takeWhile_append_dropWhile
  unfold scanLiteral at found
  split at found
  · next tail =>
      cases found
      rw [tail] at whole
      have scans := @Scans.str (rest.takeWhile isQuotable) after fun letter member =>
        mem_takeWhile_imp member
      rwa [whole] at scans
  · cases found

theorem scans_operator {text : List Char} (found : scanOperator first rest = some (text, after)) :
    Scans first rest (.op text) after := by
  have single : isOperator first = true →
      ∀ letter ∈ [first], letter = '!' ∨ isOperator letter = true := by
    intro operator letter member
    exact .inr (List.mem_singleton.mp member ▸ operator)
  unfold scanOperator at found
  split at found
  · next second after' =>
      by_cases pair : isOperatorPair first second = true
      · rw [if_pos pair] at found
        cases found
        refine @Scans.op first _ [first, second] _ ?_ rfl (cons_ne_nil _ _)
        simp only [isOperatorPair, contains_iff_mem, mem_cons, not_mem_nil,
          or_false, Prod.mk.injEq] at pair
        rcases pair with ⟨rfl, rfl⟩ | ⟨rfl, rfl⟩ | ⟨rfl, rfl⟩ | ⟨rfl, rfl⟩ <;>
          simp [isOperator]
      · rw [if_neg pair] at found
        by_cases operator : isOperator first = true
        · rw [if_pos operator] at found
          cases found
          exact .op (single operator) rfl (cons_ne_nil _ _)
        · rw [if_neg operator] at found
          cases found
  · by_cases operator : isOperator first = true
    · rw [if_pos operator] at found
      cases found
      exact .op (single operator) rfl (cons_ne_nil _ _)
    · rw [if_neg operator] at found
      cases found

theorem scans_nextToken (first : Char) (rest : List Char) :
    Scans first rest (nextToken first rest).1 (nextToken first rest).2 := by
  unfold nextToken
  by_cases space : isSpace first = true
  · rw [if_pos space]
    exact .ws space
  · rw [if_neg space]
    by_cases quote : first = '\''
    · rw [if_pos quote]
      split
      · next found => exact quote ▸ scans_literal found
      · exact .bad first rest
    · rw [if_neg quote]
      by_cases digit : isDecimalDigit first = true
      · rw [if_pos digit]
        exact scans_number digit
      · rw [if_neg digit]
        split
        · next found => exact scans_operator found
        · by_cases punctuation : isPunctuation first = true
          · rw [if_pos punctuation]
            exact .punct punctuation
          · rw [if_neg punctuation]
            by_cases start : isIdentifierStart first = true
            · rw [if_pos start]
              exact .ident start
            · rw [if_neg start]
              exact .bad first rest

variable {token : Token} (scans : Scans first rest token after)
include scans

theorem Scans.append : token.text ++ after = first :: rest := by
  cases scans with
  | ws => exact congrArg (first :: ·) takeWhile_append_dropWhile
  | str => simp [Token.text]
  | num _ _ whole => exact whole
  | op _ whole => exact whole
  | punct => rfl
  | ident => exact congrArg (first :: ·) takeWhile_append_dropWhile
  | bad => rfl

theorem Scans.text_ne_nil : token.text ≠ [] := by
  cases scans with
  | num _ number =>
    rcases number.last with ⟨before, digit, same, -⟩
    rw [Token.text, same]
    exact append_ne_nil_of_right_ne_nil before (cons_ne_nil digit [])
  | op _ _ nonempty => exact nonempty
  | _ => exact cons_ne_nil _ _

theorem Scans.length_lt : after.length ≤ rest.length := by
  have whole := congrArg List.length scans.append
  have some := length_pos_of_ne_nil scans.text_ne_nil
  rw [length_append, length_cons] at whole
  omega

omit scans

/-- A text read to its end, token by token. -/
inductive Tokenizes : List Char → List Token → Prop where
  | nil : Tokenizes [] []
  | cons {first : Char} {rest after : List Char} {token : Token} {others : List Token}
      (scans : Scans first rest token after) (tokenizes : Tokenizes after others) :
      Tokenizes (first :: rest) (token :: others)

theorem tokenizes_tokens {letters : List Char} {count : Nat}
    (enough : letters.length ≤ count) : Tokenizes letters (tokens count letters) := by
  induction count generalizing letters with
  | zero =>
    rw [eq_nil_of_length_eq_zero (Nat.le_zero.mp enough)]
    exact .nil
  | succ count ih =>
    cases letters with
    | nil => exact .nil
    | cons first rest =>
      have scans := scans_nextToken first rest
      exact .cons scans (ih (scans.length_lt.trans (Nat.le_of_succ_le_succ enough)))

theorem tokenizes_tokenize (letters : List Char) : Tokenizes letters (tokenize letters) :=
  tokenizes_tokens (Nat.le_refl letters.length)

def Token.isKnown : Token → Bool
  | bad _ => false
  | _ => true

variable {upper : String → String}

theorem tokenViolation_eq_none (expression : BundleExpression upper) :
    ∀ token ∈ tokenize expression.expression.toList,
      tokenViolation expression.allowed token = none := by
  have admitted := expression.admitted
  simp only [validateExpression] at admitted
  by_cases banned : bannedSubstrings.filter (hasBanned upper expression.expression) = []
  · rw [if_pos banned, filterMap_eq_nil_iff] at admitted
    exact admitted
  · rw [if_neg banned, map_eq_nil_iff] at admitted
    exact absurd admitted banned

theorem isKnown_of_admitted (expression : BundleExpression upper) :
    ∀ token ∈ tokenize expression.expression.toList, token.isKnown = true := by
  intro token member
  have fine := tokenViolation_eq_none expression token member
  cases token with
  | bad => cases fine
  | _ => rfl

end McpAssistant.BusinessQuery.ExpressionGrammar
