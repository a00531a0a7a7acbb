import McpAssistant.BusinessQuery.NameResolution

/-!
# Token matching

A name is matched token by token.  Of the tokens of a phrase each is looked for once, and no
more than twelve; a name is read in the same way.
-/

namespace McpAssistant.BusinessQuery.TokenMatching

open NameResolution List
open Foundations.PrintedValues (isDecimalDigit)

variable (unicode : Unicode)

/-- All tokens of a text, with their repetitions. -/
def tokensOf (raw : List Char) : List (List Char) :=
  (words (unicode.casefold (normalizeLookupValue unicode raw))).flatMap
    (splitBy fun before letter => isDecimalDigit before == isDecimalDigit letter)

/-- A number fits an equal one only, a word one that contains it. -/
def Fits (token other : List Char) : Prop :=
  if isNumeric unicode token then other = token
  else isNumeric unicode other = false ∧ token <:+: other

def Embeds : List (List Char) → List (List Char) → Prop :=
  SublistForall₂ (Fits unicode)

/-- No token is dropped of these. -/
def IsWhole (tokens : List (List Char)) : Prop :=
  tokens.Nodup ∧ tokens.length ≤ maxLookupTokens

variable {unicode} {token other : List Char} {tokens names : List (List Char)}

theorem carries_iff : carries unicode token other = true ↔ Fits unicode token other := by
  have inside : other.tails.any token.isPrefixOf = true ↔ token <:+: other := by
    rw [any_eq_true, infix_iff_prefix_suffix]
    constructor
    · rintro ⟨rest, behind, starts⟩
      exact ⟨rest, isPrefixOf_iff_prefix.mp starts, (mem_tails _ _).mp behind⟩
    · rintro ⟨rest, starts, behind⟩
      exact ⟨rest, (mem_tails _ _).mpr behind, isPrefixOf_iff_prefix.mpr starts⟩
  unfold carries Fits
  cases numeric : isNumeric unicode token with
  | true => simp
  | false =>
    rw [if_neg nofun, Bool.or_eq_true, Bool.and_eq_true, Bool.and_eq_true, inside,
      decide_eq_true_iff]
    constructor
    · rintro (rfl | ⟨⟨_, word⟩, contained⟩)
      · exact ⟨numeric, infix_refl other⟩
      · exact ⟨by simpa using word, contained⟩
    · rintro ⟨word, contained⟩
      exact Or.inr ⟨⟨rfl, by simpa using word⟩, contained⟩

theorem Embeds.rest (embeds : Embeds unicode (token :: tokens) names) :
    Embeds unicode tokens names := by
  induction names with
  | nil => cases embeds
  | cons name names later =>
    cases embeds with
    | cons _ behind => exact SublistForall₂.cons_right behind
    | cons_right behind => exact SublistForall₂.cons_right (later behind)

/-- Taking the first name that fits is as good as any choice. -/
theorem carriesInOrder_iff :
    carriesInOrder unicode names tokens = true ↔ Embeds unicode tokens names := by
  induction names generalizing tokens with
  | nil =>
    cases tokens with
    | nil => exact ⟨fun _ => SublistForall₂.nil, fun _ => rfl⟩
    | cons token tokens => exact ⟨nofun, nofun⟩
  | cons name names later =>
    cases tokens with
    | nil => exact ⟨fun _ => SublistForall₂.nil, fun _ => rfl⟩
    | cons token tokens =>
      rw [carriesInOrder, dropWhile_cons]
      cases fits : carries unicode token name with
      | true =>
        rw [if_neg nofun]
        constructor
        · intro carried
          exact SublistForall₂.cons (carries_iff.mp fits) (later.mp carried)
        · intro embeds
          cases embeds with
          | cons _ behind => exact later.mpr behind
          | cons_right behind => exact later.mpr (Embeds.rest behind)
      | false =>
        rw [if_pos (show (!false) = true from rfl)]
        show carriesInOrder unicode names (token :: tokens) = true ↔ _
        rw [later]
        constructor
        · exact SublistForall₂.cons_right
        · intro embeds
          cases embeds with
          | cons here _ =>
            rw [carries_iff.mpr here] at fits
            cases fits
          | cons_right behind => exact behind

theorem eraseDups_sublist (tokens : List (List Char)) : tokens.eraseDups <+ tokens := by
  induction sized : tokens.length using Nat.strongRecOn generalizing tokens with
  | ind size shorter =>
    cases tokens with
    | nil => exact nil_sublist []
    | cons token tokens =>
      have less : (tokens.filter fun other => !other == token).length < size :=
        sized ▸ Nat.lt_succ_of_le (length_filter_le _ tokens)
      rw [eraseDups_cons]
      exact ((shorter _ less _ rfl).trans filter_sublist).cons_cons token

theorem eraseDups_of_nodup (distinct : tokens.Nodup) : tokens.eraseDups = tokens := by
  induction tokens with
  | nil => rfl
  | cons token tokens later =>
    rcases nodup_cons.mp distinct with ⟨fresh, others⟩
    have apart : tokens.filter (fun other => !other == token) = tokens := by
      apply filter_eq_self.mpr
      intro other member
      rw [beq_eq_false_iff_ne.mpr fun same : other = token => fresh (same ▸ member)]
      rfl
    rw [eraseDups_cons, apart, later others]

theorem lookupTokens_of_whole {raw : List Char} (whole : IsWhole (tokensOf unicode raw)) :
    lookupTokens unicode raw = tokensOf unicode raw := by
  show (tokensOf unicode raw).eraseDups.take maxLookupTokens = _
  rw [eraseDups_of_nodup whole.1, take_of_length_le whole.2]

/-- Names without repeated tokens, and not too long, are read whole; no name is matched that
does not carry the tokens of the phrase that are looked for. -/
theorem tokenMatch_iff_embeds (candidate phrase : List Char) :
    (tokenMatch unicode candidate (lookupTokens unicode phrase) = true →
      Embeds unicode (lookupTokens unicode phrase) (tokensOf unicode candidate)) ∧
    (IsWhole (tokensOf unicode candidate) →
      (tokenMatch unicode candidate (lookupTokens unicode phrase) = true ↔
        Embeds unicode (lookupTokens unicode phrase) (tokensOf unicode candidate))) ∧
    (IsWhole (tokensOf unicode phrase) → lookupTokens unicode phrase = tokensOf unicode phrase) := by
  refine ⟨fun matched => ?_, fun whole => ?_, lookupTokens_of_whole⟩
  · rcases sublistForall₂_iff.mp (carriesInOrder_iff.mp matched) with ⟨kept, fits, part⟩
    exact sublistForall₂_iff.mpr
      ⟨kept, fits, part.trans ((take_sublist _ _).trans (eraseDups_sublist _))⟩
  · rw [tokenMatch, carriesInOrder_iff, lookupTokens_of_whole whole]

theorem fiveFive_matches_five :
    ¬(tokenMatch plainUnicode "5".toList (lookupTokens plainUnicode "5 5".toList) = true ↔
      Embeds plainUnicode (tokensOf plainUnicode "5 5".toList)
        (tokensOf plainUnicode "5".toList)) := by
  intro same
  have embeds := same.mp (by decide +kernel)
  rcases sublistForall₂_iff.mp embeds with ⟨kept, fits, part⟩
  have longer := fits.length_eq.trans_le part.length_le
  exact absurd longer (by decide +kernel)

end McpAssistant.BusinessQuery.TokenMatching
