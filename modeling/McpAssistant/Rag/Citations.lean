import McpAssistant.Foundations.Fallible
import McpAssistant.Foundations.PrintedValues
import McpAssistant.Foundations.Rewriting
import Mathlib.Data.List.TakeWhile
import Mathlib.Data.List.Nodup

/-!
# Citation markers

An answer cites its sources by numbered brackets.  Brackets that name no source are taken
out of it, after one try to have the text repaired.
-/

namespace McpAssistant.Rag.Citations

open Foundations Foundations.PrintedValues Foundations.Rewriting Foundations.Fallible List

abbrev Text := List Char

/-- The values of a source that have their type; the chunk index as it prints. -/
structure Source where
  marker : Option Int
  id : Option String
  sourceFile : Option String
  chunkIndex : Option String

/-- The last binding of a marker stands first. -/
abbrev Bindings := List (Nat × String)

def sourceId (source : Source) (position : Nat) : Option String :=
  (source.id.filter (· != "")).or ((source.sourceFile.filter (· != "")).map fun file =>
    file ++ ":" ++ source.chunkIndex.getD (toString position))

def sourceBindings (sources : List Source) : Bindings :=
  (sources.zipIdx.filterMap fun (source, position) =>
    source.marker.bind fun marker =>
      if marker < 1 then none
      else (sourceId source position).map fun id => (marker.toNat, id)).reverse

/-- One letter of a pattern that ignores case. -/
def sameLetter (pattern letter : Char) : Bool :=
  letter.toLower = pattern || pattern = 's' && letter = 'ſ' ||
    pattern = 'i' && (letter = 'ı' || letter = 'İ')

def afterWord : List Char → Text → Option Text
  | [], text => some text
  | _, [] => none
  | pattern :: word, letter :: text =>
    if sameLetter pattern letter then afterWord word text else none

def afterSource : Text → Option Text :=
  afterWord ['s', 'o', 'u', 'r', 'c', 'e']

def closing : Text → Option Text
  | [] => none
  | letter :: text => if letter = ']' then some [']'] else (closing text).map (letter :: ·)

/-- `fullmatch` of `\[Source\s+(\d+)\s*\]`, with the digits. -/
def markerOf : Text → Option Text
  | '[' :: rest => (afterSource rest).bind fun behind =>
    let inner := behind.dropWhile isSpace
    if behind.head?.any isSpace ∧ inner.head?.any isDecimalDigit ∧
        (inner.dropWhile isDecimalDigit).dropWhile isSpace = [']'] then
      some (inner.takeWhile isDecimalDigit)
    else none
  | _ => none

def numberOf (bracket : Text) : Option Nat :=
  (markerOf bracket).bind decimalDigits

def isBound (bindings : Bindings) (bracket : Text) : Bool :=
  (numberOf bracket).any fun marker => (bindings.lookup marker).isSome

/-- What `replace` puts for a bracket. -/
def shown (bindings : Bindings) (bracket : Text) : Text :=
  if isBound bindings bracket then bracket else []

structure Inspection where
  markers : List Nat := []
  invalid : Nat := 0
  unbound : Nat := 0

def Inspection.bad (seen : Inspection) : Nat :=
  seen.invalid + seen.unbound

def inspectOne (bindings : Bindings) (seen : Inspection) (bracket : Text) : Inspection :=
  match numberOf bracket with
  | none => { seen with invalid := seen.invalid + 1 }
  | some marker =>
    if marker < 1 ∨ (bindings.map Prod.fst).max?.getD 0 < marker then
      { seen with invalid := seen.invalid + 1 }
    else if (bindings.lookup marker).isNone then { seen with unbound := seen.unbound + 1 }
    else if marker ∈ seen.markers then seen
    else { seen with markers := seen.markers ++ [marker] }

inductive Failure where
  | valueError
  | repairFailed

def citedOf (bindings : Bindings) (markers : List Nat) : List (Nat × String) :=
  markers.filterMap fun marker => (bindings.lookup marker).map fun id => (marker, id)

structure CitationFinalization where
  answer : Text
  markers : List Nat
  parsed : Bool
  cited : List (Nat × String)
  invalidMarkers : Nat
  unboundMarkers : Nat
  missingBindings : Nat
  repairAttempted : Bool

section Answers

variable (isWord : Char → Bool) (bindings : Bindings)

/-- `\[\s*Source\b` at the start of a bracket. -/
def opensCitation : Text → Bool
  | '[' :: rest =>
    (afterSource (rest.dropWhile isSpace)).any fun behind => !behind.head?.any isWord
  | _ => false

/-- `_CITATION_LIKE_RE`: nothing before the first closing bracket can match one. -/
def citationAt : Recognizer Char Text :=
  fun _ text => ((closing text).filter (opensCitation isWord)).map fun bracket =>
    (bracket.length - 1, bracket)

def partsOf (text : Text) : Runs Char Text :=
  runs (rewrite (citationAt isWord) none 0 text)

def findings (text : Text) : List Text :=
  (partsOf isWord text).found

/-- `int` reads no numeral of more than 4300 digits. -/
def isReadable (text : Text) : Bool :=
  (findings isWord text).all fun bracket => (markerOf bracket).all (·.length ≤ 4300)

def inspectMarkers (answer : Text) : Except Failure Inspection :=
  if isReadable isWord answer then .ok ((findings isWord answer).foldl (inspectOne bindings) {})
  else .error .valueError

def stripUnboundMarkers (answer : Text) : Except Failure Text :=
  if isReadable isWord answer then
    .ok (textOf (shown bindings) (rewrite (citationAt isWord) none 0 answer))
  else .error .valueError

def isMaterial (answer : Text) : Bool :=
  answer.any isDecimalDigit || (answer.splitOnP (!isWord ·)).any fun run =>
      ["price", "cost", "policy", "procedure", "must", "should", "hour", "hours", "open",
        "close"].any fun word => afterWord word.toList run == some []

def isMissing (first : Inspection) (answer : Text) : Bool :=
  !bindings.isEmpty && first.markers.isEmpty && (findings isWord answer).isEmpty &&
    isMaterial isWord answer

def inspected (answer : Text) : Except Failure (Text × List Nat) :=
  (inspectMarkers isWord bindings answer).map fun seen => (answer, seen.markers)

abbrev Repair := Text → Except Failure (Option Text)

def repaired (repair : Option Repair) (answer : Text) : Except Failure (Option Text) :=
  match repair with
  | some ask => ask answer
  | none => (stripUnboundMarkers isWord bindings answer).map some

def revise (repair : Option Repair) (answer : Text) (first : Inspection) :
    Except Failure (Text × List Nat) := do
  match ← repaired isWord bindings repair answer with
  | some text => inspected isWord bindings text
  | none => .ok (answer, first.markers)

def stripAgain (text : Text) : Except Failure (Text × List Nat) := do
  inspected isWord bindings (← stripUnboundMarkers isWord bindings text)

def finalizeCitations (answer : Text) (sources : List Source) (repair : Option Repair) :
    Except Failure CitationFinalization := do
  let bindings := sourceBindings sources
  let first ← inspectMarkers isWord bindings answer
  let missing := (isMissing isWord bindings first answer).toNat
  let repairAttempted := decide (0 < first.bad + missing)
  let subject ← (if repairAttempted then revise isWord bindings repair answer first
    else .ok (answer, first.markers))
  let final ← (if first.bad = 0 then .ok subject
    else stripAgain isWord bindings subject.1)
  return {
    answer := final.1
    markers := final.2
    parsed := !final.2.isEmpty
    cited := citedOf bindings final.2
    invalidMarkers := first.invalid
    unboundMarkers := first.unbound
    missingBindings := missing
    repairAttempted }

end Answers

/-- A bracket that the pattern finds, as a whole. -/
def IsCitation (isWord : Char → Bool) (bracket : Text) : Prop :=
  closing bracket = some bracket ∧ opensCitation isWord bracket

section Brackets

variable {isWord : Char → Bool} {bindings : Bindings} {text bracket token : Text}

theorem closing_spec (closed : closing text = some bracket) : bracket <+: text ∧
    closing bracket = some bracket ∧ ∀ rest, closing (text ++ rest) = some bracket := by
  induction text generalizing bracket with
  | nil => cases closed
  | cons letter text rest =>
    by_cases isClosing : letter = ']'
    · subst isClosing
      rw [closing, if_pos rfl] at closed
      cases closed
      simp [closing]
    · rw [closing, if_neg isClosing] at closed
      rcases Option.map_eq_some_iff.mp closed with ⟨inner, found, rfl⟩
      rcases rest found with ⟨isPrefix, whole, longer⟩
      simp only [cons_append, closing, if_neg isClosing, whole, longer]
      exact ⟨(prefix_cons_inj letter).mpr isPrefix, rfl, fun _ => rfl⟩

theorem citationAt_eq_some {before : Option Char} {more : Nat}
    (found : citationAt isWord before text = some (more, bracket)) :
    IsCitation isWord bracket ∧ bracket <+: text ∧ more = bracket.length - 1 := by
  rcases Option.map_eq_some_iff.mp found with ⟨other, kept, same⟩
  cases same
  rcases Option.filter_eq_some_iff.mp kept with ⟨closed, opens⟩
  rcases closing_spec closed with ⟨isPrefix, whole, _⟩
  exact ⟨⟨whole, opens⟩, isPrefix, rfl⟩

theorem citationAt_of (before : Option Char) (citation : IsCitation isWord bracket)
    (isPrefix : bracket <+: text) :
    citationAt isWord before text = some (bracket.length - 1, bracket) := by
  rcases isPrefix with ⟨rest, rfl⟩
  simp [citationAt, (closing_spec citation.1).2.2 rest, citation.2]

theorem IsCitation.opens (citation : IsCitation isWord bracket) :
    ∃ rest, bracket = '[' :: rest := by
  rcases citation with ⟨_, opens⟩
  unfold opensCitation at opens
  split at opens
  · exact ⟨_, rfl⟩
  · cases opens

theorem mem_afterWord {word rest : List Char} {letter : Char}
    (other : ∀ pattern ∈ word, sameLetter pattern letter = false)
    (behind : afterWord word text = some rest) (member : letter ∈ text) : letter ∈ rest := by
  induction word generalizing text with
  | nil => exact Option.some.inj behind ▸ member
  | cons pattern word more =>
    cases text with
    | nil => cases behind
    | cons first text =>
      simp only [afterWord] at behind
      split at behind
      case isTrue same =>
        apply more (fun later isLater => other later (mem_cons_of_mem _ isLater)) behind
        rcases List.mem_cons.mp member with rfl | later
        · exact absurd same (by simp [other pattern mem_cons_self])
        · exact later
      case isFalse => cases behind

theorem mem_dropWhile (test : Char → Bool) {letter : Char} (other : test letter = false)
    (member : letter ∈ text) : letter ∈ text.dropWhile test := by
  rw [← @takeWhile_append_dropWhile _ test text] at member
  rcases List.mem_append.mp member with taken | dropped
  · exact absurd (mem_takeWhile_imp taken) (by simp [other])
  · exact dropped

/-- A marker holds no second opening bracket. -/
theorem once_opened (bound : isBound bindings ('[' :: text)) : '[' ∉ text := by
  intro member
  rcases (Option.any_eq_true _ _).mp bound with ⟨marker, isNumber, _⟩
  rcases Option.bind_eq_some_iff.mp isNumber with ⟨digits, isMarker, _⟩
  rcases Option.bind_eq_some_iff.mp isMarker with ⟨behind, isBehind, rest⟩
  have other : ∀ pattern ∈ ['s', 'o', 'u', 'r', 'c', 'e'], sameLetter pattern '[' = false := by
    simp only [forall_mem_cons, not_mem_nil, false_implies, implies_true, and_true]
    exact ⟨rfl, rfl, rfl, rfl, rfl, rfl⟩
  have later := mem_afterWord other isBehind member
  have inner := mem_dropWhile isSpace (by decide) later
  dsimp only at rest
  split at rest
  case isTrue ending =>
    have last := mem_dropWhile isSpace (by decide)
      (mem_dropWhile isDecimalDigit (by decide +kernel) inner)
    rw [ending.2.2] at last
    simp at last
  case isFalse => cases rest

theorem written_of_found {before : Option Char} {skip : Nat}
    (member : bracket ∈ (runs (rewrite (citationAt isWord) before skip text)).found) :
    bracket <:+: text ∧ IsCitation isWord bracket := by
  induction text generalizing before skip with
  | nil =>
    rw [rewrite_nil] at member
    cases member
  | cons letter text rest =>
    cases skip with
    | succ skip => exact (rest member).imp_left infix_cons
    | zero =>
      rcases found : citationAt isWord before (letter :: text) with _ | ⟨more, token⟩
      · rw [rewrite_kept found] at member
        exact (rest member).imp_left infix_cons
      · rw [rewrite_found found] at member
        rcases List.mem_cons.mp member with rfl | later
        · rcases citationAt_eq_some found with ⟨citation, isPrefix, _⟩
          exact ⟨isPrefix.isInfix, citation⟩
        · exact (rest later).imp_left infix_cons

theorem found_of_written {before : Option Char} {skip : Nat}
    (bound : ∀ token ∈ (runs (rewrite (citationAt isWord) before skip text)).found,
      isBound bindings token) (skipped : '[' ∉ text.take skip)
    (inside : bracket <:+: text) (citation : IsCitation isWord bracket) :
    bracket ∈ (runs (rewrite (citationAt isWord) before skip text)).found := by
  induction text generalizing before skip with
  | nil =>
    rw [List.infix_nil.mp inside] at citation
    cases citation.1
  | cons letter text rest =>
    rcases List.infix_cons_iff.mp inside with isPrefix | later
    · cases skip with
      | zero =>
        rw [rewrite_found (citationAt_of before citation isPrefix)]
        exact mem_cons_self
      | succ skip =>
        rcases citation.opens with ⟨tail, rfl⟩
        exact absurd ((List.cons_prefix_cons.mp isPrefix).1 ▸ mem_cons_self) skipped
    · cases skip with
      | succ skip => exact rest bound (fun member => skipped (mem_cons_of_mem _ member)) later
      | zero =>
        rcases found : citationAt isWord before (letter :: text) with _ | ⟨more, token⟩
        · rw [rewrite_kept found] at bound ⊢
          exact rest bound (by simp) later
        · rw [rewrite_found found] at bound ⊢
          apply mem_cons_of_mem
          apply rest (fun other member => bound other (mem_cons_of_mem _ member)) _ later
          rcases citationAt_eq_some found with ⟨isToken, isPrefix, rfl⟩
          rcases isToken.opens with ⟨tail, rfl⟩
          rw [length_cons, Nat.add_sub_cancel,
            ← List.prefix_iff_eq_take.mp (List.cons_prefix_cons.mp isPrefix).2]
          exact once_opened (bound _ mem_cons_self)

theorem eq_of_inside (bound : isBound bindings token) (whole : IsCitation isWord token)
    (inside : bracket <:+: token) (citation : IsCitation isWord bracket) : bracket = token := by
  rcases whole.opens with ⟨rest, rfl⟩
  rcases List.infix_cons_iff.mp inside with ⟨more, split⟩ | later
  · have closed := (closing_spec citation.1).2.2 more
    rw [split, whole.1] at closed
    exact (Option.some.inj closed).symm
  · rcases citation.opens with ⟨tail, rfl⟩
    exact absurd (later.subset mem_cons_self) (once_opened bound)

end Brackets

section Texts

variable (isWord : Char → Bool) (bindings : Bindings) (text : Text)

/-- No bracket of a text is malformed or names no source. -/
def Clean : Prop :=
  ∀ bracket ∈ findings isWord text, isBound bindings bracket

/-- Where brackets are taken out of a text, what closes up spells no bad bracket. -/
def ClosesWell : Prop :=
  ∀ bracket, IsCitation isWord bracket →
    Across bracket ((partsOf isWord text).parts (shown bindings)) → isBound bindings bracket

variable {isWord bindings text}

theorem clean_iff : Clean isWord bindings text ↔
    ∀ bracket, bracket <:+: text → IsCitation isWord bracket → isBound bindings bracket := by
  constructor
  · intro clean bracket inside citation
    exact clean bracket (found_of_written clean (by simp) inside citation)
  · intro bound bracket member
    rcases written_of_found member with ⟨inside, citation⟩
    exact bound bracket inside citation

theorem strip_clean_iff {stripped : Text}
    (strips : stripUnboundMarkers isWord bindings text = .ok stripped) :
    Clean isWord bindings stripped ↔ ClosesWell isWord bindings text := by
  have isFlat : stripped = ((partsOf isWord text).parts (shown bindings)).flatten := by
    unfold stripUnboundMarkers at strips
    split at strips
    · cases strips
      exact (flatten_parts _ _).symm
    · cases strips
  have nonempty : ∀ bracket, IsCitation isWord bracket → bracket ≠ [] := by
    rintro _ citation rfl
    cases citation.1
  rw [clean_iff, isFlat]
  constructor
  · intro bound bracket citation across
    exact bound bracket ((infix_flatten (nonempty bracket citation)).mpr (.inr across)) citation
  · intro closes bracket inside citation
    rcases (infix_flatten (nonempty bracket citation)).mp inside with ⟨part, member, within⟩ | across
    · rcases mem_parts member with isKept | ⟨token, isFound, rfl⟩
      · rcases within with ⟨front, back, whole⟩
        rcases nothing_in_kept isKept ⟨front, by rw [← whole, append_assoc]⟩
            (append_ne_nil_of_left_ne_nil (nonempty bracket citation) back) with
          ⟨earlier, rest, isPrefix, _, nothing⟩
        rw [citationAt_of earlier citation ((prefix_append _ _).trans isPrefix)] at nothing
        cases nothing
      · unfold shown at within
        split at within
        case isTrue bound =>
          exact eq_of_inside bound (written_of_found isFound).2 within citation ▸ bound
        case isFalse => exact absurd (List.infix_nil.mp within) (nonempty bracket citation)
    · exact closes bracket citation across

theorem closesWell_of_none (nothing : findings isWord text = []) :
    ClosesWell isWord bindings text := by
  intro bracket _ across
  rcases across with ⟨before, first, between, last, after, _, _, split, _⟩
  have lengths := congrArg List.length split
  simp [Runs.parts, List.map_eq_nil_iff.mp nothing] at lengths
  omega

end Texts

section Markers

variable {bindings : Bindings} {seen : Inspection} {bracket : Text} {brackets : List Text}
  {mentions : List Nat}

/-- Markers once each, in the order of their first mentions. -/
structure Lists (markers mentions : List Nat) : Prop where
  distinct : markers.Nodup
  mentioned : ∀ marker, marker ∈ markers ↔ marker ∈ mentions
  ordered : markers.Sublist mentions

def Positive (bindings : Bindings) : Prop :=
  ∀ marker, (bindings.lookup marker).isSome → 1 ≤ marker

theorem sourceBindings_positive (sources : List Source) : Positive (sourceBindings sources) := by
  intro marker found
  rcases List.lookup_isSome_iff.mp found with ⟨binding, member, same⟩
  rcases List.mem_filterMap.mp (List.mem_reverse.mp member) with ⟨⟨source, position⟩, _, made⟩
  rcases Option.bind_eq_some_iff.mp made with ⟨number, _, kept⟩
  split at kept
  case isTrue => cases kept
  case isFalse positive =>
    rcases Option.map_eq_some_iff.mp kept with ⟨id, _, rfl⟩
    rw [eq_of_beq same]
    omega

theorem inspectOne_bound (positive : Positive bindings) (bound : isBound bindings bracket) :
    ∃ marker, numberOf bracket = some marker ∧ (bindings.lookup marker).isSome ∧
      inspectOne bindings seen bracket =
        if marker ∈ seen.markers then seen
        else { seen with markers := seen.markers ++ [marker] } := by
  rcases (Option.any_eq_true _ _).mp bound with ⟨marker, isNumber, found⟩
  refine ⟨marker, isNumber, found, ?_⟩
  rcases List.lookup_isSome_iff.mp found with ⟨binding, member, same⟩
  have within : marker ≤ (bindings.map Prod.fst).max?.getD 0 := by
    apply le_max?_getD_of_mem
    exact List.mem_map.mpr ⟨binding, member, (eq_of_beq same).symm⟩
  have atLeast := positive marker found
  simp only [inspectOne, isNumber]
  rw [if_neg (by omega),
    if_neg (Option.isNone_iff_eq_none.not.mpr (Option.isSome_iff_ne_none.mp found))]

theorem inspectOne_bad (positive : Positive bindings) :
    (inspectOne bindings seen bracket).bad = 0 ↔ seen.bad = 0 ∧ isBound bindings bracket := by
  by_cases bound : isBound bindings bracket
  · rcases @inspectOne_bound _ seen _ positive bound with ⟨marker, _, _, same⟩
    rw [same]
    split <;> simp [Inspection.bad, bound]
  · unfold inspectOne
    rcases isNumber : numberOf bracket with _ | marker
    · simp [Inspection.bad, bound]
    · rw [isBound, isNumber, Option.any_some, Option.not_isSome_iff_eq_none] at bound
      simp only [bound, Option.isNone_none, if_true]
      split <;> simp [Inspection.bad, isBound, isNumber, bound]

theorem inspect_bad (positive : Positive bindings) :
    (brackets.foldl (inspectOne bindings) seen).bad = 0 ↔
      seen.bad = 0 ∧ ∀ bracket ∈ brackets, isBound bindings bracket := by
  induction brackets generalizing seen with
  | nil => simp
  | cons bracket brackets rest =>
    rw [foldl_cons, rest, inspectOne_bad positive, forall_mem_cons, and_assoc]

theorem inspect_lists (positive : Positive bindings)
    (bound : ∀ bracket ∈ brackets, isBound bindings bracket) (lists : Lists seen.markers mentions) :
    Lists (brackets.foldl (inspectOne bindings) seen).markers
      (mentions ++ brackets.filterMap numberOf) := by
  induction brackets generalizing seen mentions with
  | nil => simpa using lists
  | cons bracket brackets rest =>
    rcases List.forall_mem_cons.mp bound with ⟨here, later⟩
    rcases @inspectOne_bound _ seen _ positive here with ⟨marker, isNumber, _, same⟩
    rw [foldl_cons, same, filterMap_cons_some isNumber, append_cons mentions]
    apply rest later
    split
    case isTrue known =>
      refine ⟨lists.distinct, ?_, lists.ordered.trans (sublist_append_left _ _)⟩
      intro other
      rw [mem_append, mem_singleton, lists.mentioned]
      exact ⟨.inl, fun either => either.elim id (· ▸ (lists.mentioned marker).mp known)⟩
    case isFalse unknown =>
      refine ⟨?_, ?_, lists.ordered.append (List.Sublist.refl _)⟩
      · apply lists.distinct.append (nodup_singleton marker)
        exact List.disjoint_singleton.mpr unknown
      · intro other
        rw [mem_append, mem_append, lists.mentioned]

end Markers

section Answers

variable {isWord : Char → Bool} {bindings : Bindings} {answer : Text} {repair : Option Repair}

/-- The brackets of an answer all name sources, and the sources cited are those they name,
once each and in the order of their first mentions. -/
structure ExactCitations (isWord : Char → Bool) (bindings : Bindings) (answer : Text)
    (cited : List (Nat × String)) : Prop where
  bound : ∀ bracket, bracket <:+: answer → IsCitation isWord bracket → isBound bindings bracket
  mentioned : ∀ marker, marker ∈ cited.map Prod.fst ↔
    ∃ bracket, bracket <:+: answer ∧ IsCitation isWord bracket ∧ numberOf bracket = some marker
  named : ∀ source ∈ cited, bindings.lookup source.1 = some source.2
  distinct : (cited.map Prod.fst).Nodup
  ordered : (cited.map Prod.fst).Sublist ((findings isWord answer).filterMap numberOf)

theorem exact_iff_clean {last : Inspection} (positive : Positive bindings)
    (inspects : inspectMarkers isWord bindings answer = .ok last) :
    ExactCitations isWord bindings answer (citedOf bindings last.markers) ↔
      Clean isWord bindings answer := by
  rw [inspectMarkers] at inspects
  split at inspects
  case isFalse => cases inspects
  cases inspects
  constructor
  · intro exact
    exact clean_iff.mpr exact.bound
  · intro clean
    have lists := @inspect_lists bindings {} _ [] positive clean ⟨nodup_nil, by simp, .slnil⟩
    generalize (findings isWord answer).foldl (inspectOne bindings) {} = last at lists ⊢
    have markers : (citedOf bindings last.markers).map Prod.fst = last.markers := by
      rw [citedOf, map_filterMap, filterMap_congr, filterMap_some]
      intro marker member
      rcases List.mem_filterMap.mp ((lists.mentioned marker).mp member) with
        ⟨bracket, isFound, isNumber⟩
      have bound := clean bracket isFound
      rw [isBound, isNumber] at bound
      rcases Option.isSome_iff_exists.mp bound with ⟨id, found⟩
      simp [found]
    refine ⟨clean_iff.mp clean, ?_, ?_, ?_, ?_⟩
    · intro marker
      rw [markers, lists.mentioned, nil_append, mem_filterMap]
      constructor
      · rintro ⟨bracket, isFound, isNumber⟩
        rcases written_of_found isFound with ⟨inside, citation⟩
        exact ⟨bracket, inside, citation, isNumber⟩
      · rintro ⟨bracket, inside, citation, isNumber⟩
        exact ⟨bracket, found_of_written clean (by simp) inside citation, isNumber⟩
    · intro source member
      rcases List.mem_filterMap.mp member with ⟨marker, _, made⟩
      rcases Option.map_eq_some_iff.mp made with ⟨id, found, rfl⟩
      exact found
    · rw [markers]
      exact lists.distinct
    · rw [markers]
      exact lists.ordered

/-- An answer without bad brackets is repaired, if at all, by a text without them; and no
bad bracket closes up in the text that is stripped last. -/
structure Acceptable (isWord : Char → Bool) (bindings : Bindings) (repair : Option Repair)
    (answer : Text) : Prop where
  uncited : Clean isWord bindings answer → ∀ first ask text,
    inspectMarkers isWord bindings answer = .ok first → isMissing isWord bindings first answer →
      repair = some ask → ask answer = .ok (some text) → Clean isWord bindings text
  stripped : ¬ Clean isWord bindings answer → ∀ outcome,
    repaired isWord bindings repair answer = .ok outcome →
      ClosesWell isWord bindings (outcome.getD answer)

theorem inspected_eq_ok {text : Text} {final : Text × List Nat}
    (ran : inspected isWord bindings text = .ok final) :
    ∃ last, inspectMarkers isWord bindings text = .ok last ∧ final = (text, last.markers) := by
  rcases map_eq_ok.mp ran with ⟨last, inspects, rfl⟩
  exact ⟨last, inspects, rfl⟩

theorem clean_iff_bad {first : Inspection} (positive : Positive bindings)
    (inspects : inspectMarkers isWord bindings answer = .ok first) :
    Clean isWord bindings answer ↔ first.bad = 0 := by
  rw [inspectMarkers] at inspects
  split at inspects
  case isTrue =>
    cases inspects
    exact ((inspect_bad positive).trans (and_iff_right rfl)).symm
  case isFalse => cases inspects

/-- Where nothing was cited, only a repair can bring in brackets. -/
theorem uncited_clean {first : Inspection} {text : Text}
    (missing : isMissing isWord bindings first answer)
    (repairs : repaired isWord bindings repair answer = .ok (some text)) :
    (∀ ask, repair = some ask → Clean isWord bindings text) ↔ Clean isWord bindings text := by
  cases repair with
  | some ask => simp
  | none =>
    rcases map_eq_ok.mp repairs with ⟨stripped, strips, same⟩
    cases same
    have nothing : findings isWord answer = [] := by
      simp only [isMissing, Bool.and_eq_true, List.isEmpty_iff] at missing
      exact missing.1.2
    simp [(strip_clean_iff strips).mpr (closesWell_of_none nothing)]

theorem revise_eq_ok {first : Inspection} {subject : Text × List Nat}
    (inspects : inspectMarkers isWord bindings answer = .ok first)
    (revised : revise isWord bindings repair answer first = .ok subject) :
    ∃ outcome last, repaired isWord bindings repair answer = .ok outcome ∧
      inspectMarkers isWord bindings (outcome.getD answer) = .ok last ∧
      subject = (outcome.getD answer, last.markers) := by
  rcases bind_eq_ok.mp revised with ⟨outcome, repairs, rest⟩
  cases outcome with
  | none =>
    cases rest
    exact ⟨none, first, repairs, inspects, rfl⟩
  | some text =>
    rcases inspected_eq_ok rest with ⟨last, inspectsLast, rfl⟩
    exact ⟨some text, last, repairs, inspectsLast, rfl⟩

theorem finalize_exact_iff {sources : List Source} {result : CitationFinalization}
    (returned : finalizeCitations isWord answer sources repair = .ok result) :
    ExactCitations isWord (sourceBindings sources) result.answer result.cited ↔
      Acceptable isWord (sourceBindings sources) repair answer := by
  have positive := sourceBindings_positive sources
  simp only [finalizeCitations, bind_eq_ok] at returned
  generalize sourceBindings sources = bindings at returned positive ⊢
  rcases returned with ⟨first, inspects, subject, revised, final, finished, same⟩
  cases same
  have isClean := clean_iff_bad positive inspects
  by_cases bad : first.bad = 0
  · have clean := isClean.mpr bad
    rw [if_pos bad] at finished
    cases finished
    cases missing : isMissing isWord bindings first answer with
    | false =>
      simp only [bad, missing, Bool.toNat_false, Nat.lt_irrefl, decide_false] at revised
      cases revised
      apply iff_of_true ((exact_iff_clean positive inspects).mpr clean)
      refine ⟨?_, fun dirty => absurd clean dirty⟩
      intro _ other _ _ inspectsOther missingOther
      cases inspects.symm.trans inspectsOther
      exact absurd missingOther (by simp [missing])
    | true =>
      simp only [bad, missing, Bool.toNat_true, Nat.zero_add, Nat.one_pos, decide_true,
        if_true] at revised
      rcases revise_eq_ok inspects revised with ⟨outcome, last, repairs, inspectsLast, rfl⟩
      apply (exact_iff_clean positive inspectsLast).trans
      constructor
      · intro cleanOutcome
        refine ⟨?_, fun dirty => absurd clean dirty⟩
        rintro _ _ ask text _ _ rfl asks
        cases (repairs.symm.trans asks : _)
        exact cleanOutcome
      · intro acceptable
        cases outcome with
        | none => exact clean
        | some text =>
          apply (uncited_clean missing repairs).mp
          rintro ask rfl
          exact acceptable.uncited clean first ask text inspects missing rfl repairs
  · have attempted : 0 < first.bad + (isMissing isWord bindings first answer).toNat :=
      Nat.lt_of_lt_of_le (Nat.pos_of_ne_zero bad) (Nat.le_add_right _ _)
    rw [if_neg bad, stripAgain, bind_eq_ok] at finished
    rw [if_pos (decide_eq_true attempted)] at revised
    rcases revise_eq_ok inspects revised with ⟨outcome, _, repairs, _, rfl⟩
    rcases finished with ⟨stripped, strips, again⟩
    rcases inspected_eq_ok again with ⟨last, inspectsLast, rfl⟩
    apply (exact_iff_clean positive inspectsLast).trans ((strip_clean_iff strips).trans _)
    constructor
    · intro closes
      refine ⟨fun clean => absurd (isClean.mp clean) bad, ?_⟩
      intro _ other repairsOther
      cases repairs.symm.trans repairsOther
      exact closes
    · intro acceptable
      exact acceptable.stripped (fun clean => bad (isClean.mp clean)) outcome repairs

end Answers

section Example

/-- One source, numbered 1. -/
def handbook : List Source :=
  [{ marker := some 1, id := some "handbook", sourceFile := none, chunkIndex := none }]

def citesNine : Repair :=
  fun answer => .ok (some (answer ++ " [Source 9]".toList))

def finalized : Except Failure CitationFinalization :=
  finalizeCitations Char.isAlphanum "At 5".toList handbook (some citesNine)

def released : CitationFinalization :=
  { answer := "At 5 [Source 9]".toList, markers := [], parsed := false, cited := []
    invalidMarkers := 0, unboundMarkers := 0, missingBindings := 1, repairAttempted := true }

theorem released_iff :
    ExactCitations Char.isAlphanum (sourceBindings handbook) released.answer released.cited ↔
      Acceptable Char.isAlphanum (sourceBindings handbook) (some citesNine) "At 5".toList :=
  finalize_exact_iff (show finalized = .ok released from rfl)

theorem out_of_range_released : ¬ ∀ result, finalized = .ok result →
    ExactCitations Char.isAlphanum (sourceBindings handbook) result.answer result.cited := by
  intro exact
  have bound := (exact released rfl).bound "[Source 9]".toList
    ⟨"At 5 ".toList, [], by decide +kernel⟩ ⟨by decide +kernel, by decide +kernel⟩
  exact absurd bound (by decide +kernel)

end Example

end McpAssistant.Rag.Citations
