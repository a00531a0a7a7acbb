import McpAssistant.Foundations.FlatJson
import McpAssistant.Foundations.PrintedValues
import McpAssistant.Foundations.SignedText

/-!
# Continuation tokens

A continuation token is a signed text whose body names the caller, the
conversation, the question and an expiry.  A token that is presented is opened,
its body compared with the caller, and its id recorded until the expiry, so that
it is not taken again.  Instants are whole seconds.
-/

namespace McpAssistant.Services.ContinuationTokens

open Foundations.JsonReading
open Foundations.JsonText
open Foundations.FlatJson
open Foundations.SignedText
open Foundations.PythonExceptions

/-- `int` of a text: digits, single underscores between them, and a sign. -/
def intOfText (text : String) : Raising Int :=
  let letters := Foundations.PrintedValues.strip text.toList
  let digits := match letters with
    | '-' :: digits => digits
    | '+' :: digits => digits
    | digits => digits
  let plain := digits.filter (· ≠ '_')
  if (digits.splitOn '_').any List.isEmpty || plain.length > maxDigits then
    .error .valueError
  else
    match Foundations.PrintedValues.decimalDigits plain with
    | some value => .ok (if letters.head? = some '-' then -(value : Int) else value)
    | none => .error .valueError

def intOf : Json → Raising Int
  | .integer value => .ok value
  | .boolean value => .ok (if value then 1 else 0)
  | .float value printed =>
    if printed = "nan" then .error .valueError
    else if printed = "inf" || printed = "-inf" then .error .overflowError
    else .ok (value.num.tdiv value.den)
  | .text text => intOfText text
  | .null | .list _ | .dict _ => .error .typeError

def strOfInt (value : Int) : Raising String :=
  if (Nat.toDigits 10 value.natAbs).length ≤ maxDigits then
    .ok (String.ofList (dumpInteger value))
  else .error .valueError

def get (body : Entries) (key : String) : Json :=
  (body.lookup key).getD .null

inductive UserId where
  | number (value : Int)
  | text (value : String)
deriving DecidableEq

def UserId.str : UserId → Raising String
  | .number value => strOfInt value
  | .text value => .ok value

structure Principal where
  userId : UserId
  role : String
  entityId : Option Int := none
  manifestHash : Option String := none
deriving DecidableEq

def defaultTtlSeconds : Int := 300

/-- What a token is made for, under an id of its own. -/
structure Issue where
  jti : String
  principal : Principal
  threadId : Option String := none
  exchangeId : Option String := none
  question : String
  ts : Int
  ttlSeconds : Int := defaultTtlSeconds
deriving DecidableEq

def Issue.exp (issue : Issue) : Int :=
  issue.ts + issue.ttlSeconds

def textOrNull : Option String → Json
  | some text => .text text
  | none => .null

def entryOf (key : String) : Option Json → Entries
  | some value => [(key, value)]
  | none => []

/-- The bytes a body is signed as. -/
def payloadOf (body : Entries) : List UInt8 :=
  encodeUtf8 (String.ofList (printWith escapeAscii (sortKeys (.dict body))))

section Tokens

-- The digest of bytes under the service's key, the hash of a question, how a list or a
-- dictionary is shown as text, what a float literal denotes, and how much deeper than
-- one dictionary the reader follows.
variable (digest : List UInt8 → List UInt8) (sha256 : String → String)
  (reprOf : Json → String) (floatOf : String → Json) (spare : Nat)

def tokenBody (issue : Issue) (user : String) : Entries :=
  [("jti", .text issue.jti), ("user_id", .text user),
    ("role", .text issue.principal.role), ("thread_id", textOrNull issue.threadId),
    ("exchange_id", textOrNull issue.exchangeId),
    ("q_hash", .text (sha256 issue.question)), ("question", .text issue.question),
    ("exp", .integer issue.exp)] ++
  entryOf "entity_id" (issue.principal.entityId.map Json.integer) ++
  entryOf "manifest_hash" (issue.principal.manifestHash.map Json.text)

/-- An integer of too many digits cannot be printed. -/
def signBody (body : Entries) : Raising String :=
  if shortIntegers (.dict body) then .ok (signedText digest (payloadOf body))
  else .error .valueError

def makeContinuationToken (issue : Issue) : Raising String := do
  let user ← issue.principal.userId.str
  signBody digest (tokenBody sha256 issue user)

/-- A token that is presented, and the clock when its expiry is checked and when its
id is recorded or the call ends. -/
structure Use where
  token : String
  principal : Principal
  threadId : Option String := none
  question : Option String := none
  checked : Int
  taken : Int
deriving DecidableEq

def pyStr : Json → Raising String
  | .null => .ok "None"
  | .boolean true => .ok "True"
  | .boolean false => .ok "False"
  | .integer value => strOfInt value
  | .float _ printed => .ok printed
  | .text text => .ok text
  | json => .ok (reprOf json)

def equalsText : Json → Option String → Bool
  | .null, none => true
  | .text text, some other => text = other
  | _, _ => false

/-- Python compares a number with a number by its value. -/
def equalsInt : Json → Option Int → Bool
  | .null, none => true
  | .integer value, some other => value = other
  | .boolean value, some other => (if value then 1 else 0) = other
  | .float value _, some other => value = other
  | _, _ => false

def jtiOf (body : Entries) : Option String :=
  match get body "jti" with
  | .text jti => if jti = "" then none else some jti
  | _ => none

def agrees (use : Use) (body : Entries) : Bool :=
  equalsText (get body "role") (some use.principal.role) &&
    equalsInt (get body "entity_id") use.principal.entityId &&
      ((get body "thread_id").isNull ||
        equalsText (get body "thread_id") use.threadId) &&
        match use.question with
        | none => true
        | some question =>
          equalsText (get body "q_hash") (some (sha256 question)) ||
            equalsText (get body "question") (some question)

/-- The id of a body that fits its caller and has not expired. -/
def checkBody (use : Use) (body : Entries) : Raising (Option String) :=
  match jtiOf body with
  | none => .ok none
  | some jti => do
      let signed ← pyStr reprOf (get body "user_id")
      let presented ← use.principal.userId.str
      if signed ≠ presented || !agrees sha256 use body then return none
      else
        match intOf ((body.lookup "exp").getD (.integer 0)) with
        | .ok exp => if use.checked > exp then return none else return some jti
        | .error .typeError => return none
        | .error .valueError => return none
        | .error raised => throw raised

/-- What a signed payload says. -/
def readBody (payload : List UInt8) : Raising (Option Entries) :=
  match decodeUtf8 payload with
  | none => .ok none
  | some text =>
    match loads floatOf (spare + 1) text with
    | .ok (.dict body) => .ok (some body)
    | .ok _ => .error .attributeError
    | .error .malformed => .ok none
    | .error .tooDeep => .error .recursionError

/-- The body of a token that may be taken, with its id. -/
def validatedBody (use : Use) : Raising (Option (String × Entries)) := do
  match ← openText digest use.token with
  | none => return none
  | some payload =>
    match ← readBody floatOf spare payload with
    | none => return none
    | some body => return (← checkBody sha256 reprOf use body).map (·, body)

/-- The ids that were taken, each until its expiry. -/
abbrev Consumed := List (String × Int)

def prune (consumed : Consumed) (now : Int) : Consumed :=
  consumed.filter fun entry => !decide (now > entry.2)

/-- Expired ids are dropped, and one that is left is not taken again. -/
def take (consumed : Consumed) (jti : String) (exp now : Int) : Bool × Consumed :=
  let kept := prune consumed now
  if hasKey kept jti then (false, kept) else (true, kept ++ [(jti, exp)])

def verifyAndConsume (consumed : Consumed) (use : Use) : Raising (Bool × Consumed) := do
  match ← validatedBody digest sha256 reprOf floatOf spare use with
  | none => return (false, consumed)
  | some (jti, body) =>
    let exp ← intOf (← subscript "exp" body)
    return take consumed jti exp use.taken

end Tokens

def isPlain : Json → Bool
  | .float _ _ | .list _ | .dict _ => false
  | _ => true

/-- A body whose keys are distinct and whose values hold no others. -/
structure Flat (body : Entries) : Prop where
  distinct : (body.map Prod.fst).Nodup
  plain : ∀ entry ∈ body, isPlain entry.2 = true

theorem sortKeys_plain {json : Json} (plain : isPlain json = true) : sortKeys json = json := by
  cases json with
  | float value printed => cases plain
  | list items => cases plain
  | dict entries => cases plain
  | _ => rfl

section ReadBack

variable {floatOf : String → Json} {body : Entries}

theorem Flat.printable (flat : Flat body) (short : shortIntegers (.dict body) = true) :
    Printable floatOf (.dict body) := by
  refine ⟨short, flat.distinct, genuineEntries_iff.mpr ?_⟩
  intro entry member
  have plain := flat.plain entry member
  rcases entry with ⟨key, json⟩
  cases json with
  | float value printed => cases plain
  | list items => cases plain
  | dict entries => cases plain
  | _ => trivial

theorem Flat.depth_le (flat : Flat body) : depth (.dict body) ≤ 1 := by
  apply Nat.succ_le_succ
  apply entriesDepth_le_iff.mpr
  intro entry member
  have plain := flat.plain entry member
  rcases entry with ⟨key, json⟩
  cases json with
  | float value printed => cases plain
  | list items => cases plain
  | dict entries => cases plain
  | _ => exact le_rfl

/-- What was signed is read back, its keys in order. -/
theorem readBody_payloadOf (flat : Flat body) (short : shortIntegers (.dict body) = true)
    (spare : Nat) :
    readBody floatOf spare (payloadOf body) = .ok (some (sortedEntries body)) := by
  have shallow : depth (sortKeys (.dict body)) ≤ spare + 1 := by
    calc depth (sortKeys (.dict body))
        ≤ depth (.dict body) := depth_sortKeys _
      _ ≤ 1 := flat.depth_le
      _ ≤ spare + 1 := Nat.le_add_left 1 spare
  have printable : Printable floatOf (sortKeys (.dict body)) := (flat.printable short).sorted
  have read := loads_printWith spells_escapeAscii printable shallow
  unfold readBody payloadOf
  rw [decodeUtf8_encodeUtf8]
  dsimp only
  rw [read]
  rfl

theorem Flat.lookup_sorted (flat : Flat body) (key : String) :
    (sortedEntries body).lookup key = body.lookup key := by
  rw [lookup_sortedEntries flat.distinct]
  cases found : body.lookup key with
  | none => rfl
  | some json =>
    have plain := flat.plain _ (mem_of_lookup_eq_some found)
    exact congrArg some (sortKeys_plain plain)

theorem Flat.get_sorted (flat : Flat body) (key : String) :
    get (sortedEntries body) key = get body key := by
  unfold get
  rw [flat.lookup_sorted]

end ReadBack

theorem flat_tokenBody (sha256 : String → String) (issue : Issue) (user : String) :
    Flat (tokenBody sha256 issue user) := by
  rcases issue with ⟨jti, ⟨userId, role, entityId, manifestHash⟩, threadId, exchangeId,
    question, ts, ttl⟩
  constructor
  · cases entityId <;> cases manifestHash <;> exact of_decide_eq_true rfl
  · apply List.all_eq_true.mp
    cases threadId <;> cases exchangeId <;> cases entityId <;> cases manifestHash <;> rfl

end McpAssistant.Services.ContinuationTokens
