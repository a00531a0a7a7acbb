import McpAssistant.Panel.TurnStore

/-!
# The body of a request

The panel's request is rewritten before it is sent.  A regenerate, and a request to
simplify, after an authorized restore is bound to a restored turn: it is written from
that turn, and the panel's run and contexts are put back.  Every other request is
written from itself.
-/

namespace McpAssistant.Panel.ProtocolBodies

open Foundations.JsonReading TurnStore

/-- What the panel supplies; an empty text is a missing one. -/
structure PanelRequest where
  operation : String := "ask"
  question : Option String := none
  continuationRef : Option String := none
  clarificationChoiceId : String := ""
  clarificationFreeText : String := ""
  idempotencyKey : String := ""
  threadId : String := ""
  targetExchangeId : String := ""
  runId : String := ""
  pageContext : Option Json := none
  recordContext : Option Json := none

inductive Operation
  | newQuestion
  | regenerate
  | clarificationReply
deriving DecidableEq

structure ProtocolBody where
  operation : Operation
  runId : String
  threadId : String
  idempotencyKey : String
  deadlineAtMs : Int
  continuationRef : Option String := none
  clarificationChoiceId : Option String := none
  clarificationFreeText : Option String := none
  question : Option String := none
  pageContext : Option Json := none
  recordContext : Option Json := none

/-- What the environment gives: the clock, the random texts drawn for missing ids, and
the trimmed text in lower case. -/
structure Environment where
  now : Int
  drawnRun : String
  drawnThread : String
  drawnKey : String
  trim : String → String
  toLowerCase : String → String

def clientTimeoutMs : Int := 25000

def orElse (value fallback : String) : String :=
  if value = "" then fallback else value

section Rewriting

variable (environment : Environment)

/-- A clarification reply has exactly one of a choice and a free text. -/
def buildV2Body (request : PanelRequest) : Except String ProtocolBody :=
  let body (operation : Operation) : ProtocolBody := {
    operation
    runId := orElse request.runId environment.drawnRun
    threadId := orElse request.threadId s!"th-{environment.drawnThread}"
    idempotencyKey := orElse request.idempotencyKey s!"idemp-{environment.drawnKey}"
    deadlineAtMs := environment.now + clientTimeoutMs
    pageContext := request.pageContext
    recordContext := request.recordContext }
  if request.operation = "regenerate" then
    .ok { body .regenerate with continuationRef := some request.targetExchangeId }
  else if request.operation = "clarification_reply" then
    if request.clarificationChoiceId = "" ↔ request.clarificationFreeText = "" then
      .error "clarification_reply needs exactly one of choice id or free text"
    else if request.clarificationChoiceId ≠ "" then
      .ok { body .clarificationReply with
        continuationRef := request.continuationRef
        clarificationChoiceId := some request.clarificationChoiceId }
    else
      .ok { body .clarificationReply with
        continuationRef := request.continuationRef
        clarificationFreeText := some request.clarificationFreeText }
  else .ok { body .newQuestion with question := request.question }

/-! ## Restored turns -/

def isExplanationFollowup (question : Option String) : Bool :=
  question.any fun text => environment.toLowerCase (environment.trim text) = "simplify that"

def isAuthorizedCacheRestore (turn : Turn) : Bool :=
  turn.restoreRef ≠ "" && (turn.evidence.exchangeId ≠ "" ||
    turn.evidence.sourceExchangeIds.any fun ids => ids.any fun id => id ≠ "")

def matchesRestoredExchange (turn : Turn) (target : String) : Bool :=
  turn.evidence.exchangeId = target ||
    turn.evidence.sourceExchangeIds.any fun ids => ids.contains target

def restoredTurns (store : Store) : List Turn :=
  (store.turns.map Prod.snd).filter isAuthorizedCacheRestore

def boundPool (store : Store) (request : PanelRequest) : List Turn :=
  let restored := restoredTurns store
  let ofThread :=
    if request.threadId = "" then restored
    else restored.filter fun turn => turn.evidence.threadId = request.threadId
  if ofThread = [] then restored else ofThread

def activeRestoredTurn (store : Store) (request : PanelRequest) : Option Turn :=
  if request.targetExchangeId ≠ "" then
    (boundPool store request).find? fun turn =>
      matchesRestoredExchange turn request.targetExchangeId
  else (boundPool store request).getLast?

def continuationOf (turn : Turn) : String :=
  orElse turn.evidence.exchangeId ((turn.evidence.sourceExchangeIds.bind List.head?).getD "")

def regenerateFromRestoredTurn (turn : Turn) : Except String ProtocolBody :=
  buildV2Body environment {
    operation := "regenerate"
    targetExchangeId := continuationOf turn
    threadId := turn.evidence.threadId }

def explainFromRestoredTurn (turn : Turn) (question : String) : Except String ProtocolBody :=
  buildV2Body environment {
    operation := "ask"
    question := some (orElse question "simplify that")
    threadId := turn.evidence.threadId }

def bindPanelIds (body : ProtocolBody) (request : PanelRequest) : ProtocolBody :=
  { body with
    runId := orElse request.runId body.runId
    pageContext := request.pageContext.or body.pageContext
    recordContext := request.recordContext.or body.recordContext }

def boundTurn (store : Store) (request : PanelRequest) : Option Turn :=
  if request.operation = "regenerate" ∨
      isExplanationFollowup environment request.question = true then
    activeRestoredTurn store request
  else none

def buildProtocolBody (store : Store) (request : PanelRequest) : Except String ProtocolBody :=
  match boundTurn environment store request with
  | none => buildV2Body environment request
  | some turn =>
    if request.operation = "regenerate" then
      (regenerateFromRestoredTurn environment turn).map (bindPanelIds · request)
    else
      (explainFromRestoredTurn environment turn
        (environment.trim (request.question.getD ""))).map (bindPanelIds · request)

end Rewriting

structure Rewrite (environment : Environment) (store : Store) where
  request : PanelRequest
  body : ProtocolBody
  thread : request.threadId ≠ ""
  run : request.runId ≠ ""
  key : request.idempotencyKey ≠ ""
  target : request.operation = "regenerate" → request.targetExchangeId ≠ ""
  built : buildProtocolBody environment store request = .ok body

section Rewritten

variable {environment : Environment} {store : Store}

structure Carries (rewrite : Rewrite environment store) : Prop where
  thread : rewrite.body.threadId = rewrite.request.threadId
  run : rewrite.body.runId = rewrite.request.runId
  key : rewrite.body.idempotencyKey = rewrite.request.idempotencyKey
  target : rewrite.request.operation = "regenerate" →
    rewrite.body.continuationRef = some rewrite.request.targetExchangeId

structure BoundTo (rewrite : Rewrite environment store) (turn : Turn) : Prop where
  restored : turn ∈ restoredTurns store
  matched : rewrite.request.operation = "regenerate" →
    matchesRestoredExchange turn rewrite.request.targetExchangeId = true ∧
      rewrite.body.operation = .regenerate ∧
        rewrite.body.continuationRef = some (continuationOf turn)
  explains : rewrite.request.operation ≠ "regenerate" →
    rewrite.body.operation = .newQuestion
  thread : turn.evidence.threadId ≠ "" → rewrite.body.threadId = turn.evidence.threadId
  own : (∃ other ∈ restoredTurns store, other.evidence.threadId = rewrite.request.threadId) →
    rewrite.body.threadId = rewrite.request.threadId

/-- What survives of a request: its run always, all of its ids where it is written from
itself, and else those of the restored turn it is bound to. -/
structure Survives (rewrite : Rewrite environment store) : Prop where
  run : rewrite.body.runId = rewrite.request.runId
  ordinary : boundTurn environment store rewrite.request = none → Carries rewrite
  bound : ∀ turn, boundTurn environment store rewrite.request = some turn → BoundTo rewrite turn

theorem orElse_of_given {value fallback : String} (given : value ≠ "") :
    orElse value fallback = value :=
  if_neg given

variable {request : PanelRequest} {body : ProtocolBody}

theorem buildV2Body_ids (built : buildV2Body environment request = .ok body) :
    body.threadId = orElse request.threadId s!"th-{environment.drawnThread}" ∧
      body.runId = orElse request.runId environment.drawnRun ∧ body.idempotencyKey =
          orElse request.idempotencyKey s!"idemp-{environment.drawnKey}" := by
  rw [buildV2Body] at built
  split at built
  · cases built
    exact ⟨rfl, rfl, rfl⟩
  · split at built
    · split at built
      · cases built
      · split at built
        · cases built
          exact ⟨rfl, rfl, rfl⟩
        · cases built
          exact ⟨rfl, rfl, rfl⟩
    · cases built
      exact ⟨rfl, rfl, rfl⟩

theorem buildV2Body_regenerate (built : buildV2Body environment request = .ok body)
    (regenerates : request.operation = "regenerate") :
    body.operation = .regenerate ∧ body.continuationRef = some request.targetExchangeId := by
  rw [buildV2Body, if_pos regenerates] at built
  cases built
  exact ⟨rfl, rfl⟩

theorem carries_of_unbound (rewrite : Rewrite environment store)
    (unbound : boundTurn environment store rewrite.request = none) : Carries rewrite := by
  have built := rewrite.built
  rw [buildProtocolBody, unbound] at built
  rcases buildV2Body_ids built with ⟨thread, run, key⟩
  constructor
  · rw [thread, orElse_of_given rewrite.thread]
  · rw [run, orElse_of_given rewrite.run]
  · rw [key, orElse_of_given rewrite.key]
  · intro regenerates
    exact (buildV2Body_regenerate built regenerates).2

variable {turn : Turn}

theorem boundPool_subset
    (pooled : turn ∈ boundPool store request) : turn ∈ restoredTurns store := by
  rw [boundPool] at pooled
  split at pooled
  · split at pooled
    · exact pooled
    · exact pooled
  · split at pooled
    · exact pooled
    · exact List.mem_of_mem_filter pooled

theorem threadId_of_boundPool (thread : request.threadId ≠ "")
    (own : ∃ other ∈ restoredTurns store, other.evidence.threadId = request.threadId)
    (pooled : turn ∈ boundPool store request) :
    turn.evidence.threadId = request.threadId := by
  rcases own with ⟨other, restored, isOwn⟩
  rw [boundPool, if_neg thread] at pooled
  have some : (restoredTurns store).filter
      (fun turn => turn.evidence.threadId = request.threadId) ≠ [] := by
    apply List.ne_nil_of_mem
    exact List.mem_filter.mpr ⟨restored, decide_eq_true isOwn⟩
  rw [if_neg some] at pooled
  exact of_decide_eq_true (List.mem_filter.mp pooled).2

theorem mem_of_activeRestoredTurn (active : activeRestoredTurn store request = some turn) :
    turn ∈ boundPool store request := by
  rw [activeRestoredTurn] at active
  split at active
  · exact List.mem_of_find?_eq_some active
  · exact List.mem_of_getLast? active

theorem activeRestoredTurn_of_boundTurn (bound : boundTurn environment store request = some turn) :
    activeRestoredTurn store request = some turn := by
  rw [boundTurn] at bound
  split at bound
  · exact bound
  · cases bound

theorem built_of_boundTurn (rewrite : Rewrite environment store)
    (bound : boundTurn environment store rewrite.request = some turn) :
    ∃ body, rewrite.body = bindPanelIds body rewrite.request ∧
      ((rewrite.request.operation = "regenerate" ∧
          regenerateFromRestoredTurn environment turn = .ok body) ∨
        (rewrite.request.operation ≠ "regenerate" ∧
          explainFromRestoredTurn environment turn
            (environment.trim (rewrite.request.question.getD "")) = .ok body)) := by
  have built := rewrite.built
  rw [buildProtocolBody, bound] at built
  dsimp only at built
  split at built
  · rename_i regenerates
    rcases made : regenerateFromRestoredTurn environment turn with refusal | body
    · rw [made] at built
      cases built
    · rw [made] at built
      exact ⟨body, (Except.ok.inj built).symm, .inl ⟨regenerates, rfl⟩⟩
  · rename_i explains
    rcases made : explainFromRestoredTurn environment turn
      (environment.trim (rewrite.request.question.getD "")) with refusal | body
    · rw [made] at built
      cases built
    · rw [made] at built
      exact ⟨body, (Except.ok.inj built).symm, .inr ⟨explains, rfl⟩⟩

theorem boundTo_of_bound (rewrite : Rewrite environment store)
    (bound : boundTurn environment store rewrite.request = some turn) :
    BoundTo rewrite turn := by
  have active := activeRestoredTurn_of_boundTurn bound
  have pooled := mem_of_activeRestoredTurn active
  rcases built_of_boundTurn rewrite bound with ⟨body, isBody, written⟩
  have thread : turn.evidence.threadId ≠ "" →
      rewrite.body.threadId = turn.evidence.threadId := by
    intro named
    rw [isBody]
    rcases written with ⟨_, made⟩ | ⟨_, made⟩ <;>
      exact (buildV2Body_ids made).1.trans (orElse_of_given named)
  constructor
  · exact boundPool_subset pooled
  · intro regenerates
    rcases written with ⟨_, made⟩ | ⟨explains, _⟩
    · refine ⟨?_, ?_⟩
      · rw [activeRestoredTurn, if_pos (rewrite.target regenerates)] at active
        have matched := List.find?_some active
        exact matched
      · rw [isBody]
        exact buildV2Body_regenerate made rfl
    · exact absurd regenerates explains
  · intro explains
    rcases written with ⟨regenerates, _⟩ | ⟨_, made⟩
    · exact absurd regenerates explains
    · rw [isBody]
      rw [explainFromRestoredTurn, buildV2Body] at made
      cases made
      rfl
  · exact thread
  · intro own
    have same := threadId_of_boundPool rewrite.thread own pooled
    rw [← same]
    apply thread
    rw [same]
    exact rewrite.thread

theorem run_of_rewrite (rewrite : Rewrite environment store) :
    rewrite.body.runId = rewrite.request.runId := by
  rcases bound : boundTurn environment store rewrite.request with _ | turn
  · exact (carries_of_unbound rewrite bound).run
  · rcases built_of_boundTurn rewrite bound with ⟨body, isBody, _⟩
    rw [isBody]
    exact orElse_of_given rewrite.run

/-- What the rewrite keeps of a request, for any content of the store. -/
theorem survives (rewrite : Rewrite environment store) : Survives rewrite where
  run := run_of_rewrite rewrite
  ordinary := carries_of_unbound rewrite
  bound _ := boundTo_of_bound rewrite

end Rewritten

def plainEnvironment : Environment where
  now := 0
  drawnRun := "run"
  drawnThread := "thread"
  drawnKey := "key"
  trim text := text
  toLowerCase text := text

def restoredCopy : Turn where
  msgId := "m"
  restoreRef := "ref"
  evidence := {
    exchangeId := "e2"
    sourceExchangeIds := some ["e1"]
    threadId := "b" }

def regenerateCopy : Rewrite plainEnvironment { turns := [("m", restoredCopy)] } where
  request := {
    operation := "regenerate"
    idempotencyKey := "k"
    threadId := "a"
    targetExchangeId := "e1"
    runId := "r" }
  body := {
    operation := .regenerate
    runId := "r"
    threadId := "b"
    idempotencyKey := "idemp-key"
    deadlineAtMs := 25000
    continuationRef := some "e2" }
  thread := by decide
  run := by decide
  key := by decide
  target _ := by decide
  built := by rfl

/-- The body continues e2, in thread b. -/
theorem regenerateCopy_not_carried : ¬ Carries regenerateCopy := by
  intro carries
  have target := carries.target rfl
  revert target
  decide

end McpAssistant.Panel.ProtocolBodies
