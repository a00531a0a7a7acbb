import McpAssistant.Foundations.Interleaving
import McpAssistant.Services.ContinuationTokens

/-!
# Taking continuation tokens

One key signs continuation tokens, clarification tickets and feedback tokens.  A
continuation token is taken at most once, in time and by the caller it was made
for, as long as its policy manifest is the caller's, it does not expire between
the two readings of the clock, and it is spelled as it was made.
-/

namespace McpAssistant.Services.TokenConsumption

open Foundations.Fallible
open Foundations.Interleaving
open Foundations.JsonReading
open Foundations.JsonText
open Foundations.SignedText
open Foundations.PythonExceptions
open ContinuationTokens

inductive Grant where
  | continuation (issue : Issue)
  | ticket (jti : String) (ts ttlSeconds : Int)
  | feedback (traceId : String) (principal : Principal) (ts ttlSeconds : Int)

def Grant.ts : Grant → Int
  | .continuation issue => issue.ts
  | .ticket _ ts _ => ts
  | .feedback _ _ ts _ => ts

def ticketBody (jti : String) (exp : Int) : Entries :=
  [("version", .text "2"), ("key_id", .text "v1"), ("jti", .text jti), ("exp", .integer exp)]

def feedbackBody (traceId user : String) (principal : Principal) (exp : Int) : Entries :=
  [("trace_id", .text traceId), ("user_id", .text user), ("role", .text principal.role),
    ("exp", .integer exp)] ++
  entryOf "entity_id" (principal.entityId.map Json.integer)

section Runs

variable (digest : List UInt8 → List UInt8) (sha256 : String → String)
  (reprOf : Json → String) (floatOf : String → Json) (spare : Nat)

def Grant.body : Grant → Raising Entries
  | .continuation issue => return tokenBody sha256 issue (← issue.principal.userId.str)
  | .ticket jti ts ttl => .ok (ticketBody jti (ts + ttl))
  | .feedback traceId principal ts ttl =>
    return feedbackBody traceId (← principal.userId.str) principal (ts + ttl)

def Signs (grant : Grant) (payload : List UInt8) : Prop :=
  ∃ body, grant.body sha256 = .ok body ∧ shortIntegers (.dict body) = true ∧
    payload = payloadOf body

/-- The clock, the ids that were taken, and what was granted and taken so far. -/
structure World where
  clock : Int
  consumed : Consumed := []
  granted : List Grant := []
  accepted : List Use := []

inductive Call where
  | grant (grant : Grant)
  | consume (use : Use)

def step (call : Call) (world : World) : World :=
  match call with
  | .grant grant =>
    { world with clock := grant.ts, granted := grant :: world.granted }
  | .consume use =>
    match verifyAndConsume digest sha256 reprOf floatOf spare world.consumed use with
    | .ok (true, consumed) =>
      { world with
        clock := use.taken
        consumed
        accepted := use :: world.accepted }
    | .ok (false, consumed) => { world with clock := use.taken, consumed }
    | .error _ => { world with clock := use.taken }

/-- Clocks do not go back. -/
def InOrder (world : World) : Call → Prop
  | .grant grant => world.clock ≤ grant.ts
  | .consume use => world.clock ≤ use.checked ∧ use.checked ≤ use.taken

/-- A signature under the key is one the service made. -/
def Unforged (world : World) : Call → Prop
  | .grant _ => True
  | .consume use => ∀ payload, openText digest use.token = .ok (some payload) →
      ∃ grant ∈ world.granted, Signs sha256 grant payload

/-- The policy manifest is the caller's, and a token that has not expired when it is
checked has not expired when it is taken. -/
structure Fits (issue : Issue) (use : Use) : Prop where
  manifest : use.principal.manifestHash = issue.principal.manifestHash
  inTime : use.checked ≤ issue.exp → use.taken ≤ issue.exp

def Careful (world : World) : Call → Prop
  | .grant _ => True
  | .consume use => Spelled use.token ∧ ∀ issue, .continuation issue ∈ world.granted →
        ∀ payload, Signs sha256 (.continuation issue) payload →
          openText digest use.token = .ok (some payload) → Fits issue use

/-- What holds of the clock and of the key. -/
structure Honest (world : World) (call : Call) : Prop where
  inOrder : InOrder world call
  unforged : Unforged digest sha256 world call

/-- And what is asked of who presents a token. -/
structure Orderly (world : World) (call : Call) : Prop extends Honest digest sha256 world call where
  careful : Careful digest sha256 world call

/-- A token was made for an issue and is taken in time by the same caller. -/
structure Bound (world : World) (use : Use) (issue : Issue) : Prop where
  granted : .continuation issue ∈ world.granted
  token : makeContinuationToken digest sha256 issue = .ok use.token
  checked : use.checked ≤ issue.exp
  taken : use.taken ≤ issue.exp
  user : use.principal.userId.str = issue.principal.userId.str
  role : use.principal.role = issue.principal.role
  entity : use.principal.entityId = issue.principal.entityId
  manifest : use.principal.manifestHash = issue.principal.manifestHash

/-- No token is taken twice, and each is taken as it was issued. -/
structure Sound (world : World) : Prop where
  once : (world.accepted.map Use.token).Nodup
  bound : ∀ use ∈ world.accepted, ∃ issue, Bound digest sha256 world use issue

end Runs

section Steps

variable {digest : List UInt8 → List UInt8} {sha256 : String → String}
  {reprOf : Json → String} {floatOf : String → Json} {spare : Nat}

structure Passes (use : Use) (body : Entries) (jti : String) : Prop where
  jti : jtiOf body = some jti
  user : ∃ user, pyStr reprOf (get body "user_id") = .ok user ∧
    use.principal.userId.str = .ok user
  agrees : agrees sha256 use body = true
  inTime : ∃ exp, intOf ((body.lookup "exp").getD (.integer 0)) = .ok exp ∧
    use.checked ≤ exp

variable {use : Use} {jti : String}

theorem passes_of_checkBody {body : Entries}
    (checked : checkBody sha256 reprOf use body = .ok (some jti)) :
    @Passes sha256 reprOf use body jti := by
  unfold checkBody at checked
  cases found : jtiOf body with
  | none =>
    rw [found] at checked
    cases checked
  | some known =>
    rw [found] at checked
    dsimp only at checked
    rcases bind_eq_ok.mp checked with ⟨signed, isSigned, checked⟩
    rcases bind_eq_ok.mp checked with ⟨presented, isPresented, checked⟩
    split at checked
    · cases checked
    · rename_i fits
      simp only [Bool.or_eq_true, decide_eq_true_eq, Bool.not_eq_true', not_or,
        not_not, Bool.not_eq_false] at fits
      cases expiry : intOf ((body.lookup "exp").getD (.integer 0)) with
      | error raised =>
        rw [expiry] at checked
        cases raised <;> cases checked
      | ok exp =>
        rw [expiry] at checked
        dsimp only at checked
        split at checked
        · cases checked
        · rename_i unexpired
          cases checked
          refine ⟨found, ⟨presented, ?_, isPresented⟩, fits.2, exp, expiry, ?_⟩
          · rw [isSigned, fits.1]
          · exact not_lt.mp unexpired

/-- What a token is that is taken: the payload it opens to, the body that says, and the
id and expiry it is recorded under. -/
structure Taken (consumed after : Consumed) (use : Use) (payload : List UInt8)
    (body : Entries) (jti : String) (exp : Int) : Prop where
  opened : openText digest use.token = .ok (some payload)
  read : readBody floatOf spare payload = .ok (some body)
  passes : @Passes sha256 reprOf use body jti
  expiry : ∃ json, body.lookup "exp" = some json ∧ intOf json = .ok exp
  take : take consumed jti exp use.taken = (true, after)

variable {consumed after : Consumed}

theorem taken_of_verifyAndConsume
    (accepted : verifyAndConsume digest sha256 reprOf floatOf spare consumed use =
      .ok (true, after)) :
    ∃ payload body jti exp,
      @Taken digest sha256 reprOf floatOf spare consumed after use payload body jti exp := by
  rcases bind_eq_ok.mp accepted with ⟨validated, isValid, accepted⟩
  cases validated with
  | none => cases accepted
  | some valid =>
    rcases valid with ⟨jti, body⟩
    dsimp only at accepted
    rcases bind_eq_ok.mp accepted with ⟨json, found, accepted⟩
    rcases bind_eq_ok.mp accepted with ⟨exp, isExp, accepted⟩
    rcases bind_eq_ok.mp isValid with ⟨opening, opened, isValid⟩
    cases opening with
    | none => cases isValid
    | some payload =>
      dsimp only at isValid
      rcases bind_eq_ok.mp isValid with ⟨reading, read, isValid⟩
      cases reading with
      | none => cases isValid
      | some known =>
        dsimp only at isValid
        rcases bind_eq_ok.mp isValid with ⟨checking, checked, isValid⟩
        cases checking with
        | none => cases isValid
        | some id =>
          cases isValid
          refine ⟨payload, body, jti, exp, opened, read,
            passes_of_checkBody checked, ⟨json, ?_, isExp⟩,
            Except.ok.inj accepted⟩
          unfold subscript at found
          cases present : body.lookup "exp" with
          | none =>
            rw [present] at found
            cases found
          | some value =>
            rw [present] at found
            rw [Except.ok.inj found]

variable {grant : Grant}

theorem flat_body {body : Entries} (isBody : grant.body sha256 = .ok body) : Flat body := by
  cases grant with
  | continuation issue =>
    rcases bind_eq_ok.mp isBody with ⟨user, _, isBody⟩
    cases isBody
    exact flat_tokenBody sha256 issue user
  | ticket jti ts ttl =>
    cases isBody
    exact ⟨of_decide_eq_true rfl, List.all_eq_true.mp rfl⟩
  | feedback traceId principal ts ttl =>
    rcases bind_eq_ok.mp isBody with ⟨user, _, isBody⟩
    cases isBody
    rcases principal with ⟨userId, role, entityId, manifestHash⟩
    cases entityId <;> exact ⟨of_decide_eq_true rfl, List.all_eq_true.mp rfl⟩

variable {payload : List UInt8}

theorem eq_of_readBody {signed body : Entries}
    (isBody : grant.body sha256 = .ok signed) (short : shortIntegers (.dict signed) = true)
    (isPayload : payload = payloadOf signed)
    (read : readBody floatOf spare payload = .ok (some body)) :
    body = sortedEntries signed := by
  rw [isPayload, readBody_payloadOf (flat_body isBody) short] at read
  cases read
  rfl

theorem Passes.congr {body other : Entries} (same : ∀ key, body.lookup key = other.lookup key)
    (passes : @Passes sha256 reprOf use body jti) : @Passes sha256 reprOf use other jti := by
  have gets : ∀ key, get body key = get other key := by
    intro key
    show (body.lookup key).getD .null = _
    rw [same]
    rfl
  rcases passes with ⟨isJti, user, fits, inTime⟩
  constructor
  · rw [jtiOf, gets] at isJti
    exact isJti
  · rw [gets] at user
    exact user
  · have equal : ContinuationTokens.agrees sha256 use other =
        ContinuationTokens.agrees sha256 use body := by
      unfold ContinuationTokens.agrees
      simp only [gets]
    rw [equal]
    exact fits
  · rw [same] at inTime
    exact inTime

variable {exp : Int}

theorem not_passes_ticket {id : String} : ¬@Passes sha256 reprOf use (ticketBody id exp) jti := by
  intro passes
  cases passes.agrees

variable {user : String}

theorem not_passes_feedback {traceId : String} {principal : Principal} :
    ¬@Passes sha256 reprOf use (feedbackBody traceId user principal exp) jti := by
  intro passes
  have isJti := passes.jti
  rcases principal with ⟨userId, role, entityId, manifestHash⟩
  cases entityId <;> cases isJti

theorem get_tokenBody_entityId (issue : Issue) (user : String) :
    get (tokenBody sha256 issue user) "entity_id" =
      (issue.principal.entityId.map Json.integer).getD .null := by
  rcases issue with ⟨id, ⟨userId, role, entityId, manifestHash⟩, threadId, exchangeId,
    question, ts, ttl⟩
  cases entityId <;> cases manifestHash <;> rfl

theorem eq_of_equalsInt {value : Option Int} {other : Option Int}
    (equal : equalsInt ((value.map Json.integer).getD .null) other = true) :
    other = value := by
  cases value with
  | none =>
    cases other with
    | none => rfl
    | some number => cases equal
  | some number =>
    cases other with
    | none => cases equal
    | some presented => rw [of_decide_eq_true equal]

variable {issue : Issue}

/-- A continuation body passes for the caller it was made for alone. -/
theorem passes_tokenBody (passes : @Passes sha256 reprOf use (tokenBody sha256 issue user) jti) :
    issue.jti = jti ∧ use.principal.userId.str = .ok user ∧
      use.principal.role = issue.principal.role ∧
        use.principal.entityId = issue.principal.entityId ∧ use.checked ≤ issue.exp := by
  rcases passes with ⟨isJti, ⟨signed, isSigned, isPresented⟩, fits, exp, isExp, inTime⟩
  unfold agrees at fits
  rw [get_tokenBody_entityId] at fits
  simp only [Bool.and_eq_true] at fits
  rcases fits with ⟨⟨⟨role, sameEntity⟩, _⟩, _⟩
  refine ⟨?_, ?_, ?_, eq_of_equalsInt sameEntity, ?_⟩
  · change (if issue.jti = "" then none else some issue.jti) = some jti at isJti
    split at isJti
    · cases isJti
    · exact Option.some.inj isJti
  · rw [isPresented]
    exact isSigned.symm
  · exact (of_decide_eq_true role).symm
  · change Except.ok issue.exp = Except.ok exp at isExp
    rw [Except.ok.inj isExp]
    exact inTime

/-- What was taken was made for an issue, under the id and the expiry it is recorded
with. -/
theorem exists_issue_of_taken {body : Entries}
    (taken : @Taken digest sha256 reprOf floatOf spare consumed after use payload body jti exp)
    (signs : Signs sha256 grant payload) :
    ∃ issue, grant = .continuation issue ∧ issue.jti = jti ∧ issue.exp = exp ∧
      use.principal.userId.str = issue.principal.userId.str ∧
        use.principal.role = issue.principal.role ∧
          use.principal.entityId = issue.principal.entityId ∧
            use.checked ≤ issue.exp ∧
              makeContinuationToken digest sha256 issue = .ok (signedText digest payload) := by
  rcases signs with ⟨signed, isBody, short, isPayload⟩
  have isSorted := eq_of_readBody isBody short isPayload taken.read
  have same : ∀ key, body.lookup key = signed.lookup key := by
    intro key
    rw [isSorted, (flat_body isBody).lookup_sorted]
  have passes := taken.passes.congr same
  cases grant with
  | ticket id ts ttl =>
    cases isBody
    exact absurd passes not_passes_ticket
  | feedback traceId principal ts ttl =>
    rcases bind_eq_ok.mp isBody with ⟨user, _, isBody⟩
    cases isBody
    exact absurd passes not_passes_feedback
  | continuation issue =>
    rcases bind_eq_ok.mp isBody with ⟨user, isUser, isBody⟩
    cases isBody
    rcases passes_tokenBody passes with ⟨isJti, presented, role, entity, inTime⟩
    refine ⟨issue, rfl, isJti, ?_, ?_, role, entity, inTime, ?_⟩
    · rcases taken.expiry with ⟨json, found, isExp⟩
      rw [same] at found
      change some (Json.integer issue.exp) = some json at found
      cases found
      exact Except.ok.inj isExp
    · rw [presented, isUser]
    · rw [makeContinuationToken, isUser]
      show signBody digest (tokenBody sha256 issue user) = _
      rw [signBody, if_pos short, isPayload]

/-- A caller of the same user, role and entity presents the token in its conversation,
with its question or none, before it expires. -/
structure Presents (issue : Issue) (use : Use) : Prop where
  user : use.principal.userId.str = issue.principal.userId.str
  role : use.principal.role = issue.principal.role
  entity : use.principal.entityId = issue.principal.entityId
  thread : issue.threadId = none ∨ issue.threadId = use.threadId
  question : use.question = none ∨ use.question = some issue.question
  inTime : use.checked ≤ issue.exp

theorem agrees_of_presents {body : Entries}
    (same : ∀ key, get body key = get (tokenBody sha256 issue user) key)
    (presents : Presents issue use) : agrees sha256 use body = true := by
  have thread : ((textOrNull issue.threadId).isNull ||
      equalsText (textOrNull issue.threadId) use.threadId) = true := by
    rcases presents.thread with absent | same
    · rw [absent]
      rfl
    · rw [← same]
      cases issue.threadId with
      | none => rfl
      | some id => exact decide_eq_true rfl
  have entity : equalsInt (get (tokenBody sha256 issue user) "entity_id")
      use.principal.entityId = true := by
    rw [get_tokenBody_entityId, presents.entity]
    cases issue.principal.entityId with
    | none => rfl
    | some id => exact decide_eq_true rfl
  have role : equalsText (.text issue.principal.role) (some use.principal.role) = true :=
    decide_eq_true presents.role.symm
  unfold ContinuationTokens.agrees
  simp only [same, entity]
  rw [show get (tokenBody sha256 issue user) "role" = .text issue.principal.role from rfl,
    show get (tokenBody sha256 issue user) "thread_id" = textOrNull issue.threadId from rfl,
    role, thread]
  rcases presents.question with absent | present
  · rw [absent]
    rfl
  · rw [present]
    have hashed : equalsText (get (tokenBody sha256 issue user) "q_hash")
        (some (sha256 issue.question)) = true := decide_eq_true rfl
    simp only [hashed]
    rfl

/-- A token is recorded for any such caller, whatever policy manifest it holds. -/
theorem verifyAndConsume_of_presents {issue : Issue} {use : Use} {user : String}
    (isUser : issue.principal.userId.str = .ok user) (named : issue.jti ≠ "")
    (short : shortIntegers (.dict (tokenBody sha256 issue user)) = true)
    (opened : openText digest use.token = .ok (some (payloadOf (tokenBody sha256 issue user))))
    (presents : Presents issue use) (consumed : Consumed) :
    verifyAndConsume digest sha256 reprOf floatOf spare consumed use =
      .ok (take consumed issue.jti issue.exp use.taken) := by
  have flat := flat_tokenBody sha256 issue user
  have same := flat.get_sorted
  have isJti : jtiOf (sortedEntries (tokenBody sha256 issue user)) = some issue.jti := by
    unfold jtiOf
    rw [same]
    exact if_neg named
  have exp : (sortedEntries (tokenBody sha256 issue user)).lookup "exp" =
      some (.integer issue.exp) := by
    rw [flat.lookup_sorted]
    rfl
  have checked : checkBody sha256 reprOf use
      (sortedEntries (tokenBody sha256 issue user)) = .ok (some issue.jti) := by
    have fits := agrees_of_presents same presents
    have signed : pyStr reprOf
        (get (sortedEntries (tokenBody sha256 issue user)) "user_id") = .ok user := by
      rw [same]
      rfl
    have equal : (decide (user ≠ user) || !true) = false := by simp
    unfold checkBody
    simp only [isJti, signed, presents.user, isUser, fits, exp]
    show (if (decide (user ≠ user) || !true) = true then _
      else if use.checked > issue.exp then _ else _) = _
    rw [equal, if_neg Bool.false_ne_true]
    exact if_neg (not_lt.mpr presents.inTime)
  have read := @readBody_payloadOf floatOf _ flat short spare
  have subscripted : subscript "exp" (sortedEntries (tokenBody sha256 issue user)) =
      .ok (.integer issue.exp) := by
    unfold subscript
    rw [exp]
  unfold verifyAndConsume validatedBody
  simp only [opened, read, checked, subscripted, bind, Except.bind, pure, Except.pure,
    Option.map_some]
  rfl

theorem take_eq_true {now : Int} (took : take consumed jti exp now = (true, after)) :
    (∀ expiry, (jti, expiry) ∈ consumed → expiry < now) ∧
      after = prune consumed now ++ [(jti, exp)] := by
  unfold take at took
  dsimp only at took
  split at took
  · cases took
  · rename_i absent
    cases took
    refine ⟨?_, rfl⟩
    intro expiry member
    by_contra alive
    apply absent
    have kept : (jti, expiry) ∈ prune consumed now := by
      apply List.mem_filter.mpr ⟨member, _⟩
      simpa using alive
    cases found : (prune consumed now).lookup jti with
    | none =>
      have apart := List.lookup_eq_none_iff.mp found _ kept
      simp at apart
    | some recorded =>
      unfold hasKey
      rw [found]
      rfl

theorem mem_prune {entry : String × Int} {now : Int} :
    entry ∈ prune consumed now ↔ entry ∈ consumed ∧ now ≤ entry.2 := by
  unfold prune
  rw [List.mem_filter]
  simp

theorem eq_of_makeContinuationToken {other : Issue} {token : String}
    (made : makeContinuationToken digest sha256 issue = .ok token)
    (madeToo : makeContinuationToken digest sha256 other = .ok token) :
    issue.jti = other.jti ∧ issue.exp = other.exp := by
  rcases bind_eq_ok.mp made with ⟨user, _, made⟩
  rcases bind_eq_ok.mp madeToo with ⟨user', _, madeToo⟩
  unfold signBody at made madeToo
  split at made
  · rename_i short
    split at madeToo
    · rename_i short'
      have opened := @openText_signedText digest (payloadOf (tokenBody sha256 issue user))
      rw [Except.ok.inj made, ← Except.ok.inj madeToo, openText_signedText] at opened
      have flat := flat_tokenBody sha256 issue user
      have flat' := flat_tokenBody sha256 other user'
      have read := @readBody_payloadOf (fun _ => .null) _ flat short 0
      rw [← Option.some.inj (Except.ok.inj opened), readBody_payloadOf flat' short'] at read
      have same := Option.some.inj (Except.ok.inj read)
      have lookups : ∀ key, (tokenBody sha256 other user').lookup key =
          (tokenBody sha256 issue user).lookup key := by
        intro key
        rw [← flat'.lookup_sorted, same, flat.lookup_sorted]
      have jti : some (Json.text other.jti) = some (Json.text issue.jti) := lookups "jti"
      have exp : some (Json.integer other.exp) = some (Json.integer issue.exp) := lookups "exp"
      constructor
      · exact (Json.text.inj (Option.some.inj jti)).symm
      · exact (Json.integer.inj (Option.some.inj exp)).symm
    · cases madeToo
  · cases made

/-- A token that is not taken drops the ids that have expired at most. -/
theorem kept_of_refused
    (refused : verifyAndConsume digest sha256 reprOf floatOf spare consumed use =
      .ok (false, after)) :
    ∀ entry ∈ consumed, entry ∈ after ∨ entry.2 < use.taken := by
  intro entry held
  rcases bind_eq_ok.mp refused with ⟨validated, _, refused⟩
  cases validated with
  | none =>
    cases refused
    exact .inl held
  | some valid =>
    rcases valid with ⟨jti, body⟩
    dsimp only at refused
    rcases bind_eq_ok.mp refused with ⟨json, _, refused⟩
    rcases bind_eq_ok.mp refused with ⟨exp, _, refused⟩
    have took : take consumed jti exp use.taken = (false, after) := Except.ok.inj refused
    unfold take at took
    dsimp only at took
    split at took
    · cases took
      rcases le_or_gt use.taken entry.2 with alive | expired
      · exact .inl (mem_prune.mpr ⟨held, alive⟩)
      · exact .inr expired
    · cases took

/-- Runs stay sound because what was taken is recorded until it has expired. -/
structure Kept (world : World) : Prop where
  sound : Sound digest sha256 world
  recorded : ∀ use ∈ world.accepted, ∀ issue,
    makeContinuationToken digest sha256 issue = .ok use.token →
      (issue.jti, issue.exp) ∈ world.consumed ∨ issue.exp < world.clock

variable {world : World}

theorem Bound.granted_cons (bound : Bound digest sha256 world use issue) {after : World}
    (more : ∀ grant ∈ world.granted, grant ∈ after.granted) :
    Bound digest sha256 after use issue :=
  { bound with granted := more _ bound.granted }

/-- A step that takes no token keeps what was taken, and drops only what has
expired. -/
theorem Kept.quiet {world after : World} (kept : @Kept digest sha256 world)
    (same : after.accepted = world.accepted)
    (more : ∀ grant ∈ world.granted, grant ∈ after.granted)
    (later : world.clock ≤ after.clock)
    (drops : ∀ entry ∈ world.consumed, entry ∈ after.consumed ∨ entry.2 < after.clock) :
    @Kept digest sha256 after := by
  constructor
  · constructor
    · rw [same]
      exact kept.sound.once
    · rw [same]
      intro use member
      rcases kept.sound.bound use member with ⟨issue, bound⟩
      exact ⟨issue, bound.granted_cons more⟩
  · rw [same]
    intro use member issue made
    rcases kept.recorded use member issue made with held | expired
    · exact drops _ held
    · exact .inr (lt_of_lt_of_le expired later)

theorem Kept.accepts (kept : @Kept digest sha256 world) (inOrder : InOrder world (.consume use))
    (unforged : Unforged digest sha256 world (.consume use))
    (careful : Careful digest sha256 world (.consume use))
    (accepted : verifyAndConsume digest sha256 reprOf floatOf spare world.consumed use =
      .ok (true, after)) :
    @Kept digest sha256
      { world with clock := use.taken, consumed := after, accepted := use :: world.accepted } := by
  rcases taken_of_verifyAndConsume accepted with ⟨payload, body, jti, exp, taken⟩
  rcases unforged payload taken.opened with ⟨grant, granted, signs⟩
  rcases exists_issue_of_taken taken signs with
    ⟨issue, rfl, isJti, isExp, user, role, entity, checked, made⟩
  have fits := careful.2 issue granted payload signs taken.opened
  have isToken := careful.1.eq_signedText taken.opened
  have inTime := fits.inTime checked
  rcases take_eq_true taken.take with ⟨fresh, rfl⟩
  rw [← isToken] at made
  constructor
  · constructor
    · apply List.nodup_cons.mpr
      refine ⟨?_, kept.sound.once⟩
      intro member
      rcases List.mem_map.mp member with ⟨earlier, isEarlier, sameToken⟩
      rw [← sameToken] at made
      rcases kept.recorded earlier isEarlier issue made with held | expired
      · rw [isJti] at held
        exact absurd (fresh _ held) (not_lt.mpr inTime)
      · have early : world.clock ≤ issue.exp := le_trans inOrder.1 checked
        exact absurd expired (not_lt.mpr early)
    · intro other member
      rcases List.mem_cons.mp member with rfl | earlier
      · exact ⟨issue, granted, made, checked, inTime, user, role, entity, fits.manifest⟩
      · rcases kept.sound.bound other earlier with ⟨known, bound⟩
        exact ⟨known, bound.granted_cons fun _ granted => granted⟩
  · intro other member known isMade
    rcases List.mem_cons.mp member with rfl | earlier
    · rcases eq_of_makeContinuationToken isMade made with ⟨sameJti, sameExp⟩
      left
      rw [sameJti, sameExp, isJti, isExp]
      exact List.mem_append_right _ List.mem_cons_self
    · rcases kept.recorded other earlier known isMade with held | expired
      · rcases le_or_gt use.taken known.exp with alive | expired
        · exact .inl (List.mem_append_left _ (mem_prune.mpr ⟨held, alive⟩))
        · exact .inr expired
      · have later : world.clock ≤ use.taken := le_trans inOrder.1 inOrder.2
        exact .inr (lt_of_lt_of_le expired later)

theorem Kept.step {world : World} (kept : @Kept digest sha256 world) (call : Call)
    (inOrder : InOrder world call) (unforged : Unforged digest sha256 world call)
    (careful : Careful digest sha256 world call) :
    @Kept digest sha256 (step digest sha256 reprOf floatOf spare call world) := by
  cases call with
  | grant grant =>
    have more : ∀ old ∈ world.granted, old ∈ grant :: world.granted :=
      fun _ member => List.mem_cons_of_mem _ member
    have drops : ∀ entry ∈ world.consumed,
        entry ∈ world.consumed ∨ entry.2 < grant.ts := fun _ held => .inl held
    exact @Kept.quiet digest sha256 world
      { world with clock := grant.ts, granted := grant :: world.granted } kept rfl more
      inOrder drops
  | consume use =>
    have later : world.clock ≤ use.taken := le_trans inOrder.1 inOrder.2
    unfold TokenConsumption.step
    dsimp only
    split
    · rename_i consumed accepted
      exact kept.accepts inOrder unforged careful accepted
    · rename_i consumed refused
      exact kept.quiet rfl (fun _ member => member) later (kept_of_refused refused)
    · exact kept.quiet rfl (fun _ member => member) later fun _ held => .inl held

/-- Under clocks that do not go back and a key nobody else signs with, every run is sound
throughout in which each presented token is spelled as it was made, its policy manifest
is the caller's, and it does not expire between its check and its record. -/
theorem tokens_taken_once_by_caller (start : Int) {calls : List Call}
    (run : OrderlyRun (step digest sha256 reprOf floatOf spare) (Orderly digest sha256)
      { clock := start } calls) :
    Throughout (step digest sha256 reprOf floatOf spare) (Sound digest sha256)
      { clock := start } calls := by
  have kept : Throughout (step digest sha256 reprOf floatOf spare) (@Kept digest sha256)
      { clock := start } calls := by
    apply run.throughout
    · exact ⟨⟨List.nodup_nil, fun _ => nofun⟩, fun _ => nofun⟩
    · intro world call kept orderly
      exact kept.step call orderly.inOrder orderly.unforged orderly.careful
  exact kept.imp fun world kept => kept.sound

/-! ### A run of two users -/

/-- The world after a call that got as far as the records. -/
def recorded (world : World) (use : Use) (took : Bool × Consumed) : World :=
  { world with
    clock := use.taken
    consumed := took.2
    accepted := if took.1 then use :: world.accepted else world.accepted }

theorem step_eq_recorded {took : Bool × Consumed}
    (consumes : verifyAndConsume digest sha256 reprOf floatOf spare world.consumed use = .ok took) :
    step digest sha256 reprOf floatOf spare (.consume use) world = recorded world use took := by
  unfold TokenConsumption.step
  simp only [consumes]
  rcases took with ⟨accepted, consumed⟩
  cases accepted <;> rfl

end Steps

def mayIssue : Issue := {
  jti := "0f8fad5bd9cb469fa16570867728950e"
  principal := {
    userId := .number 7
    role := "sales"
    entityId := some 3
    manifestHash := some "m1" }
  threadId := some "t1"
  exchangeId := some "e1"
  question := "Sales in May?"
  ts := 1000 }

/-- The digest of the payload of `mayIssue` under a key. -/
def mayDigest (_ : List UInt8) : List UInt8 :=
  [232, 74, 226, 169, 178, 61, 63, 10, 6, 102, 204, 43, 251, 80, 55, 91, 14, 134, 15, 242,
    64, 35, 228, 59, 219, 253, 127, 89, 120, 26, 253, 5]

/-- The hash of its question. -/
def maySha256 (_ : String) : String :=
  "060648664cc884f9882612f314797bf86de4869f67fd5592cbcfe224bd7f7669"

def mayPayload : List UInt8 :=
  payloadOf (tokenBody maySha256 mayIssue "7")

def mayUse (checked taken : Int) : Use := {
  token := signedText mayDigest mayPayload
  principal := mayIssue.principal
  threadId := some "t1"
  checked
  taken }

def mayStep : Call → World → World :=
  step mayDigest maySha256 (fun _ => "") (fun _ => .null) 0

theorem signs_mayIssue : Signs maySha256 (.continuation mayIssue) mayPayload :=
  ⟨tokenBody maySha256 mayIssue "7", rfl, by decide +kernel, rfl⟩

theorem makeContinuationToken_mayIssue : makeContinuationToken mayDigest maySha256 mayIssue =
      .ok (signedText mayDigest mayPayload) := by
  have short : shortIntegers (.dict (tokenBody maySha256 mayIssue "7")) = true := by
    decide +kernel
  show signBody mayDigest (tokenBody maySha256 mayIssue "7") = _
  rw [signBody, if_pos short]
  rfl

/-- The world once the token is made. -/
def mayWorld : World := {
  clock := 1000
  granted := [.continuation mayIssue] }

theorem mayStep_grant :
    mayStep (.grant (.continuation mayIssue)) { clock := 1000 } = mayWorld := rfl

theorem honest_grant :
    Honest mayDigest maySha256 { clock := 1000 } (.grant (.continuation mayIssue)) :=
  ⟨le_rfl, trivial⟩

variable {use : Use}

theorem step_of_presents (world : World)
    (opened : openText mayDigest use.token = .ok (some mayPayload))
    (presents : Presents mayIssue use) :
    mayStep (.consume use) world =
      recorded world use (take world.consumed mayIssue.jti mayIssue.exp use.taken) := by
  have consumed := @verifyAndConsume_of_presents mayDigest maySha256 (fun _ => "")
    (fun _ => .null) 0 mayIssue use "7" rfl (by decide) (by decide +kernel) opened presents
    world.consumed
  exact step_eq_recorded consumed

variable {world : World}

theorem honest_of_opened (granted : world.granted = [.continuation mayIssue])
    (opened : openText mayDigest use.token = .ok (some mayPayload))
    (inOrder : world.clock ≤ use.checked ∧ use.checked ≤ use.taken) :
    Honest mayDigest maySha256 world (.consume use) := by
  refine ⟨inOrder, ?_⟩
  intro payload opens
  have same := opens.symm.trans opened
  refine ⟨.continuation mayIssue, ?_, ?_⟩
  · rw [granted]
    exact List.mem_singleton_self _
  · rw [Option.some.inj (Except.ok.inj same)]
    exact signs_mayIssue

theorem presents_mayUse {checked taken : Int} (inTime : checked ≤ 1300) :
    Presents mayIssue (mayUse checked taken) :=
  ⟨rfl, rfl, rfl, .inr rfl, .inl rfl, inTime⟩

theorem opened_mayUse (checked taken : Int) :
    openText mayDigest (mayUse checked taken).token = .ok (some mayPayload) :=
  openText_signedText mayPayload

/-- The world once the token is taken for the first time. -/
theorem step_mayWorld (opened : openText mayDigest use.token = .ok (some mayPayload))
    (presents : Presents mayIssue use) :
    mayStep (.consume use) mayWorld =
      recorded mayWorld use (true, [(mayIssue.jti, mayIssue.exp)]) :=
  step_of_presents mayWorld opened presents

theorem orderly_mayUse {checked taken : Int}
    (granted : world.granted = [.continuation mayIssue]) (earlier : world.clock ≤ checked)
    (later : checked ≤ taken) (inTime : taken ≤ 1300) :
    Orderly mayDigest maySha256 world (.consume (mayUse checked taken)) := by
  refine ⟨honest_of_opened granted (opened_mayUse _ _) ⟨earlier, later⟩,
    spelled_signedText mayPayload, ?_⟩
  intro issue member payload _ _
  rw [granted, List.mem_singleton] at member
  cases member
  exact ⟨rfl, fun _ => inTime⟩

/-- The token is made, taken, and refused when it is presented again. -/
def mayCalls : List Call :=
  [.grant (.continuation mayIssue), .consume (mayUse 1010 1010), .consume (mayUse 1020 1020)]

theorem orderlyRun_mayCalls :
    OrderlyRun mayStep (Orderly mayDigest maySha256) { clock := 1000 } mayCalls := by
  refine ⟨⟨honest_grant, trivial⟩, ?_, ?_, trivial⟩
  · exact orderly_mayUse rfl (by decide) le_rfl (by decide)
  · rw [mayStep_grant, step_mayWorld (opened_mayUse _ _) (presents_mayUse (by decide))]
    exact orderly_mayUse rfl (by decide) le_rfl (by decide)

theorem tokens_taken_once_by_caller_mayCalls :
    OrderlyRun mayStep (Orderly mayDigest maySha256) { clock := 1000 } mayCalls ∧
      (runFrom mayStep { clock := 1000 } mayCalls).accepted = [mayUse 1010 1010] ∧
        Throughout mayStep (Sound mayDigest maySha256) { clock := 1000 } mayCalls := by
  have again : take [(mayIssue.jti, mayIssue.exp)] mayIssue.jti mayIssue.exp 1020 =
      (false, [(mayIssue.jti, mayIssue.exp)]) := by decide +kernel
  refine ⟨orderlyRun_mayCalls, ?_, tokens_taken_once_by_caller 1000 orderlyRun_mayCalls⟩
  rw [mayCalls, runFrom_cons, runFrom_cons, runFrom_cons, runFrom_nil, mayStep_grant,
    step_mayWorld (opened_mayUse _ _) (presents_mayUse (by decide)),
    step_of_presents _ (opened_mayUse _ _) (presents_mayUse (by decide))]
  have held := congrArg (fun took => (recorded (recorded mayWorld (mayUse 1010 1010)
    (true, [(mayIssue.jti, mayIssue.exp)])) (mayUse 1020 1020) took).accepted) again
  exact held.trans rfl

/-- The caller's policy manifest has changed since. -/
def changedUse : Use :=
  { mayUse 1010 1010 with
    principal := { mayIssue.principal with manifestHash := some "m2" } }

/-- Letters that are no digits stand in front of the token. -/
def respelledUse : Use :=
  { mayUse 1010 1010 with token := "!!!!" ++ (mayUse 1010 1010).token }

def changedCalls : List Call :=
  [.grant (.continuation mayIssue), .consume changedUse]

/-- The token expires while it is presented a second time. -/
def lateCalls : List Call :=
  [.grant (.continuation mayIssue), .consume (mayUse 1010 1010), .consume (mayUse 1300 1301)]

def respelledCalls : List Call :=
  [.grant (.continuation mayIssue), .consume respelledUse]

theorem opened_respelledUse : openText mayDigest respelledUse.token = .ok (some mayPayload) :=
  openText_skipped mayPayload (by decide) rfl

/-- Whatever is soundly taken once the token is made is the token, for its caller. -/
theorem bound_mayIssue (granted : world.granted = [.continuation mayIssue])
    (sound : Sound mayDigest maySha256 world) (member : use ∈ world.accepted) :
    Bound mayDigest maySha256 world use mayIssue := by
  rcases sound.bound use member with ⟨issue, bound⟩
  have same := bound.granted
  rw [granted, List.mem_singleton] at same
  cases same
  exact bound

theorem not_sound_changedCalls :
    ¬Throughout mayStep (Sound mayDigest maySha256) { clock := 1000 } changedCalls := by
  rintro ⟨_, _, sound⟩
  have opened : openText mayDigest changedUse.token = .ok (some mayPayload) :=
    opened_mayUse 1010 1010
  have presents : Presents mayIssue changedUse := ⟨rfl, rfl, rfl, .inr rfl, .inl rfl, by decide⟩
  rw [mayStep_grant, step_mayWorld opened presents] at sound
  have bound := bound_mayIssue rfl sound List.mem_cons_self
  exact absurd bound.manifest (by decide)

/-- The record of the first time is dropped, as it has expired. -/
theorem not_sound_lateCalls :
    ¬Throughout mayStep (Sound mayDigest maySha256) { clock := 1000 } lateCalls := by
  rintro ⟨_, _, _, sound⟩
  have pruned : take [(mayIssue.jti, mayIssue.exp)] mayIssue.jti mayIssue.exp 1301 =
      (true, [(mayIssue.jti, mayIssue.exp)]) := by decide +kernel
  have again : mayStep (.consume (mayUse 1300 1301)) (recorded mayWorld (mayUse 1010 1010)
      (true, [(mayIssue.jti, mayIssue.exp)])) = recorded (recorded mayWorld (mayUse 1010 1010)
          (true, [(mayIssue.jti, mayIssue.exp)])) (mayUse 1300 1301)
            (true, [(mayIssue.jti, mayIssue.exp)]) :=
    (step_of_presents _ (opened_mayUse 1300 1301) (presents_mayUse (by decide))).trans
      (congrArg _ pruned)
  rw [mayStep_grant, step_mayWorld (opened_mayUse _ _) (presents_mayUse (by decide)), again]
    at sound
  have once := List.nodup_cons.mp sound.once
  exact once.1 List.mem_cons_self

theorem not_sound_respelledCalls :
    ¬Throughout mayStep (Sound mayDigest maySha256) { clock := 1000 } respelledCalls := by
  rintro ⟨_, _, sound⟩
  have presents : Presents mayIssue respelledUse := ⟨rfl, rfl, rfl, .inr rfl, .inl rfl, by decide⟩
  rw [mayStep_grant, step_mayWorld opened_respelledUse presents] at sound
  have bound := bound_mayIssue rfl sound List.mem_cons_self
  have same : signedText mayDigest mayPayload = "!!!!" ++ signedText mayDigest mayPayload :=
    Except.ok.inj (makeContinuationToken_mayIssue.symm.trans bound.token)
  have length := congrArg String.length same
  rw [String.length_append] at length
  exact absurd length (Nat.ne_of_lt (Nat.lt_add_of_pos_left (by decide)))

/-- The token is taken under another policy manifest; it is taken a second time when it
expires between the check and the record; and it is taken with letters added. -/
theorem tokens_taken_once_by_caller_fails :
    (OrderlyRun mayStep (Honest mayDigest maySha256) { clock := 1000 } changedCalls ∧
      ¬Throughout mayStep (Sound mayDigest maySha256) { clock := 1000 } changedCalls) ∧
    (OrderlyRun mayStep (Honest mayDigest maySha256) { clock := 1000 } lateCalls ∧
      ¬Throughout mayStep (Sound mayDigest maySha256) { clock := 1000 } lateCalls) ∧
    OrderlyRun mayStep (Honest mayDigest maySha256) { clock := 1000 } respelledCalls ∧
      ¬Throughout mayStep (Sound mayDigest maySha256) { clock := 1000 } respelledCalls := by
  refine ⟨⟨?_, not_sound_changedCalls⟩, ⟨?_, not_sound_lateCalls⟩, ?_, not_sound_respelledCalls⟩
  · have opened : openText mayDigest changedUse.token = .ok (some mayPayload) :=
      opened_mayUse 1010 1010
    exact ⟨honest_grant, honest_of_opened rfl opened (by decide), trivial⟩
  · refine ⟨honest_grant, honest_of_opened rfl (opened_mayUse _ _) (by decide), ?_, trivial⟩
    rw [mayStep_grant, step_mayWorld (opened_mayUse _ _) (presents_mayUse (by decide))]
    exact honest_of_opened rfl (opened_mayUse _ _) (by decide)
  · exact ⟨honest_grant, honest_of_opened rfl opened_respelledUse (by decide), trivial⟩

end McpAssistant.Services.TokenConsumption
