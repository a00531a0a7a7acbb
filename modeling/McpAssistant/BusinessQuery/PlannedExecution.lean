import McpAssistant.BusinessQuery.ValueResolution

/-!
# Running a planned set

The members of an authorized set run in order, each resolved, executed and
sealed before the next.  The seal takes the id of the resolved scope, or
derives one from the root key when the scope carries none.
-/

namespace McpAssistant.BusinessQuery.PlannedExecution

open Definitions QueryPlan Visibility Scopes PlanBinding ValueResolution
  Foundations.Fallible List

/-- An authorized set.  A patched round continues an earlier answer and has one
member. -/
structure PlannedRound where
  members : List ScopedPlan
  patchSubject : Option String := none
  patchedAlone : patchSubject.isSome = true → members.length = 1 := by simp

/-- What a run calls besides the resolver: executing, sealing and presenting
the member at an ordinal.  The answer ids do not depend on it. -/
structure RunContext where
  request : Request
  stages : Nat → Stages
  executeAndPresent : Nat → ScopedPlan → Except Stopped Unit

/-- The ids that members were executed and sealed under, and how the run
ended. -/
structure SetRun where
  ids : List String
  outcome : Except Stopped Unit

section Run

variable (sha256Hex : String → String) (bundle : DefinitionBundle)
  (evidence : Evidence) (patchSubject : Option String) (context : RunContext)

def patchKey (evidence : Evidence) (subject : String) : String :=
  evidence.idempotencyKey ++ ":patch:" ++ subject

/-- The resolve stage of a round; a patched one restores its own id on the
primary. -/
def resolveStage (ordinal : Nat) (scope : ScopedPlan) :
    Except Stopped (BusinessQueryPlan × ScopedPlan) := do
  let (plan, resolved) ← resolveValues sha256Hex (context.stages ordinal)
    scope.plan scope context.request bundle (some evidence) ordinal
  match patchSubject, ordinal with
  | some subject, 0 => do
    let id ← answerQueryIdFor sha256Hex (patchKey evidence subject)
    return (plan, { resolved with answerQueryId := some id })
  | _, _ => return (plan, resolved)

/-- The id an answer is sealed under; an empty id counts as none. -/
def sealAnswerQueryId (scope : ScopedPlan) : Except Stopped String :=
  match scope.answerQueryId with
  | none => answerQueryIdFor sha256Hex evidence.idempotencyKey
  | some id =>
    if id = "" then
      answerQueryIdFor sha256Hex evidence.idempotencyKey
    else
      .ok id

def executeMembers (ordinal : Nat) : List ScopedPlan → SetRun
  | [] => ⟨[], .ok ()⟩
  | scope :: scopes =>
    match resolveStage sha256Hex bundle evidence patchSubject context ordinal scope with
    | .error stopped => ⟨[], .error stopped⟩
    | .ok (_, resolved) =>
      match sealAnswerQueryId sha256Hex evidence resolved with
      | .error stopped => ⟨[], .error stopped⟩
      | .ok id =>
        match context.executeAndPresent ordinal resolved with
        | .error stopped => ⟨[id], .error stopped⟩
        | .ok _ =>
          let later := executeMembers (ordinal + 1) scopes
          ⟨id :: later.ids, later.outcome⟩

end Run

def executeAuthorizedSet (sha256Hex : String → String)
    (bundle : DefinitionBundle) (evidence : Evidence) (round : PlannedRound)
    (context : RunContext) : SetRun :=
  executeMembers sha256Hex bundle evidence round.patchSubject context 0 round.members

section Ids

variable {sha256Hex : String → String} {bundle : DefinitionBundle}
  {evidence : Evidence} {patchSubject : Option String} {context : RunContext}

/-- Whether running a scope looks a value up. -/
def NeedsLookup (bundle : DefinitionBundle) (scope : ScopedPlan) : Prop :=
  findResolverLookups scope.plan bundle ≠ []

instance (bundle : DefinitionBundle) (scope : ScopedPlan) : Decidable (NeedsLookup bundle scope) :=
  inferInstanceAs (Decidable (_ ≠ _))

/-- The key behind a member's id: a patched primary has its own; a member that
looked a value up falls back to the root key. -/
def keyUsed (bundle : DefinitionBundle) (evidence : Evidence)
    (patchSubject : Option String) (ordinal : Nat) (scope : ScopedPlan) :
    String :=
  match patchSubject, ordinal with
  | some subject, 0 => patchKey evidence subject
  | _, ordinal =>
    if NeedsLookup bundle scope then
      evidence.idempotencyKey
    else
      memberKey evidence ordinal

def keysUsed (bundle : DefinitionBundle) (evidence : Evidence)
    (patchSubject : Option String) (ordinal : Nat) :
    List ScopedPlan → List String
  | [] => []
  | scope :: scopes =>
    keyUsed bundle evidence patchSubject ordinal scope ::
      keysUsed bundle evidence patchSubject (ordinal + 1) scopes

theorem shortId_ne_empty (key : String) : shortId sha256Hex key ≠ "" := prefix_ne_empty (by decide)

theorem patchKey_ne_empty (subject : String) : patchKey evidence subject ≠ "" :=
  prefix_ne_empty (prefix_ne_empty evidence.keyNonempty)

theorem memberKey_injective {first second : Nat}
    (same : memberKey evidence first = memberKey evidence second) :
    first = second := by
  have numbered : ∀ ordinal, ordinal ≠ 0 → (memberKey evidence ordinal).toList =
        evidence.idempotencyKey.toList ++ (":sub:".toList ++ Nat.toDigits 10 ordinal) := by
    intro ordinal positive
    rw [memberKey, if_neg positive]
    simp [String.toList_append]
  have root : (memberKey evidence 0).toList =
      evidence.idempotencyKey.toList := by
    rw [memberKey, if_pos rfl]
  -- the root key is a proper prefix of every numbered one
  have longer : ∀ ordinal, ordinal ≠ 0 →
      (memberKey evidence ordinal).toList ≠ (memberKey evidence 0).toList := by
    intro ordinal positive equal
    rw [numbered ordinal positive, root] at equal
    simp at equal
  have lists := congrArg String.toList same
  by_cases firstZero : first = 0
  · by_cases secondZero : second = 0
    · rw [firstZero, secondZero]
    · rw [firstZero] at lists
      exact absurd lists.symm (longer second secondZero)
  · by_cases secondZero : second = 0
    · rw [secondZero] at lists
      exact absurd lists (longer first firstZero)
    · rw [numbered first firstZero, numbered second secondZero] at lists
      have digits := append_cancel_left (append_cancel_left lists)
      have values := congrArg (Nat.ofDigitChars 10 · 0) digits
      simpa [Nat.ofDigitChars_ten_toDigits] using values

variable {scope : ScopedPlan}

theorem sealAnswerQueryId_of_none (absent : scope.answerQueryId = none) :
    sealAnswerQueryId sha256Hex evidence scope =
      .ok (shortId sha256Hex evidence.idempotencyKey) := by
  rw [sealAnswerQueryId, absent]
  exact answerQueryIdFor_of_ne_empty evidence.keyNonempty

theorem sealAnswerQueryId_of_some {key : String}
    (stamped : scope.answerQueryId = some (shortId sha256Hex key)) :
    sealAnswerQueryId sha256Hex evidence scope = .ok (shortId sha256Hex key) := by
  simp only [sealAnswerQueryId, stamped]
  exact if_neg (shortId_ne_empty key)

variable {plan : BusinessQueryPlan} {ordinal : Nat}

theorem resolveValues_answerQueryId {stages : Stages} {result : ScopedPlan} {request : Request}
    (resolved : resolveValues sha256Hex stages scope.plan scope request bundle
      (some evidence) ordinal = .ok (plan, result)) :
    result.answerQueryId =
      if NeedsLookup bundle scope then
        none
      else
        some (shortId sha256Hex (memberKey evidence ordinal)) := by
  rcases resolveValues_eq_ok resolved with ⟨noLookup, -, rfl⟩ | ⟨lookup, oneLookup, rebound⟩
  · have settled : ¬NeedsLookup bundle scope := not_not.mpr noLookup
    rw [if_neg settled]
    rfl
  · have needed : NeedsLookup bundle scope := by
      rw [NeedsLookup, oneLookup]
      exact cons_ne_nil lookup []
    rw [if_pos needed]
    exact validateAndScope_answerQueryId rebound.prepared

theorem seal_resolveStage {resolved : ScopedPlan}
    (isResolved : resolveStage sha256Hex bundle evidence patchSubject context
      ordinal scope = .ok (plan, resolved)) :
    sealAnswerQueryId sha256Hex evidence resolved = .ok (shortId sha256Hex
        (keyUsed bundle evidence patchSubject ordinal scope)) := by
  rw [resolveStage, bind_eq_ok] at isResolved
  obtain ⟨⟨found, stamped⟩, isFound, restored⟩ := isResolved
  have id := resolveValues_answerQueryId isFound
  have unpatched : sealAnswerQueryId sha256Hex evidence stamped = .ok (shortId sha256Hex
        (if NeedsLookup bundle scope then
          evidence.idempotencyKey
        else
          memberKey evidence ordinal)) := by
    split at id
    · rename_i needed
      rw [if_pos needed]
      exact sealAnswerQueryId_of_none id
    · rename_i settled
      rw [if_neg settled]
      exact sealAnswerQueryId_of_some id
  cases patchSubject with
  | none =>
    cases restored
    exact unpatched
  | some subject =>
    cases ordinal with
    | zero =>
      simp only [answerQueryIdFor_of_ne_empty (patchKey_ne_empty subject)] at restored
      cases restored
      exact sealAnswerQueryId_of_some rfl
    | succ ordinal =>
      cases restored
      exact unpatched

@[simp] theorem length_keysUsed (ordinal : Nat) (scopes : List ScopedPlan) :
    (keysUsed bundle evidence patchSubject ordinal scopes).length = scopes.length := by
  induction scopes generalizing ordinal with
  | nil => rfl
  | cons scope scopes ih => rw [keysUsed, length_cons, ih, length_cons]

theorem keysUsed_append (ordinal : Nat) (first second : List ScopedPlan) :
    keysUsed bundle evidence patchSubject ordinal (first ++ second) =
      keysUsed bundle evidence patchSubject ordinal first ++
        keysUsed bundle evidence patchSubject (ordinal + first.length) second := by
  induction first generalizing ordinal with
  | nil => rfl
  | cons scope scopes ih =>
    have shifted : ordinal + 1 + scopes.length = ordinal + (scope :: scopes).length := by
      rw [length_cons]
      omega
    rw [cons_append, keysUsed, keysUsed, ih, shifted, cons_append]

/-- A run seals its members in order, each under its own key, until one
stops. -/
theorem executeMembers_ids_prefix (ordinal : Nat) (scopes : List ScopedPlan) :
    (executeMembers sha256Hex bundle evidence patchSubject context ordinal scopes).ids <+:
      (keysUsed bundle evidence patchSubject ordinal scopes).map (shortId sha256Hex) := by
  induction scopes generalizing ordinal with
  | nil => exact prefix_rfl
  | cons scope scopes ih =>
    rw [executeMembers, keysUsed, map_cons]
    split
    · exact List.nil_prefix
    · rename_i plan resolved isResolved
      rw [seal_resolveStage isResolved]
      dsimp only
      split
      · exact List.cons_prefix_cons.mpr ⟨rfl, List.nil_prefix⟩
      · exact List.cons_prefix_cons.mpr ⟨rfl, ih (ordinal + 1)⟩

/-- The ids of a run that sealed exactly the given members. -/
theorem executeAuthorizedSet_ids {round : PlannedRound}
    {executed rest : List ScopedPlan} (members : round.members = executed ++ rest)
    (ran : (executeAuthorizedSet sha256Hex bundle evidence round
      context).ids.length = executed.length) :
    (executeAuthorizedSet sha256Hex bundle evidence round context).ids =
      (keysUsed bundle evidence round.patchSubject 0 executed).map (shortId sha256Hex) := by
  have sealed : (executeAuthorizedSet sha256Hex bundle evidence round
      context).ids <+: _ := executeMembers_ids_prefix 0 round.members
  rw [List.prefix_iff_eq_take.mp sealed, ran, members, keysUsed_append, map_append]
  apply take_left'
  simp

/-- The digests of the given keys, cut to an id, tell the keys apart. -/
def NoCollision (sha256Hex : String → String) (keys : List String) : Prop :=
  ∀ first ∈ keys, ∀ second ∈ keys,
    shortId sha256Hex first = shortId sha256Hex second → first = second

instance (sha256Hex : String → String) (keys : List String) :
    Decidable (NoCollision sha256Hex keys) :=
  inferInstanceAs (Decidable (∀ first ∈ keys, ∀ second ∈ keys, _))

/-- The keys of the first members of a set. -/
def memberKeys (evidence : Evidence) (size : Nat) : List String :=
  (List.range size).map (memberKey evidence)

variable {scopes : List ScopedPlan}

theorem keysUsed_of_settled (unpatched : patchSubject = none ∨ ordinal ≠ 0)
    (settled : ∀ scope ∈ scopes, ¬NeedsLookup bundle scope) :
    keysUsed bundle evidence patchSubject ordinal scopes =
      (List.range' ordinal scopes.length).map (memberKey evidence) := by
  induction scopes generalizing ordinal with
  | nil => rfl
  | cons scope scopes ih =>
    have later := @ih (ordinal + 1) (.inr (Nat.succ_ne_zero _))
      fun other member => settled other (mem_cons_of_mem _ member)
    rw [keysUsed, later, length_cons, List.range'_succ, map_cons]
    congr 1
    have own : ¬NeedsLookup bundle scope := settled scope mem_cons_self
    rcases unpatched with rfl | numbered
    · rw [keyUsed, if_neg own]
      intro subject isSubject
      cases isSubject
    · cases ordinal with
      | zero => exact absurd rfl numbered
      | succ ordinal =>
        cases patchSubject <;> exact if_neg own

theorem root_mem_keysUsed (later : ordinal ≠ 0) (member : scope ∈ scopes)
    (needed : NeedsLookup bundle scope) :
    evidence.idempotencyKey ∈ keysUsed bundle evidence patchSubject ordinal scopes := by
  induction scopes generalizing ordinal with
  | nil => cases member
  | cons first scopes ih =>
    rw [keysUsed, mem_cons]
    rcases List.mem_cons.mp member with rfl | inRest
    · apply Or.inl
      cases ordinal with
      | zero => exact absurd rfl later
      | succ ordinal =>
        cases patchSubject <;> exact (if_pos needed).symm
    · exact .inr (ih (Nat.succ_ne_zero ordinal) inRest)

/-- The primary of an unpatched set runs under the root key whether or not it
looks a value up. -/
theorem keyUsed_primary (scope : ScopedPlan) :
    keyUsed bundle evidence none 0 scope = evidence.idempotencyKey := by
  show (if NeedsLookup bundle scope then evidence.idempotencyKey
    else memberKey evidence 0) = evidence.idempotencyKey
  split
  · rfl
  · exact if_pos rfl

theorem nodup_ids_iff {first : ScopedPlan} {later : List ScopedPlan}
    (noCollision : NoCollision sha256Hex (memberKeys evidence (first :: later).length)) :
    ((keysUsed bundle evidence none 0 (first :: later)).map (shortId sha256Hex)).Nodup ↔
      ∀ scope ∈ later, ¬NeedsLookup bundle scope := by
  rw [keysUsed, keyUsed_primary, map_cons, nodup_cons]
  constructor
  · rintro ⟨fresh, -⟩ scope member needed
    apply fresh
    exact mem_map_of_mem (root_mem_keysUsed (Nat.succ_ne_zero 0) member needed)
  · intro settled
    rw [keysUsed_of_settled (.inl rfl) settled, ← nodup_cons, ← map_cons]
    have keys : evidence.idempotencyKey ::
        (List.range' (0 + 1) later.length).map (memberKey evidence) =
          memberKeys evidence (first :: later).length := by
      rw [memberKeys, length_cons, range_eq_range', List.range'_succ, map_cons]
      rfl
    rw [keys]
    apply List.Nodup.map_on noCollision
    apply List.Nodup.map _ nodup_range
    intro left right same
    exact memberKey_injective same

/-- The members of a set that ran are sealed under pairwise distinct ids, the
same on every replay under the same key, exactly when no member after the
primary looks a value up. -/
theorem executeAuthorizedSet_ids_distinct_iff {round : PlannedRound}
    {executed rest : List ScopedPlan} (members : round.members = executed ++ rest)
    (ran : (executeAuthorizedSet sha256Hex bundle evidence round
      context).ids.length = executed.length)
    (noCollision : NoCollision sha256Hex (memberKeys evidence executed.length)) :
    ((executeAuthorizedSet sha256Hex bundle evidence round context).ids.Nodup ∧ ∀ replay,
          (executeAuthorizedSet sha256Hex bundle evidence round
            replay).ids.length = executed.length →
          (executeAuthorizedSet sha256Hex bundle evidence round replay).ids =
            (executeAuthorizedSet sha256Hex bundle evidence round context).ids) ↔
      ∀ scope ∈ executed.tail, ¬NeedsLookup bundle scope := by
  have ids := executeAuthorizedSet_ids members ran
  have stable : ∀ replay, (executeAuthorizedSet sha256Hex bundle evidence round
        replay).ids.length = executed.length →
      (executeAuthorizedSet sha256Hex bundle evidence round replay).ids =
        (executeAuthorizedSet sha256Hex bundle evidence round context).ids := by
    intro replay ranAgain
    rw [ids, executeAuthorizedSet_ids members ranAgain]
  rw [and_iff_left stable, ids]
  cases executed with
  | nil => simp [keysUsed]
  | cons first later =>
    cases patched : round.patchSubject with
    | none => exact nodup_ids_iff noCollision
    | some subject =>
      -- a patched round has one member
      have alone : later = [] := by
        have one := round.patchedAlone (by rw [patched]; rfl)
        rw [members, cons_append, length_cons, length_append] at one
        exact eq_nil_of_length_eq_zero (by omega)
      rw [alone]
      simp [keysUsed]

end Ids

/-- One resource whose names a lookup resolves. -/
def directoryBundle : DefinitionBundle where
  contentHash := "sha256:directory"
  resources := [
    { name := "customer", projectionView := "ai_v1_bq_customer_fact"
      primaryKey := "id", departmentScopeMode := .none
      scopeColumns := ⟨some "entity_id", none⟩ }]
  dimensions := [
    { name := "customer.name", owningResource := "customer"
      sqlExpression := "name", type := .string
      resolvableAs := some .customer },
    { name := "customer.city", owningResource := "customer"
      sqlExpression := "city", type := .string }]
  capabilities := [
    { name := "customer.name", kind := .dimension, resolvesTo := "customer.name"
      requiredPermissions := ["view customer"], capabilityState := .enabled },
    { name := "customer.city", kind := .dimension, resolvesTo := "customer.city"
      requiredPermissions := ["view customer"], capabilityState := .enabled }]

def directoryClerk : Principal where
  role := "clerk"
  permissions := ["view customer"]
  entityId := some 1
  crossEntity := some false

def directoryRequest : Request where
  principal := directoryClerk

def allCities : BusinessQueryPlan where
  dimensions := ["customer.city"]
  grain := .entityRows

def acmeCity : BusinessQueryPlan where
  dimensions := ["customer.city"]
  filters := some {
    all := [.leaf (.filter ⟨"customer.name", .contains, [.text "acme"], rfl⟩)] }
  grain := .entityRows

/-- The scope the clerk's request gives a plan over the directory. -/
def directoryScope (plan : BusinessQueryPlan) : ScopedPlan where
  plan := plan
  resources := ["customer"]
  forced := [⟨"customer", "entity_id", .eq, [.integer 1], .principalScope⟩]
  principal := some directoryClerk
  bundleHash := some "sha256:directory"

/-- A resolver that knows one customer; every other stage lets the member
pass. -/
def directoryContext : RunContext where
  request := directoryRequest
  stages := fun _ =>
    { precheck := fun _ _ plan => .ok plan
      resolve := some fun _ _ => .exact "Acme Ltd" }
  executeAndPresent := fun _ _ => .ok ()

def turnEvidence : Evidence where
  idempotencyKey := "turn-7"

/-- SHA-256 on the two keys of a set of two members. -/
def turnDigest (key : String) : String :=
  if key = "turn-7" then
    "c8196fb128b89f486c374c42dba8df8effb71184dcf028fc97d84d1eb5c40383"
  else if key = "turn-7:sub:1" then
    "54b39e67a52108727f0c90d4f252ffe3c197a6f85200167bddd304fc0ef78dd7"
  else
    ""

theorem turnDigest_noCollision : NoCollision turnDigest (memberKeys turnEvidence 2) := by
  decide

/-- The primary looks a customer up; the companion lists all cities. -/
def acmeFirst : PlannedRound where
  members := [directoryScope acmeCity, directoryScope allCities]

theorem executeAuthorizedSet_ids_distinct_iff_acmeFirst :
    ((executeAuthorizedSet turnDigest directoryBundle turnEvidence acmeFirst
          directoryContext).ids.Nodup ∧
        ∀ replay, (executeAuthorizedSet turnDigest directoryBundle turnEvidence
            acmeFirst replay).ids.length = acmeFirst.members.length →
          (executeAuthorizedSet turnDigest directoryBundle turnEvidence acmeFirst replay).ids =
            (executeAuthorizedSet turnDigest directoryBundle turnEvidence
              acmeFirst directoryContext).ids) ↔
      ∀ scope ∈ acmeFirst.members.tail, ¬NeedsLookup directoryBundle scope := by
  have ran : (executeAuthorizedSet turnDigest directoryBundle turnEvidence
      acmeFirst directoryContext).ids.length = acmeFirst.members.length := by
    rfl
  exact executeAuthorizedSet_ids_distinct_iff
    (append_nil acmeFirst.members).symm ran turnDigest_noCollision

/-- The primary lists all cities; the companion looks a customer up. -/
def acmeSecond : PlannedRound where
  members := [directoryScope allCities, directoryScope acmeCity]

/-- A companion that looks a value up is sealed under the primary's id. -/
theorem companion_lookup_repeats_id : NoCollision turnDigest (memberKeys turnEvidence 2) ∧
      (executeAuthorizedSet turnDigest directoryBundle turnEvidence acmeSecond
        directoryContext).ids =
        ["aq_c8196fb128b89f486c374c42dba8df8e",
          "aq_c8196fb128b89f486c374c42dba8df8e"] ∧
      ¬(executeAuthorizedSet turnDigest directoryBundle turnEvidence acmeSecond
        directoryContext).ids.Nodup := by
  have ids : (executeAuthorizedSet turnDigest directoryBundle turnEvidence
      acmeSecond directoryContext).ids =
        ["aq_c8196fb128b89f486c374c42dba8df8e",
          "aq_c8196fb128b89f486c374c42dba8df8e"] := by
    rfl
  refine ⟨turnDigest_noCollision, ids, ?_⟩
  rw [ids]
  decide

end McpAssistant.BusinessQuery.PlannedExecution
