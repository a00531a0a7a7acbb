import McpAssistant.BusinessQuery.Scoping

/-!
# Restoring a stored scope

A continued question scopes its plan again and reconciles the fresh forced
predicates with the ones stored beside the plan.  Predicates are compared in a
canonical order, by the text of their JSON encoding.
-/

namespace McpAssistant.BusinessQuery.ContinuedOperation

open Definitions QueryPlan Visibility Scopes Outcomes Foundations.Fallible

/-- One character of a JSON string; everything but printable ASCII is escaped,
as a surrogate pair beyond the basic plane. -/
def jsonChar (letter : Char) : List Char :=
  let hex (code : Nat) : List Char :=
    let digits := Nat.toDigits 16 code
    '\\' :: 'u' :: (List.replicate (4 - digits.length) '0' ++ digits)
  let code := letter.toNat
  if letter = '"' then ['\\', '"']
  else if letter = '\\' then ['\\', '\\']
  else if letter = '\n' then ['\\', 'n']
  else if letter = '\r' then ['\\', 'r']
  else if letter = '\t' then ['\\', 't']
  else if code = 8 then ['\\', 'b']
  else if code = 12 then ['\\', 'f']
  else if 32 ≤ code ∧ code < 127 then [letter]
  else if code < 0x10000 then hex code
  else
    hex (0xD800 + (code - 0x10000) / 0x400) ++ hex (0xDC00 + (code - 0x10000) % 0x400)

def jsonString (value : String) : String :=
  String.ofList (['"'] ++ value.toList.flatMap jsonChar ++ ['"'])

def jsonValue : FilterValue → String
  | .text value => jsonString value
  | .integer value => toString value
  | .float _ printed => printed
  | .boolean value => if value then "true" else "false"

/-- A predicate as compact JSON with sorted keys. -/
def jsonText (predicate : ForcedPredicate) : String :=
  let operator :=
    match predicate.operator with
    | .eq => "eq"
    | .isIn => "in"
  let source :=
    match predicate.source with
    | .principalScope => "principal_scope"
    | .recordReferent => "record_referent"
  "\x7b\"column\":" ++ jsonString predicate.column ++
    ",\"operator\":" ++ jsonString operator ++
    ",\"resource\":" ++ jsonString predicate.resource ++
    ",\"source\":" ++ jsonString source ++
    ",\"values\":[" ++ ",".intercalate (predicate.values.map jsonValue) ++
    "]\x7d"

def canonicalForced (predicates : List ForcedPredicate) : List ForcedPredicate :=
  predicates.insertionSort fun left right => jsonText left ≤ jsonText right

/-- Whether two lists match entry for entry. -/
def matchesEach {Item : Type} (same : Item → Item → Bool) : List Item → List Item → Bool
  | [], [] => true
  | left :: lefts, right :: rights =>
    same left right && matchesEach same lefts rights
  | _, _ => false

/-- Python's `==` on two encoded predicates: values compare as Python values. -/
def samePredicate (left right : ForcedPredicate) : Bool :=
  left.resource == right.resource && left.column == right.column &&
    left.operator == right.operator && left.source == right.source &&
    matchesEach FilterValue.pyEq left.values right.values

def sameCanonical (left right : List ForcedPredicate) : Bool :=
  matchesEach samePredicate (canonicalForced left) (canonicalForced right)

def ofSource (source : ForcedSource) (predicates : List ForcedPredicate) : List ForcedPredicate :=
  predicates.filter fun predicate => predicate.source == source

/-- Appends the items a list does not hold yet.  Predicates have the same
encoding exactly when they are equal. -/
def appendNew : List ForcedPredicate → List ForcedPredicate → List ForcedPredicate
  | merged, [] => merged
  | merged, item :: items =>
    if item ∈ merged then
      appendNew merged items
    else
      appendNew (merged ++ [item]) items

def reconcileForcedPredicates (reauthorized stored : List ForcedPredicate)
    (isDerived : Bool) : Except Raised (List ForcedPredicate) :=
  let currentPrincipal := ofSource .principalScope reauthorized
  let storedPrincipal := ofSource .principalScope stored
  let currentRecord := ofSource .recordReferent reauthorized
  let storedRecord := ofSource .recordReferent stored
  -- a plan stored before principal predicates were recorded is not compared
  if (!storedPrincipal.isEmpty || isDerived) && !sameCanonical currentPrincipal storedPrincipal then
    .error (.scopeDenied "principal scope mismatch")
  else if !currentRecord.isEmpty && !sameCanonical currentRecord storedRecord then
    .error (.scopeDenied "record referent mismatch")
  else
    .ok (appendNew currentPrincipal storedRecord)

structure DerivedScopeSnapshot where
  id : String
  forced : List ForcedPredicate

structure DerivedPlanPayload where
  businessDate : Option Int
  derived : List DerivedScopeSnapshot
  idsDistinct : (derived.map DerivedScopeSnapshot.id).Nodup := by decide

/-- What the store keeps of an answered plan.  A payload for derived sets is
kept exactly for the plans that declare some, one snapshot for each. -/
structure StoredPlan where
  plan : BusinessQueryPlan
  forced : List ForcedPredicate := []
  responsePolicy : ResponsePolicy := .allowPartial
  derivedPayload : Option DerivedPlanPayload := none
  payloadIffSets : derivedPayload.isSome = !plan.derivedSets.isEmpty := by rfl
  snapshotsMatchSets : ∀ payload, derivedPayload = some payload → ∀ id,
    id ∈ payload.derived.map DerivedScopeSnapshot.id ↔
      id ∈ plan.derivedSets.map DerivedSet.id := by simp

def reconcileDerived (snapshots : List DerivedScopeSnapshot) :
    List (ScopedDerivedSet ScopedPlan) → Except Raised (List (ScopedDerivedSet ScopedPlan))
  | [] => .ok []
  | item :: items =>
    match snapshots.find? fun snapshot => snapshot.id == item.id with
    | none => .error denied
    | some snapshot => do
      let forced ← reconcileForcedPredicates item.scopedPlan.forced snapshot.forced true
      let rest ← reconcileDerived snapshots items
      return { item with
        scopedPlan := { item.scopedPlan with forced := forced } } :: rest

/-- Two lists of names with the same members. -/
def sameNames (left right : List String) : Bool :=
  left.all right.contains && right.all left.contains

def restoreStoredScope (scope : ScopedPlan) (stored : StoredPlan)
    (principal : Principal) (bundle : DefinitionBundle) :
    Except Raised ScopedPlan := do
  let frozenDate := stored.derivedPayload.bind DerivedPlanPayload.businessDate
  let bound := bindScopeContext principal bundle.contentHash frozenDate stored.responsePolicy scope
  let forced ← reconcileForcedPredicates bound.forced stored.forced stored.derivedPayload.isSome
  let snapshots := (stored.derivedPayload.map DerivedPlanPayload.derived).getD []
  if sameNames (snapshots.map DerivedScopeSnapshot.id) (bound.derived.map ScopedDerivedSet.id) then
    match stored.derivedPayload with
    | none => return { bound with forced := forced }
    | some payload => do
      let derived ← reconcileDerived payload.derived bound.derived
      return { bound with forced := forced, derived := derived }
  else
    throw denied

variable {predicate : ForcedPredicate}

theorem mem_appendNew {merged items : List ForcedPredicate} :
    predicate ∈ appendNew merged items ↔ predicate ∈ merged ∨ predicate ∈ items := by
  induction items generalizing merged with
  | nil => simp [appendNew]
  | cons item items ih =>
    rw [appendNew]
    split
    · rename_i known
      rw [ih, List.mem_cons]
      constructor
      · rintro (old | new)
        · exact .inl old
        · exact .inr (.inr new)
      · rintro (old | rfl | new)
        · exact .inl old
        · exact .inl known
        · exact .inr new
    · rw [ih]
      simp [or_assoc]

theorem mem_ofSource {source : ForcedSource} {predicates : List ForcedPredicate} :
    predicate ∈ ofSource source predicates ↔
      predicate ∈ predicates ∧ predicate.source = source := by
  simp [ofSource]

structure Reconciled (current stored result : List ForcedPredicate) : Prop where
  principalScope : ∀ predicate ∈ current, predicate.source = .principalScope → predicate ∈ result
  recordReferent : ∀ predicate ∈ stored, predicate.source = .recordReferent → predicate ∈ result

/-- The two lists impose the same principal scope, in canonical form. -/
def SamePrincipalScope (current stored : List ForcedPredicate) : Prop :=
  sameCanonical (ofSource .principalScope current) (ofSource .principalScope stored) = true

theorem reconcile_eq_ok {current stored result : List ForcedPredicate} {isDerived : Bool}
    (reconciled : reconcileForcedPredicates current stored isDerived = .ok result) :
    Reconciled current stored result ∧ ((∃ predicate ∈ stored, predicate.source = .principalScope) ∨
          isDerived = true → SamePrincipalScope current stored) := by
  rw [reconcileForcedPredicates] at reconciled
  split at reconciled
  · cases reconciled
  · rename_i compared
    split at reconciled
    · cases reconciled
    · cases reconciled
      constructor
      · constructor
        · intro predicate member source
          exact mem_appendNew.mpr (.inl (mem_ofSource.mpr ⟨member, source⟩))
        · intro predicate member source
          exact mem_appendNew.mpr (.inr (mem_ofSource.mpr ⟨member, source⟩))
      · intro guarded
        by_contra differ
        apply compared
        have isGuarded : (!(ofSource .principalScope stored).isEmpty || isDerived) = true := by
          rcases guarded with ⟨predicate, member, source⟩ | derived
          · have nonempty : ofSource .principalScope stored ≠ [] :=
              List.ne_nil_of_mem (mem_ofSource.mpr ⟨member, source⟩)
            simp [List.isEmpty_eq_false_iff.mpr nonempty]
          · simp [derived]
        rw [SamePrincipalScope, Bool.not_eq_true] at differ
        simp [isGuarded, differ]

theorem reconcile_eq_error {current stored : List ForcedPredicate}
    {isDerived : Bool} {raised : Raised}
    (failed : reconcileForcedPredicates current stored isDerived = .error raised) :
    ∃ message, raised = .scopeDenied message := by
  rw [reconcileForcedPredicates] at failed
  split at failed
  · cases failed
    exact ⟨_, rfl⟩
  · split at failed
    · cases failed
      exact ⟨_, rfl⟩
    · cases failed

structure DerivedReconciled (snapshots : List DerivedScopeSnapshot)
    (fresh restored : ScopedDerivedSet ScopedPlan) : Prop where
  sameSet : restored.id = fresh.id ∧ restored.key = fresh.key ∧ restored.mode = fresh.mode
  snapshot : ∃ snapshot ∈ snapshots, snapshot.id = fresh.id ∧
    Reconciled fresh.scopedPlan.forced snapshot.forced restored.scopedPlan.forced ∧
    SamePrincipalScope fresh.scopedPlan.forced snapshot.forced

variable {snapshots : List DerivedScopeSnapshot} {items : List (ScopedDerivedSet ScopedPlan)}

theorem reconcileDerived_eq_ok {result : List (ScopedDerivedSet ScopedPlan)}
    (reconciled : reconcileDerived snapshots items = .ok result) :
    List.Forall₂ (DerivedReconciled snapshots) items result := by
  induction items generalizing result with
  | nil =>
    cases reconciled
    exact .nil
  | cons item items ih =>
    rw [reconcileDerived] at reconciled
    split at reconciled
    · cases reconciled
    · rename_i snapshot found
      simp only [bind_eq_ok, pure_eq_ok] at reconciled
      obtain ⟨forced, isForced, rest, isRest, rfl⟩ := reconciled
      obtain ⟨kept, compared⟩ := reconcile_eq_ok isForced
      have sameId : snapshot.id = item.id := by
        simpa using List.find?_some found
      apply List.Forall₂.cons _ (ih isRest)
      constructor
      · exact ⟨rfl, rfl, rfl⟩
      · exact ⟨snapshot, List.mem_of_find?_eq_some found, sameId, kept, compared (.inr rfl)⟩

theorem reconcileDerived_eq_error {raised : Raised}
    (failed : reconcileDerived snapshots items = .error raised) :
    ∃ message, raised = .scopeDenied message := by
  induction items with
  | nil => cases failed
  | cons item items ih =>
    rw [reconcileDerived] at failed
    split at failed
    · cases failed
      exact ⟨_, rfl⟩
    · rename_i snapshot found
      cases reconciled : reconcileForcedPredicates item.scopedPlan.forced snapshot.forced true with
      | error raised' =>
        rw [reconciled] at failed
        cases failed
        exact reconcile_eq_error reconciled
      | ok forced =>
        rw [reconciled] at failed
        cases rest : reconcileDerived snapshots items with
        | error raised' =>
          rw [rest] at failed
          cases failed
          exact ih rest
        | ok result =>
          rw [rest] at failed
          cases failed

private theorem exists_right_of_forall₂ {Left Right : Type}
    {relation : Left → Right → Prop} {lefts : List Left} {rights : List Right}
    (related : List.Forall₂ relation lefts rights) {left : Left}
    (member : left ∈ lefts) : ∃ right ∈ rights, relation left right := by
  induction related with
  | nil => cases member
  | cons first _ ih =>
    rcases List.mem_cons.mp member with rfl | later
    · exact ⟨_, List.mem_cons_self, first⟩
    · obtain ⟨right, rightIn, holds⟩ := ih later
      exact ⟨right, List.mem_cons_of_mem _ rightIn, holds⟩

section Restore

variable {scope result : ScopedPlan} {stored : StoredPlan}
  {principal : Principal} {bundle : DefinitionBundle}

def storedSnapshots (stored : StoredPlan) : List DerivedScopeSnapshot :=
  (stored.derivedPayload.map DerivedPlanPayload.derived).getD []

structure Restored (scope : ScopedPlan) (stored : StoredPlan) (result : ScopedPlan) : Prop where
  root : Reconciled scope.forced stored.forced result.forced
  derived : List.Forall₂ (DerivedReconciled (storedSnapshots stored)) scope.derived result.derived

/-- The stored principal scope differs from the current one where it is
compared: on the root when any was stored or the plan carries derived sets, and
on every derived set. -/
def PrincipalScopeDiffers (scope : ScopedPlan) (stored : StoredPlan) : Prop :=
  (((∃ predicate ∈ stored.forced, predicate.source = .principalScope) ∨
      stored.derivedPayload.isSome = true) ∧
    ¬SamePrincipalScope scope.forced stored.forced) ∨
  ∃ fresh ∈ scope.derived, ∃ snapshot ∈ storedSnapshots stored, snapshot.id = fresh.id ∧
      ¬SamePrincipalScope fresh.scopedPlan.forced snapshot.forced

/-- Snapshots have distinct ids, so an id names one of them. -/
theorem snapshot_eq_of_id {first second : DerivedScopeSnapshot}
    (firstIn : first ∈ storedSnapshots stored)
    (secondIn : second ∈ storedSnapshots stored) (sameId : first.id = second.id) :
    first = second := by
  have distinct : ((storedSnapshots stored).map DerivedScopeSnapshot.id).Nodup := by
    rw [storedSnapshots]
    cases stored.derivedPayload with
    | none => simp
    | some payload => exact payload.idsDistinct
  exact List.inj_on_of_nodup_map distinct firstIn secondIn sameId

theorem restored_of_eq_ok
    (restored : restoreStoredScope scope stored principal bundle = .ok result) :
    Restored scope stored result ∧ ¬PrincipalScopeDiffers scope stored := by
  rw [restoreStoredScope, bindScopeContext_eq] at restored
  simp only [bind_eq_ok] at restored
  obtain ⟨forced, isForced, rest⟩ := restored
  obtain ⟨root, rootSame⟩ := reconcile_eq_ok isForced
  split at rest
  · rename_i sameIds
    have derivedSpec : List.Forall₂ (DerivedReconciled (storedSnapshots stored))
        scope.derived result.derived ∧ result.forced = forced := by
      rw [storedSnapshots]
      split at rest
      · rename_i noPayload
        simp only [pure_eq_ok] at rest
        subst rest
        have empty : scope.derived = [] := by
          apply List.eq_nil_iff_forall_not_mem.mpr
          simpa [noPayload, sameNames] using sameIds
        simp [empty]
      · rename_i payload isPayload
        simp only [bind_eq_ok, pure_eq_ok] at rest
        obtain ⟨derived, isDerived, rfl⟩ := rest
        have each := reconcileDerived_eq_ok isDerived
        rw [List.forall₂_map_left_iff] at each
        simp only [isPayload, Option.map_some, Option.getD_some, and_true]
        refine each.imp ?_
        intro fresh found reconciled
        exact ⟨reconciled.sameSet, by
          simpa only [bindScopeContext_forced] using reconciled.snapshot⟩
    obtain ⟨derived, rfl⟩ := derivedSpec
    refine ⟨⟨root, derived⟩, ?_⟩
    rintro (⟨guarded, differ⟩ | ⟨fresh, freshIn, snapshot, snapshotIn, sameId, differ⟩)
    · exact differ (rootSame guarded)
    · obtain ⟨found, -, reconciled⟩ := exists_right_of_forall₂ derived freshIn
      obtain ⟨other, otherIn, otherId, -, same⟩ := reconciled.snapshot
      rw [snapshot_eq_of_id snapshotIn otherIn (sameId.trans otherId.symm)] at differ
      exact differ same
  · cases rest

theorem restoreStoredScope_eq_error {raised : Raised}
    (failed : restoreStoredScope scope stored principal bundle =
      .error raised) : ∃ message, raised = .scopeDenied message := by
  rw [restoreStoredScope, bindScopeContext_eq] at failed
  dsimp only at failed
  cases isForced : reconcileForcedPredicates scope.forced stored.forced
      stored.derivedPayload.isSome with
  | error raised' =>
    rw [isForced] at failed
    cases failed
    exact reconcile_eq_error isForced
  | ok forced =>
    rw [isForced] at failed
    simp only [bind, Except.bind] at failed
    split at failed
    · split at failed
      · cases failed
      · split at failed
        · rename_i raised' isDerived
          cases failed
          exact reconcileDerived_eq_error isDerived
        · cases failed
    · cases failed
      exact ⟨_, rfl⟩

/-- A restored scope keeps the current principal's predicates and the stored
record referents, on the root and on every derived set; a principal scope that
differs where it is compared is denied. -/
theorem restoreStoredScope_never_broadens (scope : ScopedPlan)
    (stored : StoredPlan) (principal : Principal) (bundle : DefinitionBundle) :
    (∀ result, restoreStoredScope scope stored principal bundle = .ok result →
      Restored scope stored result) ∧
    (PrincipalScopeDiffers scope stored → ∃ message,
      restoreStoredScope scope stored principal bundle = .error (.scopeDenied message)) := by
  constructor
  · intro result restored
    exact (restored_of_eq_ok restored).1
  · intro differs
    cases restored : restoreStoredScope scope stored principal bundle with
    | ok result => exact absurd differs (restored_of_eq_ok restored).2
    | error raised =>
      obtain ⟨message, rfl⟩ := restoreStoredScope_eq_error restored
      exact ⟨message, rfl⟩

end Restore

def jobTitles : BusinessQueryPlan where
  dimensions := ["job.title"]
  grain := .entityRows

def jobTitlesScope : ScopedPlan where
  plan := jobTitles
  resources := ["job"]
  forced := [⟨"job", "entity_id", .eq, [.integer 1], .principalScope⟩]

def jobBundle : DefinitionBundle where
  contentHash := "sha256:job"
  resources := [
    { name := "job", projectionView := "ai_v1_bq_job_fact"
      primaryKey := "id", departmentScopeMode := .none
      scopeColumns := ⟨some "entity_id", none⟩ }]
  capabilities := []

def storedJobTitles : StoredPlan where
  plan := jobTitles
  forced := [⟨"job", "entity_id", .eq, [.integer 1], .principalScope⟩,
    ⟨"job", "id", .eq, [.integer 7], .recordReferent⟩]

/-- Restoring keeps the entity and adds the stored referent. -/
theorem restoreStoredScope_never_broadens_jobTitles :
    ∃ result, restoreStoredScope jobTitlesScope storedJobTitles
        { role := "viewer", entityId := some 1 } jobBundle = .ok result ∧
      Restored jobTitlesScope storedJobTitles result :=
  ⟨_, rfl, (restoreStoredScope_never_broadens jobTitlesScope storedJobTitles
    { role := "viewer", entityId := some 1 } jobBundle).1 _ rfl⟩

/-- A plan stored without any principal predicate is restored under an entity
predicate it never had. -/
theorem restoreStoredScope_accepts_missing_scope :
    ∃ result, restoreStoredScope jobTitlesScope { plan := jobTitles }
        { role := "viewer", entityId := some 1 } jobBundle = .ok result ∧
      ofSource .principalScope jobTitlesScope.forced ≠ ofSource .principalScope [] ∧
      ¬SamePrincipalScope jobTitlesScope.forced [] := by
  refine ⟨_, rfl, by decide, ?_⟩
  rw [SamePrincipalScope]
  decide

end McpAssistant.BusinessQuery.ContinuedOperation
