import McpAssistant.BusinessQuery.PlanBinding
import McpAssistant.BusinessQuery.ValidationErrors
import McpAssistant.Foundations.JsonEdits

/-!
# Patching a plan

A patch edits the dump of a plan operation by operation, and the edited payload is
validated as a plan.  An operation whose pointer leads nowhere refuses the patch, and so
does a payload that is no valid plan.
-/

namespace McpAssistant.BusinessQuery.PlanPatches

open QueryPlan PlanJson PlanValidation ValidationErrors Foundations.JsonReading
  Foundations.JsonEdits Foundations.PythonExceptions Foundations.Fallible List

mutual

def dumpPlan : BusinessQueryPlan → Entries
  | ⟨node, sets⟩ =>
    planEntries node ++ [("compare_to", dumpNullable dumpCompareTo node.compareTo),
      ("derived_sets", .list (dumpSets sets))]

def dumpSets : List (DerivedSet BusinessQueryPlan) → List Json
  | [] => []
  | ⟨id, mode, key, plan⟩ :: sets =>
    .dict (dumpSetEntries id key mode (.dict (dumpPlan plan))) :: dumpSets sets

end

inductive PatchOp where
  | add (path : String) (value : Json)
  | remove (path : String)
  | replace (path : String) (value : Json)

def PatchOp.path : PatchOp → String
  | .add path _ => path
  | .remove path => path
  | .replace path _ => path

inductive PlanPatchRefused where
  | unknownPath (detail : String)
  | indexOutOfRange (detail : String)
  | invalidPlan (raised : Raised)

/-- The text before and between slashes. -/
def splitSlashes : List Char → List (List Char)
  | [] => [[]]
  | letter :: letters =>
    if letter = '/' then [] :: splitSlashes letters
    else
      match splitSlashes letters with
      | [] => [[letter]]
      | segment :: segments => (letter :: segment) :: segments

def replaceEscape (digit meant : Char) : List Char → List Char
  | '~' :: letter :: letters =>
    if letter = digit then meant :: replaceEscape digit meant letters
    else '~' :: replaceEscape digit meant (letter :: letters)
  | letter :: letters => letter :: replaceEscape digit meant letters
  | [] => []

def unescape (segment : List Char) : String :=
  String.ofList (replaceEscape '0' '~' (replaceEscape '1' '/' segment))

abbrev Patched (Value : Type) := Except PlanPatchRefused Value

def parsePointer (path : String) : Patched (List String) :=
  if path.toList.head? ≠ some '/' then
    .error (.unknownPath ("path '" ++ path ++ "' must begin with '/'"))
  else
    let rawSegments := (splitSlashes path.toList).tail
    if rawSegments.isEmpty || rawSegments.all List.isEmpty then
      .error (.unknownPath ("path '" ++ path ++ "' specifies no target property"))
    else .ok (rawSegments.map unescape)

section Application

-- Python's `int` on a text, and nothing where it raises a `ValueError`.
variable (int : String → Option Int)

def parseListIndex (segment : String) : Patched Int :=
  match int segment with
  | some index => .ok index
  | none => .error (.unknownPath ("invalid array index '" ++ segment ++ "'"))

def boundedIndex (limit : Nat) (action segment : String) : Patched Nat := do
  let index ← parseListIndex int segment
  if index < 0 ∨ (limit : Int) ≤ index then
    .error (.indexOutOfRange ("index " ++ toString index ++ " out of range" ++ action))
  else return index.toNat

/-- A step from a container to what it holds. -/
inductive Step where
  | key (name : String)
  | index (place : Nat)

def resolveParentContainer : Json → List String → Patched (List Step × Json)
  | current, [] => .ok ([], current)
  | .dict entries, segment :: segments =>
    match entries.lookup segment with
    | none => .error (.unknownPath ("property '" ++ segment ++ "' not found"))
    | some child => (resolveParentContainer child segments).map fun found =>
      (.key segment :: found.1, found.2)
  | .list items, segment :: segments => do
      let place ← boundedIndex int items.length "" segment
      let found ← resolveParentContainer (items.getD place .null) segments
      return (.index place :: found.1, found.2)
  | _, segment :: _ =>
    .error (.unknownPath ("cannot index into primitive at '" ++ segment ++ "'"))

def changedAt : Json → List Step → Json → Json
  | _, [], container => container
  | .dict entries, .key name :: steps, container =>
    match entries.lookup name with
    | none => .dict entries
    | some child => .dict (putKey name (changedAt child steps container) entries)
  | .list items, .index place :: steps, container =>
    match items[place]? with
    | none => .list items
    | some child => .list (items.set place (changedAt child steps container))
  | payload, _ :: _, _ => payload

def applyAdd (container : Json) (key : String) (value : Json) : Patched Json :=
  match container with
  | .dict entries => .ok (.dict (putKey key value entries))
  | .list items =>
    if key = "-" then .ok (.list (items ++ [value]))
    else do
      let place ← boundedIndex int (items.length + 1) " for add" key
      return .list (items.insertIdx place value)
  | _ => .error (.unknownPath ("cannot add to non-container at '" ++ key ++ "'"))

def applyRemove (container : Json) (key : String) : Patched Json :=
  match container with
  | .dict entries =>
    if hasKey entries key then .ok (.dict (eraseKey entries key))
    else .error (.unknownPath ("property '" ++ key ++ "' not found for remove"))
  | .list items => do
      let place ← boundedIndex int items.length " for remove" key
      return .list (items.eraseIdx place)
  | _ => .error (.unknownPath ("cannot remove from non-container at '" ++ key ++ "'"))

def applyReplace (container : Json) (key : String) (value : Json) : Patched Json :=
  match container with
  | .dict entries =>
    if hasKey entries key then .ok (.dict (putKey key value entries))
    else .error (.unknownPath ("property '" ++ key ++ "' not found for replace"))
  | .list items => do
      let place ← boundedIndex int items.length " for replace" key
      return .list (items.set place value)
  | _ => .error (.unknownPath ("cannot replace in non-container at '" ++ key ++ "'"))

def applyToContainer (op : PatchOp) (container : Json) (key : String) : Patched Json :=
  match op with
  | .add _ value => applyAdd int container key value
  | .remove _ => applyRemove int container key
  | .replace _ value => applyReplace int container key value

def applySingleOp (payload : Json) (op : PatchOp) : Patched Json := do
  let segments ← parsePointer op.path
  let (steps, parent) ← resolveParentContainer int payload segments.dropLast
  let changed ← applyToContainer int op parent (segments.getLastD "")
  return changedAt payload steps changed

/-- How applying a patch ends that returns no plan. -/
inductive PatchFailure where
  | refused (refusal : PlanPatchRefused)
  | escaped (raised : PyException)

def validatePatched (frames : Nat) (payload : Json) : Except PatchFailure BusinessQueryPlan :=
  (validatePlan frames strictPython [] payload).mapError fun raised =>
    match raised with
    | .validationError faults => .refused (.invalidPlan (.validationError faults))
    | .exception .valueError => .refused (.invalidPlan (.exception .valueError))
    | .exception .typeError => .refused (.invalidPlan (.exception .typeError))
    | .exception raised => .escaped raised

def applyPlanPatch (frames : Nat) (plan : BusinessQueryPlan) (ops : List PatchOp) :
    Except PatchFailure BusinessQueryPlan := do
  let payload ← (ops.foldlM (applySingleOp int) (.dict (dumpPlan plan))).mapError .refused
  validatePatched frames payload

end Application

/-! ## Operations as edits -/

def PatchOp.edit : PatchOp → Edit
  | .add _ value => .add value
  | .remove _ => .remove
  | .replace _ value => .replace value

def listPlace (int : String → Option Int) (segment : String) : Option Nat :=
  (int segment).bind fun index => if index < 0 then none else some index.toNat

/-- An operation edits the value at its path. -/
def OpEdits (int : String → Option Int) (op : PatchOp) (before after : Json) : Prop :=
  ∃ front last, parsePointer op.path = .ok (front ++ [last]) ∧
    Edits (listPlace int) op.edit last front before after

/-- Operations edit a value one after another. -/
inductive OpsEdit (int : String → Option Int) : List PatchOp → Json → Json → Prop
  | done (payload : Json) : OpsEdit int [] payload payload
  | step {op : PatchOp} {ops : List PatchOp} {before between after : Json}
      (edits : OpEdits int op before between) (rest : OpsEdit int ops between after) :
      OpsEdit int (op :: ops) before after

section Places

variable {int : String → Option Int} {segment : String}

theorem boundedIndex_eq_ok {limit : Nat} {action : String} {place : Nat} :
    boundedIndex int limit action segment = .ok place ↔
      listPlace int segment = some place ∧ place < limit := by
  rw [boundedIndex, parseListIndex, listPlace]
  cases int segment with
  | none => exact iff_of_false nofun nofun
  | some index =>
    show (if index < 0 ∨ (limit : Int) ≤ index then _ else _) = _ ↔ _
    split
    next outside =>
      apply iff_of_false nofun
      rintro ⟨same, within⟩
      rw [Option.bind_some] at same
      split at same
      · cases same
      · cases same
        omega
    next inside =>
      rw [Option.bind_some, if_neg (by omega)]
      constructor
      · intro same
        cases same
        exact ⟨rfl, by omega⟩
      · rintro ⟨same, within⟩
        cases same
        rfl

variable {container changed : Json} {key : String}

theorem applyAdd_eq_ok {value : Json} : applyAdd int container key value = .ok changed ↔
      EditsHere (listPlace int) (.add value) key container changed := by
  cases container with
  | dict entries =>
    constructor
    · intro same
      cases same
      exact .addEntry key value entries
    · intro edits
      cases edits
      rfl
  | list items =>
    rw [applyAdd]
    split
    next append =>
      subst append
      constructor
      · intro same
        cases same
        exact .append value items
      · intro edits
        cases edits with
        | append => rfl
        | insert _ _ isItem => exact absurd rfl isItem
    next isItem =>
      constructor
      · intro applied
        rcases bind_eq_ok.mp applied with ⟨place, bounded, same⟩
        cases same
        have found := boundedIndex_eq_ok.mp bounded
        exact .insert value items isItem found.1 (Nat.le_of_lt_succ found.2)
      · intro edits
        cases edits with
        | append => exact absurd rfl isItem
        | insert _ _ _ isPlace within =>
          exact bind_eq_ok.mpr ⟨_, boundedIndex_eq_ok.mpr ⟨isPlace, Nat.lt_succ_of_le within⟩, rfl⟩
  | _ => exact iff_of_false nofun nofun

theorem applyRemove_eq_ok : applyRemove int container key = .ok changed ↔
      EditsHere (listPlace int) .remove key container changed := by
  cases container with
  | dict entries =>
    rw [applyRemove]
    constructor
    · intro applied
      split at applied
      next held =>
        cases applied
        exact .removeEntry held
      next => cases applied
    · intro edits
      cases edits with
      | removeEntry held => rw [if_pos held]
  | list items =>
    constructor
    · intro applied
      rcases bind_eq_ok.mp applied with ⟨place, bounded, same⟩
      cases same
      have found := boundedIndex_eq_ok.mp bounded
      exact .removeItem found.1 found.2
    · intro edits
      cases edits with
      | removeItem isPlace within =>
        exact bind_eq_ok.mpr ⟨_, boundedIndex_eq_ok.mpr ⟨isPlace, within⟩, rfl⟩
  | _ => exact iff_of_false nofun nofun

theorem applyReplace_eq_ok {value : Json} : applyReplace int container key value = .ok changed ↔
      EditsHere (listPlace int) (.replace value) key container changed := by
  cases container with
  | dict entries =>
    rw [applyReplace]
    constructor
    · intro applied
      split at applied
      next held =>
        cases applied
        exact .replaceEntry value held
      next => cases applied
    · intro edits
      cases edits with
      | replaceEntry _ held => rw [if_pos held]
  | list items =>
    constructor
    · intro applied
      rcases bind_eq_ok.mp applied with ⟨place, bounded, same⟩
      cases same
      have found := boundedIndex_eq_ok.mp bounded
      exact .replaceItem value found.1 found.2
    · intro edits
      cases edits with
      | replaceItem _ isPlace within =>
        exact bind_eq_ok.mpr ⟨_, boundedIndex_eq_ok.mpr ⟨isPlace, within⟩, rfl⟩
  | _ => exact iff_of_false nofun nofun

variable {op : PatchOp}

theorem applyToContainer_eq_ok : applyToContainer int op container key = .ok changed ↔
      EditsHere (listPlace int) op.edit key container changed := by
  cases op with
  | add path value => exact applyAdd_eq_ok
  | remove path => exact applyRemove_eq_ok
  | replace path value => exact applyReplace_eq_ok

/-- Resolving, changing and the change in place, behind some segments. -/
def applyBehind (int : String → Option Int) (op : PatchOp) (last : String) (payload : Json)
    (front : List String) : Patched Json := do
  let (steps, parent) ← resolveParentContainer int payload front
  let changed ← applyToContainer int op parent last
  return changedAt payload steps changed

variable {last : String} {after : Json} {front : List String} {payload : Json}

theorem applyBehind_iff :
    applyBehind int op last payload front = .ok after ↔ ∃ steps parent changed,
        resolveParentContainer int payload front = .ok (steps, parent) ∧
          applyToContainer int op parent last = .ok changed ∧
            changedAt payload steps changed = after := by
  rw [applyBehind]
  constructor
  · intro applied
    rcases bind_eq_ok.mp applied with ⟨⟨steps, parent⟩, resolved, rest⟩
    rcases bind_eq_ok.mp rest with ⟨changed, ran, same⟩
    exact ⟨steps, parent, changed, resolved, ran, pure_eq_ok.mp same⟩
  · rintro ⟨steps, parent, changed, resolved, ran, same⟩
    exact bind_eq_ok.mpr ⟨_, resolved, bind_eq_ok.mpr ⟨changed, ran, pure_eq_ok.mpr same⟩⟩

theorem applyBehind_entry {entries : Entries} :
    applyBehind int op last (.dict entries) (segment :: front) = .ok after ↔
      ∃ child changed, entries.lookup segment = some child ∧
        applyBehind int op last child front = .ok changed ∧
          .dict (putKey segment changed entries) = after := by
  rw [applyBehind_iff, resolveParentContainer]
  cases held : entries.lookup segment with
  | none =>
    apply iff_of_false
    · rintro ⟨_, _, _, resolved, _⟩
      cases resolved
    · rintro ⟨_, _, missing, _⟩
      cases missing
  | some child =>
    constructor
    · rintro ⟨steps, parent, changed, resolved, ran, same⟩
      rcases map_eq_ok.mp resolved with ⟨⟨inner, found⟩, resolvedInner, pair⟩
      cases pair
      rw [changedAt, held] at same
      exact ⟨child, _, rfl, applyBehind_iff.mpr ⟨_, _, _, resolvedInner, ran, rfl⟩, same⟩
    · rintro ⟨other, changed, isChild, applied, same⟩
      cases isChild
      rcases applyBehind_iff.mp applied with ⟨steps, parent, inner, resolved, ran, rfl⟩
      refine ⟨.key segment :: steps, parent, inner, map_eq_ok.mpr ⟨_, resolved, rfl⟩, ran, ?_⟩
      rw [changedAt, held]
      exact same

theorem applyBehind_item {items : List Json} :
    applyBehind int op last (.list items) (segment :: front) = .ok after ↔
      ∃ place child changed, listPlace int segment = some place ∧
        items[place]? = some child ∧ applyBehind int op last child front = .ok changed ∧
          .list (items.set place changed) = after := by
  rw [applyBehind_iff, resolveParentContainer]
  constructor
  · rintro ⟨steps, parent, changed, resolved, ran, same⟩
    rcases bind_eq_ok.mp resolved with ⟨place, bounded, rest⟩
    rcases bind_eq_ok.mp rest with ⟨⟨inner, found⟩, resolvedInner, pair⟩
    cases pair
    rcases boundedIndex_eq_ok.mp bounded with ⟨isPlace, within⟩
    have held : items[place]? = some (items.getD place .null) := by
      rw [getD_eq_getElem?_getD, List.getElem?_eq_getElem within]
      rfl
    rw [changedAt, held] at same
    exact ⟨place, _, _, isPlace, held, applyBehind_iff.mpr ⟨_, _, _, resolvedInner, ran, rfl⟩, same⟩
  · rintro ⟨place, child, changed, isPlace, held, applied, same⟩
    rcases applyBehind_iff.mp applied with ⟨steps, parent, inner, resolved, ran, rfl⟩
    rcases List.getElem?_eq_some_iff.mp held with ⟨within, isChild⟩
    have found : items.getD place .null = child := by
      rw [getD_eq_getElem?_getD, held]
      rfl
    refine ⟨.index place :: steps, parent, inner, ?_, ran, ?_⟩
    · apply bind_eq_ok.mpr
      refine ⟨place, boundedIndex_eq_ok.mpr ⟨isPlace, within⟩, ?_⟩
      rw [found]
      exact bind_eq_ok.mpr ⟨_, resolved, rfl⟩
    · rw [changedAt, held]
      exact same

/-- The code's resolving and changing in place is the edit behind the pointer. -/
theorem applyBehind_eq_ok :
    ∀ {payload after : Json}, applyBehind int op last payload front = .ok after ↔
      Edits (listPlace int) op.edit last front payload after := by
  induction front with
  | nil =>
    intro payload after
    rw [applyBehind_iff]
    constructor
    · rintro ⟨steps, parent, changed, resolved, ran, same⟩
      cases resolved
      cases same
      exact .here (applyToContainer_eq_ok.mp ran)
    · intro edits
      cases edits with
      | here edits => exact ⟨[], payload, after, rfl, applyToContainer_eq_ok.mpr edits, rfl⟩
  | cons segment front ih =>
    intro payload after
    cases payload with
    | dict entries =>
      rw [applyBehind_entry]
      constructor
      · rintro ⟨child, changed, held, applied, rfl⟩
        exact .entry held (ih.mp applied)
      · intro edits
        cases edits with
        | entry held edits => exact ⟨_, _, held, ih.mpr edits, rfl⟩
    | list items =>
      rw [applyBehind_item]
      constructor
      · rintro ⟨place, child, changed, isPlace, held, applied, rfl⟩
        exact .item isPlace held (ih.mp applied)
      · intro edits
        cases edits with
        | item isPlace held edits =>
          exact ⟨_, _, _, isPlace, held, ih.mpr edits, rfl⟩
    | _ =>
      apply iff_of_false
      · intro applied
        rcases applyBehind_iff.mp applied with ⟨_, _, _, resolved, _⟩
        cases resolved
      · intro edits
        cases edits

theorem parsePointer_ne_nil {path : String} {segments : List String}
    (parsed : parsePointer path = .ok segments) : segments ≠ [] := by
  rw [parsePointer] at parsed
  split at parsed
  · cases parsed
  · dsimp only at parsed
    split at parsed
    · cases parsed
    next named =>
      cases parsed
      rintro empty
      rw [map_eq_nil_iff] at empty
      rw [empty] at named
      exact named rfl

theorem applySingleOp_eq_ok :
    applySingleOp int payload op = .ok after ↔ OpEdits int op payload after := by
  have shape : applySingleOp int payload op = parsePointer op.path >>= fun segments =>
      applyBehind int op (segments.getLastD "") payload segments.dropLast := rfl
  rw [shape]
  constructor
  · intro applied
    rcases bind_eq_ok.mp applied with ⟨segments, parsed, ran⟩
    refine ⟨segments.dropLast, segments.getLastD "", ?_, applyBehind_eq_ok.mp ran⟩
    rw [parsed, getLastD_eq_getLast?, List.getLast?_eq_getLast_of_ne_nil
      (parsePointer_ne_nil parsed), Option.getD_some, dropLast_append_getLast]
  · rintro ⟨front, last, parsed, edits⟩
    apply bind_eq_ok.mpr
    refine ⟨_, parsed, ?_⟩
    rw [dropLast_concat, getLastD_concat]
    exact applyBehind_eq_ok.mpr edits

theorem applyOps_eq_ok {ops : List PatchOp} :
    ops.foldlM (applySingleOp int) payload = .ok after ↔ OpsEdit int ops payload after := by
  induction ops generalizing payload with
  | nil =>
    rw [foldlM_nil, pure_eq_ok]
    constructor
    · rintro rfl
      exact .done payload
    · intro edits
      cases edits
      rfl
  | cons op ops ih =>
    rw [foldlM_cons]
    constructor
    · intro applied
      rcases bind_eq_ok.mp applied with ⟨between, ran, rest⟩
      exact .step (applySingleOp_eq_ok.mp ran) (ih.mp rest)
    · intro edits
      cases edits with
      | step edits rest =>
        exact bind_eq_ok.mpr ⟨_, applySingleOp_eq_ok.mpr edits, ih.mpr rest⟩

end Places

variable {int : String → Option Int}

theorem OpEdits.unique {op : PatchOp} {before after other : Json}
    (one : OpEdits int op before after) (two : OpEdits int op before other) :
    after = other := by
  rcases one with ⟨front, last, parsed, edits⟩
  rcases two with ⟨otherFront, otherLast, again, others⟩
  rcases append_inj' (Except.ok.inj (parsed.symm.trans again)) rfl with ⟨rfl, same⟩
  cases same
  exact edits.unique others

variable {ops : List PatchOp}

theorem OpsEdit.unique {before after other : Json} (one : OpsEdit int ops before after)
    (two : OpsEdit int ops before other) : after = other := by
  induction one with
  | done payload =>
    cases two
    rfl
  | step edits rest ih =>
    cases two with
    | step others later =>
      cases edits.unique others
      exact ih later

/-- The field of the plan that a path starts with. -/
def PatchOp.field (op : PatchOp) : Option String :=
  match parsePointer op.path with
  | .ok segments => segments.head?
  | .error _ => none

theorem OpsEdit.elsewhere
    {entries : Entries} {after : Json} (edits : OpsEdit int ops (.dict entries) after)
    {key : String} (unnamed : ∀ op ∈ ops, op.field ≠ some key) :
    ∃ changed : Entries, after = .dict changed ∧ changed.lookup key = entries.lookup key := by
  induction ops generalizing entries with
  | nil =>
    cases edits
    exact ⟨entries, rfl, rfl⟩
  | cons op ops ih =>
    cases edits with
    | step edits rest =>
      rcases edits with ⟨front, last, parsed, edits⟩
      have other := unnamed op mem_cons_self
      rw [PatchOp.field, parsed] at other
      rcases edits.elsewhere other with ⟨between, rfl, kept⟩
      rcases ih rest (fun op listed => unnamed op (mem_cons_of_mem _ listed)) with
        ⟨changed, rfl, keptRest⟩
      exact ⟨changed, rfl, keptRest.trans kept⟩

/-- A refusal that a path or a place gives rise to. -/
def PlanPatchRefused.OfPath (refusal : PlanPatchRefused) : Prop :=
  ∀ raised, refusal ≠ .invalidPlan raised

def PatchFailure.isRefusal : PatchFailure → Bool
  | .refused _ => true
  | .escaped _ => false

/-- What applying operations to a plan returns and raises, on a stack of some frames. -/
structure PatchesWhole (int : String → Option Int) (frames : Nat) (plan : BusinessQueryPlan)
    (ops : List PatchOp) : Prop where
  /-- A plan is returned when every operation edits what those before it left of the dump,
  and the edited payload validates to that plan. -/
  returned : ∀ patched, applyPlanPatch int frames plan ops = .ok patched ↔
    ∃ payload, OpsEdit int ops (.dict (dumpPlan plan)) payload ∧
      validatePlan frames strictPython [] payload = .ok patched
  /-- The edited payload is determined by the plan and the operations. -/
  determined : ∀ payload other, OpsEdit int ops (.dict (dumpPlan plan)) payload →
    OpsEdit int ops (.dict (dumpPlan plan)) other → payload = other
  /-- Anything else refuses the patch, but for filters that nest too deep for the stack. -/
  raised : FailsOnly (fun failure => failure.isRefusal = true ∨
      failure = .escaped .recursionError ∧ ∃ payload,
        OpsEdit int ops (.dict (dumpPlan plan)) payload ∧ frames < framesNeeded payload)
    (applyPlanPatch int frames plan ops)
  /-- An operation that edits nothing refuses the patch before any validation. -/
  unresolved : (¬∃ payload, OpsEdit int ops (.dict (dumpPlan plan)) payload) →
    ∃ refusal, applyPlanPatch int frames plan ops = .error (.refused refusal) ∧ refusal.OfPath
  /-- The fields that no operation names are validated as the dump has them. -/
  elsewhere : ∀ payload, OpsEdit int ops (.dict (dumpPlan plan)) payload →
    ∀ key, (∀ op ∈ ops, op.field ≠ some key) → ∃ entries : Entries, payload = .dict entries ∧
        entries.lookup key = (dumpPlan plan).lookup key

section Whole

variable {int : String → Option Int}

theorem validatePatched_eq_ok {frames : Nat} {payload : Json} {patched : BusinessQueryPlan} :
    validatePatched frames payload = .ok patched ↔
      validatePlan frames strictPython [] payload = .ok patched := mapError_eq_ok

theorem validatePatched_failsOnly (frames : Nat) (payload : Json) :
    FailsOnly (fun failure => failure.isRefusal = true ∨
      failure = .escaped .recursionError ∧ frames < framesNeeded payload)
      (validatePatched frames payload) := by
  have whole := (handledValidation frames strictPython [] payload).whole
  rw [validatePatched]
  cases ran : validatePlan frames strictPython [] payload with
  | ok patched => exact failsOnly_ok
  | error raised =>
    rw [ran, failsOnly_error] at whole
    cases raised with
    | validationError faults => exact failsOnly_error.mpr (.inl rfl)
    | exception raised =>
      cases raised with
      | valueError => exact failsOnly_error.mpr (.inl rfl)
      | typeError => exact failsOnly_error.mpr (.inl rfl)
      | recursionError =>
        rcases whole with handled | ⟨_, few⟩
        · cases handled
        · exact failsOnly_error.mpr (.inr ⟨rfl, few⟩)
      | _ =>
        rcases whole with handled | ⟨other, _⟩
        · cases handled
        · cases other

theorem refuses_unknownPath {Value : Type} (detail : String) :
    FailsOnly PlanPatchRefused.OfPath (.error (.unknownPath detail) : Patched Value) :=
  failsOnly_error.mpr fun _ => nofun

theorem boundedIndex_ofPath (limit : Nat) (action segment : String) :
    FailsOnly PlanPatchRefused.OfPath (boundedIndex int limit action segment) := by
  rw [boundedIndex, parseListIndex]
  cases int segment with
  | none => exact refuses_unknownPath _
  | some index =>
    show FailsOnly PlanPatchRefused.OfPath
      (if index < 0 ∨ (limit : Int) ≤ index then _ else .ok index.toNat)
    split
    · exact failsOnly_error.mpr fun _ => nofun
    · exact failsOnly_ok

theorem resolveParentContainer_ofPath (segments : List String) :
    ∀ payload, FailsOnly PlanPatchRefused.OfPath (resolveParentContainer int payload segments) := by
  induction segments with
  | nil =>
    intro payload
    cases payload with
    | _ => exact failsOnly_ok
  | cons segment segments ih =>
    intro payload
    cases payload with
    | dict entries =>
      rw [resolveParentContainer]
      cases entries.lookup segment with
      | none => exact refuses_unknownPath _
      | some child =>
        have inner := ih child
        dsimp only
        cases resolved : resolveParentContainer int child segments with
        | ok found => exact failsOnly_ok
        | error refusal =>
          rw [resolved, failsOnly_error] at inner
          exact failsOnly_error.mpr inner
    | list items =>
      rw [resolveParentContainer, failsOnly_bind]
      refine ⟨boundedIndex_ofPath _ _ _, ?_⟩
      intro place _
      rw [failsOnly_bind]
      exact ⟨ih _, fun _ _ => failsOnly_ok⟩
    | _ => exact refuses_unknownPath _

theorem applyToContainer_ofPath (op : PatchOp) (container : Json) (key : String) :
    FailsOnly PlanPatchRefused.OfPath (applyToContainer int op container key) := by
  have bounded : ∀ limit action (next : Nat → Json), FailsOnly PlanPatchRefused.OfPath
      (boundedIndex int limit action key >>= fun place => .ok (next place)) := by
    intro limit action next
    rw [failsOnly_bind]
    exact ⟨boundedIndex_ofPath _ _ _, fun _ _ => failsOnly_ok⟩
  have held : ∀ (entries changed : Entries) detail, FailsOnly PlanPatchRefused.OfPath
      (if hasKey entries key then .ok (.dict changed)
        else .error (.unknownPath detail) : Patched Json) := by
    intro entries changed detail
    split
    · exact failsOnly_ok
    · exact refuses_unknownPath _
  cases op with
  | add path value =>
    cases container with
    | dict entries => exact failsOnly_ok
    | list items =>
      show FailsOnly PlanPatchRefused.OfPath (if key = "-" then _ else _)
      split
      · exact failsOnly_ok
      · exact bounded _ _ _
    | _ => exact refuses_unknownPath _
  | remove path =>
    cases container with
    | dict entries => exact held _ _ _
    | list items => exact bounded _ _ _
    | _ => exact refuses_unknownPath _
  | replace path value =>
    cases container with
    | dict entries => exact held _ _ _
    | list items => exact bounded _ _ _
    | _ => exact refuses_unknownPath _

theorem applySingleOp_ofPath (payload : Json) (op : PatchOp) :
    FailsOnly PlanPatchRefused.OfPath (applySingleOp int payload op) := by
  rw [applySingleOp, failsOnly_bind]
  constructor
  · rw [parsePointer]
    split
    · exact refuses_unknownPath _
    · dsimp only
      split
      · exact refuses_unknownPath _
      · exact failsOnly_ok
  · intro segments _
    rw [failsOnly_bind]
    refine ⟨resolveParentContainer_ofPath _ _, ?_⟩
    rintro ⟨steps, parent⟩ _
    rw [failsOnly_bind]
    exact ⟨applyToContainer_ofPath _ _ _, fun _ _ => failsOnly_ok⟩

theorem applyOps_ofPath (ops : List PatchOp) : ∀ payload,
    FailsOnly PlanPatchRefused.OfPath (ops.foldlM (applySingleOp int) payload) := by
  induction ops with
  | nil =>
    intro payload
    exact failsOnly_ok
  | cons op ops ih =>
    intro payload
    rw [foldlM_cons, failsOnly_bind]
    exact ⟨applySingleOp_ofPath payload op, fun between _ => ih between⟩

theorem patchesWhole (int : String → Option Int) (frames : Nat) (plan : BusinessQueryPlan)
    (ops : List PatchOp) : PatchesWhole int frames plan ops where
  returned := by
    intro patched
    rw [applyPlanPatch, bind_eq_ok]
    constructor
    · rintro ⟨payload, applied, validated⟩
      exact ⟨payload, applyOps_eq_ok.mp (mapError_eq_ok.mp applied),
        validatePatched_eq_ok.mp validated⟩
    · rintro ⟨payload, edits, validated⟩
      exact ⟨payload, mapError_eq_ok.mpr (applyOps_eq_ok.mpr edits),
        validatePatched_eq_ok.mpr validated⟩
  determined := fun _ _ one other => one.unique other
  raised := by
    rw [applyPlanPatch, failsOnly_bind]
    constructor
    · cases applied : ops.foldlM (applySingleOp int) (.dict (dumpPlan plan)) with
      | ok payload => exact failsOnly_ok
      | error refusal => exact failsOnly_error.mpr (.inl rfl)
    · intro payload applied failure failed
      have edits := applyOps_eq_ok.mp (mapError_eq_ok.mp applied)
      rcases validatePatched_failsOnly frames payload failure failed with refusal | ⟨same, few⟩
      · exact .inl refusal
      · exact .inr ⟨same, payload, edits, few⟩
  unresolved := by
    intro nowhere
    cases applied : ops.foldlM (applySingleOp int) (.dict (dumpPlan plan)) with
    | ok payload => exact absurd ⟨payload, applyOps_eq_ok.mp applied⟩ nowhere
    | error refusal =>
      refine ⟨refusal, ?_, applyOps_ofPath ops _ refusal applied⟩
      rw [applyPlanPatch, applied]
      rfl
  elsewhere := fun payload edits key unnamed => edits.elsewhere unnamed

end Whole

def revenuePlan : BusinessQueryPlan :=
  { measures := ["invoice_item.revenue"], grain := .scalar }

theorem validatePatched_of_overflow {frames : Nat} {payload : Json}
    (ran : validatePlan frames strictPython [] payload = .error (.exception .recursionError)) :
    validatePatched frames payload = .error (.escaped .recursionError) := by
  rw [validatePatched, ran]
  rfl

theorem applyOps_note :
    [PatchOp.add "/note" (.integer 1), .remove "/note"].foldlM (applySingleOp PlanBinding.pyInt)
      (.dict (dumpPlan revenuePlan)) = .ok (.dict (dumpPlan revenuePlan)) := by
  rfl

theorem applyOps_filters (value : Json) :
    [PatchOp.add "/filters" value].foldlM (applySingleOp PlanBinding.pyInt)
      (.dict (dumpPlan revenuePlan)) =
        .ok (.dict (putKey "filters" value (dumpPlan revenuePlan))) := by
  have parsed : parsePointer "/filters" = .ok ["filters"] := by rfl
  rw [foldlM_cons, applySingleOp]
  show (parsePointer "/filters" >>= _) >>= _ = _
  rw [parsed]
  rfl

theorem validate_revenuePlan :
    validatePlan 1000 strictPython [] (.dict (dumpPlan revenuePlan)) = .ok revenuePlan := by
  rw [validatePlan_eq (by decide +kernel)]
  rfl

theorem deepPatch_escapes {frames depth : Nat} (few : frames ≤ 3 * depth) :
    applyPlanPatch PlanBinding.pyInt (frames + 2) revenuePlan
      [.add "/filters" (.list [nestedGroup depth])] = .error (.escaped .recursionError) := by
  rw [applyPlanPatch, applyOps_filters]
  exact validatePatched_of_overflow
    (validatePlan_of_nestedGroup lookup_putKey_self frames few strictPython [])

/-- A path that is no part of a plan is not refused when a later operation removes it, and
a value that nests too deep raises what is not refused. -/
theorem patches_not_refused : applyPlanPatch PlanBinding.pyInt 1000 revenuePlan
        [.add "/note" (.integer 1), .remove "/note"] = .ok revenuePlan ∧
      "note" ∉ planKeys ∧
      applyPlanPatch PlanBinding.pyInt 1000 revenuePlan
        [.add "/filters" (.list [nestedGroup 400])] = .error (.escaped .recursionError) := by
  refine ⟨?_, by decide, @deepPatch_escapes 998 400 (by decide)⟩
  rw [applyPlanPatch, applyOps_note]
  show validatePatched 1000 (.dict (dumpPlan revenuePlan)) = .ok revenuePlan
  rw [validatePatched_eq_ok, validate_revenuePlan]

end McpAssistant.BusinessQuery.PlanPatches
