import McpAssistant.Foundations.Interleaving

/-!
# The cancel registry

A run is registered in Redis under its id, with a local registration at the
instance that produces it.  Registering, cancelling, finalizing and cleaning up
each take several Redis commands, and the commands of all calls interleave.
Every call below is a position between two of its commands.
-/

namespace McpAssistant.Services.CancelRegistry

inductive Phase where
  | generating
  | finalizing
  | done
deriving DecidableEq

/-- A run's record in Redis. -/
structure Record where
  userId : String
  instanceId : String
  cancelled : Bool
  phase : Phase := .generating
deriving DecidableEq

/-- A run's registration at the instance that produces it. -/
structure LocalRegistration where
  userId : String
  cancelled : Bool := false
  phase : Phase := .generating
  taskCancelled : Bool := false
deriving DecidableEq

/-- Where a running call is: what it does next. -/
inductive Call where
  | registerLooks (run user instanceId : String)
  | registerForgets (run user instanceId : String)
  | registerStores (run user instanceId : String) (preCancelled : Bool)
  | registerRecords (run user instanceId : String) (preCancelled : Bool)
  | registerStoresAgain (run user instanceId : String)
  | unregisterPops (run instanceId : String)
  | unregisterDeletes (run : String)
  | cancelReads (run user instanceId : String)
  | cancelBuries (run user : String)
  | cancelStores (run user instanceId : String) (record : Record)
  | cancelDelivers (run user instanceId : String) (record : Record) (publishes : Bool)
  | finalizeStarts (run instanceId : String)
  | finalizeWatches (run instanceId : String) (attempts : Nat)
  | finalizeReads (run instanceId : String) (attempts version : Nat)
  | finalizeCommits (run instanceId : String) (attempts version : Nat) (record : Record)
  | markStarts (run instanceId : String)
  | markReads (run : String)
  | markStores (run : String) (record : Record)
deriving DecidableEq

/-- What has happened, as a reader of the whole system would note it. -/
inductive Event where
  | looked (run user : String)
  | registered (run user : String)
  | asked (run user : String)
  | confirmed (run user : String)
  | refused (run user : String)
  | finalizing (run : String)
  | finalized (run user : String)
  | notFinalized (run : String)
deriving DecidableEq

/-- Redis, every instance's registrations, the messages under way, the running
calls, and what has happened, the latest first.  `writes` counts the changes of
a run's key: a watched key was changed when its count was. -/
structure Registry where
  runs : String → Option Record := fun _ => none
  writes : String → Nat := fun _ => 0
  tombstones : String → Option String := fun _ => none
  registrations : String → String → Option LocalRegistration := fun _ _ => none
  published : List (String × String) := []
  calls : Nat → Option Call := fun _ => none
  log : List Event := []

namespace Registry

variable (registry : Registry)

def storeRun (run : String) (record : Record) : Registry :=
  { registry with
    runs := Function.update registry.runs run (some record)
    writes := Function.update registry.writes run (registry.writes run + 1) }

def dropRun (run : String) : Registry :=
  { registry with
    runs := Function.update registry.runs run none
    writes := Function.update registry.writes run (registry.writes run + 1) }

def setTombstone (run : String) (user : Option String) : Registry :=
  { registry with tombstones := Function.update registry.tombstones run user }

def setRegistration (instanceId run : String)
    (registration : Option LocalRegistration) : Registry :=
  { registry with
    registrations := Function.update registry.registrations instanceId
      (Function.update (registry.registrations instanceId) run registration) }

def updateRegistration (instanceId run : String)
    (change : LocalRegistration → LocalRegistration) : Registry :=
  registry.setRegistration instanceId run ((registry.registrations instanceId run).map change)

def note (event : Event) : Registry :=
  { registry with log := event :: registry.log }

section Fields

variable {run instanceId : String}

@[simp] theorem runs_storeRun {record : Record} :
    (registry.storeRun run record).runs = Function.update registry.runs run (some record) := rfl

@[simp] theorem writes_storeRun {record : Record} : (registry.storeRun run record).writes =
      Function.update registry.writes run (registry.writes run + 1) := rfl

@[simp] theorem runs_dropRun : (registry.dropRun run).runs =
    Function.update registry.runs run none := rfl

@[simp] theorem writes_dropRun : (registry.dropRun run).writes =
    Function.update registry.writes run (registry.writes run + 1) := rfl

@[simp] theorem tombstones_setTombstone {user : Option String} :
    (registry.setTombstone run user).tombstones =
      Function.update registry.tombstones run user := rfl

@[simp] theorem registrations_setRegistration {registration : Option LocalRegistration} :
    (registry.setRegistration instanceId run registration).registrations =
      Function.update registry.registrations instanceId
        (Function.update (registry.registrations instanceId) run registration) := rfl

end Fields

end Registry

/-- A cancel reaches the instance that produces the run.  A task that finalizes
already is not cancelled. -/
def cancelledLocally (registration : LocalRegistration) : LocalRegistration :=
  if registration.cancelled then registration
  else
    { registration with
      cancelled := true
      taskCancelled := registration.taskCancelled ||
        registration.phase == .generating }

def applyLocalCancel (instanceId run : String) (registry : Registry) : Registry :=
  registry.updateRegistration instanceId run cancelledLocally

def maxAttempts : Nat := 5

def givesUp (run instanceId : String) (registry : Registry) : Registry :=
  (registry.updateRegistration instanceId run fun registration =>
    { registration with phase := .generating }).note (.notFinalized run)

/-- What a call does up to its next command, and where it is then. -/
def perform : Call → Registry → Registry × Option Call
  | .registerLooks run user instanceId, registry =>
    (registry.note (.looked run user), some (if registry.tombstones run = some user then
        .registerForgets run user instanceId
      else .registerStores run user instanceId false))
  | .registerForgets run user instanceId, registry =>
    (registry.setTombstone run none, some (.registerStores run user instanceId true))
  | .registerStores run user instanceId preCancelled, registry =>
    ((registry.storeRun run ⟨user, instanceId, preCancelled, .generating⟩).note
        (.registered run user),
      some (.registerRecords run user instanceId preCancelled))
  | .registerRecords run user instanceId preCancelled, registry =>
    (registry.setRegistration instanceId run (some { userId := user, cancelled := preCancelled }),
      if preCancelled then some (.registerStoresAgain run user instanceId)
      else none)
  | .registerStoresAgain run user instanceId, registry =>
    (registry.storeRun run ⟨user, instanceId, true, .generating⟩, none)
  | .unregisterPops run instanceId, registry =>
    (registry.setRegistration instanceId run none, some (.unregisterDeletes run))
  | .unregisterDeletes run, registry => (registry.dropRun run, none)
  | .cancelReads run user instanceId, registry =>
    match registry.runs run with
    | none => (registry, some (.cancelBuries run user))
    | some record =>
      if record.userId ≠ user then (registry.note (.refused run user), none)
      else if record.cancelled then
        (registry, some (.cancelDelivers run user instanceId record false))
      else (registry, some (.cancelStores run user instanceId record))
  | .cancelBuries run user, registry =>
    ((registry.setTombstone run (some user)).note (.confirmed run user), none)
  | .cancelStores run user instanceId record, registry =>
    (registry.storeRun run { record with cancelled := true },
      some (.cancelDelivers run user instanceId record true))
  | .cancelDelivers run user instanceId record publishes, registry =>
    ((if record.instanceId = instanceId then
        applyLocalCancel instanceId run registry
      else if publishes && record.phase == .generating then
        { registry with
          published := (record.instanceId, run) :: registry.published }
      else registry).note (.confirmed run user), none)
  | .finalizeStarts run instanceId, registry =>
    match registry.registrations instanceId run with
    | none => (registry.note (.notFinalized run), none)
    | some registration =>
      if registration.cancelled then (registry.note (.notFinalized run), none)
      else
        (registry.updateRegistration instanceId run fun registration =>
            { registration with phase := .finalizing },
          some (.finalizeWatches run instanceId 0))
  | .finalizeWatches run instanceId attempts, registry =>
    (registry, some (.finalizeReads run instanceId attempts (registry.writes run)))
  | .finalizeReads run instanceId attempts version, registry =>
    match registry.runs run with
    | none => (givesUp run instanceId registry, none)
    | some record =>
      if record.cancelled then
        (givesUp run instanceId (registry.updateRegistration instanceId run
          fun registration => { registration with cancelled := true }), none)
      else
        (registry, some (.finalizeCommits run instanceId attempts version record))
  | .finalizeCommits run instanceId attempts version record, registry =>
    if registry.writes run = version then
      ((registry.storeRun run { record with phase := .finalizing }).note
        (.finalized run record.userId), none)
    else if attempts + 1 < maxAttempts then
      (registry, some (.finalizeWatches run instanceId (attempts + 1)))
    else (givesUp run instanceId registry, none)
  | .markStarts run instanceId, registry =>
    (registry.updateRegistration instanceId run fun registration =>
        { registration with phase := .done },
      some (.markReads run))
  | .markReads run, registry =>
    match registry.runs run with
    | none => (registry, none)
    | some record => (registry, some (.markStores run record))
  | .markStores run record, registry =>
    (registry.storeRun run { record with phase := .done }, none)

/-- A call as its caller makes it. -/
inductive Request where
  | register (run user instanceId : String)
  | unregister (run instanceId : String)
  | cancelRun (run user instanceId : String)
  | beginFinalize (run instanceId : String)
  | markDone (run instanceId : String)
deriving DecidableEq

def Request.call : Request → Call
  | register run user instanceId => .registerLooks run user instanceId
  | unregister run instanceId => .unregisterPops run instanceId
  | cancelRun run user instanceId => .cancelReads run user instanceId
  | beginFinalize run instanceId => .finalizeStarts run instanceId
  | markDone run instanceId => .markStarts run instanceId

/-- What the call's start is noted as, where it is. -/
def Request.events : Request → List Event
  | cancelRun run user _ => [.asked run user]
  | beginFinalize run _ => [.finalizing run]
  | _ => []

/-- What can happen next: a call starts, takes its next step or is abandoned at
an await; a key expires; a message arrives, if it is not lost. -/
inductive Choice where
  | begins (call : Nat) (request : Request)
  | performs (call : Nat)
  | abandons (call : Nat)
  | expiresRun (run : String)
  | expiresTombstone (run : String)
  | delivers (instanceId run : String)
deriving DecidableEq

local instance lawfulBEq_delivery : LawfulBEq (String × String) :=
  inferInstance

def step : Choice → Registry → Registry
  | .begins call request, registry =>
    match registry.calls call with
    | some _ => registry
    | none =>
      { registry with
        calls := Function.update registry.calls call (some request.call)
        log := request.events ++ registry.log }
  | .performs call, registry =>
    match registry.calls call with
    | none => registry
    | some position =>
      { (perform position registry).1 with
        calls := Function.update registry.calls call (perform position registry).2 }
  | .abandons call, registry =>
    { registry with calls := Function.update registry.calls call none }
  | .expiresRun run, registry => registry.dropRun run
  | .expiresTombstone run, registry => registry.setTombstone run none
  | .delivers instanceId run, registry =>
    if (instanceId, run) ∈ registry.published then
      applyLocalCancel instanceId run
        { registry with published := registry.published.erase (instanceId, run) }
    else registry

end McpAssistant.Services.CancelRegistry
