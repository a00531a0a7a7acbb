import McpAssistant.Services.CancelRegistry

/-!
# What a registry's calls know

Whatever is stored of a run names its owner, and what stops a run was asked for
by the owner.  A call knows some of it at each of its positions, and goes on
knowing it whatever the other calls do.
-/

namespace McpAssistant.Services.CancelOwnership

open CancelRegistry List

/-- Some registration of the run has read its tombstone. -/
def Looked (registry : Registry) (run : String) : Prop :=
  ∃ user, .looked run user ∈ registry.log

/-- The run's record was stored by a registration. -/
def Registered (registry : Registry) (run : String) : Prop :=
  ∃ user, .registered run user ∈ registry.log

def Finalized (registry : Registry) (run : String) : Prop :=
  ∃ user, .finalized run user ∈ registry.log

/-- A run id is registered once.  A tombstone is written before its run's
registration looks for it, and over no other user's; or when the run's record
is gone already. -/
def OrderlyCall (registry : Registry) : Call → Prop
  | .registerLooks run _ _ => ¬Looked registry run
  | .cancelBuries run user =>
    (¬Looked registry run ∧ (registry.tombstones run = none ∨
        registry.tombstones run = some user)) ∨
      (Registered registry run ∧ registry.runs run = none)
  | _ => True

def OwnedBy (registry : Registry) (run user : String) (stops : Prop) : Prop :=
  .registered run user ∈ registry.log ∧ (stops → .asked run user ∈ registry.log)

/-- Whatever is stored of a run names its one owner. -/
structure Owned (registry : Registry) : Prop where
  unique : ∀ run first second, .registered run first ∈ registry.log →
    .registered run second ∈ registry.log → first = second
  looked : ∀ run, Registered registry run → Looked registry run
  record : ∀ run record, registry.runs run = some record →
    OwnedBy registry run record.userId (record.cancelled = true)
  tombstone : ∀ run user, registry.tombstones run = some user → .asked run user ∈ registry.log
  registration : ∀ instanceId run registration,
    registry.registrations instanceId run = some registration →
      OwnedBy registry run registration.userId
        (registration.cancelled = true ∨ registration.taskCancelled = true)
  published : ∀ instanceId run, (instanceId, run) ∈ registry.published →
    ∃ user, OwnedBy registry run user True

/-- What a call that got to its position knows. -/
def Knows (registry : Registry) : Call → Prop
  | .registerForgets run user _ => Looked registry run ∧
      ¬Registered registry run ∧ .asked run user ∈ registry.log
  | .registerStores run user _ preCancelled => Looked registry run ∧ ¬Registered registry run ∧
        (preCancelled = true → .asked run user ∈ registry.log)
  | .registerRecords run user _ preCancelled =>
    OwnedBy registry run user (preCancelled = true)
  | .registerStoresAgain run user _ => OwnedBy registry run user True
  | .cancelReads run user _ => .asked run user ∈ registry.log
  | .cancelBuries run user => .asked run user ∈ registry.log
  | .cancelStores run user _ record =>
    record.userId = user ∧ OwnedBy registry run user True
  | .cancelDelivers run user _ _ _ => OwnedBy registry run user True
  | .finalizeReads run _ _ version => version ≤ registry.writes run
  | .finalizeCommits run _ _ version record =>
    version ≤ registry.writes run ∧
      (registry.writes run = version → registry.runs run = some record) ∧
        record.cancelled = false ∧ .registered run record.userId ∈ registry.log
  | .markStores run record =>
    OwnedBy registry run record.userId (record.cancelled = true)
  | _ => True

set_option autoImplicit true in
/-- What a step makes of the registry and where its call goes on, by the branch it takes. -/
inductive Performs (registry : Registry) : Call → Registry × Option Call → Prop where
  | looksBuried (buried : registry.tombstones run = some user) :
      Performs registry (.registerLooks run user instanceId)
        (registry.note (.looked run user), some (.registerForgets run user instanceId))
  | looks (missing : registry.tombstones run ≠ some user) :
      Performs registry (.registerLooks run user instanceId)
        (registry.note (.looked run user), some (.registerStores run user instanceId false))
  | forgets : Performs registry (.registerForgets run user instanceId)
      (registry.setTombstone run none, some (.registerStores run user instanceId true))
  | stores : Performs registry (.registerStores run user instanceId preCancelled)
      ((registry.storeRun run ⟨user, instanceId, preCancelled, .generating⟩).note
          (.registered run user), some (.registerRecords run user instanceId preCancelled))
  | records : Performs registry (.registerRecords run user instanceId preCancelled)
      (registry.setRegistration instanceId run (some { userId := user, cancelled := preCancelled }),
        if preCancelled then some (.registerStoresAgain run user instanceId) else none)
  | storesAgain : Performs registry (.registerStoresAgain run user instanceId)
      (registry.storeRun run ⟨user, instanceId, true, .generating⟩, none)
  | pops : Performs registry (.unregisterPops run instanceId)
      (registry.setRegistration instanceId run none, some (.unregisterDeletes run))
  | deletes : Performs registry (.unregisterDeletes run) (registry.dropRun run, none)
  | readsNone : Performs registry (.cancelReads run user instanceId)
      (registry, some (.cancelBuries run user))
  | refuses : Performs registry (.cancelReads run user instanceId)
      (registry.note (.refused run user), none)
  | readsCancelled (found : registry.runs run = some record) (cancelled : record.cancelled) :
      Performs registry (.cancelReads run record.userId instanceId)
        (registry, some (.cancelDelivers run record.userId instanceId record false))
  | reads (found : registry.runs run = some record) :
      Performs registry (.cancelReads run record.userId instanceId)
        (registry, some (.cancelStores run record.userId instanceId record))
  | buries : Performs registry (.cancelBuries run user)
      ((registry.setTombstone run (some user)).note (.confirmed run user), none)
  | cancels : Performs registry (.cancelStores run user instanceId record)
      (registry.storeRun run { record with cancelled := true },
        some (.cancelDelivers run user instanceId record true))
  | deliversHere : Performs registry (.cancelDelivers run user instanceId record publishes)
      ((applyLocalCancel instanceId run registry).note (.confirmed run user), none)
  | publishes : Performs registry (.cancelDelivers run user instanceId record publishes)
      ({ registry with
          published := (record.instanceId, run) :: registry.published }.note
        (.confirmed run user), none)
  | delivers : Performs registry (.cancelDelivers run user instanceId record publishes)
      (registry.note (.confirmed run user), none)
  | startsNone : Performs registry (.finalizeStarts run instanceId)
      (registry.note (.notFinalized run), none)
  | starts : Performs registry (.finalizeStarts run instanceId)
      (registry.updateRegistration instanceId run fun registration =>
        { registration with phase := .finalizing }, some (.finalizeWatches run instanceId 0))
  | watches : Performs registry (.finalizeWatches run instanceId attempts)
      (registry, some (.finalizeReads run instanceId attempts (registry.writes run)))
  | finalizeNone : Performs registry (.finalizeReads run instanceId attempts version)
      (givesUp run instanceId registry, none)
  | finalizeCancelled (found : registry.runs run = some record) (cancelled : record.cancelled) :
      Performs registry (.finalizeReads run instanceId attempts version)
        (givesUp run instanceId (registry.updateRegistration instanceId run
          fun registration => { registration with cancelled := true }), none)
  | finalizeReads (found : registry.runs run = some record)
      (uncancelled : record.cancelled = false) :
      Performs registry (.finalizeReads run instanceId attempts version)
        (registry, some (.finalizeCommits run instanceId attempts version record))
  | commits : Performs registry
      (.finalizeCommits run instanceId attempts (registry.writes run) record)
      ((registry.storeRun run { record with phase := .finalizing }).note
        (.finalized run record.userId), none)
  | watchesAgain : Performs registry (.finalizeCommits run instanceId attempts version record)
      (registry, some (.finalizeWatches run instanceId (attempts + 1)))
  | commitsNever : Performs registry (.finalizeCommits run instanceId attempts version record)
      (givesUp run instanceId registry, none)
  | marks : Performs registry (.markStarts run instanceId)
      (registry.updateRegistration instanceId run fun registration =>
        { registration with phase := .done }, some (.markReads run))
  | marksNone : Performs registry (.markReads run) (registry, none)
  | marksReads (found : registry.runs run = some record) :
      Performs registry (.markReads run) (registry, some (.markStores run record))
  | marksStores : Performs registry (.markStores run record)
      (registry.storeRun run { record with phase := .done }, none)

theorem performs (registry : Registry) (call : Call) :
    Performs registry call (perform call registry) := by
  cases call with
  | registerLooks run user instanceId =>
    rw [perform]
    split
    · exact .looksBuried ‹_›
    · exact .looks ‹_›
  | cancelReads run user instanceId =>
    rw [perform]
    split
    · exact .readsNone
    · rename_i record found
      split
      · exact .refuses
      · rename_i own
        cases not_not.mp own
        split
        · exact .readsCancelled found ‹_›
        · exact .reads found
  | cancelDelivers run user instanceId record publishes =>
    rw [perform]
    split
    · exact .deliversHere
    · split
      · exact .publishes
      · exact .delivers
  | finalizeStarts run instanceId =>
    rw [perform]
    split
    · exact .startsNone
    · split
      · exact .startsNone
      · exact .starts
  | finalizeReads run instanceId attempts version =>
    rw [perform]
    split
    · exact .finalizeNone
    · split
      · exact .finalizeCancelled ‹_› ‹_›
      · exact .finalizeReads ‹_› (Bool.eq_false_iff.mpr ‹_›)
  | finalizeCommits run instanceId attempts version record =>
    rw [perform]
    split
    · rename_i same
      cases same
      exact .commits
    · split
      · exact .watchesAgain
      · exact .commitsNever
  | markReads run =>
    rw [perform]
    split
    · exact .marksNone
    · exact .marksReads ‹_›
  | registerForgets run user instanceId => exact .forgets
  | registerStores run user instanceId preCancelled => exact .stores
  | registerRecords run user instanceId preCancelled => exact .records
  | registerStoresAgain run user instanceId => exact .storesAgain
  | unregisterPops run instanceId => exact .pops
  | unregisterDeletes run => exact .deletes
  | cancelBuries run user => exact .buries
  | cancelStores run user instanceId record => exact .cancels
  | finalizeWatches run instanceId attempts => exact .watches
  | markStarts run instanceId => exact .marks
  | markStores run record => exact .marksStores

section Frames

variable {registry : Registry} {run user : String} {stops : Prop}

theorem OwnedBy.imp {weaker : Prop}
    (owned : OwnedBy registry run user stops) (imply : weaker → stops) :
    OwnedBy registry run user weaker :=
  ⟨owned.1, fun holds => owned.2 (imply holds)⟩

theorem OwnedBy.note (owned : OwnedBy registry run user stops) (event : Event) :
    OwnedBy (registry.note event) run user stops :=
  ⟨mem_cons_of_mem _ owned.1, fun holds => mem_cons_of_mem _ (owned.2 holds)⟩

theorem Looked.note (looked : Looked registry run)
    (event : Event) : Looked (registry.note event) run := by
  rcases looked with ⟨user, listed⟩
  exact ⟨user, mem_cons_of_mem _ listed⟩

theorem Owned.note (owned : Owned registry) (event : Event)
    (unregistered : ∀ run user, event ≠ .registered run user) :
    Owned (registry.note event) := by
  have before : ∀ run user, .registered run user ∈ (registry.note event).log →
      .registered run user ∈ registry.log := by
    intro run user listed
    rcases List.mem_cons.mp listed with same | old
    · exact absurd same.symm (unregistered run user)
    · exact old
  constructor
  · intro run first second isFirst isSecond
    exact owned.unique run first second (before run first isFirst) (before run second isSecond)
  · rintro run ⟨user, isOwner⟩
    exact (owned.looked run ⟨user, before run user isOwner⟩).note event
  · intro run record found
    exact (owned.record run record found).note event
  · intro run user found
    exact mem_cons_of_mem _ (owned.tombstone run user found)
  · intro instanceId run registration found
    exact (owned.registration instanceId run registration found).note event
  · intro instanceId run listed
    rcases owned.published instanceId run listed with ⟨user, isOwner⟩
    exact ⟨user, isOwner.note event⟩

theorem Owned.noteRegistered (owned : Owned registry)
    (looked : Looked registry run) (fresh : ¬Registered registry run) :
    Owned (registry.note (.registered run user)) := by
  have before : ∀ other owner,
      .registered other owner ∈ (registry.note (.registered run user)).log →
        other = run ∧ owner = user ∨ other ≠ run ∧ .registered other owner ∈ registry.log := by
    intro other owner listed
    rcases List.mem_cons.mp listed with same | old
    · cases same
      exact .inl ⟨rfl, rfl⟩
    · refine .inr ⟨?_, old⟩
      rintro rfl
      exact fresh ⟨owner, old⟩
  constructor
  · intro other first second isFirst isSecond
    rcases before other first isFirst with ⟨same, rfl⟩ | ⟨apart, old⟩
    · rcases before other second isSecond with ⟨_, rfl⟩ | ⟨apart, _⟩
      · rfl
      · exact absurd same apart
    · rcases before other second isSecond with ⟨same, _⟩ | ⟨_, older⟩
      · exact absurd same apart
      · exact owned.unique other first second old older
  · rintro other ⟨owner, isOwner⟩
    rcases before other owner isOwner with ⟨rfl, _⟩ | ⟨_, old⟩
    · exact looked.note _
    · exact (owned.looked other ⟨owner, old⟩).note _
  · intro other record found
    exact (owned.record other record found).note _
  · intro other owner found
    exact mem_cons_of_mem _ (owned.tombstone other owner found)
  · intro instanceId other registration found
    exact (owned.registration instanceId other registration found).note _
  · intro instanceId other listed
    rcases owned.published instanceId other listed with ⟨owner, isOwner⟩
    exact ⟨owner, isOwner.note _⟩

variable {record : Record}

theorem Owned.storeRun (owned : Owned registry)
    (isOwner : OwnedBy registry run record.userId (record.cancelled = true)) :
    Owned (registry.storeRun run record) :=
  { owned with
    record := by
      intro other found isFound
      by_cases same : other = run
      · rw [Registry.runs_storeRun, same, Function.update_self] at isFound
        cases isFound
        rw [same]
        exact isOwner
      · rw [Registry.runs_storeRun, Function.update_of_ne same] at isFound
        exact owned.record other found isFound }

theorem Owned.dropRun (owned : Owned registry) (run : String) : Owned (registry.dropRun run) :=
  { owned with
    record := by
      intro other found isFound
      by_cases same : other = run
      · rw [Registry.runs_dropRun, same, Function.update_self] at isFound
        cases isFound
      · rw [Registry.runs_dropRun, Function.update_of_ne same] at isFound
        exact owned.record other found isFound }

theorem Owned.setTombstone (owned : Owned registry) {buried : Option String}
    (asked : ∀ user, buried = some user → .asked run user ∈ registry.log) :
    Owned (registry.setTombstone run buried) :=
  { owned with
    tombstone := by
      intro other user found
      by_cases same : other = run
      · rw [Registry.tombstones_setTombstone, same, Function.update_self] at found
        rw [same]
        exact asked user found
      · rw [Registry.tombstones_setTombstone, Function.update_of_ne same] at found
        exact owned.tombstone other user found }

variable {instanceId : String}

theorem Owned.setRegistration (owned : Owned registry) {registration : Option LocalRegistration}
    (isOwner : ∀ found, registration = some found → OwnedBy registry run found.userId
        (found.cancelled = true ∨ found.taskCancelled = true)) :
    Owned (registry.setRegistration instanceId run registration) :=
  { owned with
    registration := by
      intro otherInstance other found isFound
      by_cases sameInstance : otherInstance = instanceId
      · rw [Registry.registrations_setRegistration, sameInstance, Function.update_self] at isFound
        by_cases same : other = run
        · rw [same, Function.update_self] at isFound
          rw [same]
          exact isOwner found isFound
        · rw [Function.update_of_ne same] at isFound
          exact owned.registration instanceId other found isFound
      · rw [Registry.registrations_setRegistration, Function.update_of_ne sameInstance] at isFound
        exact owned.registration otherInstance other found isFound }

theorem Owned.updateRegistration (owned : Owned registry)
    {change : LocalRegistration → LocalRegistration}
    (sameUser : ∀ registration, (change registration).userId = registration.userId)
    (asked : ∀ registration, (change registration).cancelled = true ∨
      (change registration).taskCancelled = true →
        (registration.cancelled = true ∨ registration.taskCancelled = true) ∨
          ∃ user, OwnedBy registry run user True) :
    Owned (registry.updateRegistration instanceId run change) := by
  apply owned.setRegistration
  intro found isFound
  rcases Option.map_eq_some_iff.mp isFound with ⟨registration, held, rfl⟩
  have own := owned.registration instanceId run registration held
  rw [sameUser]
  refine ⟨own.1, ?_⟩
  intro stops
  rcases asked registration stops with before | ⟨user, isOwner⟩
  · exact own.2 before
  · rw [owned.unique run registration.userId user own.1 isOwner.1]
    exact isOwner.2 trivial

theorem Owned.applyLocalCancel (owned : Owned registry) (isOwner : OwnedBy registry run user True) :
    Owned (applyLocalCancel instanceId run registry) := by
  apply owned.updateRegistration
  · intro registration
    rw [cancelledLocally]
    split
    · rfl
    · rfl
  · intro registration _
    exact .inr ⟨user, isOwner⟩

theorem Owned.givesUp (owned : Owned registry) (run instanceId : String) :
    Owned (givesUp run instanceId registry) := by
  apply Owned.note
  · apply owned.updateRegistration
    · intro registration
      rfl
    · intro registration stops
      exact .inl stops
  · exact nofun

variable {call : Call}

theorem owned_perform (owned : Owned registry)
    (knows : Knows registry call) : Owned (perform call registry).1 := by
  have step := performs registry call
  have changed (instanceId run : String) (change : LocalRegistration → LocalRegistration)
      (same : ∀ registration, (change registration).userId = registration.userId ∧
        (change registration).cancelled = registration.cancelled ∧
        (change registration).taskCancelled = registration.taskCancelled) :
      Owned (registry.updateRegistration instanceId run change) := by
    apply owned.updateRegistration
    · intro registration
      exact (same registration).1
    · intro registration stops
      rw [(same registration).2.1, (same registration).2.2] at stops
      exact .inl stops
  generalize perform call registry = result at step
  cases step with
  | forgets => exact owned.setTombstone nofun
  | @stores run user instanceId preCancelled =>
    rcases knows with ⟨looked, fresh, asked⟩
    show Owned ((registry.note (.registered run user)).storeRun run
      ⟨user, instanceId, preCancelled, .generating⟩)
    apply (owned.noteRegistered looked fresh).storeRun
    exact ⟨mem_cons_self, fun holds =>
      mem_cons_of_mem _ (asked holds)⟩
  | records =>
    apply owned.setRegistration
    rintro found ⟨⟩
    apply knows.imp
    rintro (cancelled | taskCancelled)
    · exact cancelled
    · cases taskCancelled
  | storesAgain => exact owned.storeRun (knows.imp fun _ => trivial)
  | pops => exact owned.setRegistration nofun
  | deletes => exact owned.dropRun _
  | @buries run user =>
    apply Owned.note
    · apply owned.setTombstone
      rintro other ⟨⟩
      exact knows
    · exact nofun
  | cancels =>
    rcases knows with ⟨rfl, isOwner⟩
    exact owned.storeRun (isOwner.imp fun _ => trivial)
  | deliversHere => exact (owned.applyLocalCancel knows).note _ nofun
  | publishes =>
    apply Owned.note
    · exact { owned with
        published := by
          intro otherInstance other listed
          rcases List.mem_cons.mp listed with same | old
          · cases same
            exact ⟨_, knows⟩
          · exact owned.published otherInstance other old }
    · exact nofun
  | starts => exact changed _ _ _ fun _ => ⟨rfl, rfl, rfl⟩
  | marks => exact changed _ _ _ fun _ => ⟨rfl, rfl, rfl⟩
  | finalizeNone => exact owned.givesUp _ _
  | commitsNever => exact owned.givesUp _ _
  | @finalizeCancelled run record instanceId attempts version found cancelled =>
    have isOwner := owned.record run record found
    apply Owned.givesUp
    apply owned.updateRegistration
    · intro registration
      rfl
    · intro registration _
      exact .inr ⟨record.userId, isOwner.1, fun _ => isOwner.2 cancelled⟩
  | commits =>
    rcases knows with ⟨_, _, uncancelled, isOwner⟩
    apply Owned.note
    · apply owned.storeRun
      refine ⟨isOwner, ?_⟩
      intro cancelled
      rw [uncancelled] at cancelled
      cases cancelled
    · exact nofun
  | marksStores => exact owned.storeRun knows
  | _ => first | exact owned | exact owned.note _ nofun

/-- Nothing is forgotten, and a key whose writes are as many as before holds
what it held. -/
structure Follows (before after : Registry) : Prop where
  log : ∀ event ∈ before.log, event ∈ after.log
  keys : ∀ run, after.writes run = before.writes run ∧ after.runs run = before.runs run ∨
    before.writes run < after.writes run

theorem Follows.trans {first second third : Registry}
    (earlier : Follows first second) (later : Follows second third) :
    Follows first third := by
  constructor
  · intro event listed
    exact later.log event (earlier.log event listed)
  · intro run
    rcases earlier.keys run with ⟨sameWrites, sameRuns⟩ | more
    · rcases later.keys run with ⟨sameWrites', sameRuns'⟩ | more
      · exact .inl ⟨sameWrites'.trans sameWrites, sameRuns'.trans sameRuns⟩
      · exact .inr (by omega)
    · rcases later.keys run with ⟨sameWrites', _⟩ | more'
      · exact .inr (by omega)
      · exact .inr (by omega)

theorem Follows.note (event : Event) : Follows registry (registry.note event) :=
  ⟨fun _ => mem_cons_of_mem _, fun _ => .inl ⟨rfl, rfl⟩⟩

theorem Follows.storeRun (run : String) (record : Record) :
    Follows registry (registry.storeRun run record) := by
  refine ⟨fun _ => id, ?_⟩
  intro other
  by_cases same : other = run
  · rw [same, Registry.writes_storeRun, Function.update_self]
    exact .inr (Nat.lt_succ_self _)
  · rw [Registry.writes_storeRun, Registry.runs_storeRun,
      Function.update_of_ne same, Function.update_of_ne same]
    exact .inl ⟨rfl, rfl⟩

theorem Follows.dropRun (run : String) : Follows registry (registry.dropRun run) := by
  refine ⟨fun _ => id, ?_⟩
  intro other
  by_cases same : other = run
  · rw [same, Registry.writes_dropRun, Function.update_self]
    exact .inr (Nat.lt_succ_self _)
  · rw [Registry.writes_dropRun, Registry.runs_dropRun,
      Function.update_of_ne same, Function.update_of_ne same]
    exact .inl ⟨rfl, rfl⟩

theorem follows_perform (call : Call) : Follows registry (perform call registry).1 := by
  have step := performs registry call
  have same (after : Registry) (log : ∀ event ∈ registry.log, event ∈ after.log)
      (writes : after.writes = registry.writes) (runs : after.runs = registry.runs) :
      Follows registry after := by
    refine ⟨log, ?_⟩
    intro run
    rw [writes, runs]
    exact .inl ⟨rfl, rfl⟩
  generalize perform call registry = result at step
  cases step with
  | stores => exact (Follows.storeRun _ _).trans (Follows.note _)
  | storesAgain => exact Follows.storeRun _ _
  | cancels => exact Follows.storeRun _ _
  | deletes => exact Follows.dropRun _
  | commits => exact (Follows.storeRun _ _).trans (Follows.note _)
  | marksStores => exact Follows.storeRun _ _
  | _ =>
    first
    | exact same _ (fun _ => id) rfl rfl
    | exact same _ (fun _ => mem_cons_of_mem _) rfl rfl

/-- A registration between its look for a tombstone and its record. -/
def Storing (run : String) : Call → Prop
  | .registerForgets other _ _ => other = run
  | .registerStores other _ _ _ => other = run
  | _ => False

def Finalizing (run : String) : Call → Prop
  | .finalizeStarts other _ => other = run
  | .finalizeWatches other _ _ => other = run
  | .finalizeReads other _ _ _ => other = run
  | .finalizeCommits other _ _ _ _ => other = run
  | _ => False

def Marking (run : String) : Call → Prop
  | .markStarts other _ => other = run
  | .markReads other => other = run
  | .markStores other _ => other = run
  | _ => False

/-- A call goes on with its own kind and run. -/
structure GoesOn (call rest : Call) : Prop where
  storing : ∀ run, Storing run rest → Storing run call ∨
    ∃ user instanceId, call = .registerLooks run user instanceId
  finalizing : ∀ run, Finalizing run rest → Finalizing run call
  marking : ∀ run, Marking run rest → Marking run call
  delivers : ∀ run user instanceId record publishes,
    rest = .cancelDelivers run user instanceId record publishes →
      (∃ read, registry.runs run = some read ∧ read.cancelled = true ∧ read.userId = user) ∨
        ∃ stored, call = .cancelStores run user instanceId stored

theorem goesOn_perform {rest : Call} (goes : (perform call registry).2 = some rest) :
    @GoesOn registry call rest := by
  have step := performs registry call
  generalize perform call registry = result at step goes
  cases step with
  | records =>
    dsimp only at goes
    split at goes
    · cases goes
      exact ⟨nofun, nofun, nofun, nofun⟩
    · cases goes
  | readsCancelled found cancelled =>
    cases goes
    refine ⟨nofun, nofun, nofun, ?_⟩
    rintro run user instanceId record publishes ⟨⟩
    exact .inl ⟨_, found, cancelled, rfl⟩
  | cancels =>
    cases goes
    refine ⟨nofun, nofun, nofun, ?_⟩
    rintro run user instanceId record publishes ⟨⟩
    exact .inr ⟨_, rfl⟩
  | looksBuried =>
    cases goes
    exact ⟨fun run same => .inr ⟨_, _, by rw [same]⟩, nofun, nofun, nofun⟩
  | looks =>
    cases goes
    exact ⟨fun run same => .inr ⟨_, _, by rw [same]⟩, nofun, nofun, nofun⟩
  | stores =>
    cases goes
    exact ⟨nofun, nofun, nofun, nofun⟩
  | _ =>
    cases goes
    try exact ⟨fun _ same => .inl same, fun _ same => same, fun _ same => same, nofun⟩

/-- What the next position knows. -/
theorem knows_perform (owned : Owned registry) {rest : Call}
    (knows : Knows registry call) (orderly : OrderlyCall registry call)
    (goes : (perform call registry).2 = some rest) :
    Knows (perform call registry).1 rest := by
  have step := performs registry call
  have looks (run user : String) (unlooked : ¬Looked registry run) :
      Looked (registry.note (.looked run user)) run ∧
        ¬Registered (registry.note (.looked run user)) run := by
    refine ⟨⟨user, mem_cons_self⟩, ?_⟩
    rintro ⟨owner, isOwner⟩
    rcases List.mem_cons.mp isOwner with same | old
    · cases same
    · exact unlooked (owned.looked run ⟨owner, old⟩)
  generalize perform call registry = result at step goes
  cases step with
  | @looksBuried run user instanceId buried =>
    cases goes
    rcases looks run user orderly with ⟨looked, fresh⟩
    exact ⟨looked, fresh, mem_cons_of_mem _ (owned.tombstone run user buried)⟩
  | @looks run user =>
    cases goes
    rcases looks run user orderly with ⟨looked, fresh⟩
    exact ⟨looked, fresh, nofun⟩
  | forgets =>
    cases goes
    exact ⟨knows.1, knows.2.1, fun _ => knows.2.2⟩
  | stores =>
    cases goes
    exact ⟨mem_cons_self, fun holds =>
      mem_cons_of_mem _ (knows.2.2 holds)⟩
  | records =>
    dsimp only at goes
    split at goes
    · rename_i isPre
      cases goes
      exact ⟨knows.1, fun _ => knows.2 isPre⟩
    · cases goes
  | readsNone =>
    cases goes
    exact knows
  | readsCancelled found cancelled =>
    cases goes
    exact (owned.record _ _ found).imp fun _ => cancelled
  | reads found =>
    cases goes
    exact ⟨rfl, (owned.record _ _ found).1, fun _ => knows⟩
  | cancels =>
    cases goes
    exact knows.2
  | watches =>
    cases goes
    exact Nat.le_refl _
  | finalizeReads found uncancelled =>
    cases goes
    exact ⟨knows, fun _ => found, uncancelled, (owned.record _ _ found).1⟩
  | marksReads found =>
    cases goes
    exact owned.record _ _ found
  | _ =>
    cases goes
    try trivial

variable {after : Registry}

theorem OwnedBy.follows (owned : OwnedBy registry run user stops)
    (follows : Follows registry after) : OwnedBy after run user stops :=
  ⟨follows.log _ owned.1, fun holds => follows.log _ (owned.2 holds)⟩

theorem Looked.follows (looked : Looked registry run) (follows : Follows registry after) :
    Looked after run := by
  rcases looked with ⟨user, listed⟩
  exact ⟨user, follows.log _ listed⟩

theorem Knows.follows (knows : Knows registry call) (follows : Follows registry after)
    (fresh : ∀ run, Storing run call → Registered after run →
      Registered registry run) : Knows after call := by
  cases call with
  | registerForgets run user instanceId =>
    refine ⟨knows.1.follows follows, ?_, follows.log _ knows.2.2⟩
    intro registered
    exact knows.2.1 (fresh run rfl registered)
  | registerStores run user instanceId preCancelled =>
    refine ⟨knows.1.follows follows, ?_, fun holds =>
      follows.log _ (knows.2.2 holds)⟩
    intro registered
    exact knows.2.1 (fresh run rfl registered)
  | registerRecords run user instanceId preCancelled =>
    exact OwnedBy.follows knows follows
  | registerStoresAgain run user instanceId =>
    exact OwnedBy.follows knows follows
  | cancelReads run user instanceId => exact follows.log _ knows
  | cancelBuries run user => exact follows.log _ knows
  | cancelStores run user instanceId record =>
    exact ⟨knows.1, OwnedBy.follows knows.2 follows⟩
  | cancelDelivers run user instanceId record publishes =>
    exact OwnedBy.follows knows follows
  | finalizeReads run instanceId attempts version =>
    show version ≤ after.writes run
    rcases follows.keys run with ⟨same, _⟩ | more
    · rw [same]
      exact knows
    · exact Nat.le_trans knows (Nat.le_of_lt more)
  | finalizeCommits run instanceId attempts version record =>
    rcases knows with ⟨atMost, unchanged, uncancelled, isOwner⟩
    have listed := follows.log _ isOwner
    rcases follows.keys run with ⟨sameWrites, sameRuns⟩ | more
    · refine ⟨?_, ?_, uncancelled, listed⟩
      · rw [sameWrites]
        exact atMost
      · rw [sameWrites, sameRuns]
        exact unchanged
    · refine ⟨Nat.le_trans atMost (Nat.le_of_lt more), ?_, uncancelled, listed⟩
      intro same
      omega
  | markStores run record => exact OwnedBy.follows knows follows
  | _ => trivial

/-- What a call's step can note. -/
inductive Notes (registry : Registry) : Call → Event → Prop where
  | looked (run user instanceId : String) :
      Notes registry (.registerLooks run user instanceId) (.looked run user)
  | registered (run user instanceId : String) (preCancelled : Bool) :
      Notes registry (.registerStores run user instanceId preCancelled) (.registered run user)
  | refused (run user instanceId : String) :
      Notes registry (.cancelReads run user instanceId) (.refused run user)
  | buried (run user : String) : Notes registry (.cancelBuries run user) (.confirmed run user)
  | delivered (run user instanceId : String) (record : Record) (publishes : Bool) :
      Notes registry (.cancelDelivers run user instanceId record publishes) (.confirmed run user)
  | finalized (run instanceId : String) (attempts : Nat) (record : Record) :
      Notes registry (.finalizeCommits run instanceId attempts
        (registry.writes run) record) (.finalized run record.userId)
  | notFinalized (call : Call) (run : String) (own : Finalizing run call) :
      Notes registry call (.notFinalized run)

theorem log_perform (call : Call) : (perform call registry).1.log = registry.log ∨
      ∃ event, (perform call registry).1.log = event :: registry.log ∧
        Notes registry call event := by
  have step := performs registry call
  generalize perform call registry = result at step
  cases step with
  | looksBuried => exact .inr ⟨_, rfl, .looked ..⟩
  | looks => exact .inr ⟨_, rfl, .looked ..⟩
  | stores => exact .inr ⟨_, rfl, .registered ..⟩
  | refuses => exact .inr ⟨_, rfl, .refused ..⟩
  | buries => exact .inr ⟨_, rfl, .buried ..⟩
  | deliversHere => exact .inr ⟨_, rfl, .delivered ..⟩
  | publishes => exact .inr ⟨_, rfl, .delivered ..⟩
  | delivers => exact .inr ⟨_, rfl, .delivered ..⟩
  | startsNone => exact .inr ⟨_, rfl, .notFinalized _ _ rfl⟩
  | finalizeNone => exact .inr ⟨_, rfl, .notFinalized _ _ rfl⟩
  | finalizeCancelled => exact .inr ⟨_, rfl, .notFinalized _ _ rfl⟩
  | commits => exact .inr ⟨_, rfl, .finalized ..⟩
  | commitsNever => exact .inr ⟨_, rfl, .notFinalized _ _ rfl⟩
  | _ => exact .inl rfl

/-- Only a registration's own store notes an owner. -/
theorem registered_of_perform (listed : .registered run user ∈ (perform call registry).1.log) :
    .registered run user ∈ registry.log ∨ Storing run call := by
  rcases @log_perform registry call with same | ⟨event, noted, notes⟩
  · rw [same] at listed
    exact .inl listed
  · rw [noted] at listed
    rcases List.mem_cons.mp listed with same | old
    · cases same
      cases notes
      exact .inr rfl
    · exact .inl old

/-- The records a call's step stores. -/
inductive Stores (registry : Registry) : Call → String → Record → Prop where
  | registers (run user instanceId : String) (preCancelled : Bool) :
      Stores registry (.registerStores run user instanceId preCancelled) run
        ⟨user, instanceId, preCancelled, .generating⟩
  | registersAgain (run user instanceId : String) :
      Stores registry (.registerStoresAgain run user instanceId) run
        ⟨user, instanceId, true, .generating⟩
  | cancels (run user instanceId : String) (record : Record) :
      Stores registry (.cancelStores run user instanceId record) run
        { record with cancelled := true }
  | finalizes (run instanceId : String) (attempts : Nat) (record : Record) :
      Stores registry (.finalizeCommits run instanceId attempts
        (registry.writes run) record) run { record with phase := .finalizing }
  | marks (run : String) (record : Record) :
      Stores registry (.markStores run record) run { record with phase := .done }

theorem runs_storeRun_eq {other : String} {found : Record}
    (isFound : (registry.storeRun run record).runs other = some found) :
    registry.runs other = some found ∨ other = run ∧ found = record := by
  rw [Registry.runs_storeRun] at isFound
  by_cases same : other = run
  · rw [same, Function.update_self] at isFound
    cases isFound
    exact .inr ⟨same, rfl⟩
  · rw [Function.update_of_ne same] at isFound
    exact .inl isFound

/-- What a step leaves at a run's key was there, or the step stored it. -/
theorem runs_perform (found : (perform call registry).1.runs run = some record) :
    registry.runs run = some record ∨ Stores registry call run record := by
  have step := performs registry call
  generalize perform call registry = result at step found
  cases step with
  | stores =>
    rcases runs_storeRun_eq found with old | ⟨rfl, rfl⟩
    · exact .inl old
    · exact .inr (.registers ..)
  | storesAgain =>
    rcases runs_storeRun_eq found with old | ⟨rfl, rfl⟩
    · exact .inl old
    · exact .inr (.registersAgain ..)
  | @deletes other =>
    dsimp only at found
    rw [Registry.runs_dropRun] at found
    by_cases same : run = other
    · rw [same, Function.update_self] at found
      cases found
    · rw [Function.update_of_ne same] at found
      exact .inl found
  | cancels =>
    rcases runs_storeRun_eq found with old | ⟨rfl, rfl⟩
    · exact .inl old
    · exact .inr (.cancels ..)
  | commits =>
    rcases runs_storeRun_eq found with old | ⟨rfl, rfl⟩
    · exact .inl old
    · exact .inr (.finalizes ..)
  | marksStores =>
    rcases runs_storeRun_eq found with old | ⟨rfl, rfl⟩
    · exact .inl old
    · exact .inr (.marks ..)
  | _ => exact .inl found

/-- A step leaves a run's tombstone, or is the registration's or a cancel's that
writes it. -/
theorem tombstones_perform (call : Call) (run : String) :
    (perform call registry).1.tombstones run = registry.tombstones run ∨
      (∃ user instanceId, call = .registerForgets run user instanceId) ∨
        ∃ user, call = .cancelBuries run user ∧
          (perform call registry).1.tombstones run = some user := by
  have step := performs registry call
  generalize perform call registry = result at step ⊢
  cases step with
  | @forgets other user instanceId =>
    by_cases same : run = other
    · exact .inr (.inl ⟨user, instanceId, by rw [same]⟩)
    · left
      dsimp only
      rw [Registry.tombstones_setTombstone, Function.update_of_ne same]
  | @buries other user =>
    by_cases same : run = other
    · refine .inr (.inr ⟨user, by rw [same], ?_⟩)
      show Function.update registry.tombstones other (some user) run = _
      rw [same, Function.update_self]
    · left
      show Function.update registry.tombstones other (some user) run = _
      rw [Function.update_of_ne same]
  | _ => exact .inl rfl

theorem storing_perform {preCancelled : Bool} (goes : (perform call registry).2 =
      some (.registerStores run user instanceId preCancelled)) :
    preCancelled = true ∨ call = .registerLooks run user instanceId ∧
      registry.tombstones run ≠ some user := by
  have step := performs registry call
  generalize perform call registry = result at step goes
  cases step with
  | looks missing =>
    cases goes
    exact .inr ⟨rfl, missing⟩
  | forgets =>
    cases goes
    exact .inl rfl
  | records =>
    dsimp only at goes
    split at goes
    · cases goes
    · cases goes
  | _ => cases goes

end Frames

end McpAssistant.Services.CancelOwnership
