import OpenCompute.Platform
import OpenCompute.Relational.Table
import OpenCompute.Transition.Run

/-!
# Container leases

A lease is the reservation of one execution of a container by a durable object.
The functions below are transactions of the control database.  They are called
by requests, by the reconciliation with the provider, by rollouts and by the
deletion of an application, in any order and with what the caller saw earlier.

The keys of the provider are 64 hexadecimal digits, here 256 bits.
-/

namespace OpenCompute
namespace Containers

open Relational Transaction

abbrev ResourceId := Uuid

abbrev DurableObjectId := BitVec 256

abbrev Sha256 := BitVec 256

abbrev Opaque := BitVec 256

/-! ## Rows -/

structure ContainerLeaseIdentity where
  namespaceResourceId : ResourceId
  objectId : DurableObjectId
  objectGeneration : Nat
  leaseGeneration : Nat
deriving DecidableEq

inductive ContainerLeaseState where
  | admitting
  | starting
  | running
  | stopping
  | stopped
  | lost
deriving DecidableEq

inductive ContainerInstanceProfile where
  | lite
  | basic
  | standard1
  | standard2
  | standard3
  | standard4
deriving DecidableEq

structure ContainerLeaseStartup where
  imageReference : String
  snapshotId : Option ResourceId
  instanceProfile : Option ContainerInstanceProfile
  imageOverride : Bool
  resourcesOverride : Bool
deriving DecidableEq

structure ContainerResources where
  cpuNanos : Nat
  memoryBytes : Nat
  diskBytes : Nat
  pids : Nat
  openFiles : Nat
deriving DecidableEq

structure ContainerDirectoryRestore where
  snapshotId : Option ResourceId
  mountPoint : String
deriving DecidableEq

structure ContainerExecutionSpec where
  imageSha256 : Sha256
  resources : ContainerResources
  enableInternet : Bool
  startup : ContainerLeaseStartup
  directorySnapshots : List ContainerDirectoryRestore
  startupEnvelope : List UInt8
deriving DecidableEq

structure LeaseColumns where
  identity : ContainerLeaseIdentity
  applicationId : ResourceId
  targetGeneration : Nat
  execution : ContainerExecutionSpec
  opaqueEngineKey : Opaque
  startIdentity : Option Opaque
  state : ContainerLeaseState
  createdAtMs : Millis
  updatedAtMs : Millis
  stoppedAtMs : Option Millis
  stopRequestedAtMs : Option Millis
deriving DecidableEq

def LeaseColumns.Checks (l : LeaseColumns) : Prop :=
  0 < l.identity.leaseGeneration ∧
  (l.state = .stopped ↔ l.stoppedAtMs.isSome = true) ∧
  (l.state = .running -> l.startIdentity.isSome = true) ∧
  (l.state = .stopping -> l.stopRequestedAtMs.isSome = true)

instance (l : LeaseColumns) : Decidable l.Checks := by
  unfold LeaseColumns.Checks
  infer_instance

structure ContainerLease extends LeaseColumns where
  checks : toLeaseColumns.Checks
deriving DecidableEq

structure ContainerTargetSpec where
  imageSha256 : Option Sha256
  providerContractSha256 : Sha256
  resources : ContainerResources
  enableInternet : Bool
deriving DecidableEq

structure ContainerTarget where
  applicationId : ResourceId
  generation : Nat
  spec : ContainerTargetSpec
deriving DecidableEq

def ContainerTarget.key (t : ContainerTarget) : ResourceId × Nat := (t.applicationId, t.generation)

structure ContainerApplication where
  id : ResourceId
  namespaceResourceId : ResourceId
  maxInstances : Nat
  targetGeneration : Option Nat
  admissionPaused : Bool
  deletionRequestedAtMs : Option Millis
  deletedAtMs : Option Millis
deriving DecidableEq

inductive RolloutState where
  | running
  | completed
  | failed
  | cancelled
deriving DecidableEq

/-- A rollout with the executions that were frozen when it was created. -/
structure ContainerRollout where
  id : ResourceId
  applicationId : ResourceId
  targetGeneration : Nat
  steps : List Nat
  currentStep : Nat
  state : RolloutState
  members : List ContainerLeaseIdentity
  updatedAtMs : Millis
deriving DecidableEq

structure Store where
  applications : Table ContainerApplication.id
  targets : Table ContainerTarget.key
  leases : Table (fun l : ContainerLease => l.identity)
  rollouts : Table ContainerRollout.id

def Store.empty : Store := ⟨Table.empty, Table.empty, Table.empty, Table.empty⟩

/-! ## What is decided elsewhere -/

/-- What a transaction finds in the tables of workers, objects, images and snapshots. -/
structure Surroundings where
  /-- The object, its namespace and the active version are as the caller says. -/
  facetCurrent : Bool
  /-- The snapshots that the execution restores may be used. -/
  execution : Result Unit
  imageAdmitted : Bool
  /-- The snapshot that a lease restores stays. -/
  renewRestore : Result Unit
  /-- The requested configuration is that of the current target. -/
  configuration : Result Unit
  /-- The application has no snapshots. -/
  snapshotsGone : Bool

structure ContainerObjectAuthority where
  applicationId : ResourceId
  namespaceResourceId : ResourceId
  objectId : DurableObjectId
  objectGeneration : Nat

structure ContainerTermination where
  opaqueEngineKey : Opaque
  startIdentity : Option Opaque
  terminated : Bool
  cleanupComplete : Bool
  lateOperationsFenced : Bool

structure ContainerRunningObservation where
  opaqueEngineKey : Opaque
  startIdentity : Opaque
  imageSha256 : Sha256
  providerContractSha256 : Sha256

/-! ## Errors -/

def invariant : PlatformError :=
  ⟨.resourceInvariantViolation, "Container authority invariant failed"⟩

def notFound : PlatformError := ⟨.resourceNotFound, "Container authority was not found"⟩

def busy : PlatformError := ⟨.admissionBusy, "Container admission is unavailable"⟩

def staleAuthority : PlatformError :=
  ⟨.doVersionStale, "Container facet authority is stale or undeclared"⟩

def activeRollout : PlatformError :=
  ⟨.versionNotReady, "Container application already has an active rollout"⟩

def resourcesExceeded : PlatformError :=
  ⟨.configInvalid, "Container resources exceed the provider policy"⟩

/-! ## Checks -/

def ContainerResources.validate (r ceiling : ContainerResources) : Result Unit :=
  ensure (r.cpuNanos ≠ 0 ∧ r.memoryBytes ≠ 0 ∧ r.diskBytes ≠ 0 ∧ r.pids ≠ 0 ∧ r.openFiles ≠ 0 ∧
    r.cpuNanos ≤ ceiling.cpuNanos ∧ r.memoryBytes ≤ ceiling.memoryBytes ∧
    r.diskBytes ≤ ceiling.diskBytes ∧ r.pids ≤ ceiling.pids ∧ r.openFiles ≤ ceiling.openFiles ∧
    (r.cpuNanos : Int) ≤ i64Max ∧ (r.memoryBytes : Int) ≤ i64Max ∧ (r.diskBytes : Int) ≤ i64Max)
    resourcesExceeded

/-- The CPU, memory and disk of a profile. -/
def ContainerInstanceProfile.limits : ContainerInstanceProfile -> Nat × Nat × Nat
  | .lite => (62500000, 256 <<< 20, 2000000000)
  | .basic => (250000000, 1 <<< 30, 4000000000)
  | .standard1 => (500000000, 4 <<< 30, 8000000000)
  | .standard2 => (1000000000, 6 <<< 30, 12000000000)
  | .standard3 => (2000000000, 8 <<< 30, 16000000000)
  | .standard4 => (4000000000, 12 <<< 30, 20000000000)

def ContainerInstanceProfile.resources (profile : ContainerInstanceProfile)
    (policy : ContainerResources) : Result ContainerResources := do
  let (cpuNanos, memoryBytes, diskBytes) := profile.limits
  let resources : ContainerResources :=
    ⟨cpuNanos, memoryBytes, diskBytes, policy.pids, policy.openFiles⟩
  resources.validate policy
  pure resources

/-- The text around the last occurrence of a separator. -/
def rsplitOnce (separator : List Char) : List Char -> Option (List Char × List Char)
  | [] => none
  | c :: rest =>
    match rsplitOnce separator rest with
    | some (before, after) => some (c :: before, after)
    | none =>
      if separator.isPrefixOf (c :: rest) then some ([], (c :: rest).drop separator.length)
      else none

/-- `hex::encode`. -/
def hexEncode (digest : Sha256) : List Char :=
  (List.range 64).map fun i => Nat.digitChar (digest.toNat >>> (4 * (63 - i)) % 16)

def ContainerLeaseStartup.validateImageReference (startup : ContainerLeaseStartup)
    (imageSha256 : Sha256) : Result Unit := do
  if startup.snapshotId.isSome then
    ensure (startup.imageReference = "") invariant
  else
    let (reference, digest) ←
      okOr (rsplitOnce "@sha256:".toList startup.imageReference.toList) invariant
    ensure (reference ≠ [] ∧ reference.length ≤ 512 ∧
      reference.all (fun c => decide (c.val < 128) && c != ' ' && !isAsciiControl c) = true ∧
      digest = hexEncode imageSha256) invariant

def validatePlan (plan : List ContainerDirectoryRestore) : Result Unit :=
  ensure ((plan.all fun entry => entry.mountPoint != "/") = true ∧
    (plan.map ContainerDirectoryRestore.mountPoint).Nodup) invariant

/-! ## Updates of leases -/

/-- What `container_lease_identity_guard` and the guards of the later migrations let
through. -/
def IdentityKept (old new : LeaseColumns) : Prop :=
  new.applicationId = old.applicationId ∧ new.identity = old.identity ∧
  new.targetGeneration = old.targetGeneration ∧ new.execution = old.execution ∧
  new.opaqueEngineKey = old.opaqueEngineKey ∧ new.createdAtMs = old.createdAtMs ∧
  (old.startIdentity.isSome = true -> new.startIdentity = old.startIdentity) ∧
  (old.stopRequestedAtMs.isSome = true -> new.stopRequestedAtMs = old.stopRequestedAtMs) ∧
  old.state ≠ .stopped

instance (old new : LeaseColumns) : Decidable (IdentityKept old new) := by
  unfold IdentityKept
  infer_instance

/-- The row after an `UPDATE` that the triggers and constraints let through. -/
def ContainerLease.write (old : ContainerLease) (new : LeaseColumns) :
    ContainerLease :=
  if h : IdentityKept old.toLeaseColumns new ∧ new.Checks then ⟨new, h.right⟩ else old

theorem ContainerLease.identity_write (old : ContainerLease) (new : LeaseColumns) :
    (old.write new).identity = old.identity := by
  unfold ContainerLease.write
  split
  · rename_i h
    exact h.left.right.left
  · rfl

namespace Store

/-- `UPDATE container_instance_leases SET … WHERE …`. -/
def updateLeases (s : Store) (selected : ContainerLease -> Bool)
    (set : ContainerLease -> LeaseColumns) : Result Store := do
  ensure (forall l, l ∈ s.leases.rows -> selected l = true ->
    IdentityKept l.toLeaseColumns (set l) ∧ (set l).Checks) invariant
  pure { s with
    leases := s.leases.update selected (fun l => l.write (set l))
      fun l => l.identity_write (set l) }

/-- `state='stopping',stop_requested_at_ms=COALESCE(stop_requested_at_ms,?2)`. -/
def setStopping (nowMs : Millis) (l : ContainerLease) : LeaseColumns :=
  { l.toLeaseColumns with
    state := .stopping
    stopRequestedAtMs := some (l.stopRequestedAtMs.getD nowMs)
    updatedAtMs := nowMs }

def hasKey (key : Opaque) (l : ContainerLease) : Bool := decide (l.opaqueEngineKey = key)

def isLive (l : ContainerLease) : Bool := decide (l.state ≠ .stopped)

/-! ## Reading -/

def readLease (s : Store) (identity : ContainerLeaseIdentity) : Result ContainerLease :=
  okOr (s.leases.find? identity) notFound

def readLive (s : Store) (namespaceResourceId : ResourceId) (objectId : DurableObjectId) :
    Option ContainerLease :=
  s.leases.rows.find? fun l => decide (l.identity.namespaceResourceId = namespaceResourceId) &&
    decide (l.identity.objectId = objectId) && isLive l

def readTarget (s : Store) (application : ResourceId) (generation : Nat) :
    Result ContainerTarget := do
  let target ← okOr (s.targets.find? (application, generation)) notFound
  mapErr (fun _ => invariant) (target.spec.resources.validate target.spec.resources)
  pure target

def requireFacetAuthority (s : Store) (around : Surroundings)
    (authority : ContainerObjectAuthority) : Result Unit :=
  ensure (around.facetCurrent = true ∧ (s.applications.find? authority.applicationId).any (fun a =>
      decide (a.namespaceResourceId = authority.namespaceResourceId) &&
        a.deletionRequestedAtMs.isNone && a.deletedAtMs.isNone) = true) staleAuthority

def authorized (authority : ContainerObjectAuthority) (l : ContainerLease) : Bool :=
  decide (l.applicationId = authority.applicationId) &&
    decide (l.identity.objectGeneration = authority.objectGeneration)

def readAuthorizedLive (s : Store) (around : Surroundings)
    (authority : ContainerObjectAuthority) : Result (Option ContainerLease) := do
  s.requireFacetAuthority around authority
  let live := s.readLive authority.namespaceResourceId authority.objectId
  ensure (live.all (authorized authority)) invariant
  pure live

/-! ## Admission -/

def total (s : Store) : Nat := s.leases.rows.countP isLive

def applicationTotal (s : Store) (application : ResourceId) : Nat :=
  s.leases.rows.countP fun l => isLive l && decide (l.applicationId = application)

/-- `COALESCE(MAX(lease_generation),0)` over the leases of an object. -/
def maxGeneration (s : Store) (namespaceResourceId : ResourceId)
    (objectId : DurableObjectId) : Nat :=
  ((s.leases.rows.filter fun l =>
    decide (l.identity.namespaceResourceId = namespaceResourceId) &&
      decide (l.identity.objectId = objectId)).map fun l => l.identity.leaseGeneration).foldl
    max 0

def fitsTarget (target : ContainerTargetSpec) (execution : ContainerExecutionSpec) :
    Result Unit := do
  match target.imageSha256 with
  | some image =>
    ensure (execution.imageSha256 = image ∧ execution.resources = target.resources ∧
      execution.startup.imageOverride = false ∧
      execution.startup.resourcesOverride = false ∧
      execution.startup.instanceProfile.isNone = true) invariant
  | none =>
    if execution.startup.resourcesOverride then
      pure ()
    else
      let lite ← ContainerInstanceProfile.lite.resources target.resources
      ensure (execution.resources = lite) invariant
  execution.resources.validate target.resources
  ensure (execution.enableInternet = true -> target.enableInternet = true) invariant

def insertLease (s : Store) (around : Surroundings) (authority : ContainerObjectAuthority)
    (engineKey : Opaque) (execution : ContainerExecutionSpec) (instanceLimit : Nat)
    (nowMs : Millis) : Result (Store × ContainerLease) := do
  let application ← okOr (s.applications.find? authority.applicationId) invariant
  ensure (application.admissionPaused = false) busy
  let generation ← okOr application.targetGeneration notFound
  let target ← s.readTarget authority.applicationId generation
  fitsTarget target.spec execution
  around.execution
  ensure (s.total < instanceLimit ∧
    s.applicationTotal authority.applicationId < application.maxInstances) busy
  let prior := s.maxGeneration authority.namespaceResourceId authority.objectId
  ensure (((prior + 1 : Nat) : Int) ≤ i64Max) invariant
  let lease : ContainerLease :=
    { identity :=
        ⟨authority.namespaceResourceId, authority.objectId, authority.objectGeneration, prior + 1⟩
      applicationId := authority.applicationId
      targetGeneration := generation
      execution := execution
      opaqueEngineKey := engineKey
      startIdentity := none
      state := .admitting
      createdAtMs := nowMs
      updatedAtMs := nowMs
      stoppedAtMs := none
      stopRequestedAtMs := none
      checks := ⟨Nat.succ_pos _, by simp, nofun, nofun⟩ }
  -- The foreign key of the image and the two unique indexes.
  ensure (around.imageAdmitted = true ∧ s.leases.rows.any (hasKey engineKey) = false ∧
    (s.readLive authority.namespaceResourceId authority.objectId).isNone = true) invariant
  let leases ← okOr (s.leases.insert? lease) invariant
  pure ({ s with leases }, lease)

/-- Reserves capacity, or returns the lease that the object has. -/
def reserve (s : Store) (around : Surroundings) (authority : ContainerObjectAuthority)
    (engineKey : Opaque) (execution : ContainerExecutionSpec) (instanceLimit : Nat)
    (nowMs : Millis) : Result (Store × ContainerLease) := do
  ensure (instanceLimit ≠ 0) invariant
  execution.startup.validateImageReference execution.imageSha256
  validatePlan execution.directorySnapshots
  match ← s.readAuthorizedLive around authority with
  | some lease =>
    ensure ({ execution with startupEnvelope := lease.execution.startupEnvelope } =
      lease.execution) invariant
    pure (s, lease)
  | none => s.insertLease around authority engineKey execution instanceLimit nowMs

/-! ## Transitions -/

/-- The states that `transition` lets a lease go to. -/
def allowed (current : ContainerLeaseState) : ContainerLeaseState -> Bool
  | .starting => decide (current = .admitting)
  | .lost => decide (current ≠ .stopped)
  | .stopping => decide (current ≠ .stopped)
  | _ => false

def transition (s : Store) (identity : ContainerLeaseIdentity) (key : Opaque)
    (next : ContainerLeaseState) (nowMs : Millis) : Result Store := do
  let current ← s.readLease identity
  ensure (current.opaqueEngineKey = key) invariant
  if current.state = next then
    pure s
  else
    ensure (allowed current.state next) invariant
    s.updateLeases (hasKey key) fun l =>
      if next = .stopping then setStopping nowMs l
      else { l.toLeaseColumns with state := next, updatedAtMs := nowMs }

def markStarting (s : Store) (identity : ContainerLeaseIdentity) (key : Opaque)
    (nowMs : Millis) : Result Store :=
  s.transition identity key .starting nowMs

def markLost (s : Store) (identity : ContainerLeaseIdentity) (key : Opaque)
    (nowMs : Millis) : Result Store :=
  s.transition identity key .lost nowMs

def beginStop (s : Store) (identity : ContainerLeaseIdentity) (key : Opaque)
    (nowMs : Millis) : Result Store :=
  s.transition identity key .stopping nowMs

def beginAuthorizedStop (s : Store) (around : Surroundings)
    (authority : ContainerObjectAuthority) (identity : ContainerLeaseIdentity) (key : Opaque)
    (nowMs : Millis) : Result Store := do
  let live ← s.readAuthorizedLive around authority
  ensure (identity.namespaceResourceId = authority.namespaceResourceId ∧
    identity.objectId = authority.objectId ∧
    identity.objectGeneration = authority.objectGeneration) invariant
  let lease ← s.readLease identity
  ensure (lease.applicationId = authority.applicationId ∧ lease.opaqueEngineKey = key)
    invariant
  if lease.state = .stopped then
    ensure (lease.stopRequestedAtMs.isSome = true ∧ live.isNone = true) invariant
    pure s
  else
    ensure (live.any (fun l => decide (l.identity = identity) && hasKey key l)) invariant
    s.updateLeases (hasKey key) (setStopping nowMs)

def observeRunning (s : Store) (around : Surroundings) (identity : ContainerLeaseIdentity)
    (observation : ContainerRunningObservation) (nowMs : Millis) : Result Store := do
  let lease ← s.readLease identity
  let target ← s.readTarget lease.applicationId lease.targetGeneration
  ensure (lease.opaqueEngineKey = observation.opaqueEngineKey ∧
    lease.stopRequestedAtMs.isNone = true ∧
    lease.execution.imageSha256 = observation.imageSha256 ∧
    target.spec.providerContractSha256 = observation.providerContractSha256 ∧
    lease.startIdentity.all (fun value => decide (value = observation.startIdentity)) = true ∧
    (lease.state = .starting ∨ lease.state = .running ∨ lease.state = .lost)) invariant
  around.renewRestore
  s.updateLeases (hasKey observation.opaqueEngineKey) fun l =>
    { l.toLeaseColumns with
      state := .running
      startIdentity := some observation.startIdentity
      updatedAtMs := nowMs }

def finishStopped (s : Store) (identity : ContainerLeaseIdentity)
    (proof : ContainerTermination) (nowMs : Millis) : Result Store := do
  ensure (proof.terminated = true ∧ proof.cleanupComplete = true ∧
    proof.lateOperationsFenced = true) invariant
  let current ← s.readLease identity
  ensure (current.opaqueEngineKey = proof.opaqueEngineKey ∧
    current.startIdentity.all (fun value => decide (some value = proof.startIdentity)) = true)
    invariant
  if current.state = .stopped then
    pure s
  else
    s.updateLeases (hasKey proof.opaqueEngineKey) fun l =>
      { l.toLeaseColumns with
        state := .stopped
        startIdentity := l.startIdentity.or proof.startIdentity
        stoppedAtMs := some nowMs
        updatedAtMs := nowMs }

def loseAll (s : Store) (nowMs : Millis) : Result Store :=
  updateLeases { s with
    applications := s.applications.update (fun _ => true)
      (fun a => { a with admissionPaused := true }) fun _ => rfl }
    (fun l => decide (l.state ≠ .stopped) && decide (l.state ≠ .lost)) fun l =>
      { l.toLeaseColumns with state := .lost, updatedAtMs := nowMs }

/-! ## Rollouts -/

def validSteps (steps : List Nat) : Bool :=
  !steps.isEmpty && decide (steps.length ≤ 100) && decide (steps.getLast? = some 100) &&
    steps.all (fun step => decide (1 ≤ step) && decide (step ≤ 100)) &&
      decide (steps.Pairwise (· < ·))

def identityBefore (a b : ContainerLeaseIdentity) : Bool :=
  decide (a.namespaceResourceId < b.namespaceResourceId) ||
    (decide (a.namespaceResourceId = b.namespaceResourceId) && (decide (a.objectId < b.objectId) ||
        (decide (a.objectId = b.objectId) && (decide (a.objectGeneration < b.objectGeneration) ||
            (decide (a.objectGeneration = b.objectGeneration) &&
              decide (a.leaseGeneration ≤ b.leaseGeneration))))))

def readRollout (s : Store) (application id : ResourceId) : Result ContainerRollout := do
  let rollout ← okOr ((s.rollouts.find? id).filter fun r => r.applicationId = application)
    notFound
  ensure (validSteps rollout.steps = true ∧ rollout.currentStep ≤ rollout.steps.length ∧
    (rollout.state = .running -> rollout.currentStep < rollout.steps.length)) invariant
  pure rollout

def outdated (s : Store) (application : ResourceId) (target : Nat) :
    List ContainerLeaseIdentity :=
  (s.leases.rows.filter fun l => decide (l.applicationId = application) &&
    decide (l.targetGeneration ≠ target) && isLive l).map fun l => l.identity

def createRollout (s : Store) (around : Surroundings) (application id : ResourceId)
    (steps : List Nat) (nowMs : Millis) : Result (Store × ContainerRollout) := do
  ensure (validSteps steps = true) invariant
  let row ← okOr ((s.applications.find? application).filter fun a =>
    a.deletionRequestedAtMs.isNone && a.deletedAtMs.isNone) notFound
  let target ← okOr row.targetGeneration notFound
  around.configuration
  ensure (s.rollouts.rows.any (fun r => decide (r.applicationId = application) &&
    decide (r.state = .running)) = false) activeRollout
  let rollout : ContainerRollout :=
    ⟨id, application, target, steps, 0, .running, s.outdated application target, nowMs⟩
  let rollouts ← okOr (s.rollouts.insert? rollout) invariant
  pure ({ s with rollouts }, rollout)

def replaced (s : Store) (rollout : ContainerRollout) (identity : ContainerLeaseIdentity) :
    Bool :=
  s.leases.rows.any fun l => decide (l.applicationId = rollout.applicationId) &&
    decide (l.identity.namespaceResourceId = identity.namespaceResourceId) &&
    decide (l.identity.objectId = identity.objectId) &&
    decide (l.identity.objectGeneration = identity.objectGeneration) &&
    decide (l.targetGeneration = rollout.targetGeneration) &&
    decide (l.state = .running) && l.stopRequestedAtMs.isNone

/-- The loop over the members of a step: the store, the executions to stop, and whether
those that were stopped are replaced. -/
def stopMembers (rollout : ContainerRollout) (nowMs : Millis) :
    Store -> List ContainerLeaseIdentity ->
      Result (Store × List ContainerLease × Bool)
  | s, [] => pure (s, [], true)
  | s, identity :: rest => do
    let lease ← s.readLease identity
    if lease.state = .stopped then
      let ready := s.replaced rollout identity
      let r ← stopMembers rollout nowMs s rest
      pure (r.1, r.2.1, ready && r.2.2)
    else
      let s ← s.updateLeases (hasKey lease.opaqueEngineKey) (setStopping nowMs)
      let stopping ← s.readLease identity
      let r ← stopMembers rollout nowMs s rest
      pure (r.1, stopping :: r.2.1, r.2.2)

def rolloutStepLeases (s : Store) (application id : ResourceId) (nowMs : Millis) :
    Result (Store × List ContainerLease) := do
  let rollout ← s.readRollout application id
  if rollout.state ≠ .running then
    pure (s, [])
  else
    let percentage ← okOr (rollout.steps[rollout.currentStep]?) invariant
    let limit := (rollout.members.length * percentage + 99) / 100
    let members := (rollout.members.filter fun identity =>
      (s.leases.find? identity).isSome).insertionSort fun a b => identityBefore a b = true
    let r ← stopMembers rollout nowMs s (members.take limit)
    if r.2.1.isEmpty && r.2.2 then
      let next := rollout.currentStep + 1
      let state := if next = rollout.steps.length then RolloutState.completed else .running
      pure ({ r.1 with rollouts := r.1.rollouts.replace { rollout with
        state, currentStep := next, updatedAtMs := nowMs } }, r.2.1)
    else
      pure (r.1, r.2.1)

def failRollout (s : Store) (application id : ResourceId) (nowMs : Millis) : Result Store := do
  let rollout ← okOr ((s.rollouts.find? id).filter fun r =>
    decide (r.applicationId = application) && decide (r.state = .running)) notFound
  pure { s with
    rollouts := s.rollouts.replace { rollout with state := .failed, updatedAtMs := nowMs } }

/-! ## Deletion of an application -/

def beginApplicationDelete (s : Store) (application : ResourceId) (nowMs : Millis) :
    Result Store := do
  let row ← okOr ((s.applications.find? application).filter fun a => a.deletedAtMs.isNone)
    notFound
  updateLeases { s with
    applications := s.applications.replace { row with
      admissionPaused := true
      deletionRequestedAtMs := some (row.deletionRequestedAtMs.getD nowMs) } }
    (fun l => decide (l.applicationId = application) && isLive l) (setStopping nowMs)

def finishApplicationDelete (s : Store) (around : Surroundings) (application : ResourceId)
    (nowMs : Millis) : Result Store := do
  let row ← okOr ((s.applications.find? application).filter fun a =>
    a.deletionRequestedAtMs.isSome && a.deletedAtMs.isNone) invariant
  ensure (s.applicationTotal application = 0 ∧ around.snapshotsGone = true ∧
    row.admissionPaused = true) invariant
  pure { s with
    applications := s.applications.replace { row with deletedAtMs := some nowMs } }

end Store

/-! ## The system -/

inductive Action where
  | reserve (around : Surroundings) (authority : ContainerObjectAuthority) (engineKey : Opaque)
      (execution : ContainerExecutionSpec) (instanceLimit : Nat) (nowMs : Millis)
  | markStarting (identity : ContainerLeaseIdentity) (key : Opaque) (nowMs : Millis)
  | markLost (identity : ContainerLeaseIdentity) (key : Opaque) (nowMs : Millis)
  | beginStop (identity : ContainerLeaseIdentity) (key : Opaque) (nowMs : Millis)
  | beginAuthorizedStop (around : Surroundings) (authority : ContainerObjectAuthority)
      (identity : ContainerLeaseIdentity) (key : Opaque) (nowMs : Millis)
  | observeRunning (around : Surroundings) (identity : ContainerLeaseIdentity)
      (observation : ContainerRunningObservation) (nowMs : Millis)
  | finishStopped (identity : ContainerLeaseIdentity) (proof : ContainerTermination)
      (nowMs : Millis)
  | loseAll (nowMs : Millis)
  | createRollout (around : Surroundings) (application id : ResourceId) (steps : List Nat)
      (nowMs : Millis)
  | rolloutStepLeases (application id : ResourceId) (nowMs : Millis)
  | failRollout (application id : ResourceId) (nowMs : Millis)
  | beginApplicationDelete (application : ResourceId) (nowMs : Millis)
  | finishApplicationDelete (around : Surroundings) (application : ResourceId) (nowMs : Millis)
  /-- The management of applications and targets, which never writes leases. -/
  | manage (applications : Table ContainerApplication.id)
      (targets : Table ContainerTarget.key)

namespace Store

def perform (s : Store) : Action -> Result Store
  | .reserve around authority engineKey execution instanceLimit nowMs =>
    Prod.fst <$> s.reserve around authority engineKey execution instanceLimit nowMs
  | .markStarting identity key nowMs => s.markStarting identity key nowMs
  | .markLost identity key nowMs => s.markLost identity key nowMs
  | .beginStop identity key nowMs => s.beginStop identity key nowMs
  | .beginAuthorizedStop around authority identity key nowMs =>
    s.beginAuthorizedStop around authority identity key nowMs
  | .observeRunning around identity observation nowMs =>
    s.observeRunning around identity observation nowMs
  | .finishStopped identity proof nowMs => s.finishStopped identity proof nowMs
  | .loseAll nowMs => s.loseAll nowMs
  | .createRollout around application id steps nowMs =>
    Prod.fst <$> s.createRollout around application id steps nowMs
  | .rolloutStepLeases application id nowMs =>
    Prod.fst <$> s.rolloutStepLeases application id nowMs
  | .failRollout application id nowMs => s.failRollout application id nowMs
  | .beginApplicationDelete application nowMs => s.beginApplicationDelete application nowMs
  | .finishApplicationDelete around application nowMs =>
    s.finishApplicationDelete around application nowMs
  | .manage applications targets => .ok { s with applications, targets }

def next (s : Store) (a : Action) : Option Store :=
  match s.perform a with
  | .ok t => some t
  | .error _ => some s

end Store

end Containers
end OpenCompute
