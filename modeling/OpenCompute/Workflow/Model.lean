import OpenCompute.Relational.Table
import OpenCompute.Workflow.Descriptor

/-!
# Rows of the Workflow store

The tables `workflow_instances`, `workflow_steps`, `workflow_events`,
`workflow_event_receipts`, `workflow_operation_progress` and
`workflow_gc_receipts`.  Steps and events reference their instance and its
generation by a foreign key, so an instance holds them.  A step holds its
descriptor, whose canonical text and edges are what the columns and
`workflow_step_dependencies` keep.  Columns that are set in some states only
are arguments of those states, and the remaining `CHECK`s of a step are a proof
field.  Steps are listed by ordinal and events by sequence number.
-/

namespace OpenCompute
namespace Workflow

open Relational

abbrev WorkflowInstanceId := Uuid
abbrev WorkflowOperationId := Uuid
abbrev Digest := BitVec 256

/-- A 256-bit private fence. -/
abbrev WorkflowToken := BitVec 256

/-! ## Identities -/

structure WorkflowTarget where
  instanceId : Uuid
  definitionId : Uuid
  definitionName : String
  workflowVersionId : Uuid
  workerId : Uuid
  workerVersionId : Uuid
  workerCodeSha256 : Digest
  className : String
  loaderSchemaVersion : Nat
  capabilityVersion : Nat
  descriptorSha256 : Digest
deriving DecidableEq, Repr

structure WorkflowInstanceIdentity where
  target : WorkflowTarget
  instanceId : WorkflowInstanceId
  externalInstanceId : String
  instanceGeneration : Nat
  creationNonce : WorkflowToken
  creationOperationId : WorkflowOperationId
  creationBatchId : Uuid
  createdAtMs : Millis
  schedule : Option WorkflowCronSchedule
deriving DecidableEq, Repr

structure WorkflowFence where
  instanceId : WorkflowInstanceId
  instanceGeneration : Nat
  runToken : WorkflowToken
deriving DecidableEq, Repr

/-! ## Steps -/

/-- The attempt columns, which are set once the first attempt started. -/
structure Attempt where
  number : Nat
  startedAtMs : Millis
  deadlineAtMs : Millis
  bounds : 1 ≤ number ∧ number ≤ 101
  deadline_gt : startedAtMs < deadlineAtMs
deriving Repr

instance : DecidableEq Attempt := fun a b =>
  decidable_of_iff ((a.number, a.startedAtMs, a.deadlineAtMs) =
    (b.number, b.startedAtMs, b.deadlineAtMs)) (by cases a; cases b; simp)

def Attempt.make? (number : Nat) (startedAtMs deadlineAtMs : Millis) :
    Option Attempt :=
  if hchecks : (1 ≤ number ∧ number ≤ 101) ∧ startedAtMs < deadlineAtMs then
    some ⟨number, startedAtMs, deadlineAtMs, hchecks.left, hchecks.right⟩
  else
    none

inductive StepOutput where
  | value (value : DurableValue)
  | event (envelope : WorkflowEventEnvelope)
deriving DecidableEq

def StepOutput.size : StepOutput -> Nat
  | value v => v.size
  | event e => e.size

inductive StepState where
  | pending (attempt : Option Attempt)
  | running (attempt : Attempt) (runToken stepToken : WorkflowToken)
  | delayPending (attempt : Attempt) (code : ErrorCode)
  | retryWait (attempt : Attempt) (code : ErrorCode) (delayMs : Nat) (dueAtMs : Millis)
  | waiting (dueAtMs : Millis)
  | complete (attempt : Option Attempt) (output : Option StepOutput)
      (consumed : Option Int)
  | failed (attempt : Option Attempt) (code : ErrorCode)
  | cancelled (attempt : Option Attempt)
deriving DecidableEq

namespace StepState

def attempt : StepState -> Option Attempt
  | pending a => a
  | running a _ _ => some a
  | delayPending a _ => some a
  | retryWait a _ _ _ => some a
  | waiting _ => none
  | complete a _ _ => a
  | failed a _ => a
  | cancelled a => a

/-- `due_at_ms`. -/
def due : StepState -> Option Millis
  | retryWait _ _ _ due => some due
  | waiting due => some due
  | _ => none

def runToken : StepState -> Option WorkflowToken
  | running _ token _ => some token
  | _ => none

def stepToken : StepState -> Option WorkflowToken
  | running _ _ token => some token
  | _ => none

def retryDelay : StepState -> Option Nat
  | retryWait _ _ delay _ => some delay
  | _ => none

def output : StepState -> Option StepOutput
  | complete _ output _ => output
  | _ => none

/-- `consumed_event_seq`. -/
def consumed : StepState -> Option Int
  | complete _ _ consumed => consumed
  | _ => none

/-- `error_code`, set exactly when `error_json` is. -/
def failure : StepState -> Option ErrorCode
  | delayPending _ code => some code
  | retryWait _ code _ _ => some code
  | failed _ code => some code
  | _ => none

def isPending : StepState -> Bool
  | pending _ => true
  | _ => false

def isRunning : StepState -> Bool
  | running _ _ _ => true
  | _ => false

def isDelayPending : StepState -> Bool
  | delayPending _ _ => true
  | _ => false

def isRetryWait : StepState -> Bool
  | retryWait _ _ _ _ => true
  | _ => false

def isWaiting : StepState -> Bool
  | waiting _ => true
  | _ => false

def isComplete : StepState -> Bool
  | complete _ _ _ => true
  | _ => false

def isFailed : StepState -> Bool
  | failed _ _ => true
  | _ => false

def isCancelled : StepState -> Bool
  | cancelled _ => true
  | _ => false

/-- `state IN ('complete','failed')`. -/
def settled (s : StepState) : Bool := s.isComplete || s.isFailed

/-- `state IN ('pending','running','delay_pending','waiting','retry_wait')`. -/
def unfinished (s : StepState) : Bool := !s.settled && !s.isCancelled

/-- The `CHECK`s that tie the state of a step to its kind and its other columns. -/
def Checks (kind : WorkflowStepKind) (updatedAtMs : Millis) : StepState -> Prop
  | pending _ => kind = .doStep
  | running _ _ _ => kind = .doStep
  | delayPending _ _ => kind = .doStep
  | retryWait _ _ delay due =>
    kind = .doStep ∧ delay ≤ maxRetryDelayMs ∧ due = updatedAtMs + delay
  | waiting _ => kind ≠ .doStep
  | complete attempt output consumed =>
    (attempt.isSome ↔ kind = .doStep) ∧
    (output.isSome ↔ kind = .doStep ∨ kind = .waitEvent) ∧
    (consumed.isSome ↔ kind = .waitEvent) ∧
    consumed.all (fun seq => 1 ≤ seq) = true
  | failed attempt _ => attempt.isSome ↔ kind = .doStep
  | cancelled attempt => attempt.isSome -> kind = .doStep

instance (kind : WorkflowStepKind) (updatedAtMs : Millis) :
    (s : StepState) -> Decidable (s.Checks kind updatedAtMs)
  | pending _ => inferInstanceAs (Decidable (kind = .doStep))
  | running _ _ _ => inferInstanceAs (Decidable (kind = .doStep))
  | delayPending _ _ => inferInstanceAs (Decidable (kind = .doStep))
  | retryWait _ _ delay due => inferInstanceAs (Decidable
    (kind = .doStep ∧ delay ≤ maxRetryDelayMs ∧ due = updatedAtMs + delay))
  | waiting _ => inferInstanceAs (Decidable (kind ≠ .doStep))
  | complete attempt output consumed => inferInstanceAs (Decidable
    ((attempt.isSome ↔ kind = .doStep) ∧ (output.isSome ↔ kind = .doStep ∨ kind = .waitEvent) ∧
      (consumed.isSome ↔ kind = .waitEvent) ∧
      consumed.all (fun seq => 1 ≤ seq) = true))
  | failed attempt _ => inferInstanceAs (Decidable (attempt.isSome ↔ kind = .doStep))
  | cancelled attempt => inferInstanceAs (Decidable (attempt.isSome -> kind = .doStep))

end StepState

structure Step where
  descriptor : WorkflowStepDescriptor
  startedAtMs : Millis
  /-- `event_buffer_ceiling`. -/
  ceiling : Option Int
  updatedAtMs : Millis
  state : StepState
  descriptor_valid : descriptor.Valid
  checks : state.Checks descriptor.kind updatedAtMs
  ceiling_check : (ceiling.isSome ↔ descriptor.kind = .waitEvent) ∧
    ceiling.all (fun seq => 0 ≤ seq) = true
deriving DecidableEq

namespace Step

def ordinal (s : Step) : Nat := s.descriptor.ordinal

/-- `attempt`, zero before the first one. -/
def attemptNumber (s : Step) : Nat := s.state.attempt.elim 0 Attempt.number

/-- `attempt_started_at_ms`. -/
def attemptStarted (s : Step) : Option Millis := s.state.attempt.map Attempt.startedAtMs

/-- `attempt_deadline_at_ms`. -/
def deadline (s : Step) : Option Millis := s.state.attempt.map Attempt.deadlineAtMs

/-- The event type of a `wait_event` step. -/
def eventType (s : Step) : Option String :=
  match s.descriptor.config with
  | .waitEvent eventType _ => some eventType
  | _ => none

/-- An `UPDATE` of the mutable columns, when the `CHECK`s allow it. -/
def set? (s : Step) (state : StepState) (updatedAtMs : Millis) : Option Step :=
  if hchecks : state.Checks s.descriptor.kind updatedAtMs then
    some { s with state := state, updatedAtMs := updatedAtMs, checks := hchecks }
  else
    none

/-- A new row, when the `CHECK`s allow it. -/
def make? (descriptor : WorkflowStepDescriptor) (nowMs : Millis) (ceiling : Option Int)
    (state : StepState) : Option Step :=
  if hchecks : descriptor.Valid ∧ state.Checks descriptor.kind nowMs ∧
      (ceiling.isSome ↔ descriptor.kind = .waitEvent) ∧
      ceiling.all (fun seq => 0 ≤ seq) = true then
    some ⟨descriptor, nowMs, ceiling, nowMs, state, hchecks.left, hchecks.right.left,
      hchecks.right.right⟩
  else
    none

end Step

/-! ## Events and instances -/

structure Event where
  seq : Int
  eventType : String
  payload : DurableValue
  acceptedAtMs : Millis
  seq_pos : 1 ≤ seq
deriving DecidableEq

/-- `logical_bytes`, which a `CHECK` fixes. -/
def Event.logicalBytes (e : Event) : Nat :=
  eventBytes + e.eventType.utf8ByteSize + e.payload.size

inductive WorkflowState where
  | queued
  | running
  | waiting
  | paused
  | complete
  | errored
  | terminated
deriving DecidableEq, Repr

def WorkflowState.isTerminal : WorkflowState -> Bool
  | complete => true
  | errored => true
  | terminated => true
  | _ => false

/-- The columns that are set exactly while an activation is leased. -/
structure RunLease where
  token : WorkflowToken
  leaseUntilMs : Millis
  pauseRequested : Bool
  yieldRequested : Bool
deriving DecidableEq, Repr

structure Terminal where
  atMs : Millis
  expiresAtMs : Millis
deriving DecidableEq, Repr

/-- The state column with the columns that belong to it. -/
inductive Lifecycle where
  | queued (nextRunAtMs : Millis)
  | running (run : RunLease)
  | waiting
  | paused
  | complete (terminal : Terminal) (output : DurableValue)
  | errored (terminal : Terminal) (code : ErrorCode)
  | terminated (terminal : Terminal)
deriving DecidableEq

namespace Lifecycle

def state : Lifecycle -> WorkflowState
  | queued _ => .queued
  | running _ => .running
  | waiting => .waiting
  | paused => .paused
  | complete _ _ => .complete
  | errored _ _ => .errored
  | terminated _ => .terminated

def nextRunAtMs : Lifecycle -> Option Millis
  | queued at_ => some at_
  | _ => none

def run : Lifecycle -> Option RunLease
  | running r => some r
  | _ => none

def terminal : Lifecycle -> Option Terminal
  | complete t _ => some t
  | errored t _ => some t
  | terminated t => some t
  | _ => none

def output : Lifecycle -> Option DurableValue
  | complete _ v => some v
  | _ => none

def errorCode : Lifecycle -> Option ErrorCode
  | errored _ code => some code
  | _ => none

/-- `state IN ('queued','running','waiting','paused')`. -/
def live (l : Lifecycle) : Bool := !l.state.isTerminal

end Lifecycle

/-- The columns that the accounting triggers maintain. -/
structure Accounting where
  registered : Nat
  settled : Nat
  completed : Nat
  eventCount : Nat
  eventBytes : Nat
  stateBytes : Nat
  nextWakeAtMs : Option Millis
deriving DecidableEq, Repr

/-- The operation that committed the current generation, and where it resumed. -/
structure RestartMarker where
  operationId : WorkflowOperationId
  restartFrom : Option WorkflowRestartSelector
  targetOrdinal : Option Nat
deriving DecidableEq, Repr

structure Instance where
  identity : WorkflowInstanceIdentity
  input : DurableValue
  retention : ValidRetention
  lifecycle : Lifecycle
  rollbackRequested : Bool
  hasActivated : Bool
  updatedAtMs : Millis
  nextEventSeq : Int
  lastRestart : Option RestartMarker
  steps : Table Step.ordinal
  events : Table Event.seq
  accounts : Accounting
deriving DecidableEq

namespace Instance

def id (i : Instance) : WorkflowInstanceId := i.identity.instanceId

def generation (i : Instance) : Nat := i.identity.instanceGeneration

def state (i : Instance) : WorkflowState := i.lifecycle.state

def live (i : Instance) : Bool := i.lifecycle.live

def runToken (i : Instance) : Option WorkflowToken := i.lifecycle.run.map RunLease.token

def leaseUntil (i : Instance) : Option Millis := i.lifecycle.run.map RunLease.leaseUntilMs

def pauseRequested (i : Instance) : Bool := i.lifecycle.run.any RunLease.pauseRequested

def yieldRequested (i : Instance) : Bool := i.lifecycle.run.any RunLease.yieldRequested

def expiresAt (i : Instance) : Option Millis := i.lifecycle.terminal.map Terminal.expiresAtMs

def anyStep (i : Instance) (p : StepState -> Bool) : Bool :=
  i.steps.rows.any fun s => p s.state

end Instance

/-! ## Receipts and decisions -/

structure EventReceipt where
  operationId : WorkflowOperationId
  instanceId : WorkflowInstanceId
  instanceGeneration : Nat
  eventType : String
  payloadSha256 : Digest
deriving DecidableEq, Repr

inductive WorkflowOperationKind where
  | restart
  | purge
deriving DecidableEq, Repr

/-- The latest decision on a restart or purge of an instance. -/
structure Progress where
  instanceId : WorkflowInstanceId
  operationId : WorkflowOperationId
  sequence : Int
  creationNonce : WorkflowToken
  expectedGeneration : Nat
  targetGeneration : Nat
  kind : WorkflowOperationKind
  restartFrom : Option WorkflowRestartSelector
  targetOrdinal : Option Nat
  /-- The outcome is `applied` when this is `none`, else `rejected`. -/
  rejection : Option ErrorCode
deriving DecidableEq, Repr

structure GcReceipt where
  operationId : WorkflowOperationId
  instanceId : WorkflowInstanceId
  creationNonce : WorkflowToken
  creationOperationId : WorkflowOperationId
  instanceGeneration : Nat
  deletedAtMs : Millis
deriving DecidableEq, Repr

structure Store where
  /-- `scheduler_identity`. -/
  owner : Uuid
  instances : Table Instance.id
  receipts : Table EventReceipt.operationId
  progress : Table Progress.instanceId
  gcReceipts : Table GcReceipt.instanceId
deriving DecidableEq

def Store.empty (owner : Uuid) : Store :=
  ⟨owner, Table.empty, Table.empty, Table.empty, Table.empty⟩

end Workflow
end OpenCompute
