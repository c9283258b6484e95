import OpenCompute.Workflow.Writes

/-!
# Committing attempts

`durable_settlement.rs`: a reported attempt is committed under the exact run,
ordinal, attempt and step token, and the stored deadline wins over a late
report.  The failure of an attempt is retried or final; a timeout of a step
whose version computes its delay waits for that delay first.
-/

namespace OpenCompute
namespace Workflow

open Relational Transaction

/-! ## Results -/

inductive WorkflowStepResult where
  | complete (output : Option DurableValue)
  | event (envelope : WorkflowEventEnvelope)
  | failed (code : ErrorCode)
  | resolveDelay (attempt : Nat) (code : ErrorCode) (config : WorkflowStepConfig)
  | suspended
deriving DecidableEq

def terminalErrorCodes : List ErrorCode :=
  [.workflowExecutionFailed, .workflowNonDeterministic, .workflowStepConfigUnsupported,
    .workflowMethodUnsupported, .workflowSerializationUnsupported,
    .workflowResultTooLarge, .workflowStateQuotaExceeded, .workflowStepLimitExceeded,
    .artifactIntegrityError, .workflowStepTimeout, .workflowStepRetriesExhausted,
    .workflowNonRetryable, .workflowEventTimeout, .workflowDurationInvalid,
    .workflowEventTypeInvalid]

def terminalErrorCode (code : ErrorCode) : Result Unit :=
  ensure (code ∈ terminalErrorCodes) (validationError .workflowInvariantViolation)

def fromWire (output : Option StepOutput) : Result WorkflowEventEnvelope :=
  match output with
  | some (.event envelope) =>
    match envelope.canonicalWire with
    | .ok envelope => .ok envelope
    | .error _ => .error (validationError .workflowInvariantViolation)
  | some (.value _) => .error (validationError .workflowInvariantViolation)
  | none => .error (error .workflowInvariantViolation)

def result (step : Step) : Result WorkflowStepResult :=
  match step.state with
  | .complete _ output _ =>
    match step.descriptor.config, output with
    | .doStep _, some (.value value) => .ok (.complete (some value))
    | .waitEvent _ _, output => WorkflowStepResult.event <$> fromWire output
    | .sleep _, none => .ok (.complete none)
    | .sleepUntil _, none => .ok (.complete none)
    | _, _ => .error (error .workflowInvariantViolation)
  | .failed _ code => .ok (.failed code)
  | .delayPending attempt code =>
    match step.descriptor.config with
    | .doStep config => .ok (.resolveDelay attempt.number code config)
    | _ => .error (error .workflowInvariantViolation)
  | .waiting _ => .ok .suspended
  | .retryWait _ _ _ _ => .ok .suspended
  | .pending _ => .ok .suspended
  | _ => .error (error .workflowStepStale)

/-! ## The run fence -/

def Store.running (s : Store) (fence : WorkflowFence) (nowMs : Millis) : Result Instance :=
  okOr ((s.instances.find? fence.instanceId).filter fun i =>
      i.generation = fence.instanceGeneration && i.leased fence.runToken nowMs)
    (error .workflowRunStale)

def Instance.updateRun (i : Instance) (fence : WorkflowFence) (nowMs : Millis)
    (change : RunLease -> RunLease) : Result Instance :=
  match i.lifecycle with
  | .running run =>
    if i.generation = fence.instanceGeneration ∧ i.leased fence.runToken nowMs = true then
      i.update { i with
        lifecycle := .running (change run)
        updatedAtMs := max i.updatedAtMs nowMs }
    else
      .error (error .workflowRunStale)
  | _ => .error (error .workflowRunStale)

def requestYield (i : Instance) (fence : WorkflowFence) (nowMs : Millis) : Result Instance :=
  i.updateRun fence nowMs fun run => { run with yieldRequested := true }

def heartbeat (limits : WorkflowsConfig) (i : Instance) (fence : WorkflowFence)
    (nowMs : Millis) : Result Instance := do
  let lease ← deadline nowMs limits.leaseMs
  i.updateRun fence nowMs fun run => { run with leaseUntilMs := max run.leaseUntilMs lease }

/-! ## Failures -/

def retries (config : WorkflowStepConfig) (attempt : Attempt) (code : ErrorCode) : Bool :=
  (code = .workflowExecutionFailed || code = .workflowStepTimeout) &&
    attempt.number ≤ config.retries.limit

def finalCode (code : ErrorCode) : ErrorCode :=
  if code = .workflowExecutionFailed then .workflowStepRetriesExhausted else code

def fail (i : Instance) (step : Step) (code : ErrorCode)
    (resolvedDynamicDelay : Option Nat) (nowMs : Millis) :
    Result (WorkflowStepResult × Instance) := do
  terminalErrorCode code
  match step.descriptor.config with
  | .doStep config =>
    let attempt ← okOr step.state.attempt (error .workflowStepStale)
    ensure ((step.state.isRunning || step.state.isPending ||
      step.state.isDelayPending) = true) (error .workflowStepStale)
    if retries config attempt code then
      let delay ← config.retries.delayAfterResolved attempt.number resolvedDynamicDelay
      let due ← durableDeadline nowMs delay
      let i ← i.updateStep step (.retryWait attempt code delay due) nowMs
      return (.suspended, i)
    else
      let i ← i.updateStep step (.failed (some attempt) (finalCode code)) nowMs
      return (.failed (finalCode code), i)
  | _ => .error (error .workflowInvariantViolation)

/-- Keeps a timeout until the version has computed the delay of its retry. -/
def deferDynamicFailure (i : Instance) (step : Step) (config : WorkflowStepConfig)
    (nowMs : Millis) : Result (WorkflowStepResult × Instance) := do
  let attempt ← okOr step.state.attempt (error .workflowStepStale)
  ensure (config.retries.delay = none ∧
    (step.state.isRunning || step.state.isPending) = true) (error .workflowStepStale)
  let i ← i.updateStep step (.delayPending attempt .workflowStepTimeout) nowMs
  return (.resolveDelay attempt.number .workflowStepTimeout config, i)

def timeout (i : Instance) (step : Step) (nowMs : Millis) :
    Result (WorkflowStepResult × Instance) :=
  match step.descriptor.config with
  | .doStep config =>
    if config.retries.delay = none then
      deferDynamicFailure i step config nowMs
    else
      fail i step .workflowStepTimeout none nowMs
  | _ => fail i step .workflowStepTimeout none nowMs

/-! ## Reports -/

structure WorkflowStepAttempt where
  ordinal : Nat
  attempt : Nat
  stepToken : WorkflowToken
deriving DecidableEq, Repr

inductive WorkflowStepOutcome where
  | success (output : String)
  | failure (code : ErrorCode)
  | failureWithDelay (code : ErrorCode) (delayMs : Nat)
  | timeout
deriving DecidableEq, Repr

def commitSuccess (limits : WorkflowsConfig) (others : Usage) (i : Instance) (step : Step)
    (attempt : Attempt) (output : String) (nowMs : Millis) :
    Result (WorkflowStepResult × Instance) :=
  let admitted : Result DurableValue := do
    let value ← durableValueBase64 output .workflowResultTooLarge
    capacityChange limits others i value.size (-1)
    return value
  match admitted with
  | .ok value => do
    let i ← i.updateStep step (.complete (some attempt) (some (.value value)) none) nowMs
    return (.complete (some value), i)
  | .error e => fail i step e.code none nowMs

def settleAttempt (limits : WorkflowsConfig) (others : Usage) (i : Instance) (step : Step)
    (attempt : Attempt) (outcome : WorkflowStepOutcome) (nowMs : Millis) :
    Result (WorkflowStepResult × Instance) :=
  if attempt.deadlineAtMs ≤ nowMs then
    timeout i step nowMs
  else
    match outcome with
    | .timeout => .error (error .workflowStepStale)
    | .failure code => fail i step code none nowMs
    | .failureWithDelay code delayMs => fail i step code (some delayMs) nowMs
    | .success output => commitSuccess limits others i step attempt output nowMs

/-- A suspended verdict asks the run to yield, and every report renews its lease. -/
def finishReport (limits : WorkflowsConfig) (fence : WorkflowFence) (nowMs : Millis)
    (verdict : WorkflowStepResult × Instance) : Result (WorkflowStepResult × Instance) := do
  let i ← if verdict.1 = .suspended then requestYield verdict.2 fence nowMs
    else .ok verdict.2
  let i ← heartbeat limits i fence nowMs
  return (verdict.1, i)

def settleReport (limits : WorkflowsConfig) (others : Usage) (fence : WorkflowFence)
    (report : WorkflowStepAttempt) (outcome : WorkflowStepOutcome) (nowMs : Millis)
    (i : Instance) : Result (WorkflowStepResult × Instance) := do
  let step ← okOr (i.steps.find? report.ordinal) (error .workflowStepStale)
  match step.state with
  | .running attempt runToken stepToken =>
    ensure (attempt.number = report.attempt ∧ runToken = fence.runToken ∧
      stepToken = report.stepToken) (error .workflowStepStale)
    let verdict ← settleAttempt limits others i step attempt outcome nowMs
    finishReport limits fence nowMs verdict
  | _ => .error (error .workflowStepStale)

def settleWorkflowStep (s : Store) (fence : WorkflowFence) (report : WorkflowStepAttempt)
    (outcome : WorkflowStepOutcome) (nowMs : Millis) (limits : WorkflowsConfig) :
    Result (WorkflowStepResult × Store) := do
  limits.validate
  let i ← s.running fence nowMs
  let (verdict, i') ← settleReport limits (s.others i.id) fence report outcome nowMs i
  return (verdict, s.put i')

/-! ## Resolved delays -/

structure WorkflowDelayResolution where
  failureCode : ErrorCode
  resolvedDelayMs : Option Nat
deriving DecidableEq, Repr

def resolveDelay (limits : WorkflowsConfig) (fence : WorkflowFence)
    (ordinal attempt : Nat) (resolution : WorkflowDelayResolution) (nowMs : Millis)
    (i : Instance) : Result (WorkflowStepResult × Instance) := do
  let step ← okOr (i.steps.find? ordinal) (error .workflowStepStale)
  match step.descriptor.config, step.state with
  | .doStep config, .delayPending stored code =>
    ensure (stored.number = attempt ∧ config.retries.delay = none ∧
      code = .workflowStepTimeout) (error .workflowStepStale)
    if resolution.failureCode = .workflowStepConfigUnsupported then
      let verdict ← fail i step resolution.failureCode none nowMs
      finishReport limits fence nowMs verdict
    else
      ensure (resolution.failureCode = .workflowStepTimeout) (error .workflowStepStale)
      let verdict ← fail i step resolution.failureCode resolution.resolvedDelayMs nowMs
      finishReport limits fence nowMs verdict
  | _, _ => .error (error .workflowStepStale)

def resolveWorkflowDelay (s : Store) (fence : WorkflowFence) (ordinal attempt : Nat)
    (resolution : WorkflowDelayResolution) (nowMs : Millis) (limits : WorkflowsConfig) :
    Result (WorkflowStepResult × Store) := do
  limits.validate
  let i ← s.running fence nowMs
  let (verdict, i') ← resolveDelay limits fence ordinal attempt resolution nowMs i
  return (verdict, s.put i')

/-!
## Sleeps and event waits

`durable_waits.rs`: one arbiter decides for a waiting step whether the oldest
event of its type completes it, its deadline has passed, or it goes on waiting.
Admission of an event, maintenance, resumption and the replay of a batch all
use it.
-/

def consumeEvent (limits : WorkflowsConfig) (others : Usage) (i : Instance) (step : Step)
    (event : Event) (nowMs : Millis) : Result (WorkflowStepResult × Instance) := do
  let envelope ← WorkflowEventEnvelope.canonicalWire
    ⟨event.eventType, event.payload, event.acceptedAtMs⟩
  capacityChange limits others i ((envelope.size : Int) - event.logicalBytes) (-1)
  let i ← i.updateStep step (.complete none (some (.event envelope)) (some event.seq)) nowMs
  let i ← i.deleteEvent event.seq
  return (.event envelope, i)

def expireWait (i : Instance) (step : Step) (due nowMs : Millis) :
    Result (WorkflowStepResult × Instance) :=
  if due ≤ nowMs then do
    let i ← i.updateStep step (.failed none .workflowEventTimeout) nowMs
    return (.failed .workflowEventTimeout, i)
  else
    .ok (.suspended, i)

def settleEventWait (limits : WorkflowsConfig) (others : Usage) (i : Instance)
    (step : Step) (due : Millis) (eventType : String) (nowMs : Millis) :
    Result (WorkflowStepResult × Instance) :=
  match i.nextEvent eventType with
  | some event =>
    if eligible due step.ceiling event then
      consumeEvent limits others i step event nowMs
    else
      expireWait i step due nowMs
  | none => expireWait i step due nowMs

def settleSleep (i : Instance) (step : Step) (due nowMs : Millis) :
    Result (WorkflowStepResult × Instance) :=
  if due ≤ nowMs then do
    let i ← i.updateStep step (.complete none none none) nowMs
    return (.complete none, i)
  else
    .ok (.suspended, i)

def settle (limits : WorkflowsConfig) (others : Usage) (i : Instance) (step : Step)
    (nowMs : Millis) : Result (WorkflowStepResult × Instance) :=
  match step.state with
  | .waiting due =>
    match step.descriptor.config with
    | .waitEvent eventType _ => settleEventWait limits others i step due eventType nowMs
    | _ => settleSleep i step due nowMs
  | _ => do
    let verdict ← result step
    return (verdict, i)

/-- Makes a waiting instance claimable; any other state is left alone. -/
def wake (i : Instance) (nowMs : Millis) : Result Instance :=
  match i.lifecycle with
  | .waiting =>
    i.updateState { i with
      lifecycle := .queued nowMs
      updatedAtMs := max i.updatedAtMs nowMs }
  | _ => .ok i

def wakeUnlessSuspended (nowMs : Millis) (verdict : WorkflowStepResult × Instance) :
    Result Instance :=
  if verdict.1 = .suspended then .ok verdict.2 else wake verdict.2 nowMs

/-! ## Admission of an event -/

def Instance.waiter (i : Instance) (eventType : String) : Option Step :=
  i.steps.rows.find? fun s => s.state.isWaiting && s.eventType = some eventType

def offerEvent (limits : WorkflowsConfig) (others : Usage) (eventType : String)
    (nowMs : Millis) (i : Instance) : Result Instance :=
  match i.waiter eventType with
  | none => .ok i
  | some step => do
    let verdict ← settle limits others i step nowMs
    wakeUnlessSuspended nowMs verdict

/-- Buffers a new event and arbitrates a matching wait, at the admission time. -/
def deliverEvent (limits : WorkflowsConfig) (others : Usage) (eventType : String)
    (payload : DurableValue) (nowMs : Millis) (i : Instance) : Result Instance :=
  if hseq : 1 ≤ i.nextEventSeq then do
    let event : Event := ⟨i.nextEventSeq, eventType, payload, nowMs, hseq⟩
    let i ← i.insertEvent event
    let i ← i.update { i with updatedAtMs := nowMs }
    offerEvent limits others eventType nowMs i
  else
    .error sqlError

def admitEvent (limits : WorkflowsConfig) (others : Usage) (eventType : String)
    (payload : DurableValue) (nowMs : Millis) (i : Instance) : Result Instance := do
  ensure (i.live = true) (error .workflowInstanceStateConflict)
  let logical := eventBytes + eventType.utf8ByteSize + payload.size
  ensure (i.accounts.eventCount < limits.maxBufferedEvents ∧
      i.accounts.eventBytes + logical ≤ limits.maxEventBytes ∧ i.nextEventSeq ≠ i64Max)
    (error .workflowEventQueueFull)
  capacityChange limits others i logical 0
  let acceptedAtMs := max nowMs i.updatedAtMs
  let _ ← durableDeadline acceptedAtMs 0
  deliverEvent limits others eventType payload acceptedAtMs i

def sendWorkflowEvent (sha256 : String -> Digest) (s : Store)
    (identity : WorkflowInstanceIdentity) (operationId : WorkflowOperationId)
    (eventType payload : String) (nowMs : Millis) (limits : WorkflowsConfig) : Result Store := do
  limits.validate
  validateWorkflowEventType eventType
  let value ← durableValueBase64 payload .workflowPayloadTooLarge
  let receipt : EventReceipt := ⟨operationId, identity.instanceId,
    identity.instanceGeneration, eventType, sha256 payload⟩
  match s.receipts.find? operationId with
  | some stored =>
    ensure (stored = receipt) (error .workflowInvariantViolation)
    return s
  | none =>
    let i ← okOr (s.instances.find? identity.instanceId)
      (error .workflowInstanceNotFound)
    ensure (i.identity = identity) (error .workflowInstanceStateConflict)
    let i' ← admitEvent limits (s.others i.id) eventType value nowMs i
    let receipts ← okOr (s.receipts.insert? receipt) sqlError
    return { s.put i' with receipts := receipts }

end Workflow
end OpenCompute
