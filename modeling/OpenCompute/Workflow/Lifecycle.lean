import OpenCompute.Workflow.Runs

/-!
# Ends, pauses and rollbacks

`finish_workflow` of `durable_runs.rs`, and `durable_lifecycle.rs`: a run ends
its instance, or a caller pauses, resumes, terminates or rolls it back.  What is
unfinished at an end or a rollback is cancelled.
-/

namespace OpenCompute
namespace Workflow

open Relational Transaction

/-! ## Cancellation -/

def cancelStep (nowMs : Millis) (i : Instance) (step : Step) : Result Instance :=
  if step.state.unfinished then
    i.updateStep step (.cancelled step.state.attempt) nowMs
  else
    .ok i

def cancelUnfinished (nowMs : Millis) (i : Instance) : Result Instance :=
  i.steps.rows.foldlM (cancelStep nowMs) i

/-! ## The end of a run -/

inductive WorkflowCompletion where
  | complete (output : String) (finalOrdinal : Nat)
  | errored (code : ErrorCode)
  | terminated (finalOrdinal : Nat)
deriving DecidableEq, Repr

def caughtCodes : List ErrorCode :=
  [.workflowStepTimeout, .workflowStepRetriesExhausted, .workflowNonRetryable,
    .workflowEventTimeout]

def StepState.platformFailure : StepState -> Option ErrorCode
  | failed _ code => if code ∈ caughtCodes then none else some code
  | _ => none

def Instance.platformFailure (i : Instance) : Option ErrorCode :=
  i.steps.rows.findSome? fun s => s.state.platformFailure

def finalOutput (limits : WorkflowsConfig) (others : Usage) (i : Instance)
    (output : String) : Result DurableValue := do
  let value ← durableValueBase64 output .workflowResultTooLarge
  capacityChange limits others i value.size (-1)
  return value

def finishVerdict (limits : WorkflowsConfig) (others : Usage) (i : Instance)
    (completion : WorkflowCompletion) : Result (Except ErrorCode DurableValue) :=
  match i.platformFailure, completion with
  | some code, _ => do
    terminalErrorCode code
    return .error code
  | none, .errored code => do
    terminalErrorCode code
    return .error code
  | none, .complete output finalOrdinal =>
    if finalOrdinal ≠ i.accounts.registered ∨ i.accounts.registered ≠ i.accounts.settled then
      .ok (.error .workflowNonDeterministic)
    else
      match finalOutput limits others i output with
      | .ok value => .ok (.ok value)
      | .error e => .ok (.error e.code)
  -- The caller has handled this completion.
  | none, .terminated _ => .error (error .workflowInvariantViolation)

/-- The terminal `UPDATE`, which charges the output or the failure record. -/
def endAs (i : Instance) (lifecycle : Lifecycle) (nowMs : Millis) : Result Instance :=
  i.updateState { i with
    lifecycle := lifecycle
    rollbackRequested := false
    updatedAtMs := nowMs
    accounts := { i.accounts with
      stateBytes := i.accounts.stateBytes + lifecycle.bytes } }

def endTerminated (nowMs : Millis) (i : Instance) : Result Instance := do
  let expiresAtMs ← i.retention.expiresAt nowMs false
  endAs i (.terminated ⟨nowMs, expiresAtMs⟩) nowMs

def endComplete (output : DurableValue) (nowMs : Millis) (i : Instance) : Result Instance := do
  let expiresAtMs ← i.retention.expiresAt nowMs true
  endAs i (.complete ⟨nowMs, expiresAtMs⟩ output) nowMs

def endErrored (code : ErrorCode) (nowMs : Millis) (i : Instance) : Result Instance := do
  let cancelled ← cancelUnfinished nowMs i
  let expiresAtMs ← i.retention.expiresAt nowMs false
  endAs cancelled (.errored ⟨nowMs, expiresAtMs⟩ code) nowMs

def finishRun (limits : WorkflowsConfig) (others : Usage)
    (completion : WorkflowCompletion) (nowMs : Millis) (i : Instance) : Result Instance :=
  if i.admits = false then
    release i nowMs nowMs
  else
    match completion with
    | .terminated finalOrdinal => do
      ensure (i.rollbackRequested = true ∧ finalOrdinal = i.accounts.registered)
        (error .workflowNonDeterministic)
      ensure (i.anyStep StepState.unfinished = false) (error .workflowNonDeterministic)
      endTerminated nowMs i
    | completion => do
      ensure (i.rollbackRequested = false) (error .workflowNonDeterministic)
      let verdict ← finishVerdict limits others i completion
      match verdict with
      | .ok output => endComplete output nowMs i
      | .error code => endErrored code nowMs i

def finishWorkflow (s : Store) (fence : WorkflowFence) (completion : WorkflowCompletion)
    (nowMs : Millis) (limits : WorkflowsConfig) : Result (WorkflowState × Store) := do
  limits.validate
  let i ← s.running fence nowMs
  let i' ← finishRun limits (s.others i.id) completion nowMs i
  return (i'.state, s.put i')

/-! ## Rollback -/

def rollbackRun (nowMs : Millis) (i : Instance) : Result Instance := do
  ensure (i.live = true) (error .workflowInstanceStateConflict)
  if i.rollbackRequested then
    return i
  else
    let cancelled ← cancelUnfinished nowMs i
    cancelled.updateState { cancelled with
      lifecycle := .queued nowMs
      rollbackRequested := true
      updatedAtMs := nowMs }

def requestWorkflowRollback (s : Store) (identity : WorkflowInstanceIdentity)
    (nowMs : Millis) (limits : WorkflowsConfig) : Result Store := do
  limits.validate
  let _ ← durableDeadline nowMs 0
  let i ← okOr (s.instances.find? identity.instanceId) (error .workflowInstanceNotFound)
  ensure (i.identity = identity) (error .workflowRunStale)
  let i' ← rollbackRun nowMs i
  return s.put i'

/-! ## Pause, resume and terminate -/

inductive WorkflowInstanceAction where
  | pause
  | resume
  | terminate
deriving DecidableEq, Repr

def pauseRun (nowMs : Millis) (i : Instance) : Result Instance :=
  match i.lifecycle with
  | .paused => .ok i
  | .running run =>
    if run.pauseRequested then
      .ok i
    else
      i.update { i with
        lifecycle := .running { run with pauseRequested := true }
        updatedAtMs := nowMs }
  | .queued _ => i.updateState { i with lifecycle := .paused, updatedAtMs := nowMs }
  | .waiting => i.updateState { i with lifecycle := .paused, updatedAtMs := nowMs }
  | _ => .error (error .workflowInstanceStateConflict)

def StepState.dueOnResume (nowMs : Millis) : StepState -> Bool
  | delayPending _ _ => true
  | waiting due => due ≤ nowMs
  | pending attempt => attempt.any fun attempt => attempt.deadlineAtMs ≤ nowMs
  | _ => false

/-- Settles one due step of a paused instance; a computed delay is left to the next run. -/
def resumeStep (limits : WorkflowsConfig) (others : Usage) (nowMs : Millis) (i : Instance)
    (ordinal : Nat) : Result Instance := do
  let step ← okOr (i.steps.find? ordinal) (error .workflowInvariantViolation)
  match step.state with
  | .waiting _ => do
    let verdict ← settle limits others i step nowMs
    return verdict.2
  | .delayPending _ _ => return i
  | _ => do
    let verdict ← timeout i step nowMs
    return verdict.2

def Instance.resumable (i : Instance) (nowMs : Millis) : Bool :=
  i.accounts.registered = i.accounts.settled ||
    i.anyStep fun s => s.isPending || s.isDelayPending ||
      (s.isRetryWait && s.due.any fun due => due ≤ nowMs)

def resumeRun (limits : WorkflowsConfig) (others : Usage) (nowMs : Millis)
    (i : Instance) : Result Instance := do
  ensure (i.state = .paused) (error .workflowInstanceStateConflict)
  let due := (i.steps.rows.filter fun s => s.state.dueOnResume nowMs).map Step.ordinal
  let settled ← due.foldlM (resumeStep limits others nowMs) i
  settled.updateState { settled with
    lifecycle := if settled.resumable nowMs then .queued nowMs else .waiting
    updatedAtMs := nowMs }

def terminateRun (nowMs : Millis) (i : Instance) : Result Instance := do
  let cancelled ← cancelUnfinished nowMs i
  endTerminated nowMs cancelled

def modifyRun (limits : WorkflowsConfig) (others : Usage) (nowMs : Millis)
    (i : Instance) : WorkflowInstanceAction -> Result Instance
  | .pause => pauseRun nowMs i
  | .resume => resumeRun limits others nowMs i
  | .terminate => terminateRun nowMs i

def modifyWorkflow (s : Store) (identity : WorkflowInstanceIdentity)
    (action : WorkflowInstanceAction) (nowMs : Millis) (limits : WorkflowsConfig) :
    Result Store := do
  limits.validate
  let _ ← durableDeadline nowMs 0
  let i ← okOr (s.instances.find? identity.instanceId) (error .workflowInstanceNotFound)
  ensure (i.identity = identity) (error .workflowRunStale)
  ensure (i.expiresAt.all (fun expiry => nowMs < expiry) = true)
    (error .workflowInstanceNotFound)
  ensure (i.live = true) (error .workflowInstanceStateConflict)
  let i' ← modifyRun limits (s.others i.id) nowMs i action
  return s.put i'

/-!
## Maintenance of deadlines

`durable_due.rs`: one bounded page of due steps is settled in each call.  Each
of four sources contributes at most one page, and the merged page is the
earliest of all.
-/

structure DueStep where
  deadlineAtMs : Millis
  instanceId : WorkflowInstanceId
  ordinal : Nat
deriving DecidableEq, Repr

/-- `ORDER BY deadline, instance_id, ordinal`. -/
def DueStep.before (a b : DueStep) : Prop :=
  a.deadlineAtMs < b.deadlineAtMs ∨ (a.deadlineAtMs = b.deadlineAtMs ∧
      (a.instanceId < b.instanceId ∨ (a.instanceId = b.instanceId ∧ a.ordinal ≤ b.ordinal)))

instance (a b : DueStep) : Decidable (a.before b) := by
  unfold DueStep.before
  infer_instance

def duePage (limit : Nat) (rows : List DueStep) : List DueStep :=
  (rows.insertionSort DueStep.before).take limit

/-! ## The sources -/

def waitingDeadline (i : Instance) (s : Step) : Option Millis :=
  match s.state with
  | .waiting due => if i.live then some due else none
  | _ => none

def attemptDeadline (i : Instance) (s : Step) : Option Millis :=
  match s.state with
  | .pending (some attempt) => if i.live then some attempt.deadlineAtMs else none
  | _ => none

def delayDeadline (i : Instance) (s : Step) : Option Millis :=
  match s.state with
  | .delayPending _ _ => if i.live then some s.updatedAtMs else none
  | _ => none

def retryDeadline (i : Instance) (s : Step) : Option Millis :=
  match s.state with
  | .retryWait _ _ _ due => if i.state = .waiting then some due else none
  | _ => none

def Store.dueBy (s : Store) (deadlineOf : Instance -> Step -> Option Millis)
    (nowMs : Millis) : List DueStep :=
  s.instances.rows.flatMap fun i => i.steps.rows.filterMap fun step =>
    ((deadlineOf i step).filter fun deadline => deadline ≤ nowMs).map fun deadline =>
      ⟨deadline, i.id, step.ordinal⟩

def Store.dueSteps (s : Store) (nowMs : Millis) (limit : Nat) : List DueStep :=
  duePage limit
    (duePage limit (s.dueBy waitingDeadline nowMs) ++
      duePage limit (s.dueBy attemptDeadline nowMs) ++
      duePage limit (s.dueBy delayDeadline nowMs) ++
      duePage limit (s.dueBy retryDeadline nowMs))

/-! ## One page -/

/-- Settles a due step and wakes its instance, unless the step goes on waiting. -/
def maintainStep (limits : WorkflowsConfig) (others : Usage) (nowMs : Millis)
    (ordinal : Nat) (i : Instance) : Result Instance := do
  let step ← okOr (i.steps.find? ordinal) (error .workflowInvariantViolation)
  match step.state with
  | .waiting _ => do
    let verdict ← settle limits others i step nowMs
    wakeUnlessSuspended nowMs verdict
  | .pending _ => do
    let verdict ← timeout i step nowMs
    wakeUnlessSuspended nowMs verdict
  | .delayPending _ _ => wake i nowMs
  | .retryWait _ _ _ _ => wake i nowMs
  | _ => .error (error .workflowInvariantViolation)

def maintainDue (limits : WorkflowsConfig) (nowMs : Millis) (s : Store) (due : DueStep) :
    Result Store := do
  let i ← okOr (s.instances.find? due.instanceId) sqlError
  let i' ← maintainStep limits (s.others i.id) nowMs due.ordinal i
  return s.put i'

def maintainWorkflowDue (s : Store) (nowMs : Millis) (limits : WorkflowsConfig)
    (limit : Nat) : Result (Nat × Store) := do
  limits.validate
  bounded limit
  let due := s.dueSteps nowMs limit
  let s' ← due.foldlM (maintainDue limits nowMs) s
  return (due.length, s')

end Workflow
end OpenCompute
