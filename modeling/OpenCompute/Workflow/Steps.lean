import OpenCompute.Workflow.Settlement

/-!
# Registration and replay of a batch

`durable_steps.rs`: a run submits a whole group of descriptors.  A group at the
registration frontier is stored before anything is granted, a known group is
compared with what is stored, and then each step is answered by its state.
-/

namespace OpenCompute
namespace Workflow

open Relational Transaction

inductive WorkflowStepGrant where
  | run (stepToken : WorkflowToken) (attempt remainingMs : Nat)
      (config : WorkflowStepConfig)
  | complete (attempt : Option Nat) (config : Option WorkflowStepConfig)
  | failed
  | resolveDelay (attempt : Nat) (code : ErrorCode) (config : WorkflowStepConfig)
  | rollbackBoundary (rollbackOrdinal : Nat)
  | suspended
deriving DecidableEq, Repr

/-! ## The shape of a group -/

def groupShape (first : WorkflowStepDescriptor) (size index : Nat)
    (d : WorkflowStepDescriptor) : Prop :=
  d.ordinal = first.ordinal + index ∧ d.batchFirstOrdinal = first.ordinal ∧
  d.batchSize = size ∧ d.dependencies = first.dependencies

instance (first : WorkflowStepDescriptor) (size index : Nat)
    (d : WorkflowStepDescriptor) : Decidable (groupShape first size index d) := by
  unfold groupShape
  infer_instance

def validateGroupFrom (first : WorkflowStepDescriptor) (size : Nat) :
    Nat -> List WorkflowStepDescriptor -> Result Unit
  | _, [] => .ok ()
  | index, d :: rest => do
    d.validate
    ensure (groupShape first size index d) (error .workflowNonDeterministic)
    validateGroupFrom first size (index + 1) rest

def validateGroup (limits : WorkflowsConfig) (descriptors : List WorkflowStepDescriptor)
    (remainingMs : Nat) : Result WorkflowStepDescriptor := do
  let first ← okOr descriptors.head? (error .workflowStepLimitExceeded)
  ensure (descriptors.length ≤ 16 ∧ remainingMs ≤ limits.dispatchTimeoutMs)
    (error .workflowStepLimitExceeded)
  validateGroupFrom first descriptors.length 0 descriptors
  return first

/-! ## Registration -/

def initialState (nowMs : Millis) : WorkflowDurableConfig -> Result StepState
  | .doStep _ => .ok (.pending none)
  | .sleep durationMs => StepState.waiting <$> durableDeadline nowMs durationMs
  | .sleepUntil timestampMs => .ok (.waiting timestampMs)
  | .waitEvent _ timeoutMs => StepState.waiting <$> durableDeadline nowMs timeoutMs

/-- The buffer ceiling: events up to it were there before the wait. -/
def bufferCeiling (config : WorkflowDurableConfig) (nextEventSeq : Int) : Option Int :=
  match config with
  | .waitEvent _ _ => some (nextEventSeq - 1)
  | _ => none

def register (nowMs : Millis) (ceilingSeq : Int) (i : Instance)
    (d : WorkflowStepDescriptor) : Result Instance := do
  let state ← initialState nowMs d.config
  ensure (i.nameCount d.kind d.name + 1 = d.nameCount) (error .workflowNonDeterministic)
  let step ← okOr (Step.make? d nowMs (bufferCeiling d.config ceilingSeq) state) sqlError
  i.insertStep step

/-- A `do` step fits into one activation. -/
def fitsActivation (limits : WorkflowsConfig) (d : WorkflowStepDescriptor) : Bool :=
  match d.config with
  | .doStep config => config.fitsActivation limits.dispatchTimeoutMs
  | _ => true

def WorkflowStepDescriptor.reserves (d : WorkflowStepDescriptor) : Bool :=
  d.kind = .doStep || d.kind = .waitEvent

def parentSettled (i : Instance) (parent : Nat) : Bool :=
  i.steps.rows.any fun s => s.ordinal = parent && s.state.settled

def registerGroup (limits : WorkflowsConfig) (others : Usage)
    (first : WorkflowStepDescriptor) (descriptors : List WorkflowStepDescriptor)
    (nowMs : Millis) (i : Instance) : Result Instance := do
  ensure (descriptors.all (fitsActivation limits) = true)
    (error .workflowStepConfigUnsupported)
  ensure (descriptors.length ≤ limits.maxParallelSteps)
    (error .workflowStepLimitExceeded)
  ensure (first.ordinal + descriptors.length ≤ limits.maxSteps)
    (error .workflowStepLimitExceeded)
  ensure (first.dependencies.all (parentSettled i) = true)
    (error .workflowNonDeterministic)
  capacityChange limits others i
    ((descriptors.map WorkflowStepDescriptor.stateBytes).sum : Nat)
    (descriptors.countP WorkflowStepDescriptor.reserves : Nat)
  descriptors.foldlM (register nowMs i.nextEventSeq) i

/-! ## Grants -/

def completeGrant (step : Step) : Result WorkflowStepGrant :=
  match step.descriptor.config with
  | .doStep config =>
    if step.attemptNumber = 0 then
      .error (error .workflowInvariantViolation)
    else
      .ok (.complete (some step.attemptNumber) (some config))
  | _ => .ok (.complete none none)

def timeoutGrant : WorkflowStepResult -> WorkflowStepGrant
  | .suspended => .suspended
  | .resolveDelay attempt code config => .resolveDelay attempt code config
  | _ => .failed

/-- What the loop over a group carries: the instance, what was granted, and tokens. -/
structure Granting where
  current : Instance
  grants : List WorkflowStepGrant
  admitted : Nat
  tokens : List WorkflowToken

def Granting.add (g : Granting) (i : Instance) (grant : WorkflowStepGrant) : Granting :=
  { g with current := i, grants := g.grants ++ [grant] }

structure GrantContext where
  limits : WorkflowsConfig
  others : Usage
  fence : WorkflowFence
  remainingMs : Nat
  rollbackRequested : Bool
  rollbackOrdinal : Nat
  nowMs : Millis

namespace GrantContext

variable (c : GrantContext)

def grantTimeout (g : Granting) (step : Step) : Result Granting := do
  let (verdict, i) ← timeout g.current step c.nowMs
  return g.add i (timeoutGrant verdict)

/-- A callback that this run already holds. -/
def grantRunning (g : Granting) (step : Step) (attempt : Attempt)
    (runToken stepToken : WorkflowToken) : Result Granting := do
  ensure (runToken = c.fence.runToken) (error .workflowStepStale)
  if attempt.deadlineAtMs ≤ c.nowMs then
    c.grantTimeout g step
  else
    match step.descriptor.config with
    | .doStep config =>
      return { g.add g.current (.run stepToken attempt.number
        (attempt.deadlineAtMs - c.nowMs).toNat config) with admitted := g.admitted + 1 }
    | _ => .error (error .workflowInvariantViolation)

/-- Starts an attempt, a fresh one or the one that was recovered. -/
def startAttempt (g : Granting) (step : Step) (recovered : Option Attempt) (duration : Nat)
    (config : WorkflowStepConfig) : Result Granting :=
  if c.limits.maxParallelSteps ≤ g.admitted ∨ c.remainingMs < duration + drainMarginMs then
    .ok (g.add g.current .suspended)
  else
    match g.tokens with
    | [] => .error (error .workflowRuntimeUnavailable)
    | token :: tokens => do
      let attempt ← match recovered with
        | some attempt => .ok attempt
        | none => do
          let deadlineAtMs ← durableDeadline c.nowMs config.timeout
          okOr (Attempt.make? (step.attemptNumber + 1) c.nowMs deadlineAtMs) sqlError
      let i ← g.current.updateStep step (.running attempt c.fence.runToken token) c.nowMs
      return { g.add i (.run token attempt.number duration config) with
        admitted := g.admitted + 1
        tokens := tokens }

def grantFresh (g : Granting) (step : Step) (config : WorkflowStepConfig) : Result Granting := do
  ensure (config.fitsActivation c.limits.dispatchTimeoutMs = true)
    (error .workflowRuntimeUnavailable)
  if step.state.due.any (fun due => c.nowMs < due) then
    return g.add g.current .suspended
  else
    c.startAttempt g step none config.timeout config

def grantSettled (g : Granting) (step : Step) : Result Granting := do
  let (verdict, i) ← settle c.limits c.others g.current step c.nowMs
  match verdict with
  | .complete _ => do
    let grant ← completeGrant step
    return g.add i grant
  | .event _ => do
    let grant ← completeGrant step
    return g.add i grant
  | .failed _ => return g.add i .failed
  | .suspended => return g.add i .suspended
  | .resolveDelay _ _ _ => .error (error .workflowInvariantViolation)

def grantByState (g : Granting) (step : Step) : Result Granting :=
  match step.state, step.descriptor.config with
  | .complete _ _ _, _ => do
    let grant ← completeGrant step
    return g.add g.current grant
  | .failed _ _, _ => .ok (g.add g.current .failed)
  | .waiting _, _ => c.grantSettled g step
  | .running attempt runToken stepToken, _ => c.grantRunning g step attempt runToken stepToken
  | .pending (some attempt), .doStep config =>
    if attempt.deadlineAtMs ≤ c.nowMs then
      c.grantTimeout g step
    else
      c.startAttempt g step (some attempt) (attempt.deadlineAtMs - c.nowMs).toNat config
  | .pending none, .doStep config => c.grantFresh g step config
  | .retryWait _ _ _ _, .doStep config => c.grantFresh g step config
  | .delayPending attempt code, .doStep config =>
    .ok (g.add g.current (.resolveDelay attempt.number code config))
  | .cancelled _, _ => .error (error .workflowStepStale)
  | _, _ => .error (error .workflowInvariantViolation)

def grantStep (g : Granting) (d : WorkflowStepDescriptor) : Result Granting := do
  let step ← okOr (g.current.steps.find? d.ordinal) (error .workflowInvariantViolation)
  ensure (step.descriptor = d) (error .workflowNonDeterministic)
  if c.rollbackRequested = true ∧ step.descriptor.rollbackStep = false ∧
      step.state.isComplete = false then
    return g.add g.current (.rollbackBoundary c.rollbackOrdinal)
  else
    c.grantByState g step

end GrantContext

/-! ## The operation -/

def Instance.rollbackOrdinal (i : Instance) : Nat :=
  if i.rollbackRequested then
    ((i.steps.rows.find? fun s => s.descriptor.rollbackStep).map Step.ordinal).getD
      i.accounts.registered
  else
    i.accounts.registered

def grantGroup (limits : WorkflowsConfig) (others : Usage) (fence : WorkflowFence)
    (first : WorkflowStepDescriptor) (descriptors : List WorkflowStepDescriptor)
    (remainingMs : Nat) (nowMs : Millis) (tokens : List WorkflowToken) (i : Instance) :
    Result (List WorkflowStepGrant × Instance) := do
  let registered ←
    if first.ordinal = i.accounts.registered then
      registerGroup limits others first descriptors nowMs i
    else if i.accounts.registered < first.ordinal then
      .error (error .workflowNonDeterministic)
    else
      .ok i
  let context : GrantContext := ⟨limits, others, fence, remainingMs,
    i.rollbackRequested, i.rollbackOrdinal, nowMs⟩
  let g ← descriptors.foldlM context.grantStep ⟨registered, [], 0, tokens⟩
  let current ←
    if .suspended ∈ g.grants then requestYield g.current fence nowMs
    else .ok g.current
  let current ← heartbeat limits current fence nowMs
  return (g.grants, current)

def claimBatch (limits : WorkflowsConfig) (others : Usage) (fence : WorkflowFence)
    (descriptors : List WorkflowStepDescriptor) (first : WorkflowStepDescriptor)
    (remainingMs : Nat) (nowMs : Millis) (tokens : List WorkflowToken) (i : Instance) :
    Result (List WorkflowStepGrant × Instance) :=
  if i.admits = false then
    .ok (descriptors.map fun _ => .suspended, i)
  else do
    ensure (descriptors.all (fun d => d.rollbackStep = first.rollbackStep) = true ∧
        (i.rollbackRequested = true ∨ first.rollbackStep = false))
      (error .workflowNonDeterministic)
    if i.rollbackRequested = true ∧ first.rollbackStep = false ∧
        i.rollbackOrdinal ≤ first.ordinal then
      return (descriptors.map fun _ => .rollbackBoundary i.rollbackOrdinal, i)
    else
      grantGroup limits others fence first descriptors remainingMs nowMs tokens i

def claimWorkflowBatch (s : Store) (fence : WorkflowFence)
    (descriptors : List WorkflowStepDescriptor) (remainingMs : Nat) (nowMs : Millis)
    (limits : WorkflowsConfig) (tokens : List WorkflowToken) :
    Result (List WorkflowStepGrant × Store) := do
  limits.validate
  let first ← validateGroup limits descriptors remainingMs
  let i ← s.running fence nowMs
  let (grants, i') ← claimBatch limits (s.others i.id) fence descriptors first remainingMs
    nowMs tokens i
  return (grants, s.put i')

end Workflow
end OpenCompute
