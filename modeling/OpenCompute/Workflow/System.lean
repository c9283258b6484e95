import OpenCompute.Transition.Run
import OpenCompute.Workflow.Operations

/-!
# The Workflow store as a transition system

An action is one call of a store operation with all of its arguments, the
generated tokens included.  A call that fails takes no step, because its
transaction rolls back.  A fence is an argument like any other, so delayed and
repeated calls of old runs are steps too.  Next to the store a world remembers
the tokens that were generated and the time of the last call.
-/

namespace OpenCompute
namespace Workflow

open Relational Transaction Transition

structure Environment where
  versionDigest : WorkflowTarget -> Digest
  sha256 : String -> Digest

inductive Action where
  | insert (workflows : List WorkflowCreation) (limits : WorkflowsConfig)
  | defer (id : WorkflowInstanceId) (nowMs : Millis) (limits : WorkflowsConfig)
  | claim (identity : WorkflowInstanceIdentity) (nowMs : Millis)
      (limits : WorkflowsConfig) (token : WorkflowToken)
  | heartbeat (fence : WorkflowFence) (nowMs : Millis) (limits : WorkflowsConfig)
  | claimBatch (fence : WorkflowFence) (descriptors : List WorkflowStepDescriptor)
      (remainingMs : Nat) (nowMs : Millis) (limits : WorkflowsConfig)
      (tokens : List WorkflowToken)
  | settle (fence : WorkflowFence) (report : WorkflowStepAttempt)
      (outcome : WorkflowStepOutcome) (nowMs : Millis) (limits : WorkflowsConfig)
  | resolveDelay (fence : WorkflowFence) (ordinal attempt : Nat)
      (resolution : WorkflowDelayResolution) (nowMs : Millis) (limits : WorkflowsConfig)
  | yield (fence : WorkflowFence) (nowMs : Millis)
  | finish (fence : WorkflowFence) (completion : WorkflowCompletion) (nowMs : Millis)
      (limits : WorkflowsConfig)
  | sendEvent (identity : WorkflowInstanceIdentity) (operationId : WorkflowOperationId)
      (eventType payload : String) (nowMs : Millis) (limits : WorkflowsConfig)
  | rollback (identity : WorkflowInstanceIdentity) (nowMs : Millis)
      (limits : WorkflowsConfig)
  | modify (identity : WorkflowInstanceIdentity) (action : WorkflowInstanceAction)
      (nowMs : Millis) (limits : WorkflowsConfig)
  | maintain (nowMs : Millis) (limits : WorkflowsConfig) (limit : Nat)
  | recover (nowMs : Millis) (limits : WorkflowsConfig) (limit : Nat)
  | operate (operation : WorkflowOperation) (nowMs : Millis) (limits : WorkflowsConfig)
  | sweep (receipt : WorkflowGcReceipt)

namespace Action

def nowMs : Action -> Option Millis
  | insert _ _ => none
  | defer _ nowMs _ => some nowMs
  | claim _ nowMs _ _ => some nowMs
  | heartbeat _ nowMs _ => some nowMs
  | claimBatch _ _ _ nowMs _ _ => some nowMs
  | settle _ _ _ nowMs _ => some nowMs
  | resolveDelay _ _ _ _ nowMs _ => some nowMs
  | yield _ nowMs => some nowMs
  | finish _ _ nowMs _ => some nowMs
  | sendEvent _ _ _ _ nowMs _ => some nowMs
  | rollback _ nowMs _ => some nowMs
  | modify _ _ nowMs _ => some nowMs
  | maintain nowMs _ _ => some nowMs
  | recover nowMs _ _ => some nowMs
  | operate _ nowMs _ => some nowMs
  | sweep _ => none

def tokens : Action -> List WorkflowToken
  | claim _ _ _ token => [token]
  | claimBatch _ _ _ _ _ tokens => tokens
  | _ => []

def apply (env : Environment) (s : Store) : Action -> Result Store
  | insert workflows limits => insertWorkflows env.versionDigest s workflows limits
  | defer id nowMs limits => deferWorkflow s id nowMs limits
  | claim identity nowMs limits token => Prod.snd <$> claimWorkflow s identity nowMs limits token
  | heartbeat fence nowMs limits => heartbeatWorkflow s fence nowMs limits
  | claimBatch fence descriptors remainingMs nowMs limits tokens =>
    Prod.snd <$> claimWorkflowBatch s fence descriptors remainingMs nowMs limits tokens
  | settle fence report outcome nowMs limits =>
    Prod.snd <$> settleWorkflowStep s fence report outcome nowMs limits
  | resolveDelay fence ordinal attempt resolution nowMs limits =>
    Prod.snd <$> resolveWorkflowDelay s fence ordinal attempt resolution nowMs limits
  | yield fence nowMs => Prod.snd <$> yieldWorkflow s fence nowMs
  | finish fence completion nowMs limits =>
    Prod.snd <$> finishWorkflow s fence completion nowMs limits
  | sendEvent identity operationId eventType payload nowMs limits =>
    sendWorkflowEvent env.sha256 s identity operationId eventType payload nowMs limits
  | rollback identity nowMs limits => requestWorkflowRollback s identity nowMs limits
  | modify identity action nowMs limits => modifyWorkflow s identity action nowMs limits
  | maintain nowMs limits limit => Prod.snd <$> maintainWorkflowDue s nowMs limits limit
  | recover nowMs limits limit => Prod.snd <$> recoverWorkflows s nowMs limits limit
  | operate operation nowMs limits =>
    Prod.snd <$> applyWorkflowOperation env.versionDigest s operation nowMs limits
  | sweep receipt => sweepWorkflowGc s receipt

end Action

structure World where
  store : Store
  tokens : List WorkflowToken
  clock : Millis

def World.initial (owner : Uuid) (clock : Millis) : World := ⟨Store.empty owner, [], clock⟩

/-- The tokens of a call are distinct and were never drawn before. -/
def FreshTokens (tokens used : List WorkflowToken) : Prop :=
  tokens.Nodup ∧ forall token, token ∈ tokens -> ¬ token ∈ used

-- The instance that enumerates all bit vectors must not be chosen here.
instance (tokens used : List WorkflowToken) : Decidable (FreshTokens tokens used) :=
  @instDecidableAnd _ _ (List.nodupDecidable tokens)
    (List.decidableBAll (fun token => ¬ token ∈ used) tokens)

def World.next (env : Environment) (w : World) (a : Action) : Option World :=
  if FreshTokens a.tokens w.tokens then
    match a.apply env w.store with
    | .ok s => some ⟨s, a.tokens ++ w.tokens, a.nowMs.getD w.clock⟩
    | .error _ => none
  else
    none

/-- The time of a call is not before that of the call before. -/
def Ordered (w : World) (a : Action) : Prop := w.clock ≤ a.nowMs.getD w.clock

instance (w : World) (a : Action) : Decidable (Ordered w a) := by
  unfold Ordered
  infer_instance

/-- Any interleaving of calls from an empty store. -/
def History (env : Environment) (owner : Uuid) (clock : Millis) (actions : List Action)
    (w : World) : Prop :=
  Run (World.next env) always (World.initial owner clock) actions w

/-- Any interleaving of calls whose times do not decrease. -/
def OrderedHistory (env : Environment) (owner : Uuid) (clock : Millis)
    (actions : List Action) (w : World) : Prop :=
  Run (World.next env) Ordered (World.initial owner clock) actions w

theorem next_eq_some {env : Environment} {w w' : World} {a : Action} :
    w.next env a = some w' ↔ FreshTokens a.tokens w.tokens ∧ exists s,
      a.apply env w.store = .ok s ∧ w' = ⟨s, a.tokens ++ w.tokens, a.nowMs.getD w.clock⟩ := by
  unfold World.next
  split
  · rename_i hfresh
    cases happly : a.apply env w.store with
    | error e => simp
    | ok s =>
      constructor
      · intro h
        cases h
        exact ⟨hfresh, s, rfl, rfl⟩
      · rintro ⟨_, _, heq, rfl⟩
        cases heq
        rfl
  · rename_i hfresh
    constructor
    · intro h
      cases h
    · intro h
      exact absurd h.left hfresh

/-!
## A deployment in miniature

One instance, and steps that run for at most a second.
-/

namespace Sample

def environment : Environment := ⟨fun _ => 0, fun _ => 0⟩

def limits : WorkflowsConfig where
  maxInFlightRequests := 8
  maxSteps := 64
  maxStateBytes := 1048576
  maxInstances := 10
  maxInstancesPerDefinition := 10
  maxActive := 10
  maxTotalStateBytes := 10485760
  leaseMs := 30000
  heartbeatMs := 10000
  dispatchTimeoutMs := 300000
  recoveryBackoffMs := 1000
  creationGraceMs := 1000
  maxParallelSteps := 4
  maxBufferedEvents := 16
  maxEventBytes := 65536
  defaultRetention := ⟨60000, 60000⟩

def identity (generation : Nat) : WorkflowInstanceIdentity where
  target := ⟨7, 1, "orders", 2, 3, 4, 0, "Orders", 1, 1, 0⟩
  instanceId := 5
  externalInstanceId := "order-1"
  instanceGeneration := generation
  creationNonce := 6
  creationOperationId := 8
  creationBatchId := 9
  createdAtMs := 0
  schedule := none

def value : String := "T0NEVgECAA=="

def create : Action := .insert [⟨identity 1, value, some ⟨60000, 60000⟩⟩] limits

def claim (nowMs : Millis) (token : WorkflowToken) : Action :=
  .claim (identity 1) nowMs limits token

def fence (token : WorkflowToken) : WorkflowFence := ⟨5, 1, token⟩

def config : WorkflowStepConfig := ⟨⟨1, some 1000, .constant⟩, 1000, none⟩

def single (ordinal : Nat) (name : String) (config : WorkflowDurableConfig) :
    WorkflowStepDescriptor :=
  ⟨ordinal, name, 1, config, none, false, [], ordinal, 1⟩

def start (descriptors : List WorkflowStepDescriptor) (nowMs : Millis)
    (run : WorkflowToken) (tokens : List WorkflowToken) : Action :=
  .claimBatch (fence run) descriptors 200000 nowMs limits tokens

def succeed (ordinal : Nat) (run token : WorkflowToken) (nowMs : Millis) : Action :=
  .settle (fence run) ⟨ordinal, 1, token⟩ (.success value) nowMs limits

end Sample

end Workflow
end OpenCompute
