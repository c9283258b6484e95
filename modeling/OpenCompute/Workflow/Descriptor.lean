import OpenCompute.Workflow.Policy

/-!
# Step descriptors and event envelopes

The replay identity of a step, with the checks that admit it and the bytes it
is charged.  The configuration of a step is stored as JSON text; only the
length of that text matters to the store, so the order of its keys does not.
-/

namespace OpenCompute
namespace Workflow

open Transaction

def instanceBytes : Nat := 256
def stepBytes : Nat := 160
def dependencyBytes : Nat := 16
def eventBytes : Nat := 32

/-! ## Names -/

def nameChar (c : Char) : Bool := c.isAlphanum || c == '_' || c == '-'

def ValidName (value : String) : Prop :=
  0 < value.utf8ByteSize ∧ value.utf8ByteSize ≤ 100 ∧
  value.toList.head?.any (fun c => c.isAlphanum || c == '_') = true ∧
  value.toList.all nameChar = true

instance (value : String) : Decidable (ValidName value) := by
  unfold ValidName
  infer_instance

def validateWorkflowInstanceId (value : String) : Result Unit :=
  ensure (ValidName value) (validationError .workflowInstanceIdInvalid)

def validateWorkflowEventType (value : String) : Result Unit :=
  ensure (ValidName value) (validationError .workflowEventTypeInvalid)

/-! ## Kinds and selectors -/

inductive WorkflowStepKind where
  | doStep
  | sleep
  | sleepUntil
  | waitEvent
deriving DecidableEq, Repr

inductive WorkflowRestartStepType where
  | doStep
  | sleep
  | waitForEvent
deriving DecidableEq, Repr

def WorkflowRestartStepType.matches (t : WorkflowRestartStepType)
    (kind : WorkflowStepKind) : Bool :=
  match t, kind with
  | .doStep, .doStep => true
  | .sleep, .sleep => true
  | .sleep, .sleepUntil => true
  | .waitForEvent, .waitEvent => true
  | _, _ => false

structure WorkflowRestartSelector where
  name : String
  count : Nat
  stepType : Option WorkflowRestartStepType
deriving DecidableEq, Repr

def WorkflowRestartSelector.Valid (selector : WorkflowRestartSelector) : Prop :=
  0 < selector.name.utf8ByteSize ∧ selector.name.utf8ByteSize ≤ 256 ∧
  0 < selector.count ∧ selector.count ≤ 1024

instance (selector : WorkflowRestartSelector) : Decidable selector.Valid := by
  unfold WorkflowRestartSelector.Valid
  infer_instance

def WorkflowRestartSelector.validate (selector : WorkflowRestartSelector) : Result Unit :=
  ensure selector.Valid (validationError .workflowMethodUnsupported)

/-! ## Resolved configurations -/

inductive WorkflowDurableConfig where
  | doStep (config : WorkflowStepConfig)
  | sleep (durationMs : Nat)
  | sleepUntil (timestampMs : Millis)
  | waitEvent (eventType : String) (timeoutMs : Nat)
deriving DecidableEq, Repr

namespace WorkflowDurableConfig

def kind : WorkflowDurableConfig -> WorkflowStepKind
  | doStep _ => .doStep
  | sleep _ => .sleep
  | sleepUntil _ => .sleepUntil
  | waitEvent _ _ => .waitEvent

def Valid : WorkflowDurableConfig -> Prop
  | doStep config => config.Valid
  | sleep durationMs => durationMs ≤ maxDurationMs
  | sleepUntil timestampMs => SafeTime timestampMs
  | waitEvent eventType timeoutMs => timeoutMs ≤ maxDurationMs ∧ ValidName eventType

def validate : WorkflowDurableConfig -> Result Unit
  | doStep config => ensure config.Valid (validationError .workflowStepConfigUnsupported)
  | sleep durationMs =>
    ensure (durationMs ≤ maxDurationMs) (validationError .workflowDurationInvalid)
  | sleepUntil timestampMs =>
    ensure (SafeTime timestampMs) (validationError .workflowDurationInvalid)
  | waitEvent eventType timeoutMs => do
    ensure (timeoutMs ≤ maxDurationMs) (validationError .workflowDurationInvalid)
    validateWorkflowEventType eventType

@[simp]
theorem validate_eq_ok {config : WorkflowDurableConfig} {u : Unit} :
    config.validate = .ok u ↔ config.Valid := by
  cases config <;> simp [validate, Valid, validateWorkflowEventType]

end WorkflowDurableConfig

/-! ## Canonical JSON -/

def jsonObject (fields : List (String × String)) : String :=
  "\x7b" ++ ",".intercalate (fields.map fun f => "\"" ++ f.1 ++ "\":" ++ f.2) ++ "\x7d"

def jsonText (value : String) : String := "\"" ++ value ++ "\""

def jsonBool (value : Bool) : String := if value then "true" else "false"

def WorkflowBackoff.json : WorkflowBackoff -> String
  | constant => jsonText "constant"
  | linear => jsonText "linear"
  | exponential => jsonText "exponential"

def WorkflowRetryPolicy.json (p : WorkflowRetryPolicy) : String :=
  jsonObject ([("backoff", p.backoff.json)] ++
    p.delay.toList.map (fun delay => ("delay", toString delay)) ++
    [("limit", toString p.limit)])

def WorkflowStepConfig.jsonFields (c : WorkflowStepConfig) : List (String × String) :=
  [("retries", c.retries.json)] ++
    c.sensitive.toList.map (fun _ => ("sensitive", jsonText "output")) ++
    [("timeout", toString c.timeout)]

def WorkflowDurableConfig.jsonFields :
    WorkflowDurableConfig -> List (String × String)
  | doStep config => config.jsonFields
  | sleep durationMs => [("durationMs", toString durationMs)]
  | sleepUntil timestampMs => [("timestampMs", toString timestampMs)]
  | waitEvent eventType timeoutMs =>
    [("timeoutMs", toString timeoutMs), ("type", jsonText eventType)]

/-! ## Descriptors -/

structure WorkflowStepDescriptor where
  ordinal : Nat
  name : String
  nameCount : Nat
  config : WorkflowDurableConfig
  rollbackConfig : Option WorkflowStepConfig
  rollbackStep : Bool
  dependencies : List Nat
  batchFirstOrdinal : Nat
  batchSize : Nat
deriving DecidableEq, Repr

namespace WorkflowStepDescriptor

def kind (d : WorkflowStepDescriptor) : WorkflowStepKind := d.config.kind

def batchEnd (d : WorkflowStepDescriptor) : Nat := d.batchFirstOrdinal + d.batchSize

def validateRollbackConfig (d : WorkflowStepDescriptor) : Result Unit :=
  match d.rollbackConfig with
  | none => .ok ()
  | some config =>
    ensure ((d.kind = .doStep ∧ d.rollbackStep = false) ∧ config.Valid)
      (validationError .workflowStepConfigUnsupported)

def validate (d : WorkflowStepDescriptor) : Result Unit := do
  d.config.validate
  d.validateRollbackConfig
  ensure (d.rollbackStep = true -> d.kind = .doStep)
    (validationError .workflowStepConfigUnsupported)
  ensure (d.ordinal < 1024) (validationError .workflowStepLimitExceeded)
  ensure (0 < d.name.utf8ByteSize ∧ d.name.utf8ByteSize ≤ 256 ∧ 0 < d.nameCount)
    (validationError .workflowSerializationUnsupported)
  ensure (0 < d.batchSize ∧ d.batchSize ≤ 16 ∧ d.dependencies.length ≤ 16)
    (validationError .workflowStepLimitExceeded)
  ensure (d.batchFirstOrdinal ≤ d.ordinal ∧ d.ordinal < d.batchEnd ∧
      d.batchEnd ≤ 1024 ∧ d.dependencies.Pairwise (· < ·) ∧
      forall parent, parent ∈ d.dependencies -> parent < d.batchFirstOrdinal)
    (validationError .workflowSerializationUnsupported)

structure Valid (d : WorkflowStepDescriptor) : Prop where
  config : d.config.Valid
  rollbackConfig : forall config, d.rollbackConfig = some config ->
    (d.kind = .doStep ∧ d.rollbackStep = false) ∧ config.Valid
  rollbackStep : d.rollbackStep = true -> d.kind = .doStep
  ordinal : d.ordinal < 1024
  name : 0 < d.name.utf8ByteSize ∧ d.name.utf8ByteSize ≤ 256 ∧ 0 < d.nameCount
  sizes : 0 < d.batchSize ∧ d.batchSize ≤ 16 ∧ d.dependencies.length ≤ 16
  batch : d.batchFirstOrdinal ≤ d.ordinal ∧ d.ordinal < d.batchEnd ∧
    d.batchEnd ≤ 1024 ∧ d.dependencies.Pairwise (· < ·) ∧
    forall parent, parent ∈ d.dependencies -> parent < d.batchFirstOrdinal

theorem validateRollbackConfig_eq_ok {d : WorkflowStepDescriptor} {u : Unit} :
    d.validateRollbackConfig = .ok u ↔ forall config, d.rollbackConfig = some config ->
        (d.kind = .doStep ∧ d.rollbackStep = false) ∧ config.Valid := by
  unfold validateRollbackConfig
  cases d.rollbackConfig <;> simp

@[simp]
theorem validate_eq_ok {d : WorkflowStepDescriptor} {u : Unit} : d.validate = .ok u ↔ d.Valid := by
  unfold validate
  simp only [ok_iff, WorkflowDurableConfig.validate_eq_ok, validateRollbackConfig_eq_ok]
  constructor
  · rintro ⟨hconfig, hrollback, hstep, hordinal, hname, hsizes, hbatch⟩
    exact ⟨hconfig, hrollback, hstep, hordinal, hname, hsizes, hbatch⟩
  · intro h
    exact ⟨h.config, h.rollbackConfig, h.rollbackStep, h.ordinal, h.name, h.sizes, h.batch⟩

instance (d : WorkflowStepDescriptor) : Decidable d.Valid :=
  match hvalidate : d.validate with
  | .ok _ => isTrue (validate_eq_ok.mp hvalidate)
  | .error _ => isFalse fun hvalid => by
    have hok : d.validate = .ok () := validate_eq_ok.mpr hvalid
    rw [hok] at hvalidate
    cases hvalidate

def canonicalConfigJson (d : WorkflowStepDescriptor) : String :=
  jsonObject (d.config.jsonFields ++ d.rollbackConfig.toList.map
      (fun config => ("rollbackConfig", jsonObject config.jsonFields)) ++
    [("rollbackStep", jsonBool d.rollbackStep)])

/-- The bytes of the descriptor and its edges, without result or error. -/
def stateBytes (d : WorkflowStepDescriptor) : Nat :=
  stepBytes + d.name.utf8ByteSize + d.canonicalConfigJson.utf8ByteSize +
    dependencyBytes * d.dependencies.length

end WorkflowStepDescriptor

/-! ## Events -/

structure WorkflowCronSchedule where
  cron : String
  scheduledTime : Millis
deriving DecidableEq, Repr

/-- The result of an event wait: trusted metadata around a checked payload. -/
structure WorkflowEventEnvelope where
  eventType : String
  payload : DurableValue
  timestampMs : Millis
deriving DecidableEq

namespace WorkflowEventEnvelope

def eventEnvelopeMaxBytes : Nat := valueMaxBytes * 4 / 3 + 2048

def wire (e : WorkflowEventEnvelope) : String :=
  "\x7b\"type\":\"" ++ e.eventType ++ "\",\"payloadBase64\":\"" ++ e.payload.text ++
    "\",\"timestampMs\":" ++ toString e.timestampMs ++ "\x7d"

def size (e : WorkflowEventEnvelope) : Nat := e.wire.utf8ByteSize

def canonicalWire (e : WorkflowEventEnvelope) : Result WorkflowEventEnvelope := do
  validateWorkflowEventType e.eventType
  ensure (SafeTime e.timestampMs) (validationError .workflowDurationInvalid)
  ensure (e.size ≤ eventEnvelopeMaxBytes) (validationError .workflowResultTooLarge)
  return e

theorem size_eq (e : WorkflowEventEnvelope) :
    e.size = 45 + e.eventType.utf8ByteSize + e.payload.size +
      (toString e.timestampMs).utf8ByteSize := by
  have hparts : "\x7b\"type\":\"".utf8ByteSize = 9 ∧ "\",\"payloadBase64\":\"".utf8ByteSize = 19 ∧
      "\",\"timestampMs\":".utf8ByteSize = 16 ∧ "\x7d".utf8ByteSize = 1 := by
    decide
  rcases hparts with ⟨htype, hpayload, htimestamp, hclose⟩
  unfold size wire
  simp only [String.utf8ByteSize_append, htype, hpayload, htimestamp, hclose, e.payload.size_eq]
  omega

end WorkflowEventEnvelope
end Workflow
end OpenCompute
