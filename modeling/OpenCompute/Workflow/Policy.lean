import OpenCompute.Encoding.Base64
import OpenCompute.Platform

/-!
# Values, policies and limits of a Workflow

The validation that the core crate does before the store sees anything: the
base64 text of a tenant value, the retry and retention policies that an
instance keeps, and the operator's limits.  A value that passed its check
carries the proof, and keeps its length beside its text.
-/

namespace OpenCompute
namespace Workflow

open Encoding Transaction

def error (code : ErrorCode) : PlatformError :=
  ⟨code, "Workflow operation failed"⟩

def validationError (code : ErrorCode) : PlatformError :=
  ⟨code, "Workflow validation failed"⟩

def valueMaxBytes : Nat := 1024 * 1024
def maxSafeInteger : Nat := 9007199254740991
def maxDurationMs : Nat := 365 * 24 * 60 * 60 * 1000
def drainMarginMs : Nat := 30000
def maxAttemptMs : Nat := 240000
def maxRetryDelayMs : Nat := 86400000

/-- A time that crosses the JavaScript protocol without loss. -/
def SafeTime (t : Millis) : Prop := t.natAbs ≤ maxSafeInteger

instance (t : Millis) : Decidable (SafeTime t) :=
  inferInstanceAs (Decidable (t.natAbs ≤ maxSafeInteger))

/-! ## Durable values -/

/-- `b"OCDV\x01\x02"`. -/
def valueHeader : List UInt8 := [79, 67, 68, 86, 1, 2]

def durableValueBytes (input : String) (sizeError : ErrorCode) : Result (List UInt8) := do
  ensure (input.utf8ByteSize ≤ 1398112 ∧ input.utf8ByteSize % 4 = 0)
    (validationError sizeError)
  let bytes ← okOr (Base64.decode input)
    (validationError .workflowSerializationUnsupported)
  ensure (bytes.length ≤ valueMaxBytes) (validationError sizeError)
  ensure (valueHeader.isPrefixOf bytes = true ∧ Base64.encode bytes = input)
    (validationError .workflowSerializationUnsupported)
  return bytes

/-- The text is the canonical base64 of a value within the limits. -/
structure Durable (text : String) (bytes : List UInt8) : Prop where
  text_le : text.utf8ByteSize ≤ 1398112
  text_mod : text.utf8ByteSize % 4 = 0
  decoded : Base64.decode text = some bytes
  bytes_le : bytes.length ≤ valueMaxBytes
  header : valueHeader.isPrefixOf bytes = true
  encoded : Base64.encode bytes = text

variable {input : String} {sizeError : ErrorCode}

theorem durableValueBytes_eq_ok {bytes : List UInt8} :
    durableValueBytes input sizeError = .ok bytes ↔ Durable input bytes := by
  unfold durableValueBytes
  simp only [ok_iff]
  constructor
  · rintro ⟨⟨hle, hmod⟩, b, hdecode, hbytes, ⟨hheader, hencode⟩, rfl⟩
    exact ⟨hle, hmod, hdecode, hbytes, hheader, hencode⟩
  · intro h
    exact ⟨⟨h.text_le, h.text_mod⟩, bytes, h.decoded, h.bytes_le,
      ⟨h.header, h.encoded⟩, rfl⟩

/-- A checked value: its text, and the length of the text. -/
structure DurableValue where
  text : String
  size : Nat
  size_eq : text.utf8ByteSize = size
  durable : exists bytes, Durable text bytes
deriving DecidableEq

namespace DurableValue

theorem ext_text {v w : DurableValue} (htext : v.text = w.text) : v = w := by
  cases v with
  | mk text size hsize hdurable =>
    cases w with
    | mk text' size' hsize' hdurable' =>
      cases htext
      cases hsize
      cases hsize'
      rfl

end DurableValue

def durableValueBase64 (input : String) (sizeError : ErrorCode) : Result DurableValue :=
  match hbytes : durableValueBytes input sizeError with
  | .ok bytes => .ok ⟨input, input.utf8ByteSize, rfl, bytes, durableValueBytes_eq_ok.mp hbytes⟩
  | .error e => .error e

theorem durableValueBase64_eq_ok {value : DurableValue} :
    durableValueBase64 input sizeError = .ok value ↔ value.text = input := by
  unfold durableValueBase64
  constructor
  · intro h
    split at h <;> cases h
    rfl
  · rintro rfl
    rcases value.durable with ⟨bytes, hdurable⟩
    have hbytes : durableValueBytes value.text sizeError = .ok bytes :=
      durableValueBytes_eq_ok.mpr hdurable
    split
    · exact congrArg Except.ok (DurableValue.ext_text rfl)
    · rename_i he
      rw [hbytes] at he
      cases he

/-! ## Retention -/

structure WorkflowRetention where
  successRetentionMs : Nat
  errorRetentionMs : Nat
deriving DecidableEq, Repr

namespace WorkflowRetention

def Valid (r : WorkflowRetention) : Prop :=
  r.successRetentionMs ≤ maxDurationMs ∧ r.errorRetentionMs ≤ maxDurationMs

instance (r : WorkflowRetention) : Decidable r.Valid := by
  unfold Valid
  infer_instance

def validate (r : WorkflowRetention) : Result { r : WorkflowRetention // r.Valid } :=
  if hvalid : r.Valid then
    .ok ⟨r, hvalid⟩
  else
    .error (validationError .workflowDurationInvalid)

end WorkflowRetention

/-- A retention that passed `validate`; only these are stored. -/
abbrev ValidRetention := { r : WorkflowRetention // r.Valid }

def ValidRetention.duration (r : ValidRetention) (success : Bool) : Nat :=
  if success then r.1.successRetentionMs else r.1.errorRetentionMs

def ValidRetention.expiresAt (r : ValidRetention) (terminalAtMs : Millis)
    (success : Bool) : Result Millis := do
  ensure (SafeTime terminalAtMs) (validationError .workflowDurationInvalid)
  let expiry ← okOr (checkedAdd terminalAtMs (r.duration success))
    (validationError .workflowDurationInvalid)
  ensure (SafeTime expiry) (validationError .workflowDurationInvalid)
  return expiry

/-! ## Retries -/

inductive WorkflowBackoff where
  | constant
  | linear
  | exponential
deriving DecidableEq, Repr

structure WorkflowRetryPolicy where
  limit : Nat
  /-- The base delay, absent when the version computes it after each failure. -/
  delay : Option Nat
  backoff : WorkflowBackoff
deriving DecidableEq, Repr

namespace WorkflowRetryPolicy

def Valid (p : WorkflowRetryPolicy) : Prop :=
  p.limit ≤ 100 ∧ forall delay, p.delay = some delay -> delay ≤ maxDurationMs

instance (p : WorkflowRetryPolicy) : Decidable p.Valid :=
  match h : p.delay with
  | none => decidable_of_iff (p.limit ≤ 100) (by simp [Valid, h])
  | some delay => decidable_of_iff (p.limit ≤ 100 ∧ delay ≤ maxDurationMs)
    (by simp [Valid, h])

def factor (p : WorkflowRetryPolicy) (attempt : Nat) : Nat :=
  match p.backoff with
  | .constant => 1
  | .linear => attempt
  | .exponential => 2 ^ (attempt - 1)

-- The saturating product of the source and the unbounded one have the same
-- minimum with the cap.
def delayAfterResolved (p : WorkflowRetryPolicy) (attempt : Nat)
    (resolvedDynamicDelay : Option Nat) : Result Nat := do
  ensure p.Valid (validationError .workflowStepConfigUnsupported)
  ensure (1 ≤ attempt ∧ attempt ≤ 101)
    (validationError .workflowStepConfigUnsupported)
  let delay ← match p.delay, resolvedDynamicDelay with
    | some delay, none => .ok delay
    | none, some delay => .ok delay
    | _, _ => .error (validationError .workflowStepConfigUnsupported)
  ensure (delay ≤ maxDurationMs) (validationError .workflowStepConfigUnsupported)
  return min (delay * p.factor attempt) maxRetryDelayMs

def delayAfter (p : WorkflowRetryPolicy) (attempt : Nat) : Result Nat :=
  p.delayAfterResolved attempt none

end WorkflowRetryPolicy

inductive WorkflowStepSensitivity where
  | output
deriving DecidableEq, Repr

structure WorkflowStepConfig where
  retries : WorkflowRetryPolicy
  timeout : Nat
  sensitive : Option WorkflowStepSensitivity
deriving DecidableEq, Repr

namespace WorkflowStepConfig

def Valid (c : WorkflowStepConfig) : Prop :=
  c.retries.Valid ∧ 1 ≤ c.timeout ∧ c.timeout ≤ maxAttemptMs

instance (c : WorkflowStepConfig) : Decidable c.Valid := by
  unfold Valid
  infer_instance

def fitsActivation (c : WorkflowStepConfig) (remainingMs : Nat) : Bool :=
  c.timeout + drainMarginMs ≤ remainingMs

end WorkflowStepConfig

/-! ## Limits -/

structure WorkflowsConfig where
  maxInFlightRequests : Nat
  maxSteps : Nat
  maxStateBytes : Nat
  maxInstances : Nat
  maxInstancesPerDefinition : Nat
  maxActive : Nat
  maxTotalStateBytes : Nat
  leaseMs : Nat
  heartbeatMs : Nat
  dispatchTimeoutMs : Nat
  recoveryBackoffMs : Nat
  creationGraceMs : Nat
  maxParallelSteps : Nat
  maxBufferedEvents : Nat
  maxEventBytes : Nat
  defaultRetention : WorkflowRetention
deriving DecidableEq, Repr

namespace WorkflowsConfig

def InBounds (c : WorkflowsConfig) : Prop :=
  (0 < c.maxInFlightRequests ∧ c.maxInFlightRequests ≤ 512) ∧
  (0 < c.maxSteps ∧ c.maxSteps ≤ 1024) ∧
  (valueMaxBytes ≤ c.maxStateBytes ∧ c.maxStateBytes ≤ 1024 * 1024 * 1024) ∧
  (0 < c.maxInstances ∧ c.maxInstances ≤ 1000000) ∧
  (0 < c.maxInstancesPerDefinition ∧ c.maxInstancesPerDefinition ≤ c.maxInstances) ∧
  (0 < c.maxActive ∧ c.maxActive ≤ c.maxInstances) ∧
  (c.maxStateBytes ≤ c.maxTotalStateBytes ∧ c.maxTotalStateBytes ≤ 1024 * 1024 * 1024 * 1024) ∧
  (0 < c.heartbeatMs ∧ c.leaseMs ≤ 300000 ∧ c.heartbeatMs < c.leaseMs / 2 ∧
    c.leaseMs / 2 < c.dispatchTimeoutMs ∧ c.dispatchTimeoutMs ≤ 3600000) ∧
  (0 < c.recoveryBackoffMs ∧ c.recoveryBackoffMs ≤ 60000) ∧
  (0 < c.creationGraceMs ∧ c.creationGraceMs ≤ 300000) ∧
  (1 ≤ c.maxParallelSteps ∧ c.maxParallelSteps ≤ 16) ∧
  (1 ≤ c.maxBufferedEvents ∧ c.maxBufferedEvents ≤ 128) ∧
  (1 ≤ c.maxEventBytes ∧ c.maxEventBytes ≤ 8 * 1024 * 1024)

instance (c : WorkflowsConfig) : Decidable c.InBounds := by
  unfold InBounds
  infer_instance

def Valid (c : WorkflowsConfig) : Prop := c.defaultRetention.Valid ∧ c.InBounds

instance (c : WorkflowsConfig) : Decidable c.Valid := by
  unfold Valid
  infer_instance

def validate (c : WorkflowsConfig) : Result Unit := do
  ensure c.defaultRetention.Valid (validationError .workflowDurationInvalid)
  ensure c.InBounds (validationError .limitInvalid)

@[simp]
theorem validate_eq_ok {c : WorkflowsConfig} {u : Unit} : c.validate = .ok u ↔ c.Valid := by
  simp [validate, Valid]

end WorkflowsConfig
end Workflow
end OpenCompute
