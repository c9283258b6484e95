import OpenCompute.Relational.Transaction

/-!
# Identifiers, clocks and errors

The parts of the platform that both stores use: 128-bit identifiers,
millisecond timestamps with the checked `i64` arithmetic of the source, the
error codes that the modelled functions raise, and the failures of a SQL
statement.
-/

namespace OpenCompute

abbrev Uuid := BitVec 128

instance : LawfulBEq Uuid := inferInstance

/-- Generated identifiers are distinct and were never generated before. -/
def Fresh (ids used : List Uuid) : Prop :=
  ids.Nodup ∧ forall id, id ∈ ids -> ¬ id ∈ used

-- The instance that enumerates all bit vectors must not be chosen here.
instance (ids used : List Uuid) : Decidable (Fresh ids used) :=
  @instDecidableAnd _ _ (List.nodupDecidable ids)
    (List.decidableBAll (fun id => ¬ id ∈ used) ids)

def isAsciiControl (c : Char) : Bool := decide (c.val < 32) || decide (c.val = 127)

abbrev Millis := Int

def i64Min : Int := -9223372036854775808

def i64Max : Int := 9223372036854775807

def checkedAdd (a b : Int) : Option Int :=
  if i64Min ≤ a + b ∧ a + b ≤ i64Max then some (a + b) else none

theorem checkedAdd_eq_some {a b c : Int} :
    checkedAdd a b = some c ↔ i64Min ≤ a + b ∧ a + b ≤ i64Max ∧ c = a + b := by
  unfold checkedAdd
  split
  · rename_i hrange
    constructor
    · intro h
      cases h
      exact ⟨hrange.left, hrange.right, rfl⟩
    · rintro ⟨_, _, rfl⟩
      rfl
  · rename_i hrange
    constructor
    · intro h
      cases h
    · rintro ⟨hmin, hmax, _⟩
      exact absurd ⟨hmin, hmax⟩ hrange

inductive ErrorCode where
  | internal
  | limitInvalid
  | idempotencyConflict
  | schedulerUnavailable
  | schedulerCorrupt
  | schedulerInternalProtocolError
  | versionInvariantViolation
  | queueNotFound
  | queueNotReady
  | queueConfigPending
  | queueInvariantViolation
  | queueInvalidMessage
  | queueMessageTooLarge
  | queueBatchLimitExceeded
  | queueBacklogLimitExceeded
  | queueDelayInvalid
  | queueContentTypeUnsupported
  | queueDispositionInvalid
  | queueRetryDelayInvalid
  | queueStorageUnavailable
  | queueConsumerConflict
  | cronExpressionInvalid
  | cronExpressionUnsupported
  | artifactIntegrityError
  | cacheKeyInvalid
  | cacheProtocolError
  | cacheLimitExceeded
  | cacheCorrupt
  | cacheUnavailable
  | cacheResultUnknown
  | admissionBusy
  | versionNotReady
  | versionNotFound
  | versionActive
  | versionReferenced
  | workerNotFound
  | workerDeleted
  | configInvalid
  | doVersionStale
  | doObjectDeleting
  | doStorageLimit
  | quotaExceeded
  | bindingProtocolError
  | bindingLimitExceeded
  | resourceNameConflict
  | resourceNotFound
  | resourceNotReady
  | resourceReferenced
  | resourceUnavailable
  | resourceInvariantViolation
  | workflowMethodUnsupported
  | workflowInstanceIdInvalid
  | workflowInstanceNotFound
  | workflowInstanceStateConflict
  | workflowInstanceBusy
  | workflowRuntimeUnavailable
  | workflowInvariantViolation
  | workflowStateQuotaExceeded
  | workflowPayloadTooLarge
  | workflowResultTooLarge
  | workflowSerializationUnsupported
  | workflowStepLimitExceeded
  | workflowStepConfigUnsupported
  | workflowStepStale
  | workflowRunStale
  | workflowNonDeterministic
  | workflowExecutionFailed
  | workflowNonRetryable
  | workflowStepTimeout
  | workflowStepRetriesExhausted
  | workflowEventTimeout
  | workflowEventTypeInvalid
  | workflowEventQueueFull
  | workflowDurationInvalid
  | r2ObjectMetadataInvalid
  | r2ProviderUnavailable
deriving DecidableEq, Repr

structure PlatformError where
  code : ErrorCode
  message : String
deriving DecidableEq, Repr

abbrev Result := Except PlatformError

/-!
A statement fails when a trigger raises, when a constraint is violated, or
when a row that must exist is missing.
-/

inductive SqlError where
  | abort (message : String)
  | constraint
  | noRows
deriving DecidableEq, Repr

def mapErr {ε α : Type} (f : ε -> PlatformError) (x : Except ε α) : Result α :=
  match x with
  | .ok a => .ok a
  | .error e => .error (f e)

@[simp]
theorem mapErr_eq_ok {ε α : Type} {f : ε -> PlatformError} {x : Except ε α} {a : α} :
    mapErr f x = .ok a ↔ x = .ok a := by
  cases x <;> simp [mapErr]

namespace Scheduler

def invalid : PlatformError :=
  ⟨.schedulerInternalProtocolError, "scheduler projection input is invalid"⟩

def unavailable : PlatformError :=
  ⟨.schedulerUnavailable, "scheduler database operation failed"⟩

/-- A busy or a corrupt database is not modelled: every failure left is unavailable. -/
def mapSqlError (_ : SqlError) : PlatformError := unavailable

end Scheduler
end OpenCompute
