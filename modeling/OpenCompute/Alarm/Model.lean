import OpenCompute.Platform
import OpenCompute.Relational.Table
import OpenCompute.Transition.Run

/-!
# The alarm projections of the scheduler

`scheduled_jobs` has a row for each Durable Object generation that has an alarm.
The object is the authority over its alarm and marks every change of it with a
new row token.  The scheduler claims due rows, delivers them, and finishes a
claim by a compare-and-set on the token it has claimed.
-/

namespace OpenCompute
namespace Alarm

open Relational Transaction

abbrev ResourceId := Uuid
abbrev VersionId := Uuid
abbrev JobId := Uuid

abbrev DurableObjectId := BitVec 256

structure ObjectKey where
  namespaceResourceId : ResourceId
  objectId : DurableObjectId
  objectGeneration : Nat
  deriving DecidableEq, Repr

structure AlarmProjection where
  object : ObjectKey
  rowToken : String
  dueAtMs : Millis
  targetVersionId : VersionId
  executionGeneration : Nat
  retryCount : Nat
  deriving DecidableEq, Repr

inductive JobState where
  | scheduled
  | claimed
  | discarding
  deriving DecidableEq, Repr

/-- The bounds of the columns are those of the `CHECK`s. -/
structure ScheduledJob where
  id : JobId
  object : ObjectKey
  rowToken : String
  dueAtMs : Millis
  targetVersionId : VersionId
  executionGeneration : Nat
  state : JobState
  retryCount : Nat
  lastErrorCode : Option String
  createdAtMs : Millis
  updatedAtMs : Millis
  generation_pos : 1 ≤ object.objectGeneration
  due_pos : 0 < dueAtMs
  retry_le : retryCount ≤ 6
  token_length : 16 ≤ rowToken.length ∧ rowToken.length ≤ 128
  deriving DecidableEq

abbrev Store := Table ScheduledJob.id

structure ClaimedJob where
  id : JobId
  object : ObjectKey
  rowToken : String
  dueAtMs : Millis
  targetVersionId : VersionId
  executionGeneration : Nat
  retryCount : Nat
  deriving DecidableEq, Repr

inductive ClaimResult where
  | delete
  | reschedule (dueAtMs : Millis) (retryCount : Nat) (lastErrorCode : Option String)
  | markDiscarding (lastErrorCode : String)
  deriving DecidableEq, Repr

/-! ## Validation -/

def validToken (token : String) : Bool :=
  decide (16 ≤ token.utf8ByteSize) && decide (token.utf8ByteSize ≤ 128) &&
    token.toList.all fun c => decide (32 < c.toNat) && decide (c.toNat ≠ 127)

def validateToken (token : String) : Result Unit :=
  ensure (validToken token = true) Scheduler.invalid

def validateProjection (projection : AlarmProjection) : Result Unit := do
  validateToken projection.rowToken
  ensure (projection.object.objectGeneration ≠ 0 ∧ 0 < projection.dueAtMs ∧
    projection.retryCount ≤ 6) Scheduler.invalid

def toI64 (value : Nat) : Result Unit :=
  ensure ((value : Int) ≤ i64Max) Scheduler.invalid

def corrupt : PlatformError :=
  ⟨.schedulerCorrupt, "scheduler database integrity validation failed"⟩

/-! ## The object's changes -/

def AlarmProjection.row (projection : AlarmProjection) (id : JobId) (createdAtMs nowMs : Millis) :
    Option ScheduledJob :=
  if h : (1 ≤ projection.object.objectGeneration ∧ 0 < projection.dueAtMs ∧
      projection.retryCount ≤ 6) ∧
      16 ≤ projection.rowToken.length ∧ projection.rowToken.length ≤ 128 then
    some {
      id
      object := projection.object
      rowToken := projection.rowToken
      dueAtMs := projection.dueAtMs
      targetVersionId := projection.targetVersionId
      executionGeneration := projection.executionGeneration
      state := .scheduled
      retryCount := projection.retryCount
      lastErrorCode := none
      createdAtMs
      updatedAtMs := nowMs
      generation_pos := h.left.left
      due_pos := h.left.right.left
      retry_le := h.left.right.right
      token_length := h.right }
  else
    none

def findObject (s : Store) (object : ObjectKey) : Option ScheduledJob :=
  s.rows.find? fun job => job.object = object

/-- `INSERT … ON CONFLICT … DO UPDATE`; only the object columns may conflict. -/
def upsertAlarm (s : Store) (projection : AlarmProjection) (freshId : JobId) (nowMs : Millis) :
    Result Store := do
  validateProjection projection
  toI64 projection.object.objectGeneration
  toI64 projection.executionGeneration
  ensure (s.find? freshId = none) (Scheduler.mapSqlError .constraint)
  match findObject s projection.object with
  | some job =>
    let row ← okOr (projection.row job.id job.createdAtMs nowMs)
      (Scheduler.mapSqlError .constraint)
    return s.replace row
  | none =>
    let row ← okOr (projection.row freshId nowMs nowMs) (Scheduler.mapSqlError .constraint)
    okOr (s.insert? row) (Scheduler.mapSqlError .constraint)

def isExact (object : ObjectKey) (rowToken : String) (job : ScheduledJob) : Bool :=
  decide (job.object = object ∧ job.rowToken = rowToken)

def deleteAlarmExact (s : Store) (object : ObjectKey) (rowToken : String) :
    Result (Bool × Store) := do
  validateToken rowToken
  toI64 object.objectGeneration
  return (decide (s.rows.countP (isExact object rowToken) = 1),
    s.filter fun job => !isExact object rowToken job)

def deleteObject (s : Store) (object : ObjectKey) : Result (Nat × Store) := do
  toI64 object.objectGeneration
  return (s.rows.countP (fun job => job.object = object),
    s.filter fun job => !decide (job.object = object))

/-! ## Claims -/

def ScheduledJob.claimedJob (job : ScheduledJob) : ClaimedJob :=
  ⟨job.id, job.object, job.rowToken, job.dueAtMs, job.targetVersionId, job.executionGeneration,
    job.retryCount⟩

def isDue (nowMs : Millis) (job : ScheduledJob) : Bool :=
  decide (job.state = .scheduled ∧ job.dueAtMs ≤ nowMs)

/-- `ORDER BY due_at_ms, id`. -/
def JobLe (a b : ScheduledJob) : Prop :=
  a.dueAtMs < b.dueAtMs ∨ (a.dueAtMs = b.dueAtMs ∧ a.id ≤ b.id)

instance : DecidableRel JobLe := by
  intro a b
  unfold JobLe
  infer_instance

def candidates (s : Store) (nowMs : Millis) (batch : Nat) : List JobId :=
  (((s.rows.filter (isDue nowMs)).insertionSort JobLe).take batch).map ScheduledJob.id

def claimOne (nowMs : Millis) (claims : List ClaimedJob × Store) (id : JobId) :
    Result (List ClaimedJob × Store) := do
  let job ← okOr ((claims.2.find? id).filter (isDue nowMs)) corrupt
  let row : ScheduledJob := { job with
    state := .claimed
    updatedAtMs := nowMs }
  return (claims.1 ++ [row.claimedJob], claims.2.replace row)

def claimDue (s : Store) (nowMs : Millis) (batch : Nat) : Result (List ClaimedJob × Store) := do
  ensure (batch ≠ 0) Scheduler.invalid
  (candidates s nowMs batch).foldlM (claimOne nowMs) ([], s)

def held (s : Store) (job : ClaimedJob) (state : JobState) : Option ScheduledJob :=
  (s.find? job.id).filter fun row => row.state = state ∧ row.rowToken = job.rowToken

def finishClaim (s : Store) (job : ClaimedJob) (result : ClaimResult) (nowMs : Millis) :
    Result (Bool × Store) :=
  match result with
  | .delete =>
    match held s job .claimed with
    | none => .ok (false, s)
    | some row => .ok (true, s.erase row.id)
  | .reschedule dueAtMs retryCount lastErrorCode =>
    if h : 0 < dueAtMs ∧ retryCount ≤ 6 then
      match held s job .claimed with
      | none => .ok (false, s)
      | some row =>
        .ok (true, s.replace { row with
          state := .scheduled
          dueAtMs
          retryCount
          lastErrorCode
          updatedAtMs := nowMs
          due_pos := h.left
          retry_le := h.right })
    else
      .error Scheduler.invalid
  | .markDiscarding lastErrorCode =>
    match held s job .claimed with
    | none => .ok (false, s)
    | some row =>
      .ok (true, s.replace { row with
        state := .discarding
        lastErrorCode := some lastErrorCode
        updatedAtMs := nowMs })

def retargetClaim (s : Store) (job : ClaimedJob) (versionId : VersionId)
    (executionGeneration : Nat) (nowMs : Millis) : Result (Bool × Store) := do
  toI64 executionGeneration
  match held s job .claimed with
  | none => return (false, s)
  | some row =>
    return (true, s.replace { row with
      targetVersionId := versionId
      executionGeneration
      updatedAtMs := nowMs })

def finishDiscarding (s : Store) (job : ClaimedJob) : Result (Bool × Store) :=
  match held s job .discarding with
  | none => .ok (false, s)
  | some row => .ok (true, s.erase row.id)

def released (nowMs : Millis) (job : ScheduledJob) : ScheduledJob :=
  if job.state = .claimed then
    { job with
      state := .scheduled
      updatedAtMs := nowMs }
  else
    job

theorem released_ids (s : Store) (nowMs : Millis) :
    (s.rows.map (released nowMs)).map ScheduledJob.id = s.rows.map ScheduledJob.id := by
  rw [List.map_map]
  refine List.map_congr_left fun job _ => ?_
  show (released nowMs job).id = job.id
  unfold released
  split <;> rfl

def resetClaims (s : Store) (nowMs : Millis) (cronMaxRetries : Nat) : Result Store := do
  ensure (cronMaxRetries ≤ 3 ∧ (checkedAdd nowMs 250).isSome) Scheduler.invalid
  return ⟨s.rows.map (released nowMs), (released_ids s nowMs).symm ▸ s.nodup⟩

/-! ## Any order of calls -/

inductive Action where
  | upsert (projection : AlarmProjection) (freshId : JobId) (nowMs : Millis)
  | deleteExact (object : ObjectKey) (rowToken : String)
  | deleteObject (object : ObjectKey)
  | claim (nowMs : Millis) (batch : Nat)
  | finish (job : ClaimedJob) (result : ClaimResult) (nowMs : Millis)
  | retarget (job : ClaimedJob) (versionId : VersionId) (executionGeneration : Nat)
      (nowMs : Millis)
  | finishDiscarding (job : ClaimedJob)
  | restart (nowMs : Millis) (cronMaxRetries : Nat)

def Action.apply (s : Store) : Action -> Result Store
  | .upsert projection freshId nowMs => upsertAlarm s projection freshId nowMs
  | .deleteExact object rowToken => Prod.snd <$> deleteAlarmExact s object rowToken
  | .deleteObject object => Prod.snd <$> Alarm.deleteObject s object
  | .claim nowMs batch => Prod.snd <$> claimDue s nowMs batch
  | .finish job result nowMs => Prod.snd <$> finishClaim s job result nowMs
  | .retarget job versionId executionGeneration nowMs =>
    Prod.snd <$> retargetClaim s job versionId executionGeneration nowMs
  | .finishDiscarding job => Prod.snd <$> Alarm.finishDiscarding s job
  | .restart nowMs cronMaxRetries => resetClaims s nowMs cronMaxRetries

def next (s : Store) (a : Action) : Option Store := (a.apply s).toOption

/-- Any interleaving of calls from an empty table.  The job of a finish is any record, also
one of an earlier process. -/
def History (actions : List Action) (s : Store) : Prop :=
  Transition.Run next Transition.always Table.empty actions s

end Alarm
end OpenCompute
