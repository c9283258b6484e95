import OpenCompute.Cron.Slots
import OpenCompute.Transition.Run

/-!
# The Cron store as a transition system

An action is one call of a store operation with all of its arguments, the
generated identifiers included.  A call that fails takes no step, because its
transaction rolls back.  Next to the store a world remembers which slots were
projected and which runs were handed out, and when.
-/

namespace OpenCompute
namespace Cron

open Relational Transaction Transition

inductive Action where
  | promote (workerId : WorkerId) (versionId : VersionId) (routeGeneration : Nat)
      (expressions : List String) (ids : List CronActivationId) (nowMs : Int)
  | project (nowMs : Int) (misfireGraceMs limit : Nat) (ids : List CronRunId)
  | gc (nowMs : Int) (retentionMs perActivationLimit : Nat)
  | claim (nowMs : Int) (maxRetries limit : Nat)
  | complete (run : ClaimedCronRun) (completion : CronCompletion) (nowMs : Int)
      (maxRetries : Nat)
  | markUnknown (run : ClaimedCronRun) (reason : CronUnknownReason) (nowMs : Int)
      (maxRetries : Nat)
  | restart (nowMs : Int) (cronMaxRetries : Nat)

structure Dispatch where
  run : ClaimedCronRun
  atMs : Int
deriving DecidableEq

/-- The two histories have their newest entry first. -/
structure World where
  store : Store
  runIds : List CronRunId
  activationIds : List CronActivationId
  projected : List (CronActivationId × Int)
  dispatched : List Dispatch

def World.initial (owner : Uuid) : World := ⟨Store.empty owner, [], [], [], []⟩

/-- The slots whose runs were inserted under the given identifiers. -/
def insertedSlots (s : Store) (ids : List CronRunId) : List (CronActivationId × Int) :=
  (s.runs.rows.filter fun run => run.id ∈ ids).map fun run =>
    (run.activationId, run.scheduledAtMs)

variable {Pattern : Type} (croner : Croner Pattern)

def World.next (w : World) : Action -> Option World
  | .promote workerId versionId routeGeneration expressions ids nowMs =>
    if Fresh ids w.activationIds ∧ expressions.length ≤ ids.length then
      match replaceSchedules croner w.store workerId versionId routeGeneration
          expressions ids nowMs with
      | .ok s => some { w with store := s, activationIds := ids ++ w.activationIds }
      | .error _ => none
    else
      none
  | .project nowMs misfireGraceMs limit ids =>
    if Fresh ids w.runIds ∧ limit ≤ ids.length then
      match projectDueCronSlots croner w.store nowMs misfireGraceMs limit ids with
      | .ok (_, s) => some { w with
        store := s
        runIds := ids ++ w.runIds
        projected := insertedSlots s ids ++ w.projected }
      | .error _ => none
    else
      none
  | .gc nowMs retentionMs perActivationLimit =>
    match gcCronHistory w.store nowMs retentionMs perActivationLimit with
    | .ok (_, s) => some { w with store := s }
    | .error _ => none
  | .claim nowMs maxRetries limit =>
    match claimCronRuns w.store nowMs maxRetries limit with
    | .ok (claims, s) => some { w with
      store := s
      dispatched := claims.map (fun run => ⟨run, nowMs⟩) ++ w.dispatched }
    | .error _ => none
  | .complete run completion nowMs maxRetries =>
    if (w.dispatched.any fun d => d.run = run) then
      match completeCronRun w.store run completion nowMs maxRetries with
      | .ok (_, s) => some { w with store := s }
      | .error _ => none
    else
      none
  | .markUnknown run reason nowMs maxRetries =>
    if (w.dispatched.any fun d => d.run = run) then
      match markCronUnknown w.store run reason nowMs maxRetries with
      | .ok (_, s) => some { w with store := s }
      | .error _ => none
    else
      none
  | .restart nowMs cronMaxRetries =>
    match resetClaims w.store nowMs cronMaxRetries with
    | .ok s => some { w with store := s }
    | .error _ => none

/-- Any interleaving of calls from an empty store. -/
def History (owner : Uuid) (actions : List Action) (w : World) : Prop :=
  Run (World.next croner) always (World.initial owner) actions w

/-!
## A deployment in miniature

One Worker with one schedule for every minute.
-/

namespace Sample

def everyMinute : Croner Unit :=
  { parse := fun _ => some ()
    minuteMatch := fun _ _ => true
    hourMatch := fun _ _ => true
    monthMatch := fun _ _ => true
    dayMatch := fun _ _ _ => true }

def promote : Action := .promote 1 1 1 ["* * * * *"] [1] 0

def run (attempt : Nat) : ClaimedCronRun :=
  { id := 10
    activationId := 1
    instanceId := 7
    workerId := 1
    versionId := 1
    executionGeneration := 1
    expression := "* * * * *"
    scheduledAtMs := 60000
    attempt := attempt
    dispatchDeadlineAtMs := 960000 }

def reclaimed : List Action :=
  [promote, .project 60000 300000 10 [10, 11, 12, 13, 14, 15, 16, 17, 18, 19],
    .claim 60000 3 10, .markUnknown (run 1) .connectionLoss 60100 3,
    .claim 60350 3 10]

end Sample

end Cron
end OpenCompute
