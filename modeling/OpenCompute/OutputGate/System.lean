import OpenCompute.OutputGate.Model

/-!
# The object around the gate

The native storage commits what it holds to the disk on its own, outside of
transactions.  A native transaction is a critical section: while an attempt is
open no other computation is resumed.  A crash leaves the disk, and the object
is activated again by a recovery that runs alone.  A storage that fails is a
crash.  The backend applies an operation id once and acknowledges what it has
applied.
-/

namespace OpenCompute
namespace OutputGate

open Relational Transition

/-- The native transaction behind an asynchronous one. -/
inductive Native where
  | idle
  /-- The gate was acquired; `started` after the first attempt. -/
  | acquired (started : Bool)
  | attempt (savepoint : Storage)
  | settled (outcome : TransactionOutcome)
deriving DecidableEq

inductive Status where
  | down
  | recovering
  | live
deriving DecidableEq

/-- What can be seen from outside the storage. -/
inductive Event where
  | sent (boot : Option Nat) (id : IntentId) (output : Output)
  | acknowledged (operationId : OperationId)
  | marked (operationId : OperationId)
  | finalizing (operationId : OperationId)
  | resolved (operationId : OperationId)
  | rejected (operationId : OperationId)
  | flushFailed (flush : Flush) (id : IntentId) (failure : FlushFailure)
deriving DecidableEq

structure World where
  storage : Storage
  disk : Storage
  written : Nat
  durable : Nat
  /-- The open calls of `transactionSync`, innermost first. -/
  savepoints : List Storage
  native : Native
  gate : DoOutputGate
  woken : List CallerId
  /-- The intents scheduled inside the open transaction or attempt. -/
  own : List OperationId
  tasks : Table Running.id
  status : Status
  boots : Nat
  log : List Event
  applied : List OperationId
  scheduled : Table Output.operationId

namespace World

def initial : World where
  storage := Storage.empty
  disk := Storage.empty
  written := 0
  durable := 0
  savepoints := []
  native := .idle
  gate := DoOutputGate.new
  woken := []
  own := []
  tasks := Table.empty
  status := .down
  boots := 0
  log := []
  applied := []
  scheduled := Table.empty

/-! ## Parts of a step -/

def write (w : World) (storage : Storage) : World :=
  { w with storage, written := w.written + 1 }

def record (w : World) (events : List Event) : World :=
  { w with log := w.log ++ events }

def setTask (w : World) (task : TaskId) (t : Task) : World :=
  { w with tasks := w.tasks.put ⟨task, t⟩ }

def dropTask (w : World) (task : TaskId) : World :=
  { w with tasks := w.tasks.erase task }

def markFailure (w : World) (id : IntentId) (code : String) : World :=
  w.write (w.storage.markFailure id code)

def origin (w : World) : Option Nat :=
  if w.status = .recovering then some w.boots else none

def send (w : World) (id : IntentId) (output : Output) : World :=
  w.record [.sent w.origin id output]

/-- No native transaction is open, so that suspended computations may go on. -/
def resting (w : World) : Bool :=
  w.savepoints.isEmpty && match w.native with
    | .attempt _ => false
    | _ => true

def wakeAsyncWaiter (w : World) : World :=
  match w.gate.asyncWaiters with
  | [] => w
  | next :: waiters =>
    { w with gate := { w.gate with asyncWaiters := waiters }, woken := w.woken ++ [next] }

/-! ## Publishing one intent -/

section Publishing

variable (w : World) (call : Call)

def catchPublish (error : Option String) : World × Progress :=
  if (w.storage.intents.find? call.id).any fun row => row.state = .published then
    (w, .thrown error)
  else
    let code := stableCode error "DO_OUTPUT_GATE_PUBLISH_FAILED"
    (w.markFailure call.id code, .suspended (.publishFailed code (w.written + 1)))

def acknowledge : World × Progress :=
  if call.finalize then
    ((w.write (w.storage.markPublished call.id)).record
      [.acknowledged call.output.operationId, .marked call.output.operationId],
      .suspended (.marked (w.written + 1)))
  else
    ((w.write (w.storage.delete call.id)).record [.acknowledged call.output.operationId],
      .suspended (.deleted (w.written + 1)))

def callFinalize (operationId : OperationId) : World :=
  w.record [.finalizing operationId]

/-- `#publish` and `#finalize` from one `await` to the next. -/
def resumeCall : Stage -> Response -> Option (World × Progress)
  | .committing upTo, .synced =>
    if upTo ≤ w.durable then
      some (w.send call.id call.output, .suspended .sending)
    else
      none
  | .sending, .fulfilled =>
    if call.output.operationId ∈ w.applied then some (w.acknowledge call) else none
  | .sending, .rejected error => some (w.catchPublish call error)
  | .marked upTo, .synced =>
    if upTo ≤ w.durable then
      some (w.callFinalize call.output.operationId, .suspended (.finalizing true))
    else
      none
  | .finalizing _, .fulfilled =>
    some (w.write (w.storage.delete call.id), .suspended (.deleted (w.written + 1)))
  | .finalizing nested, .rejected error =>
    let code := stableCode error "DO_OUTPUT_GATE_FINALIZE_FAILED"
    some (w.markFailure call.id code, .suspended (.finalizeFailed nested code (w.written + 1)))
  | .deleted upTo, .synced => if upTo ≤ w.durable then some (w, .returned) else none
  | .finalizeFailed nested code upTo, .synced =>
    if upTo ≤ w.durable then
      some (if nested then w.catchPublish call (some code) else (w, .thrown (some code)))
    else
      none
  | .publishFailed code upTo, .synced =>
    if upTo ≤ w.durable then some (w, .thrown (some code)) else none
  | _, _ => none

end Publishing

def resumeDirect (w : World) (task : TaskId) (call : Call) (r : Response) : Option World :=
  (w.resumeCall call call.stage r).map fun result =>
    match result.2 with
    | .suspended stage => result.1.setTask task (.direct { call with stage })
    | .returned => result.1.dropTask task
    | .thrown _ => result.1.dropTask task

/-! ## Flushing -/

/-- The `finally` of `exitTransaction`; a synchronous exit has woken its waiter before. -/
def endFlush (w : World) (task : TaskId) (f : Flush) : World :=
  if f.background then w.dropTask task else (w.dropTask task).wakeAsyncWaiter

def settle (w : World) (settles : Bool) (event : Event) : World :=
  if settles then w.record [event] else w

/-- The loop of `flush`, to the next `await`.  Only the id and the state of the selected
rows are read. -/
def continueFlush (w : World) (task : TaskId) (f : Flush) : List Intent -> World
  | [] => w.endFlush task f
  | row :: rest =>
    match w.gate.pending.find? row.id with
    | none =>
      (w.markFailure row.id recoveryRequired).setTask task
        (.refusing f row.id .recoveryRequired (w.written + 1))
    | some ⟨_, pending⟩ =>
      let call : Stage -> Call := fun stage => ⟨row.id, pending.output, pending.finalize, stage⟩
      match row.state, pending.finalize with
      | .pending, _ =>
        (w.send row.id pending.output).setTask task
          (.flushing f (call .sending) pending.settles rest)
      | .published, true =>
        (w.callFinalize pending.output.operationId).setTask task
          (.flushing f (call (.finalizing false)) pending.settles rest)
      | .published, false =>
        (w.markFailure row.id unpublishable).setTask task
          (.refusing f row.id
            (.unpublishable pending.output.operationId pending.settles) (w.written + 1))

def throwFlush (w : World) (task : TaskId) (f : Flush) (id : IntentId)
    (failure : FlushFailure) : World :=
  (w.record [.flushFailed f id failure]).endFlush task f

def resumeFlush (w : World) (task : TaskId) (f : Flush) (call : Call) (settles : Bool)
    (rest : List Intent) (r : Response) : Option World :=
  (w.resumeCall call call.stage r).map fun result =>
    match result.2 with
    | .suspended stage => result.1.setTask task (.flushing f { call with stage } settles rest)
    | .returned =>
      let w := result.1.settle settles (.resolved call.output.operationId)
      { w with gate := w.gate.delete call.id }.continueFlush task f rest
    | .thrown _ =>
      (result.1.settle settles (.rejected call.output.operationId)).throwFlush task f call.id
        (.publish call.output.operationId)

/-- The `sync` before a row is refused. -/
def resumeRefusal (w : World) (task : TaskId) (f : Flush) (id : IntentId)
    (failure : FlushFailure) : World :=
  match failure with
  | .unpublishable operationId settles =>
    (w.settle settles (.rejected operationId)).throwFlush task f id failure
  | _ => w.throwFlush task f id failure

/-! ## Crashes and recovery -/

def crash (w : World) : World :=
  { w with
    storage := w.disk
    durable := w.written
    savepoints := []
    native := .idle
    gate := DoOutputGate.new
    woken := []
    own := []
    tasks := Table.empty
    status := .down }

/-- The loop of `recover`, to the next `await`. -/
def continueRecovery (w : World) (task : TaskId) (env : Env) : List Intent -> World
  | [] => { w.dropTask task with status := .live }
  | row :: rest =>
    let refused : World :=
      (w.markFailure row.id unpublishable).setTask task (.recoveryRefusing (w.written + 1))
    match env.lookup row.output.publisherName with
    | none => refused
    | some finalize =>
      if intentToken row.output.kind && intentToken row.output.publisherName then
        match row.state, finalize with
        | .pending, _ =>
          (w.send row.id row.output).setTask task
            (.recovering env ⟨row.id, row.output, finalize, .sending⟩ rest)
        | .published, true =>
          (w.callFinalize row.output.operationId).setTask task
            (.recovering env ⟨row.id, row.output, finalize, .finalizing false⟩ rest)
        | .published, false => refused
      else
        refused

def resumeRecovery (w : World) (task : TaskId) (env : Env) (call : Call) (rest : List Intent)
    (r : Response) : Option World :=
  (w.resumeCall call call.stage r).map fun result =>
    match result.2 with
    | .suspended stage => result.1.setTask task (.recovering env { call with stage } rest)
    | .returned => result.1.continueRecovery task env rest
    | .thrown _ => result.1.crash

def resume (w : World) (task : TaskId) (r : Response) : Option World :=
  if w.resting then
    (w.tasks.find? task).bind fun running =>
      match running.task with
      | .direct call => w.resumeDirect task call r
      | .restaging f upTo =>
        if r = .synced ∧ upTo ≤ w.durable then
          some (w.continueFlush task f w.storage.ordered)
        else
          none
      | .flushing f call settles rest => w.resumeFlush task f call settles rest r
      | .refusing f id failure upTo =>
        if r = .synced ∧ upTo ≤ w.durable then
          some (w.resumeRefusal task f id failure)
        else
          none
      | .recovering env call rest => w.resumeRecovery task env call rest r
      | .recoveryRefusing upTo => if r = .synced ∧ upTo ≤ w.durable then some w.crash else none
  else
    none

/-! ## Calls of the tenant -/

/-- `crypto.randomUUID` gives no id twice. -/
def schedule (w : World) (task : TaskId) (output : Output) (finalize : Bool) (nowMs : Millis) :
    Option World :=
  if intentToken output.kind && intentToken output.publisherName then
    (w.scheduled.insert? output).bind fun scheduled =>
      (w.storage.insertIntent output nowMs).bind fun inserted =>
        let w := { w.write inserted.2 with scheduled }
        match w.gate.transaction with
        | some mode => some { w with
          gate := w.gate.set ⟨inserted.1, ⟨output, finalize, mode = .sync⟩⟩
          own := w.own ++ [output.operationId] }
        | none =>
          if task ∈ w.tasks.keys then none
          else some (w.setTask task
            (.direct ⟨inserted.1, output, finalize, .committing w.written⟩))
  else
    none

def enterSync (w : World) : Option World :=
  (w.gate.enterTransaction true).map fun gate =>
    { w with
      gate
      own := if w.gate.transaction = none then [] else w.own
      savepoints := w.storage :: w.savepoints }

def rejections (dropped : List Staged) : List Event :=
  (dropped.filter fun staged => staged.pending.settles).map fun staged =>
    .rejected staged.pending.output.operationId

/-- The native transaction ends, and `exitTransactionSync` follows. -/
def exitSync (w : World) (task : TaskId) (commit : Bool) : Option World :=
  match w.gate.transaction, w.savepoints with
  | some .sync, savepoint :: savepoints =>
    let ended := if commit then w else w.write savepoint
    let kept : World := { ended.record (rejections (w.gate.dropped ended.storage)) with
      savepoints
      gate := { w.gate.retain ended.storage with syncDepth := w.gate.syncDepth - 1 } }
    if 0 < w.gate.syncDepth - 1 then
      some kept
    else if task ∈ w.tasks.keys then
      none
    else
      let closed : World := { kept with
        gate := { kept.gate with transaction := none, syncDepth := 0 } }
      some (closed.wakeAsyncWaiter.continueFlush task ⟨w.own, true⟩ ended.storage.ordered)
  | _, _ => none

/-- The loop of `acquireAsyncTransaction`, to the next `await`. -/
def acquire (w : World) (caller : CallerId) : Option World :=
  match w.gate.transaction with
  | some .sync => none
  | some .async =>
    some { w with gate := { w.gate with asyncWaiters := w.gate.asyncWaiters ++ [caller] } }
  | none =>
    some { w with
      gate := { w.gate with transaction := some .async }
      native := .acquired false
      own := [] }

def reacquire (w : World) (caller : CallerId) : Option World :=
  if caller ∈ w.woken then
    { w with woken := w.woken.erase caller }.acquire caller
  else
    none

def beginAttempt (w : World) : Option World :=
  match w.native with
  | .acquired started =>
    some { w with
      native := .attempt w.storage
      own := if started then [] else w.own
      gate := if started then w.gate.clear else w.gate }
  | _ => none

inductive Settlement where
  | commit
  | rollback
  | fail
  | retry
deriving DecidableEq

def settleAttempt (w : World) (settlement : Settlement) : Option World :=
  match w.native with
  | .attempt savepoint =>
    match settlement with
    | .commit => some { w with native := .settled .committed }
    | .rollback => some { w.write savepoint with native := .settled .explicitRollback }
    | .fail => some { w.write savepoint with native := .settled .failed }
    | .retry => some { w.write savepoint with native := .acquired true }
  | _ => none

def abandon (w : World) : Option World :=
  match w.native with
  | .acquired true => some { w with native := .settled .failed }
  | _ => none

def exitTransaction (w : World) (task : TaskId) (nowMs : Millis) : Option World :=
  match w.native with
  | .settled outcome =>
    let closed : World := { w with
      gate := { w.gate with transaction := none }
      native := .idle }
    if task ∈ w.tasks.keys then
      none
    else
      match outcome with
      | .failed => some { closed with gate := closed.gate.clear }.wakeAsyncWaiter
      | .explicitRollback =>
        match restage nowMs w.storage w.gate with
        | none => some closed.wakeAsyncWaiter
        | some (storage, pending) =>
          some ({ closed.write storage with
            gate := { closed.gate with pending } }.setTask task
              (.restaging ⟨w.own, false⟩ (w.written + 1)))
      | .committed => some (closed.continueFlush task ⟨w.own, false⟩ w.storage.ordered)
  | _ => none

end World

/-! ## Actions -/

inductive Action where
  | persist
  | deliver (operationId : OperationId)
  | crash
  | boot (task : TaskId) (env : Env)
  | schedule (task : TaskId) (output : Output) (finalize : Bool) (nowMs : Millis)
  | enterSync
  | exitSync (task : TaskId) (commit : Bool)
  | acquire (caller : CallerId)
  | reacquire (caller : CallerId)
  | beginAttempt
  | settleAttempt (settlement : World.Settlement)
  | abandon
  | exitTransaction (task : TaskId) (nowMs : Millis)
  | resume (task : TaskId) (response : Response)

def isSent (operationId : OperationId) : Event -> Bool
  | .sent _ _ output => output.operationId = operationId
  | _ => false

/-- An action that throws before it has changed anything is no step. -/
def next (w : World) : Action -> Option World
  | .persist =>
    if w.resting then some { w with disk := w.storage, durable := w.written } else none
  | .deliver operationId =>
    if w.log.any (isSent operationId) ∧ ¬ operationId ∈ w.applied then
      some { w with applied := w.applied ++ [operationId] }
    else
      none
  | .crash => some w.crash
  | .boot task env =>
    if w.status = .down then
      some ({ w with status := .recovering, boots := w.boots + 1 }.continueRecovery task env
        w.storage.ordered)
    else
      none
  | .resume task r => w.resume task r
  | .schedule task output finalize nowMs =>
    if w.status = .live then w.schedule task output finalize nowMs else none
  | .enterSync => if w.status = .live then w.enterSync else none
  | .exitSync task commit => w.exitSync task commit
  | .acquire caller => if w.status = .live then w.acquire caller else none
  | .reacquire caller => w.reacquire caller
  | .beginAttempt => w.beginAttempt
  | .settleAttempt settlement => w.settleAttempt settlement
  | .abandon => w.abandon
  | .exitTransaction task nowMs => w.exitTransaction task nowMs

end OutputGate
end OpenCompute
