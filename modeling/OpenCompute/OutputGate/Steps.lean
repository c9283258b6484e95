import OpenCompute.OutputGate.System

/-!
# What a step can do

The inversion of every operation: the cases in which it makes a step, with what
it has found and the state that it leaves.
-/

namespace OpenCompute
namespace OutputGate

open Relational Table Option

variable {w w' : World} {task : TaskId}

/-! ## A publication -/

def Stage.failed : Stage -> Bool
  | .finalizeFailed _ _ _ => true
  | .publishFailed _ _ => true
  | _ => false

inductive CallStep (w : World) (call : Call) : Response -> World -> Progress -> Prop where
  | send {upTo : Nat} (hstage : call.stage = .committing upTo) (hdurable : upTo ≤ w.durable) :
      CallStep w call .synced (w.send call.id call.output) (.suspended .sending)
  | mark (hstage : call.stage = .sending) (happlied : call.output.operationId ∈ w.applied)
      (hfinalize : call.finalize = true) :
      CallStep w call .fulfilled
        ((w.write (w.storage.markPublished call.id)).record
          [.acknowledged call.output.operationId, .marked call.output.operationId])
        (.suspended (.marked (w.written + 1)))
  | remove (hstage : call.stage = .sending) (happlied : call.output.operationId ∈ w.applied)
      (hfinalize : call.finalize = false) :
      CallStep w call .fulfilled
        ((w.write (w.storage.delete call.id)).record [.acknowledged call.output.operationId])
        (.suspended (.deleted (w.written + 1)))
  | finalize {upTo : Nat} (hstage : call.stage = .marked upTo) (hdurable : upTo ≤ w.durable) :
      CallStep w call .synced (w.callFinalize call.output.operationId)
        (.suspended (.finalizing true))
  | retire {nested : Bool} (hstage : call.stage = .finalizing nested) :
      CallStep w call .fulfilled (w.write (w.storage.delete call.id))
        (.suspended (.deleted (w.written + 1)))
  | note {r : Response} {code : String} {stage : Stage}
      (hfailed : (exists error, r = .rejected error) ∨ call.stage.failed = true)
      (hstage : stage = .publishFailed code (w.written + 1) ∨
        exists nested, stage = .finalizeFailed nested code (w.written + 1)) :
      CallStep w call r (w.markFailure call.id code) (.suspended stage)
  | returned {upTo : Nat} (hstage : call.stage = .deleted upTo) (hdurable : upTo ≤ w.durable) :
      CallStep w call .synced w .returned
  | thrown {r : Response} {error : Option String}
      (hfailed : (exists error, r = .rejected error) ∨ call.stage.failed = true) :
      CallStep w call r w (.thrown error)

section Publication

variable {call : Call} {r : Response} {progress : Progress}

theorem callStep_catchPublish (error : Option String)
    (hfailed : (exists error, r = .rejected error) ∨ call.stage.failed = true)
    (hcatch : w.catchPublish call error = (w', progress)) : CallStep w call r w' progress := by
  unfold World.catchPublish at hcatch
  split at hcatch
  · cases hcatch
    exact CallStep.thrown hfailed
  · cases hcatch
    exact CallStep.note hfailed (.inl rfl)

theorem callStep_of_resumeCall (hresume : w.resumeCall call call.stage r = some (w', progress)) :
    CallStep w call r w' progress := by
  generalize hstage : call.stage = before at hresume
  have hfailed : before.failed = true ->
      (exists error, r = .rejected error) ∨ call.stage.failed = true := by
    rw [hstage]
    exact .inr
  unfold World.resumeCall at hresume
  split at hresume
  · split at hresume <;> cases hresume
    exact CallStep.send hstage ‹_›
  · unfold World.acknowledge at hresume
    split at hresume
    · split at hresume
      · cases hresume
        exact CallStep.mark hstage ‹_› ‹_›
      · rename_i hfinalize
        cases hresume
        exact CallStep.remove hstage ‹_› (Bool.eq_false_iff.mpr hfinalize)
    · cases hresume
  · exact callStep_catchPublish _ (.inl ⟨_, rfl⟩) (some.inj hresume)
  · split at hresume <;> cases hresume
    exact CallStep.finalize hstage ‹_›
  · cases hresume
    exact CallStep.retire hstage
  · cases hresume
    exact CallStep.note (.inl ⟨_, rfl⟩) (.inr ⟨_, rfl⟩)
  · split at hresume <;> cases hresume
    exact CallStep.returned hstage ‹_›
  · split at hresume
    · split at hresume
      · exact callStep_catchPublish _ (hfailed rfl) (some.inj hresume)
      · cases hresume
        exact CallStep.thrown (hfailed rfl)
    · cases hresume
  · split at hresume <;> cases hresume
    exact CallStep.thrown (hfailed rfl)
  · cases hresume

end Publication

/-! ## The loops of a flush and of a recovery -/

inductive Flushes (w : World) (task : TaskId) (f : Flush) : List Intent -> World -> Prop where
  | done : Flushes w task f [] (w.endFlush task f)
  | refused {row : Intent} {rest : List Intent} {code : String} {failure : FlushFailure} :
      Flushes w task f (row :: rest) ((w.markFailure row.id code).setTask task
        (.refusing f row.id failure (w.written + 1)))
  | send {row : Intent} {rest : List Intent} {staged : Staged}
      (hfind : w.gate.pending.find? row.id = some staged) :
      Flushes w task f (row :: rest) ((w.send row.id staged.pending.output).setTask task
        (.flushing f ⟨row.id, staged.pending.output, staged.pending.finalize, .sending⟩
          staged.pending.settles rest))
  | finalize {row : Intent} {rest : List Intent} {staged : Staged}
      (hfind : w.gate.pending.find? row.id = some staged) (hstate : row.state = .published) :
      Flushes w task f (row :: rest)
        ((w.callFinalize staged.pending.output.operationId).setTask task
          (.flushing f ⟨row.id, staged.pending.output, true, .finalizing false⟩
            staged.pending.settles rest))

theorem flushes_continueFlush (w : World) (task : TaskId) (f : Flush) (rest : List Intent) :
    Flushes w task f rest (w.continueFlush task f rest) := by
  cases rest with
  | nil => exact Flushes.done
  | cons row rest =>
    unfold World.continueFlush
    dsimp only
    split
    · exact Flushes.refused
    · rename_i hfind
      split
      · exact Flushes.send hfind
      · rename_i hstate hfinalize
        rw [hfinalize]
        exact Flushes.finalize hfind hstate
      · exact Flushes.refused

theorem continueFlush_send {f : Flush} {row : Intent} {rest : List Intent} {staged : Staged}
    (hfind : w.gate.pending.find? row.id = some staged) (hstate : row.state = .pending) :
    w.continueFlush task f (row :: rest) = (w.send row.id staged.pending.output).setTask task
        (.flushing f ⟨row.id, staged.pending.output, staged.pending.finalize, .sending⟩
          staged.pending.settles rest) := by
  unfold World.continueFlush
  simp only [hfind, hstate]

inductive Recovers (w : World) (task : TaskId) (env : Env) : List Intent -> World -> Prop where
  | done : Recovers w task env [] { w.dropTask task with status := .live }
  | refused {row : Intent} {rest : List Intent} :
      Recovers w task env (row :: rest) ((w.markFailure row.id unpublishable).setTask task
        (.recoveryRefusing (w.written + 1)))
  | send {row : Intent} {rest : List Intent} {finalize : Bool} :
      Recovers w task env (row :: rest) ((w.send row.id row.output).setTask task
        (.recovering env ⟨row.id, row.output, finalize, .sending⟩ rest))
  | finalize {row : Intent} {rest : List Intent} (hstate : row.state = .published) :
      Recovers w task env (row :: rest) ((w.callFinalize row.output.operationId).setTask task
        (.recovering env ⟨row.id, row.output, true, .finalizing false⟩ rest))

theorem recovers_continueRecovery (w : World) (task : TaskId) (env : Env) (rest : List Intent) :
    Recovers w task env rest (w.continueRecovery task env rest) := by
  cases rest with
  | nil => exact Recovers.done
  | cons row rest =>
    unfold World.continueRecovery
    dsimp only
    split
    · exact Recovers.refused
    · split
      · split
        · exact Recovers.send
        · exact Recovers.finalize ‹_›
        · exact Recovers.refused
      · exact Recovers.refused

/-! ## A task that is resumed -/

inductive Resumes (w : World) (task : TaskId) (r : Response) : Task -> World -> Prop where
  | direct {call : Call} {mid : World} {stage : Stage}
      (hcall : CallStep w call r mid (.suspended stage)) :
      Resumes w task r (.direct call) (mid.setTask task (.direct { call with stage }))
  | directEnded {call : Call} : Resumes w task r (.direct call) (w.dropTask task)
  | restaged {f : Flush} {upTo : Nat} :
      Resumes w task r (.restaging f upTo) (w.continueFlush task f w.storage.ordered)
  | flushing {f : Flush} {call : Call} {settles : Bool} {rest : List Intent} {mid : World}
      {stage : Stage} (hresume : w.resumeCall call call.stage r = some (mid, .suspended stage)) :
      Resumes w task r (.flushing f call settles rest)
        (mid.setTask task (.flushing f { call with stage } settles rest))
  | flushed {f : Flush} {call : Call} {settles : Bool} {rest : List Intent} :
      Resumes w task r (.flushing f call settles rest)
        (({ w with gate := w.gate.delete call.id }.settle settles
          (.resolved call.output.operationId)).continueFlush task f rest)
  | flushThrown {f : Flush} {call : Call} {settles : Bool} {rest : List Intent}
      (hfailed : (exists error, r = .rejected error) ∨ call.stage.failed = true) :
      Resumes w task r (.flushing f call settles rest)
        ((w.settle settles (.rejected call.output.operationId)).throwFlush task f call.id
          (.publish call.output.operationId))
  | refused {f : Flush} {id : IntentId} {failure : FlushFailure} {upTo : Nat} :
      Resumes w task r (.refusing f id failure upTo) (w.resumeRefusal task f id failure)
  | recovering {env : Env} {call : Call} {rest : List Intent} {mid : World} {stage : Stage}
      (hcall : CallStep w call r mid (.suspended stage)) :
      Resumes w task r (.recovering env call rest)
        (mid.setTask task (.recovering env { call with stage } rest))
  | recovered {env : Env} {call : Call} {rest : List Intent} {upTo : Nat}
      (hstage : call.stage = .deleted upTo) (hdurable : upTo ≤ w.durable) :
      Resumes w task r (.recovering env call rest) (w.continueRecovery task env rest)
  | recoveryFailed {env : Env} {call : Call} {rest : List Intent} :
      Resumes w task r (.recovering env call rest) w.crash
  | recoveryRefused {upTo : Nat} : Resumes w task r (.recoveryRefusing upTo) w.crash

theorem resumes_of_resume {r : Response} (hresume : w.resume task r = some w') :
    w.resting = true ∧ exists t, w.tasks.find? task = some ⟨task, t⟩ ∧ Resumes w task r t w' := by
  unfold World.resume at hresume
  split at hresume
  · rename_i hresting
    rcases bind_eq_some_iff.mp hresume with ⟨⟨id, t⟩, hfind, hstep⟩
    have hid : id = task := key_of_find? hfind
    subst hid
    refine ⟨hresting, t, hfind, ?_⟩
    cases t with
    | direct call =>
      rcases map_eq_some_iff.mp hstep with ⟨⟨mid, progress⟩, hmid, heq⟩
      subst heq
      have hcall := callStep_of_resumeCall hmid
      cases progress with
      | suspended stage => exact Resumes.direct hcall
      | returned | thrown error =>
        cases hcall
        exact Resumes.directEnded
    | flushing f call settles rest =>
      rcases map_eq_some_iff.mp hstep with ⟨⟨mid, progress⟩, hmid, heq⟩
      subst heq
      have hcall := callStep_of_resumeCall hmid
      cases progress with
      | suspended stage => exact Resumes.flushing hmid
      | returned =>
        cases hcall
        cases settles with
        | true | false => exact Resumes.flushed
      | thrown error =>
        cases hcall with
        | thrown hfailed => exact Resumes.flushThrown hfailed
    | recovering env call rest =>
      rcases map_eq_some_iff.mp hstep with ⟨⟨_, progress⟩, hmid, heq⟩
      subst heq
      have hcall := callStep_of_resumeCall hmid
      cases progress with
      | suspended stage => exact Resumes.recovering hcall
      | returned =>
        cases hcall with
        | returned hstage hdurable => exact Resumes.recovered hstage hdurable
      | thrown error =>
        cases hcall
        exact Resumes.recoveryFailed
    | restaging f upTo =>
      dsimp only at hstep
      split at hstep <;> cases hstep
      exact Resumes.restaged
    | refusing f id failure upTo =>
      dsimp only at hstep
      split at hstep <;> cases hstep
      exact Resumes.refused
    | recoveryRefusing upTo =>
      dsimp only at hstep
      split at hstep <;> cases hstep
      exact Resumes.recoveryRefused
  · cases hresume

/-! ## Actions -/

/-- What the native transaction of a `transactionSync` leaves. -/
inductive Ended (w : World) (savepoint : Storage) : Bool -> Storage -> Nat -> Prop where
  | commit : Ended w savepoint true w.storage w.written
  | rollback : Ended w savepoint false savepoint (w.written + 1)

namespace World

def popped (w : World) (s : Storage) (written : Nat) (savepoints : List Storage)
    (gate : DoOutputGate) : World :=
  World.record { w with storage := s, written, savepoints, gate }
    (rejections (w.gate.dropped s))

def closed (w : World) (storage : Storage) (written : Nat) (pending : Table Staged.id) : World :=
  { w with storage, written, gate := { w.gate with transaction := none, pending }, native := .idle }

def Settlement.native : Settlement -> Native
  | .commit => .settled .committed
  | .rollback => .settled .explicitRollback
  | .fail => .settled .failed
  | .retry => .acquired true

end World

inductive Acquires (w : World) (caller : CallerId) : World -> Prop where
  | take (hclosed : w.gate.transaction = none) :
      Acquires w caller { w with
        gate := { w.gate with transaction := some .async }
        native := .acquired false
        own := [] }
  | wait (hasync : w.gate.transaction = some .async) :
      Acquires w caller { w with
        gate := { w.gate with asyncWaiters := w.gate.asyncWaiters ++ [caller] } }

inductive Step (w : World) : Action -> World -> Prop where
  | persist (hresting : w.resting = true) :
      Step w .persist { w with disk := w.storage, durable := w.written }
  | deliver {operationId : OperationId} (hsent : w.log.any (isSent operationId) = true)
      (hnew : ¬ operationId ∈ w.applied) :
      Step w (.deliver operationId) { w with applied := w.applied ++ [operationId] }
  | crash : Step w .crash w.crash
  | boot {task : TaskId} {env : Env} (hdown : w.status = .down) :
      Step w (.boot task env) ({ w with status := .recovering, boots := w.boots + 1
        }.continueRecovery task env w.storage.ordered)
  | resume {task : TaskId} {r : Response} {t : Task} {w' : World} (hresting : w.resting = true)
      (hfind : w.tasks.find? task = some ⟨task, t⟩) (hresumes : Resumes w task r t w') :
      Step w (.resume task r) w'
  | direct {task : TaskId} {output : Output} {finalize : Bool} {nowMs : Millis} {id : IntentId}
      {s : Storage} {scheduled : Table Output.operationId} (hlive : w.status = .live)
      (hscheduled : w.scheduled.insert? output = some scheduled)
      (hinsert : w.storage.insertIntent output nowMs = some (id, s))
      (hclosed : w.gate.transaction = none) (hfresh : ¬ task ∈ w.tasks.keys) :
      Step w (.schedule task output finalize nowMs) (World.setTask { w.write s with scheduled }
        task (.direct ⟨id, output, finalize, .committing (w.written + 1)⟩))
  | staged {task : TaskId} {output : Output} {finalize : Bool} {nowMs : Millis} {id : IntentId}
      {s : Storage} {scheduled : Table Output.operationId} {mode : Mode} (hlive : w.status = .live)
      (hscheduled : w.scheduled.insert? output = some scheduled)
      (hinsert : w.storage.insertIntent output nowMs = some (id, s))
      (hopen : w.gate.transaction = some mode) :
      Step w (.schedule task output finalize nowMs) { w.write s with
        scheduled
        gate := w.gate.set ⟨id, ⟨output, finalize, mode = .sync⟩⟩
        own := w.own ++ [output.operationId] }
  | enterSync {depth : Nat} {own : List OperationId} (hlive : w.status = .live)
      (hdepth : (w.gate.transaction = none ∧ depth = 1 ∧ own = []) ∨
        (w.gate.transaction = some .sync ∧ depth = w.gate.syncDepth + 1 ∧ own = w.own)) :
      Step w .enterSync { w with
        gate := { w.gate with transaction := some .sync, syncDepth := depth }
        own
        savepoints := w.storage :: w.savepoints }
  | popSync {task : TaskId} {commit : Bool} {savepoint s : Storage} {savepoints : List Storage}
      {written : Nat} (hsync : w.gate.transaction = some .sync)
      (hsavepoints : w.savepoints = savepoint :: savepoints)
      (hended : Ended w savepoint commit s written) (hinner : 0 < w.gate.syncDepth - 1) :
      Step w (.exitSync task commit) (w.popped s written savepoints
        { w.gate.retain s with syncDepth := w.gate.syncDepth - 1 })
  | exitSync {task : TaskId} {commit : Bool} {savepoint s : Storage} {savepoints : List Storage}
      {written : Nat} (hsync : w.gate.transaction = some .sync)
      (hsavepoints : w.savepoints = savepoint :: savepoints)
      (hended : Ended w savepoint commit s written) (houter : ¬ 0 < w.gate.syncDepth - 1)
      (hfresh : ¬ task ∈ w.tasks.keys) :
      Step w (.exitSync task commit) ((w.popped s written savepoints
        { w.gate.retain s with transaction := none, syncDepth := 0
        }).wakeAsyncWaiter.continueFlush task ⟨w.own, true⟩ s.ordered)
  | acquire {caller : CallerId} {w' : World} (hlive : w.status = .live)
      (hacquires : Acquires w caller w') : Step w (.acquire caller) w'
  | reacquire {caller : CallerId} {w' : World} (hwoken : caller ∈ w.woken)
      (hacquires : Acquires { w with woken := w.woken.erase caller } caller w') :
      Step w (.reacquire caller) w'
  | beginAttempt {started : Bool} (hnative : w.native = .acquired started) :
      Step w .beginAttempt { w with
        native := .attempt w.storage
        own := if started then [] else w.own
        gate := if started then w.gate.clear else w.gate }
  | commitAttempt {savepoint : Storage} (hnative : w.native = .attempt savepoint) :
      Step w (.settleAttempt .commit) { w with native := .settled .committed }
  | rollBack {savepoint : Storage} {settlement : World.Settlement}
      (hnative : w.native = .attempt savepoint) (hcommit : settlement ≠ .commit) :
      Step w (.settleAttempt settlement) { w.write savepoint with native := settlement.native }
  | abandon (hnative : w.native = .acquired true) :
      Step w .abandon { w with native := .settled .failed }
  | exitFailed {task : TaskId} {nowMs : Millis} (hnative : w.native = .settled .failed) :
      Step w (.exitTransaction task nowMs)
        (w.closed w.storage w.written Table.empty).wakeAsyncWaiter
  | unrestaged {task : TaskId} {nowMs : Millis} (hnative : w.native = .settled .explicitRollback)
      (hrestage : restage nowMs w.storage w.gate = none) :
      Step w (.exitTransaction task nowMs)
        (w.closed w.storage w.written w.gate.pending).wakeAsyncWaiter
  | restaged {task : TaskId} {nowMs : Millis} {s : Storage} {pending : Table Staged.id}
      (hnative : w.native = .settled .explicitRollback)
      (hrestage : restage nowMs w.storage w.gate = some (s, pending))
      (hfresh : ¬ task ∈ w.tasks.keys) :
      Step w (.exitTransaction task nowMs) ((w.closed s (w.written + 1) pending).setTask task
        (.restaging ⟨w.own, false⟩ (w.written + 1)))
  | exitCommitted {task : TaskId} {nowMs : Millis} (hnative : w.native = .settled .committed)
      (hfresh : ¬ task ∈ w.tasks.keys) :
      Step w (.exitTransaction task nowMs) ((w.closed w.storage w.written
        w.gate.pending).continueFlush task ⟨w.own, false⟩ w.storage.ordered)

theorem acquires_of_acquire {caller : CallerId} (hacquire : w.acquire caller = some w') :
    Acquires w caller w' := by
  unfold World.acquire at hacquire
  split at hacquire
  · cases hacquire
  · cases hacquire
    exact Acquires.wait ‹_›
  · cases hacquire
    exact Acquires.take ‹_›

theorem step_enterSync (hlive : w.status = .live) (henter : w.enterSync = some w') :
    Step w .enterSync w' := by
  unfold World.enterSync DoOutputGate.enterTransaction at henter
  rcases map_eq_some_iff.mp henter with ⟨_, hgate, heq⟩
  subst heq
  split at hgate
  · rename_i hsync _
    cases hgate
    rw [hsync]
    exact Step.enterSync hlive (.inr ⟨hsync, rfl, rfl⟩)
  · rename_i hclosed _
    cases hgate
    rw [if_pos hclosed]
    exact Step.enterSync hlive (.inl ⟨hclosed, rfl, rfl⟩)
  · rename_i hsync
    cases hsync
  · cases hgate

theorem step_exitSync {commit : Bool} (hexit : w.exitSync task commit = some w') :
    Step w (.exitSync task commit) w' := by
  unfold World.exitSync at hexit
  split at hexit
  · rename_i savepoint savepoints hsync hsavepoints
    have hended : exists s written, (if commit then w else w.write savepoint) =
        { w with storage := s, written } ∧ Ended w savepoint commit s written := by
      cases commit with
      | true => exact ⟨_, _, rfl, Ended.commit⟩
      | false => exact ⟨_, _, rfl, Ended.rollback⟩
    rcases hended with ⟨_, _, heq, hended⟩
    rw [heq] at hexit
    split at hexit
    · cases hexit
      exact Step.popSync hsync hsavepoints hended ‹_›
    · split at hexit <;> cases hexit
      exact Step.exitSync hsync hsavepoints hended ‹_› ‹_›
  · cases hexit

theorem step_settleAttempt {settlement : World.Settlement}
    (hsettle : w.settleAttempt settlement = some w') : Step w (.settleAttempt settlement) w' := by
  unfold World.settleAttempt at hsettle
  split at hsettle
  · cases settlement with
    | commit =>
      cases hsettle
      exact Step.commitAttempt ‹_›
    | rollback | fail | retry =>
      cases hsettle
      exact Step.rollBack ‹_› nofun
  · cases hsettle

theorem step_exitTransaction {nowMs : Millis} (hexit : w.exitTransaction task nowMs = some w') :
    Step w (.exitTransaction task nowMs) w' := by
  unfold World.exitTransaction at hexit
  split at hexit
  · rename_i hnative
    split at hexit
    · cases hexit
    · split at hexit
      · cases hexit
        exact Step.exitFailed hnative
      · split at hexit
        · cases hexit
          exact Step.unrestaged hnative ‹_›
        · cases hexit
          exact Step.restaged hnative ‹_› ‹_›
      · cases hexit
        exact Step.exitCommitted hnative ‹_›
  · cases hexit

theorem step_of_next {a : Action} (hnext : next w a = some w') : Step w a w' := by
  cases a with
  | persist =>
    rcases ite_none_right_eq_some.mp hnext with ⟨hresting, heq⟩
    cases heq
    exact Step.persist hresting
  | deliver operationId =>
    rcases ite_none_right_eq_some.mp hnext with ⟨⟨hsent, hnew⟩, heq⟩
    cases heq
    exact Step.deliver hsent hnew
  | crash =>
    cases hnext
    exact Step.crash
  | boot task env =>
    rcases ite_none_right_eq_some.mp hnext with ⟨hdown, heq⟩
    cases heq
    exact Step.boot hdown
  | resume task r =>
    rcases resumes_of_resume hnext with ⟨hresting, _, hfind, hresumes⟩
    exact Step.resume hresting hfind hresumes
  | schedule task output finalize nowMs =>
    rcases ite_none_right_eq_some.mp hnext with ⟨hlive, hnext⟩
    unfold World.schedule at hnext
    split at hnext
    · rcases bind_eq_some_iff.mp hnext with ⟨_, hscheduled, hnext⟩
      rcases bind_eq_some_iff.mp hnext with ⟨⟨_, _⟩, hinsert, hnext⟩
      dsimp only [World.write] at hnext
      split at hnext
      · cases hnext
        exact Step.staged hlive hscheduled hinsert ‹_›
      · split at hnext <;> cases hnext
        exact Step.direct hlive hscheduled hinsert ‹_› ‹_›
    · cases hnext
  | enterSync =>
    rcases ite_none_right_eq_some.mp hnext with ⟨hlive, hnext⟩
    exact step_enterSync hlive hnext
  | exitSync task commit => exact step_exitSync hnext
  | acquire caller =>
    rcases ite_none_right_eq_some.mp hnext with ⟨hlive, hnext⟩
    exact Step.acquire hlive (acquires_of_acquire hnext)
  | reacquire caller =>
    rcases ite_none_right_eq_some.mp hnext with ⟨hwoken, hnext⟩
    exact Step.reacquire hwoken (acquires_of_acquire hnext)
  | beginAttempt =>
    change w.beginAttempt = some w' at hnext
    unfold World.beginAttempt at hnext
    split at hnext <;> cases hnext
    exact Step.beginAttempt ‹_›
  | settleAttempt settlement => exact step_settleAttempt hnext
  | abandon =>
    change w.abandon = some w' at hnext
    unfold World.abandon at hnext
    split at hnext <;> cases hnext
    exact Step.abandon ‹_›
  | exitTransaction task nowMs => exact step_exitTransaction hnext

end OutputGate
end OpenCompute
