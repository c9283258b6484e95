import OpenCompute.Platform
import OpenCompute.Relational.Table
import OpenCompute.Transition.Run

/-!
# The output gate of a Durable Object

A Queue or Workflow call inside a Durable Object is first written to a table of
intents in the storage of the object and then sent to its publisher.  A call
outside a transaction is sent at once.  A call inside a transaction is kept in
the map of pending outputs until the transaction settles, and a flush sends what
the transaction has left in the table.

Every `await` of the source is a suspension.  A computation that is suspended is
a task, and the steps of different tasks interleave.
-/

namespace OpenCompute
namespace OutputGate

open Relational Table

abbrev OperationId := Uuid

abbrev IntentId := Nat

abbrev Payload := List UInt8

/-! ## The intent table -/

structure Output where
  kind : String
  publisherName : String
  payload : Payload
  operationId : OperationId
deriving DecidableEq

inductive IntentState where
  | pending
  | published
deriving DecidableEq

/-- A row of `__open_compute_do_output`. -/
structure Intent where
  id : IntentId
  output : Output
  state : IntentState
  createdAtMs : Millis
  attemptCount : Nat
  lastError : Option String
deriving DecidableEq

def Intent.operationId (row : Intent) : OperationId := row.output.operationId

/-- The table and the last id that `AUTOINCREMENT` gave.  The sequence is a table of the
same database, so that a rollback takes it back as well. -/
structure Storage where
  intents : Table Intent.id
  sequence : Nat
  ids_le : forall row, row ∈ intents -> row.id ≤ sequence
  operations_nodup : (intents.rows.map Intent.operationId).Nodup
deriving DecidableEq

namespace Storage

def empty : Storage where
  intents := Table.empty
  sequence := 0
  ids_le := forall_mem_empty
  operations_nodup := List.nodup_nil

instance : Membership Intent Storage where
  mem s row := row ∈ s.intents

def operations (s : Storage) : List OperationId := s.intents.rows.map Intent.operationId

/-- `INSERT … RETURNING id`.  The operation id is `UNIQUE`. -/
def insertIntent (s : Storage) (output : Output) (nowMs : Millis) :
    Option (IntentId × Storage) :=
  if hused : output.operationId ∈ s.operations then
    none
  else
    some (s.sequence + 1, {
      intents := ⟨s.intents.rows ++ [⟨s.sequence + 1, output, .pending, nowMs, 0, none⟩], by
        rw [List.map_append, List.map_singleton]
        refine List.Nodup.append s.intents.nodup (List.nodup_singleton _) ?_
        rw [List.disjoint_singleton]
        intro hid
        rcases List.mem_map.mp hid with ⟨row, hrow, hkey⟩
        have hle := s.ids_le row hrow
        rw [hkey] at hle
        exact Nat.not_succ_le_self s.sequence hle⟩
      sequence := s.sequence + 1
      ids_le := by
        intro row hrow
        rcases List.mem_append.mp hrow with hold | hnew
        · exact Nat.le_succ_of_le (s.ids_le row hold)
        · rw [List.mem_singleton.mp hnew]
      operations_nodup := by
        rw [List.map_append, List.map_singleton]
        refine List.Nodup.append s.operations_nodup (List.nodup_singleton _) ?_
        rw [List.disjoint_singleton]
        exact hused })

def update (s : Storage) (id : IntentId) (f : Intent -> Intent)
    (hid : forall row, (f row).id = row.id) (houtput : forall row, (f row).output = row.output) :
    Storage where
  intents := s.intents.modify id f hid
  sequence := s.sequence
  ids_le := by
    intro row hrow
    rcases (mem_modify hid).mp hrow with ⟨hold, _⟩ | ⟨old, hold, _, rfl⟩
    · exact s.ids_le row hold
    · rw [hid]
      exact s.ids_le old hold
  operations_nodup := by
    have hkeys : forall row, row ∈ s.intents.rows ->
        (Intent.operationId ∘ fun row => if row.id = id then f row else row) row =
          row.operationId := by
      intro row _
      simp only [Function.comp_apply, Intent.operationId]
      split
      · rw [houtput]
      · rfl
    change ((s.intents.rows.map _).map Intent.operationId).Nodup
    rw [List.map_map, List.map_congr_left hkeys]
    exact s.operations_nodup

def markFailure (s : Storage) (id : IntentId) (code : String) : Storage :=
  s.update id (fun row => { row with
    attemptCount := row.attemptCount + 1
    lastError := some code }) (fun _ => rfl) (fun _ => rfl)

def markPublished (s : Storage) (id : IntentId) : Storage :=
  s.update id (fun row => { row with state := .published, lastError := none })
    (fun _ => rfl) (fun _ => rfl)

def delete (s : Storage) (id : IntentId) : Storage where
  intents := s.intents.erase id
  sequence := s.sequence
  ids_le := fun row hrow => s.ids_le row (mem_erase.mp hrow).left
  operations_nodup := by
    have hsub : ((s.intents.erase id).rows.map Intent.operationId).Sublist
        (s.intents.rows.map Intent.operationId) :=
      List.Sublist.map Intent.operationId List.filter_sublist
    exact hsub.nodup s.operations_nodup

/-- The rows by `ORDER BY id`. -/
def ordered (s : Storage) : List Intent :=
  s.intents.rows.insertionSort fun r q => r.id ≤ q.id

end Storage

/-! ## The gate -/

inductive Mode where
  | async
  | sync
deriving DecidableEq

inductive TransactionOutcome where
  | committed
  | explicitRollback
  | failed
deriving DecidableEq

/-- The closures of an output are known by its data.  `finalize` and `settles` say whether
there are a finalizer and a promise to settle. -/
structure PendingOutput where
  output : Output
  finalize : Bool
  settles : Bool
deriving DecidableEq

structure Staged where
  id : IntentId
  pending : PendingOutput
deriving DecidableEq

abbrev CallerId := Nat

structure DoOutputGate where
  transaction : Option Mode
  syncDepth : Nat
  pending : Table Staged.id
  asyncWaiters : List CallerId

namespace DoOutputGate

def new : DoOutputGate := ⟨none, 0, Table.empty, []⟩

def enterTransaction (gate : DoOutputGate) (sync : Bool) : Option DoOutputGate :=
  match gate.transaction, sync with
  | some .sync, true => some { gate with syncDepth := gate.syncDepth + 1 }
  | none, true => some { gate with transaction := some .sync, syncDepth := 1 }
  | none, false => some { gate with transaction := some .async, syncDepth := 0 }
  | _, _ => none

def set (gate : DoOutputGate) (staged : Staged) : DoOutputGate :=
  { gate with pending := gate.pending.put staged }

def delete (gate : DoOutputGate) (id : IntentId) : DoOutputGate :=
  { gate with pending := gate.pending.erase id }

def clear (gate : DoOutputGate) : DoOutputGate :=
  { gate with pending := Table.empty }

def retain (gate : DoOutputGate) (s : Storage) : DoOutputGate :=
  { gate with pending := gate.pending.filter fun staged => s.intents.keys.contains staged.id }

def dropped (gate : DoOutputGate) (s : Storage) : List Staged :=
  gate.pending.rows.filter fun staged => !s.intents.keys.contains staged.id

end DoOutputGate

/-- The loop of `#restageRolledBack`: every output gets a row of its own again. -/
def restageLoop (nowMs : Millis) (state : Storage × Table Staged.id) (item : PendingOutput) :
    Option (Storage × Table Staged.id) :=
  (state.1.insertIntent item.output nowMs).map fun inserted =>
    (inserted.2, state.2.put ⟨inserted.1, item⟩)

def restage (nowMs : Millis) (s : Storage) (gate : DoOutputGate) :
    Option (Storage × Table Staged.id) :=
  (gate.pending.rows.map Staged.pending).foldlM (restageLoop nowMs) (s, Table.empty)

/-! ## Texts -/

def recoveryRequired : String := "DO_OUTPUT_GATE_RECOVERY_REQUIRED"

def unpublishable : String := "DO_OUTPUT_GATE_UNPUBLISHABLE"

/-- `INTENT_TOKEN`: `/^[A-Za-z_$][A-Za-z0-9_$-]{0,127}$/`. -/
def intentToken (text : String) : Bool :=
  match text.toList with
  | [] => false
  | c :: cs =>
    (c.isAlpha || c == '_' || c == '$') && decide (cs.length ≤ 127) &&
      cs.all fun d => d.isAlphanum || d == '_' || d == '$' || d == '-'

/-- `ERROR_CODE`: `/^[A-Z][A-Z0-9_]{0,127}$/`. -/
def errorCode (text : String) : Bool :=
  match text.toList with
  | [] => false
  | c :: cs =>
    c.isUpper && decide (cs.length ≤ 127) && cs.all fun d => d.isUpper || d.isDigit || d == '_'

/-- An error is known by its `stableCode`, if it has one. -/
def stableCode (error : Option String) (fallback : String) : String :=
  match error with
  | some code => if errorCode code then code else fallback
  | none => fallback

/-! ## Suspended computations -/

/-- Where a publication waits.  A `sync` is over when the writes before it are on the
disk, and `upTo` is the number of these writes. -/
inductive Stage where
  /-- The row was inserted, and `#schedule` awaits the `sync`. -/
  | committing (upTo : Nat)
  /-- `#publish` awaits `run()`. -/
  | sending
  /-- The row was marked, and `#publish` awaits the `sync`. -/
  | marked (upTo : Nat)
  /-- `#finalize` awaits `finalize()`, inside of `#publish` or not. -/
  | finalizing (nested : Bool)
  /-- The row was deleted, and the last `sync` is awaited. -/
  | deleted (upTo : Nat)
  /-- `#finalize` has noted a failure. -/
  | finalizeFailed (nested : Bool) (code : String) (upTo : Nat)
  /-- `#publish` has noted a failure. -/
  | publishFailed (code : String) (upTo : Nat)
deriving DecidableEq

structure Call where
  id : IntentId
  output : Output
  finalize : Bool
  stage : Stage
deriving DecidableEq

inductive Progress where
  | suspended (stage : Stage)
  | returned
  | thrown (error : Option String)
deriving DecidableEq

inductive Response where
  | synced
  | fulfilled
  | rejected (stableCode : Option String)
deriving DecidableEq

/-- Which exit a flush belongs to: the intents that were scheduled inside the transaction,
and whether the transaction was a synchronous one, which does not wait for its flush. -/
structure Flush where
  own : List OperationId
  background : Bool
deriving DecidableEq

inductive FlushFailure where
  | recoveryRequired
  | unpublishable (operationId : OperationId) (settles : Bool)
  | publish (operationId : OperationId)
deriving DecidableEq

/-- The publishers that recovery finds, and which of them have a finalizer. -/
abbrev Env := List (String × Bool)

inductive Task where
  | direct (call : Call)
  | restaging (flush : Flush) (upTo : Nat)
  | flushing (flush : Flush) (call : Call) (settles : Bool) (rest : List Intent)
  | refusing (flush : Flush) (id : IntentId) (failure : FlushFailure) (upTo : Nat)
  | recovering (env : Env) (call : Call) (rest : List Intent)
  | recoveryRefusing (upTo : Nat)
deriving DecidableEq

abbrev TaskId := Nat

structure Running where
  id : TaskId
  task : Task
deriving DecidableEq

end OutputGate
end OpenCompute
