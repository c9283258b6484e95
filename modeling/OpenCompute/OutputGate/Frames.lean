import OpenCompute.OutputGate.Steps

/-!
# What a step leaves of the rows

The parts of a step, each with what it does to the rows, the pending outputs and
the log.  A publication that is suspended keeps the id of its row, so the main
fact is that no step gives a row that a publication can know another output.
-/

namespace OpenCompute
namespace OutputGate

open Relational Table List

variable {f : Intent -> Intent} {id : IntentId}

/-! ## The storage -/

namespace Storage

variable {s t : Storage} {row : Intent} {id : IntentId} {output : Output} {nowMs : Millis}

theorem insertIntent_eq_some (hinsert : s.insertIntent output nowMs = some (id, t)) :
    id = s.sequence + 1 ∧ t.sequence = s.sequence + 1 ∧
      t.intents.rows = s.intents.rows ++ [⟨s.sequence + 1, output, .pending, nowMs, 0, none⟩] := by
  unfold insertIntent at hinsert
  split at hinsert <;> cases hinsert
  exact ⟨rfl, rfl, rfl⟩

theorem mem_of_insertIntent (hinsert : s.insertIntent output nowMs = some (id, t)) :
    row ∈ t ↔ row ∈ s ∨ row = ⟨s.sequence + 1, output, .pending, nowMs, 0, none⟩ := by
  change row ∈ t.intents.rows ↔ _
  rw [(insertIntent_eq_some hinsert).right.right, mem_append, mem_singleton]
  exact Iff.rfl

theorem exists_insertIntent (nowMs : Millis) (hfresh : ¬ output.operationId ∈ s.operations) :
    exists inserted, s.insertIntent output nowMs = some inserted := by
  unfold insertIntent
  rw [dif_neg hfresh]
  exact ⟨_, rfl⟩

theorem mem_operations {operationId : OperationId} :
    operationId ∈ s.operations ↔ exists row, row ∈ s ∧ row.operationId = operationId :=
  mem_map

theorem mem_update (hid : forall row, (f row).id = row.id)
    (houtput : forall row, (f row).output = row.output) : row ∈ s.update id f hid houtput ↔
      (row ∈ s ∧ row.id ≠ id) ∨ exists old, old ∈ s ∧ old.id = id ∧ row = f old :=
  mem_modify hid

theorem exists_of_mem_update {hid : forall row, (f row).id = row.id}
    {houtput : forall row, (f row).output = row.output} (hrow : row ∈ s.update id f hid houtput) :
    exists old, old ∈ s ∧ old.id = row.id ∧ old.output = row.output ∧
      (row = old ∨ (old.id = id ∧ row = f old)) := by
  rcases (mem_update hid houtput).mp hrow with ⟨hold, _⟩ | ⟨old, hold, heq, rfl⟩
  · exact ⟨row, hold, rfl, rfl, .inl rfl⟩
  · exact ⟨old, hold, (hid old).symm, (houtput old).symm, .inr ⟨heq, rfl⟩⟩

theorem mem_delete : row ∈ s.delete id ↔ row ∈ s ∧ row.id ≠ id := mem_erase

theorem mem_ordered : row ∈ s.ordered ↔ row ∈ s := mem_insertionSort _

theorem ordered_pairwise (s : Storage) : s.ordered.Pairwise fun r q => r.id < q.id := by
  have hle : s.ordered.Pairwise fun r q => r.id ≤ q.id := pairwise_insertionSort _ _
  have hnodup : (s.ordered.map Intent.id).Nodup :=
    (((perm_insertionSort _ _).map Intent.id).nodup_iff).mpr s.intents.nodup
  have hne : s.ordered.Pairwise fun r q => r.id ≠ q.id := pairwise_map.mp hnodup
  refine (hle.and hne).imp ?_
  intro r q h
  exact Nat.lt_of_le_of_ne h.left h.right

structure Extends (s t : Storage) : Prop where
  rows : forall row, row ∈ s -> row ∈ t
  sequence : s.sequence ≤ t.sequence

theorem Extends.refl (s : Storage) : Extends s s := ⟨fun _ h => h, Nat.le_refl _⟩

theorem Extends.trans {u : Storage} (hst : Extends s t) (htu : Extends t u) : Extends s u :=
  ⟨fun row h => htu.rows row (hst.rows row h), Nat.le_trans hst.sequence htu.sequence⟩

theorem extends_insertIntent (hinsert : s.insertIntent output nowMs = some (id, t)) :
    Extends s t := by
  constructor
  · intro row hrow
    exact (mem_of_insertIntent hinsert).mpr (.inl hrow)
  · rw [(insertIntent_eq_some hinsert).right.left]
    exact Nat.le_succ _

end Storage

/-! ## The state that a rollback of everything leaves -/

variable {w : World}

def World.base (w : World) : Storage :=
  match w.native with
  | .attempt savepoint => savepoint
  | _ => w.savepoints.getLast?.getD w.storage

theorem resting_iff :
    w.resting = true ↔ w.savepoints = [] ∧ forall savepoint, w.native ≠ .attempt savepoint := by
  unfold World.resting
  cases w.native <;> simp

theorem base_of_resting (hresting : w.resting = true) : w.base = w.storage := by
  rcases resting_iff.mp hresting with ⟨hsavepoints, hnative⟩
  unfold World.base
  rw [hsavepoints]
  cases h : w.native with
  | attempt savepoint => exact absurd h (hnative savepoint)
  | idle | acquired started | settled outcome => rfl

def Acknowledged (w : World) (operationId : OperationId) : Prop :=
  Event.acknowledged operationId ∈ w.log

def Marked (w : World) (operationId : OperationId) : Prop :=
  Event.marked operationId ∈ w.log

/-- What suspended computations may rely on. -/
structure Later (w w' : World) : Prop where
  scheduled : forall output, output ∈ w.scheduled -> output ∈ w'.scheduled
  log : forall event, event ∈ w.log -> event ∈ w'.log
  sequence : w.base.sequence ≤ w'.base.sequence
  rows : forall row, row ∈ w'.storage -> row.id ≤ w.base.sequence ->
    exists old, old ∈ w.storage ∧ old.id = row.id ∧ old.output = row.output
  pending : forall staged, staged ∈ w'.gate.pending -> staged.id ≤ w.base.sequence ->
    staged ∈ w.gate.pending

theorem Later.refl (w : World) : Later w w where
  scheduled := fun _ h => h
  log := fun _ h => h
  sequence := Nat.le_refl _
  rows := fun row h _ => ⟨row, h, rfl, rfl⟩
  pending := fun _ h _ => h

theorem Later.trans {u v : World} (huv : Later u v) (hvw : Later v w) : Later u w where
  scheduled := fun output h => hvw.scheduled output (huv.scheduled output h)
  log := fun event h => hvw.log event (huv.log event h)
  sequence := Nat.le_trans huv.sequence hvw.sequence
  rows := by
    intro row hrow hle
    rcases hvw.rows row hrow (Nat.le_trans hle huv.sequence) with ⟨mid, hmid, hid, houtput⟩
    rw [← hid] at hle
    rcases huv.rows mid hmid hle with ⟨old, hold, hid', houtput'⟩
    exact ⟨old, hold, hid'.trans hid, houtput'.trans houtput⟩
  pending := by
    intro staged hstaged hle
    exact huv.pending staged (hvw.pending staged hstaged (Nat.le_trans hle huv.sequence)) hle

/-! ## Soundness of the parts -/

/-- A row, in the storage or in a copy of it. -/
structure RowSound (w : World) (row : Intent) : Prop where
  scheduled : row.output ∈ w.scheduled
  published : row.state = .published -> Acknowledged w row.operationId ∧ Marked w row.operationId

def StageSound (w : World) (operationId : OperationId) : Stage -> Prop
  | .committing _ => True
  | .sending => True
  | .marked _ => Acknowledged w operationId ∧ Marked w operationId
  | .finalizing _ => Acknowledged w operationId ∧ Marked w operationId
  | .deleted _ => Acknowledged w operationId
  | .finalizeFailed _ _ _ => True
  | .publishFailed _ _ => True

/-- A publication and the row that has its id are about one output. -/
structure CallSound (w : World) (call : Call) : Prop where
  scheduled : call.output ∈ w.scheduled
  id_le : call.id ≤ w.base.sequence
  stored : forall row, row ∈ w.storage -> row.id = call.id -> row.output = call.output
  stage : StageSound w call.output.operationId call.stage

structure SelectedSound (w : World) (row : Intent) : Prop extends RowSound w row where
  id_le : row.id ≤ w.base.sequence
  stored : forall other, other ∈ w.storage -> other.id = row.id -> other.output = row.output
  pending : forall staged, staged ∈ w.gate.pending -> staged.id = row.id ->
    staged.pending.output = row.output

def TaskSound (w : World) : Task -> Prop
  | .direct call => CallSound w call
  | .restaging _ _ => True
  | .flushing _ call _ rest => CallSound w call ∧ forall row, row ∈ rest -> SelectedSound w row
  | .refusing _ _ _ _ => True
  | .recovering _ call rest => CallSound w call ∧ forall row, row ∈ rest -> SelectedSound w row
  | .recoveryRefusing _ => True

section Monotone

variable {w w' : World}

section

variable (hlater : Later w w')
include hlater

theorem RowSound.mono {row : Intent} (hrow : RowSound w row) : RowSound w' row := by
  refine ⟨hlater.scheduled _ hrow.scheduled, ?_⟩
  intro hpublished
  rcases hrow.published hpublished with ⟨hack, hmark⟩
  exact ⟨hlater.log _ hack, hlater.log _ hmark⟩

theorem StageSound.mono {operationId : OperationId} {stage : Stage}
    (hstage : StageSound w operationId stage) : StageSound w' operationId stage := by
  cases stage with
  | marked upTo | finalizing nested => exact ⟨hlater.log _ hstage.left, hlater.log _ hstage.right⟩
  | deleted upTo => exact hlater.log _ hstage
  | _ => trivial

theorem rows_mono {output : Output} (hle : id ≤ w.base.sequence)
    (hrow : forall row, row ∈ w.storage -> row.id = id -> row.output = output) :
    forall row, row ∈ w'.storage -> row.id = id -> row.output = output := by
  intro row hmem hid
  rw [← hid] at hle
  rcases hlater.rows row hmem hle with ⟨old, hold, hid', houtput⟩
  rw [← houtput]
  exact hrow old hold (hid'.trans hid)

theorem CallSound.mono {call : Call} (hcall : CallSound w call) : CallSound w' call where
  scheduled := hlater.scheduled _ hcall.scheduled
  id_le := Nat.le_trans hcall.id_le hlater.sequence
  stored := rows_mono hlater hcall.id_le hcall.stored
  stage := hcall.stage.mono hlater

theorem SelectedSound.mono {row : Intent} (hrow : SelectedSound w row) : SelectedSound w' row where
  toRowSound := hrow.toRowSound.mono hlater
  id_le := Nat.le_trans hrow.id_le hlater.sequence
  stored := rows_mono hlater hrow.id_le hrow.stored
  pending := by
    intro staged hstaged hid
    refine hrow.pending staged (hlater.pending staged hstaged ?_) hid
    rw [hid]
    exact hrow.id_le

theorem TaskSound.mono {task : Task} (htask : TaskSound w task) : TaskSound w' task := by
  cases task with
  | direct call => exact CallSound.mono hlater htask
  | flushing f call settles rest | recovering env call rest =>
    exact ⟨htask.left.mono hlater, fun row hrow => (htask.right row hrow).mono hlater⟩
  | _ => trivial

end

end Monotone

/-! ## The row of a publication -/

section Rows

variable {w w' : World}

structure Touched (w w' : World) (id : IntentId) : Prop where
  gate : w'.gate = w.gate
  native : w'.native = w.native
  own : w'.own = w.own
  tasks : w'.tasks = w.tasks
  log : forall event, event ∈ w.log -> event ∈ w'.log
  failures : forall f row failure, Event.flushFailed f row failure ∈ w'.log ->
    Event.flushFailed f row failure ∈ w.log
  operations : forall operationId, operationId ∈ w'.storage.operations ->
    operationId ∈ w.storage.operations
  rows : forall row, row ∈ w.storage -> row.id ≠ id -> row ∈ w'.storage

theorem touched_write {s : Storage}
    (hoperations : forall row, row ∈ s -> exists old, old ∈ w.storage ∧
      old.operationId = row.operationId)
    (hrows : forall row, row ∈ w.storage -> row.id ≠ id -> row ∈ s) : Touched w (w.write s) id where
  gate := rfl
  native := rfl
  own := rfl
  tasks := rfl
  log := fun _ h => h
  failures := fun _ _ _ h => h
  operations := by
    intro operationId h
    rcases Storage.mem_operations.mp h with ⟨row, hrow, hop⟩
    rcases hoperations row hrow with ⟨old, hold, heq⟩
    exact Storage.mem_operations.mpr ⟨old, hold, heq.trans hop⟩
  rows := hrows

theorem Touched.record {events : List Event} (htouched : Touched w w' id)
    (hevents : forall f row failure, ¬ Event.flushFailed f row failure ∈ events) :
    Touched w (w'.record events) id where
  gate := htouched.gate
  native := htouched.native
  own := htouched.own
  tasks := htouched.tasks
  log := fun event h => mem_append_left _ (htouched.log event h)
  failures := by
    intro f row failure h
    rcases mem_append.mp h with hold | hnew
    · exact htouched.failures f row failure hold
    · exact absurd hnew (hevents f row failure)
  operations := htouched.operations
  rows := htouched.rows

theorem touched_refl (w : World) (id : IntentId) : Touched w w id :=
  ⟨rfl, rfl, rfl, rfl, fun _ h => h, fun _ _ _ h => h, fun _ h => h, fun _ h _ => h⟩

theorem touched_update (w : World) (id : IntentId) (hid : forall row, (f row).id = row.id)
    (houtput : forall row, (f row).output = row.output) :
    Touched w (w.write (w.storage.update id f hid houtput)) id := by
  apply touched_write
  · intro row hrow
    rcases Storage.exists_of_mem_update hrow with ⟨old, hold, _, houtput, _⟩
    exact ⟨old, hold, congrArg Output.operationId houtput⟩
  · intro row hrow hne
    exact (Storage.mem_update hid houtput).mpr (.inl ⟨hrow, hne⟩)

theorem touched_delete (w : World) (id : IntentId) :
    Touched w (w.write (w.storage.delete id)) id := by
  apply touched_write
  · intro row hrow
    exact ⟨row, (Storage.mem_delete.mp hrow).left, rfl⟩
  · intro row hrow hne
    exact Storage.mem_delete.mpr ⟨hrow, hne⟩

theorem touched_of_callStep {call : Call} {r : Response} {progress : Progress}
    (hstep : CallStep w call r w' progress) : Touched w w' call.id := by
  cases hstep with
  | send hstage hdurable | finalize hstage hdurable =>
    exact (touched_refl w call.id).record (by simp)
  | mark hstage happlied hfinalize => exact (touched_update w call.id _ _).record (by simp)
  | remove hstage happlied hfinalize => exact (touched_delete w call.id).record (by simp)
  | retire hstage => exact touched_delete w call.id
  | note hfailed hstage => exact touched_update w call.id _ _
  | returned hstage hdurable | thrown hfailed => exact touched_refl w call.id

end Rows

end OutputGate
end OpenCompute
