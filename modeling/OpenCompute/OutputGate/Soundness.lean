import OpenCompute.OutputGate.Frames

/-!
# Rows, publications and the backend

The invariant behind recovery: whatever a computation is about to do to a row, it
does for the output of this row, a row leaves the table only after its output was
acknowledged, and a finalizer is called only after that and after the mark.
-/

namespace OpenCompute
namespace OutputGate

open Relational Table List

variable {s : Storage} {event : Event} {id : IntentId} {call : Call}

/-! ## The invariant -/

inductive Ordered : List Event -> Prop where
  | nil : Ordered []
  | snoc {log : List Event} {event : Event} (hlog : Ordered log)
      (hevent : forall operationId, event = .finalizing operationId ->
        Event.acknowledged operationId ∈ log ∧ Event.marked operationId ∈ log) :
      Ordered (log ++ [event])

theorem Ordered.before {log before after : List Event} {operationId : OperationId}
    (hlog : Ordered log) (heq : log = before ++ .finalizing operationId :: after) :
    Event.acknowledged operationId ∈ before ∧ Event.marked operationId ∈ before := by
  induction hlog generalizing after with
  | nil =>
    rw [eq_comm, append_eq_nil_iff] at heq
    cases heq.right
  | @snoc log event hlog hevent ih =>
    rcases eq_nil_or_concat after with rfl | ⟨_, _, rfl⟩
    · rcases append_inj' heq rfl with ⟨rfl, hlast⟩
      cases hlast
      exact hevent operationId rfl
    · rw [concat_eq_append, ← cons_append, ← append_assoc] at heq
      exact ih (append_inj' heq rfl).left

structure Outside (log : List Event) (applied : List OperationId)
    (scheduled : Table Output.operationId) : Prop where
  ordered : Ordered log
  nodup : applied.Nodup
  sent : forall operationId, operationId ∈ applied -> log.any (isSent operationId) = true
  applied : forall operationId, Event.acknowledged operationId ∈ log -> operationId ∈ applied
  scheduled : forall boot id output, Event.sent boot id output ∈ log -> output ∈ scheduled

/-- The pending outputs, and the rows that have their ids. -/
structure Staging (pending : Table Staged.id) (s : Storage)
    (scheduled : Table Output.operationId) : Prop where
  scheduled : forall staged, staged ∈ pending -> staged.pending.output ∈ scheduled
  nodup : (pending.rows.map fun staged => staged.pending.output.operationId).Nodup
  stored : forall staged row, staged ∈ pending -> row ∈ s -> row.id = staged.id ->
    row.output = staged.pending.output

/-- Every savepoint is what a later one has grown from. -/
def Nested : Storage -> List Storage -> Prop
  | _, [] => True
  | s, savepoint :: savepoints => Storage.Extends savepoint s ∧ Nested savepoint savepoints

def Shape (w : World) : Prop :=
  match w.gate.transaction with
  | none => w.native = .idle ∧ w.savepoints = []
  | some .async => w.native ≠ .idle ∧ w.savepoints = []
  | some .sync => w.native = .idle ∧ w.savepoints ≠ [] ∧ w.gate.syncDepth = w.savepoints.length

/-- The rows of the staged outputs were rolled back, and the outputs are still staged. -/
def Stale : Native -> Prop
  | .acquired started => started = true
  | .settled .explicitRollback => True
  | .settled .failed => True
  | _ => False

/-- The operation has a row that no rollback takes away, or was acknowledged. -/
def Kept (w : World) (operationId : OperationId) : Prop :=
  (exists row, row ∈ w.base ∧ row.operationId = operationId) ∨ Acknowledged w operationId

structure Sound (w : World) : Prop where
  shape : Shape w
  nested : Nested w.storage w.savepoints
  attempt : forall savepoint, w.native = .attempt savepoint -> Storage.Extends savepoint w.storage
  outside : Outside w.log w.applied w.scheduled
  staging : Staging w.gate.pending w.storage w.scheduled
  fresh : ¬ Stale w.native -> forall staged, staged ∈ w.gate.pending ->
    staged.id ≤ w.storage.sequence
  rows : forall row, row ∈ w.storage -> RowSound w row
  disk : forall row, row ∈ w.disk -> RowSound w row
  kept : forall row, row ∈ w.disk -> Kept w row.operationId
  tasks : forall running, running ∈ w.tasks -> TaskSound w running.task
  durable_le : w.durable ≤ w.written
  durable_eq : w.durable = w.written -> w.disk = w.storage

section Layers

variable {w : World}

theorem Nested.extends_getLast {savepoints : List Storage} (hnested : Nested s savepoints) :
    Storage.Extends (savepoints.getLast?.getD s) s := by
  induction savepoints generalizing s with
  | nil => exact Storage.Extends.refl s
  | cons savepoint savepoints ih =>
    have hlast : (savepoint :: savepoints).getLast?.getD s =
        savepoints.getLast?.getD savepoint := by
      cases savepoints with
      | nil => rfl
      | cons next rest =>
        rfl
    rw [hlast]
    exact (ih hnested.right).trans hnested.left

theorem Sound.extends_base (hw : Sound w) : Storage.Extends w.base w.storage := by
  unfold World.base
  cases hnative : w.native with
  | attempt savepoint => exact hw.attempt savepoint hnative
  | idle | acquired started | settled outcome => exact hw.nested.extends_getLast

theorem Sound.resting_of_closed (hw : Sound w) (hclosed : w.gate.transaction = none) :
    w.native = .idle ∧ w.savepoints = [] := by
  have hshape := hw.shape
  unfold Shape at hshape
  rw [hclosed] at hshape
  exact hshape

end Layers

theorem sound_initial : Sound World.initial where
  shape := ⟨rfl, rfl⟩
  nested := trivial
  attempt := nofun
  outside := ⟨Ordered.nil, nodup_nil, nofun, nofun, nofun⟩
  staging := ⟨nofun, nodup_nil, nofun⟩
  fresh := nofun
  rows := nofun
  disk := nofun
  kept := nofun
  tasks := nofun
  durable_le := Nat.le_refl 0
  durable_eq := fun _ => rfl

/-! ## The parts of a step -/

section Parts

variable {w : World} {w' : World}

/-- What a step leaves of the disk, and of what no rollback takes away. -/
structure Evolves (w w' : World) : Prop extends Later w w' where
  disk : w'.disk = w.disk
  durable : w'.durable = w.durable
  written : (w'.storage = w.storage ∧ w'.written = w.written) ∨ w'.written = w.written + 1
  stored : forall row, row ∈ w'.storage -> row ∈ w.storage ∨ RowSound w' row
  kept : forall row, row ∈ w.base -> Kept w' row.operationId
  tasks : forall running, running ∈ w'.tasks -> running ∈ w.tasks ∨ TaskSound w' running.task

theorem Evolves.sound (hevolves : Evolves w w') (hw : Sound w) (hshape : Shape w')
    (hnested : Nested w'.storage w'.savepoints)
    (hattempt : forall savepoint, w'.native = .attempt savepoint ->
      Storage.Extends savepoint w'.storage) (houtside : Outside w'.log w'.applied w'.scheduled)
    (hstaging : Staging w'.gate.pending w'.storage w'.scheduled)
    (hfresh : ¬ Stale w'.native -> forall staged, staged ∈ w'.gate.pending ->
      staged.id ≤ w'.storage.sequence) : Sound w' where
  shape := hshape
  nested := hnested
  attempt := hattempt
  outside := houtside
  staging := hstaging
  fresh := hfresh
  rows := by
    intro row hrow
    rcases hevolves.stored row hrow with hold | hnew
    · exact (hw.rows row hold).mono hevolves.toLater
    · exact hnew
  disk := by
    intro row hrow
    rw [hevolves.disk] at hrow
    exact (hw.disk row hrow).mono hevolves.toLater
  kept := by
    intro row hrow
    rw [hevolves.disk] at hrow
    rcases hw.kept row hrow with ⟨old, hold, hop⟩ | hack
    · rw [← hop]
      exact hevolves.kept old hold
    · exact .inr (hevolves.log _ hack)
  tasks := by
    intro running hrunning
    rcases hevolves.tasks running hrunning with hold | hnew
    · exact (hw.tasks running hold).mono hevolves.toLater
    · exact hnew
  durable_le := by
    rw [hevolves.durable]
    rcases hevolves.written with ⟨_, heq⟩ | heq
    · rw [heq]
      exact hw.durable_le
    · rw [heq]
      exact Nat.le_succ_of_le hw.durable_le
  durable_eq := by
    intro hdurable
    rw [hevolves.durable] at hdurable
    rcases hevolves.written with ⟨hstorage, heq⟩ | heq
    · rw [hevolves.disk, hstorage]
      exact hw.durable_eq (hdurable.trans heq)
    · have hle := hw.durable_le
      rw [hdurable, heq] at hle
      exact absurd hle (Nat.not_succ_le_self _)

theorem evolves_of_storage (hstorage : w'.storage = w.storage) (hbase : w'.base = w.base)
    (hwritten : w'.written = w.written) (hdisk : w'.disk = w.disk)
    (hdurable : w'.durable = w.durable) (hscheduled : w'.scheduled = w.scheduled)
    (hlog : forall event, event ∈ w.log -> event ∈ w'.log)
    (hpending : forall staged, staged ∈ w'.gate.pending -> staged ∈ w.gate.pending)
    (htasks : forall running, running ∈ w'.tasks ->
      running ∈ w.tasks ∨ TaskSound w running.task) : Evolves w w' :=
  have hlater : Later w w' := ⟨fun _ h => hscheduled ▸ h, hlog, Nat.le_of_eq (by rw [hbase]),
      fun row h _ => ⟨row, hstorage ▸ h, rfl, rfl⟩, fun staged h _ => hpending staged h⟩
  { hlater with
    disk := hdisk
    durable := hdurable
    written := .inl ⟨hstorage, hwritten⟩
    stored := fun _ h => .inl (hstorage ▸ h)
    kept := fun row h => .inl ⟨row, hbase ▸ h, rfl⟩
    tasks := fun running h => (htasks running h).imp_right (TaskSound.mono hlater) }

theorem evolves_record (w : World) (events : List Event) : Evolves w (w.record events) :=
  evolves_of_storage rfl rfl rfl rfl rfl rfl (fun _ h => mem_append_left _ h)
    (fun _ h => h) fun _ h => .inl h

/-- What must be true when an event is recorded. -/
def EventSound (w : World) : Event -> Prop
  | .sent _ _ output => output ∈ w.scheduled
  | .acknowledged operationId => operationId ∈ w.applied
  | .finalizing operationId => Acknowledged w operationId ∧ Marked w operationId
  | _ => True

theorem sound_record (event : Event) (hw : Sound w) (hevent : EventSound w event) :
    Sound (w.record [event]) := by
  refine (evolves_record w [event]).sound hw hw.shape hw.nested hw.attempt
    ⟨Ordered.snoc hw.outside.ordered ?_, hw.outside.nodup, ?_, ?_, ?_⟩ hw.staging hw.fresh
  · rintro operationId rfl
    exact hevent
  · intro operationId hop
    show (w.log ++ [event]).any _ = true
    rw [any_append, hw.outside.sent operationId hop, Bool.true_or]
  · intro operationId hop
    rcases mem_append.mp hop with hold | hnew
    · exact hw.outside.applied operationId hold
    · rw [← mem_singleton.mp hnew] at hevent
      exact hevent
  · intro boot id output hsent
    rcases mem_append.mp hsent with hold | hnew
    · exact hw.outside.scheduled boot id output hold
    · rw [← mem_singleton.mp hnew] at hevent
      exact hevent

theorem sound_recordAll {events : List Event} (hw : Sound w)
    (hevents : forall event, event ∈ events -> forall w', EventSound w' event) :
    Sound (w.record events) := by
  induction events generalizing w with
  | nil =>
    have heq : w.record [] = w := by
      unfold World.record
      rw [append_nil]
    rw [heq]
    exact hw
  | cons event events ih =>
    have heq : w.record (event :: events) = (w.record [event]).record events := by
      unfold World.record
      simp only [append_assoc, singleton_append]
    rw [heq]
    apply ih
    · exact sound_record event hw (hevents event mem_cons_self w)
    · intro other hother
      exact hevents other (mem_cons_of_mem event hother)

theorem sound_around {tasks : Table Running.id} {waiters woken : List CallerId} {status : Status}
    {boots : Nat} (hw : Sound w) (htasks : forall running, running ∈ tasks ->
      running ∈ w.tasks ∨ TaskSound w running.task) :
    Sound { w with
      tasks, woken, status, boots, gate := { w.gate with asyncWaiters := waiters } } :=
  Evolves.sound (w := w)
    (evolves_of_storage rfl rfl rfl rfl rfl rfl (fun _ h => h) (fun _ h => h) htasks) hw hw.shape
    hw.nested hw.attempt hw.outside hw.staging hw.fresh

theorem wakeAsyncWaiter_eq (w : World) : exists waiters woken, w.wakeAsyncWaiter =
    { w with gate := { w.gate with asyncWaiters := waiters }, woken } := by
  unfold World.wakeAsyncWaiter
  split
  · exact ⟨w.gate.asyncWaiters, w.woken, rfl⟩
  · exact ⟨_, _, rfl⟩

theorem sound_setTask {task : TaskId} {t : Task} (hw : Sound w) (ht : TaskSound w t) :
    Sound (w.setTask task t) := by
  refine sound_around hw ?_
  intro running hrunning
  rcases mem_put.mp hrunning with ⟨hold, _⟩ | rfl
  · exact .inl hold
  · exact .inr ht

theorem sound_dropTask (task : TaskId) (hw : Sound w) : Sound (w.dropTask task) :=
  sound_around hw fun _ hrunning => .inl (mem_erase.mp hrunning).left

theorem sound_wakeAsyncWaiter (hw : Sound w) : Sound w.wakeAsyncWaiter := by
  rcases wakeAsyncWaiter_eq w with ⟨_, _, heq⟩
  rw [heq]
  exact sound_around hw fun _ h => .inl h

theorem sound_endFlush {task : TaskId} {f : Flush} (hw : Sound w) : Sound (w.endFlush task f) := by
  unfold World.endFlush
  split
  · exact sound_dropTask task hw
  · exact sound_wakeAsyncWaiter (sound_dropTask task hw)

/-! A computation that goes on changes the row of one id, outside of transactions. -/

structure Rewrites (w : World) (s : Storage) : Prop where
  sequence : s.sequence = w.storage.sequence
  rows : forall row, row ∈ s -> exists old, old ∈ w.storage ∧ old.id = row.id ∧
    old.output = row.output ∧ (row.state = .published -> old.state = .published ∨
      (Acknowledged w row.operationId ∧ Marked w row.operationId))
  kept : forall old, old ∈ w.storage ->
    (exists row, row ∈ s ∧ row.operationId = old.operationId) ∨ Acknowledged w old.operationId

variable {s : Storage}

theorem base_write (hresting : w.resting = true) : (w.write s).base = s := by
  have hresting' : (w.write s).resting = true := hresting
  exact base_of_resting hresting'

theorem evolves_write (hw : Sound w) (hresting : w.resting = true) (hs : Rewrites w s) :
    Evolves w (w.write s) where
  scheduled := fun _ h => h
  log := fun _ h => h
  sequence := by
    rw [base_write hresting, base_of_resting hresting, hs.sequence]
  rows := by
    intro row hrow _
    rcases hs.rows row hrow with ⟨old, hold, hid, houtput, _⟩
    exact ⟨old, hold, hid, houtput⟩
  pending := fun _ h _ => h
  disk := rfl
  durable := rfl
  written := .inr rfl
  stored := by
    intro row hrow
    right
    rcases hs.rows row hrow with ⟨old, hold, _, houtput, hpublished⟩
    have hsound := hw.rows old hold
    constructor
    · rw [← houtput]
      exact hsound.scheduled
    · intro hstate
      rcases hpublished hstate with hold' | hfacts
      · unfold Intent.operationId
        rw [← houtput]
        exact hsound.published hold'
      · exact hfacts
  kept := by
    intro old hold
    rw [base_of_resting hresting] at hold
    unfold Kept
    rw [base_write hresting]
    exact hs.kept old hold
  tasks := fun _ h => .inl h

theorem sound_write (hw : Sound w) (hresting : w.resting = true) (hs : Rewrites w s) :
    Sound (w.write s) := by
  rcases resting_iff.mp hresting with ⟨hsavepoints, hnative⟩
  refine (evolves_write hw hresting hs).sound hw hw.shape ?_
    (fun savepoint h => absurd h (hnative savepoint)) hw.outside
    ⟨hw.staging.scheduled, hw.staging.nodup, ?_⟩ ?_
  · change Nested s w.savepoints
    rw [hsavepoints]
    trivial
  · intro staged row hstaged hrow hid
    rcases hs.rows row hrow with ⟨old, hold, hid', houtput, _⟩
    rw [← houtput]
    exact hw.staging.stored staged old hstaged hold (hid'.trans hid)
  · intro hstale staged hstaged
    change staged.id ≤ s.sequence
    rw [hs.sequence]
    exact hw.fresh hstale staged hstaged

theorem rewrites_update {f : Intent -> Intent} (hid : forall row, (f row).id = row.id)
    (houtput : forall row, (f row).output = row.output)
    (hstate : forall old, old ∈ w.storage -> old.id = id -> (f old).state = .published ->
      old.state = .published ∨ (Acknowledged w old.operationId ∧ Marked w old.operationId)) :
    Rewrites w (w.storage.update id f hid houtput) where
  sequence := rfl
  rows := by
    intro row hrow
    rcases Storage.exists_of_mem_update hrow with ⟨old, hold, hkey, hsame, rfl | ⟨heq, rfl⟩⟩
    · exact ⟨row, hold, rfl, rfl, .inl⟩
    · refine ⟨old, hold, hkey, hsame, fun hpublished => ?_⟩
      unfold Intent.operationId
      rw [← hsame]
      exact hstate old hold heq hpublished
  kept := by
    intro old hold
    left
    by_cases heq : old.id = id
    · exact ⟨_, (Storage.mem_update hid houtput).mpr (.inr ⟨old, hold, heq, rfl⟩),
        congrArg Output.operationId (houtput old)⟩
    · exact ⟨old, (Storage.mem_update hid houtput).mpr (.inl ⟨hold, heq⟩), rfl⟩

theorem rewrites_markFailure (w : World) (id : IntentId) (code : String) :
    Rewrites w (w.storage.markFailure id code) :=
  rewrites_update _ _ fun _ _ _ => .inl

theorem rewrites_delete (hcall : CallSound w call) (hack : Acknowledged w call.output.operationId) :
    Rewrites w (w.storage.delete call.id) where
  sequence := rfl
  rows := by
    intro row hrow
    exact ⟨row, (Storage.mem_delete.mp hrow).left, rfl, rfl, .inl⟩
  kept := by
    intro old hold
    by_cases hid : old.id = call.id
    · right
      unfold Intent.operationId
      rw [hcall.stored old hold hid]
      exact hack
    · exact .inl ⟨old, Storage.mem_delete.mpr ⟨hold, hid⟩, rfl⟩

theorem sound_markFailure {code : String} (hw : Sound w) (hresting : w.resting = true) :
    Sound (w.markFailure id code) :=
  sound_write hw hresting (rewrites_markFailure w id code)

/-! Fewer pending outputs. -/

theorem evolves_unstage {gate : DoOutputGate}
    (hsub : gate.pending.rows.Sublist w.gate.pending.rows) : Evolves w { w with gate } :=
  evolves_of_storage rfl rfl rfl rfl rfl rfl (fun _ h => h) (fun _ h => hsub.subset h)
    fun _ h => .inl h

end Parts

/-! ## Publications -/

structure Resumed (w w' : World) (call : Call) (progress : Progress) : Prop where
  sound : Sound w'
  later : Later w w'
  stage : forall stage, progress = .suspended stage -> StageSound w' call.output.operationId stage

section Publications

variable {w w' : World} {call : Call} {progress : Progress}

theorem resumed_record (hw : Sound w) (hevent : EventSound w event)
    (hstage : forall stage, progress = .suspended stage ->
      StageSound (w.record [event]) call.output.operationId stage) :
    Resumed w (w.record [event]) call progress :=
  ⟨sound_record event hw hevent, (evolves_record w [event]).toLater, hstage⟩

theorem resumed_write (hw : Sound w) (hresting : w.resting = true) (hs : Rewrites w s)
    (hstage : forall stage, progress = .suspended stage ->
      StageSound (w.write s) call.output.operationId stage) : Resumed w (w.write s) call progress :=
  ⟨sound_write hw hresting hs, (evolves_write hw hresting hs).toLater, hstage⟩

variable {stage : Stage}

theorem resumed_acknowledge {events : List Event} (hw : Sound w) (hresting : w.resting = true)
    (hcall : CallSound w call) (happlied : call.output.operationId ∈ w.applied)
    (hevents : forall event, event ∈ events -> event = .marked call.output.operationId)
    (hs : forall w', Sound w' -> CallSound w' call -> w'.storage = w.storage ->
      Acknowledged w' call.output.operationId ->
      w'.log = w.log ++ .acknowledged call.output.operationId :: events ->
      Rewrites w' s ∧ StageSound w' call.output.operationId stage) :
    Resumed w ((w.write s).record (.acknowledged call.output.operationId :: events)) call
      (.suspended stage) := by
  have hack := sound_record (.acknowledged call.output.operationId) hw happlied
  have hlater := (evolves_record w [.acknowledged call.output.operationId]).toLater
  have hall : forall event, event ∈ events -> forall other, EventSound other event := by
    intro event hevent other
    rw [hevents event hevent]
    trivial
  have hsound := sound_recordAll hack hall
  have hlater' := hlater.trans (evolves_record _ events).toLater
  have hlog : ((w.record [.acknowledged call.output.operationId]).record events).log =
      w.log ++ .acknowledged call.output.operationId :: events := by
    unfold World.record
    rw [append_assoc, singleton_append]
  have hmem : Acknowledged ((w.record [.acknowledged call.output.operationId]).record events)
      call.output.operationId := by
    unfold Acknowledged
    rw [hlog]
    exact mem_append_right _ mem_cons_self
  rcases hs _ hsound (hcall.mono hlater') rfl hmem hlog with ⟨hrewrites, hstage⟩
  have heq : (w.write s).record (.acknowledged call.output.operationId :: events) =
      ((w.record [.acknowledged call.output.operationId]).record events).write s := by
    unfold World.record World.write
    simp only [append_assoc, singleton_append]
  rw [heq]
  have hlast := (evolves_write hsound hresting hrewrites).toLater
  refine ⟨sound_write hsound hresting hrewrites, hlater'.trans hlast, ?_⟩
  intro other hother
  cases hother
  exact hstage.mono hlast

theorem resumed_of_callStep {r : Response} (hw : Sound w) (hresting : w.resting = true)
    (hcall : CallSound w call) (hstep : CallStep w call r w' (.suspended stage)) :
    Resumed w w' call (.suspended stage) := by
  have hfacts := hcall.stage
  cases hstep with
  | send hstage hdurable =>
    refine resumed_record hw hcall.scheduled ?_
    intro stage hsuspended
    cases hsuspended
    trivial
  | mark hstage happlied hfinalize =>
    refine resumed_acknowledge hw hresting hcall happlied ?_ ?_
    · intro event hevent
      exact mem_singleton.mp hevent
    · intro u hu hcall' hstorage hack hlog
      have hmark : Marked u call.output.operationId := by
        unfold Marked
        rw [hlog]
        exact mem_append_right _ (mem_cons_of_mem _ mem_cons_self)
      rw [← hstorage]
      refine ⟨rewrites_update _ _ fun old hold hid _ => .inr ?_, hack, hmark⟩
      unfold Intent.operationId
      rw [hcall'.stored old hold hid]
      exact ⟨hack, hmark⟩
  | remove hstage happlied hfinalize =>
    refine resumed_acknowledge hw hresting hcall happlied nofun ?_
    intro u hu hcall' hstorage hack hlog
    rw [← hstorage]
    exact ⟨rewrites_delete hcall' hack, hack⟩
  | finalize hstage hdurable =>
    rw [hstage] at hfacts
    refine resumed_record hw hfacts ?_
    intro stage hsuspended
    cases hsuspended
    exact ⟨(evolves_record w _).log _ hfacts.left, (evolves_record w _).log _ hfacts.right⟩
  | retire hstage =>
    rw [hstage] at hfacts
    refine resumed_write hw hresting (rewrites_delete hcall hfacts.left) ?_
    intro stage hsuspended
    cases hsuspended
    exact hfacts.left
  | note hfailed hstage =>
    refine resumed_write hw hresting (rewrites_markFailure w call.id _) ?_
    intro stage hsuspended
    cases hsuspended
    rcases hstage with rfl | ⟨_, rfl⟩
    · trivial
    · trivial

theorem Resumed.callSound (hcall : CallSound w call) (hresumed : Resumed w w' call progress)
    (hsuspended : progress = .suspended stage) : CallSound w' { call with stage } :=
  have hmono := hcall.mono hresumed.later
  { scheduled := hmono.scheduled
    id_le := hmono.id_le
    stored := hmono.stored
    stage := hresumed.stage stage hsuspended }

end Publications

/-! ## Flushes -/

section Flushes

variable {w w' : World} {task : TaskId} {f : Flush} {row : Intent} {rest : List Intent}
  {failure : FlushFailure}

theorem selected_of_mem (hw : Sound w) (hresting : w.resting = true) (hrow : row ∈ w.storage) :
    SelectedSound w row where
  toRowSound := hw.rows row hrow
  id_le := by
    rw [base_of_resting hresting]
    exact w.storage.ids_le row hrow
  stored := by
    intro other hother hid
    rw [eq_of_key_eq hother hrow hid]
  pending := fun staged hstaged hid => (hw.staging.stored staged row hstaged hrow hid.symm).symm

theorem call_of_selected {output : Output} {finalize : Bool} {stage : Stage}
    (hrow : SelectedSound w row) (houtput : output = row.output)
    (hstage : StageSound w row.output.operationId stage) :
    CallSound w ⟨row.id, output, finalize, stage⟩ := by
  subst houtput
  exact ⟨hrow.scheduled, hrow.id_le, hrow.stored, hstage⟩

theorem sound_takeUp {t : Task} (hw : Sound w)
    (hrest : forall other, other ∈ row :: rest -> SelectedSound w other)
    (ht : CallSound (w.record [event]) call ∧
      (forall other, other ∈ rest -> SelectedSound (w.record [event]) other) ->
        TaskSound (w.record [event]) t) (hevent : EventSound w event) (hcall : CallSound w call) :
    Sound ((w.record [event]).setTask task t) := by
  have hlater := (evolves_record w [event]).toLater
  refine sound_setTask (sound_record event hw hevent) (ht ⟨hcall.mono hlater, ?_⟩)
  intro other hother
  exact (hrest other (mem_cons_of_mem row hother)).mono hlater

theorem sound_flushes (hw : Sound w) (hresting : w.resting = true)
    (hrest : forall row, row ∈ rest -> SelectedSound w row) (hflushes : Flushes w task f rest w') :
    Sound w' := by
  cases hflushes with
  | done => exact sound_endFlush hw
  | refused => exact sound_setTask (sound_markFailure hw hresting) trivial
  | @send row rest staged hfind =>
    have hrow := hrest row mem_cons_self
    rcases find?_eq_some.mp hfind with ⟨hstaged, hid⟩
    exact sound_takeUp hw hrest id (hw.staging.scheduled staged hstaged)
      (call_of_selected hrow (hrow.pending staged hstaged hid) trivial)
  | @finalize row rest staged hfind hstate =>
    have hrow := hrest row mem_cons_self
    rcases find?_eq_some.mp hfind with ⟨hstaged, hid⟩
    have houtput : staged.pending.output = row.output := hrow.pending staged hstaged hid
    have hfacts : Acknowledged w row.output.operationId ∧ Marked w row.output.operationId :=
      hrow.published hstate
    refine sound_takeUp hw hrest id ?_ (call_of_selected hrow houtput hfacts)
    rw [houtput]
    exact hfacts

theorem sound_flushAll (hw : Sound w) (hresting : w.resting = true) :
    Sound (w.continueFlush task f w.storage.ordered) := by
  refine sound_flushes hw hresting ?_ (flushes_continueFlush w task f _)
  intro row hrow
  exact selected_of_mem hw hresting (Storage.mem_ordered.mp hrow)

theorem sound_settle (settles : Bool) (event : Event) (hw : Sound w)
    (hevent : EventSound w event) : Sound (w.settle settles event) := by
  unfold World.settle
  split
  · exact sound_record _ hw hevent
  · exact hw

theorem later_settle (w : World) (settles : Bool) (event : Event) :
    Later w (w.settle settles event) := by
  unfold World.settle
  split
  · exact (evolves_record w [event]).toLater
  · exact Later.refl w

theorem resting_settle (w : World) (settles : Bool) (event : Event) :
    (w.settle settles event).resting = w.resting := by
  unfold World.settle
  split
  · rfl
  · rfl

theorem sound_throwFlush (hw : Sound w) : Sound (w.throwFlush task f id failure) :=
  sound_endFlush (sound_record _ hw trivial)

end Flushes

/-!
## Restaging after a rollback

The outputs of a transaction that was rolled back explicitly get new rows, in the
order in which they were staged.  This fails as a whole if one of them still has a
row.
-/

def freshRows (nowMs : Millis) : Nat -> List PendingOutput -> List Intent
  | _, [] => []
  | n, item :: items =>
    ⟨n + 1, item.output, .pending, nowMs, 0, none⟩ :: freshRows nowMs (n + 1) items

def freshStaged : Nat -> List PendingOutput -> List Staged
  | _, [] => []
  | n, item :: items => ⟨n + 1, item⟩ :: freshStaged (n + 1) items

section Fresh

variable {nowMs : Millis} {n : Nat} {items : List PendingOutput}

theorem ids_freshStaged (n : Nat) (items : List PendingOutput) :
    (freshStaged n items).map Staged.id = range' (n + 1) items.length := by
  induction items generalizing n with
  | nil => rfl
  | cons item items ih =>
    change (n + 1) :: (freshStaged (n + 1) items).map Staged.id = _
    rw [ih]
    rfl

theorem pending_freshStaged (n : Nat) (items : List PendingOutput) :
    (freshStaged n items).map Staged.pending = items := by
  induction items generalizing n with
  | nil => rfl
  | cons item items ih =>
    change item :: (freshStaged (n + 1) items).map Staged.pending = item :: items
    rw [ih]

theorem freshRows_eq_map (nowMs : Millis) (n : Nat) (items : List PendingOutput) :
    freshRows nowMs n items = (freshStaged n items).map fun staged =>
      ⟨staged.id, staged.pending.output, .pending, nowMs, 0, none⟩ := by
  induction items generalizing n with
  | nil => rfl
  | cons item items ih =>
    rw [freshRows, ih]
    rfl

variable {row : Intent} {staged : Staged}

theorem id_of_freshStaged (hstaged : staged ∈ freshStaged n items) :
    n < staged.id ∧ staged.id ≤ n + items.length := by
  have hid := mem_map_of_mem (f := Staged.id) hstaged
  rw [ids_freshStaged, mem_range'_1, Nat.add_right_comm] at hid
  exact ⟨hid.left, Nat.le_of_lt_succ hid.right⟩

theorem pending_of_freshStaged (hstaged : staged ∈ freshStaged n items) :
    staged.pending ∈ items := by
  rw [← pending_freshStaged n items]
  exact mem_map_of_mem hstaged

theorem staged_of_freshRows (hrow : row ∈ freshRows nowMs n items) :
    exists staged, staged ∈ freshStaged n items ∧ staged.id = row.id ∧
      staged.pending.output = row.output ∧ row.state = .pending := by
  rw [freshRows_eq_map] at hrow
  rcases mem_map.mp hrow with ⟨staged, hstaged, rfl⟩
  exact ⟨staged, hstaged, rfl, rfl, rfl⟩

theorem output_freshRows (nowMs : Millis) (n : Nat) (items : List PendingOutput) :
    (freshRows nowMs n items).map Intent.output = items.map PendingOutput.output := by
  conv_rhs => rw [← pending_freshStaged n items]
  rw [freshRows_eq_map, map_map, map_map]
  rfl

theorem state_of_freshRows (hrow : row ∈ freshRows nowMs n items) : row.state = .pending := by
  rcases staged_of_freshRows hrow with ⟨_, _, _, _, hstate⟩
  exact hstate

theorem output_of_fresh (hrow : row ∈ freshRows nowMs n items)
    (hstaged : staged ∈ freshStaged n items) (hid : row.id = staged.id) :
    row.output = staged.pending.output := by
  rcases staged_of_freshRows hrow with ⟨_, hother, hsame, houtput, _⟩
  have hnodup : ((freshStaged n items).map Staged.id).Nodup := by
    rw [ids_freshStaged]
    exact nodup_range'
  rw [← houtput, inj_on_of_nodup_map hnodup hother hstaged (hsame.trans hid)]

end Fresh

section Loop

variable {nowMs : Millis} {items : List PendingOutput} {s t : Storage}
  {pending restaged : Table Staged.id}

theorem restageLoop_rows (hpending : forall staged, staged ∈ pending -> staged.id ≤ s.sequence)
    (hloop : items.foldlM (restageLoop nowMs) (s, pending) = some (t, restaged)) :
    t.intents.rows = s.intents.rows ++ freshRows nowMs s.sequence items ∧
      t.sequence = s.sequence + items.length ∧
      restaged.rows = pending.rows ++ freshStaged s.sequence items := by
  induction items generalizing s pending with
  | nil =>
    cases hloop
    exact ⟨(append_nil _).symm, rfl, (append_nil _).symm⟩
  | cons item items ih =>
    rcases Option.bind_eq_some_iff.mp hloop with ⟨⟨_, _⟩, hstep, hrest⟩
    rcases Option.map_eq_some_iff.mp hstep with ⟨⟨id, u⟩, hinsert, heq⟩
    cases heq
    rcases Storage.insertIntent_eq_some hinsert with ⟨hid, hsequence, hrows⟩
    have hfresh : ¬ (Staged.mk id item).id ∈ pending.keys := by
      intro hkey
      rcases mem_keys.mp hkey with ⟨staged, hstaged, hkey⟩
      have hle := hpending staged hstaged
      rw [hkey] at hle
      rw [hid] at hle
      exact Nat.not_succ_le_self s.sequence hle
    have hput : (pending.put ⟨id, item⟩).rows = pending.rows ++ [⟨id, item⟩] :=
      rows_put_of_fresh hfresh
    have hbound : forall staged, staged ∈ pending.put ⟨id, item⟩ -> staged.id ≤ u.sequence := by
      intro staged hstaged
      rw [hsequence]
      rcases mem_put.mp hstaged with ⟨hold, _⟩ | rfl
      · exact Nat.le_succ_of_le (hpending staged hold)
      · exact Nat.le_of_eq hid
    rcases ih hbound hrest with ⟨hrows', hsequence', hrestaged⟩
    rw [hrows', hsequence', hrestaged, hrows, hput, hsequence, hid, append_assoc,
      append_assoc, length_cons, Nat.add_assoc, Nat.add_comm 1]
    exact ⟨rfl, rfl, rfl⟩

theorem exists_restageLoop (hnodup : (items.map fun item => item.output.operationId).Nodup)
    (hfresh : forall item, item ∈ items -> ¬ item.output.operationId ∈ s.operations) :
    exists result, items.foldlM (restageLoop nowMs) (s, pending) = some result := by
  induction items generalizing s pending with
  | nil => exact ⟨_, rfl⟩
  | cons item items ih =>
    rw [map_cons, nodup_cons] at hnodup
    rcases Storage.exists_insertIntent nowMs (hfresh item mem_cons_self) with
      ⟨⟨id, t⟩, hinsert⟩
    rw [foldlM_cons]
    have hstep : restageLoop nowMs (s, pending) item = some (t, pending.put ⟨id, item⟩) := by
      unfold restageLoop
      rw [hinsert]
      rfl
    rw [hstep]
    refine ih hnodup.right ?_
    intro other hother hused
    unfold Storage.operations at hused
    rw [(Storage.insertIntent_eq_some hinsert).right.right, map_append,
      mem_append] at hused
    rcases hused with hold | hnew
    · exact hfresh other (mem_cons_of_mem item hother) hold
    · rw [map_singleton, mem_singleton] at hnew
      have heq : other.output.operationId = item.output.operationId := hnew
      apply hnodup.left
      rw [← heq]
      exact mem_map_of_mem hother

end Loop

variable {nowMs : Millis} {gate : DoOutputGate}

theorem restage_rows {s t : Storage} {restaged : Table Staged.id}
    (hrestage : restage nowMs s gate = some (t, restaged)) :
    t.intents.rows =
        s.intents.rows ++ freshRows nowMs s.sequence (gate.pending.rows.map Staged.pending) ∧
      t.sequence = s.sequence + gate.pending.rows.length ∧
      restaged.rows = freshStaged s.sequence (gate.pending.rows.map Staged.pending) := by
  have hempty : forall staged, staged ∈ (Table.empty : Table Staged.id) -> staged.id ≤ s.sequence :=
    forall_mem_empty
  rcases restageLoop_rows hempty hrestage with ⟨hrows, hsequence, hrestaged⟩
  rw [length_map] at hsequence
  exact ⟨hrows, hsequence, hrestaged⟩

theorem exists_restage {s : Storage}
    (hnodup : (gate.pending.rows.map fun staged => staged.pending.output.operationId).Nodup)
    (hfresh : forall staged, staged ∈ gate.pending ->
      ¬ staged.pending.output.operationId ∈ s.operations) :
    exists result, restage nowMs s gate = some result := by
  apply exists_restageLoop
  · rw [map_map]
    exact hnodup
  · intro item hitem
    rcases mem_map.mp hitem with ⟨staged, hstaged, rfl⟩
    exact hfresh staged hstaged

end OutputGate
end OpenCompute
