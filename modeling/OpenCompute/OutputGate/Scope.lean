import OpenCompute.OutputGate.Recovery

/-!
# The scope of a transaction

The map of pending outputs is one for all transactions of the object.  It has the
outputs of the open transaction and no others as long as transactions are opened
when nothing is staged, intents are scheduled inside of attempts, and a flush
starts when every row of the table is staged.
-/

namespace OpenCompute
namespace OutputGate

open Relational Table Transition List

/-! ## Orderly runs -/

def Task.isFlush : Task -> Bool
  | .restaging _ _ => true
  | .flushing _ _ _ _ => true
  | .refusing _ _ _ _ => true
  | _ => false

namespace World

def idle (w : World) : Bool :=
  w.gate.pending.rows.isEmpty && !w.tasks.rows.any fun running => running.task.isFlush

/-- Every row has an entry in the map: no direct publication is under way, and none has left
its row behind. -/
def allStaged (w : World) (s : Storage) : Bool :=
  s.intents.rows.all fun row => w.gate.pending.keys.contains row.id

end World

def orderly (w : World) : Action -> Bool
  | .enterSync => w.gate.transaction.isSome || w.idle
  | .acquire _ => w.gate.transaction.isSome || w.idle
  | .reacquire _ => w.gate.transaction.isSome || w.idle
  | .schedule _ _ _ _ =>
    match w.gate.transaction, w.native with
    | some .async, .attempt _ => true
    | some .async, _ => false
    | _, _ => true
  | .exitSync _ commit =>
    match w.savepoints with
    | [savepoint] => w.allStaged (if commit then w.storage else savepoint)
    | _ => true
  | .exitTransaction _ _ =>
    match w.native with
    | .settled .committed => w.allStaged w.storage
    | _ => true
  | .resume task _ =>
    match w.tasks.find? task with
    | some ⟨_, .restaging _ _⟩ => w.allStaged w.storage
    | _ => true
  | _ => true

def Orderly (w : World) (a : Action) : Prop := orderly w a = true

instance (w : World) (a : Action) : Decidable (Orderly w a) :=
  inferInstanceAs (Decidable (orderly w a = true))

/-! ## What is staged -/

def stagedOperations (w : World) : List OperationId :=
  w.gate.pending.rows.map fun staged => staged.pending.output.operationId

def Stored (w : World) : Prop :=
  forall staged, staged ∈ w.gate.pending ->
    exists row, row ∈ w.storage ∧ row.id = staged.id ∧ row.state = .pending

def Unstored (w : World) : Prop :=
  forall staged, staged ∈ w.gate.pending ->
    ¬ staged.pending.output.operationId ∈ w.storage.operations

def Settled (w : World) (operationId : OperationId) : Prop :=
  Event.resolved operationId ∈ w.log ∨ Event.rejected operationId ∈ w.log

structure SyncScope (w : World) : Prop where
  own : forall staged, staged ∈ w.gate.pending -> staged.pending.output.operationId ∈ w.own
  settles : forall staged, staged ∈ w.gate.pending -> staged.pending.settles = true
  stored : Stored w
  settled : forall operationId, operationId ∈ w.own ->
    Settled w operationId ∨ operationId ∈ stagedOperations w

def AsyncScope (w : World) : Native -> Prop
  | .idle => False
  | .acquired started => w.own = stagedOperations w ∧
    if started then Unstored w else w.gate.pending.rows = []
  | .attempt savepoint => w.own = stagedOperations w ∧
    w.storage.operations = savepoint.operations ++ w.own ∧ Stored w
  | .settled .committed => w.own = stagedOperations w ∧ Stored w
  | .settled _ => w.own = stagedOperations w ∧ Unstored w

def Scope (w : World) : Prop :=
  match w.gate.transaction with
  | none => True
  | some .sync => SyncScope w
  | some .async => AsyncScope w w.native

structure FlushReady (w : World) (f : Flush) (rest : List Intent) : Prop where
  distinct : rest.Pairwise fun r q => r.id ≠ q.id
  states : forall q, q ∈ rest -> q.state = .pending
  staged : forall q, q ∈ rest -> exists staged, staged ∈ w.gate.pending ∧ staged.id = q.id
  only : forall staged, staged ∈ w.gate.pending -> exists q, q ∈ rest ∧ q.id = staged.id
  own : forall staged, staged ∈ w.gate.pending -> staged.pending.output.operationId ∈ f.own
  settles : f.background = true ->
    forall staged, staged ∈ w.gate.pending -> staged.pending.settles = true
  settled : f.background = true -> forall operationId, operationId ∈ f.own ->
    Settled w operationId ∨ operationId ∈ stagedOperations w

structure FlushScope (w : World) (f : Flush) (call : Call) (settles : Bool)
    (rest : List Intent) : Prop where
  distinct : rest.Pairwise fun r q => r.id ≠ q.id
  other : forall q, q ∈ rest -> q.id ≠ call.id
  states : forall q, q ∈ rest -> q.state = .pending
  current : exists staged, staged ∈ w.gate.pending ∧ staged.id = call.id ∧
    staged.pending.output = call.output ∧ staged.pending.settles = settles
  staged : forall q, q ∈ rest -> exists staged, staged ∈ w.gate.pending ∧ staged.id = q.id
  only : forall staged, staged ∈ w.gate.pending ->
    staged.id = call.id ∨ exists q, q ∈ rest ∧ q.id = staged.id
  own : forall staged, staged ∈ w.gate.pending -> staged.pending.output.operationId ∈ f.own
  settles : f.background = true ->
    forall staged, staged ∈ w.gate.pending -> staged.pending.settles = true
  settled : f.background = true -> forall operationId, operationId ∈ f.own ->
    Settled w operationId ∨ operationId ∈ stagedOperations w

def TaskScope (w : World) : Task -> Prop
  | .direct call => forall staged, staged ∈ w.gate.pending -> staged.id ≠ call.id
  | .restaging f _ => f.background = false ∧ Stored w ∧
    forall staged, staged ∈ w.gate.pending -> staged.pending.output.operationId ∈ f.own
  | .flushing f call settles rest => FlushScope w f call settles rest
  | .refusing _ _ _ _ => False
  | _ => True

/-- The failures of flushes are failures to publish an intent of the transaction. -/
def Failures (log : List Event) : Prop :=
  forall f id failure, Event.flushFailed f id failure ∈ log ->
    exists operationId, operationId ∈ f.own ∧ failure = .publish operationId

structure Serial (w : World) : Prop where
  scope : Scope w
  one : forall r q, r ∈ w.tasks -> q ∈ w.tasks -> r.task.isFlush = true ->
    q.task.isFlush = true -> r = q
  closed : w.gate.transaction ≠ none -> forall r, r ∈ w.tasks -> r.task.isFlush = false
  tasks : forall r, r ∈ w.tasks -> TaskScope w r.task
  failures : Failures w.log

/-! ## Steps that leave the map alone -/

structure Unmoved (w w' : World) : Prop where
  transaction : w'.gate.transaction = w.gate.transaction
  pending : w'.gate.pending = w.gate.pending
  native : w'.native = w.native
  own : w'.own = w.own
  log : forall event, event ∈ w.log -> event ∈ w'.log
  attempt : forall savepoint, w.native = .attempt savepoint -> w'.storage = w.storage
  operations : w.gate.transaction ≠ none -> forall operationId,
    operationId ∈ w'.storage.operations -> operationId ∈ w.storage.operations
  rows : forall staged row, staged ∈ w.gate.pending -> row ∈ w.storage ->
    row.id = staged.id -> row ∈ w'.storage

section Unmoving

variable {w w' : World}

theorem Settled.mono {operationId : OperationId}
    (hlog : forall event, event ∈ w.log -> event ∈ w'.log) (hsettled : Settled w operationId) :
    Settled w' operationId :=
  hsettled.imp (hlog _) (hlog _)

/-! The map is the same, and the log has grown. -/

section Grown

variable {f : Flush} {rest : List Intent} (hpending : w'.gate.pending = w.gate.pending)
  (hlog : forall event, event ∈ w.log -> event ∈ w'.log)

include hpending hlog

theorem settled_or_staged {operationId : OperationId}
    (h : Settled w operationId ∨ operationId ∈ stagedOperations w) :
    Settled w' operationId ∨ operationId ∈ stagedOperations w' := by
  unfold stagedOperations
  rw [hpending]
  exact h.imp_left (Settled.mono hlog)

theorem FlushReady.mono (hready : FlushReady w f rest) : FlushReady w' f rest := by
  refine ⟨hready.distinct, hready.states, ?_, ?_, ?_, ?_, fun hback operationId hop =>
    settled_or_staged hpending hlog (hready.settled hback operationId hop)⟩
  all_goals rw [hpending]
  · exact hready.staged
  · exact hready.only
  · exact hready.own
  · exact hready.settles

theorem FlushScope.mono {call : Call} {settles : Bool} (stage : Stage)
    (hscope : FlushScope w f call settles rest) :
    FlushScope w' f { call with stage } settles rest := by
  refine ⟨hscope.distinct, hscope.other, hscope.states, ?_, ?_, ?_, ?_, ?_,
    fun hback operationId hop =>
      settled_or_staged hpending hlog (hscope.settled hback operationId hop)⟩
  all_goals rw [hpending]
  · exact hscope.current
  · exact hscope.staged
  · exact hscope.only
  · exact hscope.own
  · exact hscope.settles

end Grown

namespace Unmoved

variable (hmove : Unmoved w w')
include hmove

theorem mem_pending : forall staged, staged ∈ w'.gate.pending -> staged ∈ w.gate.pending := by
  intro staged hstaged
  rw [hmove.pending] at hstaged
  exact hstaged

theorem staged : stagedOperations w' = stagedOperations w := by
  unfold stagedOperations
  rw [hmove.pending]

theorem stored (hstored : Stored w) : Stored w' := by
  intro staged hstaged
  have hold := hmove.mem_pending staged hstaged
  rcases hstored staged hold with ⟨row, hrow, hid, hstate⟩
  exact ⟨row, hmove.rows staged row hold hrow hid, hid, hstate⟩

theorem unstored (hopen : w.gate.transaction ≠ none) (hunstored : Unstored w) : Unstored w' := by
  intro staged hstaged hused
  exact hunstored staged (hmove.mem_pending staged hstaged) (hmove.operations hopen _ hused)

theorem syncScope (hscope : SyncScope w) : SyncScope w' where
  own := by
    intro staged hstaged
    rw [hmove.own]
    exact hscope.own staged (hmove.mem_pending staged hstaged)
  settles := fun staged hstaged => hscope.settles staged (hmove.mem_pending staged hstaged)
  stored := hmove.stored hscope.stored
  settled := by
    intro operationId hop
    rw [hmove.own] at hop
    exact settled_or_staged hmove.pending hmove.log (hscope.settled operationId hop)

theorem asyncScope (hopen : w.gate.transaction ≠ none) (hscope : AsyncScope w w.native) :
    AsyncScope w' w'.native := by
  have hown : w.own = stagedOperations w -> w'.own = stagedOperations w' := by
    rw [hmove.own, hmove.staged]
    exact id
  rw [hmove.native]
  generalize hnative : w.native = native at hscope ⊢
  cases native with
  | idle => exact hscope
  | acquired started =>
    refine ⟨hown hscope.left, ?_⟩
    cases started with
    | true => exact hmove.unstored hopen hscope.right
    | false =>
      rw [hmove.pending]
      exact hscope.right
  | attempt savepoint =>
    rcases hscope with ⟨heq, hoperations, hstored⟩
    refine ⟨hown heq, ?_, hmove.stored hstored⟩
    rw [hmove.attempt savepoint hnative, hmove.own]
    exact hoperations
  | settled outcome =>
    cases outcome with
    | committed => exact ⟨hown hscope.left, hmove.stored hscope.right⟩
    | explicitRollback | failed => exact ⟨hown hscope.left, hmove.unstored hopen hscope.right⟩

theorem scope (hscope : Scope w) : Scope w' := by
  unfold Scope at hscope ⊢
  rw [hmove.transaction]
  cases htransaction : w.gate.transaction with
  | none => trivial
  | some mode =>
    rw [htransaction] at hscope
    cases mode with
    | sync => exact hmove.syncScope hscope
    | async =>
      refine hmove.asyncScope ?_ hscope
      rw [htransaction]
      exact nofun

theorem taskScope {t : Task} (ht : TaskScope w t) : TaskScope w' t := by
  cases t with
  | direct call => exact fun staged hstaged => ht staged (hmove.mem_pending staged hstaged)
  | restaging f upTo =>
    rcases ht with ⟨hback, hstored, hown⟩
    exact ⟨hback, hmove.stored hstored,
      fun staged hstaged => hown staged (hmove.mem_pending staged hstaged)⟩
  | flushing f call settles rest => exact ht.mono hmove.pending hmove.log call.stage
  | refusing f id failure upTo => exact ht
  | recovering env call rest | recoveryRefusing upTo => trivial

end Unmoved

theorem serial_unmoved (hw : Serial w) (hmove : Unmoved w w') (htasks : forall r, r ∈ w'.tasks ->
      r ∈ w.tasks ∨ (r.task.isFlush = false ∧ TaskScope w' r.task))
    (hfailures : Failures w'.log) : Serial w' where
  scope := hmove.scope hw.scope
  one := by
    intro r q hr hq hrflush hqflush
    rcases htasks r hr with hr | ⟨hno, _⟩
    · rcases htasks q hq with hq | ⟨hno, _⟩
      · exact hw.one r q hr hq hrflush hqflush
      · cases hno.symm.trans hqflush
    · cases hno.symm.trans hrflush
  closed := by
    intro hopen r hr
    rw [hmove.transaction] at hopen
    rcases htasks r hr with hr | ⟨hno, _⟩
    · exact hw.closed hopen r hr
    · exact hno
  tasks := by
    intro r hr
    rcases htasks r hr with hr | ⟨_, ht⟩
    · exact hmove.taskScope (hw.tasks r hr)
    · exact ht
  failures := hfailures

theorem unmoved_of_same (htransaction : w'.gate.transaction = w.gate.transaction)
    (hpending : w'.gate.pending = w.gate.pending) (hnative : w'.native = w.native)
    (hown : w'.own = w.own) (hstorage : w'.storage = w.storage)
    (hlog : forall event, event ∈ w.log -> event ∈ w'.log) : Unmoved w w' where
  transaction := htransaction
  pending := hpending
  native := hnative
  own := hown
  log := hlog
  attempt := fun _ _ => hstorage
  operations := by
    intro _ operationId h
    rw [hstorage] at h
    exact h
  rows := by
    intro _ row _ hrow _
    rw [hstorage]
    exact hrow

theorem unmoved_wakeAsyncWaiter (w : World) : Unmoved w w.wakeAsyncWaiter := by
  rcases wakeAsyncWaiter_eq w with ⟨_, _, heq⟩
  rw [heq]
  exact unmoved_of_same rfl rfl rfl rfl rfl fun _ h => h

theorem serial_wakeAsyncWaiter (hw : Serial w) : Serial w.wakeAsyncWaiter := by
  rcases wakeAsyncWaiter_eq w with ⟨_, _, heq⟩
  rw [heq]
  exact serial_unmoved hw (unmoved_of_same rfl rfl rfl rfl rfl fun _ h => h)
    (fun _ h => .inl h) hw.failures

theorem scope_of_closed (hclosed : w.gate.transaction = none) : Scope w := by
  unfold Scope
  rw [hclosed]
  trivial

theorem serial_of_noFlush (hscope : Scope w)
    (hno : forall r, r ∈ w.tasks -> r.task.isFlush = false ∧ TaskScope w r.task)
    (hfailures : Failures w.log) : Serial w := by
  refine ⟨hscope, ?_, fun _ r hr => (hno r hr).left, fun r hr => (hno r hr).right, hfailures⟩
  intro r q hr _ hflush
  cases (hno r hr).left.symm.trans hflush

theorem serial_of_quiet (hquiet : Quiet w)
    (htasks : forall r, r ∈ w.tasks -> r.task.isTenant = false) (hfailures : Failures w.log) :
    Serial w := by
  refine serial_of_noFlush (scope_of_closed hquiet.transaction) ?_ hfailures
  intro r hr
  have htenant := htasks r hr
  cases hcase : r.task with
  | recovering env call rest | recoveryRefusing upTo => exact ⟨rfl, trivial⟩
  | _ =>
    rw [hcase] at htenant
    cases htenant

end Unmoving

/-! ## Publications -/

section Publications

variable {w w' : World}

theorem serial_direct {task : TaskId} {call : Call} {r : Response} {stage : Stage} (hw : Serial w)
    (hresting : w.resting = true) (htask : Running.mk task (.direct call) ∈ w.tasks)
    (hcall : CallStep w call r w' (.suspended stage)) :
    Serial (w'.setTask task (.direct { call with stage })) := by
  have htouched := touched_of_callStep hcall
  have hscope : forall staged, staged ∈ w.gate.pending -> staged.id ≠ call.id :=
    hw.tasks ⟨task, .direct call⟩ htask
  have hmove : Unmoved w w' := ⟨by rw [htouched.gate], by rw [htouched.gate], htouched.native,
    htouched.own, htouched.log,
    fun savepoint h => absurd h ((resting_iff.mp hresting).right savepoint),
    fun _ => htouched.operations, fun staged row hmem hrow hid =>
      htouched.rows row hrow (hid ▸ hscope staged hmem)⟩
  refine serial_unmoved hw { hmove with } ?_ ?_
  · intro running hrunning
    rcases mem_put.mp hrunning with ⟨hold, _⟩ | rfl
    · rw [htouched.tasks] at hold
      exact .inl hold
    · refine .inr ⟨rfl, ?_⟩
      intro staged hstaged
      exact hscope staged (hmove.mem_pending staged hstaged)
  · exact fun f id failure h => hw.failures f id failure (htouched.failures f id failure h)

end Publications

/-! ## Flushes -/

section Flushes

variable {w w' : World} {task : TaskId} {f : Flush}

structure Alone (w : World) (task : TaskId) : Prop where
  closed : w.gate.transaction = none
  others : forall r, r ∈ w.tasks -> r.id ≠ task -> r.task.isFlush = false ∧ TaskScope w r.task
  failures : Failures w.log

section

variable (halone : Alone w task)
include halone

theorem Alone.mono (hclosed : w'.gate.transaction = none)
    (htasks : w'.tasks = w.tasks)
    (hpending : forall staged, staged ∈ w'.gate.pending -> staged ∈ w.gate.pending)
    (hfailures : Failures w'.log) : Alone w' task where
  closed := hclosed
  others := by
    intro r hr hne
    rw [htasks] at hr
    rcases halone.others r hr hne with ⟨hflush, ht⟩
    refine ⟨hflush, ?_⟩
    rcases r with ⟨_, t⟩
    cases t with
    | direct call => exact fun staged hstaged => ht staged (hpending staged hstaged)
    | recovering env call rest | recoveryRefusing upTo => trivial
    | _ => cases hflush
  failures := hfailures

theorem Alone.record {events : List Event}
    (hevents : Failures events) : Alone (w.record events) task := by
  refine halone.mono halone.closed rfl (fun _ h => h) ?_
  intro f id failure h
  rcases mem_append.mp h with hold | hnew
  · exact halone.failures f id failure hold
  · exact hevents f id failure hnew

theorem serial_setFlush {t : Task} (ht : TaskScope w t) :
    Serial (w.setTask task t) := by
  have hmove : Unmoved w (w.setTask task t) := unmoved_of_same rfl rfl rfl rfl rfl fun _ h => h
  refine ⟨?_, ?_, fun hopen => absurd halone.closed hopen, ?_, halone.failures⟩
  · exact scope_of_closed halone.closed
  · intro r q hr hq hrflush hqflush
    rcases mem_put.mp hr with ⟨hr, hne⟩ | rfl
    · cases (halone.others r hr hne).left.symm.trans hrflush
    · rcases mem_put.mp hq with ⟨hq, hne⟩ | rfl
      · cases (halone.others q hq hne).left.symm.trans hqflush
      · rfl
  · intro r hr
    rcases mem_put.mp hr with ⟨hr, hne⟩ | rfl
    · exact hmove.taskScope (halone.others r hr hne).right
    · exact hmove.taskScope ht

theorem serial_endFlush : Serial (w.endFlush task f) := by
  have hdropped : Serial (w.dropTask task) := by
    have hmove : Unmoved w (w.dropTask task) := unmoved_of_same rfl rfl rfl rfl rfl fun _ h => h
    refine serial_of_noFlush (scope_of_closed halone.closed) ?_ halone.failures
    intro r hr
    rcases mem_erase.mp hr with ⟨hr, hne⟩
    rcases halone.others r hr hne with ⟨hflush, ht⟩
    exact ⟨hflush, hmove.taskScope ht⟩
  unfold World.endFlush
  split
  · exact hdropped
  · exact serial_wakeAsyncWaiter hdropped

end

variable {rest : List Intent} {settles : Bool}

theorem serial_continueFlush (halone : Alone w task) (hready : FlushReady w f rest) :
    Serial (w.continueFlush task f rest) := by
  cases rest with
  | nil => exact serial_endFlush halone
  | cons row rest =>
    rcases hready.staged row mem_cons_self with ⟨staged, hstaged, hid⟩
    have hfind : w.gate.pending.find? row.id = some staged := find?_eq_some.mpr ⟨hstaged, hid⟩
    rw [continueFlush_send hfind (hready.states row mem_cons_self)]
    have hsent : Alone (w.send row.id staged.pending.output) task := halone.record (by
        intro f id failure h
        cases mem_singleton.mp h)
    rcases pairwise_cons.mp hready.distinct with ⟨hother, hdistinct⟩
    have hmove : Unmoved w (w.send row.id staged.pending.output) :=
      unmoved_of_same rfl rfl rfl rfl rfl fun _ h => mem_append_left _ h
    refine serial_setFlush hsent (hmove.taskScope ?_)
    refine ⟨hdistinct, fun q hq => (hother q hq).symm,
      fun q hq => hready.states q (mem_cons_of_mem row hq), ⟨staged, hstaged, hid, rfl, rfl⟩,
      fun q hq => hready.staged q (mem_cons_of_mem row hq), ?_, hready.own,
      hready.settles, hready.settled⟩
    intro other hmem
    rcases hready.only other hmem with ⟨q, hq, hqid⟩
    rcases mem_cons.mp hq with rfl | hrest
    · exact .inl hqid.symm
    · exact .inr ⟨q, hrest, hqid⟩

theorem log_settle {event : Event} : forall e, e ∈ w.log -> e ∈ (w.settle settles event).log := by
  intro e he
  unfold World.settle
  split
  · exact mem_append_left _ he
  · exact he

theorem mem_settle {event : Event} : event ∈ (w.settle true event).log :=
  mem_append_right _ (mem_singleton_self event)

theorem Alone.settle (settles : Bool) (event : Event) (halone : Alone w task)
    (hevent : forall f id failure, event ≠ .flushFailed f id failure) :
    Alone (w.settle settles event) task := by
  unfold World.settle
  split
  · refine halone.record ?_
    intro f id failure h
    exact absurd (mem_singleton.mp h).symm (hevent f id failure)
  · exact halone

variable {call : Call} {settles : Bool} {rest : List Intent}

theorem ready_of_flushed (hscope : FlushScope w f call settles rest) :
    FlushReady ({ w with gate := w.gate.delete call.id }.settle settles
      (.resolved call.output.operationId)) f rest := by
  have hmem : forall staged, staged ∈ ({ w with gate := w.gate.delete call.id }.settle settles
      (.resolved call.output.operationId)).gate.pending ↔
      staged ∈ w.gate.pending ∧ staged.id ≠ call.id := by
    intro staged
    unfold World.settle
    split <;> exact mem_erase
  refine ⟨hscope.distinct, hscope.states, ?_, ?_, ?_, ?_, ?_⟩
  · intro q hq
    rcases hscope.staged q hq with ⟨staged, hstaged, hid⟩
    refine ⟨staged, (hmem staged).mpr ⟨hstaged, ?_⟩, hid⟩
    rw [hid]
    exact hscope.other q hq
  · intro staged hstaged
    rcases (hmem staged).mp hstaged with ⟨hold, hne⟩
    rcases hscope.only staged hold with heq | hrest
    · exact absurd heq hne
    · exact hrest
  · exact fun staged hstaged => hscope.own staged ((hmem staged).mp hstaged).left
  · exact fun hback staged hstaged => hscope.settles hback staged ((hmem staged).mp hstaged).left
  · intro hback operationId hop
    rcases hscope.settled hback operationId hop with hold | hstaged
    · exact .inl (hold.mono fun event h => log_settle event h)
    · rcases mem_map.mp hstaged with ⟨staged, hentry, rfl⟩
      by_cases hid : staged.id = call.id
      · left
        rcases hscope.current with ⟨current, hcurrent, hcid, houtput, hcsettles⟩
        rw [eq_of_key_eq hentry hcurrent (hid.trans hcid.symm), houtput]
        have hsettles : settles = true := by
          rw [← hcsettles]
          exact hscope.settles hback current hcurrent
        subst hsettles
        exact .inl mem_settle
      · exact .inr (mem_map.mpr ⟨staged, (hmem staged).mpr ⟨hentry, hid⟩, rfl⟩)

end Flushes

end OutputGate
end OpenCompute
