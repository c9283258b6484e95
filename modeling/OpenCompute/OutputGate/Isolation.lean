import OpenCompute.OutputGate.Scope

/-!
# Isolation of flushes

In an orderly run the map has the outputs of one transaction at a time, and a
flush publishes the intents of its own transaction.
-/

namespace OpenCompute
namespace OutputGate

open Relational Table Transition Bool
open List hiding mem_filter

/-! ## Transactions -/

section Transactions

variable {w w' : World}

theorem serial_moved (hw : Serial w) (hsound : Sound w)
    (hno : forall r, r ∈ w.tasks -> r.task.isFlush = false) (htasks : w'.tasks = w.tasks)
    (hscope : Scope w') (hpending : forall staged, staged ∈ w'.gate.pending ->
      staged ∈ w.gate.pending ∨ w.storage.sequence < staged.id)
    (hfailures : Failures w'.log) : Serial w' := by
  refine serial_of_noFlush hscope ?_ hfailures
  intro r hr
  rw [htasks] at hr
  have ht := hw.tasks r hr
  have hflush := hno r hr
  have hcall := hsound.tasks r hr
  refine ⟨hflush, ?_⟩
  cases hcase : r.task with
  | direct call =>
    rw [hcase] at ht hcall
    intro staged hstaged heq
    rcases hpending staged hstaged with hold | hnew
    · exact ht staged hold heq
    · rw [heq] at hnew
      exact absurd (Nat.le_trans hcall.id_le hsound.extends_base.sequence) (Nat.not_le_of_lt hnew)
  | recovering env call rest | recoveryRefusing upTo => trivial
  | _ =>
    rw [hcase] at hflush
    cases hflush

theorem scope_sync (htransaction : w.gate.transaction = some .sync) (hscope : SyncScope w) :
    Scope w := by
  unfold Scope
  rw [htransaction]
  exact hscope

theorem scope_async (htransaction : w.gate.transaction = some .async)
    (hscope : AsyncScope w w.native) : Scope w := by
  unfold Scope
  rw [htransaction]
  exact hscope

theorem Serial.sync (hw : Serial w) (htransaction : w.gate.transaction = some .sync) :
    SyncScope w := by
  have hscope := hw.scope
  unfold Scope at hscope
  rw [htransaction] at hscope
  exact hscope

variable {native : Native} {staged : Staged} {scheduled : Table Output.operationId} {settles : Bool}
  {savepoint : Storage} {caller : CallerId}

theorem Serial.noFlush {mode : Mode} (hw : Serial w)
    (htransaction : w.gate.transaction = some mode) :
    forall r, r ∈ w.tasks -> r.task.isFlush = false := by
  apply hw.closed
  rw [htransaction]
  exact nofun

theorem Serial.async (hw : Serial w) (hsound : Sound w) (hnative : w.native = native)
    (hopen : native ≠ .idle) : w.gate.transaction = some .async ∧
      (forall r, r ∈ w.tasks -> r.task.isFlush = false) ∧ AsyncScope w native := by
  rw [← hnative] at hopen ⊢
  have hasync := (async_of_native hsound hopen).left
  have hscope := hw.scope
  unfold Scope at hscope
  rw [hasync] at hscope
  exact ⟨hasync, hw.noFlush hasync, hscope⟩

variable {mode : Mode} {task : TaskId} {output : Output} {finalize : Bool} {nowMs : Millis}
  {s : Storage}

theorem stagedOperations_of_nil (hrows : w.gate.pending.rows = []) : stagedOperations w = [] := by
  unfold stagedOperations
  rw [hrows]
  rfl

theorem not_mem_of_nil (hrows : w.gate.pending.rows = []) : ¬ staged ∈ w.gate.pending := by
  intro hstaged
  change staged ∈ w.gate.pending.rows at hstaged
  rw [hrows] at hstaged
  cases hstaged

/-! Scheduling. -/

structure StagedStep (w w' : World) (output : Output) (settles : Bool) : Prop where
  own : w'.own = w.own ++ [output.operationId]
  staged : stagedOperations w' = stagedOperations w ++ [output.operationId]
  operations : w'.storage.operations = w.storage.operations ++ [output.operationId]
  pending : forall staged, staged ∈ w'.gate.pending -> staged ∈ w.gate.pending ∨
    (w.storage.sequence < staged.id ∧ staged.pending.settles = settles ∧
      staged.pending.output = output)
  stored : Stored w -> Stored w'
  transaction : w'.gate.transaction = w.gate.transaction
  native : w'.native = w.native
  tasks : w'.tasks = w.tasks
  log : w'.log = w.log

theorem stagedStep_schedule {id : IntentId} (hsound : Sound w) (hfresh : ¬ Stale w.native)
    (hinsert : w.storage.insertIntent output nowMs = some (id, s)) :
    StagedStep w { w.write s with
      scheduled
      gate := w.gate.set ⟨id, ⟨output, finalize, mode = .sync⟩⟩
      own := w.own ++ [output.operationId] } output (mode = .sync) := by
  rcases Storage.insertIntent_eq_some hinsert with ⟨hid, _, hrows⟩
  have hext := Storage.extends_insertIntent hinsert
  have hnew : ¬ (Staged.mk id ⟨output, finalize, mode = .sync⟩).id ∈ w.gate.pending.keys := by
    intro hkey
    rcases mem_keys.mp hkey with ⟨staged, hstaged, heq⟩
    have hle := hsound.fresh hfresh staged hstaged
    rw [heq] at hle
    rw [hid] at hle
    exact Nat.not_succ_le_self _ hle
  refine ⟨rfl, ?_, ?_, ?_, ?_, rfl, rfl, rfl, rfl⟩
  · change ((w.gate.pending.put _).rows.map _) = _
    rw [rows_put_of_fresh hnew, map_append]
    rfl
  · change s.intents.rows.map Intent.operationId = _
    rw [hrows, map_append]
    rfl
  · intro staged hstaged
    rcases mem_put.mp hstaged with ⟨hold, _⟩ | rfl
    · exact .inl hold
    · refine .inr ⟨?_, rfl, rfl⟩
      rw [hid]
      exact Nat.lt_succ_self _
  · intro hstored staged hstaged
    rcases mem_put.mp hstaged with ⟨hold, _⟩ | rfl
    · rcases hstored staged hold with ⟨row, hrow, hkey, hstate⟩
      exact ⟨row, hext.rows row hrow, hkey, hstate⟩
    · exact ⟨_, (Storage.mem_of_insertIntent hinsert).mpr (.inr rfl), hid.symm, rfl⟩

theorem StagedStep.serial (hstep : StagedStep w w' output settles) (hw : Serial w)
    (hsound : Sound w) (hopen : w.gate.transaction = some mode) (hscope : Scope w') :
    Serial w' := by
  refine serial_moved hw hsound (hw.noFlush hopen) hstep.tasks hscope ?_ ?_
  · intro staged hstaged
    exact (hstep.pending staged hstaged).imp_right And.left
  · rw [hstep.log]
    exact hw.failures

theorem serial_scheduleSync (hstep : StagedStep w w' output settles) (hsettles : settles = true)
    (hw : Serial w) (hsound : Sound w) (hsync : w.gate.transaction = some .sync) : Serial w' := by
  have hscope := hw.sync hsync
  refine hstep.serial hw hsound hsync (scope_sync (hstep.transaction.trans hsync) ?_)
  refine ⟨?_, ?_, hstep.stored hscope.stored, ?_⟩
  · intro staged hstaged
    rw [hstep.own, mem_append]
    rcases hstep.pending staged hstaged with hold | ⟨_, _, houtput⟩
    · exact .inl (hscope.own staged hold)
    · rw [houtput]
      exact .inr mem_cons_self
  · intro staged hstaged
    rcases hstep.pending staged hstaged with hold | ⟨_, heq, _⟩
    · exact hscope.settles staged hold
    · exact heq.trans hsettles
  · intro operationId hop
    rw [hstep.own, mem_append] at hop
    rw [hstep.staged, mem_append]
    rcases hop with hold | hnew
    · rcases hscope.settled operationId hold with hsettled | hstaged
      · refine .inl (hsettled.mono ?_)
        rw [hstep.log]
        exact fun _ h => h
      · exact .inr (.inl hstaged)
    · exact .inr (.inr hnew)

theorem serial_schedule (hw : Serial w) (hsound : Sound w)
    (horderly : Orderly w (.schedule task output finalize nowMs))
    (hstep : Step w (.schedule task output finalize nowMs) w') : Serial w' := by
  cases hstep with
  | direct hlive hscheduled hinsert hclosed hfresh =>
    have hnative := (hsound.resting_of_closed hclosed).left
    refine serial_unmoved hw ⟨rfl, rfl, rfl, rfl, fun _ h => h,
      fun _ h => (nomatch hnative.symm.trans h), fun hopen => absurd hclosed hopen,
      fun _ row _ hrow _ => (Storage.extends_insertIntent hinsert).rows row hrow⟩ ?_ hw.failures
    intro running hrunning
    rcases mem_put.mp hrunning with ⟨hold, _⟩ | rfl
    · exact .inl hold
    · refine .inr ⟨rfl, ?_⟩
      intro staged hstaged heq
      have hle := hsound.fresh (by rw [hnative]; exact fun h => h) staged hstaged
      rw [heq] at hle
      rw [(Storage.insertIntent_eq_some hinsert).left] at hle
      exact Nat.not_succ_le_self _ hle
  | @staged _ _ _ _ id s scheduled mode hlive hscheduled hinsert hopen =>
    cases mode with
    | sync =>
      have hidle := (sync_of_savepoints hsound hopen).left
      exact serial_scheduleSync (stagedStep_schedule hsound (by rw [hidle]; exact fun h => h)
        hinsert) rfl hw hsound hopen
    | async =>
      unfold Orderly orderly at horderly
      rw [hopen] at horderly
      cases hnative : w.native with
      | attempt savepoint =>
        have hstep := @stagedStep_schedule w scheduled .async output finalize nowMs s id hsound
          (by rw [hnative]; exact fun h => h) hinsert
        rcases hw.async hsound hnative nofun with ⟨hasync, _, hown, hoperations, hstored⟩
        refine hstep.serial hw hsound hasync (scope_async (hstep.transaction.trans hasync) ?_)
        rw [hstep.native, hnative]
        refine ⟨?_, ?_, hstep.stored hstored⟩
        · rw [hstep.staged, hown]
        · rw [hstep.operations, hoperations, append_assoc]
      | _ =>
        rw [hnative] at horderly
        cases horderly

/-! The begin of a transaction. -/

theorem idle_of_orderly (hclosed : w.gate.transaction = none)
    (horderly : (w.gate.transaction.isSome || w.idle) = true) :
    w.gate.pending.rows = [] ∧ forall r, r ∈ w.tasks -> r.task.isFlush = false := by
  rw [hclosed, Option.isSome_none, Bool.false_or, World.idle, Bool.and_eq_true, List.isEmpty_iff,
    Bool.not_eq_true', List.any_eq_false] at horderly
  exact ⟨horderly.left, fun r hr => eq_false_iff.mpr (horderly.right r hr)⟩

theorem serial_enterSync (hw : Serial w) (hsound : Sound w) (horderly : Orderly w .enterSync)
    (hstep : Step w .enterSync w') : Serial w' := by
  cases hstep with
  | enterSync hlive hcase =>
    rcases hcase with ⟨hclosed, _, rfl⟩ | ⟨hsync, _, rfl⟩
    · rcases idle_of_orderly hclosed horderly with ⟨hrows, hno⟩
      refine serial_moved hw hsound hno rfl (scope_sync rfl ?_) (fun _ h => .inl h) hw.failures
      exact ⟨fun staged h => absurd h (not_mem_of_nil hrows),
        fun staged h => absurd h (not_mem_of_nil hrows),
        fun staged h => absurd h (not_mem_of_nil hrows), nofun⟩
    · have hscope := hw.sync hsync
      refine serial_moved hw hsound (hw.noFlush hsync) rfl (scope_sync rfl ?_)
        (fun _ h => .inl h) hw.failures
      exact { hscope with }

theorem serial_acquires (hw : Serial w) (hsound : Sound w)
    (horderly : (w.gate.transaction.isSome || w.idle) = true) (hacquires : Acquires w caller w') :
    Serial w' := by
  cases hacquires with
  | take hclosed =>
    rcases idle_of_orderly hclosed horderly with ⟨hrows, hno⟩
    refine serial_moved hw hsound hno rfl (scope_async rfl ?_) (fun _ h => .inl h) hw.failures
    exact ⟨(stagedOperations_of_nil hrows).symm, hrows⟩
  | wait hasync =>
    exact serial_unmoved hw (unmoved_of_same rfl rfl rfl rfl rfl fun _ h => h)
      (fun _ h => .inl h) hw.failures

theorem serial_reacquire (hw : Serial w) (hsound : Sound w)
    (horderly : Orderly w (.reacquire caller)) (hstep : Step w (.reacquire caller) w') :
    Serial w' := by
  cases hstep with
  | reacquire hwoken hacquires =>
    have hserial : Serial { w with woken := w.woken.erase caller } :=
      serial_unmoved hw (unmoved_of_same rfl rfl rfl rfl rfl fun _ h => h)
        (fun _ h => .inl h) hw.failures
    exact serial_acquires hserial (sound_woken _ hsound) horderly hacquires

/-! Attempts. -/

theorem serial_beginAttempt (hw : Serial w) (hsound : Sound w)
    (hstep : Step w .beginAttempt w') : Serial w' := by
  cases hstep with
  | @beginAttempt started hnative =>
    rcases hw.async hsound hnative nofun with ⟨hasync, hno, hscope⟩
    have hempty : (if started then w.gate.clear else w.gate).pending.rows = [] := by
      cases started with
      | true => rfl
      | false => exact hscope.right
    have hown : (if started then [] else w.own) = ([] : List OperationId) := by
      cases started with
      | true => rfl
      | false => exact hscope.left.trans (stagedOperations_of_nil hscope.right)
    have hopen : (if started then w.gate.clear else w.gate).transaction = some .async := by
      cases started with
      | true | false => exact hasync
    refine serial_moved hw hsound hno rfl (scope_async hopen ⟨?_, ?_, ?_⟩) ?_ hw.failures
    · exact hown.trans (stagedOperations_of_nil hempty).symm
    · rw [hown, append_nil]
    · exact fun staged h => absurd h (not_mem_of_nil hempty)
    · exact fun staged h => absurd h (not_mem_of_nil hempty)

theorem asyncScope_of_stale (hstale : Stale native) (hown : w.own = stagedOperations w)
    (hunstored : Unstored w) : AsyncScope w native := by
  cases native with
  | idle | attempt savepoint => cases hstale
  | acquired started =>
    cases hstale
    exact ⟨hown, hunstored⟩
  | settled outcome =>
    cases outcome with
    | committed => cases hstale
    | explicitRollback | failed => exact ⟨hown, hunstored⟩

theorem serial_settleAttempt {settlement : World.Settlement} (hw : Serial w) (hsound : Sound w)
    (hstep : Step w (.settleAttempt settlement) w') : Serial w' := by
  cases hstep with
  | commitAttempt hnative =>
    rcases hw.async hsound hnative nofun with ⟨hasync, hno, hown, _, hstored⟩
    exact serial_moved hw hsound hno rfl (scope_async hasync ⟨hown, hstored⟩)
      (fun _ h => .inl h) hw.failures
  | rollBack hnative hcommit =>
    rcases hw.async hsound hnative nofun with ⟨hasync, hno, hown, hoperations, _⟩
    refine serial_moved hw hsound hno rfl (scope_async hasync
      (asyncScope_of_stale (stale_of_settlement hcommit) hown ?_))
      (fun _ h => .inl h) hw.failures
    intro staged hstaged hused
    have hnodup : w.storage.operations.Nodup := w.storage.operations_nodup
    rw [hoperations, hown] at hnodup
    exact (nodup_append'.mp hnodup).right.right hused (mem_map_of_mem hstaged)

theorem serial_abandon (hw : Serial w) (hsound : Sound w) (hstep : Step w .abandon w') :
    Serial w' := by
  cases hstep with
  | abandon hnative =>
    rcases hw.async hsound hnative nofun with ⟨hasync, hno, hscope⟩
    exact serial_moved hw hsound hno rfl (scope_async hasync hscope)
      (fun _ h => .inl h) hw.failures

/-! The exits. -/

theorem mem_of_allStaged (hall : w.allStaged s = true) :
    forall row, row ∈ s -> exists staged, staged ∈ w.gate.pending ∧ staged.id = row.id := by
  intro row hrow
  have hkey := all_eq_true.mp hall row hrow
  exact mem_keys.mp (contains_iff_mem.mp hkey)

theorem ready_of_stored {f : Flush} (hstored : Stored w) (hall : forall row, row ∈ w.storage ->
      exists staged, staged ∈ w.gate.pending ∧ staged.id = row.id)
    (hown : forall staged, staged ∈ w.gate.pending -> staged.pending.output.operationId ∈ f.own)
    (hsettles : f.background = true ->
      forall staged, staged ∈ w.gate.pending -> staged.pending.settles = true)
    (hsettled : f.background = true -> forall operationId, operationId ∈ f.own ->
      Settled w operationId ∨ operationId ∈ stagedOperations w) :
    FlushReady w f w.storage.ordered := by
  refine ⟨?_, ?_, ?_, ?_, hown, hsettles, hsettled⟩
  · exact w.storage.ordered_pairwise.imp Nat.ne_of_lt
  · intro q hq
    have hq := Storage.mem_ordered.mp hq
    rcases hall q hq with ⟨staged, hstaged, hid⟩
    rcases hstored staged hstaged with ⟨row, hrow, hkey, hstate⟩
    have heq : row = q := eq_of_key_eq hrow hq (hkey.trans hid)
    rw [← heq]
    exact hstate
  · intro q hq
    exact hall q (Storage.mem_ordered.mp hq)
  · intro staged hstaged
    rcases hstored staged hstaged with ⟨row, hrow, hkey, _⟩
    exact ⟨row, Storage.mem_ordered.mpr hrow, hkey⟩

/-- The native transaction has left `s`, and the outputs whose rows are gone are rejected. -/
structure Retained (w w' : World) (s : Storage) : Prop where
  storage : w'.storage = s
  pending : w'.gate.pending = (w.gate.retain s).pending
  own : w'.own = w.own
  log : w'.log = w.log ++ World.rejections (w.gate.dropped s)

theorem Retained.mem (hretained : Retained w w' s) : staged ∈ w'.gate.pending ↔
      staged ∈ w.gate.pending ∧ exists row, row ∈ s ∧ row.id = staged.id := by
  rw [hretained.pending]
  refine mem_filter.trans (and_congr_right fun _ => ?_)
  rw [contains_iff_mem]
  exact mem_keys

theorem Retained.syncScope (hretained : Retained w w' s) (hscope : SyncScope w)
    (hrows : forall row, row ∈ s -> row ∈ w.storage) : SyncScope w' := by
  refine ⟨?_, ?_, ?_, ?_⟩
  · intro staged hstaged
    rw [hretained.own]
    exact hscope.own staged (hretained.mem.mp hstaged).left
  · exact fun staged hstaged => hscope.settles staged (hretained.mem.mp hstaged).left
  · intro staged hstaged
    rcases hretained.mem.mp hstaged with ⟨hold, row, hrow, hid⟩
    rcases hscope.stored staged hold with ⟨other, hother, hkey, hstate⟩
    have heq : other = row := eq_of_key_eq hother (hrows row hrow) (hkey.trans hid.symm)
    refine ⟨row, ?_, hid, ?_⟩
    · rw [hretained.storage]
      exact hrow
    · rw [← heq]
      exact hstate
  · intro operationId hop
    rw [hretained.own] at hop
    rcases hscope.settled operationId hop with hold | hstaged
    · refine .inl (hold.mono ?_)
      rw [hretained.log]
      exact fun event h => mem_append_left _ h
    · rcases mem_map.mp hstaged with ⟨staged, hentry, rfl⟩
      by_cases hkey : s.intents.keys.contains staged.id = true
      · right
        refine mem_map.mpr ⟨staged, ?_, rfl⟩
        refine hretained.mem.mpr ⟨hentry, ?_⟩
        exact mem_keys.mp (contains_iff_mem.mp hkey)
      · left
        right
        rw [hretained.log]
        refine mem_append_right _ (mem_map.mpr ⟨staged, ?_, rfl⟩)
        refine List.mem_filter.mpr ⟨List.mem_filter.mpr ⟨hentry, ?_⟩, hscope.settles staged hentry⟩
        rw [not_eq_true] at hkey
        rw [hkey]
        rfl

theorem Retained.failures (hretained : Retained w w' s) (hw : Serial w) : Failures w'.log := by
  intro f id failure h
  rw [hretained.log] at h
  rcases mem_append.mp h with hold | hnew
  · exact hw.failures f id failure hold
  · rcases mem_map.mp hnew with ⟨_, _, heq⟩
    cases heq

theorem alone_of_noFlush (task : TaskId) (hw : Serial w) (hclosed : w.gate.transaction = none)
    (hno : forall r, r ∈ w.tasks -> r.task.isFlush = false) : Alone w task :=
  ⟨hclosed, fun r hr _ => ⟨hno r hr, hw.tasks r hr⟩, hw.failures⟩

theorem alone_wakeAsyncWaiter (halone : Alone w task) : Alone w.wakeAsyncWaiter task := by
  rcases wakeAsyncWaiter_eq w with ⟨_, _, heq⟩
  rw [heq]
  exact halone.mono halone.closed rfl (fun _ h => h) halone.failures

theorem serial_exitSync {commit : Bool} (hw : Serial w) (hsound : Sound w)
    (horderly : Orderly w (.exitSync task commit)) (hstep : Step w (.exitSync task commit) w') :
    Serial w' := by
  have hrows : forall {savepoint s : Storage} {savepoints : List Storage} {written : Nat},
      w.savepoints = savepoint :: savepoints -> Ended w savepoint commit s written ->
        forall row, row ∈ s -> row ∈ w.storage := by
    intro savepoint s savepoints written hsavepoints hended
    have hnested := hsound.nested
    rw [hsavepoints] at hnested
    exact (hended.spec hnested.left).right.left
  cases hstep with
  | @popSync _ _ savepoint s savepoints written hsync hsavepoints hended hinner =>
    have hretained : Retained w (w.popped s written savepoints
        { w.gate.retain s with syncDepth := w.gate.syncDepth - 1 }) s :=
      ⟨rfl, rfl, rfl, rfl⟩
    refine serial_moved hw hsound (hw.noFlush hsync) rfl (scope_sync hsync
      (hretained.syncScope (hw.sync hsync) (hrows hsavepoints hended))) ?_ (hretained.failures hw)
    exact fun staged h => .inl (hretained.mem.mp h).left
  | @exitSync _ _ savepoint s savepoints written hsync hsavepoints hended houter hfresh =>
    have hno := hw.noFlush hsync
    have hretained : Retained w (w.popped s written savepoints
        { w.gate.retain s with transaction := none, syncDepth := 0 }) s :=
      ⟨rfl, rfl, rfl, rfl⟩
    have hclosed : Serial (w.popped s written savepoints
        { w.gate.retain s with transaction := none, syncDepth := 0 }) :=
      serial_moved hw hsound hno rfl (scope_of_closed rfl)
        (fun staged h => .inl (hretained.mem.mp h).left) (hretained.failures hw)
    have hkept := hretained.syncScope (hw.sync hsync) (hrows hsavepoints hended)
    have hall : w.allStaged s = true := by
      unfold Orderly orderly at horderly
      rw [hsavepoints, nil_of_outer hsound hsync hsavepoints houter] at horderly
      have hs : (if commit then w.storage else savepoint) = s := by cases hended <;> rfl
      rw [← hs]
      exact horderly
    have hmove := unmoved_wakeAsyncWaiter (w.popped s written savepoints
      { w.gate.retain s with transaction := none, syncDepth := 0 })
    refine serial_continueFlush (alone_wakeAsyncWaiter (alone_of_noFlush task hclosed rfl hno))
      (FlushReady.mono hmove.pending hmove.log ?_)
    refine ready_of_stored hkept.stored ?_ hkept.own (fun _ => hkept.settles) fun _ => hkept.settled
    intro row hrow
    rcases mem_of_allStaged hall row hrow with ⟨staged, hstaged, hid⟩
    exact ⟨staged, hretained.mem.mpr ⟨hstaged, row, hrow, hid.symm⟩, hid⟩

theorem serial_exitTransaction (hw : Serial w) (hsound : Sound w)
    (horderly : Orderly w (.exitTransaction task nowMs))
    (hstep : Step w (.exitTransaction task nowMs) w') : Serial w' := by
  have hasync : forall outcome, w.native = .settled outcome ->
      (forall r, r ∈ w.tasks -> r.task.isFlush = false) ∧ AsyncScope w (.settled outcome) :=
    fun outcome hnative => (hw.async hsound hnative nofun).right
  have hclosed : (forall r, r ∈ w.tasks -> r.task.isFlush = false) ->
      forall storage written (pending : Table Staged.id), (forall staged, staged ∈ pending ->
          staged ∈ w.gate.pending ∨ w.storage.sequence < staged.id) ->
        Serial (w.closed storage written pending) := by
    intro hno storage written pending hpending
    exact serial_moved hw hsound hno rfl (scope_of_closed rfl) hpending hw.failures
  cases hstep with
  | exitFailed hnative =>
    exact serial_wakeAsyncWaiter
      (hclosed (hasync _ hnative).left w.storage w.written Table.empty nofun)
  | unrestaged hnative hrestage =>
    rcases exists_restage hsound.staging.nodup (hasync _ hnative).right.right with ⟨_, hsome⟩
    cases hrestage.symm.trans hsome
  | @restaged _ _ s pending hnative hrestage hfresh =>
    rcases hasync _ hnative with ⟨hno, hscope⟩
    rcases restage_rows hrestage with ⟨hrows, _, hpending⟩
    have hnew : forall staged, staged ∈ pending -> staged ∈
        freshStaged w.storage.sequence (w.gate.pending.rows.map Staged.pending) := by
      intro staged hstaged
      rw [← hpending]
      exact hstaged
    refine serial_setFlush (alone_of_noFlush task (hclosed hno s (w.written + 1) pending ?_)
      rfl hno) ⟨rfl, ?_, ?_⟩
    · exact fun staged h => .inr (id_of_freshStaged (hnew staged h)).left
    · intro staged hstaged
      have hrow := freshRows_eq_map nowMs _ _ ▸ mem_map_of_mem (hnew staged hstaged)
      refine ⟨_, ?_, rfl, state_of_freshRows hrow⟩
      change _ ∈ s.intents.rows
      rw [hrows]
      exact mem_append_right _ hrow
    · intro staged hstaged
      rcases mem_map.mp (pending_of_freshStaged (hnew staged hstaged)) with ⟨_, hold, heq⟩
      rw [← heq]
      rw [hscope.left]
      exact mem_map_of_mem hold
  | exitCommitted hnative hfresh =>
    rcases hasync _ hnative with ⟨hno, hscope⟩
    have hflush := hclosed hno w.storage w.written w.gate.pending fun _ h => .inl h
    refine serial_continueFlush (alone_of_noFlush task hflush rfl hno) ?_
    have hall : w.allStaged w.storage = true := by
      unfold Orderly orderly at horderly
      rw [hnative] at horderly
      exact horderly
    refine ready_of_stored hscope.right (mem_of_allStaged hall) ?_ nofun nofun
    intro staged hstaged
    rw [hscope.left]
    exact mem_map_of_mem hstaged

end Transactions

/-! ## Runs -/

section Runs

variable {w w' : World}

theorem alone_of_flush {task : TaskId} {t : Task} (hw : Serial w)
    (hmem : Running.mk task t ∈ w.tasks) (hflush : t.isFlush = true) : Alone w task := by
  refine ⟨?_, ?_, hw.failures⟩
  · by_contra hopen
    cases (hw.closed hopen ⟨task, t⟩ hmem).symm.trans hflush
  · intro q hq hne
    refine ⟨?_, hw.tasks q hq⟩
    rw [eq_false_iff]
    intro hother
    rw [hw.one q ⟨task, t⟩ hq hmem hother hflush] at hne
    exact hne rfl

theorem serial_resumes {task : TaskId} {r : Response} {t : Task} (hw : Serial w)
    (htenant : t.isTenant = true) (horderly : Orderly w (.resume task r))
    (hresting : w.resting = true) (hfind : w.tasks.find? task = some ⟨task, t⟩)
    (hresumes : Resumes w task r t w') : Serial w' := by
  have hmem := mem_of_find? hfind
  have ht := hw.tasks ⟨task, t⟩ hmem
  cases hresumes with
  | direct hcall => exact serial_direct hw hresting hmem hcall
  | directEnded =>
    refine serial_unmoved hw (unmoved_of_same rfl rfl rfl rfl rfl fun _ h => h) ?_ hw.failures
    exact fun running hrunning => .inl (mem_erase.mp hrunning).left
  | restaged =>
    rcases ht with ⟨hback, hstored, hown⟩
    unfold Orderly orderly at horderly
    dsimp only at horderly
    rw [hfind] at horderly
    refine serial_continueFlush (alone_of_flush hw hmem rfl)
      (ready_of_stored hstored (mem_of_allStaged horderly) hown ?_ ?_)
    · rw [hback]
      exact nofun
    · rw [hback]
      exact nofun
  | flushing hresume =>
    have halone := alone_of_flush hw hmem rfl
    have htouched := touched_of_callStep (callStep_of_resumeCall hresume)
    refine serial_setFlush (halone.mono ?_ htouched.tasks ?_ ?_)
      (ht.mono (congrArg DoOutputGate.pending htouched.gate) htouched.log _)
    · rw [htouched.gate]
      exact halone.closed
    · rw [htouched.gate]
      exact fun _ h => h
    · exact fun f id failure h => halone.failures f id failure (htouched.failures f id failure h)
  | flushed =>
    have halone := alone_of_flush hw hmem rfl
    refine serial_continueFlush (Alone.settle _ _ ?_ nofun) (ready_of_flushed ht)
    exact halone.mono halone.closed rfl (fun _ h => (mem_erase.mp h).left) halone.failures
  | @flushThrown _ call settles _ hfailed =>
    have hsettled := (alone_of_flush hw hmem rfl).settle settles
      (.rejected call.output.operationId) nofun
    refine serial_endFlush (hsettled.record ?_)
    intro g id failure h
    cases mem_singleton.mp h
    rcases FlushScope.current ht with ⟨current, hcurrent, _, houtput, _⟩
    refine ⟨call.output.operationId, ?_, rfl⟩
    rw [← houtput]
    exact FlushScope.own ht current hcurrent
  | refused => cases ht
  | _ => cases htenant

theorem restageable_of_orderly {a : Action} (hw : Serial w) (hsound : Sound w) :
    Restageable w a := by
  cases a with
  | exitTransaction task nowMs =>
    unfold Restageable restageable
    dsimp only
    split
    · rename_i hnative
      rw [all_eq_true]
      intro staged hstaged
      have hunstored := (hw.async hsound hnative nofun).right.right.right staged hstaged
      rw [Bool.not_eq_true', ← not_eq_true, contains_iff_mem]
      exact hunstored
    · rfl
  | _ => rfl

theorem serial_next {a : Action} (hw : Serial w) (hrecoverable : Recoverable w)
    (horderly : Orderly w a) (hnext : next w a = some w') : Serial w' := by
  have hsound := hrecoverable.sound
  have hstepped := stepped_next hrecoverable (restageable_of_orderly hw hsound) hnext
  by_cases hlive : w.status = .live
  · have htenant := hrecoverable.phase.tenant hlive
    have hstep := step_of_next hnext
    cases a with
    | persist | deliver operationId =>
      cases hstep
      exact serial_unmoved hw (unmoved_of_same rfl rfl rfl rfl rfl fun _ h => h)
        (fun _ h => .inl h) hw.failures
    | crash =>
      cases hstep
      exact serial_of_quiet ⟨rfl, rfl, rfl, rfl⟩ nofun hw.failures
    | boot task env =>
      cases hstep with
      | boot hdown => cases hlive.symm.trans hdown
    | resume task r =>
      cases hstep with
      | resume hresting hfind hresumes =>
        exact serial_resumes hw (htenant _ (mem_of_find? hfind)) horderly hresting hfind hresumes
    | schedule task output finalize nowMs => exact serial_schedule hw hsound horderly hstep
    | enterSync => exact serial_enterSync hw hsound horderly hstep
    | exitSync task commit => exact serial_exitSync hw hsound horderly hstep
    | acquire caller =>
      cases hstep with
      | acquire hlive hacquires => exact serial_acquires hw hsound horderly hacquires
    | reacquire caller => exact serial_reacquire hw hsound horderly hstep
    | beginAttempt => exact serial_beginAttempt hw hsound hstep
    | settleAttempt settlement => exact serial_settleAttempt hw hsound hstep
    | abandon => exact serial_abandon hw hsound hstep
    | exitTransaction task nowMs => exact serial_exitTransaction hw hsound horderly hstep
  · have hfailures : Failures w'.log := fun f id failure h =>
      hw.failures f id failure (hstepped.failures hlive f id failure h)
    have hphase := hstepped.recoverable.phase
    cases hstatus : w'.status with
    | live =>
      have hcompleted := hstepped.completed hlive hstatus
      refine serial_of_quiet hcompleted.quiet ?_ hfailures
      intro r hr
      have hmem : r ∈ w'.tasks.rows := hr
      rw [hcompleted.tasks] at hmem
      cases hmem
    | down =>
      refine serial_of_quiet (hphase.quiet (by rw [hstatus]; exact nofun)) ?_ hfailures
      intro r hr
      have hmem : r ∈ w'.tasks.rows := hr
      rw [(hphase.down hstatus).left] at hmem
      cases hmem
    | recovering =>
      refine serial_of_quiet (hphase.quiet (by rw [hstatus]; exact nofun)) ?_ hfailures
      intro r hr
      rcases hphase.recoveryTask hstatus with ⟨_, t, hrows, ht⟩
      have hmem : r ∈ w'.tasks.rows := hr
      rw [hrows, mem_singleton] at hmem
      rw [hmem]
      cases t with
      | recovering env call rest | recoveryRefusing upTo => rfl
      | _ => cases ht

theorem serial_initial : Serial World.initial := serial_of_quiet ⟨rfl, rfl, rfl, rfl⟩ nofun nofun

end Runs

/-! ## Failures of flushes -/

/-- A flush fails when the publication of an intent of its own transaction fails, and never
because a row is in the hands of another computation. -/
structure FlushIsolated (w : World) : Prop where
  recovery : forall f id, ¬ Event.flushFailed f id .recoveryRequired ∈ w.log
  own : forall f id failure, Event.flushFailed f id failure ∈ w.log ->
    exists operationId, operationId ∈ f.own ∧ failure = .publish operationId

theorem flush_isolation {actions : List Action} {w : World}
    (hrun : Run next Orderly World.initial actions w) : FlushIsolated w := by
  have hinitial : Recoverable World.initial ∧ Serial World.initial :=
    ⟨recoverable_initial, serial_initial⟩
  rcases hrun.invariant (P := fun u => Recoverable u ∧ Serial u) (fun _ _ _ hu horderly hnext =>
      ⟨(stepped_next hu.left (restageable_of_orderly hu.right hu.left.sound) hnext).recoverable,
        serial_next hu.right hu.left horderly hnext⟩) hinitial with ⟨_, hserial⟩
  have hfailures := hserial.failures
  refine ⟨?_, hfailures⟩
  intro f id hfailed
  rcases hfailures f id .recoveryRequired hfailed with ⟨_, _, heq⟩
  cases heq

namespace Sample

def refused : List Action :=
  [.boot 0 env, .enterSync, send 1 1, .exitSync 1 true, send 2 2, .resume 1 (.rejected none),
    .persist, .resume 1 .synced]

/-- A transaction commits while an earlier direct publication awaits its `sync`. -/
def overlapping : List Action :=
  [.boot 0 env, send 1 1, .acquire 0, .beginAttempt, send 2 2, .settleAttempt .commit,
    .exitTransaction 2 0, .persist, .resume 2 .synced]

end Sample

open Sample in
theorem flush_isolation_refused : exists w, Run next Orderly World.initial refused w ∧
    FlushIsolated w ∧ Event.flushFailed ⟨[BitVec.ofNat 128 1], true⟩ 1
      (.publish (BitVec.ofNat 128 1)) ∈ w.log := by
  exact exists_run_imp (fun _ hrun hfailed => ⟨flush_isolation hrun, hfailed⟩) (by decide +kernel)

open Sample in
theorem flush_isolation_overlapping : exists w call,
    Run next always World.initial overlapping w ∧
      Running.mk 1 (.direct call) ∈ w.tasks ∧ call.id = 1 ∧
      call.output.operationId = BitVec.ofNat 128 1 ∧
      Event.flushFailed ⟨[BitVec.ofNat 128 2], false⟩ 1 .recoveryRequired ∈ w.log := by
  have hexec : exists w, Run next always World.initial overlapping w ∧
      Running.mk 1 (.direct ⟨1, output 1, true, .committing 1⟩) ∈ w.tasks ∧
      Event.flushFailed ⟨[BitVec.ofNat 128 2], false⟩ 1 .recoveryRequired ∈ w.log :=
    exists_run_of_execute (by decide +kernel)
  rcases hexec with ⟨w, hrun, htask, hfailed⟩
  exact ⟨w, _, hrun, htask, rfl, rfl, hfailed⟩

end OutputGate
end OpenCompute
