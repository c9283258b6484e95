import OpenCompute.OutputGate.Preservation

/-!
# Steps of the running object

What every step outside of recovery has in common: at most one task goes on, the
disk is left alone, the log grows, and no task and no send of a recovery comes
into being.
-/

namespace OpenCompute
namespace OutputGate

open Relational Table List Nat

variable {written : Nat} {id : IntentId} {t : Task}

def Task.isTenant : Task -> Bool
  | .recovering _ _ _ => false
  | .recoveryRefusing _ => false
  | _ => true

def Event.isTenant : Event -> Bool
  | .sent (some _) _ _ => false
  | _ => true

structure Tenant (w w' : World) (actor : Option TaskId) : Prop where
  disk : w'.disk = w.disk
  status : w'.status = w.status
  boots : w'.boots = w.boots
  scheduled : forall output, output ∈ w.scheduled -> output ∈ w'.scheduled
  written : w.written ≤ w'.written
  others : forall r, some r.id ≠ actor -> (r ∈ w'.tasks ↔ r ∈ w.tasks)
  tasks : forall running, running ∈ w'.tasks -> running ∈ w.tasks ∨ running.task.isTenant = true
  log : exists events, w'.log = w.log ++ events ∧
    forall event, event ∈ events -> event.isTenant = true

section Parts

variable {u v w : World} {task : TaskId} {actor : Option TaskId}

theorem tenant_around {storage : Storage} {savepoints : List Storage} {native : Native}
    {gate : DoOutputGate} {woken : List CallerId} {own : List OperationId}
    (hwritten : w.written ≤ written) :
    Tenant w { w with storage, written, savepoints, native, gate, woken, own } actor :=
  ⟨rfl, rfl, rfl, fun _ h => h, hwritten, fun _ _ => Iff.rfl, fun _ h => .inl h, [],
    (append_nil _).symm, nofun⟩

theorem Tenant.refl (w : World) (actor : Option TaskId) : Tenant w w actor :=
  tenant_around (le_refl _)

theorem Tenant.trans (huv : Tenant u v actor) (hvw : Tenant v w actor) : Tenant u w actor where
  disk := hvw.disk.trans huv.disk
  status := hvw.status.trans huv.status
  boots := hvw.boots.trans huv.boots
  scheduled := fun output h => hvw.scheduled output (huv.scheduled output h)
  written := le_trans huv.written hvw.written
  others := fun r hr => (hvw.others r hr).trans (huv.others r hr)
  tasks := by
    intro running hrunning
    rcases hvw.tasks running hrunning with hmid | htenant
    · exact huv.tasks running hmid
    · exact .inr htenant
  log := by
    rcases huv.log with ⟨first, hfirst, hall⟩
    rcases hvw.log with ⟨second, hsecond, hall'⟩
    refine ⟨first ++ second, ?_, ?_⟩
    · rw [hsecond, hfirst, append_assoc]
    · intro event hevent
      rcases mem_append.mp hevent with h | h
      · exact hall event h
      · exact hall' event h

theorem Tenant.mem_log (htenant : Tenant u v actor) :
    forall event, event ∈ u.log -> event ∈ v.log := by
  rcases htenant.log with ⟨_, hlog, _⟩
  rw [hlog]
  exact fun _ h => mem_append_left _ h

theorem tenant_record {events : List Event}
    (hevents : forall event, event ∈ events -> event.isTenant = true) :
    Tenant w (w.record events) actor :=
  ⟨rfl, rfl, rfl, fun _ h => h, le_refl _, fun _ _ => Iff.rfl, fun _ h => .inl h, events,
    rfl, hevents⟩

theorem tenant_event {event : Event} (hevent : event.isTenant = true) :
    Tenant w (w.record [event]) actor := by
  refine tenant_record ?_
  intro other hother
  rw [mem_singleton.mp hother]
  exact hevent

theorem tenant_send {output : Output} (hlive : w.status = .live) :
    Tenant w (w.send id output) actor := by
  refine tenant_event ?_
  unfold World.origin
  rw [hlive]
  rfl

theorem tenant_write (s : Storage) : Tenant w (w.write s) actor := tenant_around (le_succ _)

theorem tenant_setTask (ht : t.isTenant = true) : Tenant w (w.setTask task t) (some task) := by
  refine ⟨rfl, rfl, rfl, fun _ h => h, le_refl _, ?_, ?_, [], (append_nil _).symm, nofun⟩
  · intro r hr
    have hne : r.id ≠ task := fun h => hr (congrArg some h)
    refine mem_put.trans ?_
    constructor
    · rintro (⟨hold, _⟩ | rfl)
      · exact hold
      · exact absurd rfl hne
    · exact fun h => .inl ⟨h, hne⟩
  · intro running hrunning
    rcases mem_put.mp hrunning with ⟨hold, _⟩ | rfl
    · exact .inl hold
    · exact .inr ht

theorem tenant_dropTask (task : TaskId) : Tenant w (w.dropTask task) (some task) := by
  refine ⟨rfl, rfl, rfl, fun _ h => h, le_refl _, ?_,
    fun _ h => .inl (mem_erase.mp h).left, [], (append_nil _).symm, nofun⟩
  intro r hr
  refine mem_erase.trans (and_iff_left ?_)
  exact fun h => hr (congrArg some h)

theorem tenant_wakeAsyncWaiter : Tenant w w.wakeAsyncWaiter actor := by
  rcases wakeAsyncWaiter_eq w with ⟨_, _, heq⟩
  rw [heq]
  exact tenant_around (le_refl _)

theorem tenant_endFlush {f : Flush} : Tenant w (w.endFlush task f) (some task) := by
  unfold World.endFlush
  split
  · exact tenant_dropTask task
  · exact (tenant_dropTask task).trans tenant_wakeAsyncWaiter

theorem tenant_settle (settles : Bool) (event : Event) (hevent : event.isTenant = true) :
    Tenant w (w.settle settles event) actor := by
  unfold World.settle
  split
  · exact tenant_event hevent
  · exact Tenant.refl w actor

end Parts

section Publications

variable {w w' : World} {task : TaskId} {actor : Option TaskId}

/-- Only a publication that awaits its first `sync` sends. -/
theorem tenant_callStep {call : Call} {r : Response} {progress : Progress}
    (hsend : w.status = .live ∨ forall upTo, call.stage ≠ .committing upTo)
    (hstep : CallStep w call r w' progress) : Tenant w w' actor := by
  cases hstep with
  | @send upTo hstage hdurable =>
    rcases hsend with hlive | hno
    · exact tenant_send hlive
    · exact absurd hstage (hno upTo)
  | mark hstage happlied hfinalize =>
    refine (tenant_write (w.storage.markPublished call.id)).trans (tenant_record ?_)
    intro event hevent
    rcases mem_cons.mp hevent with rfl | hrest
    · rfl
    · rw [mem_singleton.mp hrest]
      rfl
  | remove hstage happlied hfinalize =>
    exact (tenant_write (w.storage.delete call.id)).trans (tenant_event rfl)
  | finalize hstage hdurable => exact tenant_event rfl
  | retire hstage | note hfailed hstage => exact tenant_write _
  | returned hstage hdurable | thrown hfailed => exact Tenant.refl w actor

variable {f : Flush} {failure : FlushFailure}

theorem tenant_continueFlush {rest : List Intent} (hlive : w.status = .live) :
    Tenant w (w.continueFlush task f rest) (some task) := by
  have hflushes := flushes_continueFlush w task f rest
  generalize w.continueFlush task f rest = w' at hflushes ⊢
  cases hflushes with
  | done => exact tenant_endFlush
  | refused => exact (tenant_write _).trans (tenant_setTask rfl)
  | send hfind => exact (tenant_send hlive).trans (tenant_setTask rfl)
  | finalize hfind hstate => exact (tenant_event rfl).trans (tenant_setTask rfl)

theorem tenant_throwFlush : Tenant w (w.throwFlush task f id failure) (some task) :=
  (tenant_event rfl).trans tenant_endFlush

theorem tenant_resumes {r : Response} (hlive : w.status = .live) (ht : t.isTenant = true)
    (hresumes : Resumes w task r t w') : Tenant w w' (some task) := by
  cases hresumes with
  | direct hcall => exact (tenant_callStep (.inl hlive) hcall).trans (tenant_setTask rfl)
  | directEnded => exact tenant_dropTask task
  | restaged => exact tenant_continueFlush hlive
  | flushing hresume =>
    exact (tenant_callStep (.inl hlive) (callStep_of_resumeCall hresume)).trans
      (tenant_setTask rfl)
  | @flushed f call settles rest =>
    have hunstaged : Tenant w { w with gate := w.gate.delete call.id } (some task) :=
      tenant_around (le_refl _)
    have hsettled := hunstaged.trans (tenant_settle settles (.resolved call.output.operationId) rfl)
    exact hsettled.trans (tenant_continueFlush (hsettled.status.trans hlive))
  | flushThrown hfailed => exact (tenant_settle _ _ rfl).trans tenant_throwFlush
  | refused =>
    unfold World.resumeRefusal
    split
    · exact (tenant_settle _ _ rfl).trans tenant_throwFlush
    · exact tenant_throwFlush
  | _ => cases ht

end Publications

/-! ## Flushes that are under way -/

/-- The number of writes that the next `sync` is about. -/
def Stage.upTo : Stage -> Nat
  | .committing upTo => upTo
  | .marked upTo => upTo
  | .deleted upTo => upTo
  | .finalizeFailed _ _ upTo => upTo
  | .publishFailed _ upTo => upTo
  | _ => 0

structure Underway (w : World) (f : Flush) (call : Call) (rest : List Intent) : Prop where
  started : forall upTo, call.stage ≠ .committing upTo
  sent : call.stage = .sending -> w.log.any (isSent call.output.operationId) = true
  upTo : call.stage.upTo ≤ w.written
  last : f.background = true -> call.stage.failed = true -> rest = []

def Begun (w : World) (task : TaskId) : Prop :=
  forall f call settles rest, Running.mk task (.flushing f call settles rest) ∈ w.tasks ->
    Underway w f call rest

section Begin

variable {w w' : World} {task : TaskId} {f : Flush}

theorem Underway.mono {call : Call} {rest : List Intent} (hunder : Underway w f call rest)
    (hwritten : w.written ≤ w'.written)
    (hlog : forall event, event ∈ w.log -> event ∈ w'.log) : Underway w' f call rest := by
  refine ⟨hunder.started, fun h => ?_, le_trans hunder.upTo hwritten, hunder.last⟩
  rcases any_eq_true.mp (hunder.sent h) with ⟨event, hevent, hsent⟩
  exact any_eq_true.mpr ⟨event, hlog event hevent, hsent⟩

theorem begun_setTask (ht : forall f call settles rest,
    t = .flushing f call settles rest -> Underway w f call rest) :
    Begun (w.setTask task t) task := by
  intro f call settles rest hmem
  rcases mem_put.mp hmem with ⟨_, hne⟩ | heq
  · exact absurd rfl hne
  · cases heq
    exact (ht f call settles rest rfl).mono (le_refl _) fun _ h => h

theorem begun_dropTask (w : World) (task : TaskId) : Begun (w.dropTask task) task := by
  intro f call settles rest hmem
  exact absurd rfl (mem_erase.mp hmem).right

theorem begun_endFlush (w : World) (task : TaskId) (f : Flush) :
    Begun (w.endFlush task f) task := by
  unfold World.endFlush
  split
  · exact begun_dropTask w task
  · rcases wakeAsyncWaiter_eq (w.dropTask task) with ⟨_, _, heq⟩
    rw [heq]
    intro f call settles rest hmem
    exact absurd rfl (mem_erase.mp hmem).right

theorem begun_continueFlush (w : World) (task : TaskId) (f : Flush) (rest : List Intent) :
    Begun (w.continueFlush task f rest) task := by
  have hflushes := flushes_continueFlush w task f rest
  generalize w.continueFlush task f rest = w' at hflushes ⊢
  cases hflushes with
  | done => exact begun_endFlush w task f
  | refused => exact begun_setTask nofun
  | send hfind =>
    refine begun_setTask ?_
    rintro f call settles rest heq
    cases heq
    refine ⟨nofun, fun _ => ?_, zero_le _, nofun⟩
    refine any_eq_true.mpr ⟨_, mem_append_right _ (mem_singleton_self _), ?_⟩
    exact decide_eq_true rfl
  | finalize hfind hstate =>
    refine begun_setTask ?_
    rintro f call settles rest heq
    cases heq
    exact ⟨nofun, nofun, zero_le _, nofun⟩

end Begin

/-! ## Steps -/

def Action.isTenant : Action -> Bool
  | .persist => false
  | .deliver _ => false
  | .crash => false
  | .boot _ _ => false
  | .resume _ _ => false
  | _ => true

section Steps

variable {w w' : World} {actor : Option TaskId}

theorem tenant_acquires {caller : CallerId} (hacquires : Acquires w caller w') :
    Tenant w w' actor := by
  cases hacquires with
  | take hclosed | wait hasync => exact tenant_around (le_refl _)

theorem tenant_scheduled {output : Output} {s : Storage} {scheduled : Table Output.operationId}
    {gate : DoOutputGate} {own : List OperationId}
    (hscheduled : w.scheduled.insert? output = some scheduled) :
    Tenant w { w.write s with scheduled, gate, own } actor :=
  ⟨rfl, rfl, rfl, fun _ h => (mem_of_insert? hscheduled).mpr (.inl h), le_succ _,
    fun _ _ => Iff.rfl, fun _ h => .inl h, [], (append_nil _).symm, nofun⟩

theorem tenant_popped {savepoint s : Storage} {commit : Bool} (savepoints : List Storage)
    (gate : DoOutputGate) (hended : Ended w savepoint commit s written) :
    Tenant w (w.popped s written savepoints gate) actor := by
  have hwritten : w.written ≤ written := by
    cases hended with
    | commit => exact le_refl _
    | rollback => exact le_succ _
  refine (tenant_around hwritten).trans (tenant_record ?_)
  intro event hevent
  rcases mem_map.mp hevent with ⟨_, _, rfl⟩
  rfl

theorem tenant_closed (storage : Storage) (pending : Table Staged.id)
    (hwritten : w.written ≤ written) : Tenant w (w.closed storage written pending) actor :=
  tenant_around hwritten

theorem tenant_step {a : Action} (hlive : w.status = .live) (ha : a.isTenant = true)
    (hstep : Step w a w') : exists actor, Tenant w w' actor ∧
      forall task, actor = some task -> ¬ task ∈ w.tasks.keys ∧ Begun w' task := by
  have hnobody : forall {u : World}, Tenant w u none -> exists actor, Tenant w u actor ∧
      forall task, actor = some task -> ¬ task ∈ w.tasks.keys ∧ Begun u task :=
    fun h => ⟨none, h, nofun⟩
  have hfresh : forall {u : World} {task : TaskId}, ¬ task ∈ w.tasks.keys -> Begun u task ->
      Tenant w u (some task) -> exists actor, Tenant w u actor ∧
        forall task, actor = some task -> ¬ task ∈ w.tasks.keys ∧ Begun u task := by
    intro u task hfresh hbegun htenant
    refine ⟨some task, htenant, ?_⟩
    rintro other ⟨⟩
    exact ⟨hfresh, hbegun⟩
  cases hstep with
  | persist | deliver | crash | boot | resume => cases ha
  | direct _ hscheduled hinsert hclosed hnew =>
    exact hfresh hnew (begun_setTask nofun)
      ((tenant_scheduled hscheduled).trans (tenant_setTask rfl))
  | staged _ hscheduled hinsert hopen => exact hnobody (tenant_scheduled hscheduled)
  | enterSync | beginAttempt | commitAttempt | abandon =>
    exact hnobody (tenant_around (le_refl _))
  | popSync hsync hsavepoints hended hinner => exact hnobody (tenant_popped _ _ hended)
  | exitSync hsync hsavepoints hended houter hnew =>
    refine hfresh hnew (begun_continueFlush _ _ _ _) (((tenant_popped _ _ hended).trans
      tenant_wakeAsyncWaiter).trans (tenant_continueFlush ?_))
    rw [(tenant_wakeAsyncWaiter : Tenant _ _ none).status]
    exact hlive
  | acquire _ hacquires => exact hnobody (tenant_acquires hacquires)
  | reacquire hwoken hacquires =>
    exact hnobody ((tenant_around (le_refl _)).trans (tenant_acquires hacquires))
  | rollBack hnative hcommit => exact hnobody (tenant_around (le_succ _))
  | exitFailed | unrestaged =>
    exact hnobody ((tenant_closed _ _ (le_refl _)).trans tenant_wakeAsyncWaiter)
  | restaged hnative hrestage hnew =>
    exact hfresh hnew (begun_setTask nofun)
      ((tenant_closed _ _ (le_succ _)).trans (tenant_setTask rfl))
  | exitCommitted hnative hnew =>
    exact hfresh hnew (begun_continueFlush _ _ _ _)
      ((tenant_closed _ _ (le_refl _)).trans (tenant_continueFlush hlive))

end Steps

end OutputGate
end OpenCompute
