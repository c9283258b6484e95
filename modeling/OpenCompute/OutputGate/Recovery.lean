import OpenCompute.OutputGate.Tenant

/-!
# Recovery after crashes

A recovery runs alone and looks at the rows in the order of their ids.  When it
completes the table is empty, and every intent that ever was on the disk has been
sent, applied once and acknowledged.
-/

namespace OpenCompute
namespace OutputGate

open Relational Table Transition List

variable {t : Task} {actor : Option TaskId} {task : TaskId}

/-! ## The sends of a recovery -/

def sends (boot : Nat) (log : List Event) : List IntentId :=
  log.filterMap fun event =>
    match event with
    | .sent (some b) id _ => if b = boot then some id else none
    | _ => none

structure Sends (w : World) : Prop where
  ordered : forall boot, (sends boot w.log).Pairwise fun i j => i < j
  bounded : forall boot, w.boots < boot -> sends boot w.log = []

/-! ## Where the object is -/

structure Quiet (w : World) : Prop where
  transaction : w.gate.transaction = none
  native : w.native = .idle
  savepoints : w.savepoints = []
  woken : w.woken = []

variable {w : World}

theorem Quiet.resting (hquiet : Quiet w) : w.resting = true := by
  rw [resting_iff, hquiet.native]
  exact ⟨hquiet.savepoints, nofun⟩

structure Recovering (w : World) (call : Call) (rest : List Intent) : Prop where
  started : forall upTo, call.stage ≠ .committing upTo
  before : forall row, row ∈ rest -> call.id < row.id
  ordered : rest.Pairwise fun r q => r.id < q.id
  rows : forall row, row ∈ w.storage -> row.id = call.id ∨ exists q, q ∈ rest ∧ q.id = row.id
  deleted : forall upTo, call.stage = .deleted upTo ->
    upTo = w.written ∧ forall row, row ∈ w.storage -> row.id ≠ call.id
  sent : forall id, id ∈ sends w.boots w.log -> id ≤ call.id

def RecoveryTask (w : World) : Task -> Prop
  | .recovering _ call rest => Recovering w call rest
  | .recoveryRefusing _ => True
  | _ => False

def Phase (w : World) : Prop :=
  match w.status with
  | .live => forall running, running ∈ w.tasks -> running.task.isTenant = true
  | .down => Quiet w ∧ w.tasks.rows = [] ∧ w.durable = w.written
  | .recovering => Quiet w ∧ exists task t, w.tasks.rows = [⟨task, t⟩] ∧ RecoveryTask w t

structure Recoverable (w : World) : Prop where
  sound : Sound w
  sends : Sends w
  phase : Phase w

section Phases

variable {w w' : World}

theorem phase_live (hstatus : w.status = .live)
    (htasks : forall running, running ∈ w.tasks -> running.task.isTenant = true) : Phase w := by
  unfold Phase
  rw [hstatus]
  exact htasks

theorem phase_recovering (task : TaskId) (hstatus : w.status = .recovering) (hquiet : Quiet w)
    (htasks : w.tasks.rows = [⟨task, t⟩]) (ht : RecoveryTask w t) : Phase w := by
  unfold Phase
  rw [hstatus]
  exact ⟨hquiet, task, t, htasks, ht⟩

section

variable (hphase : Phase w)
include hphase

theorem Phase.tenant (hlive : w.status = .live) :
    forall running, running ∈ w.tasks -> running.task.isTenant = true := by
  unfold Phase at hphase
  rw [hlive] at hphase
  exact hphase

theorem Phase.quiet (hlive : w.status ≠ .live) : Quiet w := by
  unfold Phase at hphase
  cases hstatus : w.status with
  | live => exact absurd hstatus hlive
  | down | recovering =>
    rw [hstatus] at hphase
    exact hphase.left

theorem Phase.down (hdown : w.status = .down) :
    w.tasks.rows = [] ∧ w.durable = w.written := by
  unfold Phase at hphase
  rw [hdown] at hphase
  exact hphase.right

theorem Phase.recoveryTask (hstatus : w.status = .recovering) :
    exists task t, w.tasks.rows = [⟨task, t⟩] ∧ RecoveryTask w t := by
  unfold Phase at hphase
  rw [hstatus] at hphase
  exact hphase.right

theorem phase_outside {disk : Storage} {durable : Nat} {applied : List OperationId}
    (hdurable : w.durable = w.written -> durable = w.written) :
    Phase { w with disk, durable, applied } := by
  have hquiet : forall status, Quiet w -> Quiet { w with status, disk, durable, applied } :=
    fun _ h => { h with }
  unfold Phase at hphase ⊢
  cases hstatus : w.status with
  | live =>
    rw [hstatus] at hphase
    exact hphase
  | down =>
    rw [hstatus] at hphase
    rcases hphase with ⟨hq, hrows, hall⟩
    exact ⟨hquiet _ hq, hrows, hdurable hall⟩
  | recovering =>
    rw [hstatus] at hphase
    rcases hphase with ⟨hq, task, t, hrows, ht⟩
    refine ⟨hquiet _ hq, task, t, hrows, ?_⟩
    cases t with
    | recovering env call rest =>
      exact { ht with }
    | recoveryRefusing upTo => trivial
    | _ => cases ht

end

theorem sends_log (htenant : Tenant w w' actor) (boot : Nat) :
    sends boot w'.log = sends boot w.log := by
  rcases htenant.log with ⟨_, hlog, hevents⟩
  unfold sends
  rw [hlog, filterMap_append, append_right_eq_self]
  refine filterMap_eq_nil_iff.mpr fun event hevent => ?_
  have htenant := hevents event hevent
  cases event with
  | sent origin id output =>
    cases origin with
    | none => rfl
    | some b => cases htenant
  | _ => rfl

theorem sends_tenant (hsends : Sends w) (htenant : Tenant w w' actor) : Sends w' := by
  constructor
  · intro boot
    rw [sends_log htenant]
    exact hsends.ordered boot
  · intro boot hboot
    rw [htenant.boots] at hboot
    rw [sends_log htenant]
    exact hsends.bounded boot hboot

end Phases

/-! ## The loop of a recovery -/

theorem rows_put_only {tasks : Table Running.id}
    (honly : tasks.rows = [] ∨ exists old, tasks.rows = [⟨task, old⟩]) :
    (tasks.put ⟨task, t⟩).rows = [⟨task, t⟩] := by
  rcases honly with hnil | ⟨_, hold⟩
  · rw [rows_put_of_fresh]
    · rw [hnil, nil_append]
    · unfold Table.keys
      rw [hnil]
      exact not_mem_nil
  · have hkey : (Running.mk task t).id ∈ tasks.keys := by
      unfold Table.keys
      rw [hold]
      exact mem_cons_self
    have hnone : tasks.insert? ⟨task, t⟩ = none := dif_pos hkey
    unfold Table.put
    rw [hnone]
    change tasks.rows.map _ = _
    rw [hold]
    simp

section Loop

variable {w w' : World} {task : TaskId} {env : Env}

structure Pending (w : World) (task : TaskId) (rest : List Intent) : Prop where
  status : w.status = .recovering
  quiet : Quiet w
  tasks : w.tasks.rows = [] ∨ exists old, w.tasks.rows = [⟨task, old⟩]
  ordered : rest.Pairwise fun r q => r.id < q.id
  rows : forall row, row ∈ w.storage -> exists q, q ∈ rest ∧ q.id = row.id
  sent : forall id row, id ∈ sends w.boots w.log -> row ∈ rest -> id < row.id

theorem sends_send {id : IntentId} {output : Output} (boot : Nat)
    (hstatus : w.status = .recovering) :
    sends boot (w.send id output).log =
      sends boot w.log ++ if w.boots = boot then [id] else [] := by
  unfold World.send World.record World.origin
  rw [if_pos hstatus]
  unfold sends
  split
  · rename_i heq
    simp [heq]
  · rename_i hne
    simp [hne]

structure Continued (w w' : World) (rest : List Intent) : Prop where
  sends : Sends w'
  phase : Phase w'
  disk : w'.disk = w.disk
  scheduled : w'.scheduled = w.scheduled
  log : forall event, event ∈ w.log -> event ∈ w'.log
  failures : forall f id failure, Event.flushFailed f id failure ∈ w'.log ->
    Event.flushFailed f id failure ∈ w.log
  live : w'.status = .live -> rest = [] ∧ w'.storage = w.storage ∧ Quiet w' ∧ w'.tasks.rows = []

variable {rest : List Intent} {stage : Stage}

theorem continued_takeUp {row : Intent} {event : Event} {finalize : Bool}
    (hpending : Pending w task (row :: rest)) (hsends : Sends (w.record [event]))
    (hsent : forall id, id ∈ sends w.boots (w.log ++ [event]) -> id ≤ row.id)
    (hevent : forall f id failure, event ≠ .flushFailed f id failure)
    (hstarted : forall upTo, stage ≠ .committing upTo)
    (hdeleted : forall upTo, stage ≠ .deleted upTo) :
    Continued w ((w.record [event]).setTask task
      (.recovering env ⟨row.id, row.output, finalize, stage⟩ rest)) (row :: rest) := by
  have hquiet := hpending.quiet
  have hpairs := pairwise_cons.mp hpending.ordered
  refine ⟨{ hsends with }, ?_, rfl, rfl, fun _ h => mem_append_left _ h, ?_, ?_⟩
  · refine phase_recovering task hpending.status { hquiet with } (rows_put_only hpending.tasks) ?_
    refine ⟨hstarted, hpairs.left, hpairs.right, ?_, fun upTo h => absurd h (hdeleted upTo), hsent⟩
    intro stored hstored
    rcases hpending.rows stored hstored with ⟨q, hq, hid⟩
    rcases mem_cons.mp hq with rfl | hrest
    · exact .inl hid.symm
    · exact .inr ⟨q, hrest, hid⟩
  · intro f id failure hmem
    rcases mem_append.mp hmem with hold | hnew
    · exact hold
    · exact absurd (mem_singleton.mp hnew).symm (hevent f id failure)
  · intro hlive
    cases hpending.status.symm.trans hlive

theorem continued_recovers (hsends : Sends w) (hpending : Pending w task rest)
    (hrecovers : Recovers w task env rest w') : Continued w w' rest := by
  have hstatus := hpending.status
  have hquiet := hpending.quiet
  cases hrecovers with
  | done =>
    have hnone : (w.tasks.erase task).rows = [] := by
      rw [eq_nil_iff_forall_not_mem]
      intro running hrunning
      rcases mem_erase.mp hrunning with ⟨hold, hne⟩
      have hmem : running ∈ w.tasks.rows := hold
      rcases hpending.tasks with hnil | ⟨_, hone⟩
      · rw [hnil] at hmem
        cases hmem
      · rw [hone] at hmem
        rw [mem_singleton.mp hmem] at hne
        exact hne rfl
    refine ⟨{ hsends with }, phase_live rfl ?_, rfl, rfl, fun _ h => h, fun _ _ _ h => h,
      fun _ => ⟨rfl, rfl, { hquiet with }, hnone⟩⟩
    intro running hrunning
    have hmem : running ∈ (w.tasks.erase task).rows := hrunning
    rw [hnone] at hmem
    cases hmem
  | refused =>
    refine ⟨{ hsends with }, ?_, rfl, rfl, fun _ h => h, fun _ _ _ h => h, ?_⟩
    · exact phase_recovering task hstatus { hquiet with } (rows_put_only hpending.tasks) trivial
    · intro hlive
      cases hstatus.symm.trans hlive
  | @send row rest finalize =>
    refine continued_takeUp hpending ⟨?_, ?_⟩ ?_ nofun nofun nofun
    · intro boot
      change (sends boot (w.send row.id row.output).log).Pairwise _
      rw [sends_send boot hstatus]
      split
      · rename_i heq
        rw [← heq]
        refine pairwise_append.mpr ⟨hsends.ordered w.boots, pairwise_singleton _ _, ?_⟩
        intro id hid other hother
        rw [mem_singleton.mp hother]
        exact hpending.sent id row hid mem_cons_self
      · rw [append_nil]
        exact hsends.ordered boot
    · intro boot hboot
      change w.boots < boot at hboot
      change sends boot (w.send row.id row.output).log = []
      rw [sends_send boot hstatus, if_neg (Nat.ne_of_lt hboot), append_nil]
      exact hsends.bounded boot hboot
    · intro id hid
      change id ∈ sends w.boots (w.send row.id row.output).log at hid
      rw [sends_send w.boots hstatus, if_pos rfl, mem_append] at hid
      rcases hid with hold | hnew
      · exact Nat.le_of_lt (hpending.sent id row hold mem_cons_self)
      · exact Nat.le_of_eq (mem_singleton.mp hnew)
  | @finalize row rest hstate =>
    have htenant : Tenant w (w.record [.finalizing row.output.operationId]) none := tenant_event rfl
    refine continued_takeUp hpending (sends_tenant hsends htenant) ?_ nofun nofun nofun
    intro id hid
    have hold : id ∈ sends w.boots w.log := sends_log htenant w.boots ▸ hid
    exact Nat.le_of_lt (hpending.sent id row hold mem_cons_self)

variable {call : Call} {r : Response}

theorem storage_of_callStep (hstep : CallStep w call r w' (.suspended stage)) :
    (forall upTo, stage ≠ .committing upTo) ∧
      (forall row, row ∈ w'.storage -> exists old, old ∈ w.storage ∧ old.id = row.id) ∧
      (forall upTo, stage = .deleted upTo ->
        upTo = w'.written ∧ forall row, row ∈ w'.storage -> row.id ≠ call.id) := by
  have hdelete : forall row, row ∈ w.storage.delete call.id ->
      exists old, old ∈ w.storage ∧ old.id = row.id :=
    fun row hrow => ⟨row, (Storage.mem_delete.mp hrow).left, rfl⟩
  have hupdate : forall {s}, (exists f hid houtput, s = w.storage.update call.id f hid houtput) ->
      forall row, row ∈ s -> exists old, old ∈ w.storage ∧ old.id = row.id := by
    rintro s ⟨f, hid, houtput, rfl⟩ row hrow
    rcases Storage.exists_of_mem_update hrow with ⟨old, hold, hkey, _⟩
    exact ⟨old, hold, hkey⟩
  cases hstep with
  | send hstage hdurable | finalize hstage hdurable =>
    exact ⟨nofun, fun row hrow => ⟨row, hrow, rfl⟩, nofun⟩
  | mark hstage happlied hfinalize =>
    exact ⟨nofun, hupdate (s := w.storage.markPublished call.id) ⟨_, _, _, rfl⟩, nofun⟩
  | remove hstage happlied hfinalize | retire hstage =>
    refine ⟨nofun, hdelete, ?_⟩
    rintro upTo ⟨⟩
    exact ⟨rfl, fun row hrow => (Storage.mem_delete.mp hrow).right⟩
  | @note _ code _ hfailed hstage =>
    have hrows := hupdate (s := w.storage.markFailure call.id code) ⟨_, _, _, rfl⟩
    rcases hstage with rfl | ⟨_, rfl⟩
    · exact ⟨nofun, hrows, nofun⟩
    · exact ⟨nofun, hrows, nofun⟩

structure Completed (w : World) : Prop where
  rows : w.storage.intents.rows = []
  disk : w.disk = w.storage
  quiet : Quiet w
  tasks : w.tasks.rows = []

structure Stepped (w w' : World) : Prop where
  recoverable : Recoverable w'
  disk : w'.disk = w.disk ∨ (w'.disk = w.storage ∧ w.resting = true)
  scheduled : forall output, output ∈ w.scheduled -> output ∈ w'.scheduled
  log : forall event, event ∈ w.log -> event ∈ w'.log
  failures : w.status ≠ .live -> forall f id failure,
    Event.flushFailed f id failure ∈ w'.log -> Event.flushFailed f id failure ∈ w.log
  completed : w.status ≠ .live -> w'.status = .live -> Completed w'

theorem Continued.stepped (hcontinued : Continued w w' rest) (hsound : Sound w')
    (hdisk : w.disk = w.storage)
    (hrows : forall row, row ∈ w.storage -> exists q, q ∈ rest ∧ q.id = row.id) : Stepped w w' := by
  refine ⟨⟨hsound, hcontinued.sends, hcontinued.phase⟩, .inl hcontinued.disk,
    fun _ h => hcontinued.scheduled.symm ▸ h, hcontinued.log, fun _ => hcontinued.failures,
    fun _ hlive => ?_⟩
  rcases hcontinued.live hlive with ⟨rfl, hsame, hquiet, hnone⟩
  refine ⟨?_, ?_, hquiet, hnone⟩
  · rw [hsame, eq_nil_iff_forall_not_mem]
    intro row hrow
    rcases hrows row hrow with ⟨_, hq, _⟩
    cases hq
  · rw [hcontinued.disk, hsame, hdisk]

theorem stepped_crash (hw : Recoverable w) : Stepped w w.crash :=
  ⟨⟨sound_crash hw.sound, { hw.sends with }, ⟨rfl, rfl, rfl, rfl⟩, rfl, rfl⟩,
    .inl rfl, fun _ h => h, fun _ h => h, fun _ _ _ _ h => h, nofun⟩

theorem recovered_resumes (hw : Recoverable w) (hstatus : w.status = .recovering)
    (htasks : w.tasks.rows = [⟨task, t⟩]) (ht : RecoveryTask w t) (hresumes : Resumes w task r t w')
    (hsound : Sound w') : Stepped w w' := by
  have hquiet : Quiet w := hw.phase.quiet (by rw [hstatus]; exact nofun)
  cases hresumes with
  | @recovering env call rest v stage hstep =>
    have htenant : Tenant w v none := tenant_callStep (.inr ht.started) hstep
    have htouched := touched_of_callStep hstep
    have hsends := sends_tenant hw.sends htenant
    have hstatus' := htenant.status.trans hstatus
    rcases storage_of_callStep hstep with ⟨hstarted, hrows, hdeleted⟩
    refine ⟨⟨hsound, { hsends with }, ?_⟩, .inl htenant.disk,
      htenant.scheduled, htouched.log, fun _ => htouched.failures, fun _ => ?_⟩
    · refine phase_recovering task (t := .recovering env { call with stage } rest) hstatus'
        ⟨?_, ?_, ?_, ?_⟩ ?_ ?_
      · change v.gate.transaction = none
        rw [htouched.gate]
        exact hquiet.transaction
      · exact htouched.native.trans hquiet.native
      · cases hstep <;> exact hquiet.savepoints
      · cases hstep <;> exact hquiet.woken
      · refine rows_put_only (.inr ⟨.recovering env call rest, ?_⟩)
        rw [htouched.tasks]
        exact htasks
      · refine ⟨hstarted, ht.before, ht.ordered, ?_, hdeleted, ?_⟩
        · intro row hrow
          rcases hrows row hrow with ⟨old, hold, hid⟩
          rw [← hid]
          exact ht.rows old hold
        · intro id hid
          change id ∈ sends v.boots v.log at hid
          rw [htenant.boots, sends_log htenant] at hid
          exact ht.sent id hid
    · intro hlive
      cases hstatus'.symm.trans hlive
  | @recovered env _ rest _ hstage hdurable =>
    rcases ht.deleted _ hstage with ⟨hupTo, hgone⟩
    rw [hupTo] at hdurable
    have hdisk := hw.sound.durable_eq (Nat.le_antisymm hw.sound.durable_le hdurable)
    have hrows : forall row, row ∈ w.storage -> exists q, q ∈ rest ∧ q.id = row.id :=
      fun row hrow => (ht.rows row hrow).resolve_left (hgone row hrow)
    have hcontinued := continued_recovers hw.sends ⟨hstatus, hquiet, .inr ⟨_, htasks⟩,
      ht.ordered, hrows, fun id row hid hrow => Nat.lt_of_le_of_lt (ht.sent id hid)
        (ht.before row hrow)⟩ (recovers_continueRecovery w task env rest)
    exact hcontinued.stepped hsound hdisk hrows
  | recoveryFailed | recoveryRefused => exact stepped_crash hw
  | _ => cases ht

end Loop

/-! ## Runs -/

/-- The condition on a run.  When a transaction that was rolled back explicitly exits, none
of the outputs in the map still has a row. -/
def restageable (w : World) : Action -> Bool
  | .exitTransaction _ _ =>
    match w.native with
    | .settled .explicitRollback => w.gate.pending.rows.all fun staged =>
      !w.storage.operations.contains staged.pending.output.operationId
    | _ => true
  | _ => true

def Restageable (w : World) (a : Action) : Prop := restageable w a = true

instance (w : World) (a : Action) : Decidable (Restageable w a) :=
  inferInstanceAs (Decidable (restageable w a = true))

section Steps

variable {w w' : World}

theorem stepped_tenant (hw : Recoverable w) (hlive : w.status = .live) (hsound : Sound w')
    (htenant : Tenant w w' actor) : Stepped w w' where
  recoverable := by
    refine ⟨hsound, sends_tenant hw.sends htenant, phase_live (htenant.status.trans hlive) ?_⟩
    intro running hrunning
    rcases htenant.tasks running hrunning with hold | hnew
    · exact hw.phase.tenant hlive running hold
    · exact hnew
  disk := .inl htenant.disk
  scheduled := htenant.scheduled
  log := htenant.mem_log
  failures := fun h => absurd hlive h
  completed := fun h => absurd hlive h

variable {a : Action}

theorem live_of_step (hw : Recoverable w) (ha : a.isTenant = true) (hstep : Step w a w') :
    w.status = .live := by
  by_contra hnot
  have hquiet := hw.phase.quiet hnot
  have hidle := hquiet.native
  cases hstep with
  | persist | deliver | crash | boot | resume => cases ha
  | direct hlive _ _ _ _ | staged hlive _ _ _ | enterSync hlive _ | acquire hlive _ =>
    exact hnot hlive
  | popSync hsync _ _ _ | exitSync hsync _ _ _ _ => cases hquiet.transaction.symm.trans hsync
  | reacquire hwoken _ =>
    rw [hquiet.woken] at hwoken
    cases hwoken
  | beginAttempt hnative | commitAttempt hnative | rollBack hnative _ | abandon hnative
  | exitFailed hnative | unrestaged hnative _ | restaged hnative _ _ | exitCommitted hnative _ =>
    cases hidle.symm.trans hnative

theorem stepped_boot {env : Env} (hw : Recoverable w) (hdown : w.status = .down) :
    Stepped w ({ w with status := .recovering, boots := w.boots + 1 }.continueRecovery task env
      w.storage.ordered) := by
  have hquiet : Quiet w := hw.phase.quiet (by rw [hdown]; exact nofun)
  rcases hw.phase.down hdown with ⟨hrows, hdurable⟩
  have hsends : Sends { w with status := .recovering, boots := w.boots + 1 } :=
    ⟨hw.sends.ordered, fun boot hboot => hw.sends.bounded boot (Nat.lt_of_succ_lt hboot)⟩
  have hnone : sends (w.boots + 1) w.log = [] := hw.sends.bounded _ (Nat.lt_succ_self _)
  have hcontinued := continued_recovers hsends
    (⟨rfl, { hquiet with }, .inl hrows, w.storage.ordered_pairwise,
      fun row hrow => ⟨row, Storage.mem_ordered.mpr hrow, rfl⟩, by
        intro id row hid
        rw [hnone] at hid
        cases hid⟩ :
      Pending { w with status := .recovering, boots := w.boots + 1 } task w.storage.ordered)
    (recovers_continueRecovery _ task env _)
  have hstepped := hcontinued.stepped (sound_boot hw.sound hquiet.resting)
    (hw.sound.durable_eq hdurable) fun row hrow => ⟨row, Storage.mem_ordered.mpr hrow, rfl⟩
  exact ⟨hstepped.recoverable, hstepped.disk, hstepped.scheduled, hstepped.log,
    fun _ => hstepped.failures nofun, fun _ => hstepped.completed nofun⟩

theorem stepped_step (hw : Recoverable w) (hrestageable : Restageable w a) (hstep : Step w a w') :
    Stepped w w' := by
  have hunlive : forall {v : World}, v.status = w.status -> w.status ≠ .live ->
      v.status = .live -> Completed v :=
    fun hsame hnot hlive => absurd (hsame.symm.trans hlive) hnot
  have hsound : (forall task env, a ≠ .boot task env) -> Sound w' := by
    intro hboot
    refine sound_step hw.sound (fun task env h => absurd h (hboot task env)) ?_ hstep
    rintro task nowMs rfl hnative staged hstaged hused
    unfold Restageable restageable at hrestageable
    rw [hnative] at hrestageable
    have hfresh := all_eq_true.mp hrestageable staged hstaged
    rw [contains_iff_mem.mpr hused] at hfresh
    cases hfresh
  by_cases ha : a.isTenant = true
  · have hlive := live_of_step hw ha hstep
    rcases tenant_step hlive ha hstep with ⟨_, htenant, _⟩
    refine stepped_tenant hw hlive (hsound ?_) htenant
    rintro task env rfl
    cases ha
  · cases hstep with
    | persist hresting =>
      exact ⟨⟨hsound nofun, { hw.sends with }, phase_outside hw.phase fun _ => rfl⟩,
        .inr ⟨rfl, hresting⟩, fun _ h => h, fun _ h => h, fun _ _ _ _ h => h, hunlive rfl⟩
    | deliver hsent hnew =>
      exact ⟨⟨hsound nofun, { hw.sends with }, phase_outside hw.phase fun h => h⟩,
        .inl rfl, fun _ h => h, fun _ h => h, fun _ _ _ _ h => h, hunlive rfl⟩
    | crash => exact stepped_crash hw
    | boot hdown => exact stepped_boot hw hdown
    | resume hresting hfind hresumes =>
      have hmem := mem_of_find? hfind
      cases hstatus : w.status with
      | live =>
        exact stepped_tenant hw hstatus (hsound nofun)
          (tenant_resumes hstatus (hw.phase.tenant hstatus _ hmem) hresumes)
      | down =>
        rw [← mem_rows, (hw.phase.down hstatus).left] at hmem
        cases hmem
      | recovering =>
        rcases hw.phase.recoveryTask hstatus with ⟨_, _, hrows, ht⟩
        rw [← mem_rows, hrows, mem_singleton] at hmem
        cases hmem
        exact recovered_resumes hw hstatus hrows ht hresumes (hsound nofun)
    | _ => exact absurd rfl ha

theorem stepped_next (hw : Recoverable w) (hrestageable : Restageable w a)
    (hnext : next w a = some w') : Stepped w w' :=
  stepped_step hw hrestageable (step_of_next hnext)

end Steps

theorem recoverable_initial : Recoverable World.initial :=
  ⟨sound_initial, ⟨fun _ => List.Pairwise.nil, fun _ _ => rfl⟩, ⟨⟨rfl, rfl, rfl, rfl⟩, rfl, rfl⟩⟩

section Runs

variable {w' : World} {actions : List Action} {operationId : OperationId} {output : Output}

/-! ## Committed intents -/

/-- The operation is on the disk and in a row that no rollback takes away, or it was
acknowledged. -/
def Held (w : World) (operationId : OperationId) : Prop :=
  (operationId ∈ w.disk.operations ∧ Kept w operationId) ∨ Acknowledged w operationId

theorem held_of_disk (hw : Recoverable w) (hdisk : operationId ∈ w.disk.operations) :
    Held w operationId := by
  rcases Storage.mem_operations.mp hdisk with ⟨row, hrow, hop⟩
  have hkept := hw.sound.kept row hrow
  rw [hop] at hkept
  exact .inl ⟨hdisk, hkept⟩

theorem held_next {a : Action} (hw : Recoverable w) (hrestageable : Restageable w a)
    (hnext : next w a = some w') (hheld : Held w operationId) : Held w' operationId := by
  have hstep := stepped_next hw hrestageable hnext
  rcases hheld with ⟨hdisk, hkept⟩ | hack
  · rcases hstep.disk with hsame | ⟨hsame, hresting⟩
    · apply held_of_disk hstep.recoverable
      rw [hsame]
      exact hdisk
    · rcases hkept with ⟨row, hrow, hop⟩ | hack
      · apply held_of_disk hstep.recoverable
        rw [hsame]
        rw [base_of_resting hresting] at hrow
        exact Storage.mem_operations.mpr ⟨row, hrow, hop⟩
      · exact .inr (hstep.log _ hack)
  · exact .inr (hstep.log _ hack)

/-- An output has been sent under one operation id, has taken effect once, and has no row. -/
structure Delivered (w : World) (output : Output) : Prop where
  sent : exists boot id, Event.sent boot id output ∈ w.log
  same : forall boot id other, Event.sent boot id other ∈ w.log ->
    other.operationId = output.operationId -> other = output
  acknowledged : Acknowledged w output.operationId
  once : w.applied.count output.operationId = 1
  gone : w.storage.intents.rows = [] ∧ w.disk.intents.rows = []

def Task.call? : Task -> Option Call
  | .direct call => some call
  | .flushing _ call _ _ => some call
  | .recovering _ call _ => some call
  | _ => none

/-- What holds in every state of a run, and at the end of every later recovery. -/
structure CrashSafe (w : World) : Prop where
  identity : forall running call row, running ∈ w.tasks -> running.task.call? = some call ->
    row ∈ w.storage -> row.id = call.id -> row.output = call.output
  finalized : forall before after operationId, w.log = before ++ .finalizing operationId :: after ->
    Event.acknowledged operationId ∈ before ∧ Event.marked operationId ∈ before
  ordered : forall boot, (sends boot w.log).Pairwise fun i j => i < j
  delivered : forall row later u a v, row ∈ w.disk -> Run next Restageable w later u ->
    Restageable u a -> next u a = some v -> u.status ≠ .live -> v.status = .live ->
    Delivered v row.output

theorem call_stored {call : Call} (ht : TaskSound w t) (hcall : t.call? = some call) :
    CallSound w call := by
  cases t with
  | direct c =>
    cases hcall
    exact ht
  | flushing f c settles rest | recovering env c rest =>
    cases hcall
    exact ht.left
  | _ => cases hcall

theorem crash_safety {actions : List Action} {w : World}
    (hrun : Run next Restageable World.initial actions w) : CrashSafe w := by
  have hw : Recoverable w := hrun.invariant (fun _ _ _ hu hrestageable hnext =>
    (stepped_next hu hrestageable hnext).recoverable) recoverable_initial
  constructor
  · intro running call row hrunning hcall hrow hid
    exact (call_stored (hw.sound.tasks running hrunning) hcall).stored row hrow hid
  · intro before after operationId hlog
    exact hw.sound.outside.ordered.before hlog
  · exact hw.sends.ordered
  · intro row later u a v hrow hlater hrestageable hnext hnot hlive
    have hstart := held_of_disk hw (Storage.mem_operations.mpr ⟨row, hrow, rfl⟩)
    rcases hlater.invariant (P := fun u => Recoverable u ∧ Held u row.output.operationId ∧
        row.output ∈ u.scheduled)
      (fun _ _ _ hu hrestageable hnext =>
        have hstep := stepped_next hu.left hrestageable hnext
        ⟨hstep.recoverable, held_next hu.left hrestageable hnext hu.right.left,
          hstep.scheduled row.output hu.right.right⟩)
      ⟨hw, hstart, (hw.sound.disk row hrow).scheduled⟩ with ⟨hu, hheld, hscheduled⟩
    have hstep := stepped_next hu hrestageable hnext
    have hcompleted := hstep.completed hnot hlive
    have hgone : v.storage.intents.rows = [] ∧ v.disk.intents.rows = [] := by
      rw [hcompleted.disk]
      exact ⟨hcompleted.rows, hcompleted.rows⟩
    have hack : Acknowledged v row.output.operationId := by
      rcases held_next hu hrestageable hnext hheld with ⟨hmem, _⟩ | hack
      · unfold Storage.operations at hmem
        rw [hgone.right] at hmem
        cases hmem
      · exact hack
    have houtside := hstep.recoverable.sound.outside
    have happlied := houtside.applied _ hack
    have hsame : forall boot id other, Event.sent boot id other ∈ v.log ->
        other.operationId = row.output.operationId -> other = row.output := by
      intro boot id other hsent hop
      exact eq_of_key_eq (houtside.scheduled boot id other hsent)
        (hstep.scheduled row.output hscheduled) hop
    refine ⟨?_, hsame, hack, List.count_eq_one_of_mem houtside.nodup happlied, hgone⟩
    rcases List.any_eq_true.mp (houtside.sent _ happlied) with ⟨event, hevent, hsent⟩
    cases event with
    | sent boot id other =>
      have heq := hsame boot id other hevent (of_decide_eq_true hsent)
      rw [heq] at hevent
      exact ⟨boot, id, hevent⟩
    | _ => cases hsent

end Runs

namespace Sample

def output (n : Nat) : Output := ⟨"queue", "EVENTS", [1], BitVec.ofNat 128 n⟩

def env : Env := [("EVENTS", true)]

def send (task n : Nat) : Action := .schedule task (output n) true 0

def publish (task n : Nat) : List Action :=
  [.deliver (BitVec.ofNat 128 n), .resume task .fulfilled, .persist, .resume task .synced,
    .resume task .fulfilled, .persist, .resume task .synced]

def committed : List Action :=
  [.boot 0 env, send 1 1, .persist, .resume 1 .synced, .deliver (BitVec.ofNat 128 1)]

def recovery : List Action :=
  [.crash, .boot 0 env, .resume 0 .fulfilled, .persist, .crash, .boot 0 env,
    .resume 0 .fulfilled, .persist]

def unrestaged : List Action :=
  [.boot 0 env, .enterSync, send 1 1, .exitSync 1 true, .acquire 0, .beginAttempt, send 2 2,
    .settleAttempt .rollback, .exitTransaction 2 0, send 2 3, .persist, .resume 2 .synced,
    .resume 2 (.rejected none), .persist, .resume 2 .synced]

def overtaken : List Action :=
  publish 1 1 ++ [.acquire 0, .beginAttempt, .settleAttempt .commit, .exitTransaction 3 0] ++
    publish 3 2 ++ [.crash]

end Sample

open Sample in
theorem crash_safety_recovered : exists w later u v,
    Run next Restageable World.initial committed w ∧ CrashSafe w ∧
      (exists row, row ∈ w.disk ∧ Run next Restageable w later u ∧ u.status = .recovering ∧
        next u (.resume 0 .synced) = some v ∧ v.status = .live ∧ Delivered v row.output) := by
  have hexec : exists w, Run next Restageable World.initial committed w ∧
      w.disk.intents.rows ≠ [] ∧ exists u, u ∈ execute next Restageable w recovery ∧
        u.status = .recovering ∧ exists v, next u (.resume 0 .synced) = some v ∧ v.status = .live :=
    exists_run_of_execute (by decide +kernel)
  rcases hexec with ⟨w, hrun, hdisk, u, hu, hstatus, v, hnext, hlive⟩
  have hlater := run_of_execute hu
  rcases List.exists_mem_of_ne_nil _ hdisk with ⟨row, hrow⟩
  have hsafe := crash_safety hrun
  refine ⟨w, recovery, u, v, hrun, hsafe, row, hrow, hlater, hstatus, hnext, hlive, ?_⟩
  refine hsafe.delivered row recovery u (.resume 0 .synced) v hrow hlater rfl hnext ?_ hlive
  rw [hstatus]
  exact nofun

open Sample in
theorem crash_safety_overtaken : exists w u v row,
    Run next always World.initial unrestaged w ∧ row ∈ w.disk ∧
      row.operationId = BitVec.ofNat 128 3 ∧
      Run next always w overtaken u ∧ u.status = .down ∧
      next u (.boot 0 env) = some v ∧ v.status = .live ∧
      ¬ Acknowledged v row.operationId ∧ v.applied.count row.operationId = 0 ∧
      v.storage.intents.rows = [] := by
  have hexec : exists w, Run next always World.initial unrestaged w ∧
      exists row, row ∈ w.disk.intents ∧ row.operationId = BitVec.ofNat 128 3 ∧
        exists u, u ∈ execute next always w overtaken ∧ u.status = .down ∧
          exists v, next u (.boot 0 env) = some v ∧ v.status = .live ∧
            ¬ Event.acknowledged row.operationId ∈ v.log ∧
            v.applied.count row.operationId = 0 ∧ v.storage.intents.rows = [] :=
    exists_run_of_execute (by decide +kernel)
  rcases hexec with ⟨w, hrun, row, hrow, hop, u, hu, hdown, v, hnext, hend⟩
  exact ⟨w, u, v, row, hrun, hrow, hop, run_of_execute hu, hdown, hnext, hend⟩

end OutputGate
end OpenCompute
