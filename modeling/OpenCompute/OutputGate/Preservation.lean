import OpenCompute.OutputGate.Soundness

/-!
# The invariant along runs

Every action keeps the rows, the publications and the backend sound, provided
that a transaction which was rolled back explicitly can be restaged.
-/

namespace OpenCompute
namespace OutputGate

open Relational Table Transition Nat
open List hiding mem_filter

section Storage

variable {w : World}

/-! ## The disk and the backend -/

theorem sound_persist (hw : Sound w) (hresting : w.resting = true) :
    Sound { w with disk := w.storage, durable := w.written } :=
  have hlater : Later w { w with disk := w.storage, durable := w.written } :=
    ⟨fun _ h => h, fun _ h => h, le_refl _, fun row h _ => ⟨row, h, rfl, rfl⟩, fun _ h _ => h⟩
  { hw with
    rows := fun row hrow => (hw.rows row hrow).mono hlater
    disk := fun row hrow => (hw.rows row hrow).mono hlater
    kept := fun row hrow => .inl ⟨row, (base_of_resting hresting).symm ▸ hrow, rfl⟩
    tasks := fun running hrunning => (hw.tasks running hrunning).mono hlater
    durable_le := le_refl _
    durable_eq := fun _ => rfl }

theorem sound_crash (hw : Sound w) : Sound w.crash where
  shape := ⟨rfl, rfl⟩
  nested := trivial
  attempt := nofun
  outside := hw.outside
  staging := ⟨nofun, nodup_nil, nofun⟩
  fresh := nofun
  rows := fun row hrow => ⟨(hw.disk row hrow).scheduled, (hw.disk row hrow).published⟩
  disk := fun row hrow => ⟨(hw.disk row hrow).scheduled, (hw.disk row hrow).published⟩
  kept := fun row hrow => .inl ⟨row, hrow, rfl⟩
  tasks := nofun
  durable_le := le_refl _
  durable_eq := fun _ => rfl

/-! ## Recovery -/

variable {w' : World} {task : TaskId} {env : Env}

theorem sound_recovers {rest : List Intent} (hw : Sound w) (hresting : w.resting = true)
    (hrest : forall row, row ∈ rest -> SelectedSound w row)
    (hrecovers : Recovers w task env rest w') : Sound w' := by
  cases hrecovers with
  | done => exact sound_around (sound_dropTask task hw) fun _ hrunning => .inl hrunning
  | refused => exact sound_setTask (sound_markFailure hw hresting) trivial
  | @send row rest finalize =>
    have hrow := hrest row mem_cons_self
    exact sound_takeUp hw hrest id hrow.scheduled (call_of_selected hrow rfl trivial)
  | @finalize row rest hstate =>
    have hrow := hrest row mem_cons_self
    have hfacts : Acknowledged w row.output.operationId ∧ Marked w row.output.operationId :=
      hrow.published hstate
    exact sound_takeUp hw hrest id hfacts (call_of_selected hrow rfl hfacts)

theorem sound_resumes {r : Response} {t : Task} (hw : Sound w) (hresting : w.resting = true)
    (ht : TaskSound w t) (hresumes : Resumes w task r t w') : Sound w' := by
  cases hresumes with
  | direct hcall =>
    have hresumed := resumed_of_callStep hw hresting ht hcall
    exact sound_setTask hresumed.sound (hresumed.callSound ht rfl)
  | directEnded => exact sound_dropTask task hw
  | restaged => exact sound_flushAll hw hresting
  | flushing hresume =>
    have hresumed := resumed_of_callStep hw hresting ht.left (callStep_of_resumeCall hresume)
    exact sound_setTask hresumed.sound ⟨hresumed.callSound ht.left rfl,
      fun row hrow => (ht.right row hrow).mono hresumed.later⟩
  | @flushed f call settles rest =>
    have hsub : ((w.gate.delete call.id).pending.rows.Sublist w.gate.pending.rows) :=
      filter_sublist
    have hunstaged : Sound { w with gate := w.gate.delete call.id } :=
      (evolves_unstage hsub).sound hw hw.shape hw.nested hw.attempt hw.outside
        ⟨fun staged h => hw.staging.scheduled staged (hsub.subset h),
          (hsub.map _).nodup hw.staging.nodup,
          fun staged row h => hw.staging.stored staged row (hsub.subset h)⟩
        fun hstale staged h => hw.fresh hstale staged (hsub.subset h)
    have hlater := later_settle { w with gate := w.gate.delete call.id } settles
      (.resolved call.output.operationId)
    refine sound_flushes
      (sound_settle settles (.resolved call.output.operationId) hunstaged trivial) ?_ ?_
      (flushes_continueFlush _ task f rest)
    · rw [resting_settle]
      exact hresting
    · intro row hrow
      exact ((ht.right row hrow).mono (evolves_unstage hsub).toLater).mono hlater
  | flushThrown hfailed => exact sound_throwFlush (sound_settle _ _ hw trivial)
  | refused =>
    unfold World.resumeRefusal
    split
    · exact sound_throwFlush (sound_settle _ _ hw trivial)
    · exact sound_throwFlush hw
  | recovering hcall =>
    have hresumed := resumed_of_callStep hw hresting ht.left hcall
    exact sound_setTask hresumed.sound ⟨hresumed.callSound ht.left rfl,
      fun row hrow => (ht.right row hrow).mono hresumed.later⟩
  | recovered hstage hdurable =>
    exact sound_recovers hw hresting ht.right (recovers_continueRecovery w task _ _)
  | recoveryFailed | recoveryRefused => exact sound_crash hw

theorem sound_boot (hw : Sound w) (hresting : w.resting = true) :
    Sound ({ w with status := .recovering, boots := w.boots + 1 }.continueRecovery task env
      w.storage.ordered) := by
  have hsound : Sound { w with status := .recovering, boots := w.boots + 1 } :=
    sound_around hw fun _ hrunning => .inl hrunning
  refine sound_recovers hsound hresting ?_ (recovers_continueRecovery _ task env _)
  intro row hrow
  exact selected_of_mem hsound hresting (Storage.mem_ordered.mp hrow)

end Storage

/-! ## Scheduling -/

section Scheduling

variable {w w' : World}

theorem nested_of_extends {s t : Storage} {savepoints : List Storage}
    (hnested : Nested s savepoints) (hext : Storage.Extends s t) : Nested t savepoints := by
  cases savepoints with
  | nil => trivial
  | cons savepoint savepoints => exact ⟨hnested.left.trans hext, hnested.right⟩

structure Inserted (w w' : World) (output : Output) (id : IntentId) : Prop where
  storage : exists nowMs, w.storage.insertIntent output nowMs = some (id, w'.storage)
  scheduled : w.scheduled.insert? output = some w'.scheduled
  disk : w'.disk = w.disk
  written : w'.written = w.written + 1
  durable : w'.durable = w.durable
  savepoints : w'.savepoints = w.savepoints
  native : w'.native = w.native
  transaction : w'.gate.transaction = w.gate.transaction
  syncDepth : w'.gate.syncDepth = w.gate.syncDepth
  log : w'.log = w.log
  applied : w'.applied = w.applied
  pending : forall staged, staged ∈ w'.gate.pending -> (staged ∈ w.gate.pending ∧ staged.id ≠ id) ∨
      (staged.id = id ∧ staged.pending.output = output)
  operations : (w'.gate.pending.rows.map fun staged => staged.pending.output.operationId).Nodup
  tasks : forall running, running ∈ w'.tasks -> running ∈ w.tasks ∨
    (w.resting = true ∧ exists finalize upTo,
      running.task = .direct ⟨id, output, finalize, .committing upTo⟩)

variable {output : Output} {id : IntentId}

theorem Inserted.base (hinserted : Inserted w w' output id) :
    w'.base = w.base ∨ (w.base = w.storage ∧ w'.base = w'.storage) := by
  unfold World.base
  rw [hinserted.native, hinserted.savepoints]
  cases w.native with
  | attempt savepoint => exact .inl rfl
  | _ =>
    cases w.savepoints.getLast? with
    | none => exact .inr ⟨rfl, rfl⟩
    | some savepoint => exact .inl rfl

theorem Inserted.unique {row : Intent} (hinserted : Inserted w w' output id)
    (hrow : row ∈ w'.storage) (hkey : row.id = id) : row.output = output := by
  rcases hinserted.storage with ⟨_, hinsert⟩
  rcases (Storage.mem_of_insertIntent hinsert).mp hrow with hold | rfl
  · have hle := w.storage.ids_le row hold
    rw [hkey, (Storage.insertIntent_eq_some hinsert).left] at hle
    exact absurd hle (not_succ_le_self _)
  · rfl

theorem Inserted.evolves (hw : Sound w) (hinserted : Inserted w w' output id) : Evolves w w' := by
  rcases hinserted.storage with ⟨_, hinsert⟩
  rcases Storage.insertIntent_eq_some hinsert with ⟨hid, hsequence, _⟩
  have hext := Storage.extends_insertIntent hinsert
  have hbase := hw.extends_base
  have hscheduled : forall other, other ∈ w'.scheduled ↔ other ∈ w.scheduled ∨ other = output :=
    fun _ => mem_of_insert? hinserted.scheduled
  have hlater : Later w w' := by
    refine ⟨fun other h => (hscheduled other).mpr (.inl h), fun _ h => hinserted.log ▸ h,
      ?_, ?_, ?_⟩
    · rcases hinserted.base with heq | ⟨hold, hnew⟩
      · rw [heq]
      · rw [hold, hnew]
        exact hext.sequence
    · intro row hrow hle
      rcases (Storage.mem_of_insertIntent hinsert).mp hrow with hold | rfl
      · exact ⟨row, hold, rfl, rfl⟩
      · exact absurd (le_trans hle hbase.sequence) (not_succ_le_self _)
    · intro staged hstaged hle
      rcases hinserted.pending staged hstaged with ⟨hold, _⟩ | ⟨hnew, _⟩
      · exact hold
      · rw [hnew, hid] at hle
        exact absurd (le_trans hle hbase.sequence) (not_succ_le_self _)
  refine { hlater with
    disk := hinserted.disk, durable := hinserted.durable, written := .inr hinserted.written,
    stored := ?_, kept := ?_, tasks := ?_ }
  · intro row hrow
    rcases (Storage.mem_of_insertIntent hinsert).mp hrow with hold | rfl
    · exact .inl hold
    · exact .inr ⟨(hscheduled output).mpr (.inr rfl), nofun⟩
  · intro row hrow
    refine .inl ⟨row, ?_, rfl⟩
    rcases hinserted.base with heq | ⟨hstorage, heq⟩
    · rw [heq]
      exact hrow
    · rw [hstorage] at hrow
      rw [heq]
      exact hext.rows row hrow
  · intro running hrunning
    rcases hinserted.tasks running hrunning with hold | ⟨hresting, _, _, htask⟩
    · exact .inl hold
    · right
      have hresting' : w'.resting = true := by
        unfold World.resting
        rw [hinserted.native, hinserted.savepoints]
        exact hresting
      rw [htask]
      refine ⟨(hscheduled output).mpr (.inr rfl), ?_, fun row => hinserted.unique, trivial⟩
      rw [base_of_resting hresting', hsequence, hid]

theorem sound_inserted (hw : Sound w) (hinserted : Inserted w w' output id) : Sound w' := by
  have hevolves := hinserted.evolves hw
  rcases hinserted.storage with ⟨_, hinsert⟩
  rcases Storage.insertIntent_eq_some hinsert with ⟨hid, hsequence, _⟩
  have hext := Storage.extends_insertIntent hinsert
  refine hevolves.sound hw ?_ ?_ ?_ ?_ ⟨?_, hinserted.operations, ?_⟩ ?_
  · unfold Shape
    rw [hinserted.transaction, hinserted.native, hinserted.savepoints, hinserted.syncDepth]
    exact hw.shape
  · rw [hinserted.savepoints]
    exact nested_of_extends hw.nested hext
  · intro savepoint hnative
    rw [hinserted.native] at hnative
    exact (hw.attempt savepoint hnative).trans hext
  · rw [hinserted.log, hinserted.applied]
    exact ⟨hw.outside.ordered, hw.outside.nodup, hw.outside.sent, hw.outside.applied,
      fun boot other sent h => hevolves.scheduled sent (hw.outside.scheduled boot other sent h)⟩
  · intro staged hstaged
    rcases hinserted.pending staged hstaged with ⟨hold, _⟩ | ⟨_, houtput⟩
    · exact hevolves.scheduled _ (hw.staging.scheduled staged hold)
    · rw [houtput]
      exact (mem_of_insert? hinserted.scheduled).mpr (.inr rfl)
  · intro staged row hstaged hrow hkey
    rcases hinserted.pending staged hstaged with ⟨hold, hne⟩ | ⟨hkey', houtput⟩
    · rcases (Storage.mem_of_insertIntent hinsert).mp hrow with holdRow | rfl
      · exact hw.staging.stored staged row hold holdRow hkey
      · exact absurd (hkey.symm.trans hid.symm) hne
    · rw [houtput]
      exact hinserted.unique hrow (hkey.trans hkey')
  · intro hstale staged hstaged
    rw [hinserted.native] at hstale
    rw [hsequence]
    rcases hinserted.pending staged hstaged with ⟨hold, _⟩ | ⟨hkey, _⟩
    · exact le_succ_of_le (hw.fresh hstale staged hold)
    · rw [hkey, hid]

theorem sound_schedule {task : TaskId} {finalize : Bool} {nowMs : Millis} (hw : Sound w)
    (hstep : Step w (.schedule task output finalize nowMs) w') : Sound w' := by
  cases hstep with
  | staged hlive hscheduled hinsert hopen =>
    refine sound_inserted hw ⟨⟨nowMs, hinsert⟩, hscheduled, rfl, rfl, rfl, rfl, rfl, rfl, rfl,
      rfl, rfl, ?_, ?_, fun running h => .inl h⟩
    · intro staged hstaged
      rcases mem_put.mp hstaged with ⟨hold, hne⟩ | rfl
      · exact .inl ⟨hold, hne⟩
      · exact .inr ⟨rfl, rfl⟩
    · refine nodup_map_put hw.staging.nodup ?_
      intro hused
      rcases mem_map.mp hused with ⟨staged, hstaged, hop⟩
      exact (insert?_eq_some.mp hscheduled).left staged.pending.output
        (hw.staging.scheduled staged hstaged) hop
  | direct hlive hscheduled hinsert hclosed hfresh =>
    rcases hw.resting_of_closed hclosed with ⟨hnative, hsavepoints⟩
    have hresting : w.resting = true := by
      rw [resting_iff, hnative]
      exact ⟨hsavepoints, nofun⟩
    refine sound_inserted hw ⟨⟨nowMs, hinsert⟩, hscheduled, rfl, rfl, rfl, rfl, rfl, rfl, rfl,
      rfl, rfl, ?_, hw.staging.nodup, ?_⟩
    · intro staged hstaged
      refine .inl ⟨hstaged, ?_⟩
      intro hkey
      have hle := hw.fresh (by rw [hnative]; exact fun h => h) staged hstaged
      rw [hkey, (Storage.insertIntent_eq_some hinsert).left] at hle
      exact not_succ_le_self _ hle
    · intro running hrunning
      rcases mem_put.mp hrunning with ⟨hold, _⟩ | rfl
      · exact .inl hold
      · exact .inr ⟨hresting, finalize, w.written + 1, rfl⟩

end Scheduling

/-! ## Transactions -/

section Transactions

variable {w w' : World}

structure Moved (w w' : World) : Prop where
  scheduled : w'.scheduled = w.scheduled
  log : w'.log = w.log
  applied : w'.applied = w.applied
  disk : w'.disk = w.disk
  durable : w'.durable = w.durable
  tasks : w'.tasks = w.tasks
  written : (w'.storage = w.storage ∧ w'.written = w.written) ∨ w'.written = w.written + 1
  rows : forall row, row ∈ w'.storage -> row ∈ w.storage
  pending : w'.gate.pending.rows.Sublist w.gate.pending.rows
  base : Storage.Extends w.base w'.base

theorem Moved.evolves (hmoved : Moved w w') : Evolves w w' where
  scheduled := fun _ h => hmoved.scheduled ▸ h
  log := fun _ h => hmoved.log ▸ h
  sequence := hmoved.base.sequence
  rows := fun row h _ => ⟨row, hmoved.rows row h, rfl, rfl⟩
  pending := fun _ h _ => hmoved.pending.subset h
  disk := hmoved.disk
  durable := hmoved.durable
  written := hmoved.written
  stored := fun row h => .inl (hmoved.rows row h)
  kept := fun row h => .inl ⟨row, hmoved.base.rows row h, rfl⟩
  tasks := fun _ h => .inl (hmoved.tasks ▸ h)

theorem sound_moved (hw : Sound w) (hmoved : Moved w w') (hshape : Shape w')
    (hnested : Nested w'.storage w'.savepoints)
    (hattempt : forall savepoint, w'.native = .attempt savepoint ->
      Storage.Extends savepoint w'.storage)
    (hfresh : ¬ Stale w'.native -> forall staged, staged ∈ w'.gate.pending ->
      staged.id ≤ w'.storage.sequence) : Sound w' := by
  have hmem : forall staged, staged ∈ w'.gate.pending -> staged ∈ w.gate.pending :=
    fun _ h => hmoved.pending.subset h
  refine hmoved.evolves.sound hw hshape hnested hattempt ?_ ?_ hfresh
  · rw [hmoved.log, hmoved.applied, hmoved.scheduled]
    exact hw.outside
  · rw [hmoved.scheduled]
    exact ⟨fun staged h => hw.staging.scheduled staged (hmem staged h),
      (hmoved.pending.map _).nodup hw.staging.nodup,
      fun staged row h hrow => hw.staging.stored staged row (hmem staged h) (hmoved.rows row hrow)⟩

theorem shape_async (htransaction : w.gate.transaction = some .async) (hnative : w.native ≠ .idle)
    (hsavepoints : w.savepoints = []) : Shape w := by
  unfold Shape
  rw [htransaction]
  exact ⟨hnative, hsavepoints⟩

theorem base_of_nil (hsavepoints : w.savepoints = [])
    (hnative : forall savepoint, w.native ≠ .attempt savepoint) : w.base = w.storage :=
  base_of_resting (resting_iff.mpr ⟨hsavepoints, hnative⟩)

theorem extends_of_nil (hsavepoints : w.savepoints = [])
    (hnative : forall savepoint, w.native ≠ .attempt savepoint) (hsavepoints' : w'.savepoints = [])
    (hnative' : forall savepoint, w'.native ≠ .attempt savepoint)
    (hext : Storage.Extends w.storage w'.storage) : Storage.Extends w.base w'.base := by
  rw [base_of_nil hsavepoints hnative, base_of_nil hsavepoints' hnative']
  exact hext

variable {savepoint s : Storage}

theorem sync_of_savepoints (hw : Sound w) (hsync : w.gate.transaction = some .sync) :
    w.native = .idle ∧ w.savepoints ≠ [] ∧ w.gate.syncDepth = w.savepoints.length := by
  have hshape := hw.shape
  unfold Shape at hshape
  rw [hsync] at hshape
  exact hshape

theorem async_of_native (hw : Sound w) (hnative : w.native ≠ .idle) :
    w.gate.transaction = some .async ∧ w.savepoints = [] := by
  have hshape := hw.shape
  unfold Shape at hshape
  cases htransaction : w.gate.transaction with
  | none =>
    rw [htransaction] at hshape
    exact absurd hshape.left hnative
  | some mode =>
    rw [htransaction] at hshape
    cases mode with
    | async => exact ⟨rfl, hshape.right⟩
    | sync => exact absurd hshape.left hnative

theorem sound_enterSync (hw : Sound w) (hstep : Step w .enterSync w') : Sound w' := by
  cases hstep with
  | @enterSync depth own hlive hcase =>
    have hidle : w.native = .idle ∧ depth = w.savepoints.length + 1 := by
      rcases hcase with ⟨hclosed, rfl, _⟩ | ⟨hsync, rfl, _⟩
      · rcases hw.resting_of_closed hclosed with ⟨hnative, hsavepoints⟩
        rw [hsavepoints]
        exact ⟨hnative, rfl⟩
      · rcases sync_of_savepoints hw hsync with ⟨hnative, _, hdepth⟩
        exact ⟨hnative, congrArg (· + 1) hdepth⟩
    rcases hidle with ⟨hnative, hdepth⟩
    refine sound_moved hw ⟨rfl, rfl, rfl, rfl, rfl, rfl, .inl ⟨rfl, rfl⟩, fun _ h => h,
      List.Sublist.refl _, ?_⟩ ?_ ⟨Storage.Extends.refl _, hw.nested⟩ ?_ hw.fresh
    · unfold World.base
      cases hsavepoints : w.savepoints with
      | nil => exact Storage.Extends.refl _
      | cons savepoint savepoints =>
        exact Storage.Extends.refl _
    · exact ⟨hnative, cons_ne_nil _ _, hdepth⟩
    · intro savepoint h
      cases hnative.symm.trans h

theorem sound_acquires {caller : CallerId} (hw : Sound w) (hacquires : Acquires w caller w') :
    Sound w' := by
  cases hacquires with
  | take hclosed =>
    rcases hw.resting_of_closed hclosed with ⟨hnative, hsavepoints⟩
    refine sound_moved hw ⟨rfl, rfl, rfl, rfl, rfl, rfl, .inl ⟨rfl, rfl⟩, fun _ h => h,
      List.Sublist.refl _, ?_⟩ ⟨nofun, hsavepoints⟩ hw.nested nofun ?_
    · refine extends_of_nil hsavepoints ?_ hsavepoints nofun (Storage.Extends.refl _)
      rw [hnative]
      exact nofun
    · intro _ staged hstaged
      exact hw.fresh (by rw [hnative]; exact fun h => h) staged hstaged
  | wait hasync => exact sound_around hw fun _ hrunning => .inl hrunning

theorem sound_woken (woken : List CallerId) (hw : Sound w) : Sound { w with woken } :=
  sound_around hw fun _ hrunning => .inl hrunning

theorem sound_beginAttempt (hw : Sound w) (hstep : Step w .beginAttempt w') : Sound w' := by
  cases hstep with
  | @beginAttempt started hnative =>
    rcases async_of_native hw (by rw [hnative]; exact nofun) with ⟨htransaction, hsavepoints⟩
    have hbase : w.base = w.storage := base_of_nil hsavepoints (by rw [hnative]; exact nofun)
    refine sound_moved hw ⟨rfl, rfl, rfl, rfl, rfl, rfl, .inl ⟨rfl, rfl⟩, fun _ h => h,
      ?_, ?_⟩ ?_ hw.nested ?_ ?_
    · cases started with
      | true => exact nil_sublist _
      | false => exact List.Sublist.refl _
    · rw [hbase]
      exact Storage.Extends.refl _
    · refine shape_async ?_ nofun hsavepoints
      cases started with
      | true | false => exact htransaction
    · intro savepoint h
      cases h
      exact Storage.Extends.refl _
    · intro _ staged hstaged
      cases started with
      | true => cases hstaged
      | false => exact hw.fresh (by rw [hnative]; exact nofun) staged hstaged

variable {settlement : World.Settlement} {native : Native} {written : Nat} {commit : Bool}
  {savepoints : List Storage} {nowMs : Millis}

theorem stale_of_settlement (hcommit : settlement ≠ .commit) : Stale settlement.native := by
  cases settlement with
  | commit => exact absurd rfl hcommit
  | rollback | fail => trivial
  | retry => rfl

theorem Stale.closed (hstale : Stale native) :
    native ≠ .idle ∧ forall savepoint, native ≠ .attempt savepoint := by
  cases native with
  | idle | attempt savepoint => cases hstale
  | acquired started | settled outcome => exact ⟨nofun, nofun⟩

theorem sound_endAttempt (hw : Sound w) (hnative : w.native = .attempt savepoint)
    (hidle : native ≠ .idle) (hopen : forall sp, native ≠ .attempt sp)
    (hwritten : (s = w.storage ∧ written = w.written) ∨ written = w.written + 1)
    (hrows : forall row, row ∈ s -> row ∈ w.storage) (hext : Storage.Extends savepoint s)
    (hstale : ¬ Stale native -> s = w.storage) :
    Sound { w with storage := s, written, native } := by
  rcases async_of_native hw (by rw [hnative]; exact nofun) with ⟨htransaction, hsavepoints⟩
  refine sound_moved hw ⟨rfl, rfl, rfl, rfl, rfl, rfl, hwritten, hrows, List.Sublist.refl _, ?_⟩
    ?_ ?_ (fun sp h => absurd h (hopen sp)) ?_
  · have hbase : w.base = savepoint := by
      unfold World.base
      rw [hnative]
    rw [hbase, base_of_nil (w := { w with storage := s, written, native }) hsavepoints hopen]
    exact hext
  · exact shape_async htransaction hidle hsavepoints
  · rw [hsavepoints]
    trivial
  · intro hfresh staged hstaged
    rw [hstale hfresh]
    exact hw.fresh (by rw [hnative]; exact fun h => h) staged hstaged

theorem sound_settleAttempt (hw : Sound w) (hstep : Step w (.settleAttempt settlement) w') :
    Sound w' := by
  cases hstep with
  | commitAttempt hnative =>
    exact sound_endAttempt hw hnative nofun nofun (.inl ⟨rfl, rfl⟩) (fun _ h => h)
      (hw.attempt _ hnative) fun _ => rfl
  | rollBack hnative hcommit =>
    have hstale := stale_of_settlement hcommit
    exact sound_endAttempt (w := w) hw hnative hstale.closed.left hstale.closed.right
      (.inr rfl) (hw.attempt _ hnative).rows (Storage.Extends.refl _)
      fun h => absurd hstale h

theorem sound_abandon (hw : Sound w) (hstep : Step w .abandon w') : Sound w' := by
  cases hstep with
  | abandon hnative =>
    rcases async_of_native hw (by rw [hnative]; exact nofun) with ⟨htransaction, hsavepoints⟩
    refine sound_moved hw ⟨rfl, rfl, rfl, rfl, rfl, rfl, .inl ⟨rfl, rfl⟩, fun _ h => h,
      List.Sublist.refl _, ?_⟩ ?_ hw.nested nofun (fun h => absurd trivial h)
    · refine extends_of_nil hsavepoints ?_ hsavepoints nofun (Storage.Extends.refl _)
      rw [hnative]
      exact nofun
    · exact shape_async htransaction nofun hsavepoints

/-! The exits. -/

theorem base_of_idle (hnative : w.native = .idle) :
    w.base = w.savepoints.getLast?.getD w.storage := by
  unfold World.base
  rw [hnative]

theorem extends_getLast (savepoints : List Storage) (hext : Storage.Extends savepoint s) :
    Storage.Extends (savepoints.getLast?.getD savepoint) (savepoints.getLast?.getD s) := by
  cases savepoints with
  | nil => exact hext
  | cons next rest =>
    exact Storage.Extends.refl _

theorem Ended.spec (hended : Ended w savepoint commit s written)
    (hext : Storage.Extends savepoint w.storage) :
    ((s = w.storage ∧ written = w.written) ∨ written = w.written + 1) ∧
      (forall row, row ∈ s -> row ∈ w.storage) ∧ Storage.Extends savepoint s := by
  cases hended with
  | commit => exact ⟨.inl ⟨rfl, rfl⟩, fun _ h => h, hext⟩
  | rollback => exact ⟨.inr rfl, hext.rows, Storage.Extends.refl _⟩

theorem sound_popped (gate : DoOutputGate) (hw : Sound w) (hsync : w.gate.transaction = some .sync)
    (hsavepoints : w.savepoints = savepoint :: savepoints)
    (hended : Ended w savepoint commit s written)
    (hpending : gate.pending = (w.gate.retain s).pending)
    (hshape : Shape { w with storage := s, written, savepoints, gate }) :
    Sound (w.popped s written savepoints gate) := by
  rcases sync_of_savepoints hw hsync with ⟨hnative, _, _⟩
  have hnested := hw.nested
  rw [hsavepoints] at hnested
  rcases hended.spec hnested.left with ⟨hwritten, hrows, hext⟩
  refine sound_recordAll (sound_moved hw ⟨rfl, rfl, rfl, rfl, rfl, rfl, hwritten, hrows, ?_, ?_⟩
    hshape (nested_of_extends hnested.right hext) ?_ ?_) ?_
  · rw [hpending]
    exact filter_sublist
  · rw [base_of_idle hnative, base_of_idle (w := { w with storage := s, written, savepoints, gate })
      hnative, hsavepoints, getLast?_cons]
    exact extends_getLast savepoints hext
  · intro sp h
    cases hnative.symm.trans h
  · intro _ staged hstaged
    rw [hpending] at hstaged
    rcases mem_filter.mp hstaged with ⟨_, hretained⟩
    rcases mem_keys.mp (contains_iff_mem.mp hretained) with ⟨row, hrow, hid⟩
    rw [← hid]
    exact s.ids_le row hrow
  · intro event hevent other
    rcases mem_map.mp hevent with ⟨_, _, rfl⟩
    trivial

theorem nil_of_outer (hw : Sound w) (hsync : w.gate.transaction = some .sync)
    (hsavepoints : w.savepoints = savepoint :: savepoints) (houter : ¬ 0 < w.gate.syncDepth - 1) :
    savepoints = [] := by
  rcases sync_of_savepoints hw hsync with ⟨_, _, hdepth⟩
  rw [hdepth, hsavepoints] at houter
  cases savepoints with
  | nil => rfl
  | cons next rest => exact absurd (succ_pos _) houter

theorem sound_exitSync {task : TaskId} (hw : Sound w) (hstep : Step w (.exitSync task commit) w') :
    Sound w' := by
  cases hstep with
  | @popSync _ _ savepoint s savepoints written hsync hsavepoints hended hinner =>
    rcases sync_of_savepoints hw hsync with ⟨hnative, _, hdepth⟩
    rw [hsavepoints] at hdepth
    have hinside : savepoints ≠ [] := by
      intro hnil
      rw [hdepth, hnil] at hinner
      exact lt_irrefl 0 hinner
    have hlength : w.gate.syncDepth - 1 = savepoints.length := by
      rw [hdepth]
      rfl
    refine sound_popped _ hw hsync hsavepoints hended rfl ?_
    unfold DoOutputGate.retain
    rw [hsync]
    exact ⟨hnative, hinside, hlength⟩
  | @exitSync _ _ savepoint s savepoints written hsync hsavepoints hended houter hfresh =>
    have hnative := (sync_of_savepoints hw hsync).left
    have hnil := nil_of_outer hw hsync hsavepoints houter
    have hpop := sound_wakeAsyncWaiter (sound_popped
      { w.gate.retain s with transaction := none, syncDepth := 0 } hw hsync hsavepoints hended
      rfl ⟨hnative, hnil⟩)
    rcases wakeAsyncWaiter_eq (w.popped s written savepoints
      { w.gate.retain s with transaction := none, syncDepth := 0 }) with ⟨waiters, woken, heq⟩
    rw [heq] at hpop ⊢
    refine sound_flushAll hpop (resting_iff.mpr ⟨hnil, ?_⟩)
    intro sp h
    cases hnative.symm.trans h

theorem sound_close (pending : Table Staged.id) (hw : Sound w) (hidle : w.native ≠ .idle)
    (hopen : forall savepoint, w.native ≠ .attempt savepoint)
    (hpending : pending.rows.Sublist w.gate.pending.rows)
    (hfresh : forall staged, staged ∈ pending -> staged.id ≤ w.storage.sequence) :
    Sound (w.closed w.storage w.written pending) := by
  rcases async_of_native hw hidle with ⟨_, hsavepoints⟩
  refine sound_moved hw ⟨rfl, rfl, rfl, rfl, rfl, rfl, .inl ⟨rfl, rfl⟩, fun _ h => h,
    hpending, ?_⟩ ⟨rfl, hsavepoints⟩ hw.nested nofun fun _ => hfresh
  exact extends_of_nil hsavepoints hopen hsavepoints nofun (Storage.Extends.refl _)

theorem sound_restaged {pending : Table Staged.id} (hw : Sound w) (hidle : w.native ≠ .idle)
    (hopen : forall savepoint, w.native ≠ .attempt savepoint)
    (hrestage : restage nowMs w.storage w.gate = some (s, pending)) :
    Sound (w.closed s (w.written + 1) pending) := by
  rcases async_of_native hw hidle with ⟨_, hsavepoints⟩
  rcases restage_rows hrestage with ⟨hrows, hsequence, hrestaged⟩
  have hbase : w.base = w.storage := base_of_nil hsavepoints hopen
  have hmem : forall row, row ∈ s -> row ∈ w.storage ∨
      row ∈ freshRows nowMs w.storage.sequence (w.gate.pending.rows.map Staged.pending) := by
    intro row hrow
    have h : row ∈ s.intents.rows := hrow
    rw [hrows] at h
    exact mem_append.mp h
  have hstaged : forall staged, staged ∈ pending ->
      staged ∈ freshStaged w.storage.sequence (w.gate.pending.rows.map Staged.pending) := by
    intro staged h
    have h' : staged ∈ pending.rows := h
    rw [hrestaged] at h'
    exact h'
  have hext : Storage.Extends w.storage s := by
    constructor
    · intro row hrow
      change row ∈ s.intents.rows
      rw [hrows]
      exact mem_append_left _ hrow
    · rw [hsequence]
      exact le_add_right _ _
  have hbelow : forall staged, staged ∈ pending -> w.storage.sequence < staged.id :=
    fun staged h => (id_of_freshStaged (hstaged staged h)).left
  have hscheduled : forall staged, staged ∈ pending -> exists old, old ∈ w.gate.pending ∧
      staged.pending = old.pending := by
    intro staged h
    rcases mem_map.mp (pending_of_freshStaged (hstaged staged h)) with ⟨old, hold, heq⟩
    exact ⟨old, hold, heq.symm⟩
  have hgrown : Storage.Extends w.base (w.closed s (w.written + 1) pending).base :=
    extends_of_nil hsavepoints hopen hsavepoints nofun hext
  have hevolves : Evolves w (w.closed s (w.written + 1) pending) := by
    refine ⟨⟨fun _ h => h, fun _ h => h, hgrown.sequence, ?_, ?_⟩, rfl, rfl, .inr rfl, ?_,
      fun row h => .inl ⟨row, hgrown.rows row h, rfl⟩, fun _ h => .inl h⟩
    · intro row hrow hle
      rcases hmem row hrow with hold | hnew
      · exact ⟨row, hold, rfl, rfl⟩
      · rw [hbase] at hle
        rcases staged_of_freshRows hnew with ⟨staged, hstaged, hid, _⟩
        exact absurd (hid ▸ (id_of_freshStaged hstaged).left) (Nat.not_lt_of_le hle)
    · intro staged h hle
      rw [hbase] at hle
      exact absurd (hbelow staged h) (Nat.not_lt_of_le hle)
    · intro row hrow
      refine (hmem row hrow).imp_right fun hnew => ⟨?_, fun hpublished => ?_⟩
      · rcases staged_of_freshRows hnew with ⟨staged, hfresh, _, houtput, _⟩
        rcases mem_map.mp (pending_of_freshStaged hfresh) with ⟨old, hold, heq⟩
        rw [← houtput, ← heq]
        exact hw.staging.scheduled old hold
      · rw [state_of_freshRows hnew] at hpublished
        cases hpublished
  refine hevolves.sound hw ⟨rfl, hsavepoints⟩ ?_ nofun hw.outside ⟨?_, ?_, ?_⟩ ?_
  · unfold World.closed
    rw [hsavepoints]
    trivial
  · intro staged h
    rcases hscheduled staged h with ⟨old, hold, heq⟩
    rw [heq]
    exact hw.staging.scheduled old hold
  · change (pending.rows.map ((fun item => item.output.operationId) ∘ Staged.pending)).Nodup
    rw [hrestaged, ← map_map, pending_freshStaged, map_map]
    exact hw.staging.nodup
  · intro staged row h hrow hid
    rcases hmem row hrow with hold | hnew
    · have hle := w.storage.ids_le row hold
      rw [hid] at hle
      exact absurd (hbelow staged h) (Nat.not_lt_of_le hle)
    · exact output_of_fresh hnew (hstaged staged h) hid
  · intro _ staged h
    have hle := (id_of_freshStaged (hstaged staged h)).right
    rw [length_map, ← hsequence] at hle
    exact hle

theorem sound_exitTransaction {task : TaskId} (hw : Sound w)
    (hrestages : w.native = .settled .explicitRollback -> forall staged,
      staged ∈ w.gate.pending -> ¬ staged.pending.output.operationId ∈ w.storage.operations)
    (hstep : Step w (.exitTransaction task nowMs) w') : Sound w' := by
  have hclosed : forall outcome, w.native = .settled outcome -> w.native ≠ .idle ∧
      forall savepoint, w.native ≠ .attempt savepoint := by
    intro outcome hnative
    rw [hnative]
    exact ⟨nofun, nofun⟩
  cases hstep with
  | exitFailed hnative =>
    rcases hclosed _ hnative with ⟨hidle, hopen⟩
    exact sound_wakeAsyncWaiter (sound_close Table.empty hw hidle hopen (nil_sublist _)
      forall_mem_empty)
  | unrestaged hnative hrestage =>
    rcases exists_restage hw.staging.nodup (hrestages hnative) with ⟨_, hsome⟩
    cases hrestage.symm.trans hsome
  | restaged hnative hrestage hfresh =>
    rcases hclosed _ hnative with ⟨hidle, hopen⟩
    exact sound_setTask (sound_restaged hw hidle hopen hrestage) trivial
  | exitCommitted hnative hfresh =>
    rcases hclosed _ hnative with ⟨hidle, hopen⟩
    have hsound := sound_close w.gate.pending hw hidle hopen (List.Sublist.refl _)
      (hw.fresh (by rw [hnative]; exact fun h => h))
    exact sound_flushAll hsound (resting_iff.mpr ⟨(async_of_native hw hidle).right, nofun⟩)

theorem sound_step {a : Action} (hw : Sound w)
    (hresting : forall task env, a = .boot task env -> w.resting = true)
    (hrestages : forall task nowMs, a = .exitTransaction task nowMs ->
      w.native = .settled .explicitRollback -> forall staged, staged ∈ w.gate.pending ->
        ¬ staged.pending.output.operationId ∈ w.storage.operations)
    (hstep : Step w a w') : Sound w' := by
  cases a with
  | persist =>
    cases hstep with
    | persist hresting => exact sound_persist hw hresting
  | deliver operationId =>
    cases hstep with
    | deliver hsent hnew =>
      refine Evolves.sound (w := w) (evolves_of_storage rfl rfl rfl rfl rfl rfl (fun _ h => h)
        (fun _ h => h) fun _ h => .inl h) hw hw.shape hw.nested hw.attempt
        ⟨hw.outside.ordered, ?_, ?_, ?_, hw.outside.scheduled⟩ hw.staging hw.fresh
      · exact List.Nodup.append hw.outside.nodup (nodup_singleton _)
          (disjoint_singleton.mpr hnew)
      · intro other hother
        rcases mem_append.mp hother with hold | hlast
        · exact hw.outside.sent other hold
        · rw [mem_singleton.mp hlast]
          exact hsent
      · intro other hother
        exact mem_append_left _ (hw.outside.applied other hother)
  | crash =>
    cases hstep
    exact sound_crash hw
  | boot task env =>
    cases hstep
    exact sound_boot hw (hresting task env rfl)
  | resume task r =>
    cases hstep with
    | @resume _ _ t _ hresting hfind hresumes =>
      exact sound_resumes hw hresting (hw.tasks ⟨task, t⟩ (mem_of_find? hfind)) hresumes
  | schedule task output finalize nowMs => exact sound_schedule hw hstep
  | enterSync => exact sound_enterSync hw hstep
  | exitSync task commit => exact sound_exitSync hw hstep
  | acquire caller =>
    cases hstep with
    | acquire hlive hacquires => exact sound_acquires hw hacquires
  | reacquire caller =>
    cases hstep with
    | reacquire hwoken hacquires => exact sound_acquires (sound_woken _ hw) hacquires
  | beginAttempt => exact sound_beginAttempt hw hstep
  | settleAttempt settlement => exact sound_settleAttempt hw hstep
  | abandon => exact sound_abandon hw hstep
  | exitTransaction task nowMs => exact sound_exitTransaction hw (hrestages task nowMs rfl) hstep

end Transactions

end OutputGate
end OpenCompute
