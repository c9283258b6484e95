import OpenCompute.OutputGate.Isolation

/-!
# What becomes of the intents of a transaction

A transaction that is given up discards its own intents, one that is rolled back
explicitly gives them new rows, and the flush of a synchronous one settles every
promise.  A flush stops at the first publication that fails, so the last point
needs that a failure comes at the last row.
-/

namespace OpenCompute
namespace OutputGate

open Relational Table Transition List Nat

variable {r : Response} {stage : Stage} {call : Call} {settles : Bool} {rest : List Intent}
  {n : Nat}

/-! ## The condition -/

/-- The publication of a row fails in the background only if the row is the last one. -/
def failsLast (w : World) : Action -> Bool
  | .resume task (.rejected _) =>
    match w.tasks.find? task with
    | some ⟨_, .flushing f _ _ rest⟩ => !f.background || rest.isEmpty
    | _ => true
  | _ => true

def Scoped (w : World) (a : Action) : Prop := Orderly w a ∧ failsLast w a = true

instance (w : World) (a : Action) : Decidable (Scoped w a) :=
  inferInstanceAs (Decidable (Orderly w a ∧ failsLast w a = true))

/-! ## Flushes that are under way -/

section Begin

variable {w w' : World} {task : TaskId} {f : Flush} {call : Call} {rest : List Intent}

theorem begun_resumes {t : Task} (ht : t.isTenant = true) (hscope : TaskScope w t)
    (hunder : forall f call settles rest, t = .flushing f call settles rest ->
      Underway w f call rest ∧
        forall error, r = .rejected error -> f.background = true -> rest = [])
    (hresumes : Resumes w task r t w') : Begun w' task := by
  cases hresumes with
  | direct hcall => exact begun_setTask nofun
  | directEnded => exact begun_dropTask w task
  | restaged => exact begun_continueFlush w task _ _
  | @flushing f _ _ rest _ _ hresume =>
    refine begun_setTask ?_
    rintro _ _ _ _ ⟨⟩
    rcases hunder _ _ _ _ rfl with ⟨hbegun, hlast⟩
    cases callStep_of_resumeCall hresume with
    | send hstage hdurable => exact absurd hstage (hbegun.started _)
    | mark hstage happlied hfinalize | remove hstage happlied hfinalize | retire hstage =>
      exact ⟨nofun, nofun, le_refl _, nofun⟩
    | finalize hstage hdurable => exact ⟨nofun, nofun, zero_le _, nofun⟩
    | note hfailed hstage =>
      have hrest : f.background = true -> rest = [] := by
        intro hback
        rcases hfailed with ⟨error, hr⟩ | hfailed
        · exact hlast error hr hback
        · exact hbegun.last hback hfailed
      rcases hstage with rfl | ⟨_, rfl⟩
      · exact ⟨nofun, nofun, le_refl _, fun hback _ => hrest hback⟩
      · exact ⟨nofun, nofun, le_refl _, fun hback _ => hrest hback⟩
  | flushed => exact begun_continueFlush _ task _ _
  | flushThrown hfailed => exact begun_endFlush _ task _
  | refused => cases hscope
  | _ => cases ht

end Begin

/-! ## Steps of the running object -/

structure Advance (w : World) (a : Action) (w' : World) (actor : Option TaskId) : Prop where
  tasks : forall r, some r.id ≠ actor -> (r ∈ w'.tasks ↔ r ∈ w.tasks)
  written : w.written ≤ w'.written
  log : forall event, event ∈ w.log -> event ∈ w'.log
  fresh : forall task, actor = some task -> (¬ task ∈ w.tasks.keys) ∨ exists r, a = .resume task r
  begun : forall task, actor = some task -> failsLast w a = true ->
    (forall other, Begun w other) -> Begun w' task

section Advancing

variable {w w' : World} {a : Action} {task : TaskId}

theorem last_of_failsLast {f : Flush} {error : Option String}
    (hfind : w.tasks.find? task = some ⟨task, .flushing f call settles rest⟩)
    (hfails : failsLast w (.resume task r) = true) (hr : r = .rejected error)
    (hback : f.background = true) : rest = [] := by
  subst hr
  unfold failsLast at hfails
  dsimp only at hfails
  rw [hfind] at hfails
  dsimp only at hfails
  rw [hback, Bool.not_true, Bool.false_or, List.isEmpty_iff] at hfails
  exact hfails

theorem advance_step (hw : Serial w) (hrecoverable : Recoverable w) (hlive : w.status = .live)
    (hcrash : a ≠ .crash) (hstep : Step w a w') : exists actor, Advance w a w' actor := by
  by_cases ha : a.isTenant = true
  · rcases tenant_step hlive ha hstep with ⟨actor, htenant, hfresh⟩
    exact ⟨actor, htenant.others, htenant.written, htenant.mem_log,
      fun task h => .inl (hfresh task h).left, fun task h _ _ => (hfresh task h).right⟩
  · cases hstep with
    | persist | deliver =>
      exact ⟨none, fun _ _ => Iff.rfl, le_refl _, fun _ h => h, nofun, nofun⟩
    | crash => exact absurd rfl hcrash
    | boot hdown => cases hlive.symm.trans hdown
    | @resume task r t _ hresting hfind hresumes =>
      have hmem := mem_of_find? hfind
      have ht := hrecoverable.phase.tenant hlive _ hmem
      have htenant := tenant_resumes hlive ht hresumes
      refine ⟨some task, htenant.others, htenant.written, htenant.mem_log, ?_, ?_⟩
      · rintro other ⟨⟩
        exact .inr ⟨r, rfl⟩
      · rintro other ⟨⟩ hlast hbegun
        refine begun_resumes ht (hw.tasks _ hmem) ?_ hresumes
        rintro f call settles rest rfl
        exact ⟨hbegun task f call settles rest hmem,
          fun error hr hback => last_of_failsLast hfind hlast hr hback⟩
    | _ => exact absurd rfl ha

end Advancing

/-! ## Progress -/

/-- How many more times a publication can be resumed. -/
def Stage.rank : Stage -> Nat
  | .committing _ => 6
  | .sending => 5
  | .marked _ => 4
  | .finalizing _ => 3
  | .finalizeFailed _ _ _ => 2
  | .publishFailed _ _ => 1
  | .deleted _ => 1

def remaining (call : Call) (rest : List Intent) : Nat := call.stage.rank + 5 * rest.length

section Progress

variable {w w' : World} {task : TaskId} {f : Flush}

theorem rank_pos (stage : Stage) : 0 < stage.rank := by
  cases stage with
  | _ => exact succ_pos _

variable {call : Call} {rest : List Intent}

theorem rank_of_catchPublish {error : Option String}
    (hcatch : w.catchPublish call error = (w', .suspended stage)) : stage.rank = 1 := by
  unfold World.catchPublish at hcatch
  split at hcatch <;> cases hcatch
  rfl

theorem rank_of_resumeCall
    (hresume : w.resumeCall call call.stage r = some (w', .suspended stage)) :
    stage.rank < call.stage.rank := by
  generalize call.stage = before at hresume ⊢
  unfold World.resumeCall at hresume
  split at hresume
  · split at hresume <;> cases hresume
    exact lt_succ_self 5
  · unfold World.acknowledge at hresume
    split at hresume
    · split at hresume
      · cases hresume
        exact lt_succ_self 4
      · cases hresume
        exact succ_lt_succ (succ_pos 3)
    · cases hresume
  · rw [rank_of_catchPublish (Option.some.inj hresume)]
    exact succ_lt_succ (succ_pos 3)
  · split at hresume <;> cases hresume
    exact lt_succ_self 3
  · cases hresume
    exact succ_lt_succ (succ_pos 1)
  · cases hresume
    exact lt_succ_self 2
  · split at hresume
    · cases hresume
    · cases hresume
  · split at hresume
    · split at hresume
      · rw [rank_of_catchPublish (Option.some.inj hresume)]
        exact lt_succ_self 1
      · cases hresume
    · cases hresume
  · split at hresume
    · cases hresume
    · cases hresume
  · cases hresume

/-- Every promise of the flush is settled, or the flush has at most `n` steps to go. -/
def Settles (w : World) (task : TaskId) (f : Flush) (n : Nat) : Prop :=
  (forall operationId, operationId ∈ f.own -> Settled w operationId) ∨
    exists call settles rest, Running.mk task (.flushing f call settles rest) ∈ w.tasks ∧
      remaining call rest ≤ n

theorem settles_continueFlush (hready : FlushReady w f rest) (hback : f.background = true)
    (hn : 5 * rest.length ≤ n) : Settles (w.continueFlush task f rest) task f n := by
  cases rest with
  | nil =>
    left
    intro operationId hop
    rcases hready.settled hback operationId hop with hsettled | hstaged
    · exact hsettled.mono tenant_endFlush.mem_log
    · rcases mem_map.mp hstaged with ⟨staged, hentry, _⟩
      rcases hready.only staged hentry with ⟨_, hq, _⟩
      cases hq
  | cons row rest =>
    right
    rcases hready.staged row mem_cons_self with ⟨staged, hstaged, hid⟩
    have hfind : w.gate.pending.find? row.id = some staged := find?_eq_some.mpr ⟨hstaged, hid⟩
    rw [continueFlush_send hfind (hready.states row mem_cons_self)]
    refine ⟨_, _, rest, mem_put.mpr (.inr rfl), ?_⟩
    rw [length_cons] at hn
    change 5 + 5 * rest.length ≤ n
    omega

theorem settles_resumes (hscope : FlushScope w f call settles rest) (hback : f.background = true)
    (hunder : Underway w f call rest) (hlast : forall error, r = .rejected error -> rest = [])
    (hn : remaining call rest ≤ n + 1)
    (hresumes : Resumes w task r (.flushing f call settles rest) w') : Settles w' task f n := by
  have hrank := rank_pos call.stage
  unfold remaining at hn
  cases hresumes with
  | @flushing _ _ _ _ mid stage hresume =>
    right
    have hless := rank_of_resumeCall hresume
    refine ⟨_, _, rest, mem_put.mpr (.inr rfl), ?_⟩
    change stage.rank + 5 * rest.length ≤ n
    omega
  | flushed => exact settles_continueFlush (ready_of_flushed hscope) hback (by omega)
  | flushThrown hfailed =>
    left
    have hnil : rest = [] := by
      rcases hfailed with ⟨error, hr⟩ | hfailed
      · exact hlast error hr
      · exact hunder.last hback hfailed
    intro operationId hop
    refine Settled.mono tenant_throwFlush.mem_log ?_
    rcases hscope.settled hback operationId hop with hsettled | hstaged
    · exact hsettled.mono fun event h => log_settle event h
    · rcases mem_map.mp hstaged with ⟨staged, hentry, rfl⟩
      rcases hscope.only staged hentry with hid | ⟨_, hq, _⟩
      · rcases hscope.current with ⟨current, hcurrent, hcid, houtput, hcsettles⟩
        have hsettles : settles = true := by
          rw [← hcsettles]
          exact hscope.settles hback current hcurrent
        rw [eq_of_key_eq hentry hcurrent (hid.trans hcid.symm), houtput, hsettles]
        exact .inr mem_settle
      · rw [hnil] at hq
        cases hq

end Progress

/-! ## Runs -/

structure Settling (w : World) : Prop where
  recoverable : Recoverable w
  serial : Serial w
  begun : forall task, Begun w task

section Runs

variable {w w' : World} {a : Action} {task : TaskId} {f : Flush}

theorem live_of_flushing (hw : Recoverable w)
    (hmem : Running.mk task (.flushing f call settles rest) ∈ w.tasks) : w.status = .live := by
  have hrow : Running.mk task (.flushing f call settles rest) ∈ w.tasks.rows := hmem
  cases hstatus : w.status with
  | live => rfl
  | down =>
    rw [(hw.phase.down hstatus).left] at hrow
    cases hrow
  | recovering =>
    rcases hw.phase.recoveryTask hstatus with ⟨_, _, hrows, ht⟩
    rw [hrows, mem_singleton] at hrow
    cases hrow
    cases ht

theorem settling_next (hw : Settling w) (hscoped : Scoped w a) (hnext : next w a = some w') :
    Settling w' := by
  have hrestageable := restageable_of_orderly (a := a) hw.serial hw.recoverable.sound
  have hstepped := stepped_next hw.recoverable hrestageable hnext
  refine ⟨hstepped.recoverable, serial_next hw.serial hw.recoverable hscoped.left hnext, ?_⟩
  intro task f call settles rest hmem
  have hlive' := live_of_flushing hstepped.recoverable hmem
  by_cases hlive : w.status = .live
  · by_cases hcrash : a = .crash
    · subst hcrash
      cases hnext
      cases hlive'
    · rcases advance_step hw.serial hw.recoverable hlive hcrash (step_of_next hnext) with
        ⟨actor, hadvance⟩
      by_cases hactor : actor = some task
      · exact hadvance.begun task hactor hscoped.right hw.begun f call settles rest hmem
      · have hold := (hadvance.tasks _ (Ne.symm hactor)).mp hmem
        exact (hw.begun task f call settles rest hold).mono hadvance.written hadvance.log
  · have hrow : Running.mk task (.flushing f call settles rest) ∈ w'.tasks.rows := hmem
    rw [(hstepped.completed hlive hlive').tasks] at hrow
    cases hrow

variable {actions : List Action}

def isResume (task : TaskId) : Action -> Bool
  | .resume other _ => other = task
  | _ => false

theorem settles_next (hw : Settling w) (hscoped : Scoped w a) (hcrash : a ≠ .crash)
    (hback : f.background = true) (hnext : next w a = some w')
    (hsettles : Settles w task f (n + if isResume task a then 1 else 0)) : Settles w' task f n := by
  have hrestageable := restageable_of_orderly (a := a) hw.serial hw.recoverable.sound
  have hstepped := stepped_next hw.recoverable hrestageable hnext
  rcases hsettles with hsettled | ⟨call, settles, rest, hmem, hn⟩
  · exact .inl fun operationId hop => (hsettled operationId hop).mono hstepped.log
  · have hlive := live_of_flushing hw.recoverable hmem
    by_cases hresume : exists r, a = .resume task r
    · rcases hresume with ⟨r, rfl⟩
      have hfind := find?_eq_some.mpr ⟨hmem, rfl⟩
      have hlast : forall error, r = .rejected error -> rest = [] :=
        fun error hr => last_of_failsLast hfind hscoped.right hr hback
      have hn : remaining call rest ≤ n + 1 := by
        have hactor : isResume task (.resume task r) = true := decide_eq_true rfl
        rw [hactor] at hn
        exact hn
      cases step_of_next hnext with
      | resume hresting hother hresumes =>
        cases hfind.symm.trans hother
        exact settles_resumes (hw.serial.tasks _ hmem) hback
          (hw.begun task f call settles rest hmem) hlast hn hresumes
    · right
      rcases advance_step hw.serial hw.recoverable hlive hcrash (step_of_next hnext) with
        ⟨_, hadvance⟩
      refine ⟨call, settles, rest, (hadvance.tasks _ ?_).mpr hmem, ?_⟩
      · intro hactor
        rcases hadvance.fresh task hactor.symm with hfresh | hresumed
        · exact hfresh (key_mem_keys hmem)
        · exact hresume hresumed
      · have hother : isResume task a = false := by
          cases a with
          | resume other r =>
            refine decide_eq_false ?_
            rintro rfl
            exact hresume ⟨r, rfl⟩
          | _ => rfl
        rw [hother] at hn
        exact hn

theorem settles_run (hback : f.background = true) (hrun : Run next Scoped w actions w')
    (hw : Settling w) (hcrash : forall a, a ∈ actions -> a ≠ .crash)
    (hsettles : Settles w task f (n + actions.countP (isResume task))) : Settles w' task f n := by
  induction hrun with
  | nil w => exact hsettles
  | @cons w u w' a actions hscoped hnext _ ih =>
    refine ih (settling_next hw hscoped hnext) (fun b hb => hcrash b (mem_cons_of_mem a hb)) ?_
    refine settles_next hw hscoped (hcrash a mem_cons_self) hback hnext ?_
    rw [countP_cons, ← add_assoc] at hsettles
    exact hsettles

end Runs

/-! A flush can always be resumed, once the backend and the storage have done their part. -/

section Enabled

variable {u w : World} {task : TaskId} {f : Flush} {call : Call} {settles : Bool}
  {rest : List Intent}

def Resumable (w : World) (task : TaskId) (r : Response) : Prop :=
  Scoped w (.resume task r) ∧ exists v, next w (.resume task r) = some v

theorem resumable_of_call (hmem : Running.mk task (.flushing f call settles rest) ∈ w.tasks)
    (hresting : w.resting = true) (hr : forall error, r ≠ .rejected error)
    (hcall : exists result, w.resumeCall call call.stage r = some result) : Resumable w task r := by
  rcases hcall with ⟨_, hcall⟩
  have hfind : w.tasks.find? task = some ⟨task, .flushing f call settles rest⟩ :=
    find?_eq_some.mpr ⟨hmem, rfl⟩
  refine ⟨⟨?_, ?_⟩, ?_⟩
  · unfold Orderly orderly
    dsimp only
    rw [hfind]
  · cases r with
    | synced | fulfilled => rfl
    | rejected error => exact absurd rfl (hr error)
  · change exists v, w.resume task r = some v
    unfold World.resume
    rw [if_pos hresting, hfind]
    change exists v, w.resumeFlush task f call settles rest r = some v
    unfold World.resumeFlush
    rw [hcall]
    exact ⟨_, rfl⟩

theorem exists_resume (hw : Settling w)
    (hmem : Running.mk task (.flushing f call settles rest) ∈ w.tasks) :
    exists prepare r u, (forall a, a ∈ prepare -> a ≠ .crash) ∧ Run next Scoped w prepare u ∧
      Resumable u task r := by
  have hresting : w.resting = true := by
    have hclosed : w.gate.transaction = none := by
      by_contra hopen
      cases hw.serial.closed hopen _ hmem
    rcases hw.recoverable.sound.resting_of_closed hclosed with ⟨hnative, hsavepoints⟩
    refine resting_iff.mpr ⟨hsavepoints, ?_⟩
    rw [hnative]
    exact nofun
  have hunder := hw.begun task f call settles rest hmem
  have hpersist : next w .persist =
      some { w with disk := w.storage, durable := w.written } := if_pos hresting
  have hsynced : forall progress,
      World.resumeCall { w with disk := w.storage, durable := w.written } call call.stage
        .synced = some progress -> exists prepare r u,
          (forall a, a ∈ prepare -> a ≠ .crash) ∧ Run next Scoped w prepare u ∧
            Resumable u task r := by
    intro progress hcall
    refine ⟨[.persist], .synced, _, ?_, Run.cons ⟨rfl, rfl⟩ hpersist (Run.nil _),
      resumable_of_call hmem hresting nofun ⟨progress, hcall⟩⟩
    intro a ha
    rw [mem_singleton.mp ha]
    exact nofun
  cases hstage : call.stage with
  | committing upTo => exact absurd hstage (hunder.started upTo)
  | sending =>
    by_cases happlied : call.output.operationId ∈ w.applied
    · refine ⟨[], .fulfilled, w, nofun, Run.nil w, resumable_of_call hmem hresting nofun ?_⟩
      rw [hstage]
      exact ⟨_, if_pos happlied⟩
    · have hdeliver : next w (.deliver call.output.operationId) =
          some { w with applied := w.applied ++ [call.output.operationId] } :=
        if_pos ⟨hunder.sent hstage, happlied⟩
      refine ⟨[.deliver call.output.operationId], .fulfilled, _, ?_,
        Run.cons ⟨rfl, rfl⟩ hdeliver (Run.nil _), resumable_of_call hmem hresting nofun ?_⟩
      · intro a ha
        rw [mem_singleton.mp ha]
        exact nofun
      · rw [hstage]
        exact ⟨_, if_pos (mem_append_right _ (mem_singleton_self _))⟩
  | marked upTo | deleted upTo | finalizeFailed nested code upTo | publishFailed code upTo =>
    have hle := hunder.upTo
    rw [hstage] at hle hsynced
    exact hsynced _ (if_pos hle)
  | finalizing nested =>
    refine ⟨[], .fulfilled, w, nofun, Run.nil w, resumable_of_call hmem hresting nofun ?_⟩
    rw [hstage]
    exact ⟨_, rfl⟩

end Enabled

/-! ## The scope of a transaction -/

/-- The map loses the intents of the attempt and nothing else, and none of them has a row. -/
structure Discards (w w' : World) : Prop where
  staged : stagedOperations w = w.own
  cleared : stagedOperations w' = []
  storage : w'.storage = w.storage
  gone : forall operationId, operationId ∈ w.own -> ¬ operationId ∈ w'.storage.operations

/-- Every intent of the transaction gets one new row. -/
structure Restages (w w' : World) (fresh : List Intent) : Prop where
  rows : w'.storage.intents.rows = w.storage.intents.rows ++ fresh
  outputs : fresh.map Intent.output = w.gate.pending.rows.map fun staged => staged.pending.output
  own : fresh.map Intent.operationId = w.own
  once : w.own.Nodup
  pending : forall row, row ∈ fresh -> row.state = .pending
  staged : stagedOperations w' = w.own

/-- What becomes of the intents of a transaction, in every way in which it can end. -/
structure TransactionScope (w : World) : Prop where
  rolledBack : forall settlement w', settlement ≠ .commit -> w.settleAttempt settlement = some w' ->
    w.storage.operations = w'.storage.operations ++ w.own ∧ w'.own = w.own
  retried : forall w', w.native = .acquired true -> w.beginAttempt = some w' -> Discards w w'
  failed : forall task nowMs w', w.native = .settled .failed ->
    w.exitTransaction task nowMs = some w' -> Discards w w'
  restaged : forall task nowMs w', w.native = .settled .explicitRollback ->
    w.exitTransaction task nowMs = some w' -> exists fresh, Restages w w' fresh
  kept : forall task f call settles rest operationId,
    Running.mk task (.flushing f call settles rest) ∈ w.tasks -> f.background = true ->
    operationId ∈ f.own -> ¬ Settled w operationId ->
    exists staged, staged ∈ w.gate.pending ∧ staged.pending.output.operationId = operationId ∧
      staged.pending.settles = true ∧
      (staged.id = call.id ∨ exists row, row ∈ rest ∧ row.id = staged.id)
  resumes : forall task f call settles rest,
    Running.mk task (.flushing f call settles rest) ∈ w.tasks ->
    exists prepare r u, (forall a, a ∈ prepare -> a ≠ .crash) ∧ Run next Scoped w prepare u ∧
      Resumable u task r
  settled : forall task f call settles rest later u,
    Running.mk task (.flushing f call settles rest) ∈ w.tasks -> f.background = true ->
    Run next Scoped w later u -> (forall a, a ∈ later -> a ≠ .crash) ->
    (forall operationId, operationId ∈ f.own -> Settled u operationId) ∨
      exists call' settles' rest', Running.mk task (.flushing f call' settles' rest') ∈ u.tasks ∧
        remaining call' rest' + later.countP (isResume task) ≤ remaining call rest

section Ends

variable {w w' : World}

theorem gone_of_unstored (hown : w.own = stagedOperations w) (hunstored : Unstored w) :
    forall operationId, operationId ∈ w.own -> ¬ operationId ∈ w.storage.operations := by
  intro operationId hop
  rw [hown] at hop
  rcases mem_map.mp hop with ⟨staged, hstaged, rfl⟩
  exact hunstored staged hstaged

variable {task : TaskId} {nowMs : Millis}

theorem restages_exit (hw : Serial w) (hsound : Sound w)
    (hnative : w.native = .settled .explicitRollback)
    (hexit : w.exitTransaction task nowMs = some w') : exists fresh, Restages w w' fresh := by
  rcases hw.async hsound hnative nofun with ⟨_, _, hown, hunstored⟩
  cases step_exitTransaction hexit with
  | exitFailed hother | exitCommitted hother _ => cases hnative.symm.trans hother
  | unrestaged _ hrestage =>
    rcases exists_restage hsound.staging.nodup hunstored with ⟨_, hsome⟩
    cases hrestage.symm.trans hsome
  | @restaged _ _ s pending _ hrestage _ =>
    rcases restage_rows hrestage with ⟨hrows, _, hpending⟩
    have houtputs := output_freshRows nowMs w.storage.sequence
      (w.gate.pending.rows.map Staged.pending)
    rw [map_map] at houtputs
    refine ⟨_, hrows, houtputs, ?_, ?_, fun row hrow => state_of_freshRows hrow, ?_⟩
    · have hoperations := congrArg (map Output.operationId) houtputs
      rw [map_map, map_map] at hoperations
      rw [hown]
      exact hoperations
    · rw [hown]
      exact hsound.staging.nodup
    · have hitems := congrArg (map fun item : PendingOutput => item.output.operationId)
        (pending_freshStaged w.storage.sequence (w.gate.pending.rows.map Staged.pending))
      rw [map_map, map_map] at hitems
      change pending.rows.map _ = w.own
      rw [hpending, hown]
      exact hitems

end Ends

theorem transaction_scope {actions : List Action} {w : World}
    (hrun : Run next Scoped World.initial actions w) : TransactionScope w := by
  have hw : Settling w := hrun.invariant (fun _ _ _ hu hscoped hnext =>
    settling_next hu hscoped hnext) ⟨recoverable_initial, serial_initial, nofun⟩
  have hserial := hw.serial
  have hsound := hw.recoverable.sound
  constructor
  · intro settlement w' hcommit hsettle
    cases step_settleAttempt hsettle with
    | commitAttempt hnative => exact absurd rfl hcommit
    | rollBack hnative hcommit =>
      rcases hserial.async hsound hnative nofun with ⟨_, _, _, hoperations, _⟩
      exact ⟨hoperations, rfl⟩
  · intro w' hnative hbegin
    rcases hserial.async hsound hnative nofun with ⟨_, _, hown, hunstored⟩
    unfold World.beginAttempt at hbegin
    rw [hnative] at hbegin
    cases hbegin
    exact ⟨hown.symm, rfl, rfl, gone_of_unstored hown hunstored⟩
  · intro task nowMs w' hnative hexit
    rcases hserial.async hsound hnative nofun with ⟨_, _, hown, hunstored⟩
    cases step_exitTransaction hexit with
    | exitFailed _ =>
      rcases wakeAsyncWaiter_eq (w.closed w.storage w.written Table.empty) with
        ⟨waiters, woken, heq⟩
      rw [heq]
      exact ⟨hown.symm, rfl, rfl, gone_of_unstored hown hunstored⟩
    | unrestaged hother _ | restaged hother _ _ | exitCommitted hother _ =>
      cases hnative.symm.trans hother
  · intro task nowMs w' hnative hexit
    exact restages_exit hserial hsound hnative hexit
  · intro task f call settles rest operationId hmem hback hop hunsettled
    have hscope : FlushScope w f call settles rest := hserial.tasks _ hmem
    rcases hscope.settled hback operationId hop with hsettled | hstaged
    · exact absurd hsettled hunsettled
    · rcases List.mem_map.mp hstaged with ⟨staged, hentry, heq⟩
      exact ⟨staged, hentry, heq, hscope.settles hback staged hentry, hscope.only staged hentry⟩
  · intro task f call settles rest hmem
    exact exists_resume hw hmem
  · intro task f call settles rest later u hmem hback hlater hcrash
    have hstart : forall n, remaining call rest ≤ n -> Settles w task f n :=
      fun n hn => Or.inr ⟨call, settles, rest, hmem, hn⟩
    by_cases hcount : later.countP (isResume task) ≤ remaining call rest
    · have hend := settles_run (n := remaining call rest - later.countP (isResume task)) hback
        hlater hw hcrash (hstart _ (Nat.le_of_eq (Nat.sub_add_cancel hcount).symm))
      rcases hend with hsettled | ⟨call', settles', rest', hmem', hn⟩
      · exact Or.inl hsettled
      · exact Or.inr ⟨call', settles', rest', hmem', Nat.add_le_of_le_sub hcount hn⟩
    · have hend := settles_run (n := 0) hback hlater hw hcrash (hstart _ (by omega))
      rcases hend with hsettled | ⟨call', _, rest', _, hn⟩
      · exact Or.inl hsettled
      · have hpos := rank_pos call'.stage
        unfold remaining at hn
        omega

namespace Sample

def committedSync : List Action :=
  [.boot 0 env, .enterSync, send 1 1, send 1 2, .exitSync 1 true]

def flushed : List Action := publish 1 1 ++ publish 1 2

def failing : List Action :=
  committedSync ++ [.acquire 0, .beginAttempt, .settleAttempt .fail]

def stranded : List Action :=
  [.exitTransaction 2 0] ++ publish 1 1 ++ [.persist, .resume 1 .synced]

end Sample

open Sample in
theorem transaction_scope_flushed : exists w u,
    Run next Scoped World.initial committedSync w ∧ TransactionScope w ∧
      Run next Scoped w flushed u ∧ u.tasks.rows = [] ∧
      Settled u (BitVec.ofNat 128 1) ∧ Settled u (BitVec.ofNat 128 2) := by
  have hexec : exists w, Run next Scoped World.initial committedSync w ∧
      Running.mk 1 (.flushing ⟨[BitVec.ofNat 128 1, BitVec.ofNat 128 2], true⟩
        ⟨1, output 1, true, .sending⟩ true [⟨2, output 2, .pending, 0, 0, none⟩]) ∈ w.tasks ∧
      exists u, u ∈ execute next Scoped w flushed ∧ u.tasks.rows = [] :=
    exists_run_of_execute (by decide +kernel)
  rcases hexec with ⟨w, hrun, hmem, u, hu, hrows⟩
  have hlater := run_of_execute hu
  have hscope := transaction_scope hrun
  have hcrash : forall a, a ∈ flushed -> a ≠ .crash := by
    rintro a ha rfl
    simp [flushed, publish] at ha
  rcases hscope.settled _ _ _ _ _ flushed u hmem rfl hlater hcrash with
    hsettled | ⟨_, _, _, hrunning, _⟩
  · exact ⟨w, u, hrun, hscope, hlater, hrows, hsettled _ List.mem_cons_self,
      hsettled _ (List.mem_cons_of_mem _ List.mem_cons_self)⟩
  · change _ ∈ u.tasks.rows at hrunning
    rw [hrows] at hrunning
    cases hrunning

open Sample in
theorem transaction_scope_stranded : exists w v u,
    Run next always World.initial failing w ∧ w.native = .settled .failed ∧
      w.own = [] ∧ BitVec.ofNat 128 2 ∈ stagedOperations w ∧
      next w (.exitTransaction 2 0) = some v ∧ stagedOperations v = [] ∧
      Run next always w stranded u ∧ u.tasks.rows = [] ∧
      BitVec.ofNat 128 2 ∈ u.storage.operations ∧ ¬ Settled u (BitVec.ofNat 128 2) := by
  have hexec : exists w, Run next always World.initial failing w ∧
      w.native = .settled .failed ∧ w.own = [] ∧ BitVec.ofNat 128 2 ∈ stagedOperations w ∧
      (exists v, next w (.exitTransaction 2 0) = some v ∧ stagedOperations v = []) ∧
      exists u, u ∈ execute next always w stranded ∧ u.tasks.rows = [] ∧
        BitVec.ofNat 128 2 ∈ u.storage.operations ∧
        ¬ (Event.resolved (BitVec.ofNat 128 2) ∈ u.log ∨
          Event.rejected (BitVec.ofNat 128 2) ∈ u.log) :=
    exists_run_of_execute (by decide +kernel)
  rcases hexec with ⟨w, hrun, hnative, hown, hstaged, ⟨v, hnext, hcleared⟩, u, hu, hend⟩
  exact ⟨w, v, u, hrun, hnative, hown, hstaged, hnext, hcleared, run_of_execute hu, hend⟩

end OutputGate
end OpenCompute
