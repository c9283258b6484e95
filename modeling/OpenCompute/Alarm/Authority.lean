import OpenCompute.Alarm.Model

/-!
# The authority of an object over its alarm

Every object generation has at most one row.  A call that carries the token of a
row leaves rows with another token alone, so that an alarm which was set while
an older one was delivered outlives every report about the older one.
-/

namespace OpenCompute
namespace Alarm

open Relational Table Transaction Transition

variable {state : JobState} {changed : Bool} {s : Store}

/-! ## What a call does to the table -/

structure SameAlarm (job job' : ScheduledJob) : Prop where
  id : job'.id = job.id
  object : job'.object = job.object
  rowToken : job'.rowToken = job.rowToken

structure Touched (s t : Store) : Prop where
  kept : forall job, job ∈ s -> exists job', job' ∈ t ∧ SameAlarm job job'
  only : forall job', job' ∈ t -> exists job, job ∈ s ∧ SameAlarm job job'

/-- The call takes this alarm away: the object deletes it or is deleted, or the delivery of
this very token was finished. -/
def Removes (job : ScheduledJob) : Action -> Prop
  | .deleteExact object rowToken => object = job.object ∧ rowToken = job.rowToken
  | .deleteObject object => object = job.object
  | .finish claim .delete _ =>
    claim.id = job.id ∧ claim.rowToken = job.rowToken ∧ job.state = .claimed
  | .finishDiscarding claim =>
    claim.id = job.id ∧ claim.rowToken = job.rowToken ∧ job.state = .discarding
  | _ => False

inductive Change (s t : Store) (a : Action) : Prop where
  | touched (htouched : Touched s t)
  | rearmed {projection : AlarmProjection} {freshId : JobId} {nowMs : Millis}
      {job row : ScheduledJob} (ha : a = .upsert projection freshId nowMs) (hjob : job ∈ s)
      (hobject : job.object = projection.object) (hid : row.id = job.id)
      (hrow : row.object = projection.object ∧ row.rowToken = projection.rowToken)
      (hreplace : t = s.replace row)
  | set {projection : AlarmProjection} {freshId : JobId} {nowMs : Millis} {row : ScheduledJob}
      (ha : a = .upsert projection freshId nowMs)
      (hnone : forall job, job ∈ s -> job.object ≠ projection.object)
      (hrow : row.object = projection.object) (hinsert : s.insert? row = some t)
  | removed (honly : forall job, job ∈ t -> job ∈ s)
      (hgone : forall job, job ∈ s -> ¬ job ∈ t -> Removes job a)

section Changes

variable {s t u : Store} {a : Action}

theorem SameAlarm.refl (job : ScheduledJob) : SameAlarm job job := ⟨rfl, rfl, rfl⟩

theorem SameAlarm.trans {x y z : ScheduledJob} (hxy : SameAlarm x y) (hyz : SameAlarm y z) :
    SameAlarm x z :=
  ⟨hyz.id.trans hxy.id, hyz.object.trans hxy.object, hyz.rowToken.trans hxy.rowToken⟩

theorem Touched.refl (s : Store) : Touched s s :=
  ⟨fun job hjob => ⟨job, hjob, SameAlarm.refl job⟩, fun job hjob => ⟨job, hjob, SameAlarm.refl job⟩⟩

theorem Touched.trans (hst : Touched s t) (htu : Touched t u) : Touched s u := by
  constructor
  · intro job hjob
    rcases hst.kept job hjob with ⟨mid, hmid, hsame⟩
    rcases htu.kept mid hmid with ⟨job', hjob', hsame'⟩
    exact ⟨job', hjob', hsame.trans hsame'⟩
  · intro job' hjob'
    rcases htu.only job' hjob' with ⟨mid, hmid, hsame'⟩
    rcases hst.only mid hmid with ⟨job, hjob, hsame⟩
    exact ⟨job, hjob, hsame.trans hsame'⟩

variable {row : ScheduledJob} {nowMs : Millis} {job : ClaimedJob}

theorem touched_replace {job : ScheduledJob} (hjob : job ∈ s) (hsame : SameAlarm job row) :
    Touched s (s.replace row) := by
  constructor
  · intro other hother
    by_cases hid : other.id = row.id
    · have heq : other = job := eq_of_key_eq hother hjob (hid.trans hsame.id)
      rw [heq]
      exact ⟨row, mem_replace.mpr (.inr ⟨rfl, job, hjob, hsame.id.symm⟩), hsame⟩
    · exact ⟨other, mem_replace.mpr (.inl ⟨hother, hid⟩), SameAlarm.refl other⟩
  · exact forall_replace (fun other hother => ⟨other, hother, SameAlarm.refl other⟩)
      ⟨job, hjob, hsame⟩

theorem held_eq_some {claim : ClaimedJob} (hheld : held s claim state = some row) :
    row ∈ s ∧ row.id = claim.id ∧ row.state = state ∧ row.rowToken = claim.rowToken := by
  rcases Option.filter_eq_some_iff.mp hheld with ⟨hfind, hrow⟩
  rcases find?_eq_some.mp hfind with ⟨hmem, hid⟩
  rcases of_decide_eq_true hrow with ⟨hstate, htoken⟩
  exact ⟨hmem, hid, hstate, htoken⟩

theorem row_eq_some {projection : AlarmProjection} {id : JobId} {createdAtMs : Millis}
    (hrow : projection.row id createdAtMs nowMs = some row) :
    row.id = id ∧ row.object = projection.object ∧ row.rowToken = projection.rowToken := by
  unfold AlarmProjection.row at hrow
  split at hrow <;> cases hrow
  exact ⟨rfl, rfl, rfl⟩

theorem upsertAlarm_change {projection : AlarmProjection} {freshId : JobId}
    (hok : upsertAlarm s projection freshId nowMs = .ok t) :
    Change s t (.upsert projection freshId nowMs) := by
  simp only [upsertAlarm, ok_iff] at hok
  rcases hok with ⟨_, _, _, _, hok⟩
  cases hfind : findObject s projection.object with
  | some job =>
    rw [hfind] at hok
    simp only [ok_iff] at hok
    rcases hok with ⟨row, hrow, rfl⟩
    have hobject := List.find?_some hfind
    rcases row_eq_some hrow with ⟨hid, hfacts⟩
    exact Change.rearmed rfl (List.mem_of_find?_eq_some hfind) (of_decide_eq_true hobject) hid
      hfacts
      rfl
  | none =>
    rw [hfind] at hok
    simp only [ok_iff] at hok
    rcases hok with ⟨_, hrow, hinsert⟩
    exact Change.set rfl (fun job hjob hobject => List.find?_eq_none.mp hfind job hjob
      (decide_eq_true hobject)) (row_eq_some hrow).right.left hinsert

theorem filter_change {p : ScheduledJob -> Bool}
    (hremoves : forall job, job ∈ s -> p job = true -> Removes job a) :
    Change s (s.filter fun job => !p job) a := by
  refine Change.removed (fun job hjob => (mem_filter.mp hjob).left) ?_
  intro job hjob hnot
  apply hremoves job hjob
  cases hp : p job with
  | true => rfl
  | false => exact absurd (mem_filter.mpr ⟨hjob, by rw [hp]; rfl⟩) hnot

/-- What a report does: nothing without a row that it holds, or one write to this row. -/
inductive Settled (s : Store) (claim : ClaimedJob) (state : JobState) (deletes : Prop)
    (t : Store) : Prop where
  | stale (hsame : t = s)
  | erased {row : ScheduledJob} (hdeletes : deletes) (hheld : held s claim state = some row)
      (ht : t = s.erase row.id)
  | replaced {row row' : ScheduledJob} (hheld : held s claim state = some row)
      (ht : t = s.replace row') (hsame : SameAlarm row row')

theorem finishClaim_settled {result : ClaimResult}
    (hok : finishClaim s job result nowMs = .ok (changed, t)) :
    Settled s job .claimed (result = .delete) t := by
  unfold finishClaim at hok
  cases result with
  | delete =>
    dsimp only at hok
    split at hok <;> cases hok
    · exact Settled.stale rfl
    · exact Settled.erased rfl ‹_› rfl
  | reschedule dueAtMs retryCount lastErrorCode =>
    dsimp only at hok
    split at hok
    · split at hok <;> cases hok
      · exact Settled.stale rfl
      · rename_i hheld
        exact Settled.replaced hheld rfl ⟨rfl, rfl, rfl⟩
    · cases hok
  | markDiscarding lastErrorCode =>
    dsimp only at hok
    split at hok <;> cases hok
    · exact Settled.stale rfl
    · rename_i hheld
      exact Settled.replaced hheld rfl ⟨rfl, rfl, rfl⟩

theorem retargetClaim_settled {versionId : VersionId} {executionGeneration : Nat}
    (hok : retargetClaim s job versionId executionGeneration nowMs = .ok (changed, t)) :
    Settled s job .claimed False t := by
  simp only [retargetClaim, ok_iff] at hok
  rcases hok with ⟨_, hok⟩
  split at hok <;> cases hok
  · exact Settled.stale rfl
  · rename_i hheld
    exact Settled.replaced hheld rfl ⟨rfl, rfl, rfl⟩

theorem finishDiscarding_settled (hok : finishDiscarding s job = .ok (changed, t)) :
    Settled s job .discarding True t := by
  unfold finishDiscarding at hok
  split at hok <;> cases hok
  · exact Settled.stale rfl
  · exact Settled.erased trivial ‹_› rfl

theorem Settled.change {deletes : Prop} (hsettled : Settled s job state deletes t)
    (hremoves : forall row : ScheduledJob, deletes -> job.id = row.id ->
      job.rowToken = row.rowToken -> row.state = state -> Removes row a) : Change s t a := by
  cases hsettled with
  | stale hsame => exact Change.touched (hsame ▸ Touched.refl s)
  | @erased row hdeletes hheld ht =>
    rcases held_eq_some hheld with ⟨hrow, hid, hstate, htoken⟩
    rw [ht]
    refine Change.removed (fun job hjob => (mem_erase.mp hjob).left) ?_
    intro other hother hnot
    have hsame : other.id = row.id := by
      by_contra hne
      exact hnot (mem_erase.mpr ⟨hother, hne⟩)
    rw [eq_of_key_eq hother hrow hsame]
    exact hremoves row hdeletes hid.symm htoken.symm hstate
  | replaced hheld ht hsame =>
    rw [ht]
    exact Change.touched (touched_replace (held_eq_some hheld).left hsame)

theorem released_same (nowMs : Millis) (job : ScheduledJob) :
    SameAlarm job (released nowMs job) := by
  unfold released
  split
  · exact ⟨rfl, rfl, rfl⟩
  · exact SameAlarm.refl job

theorem change_of_apply (hok : a.apply s = .ok t) : Change s t a := by
  cases a with
  | upsert projection freshId nowMs => exact upsertAlarm_change hok
  | deleteExact object rowToken =>
    rcases snd_eq_ok.mp hok with ⟨deleted, hok⟩
    simp only [deleteAlarmExact, ok_iff, Prod.mk.injEq] at hok
    rcases hok with ⟨_, _, _, rfl⟩
    apply filter_change
    intro job _ hexact
    rcases of_decide_eq_true hexact with ⟨hobject, htoken⟩
    exact ⟨hobject.symm, htoken.symm⟩
  | deleteObject object =>
    rcases snd_eq_ok.mp hok with ⟨_, hok⟩
    simp only [Alarm.deleteObject, ok_iff, Prod.mk.injEq] at hok
    rcases hok with ⟨_, _, rfl⟩
    exact filter_change fun job _ hobject => (of_decide_eq_true hobject).symm
  | claim nowMs batch =>
    rcases snd_eq_ok.mp hok with ⟨_, hok⟩
    simp only [claimDue, ok_iff] at hok
    refine Change.touched (foldlM_invariant (fun c => Touched s c.2) ?_ (Touched.refl s) hok.right)
    intro id c d _ hc hd
    simp only [claimOne, ok_iff] at hd
    rcases hd with ⟨job, hjob, rfl⟩
    rcases Option.filter_eq_some_iff.mp hjob with ⟨hfind, _⟩
    exact hc.trans (touched_replace (mem_of_find? hfind) ⟨rfl, rfl, rfl⟩)
  | finish job result nowMs =>
    rcases snd_eq_ok.mp hok with ⟨changed, hok⟩
    refine (finishClaim_settled hok).change ?_
    rintro row rfl hid htoken hstate
    exact ⟨hid, htoken, hstate⟩
  | retarget job versionId executionGeneration nowMs =>
    rcases snd_eq_ok.mp hok with ⟨changed, hok⟩
    exact (retargetClaim_settled hok).change fun _ h => False.elim h
  | finishDiscarding job =>
    rcases snd_eq_ok.mp hok with ⟨_, hok⟩
    exact (finishDiscarding_settled hok).change fun _ _ hid htoken hstate => ⟨hid, htoken, hstate⟩
  | restart nowMs cronMaxRetries =>
    simp only [Action.apply, resetClaims, ok_iff] at hok
    rcases hok with ⟨_, rfl⟩
    refine Change.touched ⟨?_, ?_⟩
    · intro job hjob
      exact ⟨released nowMs job, List.mem_map.mpr ⟨job, hjob, rfl⟩, released_same nowMs job⟩
    · intro job' hjob'
      rcases List.mem_map.mp hjob' with ⟨job, hjob, rfl⟩
      exact ⟨job, hjob, released_same nowMs job⟩

end Changes

/-! ## Calls that carry a token -/

/-- The token of the row that a call is about.  An upsert is about the object and brings the
token that its row has afterwards. -/
def Action.fence : Action -> Option String
  | .deleteExact _ rowToken => some rowToken
  | .finish job _ _ => some job.rowToken
  | .retarget job _ _ _ => some job.rowToken
  | .finishDiscarding job => some job.rowToken
  | _ => none

section Fences

variable {s t : Store} {a : Action} {job : ScheduledJob} {claim : ClaimedJob}

theorem ne_held {row : ScheduledJob} (hheld : held s claim state = some row) (hjob : job ∈ s)
    (hother : job.rowToken ≠ claim.rowToken) : job.id ≠ row.id := by
  rcases held_eq_some hheld with ⟨hrow, _, _, htoken⟩
  intro hid
  rw [eq_of_key_eq hjob hrow hid] at hother
  exact hother htoken

theorem Settled.keeps {deletes : Prop} (hsettled : Settled s claim state deletes t) (hjob : job ∈ s)
    (hother : job.rowToken ≠ claim.rowToken) : job ∈ t := by
  cases hsettled with
  | stale hsame => exact hsame ▸ hjob
  | erased _ hheld ht =>
    rw [ht]
    exact mem_erase.mpr ⟨hjob, ne_held hheld hjob hother⟩
  | replaced hheld ht hsame =>
    rw [ht]
    exact mem_replace.mpr (.inl ⟨hjob, hsame.id ▸ ne_held hheld hjob hother⟩)

theorem fence_keeps {rowToken : String} (hok : a.apply s = .ok t)
    (hfence : a.fence = some rowToken) (hjob : job ∈ s) (hother : job.rowToken ≠ rowToken) :
    job ∈ t := by
  cases a with
  | deleteExact object token =>
    cases hfence
    rcases snd_eq_ok.mp hok with ⟨_, hok⟩
    simp only [deleteAlarmExact, ok_iff, Prod.mk.injEq] at hok
    rcases hok with ⟨_, _, _, rfl⟩
    refine mem_filter.mpr ⟨hjob, ?_⟩
    unfold isExact
    rw [decide_eq_false fun h => hother h.right]
    rfl
  | finish claim result nowMs =>
    cases hfence
    rcases snd_eq_ok.mp hok with ⟨changed, hok⟩
    exact (finishClaim_settled hok).keeps hjob hother
  | retarget claim versionId executionGeneration nowMs =>
    cases hfence
    rcases snd_eq_ok.mp hok with ⟨changed, hok⟩
    exact (retargetClaim_settled hok).keeps hjob hother
  | finishDiscarding claim =>
    cases hfence
    rcases snd_eq_ok.mp hok with ⟨_, hok⟩
    exact (finishDiscarding_settled hok).keeps hjob hother
  | _ => cases hfence

end Fences

/-! ## One row for an object, and how it leaves -/

def Unique (s : Store) : Prop :=
  forall job job', job ∈ s -> job' ∈ s -> job.object = job'.object -> job = job'

inductive Fate (job : ScheduledJob) (t : Store) (a : Action) : Prop where
  | kept {job' : ScheduledJob} (hjob' : job' ∈ t) (hsame : SameAlarm job job')
  | rearmed {projection : AlarmProjection} {freshId : JobId} {nowMs : Millis}
      {job' : ScheduledJob} (ha : a = .upsert projection freshId nowMs)
      (hprojection : projection.object = job.object) (hjob' : job' ∈ t)
      (hid : job'.id = job.id) (hobject : job'.object = job.object)
      (htoken : job'.rowToken = projection.rowToken)
  | removed (hgone : forall job', job' ∈ t -> job'.object ≠ job.object) (hby : Removes job a)

section Fates

variable {s t : Store} {a : Action} {job : ScheduledJob}

theorem change_unique (hchange : Change s t a) (hs : Unique s) : Unique t := by
  intro job job' hjob hjob' hobject
  cases hchange with
  | touched htouched =>
    rcases htouched.only job hjob with ⟨old, hold, hsame⟩
    rcases htouched.only job' hjob' with ⟨old', hold', hsame'⟩
    have heq : old = old' := hs old old' hold hold'
      (hsame.object.symm.trans (hobject.trans hsame'.object))
    apply eq_of_key_eq hjob hjob'
    rw [hsame.id, hsame'.id, heq]
  | @rearmed projection _ _ old row ha hold hobject' hid hrow hreplace =>
    subst hreplace
    have hother : forall other, other ∈ s -> other.id ≠ row.id -> other.object ≠ row.object := by
      intro other hmem hne hsame
      have heq := hs other old hmem hold (hsame.trans (hrow.left.trans hobject'.symm))
      rw [heq] at hne
      exact hne hid.symm
    rcases mem_replace.mp hjob with ⟨hmem, hne⟩ | ⟨rfl, _⟩
    · rcases mem_replace.mp hjob' with ⟨hmem', _⟩ | ⟨rfl, _⟩
      · exact hs job job' hmem hmem' hobject
      · exact absurd hobject (hother job hmem hne)
    · rcases mem_replace.mp hjob' with ⟨hmem', hne'⟩ | ⟨rfl, _⟩
      · exact absurd hobject.symm (hother job' hmem' hne')
      · rfl
  | set ha hnone hrow hinsert =>
    rcases (mem_of_insert? hinsert).mp hjob with hmem | rfl
    · rcases (mem_of_insert? hinsert).mp hjob' with hmem' | rfl
      · exact hs job job' hmem hmem' hobject
      · exact absurd (hobject.trans hrow) (hnone job hmem)
    · rcases (mem_of_insert? hinsert).mp hjob' with hmem' | rfl
      · exact absurd (hobject.symm.trans hrow) (hnone job' hmem')
      · rfl
  | removed honly _ => exact hs job job' (honly job hjob) (honly job' hjob') hobject

theorem change_fate (hchange : Change s t a) (hs : Unique s) (hjob : job ∈ s) : Fate job t a := by
  cases hchange with
  | touched htouched =>
    rcases htouched.kept job hjob with ⟨job', hjob', hsame⟩
    exact Fate.kept hjob' hsame
  | @rearmed projection _ _ old row ha hold hobject hid hrow hreplace =>
    subst hreplace
    by_cases hsame : job.id = row.id
    · have heq : job = old := eq_of_key_eq hjob hold (hsame.trans hid)
      rw [heq]
      refine Fate.rearmed ha hobject.symm (mem_replace.mpr (.inr ⟨rfl, old, hold,
        hid.symm⟩)) hid (hrow.left.trans hobject.symm) hrow.right
    · exact Fate.kept (mem_replace.mpr (.inl ⟨hjob, hsame⟩)) (SameAlarm.refl job)
  | set _ _ _ hinsert =>
    exact Fate.kept ((mem_of_insert? hinsert).mpr (.inl hjob)) (SameAlarm.refl job)
  | removed honly hgone =>
    by_cases hmem : job ∈ t
    · exact Fate.kept hmem (SameAlarm.refl job)
    · refine Fate.removed ?_ (hgone job hjob hmem)
      intro job' hjob' hobject
      have heq := hs job' job (honly job' hjob') hjob hobject
      rw [heq] at hjob'
      exact hmem hjob'

end Fates

/-! ## Runs -/

theorem apply_of_next {t : Store} {a : Action} (hnext : next s a = some t) : a.apply s = .ok t :=
  toOption_eq_some.mp hnext

theorem history_unique {actions : List Action} (hrun : History actions s) : Unique s := by
  refine hrun.invariant (P := Unique) ?_ ?_
  · intro u a v hu _ hnext
    exact change_unique (change_of_apply (apply_of_next hnext)) hu
  · intro job _ hjob
    exact absurd hjob (not_mem_empty job)

theorem run_removes {later : List Action} {t : Store} (hs : Unique s)
    (hrun : Run next always s later t) {job : ScheduledJob} (hjob : job ∈ s)
    (hgone : forall job', job' ∈ t -> job'.object ≠ job.object) :
    exists before a rest u job', later = before ++ a :: rest ∧
      Run next always s before u ∧ job' ∈ u ∧ job'.object = job.object ∧
      Removes job' a := by
  induction hrun generalizing job with
  | nil s => exact absurd rfl (hgone job hjob)
  | @cons s u t a rest hallowed hnext hrest ih =>
    have hchange := change_of_apply (apply_of_next hnext)
    have hlater : forall job', job' ∈ u -> job'.object = job.object ->
        exists before b rest' v job'', a :: rest = before ++ b :: rest' ∧
          Run next always s before v ∧ job'' ∈ v ∧ job''.object = job.object ∧
          Removes job'' b := by
      intro job' hjob' hobject
      rcases ih (change_unique hchange hs) hjob' (fun other hother => by
        rw [hobject]
        exact hgone other hother) with ⟨before, b, rest', v, job'', heq, hbefore, hmem, hkey, hby⟩
      refine ⟨a :: before, b, rest', v, job'', ?_, Run.cons hallowed hnext hbefore, hmem,
        hkey.trans hobject, hby⟩
      rw [heq, List.cons_append]
    cases change_fate hchange hs hjob with
    | kept hjob' hsame => exact hlater _ hjob' hsame.object
    | rearmed _ _ hjob' _ hobject _ => exact hlater _ hjob' hobject
    | removed _ hby => exact ⟨[], a, rest, s, job, rfl, Run.nil s, hjob, rfl, hby⟩

/-- The authority of the objects in every state of every run. -/
structure AlarmAuthority (s : Store) : Prop where
  unique : Unique s
  fenced : forall a t rowToken job, next s a = some t -> a.fence = some rowToken -> job ∈ s ->
    job.rowToken ≠ rowToken -> job ∈ t
  fate : forall a t job, next s a = some t -> job ∈ s -> Fate job t a
  leaves : forall later t job, Run next always s later t -> job ∈ s ->
    (forall job', job' ∈ t -> job'.object ≠ job.object) ->
    exists before a rest u job', later = before ++ a :: rest ∧
      Run next always s before u ∧ job' ∈ u ∧ job'.object = job.object ∧
      Removes job' a

theorem alarm_authority {actions : List Action} {s : Store} (hrun : History actions s) :
    AlarmAuthority s where
  unique := history_unique hrun
  fenced := fun _ _ _ _ hnext hfence hjob hother =>
    fence_keeps (apply_of_next hnext) hfence hjob hother
  fate := fun _ _ _ hnext hjob =>
    change_fate (change_of_apply (apply_of_next hnext)) (history_unique hrun) hjob
  leaves := fun _ _ _ hlater hjob hgone => run_removes (history_unique hrun) hlater hjob hgone

namespace Sample

def object : ObjectKey := ⟨1, 2, 1⟩

def projection (rowToken : String) (dueAtMs : Millis) : AlarmProjection :=
  ⟨object, rowToken, dueAtMs, 3, 1, 0⟩

def claim : ClaimedJob := ⟨7, object, "token-0123456789", 10, 3, 1, 0⟩

def rearmed : List Action :=
  [.upsert (projection "token-0123456789" 10) 7 0, .claim 20 1,
    .upsert (projection "token-9876543210" 50) 8 21, .finish claim .delete 22]

end Sample

open Sample in
theorem alarm_authority_rearmed : exists s, History rearmed s ∧
    (exists job, job ∈ s ∧ job.rowToken = "token-9876543210" ∧ job.state = .scheduled) ∧
    AlarmAuthority s :=
  exists_run_with (fun _ hrun => alarm_authority hrun) (by decide +kernel)

end Alarm
end OpenCompute
