import OpenCompute.Platform
import OpenCompute.Relational.Table
import OpenCompute.Transition.Run

/-!
# Deployments and their quarantine

A worker has at most one active deployment.  A deployment whose runtime fails
is quarantined, and the worker goes back to its newest other deployment.  A
version with a quarantined deployment is not to run again.
-/

namespace OpenCompute
namespace Deployments

open Relational Table Transaction Transition Option

inductive VersionState where
  | staging
  | validating
  | ready
  | rejected
  | deleting
  | tombstoned
deriving DecidableEq

inductive Assessment where
  | dispatchable
  | quarantined (reason : String)
deriving DecidableEq

structure Worker where
  id : Nat
  active : Option Nat
  routeGeneration : Nat
  deleted : Bool
  deleteIntent : Bool
deriving DecidableEq

structure Version where
  id : Nat
  worker : Nat
  state : VersionState
deriving DecidableEq

structure Deployment where
  id : Nat
  worker : Nat
  version : Nat
  createdAt : Int
  deleted : Bool
  assessment : Assessment
deriving DecidableEq

def Deployment.live (d : Deployment) : Bool := !d.deleted && d.assessment = .dispatchable

structure Control where
  workers : Table Worker.id
  versions : Table Version.id
  deployments : Table Deployment.id
  /-- The versions with a row in `version_referrers`. -/
  referrers : List Nat
  /-- The versions of all deployments that were quarantined so far. -/
  history : List Nat

def Control.empty : Control := ⟨Table.empty, Table.empty, Table.empty, [], []⟩

def workerNotFound : PlatformError := ⟨.workerNotFound, "Worker was not found"⟩

def versionNotFound : PlatformError := ⟨.versionNotFound, "version was not found"⟩

def invariant : PlatformError :=
  ⟨.versionInvariantViolation, "persisted version invariant failed"⟩

def dbError : PlatformError := ⟨.internal, "control database operation failed"⟩

/-- What the other products of a worker answer to the change of its deployment. -/
structure Checks where
  containerPolicies : Nat -> Result Unit
  replaceProducts : Result Unit

namespace Control

def readWorker (c : Control) (id : Nat) : Result Worker :=
  okOr (c.workers.find? id) workerNotFound

def requireLiveWorker (c : Control) (id : Nat) : Result Worker := do
  let worker ← c.readWorker id
  ensure (worker.deleted = false) ⟨.workerDeleted, "Worker is tombstoned"⟩
  return worker

def activeVersion (c : Control) (w : Worker) : Option Nat :=
  w.active.bind fun id => (c.deployments.find? id).map Deployment.version

def versionOf (c : Control) (worker id : Nat) : Option Version :=
  (c.versions.find? id).filter fun v => v.worker = worker

/-! ## Activation -/

def admits (c : Control) (worker id : Nat) : Bool :=
  (c.deployments.find? id).any fun d =>
    d.worker = worker && d.live &&
      (c.versionOf worker d.version).any fun v => v.state = .ready

def activate (c : Control) (w : Worker) (deployment : Option Nat) : Result Control := do
  ensure (deployment.all (c.admits w.id) = true) dbError
  return { c with
    workers := c.workers.replace
      { w with active := deployment, routeGeneration := w.routeGeneration + 1 } }

def createDeployment (c : Control) (checks : Checks) (id worker target : Nat)
    (expectedActive expectedRouteGeneration : Option Nat) (now : Int) : Result Control := do
  let current ← c.requireLiveWorker worker
  let version ← okOr (c.versionOf worker target) versionNotFound
  ensure (version.state = .ready)
    ⟨.versionNotReady, "Deployment target is not a ready Version of this Worker"⟩
  checks.containerPolicies target
  ensure (¬ exists d, d ∈ c.deployments ∧
      (d.worker = worker ∧ d.version = target ∧ d.assessment ≠ .dispatchable))
    ⟨.versionNotReady, "a quarantined Version cannot be activated again"⟩
  ensure (expectedActive.all (fun v => c.activeVersion current = some v) ∧
      expectedRouteGeneration.all (fun g => current.routeGeneration = g))
    ⟨.idempotencyConflict, "Deployment compare-and-swap precondition failed"⟩
  ensure (current.deleteIntent = false) dbError
  let deployments ←
    okOr (c.deployments.insert? ⟨id, worker, target, now, false, .dispatchable⟩) dbError
  let c ← { c with deployments }.activate current (some id)
  checks.replaceProducts
  return c

/-! ## Quarantine -/

/-- `ORDER BY created_at_ms DESC, id DESC LIMIT 1` -/
def newest : List Deployment -> Option Deployment
  | [] => none
  | d :: rest =>
    match newest rest with
    | none => some d
    | some e =>
      if e.createdAt < d.createdAt || (e.createdAt = d.createdAt && e.id < d.id) then some d
      else some e

def candidates (c : Control) (worker id : Nat) : List Deployment :=
  c.deployments.rows.filter fun d =>
    d.worker = worker && d.id ≠ id && d.live &&
      (c.versions.find? d.version).any fun v => v.state = .ready

def previous (c : Control) (checks : Checks) (worker id : Nat) : Result (Option Nat) :=
  match newest (c.candidates worker id) with
  | none => .ok none
  | some d =>
    match checks.containerPolicies d.version with
    | .ok _ => .ok (some d.id)
    | .error e => if e.code = .configInvalid then .ok none else .error e

def isControl (ch : Char) : Bool := ch.val < 32 || (127 ≤ ch.val && ch.val < 160)

def quarantineActiveDeployment (c : Control) (checks : Checks) (id : Nat) (reason : String) :
    Result (Control × Bool) := do
  ensure (reason ≠ "" ∧ reason.utf8ByteSize ≤ 128 ∧ reason.toList.any isControl = false) invariant
  match c.workers.rows.find? (fun w => w.active = some id), c.deployments.find? id with
  | some w, some d =>
    if d.live then do
      let previous ← c.previous checks w.id id
      let c ← { c with
        deployments := c.deployments.replace { d with assessment := .quarantined reason }
        history := d.version :: c.history }.activate w previous
      checks.replaceProducts
      return (c, true)
    else return (c, false)
  | _, _ => return (c, false)

/-! ## Deletion -/

def deleteDeployment (c : Control) (worker id : Nat) : Result Control := do
  let _ ← c.readWorker worker
  let d ← okOr ((c.deployments.find? id).filter fun d => d.worker = worker && !d.deleted)
    ⟨.versionActive, "Deployment is current, missing, or already deleted"⟩
  ensure (¬ exists w, w ∈ c.workers ∧ w.active = some id)
    ⟨.versionActive, "Deployment is current, missing, or already deleted"⟩
  return { c with deployments := c.deployments.replace { d with deleted := true } }

def setState (c : Control) (v : Version) (state : VersionState) : Control :=
  { c with versions := c.versions.replace { v with state } }

def beginVersionDelete (c : Control) (worker id : Nat) : Result Control := do
  let w ← c.readWorker worker
  ensure (c.activeVersion w ≠ some id) ⟨.versionActive, "active version cannot be deleted"⟩
  ensure (¬ id ∈ c.referrers) ⟨.versionReferenced, "version still has registered referrers"⟩
  let v ← okOr (c.versionOf worker id) versionNotFound
  if v.state = .deleting then return c
  else do
    ensure (v.state = .ready ∨ v.state = .rejected) versionNotFound
    return c.setState v .deleting

def finalizeVersionDelete (c : Control) (worker id : Nat) : Result Control := do
  let _ ← c.readWorker worker
  let v ← okOr ((c.versionOf worker id).filter fun v => v.state = .deleting) versionNotFound
  ensure (¬ id ∈ c.referrers)
    ⟨.versionReferenced, "version acquired a registered referrer while deleting"⟩
  return c.setState v .tombstoned

end Control

/-! ## Runs -/

inductive Action where
  | createWorker (id : Nat)
  | createVersion (id worker : Nat)
  | validate (id : Nat) (state : VersionState)
  | setReferrers (referrers : List Nat)
  | beginForceDelete (worker : Nat)
  | deleteWorker (worker : Nat)
  | deploy (checks : Checks) (id worker target : Nat)
      (expectedActive expectedRouteGeneration : Option Nat) (now : Int)
  | quarantine (checks : Checks) (id : Nat) (reason : String)
  | deleteDeployment (worker id : Nat)
  | beginVersionDelete (worker id : Nat)
  | finalizeVersionDelete (worker id : Nat)

/-- The transitions of the pipeline that `version_transition_guard` lets pass. -/
def VersionState.validates : VersionState -> VersionState -> Bool
  | .staging, .validating => true
  | .staging, .rejected => true
  | .validating, .ready => true
  | .validating, .rejected => true
  | _, _ => false

namespace Control

/-- A transaction that fails leaves nothing behind. -/
def settle (c : Control) : Result Control -> Option Control
  | .ok c' => some c'
  | .error _ => some c

def setWorker (c : Control) (id : Nat) (f : Worker -> Worker) : Option Control :=
  (c.workers.find? id).map fun w => { c with workers := c.workers.replace (f w) }

def next (c : Control) : Action -> Option Control
  | .createWorker id =>
    (c.workers.insert? ⟨id, none, 0, false, false⟩).map fun workers => { c with workers }
  | .createVersion id worker =>
    (c.versions.insert? ⟨id, worker, .staging⟩).map fun versions => { c with versions }
  | .validate id state =>
    ((c.versions.find? id).filter fun v => v.state.validates state).map fun v => c.setState v state
  | .setReferrers referrers => some { c with referrers }
  | .beginForceDelete id => c.setWorker id fun w => { w with deleteIntent := true }
  | .deleteWorker id => c.setWorker id fun w => { w with active := none, deleted := true }
  | .deploy checks id worker target active generation now =>
    c.settle (c.createDeployment checks id worker target active generation now)
  | .quarantine checks id reason =>
    c.settle (Prod.fst <$> c.quarantineActiveDeployment checks id reason)
  | .deleteDeployment worker id => c.settle (c.deleteDeployment worker id)
  | .beginVersionDelete worker id => c.settle (c.beginVersionDelete worker id)
  | .finalizeVersionDelete worker id => c.settle (c.finalizeVersionDelete worker id)

end Control

/-- The active deployment runs a ready version of which no deployment was ever quarantined. -/
def Sticky (c : Control) : Prop :=
  forall w, w ∈ c.workers -> forall id, w.active = some id ->
    exists d v, d ∈ c.deployments ∧ d.id = id ∧ d.live = true ∧
      v ∈ c.versions ∧ v.id = d.version ∧ v.state = .ready ∧ ¬ d.version ∈ c.history

/-- A deployment is quarantined only if no other one that could be dispatched has its version. -/
def LastOfVersion (c : Control) : Action -> Prop
  | .quarantine _ id _ =>
    ¬ exists d, d ∈ c.deployments ∧ (d.id = id ∧ exists e, e ∈ c.deployments ∧
      (e.id ≠ id ∧ e.version = d.version ∧ e.live = true))
  | _ => True

instance (c : Control) (a : Action) : Decidable (LastOfVersion c a) := by
  cases a <;> unfold LastOfVersion <;> infer_instance

/-! ## The rows of the deployments -/

/-- A version with a quarantined deployment has no deployment left that could be dispatched. -/
structure Control.Ledger (c : Control) : Prop where
  owned : forall d, d ∈ c.deployments ->
    exists v, v ∈ c.versions ∧ v.id = d.version ∧ v.worker = d.worker
  barred : forall d e, d ∈ c.deployments -> e ∈ c.deployments -> e.version = d.version ->
    d.assessment ≠ .dispatchable -> e.live = false
  recorded : forall version, version ∈ c.history ->
    exists d, d ∈ c.deployments ∧ d.version = version ∧ d.assessment ≠ .dispatchable

structure Control.Sound (c : Control) : Prop extends c.Ledger where
  active : forall w, w ∈ c.workers -> forall id, w.active = some id -> c.admits w.id id = true

section Tables

variable {c c' : Control} {w : Worker} {worker id : Nat} {v : Version} {d : Deployment}

theorem versionOf_eq_some :
    c.versionOf worker id = some v ↔ v ∈ c.versions ∧ v.id = id ∧ v.worker = worker := by
  simp [Control.versionOf, filter_eq_some_iff, find?_eq_some, and_assoc]

theorem admits_iff : c.admits worker id = true ↔ exists d v, d ∈ c.deployments ∧ d.id = id ∧
    d.worker = worker ∧ d.live = true ∧
    v ∈ c.versions ∧ v.id = d.version ∧ v.worker = worker ∧ v.state = .ready := by
  simp only [Control.admits, any_eq_true, find?_eq_some, versionOf_eq_some,
    Bool.and_eq_true, decide_eq_true_eq]
  constructor
  · rintro ⟨d, ⟨hd, hid⟩, ⟨hworker, hlive⟩, v, ⟨hv, hversion, howner⟩, hready⟩
    exact ⟨d, v, hd, hid, hworker, hlive, hv, hversion, howner, hready⟩
  · rintro ⟨d, v, hd, hid, hworker, hlive, hv, hversion, howner, hready⟩
    exact ⟨d, ⟨hd, hid⟩, ⟨hworker, hlive⟩, v, ⟨hv, hversion, howner⟩, hready⟩

theorem Control.Sound.sticky (hc : c.Sound) : Sticky c := by
  intro w hw id hid
  rcases admits_iff.mp (hc.active w hw id hid) with
    ⟨d, v, hd, hdid, _, hlive, hv, hversion, _, hready⟩
  refine ⟨d, v, hd, hdid, hlive, hv, hversion, hready, fun hmem => ?_⟩
  rcases hc.recorded _ hmem with ⟨e, he, hsame, hquarantined⟩
  rw [hc.barred e d he hd hsame.symm hquarantined] at hlive
  cases hlive

theorem activate_sound {deployment : Option Nat} (hc : c.Ledger)
    (hothers : forall u, u ∈ c.workers -> u.id ≠ w.id -> forall id, u.active = some id ->
      c.admits u.id id = true) (hactivate : c.activate w deployment = .ok c') : c'.Sound := by
  simp only [Control.activate, ok_iff] at hactivate
  rcases hactivate with ⟨hguard, rfl⟩
  refine ⟨{ hc with }, fun u hu id hid => ?_⟩
  rcases mem_replace.mp hu with ⟨hmem, hne⟩ | ⟨rfl, _⟩
  · exact hothers u hmem hne id hid
  · have hsome : deployment = some id := hid
    rw [hsome] at hguard
    exact hguard

theorem setVersions_sound (hc : c.Sound) {versions : Table Version.id}
    (hkept : forall v, v ∈ c.versions -> exists u, u ∈ versions ∧ u.id = v.id ∧ u.worker = v.worker)
    (hready : forall v, v ∈ c.versions -> v.state = .ready ->
      (exists w, w ∈ c.workers ∧ c.activeVersion w = some v.id ∧ w.id = v.worker) ->
      v ∈ versions) :
    ({ c with versions } : Control).Sound := by
  refine ⟨⟨fun d hd => ?_, hc.barred, hc.recorded⟩, fun w hw id hid => ?_⟩
  · rcases hc.owned d hd with ⟨v, hv, hversion, howner⟩
    rcases hkept v hv with ⟨u, hu, hsame, hworker⟩
    exact ⟨u, hu, hsame.trans hversion, hworker.trans howner⟩
  · rcases admits_iff.mp (hc.active w hw id hid) with
      ⟨d, v, hd, hdid, hworker, hlive, hv, hversion, howner, hstate⟩
    have hactive : c.activeVersion w = some v.id := by
      rw [Control.activeVersion, hid, bind_some, ← hdid, find?_key hd, hversion]
      rfl
    exact admits_iff.mpr ⟨d, v, hd, hdid, hworker, hlive,
      hready v hv hstate ⟨w, hw, hactive, howner.symm⟩, hversion, howner, hstate⟩

theorem setState_sound (hc : c.Sound) (hv : v ∈ c.versions) {state : VersionState}
    (hidle : v.state ≠ .ready ∨ forall w, w ∈ c.workers -> w.id = v.worker ->
      c.activeVersion w ≠ some v.id) : (c.setState v state).Sound := by
  refine setVersions_sound hc (fun u hu => ?_) fun u hu hstate hactive => ?_
  · by_cases hkey : u.id = v.id
    · have heq := eq_of_key_eq hu hv hkey
      exact ⟨_, mem_replace.mpr (.inr ⟨rfl, v, hv, rfl⟩), heq ▸ rfl, heq ▸ rfl⟩
    · exact ⟨u, mem_replace.mpr (.inl ⟨hu, hkey⟩), rfl, rfl⟩
  · refine mem_replace.mpr (.inl ⟨hu, fun hkey => ?_⟩)
    have heq := eq_of_key_eq hu hv hkey
    subst heq
    rcases hactive with ⟨w, hw, hrun, howner⟩
    rcases hidle with h | h
    · exact h hstate
    · exact h w hw howner hrun

theorem setWorker_sound (hc : c.Sound) {f : Worker -> Worker}
    (hf : forall w, (f w).id = w.id ∧ ((f w).active = w.active ∨ (f w).active = none))
    (hset : c.setWorker id f = some c') : c'.Sound := by
  rcases map_eq_some_iff.mp hset with ⟨w, hfind, rfl⟩
  have hw := mem_of_find? hfind
  refine ⟨{ hc with }, forall_replace hc.active fun id hid => ?_⟩
  rw [(hf w).left]
  rcases (hf w).right with h | h
  · exact hc.active w hw id (h ▸ hid)
  · rw [h] at hid
    cases hid

theorem Control.Ledger.replace (hc : c.Ledger) (hd : d ∈ c.deployments) {d' : Deployment}
    {history : List Nat} (hid : d'.id = d.id) (hworker : d'.worker = d.worker)
    (hversion : d'.version = d.version) (hlive : d'.live = false)
    (hkept : d.assessment ≠ .dispatchable -> d'.assessment ≠ .dispatchable)
    (hlast : d'.assessment ≠ .dispatchable -> forall e, e ∈ c.deployments -> e.id ≠ d.id ->
      e.version = d.version -> e.live = false)
    (hhistory : forall version, version ∈ history ->
      version ∈ c.history ∨ (version = d.version ∧ d'.assessment ≠ .dispatchable)) :
    ({ c with deployments := c.deployments.replace d', history } : Control).Ledger := by
  have hrow : forall e, e ∈ c.deployments.replace d' ->
      (e ∈ c.deployments ∧ e.id ≠ d.id) ∨ e = d' := by
    intro e he
    rcases mem_replace.mp he with h | ⟨h, _⟩
    · exact .inl (hid ▸ h)
    · exact .inr h
  have hset : d' ∈ c.deployments.replace d' := mem_replace.mpr (.inr ⟨rfl, d, hd, hid.symm⟩)
  refine ⟨fun e he => ?_, fun e f he hf hsame hq => ?_, fun version hmem => ?_⟩
  · rcases hrow e he with h | rfl
    · exact hc.owned e h.left
    · rw [hversion, hworker]
      exact hc.owned d hd
  · rcases hrow f hf with ⟨hfold, hne⟩ | rfl
    · rcases hrow e he with ⟨heold, _⟩ | rfl
      · exact hc.barred e f heold hfold hsame hq
      · exact hlast hq f hfold hne (hsame.trans hversion)
    · exact hlive
  · rcases hhistory version hmem with h | ⟨rfl, hq⟩
    · rcases hc.recorded version h with ⟨e, he, hsame, hq⟩
      by_cases hkey : e.id = d.id
      · have heq := eq_of_key_eq he hd hkey
        exact ⟨d', hset, hversion.trans (heq ▸ hsame), hkept (heq ▸ hq)⟩
      · exact ⟨e, mem_replace.mpr (.inl ⟨he, hid ▸ hkey⟩), hsame, hq⟩
    · exact ⟨d', hset, hversion, hq⟩

theorem admits_replace (hadmits : c.admits worker id = true) (hne : id ≠ d.id)
    {history : List Nat} :
    ({ c with deployments := c.deployments.replace d, history } : Control).admits worker id =
      true := by
  rcases admits_iff.mp hadmits with ⟨e, v, he, hid, hrest⟩
  exact admits_iff.mpr ⟨e, v, mem_replace.mpr (.inl ⟨he, hid.symm ▸ hne⟩), hid, hrest⟩

end Tables

/-! ## Transactions -/

section Writers

variable {c c' : Control} {checks : Checks} {worker id target : Nat}

section

variable (hc : c.Sound)
include hc

theorem createDeployment_sound {active generation : Option Nat} {now : Int}
    (hdeploy : c.createDeployment checks id worker target active generation now = .ok c') :
    c'.Sound := by
  simp only [Control.createDeployment, ok_iff] at hdeploy
  rcases hdeploy with ⟨_, _, version, hversion, _, _, hclean, _, _,
    deployments, hinsert, u, hactivate, _, rfl⟩
  rcases versionOf_eq_some.mp hversion with ⟨hv, hid, howner⟩
  have hfree : forall d, d ∈ c.deployments -> d.version = target ->
      d.assessment = .dispatchable := by
    intro d hd hsame
    by_contra hquarantined
    rcases hc.owned d hd with ⟨v, hvd, hvid, hworker⟩
    have heq := eq_of_key_eq hvd hv (hvid.trans (hsame.trans hid.symm))
    exact hclean ⟨d, hd, hworker.symm.trans (heq ▸ howner), hsame, hquarantined⟩
  have hmem : forall d, d ∈ deployments -> d ∈ c.deployments ∨
      d = ⟨id, worker, target, now, false, .dispatchable⟩ :=
    fun d hd => (mem_of_insert? hinsert).mp hd
  have hold : forall d, d ∈ c.deployments -> d ∈ deployments :=
    fun d hd => (mem_of_insert? hinsert).mpr (.inl hd)
  refine activate_sound ⟨fun d hd => ?_, fun d e hd he hsame hq => ?_,
    fun v hv => ?_⟩ (fun u hu _ id hid => ?_) hactivate
  · rcases hmem d hd with h | rfl
    · exact hc.owned d h
    · exact ⟨version, hv, hid, howner⟩
  · rcases hmem d hd with hd | rfl
    · rcases hmem e he with he | rfl
      · exact hc.barred d e hd he hsame hq
      · exact absurd (hfree d hd hsame.symm) hq
    · exact absurd rfl hq
  · rcases hc.recorded v hv with ⟨d, hd, hrest⟩
    exact ⟨d, hold d hd, hrest⟩
  · rcases admits_iff.mp (hc.active u hu id hid) with ⟨d, v, hd, hrest⟩
    exact admits_iff.mpr ⟨d, v, hold d hd, hrest⟩

theorem quarantine_sound {reason : String} {done : Bool}
    (hlast : LastOfVersion c (.quarantine checks id reason))
    (hquarantine : c.quarantineActiveDeployment checks id reason = .ok (c', done)) :
    c'.Sound := by
  rcases bind_eq_ok.mp hquarantine with ⟨_, _, hbody⟩
  split at hbody
  · rename_i w d hw hd
    have hworker := List.mem_of_find?_eq_some hw
    have hactive : w.active = some id := by simpa using List.find?_some hw
    rcases find?_eq_some.mp hd with ⟨hmem, hid⟩
    split at hbody
    · simp only [ok_iff] at hbody
      rcases hbody with ⟨_, _, u, hactivate, _, heq⟩
      cases heq
      refine activate_sound ?_ (fun u hu hne id' hid' => ?_) hactivate
      · refine hc.toLedger.replace hmem rfl rfl rfl (Bool.and_false _) (fun _ h => by cases h)
          (fun _ e he hne hsame => ?_) fun version hversion => ?_
        · refine Bool.eq_false_iff.mpr fun hlive => ?_
          exact hlast ⟨d, hmem, hid, e, he, hid ▸ hne, hsame, hlive⟩
        · rcases List.mem_cons.mp hversion with h | h
          · exact .inr ⟨h, fun h => by cases h⟩
          · exact .inl h
      · refine admits_replace (hc.active u hu id' hid') fun hsame => ?_
        rcases admits_iff.mp (hc.active u hu id' hid') with ⟨_, _, he, heid, heworker, _⟩
        rcases admits_iff.mp (hc.active w hworker id hactive) with ⟨_, _, hf, hfid, hfworker, _⟩
        have heq := eq_of_key_eq he hf (heid.trans (hsame.trans (hid.trans hfid.symm)))
        exact hne (heworker.symm.trans (heq ▸ hfworker))
    · cases hbody
      exact hc
  · cases hbody
    exact hc

theorem deleteDeployment_sound (hdelete : c.deleteDeployment worker id = .ok c') : c'.Sound := by
  simp only [Control.deleteDeployment, ok_iff, filter_eq_some_iff, find?_eq_some] at hdelete
  rcases hdelete with ⟨_, _, d, ⟨⟨hmem, hid⟩, _⟩, hidle, rfl⟩
  refine ⟨hc.toLedger.replace hmem rfl rfl rfl rfl (fun h => h)
    (fun hq e he _ hsame => hc.barred d e hmem he hsame hq) (fun _ h => .inl h), ?_⟩
  intro w hw id' hid'
  refine admits_replace (hc.active w hw id' hid') fun hsame => ?_
  exact hidle ⟨w, hw, hid'.trans (congrArg some (hsame.trans hid))⟩

theorem beginVersionDelete_sound (hbegin : c.beginVersionDelete worker id = .ok c') : c'.Sound := by
  simp only [Control.beginVersionDelete, Control.readWorker, ok_iff, ite_eq_iff] at hbegin
  rcases hbegin with ⟨_, hw, hidle, _, _, hv, ⟨_, rfl⟩ | ⟨_, _, rfl⟩⟩
  · exact hc
  · rcases versionOf_eq_some.mp hv with ⟨hmem, hid, howner⟩
    refine setState_sound hc hmem (.inr fun u hu hworker => ?_)
    have heq := eq_of_key_eq hu (mem_of_find? hw)
      (hworker.trans (howner.trans (find?_eq_some.mp hw).right.symm))
    rw [heq, hid]
    exact hidle

theorem finalizeVersionDelete_sound
    (hfinalize : c.finalizeVersionDelete worker id = .ok c') : c'.Sound := by
  simp only [Control.finalizeVersionDelete, ok_iff, filter_eq_some_iff,
    versionOf_eq_some] at hfinalize
  rcases hfinalize with ⟨_, _, _, ⟨⟨hmem, _⟩, hstate⟩, _, rfl⟩
  refine setState_sound hc hmem (.inl ?_)
  rw [of_decide_eq_true hstate]
  decide

theorem settle_sound {result : Result Control}
    (hok : forall u, result = .ok u -> u.Sound) (hsettle : c.settle result = some c') :
    c'.Sound := by
  cases result with
  | ok u =>
    cases hsettle
    exact hok c' rfl
  | error e =>
    cases hsettle
    exact hc

theorem next_sound {a : Action} (hlast : LastOfVersion c a)
    (hnext : c.next a = some c') : c'.Sound := by
  cases a with
  | createWorker id =>
    rcases map_eq_some_iff.mp hnext with ⟨_, hinsert, rfl⟩
    exact ⟨{ hc with }, forall_insert? hinsert hc.active fun _ hid => by cases hid⟩
  | createVersion id worker =>
    rcases map_eq_some_iff.mp hnext with ⟨versions, hinsert, rfl⟩
    have hold : forall v, v ∈ c.versions -> v ∈ versions :=
      fun v hv => (mem_of_insert? hinsert).mpr (.inl hv)
    exact setVersions_sound hc (fun v hv => ⟨v, hold v hv, rfl, rfl⟩) fun v hv _ _ => hold v hv
  | validate id state =>
    rcases map_eq_some_iff.mp hnext with ⟨_, hfilter, rfl⟩
    rcases filter_eq_some_iff.mp hfilter with ⟨hfind, hvalidates⟩
    refine setState_sound hc (mem_of_find? hfind) (.inl fun hready => ?_)
    rw [hready] at hvalidates
    cases hvalidates
  | setReferrers referrers =>
    cases hnext
    exact { hc with }
  | beginForceDelete id =>
    refine setWorker_sound hc ?_ hnext
    exact fun _ => ⟨rfl, .inl rfl⟩
  | deleteWorker id =>
    refine setWorker_sound hc ?_ hnext
    exact fun _ => ⟨rfl, .inr rfl⟩
  | deploy checks id worker target active generation now =>
    exact settle_sound hc (fun u hu => createDeployment_sound hc hu) hnext
  | quarantine checks id reason =>
    refine settle_sound hc (fun u hu => ?_) hnext
    rcases map_eq_ok.mp hu with ⟨⟨_, _⟩, hquarantine, rfl⟩
    exact quarantine_sound hc hlast hquarantine
  | deleteDeployment worker id =>
    exact settle_sound hc (fun u hu => deleteDeployment_sound hc hu) hnext
  | beginVersionDelete worker id =>
    exact settle_sound hc (fun u hu => beginVersionDelete_sound hc hu) hnext
  | finalizeVersionDelete worker id =>
    exact settle_sound hc (fun u hu => finalizeVersionDelete_sound hc hu) hnext

end

end Writers

/-- Quarantine is for good if only the last deployment of a version is quarantined. -/
theorem quarantine_sticky {actions : List Action} {c : Control}
    (hrun : Run Control.next LastOfVersion Control.empty actions c) : Sticky c := by
  have hsound : c.Sound := by
    refine hrun.invariant (fun _ _ _ hu hlast hnext => next_sound hu hlast hnext) ?_
    exact ⟨⟨forall_mem_empty, fun d _ hd => absurd hd (not_mem_empty d), fun _ h => by cases h⟩,
      forall_mem_empty⟩
  exact hsound.sticky

namespace Sample

def checks : Checks := ⟨fun _ => .ok (), .ok ()⟩

def deploy (id target : Nat) : Action := .deploy checks id 1 target none none id

def accept (id : Nat) : List Action :=
  [.createVersion id 1, .validate id .validating, .validate id .ready]

def rolledBack : List Action :=
  .createWorker 1 :: (accept 1 ++ accept 2 ++
    [deploy 10 1, deploy 11 2, .quarantine checks 11 "RUNTIME_FAILED"])

def redeployed : List Action :=
  .createWorker 1 ::
    (accept 1 ++ [deploy 10 1, deploy 11 1, .quarantine checks 11 "RUNTIME_FAILED"])

end Sample

open Sample in
theorem quarantine_sticky_rolled_back : exists c,
    Run Control.next LastOfVersion Control.empty rolledBack c ∧
      ((c.workers.find? 1).bind Worker.active = some 10 ∧ c.history = [2]) ∧ Sticky c :=
  exists_run_with (fun _ hrun => quarantine_sticky hrun) (by decide +kernel)

open Sample in
theorem quarantine_reactivates_version : exists c,
    Run Control.next always Control.empty redeployed c ∧
      (c.workers.find? 1).bind c.activeVersion = some 1 ∧ 1 ∈ c.history :=
  exists_run_of_execute (by decide +kernel)

end Deployments
end OpenCompute
