import OpenCompute.Platform
import OpenCompute.Relational.Table
import OpenCompute.Transition.Run

/-!
# The lanes of the D1 databases

Every open database has a lane with one permit.  An `acquire` finds or opens the
lane under the lock of the map, counts itself on the lane after the lock was
released, and waits for the permit.  These are separate steps, and the steps of
different calls interleave.  A lane stays in memory while a call holds it, also
after the map has dropped it, so lanes have addresses of their own.
-/

namespace OpenCompute
namespace D1

open Relational Table Option

abbrev ResourceId := Uuid

abbrev LaneAddress := Nat

abbrev CallId := Nat

structure D1HandleManager where
  maxOpen : Nat
  queueLimit : Nat
  idleTtl : Nat

def D1HandleManager.new (maxOpen queueLimit idleTtl : Nat) : D1HandleManager :=
  ⟨max maxOpen 1, max queueLimit 1, idleTtl⟩

structure D1Lane where
  queued : Nat
  availablePermits : Nat
  lastUsed : Nat

structure OpenLane where
  resource : ResourceId
  lane : LaneAddress

inductive Phase where
  /-- It has cloned the lane and released the lock of the map. -/
  | lookedUp
  /-- It was counted on a full lane. -/
  | refused
  | waiting
  | granted
  /-- It has returned a `D1LaneLease`. -/
  | leased
  deriving DecidableEq

structure Call where
  id : CallId
  resource : ResourceId
  lane : LaneAddress
  phase : Phase

structure World where
  lanes : Table OpenLane.resource
  memory : LaneAddress -> D1Lane
  fresh : LaneAddress
  calls : Table Call.id

def World.initial : World := ⟨Table.empty, fun _ => ⟨0, 0, 0⟩, 0, Table.empty⟩

namespace D1Lane

def retained (m : D1HandleManager) (now : Nat) (lane : D1Lane) : Bool :=
  decide (0 < lane.queued) || decide (lane.availablePermits = 0) ||
    decide (now - lane.lastUsed < m.idleTtl)

def idle (lane : D1Lane) : Bool :=
  decide (lane.queued = 0) && decide (lane.availablePermits = 1)

end D1Lane

namespace World

variable (m : D1HandleManager)

def retain (w : World) (now : Nat) : Table OpenLane.resource :=
  w.lanes.filter fun row => (w.memory row.lane).retained m now

def isCandidate (w : World) (lanes : Table OpenLane.resource) (row : OpenLane) : Bool :=
  (w.memory row.lane).idle && lanes.rows.all fun other =>
    !(w.memory other.lane).idle ||
      decide ((w.memory row.lane).lastUsed ≤ (w.memory other.lane).lastUsed)

def enter (w : World) (id : CallId) (resource : ResourceId) (lane : LaneAddress) :
    Option World :=
  (w.calls.insert? ⟨id, resource, lane, .lookedUp⟩).map fun calls => { w with calls }

def openLane (w : World) (lanes : Table OpenLane.resource) (id : CallId)
    (resource : ResourceId) (now : Nat) : Option World :=
  (lanes.insert? ⟨resource, w.fresh⟩).bind fun lanes =>
    enter { w with
      lanes
      memory := Function.update w.memory w.fresh ⟨0, 1, now⟩
      fresh := w.fresh + 1 } id resource w.fresh

/-- The part of `acquire` under the lock.  The map has no order, so that the
lane to drop among equally old ones is a choice. -/
def lookup (w : World) (id : CallId) (resource : ResourceId) (now : Nat)
    (candidate : Option ResourceId) : Option World :=
  match w.lanes.find? resource with
  | some row => w.enter id resource row.lane
  | none =>
    let lanes := w.retain m now
    if m.maxOpen ≤ lanes.rows.length then
      match candidate with
      | none =>
        -- The call fails with `overloaded`; what was dropped stays dropped.
        if lanes.rows.any fun row => (w.memory row.lane).idle then none
        else some { w with lanes }
      | some candidate =>
        (lanes.find? candidate).bind fun row =>
          if w.isCandidate lanes row then
            w.openLane (lanes.erase candidate) id resource now
          else
            none
    else if candidate.isNone then
      w.openLane lanes id resource now
    else
      none

def call (w : World) (id : CallId) (phase : Phase) : Option Call :=
  (w.calls.find? id).filter fun c => c.phase = phase

def move (w : World) (c : Call) (phase : Option Phase) (lane : D1Lane) : World :=
  { w with
    memory := Function.update w.memory c.lane lane
    calls := match phase with
      | some phase => w.calls.replace { c with phase }
      | none => w.calls.erase c.id }

end World

inductive Action where
  | lookup (id : CallId) (resource : ResourceId) (now : Nat) (candidate : Option ResourceId)
  /-- `queued.fetch_add`. -/
  | count (id : CallId)
  /-- The `queued.fetch_sub` of a call that found the lane full. -/
  | refuse (id : CallId)
  | grant (id : CallId)
  /-- The `queued.fetch_sub` of a call that has the permit. -/
  | settle (id : CallId)
  | timeOut (id : CallId)
  | cancel (id : CallId)
  | dropLease (id : CallId) (now : Nat)

namespace World

variable (m : D1HandleManager)

def next (w : World) : Action -> Option World
  | .lookup id resource now candidate => w.lookup m id resource now candidate
  | .count id =>
    (w.call id .lookedUp).map fun c =>
      let lane := w.memory c.lane
      w.move c (some (if m.queueLimit ≤ lane.queued then .refused else .waiting))
        { lane with queued := lane.queued + 1 }
  | .refuse id =>
    (w.call id .refused).map fun c =>
      let lane := w.memory c.lane
      w.move c none { lane with queued := lane.queued - 1 }
  | .grant id =>
    (w.call id .waiting).bind fun c =>
      let lane := w.memory c.lane
      if 0 < lane.availablePermits then
        some (w.move c (some .granted)
          { lane with availablePermits := lane.availablePermits - 1 })
      else
        none
  | .settle id =>
    (w.call id .granted).map fun c =>
      let lane := w.memory c.lane
      w.move c (some .leased) { lane with queued := lane.queued - 1 }
  -- The early return skips the `fetch_sub`.
  | .timeOut id => (w.call id .waiting).map fun c => w.move c none (w.memory c.lane)
  | .cancel id => (w.call id .waiting).map fun c => w.move c none (w.memory c.lane)
  | .dropLease id now =>
    (w.call id .leased).map fun c =>
      let lane := w.memory c.lane
      w.move c none { lane with
        availablePermits := lane.availablePermits + 1
        lastUsed := now }

end World

/-! ## What a step can do -/

/-- How a call goes on: its phase, the phase after, its lane before and after, and
whether the lane still counts a call that is gone. -/
inductive Shift (m : D1HandleManager) :
    Phase -> Option Phase -> D1Lane -> D1Lane -> Bool -> Prop where
  | count (lane : D1Lane) (hroom : lane.queued < m.queueLimit) :
      Shift m .lookedUp (some .waiting) lane { lane with queued := lane.queued + 1 } false
  | full (lane : D1Lane) (hfull : m.queueLimit ≤ lane.queued) :
      Shift m .lookedUp (some .refused) lane { lane with queued := lane.queued + 1 } false
  | refuse (lane : D1Lane) :
      Shift m .refused none lane { lane with queued := lane.queued - 1 } false
  | grant (lane : D1Lane) (hpermit : 0 < lane.availablePermits) :
      Shift m .waiting (some .granted) lane
        { lane with availablePermits := lane.availablePermits - 1 } false
  | settle (lane : D1Lane) :
      Shift m .granted (some .leased) lane { lane with queued := lane.queued - 1 } false
  | abandon (lane : D1Lane) : Shift m .waiting none lane lane true
  | dropLease (lane : D1Lane) (now : Nat) :
      Shift m .leased none lane
        { lane with availablePermits := lane.availablePermits + 1, lastUsed := now } false

def Action.abandons : Action -> Bool
  | .timeOut _ => true
  | .cancel _ => true
  | _ => false

structure Kept (m : D1HandleManager) (w : World) (now : Nat) (candidate : Option ResourceId)
    (lanes : Table OpenLane.resource) : Prop where
  open_ : forall row, row ∈ lanes -> row ∈ w.lanes
  dropped : forall row, row ∈ w.lanes -> ¬ row ∈ lanes ->
    (w.memory row.lane).queued = 0 ∧ 0 < (w.memory row.lane).availablePermits ∧
      ((w.memory row.lane).retained m now = false ∨ candidate = some row.resource)

inductive Step (m : D1HandleManager) (w : World) : Action -> World -> Prop where
  | found {id : CallId} {resource : ResourceId} {now : Nat} {candidate : Option ResourceId}
      {row : OpenLane} {calls : Table Call.id} (hfind : w.lanes.find? resource = some row)
      (hcalls : w.calls.insert? ⟨id, resource, row.lane, .lookedUp⟩ = some calls) :
      Step m w (.lookup id resource now candidate) { w with calls }
  | overloaded {id : CallId} {resource : ResourceId} {now : Nat}
      {lanes : Table OpenLane.resource} (hfind : w.lanes.find? resource = none)
      (hkept : Kept m w now none lanes) :
      Step m w (.lookup id resource now none) { w with lanes }
  | opened {id : CallId} {resource : ResourceId} {now : Nat} {candidate : Option ResourceId}
      {lanes lanes' : Table OpenLane.resource} {calls : Table Call.id}
      (hfind : w.lanes.find? resource = none) (hkept : Kept m w now candidate lanes)
      (hlanes : lanes.insert? ⟨resource, w.fresh⟩ = some lanes')
      (hcalls : w.calls.insert? ⟨id, resource, w.fresh, .lookedUp⟩ = some calls) :
      Step m w (.lookup id resource now candidate)
        ⟨lanes', Function.update w.memory w.fresh ⟨0, 1, now⟩, w.fresh + 1, calls⟩
  | moved {a : Action} {c : Call} {phase : Option Phase} {lane : D1Lane} (hc : c ∈ w.calls)
      (hshift : Shift m c.phase phase (w.memory c.lane) lane a.abandons) :
      Step m w a (w.move c phase lane)

section Inversion

variable {m : D1HandleManager} {w w' : World} {now : Nat}

theorem kept_retain (w : World) (now : Nat) (candidate : Option ResourceId) :
    Kept m w now candidate (w.retain m now) where
  open_ := fun _ hrow => (mem_filter.mp hrow).left
  dropped := by
    intro row hrow hnot
    have hdropped : (w.memory row.lane).retained m now = false := by
      rw [← Bool.not_eq_true]
      exact fun hretained => hnot (mem_filter.mpr ⟨hrow, hretained⟩)
    have hfree := hdropped
    simp only [D1Lane.retained, Bool.or_eq_false_iff, decide_eq_false_iff_not] at hfree
    exact ⟨by omega, by omega, Or.inl hdropped⟩

theorem kept_erase {row : OpenLane} {candidate : ResourceId}
    (hfind : (w.retain m now).find? candidate = some row)
    (hidle : (w.memory row.lane).idle = true) :
    Kept m w now (some candidate) ((w.retain m now).erase candidate) where
  open_ := fun _ hrow => (kept_retain (m := m) w now none).open_ _ (mem_erase.mp hrow).left
  dropped := by
    intro other hother hnot
    by_cases hmem : other ∈ w.retain m now
    · have hkey : other.resource = candidate := by
        by_contra hne
        exact hnot (mem_erase.mpr ⟨hmem, hne⟩)
      rcases find?_eq_some.mp hfind with ⟨hrow, hrowKey⟩
      have hsame : other = row := eq_of_key_eq hmem hrow (hkey.trans hrowKey.symm)
      rw [← hsame, D1Lane.idle, Bool.and_eq_true, decide_eq_true_iff, decide_eq_true_iff] at hidle
      exact ⟨hidle.left, by omega, Or.inr (congrArg some hkey.symm)⟩
    · rcases (kept_retain w now none).dropped other hother hmem with
        ⟨hqueued, hpermits, hdropped⟩
      refine ⟨hqueued, hpermits, Or.inl ?_⟩
      cases hdropped with
      | inl hretained => exact hretained
      | inr hnone => cases hnone

variable {id : CallId} {resource : ResourceId} {candidate : Option ResourceId}

theorem openLane_step {lanes : Table OpenLane.resource} (hfind : w.lanes.find? resource = none)
    (hkept : Kept m w now candidate lanes) (hopen : w.openLane lanes id resource now = some w') :
    Step m w (.lookup id resource now candidate) w' := by
  rcases bind_eq_some_iff.mp hopen with ⟨_, hlanes, henter⟩
  rcases map_eq_some_iff.mp henter with ⟨_, hcalls, rfl⟩
  exact Step.opened hfind hkept hlanes hcalls

theorem lookup_step (hlookup : w.lookup m id resource now candidate = some w') :
    Step m w (.lookup id resource now candidate) w' := by
  unfold World.lookup at hlookup
  cases hfind : w.lanes.find? resource with
  | some row =>
    rw [hfind] at hlookup
    rcases map_eq_some_iff.mp hlookup with ⟨_, hcalls, rfl⟩
    exact Step.found hfind hcalls
  | none =>
    rw [hfind] at hlookup
    dsimp only at hlookup
    split at hlookup
    · cases candidate with
      | none =>
        dsimp only at hlookup
        split at hlookup <;> cases hlookup
        exact Step.overloaded hfind (kept_retain w now none)
      | some candidate =>
        rcases bind_eq_some_iff.mp hlookup with ⟨_, hrow, hopen⟩
        split at hopen
        · rename_i hcandidate
          have hidle := ((Bool.and_eq_true _ _).mp hcandidate).left
          exact openLane_step hfind (kept_erase hrow hidle) hopen
        · cases hopen
    · split at hlookup
      · exact openLane_step hfind (kept_retain w now candidate) hlookup
      · cases hlookup

theorem call_eq_some {phase : Phase} {c : Call} (hcall : w.call id phase = some c) :
    c ∈ w.calls ∧ c.phase = phase := by
  rcases filter_eq_some_iff.mp hcall with ⟨hfind, hphase⟩
  exact ⟨mem_of_find? hfind, of_decide_eq_true hphase⟩

theorem step_of_next {a : Action} (hnext : w.next m a = some w') : Step m w a w' := by
  cases a with
  | lookup id resource now candidate => exact lookup_step hnext
  | count id =>
    rcases map_eq_some_iff.mp hnext with ⟨c, hcall, rfl⟩
    rcases call_eq_some hcall with ⟨hc, hphase⟩
    refine Step.moved hc ?_
    rw [hphase]
    split
    · rename_i hfull
      exact Shift.full _ hfull
    · rename_i hroom
      exact Shift.count _ (Nat.lt_of_not_le hroom)
  | refuse id =>
    rcases map_eq_some_iff.mp hnext with ⟨c, hcall, rfl⟩
    rcases call_eq_some hcall with ⟨hc, hphase⟩
    exact Step.moved hc (hphase ▸ Shift.refuse _)
  | grant id =>
    rcases bind_eq_some_iff.mp hnext with ⟨c, hcall, hgrant⟩
    rcases call_eq_some hcall with ⟨hc, hphase⟩
    dsimp only at hgrant
    split at hgrant <;> cases hgrant
    rename_i hpermit
    exact Step.moved hc (hphase ▸ Shift.grant _ hpermit)
  | settle id =>
    rcases map_eq_some_iff.mp hnext with ⟨c, hcall, rfl⟩
    rcases call_eq_some hcall with ⟨hc, hphase⟩
    exact Step.moved hc (hphase ▸ Shift.settle _)
  | timeOut id | cancel id =>
    rcases map_eq_some_iff.mp hnext with ⟨c, hcall, rfl⟩
    rcases call_eq_some hcall with ⟨hc, hphase⟩
    exact Step.moved hc (hphase ▸ Shift.abandon _)
  | dropLease id now =>
    rcases map_eq_some_iff.mp hnext with ⟨_, hcall, rfl⟩
    rcases call_eq_some hcall with ⟨hc, hphase⟩
    exact Step.moved hc (hphase ▸ Shift.dropLease _ now)

end Inversion

end D1
end OpenCompute
