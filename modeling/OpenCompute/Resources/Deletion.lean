import OpenCompute.Platform
import OpenCompute.Transition.Pool
import OpenCompute.Transition.Run

/-!
# Pins and deletions of a resource

Operations on a resource hold a pin.  A deletion fences the resource, waits
until no pin is left, and then deletes the row and the physical identity.  The
fence is one flag for all deletions, and a wait that times out leaves it set.
-/

namespace OpenCompute
namespace Resources

open Relational Table Transaction Transition Option

inductive ResourceState where
  | creating
  | ready
  | deleting
  | tombstoned
deriving DecidableEq

def resourceNotReady : PlatformError :=
  ⟨.resourceNotReady, "resource lifecycle does not admit this operation"⟩

def resourceReferenced : PlatformError :=
  ⟨.resourceReferenced, "resource still has retained referrers"⟩

/-! ## The pins of one resource -/

structure Entry where
  count : Nat
  fenced : Bool
deriving DecidableEq

def Entry.default : Entry := ⟨0, false⟩

def usizeMax : Nat := 2 ^ 64 - 1

abbrev ResourcePins := Option Entry

namespace ResourcePins

def tryPin (pins : ResourcePins) : Result ResourcePins :=
  let entry := pins.getD Entry.default
  if entry.fenced then
    .error ⟨.resourceNotReady, "resource is fenced for deletion"⟩
  else if entry.count = usizeMax then
    .error ⟨.internal, "resource pin count overflow"⟩
  else
    .ok (some { entry with count := entry.count + 1 })

def fence (pins : ResourcePins) : ResourcePins :=
  some { pins.getD Entry.default with fenced := true }

/-- What the wait for the drain polls. -/
def empty (pins : ResourcePins) : Bool := pins.all fun entry => entry.count = 0

def unfence (pins : ResourcePins) : ResourcePins :=
  pins.bind fun entry => if entry.count = 0 then none else some { entry with fenced := false }

def retireFence (pins : ResourcePins) : ResourcePins :=
  if pins.any fun entry => entry.fenced && entry.count = 0 then none else pins

def dropPin (pins : ResourcePins) : ResourcePins :=
  pins.bind fun entry =>
    if entry.count - 1 = 0 && !entry.fenced then none
    else some { entry with count := entry.count - 1 }

def count (pins : ResourcePins) : Nat := pins.elim 0 Entry.count

def fenced (pins : ResourcePins) : Bool := pins.any Entry.fenced

end ResourcePins

/-! ## Deleting -/

inductive Phase where
  | checked
  | waiting
  | drained
  /-- `begin_delete` of the driver is next. -/
  | deleting
  /-- `finalize_delete` of the driver is next. -/
  | quarantined
  | finalized
  | ended (ok : Bool)
deriving DecidableEq

def Phase.fences : Phase -> Bool
  | checked => false
  | _ => true

def Phase.past : Phase -> Bool
  | checked => false
  | waiting => false
  | _ => true

structure World where
  pins : ResourcePins
  held : Nat
  row : ResourceState
  referrers : Bool
  calls : Pool Phase

def World.initial (row : ResourceState) : World := ⟨none, 0, row, false, Table.empty⟩

def beginDelete (row : ResourceState) (referrers : Bool) : Result ResourceState :=
  match row with
  | .deleting => .ok .deleting
  | .tombstoned => .error resourceNotReady
  | _ => if referrers then .error resourceReferenced else .ok .deleting

def markTombstoned (row : ResourceState) : Result ResourceState :=
  if row = .deleting then .ok .tombstoned else .error resourceNotReady

inductive Action where
  | tryPin
  | dropPin
  | setReferrers (referrers : Bool)
  | delete (id : Nat)
  | timeOut (id : Nat)
  | advance (id : Nat) (driver : Bool)
deriving DecidableEq

namespace World

def commit (w : World) (id : Nat) (phase : Phase) (result : Result ResourceState) :
    World :=
  match result with
  | .ok row => { w with row, calls := w.calls.move id phase }
  | .error _ => { w with calls := w.calls.move id (.ended false) }

def advance (w : World) (c : Call Phase) (driver : Bool) : Option World :=
  match c.phase with
  | .checked => some { w with pins := w.pins.fence, calls := w.calls.move c.id .waiting }
  | .waiting => if w.pins.empty then some { w with calls := w.calls.move c.id .drained } else none
  | .drained => some (w.commit c.id .deleting (beginDelete w.row w.referrers))
  | .deleting =>
    some { w with calls := w.calls.move c.id (if driver then .quarantined else .ended false) }
  | .quarantined =>
    some { w with calls := w.calls.move c.id (if driver then .finalized else .ended false) }
  | .finalized => some (w.commit c.id (.ended true) (markTombstoned w.row))
  | .ended ok =>
    some { w with
      pins := if ok then w.pins.retireFence else w.pins.unfence
      calls := w.calls.erase c.id }

def next (w : World) : Action -> Option World
  | .tryPin =>
    match w.pins.tryPin with
    | .ok pins => some { w with pins, held := w.held + 1 }
    | .error _ => some w
  | .dropPin =>
    if w.held = 0 then none else some { w with pins := w.pins.dropPin, held := w.held - 1 }
  | .setReferrers referrers => some { w with referrers }
  | .delete id =>
    if w.referrers then some w
    else (w.calls.insert? ⟨id, .checked⟩).map fun calls => { w with calls }
  | .timeOut id =>
    if w.calls.find? id = some ⟨id, .waiting⟩ then some { w with calls := w.calls.erase id }
    else none
  | .advance id driver => (w.calls.find? id).bind fun c => w.advance c driver

end World

/-- No pin is held or can be had behind a drained fence, and a ready resource is not left fenced. -/
structure DeletionFence (w : World) : Prop where
  drained : forall c, c ∈ w.calls -> c.phase.past = true ->
    w.held = 0 ∧ exists e, w.pins.tryPin = .error e
  released : w.calls.rows = [] -> w.row = .ready -> exists pins, w.pins.tryPin = .ok pins

/-- The row will not be ready again. -/
def ResourceState.gone (row : ResourceState) : Prop := row = .deleting ∨ row = .tombstoned

instance (row : ResourceState) : Decidable row.gone :=
  inferInstanceAs (Decidable (row = .deleting ∨ row = .tombstoned))

/-- Deletions come one after the other, no wait times out unless the row is being deleted, and the
count of pins stays below its bound. -/
def OneByOne (w : World) : Action -> Prop
  | .tryPin => w.held + 1 < usizeMax
  | .delete _ => w.calls.rows = []
  | .timeOut _ => w.row.gone
  | _ => True

instance (w : World) (a : Action) : Decidable (OneByOne w a) := by
  cases a <;> unfold OneByOne <;> infer_instance

/-! ## The fence and the deletions in progress -/

structure World.Sound (w : World) : Prop where
  count : w.pins.count = w.held
  below : w.held < usizeMax
  alone : w.calls.Alone
  fenced : forall c, c ∈ w.calls -> c.phase.fences = true -> w.pins.fenced = true
  drained : forall c, c ∈ w.calls -> c.phase.past = true -> w.held = 0
  left : w.pins.fenced = true -> (exists c, c ∈ w.calls ∧ c.phase.fences = true) ∨ w.row.gone

section Steps

variable {w w' : World} {c : Call Phase} {phase : Phase}

theorem tryPin_of_fenced {pins : ResourcePins} (hfenced : pins.fenced = true) :
    exists e, pins.tryPin = .error e := by
  cases pins with
  | none => cases hfenced
  | some entry => exact ⟨_, if_pos hfenced⟩

theorem Phase.fences_of_past {phase : Phase} (hpast : phase.past = true) : phase.fences = true := by
  cases phase <;> first | rfl | cases hpast

section

variable (hw : w.Sound)
include hw

theorem World.Sound.move (hc : c ∈ w.calls) (hfences : c.phase.fences = true)
    (hnew : phase.fences = true) (hheld : phase.past = true -> w.held = 0) {row : ResourceState} :
    ({ w with row, calls := w.calls.move c.id phase } : World).Sound where
  count := hw.count
  below := hw.below
  alone := hw.alone.move hc
  fenced := fun _ _ _ => hw.fenced c hc hfences
  drained := Pool.forall_move (fun d hd _ => hw.drained d hd) hheld
  left := fun _ => .inl ⟨_, Pool.mem_move hc, hnew⟩

theorem World.Sound.moveDrained (hc : c ∈ w.calls) (hpast : c.phase.past = true)
    (hnew : phase.fences = true) {row : ResourceState} :
    ({ w with row, calls := w.calls.move c.id phase } : World).Sound :=
  hw.move hc (Phase.fences_of_past hpast) hnew fun _ => hw.drained c hc hpast

theorem World.Sound.commit (hc : c ∈ w.calls) (hpast : c.phase.past = true)
    (hnew : phase.fences = true) (result : Result ResourceState) :
    (w.commit c.id phase result).Sound := by
  cases result with
  | ok row => exact hw.moveDrained hc hpast hnew
  | error e => exact hw.moveDrained hc hpast rfl

theorem World.Sound.finish {id : Nat} {ok : Bool} (hc : ⟨id, .ended ok⟩ ∈ w.calls) : ({ w with
      pins := if ok then w.pins.retireFence else w.pins.unfence
      calls := w.calls.erase id } : World).Sound := by
  have hheld : w.held = 0 := hw.drained _ hc rfl
  have hcount := hw.count
  have hfenced := hw.fenced _ hc rfl
  have hpins : (if ok then w.pins.retireFence else w.pins.unfence) = none := by
    cases hentry : w.pins with
    | none =>
      rw [hentry] at hfenced
      cases hfenced
    | some entry =>
      rw [hentry] at hcount hfenced
      have hzero : entry.count = 0 := hcount.trans hheld
      have hflag : entry.fenced = true := hfenced
      cases ok with
      | true => simp [ResourcePins.retireFence, hzero, hflag]
      | false => simp [ResourcePins.unfence, hzero]
  rw [hpins]
  have hnone := hw.alone.not_mem_end hc
  exact ⟨hheld.symm, hw.below, fun d _ hd => absurd hd (hnone d), fun d hd => absurd hd (hnone d),
    fun d hd => absurd hd (hnone d), nofun⟩

theorem advance_sound (hc : c ∈ w.calls) {driver : Bool}
    (hadvance : w.advance c driver = some w') : w'.Sound := by
  rcases c with ⟨_, phase⟩
  cases phase with
  | checked =>
    cases hadvance
    refine ⟨hw.count ▸ ?_, hw.below, hw.alone.move hc, fun _ _ _ => rfl,
      Pool.forall_move (fun d hd _ => hw.drained d hd) nofun,
      fun _ => .inl ⟨_, Pool.mem_move hc, rfl⟩⟩
    cases w.pins <;> rfl
  | waiting =>
    rcases ite_none_right_eq_some.mp hadvance with ⟨hempty, heq⟩
    cases heq
    refine hw.move hc rfl rfl fun _ => ?_
    rw [← hw.count]
    cases hpins : w.pins with
    | none => rfl
    | some entry =>
      rw [hpins] at hempty
      exact of_decide_eq_true hempty
  | drained | finalized =>
    cases hadvance
    exact hw.commit hc rfl rfl _
  | deleting | quarantined =>
    cases hadvance
    exact hw.moveDrained hc rfl (by cases driver <;> rfl)
  | ended ok =>
    cases hadvance
    exact hw.finish hc

theorem dropPin_sound : ({ w with pins := w.pins.dropPin, held := w.held - 1 } : World).Sound := by
  have hcount : w.pins.dropPin.count = w.held - 1 ∧ w.pins.dropPin.fenced = w.pins.fenced := by
    rw [← hw.count]
    cases w.pins with
    | none => exact ⟨rfl, rfl⟩
    | some entry =>
      simp only [ResourcePins.dropPin, bind_some]
      split
      · rename_i hlast
        rcases Bool.and_eq_true_iff.mp hlast with ⟨hzero, hopen⟩
        exact ⟨(of_decide_eq_true hzero).symm, ((Bool.not_eq_true' _).mp hopen).symm⟩
      · exact ⟨rfl, rfl⟩
  refine ⟨hcount.left, Nat.lt_of_le_of_lt (Nat.sub_le _ 1) hw.below, hw.alone, ?_,
    fun c hc hpast => ?_, ?_⟩
  · rw [hcount.right]
    exact hw.fenced
  · rw [hw.drained c hc hpast]
  · rw [hcount.right]
    exact hw.left

theorem next_sound {a : Action} (hallowed : OneByOne w a)
    (hnext : w.next a = some w') : w'.Sound := by
  cases a with
  | tryPin =>
    dsimp only [World.next] at hnext
    split at hnext
    · rename_i pins hpin
      cases hnext
      have hopen : w.pins.fenced = false := by
        cases hfenced : w.pins.fenced with
        | false => rfl
        | true =>
          rcases tryPin_of_fenced hfenced with ⟨_, he⟩
          rw [he] at hpin
          cases hpin
      have hfields : pins.count = w.pins.count + 1 ∧ pins.fenced = w.pins.fenced := by
        unfold ResourcePins.tryPin at hpin
        dsimp only at hpin
        split at hpin
        · cases hpin
        · split at hpin <;> cases hpin
          cases w.pins <;> exact ⟨rfl, rfl⟩
      have hnone : forall c, c ∈ w.calls -> ¬ c.phase.fences = true := by
        intro c hc hfences
        rw [hw.fenced c hc hfences] at hopen
        cases hopen
      refine ⟨?_, hallowed, hw.alone, fun c hc hfences => absurd hfences (hnone c hc),
        fun c hc hpast => absurd (Phase.fences_of_past hpast) (hnone c hc), ?_⟩
      · rw [hfields.left, hw.count]
      · rw [hfields.right]
        exact hw.left
    · cases hnext
      exact hw
  | dropPin =>
    rcases ite_none_left_eq_some.mp hnext with ⟨_, heq⟩
    cases heq
    exact dropPin_sound hw
  | setReferrers referrers =>
    cases hnext
    exact { hw with }
  | delete id =>
    dsimp only [World.next] at hnext
    split at hnext
    · cases hnext
      exact hw
    · rcases map_eq_some_iff.mp hnext with ⟨_, hstart, rfl⟩
      refine ⟨hw.count, hw.below, Pool.Alone.start hallowed hstart,
        forall_insert? hstart hw.fenced nofun,
        forall_insert? hstart hw.drained nofun, fun hfenced => ?_⟩
      rcases hw.left hfenced with ⟨c, hc, hfences⟩ | hgone
      · exact .inl ⟨c, (mem_of_insert? hstart).mpr (.inl hc), hfences⟩
      · exact .inr hgone
  | timeOut id =>
    rcases ite_none_right_eq_some.mp hnext with ⟨hfind, heq⟩
    cases heq
    have hnone := hw.alone.not_mem_end (mem_of_find? hfind)
    exact ⟨hw.count, hw.below, fun d _ hd => absurd hd (hnone d), fun d hd => absurd hd (hnone d),
      fun d hd => absurd hd (hnone d), fun _ => .inr hallowed⟩
  | advance id driver =>
    rcases bind_eq_some_iff.mp hnext with ⟨_, hfind, hadvance⟩
    exact advance_sound hw (mem_of_find? hfind) hadvance

end

end Steps

/-- Deletions that come one after the other keep the fence for as long as they need it. -/
theorem deletion_fence {row : ResourceState} {actions : List Action} {w : World}
    (hrun : Run World.next OneByOne (World.initial row) actions w) : DeletionFence w := by
  have hsound : w.Sound := by
    refine hrun.invariant (fun u a v hu hallowed hnext => next_sound hu hallowed hnext) ?_
    exact ⟨rfl, (by decide : 0 < usizeMax), fun c _ hc => absurd hc (not_mem_empty c),
      forall_mem_empty, forall_mem_empty,
      fun h => by cases h⟩
  constructor
  · intro c hc hpast
    have hfenced := hsound.fenced c hc (Phase.fences_of_past hpast)
    exact ⟨hsound.drained c hc hpast, tryPin_of_fenced hfenced⟩
  · intro hidle hready
    have hopen : w.pins.fenced = false := by
      refine Bool.eq_false_iff.mpr fun hfenced => ?_
      rcases hsound.left hfenced with ⟨c, hc, _⟩ | hgone
      · rw [← mem_rows, hidle] at hc
        cases hc
      · rw [hready] at hgone
        rcases hgone with h | h <;> cases h
    have hcount := hsound.count
    have hbelow := hsound.below
    unfold ResourcePins.tryPin
    cases hpins : w.pins with
    | none => exact ⟨_, rfl⟩
    | some entry =>
      rw [hpins] at hopen hcount
      have hflag : entry.fenced = false := hopen
      have hne : entry.count ≠ usizeMax := Nat.ne_of_lt (hcount.trans_lt hbelow)
      simp [hflag, hne]

namespace Sample

def deleted : List Action :=
  [.tryPin, .delete 1, .advance 1 true, .dropPin, .advance 1 true, .advance 1 true]

def overlapping : List Action :=
  [.delete 1, .delete 2, .advance 1 true, .advance 2 true, .advance 1 true, .advance 2 true,
    .advance 1 true, .advance 1 false, .advance 1 true, .tryPin]

def timedOut : List Action :=
  [.tryPin, .delete 1, .advance 1 true, .timeOut 1, .dropPin]

end Sample

open Sample in
theorem deletion_fence_deleted : exists w,
    Run World.next OneByOne (World.initial .ready) deleted w ∧
      (exists c, c ∈ w.calls ∧ c.phase = .deleting) ∧ DeletionFence w :=
  exists_run_with (fun _ hrun => deletion_fence hrun) (by decide +kernel)

open Sample in
theorem deletion_fence_shared :
    (exists w, Run World.next always (World.initial .ready) overlapping w ∧
      (exists c, c ∈ w.calls ∧ c.phase.past = true) ∧ w.held = 1) ∧
    exists w, Run World.next always (World.initial .ready) timedOut w ∧
      w.calls.rows = [] ∧ w.row = .ready ∧ w.held = 0 ∧
      ¬ exists pins, w.pins.tryPin = .ok pins :=
  ⟨exists_run_of_execute (by decide +kernel), exists_run_of_execute (by decide +kernel)⟩

end Resources
end OpenCompute
