import OpenCompute.Deployments.Quarantine
import OpenCompute.Transition.Pool

/-!
# Pins and deletions of versions

Running code pins its version or retains it.  A deletion fences its versions
and waits until they are idle.  Three deleters share one fence for each
version: the deletion of a version, the retention pass, and the deletion of a
whole worker.
-/

namespace OpenCompute
namespace Deployments

open Relational Table Transaction Transition Function Option List

structure Entry where
  count : Nat
  fenced : Bool
  retainedUntilRestart : Bool
  awaitingDrain : List Nat
deriving DecidableEq

def Entry.default : Entry := ⟨0, false, false, []⟩

def Entry.idle (e : Entry) : Bool :=
  e.count = 0 && !e.retainedUntilRestart && e.awaitingDrain.isEmpty

def usizeMax : Nat := 2 ^ 64 - 1

abbrev Pins := Option Entry

namespace Pins

def fenced (pins : Pins) : Bool := pins.any Entry.fenced

def idle (pins : Pins) : Bool := pins.all Entry.idle

def count (pins : Pins) : Nat := pins.elim 0 Entry.count

def keep (e : Entry) : Pins := if e.idle && !e.fenced then none else some e

def unfenced (pins : Pins) : Result Entry :=
  let entry := pins.getD Entry.default
  if entry.fenced then .error ⟨.versionNotReady, "version is fenced for deletion"⟩ else .ok entry

def pin (pins : Pins) : Result Entry := do
  let entry ← pins.unfenced
  ensure (entry.count ≠ usizeMax) ⟨.internal, "version pin count overflow"⟩
  return { entry with count := entry.count + 1 }

def retainUntilRestart (pins : Pins) : Result Entry := do
  let entry ← pins.unfenced
  return { entry with retainedUntilRestart := true }

def retainUntilDrain (pins : Pins) (request : Nat) : Result Entry := do
  let entry ← pins.unfenced
  return { entry with awaitingDrain := entry.awaitingDrain.insert request }

def dropPin (pins : Pins) : Pins := pins.bind fun e => keep { e with count := e.count - 1 }

def releaseDrained (pins : Pins) (request : Nat) : Pins :=
  pins.bind fun e => keep { e with awaitingDrain := e.awaitingDrain.filter (· ≠ request) }

def clearGenerationRetentions (pins : Pins) : Pins :=
  pins.bind fun e => keep { e with retainedUntilRestart := false, awaitingDrain := [] }

def fence (pins : Pins) : Pins := some { pins.getD Entry.default with fenced := true }

def unfence (pins : Pins) : Pins := pins.bind fun e => keep { e with fenced := false }

def retireFence (pins : Pins) : Pins :=
  if pins.any (fun e => e.fenced && e.idle) then none else pins

end Pins

/-! ## The deleters -/

inductive Deleter where
  /-- The request for one version, or the retention pass, which clears the fence of a version
  that it cannot begin to delete. -/
  | version (worker version : Nat) (retention : Bool)
  | script (versions : List Nat) (force : Bool)
deriving DecidableEq

def Deleter.versions : Deleter -> List Nat
  | version _ target _ => [target]
  | script targets _ => targets

inductive Point where
  | start
  | fence (again : Bool)
  | wait (again : Bool)
  | rotate
  | drained (grants : Nat)
  | clear (retire : Bool) (versions : List Nat)
deriving DecidableEq

structure Job where
  deleter : Deleter
  point : Point
deriving DecidableEq

structure Tombstone where
  version : Nat
  pins : Pins
  held : Nat
  /-- The grants since the wait of the deletion. -/
  granted : Nat
deriving DecidableEq

structure Registry where
  pins : Nat -> Pins
  /-- The pins that running code holds. -/
  held : Nat -> Nat
  /-- How many pins and retentions the version was granted so far. -/
  grants : Nat -> Nat
  control : Control
  tombstones : List Tombstone
  calls : Pool Job

def Registry.initial (control : Control) : Registry :=
  ⟨fun _ => none, fun _ => 0, fun _ => 0, control, [], Table.empty⟩

inductive Event where
  | pin (version : Nat)
  | retainUntilRestart (version : Nat)
  | retainUntilDrain (version request : Nat)
  | dropPin (version : Nat)
  | releaseDrained (version request : Nat)
  | generationExit
  | setControl (control : Control)
  | delete (id : Nat) (deleter : Deleter)
  | timeOut (id : Nat)
  | advance (id : Nat) (ok : Bool)

namespace Registry

def granted (w : Registry) (version pinned : Nat) : Result Entry -> Registry
  | .ok entry =>
    { w with
      pins := Function.update w.pins version (some entry)
      held := Function.update w.held version (w.held version + pinned)
      grants := Function.update w.grants version (w.grants version + 1) }
  | .error _ => w

def set (w : Registry) (version : Nat) (pins : Pins) : Registry :=
  { w with pins := Function.update w.pins version pins }

/-- The guard of a pin is dropped, once. -/
def dropPin (w : Registry) (version : Nat) : Option Registry :=
  if w.held version = 0 then none
  else
    some { w with
      pins := Function.update w.pins version (w.pins version).dropPin
      held := Function.update w.held version (w.held version - 1) }

def goTo (w : Registry) (c : Call Job) (point : Point) : Registry :=
  { w with calls := w.calls.move c.id ⟨c.phase.deleter, point⟩ }

def finish (w : Registry) (c : Call Job) : Registry := { w with calls := w.calls.erase c.id }

/-- `finalize_version_delete`, and the fence is retired. -/
def finalize (w : Registry) (c : Call Job) (worker version grants : Nat) : Registry :=
  match w.control.finalizeVersionDelete worker version with
  | .ok control =>
    { w with
      control
      tombstones := ⟨version, w.pins version, w.held version, w.grants version - grants⟩ ::
        w.tombstones }.goTo c (.clear true [version])
  | .error _ => w.finish c

def advance (w : Registry) (c : Call Job) (ok : Bool) : Option Registry :=
  match c.phase.point with
  | .start =>
    match c.phase.deleter with
    | .version worker version retention =>
      match w.control.beginVersionDelete worker version with
      | .ok control => some ({ w with control }.goTo c (.fence false))
      | .error _ => some (if retention then w.goTo c (.clear false [version]) else w.finish c)
    | .script _ _ => some (w.goTo c (.fence false))
  | .fence again =>
    some ({ w with pins := fun v =>
      if v ∈ c.phase.deleter.versions then (w.pins v).fence else w.pins v }.goTo c (.wait again))
  | .wait _ =>
    if c.phase.deleter.versions.all fun v => (w.pins v).idle then
      some (w.goTo c (.drained (c.phase.deleter.versions.map w.grants).sum))
    else none
  | .rotate =>
    if ok then
      some ({ w with pins := fun v => (w.pins v).clearGenerationRetentions }.goTo c (.fence true))
    else some (w.finish c)
  | .drained grants =>
    match c.phase.deleter with
    | .version worker version _ => some (w.finalize c worker version grants)
    | .script versions force =>
      if ok then some (w.goTo c (.clear true versions))
      else if force then some (w.finish c) else some (w.goTo c (.clear false versions))
  | .clear _ [] => some (w.finish c)
  | .clear retire (v :: rest) =>
    some ((w.set v (if retire then (w.pins v).retireFence else (w.pins v).unfence)).goTo c
      (.clear retire rest))

def timeOut (w : Registry) (c : Call Job) : Option Registry :=
  match c.phase.point, c.phase.deleter with
  | .wait again, .script versions force =>
    if force then some (if again then w.finish c else w.goTo c .rotate)
    else some (w.goTo c (.clear false versions))
  | .wait _, _ => some (w.finish c)
  | _, _ => none

def next (w : Registry) : Event -> Option Registry
  | .pin v => some (w.granted v 1 (w.pins v).pin)
  | .retainUntilRestart v => some (w.granted v 0 (w.pins v).retainUntilRestart)
  | .retainUntilDrain v request => some (w.granted v 0 ((w.pins v).retainUntilDrain request))
  | .dropPin v => w.dropPin v
  | .releaseDrained v request => some (w.set v ((w.pins v).releaseDrained request))
  | .generationExit => some { w with pins := fun v => (w.pins v).clearGenerationRetentions }
  | .setControl control => some { w with control }
  | .delete id deleter =>
    (w.calls.insert? ⟨id, deleter, .start⟩).map fun calls => { w with calls }
  | .timeOut id => (w.calls.find? id).bind w.timeOut
  | .advance id ok => (w.calls.find? id).bind fun c => w.advance c ok

end Registry

/-- Every version was idle and not pinned when it was tombstoned, and had been since the wait. -/
def TombstonedIdle (w : Registry) : Prop :=
  forall t, t ∈ w.tombstones -> t.pins.idle = true ∧ t.held = 0 ∧ t.granted = 0

/-- The count of a version is the number of its pins that are held. -/
def Registry.CountsHeld (w : Registry) : Prop := forall v, (w.pins v).count = w.held v

/-- A deletion starts only when no other deletion of one of its versions is running. -/
def Apart (w : Registry) : Event -> Prop
  | .delete _ deleter => forall c, c ∈ w.calls.rows -> forall v, v ∈ c.phase.deleter.versions ->
      ¬ v ∈ deleter.versions
  | _ => True

instance (w : Registry) (a : Event) : Decidable (Apart w a) := by
  cases a <;> unfold Apart <;> infer_instance

/-! ## What a deletion relies on -/

/-- The versions are fenced, and idle once the wait has succeeded. -/
def Job.Holds (pins : Nat -> Pins) (grants : Nat -> Nat) (j : Job) : Prop :=
  match j.point with
  | .wait _ => forall v, v ∈ j.deleter.versions -> (pins v).fenced = true
  | .drained since =>
    (forall v, v ∈ j.deleter.versions -> (pins v).fenced = true ∧ (pins v).idle = true) ∧
      since = (j.deleter.versions.map grants).sum
  | .clear _ rest => rest ⊆ j.deleter.versions
  | _ => True

structure Registry.Sound (w : Registry) : Prop where
  apart : forall c d, c ∈ w.calls -> d ∈ w.calls -> forall v, v ∈ c.phase.deleter.versions ->
    v ∈ d.phase.deleter.versions -> c.id = d.id
  holds : forall c, c ∈ w.calls -> c.phase.Holds w.pins w.grants
  counts : w.CountsHeld
  clean : TombstonedIdle w

def Quiet (pins pins' : Pins) : Prop :=
  pins.fenced = true -> pins'.fenced = true ∧ (pins.idle = true -> pins'.idle = true)

section Slots

variable {pins : Pins} {e e' : Entry}

theorem Quiet.refl : Quiet pins pins := fun hfenced => ⟨hfenced, fun h => h⟩

theorem Quiet.keep (hfenced : e'.fenced = e.fenced) (hidle : e.idle = true -> e'.idle = true) :
    Quiet (some e) (Pins.keep e') := by
  intro h
  have hflag : e'.fenced = true := hfenced.trans h
  rw [Pins.keep, hflag, Bool.not_true, Bool.and_false]
  exact ⟨hflag, hidle⟩

theorem quiet_release : Quiet pins pins.dropPin ∧
    (forall request, Quiet pins (pins.releaseDrained request)) ∧
    Quiet pins pins.clearGenerationRetentions := by
  cases pins with
  | none => exact ⟨nofun, fun _ => nofun, nofun⟩
  | some e =>
    refine ⟨Quiet.keep rfl fun h => ?_, fun _ => Quiet.keep rfl fun h => ?_,
      Quiet.keep rfl fun h => ?_⟩ <;>
    · simp only [Entry.idle, Bool.and_eq_true, decide_eq_true_eq, List.isEmpty_iff,
        Bool.not_eq_true'] at h ⊢
      simp [h]

theorem unfenced_eq_ok (h : pins.unfenced = .ok e) :
    pins.fenced = false ∧ e.count = pins.count := by
  simp only [Pins.unfenced] at h
  split at h
  · cases h
  · rename_i hopen
    cases h
    cases pins with
    | none => exact ⟨rfl, rfl⟩
    | some e => exact ⟨eq_false_of_ne_true hopen, rfl⟩

/-! The counts of an entry that is kept, cleared or fenced. -/

theorem count_of_idle (hidle : pins.idle = true) : pins.count = 0 := by
  cases pins with
  | none => rfl
  | some e =>
    have h : e.idle = true := hidle
    simp only [Entry.idle, Bool.and_eq_true, decide_eq_true_eq] at h
    exact h.left.left

theorem count_keep (e : Entry) : (Pins.keep e).count = e.count := by
  unfold Pins.keep
  split
  · rename_i h
    have hidle : Pins.idle (some e) = true := (Bool.and_eq_true_iff.mp h).left
    exact (count_of_idle hidle).symm
  · rfl

theorem count_bind_keep {f : Entry -> Entry} (hf : forall e, (f e).count = e.count) :
    Pins.count (pins.bind fun e => Pins.keep (f e)) = pins.count := by
  cases pins with
  | none => rfl
  | some e => exact (count_keep (f e)).trans (hf e)

theorem count_clear : pins.clearGenerationRetentions.count = pins.count :=
  count_bind_keep fun _ => rfl

theorem count_fence : pins.fence.count = pins.count := by
  cases pins <;> rfl

theorem count_retireFence : pins.retireFence.count = pins.count := by
  unfold Pins.retireFence
  split
  · rename_i h
    rcases (any_eq_true _ _).mp h with ⟨e, rfl, hboth⟩
    have hidle : Pins.idle (some e) = true := (Bool.and_eq_true_iff.mp hboth).right
    exact (count_of_idle hidle).symm
  · rfl

end Slots

section Steps

variable {w w' : Registry} {c : Call Job} {j : Job} {point : Point}

theorem Job.Holds.mono {pins pins' : Nat -> Pins} {grants grants' : Nat -> Nat}
    (hj : j.Holds pins grants)
    (hquiet : forall v, v ∈ j.deleter.versions -> Quiet (pins v) (pins' v) ∧
      ((pins v).fenced = true -> grants' v = grants v)) : j.Holds pins' grants' := by
  rcases j with ⟨_, point⟩
  cases point with
  | wait again => exact fun v hv => ((hquiet v hv).left (hj v hv)).left
  | drained since =>
    refine ⟨fun v hv => ?_, hj.right.trans (congrArg sum (map_congr_left fun v hv => ?_))⟩
    · rcases hj.left v hv with ⟨hfenced, hidle⟩
      rcases (hquiet v hv).left hfenced with ⟨hfenced', hidle'⟩
      exact ⟨hfenced', hidle' hidle⟩
    · exact ((hquiet v hv).right (hj.left v hv).left).symm
  | clear retire rest => exact hj
  | _ => trivial

section

variable (hw : w.Sound)
include hw

theorem Registry.Sound.update {v : Nat} {pins : Pins} {held grants : Nat}
    (hquiet : Quiet (w.pins v) pins) (hgrants : (w.pins v).fenced = true -> grants = w.grants v)
    (hcount : pins.count = held) :
    ({ w with
      pins := update w.pins v pins
      held := update w.held v held
      grants := update w.grants v grants } : Registry).Sound := by
  refine ⟨hw.apart, fun d hd => (hw.holds d hd).mono fun u _ => ?_, fun u => ?_, hw.clean⟩
  · by_cases h : u = v
    · subst h
      simpa using ⟨hquiet, hgrants⟩
    · simpa [h] using Quiet.refl
  · by_cases h : u = v
    · subst h
      simpa using hcount
    · simpa [h] using hw.counts u

theorem Registry.Sound.granted {v pinned : Nat} {result : Result Entry}
    (hresult : forall entry, result = .ok entry ->
      (w.pins v).fenced = false ∧ entry.count = (w.pins v).count + pinned) :
    (w.granted v pinned result).Sound := by
  cases result with
  | error error => exact hw
  | ok entry =>
    rcases hresult entry rfl with ⟨hopen, hcount⟩
    have hnever : ¬ (w.pins v).fenced = true := by simp [hopen]
    refine hw.update (fun h => absurd h hnever) (fun h => absurd h hnever) ?_
    rw [← hw.counts v]
    exact hcount

theorem Registry.Sound.goTo (hc : c ∈ w.calls) {pins : Nat -> Pins}
    {control : Control} {tombstones : List Tombstone}
    (hframe : forall v, ¬ v ∈ c.phase.deleter.versions -> Quiet (w.pins v) (pins v))
    (hnew : Job.Holds pins w.grants ⟨c.phase.deleter, point⟩)
    (hcounts : forall v, (pins v).count = (w.pins v).count)
    (hclean : forall t, t ∈ tombstones -> t.pins.idle = true ∧ t.held = 0 ∧ t.granted = 0) :
    (Registry.goTo { w with pins, control, tombstones } c point).Sound := by
  have hold : forall d, d ∈ w.calls.move c.id ⟨c.phase.deleter, point⟩ ->
      exists e, e ∈ w.calls ∧ e.id = d.id ∧ e.phase.deleter = d.phase.deleter :=
    Pool.forall_move (fun d hd _ => ⟨d, hd, rfl, rfl⟩) ⟨c, hc, rfl, rfl⟩
  refine ⟨fun d e hd he v hvd hve => ?_, Pool.forall_move (fun d hd hne => ?_) hnew,
    fun v => (hcounts v).trans (hw.counts v), hclean⟩
  · rcases hold d hd with ⟨d', hd', hid, hdeleter⟩
    rcases hold e he with ⟨e', he', hide, hdeletere⟩
    rw [← hid, ← hide]
    exact hw.apart d' e' hd' he' v (hdeleter ▸ hvd) (hdeletere ▸ hve)
  · refine (hw.holds d hd).mono fun v hv => ⟨hframe v fun h => ?_, fun _ => rfl⟩
    exact hne (hw.apart d c hd hc v hv h)

theorem Registry.Sound.move (hc : c ∈ w.calls) {control : Control}
    (hnew : Job.Holds w.pins w.grants ⟨c.phase.deleter, point⟩) :
    (Registry.goTo { w with control } c point).Sound :=
  hw.goTo hc (fun _ _ => Quiet.refl) hnew (fun _ => rfl) hw.clean

theorem Registry.Sound.finish : (w.finish c).Sound :=
  ⟨fun d e hd he => hw.apart d e (mem_erase.mp hd).left (mem_erase.mp he).left,
    fun d hd => hw.holds d (mem_erase.mp hd).left, hw.counts, hw.clean⟩

theorem advance_sound (hc : c ∈ w.calls) {ok : Bool}
    (hadvance : w.advance c ok = some w') : w'.Sound := by
  rcases c with ⟨_, deleter, point⟩
  cases point with
  | start =>
    cases deleter with
    | version worker version retention =>
      simp only [Registry.advance] at hadvance
      split at hadvance <;> cases hadvance
      · exact hw.move hc trivial
      · cases retention with
        | true => exact hw.move hc fun _ h => h
        | false => exact hw.finish
    | script versions force =>
      cases hadvance
      exact hw.move hc trivial
  | fence again =>
    cases hadvance
    refine hw.goTo hc (fun v hv => ?_) (fun v hv => ?_) (fun v => ?_) hw.clean
    · rw [if_neg hv]
      exact Quiet.refl
    · exact congrArg Pins.fenced (if_pos hv)
    · dsimp only
      split
      · exact count_fence
      · rfl
  | wait again =>
    rcases ite_none_right_eq_some.mp hadvance with ⟨hidle, heq⟩
    cases heq
    exact hw.move hc ⟨fun v hv => ⟨hw.holds _ hc v hv, all_eq_true.mp hidle v hv⟩, rfl⟩
  | rotate =>
    simp only [Registry.advance] at hadvance
    split at hadvance <;> cases hadvance
    · exact hw.goTo hc (fun _ _ => quiet_release.right.right) trivial (fun _ => count_clear)
        hw.clean
    · exact hw.finish
  | drained grants =>
    cases deleter with
    | version worker version retention =>
      cases hadvance
      unfold Registry.finalize
      split
      · have hholds := hw.holds _ hc
        refine hw.goTo hc (fun _ _ => Quiet.refl) (fun _ h => h) (fun _ => rfl) fun t ht => ?_
        rcases mem_cons.mp ht with rfl | h
        · have hidle := (hholds.left version mem_cons_self).right
          refine ⟨hidle, (hw.counts version).symm.trans (count_of_idle hidle), ?_⟩
          rw [hholds.right]
          exact Nat.sub_self _
        · exact hw.clean t h
      · exact hw.finish
    | script versions force =>
      simp only [Registry.advance] at hadvance
      split at hadvance
      · cases hadvance
        exact hw.move hc fun _ h => h
      · split at hadvance <;> cases hadvance
        · exact hw.finish
        · exact hw.move hc fun _ h => h
  | clear retire versions =>
    cases versions with
    | nil =>
      cases hadvance
      exact hw.finish
    | cons v rest =>
      cases hadvance
      have hrest := cons_subset.mp (hw.holds _ hc)
      refine hw.goTo hc (fun u hu => ?_) hrest.right (fun u => ?_) hw.clean
      · have hne : u ≠ v := fun h => hu (h ▸ hrest.left)
        rw [update_of_ne hne]
        exact Quiet.refl
      · by_cases h : u = v
        · subst h
          rw [update_self]
          split
          · exact count_retireFence
          · exact count_bind_keep fun _ => rfl
        · rw [update_of_ne h]

theorem timeOut_sound (hc : c ∈ w.calls) (htime : w.timeOut c = some w') : w'.Sound := by
  unfold Registry.timeOut at htime
  split at htime
  · rename_i _ hdeleter
    split at htime
    · split at htime <;> cases htime
      · exact hw.finish
      · exact hw.move hc trivial
    · cases htime
      exact hw.move hc fun _ h => by rwa [hdeleter]
  · cases htime
    exact hw.finish
  · cases htime

theorem next_registry_sound {a : Event} (hapart : Apart w a)
    (hnext : w.next a = some w') : w'.Sound := by
  cases a with
  | pin v =>
    cases hnext
    refine hw.granted fun entry h => ?_
    simp only [Pins.pin, ok_iff] at h
    rcases h with ⟨e, hopen, _, rfl⟩
    rcases unfenced_eq_ok hopen with ⟨hfenced, hcount⟩
    exact ⟨hfenced, congrArg (· + 1) hcount⟩
  | retainUntilRestart v =>
    cases hnext
    refine hw.granted fun entry h => ?_
    simp only [Pins.retainUntilRestart, ok_iff] at h
    rcases h with ⟨e, hopen, rfl⟩
    rcases unfenced_eq_ok hopen with ⟨hfenced, hcount⟩
    exact ⟨hfenced, hcount⟩
  | retainUntilDrain v request =>
    cases hnext
    refine hw.granted fun entry h => ?_
    simp only [Pins.retainUntilDrain, ok_iff] at h
    rcases h with ⟨e, hopen, rfl⟩
    rcases unfenced_eq_ok hopen with ⟨hfenced, hcount⟩
    exact ⟨hfenced, hcount⟩
  | dropPin v =>
    rcases ite_none_left_eq_some.mp hnext with ⟨_, heq⟩
    cases heq
    have hcount : (w.pins v).dropPin.count = w.held v - 1 := by
      rw [← hw.counts v]
      cases w.pins v with
      | none => rfl
      | some e => exact count_keep _
    have hdropped := hw.update quiet_release.left (fun _ => rfl) hcount
    rwa [update_eq_self] at hdropped
  | releaseDrained v request =>
    cases hnext
    have hcount : ((w.pins v).releaseDrained request).count = (w.pins v).count :=
      count_bind_keep fun _ => rfl
    have hreleased := hw.update (quiet_release.right.left request) (fun _ => rfl)
      (hcount.trans (hw.counts v))
    rwa [update_eq_self, update_eq_self] at hreleased
  | generationExit =>
    cases hnext
    exact ⟨hw.apart, fun d hd => (hw.holds d hd).mono fun _ _ =>
      ⟨quiet_release.right.right, fun _ => rfl⟩, fun v => count_clear.trans (hw.counts v), hw.clean⟩
  | setControl control =>
    cases hnext
    exact { hw with }
  | delete id deleter =>
    rcases map_eq_some_iff.mp hnext with ⟨_, hstart, rfl⟩
    refine ⟨fun c d hc hd v hvc hvd => ?_, forall_insert? hstart hw.holds trivial, hw.counts,
      hw.clean⟩
    rcases (mem_of_insert? hstart).mp hc with hc | rfl
    · rcases (mem_of_insert? hstart).mp hd with hd | rfl
      · exact hw.apart c d hc hd v hvc hvd
      · exact absurd hvd (hapart c hc v hvc)
    · rcases (mem_of_insert? hstart).mp hd with hd | rfl
      · exact absurd hvc (hapart d hd v hvd)
      · rfl
  | timeOut id =>
    rcases bind_eq_some_iff.mp hnext with ⟨c, hfind, htime⟩
    exact timeOut_sound hw (mem_of_find? hfind) htime
  | advance id ok =>
    rcases bind_eq_some_iff.mp hnext with ⟨_, hfind, hadvance⟩
    exact advance_sound hw (mem_of_find? hfind) hadvance

end

end Steps

/--
In every run the count of a version is the number of its pins that are held, and
deleters that do not share a version at one time tombstone idle versions only.
-/
theorem version_deletion {control : Control} {events : List Event} {w : Registry}
    (hrun : Run Registry.next Apart (Registry.initial control) events w) :
    w.CountsHeld ∧ TombstonedIdle w := by
  have hsound : w.Sound := by
    refine hrun.invariant (fun _ _ _ hu hapart hnext => next_registry_sound hu hapart hnext) ?_
    exact ⟨fun c _ hc => absurd hc (not_mem_empty c), forall_mem_empty, fun _ => rfl,
      fun _ h => by cases h⟩
  exact ⟨hsound.counts, hsound.clean⟩

namespace Sample

def retired : Control where
  workers := ⟨[⟨1, none, 0, false, false⟩], by decide⟩
  versions := ⟨[⟨1, 1, .ready⟩, ⟨2, 1, .ready⟩], by decide⟩
  deployments := Table.empty
  referrers := []
  history := []

def drained : List Event :=
  [.pin 1, .delete 5 (.version 1 1 false), .advance 5 true, .advance 5 true, .dropPin 1,
    .advance 5 true, .advance 5 true]

def unfenced : List Event :=
  [.pin 2, .delete 6 (.script [1, 2] false), .advance 6 true, .advance 6 true,
    .delete 5 (.version 1 1 false), .advance 5 true, .advance 5 true, .advance 5 true,
    .timeOut 6, .advance 6 true, .pin 1, .advance 5 true]

end Sample

open Sample in
theorem version_deletion_drained : exists w,
    Run Registry.next Apart (Registry.initial retired) drained w ∧
      w.tombstones = [⟨1, some ⟨0, true, false, []⟩, 0, 0⟩] ∧ w.CountsHeld ∧ TombstonedIdle w :=
  exists_run_with (fun _ hrun => version_deletion hrun) (by decide +kernel)

open Sample in
theorem version_deletion_pinned : exists w,
    Run Registry.next always (Registry.initial retired) unfenced w ∧
      w.tombstones = [⟨1, some ⟨1, false, false, []⟩, 1, 1⟩] :=
  exists_run_of_execute (by decide +kernel)

end Deployments
end OpenCompute
