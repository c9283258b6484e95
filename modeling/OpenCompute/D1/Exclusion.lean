import OpenCompute.D1.Lanes

/-!
# Exclusion and the queue of a lane

The permit of a lane is free or held by one call, so two leases of a database
need two lanes.  That happens when a lane is dropped that a call has cloned and
is not counted on yet.  The counter of a lane is at least the number of calls
that are counted on it, and larger by those that gave up waiting.
-/

namespace OpenCompute
namespace D1

open Relational Table Transition Function Bool List

namespace Phase

def counts : Phase -> Bool
  | refused => true
  | waiting => true
  | granted => true
  | _ => false

def holds : Phase -> Bool
  | granted => true
  | leased => true
  | _ => false

end Phase

namespace World

def number (w : World) (p : Phase -> Bool) (lane : LaneAddress) : Nat :=
  w.calls.rows.countP fun c => decide (c.lane = lane) && p c.phase

def waiting (w : World) (lane : LaneAddress) : Nat := w.number Phase.counts lane

def holders (w : World) (lane : LaneAddress) : Nat := w.number Phase.holds lane

end World

/-! ## Counting the calls of a lane -/

section Numbers

variable {w : World} {p : Phase -> Bool} {c : Call}

theorem number_pos (hc : c ∈ w.calls) (hphase : p c.phase = true) : 0 < w.number p c.lane := by
  apply countP_pos_iff.mpr
  exact ⟨c, hc, by rw [decide_eq_true rfl, hphase]; rfl⟩

theorem number_move (hc : c ∈ w.calls) (phase : Option Phase) (lane : D1Lane)
    (other : LaneAddress) :
    (w.move c phase lane).number p other + (decide (c.lane = other) && p c.phase).toNat =
      w.number p other + (decide (c.lane = other) && phase.any p).toNat := by
  unfold World.number World.move
  cases phase with
  | none =>
    have hcount := countP_erase hc fun c' => decide (c'.lane = other) && p c'.phase
    simpa using hcount
  | some phase =>
    exact countP_replace (x := { c with phase }) hc rfl
      fun c' => decide (c'.lane = other) && p c'.phase

theorem number_move_of_ne (hc : c ∈ w.calls) (phase : Option Phase) (lane : D1Lane)
    {other : LaneAddress} (hne : other ≠ c.lane) :
    (w.move c phase lane).number p other = w.number p other := by
  simpa [hne.symm] using number_move hc phase lane other

theorem number_entered {calls : Table Call.id} {id : CallId} {resource : ResourceId}
    {lane : LaneAddress} {v : World} (hp : p .lookedUp = false)
    (hcalls : w.calls.insert? ⟨id, resource, lane, .lookedUp⟩ = some calls)
    (hv : v.calls = calls) (other : LaneAddress) : v.number p other = w.number p other := by
  unfold World.number
  rw [hv, countP_insert? hcalls]
  simp [hp]

end Numbers

/-! ## The accounts of the lanes -/

/-- Permits and counters against the calls; `leaked` are calls that are gone but counted. -/
structure World.Accounts (w : World) (leaked : LaneAddress -> Nat) : Prop where
  lanes : forall row, row ∈ w.lanes -> row.lane < w.fresh
  calls : forall c, c ∈ w.calls -> c.lane < w.fresh
  permits : forall lane, lane < w.fresh -> (w.memory lane).availablePermits + w.holders lane = 1
  queued : forall lane, (w.memory lane).queued = w.waiting lane + leaked lane
  leaks : forall lane, w.fresh ≤ lane -> leaked lane = 0

section Accounts

variable {m : D1HandleManager} {w w' : World} {leaked : LaneAddress -> Nat} {phase' : Option Phase}
  {lane lane' : D1Lane} {leak : Bool} {resource : ResourceId}

theorem Shift.permits {phase : Phase} (hshift : Shift m phase phase' lane lane' leak) :
    lane'.availablePermits + (phase'.any Phase.holds).toNat =
      lane.availablePermits + phase.holds.toNat := by
  cases hshift with
  | grant lane hpermit =>
    show lane.availablePermits - 1 + 1 = lane.availablePermits + 0
    omega
  | _ => rfl

theorem Shift.queued {phase : Phase} (hshift : Shift m phase phase' lane lane' leak)
    (hcounted : phase.counts.toNat ≤ lane.queued) :
    lane'.queued + phase.counts.toNat =
      lane.queued + (phase'.any Phase.counts).toNat + leak.toNat := by
  cases hshift with
  | refuse lane | settle lane =>
    have hpos : 1 ≤ lane.queued := hcounted
    show lane.queued - 1 + 1 = lane.queued + 0 + 0
    omega
  | _ => rfl

theorem accounts_initial : World.initial.Accounts fun _ => 0 where
  lanes := forall_mem_empty
  calls := forall_mem_empty
  permits := fun lane hlane => absurd hlane (Nat.not_lt_zero lane)
  queued := fun _ => rfl
  leaks := fun _ _ => rfl

section

variable (hw : w.Accounts leaked)
include hw

theorem Accounts.moved {c : Call} {phase : Option Phase} (hc : c ∈ w.calls)
    (hshift : Shift m c.phase phase (w.memory c.lane) lane leak) :
    (w.move c phase lane).Accounts
      (update leaked c.lane (leaked c.lane + leak.toNat)) where
  lanes := hw.lanes
  calls := by
    cases phase with
    | none => exact fun d hd => hw.calls d (mem_erase.mp hd).left
    | some phase => exact forall_replace hw.calls (hw.calls c hc)
  permits := by
    intro other hother
    show (update w.memory c.lane lane other).availablePermits + _ = 1
    by_cases hsame : other = c.lane
    · rw [hsame, update_self]
      have hnumber := @number_move w Phase.holds c hc phase lane c.lane
      rw [decide_eq_true rfl, Bool.true_and, Bool.true_and] at hnumber
      have hpermits := hshift.permits
      have hone := hw.permits c.lane (hw.calls c hc)
      unfold World.holders at hone ⊢
      omega
    · rw [update_of_ne hsame]
      unfold World.holders
      rw [number_move_of_ne hc phase lane hsame]
      exact hw.permits other hother
  queued := by
    intro other
    show (update w.memory c.lane lane other).queued = _
    by_cases hsame : other = c.lane
    · rw [hsame, update_self, update_self]
      have hnumber := @number_move w Phase.counts c hc phase lane c.lane
      rw [decide_eq_true rfl, Bool.true_and, Bool.true_and] at hnumber
      have hequal := hw.queued c.lane
      have hcounted : c.phase.counts.toNat ≤ (w.memory c.lane).queued := by
        cases hcounts : c.phase.counts with
        | false => exact Nat.zero_le _
        | true =>
          have hpos : 0 < w.number Phase.counts c.lane := number_pos hc hcounts
          unfold World.waiting at hequal
          show 1 ≤ _
          omega
      have hqueued := hshift.queued hcounted
      unfold World.waiting at hequal ⊢
      omega
    · rw [update_of_ne hsame, update_of_ne hsame]
      unfold World.waiting
      rw [number_move_of_ne hc phase lane hsame]
      exact hw.queued other
  leaks := by
    intro other hother
    have hne : other ≠ c.lane := fun h => Nat.not_le_of_lt (hw.calls c hc) (h ▸ hother)
    rw [update_of_ne hne]
    exact hw.leaks other hother

theorem Accounts.found {id : CallId} {row : OpenLane} {calls : Table Call.id}
    (hfind : w.lanes.find? resource = some row)
    (hcalls : w.calls.insert? ⟨id, resource, row.lane, .lookedUp⟩ = some calls) :
    ({ w with calls } : World).Accounts leaked where
  lanes := hw.lanes
  calls := forall_insert? hcalls hw.calls (hw.lanes row (mem_of_find? hfind))
  permits := by
    intro lane hlane
    unfold World.holders
    rw [number_entered rfl hcalls rfl]
    exact hw.permits lane hlane
  queued := by
    intro lane
    unfold World.waiting
    rw [number_entered rfl hcalls rfl]
    exact hw.queued lane
  leaks := hw.leaks

theorem number_fresh (p : Phase -> Bool) : w.number p w.fresh = 0 := by
  apply countP_eq_zero.mpr
  intro c hc
  have hne : c.lane ≠ w.fresh := Nat.ne_of_lt (hw.calls c hc)
  simp [hne]

theorem Accounts.opened {id : CallId} {now : Nat} {candidate : Option ResourceId}
    {lanes lanes' : Table OpenLane.resource} {calls : Table Call.id}
    (hkept : Kept m w now candidate lanes)
    (hlanes : lanes.insert? ⟨resource, w.fresh⟩ = some lanes')
    (hcalls : w.calls.insert? ⟨id, resource, w.fresh, .lookedUp⟩ = some calls) :
    (⟨lanes', update w.memory w.fresh ⟨0, 1, now⟩, w.fresh + 1, calls⟩ : World).Accounts
      leaked where
  lanes := forall_insert? hlanes
    (fun row hrow => Nat.lt_succ_of_lt (hw.lanes row (hkept.open_ row hrow))) (Nat.lt_succ_self _)
  calls := forall_insert? hcalls (fun c hc => Nat.lt_succ_of_lt (hw.calls c hc))
    (Nat.lt_succ_self _)
  permits := by
    intro lane hlane
    unfold World.holders
    rw [number_entered rfl hcalls rfl]
    show (update w.memory w.fresh _ lane).availablePermits + _ = 1
    by_cases hsame : lane = w.fresh
    · rw [hsame, update_self, number_fresh hw]
    · rw [update_of_ne hsame]
      exact hw.permits lane (Nat.lt_of_le_of_ne (Nat.le_of_lt_succ hlane) hsame)
  queued := by
    intro lane
    unfold World.waiting
    rw [number_entered rfl hcalls rfl]
    show (update w.memory w.fresh _ lane).queued = _
    by_cases hsame : lane = w.fresh
    · rw [hsame, update_self, number_fresh hw, hw.leaks w.fresh (Nat.le_refl _)]
    · rw [update_of_ne hsame]
      exact hw.queued lane
  leaks := fun lane hlane => hw.leaks lane (Nat.le_of_succ_le hlane)

theorem Accounts.overloaded {now : Nat} {lanes : Table OpenLane.resource}
    (hkept : Kept m w now none lanes) : ({ w with lanes } : World).Accounts leaked where
  lanes := fun row hrow => hw.lanes row (hkept.open_ row hrow)
  calls := hw.calls
  permits := hw.permits
  queued := hw.queued
  leaks := hw.leaks

end

theorem step_accounts {a : Action} (hstep : Step m w a w') (hw : w.Accounts leaked) :
    exists leaked', w'.Accounts leaked' ∧
      ((forall lane, leaked' lane = 0) ↔ (forall lane, leaked lane = 0) ∧ a.abandons = false) := by
  cases hstep with
  | found hfind hcalls =>
    exact ⟨leaked, Accounts.found hw hfind hcalls, fun h => ⟨h, rfl⟩, fun h => h.left⟩
  | overloaded _ hkept =>
    exact ⟨leaked, Accounts.overloaded hw hkept, fun h => ⟨h, rfl⟩, fun h => h.left⟩
  | opened _ hkept hlanes hcalls =>
    exact ⟨leaked, Accounts.opened hw hkept hlanes hcalls, fun h => ⟨h, rfl⟩, fun h => h.left⟩
  | @moved _ c phase lane hc hshift =>
    refine ⟨_, Accounts.moved hw hc hshift, ?_, ?_⟩
    · intro hzero
      constructor
      · intro other
        by_cases hsame : other = c.lane
        · have hlane := hzero c.lane
          rw [update_self] at hlane
          rw [hsame]
          omega
        · have hother := hzero other
          rw [update_of_ne hsame] at hother
          exact hother
      · have hlane := hzero c.lane
        rw [update_self] at hlane
        cases habandons : a.abandons with
        | false => rfl
        | true =>
          rw [habandons] at hlane
          cases hlane
    · rintro ⟨hzero, habandons⟩ other
      rw [update_apply]
      split
      · rw [habandons, hzero c.lane]
        rfl
      · exact hzero other

end Accounts

/-! ## Runs -/

/-- Any interleaving of the steps of any calls. -/
def History (m : D1HandleManager) (actions : List Action) (w : World) : Prop :=
  Run (World.next m) always World.initial actions w

theorem history_accounts {m : D1HandleManager} {actions : List Action} {w : World}
    (hrun : History m actions w) : exists leaked, w.Accounts leaked ∧
      ((forall lane, leaked lane = 0) ↔ forall a, a ∈ actions -> a.abandons = false) := by
  refine hrun.history (P := fun actions w => exists leaked, World.Accounts w leaked ∧
    ((forall lane, leaked lane = 0) ↔ forall a, a ∈ actions -> a.abandons = false)) ?_ ?_
  · intro before u a v _ hu _ hnext
    rcases hu with ⟨_, haccounts, hiff⟩
    rcases step_accounts (step_of_next hnext) haccounts with ⟨leaked', haccounts', hiff'⟩
    refine ⟨leaked', haccounts', ?_⟩
    rw [hiff', hiff]
    simp only [mem_append, mem_singleton]
    constructor
    · rintro ⟨hbefore, ha⟩ b (hb | rfl)
      · exact hbefore b hb
      · exact ha
    · intro hall
      exact ⟨fun b hb => hall b (Or.inl hb), hall a (Or.inr rfl)⟩
  · exact ⟨fun _ => 0, accounts_initial, nofun, fun _ _ => rfl⟩

/-! ## The queue of a lane -/

/-- The counters are the numbers of waiting calls, and a lane that nothing waits for and
nothing holds admits the next call and may be dropped. -/
structure QueueAccounting (m : D1HandleManager) (w : World) : Prop where
  queued : forall lane, (w.memory lane).queued = w.waiting lane
  admits : forall lane, lane < w.fresh -> w.waiting lane = 0 -> w.holders lane = 0 ->
    (w.memory lane).queued < m.queueLimit ∧ (w.memory lane).availablePermits = 1 ∧
      (w.memory lane).idle = true

/-- The counters are right as long as no wait ended without the permit, and no longer. -/
theorem queue_accounting_iff (maxOpen queueLimit idleTtl : Nat) {actions : List Action}
    {w : World} (hrun : History (D1HandleManager.new maxOpen queueLimit idleTtl) actions w) :
    QueueAccounting (D1HandleManager.new maxOpen queueLimit idleTtl) w ↔
      forall a, a ∈ actions -> a.abandons = false := by
  rcases history_accounts hrun with ⟨leaked, hw, hiff⟩
  rw [← hiff]
  constructor
  · intro haccounting lane
    have hqueued := haccounting.queued lane
    have hequal := hw.queued lane
    omega
  · intro hzero
    have hqueued : forall lane, (w.memory lane).queued = w.waiting lane := by
      intro lane
      rw [hw.queued lane, hzero lane]
      rfl
    refine ⟨hqueued, ?_⟩
    intro lane hlane hwaiting hholders
    have hnone : (w.memory lane).queued = 0 := (hqueued lane).trans hwaiting
    have hpermits : (w.memory lane).availablePermits = 1 := by
      have hone := hw.permits lane hlane
      omega
    refine ⟨?_, hpermits, ?_⟩
    · rw [hnone]
      exact Nat.lt_of_lt_of_le Nat.one_pos (Nat.le_max_right queueLimit 1)
    · unfold D1Lane.idle
      rw [hnone, hpermits]
      rfl

namespace Sample

def manager : D1HandleManager := D1HandleManager.new 1 1 60000

def take (id : CallId) (resource : ResourceId) : List Action :=
  [.lookup id resource 0 none, .count id, .grant id, .settle id]

end Sample

open Sample in
theorem queue_accounting_iff_leased : exists w,
    History manager (take 1 7 ++ [.lookup 2 7 1 none, .count 2]) w ∧
      (w.holders 0 = 1 ∧ w.waiting 0 = 1) ∧ QueueAccounting manager w :=
  exists_run_with (fun _ hrun => (queue_accounting_iff 1 1 60000 hrun).mpr (by decide)) (by decide)

open Sample in
theorem timeout_fills_queue : exists w,
    History manager (take 1 7 ++ [.lookup 2 7 1 none, .count 2, .timeOut 2, .dropLease 1 2]) w ∧
      w.waiting 0 = 0 ∧ w.holders 0 = 0 ∧ (w.memory 0).queued = manager.queueLimit ∧
      (w.memory 0).idle = false :=
  exists_run_of_execute (by decide)

/-! ## Exclusion -/

def Exclusive (w : World) : Prop :=
  forall c d, c ∈ w.calls -> d ∈ w.calls -> c.phase = .leased -> d.phase = .leased ->
    c.resource = d.resource -> c = d

/-- The lookup of a new database keeps every lane that a call has cloned and is not
counted on yet. -/
def Undisturbed (m : D1HandleManager) (w : World) : Action -> Prop
  | .lookup _ resource now candidate =>
    w.lanes.find? resource = none -> forall c, c ∈ w.calls -> c.phase = .lookedUp ->
      (w.memory c.lane).retained m now = true ∧ candidate ≠ some c.resource
  | _ => True

/-- The lane of every call is the open lane of its database. -/
def World.Attached (w : World) : Prop :=
  forall c, c ∈ w.calls -> w.lanes.find? c.resource = some ⟨c.resource, c.lane⟩

section Exclusion

variable {m : D1HandleManager} {w w' : World} {leaked : LaneAddress -> Nat}

theorem exclusive_of_attached (hw : w.Accounts leaked) (hattached : w.Attached) : Exclusive w := by
  intro c d hc hd hcphase hdphase hresource
  have hlane : c.lane = d.lane := by
    have hfind := hattached c hc
    rw [hresource, hattached d hd] at hfind
    exact (congrArg OpenLane.lane (Option.some.inj hfind)).symm
  have hone := hw.permits d.lane (hw.calls d hd)
  by_contra hne
  have hkey : d.id ≠ c.id := fun h => hne (eq_of_key_eq hc hd h.symm)
  have hcount := countP_erase hc fun c' => decide (c'.lane = d.lane) && c'.phase.holds
  have hrest : 0 < (w.calls.erase c.id).rows.countP
      fun c' => decide (c'.lane = d.lane) && c'.phase.holds := by
    apply countP_pos_iff.mpr
    refine ⟨d, mem_erase.mpr ⟨hd, hkey⟩, ?_⟩
    rw [decide_eq_true rfl, hdphase]
    rfl
  unfold World.holders World.number at hone
  rw [decide_eq_true hlane, hcphase] at hcount
  have hsum : (w.calls.erase c.id).rows.countP
      (fun c' => decide (c'.lane = d.lane) && c'.phase.holds) + 1 = _ := hcount
  omega

theorem not_dropped {now : Nat} {candidate : Option ResourceId}
    {lanes : Table OpenLane.resource} {c : Call} (hw : w.Accounts leaked)
    (hattached : w.Attached) (hkept : Kept m w now candidate lanes) (hc : c ∈ w.calls)
    (hundisturbed : c.phase = .lookedUp ->
      (w.memory c.lane).retained m now = true ∧ candidate ≠ some c.resource) :
    lanes.find? c.resource = some ⟨c.resource, c.lane⟩ := by
  rw [find?_eq_some]
  refine ⟨?_, rfl⟩
  by_contra hnot
  rcases hkept.dropped _ (mem_of_find? (hattached c hc)) hnot with
    ⟨hqueued, hpermits, hdropped⟩
  have hone := hw.permits c.lane (hw.calls c hc)
  have hequal := hw.queued c.lane
  have hcounts : c.phase.counts = false := by
    rw [← not_eq_true]
    intro hcounted
    have hpos : 0 < w.waiting c.lane := number_pos hc hcounted
    dsimp only at hqueued
    omega
  have hholds : c.phase.holds = false := by
    rw [← not_eq_true]
    intro hholding
    have hpos : 0 < w.holders c.lane := number_pos hc hholding
    dsimp only at hpermits
    omega
  have hphase : c.phase = .lookedUp := by
    cases hphase : c.phase with
    | lookedUp => rfl
    | leased =>
      rw [hphase] at hholds
      cases hholds
    | _ =>
      rw [hphase] at hcounts
      cases hcounts
  rcases hundisturbed hphase with ⟨hretained, hother⟩
  cases hdropped with
  | inl hgone =>
    rw [hretained] at hgone
    cases hgone
  | inr hcandidate => exact hother hcandidate

theorem step_attached {a : Action} (hstep : Step m w a w') (hw : w.Accounts leaked)
    (hundisturbed : Undisturbed m w a) (hattached : w.Attached) : w'.Attached := by
  cases hstep with
  | found hfind hcalls =>
    refine forall_insert? hcalls hattached ?_
    rw [hfind]
    exact congrArg (fun r => some (OpenLane.mk r _)) (key_of_find? hfind)
  | overloaded hfind hkept =>
    intro c hc
    exact not_dropped hw hattached hkept hc (hundisturbed hfind c hc)
  | @opened _ resource _ _ _ _ _ hfind hkept hlanes hcalls =>
    refine forall_insert? hcalls (fun c hc => ?_) ((find?_of_insert? hlanes _).trans (if_pos rfl))
    have hne : c.resource ≠ resource := by
      intro hsame
      have hlane := hattached c hc
      rw [hsame, hfind] at hlane
      cases hlane
    rw [find?_of_insert? hlanes, if_neg hne]
    exact not_dropped hw hattached hkept hc (hundisturbed hfind c hc)
  | @moved _ c phase lane hc hshift =>
    cases phase with
    | none => exact fun d hd => hattached d (mem_erase.mp hd).left
    | some phase => exact forall_replace hattached (hattached c hc)

end Exclusion

/-- At most one lease of each database is held in every state of every run in which no
lookup drops a lane that a call has in hand. -/
theorem lane_exclusion {m : D1HandleManager} {actions : List Action} {w : World}
    (hrun : Run (World.next m) (Undisturbed m) World.initial actions w) : Exclusive w := by
  have hinvariant : exists leaked, w.Accounts leaked ∧ w.Attached := by
    refine hrun.invariant (P := fun w => exists leaked, World.Accounts w leaked ∧ w.Attached) ?_ ?_
    · intro u a v hu hundisturbed hnext
      rcases hu with ⟨leaked, haccounts, hattached⟩
      have hstep := step_of_next hnext
      rcases step_accounts hstep haccounts with ⟨leaked', haccounts', _⟩
      exact ⟨leaked', haccounts', step_attached hstep haccounts hundisturbed hattached⟩
    · exact ⟨fun _ => 0, accounts_initial, forall_mem_empty⟩
  rcases hinvariant with ⟨leaked, haccounts, hattached⟩
  exact exclusive_of_attached haccounts hattached

instance (m : D1HandleManager) (w : World) (a : Action) : Decidable (Undisturbed m w a) :=
  match a with
  | .lookup _ resource now candidate =>
    inferInstanceAs (Decidable (w.lanes.find? resource = none -> forall c, c ∈ w.calls.rows ->
      c.phase = .lookedUp -> (w.memory c.lane).retained m now = true ∧ candidate ≠ some c.resource))
  | .count _ | .refuse _ | .grant _ | .settle _ | .timeOut _ | .cancel _ | .dropLease _ _ =>
    isTrue trivial

open Sample in
theorem lane_exclusion_two : exists w, Run (World.next (D1HandleManager.new 2 4 60000))
      (Undisturbed (D1HandleManager.new 2 4 60000)) World.initial
      (take 1 7 ++ take 2 8 ++ [.lookup 3 7 1 none, .count 3]) w ∧
    w.holders 0 = 1 ∧ w.holders 1 = 1 ∧ w.waiting 0 = 1 ∧ Exclusive w := by
  refine exists_run_imp (P := fun w => w.holders 0 = 1 ∧ w.holders 1 = 1 ∧ w.waiting 0 = 1)
    ?_ (by decide)
  rintro w hrun ⟨hfirst, hsecond, hwaiting⟩
  exact ⟨hfirst, hsecond, hwaiting, lane_exclusion hrun⟩

namespace Sample

def evicted : List Action :=
  [.lookup 1 7 0 none, .lookup 2 8 0 (some 7), .lookup 3 7 0 (some 8), .count 1, .grant 1,
    .settle 1, .count 3, .grant 3, .settle 3]

end Sample

open Sample in
theorem evicted_lane_shared : exists w, History manager evicted w ∧ ¬ Exclusive w := by
  refine exists_run_imp (P := fun w =>
    exists c, c ∈ w.calls ∧ (c.resource = 7 ∧ c.phase = Phase.leased ∧
      exists d, d ∈ w.calls ∧ d.resource = 7 ∧ d.phase = Phase.leased ∧ c.id ≠ d.id))
    ?_ (by decide)
  rintro w _ ⟨c, hc, hcresource, hcphase, d, hd, hdresource, hdphase, hne⟩ hexclusive
  refine hne ?_
  rw [hexclusive c d hc hd hcphase hdphase (hcresource.trans hdresource.symm)]

end D1
end OpenCompute
