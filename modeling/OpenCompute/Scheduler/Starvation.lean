import OpenCompute.Scheduler.Fairness

/-!
# No pool is starved

Calls of `select` and refunds follow each other in any order.  A pool that is
passed over either comes closer to the cursor or waits until the others have
used what they have left, so that a rank falls with every call.  Refunds raise
what the others have left: when all that a call selected is refunded, nothing
was used and the rank stays where it was.
-/

namespace OpenCompute
namespace Scheduler

open Transition List Function Finset

instance : Fintype SchedulerKind where
  elems := {.alarm, .queue, .cron, .workflow}
  complete := by
    intro kind
    cases kind <;> decide

/-! ## Calls and refunds -/

/-- The selector, and what the last call selected and was not refunded since. -/
structure World where
  selector : FairSelector
  selected : SchedulerKind -> Nat

inductive Action where
  | select (offer : Offer)
  | refund (kind : SchedulerKind) (count : Nat)

namespace World

def initial (weights : Fin poolCount -> Nat) : World := ⟨FairSelector.new weights, fun _ => 0⟩

def after (w : World) : Action -> World
  | .select offer =>
    ⟨(w.selector.select offer).1, fun kind => (w.selector.select offer).2.count kind⟩
  | .refund kind count =>
    ⟨w.selector.refund kind count, Function.update w.selected kind (w.selected kind - count)⟩

def next (w : World) (a : Action) : Option World := some (w.after a)

/-- The permits of the last call that were used. -/
def used (w : World) : Nat := ∑ kind, w.selected kind

end World

/-- A call has a permit, and a refund returns at most what the last call selected. -/
def Lawful (w : World) : Action -> Prop
  | .select offer => 1 ≤ offer.globalPermits
  | .refund kind count => count ≤ w.selected kind

instance (w : World) (a : Action) : Decidable (Lawful w a) :=
  match a with
  | .select offer => inferInstanceAs (Decidable (1 ≤ offer.globalPermits))
  | .refund kind count => inferInstanceAs (Decidable (count ≤ w.selected kind))

/-- A refund leaves a permit of the last call used, and the pool within its weight. -/
def Spends (w : World) : Action -> Prop
  | .select _ => True
  | .refund kind count => count = 0 ∨ (count < w.used ∧
      w.selector.deficits kind.index + count ≤ w.selector.weights kind.index)

instance (w : World) (a : Action) : Decidable (Spends w a) :=
  match a with
  | .select _ => isTrue trivial
  | .refund kind count => inferInstanceAs (Decidable (count = 0 ∨ (count < w.used ∧
      w.selector.deficits kind.index + count ≤ w.selector.weights kind.index)))

namespace Action

def Offers (kind : SchedulerKind) : Action -> Prop
  | .select offer => offer.runnable kind.index = true
  | .refund _ _ => True

def isSelect : Action -> Bool
  | .select _ => true
  | .refund _ _ => false

end Action

def calls (actions : List Action) : Nat := actions.countP Action.isSelect

theorem calls_replicate (n : Nat) (actions : List Action) :
    calls (replicate n actions).flatten = n * calls actions := by
  simp [calls, countP_flatten]

def SelectedIn (kind : SchedulerKind) : World -> List Action -> Prop
  | _, [] => False
  | w, .select offer :: rest =>
    kind ∈ (w.selector.select offer).2 ∨ SelectedIn kind (w.after (.select offer)) rest
  | w, .refund k count :: rest => SelectedIn kind (w.after (.refund k count)) rest

def SelectedWithin (allowed : World -> Action -> Prop) (weights : Fin poolCount -> Nat)
    (bound : Nat) : Prop :=
  forall before window u v kind, Run World.next allowed (World.initial weights) before u ->
    Run World.next allowed u window v ->
    (forall a, a ∈ window -> a.Offers kind) -> bound ≤ calls window ->
    SelectedIn kind u window

/-! ## The rank -/

section Rank

variable {w : World} {kind : SchedulerKind} {offer : Offer}

/-- How long a pool may still be passed over. -/
def World.rank (w : World) (kind : SchedulerKind) : Nat :=
  if 0 < w.selector.deficits kind.index then w.selector.distance kind.index
  else poolCount + (w.selector.others kind.index + w.used)

theorem sum_count (l : List SchedulerKind) : ∑ kind, l.count kind = l.length := by
  induction l with
  | nil => rfl
  | cons k l ih => simp [count_cons, Finset.sum_add_distrib, ih]

theorem used_select (w : World) (offer : Offer) :
    (w.after (.select offer)).used = (w.selector.select offer).2.length :=
  sum_count _

theorem rank_of_deficit (hdeficit : 0 < w.selector.deficits kind.index) :
    w.rank kind = w.selector.distance kind.index := if_pos hdeficit

theorem rank_of_none (hdeficit : w.selector.deficits kind.index = 0) :
    w.rank kind = poolCount + (w.selector.others kind.index + w.used) :=
  if_neg (by omega)

theorem distance_lt (s : FairSelector) (p : Fin poolCount) : s.distance p < poolCount :=
  (p - s.cursor).isLt

theorem rank_select (hpositive : 0 < w.selector.weights kind.index)
    (hrunnable : offer.runnable kind.index = true) (hpermit : 1 ≤ offer.globalPermits)
    (hskipped : ¬ kind ∈ (w.selector.select offer).2) :
    (w.after (.select offer)).rank kind ≤ poolCount + w.selector.others kind.index ∧
      (0 < w.used -> (w.after (.select offer)).rank kind < w.rank kind) := by
  cases Nat.eq_zero_or_pos (w.selector.deficits kind.index) with
  | inr hdeficit =>
    rcases selectLoop_near hrunnable hpositive hdeficit hskipped with ⟨hleft, _⟩
    have hrank : (w.after (.select offer)).rank kind =
        (w.selector.select offer).1.distance kind.index := rank_of_deficit hleft
    have hlt := distance_lt w.selector kind.index
    unfold FairSelector.select at hrank
    rw [rank_of_deficit hdeficit]
    exact ⟨by omega, fun _ => by omega⟩
  | inl hdeficit =>
    rw [rank_of_none hdeficit]
    cases selectLoop_waits hrunnable hpositive hdeficit hskipped with
    | inl hleft =>
      have hrank : (w.after (.select offer)).rank kind =
          (w.selector.select offer).1.distance kind.index := rank_of_deficit hleft
      have hlt := distance_lt (w.selector.select offer).1 kind.index
      exact ⟨by omega, fun _ => by omega⟩
    | inr hwaits =>
      rcases hwaits with ⟨hzero, _, _⟩
      have hrank : (w.after (.select offer)).rank kind = poolCount +
          ((w.selector.select offer).1.others kind.index + (w.selector.select offer).2.length) := by
        rw [rank_of_none hzero, used_select]
        rfl
      unfold FairSelector.select at hrank
      exact ⟨by omega, fun _ => by omega⟩

end Rank

/-! ## Refunds -/

section Refunds

variable {w : World} {kind k : SchedulerKind} {count : Nat}

theorem used_refund (hlawful : count ≤ w.selected k) :
    (w.after (.refund k count)).used + count = w.used := by
  unfold World.used
  show ∑ i, update w.selected k (w.selected k - count) i + count = _
  rw [sum_update_of_mem (mem_univ k), ← sum_erase_add _ _ (mem_univ k),
    sdiff_singleton_eq_erase]
  omega

theorem refund_deficit_le (s : FairSelector) (k : SchedulerKind) (count : Nat) :
    (s.refund k count).deficits k.index ≤ s.deficits k.index + count := by
  show update s.deficits k.index _ k.index ≤ _
  rw [update_self]
  exact le_trans (saturatingAdd_le _ _) (Nat.add_le_add_left (Nat.min_le_left _ _) _)

theorem refund_deficit_of_ne {s : FairSelector} {p : Fin poolCount} (hne : p ≠ k.index) :
    (s.refund k count).deficits p = s.deficits p :=
  update_of_ne hne _ _

theorem others_refund (s : FairSelector) (p : Fin poolCount) :
    (s.refund k count).others p ≤ s.others p + count := by
  have hterm : forall i, i ∈ univ.erase p ->
      (s.refund k count).deficits i ≤ s.deficits i + if i = k.index then count else 0 := by
    intro i _
    split
    · rename_i hi
      rw [hi]
      exact refund_deficit_le s k count
    · rename_i hi
      exact le_of_eq (refund_deficit_of_ne hi)
  have hsum := Finset.sum_le_sum hterm
  rw [Finset.sum_add_distrib, Finset.sum_ite_eq'] at hsum
  unfold FairSelector.others
  split at hsum <;> omega

theorem rank_refund (hlawful : count ≤ w.selected k) (hnone : w.selected kind = 0) :
    (w.after (.refund k count)).rank kind ≤ w.rank kind := by
  have hothers := @others_refund k count w.selector kind.index
  have hused := used_refund hlawful
  have hdeficit : 0 < (w.selector.refund k count).deficits kind.index ↔
      0 < w.selector.deficits kind.index := by
    by_cases hk : kind.index = k.index
    · have hsame : kind = k := by
        rw [← SchedulerKind.all_index kind, hk, SchedulerKind.all_index]
      show 0 < update w.selector.deficits k.index _ kind.index ↔ _
      rw [hsame] at hnone ⊢
      rw [update_self]
      unfold saturatingAdd u64Max
      omega
    · rw [refund_deficit_of_ne hk]
  show (if 0 < (w.selector.refund k count).deficits kind.index then _ else
    poolCount + ((w.selector.refund k count).others kind.index + _)) ≤ _
  unfold World.rank
  simp only [hdeficit]
  split
  · exact le_refl _
  · omega

end Refunds

/-! ## Windows -/

section Windows

variable {w : World} {kind : SchedulerKind}

structure World.Passed (w : World) (kind : SchedulerKind) : Prop where
  weight : 0 < w.selector.weights kind.index
  used : 0 < w.used
  none : w.selected kind = 0

theorem after_weights (w : World) (a : Action) :
    (w.after a).selector.weights = w.selector.weights := by
  cases a with
  | select offer => exact selectLoop_weights w.selector offer offer.globalPermits
  | refund k count => rfl

theorem passed_select {offer : Offer} (hpositive : 0 < w.selector.weights kind.index)
    (hrunnable : offer.runnable kind.index = true) (hpermit : 1 ≤ offer.globalPermits)
    (hskipped : ¬ kind ∈ (w.selector.select offer).2) :
    (w.after (.select offer)).Passed kind where
  weight := by
    rw [after_weights]
    exact hpositive
  used := by
    rw [used_select]
    unfold FairSelector.select
    cases hpermits : offer.globalPermits with
    | zero => omega
    | succ permits =>
      rcases selectLoop_succ hrunnable hpositive permits with ⟨_, _, hloop⟩
      rw [hloop]
      exact Nat.succ_pos _
  none := count_eq_zero.mpr hskipped

variable {window : List Action}

theorem calls_select (offer : Offer) : calls (.select offer :: window) = calls window + 1 :=
  countP_cons_of_pos rfl

theorem after_bounded {a : Action} (hw : w.selector.Bounded) (hspends : Spends w a) :
    (w.after a).selector.Bounded := by
  cases a with
  | select offer => exact selectLoop_bounded hw offer offer.globalPermits
  | refund k count =>
    intro i
    have hle := refund_deficit_le w.selector k count
    by_cases hi : i = k.index
    · rw [hi]
      have hbound := hw k.index
      show (w.selector.refund k count).deficits k.index ≤ w.selector.weights k.index
      cases hspends with
      | inl hzero => omega
      | inr h => exact le_trans hle h.right
    · exact le_of_eq_of_le (refund_deficit_of_ne hi) (hw i)

theorem calls_le {v : World} (hrun : Run World.next (fun w a => Lawful w a ∧ Spends w a) w window v)
    (hoffers : forall a, a ∈ window -> a.Offers kind) (hskipped : ¬ SelectedIn kind w window) :
    (w.Passed kind -> calls window ≤ w.rank kind) ∧
      (w.selector.Bounded -> 0 < w.selector.weights kind.index ->
        calls window ≤ 1 + (poolCount + ∑ i, w.selector.weights i)) := by
  induction hrun with
  | nil w => exact ⟨fun _ => Nat.zero_le _, fun _ _ => Nat.zero_le _⟩
  | @cons w u v a rest hallowed hnext _ ih =>
    cases hnext
    have ih := ih fun b hb => hoffers b (mem_cons_of_mem a hb)
    have hfirst : a.Offers kind := hoffers a mem_cons_self
    cases a with
    | select offer =>
      rcases not_or.mp hskipped with ⟨hselected, hlater⟩
      have hcalls := (ih hlater).left
      rw [calls_select]
      constructor
      · intro hpassed
        have hlower := (rank_select hpassed.weight hfirst hallowed.left hselected).right
          hpassed.used
        exact Nat.succ_le_of_lt (lt_of_le_of_lt (hcalls
          (passed_select hpassed.weight hfirst hallowed.left hselected)) hlower)
      · intro hw hpositive
        have hcalls := hcalls (passed_select hpositive hfirst hallowed.left hselected)
        have hrank := (rank_select hpositive hfirst hallowed.left hselected).left
        have hothers := others_le hw kind.index
        omega
    | refund k count =>
      rcases ih hskipped with ⟨hrank, hbounded⟩
      refine ⟨fun hpassed => ?_, fun hw => hbounded (after_bounded hw hallowed.right)⟩
      have hused := used_refund hallowed.left
      have hless : count < w.used := by
        cases hallowed.right with
        | inl hzero =>
          rw [hzero]
          exact hpassed.used
        | inr h => exact h.left
      refine le_trans (hrank ⟨hpassed.weight, by omega, ?_⟩)
        (rank_refund hallowed.left hpassed.none)
      show update w.selected k (w.selected k - count) kind = 0
      rw [update_apply]
      split
      · rename_i hk
        rw [← hk, hpassed.none, Nat.zero_sub]
      · exact hpassed.none

end Windows

/-!
## No starvation

For positive weights there is a bound that depends on nothing else.
-/

theorem selected_within (weights : Fin poolCount -> Nat) (hpositive : forall i, 0 < weights i) :
    exists bound, SelectedWithin (fun w a => Lawful w a ∧ Spends w a) weights bound := by
  refine ⟨2 + (poolCount + ∑ i, weights i), ?_⟩
  intro before window u v kind hbefore hwindow hoffers hcalls
  have hbounded : u.selector.Bounded ∧ u.selector.weights = weights := by
    refine hbefore.invariant (P := fun w => w.selector.Bounded ∧ w.selector.weights = weights) ?_ ?_
    · intro w a w' hw hallowed hnext
      cases hnext
      exact ⟨after_bounded hw.left hallowed.right, (after_weights w a).trans hw.right⟩
    · exact ⟨fun i => Nat.zero_le _, rfl⟩
  by_contra hskipped
  have hle := (calls_le hwindow hoffers hskipped).right hbounded.left
    (hbounded.right ▸ hpositive kind.index)
  rw [hbounded.right] at hle
  omega

/-! Worlds are compared by their values. -/

theorem World.eq_iff (w v : World) : (w.selector.cursor = v.selector.cursor ∧
      (forall i, w.selector.deficits i = v.selector.deficits i) ∧
      (forall i, w.selector.weights i = v.selector.weights i) ∧
      forall kind, w.selected kind = v.selected kind) ↔ w = v := by
  constructor
  · rcases w with ⟨⟨_, _, _⟩, _⟩
    rcases v with ⟨⟨_, _, _⟩, _⟩
    rintro ⟨rfl, hdeficits, hweights, hselected⟩
    cases funext hdeficits
    cases funext hweights
    cases funext hselected
    rfl
  · rintro rfl
    exact ⟨rfl, fun _ => rfl, fun _ => rfl, fun _ => rfl⟩

instance : DecidableEq World := fun w v => decidable_of_iff _ (World.eq_iff w v)

namespace Sample

/-- An offer to the pools of alarms and Queues. -/
def offer (permits : Nat) : Offer := ⟨fun i => decide (i.val < 2), fun _ => permits, permits⟩

/-- The claim for the alarms comes back empty, and the next one does not. -/
def shortClaim : List Action := [.select (offer 2), .refund .alarm 1, .select (offer 1)]

def refunded : World where
  selector := ⟨1, fun _ => 0, fun _ => 1⟩
  selected := fun kind => if kind = .alarm then 1 else 0

end Sample

open Sample in
theorem selected_within_one : exists bound,
    SelectedWithin (fun w a => Lawful w a ∧ Spends w a) (fun _ => 1) bound ∧
    Run World.next (fun w a => Lawful w a ∧ Spends w a) (World.initial fun _ => 1)
      shortClaim refunded ∧
    SelectedIn .queue refunded (replicate bound shortClaim).flatten := by
  rcases selected_within (fun _ => 1) fun _ => Nat.one_pos with ⟨bound, hbound⟩
  have hbefore : Run World.next (fun w a => Lawful w a ∧ Spends w a) (World.initial fun _ => 1)
      shortClaim refunded := run_of_execute (by decide +kernel)
  have hcycle : Run World.next (fun w a => Lawful w a ∧ Spends w a) refunded shortClaim refunded :=
    run_of_execute (by decide +kernel)
  refine ⟨bound, hbound, hbefore, hbound _ _ _ _ .queue hbefore (hcycle.replicate bound) ?_ ?_⟩
  · intro a ha
    rcases List.mem_flatten.mp ha with ⟨l, hl, hmem⟩
    rw [List.eq_of_mem_replicate hl] at hmem
    rcases hmem with _ | ⟨_, _ | ⟨_, _ | ⟨_, hnone⟩⟩⟩
    · rfl
    · trivial
    · rfl
    · cases hnone
  · rw [calls_replicate]
    exact Nat.le_mul_of_pos_right bound (by decide)

/-! ## Refunds of everything starve a pool -/

namespace Sample

def emptyClaim : List Action := [.select (offer 1), .refund .alarm 1]

def waiting : World where
  selector := ⟨1, fun i => if i = 0 then 1 else 0, fun _ => 1⟩
  selected := fun _ => 0

theorem waiting_after :
    (waiting.after (.select (offer 1))).after (.refund .alarm 1) = waiting := by
  decide +kernel

theorem waiting_skipped (n : Nat) :
    ¬ SelectedIn .queue waiting (replicate n emptyClaim).flatten := by
  induction n with
  | zero => exact fun h => h
  | succ n ih =>
    intro hselected
    cases hselected with
    | inl hnow => exact absurd hnow (by decide +kernel)
    | inr hlater =>
      have hlater' : SelectedIn .queue
          ((waiting.after (.select (offer 1))).after (.refund .alarm 1))
          (replicate n emptyClaim).flatten := hlater
      rw [waiting_after] at hlater'
      exact ih hlater'

end Sample

open Sample in
theorem refunds_starve : ¬ exists bound, SelectedWithin Lawful (fun _ => 1) bound := by
  rintro ⟨bound, hbound⟩
  have hreached : Run World.next Lawful (World.initial fun _ => 1)
      (emptyClaim ++ .select (offer 1) :: emptyClaim) waiting := run_of_execute (by decide +kernel)
  have hcycle : Run World.next Lawful waiting emptyClaim waiting :=
    run_of_execute (by decide +kernel)
  refine waiting_skipped bound
    (hbound _ _ _ _ .queue hreached (hcycle.replicate bound) ?_ ?_)
  · intro a ha
    rcases List.mem_flatten.mp ha with ⟨l, hl, hmem⟩
    rw [List.eq_of_mem_replicate hl] at hmem
    rcases hmem with _ | ⟨_, _ | ⟨_, hnone⟩⟩
    · rfl
    · trivial
    · cases hnone
  · rw [calls_replicate]
    exact Nat.le_mul_of_pos_right bound (by decide)

end Scheduler
end OpenCompute
