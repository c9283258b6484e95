import OpenCompute.Transition.Run

/-!
# The choice between the scheduler pools

The scheduler shares its permits between four pools by a weighted deficit round
robin.  A pool is served while it has a deficit left, one permit at a time and
in the order of the pools, and all runnable pools are replenished together once
none of them has a deficit.  Permits that a pool could not use are refunded.
-/

namespace OpenCompute
namespace Scheduler

open Function Finset

inductive SchedulerKind where
  | alarm
  | queue
  | cron
  | workflow
  deriving DecidableEq, Repr

abbrev poolCount : Nat := 4

instance : NeZero poolCount := ⟨by decide⟩

namespace SchedulerKind

def index : SchedulerKind -> Fin poolCount
  | alarm => 0
  | queue => 1
  | cron => 2
  | workflow => 3

def all : Fin poolCount -> SchedulerKind
  | 0 => alarm
  | 1 => queue
  | 2 => cron
  | 3 => workflow

@[simp]
theorem index_all (i : Fin poolCount) : (all i).index = i := by
  revert i
  decide

@[simp]
theorem all_index (kind : SchedulerKind) : all kind.index = kind := by
  cases kind <;> rfl

theorem all_eq_iff {i : Fin poolCount} {kind : SchedulerKind} : all i = kind ↔ i = kind.index := by
  constructor
  · intro h
    rw [← h, index_all]
  · intro h
    rw [h, all_index]

end SchedulerKind

def u64Max : Nat := 18446744073709551615

def saturatingAdd (a b : Nat) : Nat := min (a + b) u64Max

theorem saturatingAdd_le (a b : Nat) : saturatingAdd a b ≤ a + b := Nat.min_le_left _ _

structure FairSelector where
  cursor : Fin poolCount
  deficits : Fin poolCount -> Nat
  weights : Fin poolCount -> Nat

/-- What a call of `select` is given. -/
structure Offer where
  ready : Fin poolCount -> Bool
  poolPermits : Fin poolCount -> Nat
  globalPermits : Nat

namespace Offer

def runnable (o : Offer) (i : Fin poolCount) : Bool := o.ready i && decide (0 < o.poolPermits i)

def hasRunnable (o : Offer) : Bool := (List.finRange poolCount).any o.runnable

def use (o : Offer) (i : Fin poolCount) : Offer :=
  { o with poolPermits := Function.update o.poolPermits i (o.poolPermits i - 1) }

theorem runnable_use {o : Offer} {i j : Fin poolCount} (hne : j ≠ i) :
    (o.use i).runnable j = o.runnable j := by
  show (o.ready j && decide (0 < update o.poolPermits i (o.poolPermits i - 1) j)) = _
  rw [update_of_ne hne]
  rfl

end Offer

namespace FairSelector

def new (weights : Fin poolCount -> Nat) : FairSelector := ⟨0, fun _ => 0, weights⟩

def nextWithDeficit (s : FairSelector) (o : Offer) : Option (Fin poolCount) :=
  (Fin.find? fun offset =>
    o.runnable (s.cursor + offset) && decide (0 < s.deficits (s.cursor + offset))).map
    fun offset => s.cursor + offset

def replenish (s : FairSelector) (o : Offer) : FairSelector :=
  { s with deficits := fun i =>
      if o.runnable i then saturatingAdd (s.deficits i) (s.weights i) else s.deficits i }

def serve (s : FairSelector) (i : Fin poolCount) : FairSelector :=
  { s with
    cursor := i + 1
    deficits := Function.update s.deficits i (s.deficits i - 1) }

def prepare (s : FairSelector) (o : Offer) : FairSelector :=
  if (s.nextWithDeficit o).isNone then s.replenish o else s

/-- The loop of `select`, with the number of permits that are left. -/
def selectLoop (s : FairSelector) (o : Offer) : Nat -> FairSelector × List SchedulerKind
  | 0 => (s, [])
  | permits + 1 =>
    if o.hasRunnable then
      match (s.prepare o).nextWithDeficit o with
      | none => (s.prepare o, [])
      | some i =>
        let rest := selectLoop ((s.prepare o).serve i) (o.use i) permits
        (rest.1, SchedulerKind.all i :: rest.2)
    else
      (s, [])

def select (s : FairSelector) (o : Offer) : FairSelector × List SchedulerKind :=
  s.selectLoop o o.globalPermits

def refund (s : FairSelector) (kind : SchedulerKind) (count : Nat) : FairSelector :=
  { s with
    deficits := Function.update s.deficits kind.index
      (saturatingAdd (s.deficits kind.index) (min count u64Max)) }

end FairSelector

/-! ## One choice -/

section Choice

variable {s : FairSelector} {o : Offer} {i p : Fin poolCount}

/-- How far the cursor is from a pool. -/
def FairSelector.distance (s : FairSelector) (p : Fin poolCount) : Nat := (p - s.cursor).val

def FairSelector.eligible (s : FairSelector) (o : Offer) (i : Fin poolCount) : Prop :=
  o.runnable i = true ∧ 0 < s.deficits i

theorem nextWithDeficit_eq_some (hnext : s.nextWithDeficit o = some i) :
    s.eligible o i ∧ forall p, s.eligible o p -> s.distance i ≤ s.distance p := by
  rcases Option.map_eq_some_iff.mp hnext with ⟨_, hfind, rfl⟩
  rcases Fin.find?_eq_some_iff.mp hfind with ⟨hoffset, hfirst⟩
  have heligible := (Bool.and_eq_true _ _).mp hoffset
  refine ⟨⟨heligible.left, of_decide_eq_true heligible.right⟩, ?_⟩
  intro p hp
  unfold FairSelector.distance
  rw [add_sub_cancel_left]
  refine not_lt.mp fun hlt => ?_
  have hskipped := hfirst (p - s.cursor) hlt
  rw [add_sub_cancel, hp.left, decide_eq_true hp.right] at hskipped
  cases hskipped

theorem nextWithDeficit_eq_none (hnext : s.nextWithDeficit o = none) (p : Fin poolCount) :
    ¬ s.eligible o p := by
  rintro ⟨hrunnable, hpositive⟩
  have hskipped := Fin.find?_eq_none_iff.mp (Option.map_eq_none_iff.mp hnext) (p - s.cursor)
  rw [add_sub_cancel, hrunnable, decide_eq_true hpositive] at hskipped
  cases hskipped

theorem distance_serve (hnear : s.distance i ≤ s.distance p) (hne : i ≠ p) :
    (s.serve i).distance p < s.distance p := by
  have hcyclic : forall cursor p i : Fin poolCount,
      (i - cursor).val ≤ (p - cursor).val -> i ≠ p -> (p - (i + 1)).val < (p - cursor).val := by
    decide
  exact hcyclic s.cursor p i hnear hne

theorem prepare_cases (s : FairSelector) (o : Offer) :
    ((exists i, s.eligible o i) ∧ s.prepare o = s) ∨
      ((forall i, ¬ s.eligible o i) ∧ s.prepare o = s.replenish o) := by
  unfold FairSelector.prepare
  cases hnext : s.nextWithDeficit o with
  | none => exact .inr ⟨nextWithDeficit_eq_none hnext, rfl⟩
  | some i => exact .inl ⟨⟨i, (nextWithDeficit_eq_some hnext).left⟩, rfl⟩

theorem replenish_pos (hrunnable : o.runnable i = true) (hpositive : 0 < s.weights i) :
    0 < (s.replenish o).deficits i := by
  show 0 < if o.runnable i then saturatingAdd (s.deficits i) (s.weights i) else s.deficits i
  rw [if_pos hrunnable]
  unfold saturatingAdd u64Max
  omega

theorem prepare_weights (s : FairSelector) (o : Offer) : (s.prepare o).weights = s.weights := by
  rcases prepare_cases s o with ⟨_, h⟩ | ⟨_, h⟩
  · rw [h]
  · rw [h]
    rfl

theorem selectLoop_succ (hrunnable : o.runnable p = true) (hpositive : 0 < s.weights p)
    (permits : Nat) :
    exists i, (s.prepare o).nextWithDeficit o = some i ∧ s.selectLoop o (permits + 1) =
        ((((s.prepare o).serve i).selectLoop (o.use i) permits).1,
          SchedulerKind.all i :: (((s.prepare o).serve i).selectLoop (o.use i) permits).2) := by
  have hsome : o.hasRunnable = true := List.any_eq_true.mpr ⟨p, List.mem_finRange p, hrunnable⟩
  cases hnext : (s.prepare o).nextWithDeficit o with
  | some i =>
    refine ⟨i, rfl, ?_⟩
    rw [FairSelector.selectLoop, if_pos hsome, hnext]
  | none =>
    have hnone := nextWithDeficit_eq_none hnext
    rcases prepare_cases s o with ⟨⟨i, hi⟩, h⟩ | ⟨_, h⟩
    · rw [h] at hnone
      exact absurd hi (hnone i)
    · rw [h] at hnone
      exact absurd ⟨hrunnable, replenish_pos hrunnable hpositive⟩ (hnone p)

end Choice

/-! ## Deficits -/

section Deficits

variable {s : FairSelector} {o : Offer}

def FairSelector.Bounded (s : FairSelector) : Prop := forall i, s.deficits i ≤ s.weights i

theorem prepare_bounded (hs : s.Bounded) : (s.prepare o).Bounded := by
  rcases prepare_cases s o with ⟨_, h⟩ | ⟨hnone, h⟩
  · rw [h]
    exact hs
  · rw [h]
    intro i
    show (if o.runnable i then saturatingAdd (s.deficits i) (s.weights i) else s.deficits i) ≤
      s.weights i
    split
    · rename_i hrunnable
      have hzero : s.deficits i = 0 :=
        Nat.eq_zero_of_not_pos fun hpositive => hnone i ⟨hrunnable, hpositive⟩
      have hle := saturatingAdd_le (s.deficits i) (s.weights i)
      omega
    · exact hs i

theorem serve_bounded (hs : s.Bounded) (i : Fin poolCount) : (s.serve i).Bounded := by
  intro j
  show update s.deficits i (s.deficits i - 1) j ≤ s.weights j
  rw [update_apply]
  split
  · rename_i hj
    rw [hj]
    exact le_trans (Nat.sub_le _ _) (hs i)
  · exact hs j

theorem selectLoop_weights (s : FairSelector) (o : Offer) (permits : Nat) :
    (s.selectLoop o permits).1.weights = s.weights := by
  induction permits generalizing s o with
  | zero => rfl
  | succ permits ih =>
    unfold FairSelector.selectLoop
    split
    · split
      · exact prepare_weights s o
      · rename_i i _
        exact (ih ((s.prepare o).serve i) (o.use i)).trans (prepare_weights s o)
    · rfl

theorem selectLoop_bounded (hs : s.Bounded) (o : Offer) (permits : Nat) :
    (s.selectLoop o permits).1.Bounded := by
  induction permits generalizing s o with
  | zero => exact hs
  | succ permits ih =>
    unfold FairSelector.selectLoop
    split
    · split
      · exact prepare_bounded hs
      · rename_i i _
        exact ih (serve_bounded (prepare_bounded hs) i) (o.use i)
    · exact hs

def FairSelector.others (s : FairSelector) (p : Fin poolCount) : Nat :=
  ∑ i ∈ Finset.univ.erase p, s.deficits i

theorem others_serve {i p : Fin poolCount} (hne : i ≠ p) (hpositive : 0 < s.deficits i) :
    (s.serve i).others p + 1 = s.others p := by
  have hmem : i ∈ univ.erase p := mem_erase.mpr ⟨hne, mem_univ i⟩
  unfold FairSelector.others FairSelector.serve
  rw [sum_update_of_mem hmem, ← sum_erase_add _ _ hmem,
    sdiff_singleton_eq_erase]
  omega

theorem others_le (hs : s.Bounded) (p : Fin poolCount) : s.others p ≤ ∑ i, s.weights i :=
  le_trans (sum_le_sum fun i _ => hs i)
    (sum_le_sum_of_subset (erase_subset p univ))

end Deficits

/-! ## A pool that is passed over -/

section PassedOver

variable {s : FairSelector} {o : Offer} {kind : SchedulerKind}

section

variable (hrunnable : o.runnable kind.index = true) (hpositive : 0 < s.weights kind.index)
include hrunnable hpositive

theorem selectLoop_skips {permits : Nat}
    (hskipped : ¬ kind ∈ (s.selectLoop o (permits + 1)).2) :
    exists i t, (s.prepare o).nextWithDeficit o = some i ∧ t = (s.prepare o).serve i ∧
      s.selectLoop o (permits + 1) = ((t.selectLoop (o.use i) permits).1,
        SchedulerKind.all i :: (t.selectLoop (o.use i) permits).2) ∧
      i ≠ kind.index ∧ (o.use i).runnable kind.index = true ∧
      t.deficits kind.index = (s.prepare o).deficits kind.index ∧
      0 < t.weights kind.index ∧ ¬ kind ∈ (t.selectLoop (o.use i) permits).2 := by
  rcases selectLoop_succ hrunnable hpositive permits with ⟨i, hnext, hloop⟩
  rw [hloop, List.mem_cons, not_or] at hskipped
  have hne : i ≠ kind.index := fun h => hskipped.left (SchedulerKind.all_eq_iff.mpr h).symm
  rw [← prepare_weights s o] at hpositive
  exact ⟨i, _, hnext, rfl, hloop, hne, (Offer.runnable_use hne.symm).trans hrunnable,
    update_of_ne hne.symm _ _, hpositive, hskipped.right⟩

theorem selectLoop_near (hdeficit : 0 < s.deficits kind.index) {permits : Nat}
    (hskipped : ¬ kind ∈ (s.selectLoop o permits).2) :
    0 < (s.selectLoop o permits).1.deficits kind.index ∧
      (s.selectLoop o permits).1.distance kind.index + permits ≤ s.distance kind.index := by
  induction permits generalizing s o with
  | zero => exact ⟨hdeficit, le_refl _⟩
  | succ permits ih =>
    have hprepare : s.prepare o = s := by
      rcases prepare_cases s o with ⟨_, h⟩ | ⟨hnone, _⟩
      · exact h
      · exact absurd ⟨hrunnable, hdeficit⟩ (hnone kind.index)
    rcases selectLoop_skips hrunnable hpositive hskipped with
      ⟨_, _, hnext, hserve, hloop, hne, hrunnable', hkept, hpositive', hrest⟩
    rw [hprepare] at hnext hserve hkept
    have hnear := (nextWithDeficit_eq_some hnext).right kind.index ⟨hrunnable, hdeficit⟩
    rcases ih hrunnable' hpositive' (hkept ▸ hdeficit) hrest with ⟨hleft, _⟩
    have hstep := distance_serve hnear hne
    rw [hloop]
    rw [← hserve] at hstep
    exact ⟨hleft, by dsimp only; omega⟩

theorem selectLoop_waits (hdeficit : s.deficits kind.index = 0) {permits : Nat}
    (hskipped : ¬ kind ∈ (s.selectLoop o permits).2) :
    0 < (s.selectLoop o permits).1.deficits kind.index ∨
      ((s.selectLoop o permits).1.deficits kind.index = 0 ∧
        (s.selectLoop o permits).1.others kind.index + permits = s.others kind.index ∧
        (s.selectLoop o permits).2.length = permits) := by
  induction permits generalizing s o with
  | zero => exact .inr ⟨hdeficit, rfl, rfl⟩
  | succ permits ih =>
    rcases selectLoop_skips hrunnable hpositive hskipped with
      ⟨_, t, hnext, hserve, hloop, hne, hrunnable', hkept, hpositive', hrest⟩
    rw [hloop]
    rcases prepare_cases s o with ⟨_, hprepare⟩ | ⟨_, hprepare⟩
    · rw [hprepare] at hnext hserve hkept
      have hstep := others_serve hne (nextWithDeficit_eq_some hnext).left.right
      rw [← hserve] at hstep
      cases ih hrunnable' hpositive' (hkept.trans hdeficit) hrest with
      | inl hreplenished => exact .inl hreplenished
      | inr hwaits =>
        rcases hwaits with ⟨hzero, _, hlength⟩
        exact .inr ⟨hzero, by dsimp only; omega, congrArg Nat.succ hlength⟩
    · have hreplenished : 0 < t.deficits kind.index := by
        rw [hkept, hprepare]
        exact replenish_pos hrunnable hpositive
      exact .inl (selectLoop_near hrunnable' hpositive' hreplenished hrest).left

end

end PassedOver

end Scheduler
end OpenCompute
