import OpenCompute.Scheduler.Starvation

/-!
# What a pool is charged

Every choice costs the chosen pool one of its deficit.  Pools that are always
runnable are replenished together, so that each of them gets its share of any
number of choices.  A dispatch cycle gives back what a claim did not find, but
neither what exceeds the claim batch nor what a failed claim was charged.
-/

namespace OpenCompute
namespace Scheduler

open Function List Finset

/-! ## Deficits over a call -/

section Charges

variable {s : FairSelector} {o : Offer} {i : Fin poolCount}

/-- A replenishment gives the pool its weight. -/
def FairSelector.replenishes (s : FairSelector) (o : Offer) (i : Fin poolCount) : Bool :=
  (s.nextWithDeficit o).isNone && o.runnable i

/-- How often the loop of `select` replenishes a pool. -/
def FairSelector.replenished (s : FairSelector) (o : Offer) (i : Fin poolCount) : Nat -> Nat
  | 0 => 0
  | permits + 1 =>
    if o.hasRunnable then
      (s.replenishes o i).toNat +
        match (s.prepare o).nextWithDeficit o with
        | none => 0
        | some j => replenished ((s.prepare o).serve j) (o.use j) i permits
    else
      0

theorem prepare_deficit (hfits : s.weights i ≤ u64Max) :
    (s.prepare o).deficits i = s.deficits i + (s.replenishes o i).toNat * s.weights i ∧
      (s.replenishes o i = true -> s.deficits i = 0) := by
  unfold FairSelector.prepare FairSelector.replenishes
  cases hnext : s.nextWithDeficit o with
  | some j => simp
  | none =>
    cases hrunnable : o.runnable i with
    | false => simp [FairSelector.replenish, hrunnable]
    | true =>
      have hzero : s.deficits i = 0 :=
        Nat.eq_zero_of_not_pos fun hpos => nextWithDeficit_eq_none hnext i ⟨hrunnable, hpos⟩
      simp [FairSelector.replenish, hrunnable, hzero, saturatingAdd, hfits]

theorem update_pred {f : Fin poolCount -> Nat} {j : Fin poolCount} (hpositive : 0 < f j)
    (i : Fin poolCount) : update f j (f j - 1) i + (if j = i then 1 else 0) = f i := by
  rw [update_apply]
  by_cases h : i = j
  · rw [if_pos h, if_pos h.symm, h]
    omega
  · rw [if_neg h, if_neg (Ne.symm h), Nat.add_zero]

theorem count_all (l : List SchedulerKind) (j i : Fin poolCount) :
    (SchedulerKind.all j :: l).count (.all i) = l.count (.all i) + if j = i then 1 else 0 := by
  rw [count_cons]
  simp [SchedulerKind.all_eq_iff]

theorem selectLoop_deficit (hfits : s.weights i ≤ u64Max) (permits : Nat) :
    (s.selectLoop o permits).1.deficits i + (s.selectLoop o permits).2.count (.all i) =
        s.deficits i + s.replenished o i permits * s.weights i ∧
      (s.replenished o i permits = 0 ∨
        (s.selectLoop o permits).1.deficits i ≤ s.weights i) := by
  induction permits generalizing s o with
  | zero => simp [FairSelector.selectLoop, FairSelector.replenished]
  | succ permits ih =>
    unfold FairSelector.selectLoop FairSelector.replenished
    split
    · rcases prepare_deficit (o := o) hfits with ⟨hprepare, hzero⟩
      cases hnext : (s.prepare o).nextWithDeficit o with
      | none =>
        cases hgiven : s.replenishes o i with
        | false => simp [hprepare, hgiven]
        | true => simp [hprepare, hgiven, hzero hgiven]
      | some j =>
        have hserve : ((s.prepare o).serve j).deficits i + _ = _ :=
          update_pred (nextWithDeficit_eq_some hnext).left.right i
        have hweights : ((s.prepare o).serve j).weights = s.weights := prepare_weights s o
        have hrest := ih (s := (s.prepare o).serve j) (o := o.use j) (hweights ▸ hfits)
        rw [hweights] at hrest
        rw [count_all, Nat.add_mul]
        cases hgiven : s.replenishes o i with
        | false =>
          rw [hgiven] at hprepare
          simp only [Bool.toNat_false, Nat.zero_mul] at hprepare ⊢
          omega
        | true =>
          rw [hgiven] at hprepare
          have hempty := hzero hgiven
          simp only [Bool.toNat_true, Nat.one_mul] at hprepare ⊢
          rcases hrest with ⟨hcount, hnever | _⟩
          · simp only [hnever, Nat.zero_mul] at hcount ⊢
            omega
          · omega
    · simp

end Charges

/-!
## The dispatch cycle

A cycle claims for each pool what was selected, up to the size of its claim
batch, and refunds what the claim did not find.  A failed claim refunds nothing.
-/

section Cycle

variable {w : World} {selected : List SchedulerKind} {claimBatches : Fin poolCount -> Nat}
  {claimed : SchedulerKind -> Option Nat}

def wanted (selected : List SchedulerKind) (claimBatches : Fin poolCount -> Nat)
    (kind : SchedulerKind) : Nat :=
  min (selected.count kind) (claimBatches kind.index)

def refundOf (selected : List SchedulerKind) (claimBatches : Fin poolCount -> Nat)
    (claimed : SchedulerKind -> Option Nat) (kind : SchedulerKind) : Option Action :=
  if 0 < wanted selected claimBatches kind then
    (claimed kind).map fun found => .refund kind (wanted selected claimBatches kind - found)
  else
    none

def dispatchSelected (selected : List SchedulerKind) (claimBatches : Fin poolCount -> Nat)
    (claimed : SchedulerKind -> Option Nat) : List Action :=
  [SchedulerKind.alarm, .queue, .cron, .workflow].filterMap
    (refundOf selected claimBatches claimed)

theorem refundOf_eq_some {kind : SchedulerKind} {a : Action}
    (hrefund : refundOf selected claimBatches claimed kind = some a) :
    exists count, a = .refund kind count := by
  unfold refundOf at hrefund
  split at hrefund
  · rcases Option.map_eq_some_iff.mp hrefund with ⟨_, _, rfl⟩
    exact ⟨_, rfl⟩
  · cases hrefund

def dispatched (selected : List SchedulerKind) (claimBatches : Fin poolCount -> Nat)
    (claimed : SchedulerKind -> Option Nat) (kind : SchedulerKind) : Nat :=
  if 0 < wanted selected claimBatches kind then (claimed kind).getD 0 else 0

def Action.refunded : Action -> Nat
  | .select _ => 0
  | .refund _ count => count

def unused (selected : List SchedulerKind) (claimBatches : Fin poolCount -> Nat)
    (claimed : SchedulerKind -> Option Nat) (kind : SchedulerKind) : Nat :=
  ((refundOf selected claimBatches claimed kind).map Action.refunded).getD 0

/-- The state after a call of `select` and the dispatch of what it selected. -/
def World.cycle (w : World) (offer : Offer) (claimBatches : Fin poolCount -> Nat)
    (claimed : SchedulerKind -> Option Nat) : World :=
  (dispatchSelected (w.selector.select offer).2 claimBatches claimed).foldl World.after
    (w.after (.select offer))

/-- The deficit charged to a pool: what it had and was given, less what it has left. -/
def World.charged (w : World) (offer : Offer) (claimBatches : Fin poolCount -> Nat)
    (claimed : SchedulerKind -> Option Nat) (kind : SchedulerKind) : Int :=
  w.selector.deficits kind.index +
    w.selector.replenished offer kind.index offer.globalPermits * w.selector.weights kind.index -
    (w.cycle offer claimBatches claimed).selector.deficits kind.index

theorem refunds_deficit_of_not_mem {kind : SchedulerKind} {kinds : List SchedulerKind}
    (hmem : ¬ kind ∈ kinds) :
    ((kinds.filterMap (refundOf selected claimBatches claimed)).foldl World.after
      w).selector.deficits kind.index = w.selector.deficits kind.index := by
  induction kinds generalizing w with
  | nil => rfl
  | cons k kinds ih =>
    rcases not_or.mp (mem_cons.not.mp hmem) with ⟨hk, hrest⟩
    cases hrefund : refundOf selected claimBatches claimed k with
    | none => rw [filterMap_cons_none hrefund, ih hrest]
    | some a =>
      rcases refundOf_eq_some hrefund with ⟨_, rfl⟩
      rw [filterMap_cons_some hrefund, foldl_cons, ih hrest]
      refine refund_deficit_of_ne fun h => hk ?_
      rw [← SchedulerKind.all_index kind, h, SchedulerKind.all_index]

theorem cycle_deficit {offer : Offer} {kind : SchedulerKind}
    (hfits : (w.selector.select offer).1.deficits kind.index +
      unused (w.selector.select offer).2 claimBatches claimed kind ≤ u64Max) :
    (w.cycle offer claimBatches claimed).selector.deficits kind.index =
      (w.selector.select offer).1.deficits kind.index +
        unused (w.selector.select offer).2 claimBatches claimed kind := by
  have hkinds : [SchedulerKind.alarm, .queue, .cron, .workflow].Nodup := by decide
  rcases append_of_mem (show kind ∈ [SchedulerKind.alarm, .queue, .cron, .workflow] by
    cases kind <;> decide) with ⟨before, _, hsplit⟩
  rw [hsplit, nodup_middle, nodup_cons, mem_append, not_or] at hkinds
  unfold World.cycle dispatchSelected
  rw [hsplit, filterMap_append, foldl_append]
  have hbefore := @refunds_deficit_of_not_mem (w.after (.select offer)) (w.selector.select offer).2
    claimBatches claimed kind before hkinds.left.left
  cases hrefund : refundOf (w.selector.select offer).2 claimBatches claimed kind with
  | none =>
    rw [filterMap_cons_none hrefund, refunds_deficit_of_not_mem hkinds.left.right, hbefore,
      unused, hrefund]
    rfl
  | some a =>
    rcases refundOf_eq_some hrefund with ⟨count, rfl⟩
    rw [unused, hrefund] at hfits ⊢
    rw [filterMap_cons_some hrefund, foldl_cons,
      refunds_deficit_of_not_mem hkinds.left.right]
    show update _ kind.index _ kind.index = _
    rw [update_self, hbefore]
    change (w.selector.select offer).1.deficits kind.index + count ≤ u64Max at hfits
    change saturatingAdd ((w.selector.select offer).1.deficits kind.index) _ = _ + count
    unfold saturatingAdd
    omega

def World.Fits (w : World) (claimBatches : Fin poolCount -> Nat) : Prop :=
  forall i, w.selector.deficits i ≤ u64Max ∧ w.selector.weights i < 2 ^ 32 ∧
    claimBatches i < 2 ^ 32

theorem charged_eq {offer : Offer} {kind : SchedulerKind} (hw : w.Fits claimBatches) :
    w.charged offer claimBatches claimed kind = (w.selector.select offer).2.count kind -
      unused (w.selector.select offer).2 claimBatches claimed kind := by
  rcases hw kind.index with ⟨_, _, hbatch⟩
  have hunused : unused (w.selector.select offer).2 claimBatches claimed kind ≤
      wanted (w.selector.select offer).2 claimBatches kind := by
    unfold unused refundOf
    split
    · cases claimed kind with
      | none => exact Nat.zero_le _
      | some found => exact Nat.sub_le _ _
    · exact Nat.zero_le _
  have hfits : w.selector.weights kind.index ≤ u64Max := by unfold u64Max; omega
  rcases selectLoop_deficit (o := offer) hfits offer.globalPermits with ⟨hcharge, hleft⟩
  rw [SchedulerKind.all_index] at hcharge
  have hwanted : wanted (w.selector.select offer).2 claimBatches kind ≤
      (w.selector.select offer).2.count kind ∧
      wanted (w.selector.select offer).2 claimBatches kind < 2 ^ 32 :=
    ⟨Nat.min_le_left _ _, lt_of_le_of_lt (Nat.min_le_right _ _) hbatch⟩
  have hcycle := @cycle_deficit w claimBatches claimed offer kind (by
    unfold FairSelector.select at hunused hwanted ⊢
    rcases hleft with hnever | hleft
    · rw [hnever] at hcharge
      omega
    · unfold u64Max
      omega)
  unfold World.charged
  unfold FairSelector.select at *
  omega

end Cycle

/-- A pool is charged what is dispatched when its choices fit the claim and the claim succeeds. -/
theorem charged_eq_dispatched_iff (w : World) (offer : Offer) (claimBatches : Fin poolCount -> Nat)
    (claimed : SchedulerKind -> Option Nat) (kind : SchedulerKind) (hw : w.Fits claimBatches)
    (hclaimed : forall found, claimed kind = some found ->
      found ≤ wanted (w.selector.select offer).2 claimBatches kind) :
    w.charged offer claimBatches claimed kind =
        dispatched (w.selector.select offer).2 claimBatches claimed kind ↔
      (w.selector.select offer).2.count kind = 0 ∨
        (w.selector.select offer).2.count kind ≤ claimBatches kind.index ∧
          claimed kind ≠ none := by
  rw [charged_eq hw]
  have hwanted : wanted (w.selector.select offer).2 claimBatches kind =
    min ((w.selector.select offer).2.count kind) (claimBatches kind.index) := rfl
  unfold unused refundOf dispatched
  split
  · cases hfound : claimed kind with
    | none => simp
    | some found =>
      have hle := hclaimed found hfound
      simp only [Option.map_some, Action.refunded, Option.getD_some, ne_eq, reduceCtorEq,
        not_false_eq_true, and_true]
      omega
  · simp only [Option.map_none, Option.getD_none, Nat.cast_zero, sub_zero, Int.natCast_eq_zero,
      ne_eq, iff_self_or, and_imp]
    omega

namespace Sample

def alarms : Offer := ⟨fun i => decide (i = 0), fun _ => 2, 2⟩

def fresh : World := World.initial fun _ => 1

theorem fresh_fits : fresh.Fits fun _ => 2 :=
  fun _ => ⟨Nat.zero_le _, Nat.one_lt_two_pow (by decide), show 2 < 2 ^ 32 by decide⟩

end Sample

open Sample in
theorem charged_eq_dispatched_alarms : fresh.charged alarms (fun _ => 2) (fun _ => some 1) .alarm =
      dispatched (fresh.selector.select alarms).2 (fun _ => 2) (fun _ => some 1) .alarm := by
  refine (charged_eq_dispatched_iff fresh alarms _ _ .alarm fresh_fits ?_).mpr
    (Or.inr (by decide +kernel))
  rintro found ⟨⟩
  decide +kernel

open Sample in
theorem charge_lost : fresh.charged alarms (fun _ => 1) (fun _ => some 1) .alarm = 2 ∧
      dispatched (fresh.selector.select alarms).2 (fun _ => 1) (fun _ => some 1) .alarm = 1 ∧
      fresh.charged alarms (fun _ => 2) (fun _ => none) .alarm = 2 ∧
      dispatched (fresh.selector.select alarms).2 (fun _ => 2) (fun _ => none) .alarm = 0 := by
  decide +kernel

/-! ## The share of a pool -/

/-- Calls of `select`, and all that they choose. -/
def FairSelector.selectAll (s : FairSelector) : List Offer -> FairSelector × List SchedulerKind
  | [] => (s, [])
  | o :: rest =>
    (((s.select o).1.selectAll rest).1, (s.select o).2 ++ ((s.select o).1.selectAll rest).2)

def Offer.permits (o : Offer) : Nat := ∑ i, if o.ready i then o.poolPermits i else 0

section Share

variable {s : FairSelector} {o : Offer} {R : Finset (Fin poolCount)} {count : Fin poolCount -> Nat}

theorem use_permits {i : Fin poolCount} (hrunnable : o.runnable i = true) (j : Fin poolCount) :
    (o.use i).poolPermits j + (if i = j then 1 else 0) = o.poolPermits j :=
  update_pred (of_decide_eq_true ((Bool.and_eq_true _ _).mp hrunnable).right) j

/-- Exactly the pools of a set are runnable, for so many choices. -/
def Offer.Serves (o : Offer) (R : Finset (Fin poolCount)) (permits : Nat) : Prop :=
  forall i, if i ∈ R then o.ready i = true ∧ permits ≤ o.poolPermits i else o.runnable i = false

theorem Offer.Serves.runnable_iff {permits : Nat} (ho : o.Serves R (permits + 1))
    (i : Fin poolCount) : o.runnable i = true ↔ i ∈ R := by
  have hi := ho i
  split at hi
  · refine iff_of_true ?_ ‹_›
    rw [Offer.runnable, hi.left]
    exact decide_eq_true (Nat.lt_of_lt_of_le (Nat.succ_pos _) hi.right)
  · exact iff_of_false (by rw [hi]; exact Bool.false_ne_true) ‹_›

theorem Offer.Serves.use {permits : Nat} {j : Fin poolCount} (ho : o.Serves R (permits + 1))
    (hj : j ∈ R) : (o.use j).Serves R permits := by
  intro i
  have hi := ho i
  split at hi
  · rw [if_pos ‹_›]
    refine ⟨hi.left, ?_⟩
    have huse := use_permits ((ho.runnable_iff j).mpr hj) i
    split at huse <;> omega
  · rw [if_neg ‹_›, Offer.runnable_use fun h : i = j => ‹¬ i ∈ R› (h ▸ hj)]
    exact hi

/-- Each pool was given its weight so many times, and one of them has not got all of it left. -/
structure Shared (R : Finset (Fin poolCount)) (s : FairSelector) (count : Fin poolCount -> Nat)
    (rounds : Nat) : Prop where
  fits : forall i, s.weights i ≤ u64Max
  counts : forall i, i ∈ R -> count i + s.deficits i = rounds * s.weights i
  bounded : s.Bounded
  used : exists i, i ∈ R ∧ s.deficits i < s.weights i
  others : forall i, ¬ i ∈ R -> count i = 0

theorem Shared.choose {rounds : Nat} {i : Fin poolCount} (hs : Shared R s count rounds)
    (hrunnable : forall i, o.runnable i = true ↔ i ∈ R)
    (hnext : (s.prepare o).nextWithDeficit o = some i) :
    exists rounds', Shared R ((s.prepare o).serve i)
      (fun j => count j + if i = j then 1 else 0) rounds' := by
  have heligible := (nextWithDeficit_eq_some hnext).left
  have hserve : forall j, ((s.prepare o).serve i).deficits j + _ = _ := update_pred heligible.right
  have hweights : ((s.prepare o).serve i).weights = s.weights := prepare_weights s o
  refine ⟨rounds + ((s.nextWithDeficit o).isNone).toNat, hweights ▸ hs.fits, ?_,
    serve_bounded (prepare_bounded hs.bounded) i, ⟨i, (hrunnable i).mp heligible.left, ?_⟩, ?_⟩
  · intro j hj
    have hprepare := (prepare_deficit (o := o) (hs.fits j)).left
    have hcount := hs.counts j hj
    have hleft := hserve j
    unfold FairSelector.replenishes at hprepare
    rw [(hrunnable j).mpr hj, Bool.and_true] at hprepare
    rw [hweights, Nat.add_mul]
    omega
  · have hle := prepare_bounded (o := o) hs.bounded i
    have hleft := hserve i
    rw [if_pos rfl] at hleft
    show _ < (s.prepare o).weights i
    omega
  · intro j hj
    have hne : i ≠ j := fun h => hj (h ▸ (hrunnable i).mp heligible.left)
    simp [hne, hs.others j hj]

theorem Shared.selectLoop {rounds : Nat} (hs : Shared R s count rounds)
    (hpositive : forall i, 0 < s.weights i) {permits : Nat} (ho : o.Serves R permits) :
    exists rounds', Shared R (s.selectLoop o permits).1
      (fun j => count j + (s.selectLoop o permits).2.count (.all j)) rounds' := by
  induction permits generalizing s o count rounds with
  | zero => exact ⟨rounds, hs⟩
  | succ permits ih =>
    rcases hs.used with ⟨p, hp, _⟩
    rcases selectLoop_succ ((ho.runnable_iff p).mpr hp) (hpositive p) permits with
      ⟨i, hnext, hloop⟩
    rcases hs.choose ho.runnable_iff hnext with ⟨_, hchosen⟩
    have hi := (ho.runnable_iff i).mp (nextWithDeficit_eq_some hnext).left.left
    have hweights : ((s.prepare o).serve i).weights = s.weights := prepare_weights s o
    have hrest := ih hchosen (hweights ▸ hpositive) (ho.use hi)
    simpa only [hloop, count_all, Nat.add_assoc, Nat.add_comm (ite _ _ _)] using hrest

theorem Shared.selectAll {rounds : Nat} (hs : Shared R s count rounds)
    (hpositive : forall i, 0 < s.weights i) {offers : List Offer}
    (hoffers : forall o, o ∈ offers -> o.Serves R o.globalPermits) :
    exists rounds', Shared R (s.selectAll offers).1
      (fun j => count j + (s.selectAll offers).2.count (.all j)) rounds' := by
  induction offers generalizing s count rounds with
  | nil => exact ⟨rounds, hs⟩
  | cons o rest ih =>
    rcases hs.selectLoop hpositive (hoffers o mem_cons_self) with ⟨_, hcall⟩
    have hrest := ih hcall (selectLoop_weights s o _ ▸ hpositive) fun o' ho' =>
      hoffers o' (mem_cons_of_mem o ho')
    simpa only [FairSelector.selectAll, FairSelector.select, count_append, Nat.add_assoc]
      using hrest

theorem Shared.between {rounds n : Nat} (hs : Shared R s count rounds) (hn : ∑ i, count i = n)
    {i : Fin poolCount} (hi : i ∈ R) :
    n / (∑ j ∈ R, s.weights j) * s.weights i ≤ count i ∧
      count i ≤ (n + (∑ j ∈ R, s.weights j) - 1) / (∑ j ∈ R, s.weights j) * s.weights i := by
  rcases hs.used with ⟨p, hp, hless⟩
  have hleft : ∑ j ∈ R, s.deficits j < ∑ j ∈ R, s.weights j :=
    sum_lt_sum (fun j _ => hs.bounded j) ⟨p, hp, hless⟩
  have htotal : n + ∑ j ∈ R, s.deficits j = rounds * ∑ j ∈ R, s.weights j := by
    rw [← hn, ← sum_subset (subset_univ R) fun j _ hj => hs.others j hj,
      ← sum_add_distrib, sum_congr rfl hs.counts, mul_sum]
  have hcount := hs.counts i hi
  have hbound := hs.bounded i
  have hown : s.deficits i ≤ ∑ j ∈ R, s.deficits j :=
    single_le_sum (fun _ _ => Nat.zero_le _) hi
  generalize ∑ j ∈ R, s.deficits j = left at *
  generalize ∑ j ∈ R, s.weights j = total at *
  have hup : (n + total - 1) / total = rounds :=
    Nat.div_eq_of_lt_le (by omega) (by rw [Nat.add_mul]; omega)
  rw [hup]
  refine ⟨?_, by omega⟩
  cases Nat.eq_zero_or_pos left with
  | inl hnone =>
    have hdown : n / total ≤ rounds := Nat.div_le_of_le_mul (by rw [Nat.mul_comm]; omega)
    have hle := Nat.mul_le_mul_right (s.weights i) hdown
    omega
  | inr hsome =>
    have hdown : n / total < rounds := (Nat.div_lt_iff_lt_mul (by omega)).mpr (by omega)
    have hle := Nat.mul_le_mul_right (s.weights i) hdown
    rw [Nat.succ_mul] at hle
    omega

theorem selectLoop_length (hpositive : forall i, 0 < s.weights i) (permits : Nat) :
    (s.selectLoop o permits).2.length = min permits o.permits := by
  induction permits generalizing s o with
  | zero => simp [FairSelector.selectLoop]
  | succ permits ih =>
    by_cases hrunnable : exists p, o.runnable p = true
    · rcases hrunnable with ⟨p, hp⟩
      rcases selectLoop_succ hp (hpositive p) permits with ⟨i, hnext, hloop⟩
      have hi := (nextWithDeficit_eq_some hnext).left.left
      have huse : (o.use i).permits + 1 = o.permits := by
        have hready : o.ready i = true := ((Bool.and_eq_true _ _).mp hi).left
        have hterm : forall k, (if (o.use i).ready k then (o.use i).poolPermits k else 0) +
            (if i = k then 1 else 0) = if o.ready k then o.poolPermits k else 0 := by
          intro k
          rw [← use_permits hi k]
          by_cases hk : i = k
          · simp [Offer.use, ← hk, hready]
          · rw [if_neg hk]
            rfl
        unfold Offer.permits
        rw [← sum_congr rfl fun k _ => hterm k, sum_add_distrib, sum_ite_eq,
          if_pos (mem_univ i)]
      rw [hloop, length_cons, ih (prepare_weights s o ▸ hpositive)]
      omega
    · have hnone : o.permits = 0 := by
        simpa [Offer.permits, Offer.runnable] using hrunnable
      have hidle : o.hasRunnable = false := by
        simpa [Offer.hasRunnable] using hrunnable
      rw [hnone, FairSelector.selectLoop, hidle]
      rfl

theorem selectLoop_count_le (permits : Nat) (i : Fin poolCount) :
    (s.selectLoop o permits).2.count (.all i) ≤ o.poolPermits i := by
  induction permits generalizing s o with
  | zero => exact Nat.zero_le _
  | succ permits ih =>
    unfold FairSelector.selectLoop
    split
    · split
      · exact Nat.zero_le _
      · rename_i j hnext
        have huse := use_permits (nextWithDeficit_eq_some hnext).left.left i
        have hrest := ih (s := (s.prepare o).serve j) (o := o.use j)
        rw [count_all]
        omega
    · exact Nat.zero_le _

end Share

theorem selectAll_weights (s : FairSelector) (offers : List Offer) :
    (s.selectAll offers).1.weights = s.weights := by
  induction offers generalizing s with
  | nil => rfl
  | cons o rest ih => exact (ih (s.select o).1).trans (selectLoop_weights s o _)

theorem sum_count_all (l : List SchedulerKind) : ∑ i, l.count (.all i) = l.length := by
  rw [← sum_count l]
  exact Fintype.sum_bijective SchedulerKind.all (Function.bijective_iff_has_inverse.mpr
      ⟨SchedulerKind.index, SchedulerKind.index_all, SchedulerKind.all_index⟩) _ _ fun _ => rfl

theorem weighted_share {s : FairSelector} (hpositive : forall i, 0 < s.weights i)
    (hfits : forall i, s.weights i ≤ u64Max) :
    ((forall i, s.deficits i = 0) -> forall R offers,
      (forall o, o ∈ offers -> o.Serves R o.globalPermits) -> forall i, i ∈ R ->
        let n := (s.selectAll offers).2.length
        let total := ∑ j ∈ R, s.weights j
        n / total * s.weights i ≤ (s.selectAll offers).2.count (.all i) ∧
          (s.selectAll offers).2.count (.all i) ≤ (n + total - 1) / total * s.weights i) ∧
      forall o, (s.select o).2.length = min o.globalPermits o.permits ∧
        forall i, (s.select o).2.count (.all i) ≤ o.poolPermits i := by
  refine ⟨?_, fun o => ⟨selectLoop_length hpositive _, selectLoop_count_le _⟩⟩
  intro hzero R offers hoffers i hi n total
  have hstart : Shared R s (fun _ => 0) 0 :=
    ⟨hfits, by simp [hzero], fun j => by simp [hzero], ⟨i, hi, by simp [hzero, hpositive]⟩,
      fun _ _ => rfl⟩
  rcases hstart.selectAll hpositive hoffers with ⟨rounds, hshared⟩
  have hbetween := hshared.between (by simp only [Nat.zero_add, sum_count_all]; rfl) hi
  simpa only [selectAll_weights, Nat.zero_add] using hbetween

namespace Sample

/-- A choice of the alarms for three choices of the Queues. -/
def uneven : FairSelector := FairSelector.new fun i => if i = 1 then 3 else 1

end Sample

open Sample in
theorem weighted_share_uneven :
    (uneven.selectAll [offer 4, offer 4]).2.count .alarm = 2 ∧
      (uneven.selectAll [offer 4, offer 4]).2.count .queue = 6 ∧
      (uneven.select (offer 4)).2.length = 4 := by
  rcases weighted_share (s := uneven) (by decide +kernel) (by decide +kernel) with
    ⟨hshare, hcall⟩
  have hserves : forall o, o ∈ [offer 4, offer 4] -> o.Serves {0, 1} o.globalPermits := by
    unfold Offer.Serves
    decide +kernel
  have hboth := hshare (fun _ => rfl) {0, 1} _ hserves
  refine ⟨le_antisymm (le_trans (hboth 0 (by decide)).right (by decide +kernel))
    (le_trans (by decide +kernel) (hboth 0 (by decide)).left),
    le_antisymm (le_trans (hboth 1 (by decide)).right (by decide +kernel))
      (le_trans (by decide +kernel) (hboth 1 (by decide)).left),
    (hcall (offer 4)).left.trans (by decide +kernel)⟩

end Scheduler
end OpenCompute
