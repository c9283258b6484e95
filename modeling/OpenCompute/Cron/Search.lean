import OpenCompute.Cron.Schedule

/-!
# What the slot search finds

A slot is a UTC minute whose fields match.  Searching forward finds the least
slot from a minute on, and fails exactly when the budget has none.  Searching
backward finds the greatest slot of an interval, or that it has none.
-/

namespace OpenCompute
namespace Cron

open Transaction

variable {Pattern : Type} (croner : Croner Pattern)

namespace CronSchedule

def IsSlot (c : CronSchedule Pattern) (t : Int) : Prop :=
  (exists minute : Int, t = minute * minuteMs) ∧ c.matchesAt croner t = true

def InBudget (c : CronSchedule Pattern) (minute : Int) : Prop :=
  minute + searchMinutes ≤ i64Max ∧ exists t, c.IsSlot croner t ∧ minute * minuteMs ≤ t ∧
      t ≤ (minute + searchMinutes) * minuteMs ∧ t ≤ i64Max

structure IsLeastFrom (c : CronSchedule Pattern) (start t : Int) : Prop where
  slot : c.IsSlot croner t
  start_le : start ≤ t
  le_of_slot : forall u, c.IsSlot croner u -> start ≤ u -> t ≤ u

structure IsGreatestIn (c : CronSchedule Pattern) (start stop t : Int) : Prop where
  slot : c.IsSlot croner t
  start_le : start ≤ t
  le_stop : t ≤ stop
  slot_le : forall u, c.IsSlot croner u -> u ≤ stop -> u ≤ t

variable {croner} {c : CronSchedule Pattern} {a : Int} {result : Option Int}

theorem checkedMul_eq_some {b d : Int} :
    checkedMul a b = some d ↔ i64Min ≤ a * b ∧ a * b ≤ i64Max ∧ d = a * b := by
  unfold checkedMul
  split
  · rename_i hrange
    constructor
    · intro h
      cases h
      exact ⟨hrange.left, hrange.right, rfl⟩
    · rintro ⟨_, _, rfl⟩
      rfl
  · rename_i hrange
    constructor
    · intro h
      cases h
    · rintro ⟨hmin, hmax, _⟩
      exact absurd ⟨hmin, hmax⟩ hrange

/-! ## Forward -/

variable {t k notBefore next atOrBefore : Int} {fuel : Nat} {latest : Option Int}

theorem slot_eq_of_minute (ht : c.IsSlot croner t) (hle : k * minuteMs ≤ t)
    (hlt : t < (k + 1) * minuteMs) : t = k * minuteMs := by
  rcases ht.left with ⟨m, rfl⟩
  unfold minuteMs at hle hlt ⊢
  have hm : m = k := by omega
  rw [hm]

theorem searchFrom_sound (hsearch : c.searchFrom croner fuel k = .ok t) :
    c.IsLeastFrom croner (k * minuteMs) t ∧ t ≤ i64Max := by
  induction fuel generalizing k with
  | zero => cases hsearch
  | succ fuel ih =>
    simp only [searchFrom, ok_iff, ite_eq_iff, checkedMul_eq_some, checkedAdd_eq_some] at hsearch
    rcases hsearch with
      ⟨_, ⟨_, hmax, rfl⟩, ⟨hmatch, rfl⟩ | ⟨hmatch, _, ⟨_, _, rfl⟩, hrest⟩⟩
    · exact ⟨⟨⟨⟨k, rfl⟩, hmatch⟩, le_refl _, fun u _ hu => hu⟩, hmax⟩
    · rcases ih hrest with ⟨hleast, hle⟩
      refine ⟨⟨hleast.slot, ?_, ?_⟩, hle⟩
      · have hstart := hleast.start_le
        unfold minuteMs at hstart ⊢
        omega
      · intro u hu hku
        by_cases hnext : (k + 1) * minuteMs ≤ u
        · exact hleast.le_of_slot u hu hnext
        · have heq := slot_eq_of_minute hu hku (not_le.mp hnext)
          rw [heq] at hu
          exact absurd hu.right hmatch

theorem searchFrom_bounded (hsearch : c.searchFrom croner (fuel + 1) k = .ok t) :
    t ≤ (k + fuel) * minuteMs := by
  induction fuel generalizing k with
  | zero =>
    simp only [searchFrom, ok_iff, ite_eq_iff, checkedMul_eq_some] at hsearch
    rcases hsearch with ⟨_, ⟨_, _, rfl⟩, ⟨_, rfl⟩ | ⟨_, _, _, ⟨⟩⟩⟩
    simp
  | succ fuel ih =>
    rw [searchFrom] at hsearch
    simp only [ok_iff, ite_eq_iff, checkedMul_eq_some, checkedAdd_eq_some] at hsearch
    rcases hsearch with ⟨_, ⟨_, _, rfl⟩, ⟨_, rfl⟩ | ⟨_, _, ⟨_, _, rfl⟩, hrest⟩⟩
    · unfold minuteMs
      omega
    · have hle := ih hrest
      push_cast at hle ⊢
      rw [show k + ((fuel : Int) + 1) = k + 1 + (fuel : Int) by omega]
      exact hle

theorem searchFrom_total (hk : 0 ≤ k) (ht : c.IsSlot croner t) (hstart : k * minuteMs ≤ t)
    (hstop : t ≤ (k + fuel) * minuteMs) (hmax : t ≤ i64Max) :
    exists u, c.searchFrom croner (fuel + 1) k = .ok u := by
  induction fuel generalizing k with
  | zero =>
    have hmul : checkedMul k minuteMs = some t := by
      rw [checkedMul_eq_some]
      unfold i64Min minuteMs at *
      omega
    refine ⟨t, ?_⟩
    simp [searchFrom, hmul, ht.right, okOr]
  | succ fuel ih =>
    have hmul : checkedMul k minuteMs = some (k * minuteMs) := by
      rw [checkedMul_eq_some]
      unfold i64Min minuteMs at *
      omega
    rw [searchFrom]
    by_cases hmatch : c.matchesAt croner (k * minuteMs) = true
    · exact ⟨k * minuteMs, by simp [hmul, hmatch, okOr]⟩
    · have hnext : (k + 1) * minuteMs ≤ t := by
        by_contra hlt
        have heq := slot_eq_of_minute ht hstart (not_le.mp hlt)
        rw [heq] at ht
        exact hmatch ht.right
      have hadd : checkedAdd k 1 = some (k + 1) := by
        rw [checkedAdd_eq_some]
        unfold i64Min minuteMs at *
        omega
      rcases ih (by omega) hnext (by
        rw [show k + 1 + (fuel : Int) = k + ((fuel : Int) + 1) by omega]
        exact hstop) with ⟨u, hu⟩
      exact ⟨u, by simp [hmul, hmatch, hadd, okOr, hu]⟩

theorem nextFromMinute_eq_ok (hk : 0 ≤ k) : c.nextFromMinute croner k = .ok t ↔
      c.InBudget croner k ∧ c.IsLeastFrom croner (k * minuteMs) t := by
  simp only [nextFromMinute, ok_iff]
  constructor
  · rintro ⟨limit, hlimit, hsearch⟩
    rcases checkedAdd_eq_some.mp hlimit with ⟨_, hmax, _⟩
    rcases searchFrom_sound hsearch with ⟨hleast, hle⟩
    exact ⟨⟨hmax, t, hleast.slot, hleast.start_le, searchFrom_bounded hsearch, hle⟩, hleast⟩
  · rintro ⟨⟨hmax, u, hu, hstart, hstop, hle⟩, hleast⟩
    rcases searchFrom_total hk hu hstart hstop hle with ⟨v, hv⟩
    have hv' := (searchFrom_sound hv).left
    have heq : v = t := le_antisymm (hv'.le_of_slot t hleast.slot hleast.start_le)
      (hleast.le_of_slot v hv'.slot hv'.start_le)
    subst heq
    refine ⟨k + searchMinutes, ?_, hv⟩
    rw [checkedAdd_eq_some]
    refine ⟨?_, hmax, rfl⟩
    unfold i64Min
    omega

theorem minute_succ_le_iff (ht : c.IsSlot croner t) :
    (a / minuteMs + 1) * minuteMs ≤ t ↔ a < t := by
  rcases ht.left with ⟨_, rfl⟩
  unfold minuteMs
  omega

theorem nextAfterMs_eq_ok :
    c.nextAfterMs croner a = .ok t ↔ 0 ≤ a ∧ c.InBudget croner (a / minuteMs + 1) ∧
        c.IsLeastFrom croner (a + 1) t := by
  simp only [nextAfterMs, ok_iff]
  constructor
  · rintro ⟨ha, hnext⟩
    have hk : 0 ≤ a / minuteMs + 1 := by
      unfold minuteMs
      omega
    rcases (nextFromMinute_eq_ok hk).mp hnext with ⟨hbudget, hleast⟩
    refine ⟨ha, hbudget, hleast.slot, ?_, ?_⟩
    · exact (minute_succ_le_iff hleast.slot).mp hleast.start_le
    · intro u hu hau
      exact hleast.le_of_slot u hu ((minute_succ_le_iff hu).mpr hau)
  · rintro ⟨ha, hbudget, hleast⟩
    have hk : 0 ≤ a / minuteMs + 1 := by
      unfold minuteMs
      omega
    refine ⟨ha, (nextFromMinute_eq_ok hk).mpr ⟨hbudget, hleast.slot, ?_, ?_⟩⟩
    · exact (minute_succ_le_iff hleast.slot).mpr hleast.start_le
    · intro u hu hau
      exact hleast.le_of_slot u hu ((minute_succ_le_iff hu).mp hau)

theorem exists_least (hk : 0 ≤ k) (hbudget : c.InBudget croner k) :
    exists t, c.IsLeastFrom croner (k * minuteMs) t := by
  rcases hbudget with ⟨_, _, ht, hstart, hstop, hmax⟩
  rcases searchFrom_total hk ht hstart hstop hmax with ⟨u, hu⟩
  exact ⟨u, (searchFrom_sound hu).left⟩

theorem exists_nextAfterMs (ha : 0 ≤ a) (hbudget : c.InBudget croner (a / minuteMs + 1)) :
    exists t, c.nextAfterMs croner a = .ok t := by
  have hk : 0 ≤ a / minuteMs + 1 := by
    unfold minuteMs
    omega
  rcases exists_least hk hbudget with ⟨t, ht⟩
  refine ⟨t, ?_⟩
  simp only [nextAfterMs, ok_iff]
  exact ⟨ha, (nextFromMinute_eq_ok hk).mpr ⟨hbudget, ht⟩⟩

/-!
## Backward

The walk keeps the greatest slot seen so far that is not before the interval.
It has seen every slot below the one it stands on.
-/

/-- What the walk knows when it stands on the slot `next`. -/
structure Walked (croner : Croner Pattern) (c : CronSchedule Pattern)
    (notBefore next : Int) (latest : Option Int) : Prop where
  next_slot : c.IsSlot croner next
  next_nonneg : 0 ≤ next
  latest_slot : forall s, latest = some s -> c.IsSlot croner s ∧ notBefore ≤ s ∧ s < next
  seen : forall u, c.IsSlot croner u -> notBefore ≤ u -> u < next ->
    exists s, latest = some s ∧ u ≤ s

theorem Walked.step {after : Int} (hwalk : Walked croner c notBefore next latest)
    (hafter : c.IsLeastFrom croner (next + 1) after) :
    Walked croner c notBefore after (if notBefore ≤ next then some next else latest) := by
  have hlt : next < after := hafter.start_le
  refine ⟨hafter.slot, by have := hwalk.next_nonneg; omega, ?_, ?_⟩
  · intro s hs
    split at hs
    · rename_i hle
      cases hs
      exact ⟨hwalk.next_slot, hle, hlt⟩
    · rcases hwalk.latest_slot s hs with ⟨hslot, hle, _⟩
      exact ⟨hslot, hle, by omega⟩
  · intro u hu hnot hua
    by_cases hun : u ≤ next
    · by_cases hle : notBefore ≤ next
      · rw [if_pos hle]
        exact ⟨next, rfl, hun⟩
      · omega
    · have := hafter.le_of_slot u hu (by omega)
      omega

def IsLatest (croner : Croner Pattern) (c : CronSchedule Pattern)
    (notBefore atOrBefore : Int) : Option Int -> Prop
  | some s => c.IsGreatestIn croner notBefore atOrBefore s
  | none => forall u, c.IsSlot croner u -> notBefore ≤ u -> ¬ u ≤ atOrBefore

theorem Walked.isLatest (hwalk : Walked croner c notBefore next latest) (hdone : atOrBefore < next)
    (hlatest : forall s, latest = some s -> s ≤ atOrBefore) :
    IsLatest croner c notBefore atOrBefore latest := by
  cases latest with
  | none =>
    intro u hu hnot hle
    rcases hwalk.seen u hu hnot (by omega) with ⟨s, hs, _⟩
    cases hs
  | some s =>
    rcases hwalk.latest_slot s rfl with ⟨hslot, hnot, _⟩
    refine ⟨hslot, hnot, hlatest s rfl, ?_⟩
    intro u hu hle
    by_cases hun : notBefore ≤ u
    · rcases hwalk.seen u hu hun (by omega) with ⟨_, hs', hus⟩
      cases hs'
      exact hus
    · omega

/-- The fuel that covers the slots from `next` to the end of the interval. -/
def Fueled (atOrBefore next : Int) (fuel : Nat) : Prop :=
  atOrBefore < next + fuel * minuteMs

theorem Fueled.step {after : Int} (hfuel : Fueled atOrBefore next (fuel + 1))
    (hnext : c.IsSlot croner next) (hafter : c.IsLeastFrom croner (next + 1) after) :
    Fueled atOrBefore after fuel := by
  rcases hnext.left with ⟨_, rfl⟩
  rcases hafter.slot.left with ⟨_, rfl⟩
  have hlt := hafter.start_le
  unfold Fueled minuteMs at *
  omega

theorem latestLoop_sound (hwalk : Walked croner c notBefore next latest)
    (hfuel : Fueled atOrBefore next fuel) (hlatest : forall s, latest = some s -> s ≤ atOrBefore)
    (hloop : c.latestLoop croner notBefore atOrBefore fuel next latest =
      .ok result) : IsLatest croner c notBefore atOrBefore result := by
  induction fuel generalizing next latest with
  | zero =>
    cases hloop
    unfold Fueled at hfuel
    exact hwalk.isLatest (by simpa using hfuel) hlatest
  | succ fuel ih =>
    rw [latestLoop] at hloop
    split at hloop
    · rename_i hle
      rw [bind_eq_ok] at hloop
      rcases hloop with ⟨_, hafter, hrest⟩
      have hleast := (nextAfterMs_eq_ok.mp hafter).right.right
      refine ih (hwalk.step hleast) (hfuel.step hwalk.next_slot hleast) ?_ hrest
      intro s hs
      split at hs
      · cases hs
        exact hle
      · exact hlatest s hs
    · cases hloop
      exact hwalk.isLatest (by omega) hlatest

/-- Every search of the walk stays within its budget. -/
def WalkInBudget (croner : Croner Pattern) (c : CronSchedule Pattern)
    (start atOrBefore : Int) : Prop :=
  forall u, c.IsSlot croner u -> start ≤ u -> u ≤ atOrBefore -> c.InBudget croner (u / minuteMs + 1)

theorem latestLoop_total_iff (hwalk : Walked croner c notBefore next latest)
    (hfuel : Fueled atOrBefore next fuel) :
    (exists result, c.latestLoop croner notBefore atOrBefore fuel next latest =
      .ok result) ↔ WalkInBudget croner c next atOrBefore := by
  induction fuel generalizing next latest with
  | zero =>
    unfold Fueled at hfuel
    constructor
    · intro _ u _ hu hle
      omega
    · intro _
      exact ⟨latest, rfl⟩
  | succ fuel ih =>
    rw [latestLoop]
    split
    · rename_i hle
      constructor
      · rintro ⟨result, hloop⟩ u hu hnu hua
        rw [bind_eq_ok] at hloop
        rcases hloop with ⟨after, hafter, hrest⟩
        rcases nextAfterMs_eq_ok.mp hafter with ⟨_, hbudget, hleast⟩
        by_cases heq : u = next
        · rw [heq]
          exact hbudget
        · refine (ih (hwalk.step hleast) (hfuel.step hwalk.next_slot hleast)).mp
            ⟨result, hrest⟩ u hu (hleast.le_of_slot u hu (by omega)) hua
      · intro hbudget
        rcases exists_nextAfterMs hwalk.next_nonneg
          (hbudget next hwalk.next_slot (le_refl _) hle) with ⟨after, hafter⟩
        have hleast := (nextAfterMs_eq_ok.mp hafter).right.right
        have hlt : next < after := hleast.start_le
        rcases (ih (hwalk.step hleast) (hfuel.step hwalk.next_slot hleast)).mpr
          (fun u hu hau hua => hbudget u hu (by omega) hua) with ⟨result, hrest⟩
        exact ⟨result, bind_eq_ok.mpr ⟨after, hafter, hrest⟩⟩
    · constructor
      · intro _ u _ hnu hua
        omega
      · intro _
        exact ⟨latest, rfl⟩

theorem walked_first (hnot : 0 ≤ notBefore)
    (hleast : c.IsLeastFrom croner (notBefore / minuteMs * minuteMs) next) :
    Walked croner c notBefore next none := by
  have hstart := hleast.start_le
  refine ⟨hleast.slot, ?_, ?_, ?_⟩
  · unfold minuteMs at hstart
    omega
  · intro s hs
    cases hs
  · intro u hu hnu hun
    have hfloor : notBefore / minuteMs * minuteMs ≤ notBefore := by
      unfold minuteMs
      omega
    have := hleast.le_of_slot u hu (by omega)
    omega

theorem fueled_first (atOrBefore next : Int) :
    Fueled atOrBefore next ((atOrBefore - next) / minuteMs + 1).toNat := by
  unfold Fueled minuteMs
  omega

theorem latestAtOrBeforeMs_sound
    (hsearch : c.latestAtOrBeforeMs croner notBefore atOrBefore = .ok result) :
    IsLatest croner c notBefore atOrBefore result := by
  simp only [latestAtOrBeforeMs, ok_iff] at hsearch
  rcases hsearch with ⟨⟨hnot, _⟩, _, hnext, hloop⟩
  have hk : 0 ≤ notBefore / minuteMs := by
    unfold minuteMs
    omega
  have hleast := ((nextFromMinute_eq_ok hk).mp hnext).right
  refine latestLoop_sound (walked_first hnot hleast) (fueled_first _ _) ?_ hloop
  intro s hs
  cases hs

theorem latestAtOrBeforeMs_total_iff (hnot : 0 ≤ notBefore) (hle : notBefore ≤ atOrBefore) :
    (exists result, c.latestAtOrBeforeMs croner notBefore atOrBefore = .ok result) ↔
      c.InBudget croner (notBefore / minuteMs) ∧
        WalkInBudget croner c (notBefore / minuteMs * minuteMs) atOrBefore := by
  have hk : 0 ≤ notBefore / minuteMs := by
    unfold minuteMs
    omega
  simp only [latestAtOrBeforeMs, ok_iff]
  constructor
  · rintro ⟨result, _, next, hnext, hloop⟩
    rcases (nextFromMinute_eq_ok hk).mp hnext with ⟨hbudget, hleast⟩
    refine ⟨hbudget, ?_⟩
    have hwalk := (latestLoop_total_iff (walked_first hnot hleast)
      (fueled_first _ _)).mp ⟨result, hloop⟩
    intro u hu hstart hua
    exact hwalk u hu (hleast.le_of_slot u hu hstart) hua
  · rintro ⟨hbudget, hwalk⟩
    rcases exists_least hk hbudget with ⟨next, hleast⟩
    have hstart := hleast.start_le
    rcases (latestLoop_total_iff (walked_first hnot hleast) (fueled_first _ _)).mpr
      (fun u hu hnu hua => hwalk u hu (by omega) hua) with ⟨result, hloop⟩
    exact ⟨result, ⟨hnot, hle⟩, next, (nextFromMinute_eq_ok hk).mpr ⟨hbudget, hleast⟩, hloop⟩

end CronSchedule
end Cron
end OpenCompute
