import OpenCompute.Cron.SlotOrder

/-!
# Minutes far in the future

The search folds a time into the first 400 years before it looks at the
calendar.  Dates and weekdays repeat after that time, so that a minute matches
whenever it does by the calendar of its own year.
-/

namespace OpenCompute
namespace Cron

open Calendar

variable {Pattern : Type} {croner : Croner Pattern} {c : CronSchedule Pattern}

def Croner.Periodic (croner : Croner Pattern) : Prop :=
  forall pattern (date : Date) weekday,
    croner.dayMatch pattern { date with year := date.year + 400 } weekday =
      croner.dayMatch pattern date weekday

theorem Croner.Periodic.eras (hcroner : croner.Periodic) (pattern : Pattern) (date : Date)
    (weekday eras : Nat) :
    croner.dayMatch pattern { date with year := date.year + 400 * eras } weekday =
      croner.dayMatch pattern date weekday := by
  induction eras with
  | zero => rfl
  | succ eras ih =>
    rw [Nat.mul_succ, ← Nat.add_assoc]
    exact (hcroner pattern { date with year := date.year + 400 * eras } weekday).trans ih

def CronSchedule.matchesMinute (croner : Croner Pattern) (c : CronSchedule Pattern)
    (minutes : Nat) : Bool :=
  let day := minutes / 1440
  let date := dateOfDay day
  croner.minuteMatch c.cron (minutes % 60) && croner.hourMatch c.cron (minutes / 60 % 24) &&
    croner.monthMatch c.cron date.month &&
    (croner.dayMatch c.cron date (weekdayOfDay day) || (c.includesLastDay &&
        date.day == daysInMonth date.year date.month))

theorem matchesMinute_add_eras (hcroner : croner.Periodic) (minutes eras : Nat) :
    c.matchesMinute croner (minutes + 1440 * (daysPerEra * eras)) =
      c.matchesMinute croner minutes := by
  have htime : forall days, (minutes + 1440 * days) % 60 = minutes % 60 ∧
      (minutes + 1440 * days) / 60 % 24 = minutes / 60 % 24 := by omega
  unfold CronSchedule.matchesMinute
  dsimp only
  rw [(htime _).left, (htime _).right, Nat.add_mul_div_left _ _ (by decide), dateOfDay_add_eras,
    weekdayOfDay_add_eras, daysInMonth_add_eras, hcroner.eras]

theorem matchesAt_minute (hcroner : croner.Periodic) (minute : Nat) :
    c.matchesAt croner (minute * minuteMs) = c.matchesMinute croner minute := by
  have hfold : (((minute : Int) * minuteMs).tmod calendarPeriodMs / minuteMs).toNat =
      minute % (1440 * daysPerEra) := by
    unfold calendarPeriodMs minuteMs daysPerEra
    rw [Int.tmod_eq_emod_of_nonneg (by omega)]
    omega
  have hmatch := @matchesMinute_add_eras _ _ c hcroner (minute % (1440 * daysPerEra))
    (minute / (1440 * daysPerEra))
  rw [← Nat.mul_assoc, Nat.mod_add_div, ← hfold] at hmatch
  exact hmatch.symm

/--
The search forward finds the least match after a time whenever one lies within
its budget, and the search backward answers with the greatest match of the
interval, or that there is none, whenever each of its searches forward does.
-/
theorem cron_search (hcroner : croner.Periodic) (c : CronSchedule Pattern) {a b : Int}
    (ha : 0 ≤ a) (hab : a ≤ b) (hb : b ≤ i64Max) :
    (forall minute : Nat, c.matchesAt croner (minute * minuteMs) = c.matchesMinute croner minute) ∧
    ((exists t, c.IsSlot croner t ∧ a < t ∧ t ≤ (a / minuteMs + 1 + searchMinutes) * minuteMs ∧
        t ≤ i64Max) ->
      exists t, c.nextAfterMs croner a = .ok t) ∧
    (forall t, c.nextAfterMs croner a = .ok t -> c.IsLeastFrom croner (a + 1) t) ∧
    ((exists result, c.latestAtOrBeforeMs croner a b = .ok result) ↔
      c.InBudget croner (a / minuteMs) ∧
        CronSchedule.WalkInBudget croner c (a / minuteMs * minuteMs) b) ∧
    forall result, c.latestAtOrBeforeMs croner a b = .ok result ->
      CronSchedule.IsLatest croner c a b result := by
  refine ⟨matchesAt_minute hcroner, ?_,
    fun t h => (CronSchedule.nextAfterMs_eq_ok.mp h).right.right,
    CronSchedule.latestAtOrBeforeMs_total_iff ha hab,
    fun _ => CronSchedule.latestAtOrBeforeMs_sound⟩
  rintro ⟨t, hslot, hlt, hstop, hmax⟩
  refine CronSchedule.exists_nextAfterMs ha ⟨?_, t, hslot,
    (CronSchedule.minute_succ_le_iff hslot).mpr hlt, hstop, hmax⟩
  unfold minuteMs searchMinutes i64Max at *
  omega

open Sample in
theorem cron_search_everyMinute :
    exists t, CronSchedule.nextAfterMs everyMinute ⟨[], ()⟩ 0 = .ok t ∧
      CronSchedule.IsLeastFrom everyMinute ⟨[], ()⟩ 1 t := by
  rcases @cron_search _ everyMinute (fun _ _ _ => rfl) ⟨[], ()⟩ 0 0 (le_refl 0) (le_refl 0)
    (by decide) with ⟨_, hfound, hleast, _⟩
  rcases hfound ⟨minuteMs, ⟨⟨1, rfl⟩, rfl⟩, by decide, by decide, by decide⟩ with ⟨t, ht⟩
  exact ⟨t, ht, hleast t ht⟩

open Sample in
theorem leapMonday_not_found : exists c, CronSchedule.parse leapMonday leapMondayText = .ok c ∧
    c.IsGreatestIn leapMonday leapMondayMs leapMondayMs leapMondayMs ∧
    forall result, c.latestAtOrBeforeMs leapMonday leapMondayMs leapMondayMs ≠ .ok result := by
  rcases leapMonday_parse with ⟨c, hparse, hlast, hnow, _⟩
  have hslot : c.IsSlot leapMonday leapMondayMs := ⟨⟨27087 * 1440, by decide⟩, hnow⟩
  refine ⟨c, hparse, ⟨hslot, le_refl _, le_refl _, fun u _ hu => hu⟩, ?_⟩
  intro result hresult
  have hwalk := ((CronSchedule.latestAtOrBeforeMs_total_iff (by decide) (le_refl _)).mp
    ⟨result, hresult⟩).right
  exact leapMonday_not_in_budget hlast (hwalk _ hslot (by decide) (le_refl _))

end Cron
end OpenCompute
