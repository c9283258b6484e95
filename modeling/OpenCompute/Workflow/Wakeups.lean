import OpenCompute.Workflow.Attempts
import OpenCompute.Workflow.Invariants

/-!
# No lost wakeup

A waiting instance always has a step with a deadline, because whatever settles
one of its steps wakes it in the same transaction, and because the frontier
guard lets no instance wait for nothing.
-/

namespace OpenCompute
namespace Workflow

open Relational Table Transaction Transition List

/-- A waiting instance has a step that will wake it. -/
def Instance.Wakes (i : Instance) : Prop :=
  i.state = .waiting -> exists s, s ∈ i.steps ∧ s.wake ≠ none

section Frontier

variable {i j : Instance}

theorem nextWake_eq_none (haccounts : i.accounts = i.accounting) :
    i.accounts.nextWakeAtMs = none ↔ forall s, s ∈ i.steps -> s.wake = none := by
  rw [haccounts]
  show (i.steps.rows.filterMap Step.wake).min? = none ↔ _
  rw [min?_eq_none_iff, filterMap_eq_nil_iff]
  rfl

theorem updateState_wakes {k : Instance} (hupdate : k.updateState j = .ok j) : j.Wakes := by
  intro hwaiting
  rcases updateState_facts hupdate with ⟨hfrontier, hrow⟩
  have hnext := ((frontierGuard_facts hfrontier).right hwaiting).left
  rw [Ne, nextWake_eq_none (update_facts hrow).left] at hnext
  simpa using hnext

theorem updateState_to {k new : Instance} (hupdate : k.updateState new = .ok j) : j.Wakes := by
  cases updateState_eq_ok hupdate
  exact updateState_wakes hupdate

theorem wakes_of_state (hstate : j.state ≠ .waiting) : j.Wakes :=
  fun hwaiting => absurd hwaiting hstate

end Frontier

/-! ## Writes that keep the state -/

section Writes

variable {p : Permits} {nowMs : Millis} {i j : Instance}

theorem Writes.state_kept (hwrites : Writes p nowMs i j) (hmoves : ¬ p.moves) :
    j.state = i.state := by
  refine hwrites.invariant (P := fun k => k.state = i.state) ?_ rfl
  intro k l hwrite hk
  rw [← hk]
  cases hwrite with
  | row _ _ hstate _ _ _ => exact hstate
  | state hmoves' _ _ _ _ => exact absurd hmoves' hmoves
  | step _ _ | consume _ _ | register _ _ | insertEvent _ _ _ _ => rfl

theorem leasing_wakes (hwrites : Writes leasing nowMs i j) (hi : i.Wakes) : j.Wakes := by
  intro hwaiting
  rw [hwrites.state_kept (fun h => h)] at hwaiting
  rcases hi hwaiting with ⟨s, hs, hwake⟩
  have hfind : j.steps.find? s.ordinal = i.steps.find? s.ordinal :=
    hwrites.frame (fun h => h) (fun h => h)
  rw [find?_key hs] at hfind
  exact ⟨s, mem_of_find? hfind, hwake⟩

theorem leased_wakes {token : WorkflowToken} (hwrites : Writes p nowMs i j)
    (hmoves : ¬ p.moves) (hleased : i.leased token nowMs = true) : j.Wakes := by
  refine wakes_of_state ?_
  rw [hwrites.state_kept hmoves]
  rcases leased_eq_true.mp hleased with ⟨_, hrun, _⟩
  rw [state_of_running hrun]
  intro hstate
  cases hstate

end Writes

/-! ## Waits -/

section Waits

variable {limits : WorkflowsConfig} {others : Usage} {nowMs : Millis} {i j : Instance}
  {step : Step} {verdict : WorkflowStepResult}

theorem wake_wakes (hwake : wake i nowMs = .ok j) : j.Wakes := by
  unfold wake at hwake
  split at hwake
  · exact updateState_to hwake
  · rename_i hlifecycle
    cases hwake
    refine wakes_of_state ?_
    intro hwaiting
    unfold Instance.state at hwaiting
    cases hstate : i.lifecycle with
    | waiting => exact hlifecycle hstate
    | _ =>
      rw [hstate] at hwaiting
      cases hwaiting

theorem wakeUnlessSuspended_wakes (hsettle : settle limits others i step nowMs = .ok (verdict, j))
    {k : Instance} (hwake : wakeUnlessSuspended nowMs (verdict, j) = .ok k) (hi : i.Wakes) :
    k.Wakes := by
  rcases ite_eq_iff.mp hwake with ⟨hsuspended, ⟨⟩⟩ | ⟨_, hwake⟩
  · rw [(settle_settlement hsettle).suspended hsuspended]
    exact hi
  · exact wake_wakes hwake

variable {eventType : String}

theorem offerEvent_wakes (hoffer : offerEvent limits others eventType nowMs i = .ok j)
    (hi : i.Wakes) : j.Wakes := by
  unfold offerEvent at hoffer
  split at hoffer
  · cases hoffer
    exact hi
  · simp only [ok_iff] at hoffer
    rcases hoffer with ⟨⟨_⟩, hsettle, hwake⟩
    exact wakeUnlessSuspended_wakes hsettle hwake hi

theorem admitEvent_wakes {payload : DurableValue}
    (haccept : admitEvent limits others eventType payload nowMs i = .ok j) (hi : i.Wakes) :
    j.Wakes := by
  simp only [admitEvent, ok_iff] at haccept
  rcases haccept with ⟨_, _, _, _, _, hdeliver⟩
  unfold deliverEvent at hdeliver
  split at hdeliver
  · simp only [Instance.insertEvent, ok_iff] at hdeliver
    rcases hdeliver with ⟨_, ⟨_, _, _, _, rfl⟩, _, hupdate, hoffer⟩
    refine offerEvent_wakes hoffer ?_
    cases update_eq_ok hupdate
    exact hi
  · cases hdeliver

theorem maintainStep_wakes {ordinal : Nat}
    (hmaintain : maintainStep limits others nowMs ordinal i = .ok j) (hsound : i.Sound)
    (hi : i.Wakes) : j.Wakes := by
  simp only [maintainStep, ok_iff] at hmaintain
  rcases hmaintain with ⟨step, hfind, hmaintain⟩
  have hmem : step ∈ i.steps := mem_of_find? hfind
  split at hmaintain
  · simp only [ok_iff] at hmaintain
    rcases hmaintain with ⟨⟨k⟩, hsettle, hwake⟩
    exact wakeUnlessSuspended_wakes hsettle hwake hi
  · rename_i hstate
    simp only [ok_iff] at hmaintain
    rcases hmaintain with ⟨⟨_, k⟩, htimeout, hwake⟩
    have hwrites : Writes settling nowMs i k := timeout_writes ⟨hmem, trivial⟩ htimeout
    unfold wakeUnlessSuspended at hwake
    split at hwake
    · cases hwake
      refine wakes_of_state ?_
      rw [hwrites.state_kept (fun h => h)]
      intro hwaiting
      have hquiet := (hsound.quiet hwaiting step hmem).left
      rw [hstate] at hquiet
      cases hquiet
    · exact wake_wakes hwake
  · exact wake_wakes hmaintain
  · exact wake_wakes hmaintain
  · cases hmaintain

end Waits

/-! ## Calls -/

section Calls

variable {nowMs : Millis} {i j : Instance}

theorem wakes_of_moves (hmoves : Moves moving nowMs i j) : j.Wakes := by
  rcases hmoves.right with ⟨_, hupdate⟩
  exact updateState_wakes hupdate

variable {limits : WorkflowsConfig} {others : Usage}

theorem modifyRun_wakes {action : WorkflowInstanceAction}
    (hmodify : modifyRun limits others nowMs i action = .ok j) (hi : i.Wakes) : j.Wakes := by
  cases action with
  | pause =>
    have hpause : pauseRun nowMs i = .ok j := hmodify
    unfold pauseRun at hpause
    split at hpause
    · cases hpause
      exact hi
    · split at hpause
      · cases hpause
        exact hi
      · refine wakes_of_state ?_
        rw [update_eq_ok hpause]
        intro hwaiting
        cases hwaiting
    · exact updateState_to hpause
    · exact updateState_to hpause
    · cases hpause
  | resume => exact wakes_of_moves (resumeRun_moves ⟨fun _ => trivial, trivial⟩ hmodify)
  | terminate => exact wakes_of_moves (terminateRun_moves ⟨fun _ => trivial, trivial⟩ hmodify)

theorem Call.wakes {a : Action} (hcall : Call a others i j) (hsound : i.Sound) (hi : i.Wakes) :
    j.Wakes := by
  cases hcall with
  | defer _ _ hrun => exact leasing_wakes (deferRun_writes hrun) hi
  | claim _ _ hrun => exact wakes_of_moves (claimRun_moves trivial trivial hrun)
  | heartbeat _ _ hrun => exact leasing_wakes (heartbeat_writes hrun) hi
  | claimBatch _ hleased _ _ hrun =>
    exact leased_wakes (p := granting) (claimBatch_writes trivial trivial (fun _ => trivial) hrun)
      (fun h => h) hleased
  | settle _ hleased _ hrun =>
    exact leased_wakes (p := settling) (settleReport_writes trivial (fun _ _ => trivial) hrun)
      (fun h => h) hleased
  | resolveDelay _ hleased _ hrun =>
    exact leased_wakes (p := settling) (resolveDelay_writes trivial hrun) (fun h => h) hleased
  | yield _ _ _ hrun => exact wakes_of_moves (release_moves trivial hrun)
  | finish _ _ _ hrun => exact wakes_of_moves (finishRun_moves ⟨fun _ => trivial, trivial⟩ hrun)
  | sendEvent _ _ _ hrun => exact admitEvent_wakes hrun hi
  | rollback _ _ hrun =>
    rcases (rollbackRun_moves (p := moving) ⟨fun _ => trivial, trivial⟩ hrun).right with
      rfl | ⟨_, hupdate⟩
    · exact hi
    · exact updateState_wakes hupdate
  | modify _ _ hrun => exact modifyRun_wakes hrun hi
  | maintain _ hrun => exact maintainStep_wakes hrun hsound hi
  | recover _ _ hrun => exact wakes_of_moves (recoverRun_moves ⟨fun _ => trivial, trivial⟩ hrun)

end Calls

/-! ## Every run -/

def Instance.allSettled (i : Instance) : Prop :=
  forall s, s ∈ i.steps -> s.state.settled = true

/-- A settled instance does not wait, and a waiting one has a time to wake at. -/
structure NoLostWakeup (i : Instance) : Prop where
  settled : i.live = true -> i.allSettled ->
    i.state = .queued ∨ i.state = .running ∨ i.state = .paused
  waiting : i.state = .waiting -> exists s, s ∈ i.steps ∧
    (s.state.isWaiting || s.state.isRetryWait) = true ∧ s.state.settled = false ∧
    s.state.due = i.accounts.nextWakeAtMs

section Settled

variable {i : Instance}

theorem wake_of_settled {s : Step} (hsettled : s.state.settled = true) : s.wake = none := by
  unfold Step.wake
  cases hstate : s.state with
  | complete attempt output consumed | failed attempt code | cancelled attempt => rfl
  | _ =>
    rw [hstate] at hsettled
    cases hsettled

theorem due_of_wake {s : Step} {wake : Millis} (hsound : i.Sound)
    (hwaiting : i.state = .waiting) (hs : s ∈ i.steps) (hwake : s.wake = some wake) :
    (s.state.isWaiting || s.state.isRetryWait) = true ∧ s.state.settled = false ∧
      s.state.due = some wake := by
  rcases hsound.quiet hwaiting s hs with ⟨hpending, hdelay⟩
  unfold Step.wake at hwake
  cases hstate : s.state with
  | waiting due | retryWait attempt code delay due =>
    rw [hstate] at hwake
    exact ⟨rfl, rfl, hwake⟩
  | pending attempt =>
    rw [hstate] at hpending
    cases hpending
  | delayPending attempt code =>
    rw [hstate] at hdelay
    cases hdelay
  | running attempt run token =>
    rcases runToken_eq_some.mp (hsound.held s hs attempt run token hstate) with ⟨_, hlease, _⟩
    rw [state_of_running hlease] at hwaiting
    cases hwaiting
  | _ =>
    rw [hstate] at hwake
    cases hwake

theorem noLostWakeup (hsound : i.Sound) (hwakes : i.Wakes) : NoLostWakeup i := by
  constructor
  · intro hlive hsettled
    cases hstate : i.state with
    | queued => exact .inl rfl
    | running => exact .inr (.inl rfl)
    | paused => exact .inr (.inr rfl)
    | waiting =>
      rcases hwakes hstate with ⟨s, hs, hwake⟩
      exact absurd (wake_of_settled (hsettled s hs)) hwake
    | _ =>
      unfold Instance.live Lifecycle.live at hlive
      rw [show i.lifecycle.state = i.state from rfl, hstate] at hlive
      cases hlive
  · intro hwaiting
    rcases hwakes hwaiting with ⟨t, ht, hwake⟩
    cases hnext : i.accounts.nextWakeAtMs with
    | none => exact absurd ((nextWake_eq_none hsound.accounts).mp hnext t ht) hwake
    | some wake =>
      rw [hsound.accounts] at hnext
      rcases mem_filterMap.mp (min?_mem hnext) with ⟨s, hs, hwake'⟩
      exact ⟨s, hs, due_of_wake hsound hwaiting hs hwake'⟩

end Settled

theorem history_wakes {env : Environment} {owner : Uuid} {clock : Millis}
    {actions : List Action} {w : World} (hrun : History env owner clock actions w) :
    forall i, i ∈ w.store.instances -> i.Sound ∧ i.Wakes := by
  refine history_instances (fun happly hu => ?_) hrun
  refine (apply_effect happly).forall_instances hu ?_ ?_ ?_
  · intro c q hprepare
    exact ⟨prepared_sound hprepare, wakes_of_state (fun hstate => by cases hstate)⟩
  · intro others i j hcall hi
    exact ⟨hcall.writes.sound hi.left, hcall.wakes hi.left hi.right⟩
  · intro operation nowMs limits projection i j _ hrestart hi
    refine ⟨restartRun_sound hrestart hi.left, wakes_of_state ?_⟩
    unfold Instance.state
    rw [restartRun_queued hrestart]
    intro hstate
    cases hstate

end Workflow
end OpenCompute
