import OpenCompute.Cron.Runs

/-!
# The lifecycle of a run

The attempts of a run count its dispatches, and all dispatches lie in the window
that its first dispatch opened.  From this follow the bounds on claims and
retries, and that the triggers let every well-formed call through.
-/

namespace OpenCompute
namespace Cron

open Relational Table Transaction Transition List

variable {Pattern : Type} {croner : Croner Pattern}

def countdown : Nat -> List Nat
  | 0 => []
  | n + 1 => (n + 1) :: countdown n

theorem length_countdown (n : Nat) : (countdown n).length = n := by
  induction n with
  | zero => rfl
  | succ n ih => rw [countdown, length_cons, ih]

theorem mem_countdown {n k : Nat} : k ∈ countdown n ↔ 1 ≤ k ∧ k ≤ n := by
  induction n with
  | zero =>
    simp [countdown]
    omega
  | succ n ih =>
    rw [countdown, mem_cons, ih]
    omega

structure Life (row : Option CronRun) (ds : List Dispatch) : Prop where
  attempts : exists n, ds.map (fun d => d.run.attempt) = countdown n ∧
    forall run, row = some run -> run.attempt = n
  window : exists first : Int, (forall d, d ∈ ds -> d.run.dispatchDeadlineAtMs = first + 900000 ∧
      d.atMs < first + 900000 ∧ (d.run.attempt = 1 -> d.atMs = first)) ∧
    forall run, row = some run -> run.attempt ≠ 0 -> run.firstDispatchedAtMs = some first ∧
        run.dispatchDeadlineAtMs = some (first + 900000)
  undispatched : forall run, row = some run -> run.attempt = 0 ->
    run.firstDispatchedAtMs = none ∧ run.dispatchDeadlineAtMs = none
  noRetry : forall run, row = some run -> run.state.terminal = false -> run.noRetry = false
  activation : forall d run, d ∈ ds -> row = some run -> d.run.activationId = run.activationId

structure SameDispatch (run run' : CronRun) : Prop where
  attempt : run'.attempt = run.attempt
  first : run'.firstDispatchedAtMs = run.firstDispatchedAtMs
  deadline : run'.dispatchDeadlineAtMs = run.dispatchDeadlineAtMs
  activation : run'.activationId = run.activationId

variable {run run' : CronRun} {ds : List Dispatch} {nowMs : Int} {maxRetries : Nat}
  {owner : Uuid} {row row' : Option CronRun} {action : Action} {w : World}

theorem Life.same (h : Life (some run) ds) (hsame : SameDispatch run run')
    (hnoRetry : run'.state.terminal = false -> run'.noRetry = false) : Life (some run') ds := by
  constructor
  · rcases h.attempts with ⟨n, hds, hn⟩
    refine ⟨n, hds, ?_⟩
    intro r hr
    cases hr
    rw [hsame.attempt]
    exact hn run rfl
  · rcases h.window with ⟨first, hds, hrow⟩
    refine ⟨first, hds, ?_⟩
    intro r hr hattempt
    cases hr
    rw [hsame.first, hsame.deadline]
    exact hrow run rfl (hsame.attempt ▸ hattempt)
  · intro r hr hattempt
    cases hr
    rw [hsame.first, hsame.deadline]
    exact h.undispatched run rfl (hsame.attempt ▸ hattempt)
  · intro r hr hlive
    cases hr
    exact hnoRetry hlive
  · intro d r hd hr
    cases hr
    rw [hsame.activation]
    exact h.activation d run hd rfl

theorem sameDispatch_fail (hupdate : run.update (failOverdue nowMs run) = .ok run') :
    SameDispatch run run' ∧ run'.state = .failed := by
  have hrow := (CronRun.update_eq_ok.mp hupdate).right.right
  constructor
  · constructor <;> rw [hrow] <;> rfl
  · rw [hrow]
    rfl

theorem completionSet_columns (row : CronRun) (report : ClaimedCronRun)
    (completion : CronCompletion) (next : Option Int) (nowMs : Int) (maxRetries : Nat) :
    let set := (completionSet row report completion next nowMs maxRetries).1
    set.id = row.id ∧ set.activationId = row.activationId ∧ set.attempt = report.attempt ∧
      set.firstDispatchedAtMs = row.firstDispatchedAtMs ∧
      set.dispatchDeadlineAtMs = row.dispatchDeadlineAtMs ∧
      set.state ≠ .claimed ∧ (set.state.terminal = false -> set.noRetry = false) := by
  cases completion with
  | success => simp [completionSet, CronRunState.terminal]
  | failure noRetry code =>
    cases hnext : next.isSome with
    | false | true => simp [completionSet, hnext, CronRunState.terminal]

theorem sameDispatch_complete {report : ClaimedCronRun} {completion : CronCompletion}
    {row row' : CronRun} {next : Option Int} (hclaimed : row.state = .claimed)
    (hupdate : row.update
      (completionSet row report completion next nowMs maxRetries).1 = .ok row') :
    SameDispatch row row' ∧ (row'.state.terminal = false -> row'.noRetry = false) := by
  rcases CronRun.update_eq_ok.mp hupdate with ⟨_, htransition, hrow⟩
  rcases completionSet_columns row report completion next nowMs maxRetries with
    ⟨_, hact, _, hfirst, hdeadline, _, hnoRetry⟩
  have hattempt : row'.attempt = row.attempt := by
    unfold TransitionAllowed at htransition
    split at htransition <;> simp_all
  refine ⟨⟨hattempt, ?_, ?_, ?_⟩, ?_⟩
  · rw [hrow]
    exact hfirst
  · rw [hrow]
    exact hdeadline
  · rw [hrow]
    exact hact
  · rw [hrow]
    exact hnoRetry

/-! ## One step -/

theorem claimSet_columns (hupdate : run.update (claimSet nowMs (nowMs + 900000) run) = .ok run') :
    run'.attempt = run.attempt + 1 ∧ run'.noRetry = run.noRetry ∧
      run'.activationId = run.activationId ∧
      run'.firstDispatchedAtMs = some (run.firstDispatchedAtMs.getD nowMs) ∧
      run'.dispatchDeadlineAtMs = some (run.dispatchDeadlineAtMs.getD (nowMs + 900000)) := by
  have hrow := (CronRun.update_eq_ok.mp hupdate).right.right
  rw [hrow]
  exact ⟨rfl, rfl, rfl, rfl, rfl⟩

theorem claimable_iff : claimable nowMs maxRetries run = true ↔ run.state = .ready ∧
      run.nextAttemptAtMs.any (fun next => decide (next ≤ nowMs)) = true ∧
      run.attempt < maxRetries + 1 ∧
      forall deadline, run.dispatchDeadlineAtMs = some deadline -> nowMs < deadline := by
  unfold claimable
  simp only [decide_eq_true_eq, Option.all_eq_true]

theorem Life.claim (h : Life (some run) ds) (hclaimable : claimable nowMs maxRetries run = true)
    (hupdate : run.update (claimSet nowMs (nowMs + 900000) run) = .ok run') :
    Life (some run') (⟨claimedOf owner run', nowMs⟩ :: ds) := by
  rcases claimable_iff.mp hclaimable with ⟨hready, _, _, hdeadline⟩
  rcases claimSet_columns hupdate with ⟨hattempt, hnoRetry, hact, hfirst, hlimit⟩
  constructor
  · rcases h.attempts with ⟨n, hds, hn⟩
    have hrun := hn run rfl
    refine ⟨n + 1, ?_, ?_⟩
    · rw [map_cons, hds, countdown]
      change run'.attempt :: _ = _
      rw [hattempt, hrun]
    · intro r hr
      cases hr
      rw [hattempt, hrun]
  · rcases h.window with ⟨first, hds, hrow⟩
    by_cases hzero : run.attempt = 0
    · rcases h.undispatched run rfl hzero with ⟨hnone, hnoDeadline⟩
      have hempty : ds = [] := by
        rcases h.attempts with ⟨_, hmap, hn⟩
        have hlength := congrArg length hmap
        rw [length_map, ← hn run rfl, hzero] at hlength
        exact eq_nil_of_length_eq_zero hlength
      rw [hnone] at hfirst
      rw [hnoDeadline] at hlimit
      refine ⟨nowMs, ?_, ?_⟩
      · intro d hd
        rw [hempty, mem_singleton] at hd
        subst hd
        refine ⟨?_, show nowMs < nowMs + 900000 by omega, fun _ => rfl⟩
        change run'.dispatchDeadlineAtMs.getD 0 = _
        rw [hlimit]
        rfl
      · intro r hr _
        cases hr
        exact ⟨hfirst, hlimit⟩
    · rcases hrow run rfl hzero with ⟨hsome, hend⟩
      rw [hsome] at hfirst
      rw [hend] at hlimit
      refine ⟨first, ?_, ?_⟩
      · intro d hd
        cases mem_cons.mp hd with
        | inl heq =>
          subst heq
          refine ⟨?_, hdeadline _ hend, ?_⟩
          · change run'.dispatchDeadlineAtMs.getD 0 = _
            rw [hlimit]
            rfl
          · intro hone
            change run'.attempt = 1 at hone
            omega
        | inr hmem => exact hds d hmem
      · intro r hr _
        cases hr
        exact ⟨hfirst, hlimit⟩
  · intro r hr hzero
    cases hr
    omega
  · intro r hr _
    cases hr
    rw [hnoRetry]
    exact h.noRetry run rfl (by rw [hready]; rfl)
  · intro d r hd hr
    cases hr
    rw [hact]
    cases mem_cons.mp hd with
    | inl heq =>
      subst heq
      exact hact
    | inr hmem => exact h.activation d run hmem rfl

theorem Life.new {schedule : Schedule} {time : Int} (hnew : NewRun schedule run.id time run) :
    Life (some run) [] := by
  constructor
  · refine ⟨0, rfl, ?_⟩
    intro r hr
    cases hr
    exact hnew.attempt
  · refine ⟨0, nofun, ?_⟩
    intro r hr hattempt
    cases hr
    exact absurd hnew.attempt hattempt
  · intro r hr _
    cases hr
    exact ⟨hnew.first, hnew.deadline⟩
  · intro r hr _
    cases hr
    exact hnew.noRetry
  · intro d r hd
    cases hd

theorem Life.deleted (h : Life row ds) : Life none ds := by
  constructor
  · rcases h.attempts with ⟨n, hds, _⟩
    exact ⟨n, hds, fun run hrun => nomatch hrun⟩
  · rcases h.window with ⟨first, hds, _⟩
    exact ⟨first, hds, fun run hrun => nomatch hrun⟩
  · exact fun run hrun => nomatch hrun
  · exact fun run hrun => nomatch hrun
  · exact fun d run _ hrun => nomatch hrun

variable {new : List Dispatch}

theorem Life.step (h : Life row ds) (hchange : RunChange owner action row row' new)
    (hfresh : forall nowMs misfireGraceMs limit ids,
      action = .project nowMs misfireGraceMs limit ids ->
      forall run, row' = some run -> run.id ∈ ids -> ds = []) : Life row' (new ++ ds) := by
  cases hchange with
  | keep _ => exact h
  | insert hnew hid =>
    rw [hfresh _ _ _ _ rfl _ rfl hid]
    exact Life.new hnew
  | delete _ => exact h.deleted
  | claim hclaim =>
    cases hclaim with
    | keep _ => exact h
    | fail _ hupdate =>
      rcases sameDispatch_fail hupdate with ⟨hsame, hstate⟩
      refine h.same hsame ?_
      intro hlive
      rw [hstate] at hlive
      cases hlive
    | claim hclaimable _ hupdate => exact h.claim hclaimable hupdate
  | complete hclaimed hupdate =>
    rcases sameDispatch_complete hclaimed hupdate with ⟨hsame, hnoRetry⟩
    exact h.same hsame hnoRetry
  | unknown _ hclaimed hupdate =>
    have hrow := (CronRun.update_eq_ok.mp hupdate).right.right
    refine h.same ?_ (fun _ => ?_)
    · constructor <;> rw [hrow] <;> rfl
    · rw [hrow]
      exact h.noRetry _ rfl (by rw [hclaimed]; rfl)

/-! ## Whole runs -/

structure Lives (w : World) : Prop where
  life : forall id, Life (w.store.runs.find? id) (w.dispatchesOf id)
  known : forall d, d ∈ w.dispatched -> d.run.id ∈ w.runIds

theorem next_runIds {w' : World} (h : w.next croner action = some w') :
    (forall id, id ∈ w.runIds -> id ∈ w'.runIds) ∧ forall nowMs misfireGraceMs limit ids,
        action = .project nowMs misfireGraceMs limit ids -> Fresh ids w.runIds := by
  cases next_stepped h with
  | promoted _ _ | claimed _ => exact ⟨fun _ hid => hid, by simp⟩
  | @projected _ _ _ ids _ _ hfresh _ _ =>
    refine ⟨fun id hid => mem_append_right ids hid, ?_⟩
    intro _ _ _ _ heq
    cases heq
    exact hfresh
  | changed _ hproject _ =>
    exact ⟨fun _ hid => hid, fun _ _ _ _ heq => absurd heq (hproject _ _ _ _)⟩

theorem mem_dispatchesOf {id : CronRunId} {d : Dispatch} :
    d ∈ w.dispatchesOf id ↔ d ∈ w.dispatched ∧ d.run.id = id := by
  unfold World.dispatchesOf
  rw [List.mem_filter, decide_eq_true_eq]

theorem RunChange.stored (hchange : RunChange owner action row row' new) {d : Dispatch}
    (hd : d ∈ new) : exists run, row = some run := by
  cases hchange with
  | keep _ | insert _ _ | delete _ | complete _ _ | unknown _ _ _ => cases hd
  | claim hclaim =>
    cases hclaim with
    | keep _ | fail _ _ => cases hd
    | claim _ _ _ => exact ⟨_, rfl⟩

theorem next_lives {w' : World} (hslots : Slots w) (hw : Lives w)
    (h : w.next croner action = some w') : Lives w' := by
  have hstep := next_runs hslots h
  rcases next_runIds h with ⟨hmono, hfresh⟩
  constructor
  · intro id
    rcases hstep id with ⟨new, hchange, hds⟩
    rw [hds]
    refine (hw.life id).step hchange ?_
    intro nowMs grace limit ids haction run hrun hid
    have hrid : run.id = id := (find?_eq_some.mp hrun).right
    apply eq_nil_iff_forall_not_mem.mpr
    intro d hd
    rcases mem_dispatchesOf.mp hd with ⟨hmem, hdid⟩
    have hknown := hw.known d hmem
    rw [hdid, ← hrid] at hknown
    exact (hfresh nowMs grace limit ids haction).right run.id hid hknown
  · intro d hd
    rcases hstep d.run.id with ⟨_, hchange, hds⟩
    have hmem : d ∈ w'.dispatchesOf d.run.id := mem_dispatchesOf.mpr ⟨hd, rfl⟩
    rw [hds] at hmem
    apply hmono
    cases mem_append.mp hmem with
    | inl hnew =>
      rcases hchange.stored hnew with ⟨run, hrun⟩
      exact hslots.runIds _ (exists_find?_iff_keys.mp ⟨run, hrun⟩)
    | inr hold => exact hw.known d (mem_dispatchesOf.mp hold).left

theorem Life.unborn : Life none [] := by
  constructor
  · exact ⟨0, rfl, fun run hrun => nomatch hrun⟩
  · exact ⟨0, nofun, fun run hrun => nomatch hrun⟩
  · exact fun run hrun => nomatch hrun
  · exact fun run hrun => nomatch hrun
  · exact fun d run hd => absurd hd not_mem_nil

theorem History.lives {actions : List Action} (h : History croner owner actions w) :
    Slots w ∧ Lives w :=
  Run.invariant (P := fun w => Slots w ∧ Lives w)
    (fun _ _ _ hu _ hnext => ⟨next_slots hu.left hnext, next_lives hu.left hu.right hnext⟩)
    h ⟨slots_initial owner, fun _ => Life.unborn, nofun⟩

/-- Every claim call of the history allows at most `bound` retries. -/
def RetriesWithin (bound : Nat) (actions : List Action) : Prop :=
  forall nowMs maxRetries limit, Action.claim nowMs maxRetries limit ∈ actions -> maxRetries ≤ bound

theorem RunChange.dispatches {limit : Nat}
    (hchange : RunChange owner (.claim nowMs maxRetries limit) row row' new) :
    new = [] ∨ (new.length = 1 ∧ exists run, row = some run ∧ run.attempt < maxRetries + 1) := by
  generalize haction : Action.claim nowMs maxRetries limit = action at hchange
  cases hchange with
  | keep _ => exact Or.inl rfl
  | insert _ _ | delete _ | complete _ _ => cases haction
  | claim hclaim =>
    cases haction
    cases hclaim with
    | keep _ | fail _ _ => exact Or.inl rfl
    | claim hclaimable _ _ =>
      exact Or.inr ⟨rfl, _, rfl, (claimable_iff.mp hclaimable).right.right.left⟩
  | unknown hclaim _ _ => exact absurd haction.symm (hclaim nowMs maxRetries limit)

theorem RunChange.quiet (hchange : RunChange owner action row row' new)
    (hclaim : forall nowMs maxRetries limit, action ≠ .claim nowMs maxRetries limit) :
    new = [] := by
  cases hchange with
  | keep _ | insert _ _ | delete _ | complete _ _ | unknown _ _ _ => rfl
  | claim _ => exact absurd rfl (hclaim _ _ _)

theorem Life.length_eq_attempt (h : Life (some run) ds) : ds.length = run.attempt := by
  rcases h.attempts with ⟨_, hds, hn⟩
  have hlength := congrArg length hds
  rw [length_map, length_countdown] at hlength
  rw [hlength, hn run rfl]

theorem History.dispatches_le {actions : List Action} (h : History croner owner actions w)
    {bound : Nat} (hbound : RetriesWithin bound actions) (id : CronRunId) :
    (w.dispatchesOf id).length ≤ bound + 1 := by
  have hgeneral : RetriesWithin bound actions ->
      forall id, (w.dispatchesOf id).length ≤ bound + 1 := by
    refine Run.history (P := fun bs (u : World) => RetriesWithin bound bs ->
      forall id, (u.dispatchesOf id).length ≤ bound + 1) ?_ h ?_
    · intro bs u a v hrun ih _ hnext hwithin id
      rcases History.lives hrun with ⟨hslots, hlives⟩
      rcases next_runs hslots hnext id with ⟨_, hchange, hds⟩
      have hprev : RetriesWithin bound bs := by
        intro nowMs maxRetries limit hmem
        exact hwithin nowMs maxRetries limit (mem_append_left [a] hmem)
      rw [hds, length_append]
      by_cases hclaim : exists nowMs maxRetries limit, a = .claim nowMs maxRetries limit
      · rcases hclaim with ⟨nowMs, maxRetries, limit, rfl⟩
        have hmax := hwithin nowMs maxRetries limit (mem_append_right bs mem_cons_self)
        cases hchange.dispatches with
        | inl hnil =>
          rw [hnil, length_nil, Nat.zero_add]
          exact ih hprev id
        | inr hone =>
          rcases hone with ⟨_, _, hrow, _⟩
          have hlife := hlives.life id
          rw [hrow] at hlife
          rw [hlife.length_eq_attempt]
          omega
      · rw [hchange.quiet (fun nowMs maxRetries limit heq =>
          hclaim ⟨nowMs, maxRetries, limit, heq⟩), length_nil, Nat.zero_add]
        exact ih hprev id
    · intro _ id
      exact Nat.zero_le _
  exact hgeneral hbound id

end Cron
end OpenCompute
