import OpenCompute.Queue.Commits
import OpenCompute.Queue.InFlight

/-!
# Restart recovery against completion

A restart ends every delivery under way.  A completion that retries all of its
messages ends them under the policy its batch was claimed with; recovery applies
the policy stored by then, to all ready messages.
-/

namespace OpenCompute
namespace Queue

open Relational Table Transaction Transition Option

/-! ## The outcome of a failed delivery -/

inductive RetryOutcome where
  | retried
  | deadLetter (target : QueueId × Nat)
  | discarded
deriving DecidableEq, Repr

/-- What completion decides for a message that is to be retried. -/
def retryOutcome (maxRetries : Nat) (deadLetterQueue : Option (QueueId × Nat))
    (nowMs : Millis) (m : MessageRow) : RetryOutcome :=
  if m.expiresAtMs ≤ nowMs then
    .discarded
  else if nextAttempt m.attempts ≤ maxRetries then
    .retried
  else
    match deadLetterQueue with
    | some target => .deadLetter target
    | none => .discarded

def CompletesAs (batch : ClaimedQueueBatch) (nowMs : Millis) (s : Store)
    (m row : MessageRow) (t : Store) : RetryOutcome -> Prop
  | .retried => exists availableAtMs,
    s.releaseMessage row (nextAttempt m.attempts) availableAtMs = .ok t
  | .deadLetter target =>
    (exists u, s.deleteMessage row = .ok u ∧ u.insertDlqMessage m target nowMs = .ok t) ∨
    exists u availableAtMs p, s.releaseMessage row (nextAttempt m.attempts) availableAtMs = .ok u ∧
      u.insertPending p = .ok t ∧ p.messageId = m.id ∧
      p.sourceQueueId = batch.queueId ∧
      (p.targetQueueId, p.targetQueueGeneration) = target
  | .discarded => s.deleteMessage row = .ok t

variable {nowMs : Millis} {m : MessageRow}

theorem Completion.completesAs {batch : ClaimedQueueBatch} {delaySeconds : Nat} {s t : Store}
    {row : MessageRow} (hcompletion : Completion batch (.retry delaySeconds) nowMs s m row t) :
    CompletesAs batch nowMs s m row t
      (retryOutcome batch.maxRetries batch.deadLetterQueue nowMs m) := by
  cases hcompletion with
  | acknowledged hack _ => cases hack
  | expired _ hexpired hdelete =>
    unfold retryOutcome
    rw [if_pos hexpired]
    exact hdelete
  | retried _ hlive hattempt _ hrelease =>
    unfold retryOutcome
    rw [if_neg (not_le.mpr hlive), if_pos hattempt]
    exact ⟨_, hrelease⟩
  | deadLettered _ hlive hattempt hdlq _ hdelete hinsert =>
    unfold retryOutcome
    rw [if_neg (not_le.mpr hlive), if_neg (not_le.mpr hattempt), hdlq]
    exact Or.inl ⟨_, hdelete, hinsert⟩
  | deferred _ _ hlive hattempt hdlq _ _ hrelease _ hpending =>
    unfold retryOutcome
    rw [if_neg (not_le.mpr hlive), if_neg (not_le.mpr hattempt), hdlq]
    exact Or.inr ⟨_, _, _, hrelease, hpending, rfl, rfl, rfl⟩
  | discarded _ hlive hattempt hdlq hdelete =>
    unfold retryOutcome
    rw [if_neg (not_le.mpr hlive), if_neg (not_le.mpr hattempt), hdlq]
    exact hdelete

/-- How a cell shows an outcome after a restart: nothing is moved at once. -/
def RecoversAs (m : MessageRow) (cell : Cell) : RetryOutcome -> Prop
  | .retried => exists availableAtMs havailable,
    cell = (some (Store.released m (m.attempts + 1) availableAtMs havailable), none)
  | .deadLetter target => exists availableAtMs havailable p,
    cell = (some (Store.released m (m.attempts + 1) availableAtMs havailable),
      some p) ∧ p.messageId = m.id ∧ p.sourceQueueId = m.queueId ∧
      p.terminalAttempts = m.attempts + 1 ∧
      (p.targetQueueId, p.targetQueueGeneration) = target
  | .discarded => cell = (none, none)

def shownOutcome : Cell -> RetryOutcome
  | (none, _) => .discarded
  | (some _, none) => .retried
  | (some _, some p) => .deadLetter (p.targetQueueId, p.targetQueueGeneration)

theorem RecoversAs.shown {cell : Cell} {x : RetryOutcome} (hx : RecoversAs m cell x) :
    shownOutcome cell = x := by
  cases x with
  | retried =>
    rcases hx with ⟨_, _, rfl⟩
    rfl
  | deadLetter target =>
    rcases hx with ⟨_, _, _, rfl, _, _, _, rfl⟩
    rfl
  | discarded =>
    subst hx
    rfl

/-! ## Recovery under the stored policy -/

def recoveryOutcome (s : Store) (m : MessageRow) : RetryOutcome :=
  match s.consumers.find? m.queueId with
  | none => .retried
  | some c =>
    if m.attempts + 1 ≤ c.config.maxRetries then
      .retried
    else
      match c.deadLetterQueue with
      | some target => .deadLetter target
      | none => .discarded

theorem recoverCell_claimed (s : Store) (nowMs : Millis) (hclaimed : m.claim ≠ none) :
    RecoversAs m (recoverCell s nowMs (some m, none)) (recoveryOutcome s m) := by
  have havailable := le_max_left m.enqueuedAtMs (nowMs + 250)
  have hexhausted : s.exhaustedBy (recoverRow nowMs m) = (s.consumers.find? m.queueId).filter
        (fun c => c.config.maxRetries < m.attempts + 1) := by
    rw [recoverRow_claimed hclaimed]
    rfl
  have hretried : s.exhaustedBy (recoverRow nowMs m) = none ->
      RecoversAs m (recoverCell s nowMs (some m, none)) .retried := by
    intro hnone
    refine ⟨max m.enqueuedAtMs (nowMs + 250), havailable, ?_⟩
    simp only [recoverCell, recoverLane, Store.discards, hnone, any_none,
      bind_none, Bool.false_eq_true, if_false]
    rw [← recoverRow_claimed hclaimed]
  unfold recoveryOutcome
  cases hconsumer : s.consumers.find? m.queueId with
  | none =>
    apply hretried
    rw [hexhausted, hconsumer]
    rfl
  | some c =>
    by_cases hlimit : m.attempts + 1 ≤ c.config.maxRetries
    · simp only [if_pos hlimit]
      apply hretried
      rw [hexhausted, hconsumer, filter_some, if_neg (by simpa using hlimit)]
    · have hsome : s.exhaustedBy (recoverRow nowMs m) = some c := by
        rw [hexhausted, hconsumer, filter_some, if_pos (by simpa using hlimit)]
      simp only [if_neg hlimit]
      cases hdlq : c.deadLetterQueue with
      | none =>
        simp only [RecoversAs, recoverCell, recoverLane, Store.discards, hsome,
          any_some, bind_some, hdlq, decide_true, if_true]
      | some target =>
        have hrow := exhaustedBy_terminal hsome hdlq
        have hkept : s.discards (recoverRow nowMs m) = false := by
          simp only [Store.discards, hsome, any_some, hdlq, reduceCtorEq, decide_false]
        refine ⟨max m.enqueuedAtMs (nowMs + 250), havailable,
          pendingRow (recoverRow nowMs m) (recoverRow nowMs m).queueId target
            (recoverRow nowMs m).attempts (nowMs + 250) hrow.left hrow.right,
          ?_, ?_⟩
        · simp only [recoverCell, recoverLane, hkept, hsome, bind_some,
            hdlq, dif_pos hrow, none_or, Bool.false_eq_true, if_false]
          rw [← recoverRow_claimed hclaimed]
        · have hsame := @recoverRow_claimed nowMs m hclaimed
          exact ⟨(congrArg MessageRow.id hsame).trans rfl,
            (congrArg MessageRow.queueId hsame).trans rfl, congrArg MessageRow.attempts hsame, rfl⟩

/-! ## When the two agree -/

/-- No stored consumer wants a ready message moved or deleted. -/
def ReadySpared (s : Store) (m : MessageRow) : Prop :=
  forall c, s.exhaustedBy m = some c -> c.deadLetterQueue ≠ none ∧ m.id ∈ s.pending.keys

/--
The stored consumer of a claimed message treats it as its batch would: both retry
it, or both are exhausted and name the same dead-letter Queue.  A message that
expired in flight has to be one that recovery deletes.
-/
def SamePolicy (s : Store) (b : ClaimedQueueBatch) (nowMs : Millis)
    (m : MessageRow) : Prop :=
  if m.expiresAtMs ≤ nowMs then
    exists c, s.consumers.find? m.queueId = some c ∧
      c.config.maxRetries < m.attempts + 1 ∧ c.deadLetterQueue = none
  else
    (m.attempts + 1 ≤ b.maxRetries ∧ forall c, s.consumers.find? m.queueId = some c ->
        m.attempts + 1 ≤ c.config.maxRetries) ∨
    (b.maxRetries < m.attempts + 1 ∧ exists c, s.consumers.find? m.queueId = some c ∧
        c.config.maxRetries < m.attempts + 1 ∧ c.deadLetterQueue = b.deadLetterQueue)

theorem recoverCell_ready_iff (s : Store) (nowMs : Millis) (hready : m.claim = none)
    (hm : m ∈ s.messages) : recoverCell s nowMs (s.cell m.id) = s.cell m.id ↔ ReadySpared s m := by
  have hfind : (s.cell m.id).1 = some m := find?_key hm
  have hrow : recoverRow nowMs m = m := if_pos hready
  have hcell : s.cell m.id = (some m, (s.cell m.id).2) := Prod.ext hfind rfl
  have hlane : m.id ∈ s.pending.keys ↔ (s.cell m.id).2 ≠ none := by
    rw [← exists_find?_iff_keys, ← ne_none_iff_exists']
    rfl
  unfold ReadySpared
  rw [hlane, hcell]
  generalize (s.cell m.id).2 = lane
  simp only [recoverCell, hrow, Prod.mk.injEq]
  cases hexhausted : s.exhaustedBy m with
  | none => simp [Store.discards, recoverLane, hexhausted]
  | some c =>
    cases hdlq : c.deadLetterQueue with
    | none => simp [Store.discards, hexhausted, hdlq]
    | some target =>
      have hterminal := exhaustedBy_terminal hexhausted hdlq
      cases lane with
      | none | some p => simp [Store.discards, recoverLane, hexhausted, hdlq, hterminal]

theorem nextAttempt_le_iff {attempts maxRetries : Nat} (hretries : maxRetries ≤ 100) :
    nextAttempt attempts ≤ maxRetries ↔ attempts + 1 ≤ maxRetries := by
  unfold nextAttempt u16Max
  omega

theorem retryOutcome_eq_recoveryOutcome_iff (s : Store) {b : ClaimedQueueBatch}
    (hretries : b.maxRetries ≤ 100) (nowMs : Millis) (m : MessageRow) :
    retryOutcome b.maxRetries b.deadLetterQueue nowMs m = recoveryOutcome s m ↔
      SamePolicy s b nowMs m := by
  unfold retryOutcome recoveryOutcome SamePolicy
  simp only [nextAttempt_le_iff hretries]
  generalize m.attempts + 1 = attempt
  by_cases hexpired : m.expiresAtMs ≤ nowMs
  · simp only [if_pos hexpired]
    cases hconsumer : s.consumers.find? m.queueId with
    | none => simp
    | some c =>
      by_cases hlimit : attempt ≤ c.config.maxRetries
      · simp [hlimit]
      · simp only [if_neg hlimit]
        cases hdlq : c.deadLetterQueue with
        | none => simp [hdlq, not_le.mp hlimit]
        | some target => simp [hdlq]
  · simp only [if_neg hexpired]
    by_cases hbatch : attempt ≤ b.maxRetries
    · simp only [hbatch, not_lt.mpr hbatch, true_and, false_and, or_false]
      cases hconsumer : s.consumers.find? m.queueId with
      | none => simp
      | some c =>
        by_cases hlimit : attempt ≤ c.config.maxRetries
        · simp [hlimit]
        · cases hdlq : c.deadLetterQueue <;> simp [hlimit, hdlq]
    · simp only [hbatch, not_le.mp hbatch, true_and, false_and, false_or]
      cases hconsumer : s.consumers.find? m.queueId with
      | none => cases b.deadLetterQueue <;> simp
      | some c =>
        by_cases hlimit : attempt ≤ c.config.maxRetries
        · cases b.deadLetterQueue <;> simp [hlimit, not_lt.mpr hlimit]
        · simp only [if_neg hlimit]
          cases b.deadLetterQueue <;> cases hdlq : c.deadLetterQueue <;>
            simp [hdlq, not_le.mp hlimit, eq_comm]

/--
In every reachable world a restart succeeds, leaves a ready message alone exactly
when it is spared, and ends a delivery as a completion of its batch that retries
the message would, exactly under the same policy.
-/
theorem restart_recovery (env : Environment) {w : World} (hw : Reachable env w)
    {nowMs : Millis} {cronMaxRetries : Nat}
    (hinput : cronMaxRetries ≤ 3 ∧ (checkedAdd nowMs 250).isSome) :
    exists t, resetClaims w.store nowMs cronMaxRetries = .ok t ∧ forall m, m ∈ w.store.messages ->
        (m.claim = none -> (t.cell m.id = w.store.cell m.id ↔ ReadySpared w.store m)) ∧
        forall c, m.claim = some c -> exists b, b ∈ w.returned ∧ b.claim = c ∧
          (forall decisions delaySeconds acc result,
            decisionFor decisions m.id = some (.retry delaySeconds) ->
            completeMessage b decisions nowMs acc m = .ok result -> exists row,
            CompletesAs b nowMs acc.2 m row result.2
              (retryOutcome b.maxRetries b.deadLetterQueue nowMs m)) ∧
          (RecoversAs m (t.cell m.id) (retryOutcome b.maxRetries b.deadLetterQueue nowMs m) ↔
            SamePolicy w.store b nowMs m) := by
  rcases hw with ⟨actions, hrun⟩
  have hworld := run_worldOk hrun (World.initial_ok env)
  rcases resetClaims_total hworld.store hinput with ⟨t, hok⟩
  refine ⟨t, hok, ?_⟩
  intro m hm
  rw [resetClaims_cell hok m.id]
  constructor
  · intro hready
    exact recoverCell_ready_iff w.store nowMs hready hm
  · intro c hclaim
    have hclaimed : m.claim ≠ none := by
      rw [hclaim]
      exact Option.some_ne_none c
    rcases hworld.batch_of_claim hm hclaim with ⟨b, hb, hbclaim, _⟩
    refine ⟨b, hb, hbclaim, ?_, ?_⟩
    · intro decisions delaySeconds acc result hretry hcomplete
      rcases completeMessage_inv hcomplete with ⟨action, row, haction, _, _, hcompletion⟩
      cases haction.symm.trans hretry
      exact ⟨row, hcompletion.completesAs⟩
    have hcell : w.store.cell m.id = (some m, none) :=
      Prod.ext (find?_key hm) (find?_eq_none_iff_keys.mpr
        (hworld.store.claimed_not_pending m hm hclaimed))
    have hrecovers := recoverCell_claimed w.store nowMs hclaimed
    rw [hcell, ← retryOutcome_eq_recoveryOutcome_iff w.store (hworld.inFlight.retries b hb)]
    constructor
    · intro hretry
      exact hretry.shown.symm.trans hrecovers.shown
    · intro hsame
      rw [hsame]
      exact hrecovers

theorem restart_recovery_claimed :
    exists w t m, Reachable Sample.environment w ∧ m ∈ w.store.messages ∧
      m.claim ≠ none ∧ resetClaims w.store 0 0 = .ok t ∧ RecoversAs m (t.cell m.id) .retried := by
  have hexec : exists w, Reachable Sample.environment w ∧
      w.returned = [Sample.batch 1 none 10 [1, 2]] ∧ exists m, m ∈ w.store.messages ∧
        m.claim = some ⟨1, 1, 1⟩ ∧ m.attempts = 0 ∧ 0 < m.expiresAtMs ∧
        (w.store.consumers.find? m.queueId).all (fun c => 1 ≤ c.config.maxRetries) :=
    exists_reachable Sample.deliveredActions (by decide +kernel)
  rcases hexec with ⟨w, hreach, hreturned, m, hm, hclaim, hattempts, hexpires, hconsumer⟩
  rcases restart_recovery Sample.environment hreach
    (⟨by decide, by decide⟩ : 0 ≤ 3 ∧ (checkedAdd 0 250).isSome = true) with
    ⟨t, hok, hmessages⟩
  rcases (hmessages m hm).right _ hclaim with ⟨b, hb, _, _, hiff⟩
  rw [hreturned, List.mem_singleton] at hb
  subst hb
  have hpolicy : SamePolicy w.store (Sample.batch 1 none 10 [1, 2]) 0 m := by
    rw [SamePolicy, if_neg (not_le.mpr hexpires), hattempts]
    refine Or.inl ⟨le_refl 1, ?_⟩
    intro c hc
    simpa [hc] using hconsumer
  have hretried := hiff.mpr hpolicy
  have houtcome : retryOutcome 1 none 0 m = .retried := by
    rw [retryOutcome, if_neg (not_le.mpr hexpires), hattempts]
    rfl
  refine ⟨w, t, m, hreach, hm, by rw [hclaim]; exact Option.some_ne_none _, hok, ?_⟩
  rw [← houtcome]
  exact hretried

theorem restart_deletes_ready :
    exists w t m, Reachable Sample.environment w ∧ m ∈ w.store.messages ∧
      m.claim = none ∧ resetClaims w.store 0 0 = .ok t ∧ t.messages.find? m.id = none := by
  have hexec : exists w, Reachable Sample.environment w ∧ exists m, m ∈ w.store.messages ∧
      m.claim = none ∧ exists t, resetClaims w.store 0 0 = .ok t ∧
        t.messages.find? m.id = none :=
    exists_reachable (Sample.retriedActions ++ [Sample.promote (Sample.consumer 0 none)])
      (by decide +kernel)
  rcases hexec with ⟨w, hreach, m, hm, hready, t, hreset, hgone⟩
  exact ⟨w, t, m, hreach, hm, hready, hreset, hgone⟩

end Queue
end OpenCompute
