import OpenCompute.Cache.Quotas

/-!
# The purge fence

A purge raises the fence in the transaction that deletes what it selects, and a
put commits only under the fence it carries.  So an entry that a purge selects and
that is found later was put with a fence that was handed out after the purge.
-/

namespace OpenCompute
namespace Cache

open Relational Table Transaction Transition Option
open List hiding mem_filter

/-! ## What the transactions do to the entries -/

section Transactions

variable {host : Host} {config : ResponseCacheConfig} {s t : Store} {e : CacheEntry}
  {identity : CacheIdentity} {requestHeaders : Headers} {nowMs : Millis}

structure Committed (host : Host) (s : Store) (put : CachePut) (ticket : Nat) (t : Store) :
    Prop where
  fence : put.expectedFenceGeneration = s.fence
  refresh : forall token, put.refreshToken = some token ->
    s.validRefresh (host.baseHash put.identity) token put.response.generation put.nowMs = true
  kept : t.fence = s.fence
  entries : forall e, e ∈ t.entries ->
    (e ∈ s.entries ∧ e.id ≠ (s.written host put ticket).id) ∨ e = s.written host put ticket

theorem put_eq_ok {put : CachePut} {ticket : Nat} (h : s.put host config put ticket = .ok t) :
    Committed host s put ticket t := by
  simp only [Store.put, Store.currentFence, ok_iff] at h
  rcases h with ⟨_, _, _, _, ⟨_, rfl⟩, hfence, hrefresh, _, h⟩
  rcases least_bytes h with ⟨_, _, rfl⟩
  refine ⟨hfence.symm, ?_, rfl, ?_⟩
  · intro token htoken
    rw [htoken] at hrefresh
    exact hrefresh
  · intro e he
    exact mem_put.mp (mem_deleteEntries.mp (mem_deleteEntries.mp he).left).left

theorem delete_eq_ok {found : Bool}
    (h : s.delete host config identity requestHeaders = .ok (t, found)) :
    t.fence = s.fence ∧ forall e, e ∈ t.entries -> e ∈ s.entries := by
  simp only [Store.delete, ok_iff, Prod.mk.injEq] at h
  rcases h with ⟨_, _, _, _, _, _, rfl, _⟩
  exact ⟨rfl, fun _ he => (mem_deleteEntries.mp he).left⟩

theorem purge_eq_ok {request purge : CachePurge} {count : Nat}
    (h : s.purge host config request nowMs = .ok (t, purge, count)) :
    t.fence = s.fence + 1 ∧
      forall e, e ∈ t.entries -> e ∈ s.entries ∧ purge.selects host e = false := by
  simp only [Store.purge, Store.currentFence, ok_iff, Prod.mk.injEq] at h
  rcases h with ⟨_, _, _, _, ⟨_, rfl⟩, _, rfl, rfl, _⟩
  exact ⟨rfl, fun _ he => mem_deleteEntries.mp he⟩

theorem claimRefresh_eq_ok {entryId generation leaseMs : Nat} {token : Token}
    {answer : Option Token}
    (h : s.claimRefresh entryId generation nowMs leaseMs token = .ok (t, answer)) :
    t.fence = s.fence ∧ t.entries = s.entries ∧ forall lease, lease ∈ t.leases -> lease ∈ s.leases ∨
        (lease.entryId = entryId ∧ lease.baseGeneration = generation ∧
          exists e, e ∈ s.entries ∧ e.id = entryId) := by
  unfold Store.claimRefresh at h
  dsimp only at h
  split at h
  · rcases h with ⟨rfl, _⟩
    exact ⟨rfl, rfl, fun lease hlease => .inl (mem_filter.mp hlease).left⟩
  · simp only [ok_iff, Prod.mk.injEq] at h
    rcases h with ⟨⟨hentry, _⟩, _, hinsert, rfl, _⟩
    refine ⟨rfl, rfl, ?_⟩
    intro lease hlease
    rcases (mem_of_insert? hinsert).mp hlease with hmem | rfl
    · exact .inl (mem_filter.mp hmem).left
    · rcases isSome_iff_exists.mp hentry with ⟨e, he⟩
      exact .inr ⟨rfl, rfl, e, find?_eq_some.mp he⟩

theorem mem_of_matchCandidate {candidates : List CacheEntry}
    (h : Store.matchCandidate host config identity requestHeaders candidates = .ok (some e)) :
    e ∈ candidates := by
  induction candidates with
  | nil => cases h
  | cons candidate candidates ih =>
    simp only [Store.matchCandidate, ok_iff, ite_eq_iff, mapErr_eq_ok] at h
    rcases h with ⟨_, _, ⟨_, _, ⟨⟩⟩ | ⟨_, h⟩⟩
    · exact mem_cons_self
    · exact mem_cons_of_mem candidate (ih h)

theorem mem_of_findCandidate
    (h : s.findCandidate host config identity requestHeaders = .ok (some e)) :
    e ∈ s.entries := by
  simp only [Store.findCandidate, Store.loadCandidates, ok_iff] at h
  rcases h with ⟨_, ⟨_, rfl⟩, h⟩
  have hmem := mem_of_matchCandidate h
  rw [mem_insertionSort] at hmem
  exact (List.mem_filter.mp hmem).left

end Transactions

/-! ## What a step does -/

inductive Step (host : Host) (config : ResponseCacheConfig) (w : World) : Action -> World -> Prop
    where
  | rejected (a : Action) : Step host config w a w
  | aborted (a : Action) (l : Lookup) : Step host config w a (w.abort l)
  | prepared (identity : CacheIdentity) :
      Step host config w (.preparePut identity) (w.hand w.store.fence)
  | begun {identity : CacheIdentity} {requestHeaders : Headers} {nowMs : Millis}
      {lookups : Table Lookup.id}
      (hinsert : w.lookups.insert? ⟨w.nextLookup, identity, requestHeaders, nowMs, .begun⟩ =
        some lookups) :
      Step host config w (.beginLookup identity requestHeaders nowMs) { w with
        lookups
        nextLookup := w.nextLookup + 1
        log := w.log ++ [.begun w.nextLookup] }
  | fenced {lookup : Nat} {l : Lookup} (hl : l ∈ w.lookups) :
      Step host config w (.readFence lookup)
        ((w.hand w.store.fence).move l (.fenced w.store.fence))
  | missed {lookup : Nat} {l : Lookup} (hl : l ∈ w.lookups) :
      Step host config w (.load lookup) (w.finish l none)
  | answered {lookup : Nat} {l : Lookup} {candidate : CacheEntry} (hl : l ∈ w.lookups)
      (hcandidate : candidate ∈ w.store.entries) :
      Step host config w (.load lookup) (w.finish l (some candidate))
  | stale {lookup fence : Nat} {l : Lookup} {candidate : CacheEntry} (hl : l ∈ w.lookups)
      (hcandidate : candidate ∈ w.store.entries) :
      Step host config w (.load lookup) (w.move l (.claiming fence candidate))
  | outdated {lookup fence : Nat} {l : Lookup} {candidate : CacheEntry} (hl : l ∈ w.lookups)
      (hcandidate : candidate ∈ w.store.entries)
      (hdecision : Store.decision l.identity l.nowMs candidate = .expire) :
      Step host config w (.load lookup) (w.move l (.expiring fence candidate))
  | claimed {fence : Nat} {token : Token} {l : Lookup} {candidate : CacheEntry}
      {store : Store} {answer : Option Token} (hl : l ∈ w.lookups)
      (hphase : l.phase = .claiming fence candidate)
      (hclaim : w.store.claimRefresh candidate.id candidate.response.generation l.nowMs
        config.refreshLeaseMs token = .ok (store, answer)) :
      Step host config w (.claim l.id token) ({ w with store }.finish l (some candidate))
  | expired {fence : Nat} {l : Lookup} {candidate : CacheEntry} (hl : l ∈ w.lookups)
      (hphase : l.phase = .expiring fence candidate) :
      Step host config w (.expire l.id) (w.expired l candidate)
  | put {ticket : Nat} {identity : CacheIdentity} {requestHeaders : Headers}
      {response : CacheStoredResponse} {refreshToken : Option Token} {nowMs : Millis}
      {fence : Nat} {store : Store} (hticket : w.tickets[ticket]? = some fence)
      (hput : w.store.put host config
        ⟨identity, requestHeaders, response, fence, refreshToken, nowMs⟩ ticket = .ok store) :
      Step host config w (.put ticket identity requestHeaders response refreshToken nowMs)
        { w with store }
  | deleted {identity : CacheIdentity} {requestHeaders : Headers} {store : Store} {found : Bool}
      (hdelete : w.store.delete host config identity requestHeaders = .ok (store, found)) :
      Step host config w (.delete identity requestHeaders) { w with store }
  | purged {request purge : CachePurge} {nowMs : Millis} {store : Store} {count : Nat}
      (hpurge : w.store.purge host config request nowMs = .ok (store, purge, count)) :
      Step host config w (.purge request nowMs)
        { w with store, log := w.log ++ [.purged purge] }

section Step

variable {host : Host} {config : ResponseCacheConfig} {w w' : World}

theorem currentFence_eq_ok {s : Store} {fence : Nat} (h : s.currentFence = .ok fence) :
    fence = s.fence := by
  simp only [Store.currentFence, ok_iff] at h
  rcases h with ⟨_, rfl⟩
  rfl

theorem step_loaded {l : Lookup} (hl : l ∈ w.lookups) (lookup fence : Nat) :
    Step host config w (.load lookup) (w.loaded host config l fence) := by
  unfold World.loaded
  split
  · exact Step.aborted _ l
  · exact Step.missed hl
  · rename_i hfound
    have hcandidate := mem_of_findCandidate hfound
    split
    · exact Step.answered hl hcandidate
    · exact Step.stale hl hcandidate
    · rename_i hdecision
      exact Step.outdated hl hcandidate hdecision

theorem step_of_next {a : Action} (hnext : w.next host config a = some w') :
    Step host config w a w' := by
  cases a with
  | preparePut identity =>
    simp only [World.next] at hnext
    split at hnext
    · rename_i hread
      cases hnext
      rw [currentFence_eq_ok hread]
      exact Step.prepared identity
    · cases hnext
      exact Step.rejected _
  | beginLookup identity requestHeaders nowMs =>
    simp only [World.next] at hnext
    split at hnext
    · split at hnext
      · cases hnext
        exact Step.rejected _
      · rcases map_eq_some_iff.mp hnext with ⟨_, hinsert, rfl⟩
        exact Step.begun hinsert
    · cases hnext
      exact Step.rejected _
  | readFence lookup =>
    rcases bind_eq_some_iff.mp hnext with ⟨l, hl, hnext⟩
    split at hnext
    · rename_i hread
      cases hnext
      rw [currentFence_eq_ok hread]
      exact Step.fenced (mem_of_find? hl)
    · cases hnext
      exact Step.aborted _ l
    · cases hnext
  | load lookup =>
    rcases bind_eq_some_iff.mp hnext with ⟨l, hl, hnext⟩
    split at hnext <;> cases hnext
    exact step_loaded (mem_of_find? hl) lookup _
  | claim lookup token =>
    rcases bind_eq_some_iff.mp hnext with ⟨l, hl, hnext⟩
    split at hnext <;> cases hnext
    rename_i hphase
    cases key_of_find? hl
    unfold World.claimed
    split
    · exact Step.aborted _ l
    · rename_i hclaim
      exact Step.claimed (mem_of_find? hl) hphase hclaim
  | expire lookup =>
    rcases bind_eq_some_iff.mp hnext with ⟨_, hl, hnext⟩
    split at hnext <;> cases hnext
    rename_i hphase
    cases key_of_find? hl
    exact Step.expired (mem_of_find? hl) hphase
  | put ticket identity requestHeaders response refreshToken nowMs =>
    rcases map_eq_some_iff.mp hnext with ⟨_, hticket, rfl⟩
    split
    · rename_i hput
      exact Step.put hticket hput
    · exact Step.rejected _
  | delete identity requestHeaders =>
    simp only [World.next] at hnext
    split at hnext
    · rename_i hdelete
      cases hnext
      exact Step.deleted hdelete
    · cases hnext
      exact Step.rejected _
  | purge purge nowMs =>
    simp only [World.next] at hnext
    split at hnext
    · rename_i hpurge
      cases hnext
      exact Step.purged hpurge
    · cases hnext
      exact Step.rejected _

end Step

/-! ## Positions in the log -/

def Event.fence? : Event -> Option Nat
  | .handed fence => some fence
  | _ => none

def handed (log : List Event) : List Nat := log.filterMap Event.fence?

theorem handed_append (log later : List Event) :
    handed (log ++ later) = handed log ++ handed later :=
  filterMap_append

theorem handed_keep {log : List Event} {event : Event} (hevent : event.fence? = none) :
    handed log = handed (log ++ [event]) := by
  rw [handed_append, handed, handed, filterMap_cons_none hevent]
  exact (append_nil _).symm

theorem mem_of_snoc {log : List Event} {event last : Event} (hmem : event ∈ log ++ [last])
    (hne : event ≠ last) : event ∈ log :=
  (mem_append.mp hmem).resolve_right fun hlast => hne (mem_singleton.mp hlast)

def Event.isPurge : Event -> Bool
  | .purged _ => true
  | _ => false

theorem split_append {log pre post : List Event} {event : Event} {purge : CachePurge}
    (h : log ++ [event] = pre ++ .purged purge :: post) :
    (event = .purged purge ∧ pre = log ∧ post = []) ∨
      exists rest, post = rest ++ [event] ∧ log = pre ++ .purged purge :: rest := by
  rcases eq_nil_or_concat post with rfl | ⟨rest, _, rfl⟩
  · have hinj := append_inj' h rfl
    exact .inl ⟨(cons.inj hinj.right).left, hinj.left.symm, rfl⟩
  · right
    rw [concat_eq_append] at h ⊢
    rw [← cons_append, ← append_assoc] at h
    have hinj := append_inj' h rfl
    have hlast := (cons.inj hinj.right).left
    exact ⟨rest, by rw [hlast], hinj.left⟩

/-- A put with the ticket carried a fence that was handed out between. -/
def ReadAfter (pre post : List Event) (ticket : Nat) : Prop :=
  (handed pre).length ≤ ticket ∧ ticket < (handed pre).length + (handed post).length

/-- For the purges of the log with a certain future: an entry that they select was put with
a fence that was read after them. -/
def After (host : Host) (log : List Event) (later : List Event -> Prop) (e : CacheEntry) :
    Prop :=
  forall pre purge post, log = pre ++ .purged purge :: post -> later post ->
    purge.selects host e = true -> ReadAfter pre post e.ticket

/-- The entry was put after all purges that select it. -/
abbrev Clean (host : Host) (log : List Event) (e : CacheEntry) : Prop :=
  After host log (fun _ => True) e

section After

variable {host : Host} {log : List Event} {later : List Event -> Prop} {e : CacheEntry}

theorem ReadAfter.append {pre post : List Event} {ticket : Nat} (h : ReadAfter pre post ticket)
    (events : List Event) : ReadAfter pre (post ++ events) ticket := by
  refine ⟨h.left, ?_⟩
  rw [handed_append, List.length_append]
  have := h.right
  omega

theorem After.weaken {sooner : List Event -> Prop} (h : After host log later e)
    (hlater : forall post, sooner post -> later post) : After host log sooner e :=
  fun pre purge post hsplit hpost => h pre purge post hsplit (hlater post hpost)

theorem After.append {event : Event} (h : After host log later e) (hevent : event.isPurge = false)
    (hlater : forall post, later (post ++ [event]) -> later post) :
    After host (log ++ [event]) later e := by
  intro pre purge post hsplit hpost hselects
  rcases split_append hsplit with ⟨rfl, _, _⟩ | ⟨rest, rfl, hlog⟩
  · cases hevent
  · exact (h pre purge rest hlog (hlater rest hpost) hselects).append [event]

theorem After.append_purge {purge : CachePurge} (h : After host log later e)
    (hpurge : later [] -> purge.selects host e = false)
    (hlater : forall post, later (post ++ [.purged purge]) -> later post) :
    After host (log ++ [.purged purge]) later e := by
  intro pre purge' post hsplit hpost hselects
  rcases split_append hsplit with ⟨hsame, rfl, rfl⟩ | ⟨rest, rfl, hlog⟩
  · cases hsame
    rw [hpurge hpost] at hselects
    cases hselects
  · exact (h pre purge' rest hlog (hlater rest hpost) hselects).append [.purged purge]

end After

/-! ## The invariant -/

def LookupPhase.candidate : LookupPhase -> Option CacheEntry
  | .claiming _ candidate => some candidate
  | .expiring _ candidate => some candidate
  | _ => none

def Answered (lookup : Nat) (e : CacheEntry) (post : List Event) : Prop :=
  .begun lookup ∈ post ∧ .returned lookup (some e) ∈ post

structure Fenced (host : Host) (w : World) : Prop where
  tickets : w.tickets = handed w.log
  bounded : forall fence, fence ∈ w.tickets -> fence ≤ w.store.fence
  before : forall pre purge post, w.log = pre ++ .purged purge :: post ->
    forall fence, fence ∈ handed pre -> fence < w.store.fence
  entries : forall e, e ∈ w.store.entries -> Clean host w.log e
  candidates : forall l, l ∈ w.lookups -> forall e, l.phase.candidate = some e ->
    After host w.log (fun post => .begun l.id ∈ post) e
  answers : forall lookup e, After host w.log (Answered lookup e) e
  lookups : forall l, l ∈ w.lookups -> l.id < w.nextLookup
  returned : forall lookup e, .returned lookup e ∈ w.log -> lookup < w.nextLookup

theorem fenced_initial (host : Host) : Fenced host World.initial where
  tickets := rfl
  bounded := nofun
  before := by
    intro pre purge post hsplit
    exact absurd hsplit.symm (by simp [World.initial])
  entries := forall_mem_empty
  candidates := forall_mem_empty
  answers := by
    intro lookup e pre purge post hsplit
    exact absurd hsplit.symm (by simp [World.initial])
  lookups := forall_mem_empty
  returned := fun _ _ hmem => by cases hmem

namespace Fenced

variable {host : Host} {config : ResponseCacheConfig} {w : World} {store : Store}
  {lookups : Table Lookup.id} {l : Lookup} {phase : LookupPhase} {candidate : CacheEntry}

section

variable (h : Fenced host w)
include h

theorem before_append {event : Event} (hevent : event.isPurge = false) :
    forall pre purge post, w.log ++ [event] = pre ++ .purged purge :: post ->
      forall fence, fence ∈ handed pre -> fence < w.store.fence := by
  intro pre purge post hsplit
  rcases split_append hsplit with ⟨rfl, _, _⟩ | ⟨rest, _, hlog⟩
  · cases hevent
  · exact h.before pre purge rest hlog

theorem withStore (hfence : store.fence = w.store.fence)
    (hentries : forall e, e ∈ store.entries -> e ∈ w.store.entries ∨ Clean host w.log e) :
    Fenced host { w with store } where
  tickets := h.tickets
  bounded := fun fence hmem => (h.bounded fence hmem).trans_eq hfence.symm
  before := fun pre purge post hsplit fence hmem =>
    (h.before pre purge post hsplit fence hmem).trans_eq hfence.symm
  entries := fun e he => (hentries e he).elim (h.entries e) id
  candidates := h.candidates
  answers := h.answers
  lookups := h.lookups
  returned := h.returned

theorem withLookups (hlookups : forall l, l ∈ lookups -> l.id < w.nextLookup ∧
      forall e, l.phase.candidate = some e ->
        After host w.log (fun post => .begun l.id ∈ post) e) : Fenced host { w with lookups } where
  tickets := h.tickets
  bounded := h.bounded
  before := h.before
  entries := h.entries
  candidates := fun l hl => (hlookups l hl).right
  answers := h.answers
  lookups := fun l hl => (hlookups l hl).left
  returned := h.returned

theorem abort (l : Lookup) : Fenced host (w.abort l) := by
  apply h.withLookups
  intro other hother
  have hmem := (mem_erase.mp hother).left
  exact ⟨h.lookups other hmem, h.candidates other hmem⟩

theorem move (hl : l ∈ w.lookups)
    (hphase : forall e, phase.candidate = some e -> Clean host w.log e) :
    Fenced host (w.move l phase) :=
  h.withLookups (forall_replace
    (fun other hother => ⟨h.lookups other hother, h.candidates other hother⟩)
    ⟨h.lookups l hl, fun e he => (hphase e he).weaken fun _ _ => trivial⟩)

theorem hand : Fenced host (w.hand w.store.fence) where
  tickets := by
    change w.tickets ++ [w.store.fence] = handed (w.log ++ [.handed w.store.fence])
    rw [handed_append, h.tickets]
    rfl
  bounded := by
    intro fence hmem
    rcases mem_append.mp hmem with hmem | hmem
    · exact h.bounded fence hmem
    · exact (mem_singleton.mp hmem).le
  before := h.before_append rfl
  entries := fun e he => (h.entries e he).append rfl fun _ _ => trivial
  candidates := by
    intro l hl e he
    refine (h.candidates l hl e he).append rfl ?_
    exact fun _ hpost => mem_of_snoc hpost nofun
  answers := by
    intro lookup e
    refine (h.answers lookup e).append rfl ?_
    rintro post ⟨hbegun, hreturned⟩
    exact ⟨mem_of_snoc hbegun nofun, mem_of_snoc hreturned nofun⟩
  lookups := h.lookups
  returned := fun lookup e hmem => h.returned lookup e (mem_of_snoc hmem nofun)

theorem begin (hl : l.id = w.nextLookup) (hphase : l.phase.candidate = none)
    (hinsert : w.lookups.insert? l = some lookups) :
    Fenced host { w with
      lookups
      nextLookup := w.nextLookup + 1
      log := w.log ++ [.begun w.nextLookup] } where
  tickets := h.tickets.trans (handed_keep rfl)
  bounded := h.bounded
  before := h.before_append rfl
  entries := fun e he => (h.entries e he).append rfl fun _ _ => trivial
  candidates := by
    intro other hother e he
    rcases (mem_of_insert? hinsert).mp hother with hmem | rfl
    · refine (h.candidates other hmem e he).append rfl ?_
      intro post hpost
      have hne : other.id ≠ w.nextLookup := Nat.ne_of_lt (h.lookups other hmem)
      exact (mem_append.mp hpost).resolve_right (by simpa using hne)
    · rw [hphase] at he
      cases he
  answers := by
    intro lookup e pre purge post hsplit hanswered hselects
    rcases split_append hsplit with ⟨hsame, _, _⟩ | ⟨rest, rfl, hlog⟩
    · cases hsame
    · have hreturned := mem_of_snoc hanswered.right nofun
      have hmem : .returned lookup (some e) ∈ w.log := by
        rw [hlog]
        exact mem_append_right pre (mem_cons_of_mem _ hreturned)
      have hne : lookup ≠ w.nextLookup := Nat.ne_of_lt (h.returned lookup _ hmem)
      have hbegun := (mem_append.mp hanswered.left).resolve_right (by simpa using hne)
      exact (h.answers lookup e pre purge rest hlog ⟨hbegun, hreturned⟩ hselects).append _
  lookups := by
    refine forall_insert? hinsert (fun l hl => Nat.lt_succ_of_lt (h.lookups l hl)) ?_
    rw [hl]
    exact Nat.lt_succ_self _
  returned := by
    intro lookup e hmem
    exact Nat.lt_succ_of_lt (h.returned lookup e (mem_of_snoc hmem nofun))

theorem finish (hl : l ∈ w.lookups) {entry : Option CacheEntry}
    (hentry : forall e, entry = some e -> After host w.log (fun post => .begun l.id ∈ post) e) :
    Fenced host (w.finish l entry) where
  tickets := h.tickets.trans (handed_keep rfl)
  bounded := h.bounded
  before := h.before_append rfl
  entries := fun e he => (h.entries e he).append rfl fun _ _ => trivial
  candidates := by
    intro other hother e he
    refine (h.candidates other (mem_erase.mp hother).left e he).append rfl ?_
    exact fun _ hpost => mem_of_snoc hpost nofun
  answers := by
    intro lookup e pre purge post hsplit hanswered hselects
    rcases split_append hsplit with ⟨hsame, _, _⟩ | ⟨rest, rfl, hlog⟩
    · cases hsame
    have hbegun := mem_of_snoc hanswered.left nofun
    rcases mem_append.mp hanswered.right with hreturned | hreturned
    · exact (h.answers lookup e pre purge rest hlog ⟨hbegun, hreturned⟩ hselects).append _
    · cases mem_singleton.mp hreturned
      exact (hentry e rfl pre purge rest hlog hbegun hselects).append _
  lookups := fun other hother => h.lookups other (mem_erase.mp hother).left
  returned := by
    intro lookup e hmem
    rcases mem_append.mp hmem with hmem | hmem
    · exact h.returned lookup e hmem
    · cases mem_singleton.mp hmem
      exact h.lookups l hl

theorem put {request : CachePut} {ticket : Nat}
    (hticket : w.tickets[ticket]? = some request.expectedFenceGeneration)
    (hput : w.store.put host config request ticket = .ok store) : Fenced host { w with store } := by
  have hcommitted := put_eq_ok hput
  apply h.withStore hcommitted.kept
  intro e he
  rcases hcommitted.entries e he with ⟨hmem, _⟩ | rfl
  · exact .inl hmem
  · right
    intro pre purge post hsplit _ _
    change ReadAfter pre post ticket
    rw [hcommitted.fence, h.tickets, hsplit, handed_append] at hticket
    refine ⟨?_, ?_⟩
    · by_contra hlt
      rw [getElem?_append_left (by omega)] at hticket
      exact absurd (h.before pre purge post hsplit _ (mem_of_getElem? hticket))
        (Nat.lt_irrefl _)
    · rw [← List.length_append]
      exact (List.getElem?_eq_some_iff.mp hticket).1

theorem purge {request purge : CachePurge} {nowMs : Millis} {count : Nat}
    (hpurge : w.store.purge host config request nowMs = .ok (store, purge, count)) :
    Fenced host { w with store, log := w.log ++ [.purged purge] } := by
  rcases purge_eq_ok hpurge with ⟨hfence, hentries⟩
  exact {
    tickets := h.tickets.trans (handed_keep rfl)
    bounded := by
      intro fence hmem
      have := h.bounded fence hmem
      change fence ≤ store.fence
      omega
    before := by
      intro pre purge' post hsplit fence hmem
      rw [hfence, Nat.lt_succ_iff]
      apply h.bounded
      rw [h.tickets]
      rcases split_append hsplit with ⟨_, rfl, _⟩ | ⟨_, _, hlog⟩
      · exact hmem
      · rw [hlog, handed_append]
        exact mem_append_left _ hmem
    entries := by
      intro e he
      rcases hentries e he with ⟨hmem, hspared⟩
      exact (h.entries e hmem).append_purge (fun _ => hspared) fun _ _ => trivial
    candidates := by
      intro l hl e he
      refine (h.candidates l hl e he).append_purge nofun ?_
      exact fun _ hpost => mem_of_snoc hpost nofun
    answers := by
      intro lookup e
      refine (h.answers lookup e).append_purge nofun ?_
      rintro post ⟨hbegun, hreturned⟩
      exact ⟨mem_of_snoc hbegun nofun, mem_of_snoc hreturned nofun⟩
    lookups := h.lookups
    returned := fun lookup e hmem => h.returned lookup e (mem_of_snoc hmem nofun) }

theorem claimed (hl : l ∈ w.lookups) {fence : Nat}
    (hphase : l.phase = .claiming fence candidate) (hfence : store.fence = w.store.fence)
    (hentries : store.entries = w.store.entries) :
    Fenced host ({ w with store }.finish l (some candidate)) := by
  have hstore : Fenced host { w with store } :=
    h.withStore hfence fun e he => .inl (hentries ▸ he)
  apply hstore.finish hl
  rintro e ⟨rfl⟩
  exact h.candidates l hl candidate (congrArg LookupPhase.candidate hphase)

theorem expired (hl : l ∈ w.lookups) (candidate : CacheEntry) :
    Fenced host (w.expired l candidate) := by
  have hstore : Fenced host { w with
      store := w.store.deleteEntries fun e => e.id = candidate.id } :=
    h.withStore rfl fun e he => .inl (mem_deleteEntries.mp he).left
  exact hstore.finish hl fun _ hnone => by cases hnone

theorem moved (hl : l ∈ w.lookups) (hcandidate : candidate ∈ w.store.entries)
    (hphase : phase.candidate = some candidate) : Fenced host (w.move l phase) := by
  apply h.move hl
  intro e he
  rw [hphase, some_inj] at he
  exact he ▸ h.entries candidate hcandidate

theorem step {a : Action} {w' : World} (hstep : Step host config w a w') : Fenced host w' := by
  cases hstep with
  | rejected a => exact h
  | aborted a l => exact h.abort l
  | prepared identity => exact h.hand
  | begun hinsert => exact h.begin rfl rfl hinsert
  | fenced hl => exact h.hand.move hl fun _ hnone => by cases hnone
  | missed hl => exact h.finish hl fun _ hnone => by cases hnone
  | answered hl hcandidate =>
    apply h.finish hl
    rintro e ⟨rfl⟩
    exact (h.entries _ hcandidate).weaken fun _ _ => trivial
  | stale hl hcandidate | outdated hl hcandidate _ => exact h.moved hl hcandidate rfl
  | claimed hl hphase hclaim =>
    rcases claimRefresh_eq_ok hclaim with ⟨hfence, hentries, _⟩
    exact h.claimed hl hphase hfence hentries
  | expired hl hphase => exact h.expired hl _
  | put hticket hput => exact h.put hticket hput
  | deleted hdelete =>
    rcases delete_eq_ok hdelete with ⟨hkept, hentries⟩
    exact h.withStore hkept fun e he => .inl (hentries e he)
  | purged hpurge => exact h.purge hpurge

end

end Fenced

/-! ## The fence over all runs -/

/-- In every run, an entry that a later lookup returns although a purge selects it was put with
a fence that was handed out after the purge.  A put with a refresh token commits only under the
stored lease of an entry of its key. -/
theorem purge_fence {host : Host} {config : ResponseCacheConfig}
    {allowed : World -> Action -> Prop} {actions : List Action} {w : World}
    (hrun : Run (World.next host config) allowed World.initial actions w) :
    (forall pre purge post lookup e, w.log = pre ++ .purged purge :: post ->
      .begun lookup ∈ post -> .returned lookup (some e) ∈ post ->
      purge.selects host e = true -> ReadAfter pre post e.ticket) ∧
    (forall put ticket store token, w.store.put host config put ticket = .ok store ->
      put.refreshToken = some token ->
      exists lease e, lease ∈ w.store.leases ∧ e ∈ w.store.entries ∧ e.id = lease.entryId ∧
        e.baseHash = host.baseHash put.identity ∧ lease.token = token ∧
        put.nowMs < lease.deadlineMs ∧ lease.baseGeneration < put.response.generation) := by
  constructor
  · intro pre purge post lookup e hsplit hbegun hreturned hselects
    have hfenced : Fenced host w :=
      hrun.invariant (fun _ _ _ h _ hnext => h.step (step_of_next hnext)) (fenced_initial host)
    exact hfenced.answers lookup e pre purge post hsplit ⟨hbegun, hreturned⟩ hselects
  · intro put ticket store token hput htoken
    have hvalid := (put_eq_ok hput).refresh token htoken
    simp only [Store.validRefresh, List.any_eq_true, Bool.and_eq_true, decide_eq_true_eq] at hvalid
    rcases hvalid with ⟨lease, hlease, ⟨⟨⟨e, he, hbase, hid⟩, hsame⟩, hgeneration⟩, hdeadline⟩
    exact ⟨lease, e, hlease, he, hid, hbase, hsame, hdeadline, hgeneration⟩

namespace Sample

def purged : List Action :=
  [.preparePut page, .put 0 page [] (response 100 1) none 1, .preparePut page,
    .purge ⟨["news"], [], false⟩ 2, .put 1 page [] (response 100 2) none 3,
    .preparePut page, .put 2 page [] (response 100 3) none 4,
    .beginLookup page [] 5, .readFence 0, .load 0]

end Sample

open Sample in
theorem purge_fence_refetched : exists w,
    Run (World.next host config) always World.initial purged w ∧ ReadAfter [.handed 1, .handed 1]
        [.handed 2, .begun 0, .handed 2,
          .returned 0 (some ⟨1, 0, page, 0, response 100 3, 4, 4, 2⟩)] 2 := by
  refine exists_run_imp (P := fun w => w.log = [.handed 1, .handed 1,
    .purged ⟨["news"], [], false⟩, .handed 2, .begun 0, .handed 2,
    .returned 0 (some ⟨1, 0, page, 0, response 100 3, 4, 4, 2⟩)])
    (fun w hrun hlog => ?_) (by decide +kernel)
  exact (purge_fence hrun).left [.handed 1, .handed 1] ⟨["news"], [], false⟩
    _ 0 ⟨1, 0, page, 0, response 100 3, 4, 4, 2⟩ hlog
    (by decide +kernel) (by decide +kernel) (by decide +kernel)

end Cache
end OpenCompute
