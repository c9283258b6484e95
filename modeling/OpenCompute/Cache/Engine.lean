import OpenCompute.Cache.Model
import OpenCompute.Relational.Table
import OpenCompute.Transition.Run

/-!
# The response cache of a worker

The cache of one worker is a database of entries with their tags, of refresh
leases, and of a purge fence.  A put, a delete and a purge are transactions.  A
lookup reads the fence, reads the rows of its key, and may then claim a refresh
lease or delete an expired row.  These are separate statements, and other calls
may come between them.
-/

namespace OpenCompute
namespace Cache

open Relational Transaction

/-! ## Rows -/

structure CacheEntry where
  id : Nat
  baseHash : BitVec 256
  identity : CacheIdentity
  varyFingerprint : BitVec 256
  response : CacheStoredResponse
  createdAtMs : Millis
  updatedAtMs : Millis
  /-- Which of the fences that were handed out its put carried, for the specification only. -/
  ticket : Nat
deriving DecidableEq

structure RefreshLease where
  entryId : Nat
  token : Token
  deadlineMs : Millis
  baseGeneration : Nat
deriving DecidableEq

structure Store where
  fence : Nat
  entries : Table CacheEntry.id
  leases : Table RefreshLease.entryId
deriving DecidableEq

def Store.initial : Store := ⟨1, Table.empty, Table.empty⟩

variable (host : Host) (config : ResponseCacheConfig)

namespace Store

variable (s : Store)

def currentFence : Result Nat := do
  ensure (0 < s.fence) corrupt
  pure s.fence

def deleteEntries (gone : CacheEntry -> Bool) : Store :=
  { s with
    entries := s.entries.filter fun e => !gone e
    leases := s.leases.filter fun l => !s.entries.rows.any fun e =>
      gone e && decide (e.id = l.entryId) }

/-! ## Lookup -/

/-- The order of `updated_at_ms DESC, id DESC`. -/
def newer (a b : CacheEntry) : Bool :=
  decide (b.updatedAtMs < a.updatedAtMs) ||
    (decide (a.updatedAtMs = b.updatedAtMs) && decide (b.id ≤ a.id))

def loadCandidates (baseHash : BitVec 256) : Result (List CacheEntry) := do
  let rows := (s.entries.rows.filter fun e => e.baseHash = baseHash).insertionSort
    fun a b => newer a b = true
  ensure (rows.length ≤ 256) corrupt
  pure rows

def matchCandidate (identity : CacheIdentity) (requestHeaders : Headers) :
    List CacheEntry -> Result (Option CacheEntry)
  | [] => pure none
  | candidate :: candidates => do
    ensure (candidate.identity = identity.canonical) corrupt
    mapErr (fun _ => corrupt) (validateVary candidate.response.vary)
    if host.varyFingerprint candidate.response.vary requestHeaders = candidate.varyFingerprint then
      mapErr (fun _ => corrupt) (validateResponse config candidate.response candidate.updatedAtMs)
      pure (some candidate)
    else
      matchCandidate identity requestHeaders candidates

inductive Decision where
  | answer (status : CacheLookupStatus)
  | claim
  | expire
deriving DecidableEq

def decision (identity : CacheIdentity) (nowMs : Millis) (candidate : CacheEntry) : Decision :=
  if nowMs < candidate.response.freshUntilMs then
    .answer .hit
  else if identity.surface = .automatic ∧
      nowMs < candidate.response.staleWhileRevalidateUntilMs then
    .claim
  else if identity.surface = .automatic ∧ nowMs < candidate.response.staleIfErrorUntilMs then
    .answer .staleIfError
  else
    .expire

def findCandidate (identity : CacheIdentity) (requestHeaders : Headers) :
    Result (Option CacheEntry) := do
  let candidates ← s.loadCandidates (host.baseHash identity)
  matchCandidate host config identity requestHeaders candidates

def claimRefresh (entryId generation : Nat) (nowMs : Millis) (leaseMs : Nat) (token : Token) :
    Result (Store × Option Token) := do
  let leases := s.leases.filter fun l => nowMs < l.deadlineMs
  if (leases.find? entryId).isSome then
    pure ({ s with leases }, none)
  else
    let deadline : Millis := min (nowMs + leaseMs) i64Max
    -- The foreign key, the checks and the unique token of the row.
    ensure ((s.entries.find? entryId).isSome = true ∧ 0 < deadline ∧ 0 < generation ∧
      leases.rows.all (fun l => decide (l.token ≠ token)) = true) unavailable
    let leases ← okOr (leases.insert? ⟨entryId, token, deadline, generation⟩) unavailable
    pure ({ s with leases }, some token)

/-! ## Put -/

def validRefresh (baseHash : BitVec 256) (token : Token) (generation : Nat) (nowMs : Millis) :
    Bool :=
  s.leases.rows.any fun l =>
    s.entries.rows.any (fun e => decide (e.baseHash = baseHash) && decide (e.id = l.entryId)) &&
      decide (l.token = token) && decide (l.baseGeneration < generation) &&
        decide (nowMs < l.deadlineMs)

def nextId : Nat := (s.entries.rows.map CacheEntry.id).foldl max 0 + 1

def variant (baseHash varyFingerprint : BitVec 256) : Option CacheEntry :=
  s.entries.rows.find? fun e => decide (e.baseHash = baseHash) &&
    decide (e.varyFingerprint = varyFingerprint)

def written (put : CachePut) (ticket : Nat) : CacheEntry :=
  let baseHash := host.baseHash put.identity
  let varyFingerprint := host.varyFingerprint put.response.vary put.requestHeaders
  let existing := s.variant baseHash varyFingerprint
  { id := (existing.map CacheEntry.id).getD s.nextId
    baseHash
    identity := put.identity.canonical
    varyFingerprint
    response := put.response
    createdAtMs := (existing.map CacheEntry.createdAtMs).getD put.nowMs
    updatedAtMs := put.nowMs
    ticket }

/-- The order of `updated_at_ms ASC, id ASC`. -/
def older (a b : CacheEntry) : Bool :=
  decide (a.updatedAtMs < b.updatedAtMs) ||
    (decide (a.updatedAtMs = b.updatedAtMs) && decide (a.id ≤ b.id))

def enforceVariantLimit (baseHash : BitVec 256) (keepId maximum : Nat) : Store :=
  let count := s.entries.rows.countP fun e => e.baseHash = baseHash
  let evicted := ((s.entries.rows.filter fun e => decide (e.baseHash = baseHash) &&
    decide (e.id ≠ keepId)).insertionSort fun a b => older a b = true).take (count - maximum)
  s.deleteEntries fun e => evicted.contains e

/-- The loop that collects what to evict, with the bytes that remain. -/
def evictions (maximum : Nat) : Nat -> List CacheEntry -> List CacheEntry × Nat
  | total, [] => ([], total)
  | total, e :: rest =>
    let total := total - e.response.bodySize
    if total ≤ maximum then ([e], total)
    else
      let r := evictions maximum total rest
      (e :: r.1, r.2)

def enforceByteQuota (keepId maximum : Nat) : Result Store := do
  let total := (s.entries.rows.map fun e => e.response.bodySize).sum
  if total ≤ maximum then
    pure s
  else
    let rows := (s.entries.rows.filter fun e => e.id ≠ keepId).insertionSort
      fun a b => older a b = true
    let evicted := evictions maximum total rows
    ensure (evicted.2 ≤ maximum) limitError
    pure (s.deleteEntries fun e => evicted.1.contains e)

def put (put : CachePut) (ticket : Nat) : Result Store := do
  put.identity.validate host config
  validateRequestHeaders config put.requestHeaders
  validateResponse config put.response put.nowMs
  let fence ← s.currentFence
  ensure (fence = put.expectedFenceGeneration) staleWrite
  ensure (put.refreshToken.all fun token =>
    s.validRefresh (host.baseHash put.identity) token put.response.generation put.nowMs)
    staleWrite
  let entry := s.written host put ticket
  ensure (entry.createdAtMs ≤ entry.updatedAtMs) unavailable
  let s := { s with
    entries := s.entries.put entry
    leases := s.leases.erase entry.id }
  let s := s.enforceVariantLimit entry.baseHash entry.id config.maxVariantsPerKey
  s.enforceByteQuota entry.id config.maxBytesPerWorker

/-! ## Delete and purge -/

def deleted (identity : CacheIdentity) (requestHeaders : Headers) (e : CacheEntry) : Bool :=
  decide (e.baseHash = host.baseHash identity) &&
    decide (host.varyFingerprint e.response.vary requestHeaders = e.varyFingerprint)

def delete (identity : CacheIdentity) (requestHeaders : Headers) : Result (Store × Bool) := do
  identity.validate host config
  ensure (identity.surface ≠ .automatic) protocolError
  validateRequestHeaders config requestHeaders
  let candidates ← s.loadCandidates (host.baseHash identity)
  ensure (forall e, e ∈ candidates -> e.identity = identity.canonical) corrupt
  pure (s.deleteEntries (deleted host identity requestHeaders),
    candidates.any (deleted host identity requestHeaders))

end Store

def CachePurge.selects (purge : CachePurge) (e : CacheEntry) : Bool :=
  purge.purgeEverything || purge.pathPrefixes.any (fun start =>
      if start.startsWith "/" then
        (host.parseUrl e.identity.canonicalUrl).any fun url => url.path.startsWith start
      else
        e.identity.canonicalUrl.startsWith start) ||
    purge.tags.any fun tag => e.response.tags.contains tag

namespace Store

def purge (s : Store) (purge : CachePurge) (nowMs : Millis) :
    Result (Store × CachePurge × Nat) := do
  let purge ← canonicalPurge host config purge
  ensure (0 ≤ nowMs) protocolError
  let fence ← s.currentFence
  ensure (((fence + 1 : Nat) : Int) ≤ i64Max) corrupt
  let selected := s.entries.rows.countP (purge.selects host)
  pure ({ s.deleteEntries (purge.selects host) with fence := fence + 1 }, purge, selected)

end Store

/-! ## Calls that interleave -/

inductive LookupPhase where
  | begun
  | fenced (fence : Nat)
  | claiming (fence : Nat) (candidate : CacheEntry)
  | expiring (fence : Nat) (candidate : CacheEntry)
deriving DecidableEq

structure Lookup where
  id : Nat
  identity : CacheIdentity
  requestHeaders : Headers
  nowMs : Millis
  phase : LookupPhase
deriving DecidableEq

inductive Event where
  | handed (fence : Nat)
  | purged (purge : CachePurge)
  | begun (lookup : Nat)
  | returned (lookup : Nat) (entry : Option CacheEntry)
deriving DecidableEq

structure World where
  store : Store
  lookups : Table Lookup.id
  nextLookup : Nat
  tickets : List Nat
  log : List Event

def World.initial : World := ⟨Store.initial, Table.empty, 0, [], []⟩

inductive Action where
  | preparePut (identity : CacheIdentity)
  | beginLookup (identity : CacheIdentity) (requestHeaders : Headers) (nowMs : Millis)
  | readFence (lookup : Nat)
  | load (lookup : Nat)
  | claim (lookup : Nat) (token : Token)
  | expire (lookup : Nat)
  | put (ticket : Nat) (identity : CacheIdentity) (requestHeaders : Headers)
      (response : CacheStoredResponse) (refreshToken : Option Token) (nowMs : Millis)
  | delete (identity : CacheIdentity) (requestHeaders : Headers)
  | purge (purge : CachePurge) (nowMs : Millis)

namespace World

variable (w : World)

def hand (fence : Nat) : World :=
  { w with tickets := w.tickets ++ [fence], log := w.log ++ [.handed fence] }

def finish (l : Lookup) (entry : Option CacheEntry) : World :=
  { w with
    lookups := w.lookups.erase l.id
    log := w.log ++ [.returned l.id entry] }

def abort (l : Lookup) : World := { w with lookups := w.lookups.erase l.id }

def move (l : Lookup) (phase : LookupPhase) : World :=
  { w with lookups := w.lookups.replace { l with phase } }

/-- The rows of the key are read and the lookup decides. -/
def loaded (l : Lookup) (fence : Nat) : World :=
  match w.store.findCandidate host config l.identity l.requestHeaders with
  | .error _ => w.abort l
  | .ok none => w.finish l none
  | .ok (some candidate) =>
    match Store.decision l.identity l.nowMs candidate with
    | .answer _ => w.finish l (some candidate)
    | .claim => w.move l (.claiming fence candidate)
    | .expire => w.move l (.expiring fence candidate)

def claimed (l : Lookup) (candidate : CacheEntry) (token : Token) : World :=
  match w.store.claimRefresh candidate.id candidate.response.generation l.nowMs
      config.refreshLeaseMs token with
  | .error _ => w.abort l
  | .ok (store, _) => { w with store }.finish l (some candidate)

/-- `DELETE FROM cache_entries WHERE id = ?1`. -/
def expired (l : Lookup) (candidate : CacheEntry) : World :=
  { w with
    store := w.store.deleteEntries fun e => e.id = candidate.id }.finish l none

def next : Action -> Option World
  | .preparePut identity =>
    match identity.validate host config, w.store.currentFence with
    | .ok _, .ok fence => some (w.hand fence)
    | _, _ => some w
  | .beginLookup identity requestHeaders nowMs =>
    match identity.validate host config, validateRequestHeaders config requestHeaders with
    | .ok _, .ok _ =>
      if nowMs < 0 then some w
      else
        (w.lookups.insert? ⟨w.nextLookup, identity, requestHeaders, nowMs, .begun⟩).map
          fun lookups => { w with
            lookups
            nextLookup := w.nextLookup + 1
            log := w.log ++ [.begun w.nextLookup] }
    | _, _ => some w
  | .readFence lookup =>
    (w.lookups.find? lookup).bind fun l =>
      match l.phase, w.store.currentFence with
      | .begun, .ok fence => some ((w.hand fence).move l (.fenced fence))
      | .begun, .error _ => some (w.abort l)
      | _, _ => none
  | .load lookup =>
    (w.lookups.find? lookup).bind fun l =>
      match l.phase with
      | .fenced fence => some (w.loaded host config l fence)
      | _ => none
  | .claim lookup token =>
    (w.lookups.find? lookup).bind fun l =>
      match l.phase with
      | .claiming _ candidate => some (w.claimed config l candidate token)
      | _ => none
  | .expire lookup =>
    (w.lookups.find? lookup).bind fun l =>
      match l.phase with
      | .expiring _ candidate => some (w.expired l candidate)
      | _ => none
  | .put ticket identity requestHeaders response refreshToken nowMs =>
    (w.tickets[ticket]?).map fun fence =>
      match w.store.put host config
          ⟨identity, requestHeaders, response, fence, refreshToken, nowMs⟩ ticket with
      | .ok store => { w with store }
      | .error _ => w
  | .delete identity requestHeaders =>
    match w.store.delete host config identity requestHeaders with
    | .ok (store, _) => some { w with store }
    | .error _ => some w
  | .purge purge nowMs =>
    match w.store.purge host config purge nowMs with
    | .ok (store, purge, _) => some { w with store, log := w.log ++ [.purged purge] }
    | .error _ => some w

end World

end Cache
end OpenCompute
