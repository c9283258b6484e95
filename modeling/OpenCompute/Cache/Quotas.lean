import OpenCompute.Cache.Engine

/-!
# The quotas of a put

A put stores its entry.  It then evicts the oldest other variants of the key that
are beyond the limit, and then the oldest other entries until the bytes fit.
-/

namespace OpenCompute
namespace Cache

open Relational Table Transaction Transition

def bodyBytes (rows : List CacheEntry) : Nat := (rows.map fun e => e.response.bodySize).sum

def CacheEntry.otherVariant (e c : CacheEntry) : Bool :=
  decide (c.baseHash = e.baseHash) && decide (c.id ≠ e.id)

namespace Store

variable (s : Store)

def variants (baseHash : BitVec 256) : Nat :=
  s.entries.rows.countP fun e => e.baseHash = baseHash

def oldest (p : CacheEntry -> Bool) (n : Nat) : List CacheEntry :=
  ((s.entries.rows.filter p).insertionSort fun a b => older a b = true).take n

def evictOldest (p : CacheEntry -> Bool) (n : Nat) : Store :=
  s.deleteEntries fun e => (s.oldest p n).contains e

def stored (host : Host) (put : CachePut) (ticket : Nat) : Store :=
  { s with
    entries := s.entries.put (s.written host put ticket)
    leases := s.leases.erase (s.written host put ticket).id }

end Store

/-- The store after a put within the quotas, from the one with the entry stored. -/
structure WithinQuotas (config : ResponseCacheConfig) (s : Store) (e : CacheEntry) (t : Store) :
    Prop where
  stored : e ∈ t.entries
  variants : t.variants e.baseHash ≤ config.maxVariantsPerKey
  bytes : bodyBytes t.entries.rows ≤ config.maxBytesPerWorker
  evicted : exists m n,
    IsLeast { k | (s.evictOldest e.otherVariant k).variants e.baseHash ≤
      config.maxVariantsPerKey } m ∧
    IsLeast { k | bodyBytes ((s.evictOldest e.otherVariant m).evictOldest
      (fun c => c.id ≠ e.id) k).entries.rows ≤ config.maxBytesPerWorker } n ∧
    t = (s.evictOldest e.otherVariant m).evictOldest (fun c => c.id ≠ e.id) n

section Evictions

variable {s t : Store} {p : CacheEntry -> Bool} {e : CacheEntry} {n : Nat}

theorem mem_deleteEntries {gone : CacheEntry -> Bool} :
    e ∈ (s.deleteEntries gone).entries ↔ e ∈ s.entries ∧ gone e = false := by
  change e ∈ s.entries.filter _ ↔ _
  rw [mem_filter, Bool.not_eq_true']

theorem evictOldest_zero (s : Store) (p : CacheEntry -> Bool) : s.evictOldest p 0 = s := by
  unfold Store.evictOldest Store.deleteEntries
  cases s with
  | mk fence entries leases =>
    congr
    · exact Table.ext (List.filter_true _)
    · refine Table.ext (List.filter_eq_self.mpr ?_)
      intro l _
      simp [Store.oldest]

theorem mem_of_oldest (he : e ∈ s.oldest p n) : e ∈ s.entries ∧ p e = true :=
  List.mem_filter.mp ((List.perm_insertionSort _ _).subset (List.mem_of_mem_take he))

theorem mem_evictOldest (he : e ∈ s.entries) (hkept : p e = false) :
    e ∈ (s.evictOldest p n).entries := by
  refine mem_deleteEntries.mpr ⟨he, Bool.eq_false_iff.mpr ?_⟩
  intro hcontains
  have hgone := (mem_of_oldest (List.contains_iff_mem.mp hcontains)).right
  rw [hkept] at hgone
  cases hgone

theorem perm_evictOldest (s : Store) (p : CacheEntry -> Bool) (n : Nat) :
    (s.oldest p n ++ (s.evictOldest p n).entries.rows).Perm s.entries.rows := by
  have hnodup : (s.oldest p n).Nodup :=
    ((List.perm_insertionSort _ _).nodup_iff.mpr (s.entries.nodup_rows.filter p)).sublist
      (List.take_sublist n _)
  have hsame : (s.entries.rows.filter fun c => (s.oldest p n).contains c).Perm (s.oldest p n) := by
    refine (List.perm_ext_iff_of_nodup (s.entries.nodup_rows.filter _) hnodup).mpr ?_
    intro c
    rw [List.mem_filter, List.contains_iff_mem]
    exact ⟨fun h => h.right, fun h => ⟨(mem_of_oldest h).left, h⟩⟩
  exact (hsame.symm.append_right _).trans (List.filter_append_perm _ _)

theorem least_variants {maximum : Nat} (he : e ∈ s.entries) (hmaximum : 0 < maximum) :
    IsLeast { k | (s.evictOldest e.otherVariant k).variants e.baseHash ≤ maximum }
      (s.variants e.baseHash - maximum) := by
  have hlength : s.variants e.baseHash = s.entries.rows.countP e.otherVariant + 1 := by
    unfold Store.variants
    rw [← countP_erase he, decide_eq_true rfl]
    exact congrArg (· + 1) List.countP_filter
  have hcount : forall k, min k (s.entries.rows.countP e.otherVariant) +
      (s.evictOldest e.otherVariant k).variants e.baseHash = s.variants e.baseHash := by
    intro k
    have hall : (s.oldest e.otherVariant k).countP (fun c => c.baseHash = e.baseHash) =
        (s.oldest e.otherVariant k).length :=
      List.countP_eq_length.mpr fun c hc => (Bool.and_eq_true_iff.mp (mem_of_oldest hc).right).left
    have hperm := (perm_evictOldest s e.otherVariant k).countP_eq fun c => c.baseHash = e.baseHash
    rw [List.countP_append, hall, Store.oldest, List.length_take, List.length_insertionSort,
      ← List.countP_eq_length_filter] at hperm
    exact hperm
  constructor
  · have hleft := hcount (s.variants e.baseHash - maximum)
    change _ ≤ maximum
    omega
  · intro k hk
    have hleft := hcount k
    change _ ≤ maximum at hk
    omega

theorem evictions_spec {maximum : Nat} (rows : List CacheEntry) {total : Nat}
    (hover : maximum < total) :
    exists n, Store.evictions maximum total rows =
        (rows.take n, total - bodyBytes (rows.take n)) ∧
      forall k, total - bodyBytes (rows.take k) ≤ maximum -> n ≤ k := by
  induction rows generalizing total with
  | nil => exact ⟨0, rfl, fun k _ => Nat.zero_le k⟩
  | cons c rest ih =>
    have hsub : forall k, total - bodyBytes ((c :: rest).take (k + 1)) =
        total - c.response.bodySize - bodyBytes (rest.take k) := fun _ => Nat.sub_add_eq _ _ _
    have hsome : forall k, total - bodyBytes ((c :: rest).take k) ≤ maximum -> exists j,
        k = j + 1 ∧ total - c.response.bodySize - bodyBytes (rest.take j) ≤ maximum := by
      intro k hk
      cases k with
      | zero => exact absurd hk (Nat.not_le_of_lt hover)
      | succ j => exact ⟨j, rfl, hsub j ▸ hk⟩
    unfold Store.evictions
    dsimp only
    split
    · refine ⟨1, rfl, ?_⟩
      intro k hk
      rcases hsome k hk with ⟨j, rfl, _⟩
      exact Nat.succ_le_succ (Nat.zero_le j)
    · rename_i hmore
      rcases ih (Nat.lt_of_not_le hmore) with ⟨n, hn, hleast⟩
      refine ⟨n + 1, by rw [hn, hsub]; rfl, ?_⟩
      intro k hk
      rcases hsome k hk with ⟨j, rfl, hj⟩
      exact Nat.succ_le_succ (hleast j hj)

theorem bytes_evictOldest (s : Store) (p : CacheEntry -> Bool) (n : Nat) :
    bodyBytes s.entries.rows - bodyBytes (s.oldest p n) =
      bodyBytes (s.evictOldest p n).entries.rows := by
  have hsum := ((perm_evictOldest s p n).map fun c => c.response.bodySize).sum_eq
  rw [List.map_append, List.sum_append] at hsum
  exact Nat.sub_eq_of_eq_add' hsum.symm

theorem least_bytes {keepId maximum : Nat} (hquota : s.enforceByteQuota keepId maximum = .ok t) :
    exists n, IsLeast { k | bodyBytes (s.evictOldest (fun c => c.id ≠ keepId) k).entries.rows ≤
      maximum } n ∧ t = s.evictOldest (fun c => c.id ≠ keepId) n := by
  unfold Store.enforceByteQuota at hquota
  dsimp only at hquota
  split at hquota
  · rename_i hfits
    cases hquota
    refine ⟨0, ⟨?_, fun k _ => Nat.zero_le k⟩, (evictOldest_zero s _).symm⟩
    change bodyBytes (s.evictOldest _ 0).entries.rows ≤ maximum
    rw [evictOldest_zero]
    exact hfits
  · rename_i hover
    simp only [ok_iff] at hquota
    rcases hquota with ⟨hfits, rfl⟩
    rcases evictions_spec _ (Nat.lt_of_not_le hover) with ⟨n, hn, hleast⟩
    rw [hn] at hfits ⊢
    refine ⟨n, ⟨(bytes_evictOldest s _ n).symm.trans_le hfits, ?_⟩, rfl⟩
    intro k hk
    exact hleast k ((bytes_evictOldest s _ k).trans_le hk)

end Evictions

/--
A put that fails changes nothing.  After one that succeeds the entry is stored, the
variants and the bytes are within their limits, and no more was evicted than the
oldest other entries that had to go.  A configuration allows at least one variant.
-/
theorem put_within_quotas {host : Host} {config : ResponseCacheConfig}
    (hconfig : 0 < config.maxVariantsPerKey) {w w' : World} {ticket : Nat}
    {identity : CacheIdentity} {requestHeaders : Headers} {response : CacheStoredResponse}
    {refreshToken : Option Token} {nowMs : Millis}
    (hnext : w.next host config
      (.put ticket identity requestHeaders response refreshToken nowMs) = some w') :
    exists fence, w.tickets[ticket]? = some fence ∧ let put : CachePut :=
        ⟨identity, requestHeaders, response, fence, refreshToken, nowMs⟩
      (exists error, w.store.put host config put ticket = .error error ∧ w' = w) ∨
      exists store, w.store.put host config put ticket = .ok store ∧ w' = { w with store } ∧
        WithinQuotas config (w.store.stored host put ticket) (w.store.written host put ticket)
          store := by
  rcases Option.map_eq_some_iff.mp hnext with ⟨fence, hticket, rfl⟩
  refine ⟨fence, hticket, ?_⟩
  dsimp only
  generalize CachePut.mk identity requestHeaders response fence refreshToken nowMs = put
  cases hput : w.store.put host config put ticket with
  | error error => exact Or.inl ⟨error, rfl, rfl⟩
  | ok store =>
    refine Or.inr ⟨store, rfl, rfl, ?_⟩
    simp only [Store.put, ok_iff] at hput
    rcases hput with ⟨_, _, _, _, _, _, _, _, hquota⟩
    have hentry : w.store.written host put ticket ∈ (w.store.stored host put ticket).entries :=
      mem_put.mpr (Or.inr rfl)
    have hvariants := least_variants hentry hconfig
    rcases least_bytes hquota with ⟨n, hbytes, rfl⟩
    refine ⟨?_, ?_, hbytes.left, _, n, hvariants, hbytes, rfl⟩
    · exact mem_evictOldest (mem_evictOldest hentry (by simp)) (by simp)
    · exact List.filter_sublist.countP_le.trans hvariants.left

namespace Sample

def host : Host where
  baseHash := fun _ => 0
  varyFingerprint := fun _ _ => 0
  parseUrl := fun text => (["/page", "/other"].find? fun path =>
    text = "https://worker.test" ++ path).map fun path =>
      ⟨"https", some "worker.test", none, path, none, none⟩
  printUrl := fun url => url.scheme ++ "://" ++ url.host.getD "" ++ url.path

def config : ResponseCacheConfig := { maxVariantsPerKey := 8, maxBytesPerWorker := 1000 }

def page : CacheIdentity :=
  ⟨.automatic, some "default", "shared", none, "https://worker.test/page", .get⟩

def other : CacheIdentity := { page with canonicalUrl := "https://worker.test/other" }

def response (freshUntilMs : Millis) (generation : Nat) : CacheStoredResponse :=
  ⟨200, [("content-type", "text/html")], String.ofList (List.replicate 64 '0'), 10, ["accept"],
    ["news"], freshUntilMs, freshUntilMs + 10, freshUntilMs + 10, generation⟩

def narrow : Host := { host with baseHash := fun identity => identity.canonicalUrl.length }

def small : ResponseCacheConfig := { config with maxBytesPerWorker := 15 }

end Sample

open Sample in
theorem put_within_quotas_evicting : exists (w w' : World) (put : CachePut), w.next narrow small
      (.put 0 other [] (response 100 2) none 2) = some w' ∧
    w.store.entries.keys = [1] ∧ w'.store.entries.keys = [2] ∧
    WithinQuotas small (w.store.stored narrow put 0) (w.store.written narrow put 0) w'.store := by
  have hexec : exists w, Run (World.next narrow small) always World.initial
      [.preparePut page, .put 0 page [] (response 100 1) none 1] w ∧
      w.store.entries.keys = [1] ∧ exists w', w.next narrow small
        (.put 0 other [] (response 100 2) none 2) = some w' ∧
        w'.store.entries.keys = [2] :=
    exists_run_of_execute (by decide +kernel)
  rcases hexec with ⟨w, _, hbefore, w', hnext, hafter⟩
  rcases put_within_quotas (by decide) hnext with
    ⟨fence, _, ⟨error, _, rfl⟩ | ⟨store, _, rfl, hquotas⟩⟩
  · cases hbefore.symm.trans hafter
  · exact ⟨w, _, _, hnext, hbefore, hafter, hquotas⟩

end Cache
end OpenCompute
