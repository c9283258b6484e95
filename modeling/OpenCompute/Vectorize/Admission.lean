import OpenCompute.Vectorize.Items

/-!
# Admission is binding

The visible vectors are the fold of the applied mutations.  A mutation is
admitted when the fold of everything accepted so far, itself included, is
within the quotas.  This is what the vectors are once it is applied, so the
second check of the quotas passes.
-/

namespace OpenCompute
namespace Vectorize

open Function Relational Table Transaction Transition List

variable {β : Type} {json : Json β} {engine : VectorizeEngine}

/-! ## What the visible vectors should be -/

abbrev Visible (β : Type) := Text -> Option (VectorRow β)

def StoredItem.row (item : StoredItem β) (sequence : Nat) : VectorRow β :=
  ⟨item.id, item.namespaceName, item.values.getD [], item.metadata, sequence⟩

/-- An insert leaves a vector that is there, and an upsert replaces it. -/
def Visible.write (kind : VectorMutationKind) (sequence : Nat) (visible : Visible β)
    (item : StoredItem β) : Visible β :=
  match kind with
  | .insert => Function.update visible item.id
    (some ((visible item.id).getD (item.row sequence)))
  | .upsert => Function.update visible item.id (some (item.row sequence))
  | .delete => Function.update visible item.id none

/-- The fold of mutations with consecutive sequences. -/
def Visible.fold (visible : Visible β) : List (Accepted β) -> Nat -> Visible β
  | [], _ => visible
  | a :: rest, sequence =>
    (a.items.foldl (Visible.write a.kind sequence) visible).fold rest (sequence + 1)

/-! ## What the code makes of them -/

abbrev Vectors (β : Type) := Table (VectorRow.id (β := β))

def writeRow (kind : VectorMutationKind) (sequence : Nat) (vectors : Vectors β)
    (item : StoredItem β) : Vectors β :=
  match kind with
  | .insert => (vectors.insert? (item.row sequence)).getD vectors
  | .upsert => vectors.put (item.row sequence)
  | .delete => vectors.erase item.id

def foldRows (vectors : Vectors β) : List (Accepted β) -> Nat -> Vectors β
  | [], _ => vectors
  | a :: rest, sequence =>
    foldRows (a.items.foldl (writeRow a.kind sequence) vectors) rest (sequence + 1)

theorem foldRows_append (vectors : Vectors β) (first rest : List (Accepted β)) (sequence : Nat) :
    foldRows vectors (first ++ rest) sequence =
      foldRows (foldRows vectors first sequence) rest (sequence + first.length) := by
  induction first generalizing vectors sequence with
  | nil => rfl
  | cons a first ih =>
    rw [cons_append, foldRows, ih, length_cons]
    congr 1
    omega

section Write

variable {kind : VectorMutationKind} {vectors : Vectors β} {item : StoredItem β}

theorem writeRow_cases (hkind : kind ≠ .delete) (sequence : Nat) (vectors : Vectors β)
    (item : StoredItem β) :
    (vectors.find? item.id = none ∧ exists u, vectors.insert? (item.row sequence) = some u ∧
      writeRow kind sequence vectors item = u) ∨
    (exists old, vectors.find? item.id = some old ∧
      ((kind = .insert ∧ writeRow kind sequence vectors item = vectors) ∨
        (kind = .upsert ∧ writeRow kind sequence vectors item =
          vectors.replace (item.row sequence)))) := by
  cases hfind : vectors.find? item.id with
  | none =>
    rcases exists_insert? (x := item.row sequence) (find?_eq_none_iff_keys.mp hfind) with ⟨u, hu⟩
    refine .inl ⟨rfl, u, hu, ?_⟩
    cases kind with
    | delete => exact absurd rfl hkind
    | _ => simp [writeRow, Table.put, hu]
  | some old =>
    have hnone : vectors.insert? (item.row sequence) = none :=
      dif_pos (exists_find?_iff_keys.mp ⟨old, hfind⟩)
    refine .inr ⟨old, rfl, ?_⟩
    cases kind with
    | delete => exact absurd rfl hkind
    | insert => exact .inl ⟨rfl, by simp [writeRow, hnone]⟩
    | upsert => exact .inr ⟨rfl, by simp [writeRow, Table.put, hnone]⟩

theorem find?_writeRow (kind : VectorMutationKind) (sequence : Nat) (vectors : Vectors β)
    (item : StoredItem β) :
    (writeRow kind sequence vectors item).find? =
      Visible.write kind sequence vectors.find? item := by
  funext id
  by_cases hkind : kind = .delete
  · subst hkind
    rw [writeRow, find?_erase, Visible.write, update_apply]
  · rcases writeRow_cases hkind sequence vectors item with
      ⟨hfind, _, hu, hwrite⟩ | ⟨_, hfind, ⟨rfl, hwrite⟩ | ⟨rfl, hwrite⟩⟩
    · rw [hwrite, find?_of_insert? hu]
      cases kind with
      | delete => exact absurd rfl hkind
      | _ =>
        simp only [Visible.write, update_apply, hfind, Option.getD_none]
        rfl
    · rw [hwrite, Visible.write, hfind, Option.getD_some, ← hfind, update_eq_self]
    · rcases find?_eq_some.mp hfind with ⟨hold, hid⟩
      rw [hwrite, find?_replace hold hid, Visible.write, update_apply]
      rfl

end Write

theorem find?_foldRows (vectors : Vectors β) (accepted : List (Accepted β)) (sequence : Nat) :
    (foldRows vectors accepted sequence).find? = Visible.fold vectors.find? accepted sequence := by
  induction accepted generalizing vectors sequence with
  | nil => rfl
  | cons a rest ih =>
    have hitems : (a.items.foldl (writeRow a.kind sequence) vectors).find? =
        a.items.foldl (Visible.write a.kind sequence) vectors.find? := by
      generalize a.items = items
      induction items generalizing vectors with
      | nil => rfl
      | cons item items ihitems => rw [foldl_cons, foldl_cons, ihitems, find?_writeRow]
    rw [foldRows, Visible.fold, ih, hitems]

/-! ## The projection -/

variable {kind : VectorMutationKind} {item : StoredItem β} {sequence : Nat} {s : Store β}
  {vectors : Vectors β} {m : VectorMutation β}

theorem ValidItem.row_bytes (h : ValidItem json engine kind item) (hkind : kind ≠ .delete)
    (sequence : Nat) : (item.row sequence).bytes json = item.bytes json := by
  rcases h.exists_values hkind with ⟨_, hvalues⟩
  simp [StoredItem.row, VectorRow.bytes, StoredItem.bytes, hvalues]

theorem projectVectors_writeRow (h : ValidItem json engine kind item) (sequence : Nat)
    (vectors : Vectors β) :
    projectVectors json (writeRow kind sequence vectors item) =
      project kind (projectVectors json vectors) (item.id, item.bytes json) := by
  by_cases hkind : kind = .delete
  · subst hkind
    exact (erase_mapRows (fun _ => rfl) item.id).symm
  · have hentry : (item.id, item.bytes json) =
        (fun row : VectorRow β => (row.id, row.bytes json)) (item.row sequence) := by
      dsimp only
      rw [h.row_bytes hkind]
      rfl
    rw [hentry]
    cases kind with
    | delete => exact absurd rfl hkind
    | insert =>
      simp only [project, projectVectors, insert?_mapRows, writeRow]
      cases vectors.insert? (item.row sequence) <;> rfl
    | upsert => exact (put_mapRows (fun _ => rfl) (item.row sequence)).symm

theorem projectVectors_foldRows {mutations : List (VectorMutation β)} {accepted : List (Accepted β)}
    (hview : mutations.map (fun m => (Accepted.mk m.kind m.items, m.sequence)) =
      accepted.zipIdx sequence)
    (hvalid : forall a, a ∈ accepted -> ValidItems json engine a.kind a.items)
    (vectors : Vectors β) :
    mutations.foldl (projectMutation json) (projectVectors json vectors) =
      projectVectors json (foldRows vectors accepted sequence) := by
  induction accepted generalizing mutations vectors sequence with
  | nil =>
    rw [zipIdx_nil, map_eq_nil_iff] at hview
    rw [hview]
    rfl
  | cons a rest ih =>
    rw [zipIdx_cons, map_eq_cons_iff] at hview
    rcases hview with ⟨m, _, rfl, hm, hothers⟩
    simp only [Prod.mk.injEq] at hm
    have hitems : projectMutation json (projectVectors json vectors) m =
        projectVectors json (a.items.foldl (writeRow a.kind sequence) vectors) := by
      rw [projectMutation, ← hm.left]
      have hall := (hvalid a mem_cons_self).items
      rw [← hm.left] at hall
      generalize m.items = items at hall
      induction items generalizing vectors with
      | nil => rfl
      | cons item items ihitems =>
        rw [foldl_cons, foldl_cons, ← projectVectors_writeRow
          (hall item mem_cons_self) sequence vectors]
        exact ihitems _ fun other hother => hall other (mem_cons_of_mem item hother)
    rw [foldl_cons, hitems]
    exact ih hothers (fun b hb => hvalid b (mem_cons_of_mem a hb)) _

/-! ## The quotas -/

def totalBytes (json : Json β) (vectors : Vectors β) : Nat :=
  (vectors.rows.map fun row => row.bytes json).sum

structure Fits (json : Json β) (engine : VectorizeEngine) (vectors : Vectors β) : Prop where
  count : vectors.rows.length ≤ engine.quotaVectors
  bytes : totalBytes json vectors ≤ engine.quotaBytes

theorem finalBytes_writeRow (sequence : Nat) (hkind : kind ≠ .delete)
    (hitem : ValidItem json engine kind item)
    (hfind : s.vectors.find? item.id = vectors.find? item.id)
    (hbound : totalBytes json vectors + item.bytes json ≤ u64Max) :
    s.finalBytes json kind (totalBytes json vectors) item =
        .ok (totalBytes json (writeRow kind sequence vectors item)) ∧
      totalBytes json (writeRow kind sequence vectors item) ≤
        totalBytes json vectors + item.bytes json ∧
      (writeRow kind sequence vectors item).rows.length = vectors.rows.length +
        ((s.vectors.find? item.id).isNone).toNat := by
  have hrow := hitem.row_bytes hkind sequence
  unfold Store.finalBytes
  rw [hfind]
  rcases writeRow_cases hkind sequence vectors item with
    ⟨hnone, u, hu, hwrite⟩ | ⟨old, hsome, ⟨rfl, hwrite⟩ | ⟨rfl, hwrite⟩⟩
  · have hrows := (insert?_eq_some.mp hu).right
    have htotal : totalBytes json u = totalBytes json vectors + item.bytes json := by
      rw [totalBytes, hrows, map_append, sum_append, map_singleton,
        sum_singleton, hrow]
      rfl
    rw [hwrite, hnone, htotal, hrows]
    simp [hbound]
  · rw [hwrite, hsome]
    simp
  · rcases find?_eq_some.mp hsome with ⟨hold, hid⟩
    have hbefore := ((perm_cons_erase hold).map fun row => row.bytes json).sum_eq
    have hafter := ((perm_replace (x := item.row sequence) hold hid).map
      fun row => row.bytes json).sum_eq
    rw [map_cons, sum_cons, hid] at hbefore
    rw [map_cons, hrow] at hafter
    change totalBytes json vectors = _ at hbefore
    change totalBytes json (vectors.replace (item.row sequence)) = _ at hafter
    have hlength : (vectors.replace (item.row sequence)).rows.length = vectors.rows.length :=
      length_map _
    rw [hwrite, hsome, hlength]
    change _ = item.bytes json + ((vectors.erase item.id).rows.map _).sum at hafter
    have hle : old.bytes json ≤ totalBytes json vectors := by omega
    have hnew : totalBytes json vectors - old.bytes json + item.bytes json =
        totalBytes json (vectors.replace (item.row sequence)) := by omega
    have hfit : totalBytes json vectors - old.bytes json + item.bytes json ≤ u64Max := by omega
    simp only [reduceCtorEq, if_false, ok_iff]
    exact ⟨⟨hle, hfit, hnew⟩, by omega, rfl⟩

theorem find?_writeRow_of_ne {id : Text} (hne : id ≠ item.id) :
    (writeRow kind sequence vectors item).find? id = vectors.find? id := by
  rw [find?_writeRow]
  cases kind <;> exact update_of_ne hne _ _

theorem finalBytes_foldl (sequence : Nat) (hkind : kind ≠ .delete) {items : List (StoredItem β)}
    (hitems : forall item, item ∈ items -> ValidItem json engine kind item)
    (hnodup : (items.map StoredItem.id).Nodup)
    (hfind : forall item, item ∈ items -> s.vectors.find? item.id = vectors.find? item.id)
    (hbound : totalBytes json vectors + (items.map fun item => item.bytes json).sum ≤ u64Max) :
    items.foldlM (s.finalBytes json kind) (totalBytes json vectors) =
        .ok (totalBytes json (items.foldl (writeRow kind sequence) vectors)) ∧
      (items.foldl (writeRow kind sequence) vectors).rows.length =
        vectors.rows.length + s.addedVectors items := by
  induction items generalizing vectors with
  | nil => exact ⟨rfl, rfl⟩
  | cons item items ih =>
    rw [map_cons, nodup_cons] at hnodup
    rw [map_cons, sum_cons] at hbound
    rcases finalBytes_writeRow sequence hkind (hitems item mem_cons_self)
      (hfind item mem_cons_self) (by omega) with ⟨hbytes, _, hlength⟩
    have hrest : forall other, other ∈ items -> s.vectors.find? other.id =
        (writeRow kind sequence vectors item).find? other.id := by
      intro other hother
      have hne : other.id ≠ item.id := fun h => hnodup.left (h ▸ mem_map_of_mem hother)
      rw [find?_writeRow_of_ne hne]
      exact hfind other (mem_cons_of_mem item hother)
    rcases ih (fun other hother => hitems other (mem_cons_of_mem item hother))
      hnodup.right hrest (by omega) with ⟨hfold, hcount⟩
    refine ⟨foldlM_cons_eq_ok.mpr ⟨_, hbytes, hfold⟩, ?_⟩
    rw [foldl_cons, hcount, hlength, Store.addedVectors, Store.addedVectors, countP_cons]
    cases (s.vectors.find? item.id).isNone <;> simp; omega

theorem exceededQuota_eq_none (hvalid : ValidItems json engine m.kind m.items)
    (hcurrent : totalBytes json s.vectors ≤ engine.quotaBytes)
    (hpayload : (m.items.map fun item => item.bytes json).sum ≤ engine.quotaBytes)
    (hfits : Fits json engine (m.items.foldl (writeRow m.kind m.sequence) s.vectors)) :
    s.exceededQuota json engine m = .ok none := by
  have hquota := engine.quotaBytes_range.right
  unfold Store.exceededQuota
  by_cases hkind : m.kind = .delete
  · rw [if_pos hkind]
    rfl
  · rw [i64Max] at hquota
    have hbound : totalBytes json s.vectors + (m.items.map fun item => item.bytes json).sum ≤
        u64Max := by
      rw [u64Max]
      omega
    rcases finalBytes_foldl m.sequence hkind hvalid.items hvalid.ids
      (fun _ _ => rfl) hbound with ⟨hbytes, hcount⟩
    have hcountFits := hfits.count
    rw [hcount] at hcountFits
    rw [if_neg hkind, if_neg (Nat.not_lt.mpr hcountFits)]
    simp only [ok_iff]
    refine ⟨?_, _, hbytes, ?_⟩
    · change ((totalBytes json s.vectors : Nat) : Int) ≤ i64Max
      rw [i64Max]
      omega
    · rw [if_neg (Nat.not_lt.mpr hfits.bytes)]
      rfl

/-! ## Applying the items -/

theorem applyWrite_total (hkind : kind ≠ .delete) (hitem : ValidItem json engine kind item)
    (hsequence : 1 ≤ sequence ∧ (sequence : Int) ≤ i64Max) (s : Store β) :
    exists terms, Store.applyWrite json kind sequence s item =
      .ok { s with vectors := writeRow kind sequence s.vectors item, terms } := by
  rcases hitem.exists_values hkind with ⟨values, hvalues⟩
  have hrow : item.row sequence =
      ⟨item.id, item.namespaceName, values, item.metadata, sequence⟩ := by
    simp [StoredItem.row, hvalues]
  have hmetadata : forall metadata, item.metadata = some metadata ->
      exists value, json.parse metadata = some value := by
    intro metadata h
    rcases hitem.metadata metadata h with ⟨value, hparse, _⟩
    exact ⟨value, hparse⟩
  have hchecks : 1 ≤ sequence ∧ (sequence : Int) ≤ i64Max ∧ 1 ≤ item.id.len ∧ item.id.len ≤ 64 ∧
      item.namespaceName.all (fun value => decide (1 ≤ value.len ∧ value.len ≤ 64)) = true ∧
      item.metadata.all (fun metadata => decide (json.size metadata ≤ 10240)) = true := by
    have hid := one_le_len_of_validIdentity hitem.id
    refine ⟨hsequence.left, hsequence.right, hid.left, hid.right, ?_, ?_⟩
    · rw [Option.all_eq_true]
      intro value hvalue
      have hname := (Option.all_eq_true _ _).mp hitem.namespaceName value hvalue
      exact decide_eq_true (one_le_len_of_validIdentity hname)
    · rw [Option.all_eq_true]
      intro metadata h
      rcases hitem.metadata metadata h with ⟨_, _, hprinted⟩
      simp only [canonicalMetadata, ok_iff] at hprinted
      rcases hprinted with ⟨_, _, hsize, rfl⟩
      exact decide_eq_true hsize
  have hput (hwrite : writeRow kind sequence s.vectors item = s.vectors.put (item.row sequence))
      (hnot : ¬ (kind = .insert ∧ (s.vectors.find? item.id).isSome = true)) :
      exists terms, Store.applyWrite json kind sequence s item =
        .ok { s with vectors := writeRow kind sequence s.vectors item, terms } := by
    rcases insertAllTerms_total s item.id hmetadata with ⟨terms, hterms⟩
    refine ⟨terms, ?_⟩
    rw [hwrite, hrow]
    simp only [Store.applyWrite, ok_iff]
    refine ⟨values, hvalues, hchecks, ?_⟩
    rw [if_neg hnot]
    simp only [ok_iff]
    exact ⟨terms, hterms, rfl⟩
  rcases writeRow_cases hkind sequence s.vectors item with
    ⟨hnone, _, hu, hwrite⟩ | ⟨_, hsome, ⟨rfl, hwrite⟩ | ⟨rfl, hwrite⟩⟩
  · apply hput
    · rw [hwrite, Table.put, hu]
      rfl
    · rw [hnone]
      exact fun h => by cases h.right
  · refine ⟨s.terms, ?_⟩
    simp only [Store.applyWrite, ok_iff]
    refine ⟨values, hvalues, hchecks, ?_⟩
    rw [if_pos ⟨trivial, by rw [hsome]; rfl⟩, hwrite]
    rfl
  · apply hput rfl
    exact fun h => by cases h.left

theorem applyItems_total (hitems : forall item, item ∈ m.items -> ValidItem json engine m.kind item)
    (hsequence : 1 ≤ m.sequence ∧ (m.sequence : Int) ≤ i64Max) (s : Store β) :
    exists terms, s.applyItems json m =
      .ok { s with vectors := m.items.foldl (writeRow m.kind m.sequence) s.vectors, terms } := by
  by_cases hkind : m.kind = .delete
  · simp only [Store.applyItems, hkind]
    generalize m.items = items
    induction items generalizing s with
    | nil => exact ⟨s.terms, rfl⟩
    | cons item items ih => exact ih (s.deleteVector item)
  · have hloop : exists terms, m.items.foldlM (Store.applyWrite json m.kind m.sequence) s =
        .ok { s with vectors := m.items.foldl (writeRow m.kind m.sequence) s.vectors, terms } := by
      generalize m.items = items at hitems
      induction items generalizing s with
      | nil => exact ⟨s.terms, rfl⟩
      | cons item items ih =>
        rcases applyWrite_total hkind (hitems item mem_cons_self) hsequence s with ⟨_, hmid⟩
        rcases ih _ (fun other hother => hitems other (mem_cons_of_mem item hother)) with
          ⟨terms, hterms⟩
        exact ⟨terms, foldlM_cons_eq_ok.mpr ⟨_, hmid, hterms⟩⟩
    rcases hloop with ⟨terms, hterms⟩
    refine ⟨terms, ?_⟩
    unfold Store.applyItems
    cases hcase : m.kind with
    | delete => exact absurd hcase hkind
    | _ =>
      rw [hcase] at hterms
      exact hterms

end Vectorize
end OpenCompute
