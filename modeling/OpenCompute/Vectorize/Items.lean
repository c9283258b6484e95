import OpenCompute.Vectorize.Engine

/-!
# Items that were admitted

Admission encodes the items of a mutation and application decodes and checks
them again.  What was encoded passes the second check.
-/

namespace OpenCompute
namespace Vectorize

open Relational Transaction
open List hiding mem_filter

/-! ## Values -/

theorem fromLeBytes_toLeBytes (value : F32) :
    fromLeBytes (value.extractLsb' 0 8).toFin (value.extractLsb' 8 8).toFin
      (value.extractLsb' 16 8).toFin (value.extractLsb' 24 8).toFin = value := by
  change value.extractLsb' 24 8 ++ value.extractLsb' 16 8 ++ value.extractLsb' 8 8 ++
    value.extractLsb' 0 8 = value
  apply BitVec.eq_of_getLsbD_eq
  intro i hi
  grind

theorem length_flatMap_toLeBytes (values : List F32) :
    (values.flatMap toLeBytes).length = values.length * 4 := by
  induction values with
  | nil => rfl
  | cons value values ih =>
    rw [flatMap_cons, length_append, ih, length_cons]
    change 4 + values.length * 4 = _
    omega

theorem decodeChunks_flatMap {values : List F32} (hfinite : values.all isFinite = true) :
    decodeChunks (values.flatMap toLeBytes) = .ok values := by
  induction values with
  | nil => rfl
  | cons value values ih =>
    rw [all_cons, Bool.and_eq_true] at hfinite
    change decodeChunks ((value.extractLsb' 0 8).toFin :: (value.extractLsb' 8 8).toFin ::
      (value.extractLsb' 16 8).toFin :: (value.extractLsb' 24 8).toFin ::
        values.flatMap toLeBytes) = _
    simp only [decodeChunks, fromLeBytes_toLeBytes, ok_iff]
    exact ⟨hfinite.left, values, ih hfinite.right, rfl⟩

theorem decodeValues_of_encodeValues {values : List F32} {dimensions : Nat} {bytes : List Byte}
    (h : encodeValues values dimensions = .ok bytes) :
    decodeValues bytes dimensions = .ok values := by
  simp only [encodeValues, ok_iff] at h
  rcases h with ⟨⟨hlength, hfinite⟩, rfl⟩
  simp only [decodeValues, ok_iff]
  refine ⟨?_, decodeChunks_flatMap hfinite⟩
  rw [length_flatMap_toLeBytes, hlength]

/-! ## Items -/

variable {β : Type} {json : Json β} {engine : VectorizeEngine} {kind : VectorMutationKind}

def Printed (json : Json β) (metadata : β) : Prop :=
  exists value, json.parse metadata = some value ∧ canonicalMetadata json value = .ok metadata

structure ValidItem (json : Json β) (engine : VectorizeEngine) (kind : VectorMutationKind)
    (item : StoredItem β) : Prop where
  id : validIdentity item.id maxIdBytes = true
  namespaceName : item.namespaceName.all (fun value => validIdentity value maxNamespaceBytes) = true
  values : validValues kind engine.dimensions item.values = .ok ()
  metadata : forall metadata, item.metadata = some metadata -> Printed json metadata

structure ValidItems (json : Json β) (engine : VectorizeEngine) (kind : VectorMutationKind)
    (items : List (StoredItem β)) : Prop where
  count : items.length ≠ 0 ∧ items.length ≤ maxBatchItems
  ids : (items.map StoredItem.id).Nodup
  items : forall item, item ∈ items -> ValidItem json engine kind item

theorem Printed.validMetadata [DecidableEq β] {metadata : β} (h : Printed json metadata) :
    validMetadata json metadata = true := by
  rcases h with ⟨_, hparse, hprint⟩
  simp [Vectorize.validMetadata, hparse, hprint]

theorem validValues_of_encodeItemValues {values : Option (List F32)}
    {encoded : Option (List Byte)} (h : encodeItemValues engine kind values = .ok encoded) :
    validValues kind engine.dimensions encoded = .ok () := by
  unfold encodeItemValues at h
  split at h
  · rw [pure_eq_ok] at h
    subst h
    rfl
  · rcases map_eq_ok.mp h with ⟨bytes, hbytes, rfl⟩
    simp [validValues, decodeValues_of_encodeValues hbytes]
  · rcases map_eq_ok.mp h with ⟨_, hbytes, rfl⟩
    simp [validValues, decodeValues_of_encodeValues hbytes]
  · cases h

theorem validateItem_eq_ok {encoded result : List (StoredItem β)} {item : VectorMutationInput}
    (h : validateItem json engine kind encoded item = .ok result) :
    (result = encoded ∧ encoded ≠ []) ∨ exists stored, result = encoded ++ [stored] ∧
      ValidItem json engine kind stored ∧
      forall other, other ∈ encoded -> other.id ≠ stored.id := by
  unfold validateItem at h
  split at h
  · rename_i hseen
    rw [pure_eq_ok] at h
    refine .inl ⟨h.symm, ?_⟩
    rintro rfl
    cases hseen
  · rename_i hseen
    right
    simp only [ok_iff] at h
    rcases h with ⟨⟨hid, hnamespace⟩, _, hvalues, _, _, hmetadata, rfl⟩
    refine ⟨_, rfl, ⟨hid, hnamespace, validValues_of_encodeItemValues hvalues, ?_⟩, ?_⟩
    · rintro printed rfl
      cases hvalue : item.metadata with
      | none =>
        rw [hvalue] at hmetadata
        cases hmetadata
      | some value =>
        rw [hvalue] at hmetadata
        rcases map_eq_ok.mp hmetadata with ⟨_, hprinted, ⟨⟩⟩
        refine ⟨value, ?_, hprinted⟩
        simp only [canonicalMetadata, ok_iff] at hprinted
        rcases hprinted with ⟨_, _, _, rfl⟩
        exact json.parse_print value
    · intro other hother hsame
      exact hseen (any_eq_true.mpr ⟨other, hother, decide_eq_true hsame⟩)

theorem validateBatch_eq_ok {items : List VectorMutationInput} {encoded : List (StoredItem β)}
    (h : validateBatch json engine kind items = .ok encoded) :
    ValidItems json engine kind encoded := by
  simp only [validateBatch, ok_iff] at h
  rcases h with ⟨⟨hnonempty, hmax⟩, hfold⟩
  have hmotive := foldlM_rec (fun rest encoded =>
      (encoded.map StoredItem.id).Nodup ∧ (forall item, item ∈ encoded ->
        ValidItem json engine kind item) ∧ encoded.length + rest.length ≤ items.length ∧
      (rest.length = items.length ∨ encoded ≠ []))
    (by
      rintro item rest encoded result ⟨hids, hvalid, hlength, _⟩ hitem
      rw [length_cons] at hlength
      rcases validateItem_eq_ok hitem with ⟨rfl, hne⟩ | ⟨_, rfl, hstored, hfresh⟩
      · exact ⟨hids, hvalid, by omega, .inr hne⟩
      · refine ⟨?_, ?_, ?_, .inr (by simp)⟩
        · rw [map_append, map_singleton]
          refine List.Nodup.append hids (nodup_singleton _) ?_
          rw [disjoint_singleton]
          intro hmem
          rcases mem_map.mp hmem with ⟨other, hother, hsame⟩
          exact hfresh other hother hsame
        · intro item hitem
          rcases mem_append.mp hitem with hitem | hitem
          · exact hvalid item hitem
          · rw [mem_singleton.mp hitem]
            exact hstored
        · rw [length_append, length_singleton]
          omega)
    ⟨nodup_nil, forall_mem_nil _, by simp, .inl rfl⟩ hfold
  rcases hmotive with ⟨hids, hvalid, hlength, hfull⟩
  refine ⟨⟨?_, ?_⟩, hids, hvalid⟩
  · rcases hfull with hempty | hne
    · exact absurd hempty.symm hnonempty
    · exact fun hzero => hne (length_eq_zero_iff.mp hzero)
  · exact hlength.trans hmax

theorem ValidItems.persisted [DecidableEq β] {items : List (StoredItem β)}
    (h : ValidItems json engine kind items) :
    validatePersistedItems json engine items kind = .ok () := by
  have hstep : forall item rest ids, (ids ++ (item :: rest).map StoredItem.id).Nodup ∧
      (forall other, other ∈ item :: rest -> ValidItem json engine kind other) ->
      exists next, validatePersistedItem json engine kind ids item = .ok next ∧
        (next ++ rest.map StoredItem.id).Nodup ∧
        forall other, other ∈ rest -> ValidItem json engine kind other := by
    rintro item rest ids ⟨hids, hvalid⟩
    have hitem := hvalid item mem_cons_self
    refine ⟨ids ++ [item.id], ?_, ?_, fun other hother =>
      hvalid other (mem_cons_of_mem item hother)⟩
    · simp only [validatePersistedItem, ok_iff]
      refine ⟨⟨hitem.id, ?_⟩, hitem.namespaceName, hitem.values, ?_, trivial⟩
      · intro hmem
        rw [nodup_append] at hids
        exact hids.right.right item.id hmem item.id mem_cons_self rfl
      · rw [Option.all_eq_true]
        intro metadata hmetadata
        exact (hitem.metadata metadata hmetadata).validMetadata
    · rw [append_assoc]
      exact hids
  have hstart : ([] ++ items.map StoredItem.id).Nodup ∧
      forall item, item ∈ items -> ValidItem json engine kind item := ⟨h.ids, h.items⟩
  rcases foldlM_total (fun rest ids => (ids ++ rest.map StoredItem.id).Nodup ∧
    forall item, item ∈ rest -> ValidItem json engine kind item) hstep hstart with ⟨ids, hfold, _⟩
  simp only [validatePersistedItems, ok_iff]
  exact ⟨h.count, ids, hfold, trivial⟩

/-! What a valid item of a write has. -/

theorem ValidItem.exists_values {item : StoredItem β} (h : ValidItem json engine kind item)
    (hkind : kind ≠ .delete) : exists values, item.values = some values := by
  have hvalues := h.values
  unfold validValues at hvalues
  split at hvalues
  · exact absurd rfl hkind
  · rename_i bytes hbytes
    exact ⟨bytes, hbytes⟩
  · rename_i bytes hbytes
    exact ⟨bytes, hbytes⟩
  · cases hvalues

theorem one_le_len_of_validIdentity {value : Text} {max : Nat}
    (h : validIdentity value max = true) : 1 ≤ value.len ∧ value.len ≤ max := by
  simp only [validIdentity, Bool.and_eq_true, Bool.not_eq_true', decide_eq_true_eq] at h
  refine ⟨?_, h.right⟩
  cases hchars : value.chars with
  | nil =>
    rw [hchars] at h
    cases h.left
  | cons c chars =>
    have hchar : 0 < (String.utf8EncodeChar c).length := by
      rw [String.length_utf8EncodeChar]
      exact Char.utf8Size_pos c
    rw [Text.len, Text.bytes, hchars, flatMap_cons, length_append, length_map]
    omega

/-!
## Terms of indexed metadata

The terms of a vector are derived from its metadata for each declared index.  A
write replaces all terms of its vector, so that their keys do not clash.
-/

open Table

theorem foldlM_insert? {α κ ε : Type} {key : α -> κ} [DecidableEq κ] (e : ε) {xs : List α}
    {t : Table key} (hnodup : (xs.map key).Nodup) (hfresh : forall x, x ∈ xs -> ¬ key x ∈ t.keys) :
    exists u, xs.foldlM (fun (t : Table key) x => okOr (t.insert? x) e) t = .ok u ∧
      forall y, y ∈ u ↔ y ∈ t ∨ y ∈ xs := by
  induction xs generalizing t with
  | nil => exact ⟨t, rfl, by simp⟩
  | cons x xs ih =>
    rw [map_cons, nodup_cons] at hnodup
    rcases exists_insert? (hfresh x mem_cons_self) with ⟨u, hu⟩
    have hrest : forall y, y ∈ xs -> ¬ key y ∈ u.keys := by
      intro y hy hmem
      rcases (mem_keys_of_insert? hu).mp hmem with hold | hsame
      · exact hfresh y (mem_cons_of_mem x hy) hold
      · exact hnodup.left (hsame ▸ mem_map_of_mem hy)
    rcases ih hnodup.right hrest with ⟨v, hv, hmem⟩
    refine ⟨v, foldlM_cons_eq_ok.mpr ⟨u, by rw [hu]; rfl, hv⟩, ?_⟩
    intro y
    rw [hmem, mem_of_insert? hu, mem_cons, or_assoc]

theorem nodup_termsOf (propertyType : PropertyType) (value : Value) :
    ((termsOf propertyType value).map Prod.fst).Nodup := by
  have hzip : (elements value).zipIdx.Pairwise fun a b => a.2 ≠ b.2 := by
    rw [← pairwise_map, zipIdx_map_snd]
    exact nodup_range'
  unfold List.Nodup
  rw [pairwise_map]
  refine hzip.filterMap _ ?_
  intro a b hne first hfirst second hsecond
  rcases Option.map_eq_some_iff.mp hfirst with ⟨_, _, rfl⟩
  rcases Option.map_eq_some_iff.mp hsecond with ⟨_, _, rfl⟩
  exact hne

theorem insertTerms_total {index : MetadataIndex} {vectorId : Text} (metadata : Value)
    {terms : Table Term.key}
    (hfresh : forall term, term ∈ terms -> term.vectorId = vectorId ->
      term.propertyName ≠ index.propertyName) :
    exists result, insertTerms vectorId metadata terms index = .ok result ∧
      forall term, term ∈ result -> term ∈ terms ∨ term.propertyName = index.propertyName := by
  unfold insertTerms
  cases metadata.resolve index.propertyName.components with
  | none => exact ⟨terms, rfl, fun _ => .inl⟩
  | some value =>
    let row (entry : Nat × TermValue) : Term := ⟨index.propertyName, vectorId, entry.1, entry.2⟩
    have hkeys : (((termsOf index.propertyType value).map row).map Term.key).Nodup := by
      rw [map_map]
      refine List.Nodup.of_map (fun key => key.2.2) ?_
      rw [map_map]
      exact nodup_termsOf index.propertyType value
    have hnew : forall term, term ∈ (termsOf index.propertyType value).map row ->
        ¬ term.key ∈ terms.keys := by
      intro term hterm hkey
      rcases mem_map.mp hterm with ⟨entry, _, rfl⟩
      rcases mem_keys.mp hkey with ⟨old, hold, hsame⟩
      simp only [Term.key, row, Prod.mk.injEq] at hsame
      exact hfresh old hold hsame.right.left hsame.left
    rcases foldlM_insert? corrupt hkeys hnew with ⟨result, hresult, hmem⟩
    rw [foldlM_map] at hresult
    refine ⟨result, hresult, fun term hterm => ?_⟩
    rcases (hmem term).mp hterm with hold | hentry
    · exact .inl hold
    · rcases mem_map.mp hentry with ⟨_, _, rfl⟩
      exact .inr rfl

theorem insertAllTerms_total {β : Type} {json : Json β} (s : Store β) (id : Text)
    {metadata : Option β}
    (hmetadata : forall m, metadata = some m -> exists value, json.parse m = some value) :
    exists terms, s.insertAllTerms json id metadata
      (s.terms.filter fun term => term.vectorId ≠ id) = .ok terms := by
  cases metadata with
  | none => exact ⟨_, rfl⟩
  | some m =>
    rcases hmetadata m rfl with ⟨value, hvalue⟩
    simp only [Store.insertAllTerms, ok_iff, hvalue, Option.some.injEq, exists_eq_left']
    refine (foldlM_total (fun indexes terms => (indexes.map MetadataIndex.propertyName).Nodup ∧
      forall index, index ∈ indexes -> forall term, term ∈ terms -> term.vectorId = id ->
        term.propertyName ≠ index.propertyName) ?_ ⟨s.indexes.nodup, ?_⟩).imp fun _ h => h.left
    · rintro index rest terms ⟨hnodup, hfresh⟩
      rw [map_cons, nodup_cons] at hnodup
      rcases insertTerms_total value (hfresh index mem_cons_self) with ⟨mid, hmid, hmem⟩
      refine ⟨mid, hmid, hnodup.right, fun other hother term hterm hvector hproperty => ?_⟩
      rcases hmem term hterm with hold | hnew
      · exact hfresh other (mem_cons_of_mem index hother) term hold hvector hproperty
      · exact hnodup.left (hnew ▸ hproperty ▸ mem_map_of_mem hother)
    · intro index _ term hterm hvector
      exact absurd hvector (of_decide_eq_true (mem_filter.mp hterm).right)

end Vectorize
end OpenCompute
