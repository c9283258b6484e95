import Mathlib

/-!
# Keyed tables

A table is a list of rows in which no key occurs twice.  The uniqueness proof
is part of the table, so a `PRIMARY KEY` or `UNIQUE` column is respected by
every value that can be built.  Rows keep the order in which they were
inserted.
-/

namespace Relational

open Option

structure Table {α κ : Type} (key : α -> κ) where
  rows : List α
  nodup : (rows.map key).Nodup

namespace Table

variable {α κ : Type} {key : α -> κ} {t u : Table key} {x y : α} {k : κ}

@[ext]
theorem ext (hrows : t.rows = u.rows) : t = u := by
  cases t
  cases u
  simpa using hrows

instance [DecidableEq α] : DecidableEq (Table key) :=
  fun t u => decidable_of_iff (t.rows = u.rows) ⟨Table.ext, congrArg Table.rows⟩

instance : Membership α (Table key) where
  mem t x := x ∈ t.rows

theorem mem_rows : x ∈ t.rows ↔ x ∈ t := Iff.rfl

instance [DecidableEq α] (t : Table key) (x : α) : Decidable (x ∈ t) :=
  inferInstanceAs (Decidable (x ∈ t.rows))

instance {P : α -> Prop} [DecidablePred P] (t : Table key) : Decidable (exists x, x ∈ t ∧ P x) :=
  inferInstanceAs (Decidable (exists x, x ∈ t.rows ∧ P x))

def empty : Table key := ⟨[], List.nodup_nil⟩

@[simp]
theorem not_mem_empty (x : α) : ¬ x ∈ (empty : Table key) := by
  intro hx
  cases hx

theorem forall_mem_empty {P : α -> Prop} : forall x, x ∈ (empty : Table key) -> P x :=
  fun x hx => absurd hx (not_mem_empty x)

def keys (t : Table key) : List κ := t.rows.map key

theorem mem_keys : k ∈ t.keys ↔ exists x, x ∈ t ∧ key x = k := List.mem_map

theorem key_mem_keys (hx : x ∈ t) : key x ∈ t.keys := List.mem_map_of_mem hx

/-! Two rows with one key are one row. -/

theorem eq_of_key_eq (hx : x ∈ t) (hy : y ∈ t) (hkey : key x = key y) : x = y :=
  List.inj_on_of_nodup_map t.nodup hx hy hkey

/-! ## Selecting and deleting rows by a predicate -/

def filter (p : α -> Bool) (t : Table key) : Table key :=
  ⟨t.rows.filter p, t.nodup.sublist (List.filter_sublist.map key)⟩

@[simp]
theorem mem_filter {p : α -> Bool} : x ∈ t.filter p ↔ x ∈ t ∧ p x = true := List.mem_filter

variable [DecidableEq κ]

/-! ## Lookup -/

def find? (t : Table key) (k : κ) : Option α :=
  t.rows.find? (fun x => key x = k)

theorem find?_eq_some : t.find? k = some x ↔ x ∈ t ∧ key x = k := by
  constructor
  · intro hfind
    exact ⟨List.mem_of_find?_eq_some hfind, by simpa using List.find?_some hfind⟩
  · rintro ⟨hmem, rfl⟩
    cases hfind : t.find? (key x) with
    | none =>
      have hnone := List.find?_eq_none.mp hfind x hmem
      simp at hnone
    | some y =>
      have hy : y ∈ t := List.mem_of_find?_eq_some hfind
      have hkey : key y = key x := by simpa using List.find?_some hfind
      rw [eq_of_key_eq hy hmem hkey]

theorem mem_of_find? (hfind : t.find? k = some x) : x ∈ t := (find?_eq_some.mp hfind).left

theorem key_of_find? (hfind : t.find? k = some x) : key x = k := (find?_eq_some.mp hfind).right

theorem find?_eq_none : t.find? k = none ↔ forall x, x ∈ t -> key x ≠ k := by
  unfold find?
  simp [mem_rows]

theorem find?_key (hx : x ∈ t) : t.find? (key x) = some x := find?_eq_some.mpr ⟨hx, rfl⟩

theorem find?_eq_none_iff_keys : t.find? k = none ↔ ¬ k ∈ t.keys := by
  rw [find?_eq_none, mem_keys]
  push Not
  rfl

theorem exists_find?_iff_keys : (exists x, t.find? k = some x) ↔ k ∈ t.keys := by
  rw [mem_keys]
  constructor
  · intro hfind
    rcases hfind with ⟨x, hx⟩
    exact ⟨x, find?_eq_some.mp hx⟩
  · intro hmem
    rcases hmem with ⟨x, hx⟩
    exact ⟨x, find?_eq_some.mpr hx⟩

/-! ## Inserting, deleting and replacing one row -/

def insert? (t : Table key) (x : α) : Option (Table key) :=
  if hfresh : key x ∈ t.rows.map key then
    none
  else
    some ⟨t.rows ++ [x], by
      rw [List.map_append, List.map_singleton]
      exact List.Nodup.append t.nodup (List.nodup_singleton _)
        (by simpa using hfresh)⟩

theorem insert?_eq_some :
    t.insert? x = some u ↔ (forall y, y ∈ t -> key y ≠ key x) ∧ u.rows = t.rows ++ [x] := by
  unfold insert?
  split
  · rename_i hmem
    rcases List.mem_map.mp hmem with ⟨y, hy, hkey⟩
    constructor
    · intro hnone
      cases hnone
    · rintro ⟨hfresh, _⟩
      exact absurd hkey (hfresh y hy)
  · rename_i hmem
    constructor
    · intro hsome
      cases hsome
      refine ⟨?_, rfl⟩
      intro y hy hkey
      exact hmem (List.mem_map.mpr ⟨y, hy, hkey⟩)
    · rintro ⟨_, hrows⟩
      exact congrArg some (Table.ext hrows.symm)

theorem exists_insert? (hfresh : ¬ key x ∈ t.keys) : exists u, t.insert? x = some u :=
  ⟨_, dif_neg hfresh⟩

theorem mem_of_insert? (hins : t.insert? x = some u) : y ∈ u ↔ y ∈ t ∨ y = x := by
  rw [← mem_rows, (insert?_eq_some.mp hins).right]
  simp [mem_rows]

theorem forall_insert? {P : α -> Prop} (hins : t.insert? x = some u)
    (hold : forall y, y ∈ t -> P y) (hnew : P x) : forall y, y ∈ u -> P y := by
  intro y hy
  rcases (mem_of_insert? hins).mp hy with hmem | rfl
  · exact hold y hmem
  · exact hnew

theorem mem_keys_of_insert? (hins : t.insert? x = some u) :
    k ∈ u.keys ↔ k ∈ t.keys ∨ k = key x := by
  unfold keys
  rw [(insert?_eq_some.mp hins).right]
  simp

def erase (t : Table key) (k : κ) : Table key :=
  t.filter (fun x => key x ≠ k)

@[simp]
theorem mem_erase : x ∈ t.erase k ↔ x ∈ t ∧ key x ≠ k := by
  simp [erase]

@[simp]
theorem mem_keys_erase {j : κ} : j ∈ (t.erase k).keys ↔ j ∈ t.keys ∧ j ≠ k := by
  simp only [mem_keys, mem_erase]
  constructor
  · intro hmem
    rcases hmem with ⟨x, ⟨hx, hne⟩, rfl⟩
    exact ⟨⟨x, hx, rfl⟩, hne⟩
  · intro hmem
    rcases hmem with ⟨⟨x, hx, rfl⟩, hne⟩
    exact ⟨x, ⟨hx, hne⟩, rfl⟩

theorem map_key_replace (rows : List α) (x : α) :
    (rows.map (fun y => if key y = key x then x else y)).map key = rows.map key := by
  rw [List.map_map]
  apply List.map_congr_left
  intro y _
  by_cases hkey : key y = key x <;> simp [hkey]

def replace (t : Table key) (x : α) : Table key :=
  ⟨t.rows.map (fun y => if key y = key x then x else y), by
    rw [map_key_replace]
    exact t.nodup⟩

@[simp]
theorem keys_replace (t : Table key) (x : α) : (t.replace x).keys = t.keys :=
  map_key_replace t.rows x

theorem mem_replace :
    y ∈ t.replace x ↔ (y ∈ t ∧ key y ≠ key x) ∨ (y = x ∧ exists z, z ∈ t ∧ key z = key x) := by
  change y ∈ t.rows.map _ ↔ _
  rw [List.mem_map]
  constructor
  · rintro ⟨z, hz, rfl⟩
    by_cases hkey : key z = key x
    · simp only [hkey, if_true]
      exact .inr ⟨trivial, z, hz, hkey⟩
    · simp only [hkey, if_false]
      exact .inl ⟨hz, hkey⟩
  · rintro (⟨hy, hkey⟩ | ⟨rfl, z, hz, hkey⟩)
    · exact ⟨y, hy, by simp [hkey]⟩
    · exact ⟨z, hz, by simp [hkey]⟩

theorem forall_replace {P : α -> Prop} (hold : forall y, y ∈ t -> P y) (hnew : P x) :
    forall y, y ∈ t.replace x -> P y := by
  intro y hy
  rcases mem_replace.mp hy with hmem | ⟨rfl, _⟩
  · exact hold y hmem.left
  · exact hnew

def modify (t : Table key) (k : κ) (f : α -> α) (hf : forall x, key (f x) = key x) :
    Table key :=
  ⟨t.rows.map (fun x => if key x = k then f x else x), by
    rw [List.map_map]
    have hkeys : forall x, x ∈ t.rows ->
        (key ∘ fun x => if key x = k then f x else x) x = key x := by
      intro x _
      by_cases hkey : key x = k <;> simp [hkey, hf]
    rw [List.map_congr_left hkeys]
    exact t.nodup⟩

theorem mem_modify {f : α -> α} (hf : forall x, key (f x) = key x) :
    y ∈ t.modify k f hf ↔ (y ∈ t ∧ key y ≠ k) ∨ exists x, x ∈ t ∧ key x = k ∧ y = f x := by
  change y ∈ t.rows.map _ ↔ _
  rw [List.mem_map]
  constructor
  · rintro ⟨x, hx, rfl⟩
    by_cases hkey : key x = k
    · exact .inr ⟨x, hx, hkey, if_pos hkey⟩
    · rw [if_neg hkey]
      exact .inl ⟨hx, hkey⟩
  · rintro (⟨hy, hkey⟩ | ⟨x, hx, hkey, rfl⟩)
    · exact ⟨y, hy, if_neg hkey⟩
    · exact ⟨x, hx, if_pos hkey⟩

def update (t : Table key) (p : α -> Bool) (f : α -> α) (hf : forall x, key (f x) = key x) :
    Table key :=
  ⟨t.rows.map (fun x => if p x then f x else x), by
    rw [List.map_map]
    have hkeys : forall x, x ∈ t.rows -> (key ∘ fun x => if p x then f x else x) x = key x := by
      intro x _
      by_cases hselected : p x <;> simp [hselected, hf]
    rw [List.map_congr_left hkeys]
    exact t.nodup⟩

omit [DecidableEq κ] in
theorem mem_update {p : α -> Bool} {f : α -> α} (hf : forall x, key (f x) = key x) :
    y ∈ t.update p f hf ↔ exists x, x ∈ t ∧ y = if p x then f x else x := by
  change y ∈ t.rows.map _ ↔ _
  rw [List.mem_map]
  constructor
  · rintro ⟨x, hx, rfl⟩
    exact ⟨x, hx, rfl⟩
  · rintro ⟨x, hx, rfl⟩
    exact ⟨x, hx, rfl⟩

theorem find?_update_of_not {p : α -> Bool} {f : α -> α} (hf : forall x, key (f x) = key x)
    (hnot : forall x, x ∈ t -> key x = k -> p x = false) :
    (t.update p f hf).find? k = t.find? k := by
  have hrow : forall x, x ∈ t -> key (if p x then f x else x) = k ->
      key x = k ∧ (if p x then f x else x) = x := by
    intro x hx hkey
    have hk : key x = k := by
      split at hkey
      · exact (hf x).symm.trans hkey
      · exact hkey
    rw [hnot x hx hk]
    exact ⟨hk, rfl⟩
  apply Option.ext
  intro y
  rw [find?_eq_some, find?_eq_some, mem_update]
  constructor
  · rintro ⟨⟨x, hx, rfl⟩, hkey⟩
    rcases hrow x hx hkey with ⟨hk, hsame⟩
    rw [hsame]
    exact ⟨hx, hk⟩
  · rintro ⟨hy, hk⟩
    refine ⟨⟨y, hy, ?_⟩, hk⟩
    rw [hnot y hy hk]
    rfl

def put (t : Table key) (x : α) : Table key :=
  (t.insert? x).getD (t.replace x)

theorem mem_put : y ∈ t.put x ↔ (y ∈ t ∧ key y ≠ key x) ∨ y = x := by
  unfold put
  cases hins : t.insert? x with
  | none =>
    have htaken : key x ∈ t.keys := by
      by_contra hfresh
      rcases exists_insert? hfresh with ⟨u, hu⟩
      rw [hins] at hu
      cases hu
    rw [getD_none, mem_replace]
    exact or_congr_right (and_iff_left (mem_keys.mp htaken))
  | some u =>
    rw [getD_some, mem_of_insert? hins]
    constructor
    · rintro (hy | rfl)
      · exact .inl ⟨hy, (insert?_eq_some.mp hins).left y hy⟩
      · exact .inr rfl
    · rintro (⟨hy, _⟩ | rfl)
      · exact .inl hy
      · exact .inr rfl

theorem rows_put_of_fresh (hfresh : ¬ key x ∈ t.keys) : (t.put x).rows = t.rows ++ [x] := by
  rcases exists_insert? hfresh with ⟨_, hu⟩
  unfold put
  rw [hu]
  exact (insert?_eq_some.mp hu).right

omit [DecidableEq κ] in
theorem nodup_rows (t : Table key) : t.rows.Nodup := List.Nodup.of_map key t.nodup

theorem nodup_map_put {β : Type} {g : α -> β} (hnodup : (t.rows.map g).Nodup)
    (hfresh : ¬ g x ∈ t.rows.map g) : ((t.put x).rows.map g).Nodup := by
  by_cases hkey : key x ∈ t.keys
  · have hput : (t.put x).rows = t.rows.map fun y => if key y = key x then x else y := by
      have hnone : t.insert? x = none := dif_pos hkey
      unfold put
      rw [hnone]
      rfl
    rw [hput, List.map_map]
    refine List.Nodup.map_on ?_ t.nodup_rows
    intro y hy z hz heq
    dsimp only [Function.comp_apply] at heq
    split at heq
    · rename_i hykey
      split at heq
      · rename_i hzkey
        exact eq_of_key_eq hy hz (hykey.trans hzkey.symm)
      · rw [heq] at hfresh
        exact absurd (List.mem_map_of_mem hz) hfresh
    · split at heq
      · rw [← heq] at hfresh
        exact absurd (List.mem_map_of_mem hy) hfresh
      · exact List.inj_on_of_nodup_map hnodup hy hz heq
  · rw [rows_put_of_fresh hkey, List.map_append]
    exact List.Nodup.append hnodup (List.nodup_singleton _) (List.disjoint_singleton.mpr hfresh)

theorem filter_replace {p : α -> Bool} (hx : p x = false)
    (hold : forall y, y ∈ t -> key y = key x -> p y = false) :
    (t.replace x).rows.filter p = t.rows.filter p := by
  change (t.rows.map fun y => if key y = key x then x else y).filter p = _
  have hrows : forall y, y ∈ t.rows -> key y = key x -> p y = false := hold
  generalize t.rows = rows at hrows ⊢
  induction rows with
  | nil => rfl
  | cons y rows ih =>
    have hrest := ih fun z hz => hrows z (List.mem_cons_of_mem y hz)
    rw [List.map_cons, List.filter_cons, List.filter_cons, hrest]
    by_cases hkey : key y = key x
    · rw [if_pos hkey, hx, hrows y List.mem_cons_self hkey]
      rfl
    · rw [if_neg hkey]

/-! ## Lookup after a write -/

theorem find?_of_insert? (hins : t.insert? x = some u) (k : κ) :
    u.find? k = if k = key x then some x else t.find? k := by
  unfold find?
  rw [(insert?_eq_some.mp hins).right]
  by_cases hk : k = key x
  · subst hk
    have hnone : t.find? (key x) = none := find?_eq_none.mpr (insert?_eq_some.mp hins).left
    unfold find? at hnone
    simp [hnone]
  · have hne : ¬ key x = k := fun heq => hk heq.symm
    simp [hk, hne]

theorem find?_erase (t : Table key) (j k : κ) :
    (t.erase j).find? k = if k = j then none else t.find? k := by
  by_cases hk : k = j
  · rw [if_pos hk, find?_eq_none]
    intro x hx hkey
    exact (mem_erase.mp hx).right (hkey.trans hk)
  · rw [if_neg hk]
    cases hfind : t.find? k with
    | none =>
      rw [find?_eq_none] at hfind ⊢
      intro x hx
      exact hfind x (mem_erase.mp hx).left
    | some x =>
      rw [find?_eq_some] at hfind ⊢
      exact ⟨mem_erase.mpr ⟨hfind.left, hfind.right ▸ hk⟩, hfind.right⟩

theorem find?_replace (hy : y ∈ t) (hkey : key y = key x) (k : κ) :
    (t.replace x).find? k = if k = key x then some x else t.find? k := by
  by_cases hk : k = key x
  · rw [if_pos hk, find?_eq_some]
    exact ⟨mem_replace.mpr (.inr ⟨rfl, y, hy, hkey⟩), hk.symm⟩
  · rw [if_neg hk]
    cases hfind : t.find? k with
    | none =>
      rw [find?_eq_none_iff_keys] at hfind ⊢
      rw [keys_replace]
      exact hfind
    | some z =>
      rw [find?_eq_some] at hfind ⊢
      exact ⟨mem_replace.mpr (.inl ⟨hfind.left, hfind.right ▸ hk⟩), hfind.right⟩

/-! ## Rows in another form, under the same keys -/

section MapRows

variable {β : Type} {key' : β -> κ} {g : α -> β}

def mapRows (t : Table key) (g : α -> β) (hg : forall x, key' (g x) = key x) : Table key' :=
  ⟨t.rows.map g, by
    have hcomp : key' ∘ g = key := funext hg
    rw [List.map_map, hcomp]
    exact t.nodup⟩

variable {t : Table key} (hg : forall x, key' (g x) = key x)

omit [DecidableEq κ] in
theorem keys_mapRows : (t.mapRows g hg).keys = t.keys := by
  have hcomp : key' ∘ g = key := funext hg
  change (t.rows.map g).map key' = t.rows.map key
  rw [List.map_map, hcomp]

theorem insert?_mapRows (x : α) :
    (t.mapRows g hg).insert? (g x) = (t.insert? x).map fun u => u.mapRows g hg := by
  by_cases hkey : key x ∈ t.keys
  · have hmapped : key' (g x) ∈ (t.mapRows g hg).keys := by rwa [keys_mapRows hg, hg]
    have hnone : t.insert? x = none := dif_pos hkey
    rw [hnone]
    exact dif_pos hmapped
  · have hmapped : ¬ key' (g x) ∈ (t.mapRows g hg).keys := by rwa [keys_mapRows hg, hg]
    rcases exists_insert? hkey with ⟨u, hu⟩
    rcases exists_insert? hmapped with ⟨v, hv⟩
    rw [hu, hv]
    apply congrArg some
    apply Table.ext
    change v.rows = u.rows.map g
    rw [(insert?_eq_some.mp hu).right, (insert?_eq_some.mp hv).right, List.map_append]
    rfl

theorem replace_mapRows (x : α) : (t.mapRows g hg).replace (g x) = (t.replace x).mapRows g hg := by
  apply Table.ext
  change (t.rows.map g).map _ = (t.rows.map _).map g
  rw [List.map_map, List.map_map]
  apply List.map_congr_left
  intro y _
  by_cases hkey : key y = key x <;> simp [hg, hkey]

theorem put_mapRows (x : α) : (t.mapRows g hg).put (g x) = (t.put x).mapRows g hg := by
  unfold put
  rw [insert?_mapRows hg, replace_mapRows hg]
  cases t.insert? x <;> rfl

theorem erase_mapRows (k : κ) : (t.mapRows g hg).erase k = (t.erase k).mapRows g hg := by
  apply Table.ext
  change (t.rows.map g).filter _ = (t.rows.filter _).map g
  rw [List.filter_map]
  congr 1
  apply List.filter_congr
  intro y _
  simp [hg]

end MapRows

/-!
## Rows up to order

Deleting or replacing a row leaves every other row, so sums over the rows of a
table follow from these permutations.
-/

theorem perm_cons_erase (hx : x ∈ t) : t.rows.Perm (x :: (t.erase (key x)).rows) := by
  have hnodup : t.rows.Nodup := List.Nodup.of_map key t.nodup
  have herase : (t.erase (key x)).rows.Nodup := List.Nodup.of_map key (t.erase (key x)).nodup
  have hnot : ¬ x ∈ (t.erase (key x)).rows := by
    intro hmem
    exact (mem_erase.mp hmem).right rfl
  rw [List.perm_ext_iff_of_nodup hnodup (List.nodup_cons.mpr ⟨hnot, herase⟩)]
  intro y
  rw [List.mem_cons, mem_rows, mem_rows, mem_erase]
  constructor
  · intro hy
    by_cases hkey : key y = key x
    · exact .inl (eq_of_key_eq hy hx hkey)
    · exact .inr ⟨hy, hkey⟩
  · intro hy
    rcases hy with rfl | hy
    · exact hx
    · exact hy.left

theorem erase_replace (x : α) : ((t.replace x).erase (key x)).rows = (t.erase (key x)).rows := by
  change ((t.rows.map _).filter _) = t.rows.filter _
  rw [List.filter_map]
  have hfilter : t.rows.filter ((fun y => decide (key y ≠ key x)) ∘
      fun y => if key y = key x then x else y) =
      t.rows.filter (fun y => decide (key y ≠ key x)) := by
    apply List.filter_congr
    intro y _
    by_cases hkey : key y = key x <;> simp [hkey]
  rw [hfilter]
  conv_rhs => rw [← List.map_id (t.rows.filter _)]
  apply List.map_congr_left
  intro y hy
  have hkey : key y ≠ key x := by simpa using (List.mem_filter.mp hy).right
  simp [hkey]

theorem perm_replace (hy : y ∈ t) (hkey : key y = key x) :
    (t.replace x).rows.Perm (x :: (t.erase (key x)).rows) := by
  have hx : x ∈ t.replace x := mem_replace.mpr (.inr ⟨rfl, y, hy, hkey⟩)
  rw [← erase_replace x]
  exact perm_cons_erase hx

/-! ## Counting rows -/

theorem countP_insert? (hins : t.insert? x = some u) (p : α -> Bool) :
    u.rows.countP p = t.rows.countP p + (p x).toNat := by
  rw [(insert?_eq_some.mp hins).right, List.countP_append, List.countP_singleton]
  cases p x <;> rfl

theorem countP_erase (hx : x ∈ t) (p : α -> Bool) :
    (t.erase (key x)).rows.countP p + (p x).toNat = t.rows.countP p := by
  rw [(perm_cons_erase hx).countP_eq p, List.countP_cons]
  cases p x <;> rfl

theorem countP_replace (hy : y ∈ t) (hkey : key y = key x) (p : α -> Bool) :
    (t.replace x).rows.countP p + (p y).toNat = t.rows.countP p + (p x).toNat := by
  have herase := countP_erase hy p
  rw [hkey] at herase
  rw [(perm_replace hy hkey).countP_eq p, List.countP_cons, ← herase]
  cases p x <;> simp
  omega

/-! ## Tables that correspond key by key -/

section Correspondence

variable {R : α -> α -> Prop}

/-- Both tables have no row of a key, or each has one and the two are related. -/
def Corresponds (R : α -> α -> Prop) (t u : Table key) : Prop :=
  forall k, Option.Rel R (t.find? k) (u.find? k)

namespace Corresponds

variable (h : Corresponds R t u)

include h

theorem left (hx : x ∈ t) : exists y, y ∈ u ∧ R x y := by
  have hrel := h (key x)
  rw [find?_key hx] at hrel
  generalize hfind : u.find? (key x) = found at hrel
  cases hrel with
  | some hR => exact ⟨_, (find?_eq_some.mp hfind).left, hR⟩

theorem right (hy : y ∈ u) : exists x, x ∈ t ∧ R x y := by
  have hrel := h (key y)
  rw [find?_key hy] at hrel
  generalize hfind : t.find? (key y) = found at hrel
  cases hrel with
  | some hR => exact ⟨_, (find?_eq_some.mp hfind).left, hR⟩

variable {p q : α -> Prop} (hiff : forall x y, x ∈ t -> R x y -> (p x ↔ q y))

include hiff

theorem forall_iff : (forall x, x ∈ t -> p x) ↔ forall y, y ∈ u -> q y := by
  constructor
  · intro hall y hy
    rcases h.right hy with ⟨x, hx, hR⟩
    exact (hiff x y hx hR).mp (hall x hx)
  · intro hall x hx
    rcases h.left hx with ⟨y, hy, hR⟩
    exact (hiff x y hx hR).mpr (hall y hy)

theorem exists_iff : (exists x, x ∈ t ∧ p x) ↔ exists y, y ∈ u ∧ q y := by
  constructor
  · rintro ⟨x, hx, hp⟩
    rcases h.left hx with ⟨y, hy, hR⟩
    exact ⟨y, hy, (hiff x y hx hR).mp hp⟩
  · rintro ⟨y, hy, hq⟩
    rcases h.right hy with ⟨x, hx, hR⟩
    exact ⟨x, hx, (hiff x y hx hR).mpr hq⟩

end Corresponds

end Correspondence

end Table
end Relational
