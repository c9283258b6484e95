import OpenCompute.Relational.Table
import OpenCompute.Relational.Transaction

/-!
# Loops over rows

A statement that visits the rows of a table, or a loop that makes one call for
each of a list of rows, touches every row once.  The first rule carries an
invariant through such a loop together with the rows not yet visited, the
second says that the loop commits when every step on a stored row does, the
third what becomes of each key, and the last what a loop answers that returns
something for each row.
-/

namespace Relational

/-! The generated identifiers that the rows of a loop use are distinct. -/

theorem zip_snd_nodup {α β : Type} (xs : List α) {ys : List β} (hnodup : ys.Nodup) :
    ((xs.zip ys).map Prod.snd).Nodup := by
  induction xs generalizing ys with
  | nil => exact List.nodup_nil
  | cons x xs ih =>
    cases ys with
    | nil => exact List.nodup_nil
    | cons y ys =>
      rw [List.nodup_cons] at hnodup
      rw [List.zip_cons_cons, List.map_cons, List.nodup_cons]
      refine ⟨?_, ih hnodup.right⟩
      intro hmem
      rcases List.mem_map.mp hmem with ⟨_, hentry, rfl⟩
      exact hnodup.left (List.of_mem_zip hentry).right

namespace Table

open Function Transaction List

variable {α κ ε σ : Type} {key : α -> κ} {step : σ -> α -> Except ε σ}

structure Ahead (t : Table key) (xs : List α) : Prop where
  nodup : (xs.map key).Nodup
  mem : forall x, x ∈ xs -> x ∈ t

theorem Ahead.next {t u : Table key} {x : α} {xs : List α} (h : Ahead t (x :: xs))
    (hframe : forall y, key y ≠ key x -> y ∈ t -> y ∈ u) : Ahead u xs := by
  rcases List.nodup_cons.mp h.nodup with ⟨hnot, hnodup⟩
  refine ⟨hnodup, fun y hy => hframe y (fun heq => ?_) (h.mem y (mem_cons_of_mem x hy))⟩
  exact hnot (List.mem_map.mpr ⟨y, hy, heq⟩)

theorem foldlM_rows (table : σ -> Table key) (P : σ -> Prop) {xs : List α} {s t : σ}
    (hstep : forall x a b, x ∈ xs -> x ∈ table a -> P a -> step a x = .ok b ->
      P b ∧ forall y, key y ≠ key x -> y ∈ table a -> y ∈ table b)
    (hnodup : (xs.map key).Nodup) (hmem : forall x, x ∈ xs -> x ∈ table s) (hs : P s)
    (hfold : xs.foldlM step s = .ok t) : P t := by
  refine (foldlM_rec (fun ys a => ys.Subset xs ∧ Ahead (table a) ys ∧ P a) ?_
    ⟨List.Subset.refl xs, ⟨hnodup, hmem⟩, hs⟩ hfold).right.right
  rintro x ys a b ⟨hsub, hahead, ha⟩ hx
  rcases hstep x a b (hsub mem_cons_self) (hahead.mem x mem_cons_self) ha hx with
    ⟨hb, hframe⟩
  exact ⟨List.Subset.trans (subset_cons_self x ys) hsub, hahead.next hframe, hb⟩

theorem foldlM_rows_total (table : σ -> Table key) (P : σ -> Prop) {xs : List α} {s : σ}
    (hstep : forall x a, x ∈ xs -> x ∈ table a -> P a -> exists b, step a x = .ok b ∧ P b ∧
      forall y, key y ≠ key x -> y ∈ table a -> y ∈ table b)
    (hnodup : (xs.map key).Nodup) (hmem : forall x, x ∈ xs -> x ∈ table s) (hs : P s) :
    exists t, xs.foldlM step s = .ok t ∧ P t := by
  have hbody : forall x ys a, (x :: ys).Subset xs ∧ Ahead (table a) (x :: ys) ∧ P a ->
      exists b, step a x = .ok b ∧ ys.Subset xs ∧ Ahead (table b) ys ∧ P b := by
    rintro x ys a ⟨hsub, hahead, ha⟩
    rcases hstep x a (hsub mem_cons_self) (hahead.mem x mem_cons_self) ha with
      ⟨b, hb, hdone, hframe⟩
    exact ⟨b, hb, List.Subset.trans (subset_cons_self x ys) hsub, hahead.next hframe, hdone⟩
  rcases foldlM_total (fun ys a => ys.Subset xs ∧ Ahead (table a) ys ∧ P a) hbody
    ⟨List.Subset.refl xs, ⟨hnodup, hmem⟩, hs⟩ with ⟨t, ht, _, _, hdone⟩
  exact ⟨t, ht, hdone⟩

/-!
What an iteration looks at is its own: the other iterations leave it as it is.
The iteration therefore still finds there what the loop started with, and what
it leaves there is there at the end.
-/

section Items

variable {β : Type} (look : σ -> α -> β) (P : List α -> σ -> Prop) (R : α -> β -> Prop)

/-- Such a loop before the elements in `rest`. -/
structure Visited (xs : List α) (s : σ) (rest : List α) (a : σ) : Prop where
  invariant : P rest a
  nodup : rest.Nodup
  coming : forall y, y ∈ rest -> y ∈ xs ∧ look a y = look s y
  done : forall y, y ∈ xs -> ¬ y ∈ rest -> R y (look a y)

variable {look P R} {xs : List α} {s : σ}

theorem Visited.next {x : α} {rest : List α} {a b : σ} (h : Visited look P R xs s (x :: rest) a)
    (hinvariant : P rest b) (hx : R x (look b x))
    (hframe : forall y, y ∈ xs -> y ≠ x -> look b y = look a y) :
    Visited look P R xs s rest b := by
  have hnodup := List.nodup_cons.mp h.nodup
  refine ⟨hinvariant, hnodup.right, ?_, ?_⟩
  · intro y hy
    rcases h.coming y (mem_cons_of_mem x hy) with ⟨hmem, hlook⟩
    exact ⟨hmem, (hframe y hmem fun heq => hnodup.left (heq ▸ hy)).trans hlook⟩
  · intro y hy hrest
    by_cases heq : y = x
    · exact heq ▸ hx
    · rw [hframe y hy heq]
      exact h.done y hy (not_mem_cons_of_ne_of_not_mem heq hrest)

theorem visited_start (hnodup : xs.Nodup) (hs : P xs s) : Visited look P R xs s xs s :=
  ⟨hs, hnodup, fun _ hy => ⟨hy, rfl⟩, fun _ hy hnot => absurd hy hnot⟩

variable (look P R)

theorem foldlM_items {t : σ}
    (hstep : forall x rest a b, x ∈ xs -> P (x :: rest) a -> look a x = look s x ->
      step a x = .ok b -> P rest b ∧ R x (look b x) ∧
        forall y, y ∈ xs -> y ≠ x -> look b y = look a y)
    (hnodup : xs.Nodup) (hs : P xs s) (hfold : xs.foldlM step s = .ok t) :
    P [] t ∧ forall x, x ∈ xs -> R x (look t x) := by
  have hdone : Visited look P R xs s [] t := by
    refine foldlM_rec (Visited look P R xs s) ?_ (visited_start hnodup hs) hfold
    intro x rest a b h hb
    rcases h.coming x mem_cons_self with ⟨hx, hlook⟩
    rcases hstep x rest a b hx h.invariant hlook hb with ⟨hrest, hR, hframe⟩
    exact h.next hrest hR hframe
  exact ⟨hdone.invariant, fun x hx => hdone.done x hx not_mem_nil⟩

theorem foldlM_items_total
    (hstep : forall x rest a, x ∈ xs -> P (x :: rest) a -> look a x = look s x ->
      exists b, step a x = .ok b ∧ P rest b ∧ R x (look b x) ∧
        forall y, y ∈ xs -> y ≠ x -> look b y = look a y) (hnodup : xs.Nodup) (hs : P xs s) :
    exists t, xs.foldlM step s = .ok t ∧ P [] t ∧ forall x, x ∈ xs -> R x (look t x) := by
  have hbody : forall x rest a, Visited look P R xs s (x :: rest) a ->
      exists b, step a x = .ok b ∧ Visited look P R xs s rest b := by
    intro x rest a h
    rcases h.coming x mem_cons_self with ⟨hx, hlook⟩
    rcases hstep x rest a hx h.invariant hlook with ⟨b, hb, hrest, hR, hframe⟩
    exact ⟨b, hb, h.next hrest hR hframe⟩
  rcases foldlM_total _ hbody (visited_start hnodup hs) with ⟨t, ht, hdone⟩
  exact ⟨t, ht, hdone.invariant, fun x hx => hdone.done x hx not_mem_nil⟩

theorem foldlM_items_iff (C : α -> Prop) (hstep : forall x a, x ∈ xs -> look a x = look s x ->
      (C x ∧ exists b, step a x = .ok b ∧ R x (look b x) ∧
        forall y, y ∈ xs -> y ≠ x -> look b y = look a y) ∨
      ¬ C x ∧ forall b, step a x ≠ .ok b) (hnodup : xs.Nodup) :
    ((exists t, xs.foldlM step s = .ok t) ↔ forall x, x ∈ xs -> C x) ∧
      forall t, xs.foldlM step s = .ok t -> forall x, x ∈ xs -> R x (look t x) := by
  have hdone : forall t, xs.foldlM step s = .ok t ->
      forall x, x ∈ xs -> C x ∧ R x (look t x) := by
    intro t hfold
    refine (foldlM_items look (fun _ _ => True) (fun x found => C x ∧ R x found) ?_ hnodup trivial
      hfold).right
    intro x rest a b hx _ hlook hb
    rcases hstep x a hx hlook with ⟨hC, _, hc, hR, hframe⟩ | ⟨_, hnone⟩
    · cases Except.ok.inj (hb.symm.trans hc)
      exact ⟨trivial, ⟨hC, hR⟩, hframe⟩
    · exact absurd hb (hnone b)
  refine ⟨⟨?_, ?_⟩, fun t hfold x hx => (hdone t hfold x hx).right⟩
  · rintro ⟨t, hfold⟩ x hx
    exact (hdone t hfold x hx).left
  · intro hall
    have hloop : exists t, xs.foldlM step s = .ok t ∧ True ∧
        forall x, x ∈ xs -> R x (look t x) := by
      refine foldlM_items_total look (fun _ _ => True) R ?_ hnodup trivial
      intro x rest a hx _ hlook
      rcases hstep x a hx hlook with ⟨_, b, hb, hR, hframe⟩ | ⟨hnot, _⟩
      · exact ⟨b, hb, trivial, hR, hframe⟩
      · exact absurd (hall x hx) hnot
    rcases hloop with ⟨t, ht, _⟩
    exact ⟨t, ht⟩

end Items

/-! The view of the state at a key changes only in the iteration of that key. -/

section Pointwise

variable [DecidableEq κ] {β : Type} (view : σ -> κ -> β) (P : σ -> Prop) {xs : List α} {s : σ}

theorem update_frame {x : α} {a b : σ} {v : β} (hnodup : (xs.map key).Nodup) (hx : x ∈ xs)
    (hview : view b = Function.update (view a) (key x) v) :
    view b (key x) = v ∧ (forall k, ¬ k ∈ xs.map key -> view b k = view a k) ∧
      forall y, y ∈ xs -> y ≠ x -> view b (key y) = view a (key y) := by
  rw [hview]
  refine ⟨update_self .., ?_, ?_⟩
  · intro k hk
    have hne : k ≠ key x := fun heq => hk (heq ▸ mem_map_of_mem hx)
    exact update_of_ne hne ..
  · intro y hy hne
    exact update_of_ne (fun heq => hne (inj_on_of_nodup_map hnodup hy hx heq)) ..

theorem foldlM_pointwise (R : α -> β -> β -> Prop) {t : σ}
    (hstep : forall x a b, x ∈ xs -> P a -> view a (key x) = view s (key x) -> step a x = .ok b ->
      P b ∧ exists v, view b = Function.update (view a) (key x) v ∧ R x (view s (key x)) v)
    (hnodup : (xs.map key).Nodup) (hs : P s) (hfold : xs.foldlM step s = .ok t) :
    P t ∧ (forall k, ¬ k ∈ xs.map key -> view t k = view s k) ∧
      forall x, x ∈ xs -> R x (view s (key x)) (view t (key x)) := by
  rw [← and_assoc]
  refine foldlM_items (fun a x => view a (key x))
    (fun _ a => P a ∧ forall k, ¬ k ∈ xs.map key -> view a k = view s k)
    (fun x => R x (view s (key x))) ?_ hnodup.of_map ⟨hs, fun _ _ => rfl⟩ hfold
  intro x rest a b hx ha hview hb
  rcases hstep x a b hx ha.left hview hb with ⟨hPb, _, hv, hR⟩
  rcases update_frame view hnodup hx hv with ⟨hself, hothers, hitems⟩
  exact ⟨⟨hPb, fun k hk => (hothers k hk).trans (ha.right k hk)⟩, hself ▸ hR, hitems⟩

theorem foldlM_pointwise_refl (R : β -> β -> Prop) (hrefl : forall v, R v v) {t : σ}
    (hstep : forall x a b, x ∈ xs -> P a -> view a (key x) = view s (key x) -> step a x = .ok b ->
      P b ∧ exists v, view b = Function.update (view a) (key x) v ∧ R (view s (key x)) v)
    (hnodup : (xs.map key).Nodup) (hs : P s) (hfold : xs.foldlM step s = .ok t) :
    P t ∧ forall k, R (view s k) (view t k) := by
  rcases foldlM_pointwise view P (fun _ => R) hstep hnodup hs hfold with ⟨hPt, hothers, hkeys⟩
  refine ⟨hPt, ?_⟩
  intro k
  by_cases hk : k ∈ xs.map key
  · rcases List.mem_map.mp hk with ⟨x, hx, rfl⟩
    exact hkeys x hx
  · rw [hothers k hk]
    exact hrefl _

theorem foldlM_corresponds {rowKey : β -> κ} (table : σ -> Table rowKey) (R : β -> β -> Prop)
    (hstep : forall x a old, x ∈ xs -> P a -> old ∈ table s -> rowKey old = key x ->
      old ∈ table a -> exists b new, step a x = .ok b ∧ R old new ∧ P b ∧
        (table b).find? = Function.update (table a).find? (rowKey old) (some new))
    (hnodup : (xs.map key).Nodup) (hs : P s)
    (hrows : forall x, x ∈ xs -> exists old, old ∈ table s ∧ rowKey old = key x)
    (hothers : forall old, old ∈ table s -> ¬ rowKey old ∈ xs.map key -> R old old) :
    exists t, xs.foldlM step s = .ok t ∧ P t ∧ Corresponds R (table s) (table t) := by
  have hloop : exists t, xs.foldlM step s = .ok t ∧
      (P t ∧ forall k, ¬ k ∈ xs.map key -> (table t).find? k = (table s).find? k) ∧
      forall x, x ∈ xs -> Option.Rel R ((table s).find? (key x)) ((table t).find? (key x)) := by
    refine foldlM_items_total (fun a x => (table a).find? (key x))
      (fun _ a => P a ∧ forall k, ¬ k ∈ xs.map key -> (table a).find? k = (table s).find? k)
      (fun x => Option.Rel R ((table s).find? (key x))) ?_ hnodup.of_map ⟨hs, fun _ _ => rfl⟩
    intro x rest a hx ha hview
    rcases hrows x hx with ⟨old, hmem, hkey⟩
    have hfind : (table s).find? (key x) = some old := hkey ▸ find?_key hmem
    rcases hstep x a old hx ha.left hmem hkey (mem_of_find? (hview.trans hfind)) with
      ⟨b, _, hb, hR, hPb, hupdate⟩
    rw [hkey] at hupdate
    rcases update_frame (fun a => (table a).find?) hnodup hx hupdate with ⟨hself, hothers, hitems⟩
    refine ⟨b, hb, ⟨hPb, fun k hk => (hothers k hk).trans (ha.right k hk)⟩, ?_, hitems⟩
    rw [hself, hfind]
    exact Option.Rel.some hR
  rcases hloop with ⟨t, ht, ⟨hPt, hsame⟩, hkeys⟩
  refine ⟨t, ht, hPt, fun k => ?_⟩
  by_cases hk : k ∈ xs.map key
  · rcases List.mem_map.mp hk with ⟨x, hx, rfl⟩
    exact hkeys x hx
  · rw [hsame k hk]
    cases hfind : (table s).find? k with
    | none => exact Option.Rel.none
    | some old =>
      rcases find?_eq_some.mp hfind with ⟨hmem, rfl⟩
      exact Option.Rel.some (hothers old hmem hk)

end Pointwise

/-!
A loop that answers every row: it appends one answer for each, and changes the
view only at the key of the row it answers.
-/

section Answers

variable [DecidableEq κ] {β γ : Type} (view : σ -> κ -> β) (answers : σ -> List γ)

theorem foldlM_answers (R : α -> γ -> β -> β -> Prop) {xs : List α} {s t : σ}
    (hstep : forall x a b, x ∈ xs -> step a x = .ok b ->
      exists answer v, answers b = answers a ++ [answer] ∧
        view b = Function.update (view a) (key x) v ∧ R x answer (view a (key x)) v)
    (hnodup : (xs.map key).Nodup) (hstart : answers s = []) (hfold : xs.foldlM step s = .ok t) :
    (answers t).length = xs.length ∧ (forall k, ¬ k ∈ xs.map key -> view t k = view s k) ∧
      forall x answer, (x, answer) ∈ xs.zip (answers t) ->
        R x answer (view s (key x)) (view t (key x)) := by
  suffices hloop : exists news, answers t = answers s ++ news ∧ news.length = xs.length ∧
      (forall k, ¬ k ∈ xs.map key -> view t k = view s k) ∧
      forall x answer, (x, answer) ∈ xs.zip news ->
        R x answer (view s (key x)) (view t (key x)) by
    rcases hloop with ⟨news, hnews, hdone⟩
    rw [hnews, hstart]
    exact hdone
  clear hstart
  induction xs generalizing s with
  | nil =>
    cases hfold
    exact ⟨[], (append_nil _).symm, rfl, fun _ _ => rfl, nofun⟩
  | cons x xs ih =>
    rcases foldlM_cons_eq_ok.mp hfold with ⟨b, hb, hrest⟩
    rcases hstep x s b mem_cons_self hb with ⟨answer, _, hanswer, hview, hR⟩
    rcases List.nodup_cons.mp hnodup with ⟨hfirst, hnodup⟩
    rcases ih (fun y a c hy => hstep y a c (mem_cons_of_mem x hy)) hnodup hrest with
      ⟨news, hnews, hlength, hframe, hdone⟩
    refine ⟨answer :: news, ?_, congrArg Nat.succ hlength, ?_, ?_⟩
    · rw [hnews, hanswer, append_assoc, singleton_append]
    · intro k hk
      rw [List.map_cons, mem_cons, not_or] at hk
      rw [hframe k hk.right, hview, update_of_ne hk.left]
    · intro y other hy
      rw [List.zip_cons_cons, mem_cons] at hy
      rcases hy with ⟨rfl, rfl⟩ | hy
      · rw [hframe _ hfirst, hview, update_self]
        exact hR
      · have hne : key y ≠ key x := fun heq =>
          hfirst (heq ▸ mem_map_of_mem (List.of_mem_zip hy).left)
        have hlater := hdone y other hy
        rw [hview, update_of_ne hne] at hlater
        exact hlater

end Answers

end Table
end Relational
