import Mathlib

/-!
# Transactions

A transaction either commits with a result or fails with an error and leaves
nothing behind.  It is an `Except` value, and this module has the rules by
which the proofs take such a value apart: how a sequence of statements
commits, and which invariants a loop of statements keeps.
-/

namespace Transaction

open List

variable {ε α β σ : Type}

def ensure (c : Prop) [Decidable c] (e : ε) : Except ε Unit :=
  if c then .ok () else .error e

def okOr (o : Option α) (e : ε) : Except ε α :=
  match o with
  | some a => .ok a
  | none => .error e

variable {e : ε} {a : α} {x : Except ε α} {f : α -> Except ε β} {s : σ}

@[simp]
theorem ensure_eq_ok {c : Prop} [Decidable c] {u : Unit} : ensure c e = .ok u ↔ c := by
  unfold ensure
  by_cases hc : c <;> simp [hc]

@[simp]
theorem okOr_eq_ok {o : Option α} : okOr o e = .ok a ↔ o = some a := by
  cases o <;> simp [okOr]

@[simp]
theorem bind_eq_ok {b : β} : (x >>= f) = .ok b ↔ exists a, x = .ok a ∧ f a = .ok b := by
  cases x with
  | error e =>
    constructor
    · intro h
      cases h
    · rintro ⟨a, ha, _⟩
      cases ha
  | ok a =>
    constructor
    · intro h
      exact ⟨a, rfl, h⟩
    · rintro ⟨a', ha, h⟩
      cases ha
      exact h

@[simp]
theorem map_eq_ok {f : α -> β} {b : β} : (f <$> x) = .ok b ↔ exists a, x = .ok a ∧ f a = b := by
  cases x with
  | error e =>
    constructor
    · intro h
      cases h
    · rintro ⟨a, ha, _⟩
      cases ha
  | ok a =>
    constructor
    · intro h
      cases h
      exact ⟨a, rfl, rfl⟩
    · rintro ⟨a', ha, rfl⟩
      cases ha
      rfl

theorem snd_eq_ok {x : Except ε (α × β)} {b : β} :
    (Prod.snd <$> x) = .ok b ↔ exists a, x = .ok (a, b) := by
  rw [map_eq_ok]
  constructor
  · rintro ⟨⟨a, _⟩, hx, rfl⟩
    exact ⟨a, hx⟩
  · rintro ⟨a, hx⟩
    exact ⟨(a, b), hx, rfl⟩

@[simp]
theorem pure_eq_ok {b : α} : (pure a : Except ε α) = .ok b ↔ a = b := by
  constructor
  · intro h
    cases h
    rfl
  · rintro rfl
    rfl

/-- The rules by which `simp` takes a sequence of statements that commits apart. -/
theorem ok_iff : (forall {ε α β : Type} {x : Except ε α} {f : α -> Except ε β} {b : β},
      (x >>= f) = .ok b ↔ exists a, x = .ok a ∧ f a = .ok b) ∧
    (forall {ε : Type} {e : ε} {c : Prop} [Decidable c] {u : Unit}, ensure c e = .ok u ↔ c) ∧
    (forall {p : Unit -> Prop}, (exists u, p u) ↔ p ()) ∧
    (forall {ε α : Type} {e : ε} {o : Option α} {a : α}, okOr o e = .ok a ↔ o = some a) ∧
    forall {ε α : Type} {a b : α}, (pure a : Except ε α) = .ok b ↔ a = b :=
  ⟨bind_eq_ok, ensure_eq_ok, ⟨fun ⟨_, h⟩ => h, fun h => ⟨(), h⟩⟩, okOr_eq_ok, pure_eq_ok⟩

@[simp]
theorem throw_ne_ok : (throw e : Except ε α) ≠ .ok a := by
  intro h
  cases h

theorem ensure_bind_eq_error {c : Prop} [Decidable c] {e' : ε} {f : Unit -> Except ε α}
    (h : (ensure c e >>= f) = .error e') : (¬ c ∧ e' = e) ∨ (c ∧ f () = .error e') := by
  by_cases hc : c
  · rw [ensure, if_pos hc] at h
    exact Or.inr ⟨hc, h⟩
  · rw [ensure, if_neg hc] at h
    exact Or.inl ⟨hc, (Except.error.inj h).symm⟩

theorem toOption_eq_some : x.toOption = some a ↔ x = .ok a := by
  cases x with
  | error e | ok b => simp [Except.toOption]

instance decidableOk (x : Except ε α) : Decidable (exists a, x = .ok a) :=
  match x with
  | .error _ => isFalse (fun ⟨_, h⟩ => by cases h)
  | .ok a => isTrue ⟨a, rfl⟩

instance decidableOkAnd {P : α -> Prop} [DecidablePred P] (x : Except ε α) :
    Decidable (exists a, x = .ok a ∧ P a) :=
  decidable_of_iff (exists a, a ∈ x.toOption ∧ P a)
    (exists_congr fun _ => and_congr_left fun _ => toOption_eq_some)

/-!
## Errors

Which errors a transaction may fail with.
-/

def Fails (P : ε -> Prop) (x : Except ε α) : Prop := forall e, x = .error e -> P e

section Errors

variable {P : ε -> Prop} {c : Prop} [Decidable c]

@[simp]
theorem fails_pure : Fails P (pure a : Except ε α) := nofun

@[simp]
theorem fails_throw : Fails P (throw e : Except ε α) ↔ P e := by
  constructor
  · exact fun h => h e rfl
  · rintro he e' ⟨⟩
    exact he

@[simp]
theorem fails_ensure : Fails P (ensure c e) ↔ (¬ c -> P e) := by
  by_cases hc : c <;> simp [Fails, ensure, hc]

@[simp]
theorem fails_okOr {o : Option α} : Fails P (okOr o e) ↔ (o = none -> P e) := by
  cases o <;> simp [Fails, okOr]

@[simp]
theorem fails_bind : Fails P (x >>= f) ↔ Fails P x ∧ forall a, x = .ok a -> Fails P (f a) := by
  cases x <;> simp [Fails, Bind.bind, Except.bind]

@[simp]
theorem fails_map {g : α -> β} : Fails P (g <$> x) ↔ Fails P x := by
  cases x <;> simp [Fails, Functor.map, Except.map]

@[simp]
theorem fails_dite {x : c -> Except ε α} {y : ¬ c -> Except ε α} :
    Fails P (dite c x y) ↔ (forall h, Fails P (x h)) ∧ forall h, Fails P (y h) := by
  by_cases hc : c <;> simp [hc]

@[simp]
theorem fails_ite {y : Except ε α} : Fails P (ite c x y) ↔ (c -> Fails P x) ∧ (¬ c -> Fails P y) :=
  fails_dite

theorem fails_foldlM {step : σ -> α -> Except ε σ} {xs : List α}
    (hstep : forall x, x ∈ xs -> forall s, Fails P (step s x)) (s : σ) :
    Fails P (xs.foldlM step s) := by
  induction xs generalizing s with
  | nil => exact fails_pure
  | cons x xs ih =>
    rw [foldlM_cons, fails_bind]
    exact ⟨hstep x mem_cons_self s, fun u _ =>
      ih (fun y hy => hstep y (mem_cons_of_mem x hy)) u⟩

end Errors

/-!
## Loops

The two loop rules take a motive that may speak about the elements still to
come.  The first says what holds when the loop commits, the second that it
does commit.
-/

variable {step : σ -> α -> Except ε σ} {xs : List α}

theorem foldlM_cons_eq_ok {t : σ} {x : α} :
    (x :: xs).foldlM step s = .ok t ↔ exists u, step s x = .ok u ∧ xs.foldlM step u = .ok t := by
  rw [foldlM_cons, bind_eq_ok]

theorem foldlM_rec (motive : List α -> σ -> Prop)
    (hstep : forall x xs s u, motive (x :: xs) s -> step s x = .ok u -> motive xs u)
    {t : σ} (hs : motive xs s) (hfold : xs.foldlM step s = .ok t) : motive [] t := by
  induction xs generalizing s with
  | nil =>
    rw [foldlM_nil, pure_eq_ok] at hfold
    exact hfold ▸ hs
  | cons x xs ih =>
    rcases foldlM_cons_eq_ok.mp hfold with ⟨u, hu, hrest⟩
    exact ih (hstep x xs s u hs hu) hrest

theorem foldlM_invariant (P : σ -> Prop) {t : σ}
    (hstep : forall x s u, x ∈ xs -> P s -> step s x = .ok u -> P u) (hs : P s)
    (hfold : xs.foldlM step s = .ok t) : P t := by
  refine (foldlM_rec (fun ys u => (forall y, y ∈ ys -> y ∈ xs) ∧ P u) ?_
    ⟨fun _ hy => hy, hs⟩ hfold).right
  intro x ys u v hmotive hx
  refine ⟨fun y hy => hmotive.left y (mem_cons_of_mem x hy), ?_⟩
  exact hstep x u v (hmotive.left x mem_cons_self) hmotive.right hx

theorem foldlM_total (motive : List α -> σ -> Prop)
    (hstep : forall x xs s, motive (x :: xs) s -> exists u, step s x = .ok u ∧ motive xs u)
    (hs : motive xs s) : exists t, xs.foldlM step s = .ok t ∧ motive [] t := by
  induction xs generalizing s with
  | nil => exact ⟨s, rfl, hs⟩
  | cons x xs ih =>
    rcases hstep x xs s hs with ⟨u, hu, hrest⟩
    rcases ih hrest with ⟨t, ht, hdone⟩
    exact ⟨t, foldlM_cons_eq_ok.mpr ⟨u, hu, ht⟩, hdone⟩

theorem mem_of_mapM {ys : List β} {y : β} (hmap : xs.mapM f = .ok ys) (hy : y ∈ ys) :
    exists x, x ∈ xs ∧ f x = .ok y := by
  induction xs generalizing ys with
  | nil =>
    rw [mapM_nil, pure_eq_ok] at hmap
    rw [← hmap] at hy
    cases hy
  | cons x xs ih =>
    simp only [mapM_cons, ok_iff] at hmap
    rcases hmap with ⟨_, hz, _, hzs, rfl⟩
    cases mem_cons.mp hy with
    | inl heq => exact ⟨x, mem_cons_self, heq ▸ hz⟩
    | inr hrest =>
      rcases ih hzs hrest with ⟨x', hx', hfx⟩
      exact ⟨x', mem_cons_of_mem x hx', hfx⟩

theorem foldlM_follows {τ : Type} {spec : τ -> α -> Option τ} (R : List α -> σ -> τ -> Prop)
    (hcommits : forall x xs s b c, R (x :: xs) s b -> spec b x = some c ->
      exists t, step s x = .ok t)
    (hstep : forall x xs s b t, R (x :: xs) s b -> step s x = .ok t ->
      exists c, spec b x = some c ∧ R xs t c) {b : τ} (hs : R xs s b) :
    (forall t, xs.foldlM step s = .ok t -> exists c, xs.foldlM spec b = some c ∧ R [] t c) ∧
    forall c, xs.foldlM spec b = some c -> exists t, xs.foldlM step s = .ok t := by
  induction xs generalizing s b with
  | nil =>
    refine ⟨?_, fun _ _ => ⟨s, rfl⟩⟩
    intro t ht
    cases ht
    exact ⟨b, rfl, hs⟩
  | cons x xs ih =>
    rw [foldlM_cons (f := spec)]
    constructor
    · intro t hfold
      rcases foldlM_cons_eq_ok.mp hfold with ⟨u, hu, hrest⟩
      rcases hstep x xs s b u hs hu with ⟨d, hd, hafter⟩
      rw [hd]
      exact (ih hafter).left t hrest
    · intro c hfold
      rcases Option.bind_eq_some_iff.mp hfold with ⟨d, hd, hrest⟩
      rcases hcommits x xs s b d hs hd with ⟨u, hu⟩
      rcases hstep x xs s b u hs hu with ⟨_, hd', hafter⟩
      cases hd.symm.trans hd'
      rcases (ih hafter).right c hrest with ⟨t, ht⟩
      exact ⟨t, foldlM_cons_eq_ok.mpr ⟨u, hu, ht⟩⟩

end Transaction
