import Concordance.Backend
import Concordance.Proofs.Result
import Mathlib

/-!
# What operations do to their states, and what they see of them

`Regular R E x` says two things about an operation: it takes every state to one that `R` relates to
it, whether it fails or not; and from two states that `E` relates it gives the same outcome and
leads to two states that `E` relates again. With a preorder `R` this is kept by everything that
operations are made of, so it is proved for small operations and holds of what is put together from
them.
-/

namespace Concordance

namespace Update

variable {σ τ α β : Type}

/-! ## Performing operations -/

theorem perform_ofResult (r : Result α) (s : σ) : (ofResult r : Update σ α).perform s = (r, s) :=
  rfl

theorem perform_bind (x : Update σ α) (f : α → Update σ β) (s : σ) :
    (x >>= f).perform s = match x.perform s with
      | (.ok a, t) => (f a).perform t
      | (.error e, t) => (.error e, t) := by
  show (ExceptT.bindCont f (x.perform s).1 : StateM σ _) (x.perform s).2 = _
  rcases x.perform s with ⟨_ | _, _⟩ <;> rfl

/-- Reading the state changes nothing. -/
theorem perform_get_bind (f : σ → Update σ α) (s : σ) :
    (get >>= f).perform s = (f s).perform s := by
  rw [perform_bind]
  rfl

theorem perform_map (f : α → β) (x : Update σ α) (s : σ) :
    (f <$> x).perform s = ((x.perform s).1.map f, (x.perform s).2) := by
  rw [map_eq_pure_bind, perform_bind]
  rcases x.perform s with ⟨_ | _, _⟩ <;> rfl

/-- An operation that starts with an outcome goes on with its value or fails with it. -/
theorem perform_ofResult_bind (r : Result α) (f : α → Update σ β) (s : σ) :
    (ofResult r >>= f).perform s = match r with
      | .ok a => (f a).perform s
      | .error e => (.error e, s) := by
  rw [perform_bind, perform_ofResult]
  cases r <;> rfl

/-- Where what comes after cannot fail, the operation fails as it starts. -/
theorem perform_bind_of_error {x : Update σ α} {f : α → Update σ β} {s : σ} {e : Error}
    (h : ((x >>= f).perform s).1 = .error e) (hf : ∀ a t, ((f a).perform t).1 ≠ .error e) :
    (x.perform s).1 = .error e ∧ ((x >>= f).perform s).2 = (x.perform s).2 := by
  rw [perform_bind] at h ⊢
  rcases hx : x.perform s with ⟨e' | a, t⟩
  · rw [hx] at h
    exact ⟨congrArg _ (Except.error.inj h), rfl⟩
  · rw [hx] at h
    exact absurd h (hf a t)

/-! ## Regular operations -/

/-- The operation moves states along `R`, and does not tell states apart that `E` relates. -/
structure Regular (R E : σ → σ → Prop) (x : Update σ α) : Prop where
  moves : ∀ s, R s (x.perform s).2
  agrees : ∀ s t, E s t →
    (x.perform s).1 = (x.perform t).1 ∧ E (x.perform s).2 (x.perform t).2

/-- Where only moves are of interest, states are told apart. -/
theorem regular_of_moves {R : σ → σ → Prop} {x : Update σ α} (h : ∀ s, R s (x.perform s).2) :
    Regular R Eq x where
  moves := h
  agrees s t hst := by
    subst hst
    exact ⟨rfl, rfl⟩

/-- Reading the state changes nothing. -/
theorem regular_get {R : σ → σ → Prop} [Std.Refl R] : Regular R Eq (get : Update σ σ) :=
  regular_of_moves Std.Refl.refl

section Preorder

variable {R E : σ → σ → Prop} [Std.Refl R] [IsTrans σ R]

omit [IsTrans σ R] in
theorem regular_ofResult (r : Result α) : Regular R E (ofResult r) where
  moves s := Std.Refl.refl s
  agrees _ _ h := ⟨rfl, h⟩

omit [IsTrans σ R] in
theorem regular_pure (a : α) : Regular R E (pure a) := regular_ofResult (.ok a)

omit [Std.Refl R] in
theorem regular_bind {x : Update σ α} {f : α → Update σ β} (hx : Regular R E x)
    (hf : ∀ a, Regular R E (f a)) : Regular R E (x >>= f) where
  moves s := by
    have hmove := hx.moves s
    rw [perform_bind]
    generalize x.perform s = out at hmove ⊢
    rcases out with ⟨e | a, s'⟩
    · exact hmove
    · exact IsTrans.trans _ _ _ hmove ((hf a).moves s')
  agrees s t h := by
    have hagree := hx.agrees s t h
    rw [perform_bind, perform_bind]
    generalize x.perform s = out at hagree ⊢
    generalize x.perform t = out' at hagree ⊢
    obtain ⟨r, s'⟩ := out
    obtain ⟨r', t'⟩ := out'
    obtain ⟨rfl, hstate⟩ : r = r' ∧ E s' t' := hagree
    cases r with
    | error e => exact ⟨rfl, hstate⟩
    | ok a => exact (hf a).agrees s' t' hstate

theorem regular_map {x : Update σ α} (f : α → β) (hx : Regular R E x) : Regular R E (f <$> x) := by
  rw [map_eq_pure_bind]
  exact regular_bind hx fun a => regular_pure (f a)

theorem regular_forM {f : α → Update σ Unit} (hf : ∀ a, Regular R E (f a)) (xs : List α) :
    Regular R E (xs.forM f) := by
  induction xs with
  | nil => exact regular_pure ()
  | cons x xs ih => exact regular_bind (hf x) fun _ => ih

theorem regular_mapM {f : α → Update σ β} (hf : ∀ a, Regular R E (f a)) (xs : List α) :
    Regular R E (xs.mapM f) := by
  induction xs with
  | nil => exact regular_pure []
  | cons x xs ih =>
    rw [List.mapM_cons]
    exact regular_bind (hf x) fun b => regular_bind ih fun bs => regular_pure (b :: bs)

end Preorder

variable {R E : σ → σ → Prop} {R' E' : τ → τ → Prop}

theorem regular_modify {f : σ → σ} (hmoves : ∀ s, R s (f s))
    (hagrees : ∀ s t, E s t → E (f s) (f t)) : Regular R E (modify f : Update σ Unit) where
  moves := hmoves
  agrees s t h := ⟨rfl, hagrees s t h⟩

/-- An operation on a part is regular on the whole if the relations of the whole can be told from
those of the part. -/
theorem regular_within {get : σ → τ} {set : τ → σ → σ} {x : Update τ α} (hx : Regular R' E' x)
    (hget : ∀ s t, E s t → E' (get s) (get t)) (hmoves : ∀ s u, R' (get s) u → R s (set u s))
    (hagrees : ∀ s t u v, E s t → E' u v → E (set u s) (set v t)) :
    Regular R E (within get set x) where
  moves s := hmoves s _ (hx.moves (get s))
  agrees s t h := by
    obtain ⟨hanswer, hstate⟩ := hx.agrees _ _ (hget s t h)
    exact ⟨hanswer, hagrees s t _ _ h hstate⟩

end Update

end Concordance
