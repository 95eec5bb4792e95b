import Concordance.Error
import Mathlib

/-!
# Computations that can fail

When a computation over a list succeeds: each of its steps does, and the values are those of the
steps. `ok_of_bind` takes a computation apart; `mapM_eq_ok_iff` and `mapM_eq_error_iff` say when a
list of computations succeeds and how it fails. Computations that are told by the members of what
they give are told so together (`exists_mem_of_mapM`). And one that fails does so because one of its
steps does (`error_of_bind`, `error_of_mapM`).
-/

namespace Concordance

variable {ε α β : Type}

/-- A computation that succeeds has succeeded with a first value. -/
theorem ok_of_bind {x : Except ε α} {f : α → Except ε β} {b : β} (h : (x >>= f) = .ok b) :
    ∃ a, x = .ok a ∧ f a = .ok b := by
  cases x with
  | error e => nomatch h
  | ok a => exact ⟨a, rfl, h⟩

theorem ok_of_map {x : Except ε α} {f : α → β} {b : β} (h : f <$> x = .ok b) :
    ∃ a, x = .ok a ∧ f a = b := by
  cases x with
  | error e => nomatch h
  | ok a => exact ⟨a, rfl, Except.ok.inj h⟩

/-- A computation fails at its start or later. -/
theorem error_of_bind {x : Except ε α} {f : α → Except ε β} {e : ε} (h : (x >>= f) = .error e) :
    x = .error e ∨ ∃ a, x = .ok a ∧ f a = .error e := by
  cases x with
  | error e' => exact Or.inl (congrArg _ (Except.error.inj h))
  | ok a => exact Or.inr ⟨a, rfl, h⟩

/-- A computation that starts well fails later. -/
theorem error_of_ok_bind {x : Except ε α} {f : α → Except ε β} {a : α} {e : ε} (hx : x = .ok a)
    (h : (x >>= f) = .error e) : f a = .error e := by
  subst hx
  exact h

theorem error_of_map {x : Except ε α} {f : α → β} {e : ε} (h : f <$> x = .error e) :
    x = .error e := by
  cases x with
  | error e' =>
    cases h
    rfl
  | ok a => nomatch h

/-! ## Lists of computations -/

theorem forall₂_of_mapM {f : α → Except ε β} {xs : List α} {ys : List β}
    (h : xs.mapM f = .ok ys) : List.Forall₂ (fun x y => f x = .ok y) xs ys := by
  induction xs generalizing ys with
  | nil =>
    cases h
    exact .nil
  | cons x xs ih =>
    rw [List.mapM_cons] at h
    obtain ⟨y, hy, h⟩ := ok_of_bind h
    obtain ⟨zs, hzs, h⟩ := ok_of_bind h
    cases h
    exact .cons hy (ih hzs)

/-- **A list of computations succeeds if each does**, with the values that these give. -/
theorem mapM_eq_ok_iff {f : α → Except ε β} {xs : List α} {ys : List β} :
    xs.mapM f = .ok ys ↔ List.Forall₂ (fun x y => f x = .ok y) xs ys := by
  refine ⟨forall₂_of_mapM, fun h => ?_⟩
  induction h with
  | nil => rfl
  | cons hx _ ih =>
    rw [List.mapM_cons, hx, ih]
    rfl

/-- **A list of computations fails as the first that fails.** -/
theorem mapM_eq_error_iff {f : α → Except ε β} {xs : List α} {e : ε} :
    xs.mapM f = .error e ↔ ∃ before x behind, xs = before ++ x :: behind ∧
      (∀ y ∈ before, ∃ z, f y = .ok z) ∧ f x = .error e := by
  constructor
  · intro h
    induction xs with
    | nil => nomatch h
    | cons x xs ih =>
      rw [List.mapM_cons] at h
      rcases error_of_bind h with h | ⟨y, hy, h⟩
      · exact ⟨[], x, xs, rfl, fun _ hmem => absurd hmem List.not_mem_nil, h⟩
      rcases error_of_bind h with h | ⟨_, -, h⟩
      · obtain ⟨before, x', behind, rfl, hbefore, hx'⟩ := ih h
        exact ⟨x :: before, x', behind, rfl, List.forall_mem_cons.mpr ⟨⟨y, hy⟩, hbefore⟩, hx'⟩
      · nomatch h
  · rintro ⟨before, x, behind, rfl, hbefore, hx⟩
    induction before with
    | nil =>
      rw [List.nil_append, List.mapM_cons, hx]
      rfl
    | cons y before ih =>
      obtain ⟨⟨z, hy⟩, hbefore⟩ := List.forall_mem_cons.mp hbefore
      rw [List.cons_append, List.mapM_cons, hy, ih hbefore]
      rfl

theorem error_of_mapM {f : α → Except ε β} {xs : List α} {e : ε} (h : xs.mapM f = .error e) :
    ∃ x ∈ xs, f x = .error e := by
  obtain ⟨before, x, behind, rfl, -, hx⟩ := mapM_eq_error_iff.mp h
  exact ⟨x, List.mem_append_right _ List.mem_cons_self, hx⟩

theorem mapM_congr {f g : α → Except ε β} {xs : List α} (h : ∀ x ∈ xs, f x = g x) :
    xs.mapM f = xs.mapM g := by
  induction xs with
  | nil => rfl
  | cons x xs ih =>
    rw [List.mapM_cons, List.mapM_cons, h x List.mem_cons_self,
      ih fun x hx => h x (List.mem_cons_of_mem _ hx)]

/-- Computations that all succeed do so one after the other. -/
theorem exists_mapM_ok {f : α → Except ε β} {xs : List α} (h : ∀ x ∈ xs, ∃ y, f x = .ok y) :
    ∃ ys, xs.mapM f = .ok ys := by
  induction xs with
  | nil => exact ⟨[], rfl⟩
  | cons x xs ih =>
    obtain ⟨y, hy⟩ := h x List.mem_cons_self
    obtain ⟨ys, hys⟩ := ih fun x hx => h x (List.mem_cons_of_mem _ hx)
    refine ⟨y :: ys, ?_⟩
    rw [List.mapM_cons, hy, hys]
    rfl

theorem mapM_ok {f : α → Except ε β} {g : α → β} {xs : List α} (h : ∀ x ∈ xs, f x = .ok (g x)) :
    xs.mapM f = .ok (xs.map g) := by
  induction xs with
  | nil => rfl
  | cons x xs ih =>
    rw [List.mapM_cons, h x List.mem_cons_self, ih fun x hx => h x (List.mem_cons_of_mem _ hx)]
    rfl

/-- The values of a list of computations are those of its members. -/
theorem mem_of_mapM {f : α → Except ε β} {xs : List α} {ys : List β} (h : xs.mapM f = .ok ys)
    {y : β} : y ∈ ys ↔ ∃ x ∈ xs, f x = .ok y := by
  replace h := forall₂_of_mapM h
  induction h with
  | nil => simp
  | @cons x z xs ys hz _ ih =>
    refine List.mem_cons.trans ((or_congr Iff.rfl ih).trans ?_)
    constructor
    · rintro (rfl | ⟨a, ha, hy⟩)
      · exact ⟨x, List.mem_cons_self, hz⟩
      · exact ⟨a, List.mem_cons_of_mem _ ha, hy⟩
    · rintro ⟨a, ha, hy⟩
      rcases List.mem_cons.mp ha with rfl | ha
      · exact Or.inl (Except.ok.inj (hy.symm.trans hz))
      · exact Or.inr ⟨a, ha, hy⟩

/-- A list of computations that succeeds has succeeded with each. -/
theorem ok_of_mapM {f : α → Except ε β} {xs : List α} {ys : List β} (h : xs.mapM f = .ok ys) {x : α}
    (hx : x ∈ xs) : ∃ y, f x = .ok y := by
  replace h := forall₂_of_mapM h
  induction h with
  | nil => exact absurd hx List.not_mem_nil
  | cons hy _ ih =>
    rcases List.mem_cons.mp hx with rfl | hx
    · exact ⟨_, hy⟩
    · exact ih hx

/-- Computations with a collection told by its members give together what they give one by one. -/
theorem exists_mem_of_mapM {γ : Type} {f : α → Except ε β} {mem : β → γ → Prop} {P : α → γ → Prop}
    {xs : List α} {yss : List β} (h : xs.mapM f = .ok yss)
    (hmem : ∀ x ∈ xs, ∀ ys, f x = .ok ys → ∀ y, mem ys y ↔ P x y) (y : γ) :
    (∃ ys ∈ yss, mem ys y) ↔ ∃ x ∈ xs, P x y := by
  constructor
  · rintro ⟨ys, hys, hy⟩
    obtain ⟨x, hx, hfx⟩ := (mem_of_mapM h).mp hys
    exact ⟨x, hx, (hmem x hx ys hfx y).mp hy⟩
  · rintro ⟨x, hx, hy⟩
    obtain ⟨ys, hfx⟩ := ok_of_mapM h hx
    exact ⟨ys, (mem_of_mapM h).mpr ⟨x, hx, hfx⟩, (hmem x hx ys hfx y).mpr hy⟩

/-- Computations that succeed, each with a collection told by its members, succeed together. -/
theorem exists_mapM_mem {γ : Type} {f : α → Except ε β} {mem : β → γ → Prop} {P : α → γ → Prop}
    {xs : List α} (h : ∀ x ∈ xs, ∃ ys, f x = .ok ys ∧ ∀ y, mem ys y ↔ P x y) :
    ∃ yss, xs.mapM f = .ok yss ∧ ∀ y, (∃ ys ∈ yss, mem ys y) ↔ ∃ x ∈ xs, P x y := by
  obtain ⟨yss, hyss⟩ := exists_mapM_ok fun x hx => (h x hx).imp fun _ hx => hx.1
  refine ⟨yss, hyss, exists_mem_of_mapM hyss fun x hx ys hfx => ?_⟩
  obtain ⟨ys', hfx', hiff⟩ := h x hx
  obtain rfl : ys = ys' := Except.ok.inj (hfx.symm.trans hfx')
  exact hiff

theorem filterAuxM_ok {f : α → Except ε Bool} {p : α → Bool} {xs : List α}
    (h : ∀ x ∈ xs, f x = .ok (p x)) (acc : List α) :
    xs.filterAuxM f acc = .ok ((xs.filter p).reverse ++ acc) := by
  induction xs generalizing acc with
  | nil => rfl
  | cons x xs ih =>
    rw [List.filterAuxM, h x List.mem_cons_self]
    show xs.filterAuxM f (cond (p x) (x :: acc) acc) = _
    rw [ih fun x hx => h x (List.mem_cons_of_mem _ hx), List.filter_cons]
    cases p x <;> simp

/-- A test that succeeds on every member keeps those that pass it. -/
theorem filterM_ok {f : α → Except ε Bool} {p : α → Bool} {xs : List α}
    (h : ∀ x ∈ xs, f x = .ok (p x)) : xs.filterM f = .ok (xs.filter p) := by
  unfold List.filterM
  rw [filterAuxM_ok h]
  simp only [List.append_nil, bind, Except.bind, List.reverse_reverse]
  rfl

theorem error_of_filterAuxM {f : α → Except ε Bool} {xs acc : List α} {e : ε}
    (h : xs.filterAuxM f acc = .error e) : ∃ x ∈ xs, f x = .error e := by
  induction xs generalizing acc with
  | nil => nomatch h
  | cons x xs ih =>
    rw [List.filterAuxM] at h
    rcases error_of_bind h with h | ⟨_, -, h⟩
    · exact ⟨x, List.mem_cons_self, h⟩
    · obtain ⟨y, hy, h⟩ := ih h
      exact ⟨y, List.mem_cons_of_mem _ hy, h⟩

theorem error_of_filterM {f : α → Except ε Bool} {xs : List α} {e : ε}
    (h : xs.filterM f = .error e) : ∃ x ∈ xs, f x = .error e := by
  unfold List.filterM at h
  rcases error_of_bind h with h | ⟨_, -, h⟩
  · exact error_of_filterAuxM h
  · nomatch h

theorem ok_of_filterAuxM {f : α → Except ε Bool} {xs acc ys : List α}
    (h : xs.filterAuxM f acc = .ok ys) : ∀ x ∈ xs, ∃ b, f x = .ok b := by
  induction xs generalizing acc with
  | nil => exact fun _ hx => absurd hx List.not_mem_nil
  | cons x xs ih =>
    rw [List.filterAuxM] at h
    obtain ⟨b, hb, h⟩ := ok_of_bind h
    exact List.forall_mem_cons.mpr ⟨⟨b, hb⟩, ih h⟩

/-- A filter that succeeds has succeeded with each test, and keeps what passes it. -/
theorem eq_filter_of_filterM {f : α → Except ε Bool} {xs ys : List α} (h : xs.filterM f = .ok ys) :
    ∃ p : α → Bool, (∀ x ∈ xs, f x = .ok (p x)) ∧ ys = xs.filter p := by
  have hall : ∀ x ∈ xs, ∃ b, f x = .ok b := by
    unfold List.filterM at h
    obtain ⟨_, hzs, -⟩ := ok_of_bind h
    exact ok_of_filterAuxM hzs
  choose! p hp using hall
  rw [filterM_ok hp] at h
  exact ⟨p, hp, (Except.ok.inj h).symm⟩

/-- What a test keeps stays in its order. -/
theorem sublist_of_filterM {f : α → Except ε Bool} {xs ys : List α} (h : xs.filterM f = .ok ys) :
    ys.Sublist xs := by
  obtain ⟨p, -, rfl⟩ := eq_filter_of_filterM h
  exact List.filter_sublist

theorem forM_ok_iff {f : α → Except ε Unit} {xs : List α} :
    xs.forM f = .ok () ↔ ∀ x ∈ xs, f x = .ok () := by
  induction xs with
  | nil => exact iff_of_true rfl fun _ hx => absurd hx List.not_mem_nil
  | cons x xs ih =>
    rw [List.forall_mem_cons, ← ih]
    constructor
    · intro h
      obtain ⟨_, hx, h⟩ := ok_of_bind h
      exact ⟨hx, h⟩
    · rintro ⟨hx, h⟩
      show (f x >>= fun _ => xs.forM f) = _
      rw [hx]
      exact h

theorem error_of_forM {f : α → Except ε Unit} {xs : List α} {e : ε} (h : xs.forM f = .error e) :
    ∃ x ∈ xs, f x = .error e := by
  induction xs with
  | nil => nomatch h
  | cons x xs ih =>
    rcases error_of_bind h with h | ⟨_, -, h⟩
    · exact ⟨x, List.mem_cons_self, h⟩
    · obtain ⟨y, hy, h⟩ := ih h
      exact ⟨y, List.mem_cons_of_mem _ hy, h⟩

end Concordance
