import Concordance.Proofs.RecordSet.Composition

/-!
# The model that a refused combination names

A set that was combined with one of another model keeps the name of one other model, which its
refusal reports. Which one that is depends on the order in which a composition is put together, the
sides of a combination before the combination and the left side first: the first two compositions of
different models decide (`Composition.clash?`), and the right one gives its name.

This is always the model of a set that was combined. It need not be another model than that of the
whole. A right side that mixes models has its own notion of the other model, which was kept beside
the model of that side, and the whole takes it over unseen.

* `Composition.foreign_eq`: the name that is kept is the one that the first clash adds.
* **`Composition.foreign_of_clash`**: when the name that is kept is the model of the set itself, and
  that this cannot be where no right side mixes models.
* **`Composition.books_against_books`**: such a set is refused as a combination of books and books.
-/

namespace Concordance

/-- The earlier name stays, then comes the one that the other set brings, then the other set's
model. -/
theorem RecordSet.foreignOf_eq (a b : RecordSet) : a.foreignOf b =
    a.foreign.or (b.foreign.or (if b.model = a.model then none else some b.model)) := by
  unfold foreignOf
  cases a.foreign with
  | some other => rfl
  | none => cases b.foreign <;> rfl

namespace Composition

/-- The pairs of compositions that are combined, in the order in which this is done: what is
combined inside the sides comes before the sides are, and the left side before the right one. -/
def combined : Composition → List (Composition × Composition)
  | all _ => []
  | filter c _ _ | exclude c _ _ | orderBy c _ => c.combined
  | and c d | or c d => c.combined ++ d.combined ++ [(c, d)]

/-- The first two compositions of different models among pairs that are combined. -/
def firstClash? (pairs : List (Composition × Composition)) : Option (Composition × Composition) :=
  pairs.find? fun p => p.2.leftmost != p.1.leftmost

/-- The first two compositions of different models that are combined. -/
def clash? (c : Composition) : Option (Composition × Composition) := firstClash? c.combined

variable {c d l r : Composition}

/-- The pairs are the sides of the combinations among the parts. -/
theorem mem_combined : (l, r) ∈ c.combined ↔ l.and r ∈ c.parts ∨ l.or r ∈ c.parts := by
  induction c with
  | all => simp [combined, parts]
  | filter | exclude | orderBy => simpa [combined, parts]
  | and c d ihc ihd | or c d ihc ihd =>
    simp only [combined, parts, List.mem_append, List.mem_cons, ihc, ihd, Prod.mk.injEq,
      and.injEq, or.injEq, reduceCtorEq, false_or, List.not_mem_nil, or_false]
    refine iff_of_eq ?_
    ac_rfl

/-! ## The first clash -/

/-- A pair that comes last is the first clash only if there is none before it. -/
theorem firstClash?_combined (c d : Composition) :
    firstClash? (c.combined ++ d.combined ++ [(c, d)]) =
      c.clash?.or (d.clash?.or (if d.leftmost = c.leftmost then none else some (c, d))) := by
  unfold firstClash? clash? firstClash?
  rw [List.find?_append, List.find?_append, Option.or_assoc, List.find?_singleton]
  congr 2
  by_cases h : d.leftmost = c.leftmost <;> simp [h]

/-- What a combination names, if each side names the model that its first clash adds. -/
theorem foreignOf_of_clash (hc : c.toSet.foreign = c.clash?.map fun p => p.2.leftmost)
    (hd : d.toSet.foreign = d.clash?.map fun p => p.2.leftmost) :
    c.toSet.foreignOf d.toSet =
      (firstClash? (c.combined ++ d.combined ++ [(c, d)])).map fun p => p.2.leftmost := by
  rw [firstClash?_combined, RecordSet.foreignOf_eq, hc, hd, model_toSet, model_toSet,
    Option.map_or, Option.map_or]
  congr 2
  split <;> rfl

/-- **The name that is kept is the one that the first clash adds.** -/
theorem foreign_eq : c.toSet.foreign = c.clash?.map fun p => p.2.leftmost := by
  induction c with
  | all model => rfl
  | filter c path lookup ih => exact ih
  | exclude c path lookup ih => exact ih
  | orderBy c specs ih => exact ih
  | and c d ihc ihd => exact (RecordSet.foreign_and _ _).trans (foreignOf_of_clash ihc ihd)
  | or c d ihc ihd => exact (RecordSet.foreign_or _ _).trans (foreignOf_of_clash ihc ihd)

theorem foreign_eq_some_iff {other : String} : c.toSet.foreign = some other ↔
    ∃ l r, c.clash? = some (l, r) ∧ r.leftmost = other := by
  rw [foreign_eq, Option.map_eq_some_iff, Prod.exists]

theorem clash?_eq_none_iff : c.clash? = none ↔ ¬c.Mixes := by
  rw [← isSome_foreign_iff, foreign_eq, Option.isSome_map, Option.not_isSome_iff_eq_none]

/-- The sides of the first clash are combined, and of different models. -/
theorem mem_combined_of_clash (h : c.clash? = some (l, r)) :
    (l, r) ∈ c.combined ∧ l.leftmost ≠ r.leftmost := by
  have hdiffer : r.leftmost ≠ l.leftmost := by simpa using List.find?_some h
  exact ⟨List.mem_of_find?_eq_some h, hdiffer.symm⟩

/-- The cases of a first clash in a combination: it is in the left side, or in the right one if the
left has none, or it is the combination itself if neither side has one. -/
theorem clash_cases (h : firstClash? (c.combined ++ d.combined ++ [(c, d)]) = some (l, r)) :
    c.clash? = some (l, r) ∨ d.clash? = some (l, r) ∨
      (¬c.Mixes ∧ ¬d.Mixes ∧ l = c ∧ r = d) := by
  rw [firstClash?_combined, Option.or_eq_some_iff, Option.or_eq_some_iff] at h
  obtain hc | ⟨hc, hd | ⟨hd, hsides⟩⟩ := h
  · exact Or.inl hc
  · exact Or.inr (Or.inl hd)
  · split at hsides
    · nomatch hsides
    · cases hsides
      exact Or.inr (Or.inr ⟨clash?_eq_none_iff.mp hc, clash?_eq_none_iff.mp hd, rfl, rfl⟩)

/-- Neither side of the first clash mixes models itself. -/
theorem not_mixes_of_clash (h : c.clash? = some (l, r)) : ¬l.Mixes ∧ ¬r.Mixes := by
  induction c with
  | all => nomatch h
  | filter c path lookup ih => exact ih h
  | exclude c path lookup ih => exact ih h
  | orderBy c specs ih => exact ih h
  | and c d ihc ihd | or c d ihc ihd =>
    obtain h | h | ⟨hc, hd, rfl, rfl⟩ := clash_cases h
    · exact ihc h
    · exact ihd h
    · exact ⟨hc, hd⟩

/-- The models of the sides of a combination are models of the whole. -/
theorem models_subset_of_combined (h : (l, r) ∈ c.combined) :
    l.models ⊆ c.models ∧ r.models ⊆ c.models := by
  have hsides : ∀ {xs ys : List String}, (l.models ⊆ xs ∧ r.models ⊆ xs) ∨
      (l.models ⊆ ys ∧ r.models ⊆ ys) ∨ (l.models = xs ∧ r.models = ys) →
      l.models ⊆ xs ++ ys ∧ r.models ⊆ xs ++ ys := by
    rintro xs ys (⟨hl, hr⟩ | ⟨hl, hr⟩ | ⟨rfl, rfl⟩)
    · exact ⟨List.subset_append_of_subset_left _ hl, List.subset_append_of_subset_left _ hr⟩
    · exact ⟨List.subset_append_of_subset_right _ hl, List.subset_append_of_subset_right _ hr⟩
    · exact ⟨List.subset_append_left _ _, List.subset_append_right _ _⟩
  induction c with
  | all => nomatch h
  | filter c path lookup ih => exact ih h
  | exclude c path lookup ih => exact ih h
  | orderBy c specs ih => exact ih h
  | and c d ihc ihd | or c d ihc ihd =>
    refine hsides ?_
    rw [combined, List.mem_append, List.mem_append, List.mem_singleton, Prod.mk.injEq] at h
    obtain (h | h) | ⟨rfl, rfl⟩ := h
    · exact Or.inl (ihc h)
    · exact Or.inr (Or.inl (ihd h))
    · exact Or.inr (Or.inr ⟨rfl, rfl⟩)

/-- Where no right side mixes models, the first clash has the model of the whole on its left. -/
theorem leftmost_of_clash (hright : ∀ l r, (l, r) ∈ c.combined → ¬r.Mixes)
    (h : c.clash? = some (l, r)) : l.leftmost = c.leftmost := by
  induction c with
  | all => nomatch h
  | filter c path lookup ih => exact ih hright h
  | exclude c path lookup ih => exact ih hright h
  | orderBy c specs ih => exact ih hright h
  | and c d ihc ihd | or c d ihc ihd =>
    simp only [combined, List.mem_append, List.mem_singleton] at hright
    obtain h | h | ⟨-, -, rfl, -⟩ := clash_cases h
    · exact ihc (fun l r hmem => hright l r (Or.inl (Or.inl hmem))) h
    · rw [clash?_eq_none_iff.mpr (hright c d (Or.inr rfl))] at h
      nomatch h
    · rfl

/-- **Which model a refused combination names.** A composed set keeps a name exactly if two
compositions of different models are combined in it, and the name is the model of the right one of
the first two, in the order in which the composition is put together. These two are sides of a
combination among its parts and mix no models themselves, so the name is the model of sets that are
combined there, and not the model that they are combined with. It is the model of the set itself
exactly if the first two have another model on the left and that of the set on the right, which
needs a right side that mixes models. Validation reports the model of the set and the name, equal or
not. -/
theorem foreign_of_clash (c : Composition) :
    (∀ other, c.toSet.foreign = some other ↔
      ∃ l r, c.clash? = some (l, r) ∧ r.leftmost = other) ∧
    (∀ l r, c.clash? = some (l, r) →
      (l.and r ∈ c.parts ∨ l.or r ∈ c.parts) ∧ ¬l.Mixes ∧ ¬r.Mixes ∧
        l.leftmost ∈ c.models ∧ r.leftmost ∈ c.models ∧ l.leftmost ≠ r.leftmost) ∧
    (c.toSet.foreign = some c.toSet.model ↔ ∃ l r, c.clash? = some (l, r) ∧
      l.leftmost ≠ c.toSet.model ∧ r.leftmost = c.toSet.model) ∧
    ((∀ l r : Composition, l.and r ∈ c.parts ∨ l.or r ∈ c.parts → ¬r.Mixes) →
      c.toSet.foreign ≠ some c.toSet.model) ∧
    ∀ (s : Schema) (other : String), s.contains c.toSet.model = true →
      c.toSet.foreign = some other →
      c.toSet.validate s = .error (.invalidValue (.mixedModels c.toSet.model other)) := by
  have hsides : ∀ {l r : Composition}, c.clash? = some (l, r) → l.leftmost ≠ r.leftmost :=
    fun h => (mem_combined_of_clash h).2
  refine ⟨fun other => foreign_eq_some_iff, fun l r h => ?_, ?_, fun hright h => ?_,
    fun s other hmodel h => validate_of_foreign hmodel h⟩
  · obtain ⟨hmem, hne⟩ := mem_combined_of_clash h
    obtain ⟨hl, hr⟩ := not_mixes_of_clash h
    obtain ⟨hlmodels, hrmodels⟩ := models_subset_of_combined hmem
    exact ⟨mem_combined.mp hmem, hl, hr, hlmodels l.leftmost_mem_models,
      hrmodels r.leftmost_mem_models, hne⟩
  · rw [foreign_eq_some_iff]
    constructor
    · rintro ⟨l, r, h, hr⟩
      exact ⟨l, r, h, hr ▸ hsides h, hr⟩
    · rintro ⟨l, r, h, -, hr⟩
      exact ⟨l, r, h, hr⟩
  · obtain ⟨l, r, h, hr⟩ := foreign_eq_some_iff.mp h
    have hl := leftmost_of_clash (fun l r hmem => hright l r (mem_combined.mp hmem)) h
    rw [model_toSet, ← hl] at hr
    exact hsides h hr.symm

/-- Books, combined with anthologies that were combined with books. -/
def booksOfAnthologies : Composition := and (all "Book") (or (all "Anthology") (all "Book"))

/-- The first clash stands inside the right side, and brings the name of books to books. Where books
are combined with anthologies at once, the name is another one. -/
theorem foreign_of_clash_books :
    booksOfAnthologies.clash? = some (all "Anthology", all "Book") ∧
    booksOfAnthologies.toSet.foreign = some "Book" ∧
    (∀ l r : Composition, l.and r ∈ booksAndAnthologies.parts ∨ l.or r ∈ booksAndAnthologies.parts →
      ¬r.Mixes) ∧
    booksAndAnthologies.toSet.foreign ≠ some "Book" := by
  have hclash : booksOfAnthologies.clash? = some (all "Anthology", all "Book") := rfl
  have hright : ∀ l r : Composition,
      l.and r ∈ booksAndAnthologies.parts ∨ l.or r ∈ booksAndAnthologies.parts → ¬r.Mixes := by
    simp [booksAndAnthologies, parts]
  obtain ⟨hname, -⟩ := foreign_of_clash booksOfAnthologies
  obtain ⟨-, -, -, hother, -⟩ := foreign_of_clash booksAndAnthologies
  exact ⟨hclash, (hname "Book").mpr ⟨_, _, hclash, rfl⟩, hright, hother hright⟩

/-- The refusal of such a set names books twice. -/
theorem books_against_books :
    booksOfAnthologies.toSet.model = "Book" ∧ booksOfAnthologies.toSet.foreign = some "Book" ∧
    booksOfAnthologies.toSet.validate catalogueSchema =
      .error (.invalidValue (.mixedModels "Book" "Book")) ∧
    (Error.invalidValue (.mixedModels "Book" "Book")).message =
      "Invalid value: cannot combine record sets of 'Book' and 'Book'" :=
  ⟨rfl, rfl, validate_of_foreign (by decide) rfl, by decide +kernel⟩

end Composition

end Concordance
