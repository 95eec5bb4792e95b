import Concordance.Proofs.RecordSet.Algebra

/-!
# Compositions of record sets

Record sets are composed from sets of all records of a model by filters, orderings and combinations.
Nothing stops sets of different models from being combined: the combination only keeps the name of
one other model, and validation refuses it for that. Such a name comes up from either side, and from
a side whose predicate is dropped as well. So a set has one exactly if sets of different models are
combined somewhere below it (`Composition.isSome_foreign_iff`).

* `Composition.mixes_iff`: this is the case if not all sets that the composition starts from are of
  one model.
* **`Composition.refused_iff_mixes`**: without subqueries, these are the compositions that
  validation refuses as an invalid value, also where fields are wrong, and every composition with
  such a part is refused.
-/

namespace Concordance

/-- How a record set comes about. -/
inductive Composition where
  | all (model : String)
  | filter (c : Composition) (path : String) (lookup : Lookup)
  | exclude (c : Composition) (path : String) (lookup : Lookup)
  | and (c d : Composition)
  | or (c d : Composition)
  | orderBy (c : Composition) (specs : List String)

/-- The lookup has no subquery. -/
def Lookup.IsFlat : Lookup → Prop
  | .within _ _ => False
  | .compare _ _ | .oneOf _ | .isNull _ | .startsWith _ => True

/-- No lookup of the predicate has a subquery. -/
def Predicate.IsFlat : Predicate → Prop
  | .field _ lookup => lookup.IsFlat
  | .and p q | .or p q => p.IsFlat ∧ q.IsFlat
  | .not p => p.IsFlat

/-- No lookup of the set has a subquery. -/
def RecordSet.IsFlat (set : RecordSet) : Prop := ∀ p, set.predicate = some p → p.IsFlat

namespace Composition

/-- The set that is composed. -/
def toSet : Composition → RecordSet
  | all model => .of model
  | filter c path lookup => c.toSet.filter path lookup
  | exclude c path lookup => c.toSet.exclude path lookup
  | and c d => c.toSet.and d.toSet
  | or c d => c.toSet.or d.toSet
  | orderBy c specs => c.toSet.orderBy specs

/-- The model of the leftmost set. -/
def leftmost : Composition → String
  | all model => model
  | filter c _ _ | exclude c _ _ | and c _ | or c _ | orderBy c _ => c.leftmost

/-- The models of the sets that the composition starts from. -/
def models : Composition → List String
  | all model => [model]
  | and c d | or c d => c.models ++ d.models
  | filter c _ _ | exclude c _ _ | orderBy c _ => c.models

/-- The compositions that a composition has in it, itself included. -/
def parts : Composition → List Composition
  | all model => [all model]
  | filter c path lookup => filter c path lookup :: c.parts
  | exclude c path lookup => exclude c path lookup :: c.parts
  | and c d => and c d :: (c.parts ++ d.parts)
  | or c d => or c d :: (c.parts ++ d.parts)
  | orderBy c specs => orderBy c specs :: c.parts

/-- Two sets of different models are combined. -/
def Clashes : Composition → Prop
  | and c d | or c d => c.toSet.model ≠ d.toSet.model
  | all _ | filter _ _ _ | exclude _ _ _ | orderBy _ _ => False

/-- Somewhere in the composition two sets of different models are combined. -/
def Mixes (c : Composition) : Prop := ∃ d ∈ c.parts, d.Clashes

/-- No lookup of the composition has a subquery. -/
def IsFlat : Composition → Prop
  | all _ => True
  | filter c _ lookup | exclude c _ lookup => c.IsFlat ∧ lookup.IsFlat
  | and c d | or c d => c.IsFlat ∧ d.IsFlat
  | orderBy c _ => c.IsFlat

end Composition

/-! ## What sets keep -/

namespace RecordSet

variable (a b : RecordSet)

@[simp]
theorem model_filter (path : String) (lookup : Lookup) : (a.filter path lookup).model = a.model :=
  rfl

@[simp]
theorem model_exclude (path : String) (lookup : Lookup) :
    (a.exclude path lookup).model = a.model :=
  rfl

@[simp]
theorem model_or : (a.or b).model = a.model := rfl

@[simp]
theorem model_orderBy (specs : List String) : (a.orderBy specs).model = a.model := rfl

theorem foreign_and : (a.and b).foreign = a.foreignOf b := by
  unfold RecordSet.and
  cases b.predicate <;> rfl

theorem foreign_or : (a.or b).foreign = a.foreignOf b := rfl

/-- A combination has met another model if either side has, or the sides are of two models. -/
theorem isSome_foreignOf : (a.foreignOf b).isSome = true ↔
    a.foreign.isSome = true ∨ b.foreign.isSome = true ∨ a.model ≠ b.model := by
  unfold foreignOf
  cases a.foreign with
  | some other => simp
  | none =>
    cases b.foreign with
    | some other => simp
    | none =>
      by_cases h : b.model = a.model
      · simp [h]
      · simp [h, Ne.symm h]

variable {a b}

theorem IsFlat.restrict (h : a.IsFlat) {p : Predicate} (hp : p.IsFlat) :
    (a.restrict p).IsFlat := by
  obtain ⟨model, predicate, ordering, foreign⟩ := a
  rintro _ ⟨⟩
  cases predicate with
  | none => exact hp
  | some q => exact ⟨h q rfl, hp⟩

theorem IsFlat.and (ha : a.IsFlat) (hb : b.IsFlat) : (a.and b).IsFlat := by
  obtain ⟨model, predicate, ordering, foreign⟩ := b
  cases predicate with
  | none => exact ha
  | some q => exact IsFlat.restrict (a := { a with foreign := _ }) ha (hb q rfl)

theorem IsFlat.or (ha : a.IsFlat) (hb : b.IsFlat) : (a.or b).IsFlat := by
  intro p hp
  unfold RecordSet.or at hp
  split at hp
  · rename_i q r hq hr
    cases hp
    exact ⟨ha q hq, hb r hr⟩
  · nomatch hp

end RecordSet

namespace Composition

@[simp]
theorem model_toSet (c : Composition) : c.toSet.model = c.leftmost := by
  induction c with
  | all => rfl
  | filter c path lookup ih => simpa [toSet, leftmost] using ih
  | exclude c path lookup ih => simpa [toSet, leftmost] using ih
  | and c d ihc => simpa [toSet, leftmost] using ihc
  | or c d ihc => simpa [toSet, leftmost] using ihc
  | orderBy c specs ih => simpa [toSet, leftmost] using ih

theorem leftmost_mem_models (c : Composition) : c.leftmost ∈ c.models := by
  induction c with
  | all => simp [leftmost, models]
  | filter | exclude | orderBy => simpa [leftmost, models]
  | and c d ihc => simp [leftmost, models, ihc]
  | or c d ihc => simp [leftmost, models, ihc]

theorem parts_subset_of {c whole : Composition} {rest : List Composition}
    (hparts : whole.parts = whole :: rest) (hrest : c ∈ rest → c.parts ⊆ rest)
    (h : c ∈ whole.parts) : c.parts ⊆ whole.parts := by
  rw [hparts] at h
  rcases List.mem_cons.mp h with rfl | h
  · exact List.Subset.refl _
  · rw [hparts]
    exact List.Subset.trans (hrest h) (List.subset_cons_self _ _)

/-- A part of a part is a part. -/
theorem parts_subset {c whole : Composition} (h : c ∈ whole.parts) : c.parts ⊆ whole.parts := by
  have happend : ∀ {ps qs : List Composition}, (c ∈ ps → c.parts ⊆ ps) → (c ∈ qs → c.parts ⊆ qs) →
      c ∈ ps ++ qs → c.parts ⊆ ps ++ qs := by
    intro ps qs hp hq hc
    rcases List.mem_append.mp hc with hc | hc
    · exact List.subset_append_of_subset_left _ (hp hc)
    · exact List.subset_append_of_subset_right _ (hq hc)
  induction whole with
  | all model => exact parts_subset_of rfl (fun h => absurd h List.not_mem_nil) h
  | filter d path lookup ih => exact parts_subset_of rfl ih h
  | exclude d path lookup ih => exact parts_subset_of rfl ih h
  | and d e ihd ihe => exact parts_subset_of rfl (happend ihd ihe) h
  | or d e ihd ihe => exact parts_subset_of rfl (happend ihd ihe) h
  | orderBy d specs ih => exact parts_subset_of rfl ih h

/-! ## Mixed models -/

section Mixes

variable (c d : Composition)

@[simp]
theorem not_mixes_all (model : String) : ¬(all model).Mixes := by
  simp [Mixes, parts, Clashes]

@[simp]
theorem mixes_filter (path : String) (lookup : Lookup) :
    (c.filter path lookup).Mixes ↔ c.Mixes := by
  simp [Mixes, parts, Clashes]

@[simp]
theorem mixes_exclude (path : String) (lookup : Lookup) :
    (c.exclude path lookup).Mixes ↔ c.Mixes := by
  simp [Mixes, parts, Clashes]

@[simp]
theorem mixes_orderBy (specs : List String) : (c.orderBy specs).Mixes ↔ c.Mixes := by
  simp [Mixes, parts, Clashes]

variable {c d}

theorem mixes_of_parts {joined : Composition} (h : joined.parts = joined :: (c.parts ++ d.parts)) :
    joined.Mixes ↔ c.Mixes ∨ d.Mixes ∨ joined.Clashes := by
  unfold Mixes
  rw [h]
  simp only [List.mem_cons, List.mem_append, or_and_right, exists_or, exists_eq_left]
  rw [or_comm, or_assoc]

theorem mixes_and : (c.and d).Mixes ↔ c.Mixes ∨ d.Mixes ∨ c.leftmost ≠ d.leftmost := by
  rw [mixes_of_parts rfl, Clashes, model_toSet, model_toSet]

theorem mixes_or : (c.or d).Mixes ↔ c.Mixes ∨ d.Mixes ∨ c.leftmost ≠ d.leftmost := by
  rw [mixes_of_parts rfl, Clashes, model_toSet, model_toSet]

/-- A composition with a part that mixes models does so itself. -/
theorem Mixes.of_mem_parts {whole : Composition} (h : c.Mixes) (hc : c ∈ whole.parts) :
    whole.Mixes := by
  obtain ⟨d, hd, hclash⟩ := h
  exact ⟨d, parts_subset hc hd, hclash⟩

/-- No models are mixed on two sides or between them exactly if all sets that they start from are of
the leftmost model. -/
theorem forall_models_append (hc : ¬c.Mixes ↔ ∀ m ∈ c.models, m = c.leftmost)
    (hd : ¬d.Mixes ↔ ∀ m ∈ d.models, m = d.leftmost) :
    ¬(c.Mixes ∨ d.Mixes ∨ c.leftmost ≠ d.leftmost) ↔
      ∀ m ∈ c.models ++ d.models, m = c.leftmost := by
  rw [List.forall_mem_append, ← hc, not_or, not_or, not_not, hd]
  refine and_congr_right fun _ => ?_
  constructor
  · rintro ⟨hmodels, hsame⟩
    rwa [hsame]
  · intro hmodels
    have hsame := hmodels d.leftmost d.leftmost_mem_models
    rw [hsame]
    exact ⟨hmodels, rfl⟩

theorem not_mixes_iff : ¬c.Mixes ↔ ∀ m ∈ c.models, m = c.leftmost := by
  induction c with
  | all model => simp [models, leftmost]
  | filter c path lookup ih => rw [mixes_filter, ih, models, leftmost]
  | exclude c path lookup ih => rw [mixes_exclude, ih, models, leftmost]
  | orderBy c specs ih => rw [mixes_orderBy, ih, models, leftmost]
  | and c d ihc ihd => rw [mixes_and, models, leftmost, forall_models_append ihc ihd]
  | or c d ihc ihd => rw [mixes_or, models, leftmost, forall_models_append ihc ihd]

/-- **A composition mixes models exactly if it starts from sets of different models.** -/
theorem mixes_iff : c.Mixes ↔ ∃ m ∈ c.models, ∃ n ∈ c.models, m ≠ n := by
  constructor
  · intro h
    by_contra hsame
    push Not at hsame
    exact not_mixes_iff.mpr (fun m hm => hsame m hm _ c.leftmost_mem_models) h
  · rintro ⟨m, hm, n, hn, hne⟩
    by_contra h
    rw [not_mixes_iff] at h
    exact hne ((h m hm).trans (h n hn).symm)

/-- **A set has met another model exactly if models are mixed in its composition.** -/
theorem isSome_foreign_iff : c.toSet.foreign.isSome = true ↔ c.Mixes := by
  induction c with
  | all model => simp [toSet, RecordSet.of]
  | filter c path lookup ih => rwa [mixes_filter]
  | exclude c path lookup ih => rwa [mixes_exclude]
  | orderBy c specs ih => rwa [mixes_orderBy]
  | and c d ihc ihd =>
    rw [mixes_and, toSet, RecordSet.foreign_and, RecordSet.isSome_foreignOf, ihc, ihd, model_toSet,
      model_toSet]
  | or c d ihc ihd =>
    rw [mixes_or, toSet, RecordSet.foreign_or, RecordSet.isSome_foreignOf, ihc, ihd, model_toSet,
      model_toSet]

end Mixes

end Composition

/-! ## What validation reports -/

section Validate

variable {s : Schema} {model : String}

theorem field_of_checkPath {path : String} {purpose : Purpose} {e : Error}
    (hmodel : s.contains model = true) (h : s.checkPath model path purpose = .error e) :
    ∃ f, e = .field f := by
  unfold Schema.checkPath at h
  split at h
  · nomatch h
  · obtain ⟨fault, -, he⟩ := (Schema.resolve_eq_error_iff hmodel).mp (error_of_map h)
    exact ⟨_, he⟩

theorem Lookup.IsFlat.validate {lookup : Lookup} (h : lookup.IsFlat) :
    lookup.validate s = .ok () := by
  refine validate_lookup ?_
  rintro set field rfl
  exact h

/-- A predicate without subqueries fails for its fields only. -/
theorem Predicate.IsFlat.field_of_validate (hmodel : s.contains model = true) :
    ∀ {p : Predicate}, p.IsFlat → ∀ {e : Error}, p.validate s model = .error e → ∃ f, e = .field f
  | .field path lookup, hp, e, h => by
    rw [Predicate.validate, Lookup.IsFlat.validate hp] at h
    rcases error_of_bind h with h | ⟨_, -, h⟩
    · exact field_of_checkPath hmodel h
    · nomatch h
  | .and p q, hp, e, h | .or p q, hp, e, h => by
    rw [Predicate.validate] at h
    rcases error_of_bind h with h | ⟨_, -, h⟩
    · exact field_of_validate hmodel hp.1 h
    · exact field_of_validate hmodel hp.2 h
  | .not p, hp, e, h => by
    rw [Predicate.validate] at h
    exact field_of_validate hmodel (p := p) hp h

variable {set : RecordSet}

/-- A set that has met another model is refused for that, whatever its fields are. -/
theorem validate_of_foreign (hmodel : s.contains set.model = true) {other : String}
    (h : set.foreign = some other) :
    set.validate s = .error (.invalidValue (.mixedModels set.model other)) := by
  obtain ⟨model, predicate, ordering, foreign⟩ := set
  cases h
  rw [RecordSet.validate, show s.contains model = true from hmodel]
  rfl

/-- And one that has not is refused for a field only, if it has no subqueries. -/
theorem RecordSet.IsFlat.field_of_validate (hflat : set.IsFlat)
    (hmodel : s.contains set.model = true) (hforeign : set.foreign = none) {e : Error}
    (h : set.validate s = .error e) : ∃ f, e = .field f := by
  obtain ⟨model, predicate, ordering, foreign⟩ := set
  cases hforeign
  rw [RecordSet.validate, show s.contains model = true from hmodel] at h
  rcases error_of_bind h with h | ⟨_, -, h⟩
  · cases predicate with
    | none =>
      rw [validateCondition] at h
      cases h
    | some p =>
      rw [validateCondition] at h
      exact (hflat p rfl).field_of_validate hmodel h
  · obtain ⟨key, -, h⟩ := error_of_forM h
    exact field_of_checkPath hmodel h

end Validate

namespace Composition

/-- A set that is composed without subqueries has none. -/
theorem IsFlat.toSet {c : Composition} (h : c.IsFlat) : c.toSet.IsFlat := by
  induction c with
  | all model => exact fun p hp => nomatch hp
  | filter c path lookup ih => exact (ih h.1).restrict h.2
  | exclude c path lookup ih => exact (ih h.1).restrict h.2
  | and c d ihc ihd => exact (ihc h.1).and (ihd h.2)
  | or c d ihc ihd => exact (ihc h.1).or (ihd h.2)
  | orderBy c specs ih => exact ih h

/-- **Which compositions are refused for their models.** Over any schema, a composition without
subqueries, whose leftmost set is of a declared model, is refused as an invalid value exactly if
sets of different models are combined somewhere in it, which is to say that it starts from sets of
different models. Wrong fields change nothing about this. And whatever a composition that mixes
models becomes part of, with subqueries or without, is refused in this way too. -/
theorem refused_iff_mixes (s : Schema) {c : Composition} (hmodel : s.contains c.leftmost = true)
    (hflat : c.IsFlat) :
    ((∃ fault, c.toSet.validate s = .error (.invalidValue fault)) ↔ c.Mixes) ∧
    (c.Mixes ↔ ∃ m ∈ c.models, ∃ n ∈ c.models, m ≠ n) ∧
    (c.Mixes → ∀ whole : Composition, c ∈ whole.parts → s.contains whole.leftmost = true →
      ∃ other, whole.toSet.validate s =
        .error (.invalidValue (.mixedModels whole.leftmost other))) := by
  have hrefused : ∀ whole : Composition, s.contains whole.leftmost = true → whole.Mixes →
      ∃ other, whole.toSet.validate s =
        .error (.invalidValue (.mixedModels whole.leftmost other)) := by
    intro whole hwhole hmixes
    obtain ⟨other, hother⟩ := Option.isSome_iff_exists.mp (isSome_foreign_iff.mpr hmixes)
    rw [← model_toSet] at hwhole ⊢
    exact ⟨other, validate_of_foreign hwhole hother⟩
  refine ⟨?_, mixes_iff, ?_⟩
  · constructor
    · rintro ⟨fault, h⟩
      by_contra hpure
      rw [← isSome_foreign_iff, Option.not_isSome_iff_eq_none] at hpure
      obtain ⟨f, hf⟩ := hflat.toSet.field_of_validate (by rwa [model_toSet]) hpure h
      cases hf
    · intro hmixes
      obtain ⟨other, h⟩ := hrefused c hmodel hmixes
      exact ⟨_, h⟩
  · intro hmixes whole hpart hwhole
    exact hrefused whole hwhole (hmixes.of_mem_parts hpart)

/-- Books have no field of this name. -/
def untitled : Composition := filter (all "Book") "title" (.isNull true)

/-- No side has a predicate here, and so the union has none either. -/
def booksAndAnthologies : Composition := or (all "Book") (all "Anthology")

def mixedBooks : Composition :=
  or untitled (and (exclude (all "Book") "authors" (.isNull true)) booksAndAnthologies)

/-- Anthologies are books, but not of the same model. The wrong field of the first set does not come
before that, and alone it is no such fault. -/
theorem refused_iff_mixes_catalogue :
    (catalogueSchema.contains "Book" = true ∧ untitled.IsFlat ∧ booksAndAnthologies.IsFlat ∧
      mixedBooks.IsFlat ∧ mixedBooks.models = ["Book", "Book", "Book", "Anthology"] ∧
      booksAndAnthologies ∈ mixedBooks.parts ∧ untitled ∈ mixedBooks.parts) ∧
    (∃ fault, mixedBooks.toSet.validate catalogueSchema = .error (.invalidValue fault)) ∧
    (∃ other, mixedBooks.toSet.validate catalogueSchema =
      .error (.invalidValue (.mixedModels "Book" other))) ∧
    ¬untitled.Mixes ∧
    ¬∃ fault, untitled.toSet.validate catalogueSchema = .error (.invalidValue fault) := by
  have hmodel : catalogueSchema.contains "Book" = true := by decide
  have huntitled : untitled.IsFlat := ⟨trivial, trivial⟩
  have hpair : booksAndAnthologies.IsFlat := ⟨trivial, trivial⟩
  have hmixed : mixedBooks.IsFlat := ⟨huntitled, ⟨trivial, trivial⟩, hpair⟩
  have hpart : booksAndAnthologies ∈ mixedBooks.parts := by
    simp [mixedBooks, booksAndAnthologies, parts]
  have hfirst : untitled ∈ mixedBooks.parts := by simp [mixedBooks, untitled, parts]
  obtain ⟨hwhole, hmodels, -⟩ := refused_iff_mixes catalogueSchema (c := mixedBooks) hmodel hmixed
  obtain ⟨-, hpairModels, hspreads⟩ :=
    refused_iff_mixes catalogueSchema (c := booksAndAnthologies) hmodel hpair
  obtain ⟨honly, honlyModels, -⟩ :=
    refused_iff_mixes catalogueSchema (c := untitled) hmodel huntitled
  have hpure : ¬untitled.Mixes := by
    rw [honlyModels]
    decide
  refine ⟨⟨hmodel, huntitled, hpair, hmixed, rfl, hpart, hfirst⟩, ?_, ?_, hpure, ?_⟩
  · exact hwhole.mpr (hmodels.mpr (by decide))
  · exact hspreads (hpairModels.mpr (by decide)) mixedBooks hpart hmodel
  · rwa [honly]

end Composition

end Concordance
