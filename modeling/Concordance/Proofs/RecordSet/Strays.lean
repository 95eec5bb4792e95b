import Concordance.Proofs.RecordSet.Composition

/-!
# Fields that do not resolve

A predicate may ask for a field that its model does not have, or that is not there for filters; the
field strays. Nothing is checked when sets are combined, and validation sees no more than the
predicate that came out. A conjunction keeps what both sides ask for, and a disjunction too if both
ask for anything. But next to an unfiltered side nothing is asked for any more, and with the
predicate of the other side its strays are gone.

* `RecordSet.strays_and`, `RecordSet.strays_or`: what combinations keep.
* `not_strays_of_validate` and its companions: no valid set strays, by induction on the syntax.
* **`refused_unless_unfiltered`**: a stray of either side is refused in a conjunction and in a
  disjunction of filtered sets; one beside an unfiltered set makes no difference.
* `valid_despite_stray`: such a disjunction is valid.
-/

namespace Concordance

/-- The path does not resolve for filtering. -/
def Schema.Stray (s : Schema) (model path : String) : Prop :=
  path ≠ keyField ∧ ∀ resolved, s.resolve model path .filter ≠ .ok resolved

mutual

/-- The predicate of the set has a path that does not resolve, or a subquery in it has one. -/
def RecordSet.Strays (s : Schema) : RecordSet → Prop
  | ⟨model, predicate, _, _⟩ => conditionStrays s model predicate

/-- The condition of a set of records of a model has such a path. -/
def conditionStrays (s : Schema) (model : String) : Option Predicate → Prop
  | none => False
  | some p => p.Strays s model

/-- The predicate on records of a model has such a path. -/
def Predicate.Strays (s : Schema) (model : String) : Predicate → Prop
  | .field path lookup => s.Stray model path ∨ lookup.Strays s
  | .and p q | .or p q => p.Strays s model ∨ q.Strays s model
  | .not p => p.Strays s model

/-- The subquery of the lookup has such a path, or its values are read from one. -/
def Lookup.Strays (s : Schema) : Lookup → Prop
  | .within set field => set.Strays s ∨ s.Stray set.model field
  | .compare _ _ | .oneOf _ | .isNull _ | .startsWith _ => False

end

variable {s : Schema}

/-! ## What combinations keep -/

namespace RecordSet

variable {a b : RecordSet}

theorem strays_iff : a.Strays s ↔ conditionStrays s a.model a.predicate := by
  obtain ⟨model, predicate, ordering, foreign⟩ := a
  rw [RecordSet.Strays]

/-- A conjunction keeps the strays of both sides. -/
theorem strays_and (h : b.model = a.model) : (a.and b).Strays s ↔ a.Strays s ∨ b.Strays s := by
  obtain ⟨model, predicate, ordering, foreign⟩ := a
  obtain ⟨_, predicate', ordering', foreign'⟩ := b
  cases h
  cases predicate <;> cases predicate' <;>
    simp [RecordSet.and, restrict, strays_iff, conditionStrays, Predicate.Strays]

/-- A disjunction keeps them if both sides are filtered. -/
theorem strays_or (h : b.model = a.model) : (a.or b).Strays s ↔
    (a.predicate.isSome = true ∧ b.predicate.isSome = true) ∧ (a.Strays s ∨ b.Strays s) := by
  obtain ⟨model, predicate, ordering, foreign⟩ := a
  obtain ⟨_, predicate', ordering', foreign'⟩ := b
  cases h
  cases predicate <;> cases predicate' <;>
    simp [RecordSet.or, strays_iff, conditionStrays, Predicate.Strays]

/-- Beside an unfiltered set, a disjunction is unfiltered. -/
theorem or_of_unfiltered (h : a.predicate = none ∨ b.predicate = none) :
    a.or b = ⟨a.model, none, a.ordering, a.foreignOf b⟩ := by
  obtain ⟨model, predicate, ordering, foreign⟩ := a
  obtain ⟨model', predicate', ordering', foreign'⟩ := b
  rcases h with rfl | rfl
  · rfl
  · cases predicate <;> rfl

/-- A combination of sets of one model has met no other exactly if neither side has. -/
theorem foreignOf_eq_none_iff (h : b.model = a.model) :
    a.foreignOf b = none ↔ a.foreign = none ∧ b.foreign = none := by
  rw [← Option.not_isSome_iff_eq_none, isSome_foreignOf]
  simp [h]

end RecordSet

/-! ## What validation refuses -/

theorem Schema.Stray.checkPath_ne {model path : String} (h : s.Stray model path) :
    s.checkPath model path .filter ≠ .ok () := by
  intro hcheck
  rw [Schema.checkPath, if_neg h.1] at hcheck
  obtain ⟨resolved, hresolved, -⟩ := ok_of_map hcheck
  exact h.2 resolved hresolved

mutual

/-- No valid set strays. -/
theorem not_strays_of_validate : ∀ set : RecordSet, set.validate s = .ok () → ¬set.Strays s
  | ⟨model, none, ordering, foreign⟩, _ => by
    rw [RecordSet.Strays, conditionStrays]
    exact not_false
  | ⟨model, some p, ordering, foreign⟩, h => by
    obtain ⟨-, -, hp, -⟩ := validate_iff.mp h
    rw [validateCondition] at hp
    rw [RecordSet.Strays, conditionStrays]
    exact not_strays_of_validate_predicate model p hp

theorem not_strays_of_validate_predicate (model : String) :
    ∀ p : Predicate, p.validate s model = .ok () → ¬p.Strays s model
  | .field path lookup, h => by
    rw [Predicate.validate] at h
    obtain ⟨_, hpath, hlookup⟩ := ok_of_bind h
    rw [Predicate.Strays]
    rintro (hstray | hstray)
    · exact hstray.checkPath_ne hpath
    · exact not_strays_of_validate_lookup lookup hlookup hstray
  | .and p q, h | .or p q, h => by
    rw [Predicate.validate] at h
    obtain ⟨_, hp, hq⟩ := ok_of_bind h
    rw [Predicate.Strays]
    rintro (hstray | hstray)
    · exact not_strays_of_validate_predicate model p hp hstray
    · exact not_strays_of_validate_predicate model q hq hstray
  | .not p, h => by
    rw [Predicate.validate] at h
    rw [Predicate.Strays]
    exact not_strays_of_validate_predicate model p h

theorem not_strays_of_validate_lookup :
    ∀ lookup : Lookup, lookup.validate s = .ok () → ¬lookup.Strays s
  | .within set field, h => by
    rw [Lookup.validate] at h
    obtain ⟨_, hset, hfield⟩ := ok_of_bind h
    rw [Lookup.Strays]
    rintro (hstray | hstray)
    · exact not_strays_of_validate set hset hstray
    · exact hstray.checkPath_ne hfield
  | .compare _ _, _ | .oneOf _, _ | .isNull _, _ | .startsWith _, _ => by
    rw [Lookup.Strays]
    exact not_false

end

theorem RecordSet.Strays.refused {set : RecordSet} (h : set.Strays s) :
    ∃ e, set.validate s = .error e := by
  cases hvalidate : set.validate s with
  | error e => exact ⟨e, rfl⟩
  | ok _ => exact absurd h (not_strays_of_validate set hvalidate)

/-- **When a stray is refused.** Let the predicate of one of two sets of one model, or a subquery in
it, have a path that does not resolve for filtering. Then the conjunction of the sets is refused,
and so is their disjunction if both are filtered. If one is not, then neither is the disjunction,
and all that is still checked is its model, what either side was combined with before, and the
ordering of the first. -/
theorem refused_unless_unfiltered (s : Schema) {a b : RecordSet} (hmodel : b.model = a.model)
    (hstrays : a.Strays s ∨ b.Strays s) :
    (∃ e, (a.and b).validate s = .error e) ∧
    (a.predicate.isSome = true ∧ b.predicate.isSome = true →
      ∃ e, (a.or b).validate s = .error e) ∧
    (a.predicate = none ∨ b.predicate = none → (a.or b).predicate = none ∧
      ((a.or b).validate s = .ok () ↔ s.contains a.model = true ∧
        (a.foreign = none ∧ b.foreign = none) ∧
        ∀ key ∈ a.ordering, s.checkPath a.model key.field .order = .ok ())) := by
  refine ⟨?_, ?_, ?_⟩
  · exact RecordSet.Strays.refused ((RecordSet.strays_and hmodel).mpr hstrays)
  · intro hfiltered
    exact RecordSet.Strays.refused ((RecordSet.strays_or hmodel).mpr ⟨hfiltered, hstrays⟩)
  · intro hunfiltered
    have hor := RecordSet.or_of_unfiltered hunfiltered
    have hnothing : validateCondition s a.model none = .ok () := by rw [validateCondition]
    refine ⟨congrArg RecordSet.predicate hor, ?_⟩
    rw [hor, validate_iff, RecordSet.foreignOf_eq_none_iff hmodel]
    simp [hnothing]

/-- Authors have no such field, and neither have books. -/
def bornAuthors : RecordSet := (RecordSet.of "Author").filter "born" (.isNull false)

/-- The path itself resolves, and the subquery does not. -/
def booksByBornAuthors : RecordSet :=
  (RecordSet.of "Book").filter "authors" (.within bornAuthors "pk")

def anonymousBooks : RecordSet := (RecordSet.of "Book").filter "authors" (.isNull true)

theorem stray_born : catalogueSchema.Stray "Author" "born" := by
  have hfault : catalogueSchema.resolve "Author" "born" .filter =
      .error (.field ⟨"born", "Author", .filter, .unknown⟩) := by with_unfolding_all rfl
  refine ⟨by decide, fun resolved h => ?_⟩
  rw [hfault] at h
  nomatch h

theorem strays_booksByBornAuthors : booksByBornAuthors.Strays catalogueSchema := by
  have hborn : bornAuthors.Strays catalogueSchema := by
    show RecordSet.Strays catalogueSchema ⟨_, some (.field _ _), _, _⟩
    rw [RecordSet.Strays, conditionStrays, Predicate.Strays]
    exact Or.inl stray_born
  show RecordSet.Strays catalogueSchema ⟨_, some (.field _ (.within _ _)), _, _⟩
  rw [RecordSet.Strays, conditionStrays, Predicate.Strays, Lookup.Strays]
  exact Or.inr (Or.inl hborn)

/-- The stray of the second set is in a subquery. -/
theorem refused_unless_unfiltered_catalogue :
    (booksByBornAuthors.model = "Book" ∧ booksByBornAuthors.Strays catalogueSchema ∧
      anonymousBooks.predicate.isSome = true ∧ booksByBornAuthors.predicate.isSome = true) ∧
    (∃ e, (anonymousBooks.and booksByBornAuthors).validate catalogueSchema = .error e) ∧
    (∃ e, (anonymousBooks.or booksByBornAuthors).validate catalogueSchema = .error e) ∧
    (∃ e, ((RecordSet.of "Book").and booksByBornAuthors).validate catalogueSchema = .error e) ∧
    ((RecordSet.of "Book").or booksByBornAuthors).validate catalogueSchema = .ok () := by
  have hstrays := strays_booksByBornAuthors
  obtain ⟨hand, hor, -⟩ := refused_unless_unfiltered catalogueSchema
    (a := anonymousBooks) (b := booksByBornAuthors) rfl (Or.inr hstrays)
  obtain ⟨hnarrowed, -, hwidened⟩ := refused_unless_unfiltered catalogueSchema
    (a := RecordSet.of "Book") (b := booksByBornAuthors) rfl (Or.inr hstrays)
  obtain ⟨-, hvalid⟩ := hwidened (Or.inl rfl)
  refine ⟨⟨rfl, hstrays, rfl, rfl⟩, hand, hor ⟨rfl, rfl⟩, hnarrowed, hvalid.mpr ?_⟩
  exact ⟨by decide, ⟨rfl, rfl⟩, fun _ hkey => absurd hkey List.not_mem_nil⟩

/-- A set that strays, and is refused for it alone, is valid beside an unfiltered one. -/
theorem valid_despite_stray :
    catalogueSchema.contains booksByBornAuthors.model = true ∧
    (RecordSet.of "Book").model = booksByBornAuthors.model ∧
    booksByBornAuthors.Strays catalogueSchema ∧
    booksByBornAuthors.validate catalogueSchema =
      .error (.field ⟨"born", "Author", .filter, .unknown⟩) ∧
    (booksByBornAuthors.or (RecordSet.of "Book")).validate catalogueSchema = .ok () := by
  refine ⟨by decide, rfl, strays_booksByBornAuthors, ?_, ?_⟩
  · with_unfolding_all rfl
  · with_unfolding_all rfl

end Concordance
