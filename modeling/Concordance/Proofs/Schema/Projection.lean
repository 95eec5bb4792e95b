import Concordance.Proofs.Schema.Inheritance
import Concordance.Proofs.SortedMap
import Concordance.Store

/-!
# Records seen as a model

Seen as a model, a record keeps what it has under the names of the model's effective fields.
`Schema.SeenAs` says so without a word on how this is computed. Projecting comes to it on the
general path, which filters by the schema; a record of the model itself is returned as it stands,
and so with all that it has under names that the model has no field for.

* `seenAs_restrict`, `SeenAs.unique`: the general path gives the one record that is seen.
* `seenAs_self_iff`: a record is what is seen of itself if it has nothing under other names.
* **`Built.project_project`**: projecting to a type and then to one above it is projecting to that.
* **`projects_project`**: what projecting gives, and exactly when the general path gives the same.
* `project_keeps_undeclared`: a stored record for which it does not.
-/

namespace Concordance

/-- The record has a value or a relation under the name. -/
def Record.Carries (r : Record) (name : String) : Prop :=
  (∃ v, r.values.get? name = some v) ∨ ∃ keys, r.relations.get? name = some keys

namespace Schema

variable {s : Schema} {model : String} {r seen other : Record}

/-- What is seen of a record as a model. -/
structure SeenAs (s : Schema) (r : Record) (model : String) (seen : Record) : Prop where
  label : seen.model = model
  pk : seen.pk = r.pk
  /-- The values of the record under the names of the model's fields, and no others. -/
  values : ∀ name v,
    seen.values.get? name = some v ↔ r.values.get? name = some v ∧ s.Visible model name
  /-- The relations of the record under the names of the model's fields, and no others. -/
  relations : ∀ name keys,
    seen.relations.get? name = some keys ↔ r.relations.get? name = some keys ∧ s.Visible model name

theorem SeenAs.get?_of_visible (h : s.SeenAs r model seen) {name : String}
    (hname : s.Visible model name) :
    seen.values.get? name = r.values.get? name ∧
      seen.relations.get? name = r.relations.get? name := by
  constructor
  · ext v
    rw [h.values]
    exact and_iff_left hname
  · ext keys
    rw [h.relations]
    exact and_iff_left hname

theorem SeenAs.visible_of_carries (h : s.SeenAs r model seen) {name : String}
    (hname : seen.Carries name) : s.Visible model name := by
  rcases hname with ⟨v, hv⟩ | ⟨keys, hkeys⟩
  · exact ((h.values name v).mp hv).2
  · exact ((h.relations name keys).mp hkeys).2

theorem SeenAs.unique (h : s.SeenAs r model seen) (h' : s.SeenAs r model other) : seen = other := by
  have hvalues : seen.values = other.values := SortedMap.ext_get? fun name => by
    ext v
    rw [h.values, h'.values]
  have hrelations : seen.relations = other.relations := SortedMap.ext_get? fun name => by
    ext keys
    rw [h.relations, h'.relations]
  cases seen
  cases other
  rw [Record.mk.injEq]
  exact ⟨h.label.trans h'.label.symm, h.pk.trans h'.pk.symm, hvalues, hrelations⟩

theorem SeenAs.eq_iff (h : s.SeenAs r model seen) : other = seen ↔ s.SeenAs r model other :=
  ⟨fun heq => heq ▸ h, fun h' => h'.unique h⟩

/-- **The general path gives what is seen of a record.** -/
theorem seenAs_restrict (s : Schema) (r : Record) (model : String) :
    s.SeenAs r model (r.restrict model fun name => (s.field? model name).isSome) where
  label := rfl
  pk := rfl
  values name v := by
    unfold Record.restrict
    rw [SortedMap.get?_filter, Option.filter_eq_some_iff, isSome_field?_iff]
  relations name keys := by
    unfold Record.restrict
    rw [SortedMap.get?_filter, Option.filter_eq_some_iff, isSome_field?_iff]

/-- A record is what is seen of itself if it has nothing but its model's fields. -/
theorem seenAs_self_iff :
    s.SeenAs r r.model r ↔ ∀ name, r.Carries name → s.Visible r.model name := by
  constructor
  · exact fun h _ => h.visible_of_carries
  · intro h
    exact ⟨rfl, rfl, fun name v => (and_iff_left_of_imp fun hv => h name (.inl ⟨v, hv⟩)).symm,
      fun name keys => (and_iff_left_of_imp fun hkeys => h name (.inr ⟨keys, hkeys⟩)).symm⟩

theorem project_self (s : Schema) (r : Record) : s.project r r.model = r := if_pos rfl

/-- A record of another model is projected on the general path. -/
theorem project_of_ne (s : Schema) (h : r.model ≠ model) :
    s.project r model = r.restrict model fun name => (s.field? model name).isSome := if_neg h

theorem model_project (s : Schema) (r : Record) (model : String) :
    (s.project r model).model = model := by
  by_cases hmodel : r.model = model
  · subst hmodel
    rw [project_self]
  · rw [project_of_ne s hmodel]
    rfl

/-- Projecting again changes nothing. -/
theorem project_again (s : Schema) (r : Record) (model : String) :
    s.project (s.project r model) model = s.project r model := by
  have hagain := project_self s (s.project r model)
  rwa [model_project] at hagain

/-- What is seen of a record as a model, seen as one with fewer fields, is what is seen of the
record as that. -/
theorem SeenAs.trans {top : String} (h : s.SeenAs r model seen) (h' : s.SeenAs seen top other)
    (hfields : ∀ name, s.Visible top name → s.Visible model name) : s.SeenAs r top other where
  label := h'.label
  pk := h'.pk.trans h.pk
  values name v := by
    rw [h'.values, h.values, and_assoc]
    exact and_congr_right fun _ => and_iff_right_of_imp (hfields name)
  relations name keys := by
    rw [h'.relations, h.relations, and_assoc]
    exact and_congr_right fun _ => and_iff_right_of_imp (hfields name)

/-- **A record seen as a type, and then as one above, is the record seen as that.** A record of the
type in between takes along what it has under other names, and loses it at the end as it would have
at once. -/
theorem Built.project_project {models : List Model} (h : Built models s) {mid top : String}
    (hmid : s.isSubtype r.model mid = true) (htop : s.isSubtype mid top = true) :
    s.project (s.project r mid) top = s.project r top := by
  by_cases hstart : r.model = mid
  · subst hstart
    rw [project_self]
  by_cases hend : mid = top
  · subst hend
    exact project_again s r mid
  -- the types below a type never come back to it, so that all three projections filter
  have hwhole : r.model ≠ top := by
    rintro rfl
    exact hstart (h.isSubtype_antisymm hmid htop)
  have hrest : (s.project r mid).model ≠ top := by
    rwa [model_project]
  have hseen : s.SeenAs r mid (s.project r mid) := by
    rw [project_of_ne s hstart]
    exact seenAs_restrict s r mid
  rw [project_of_ne s hrest, project_of_ne s hwhole]
  refine SeenAs.unique (hseen.trans (seenAs_restrict s _ top) fun name => ?_)
    (seenAs_restrict s r top)
  exact h.visible_of_isSubtype htop

/-- What projecting a record gives. -/
structure Projects (s : Schema) (r : Record) (model : String) (seen : Record) : Prop where
  label : seen.model = model
  pk : seen.pk = r.pk
  /-- What the record has under the names of the model's fields stays as it is. -/
  kept : ∀ name, s.Visible model name →
    seen.values.get? name = r.values.get? name ∧ seen.relations.get? name = r.relations.get? name
  /-- What it has under other names stays only in a record that is of the model already. -/
  hidden : ∀ name, ¬ s.Visible model name → (seen.Carries name ↔ r.model = model ∧ r.Carries name)
  /-- It is what is seen of the record unless that is of the model and has something to hide. -/
  seen_iff : s.SeenAs r model seen ↔
    (r.model = model → ∀ name, r.Carries name → s.Visible model name)
  /-- The general path gives the same in exactly these cases. -/
  general_iff : (seen = r.restrict model fun name => (s.field? model name).isSome) ↔
    (r.model = model → ∀ name, r.Carries name → s.Visible model name)

/-- **What projecting a record gives.** It has the label of the model and the key of the record, and
what the record has under the names of the model's effective fields, unchanged. It has nothing else
if the record is of another model; one of the model itself is returned as it stands, and so with
whatever it has under other names. The general path gives the same exactly if there is no such
name. -/
theorem projects_project (s : Schema) (r : Record) (model : String) :
    s.Projects r model (s.project r model) := by
  have hgeneral := seenAs_restrict s r model
  by_cases hmodel : r.model = model
  · subst hmodel
    rw [project_self]
    have hseen : s.SeenAs r r.model r ↔
        (r.model = r.model → ∀ name, r.Carries name → s.Visible r.model name) :=
      seenAs_self_iff.trans ⟨fun h _ => h, fun h => h rfl⟩
    exact ⟨rfl, rfl, fun _ _ => ⟨rfl, rfl⟩, fun _ _ => (and_iff_right rfl).symm, hseen,
      hgeneral.eq_iff.trans hseen⟩
  · rw [project_of_ne s hmodel]
    have hother : r.model = model → ∀ name, r.Carries name → s.Visible model name :=
      fun h => absurd h hmodel
    exact ⟨hgeneral.label, hgeneral.pk, fun _ hname => hgeneral.get?_of_visible hname,
      fun _ hname => iff_of_false (fun h => hname (hgeneral.visible_of_carries h))
        fun h => hmodel h.1,
      iff_of_true hgeneral hother, iff_of_true rfl hother⟩

/-- An author with a year of birth; authors have no such field. -/
def bornAuthor : Record :=
  ⟨"Author", 1, .ofList [("born", .int 1914), ("name", .text "Tove")], ∅⟩

/-- The author is stored as it stands, and projecting it leaves the year in. -/
theorem project_keeps_undeclared :
    ofModels sagaModels = .ok sagaSchema ∧ sagaSchema.contains "Author" = true ∧
    (∃ st, (Store.empty sagaSchema).insert bornAuthor = .ok st ∧
      st.get "Author" 1 = .ok (some bornAuthor)) ∧
    (sagaSchema.project bornAuthor "Author").value? "born" = some (.int 1914) ∧
    ¬ sagaSchema.Visible "Author" "born" ∧
    ¬ sagaSchema.SeenAs bornAuthor "Author" (sagaSchema.project bornAuthor "Author") := by
  have hborn : (sagaSchema.project bornAuthor "Author").value? "born" = some (.int 1914) := by
    decide +kernel
  have hhidden : ¬ sagaSchema.Visible "Author" "born" := by
    rw [← isSome_field?_iff]
    decide +kernel
  refine ⟨ofModels_sagaModels, by decide +kernel, ⟨_, rfl, by decide +kernel⟩, hborn, hhidden,
    fun h => hhidden ?_⟩
  exact h.visible_of_carries (.inl ⟨_, hborn⟩)

end Schema

end Concordance
