import Concordance.Proofs.Schema.WellDeclared

/-!
# Inherited fields

The table of a type is made by declaring, one after the other, the fields of all models on the way
down from its topmost ancestor. `Extension` says what comes of that for one step of the way: the
inherited names keep their places, new ones follow as they are first declared, and a name stands
for its last declaration.

* `extension_foldl`: declaring fields on top of others gives an extension of these.
* `Built.extension_of_parent`, `Built.extension_of_root`: the table of a type extends its parent's.
* `Built.names_prefix`, `Built.visible_of_isSubtype`: the names of an ancestor come first among
  those of a type, at any distance, and so what is visible above is visible below.
* `Built.fields_perm`: the order of the declarations does not matter.
* **`passesFieldsDown_of_ofModels`**: all of it for any schema that was built.
-/

namespace Concordance.Schema

variable {models : List Model} {s : Schema}

/-! ## Declaring fields on top of others -/

/-- The last of some declarations of a name. -/
def lastDeclared? (own : List Field) (name : String) : Option Field :=
  own.reverse.find? fun f => f.name == name

/-- The fields of a type that declares `own` on top of what it inherits. -/
structure Extension (inherited own fields : List Field) : Prop where
  /-- No name occurs twice. -/
  nodup : (fields.map Field.name).Nodup
  /-- The inherited names come first, and then the new ones as they are first declared. -/
  names : fields.map Field.name = inherited.map Field.name ++
    ((own.map Field.name).filter fun name => name ∉ inherited.map Field.name).eraseDups
  /-- A name stands for its last declaration, or else for what is inherited. -/
  stands : ∀ f ∈ fields, some f =
    (lastDeclared? own f.name).or (inherited.find? fun g => g.name == f.name)

theorem lastDeclared?_append (own : List Field) (f : Field) (name : String) :
    lastDeclared? (own ++ [f]) name = if name = f.name then some f else lastDeclared? own name := by
  unfold lastDeclared?
  rw [List.reverse_append, List.reverse_singleton, List.singleton_append, List.find?_cons]
  by_cases hname : name = f.name
  · rw [if_pos hname, hname, beq_self_eq_true]
  · rw [if_neg hname, beq_eq_false_iff_ne.mpr (Ne.symm hname)]

theorem find?_declareField (fields : List Field) (f : Field) (name : String) :
    (declareField fields f).find? (fun g => g.name == name) =
      if name = f.name then some f else fields.find? fun g => g.name == name := by
  unfold declareField
  split
  · rename_i hdeclared
    -- a field keeps its name when another takes its place
    have hcomp : ((fun g : Field => g.name == name) ∘ fun g => if g.name == f.name then f else g) =
        fun g => g.name == name := by
      funext g
      by_cases hg : g.name = f.name <;> simp [hg]
    rw [List.find?_map, hcomp]
    by_cases hname : name = f.name
    · subst hname
      obtain ⟨g, hg⟩ := Option.isSome_iff_exists.mp
        (List.find?_isSome.mpr (List.any_eq_true.mp hdeclared))
      have hgname : g.name = f.name := by simpa using List.find?_some hg
      rw [if_pos rfl, hg, Option.map_some, if_pos (beq_iff_eq.mpr hgname)]
    · rw [if_neg hname]
      cases hk : fields.find? fun g => g.name == name with
      | none => rfl
      | some k =>
        have hkname : k.name = name := by simpa using List.find?_some hk
        have hother : ¬ (k.name == f.name) = true := by simpa [hkname] using hname
        rw [Option.map_some, if_neg hother]
  · rename_i hnew
    rw [List.find?_append]
    by_cases hname : name = f.name
    · have hnone : (fields.find? fun g => g.name == name) = none := by
        rw [List.find?_eq_none]
        intro g hg hgname
        exact hnew (List.any_eq_true.mpr ⟨g, hg, hname ▸ hgname⟩)
      rw [hnone, if_pos hname]
      simp [hname]
    · have hnone : ([f].find? fun g => g.name == name) = none := by simp [Ne.symm hname]
      rw [hnone, if_neg hname, Option.or_none]

theorem find?_foldl_declareField (inherited own : List Field) (name : String) :
    (own.foldl declareField inherited).find? (fun g => g.name == name) =
      (lastDeclared? own name).or (inherited.find? fun g => g.name == name) := by
  induction own using List.reverseRecOn with
  | nil => rfl
  | append_singleton own f ih =>
    rw [List.foldl_append, List.foldl_cons, List.foldl_nil, find?_declareField,
      lastDeclared?_append, ih]
    split <;> rfl

/-- A repeated name leaves the list of first occurrences as it is. -/
theorem eraseDups_append_singleton (names : List String) (name : String) :
    (names ++ [name]).eraseDups =
      if name ∈ names then names.eraseDups else names.eraseDups ++ [name] := by
  rw [List.eraseDups_append]
  by_cases hname : name ∈ names
  · simp [List.removeAll, hname]
  · simp [List.removeAll, hname, List.eraseDups_cons]

theorem names_foldl_declareField (inherited own : List Field) :
    (own.foldl declareField inherited).map Field.name = inherited.map Field.name ++
      ((own.map Field.name).filter fun name => name ∉ inherited.map Field.name).eraseDups := by
  induction own using List.reverseRecOn with
  | nil => simp
  | append_singleton own f ih =>
    rw [List.foldl_append, List.foldl_cons, List.foldl_nil, names_declareField, ih, List.map_append,
      List.filter_append, List.map_singleton]
    by_cases hold : f.name ∈ inherited.map Field.name
    · have hnone : [f.name].filter (fun name => name ∉ inherited.map Field.name) = [] := by
        simpa using hold
      rw [if_pos (List.mem_append_left _ hold), hnone, List.append_nil]
    · have hone : [f.name].filter (fun name => name ∉ inherited.map Field.name) = [f.name] := by
        simpa using hold
      rw [hone, eraseDups_append_singleton]
      simp only [List.mem_append, hold, false_or, List.mem_eraseDups]
      split
      · rfl
      · exact List.append_assoc _ _ _

/-- **Declaring fields on top of others extends them.** -/
theorem extension_foldl {inherited : List Field} (h : (inherited.map Field.name).Nodup)
    (own : List Field) : Extension inherited own (own.foldl declareField inherited) where
  nodup := nodup_foldl_declareField h own
  names := names_foldl_declareField inherited own
  stands f hf := by
    rw [← find?_foldl_declareField, find?_name (nodup_foldl_declareField h own) hf]

/-! ## Down a hierarchy -/

/-- The model has an effective field of the name. -/
def Visible (s : Schema) (model name : String) : Prop := ∃ f, s.HasField model f ∧ f.name = name

theorem visible_iff {model name : String} :
    s.Visible model name ↔ ∃ e, s.entry? model = some e ∧ name ∈ e.fields.map Field.name := by
  unfold Visible
  simp only [hasField_iff, List.mem_map]
  constructor
  · rintro ⟨f, ⟨e, he, hf⟩, hname⟩
    exact ⟨e, he, f, hf, hname⟩
  · rintro ⟨e, he, f, hf, hname⟩
    exact ⟨f, ⟨e, he, hf⟩, hname⟩

theorem isSome_field?_iff {model name : String} :
    (s.field? model name).isSome = true ↔ s.Visible model name := by
  rw [Option.isSome_iff_exists, visible_iff]
  constructor
  · rintro ⟨f, hf⟩
    obtain ⟨e, he, hmem, rfl⟩ := mem_of_field? hf
    exact ⟨e, he, List.mem_map_of_mem hmem⟩
  · rintro ⟨e, he, hname⟩
    obtain ⟨f, hmem, hfname⟩ := List.mem_map.mp hname
    unfold field?
    rw [he, Option.bind_some, ← Option.isSome_iff_exists, List.find?_isSome]
    exact ⟨f, hmem, beq_iff_eq.mpr hfname⟩

/-- A longer way down declares the fields of its end on top of those of its start. -/
theorem effectiveFields_append (above below : List String) :
    effectiveFields models (above ++ below) =
      (below.flatMap fun name => ((declared? models name).map Model.fields).getD []).foldl
        declareField (effectiveFields models above) := by
  unfold effectiveFields
  rw [List.flatMap_append, List.foldl_append]

namespace Built

variable (h : Built models s)

include h

theorem fields_eq {name : String} {e : Entry} (he : s.entry? name = some e) :
    e.fields = effectiveFields models (e.ancestors.reverse ++ [name]) := by
  obtain ⟨hmem, rfl⟩ := mem_of_entry?_eq he
  exact (h.derived e hmem).fields

/-- The fields of a type are its own on top of those that the way down to it declares. -/
theorem extension_ancestors {name : String} {e : Entry} (he : s.entry? name = some e) :
    Extension (effectiveFields models e.ancestors.reverse) e.model.fields e.fields := by
  have hown : [name].flatMap (fun name => ((declared? models name).map Model.fields).getD []) =
      e.model.fields := by
    rw [List.flatMap_singleton, h.declared_of_entry? he]
    rfl
  rw [h.fields_eq he, effectiveFields_append, hown]
  exact extension_foldl (nodup_effectiveFields _) _

/-- **The fields of a type without a parent are its own.** -/
theorem extension_of_root {name : String} {e : Entry} (he : s.entry? name = some e)
    (hparent : e.model.parent = none) : Extension [] e.model.fields e.fields := by
  have hchain : e.ancestors = [] := (hparent ▸ h.lineage he).unique .root
  have hext := h.extension_ancestors he
  rw [hchain] at hext
  exact hext

/-- **The fields of a type are its own on top of its parent's.** -/
theorem extension_of_parent {name p : String} {e : Entry} (he : s.entry? name = some e)
    (hparent : e.model.parent = some p) :
    ∃ d, s.entry? p = some d ∧ Extension d.fields e.model.fields e.fields := by
  obtain ⟨m, above, hm, hlineage, hchain⟩ := lineage_some_iff.mp (hparent ▸ h.lineage he)
  obtain ⟨d, hd, rfl⟩ := h.entry?_of_declared hm
  have hext := h.extension_ancestors he
  rw [hchain, List.reverse_cons, hlineage.unique (h.lineage hd), ← h.fields_eq hd] at hext
  exact ⟨d, hd, hext⟩

/-- The names of an ancestor come first, at any distance. -/
theorem names_prefix {name ancestor : String} {e d : Entry} (he : s.entry? name = some e)
    (hd : s.entry? ancestor = some d) (hancestor : ancestor ∈ e.ancestors) :
    d.fields.map Field.name <+: e.fields.map Field.name := by
  obtain ⟨d', before, hd', hsplit⟩ := h.ancestors_split he hancestor
  rw [hd] at hd'
  cases hd'
  have hway : e.ancestors.reverse ++ [name] =
      (d.ancestors.reverse ++ [ancestor]) ++ (before.reverse ++ [name]) := by
    rw [hsplit]
    simp
  rw [h.fields_eq he, hway, effectiveFields_append, ← h.fields_eq hd, names_foldl_declareField]
  exact List.prefix_append _ _

/-- **What is visible on a type is visible on every type below.** -/
theorem visible_of_isSubtype {name other field : String} (hsub : s.isSubtype name other = true)
    (hfield : s.Visible other field) : s.Visible name field := by
  rcases isSubtype_iff.mp hsub with rfl | ⟨e, he, hother⟩
  · exact hfield
  · obtain ⟨d, hd, hmem⟩ := visible_iff.mp hfield
    exact visible_iff.mpr ⟨e, he, (h.names_prefix he hd hother).subset hmem⟩

end Built

/-! ## The order of the declarations -/

theorem declared?_perm {others : List Model} (hn : (models.map Model.name).Nodup)
    (hperm : others.Perm models) (name : String) : declared? others name = declared? models name := by
  have hn' : (others.map Model.name).Nodup := (hperm.map Model.name).nodup_iff.mpr hn
  ext m
  constructor
  · intro hm
    obtain ⟨hmem, rfl⟩ := mem_of_declared? hm
    exact declared?_of_mem hn (hperm.mem_iff.mp hmem)
  · intro hm
    obtain ⟨hmem, rfl⟩ := mem_of_declared? hm
    exact declared?_of_mem hn' (hperm.mem_iff.mpr hmem)

theorem Lineage.congr {others : List Model}
    (hdeclared : ∀ name, declared? others name = declared? models name) {parent : Option String}
    {xs : List String} (h : Lineage models parent xs) : Lineage others parent xs := by
  induction h with
  | root => exact .root
  | step hm _ ih => exact .step ((hdeclared _).trans hm) ih

theorem effectiveFields_congr {others : List Model}
    (hdeclared : ∀ name, declared? others name = declared? models name) (lineage : List String) :
    effectiveFields others lineage = effectiveFields models lineage := by
  unfold effectiveFields
  simp only [hdeclared]

/-- **The order of the declarations does not matter for the fields.** -/
theorem Built.fields_perm {others : List Model} {t : Schema} (h : Built models s)
    (ht : Built others t) (hperm : others.Perm models) (name : String) :
    t.fields name = s.fields name := by
  have hdeclared := declared?_perm h.nodup hperm
  have hentry {e : Entry} (he : s.entry? name = some e) :
      ∃ d, t.entry? name = some d ∧ d.fields = e.fields := by
    obtain ⟨d, hd, hmodel⟩ :=
      ht.entry?_of_declared ((hdeclared name).trans (h.declared_of_entry? he))
    have hlineage := (h.lineage he).congr hdeclared
    rw [← hmodel] at hlineage
    refine ⟨d, hd, ?_⟩
    rw [ht.fields_eq hd, h.fields_eq he, effectiveFields_congr hdeclared,
      (ht.lineage hd).unique hlineage]
  cases he : s.entry? name with
  | some e =>
    obtain ⟨d, hd, hfields⟩ := hentry he
    rw [fields_eq_ok_iff.mpr ⟨e, he, rfl⟩]
    exact fields_eq_ok_iff.mpr ⟨d, hd, hfields⟩
  | none =>
    cases hd : t.entry? name with
    | none =>
      unfold fields entry
      rw [he, hd]
    | some d =>
      obtain ⟨e, he', -⟩ := h.entry?_of_declared
        ((hdeclared name).symm.trans (ht.declared_of_entry? hd))
      rw [he] at he'
      nomatch he'

/-! ## What a schema says of fields -/

/-- The tables of a schema pass fields down its hierarchies. -/
structure PassesFieldsDown (models : List Model) (s : Schema) : Prop where
  /-- A model without a parent has the fields that it declares. -/
  top : ∀ m ∈ models, m.parent = none →
    ∃ fields, s.fields m.name = .ok fields ∧ Extension [] m.fields fields
  /-- Any other model has the fields that it declares on top of those of its parent. -/
  below : ∀ m ∈ models, ∀ p, m.parent = some p → ∃ inherited fields,
    s.fields p = .ok inherited ∧ s.fields m.name = .ok fields ∧
    Extension inherited m.fields fields
  /-- Each field is found by its name. -/
  found : ∀ m ∈ models, ∀ name f,
    s.field? m.name name = some f ↔ s.HasField m.name f ∧ f.name = name
  /-- What is visible on a type is visible on every type below. -/
  visible : ∀ name other, s.isSubtype name other = true →
    ∀ field, s.Visible other field → s.Visible name field
  /-- The order of the declarations does not matter. -/
  order : ∀ others : List Model, others.Perm models →
    ∃ t, ofModels others = .ok t ∧ ∀ name, t.fields name = s.fields name

/-- **How fields are inherited.** The fields of a type are its own on top of those of its parent:
inherited names keep their places, new ones follow as they are first declared, and each stands for
its last declaration. So every field is visible on all types below, whatever the depth and the
order of the declarations. -/
theorem passesFieldsDown_of_ofModels (h : ofModels models = .ok s) : PassesFieldsDown models s := by
  have hb := built_of_ofModels h
  refine ⟨fun m hm hp => ?_, fun m hm p hp => ?_, fun m _ name f => hb.field?_eq_some_iff,
    fun _ _ hsub _ => hb.visible_of_isSubtype hsub, fun others hperm => ?_⟩
  · obtain ⟨e, he, rfl⟩ := hb.entry?_of_model hm
    exact ⟨_, fields_eq_ok_iff.mpr ⟨e, he, rfl⟩, hb.extension_of_root he hp⟩
  · obtain ⟨e, he, rfl⟩ := hb.entry?_of_model hm
    obtain ⟨d, hd, hext⟩ := hb.extension_of_parent he hp
    exact ⟨_, _, fields_eq_ok_iff.mpr ⟨d, hd, rfl⟩, fields_eq_ok_iff.mpr ⟨e, he, rfl⟩, hext⟩
  · obtain ⟨t, ht⟩ := exists_ofModels (hb.wellDeclared.perm hperm)
    exact ⟨t, ht, hb.fields_perm (built_of_ofModels ht) hperm⟩

/-- Sagas are novels, and novels are books, the lowest type first. Pages and settings are declared
twice by one type, titles by all three. -/
def sagaModels : List Model :=
  [⟨"Saga", some "Novel", [Field.filter "volumes", Field.filter "title"]⟩,
    ⟨"Novel", some "Book", [Field.search "setting", Field.filter "title", Field.filter "setting",
      Field.search "title"]⟩,
    ⟨"Book", none, [Field.filter "pages", Field.search "title", Field.related "author" "Author",
      Field.search "pages"]⟩,
    ⟨"Author", none, [Field.search "name", Field.related "books" "Book"]⟩]

def sagaSchema : Schema where
  entries :=
    [⟨⟨"Saga", some "Novel", [Field.filter "volumes", Field.filter "title"]⟩, ["Novel", "Book"], [],
        [Field.search "pages", Field.filter "title", Field.related "author" "Author",
          Field.filter "setting", Field.filter "volumes"]⟩,
      ⟨⟨"Novel", some "Book", [Field.search "setting", Field.filter "title", Field.filter "setting",
          Field.search "title"]⟩, ["Book"], ["Saga"],
        [Field.search "pages", Field.search "title", Field.related "author" "Author",
          Field.filter "setting"]⟩,
      ⟨⟨"Book", none, [Field.filter "pages", Field.search "title", Field.related "author" "Author",
          Field.search "pages"]⟩, [], ["Saga", "Novel"],
        [Field.search "pages", Field.search "title", Field.related "author" "Author"]⟩,
      ⟨⟨"Author", none, [Field.search "name", Field.related "books" "Book"]⟩, [], [],
        [Field.search "name", Field.related "books" "Book"]⟩]

theorem ofModels_sagaModels : ofModels sagaModels = .ok sagaSchema := by
  with_unfolding_all rfl

theorem passesFieldsDown_of_ofModels_saga :
    ofModels sagaModels = .ok sagaSchema ∧ PassesFieldsDown sagaModels sagaSchema ∧
    sagaSchema.fields "Saga" = .ok [Field.search "pages", Field.filter "title",
      Field.related "author" "Author", Field.filter "setting", Field.filter "volumes"] :=
  ⟨ofModels_sagaModels, passesFieldsDown_of_ofModels ofModels_sagaModels, rfl⟩

end Concordance.Schema
