import Concordance.Document
import Concordance.Proofs.Store

/-!
# Entries of records

Over a built schema every record of a declared type has its entry derived without failure: one
under its own key if the type has a searchable field, and otherwise none (`buildEntry_eq`). The
fields of an entry are what is met on the way through the store (`contents`), merged path by path
(`find?_foldl_addContent`). Only relations are followed through the store, so where no relation is
searchable the entry depends on the record alone (`buildEntry_congr`).
-/

namespace Concordance

variable {models : List Model} {st : Store}

namespace Schema

variable {s : Schema} {model : String}

theorem fields_eq {e : Entry} (he : s.entry? model = some e) : s.fields model = .ok e.fields :=
  fields_eq_ok_iff.mpr ⟨e, he, rfl⟩

theorem searchableFields_eq {e : Entry} (he : s.entry? model = some e) :
    s.searchableFields model = .ok (e.fields.filter Field.searchable) := by
  unfold searchableFields
  rw [fields_eq he]
  rfl

theorem mem_searchableFields {fields : List Field} (h : s.searchableFields model = .ok fields)
    {f : Field} (hf : f ∈ fields) :
    ∃ e, s.entry? model = some e ∧ f ∈ e.fields ∧ f.searchable = true := by
  cases he : s.entry? model with
  | none =>
    unfold searchableFields Schema.fields entry at h
    rw [he] at h
    nomatch h
  | some e =>
    rw [searchableFields_eq he] at h
    cases h
    exact ⟨e, rfl, List.mem_filter.mp hf⟩

theorem isIndexed_eq {e : Entry} (he : s.entry? model = some e) :
    s.isIndexed model = !(e.fields.filter Field.searchable).isEmpty := by
  unfold isIndexed
  rw [he, Option.any_some]
  induction e.fields with
  | nil => rfl
  | cons f fs ih =>
    rw [List.any_cons, List.filter_cons, ih]
    cases f.searchable <;> rfl

end Schema

/-! ## Contents as a function of the store -/

/-- The searchable effective fields of a model; none if it is not declared. -/
def Schema.searched (s : Schema) (model : String) : List Field :=
  ((s.entry? model).map fun e => e.fields.filter Field.searchable).getD []

theorem Schema.mem_searched {s : Schema} {model : String} {f : Field} :
    f ∈ s.searched model ↔ ∃ e, s.entry? model = some e ∧ f ∈ e.fields ∧ f.searchable = true := by
  unfold searched
  cases s.entry? model with
  | none => simp
  | some e => simp

theorem Schema.isIndexed_of_mem_searched {s : Schema} {model : String} {f : Field}
    (h : f ∈ s.searched model) : s.isIndexed model = true := by
  obtain ⟨e, he, hmem, hsearchable⟩ := mem_searched.mp h
  unfold isIndexed
  rw [he, Option.any_some]
  exact List.any_eq_true.mpr ⟨f, hmem, hsearchable⟩

/-- The record of a model, or of a type below it, with a key. -/
def Store.find? (st : Store) (model : String) (pk : Key) : Option Record :=
  (st.get model pk).toOption.join

theorem Store.get_eq_find? {model : String} (hmodel : st.schema.contains model = true) (pk : Key) :
    st.get model pk = .ok (st.find? model pk) := by
  obtain ⟨root, hroot⟩ := Schema.exists_rootOf hmodel
  unfold find? get
  rw [hroot]
  rfl

theorem flatMap_filterMap {α β γ : Type} {f : α → Option β} {g : β → List γ} (xs : List α) :
    (xs.filterMap f).flatMap g = xs.flatMap fun x => ((f x).map g).getD [] := by
  induction xs with
  | nil => rfl
  | cons x xs ih =>
    rw [List.flatMap_cons, ← ih, List.filterMap_cons]
    cases f x <;> rfl

/-- What `contentsOf` reads over a built schema, where it cannot fail. -/
def contents (st : Store) (depth : Nat) (model : String) (r : Record) (base : String)
    (boost : Float32) : List FieldContent :=
  (st.schema.searched model).flatMap fun f =>
    let path := Path.below base f.name
    let boost := boost * f.boost
    match f.related? with
    | none => [⟨path, boost, (f.valueOf r).tokens⟩]
    | some target =>
      match depth with
      | 0 => []
      | depth + 1 => ((r.related f.name).filterMap (st.find? target)).flatMap fun related =>
          contents st depth target related path boost

/-- What one field adds to the contents. -/
def contentsOfField (st : Store) (depth : Nat) (r : Record) (base : String) (boost : Float32)
    (f : Field) : List FieldContent :=
  match f.related? with
  | none => [⟨Path.below base f.name, boost * f.boost, (f.valueOf r).tokens⟩]
  | some target =>
    match depth with
    | 0 => []
    | depth + 1 => ((r.related f.name).filterMap (st.find? target)).flatMap fun related =>
        contents st depth target related (Path.below base f.name) (boost * f.boost)

theorem contents_eq (st : Store) (depth : Nat) (model : String) (r : Record) (base : String)
    (boost : Float32) : contents st depth model r base boost =
      (st.schema.searched model).flatMap (contentsOfField st depth r base boost) := by
  rw [contents]
  rfl

/-- A field adds its own tokens or, where relations may be followed, the contents of related
records. -/
theorem mem_contentsOfField {depth : Nat} {r : Record} {base : String} {boost : Float32} {f : Field}
    {c : FieldContent} : c ∈ contentsOfField st depth r base boost f ↔
      (f.related? = none ∧ c = ⟨Path.below base f.name, boost * f.boost, (f.valueOf r).tokens⟩) ∨
      ∃ target n related, f.related? = some target ∧ depth = n + 1 ∧
        related ∈ (r.related f.name).filterMap (st.find? target) ∧
        c ∈ contents st n target related (Path.below base f.name) (boost * f.boost) := by
  unfold contentsOfField
  cases f.related? with
  | none => simp
  | some target =>
    cases depth with
    | zero => simp
    | succ n => simp

/-- **Contents are read without failure**, however deep relations are followed. -/
theorem contentsOf_eq (hs : Schema.Built models st.schema) (depth : Nat) {model : String}
    (hmodel : st.schema.contains model = true) (r : Record) (base : String) (boost : Float32) :
    contentsOf st depth model r base boost = .ok (contents st depth model r base boost) := by
  induction depth using Nat.strongRecOn generalizing model r base boost with
  | ind depth ih =>
    obtain ⟨e, he⟩ := Schema.contains_iff.mp hmodel
    have hsearched : st.schema.searchableFields model = .ok (st.schema.searched model) := by
      rw [Schema.searchableFields_eq he]
      unfold Schema.searched
      rw [he]
      rfl
    rw [contentsOf, contents, hsearched, List.flatMap_def]
    refine congrArg (fun found : Result (List (List FieldContent)) => do return (← found).flatten)
      (mapM_ok fun f hf => ?_)
    obtain ⟨d, hd, hfield, -⟩ := Schema.mem_searched.mp hf
    cases hrelated : f.related? with
    | none => rfl
    | some target =>
      have htarget := hs.contains_of_related hd hfield hrelated
      cases depth with
      | zero => rfl
      | succ depth =>
        refine Eq.trans (congrArg (fun found : Result (List (List FieldContent)) => do
          return (← found).flatten) (mapM_ok fun pk _ => ?_)) (congrArg Except.ok
            (flatMap_filterMap (r.related f.name)).symm)
        show (st.get target pk >>= fun _ => _) = _
        rw [Store.get_eq_find? htarget]
        cases st.find? target pk with
        | none => rfl
        | some related => exact ih depth (Nat.lt_succ_self depth) htarget related _ _

/-- **Entries are derived without failure**, where a type has a searchable field. -/
theorem buildEntry_eq (hs : Schema.Built models st.schema) {r : Record} {e : Schema.Entry}
    (he : st.schema.entry? r.model = some e) :
    buildEntry st r = .ok (if st.schema.isIndexed r.model then some {
      pk := r.pk
      model := r.model
      fields := (contents st maxRelationDepth r.model r "" 1.0).foldl addContent []
      filterValues := filterValuesOf e.fields r } else none) := by
  unfold buildEntry
  rw [Schema.searchableFields_eq he, Schema.isIndexed_eq he, Schema.fields_eq he,
    contentsOf_eq hs maxRelationDepth (Schema.contains_iff.mpr ⟨e, he⟩)]
  by_cases hempty : (e.fields.filter Field.searchable).isEmpty = true
  · rw [hempty]
    exact if_pos hempty
  · rw [Bool.eq_false_of_not_eq_true hempty]
    exact if_neg hempty

/-- A record has an entry if its type has a searchable field, and none otherwise. -/
theorem exists_buildEntry (hs : Schema.Built models st.schema) {r : Record}
    (hr : st.schema.contains r.model = true) :
    ∃ made?, buildEntry st r = .ok made? ∧ made?.isSome = st.schema.isIndexed r.model := by
  obtain ⟨e, he⟩ := Schema.contains_iff.mp hr
  refine ⟨_, buildEntry_eq hs he, ?_⟩
  cases st.schema.isIndexed r.model <;> rfl

theorem pk_of_buildEntry {r : Record} {e : IndexEntry} (h : buildEntry st r = .ok (some e)) :
    e.pk = r.pk := by
  unfold buildEntry at h
  obtain ⟨fields, -, h⟩ := ok_of_bind h
  split at h
  · nomatch h
  · obtain ⟨contents, -, h⟩ := ok_of_bind h
    obtain ⟨effective, -, h⟩ := ok_of_bind h
    cases h
    rfl

/-! ## Merging contents -/

/-- What a path holds when more content is met under it. -/
def gain (old : Option FieldContent) (c : FieldContent) : Option FieldContent :=
  if c.tokens.isEmpty then old
  else match old with
    | some d => some { d with tokens := d.tokens ++ c.tokens }
    | none => some c

/-- **Content changes what stands under its own path**, and nothing else. -/
theorem find?_addContent (ds : List FieldContent) (c : FieldContent) (path : String) :
    (addContent ds c).find? (fun d => d.path == path) =
      if c.path = path then gain (ds.find? fun d => d.path == path) c
      else ds.find? fun d => d.path == path := by
  unfold addContent gain
  by_cases hempty : c.tokens.isEmpty = true
  · rw [if_pos hempty, if_pos hempty, ite_self]
  rw [if_neg hempty, if_neg hempty, ← List.isSome_find?]
  cases hthere : ds.find? fun d => d.path == c.path with
  | some d =>
    have hpath : ((fun d : FieldContent => d.path == path) ∘ fun d =>
        if d.path == c.path then { d with tokens := d.tokens ++ c.tokens } else d) =
        fun d => d.path == path := by
      funext d
      show ((if d.path == c.path then _ else d : FieldContent).path == path) = _
      split <;> rfl
    rw [if_pos (Option.isSome_some), List.find?_map, hpath]
    by_cases hc : c.path = path
    · subst hc
      rw [if_pos rfl, hthere, Option.map_some, if_pos (List.find?_some hthere)]
    · rw [if_neg hc]
      cases hold : ds.find? fun d => d.path == path with
      | none => rfl
      | some d =>
        have hd : d.path = path := by simpa using List.find?_some hold
        rw [Option.map_some, if_neg fun h => hc ((beq_iff_eq.mp h).symm.trans hd)]
  | none =>
    rw [if_neg (by simp), List.find?_append, List.find?_singleton]
    by_cases hc : c.path = path
    · subst hc
      rw [if_pos rfl, hthere, if_pos (beq_self_eq_true c.path)]
      rfl
    · rw [if_neg hc, if_neg fun h => hc (beq_iff_eq.mp h), Option.or_none]

/-- **Merging leaves under a path what was met there.** -/
theorem find?_foldl_addContent (cs ds : List FieldContent) (path : String) :
    (cs.foldl addContent ds).find? (fun d => d.path == path) =
      (cs.filter fun c => c.path == path).foldl gain (ds.find? fun d => d.path == path) := by
  induction cs generalizing ds with
  | nil => rfl
  | cons c cs ih =>
    rw [List.foldl_cons, ih, find?_addContent]
    by_cases hc : c.path = path
    · rw [if_pos hc, List.filter_cons_of_pos (by simpa using hc), List.foldl_cons]
    · rw [if_neg hc, List.filter_cons_of_neg (by simpa using hc)]

/-- Merging brings no paths of its own. -/
theorem path_of_mem_foldl_addContent {cs : List FieldContent} {d : FieldContent}
    (h : d ∈ cs.foldl addContent []) : ∃ c ∈ cs, c.path = d.path := by
  have hfound : ((cs.foldl addContent []).find? fun c => c.path == d.path).isSome = true :=
    List.find?_isSome.mpr ⟨d, h, beq_self_eq_true d.path⟩
  rw [find?_foldl_addContent] at hfound
  cases hmet : cs.filter fun c => c.path == d.path with
  | nil =>
    rw [hmet] at hfound
    nomatch hfound
  | cons c met =>
    have hc : c ∈ cs.filter fun c => c.path == d.path := hmet ▸ List.mem_cons_self
    exact ⟨c, (List.mem_filter.mp hc).1, beq_iff_eq.mp (List.mem_filter.mp hc).2⟩

theorem nodup_addContent {ds : List FieldContent} (h : (ds.map FieldContent.path).Nodup)
    (c : FieldContent) : ((addContent ds c).map FieldContent.path).Nodup := by
  unfold addContent
  split
  · exact h
  split
  · have hpaths : (ds.map fun d => if d.path == c.path then { d with tokens := d.tokens ++ c.tokens }
        else d).map FieldContent.path = ds.map FieldContent.path := by
      rw [List.map_map]
      refine List.map_congr_left fun d _ => ?_
      show (if d.path == c.path then _ else d : FieldContent).path = d.path
      split <;> rfl
    rwa [hpaths]
  · rename_i hnew
    rw [List.map_append, List.nodup_append_comm, List.map_singleton, List.singleton_append,
      List.nodup_cons]
    refine ⟨fun hmem => hnew ?_, h⟩
    obtain ⟨d, hd, hpath⟩ := List.mem_map.mp hmem
    exact List.any_eq_true.mpr ⟨d, hd, beq_iff_eq.mpr hpath⟩

/-- Merging keeps the paths distinct. -/
theorem nodup_foldl_addContent (cs : List FieldContent) :
    ((cs.foldl addContent []).map FieldContent.path).Nodup := by
  induction cs using List.reverseRecOn with
  | nil => exact List.nodup_nil
  | append_singleton cs c ih =>
    rw [List.foldl_append]
    exact nodup_addContent ih c

/-- All tokens that are met stay. -/
theorem tokens_foldl_gain (cs : List FieldContent) (old : Option FieldContent) :
    ((cs.foldl gain old).map FieldContent.tokens).getD [] =
      (old.map FieldContent.tokens).getD [] ++ cs.flatMap FieldContent.tokens := by
  induction cs generalizing old with
  | nil => rw [List.foldl_nil, List.flatMap_nil, List.append_nil]
  | cons c cs ih =>
    rw [List.foldl_cons, ih, List.flatMap_cons, ← List.append_assoc]
    refine congrArg (· ++ _) ?_
    unfold gain
    split
    · rename_i hempty
      rw [List.isEmpty_iff.mp hempty, List.append_nil]
    · cases old with
      | none => rfl
      | some d => rfl

/-- The contents of one field are merged into one, unless there is nothing to keep. -/
theorem foldl_gain_of_same {α : Type} (path : String) (boost : Float32) (tokens : α → List String)
    (xs : List α) :
    (xs.map fun x => FieldContent.mk path boost (tokens x)).foldl gain none =
      if (xs.flatMap tokens).isEmpty then none else some ⟨path, boost, xs.flatMap tokens⟩ := by
  induction xs using List.reverseRecOn with
  | nil => rfl
  | append_singleton xs x ih =>
    rw [List.map_append, List.foldl_append, ih, List.flatMap_append, List.flatMap_singleton]
    show gain _ ⟨path, boost, tokens x⟩ = _
    unfold gain
    by_cases hx : (tokens x).isEmpty = true
    · rw [if_pos hx, List.isEmpty_iff.mp hx, List.append_nil]
    · have hsome : ¬(xs.flatMap tokens ++ tokens x).isEmpty = true := fun h =>
        hx (List.isEmpty_iff.mpr (List.append_eq_nil_iff.mp (List.isEmpty_iff.mp h)).2)
      rw [if_neg hx, if_neg hsome]
      by_cases hxs : (xs.flatMap tokens).isEmpty = true
      · rw [if_pos hxs, List.isEmpty_iff.mp hxs]
        rfl
      · rw [if_neg hxs]

/-! ## Without searchable relations -/

/-- No relation that a model declares is searchable. -/
def UnrelatedSearch (models : List Model) : Prop :=
  ∀ m ∈ models, ∀ f ∈ m.fields, f.searchable = true → f.related? = none

theorem contentsOf_congr (hs : Schema.Built models st.schema) (hrel : UnrelatedSearch models)
    {st' : Store} (hschema : st'.schema = st.schema) (depth : Nat) (model : String) (r : Record)
    (base : String) (boost : Float32) :
    contentsOf st' depth model r base boost = contentsOf st depth model r base boost := by
  rw [contentsOf, contentsOf, hschema]
  cases hfields : st.schema.searchableFields model with
  | error e => rfl
  | ok fields =>
    refine congrArg (fun found : Result (List (List FieldContent)) => do return (← found).flatten)
      (mapM_congr fun f hf => ?_)
    obtain ⟨e, he, hf, hsearchable⟩ := Schema.mem_searchableFields hfields hf
    obtain ⟨m, hm, hfield⟩ := hs.exists_declaration he hf
    simp only [hrel m hm f hfield hsearchable]

/-- **Where no relation is searchable, the entry depends on the record alone.** -/
theorem buildEntry_congr (hs : Schema.Built models st.schema) (hrel : UnrelatedSearch models)
    {st' : Store} (hschema : st'.schema = st.schema) (r : Record) :
    buildEntry st' r = buildEntry st r := by
  unfold buildEntry
  rw [hschema, contentsOf_congr hs hrel hschema]

end Concordance
