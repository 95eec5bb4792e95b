import Concordance.Proofs.Schema.Inheritance
import Concordance.Proofs.Schema.Path
import Concordance.Schema.Resolve

/-!
# How paths resolve

A path is resolved segment by segment: all but the last must be relations, each looked up on the
model that the one before refers to, and the last must serve the purpose. The laws here tell this
without following segments:

* `follow_singleton_eq_ok_iff`, `follow_cons_eq_ok_iff`: what one segment does, for any path.
* `follow_eq_error_iff`: a path fails with the fault of its first segment that fails (`FirstFault`).
* **`resolvesByRules_of_ofModels`**: a path of one segment resolves by its field, a longer one by
  its first segment and the rest, also where relations lead in a circle; a failure is reported with
  the whole path, the model that it starts from and the first fault; and a list of paths resolves
  path by path up to the first that fails.
-/

namespace Concordance

/-- What a field at the end of a path must be. -/
def Field.Serves (f : Field) : Purpose → Prop
  | .search => f.searchable = true
  | .filter => f.filterable = true
  | .order => f.filterable = true ∧ f.isRelation = false

/-- What is said of a field that does not serve a purpose. -/
def Purpose.complaint : Purpose → FieldFault
  | .search => .notSearchable
  | .filter => .notFilterable
  | .order => .notOrderable

instance (f : Field) : (purpose : Purpose) → Decidable (f.Serves purpose)
  | .search => inferInstanceAs (Decidable (_ = _))
  | .filter => inferInstanceAs (Decidable (_ = _))
  | .order => inferInstanceAs (Decidable (_ ∧ _))

theorem Field.fault?_eq (f : Field) (purpose : Purpose) :
    f.fault? purpose = if f.Serves purpose then none else some purpose.complaint := by
  cases purpose with
  | search => rfl
  | filter => rfl
  | order =>
    unfold fault? Serves Purpose.complaint
    simp only [Bool.and_eq_true, Bool.not_eq_true']
    rfl

namespace Schema

variable {models : List Model} {s : Schema} {purpose : Purpose}

/-! ## Faults -/

/-- What is wrong with a segment that is looked up on a model, given the segments behind it. -/
inductive FaultAt (s : Schema) (purpose : Purpose) (model segment : String) :
    List String → FieldFault → Prop
  | unknown {rest : List String} (h : ¬ s.Visible model segment) :
      s.FaultAt purpose model segment rest .unknown
  | notARelation {f : Field} {next : String} {rest : List String} (hf : s.HasField model f)
      (hname : f.name = segment) (h : f.related? = none) :
      s.FaultAt purpose model segment (next :: rest) .notARelation
  | useless {f : Field} (hf : s.HasField model f) (hname : f.name = segment)
      (h : ¬ f.Serves purpose) : s.FaultAt purpose model segment [] purpose.complaint

/-- Segments are relations, each of the model that the one before refers to, and lead to a model. -/
inductive LeadsTo (s : Schema) : String → List String → String → Prop
  | start {model : String} : s.LeadsTo model [] model
  | hop {model target last : String} {f : Field} {segments : List String}
      (hf : s.HasField model f) (hrelated : f.related? = some target)
      (h : s.LeadsTo target segments last) : s.LeadsTo model (f.name :: segments) last

/-- The fault of the first segment that fails. -/
def FirstFault (s : Schema) (purpose : Purpose) (model : String) (segments : List String)
    (fault : FieldFault) : Prop :=
  ∃ before segment rest reached, segments = before ++ segment :: rest ∧
    s.LeadsTo model before reached ∧ s.FaultAt purpose reached segment rest fault

/-- A model has one field of a name. -/
theorem Built.hasField_inj (h : Built models s) {model : String} {f g : Field}
    (hf : s.HasField model f) (hg : s.HasField model g) (hname : f.name = g.name) : f = g :=
  Option.some.inj ((h.field?_eq_some_iff.mpr ⟨hf, rfl⟩).symm.trans
    (h.field?_eq_some_iff.mpr ⟨hg, hname.symm⟩))

/-! ## Following one segment -/

theorem follow_of_unknown {model segment : String} {rest : List String}
    (hsegment : ¬ s.Visible model segment) :
    s.follow purpose model (segment :: rest) = .error .unknown := by
  rw [← isSome_field?_iff, Option.not_isSome_iff_eq_none] at hsegment
  cases rest <;> rw [follow, hsegment]
  exact fun h => nomatch h

section Follow

variable (h : Built models s) {model : String} {rest : List String} {f : Field}

include h

/-- A field at the end of a path. -/
theorem follow_last (hf : s.HasField model f) :
    s.follow purpose model [f.name] =
      if f.Serves purpose then .ok ([], model, f) else .error purpose.complaint := by
  rw [follow, h.field?_eq_some_iff.mpr ⟨hf, rfl⟩]
  by_cases hserves : f.Serves purpose
  · simp only [f.fault?_eq, if_pos hserves]
  · simp only [f.fault?_eq, if_neg hserves]

/-- A path goes on from the model that a relation refers to. -/
theorem follow_relation {target : String} (hf : s.HasField model f)
    (hrelated : f.related? = some target) (hrest : rest ≠ []) :
    s.follow purpose model (f.name :: rest) =
      (fun found => (⟨model, f, target⟩ :: found.1, found.2)) <$> s.follow purpose target rest := by
  rw [follow, h.field?_eq_some_iff.mpr ⟨hf, rfl⟩]
  · simp only [hrelated]
  · exact hrest

theorem follow_plain (hf : s.HasField model f) (hrelated : f.related? = none) (hrest : rest ≠ []) :
    s.follow purpose model (f.name :: rest) = .error .notARelation := by
  rw [follow, h.field?_eq_some_iff.mpr ⟨hf, rfl⟩]
  · simp only [hrelated]
  · exact hrest

/-! ## Following all segments -/

/-- **A path of one segment ends in a field that serves the purpose.** -/
theorem follow_singleton_eq_ok_iff {segment : String} {found : List Hop × String × Field} :
    s.follow purpose model [segment] = .ok found ↔
      ∃ f, s.HasField model f ∧ f.name = segment ∧ f.Serves purpose ∧ found = ([], model, f) := by
  by_cases hvisible : s.Visible model segment
  · obtain ⟨f, hf, rfl⟩ := hvisible
    rw [follow_last h hf]
    constructor
    · intro hfound
      split at hfound
      · cases hfound
        exact ⟨f, hf, rfl, ‹_›, rfl⟩
      · nomatch hfound
    · rintro ⟨g, hg, hname, hserves, rfl⟩
      obtain rfl := h.hasField_inj hg hf hname
      rw [if_pos hserves]
  · rw [follow_of_unknown hvisible]
    exact iff_of_false (fun h => nomatch h) fun ⟨f, hf, hname, _⟩ => hvisible ⟨f, hf, hname⟩

/-- **A longer path begins with a relation**, and goes on from the model that it refers to. -/
theorem follow_cons_eq_ok_iff {segment : String} (hrest : rest ≠ [])
    {found : List Hop × String × Field} :
    s.follow purpose model (segment :: rest) = .ok found ↔
      ∃ f target inner, s.HasField model f ∧ f.name = segment ∧ f.related? = some target ∧
        s.follow purpose target rest = .ok inner ∧
        found = (⟨model, f, target⟩ :: inner.1, inner.2) := by
  constructor
  · intro hfound
    by_cases hvisible : s.Visible model segment
    · obtain ⟨f, hf, rfl⟩ := hvisible
      cases hrelated : f.related? with
      | none =>
        rw [follow_plain h hf hrelated hrest] at hfound
        nomatch hfound
      | some target =>
        rw [follow_relation h hf hrelated hrest] at hfound
        obtain ⟨inner, hinner, rfl⟩ := ok_of_map hfound
        exact ⟨f, target, inner, hf, rfl, hrelated, hinner, rfl⟩
    · rw [follow_of_unknown hvisible] at hfound
      nomatch hfound
  · rintro ⟨f, target, inner, hf, rfl, hrelated, hinner, rfl⟩
    rw [follow_relation h hf hrelated hrest, hinner]
    rfl

/-- **A path fails with the fault of its first segment that fails.** -/
theorem follow_eq_error_iff {segments : List String} (hsegments : segments ≠ [])
    {fault : FieldFault} :
    s.follow purpose model segments = .error fault ↔
      s.FirstFault purpose model segments fault := by
  constructor
  · intro hfault
    induction segments generalizing model with
    | nil => exact absurd rfl hsegments
    | cons segment rest ih =>
      by_cases hvisible : s.Visible model segment
      · obtain ⟨f, hf, rfl⟩ := hvisible
        cases rest with
        | nil =>
          rw [follow_last h hf] at hfault
          split at hfault
          · nomatch hfault
          · cases hfault
            exact ⟨[], f.name, [], model, rfl, .start, .useless hf rfl ‹_›⟩
        | cons next rest =>
          have hrest := List.cons_ne_nil next rest
          cases hrelated : f.related? with
          | none =>
            rw [follow_plain h hf hrelated hrest] at hfault
            cases hfault
            exact ⟨[], f.name, next :: rest, model, rfl, .start, .notARelation hf rfl hrelated⟩
          | some target =>
            rw [follow_relation h hf hrelated hrest] at hfault
            obtain ⟨before, last, behind, reached, heq, hleads, hat⟩ :=
              ih hrest (error_of_map hfault)
            exact ⟨f.name :: before, last, behind, reached, by rw [heq, List.cons_append],
              .hop hf hrelated hleads, hat⟩
      · rw [follow_of_unknown hvisible] at hfault
        cases hfault
        exact ⟨[], segment, rest, model, rfl, .start, .unknown hvisible⟩
  · rintro ⟨before, segment, rest, reached, rfl, hleads, hat⟩
    induction hleads with
    | start =>
      cases hat with
      | unknown hunknown => exact follow_of_unknown hunknown
      | notARelation hf hname hplain =>
        subst hname
        exact follow_plain h hf hplain (List.cons_ne_nil _ _)
      | useless hf hname hserves =>
        subst hname
        exact (follow_last h hf).trans (if_neg hserves)
    | @hop _ _ _ _ before hf hrelated _ ih =>
      have hbehind : before ++ segment :: rest ≠ [] :=
        List.append_ne_nil_of_right_ne_nil _ (List.cons_ne_nil _ _)
      rw [List.cons_append, follow_relation h hf hrelated hbehind, ih hbehind hat]
      rfl

end Follow

/-! ## Resolving -/

theorem Built.contains_of_relation (h : Built models s) {model target : String} {f : Field}
    (hf : s.HasField model f) (hrelated : f.related? = some target) :
    s.contains target = true := by
  obtain ⟨e, he, hmem⟩ := hasField_iff.mp hf
  exact h.contains_of_related he hmem hrelated

theorem contains_of_hasField {model : String} {f : Field} (hf : s.HasField model f) :
    s.contains model = true := by
  obtain ⟨e, he, -⟩ := hasField_iff.mp hf
  exact contains_iff.mpr ⟨e, he⟩

/-- Resolving is following the segments of the path. -/
theorem resolve_of_contains {model : String} (hmodel : s.contains model = true) (path : String) :
    s.resolve model path purpose = match s.follow purpose model (Path.segments path) with
      | .ok found => .ok ⟨path, found.1, found.2.1, found.2.2⟩
      | .error fault => .error (.field ⟨path, model, purpose, fault⟩) := by
  obtain ⟨e, he⟩ := contains_iff.mp hmodel
  unfold resolve entry
  rw [he]
  cases s.follow purpose model (Path.segments path) <;> rfl

theorem contains_of_resolve {model path : String} {resolved : ResolvedPath}
    (h : s.resolve model path purpose = .ok resolved) : s.contains model = true := by
  obtain ⟨e, he, -⟩ := ok_of_bind h
  exact contains_of_rootOf (congrArg (Functor.map _) he)

theorem resolve_eq_ok_iff {model path : String} (hmodel : s.contains model = true)
    {resolved : ResolvedPath} :
    s.resolve model path purpose = .ok resolved ↔ ∃ found,
      s.follow purpose model (Path.segments path) = .ok found ∧
        resolved = ⟨path, found.1, found.2.1, found.2.2⟩ := by
  rw [resolve_of_contains hmodel]
  cases s.follow purpose model (Path.segments path) with
  | error fault => exact iff_of_false (fun h => nomatch h) fun ⟨_, h, _⟩ => nomatch h
  | ok found =>
    constructor
    · rintro ⟨⟩
      exact ⟨found, rfl, rfl⟩
    · rintro ⟨_, ⟨⟩, rfl⟩
      rfl

theorem follow_of_resolve {model path : String} {resolved : ResolvedPath}
    (h : s.resolve model path purpose = .ok resolved) :
    s.follow purpose model (Path.segments path) =
      .ok (resolved.hops, resolved.model, resolved.field) := by
  obtain ⟨found, hfollow, rfl⟩ := (resolve_eq_ok_iff (contains_of_resolve h)).mp h
  exact hfollow

theorem resolve_eq_error_iff {model path : String} (hmodel : s.contains model = true) {e : Error} :
    s.resolve model path purpose = .error e ↔
      ∃ fault, s.follow purpose model (Path.segments path) = .error fault ∧
        e = .field ⟨path, model, purpose, fault⟩ := by
  rw [resolve_of_contains hmodel]
  cases s.follow purpose model (Path.segments path) with
  | ok found => exact iff_of_false (fun h => nomatch h) fun ⟨_, h, _⟩ => nomatch h
  | error fault =>
    constructor
    · rintro ⟨⟩
      exact ⟨fault, rfl, rfl⟩
    · rintro ⟨_, ⟨⟩, rfl⟩
      rfl

/-! ## The rules -/

/-- How paths resolve over a schema. -/
structure ResolvesByRules (s : Schema) : Prop where
  /-- A path of one segment resolves exactly if this is an effective field that serves the
  purpose. -/
  single : ∀ model name purpose, '.' ∉ name.toList → ∀ resolved,
    s.resolve model name purpose = .ok resolved ↔ ∃ f, s.HasField model f ∧ f.name = name ∧
      f.Serves purpose ∧ resolved = ⟨name, [], model, f⟩
  /-- A longer path resolves exactly if its first segment is an effective relation and the rest
  resolves on the model that it refers to; it passes this relation first, and ends where the rest
  ends. -/
  below : ∀ model name path purpose, '.' ∉ name.toList → ∀ resolved,
    s.resolve model (name ++ "." ++ path) purpose = .ok resolved ↔
      ∃ f target inner, s.HasField model f ∧ f.name = name ∧ f.related? = some target ∧
        s.resolve target path purpose = .ok inner ∧
        resolved = ⟨name ++ "." ++ path, ⟨model, f, target⟩ :: inner.hops, inner.model, inner.field⟩
  /-- On a declared model a path fails exactly if some segment of it does; the error tells the
  whole path, the model that it starts from and the fault of the first such segment. -/
  fails : ∀ model path purpose, s.contains model = true → ∀ e,
    s.resolve model path purpose = .error e ↔
      ∃ fault, s.FirstFault purpose model (Path.segments path) fault ∧
        e = .field ⟨path, model, purpose, fault⟩
  /-- Several paths resolve if each does, and are given in their order. -/
  all : ∀ model paths purpose found, s.resolveAll model paths purpose = .ok found ↔
    List.Forall₂ (fun path resolved => s.resolve model path purpose = .ok resolved) paths found
  /-- Several paths fail with the error of the first that does not resolve. -/
  first : ∀ model paths purpose e, s.resolveAll model paths purpose = .error e ↔
    ∃ before path behind, paths = before ++ path :: behind ∧
      (∀ earlier ∈ before, ∃ resolved, s.resolve model earlier purpose = .ok resolved) ∧
      s.resolve model path purpose = .error e

theorem resolve_single (h : Built models s) {model name : String} (hname : '.' ∉ name.toList)
    {resolved : ResolvedPath} :
    s.resolve model name purpose = .ok resolved ↔ ∃ f, s.HasField model f ∧ f.name = name ∧
      f.Serves purpose ∧ resolved = ⟨name, [], model, f⟩ := by
  constructor
  · intro hresolved
    obtain ⟨found, hfound, rfl⟩ := (resolve_eq_ok_iff (contains_of_resolve hresolved)).mp hresolved
    rw [Path.segments_of_dotless hname, follow_singleton_eq_ok_iff h] at hfound
    obtain ⟨f, hf, hfname, hserves, rfl⟩ := hfound
    exact ⟨f, hf, hfname, hserves, rfl⟩
  · rintro ⟨f, hf, hfname, hserves, rfl⟩
    refine (resolve_eq_ok_iff (contains_of_hasField hf)).mpr ⟨([], model, f), ?_, rfl⟩
    rw [Path.segments_of_dotless hname, follow_singleton_eq_ok_iff h]
    exact ⟨f, hf, hfname, hserves, rfl⟩

theorem resolve_below (h : Built models s) {model name path : String} (hname : '.' ∉ name.toList)
    {resolved : ResolvedPath} :
    s.resolve model (name ++ "." ++ path) purpose = .ok resolved ↔
      ∃ f target inner, s.HasField model f ∧ f.name = name ∧ f.related? = some target ∧
        s.resolve target path purpose = .ok inner ∧
        resolved = ⟨name ++ "." ++ path, ⟨model, f, target⟩ :: inner.hops, inner.model,
          inner.field⟩ := by
  have hsegments : Path.segments (name ++ "." ++ path) = name :: Path.segments path := by
    rw [Path.segments_append_dot, Path.segments_of_dotless hname, List.singleton_append]
  constructor
  · intro hresolved
    obtain ⟨found, hfound, rfl⟩ := (resolve_eq_ok_iff (contains_of_resolve hresolved)).mp hresolved
    rw [hsegments, follow_cons_eq_ok_iff h (Path.segments_ne_nil path)] at hfound
    obtain ⟨f, target, inner, hf, hfname, hrelated, hinner, rfl⟩ := hfound
    have htarget := h.contains_of_relation hf hrelated
    exact ⟨f, target, ⟨path, inner.1, inner.2.1, inner.2.2⟩, hf, hfname, hrelated,
      (resolve_eq_ok_iff htarget).mpr ⟨inner, hinner, rfl⟩, rfl⟩
  · rintro ⟨f, target, inner, hf, hfname, hrelated, hinner, rfl⟩
    obtain ⟨found, hfound, rfl⟩ := (resolve_eq_ok_iff (contains_of_resolve hinner)).mp hinner
    refine (resolve_eq_ok_iff (contains_of_hasField hf)).mpr
      ⟨(⟨model, f, target⟩ :: found.1, found.2), ?_, rfl⟩
    rw [hsegments, follow_cons_eq_ok_iff h (Path.segments_ne_nil path)]
    exact ⟨f, target, found, hf, hfname, hrelated, hfound, rfl⟩

/-- **How paths resolve.** A path of one segment resolves by its field, and a longer one by its first
segment and the rest, also where relations lead in a circle; what fails is reported with the whole
path and the first fault; and several paths resolve one by one up to the first that fails. -/
theorem resolvesByRules_of_ofModels (h : ofModels models = .ok s) : ResolvesByRules s := by
  have hb := built_of_ofModels h
  refine ⟨fun model name purpose hname resolved => resolve_single hb hname,
    fun model name path purpose hname resolved => resolve_below hb hname,
    fun model path purpose hmodel e => ?_, fun model paths purpose found => mapM_eq_ok_iff,
    fun model paths purpose e => mapM_eq_error_iff⟩
  rw [resolve_eq_error_iff hmodel]
  simp only [follow_eq_error_iff hb (Path.segments_ne_nil path)]

/-- From a saga to its author's books and back to an author: the relations are inherited and lead in
a circle. A second path ends in a field that cannot be searched, and a third goes on after one that
is no relation. -/
theorem resolvesByRules_of_ofModels_saga :
    ofModels sagaModels = .ok sagaSchema ∧ ResolvesByRules sagaSchema ∧
    sagaSchema.resolve "Saga" "author.books.author.name" .search =
      .ok ⟨"author.books.author.name",
        [⟨"Saga", Field.related "author" "Author", "Author"⟩,
          ⟨"Author", Field.related "books" "Book", "Book"⟩,
          ⟨"Book", Field.related "author" "Author", "Author"⟩],
        "Author", Field.search "name"⟩ ∧
    sagaSchema.resolveAll "Saga" ["pages", "volumes", "setting.name"] .search =
      .error (.field ⟨"volumes", "Saga", .search, .notSearchable⟩) ∧
    sagaSchema.resolve "Saga" "author.name.books" .filter =
      .error (.field ⟨"author.name.books", "Saga", .filter, .notARelation⟩) :=
  ⟨ofModels_sagaModels, resolvesByRules_of_ofModels ofModels_sagaModels, by with_unfolding_all rfl,
    by with_unfolding_all rfl, by with_unfolding_all rfl⟩

end Schema

end Concordance
