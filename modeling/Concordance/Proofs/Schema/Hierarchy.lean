import Concordance.Proofs.Result
import Concordance.Proofs.SortedMap
import Concordance.Schema.Build
import Mathlib

/-!
# Hierarchies of models

What a schema that was built from declarations says of them. `Lineage` relates a parent to the
chain of ancestors that starts with it; it has one chain for each parent, and no model is on its
own chain.

* `built_of_ofModels`: the table of a built schema has one entry for each declaration, in order,
  and each relation leads to a declared model (`Built`).
* `rootOf_eq_of_isSubtype`, `isSubtype_of_rootOf`: a model and its subtypes have one root, and all
  models with a root are subtypes of it.
* `hasIndexedFamily_iff_isSubtype`: the family of a model is indexed if some type of it is.
* `contains_of_related`: effective fields relate to declared models.
-/

namespace Concordance.Schema

variable {models : List Model} {s : Schema}

/-! ## Chains of parents -/

/-- The ancestors of a model whose parent is given, parent first. -/
inductive Lineage (models : List Model) : Option String → List String → Prop
  | root : Lineage models none []
  | step {p : String} {m : Model} {chain : List String} (hm : declared? models p = some m)
      (h : Lineage models m.parent chain) : Lineage models (some p) (p :: chain)

theorem Lineage.unique {parent : Option String} {xs ys : List String}
    (hx : Lineage models parent xs) (hy : Lineage models parent ys) : xs = ys := by
  induction hx generalizing ys with
  | root =>
    cases hy
    rfl
  | step hm _ ih =>
    cases hy with
    | step hm' h' =>
      rw [hm] at hm'
      cases hm'
      rw [ih h']

theorem lineage_some_iff {p : String} {xs : List String} :
    Lineage models (some p) xs ↔
      ∃ m chain, declared? models p = some m ∧ Lineage models m.parent chain ∧ xs = p :: chain := by
  constructor
  · rintro (_ | ⟨hm, h⟩)
    exact ⟨_, _, hm, h, rfl⟩
  · rintro ⟨m, chain, hm, h, rfl⟩
    exact .step hm h

/-- The chain from a model on it is the chain of that model. -/
theorem Lineage.split {parent : Option String} {xs : List String} {a : String}
    (h : Lineage models parent xs) (ha : a ∈ xs) :
    ∃ m before behind, xs = before ++ a :: behind ∧ declared? models a = some m ∧
      Lineage models m.parent behind := by
  induction h with
  | root => exact absurd ha List.not_mem_nil
  | @step p m chain hm h ih =>
    rcases List.mem_cons.mp ha with rfl | ha
    · exact ⟨m, [], chain, rfl, hm, h⟩
    · obtain ⟨m', before, behind, rfl, hm', h'⟩ := ih ha
      exact ⟨m', p :: before, behind, rfl, hm', h'⟩

/-- No model is among its own ancestors. -/
theorem Lineage.not_mem {m : Model} {name : String} {xs : List String}
    (hm : declared? models name = some m) (h : Lineage models m.parent xs) : name ∉ xs := by
  intro hmem
  obtain ⟨m', before, behind, hxs, hm', h'⟩ := h.split hmem
  rw [hm] at hm'
  cases hm'
  have hlength := congrArg List.length (h.unique h')
  rw [hxs, List.length_append, List.length_cons] at hlength
  omega

/-! ## Declarations -/

theorem mem_of_declared? {name : String} {m : Model} (h : declared? models name = some m) :
    m ∈ models ∧ m.name = name :=
  ⟨List.mem_of_find?_eq_some h, by simpa using List.find?_some h⟩

/-- Of things with distinct names each is found by its name. -/
theorem find?_name {α : Type} {name : α → String} {xs : List α} (hn : (xs.map name).Nodup) {x : α}
    (hx : x ∈ xs) : (xs.find? fun y => name y == name x) = some x := by
  induction xs with
  | nil => exact absurd hx List.not_mem_nil
  | cons y ys ih =>
    rw [List.map_cons, List.nodup_cons] at hn
    rcases List.mem_cons.mp hx with rfl | hx
    · rw [List.find?_cons_of_pos (by simp)]
    · have hne : name y ≠ name x := fun h => hn.1 (h ▸ List.mem_map_of_mem hx)
      rw [List.find?_cons_of_neg (by simpa using hne)]
      exact ih hn.2 hx

theorem declared?_of_mem (hn : (models.map Model.name).Nodup) {m : Model} (hm : m ∈ models) :
    declared? models m.name = some m := find?_name hn hm

theorem firstRepeated_eq_none_iff {seen names : List String} :
    firstRepeated seen names = none ↔ names.Nodup ∧ ∀ n ∈ names, n ∉ seen := by
  induction names generalizing seen with
  | nil => exact iff_of_true rfl ⟨List.nodup_nil, fun _ hn => absurd hn List.not_mem_nil⟩
  | cons n names ih =>
    rw [firstRepeated]
    split
    · rename_i hseen
      refine iff_of_false (fun h => nomatch h) fun h => h.2 n List.mem_cons_self ?_
      simpa using hseen
    · rename_i hseen
      replace hseen : n ∉ seen := by simpa using hseen
      simp only [ih, List.nodup_cons, List.mem_cons, not_or, forall_eq_or_imp]
      constructor
      · rintro ⟨hnodup, hfresh⟩
        exact ⟨⟨fun hn => (hfresh n hn).1 rfl, hnodup⟩, hseen, fun k hk => (hfresh k hk).2⟩
      · rintro ⟨⟨hn, hnodup⟩, -, hfresh⟩
        exact ⟨hnodup, fun k hk => ⟨fun heq => hn (heq ▸ hk), hfresh k hk⟩⟩

/-- Following the parents through what is left of the declarations gives the chain of ancestors. -/
theorem lineage_of_chain (hn : (models.map Model.name).Nodup) {name : String}
    {unused : List Model} {parent : Option String} {xs : List String}
    (hsub : unused.Sublist models) (h : chain models name unused parent = .ok xs) :
    Lineage models parent xs := by
  fun_induction chain models name unused parent generalizing xs with
  | case1 => cases h; exact .root
  | case2 unused p m hm _ ih =>
    obtain ⟨ys, hys, rfl⟩ : ∃ ys, chain models name (unused.eraseP fun m => m.name == p) m.parent =
        .ok ys ∧ p :: ys = xs := by
      cases hc : chain models name (unused.eraseP fun m => m.name == p) m.parent with
      | error e => rw [hc] at h; nomatch h
      | ok ys => rw [hc] at h; cases h; exact ⟨ys, rfl, rfl⟩
    obtain ⟨hmem, rfl⟩ := mem_of_declared? hm
    exact .step (declared?_of_mem hn (hsub.subset hmem))
      (ih (List.eraseP_sublist.trans hsub) hys)
  | case3 => nomatch h
  | case4 => nomatch h

/-! ## Tables -/

/-- What the entry of a model says. -/
structure Derived (models : List Model) (s : Schema) (e : Entry) : Prop where
  lineage : Lineage models e.model.parent e.ancestors
  mem_subtypes : ∀ name, name ∈ e.subtypes ↔
    ∃ d ∈ s.entries, d.model.name = name ∧ e.model.name ∈ d.ancestors
  fields : e.fields = effectiveFields models (e.ancestors.reverse ++ [e.model.name])

/-- The schema is the table of the declarations. -/
structure Built (models : List Model) (s : Schema) : Prop where
  nodup : (models.map Model.name).Nodup
  entries : s.entries.map Entry.model = models
  derived : ∀ e ∈ s.entries, Derived models s e
  related : ∀ m ∈ models, ∀ f ∈ m.fields, ∀ target, f.related? = some target →
    (declared? models target).isSome

/-- Each model is paired with its chain of ancestors. -/
theorem lineages_of_mapM (hn : (models.map Model.name).Nodup) {ms : List Model}
    {lineages : List (Model × List String)}
    (h : (ms.mapM fun m => do return (m, ← ancestorsOf models m)) = .ok lineages) :
    lineages.map Prod.fst = ms ∧ ∀ l ∈ lineages, Lineage models l.1.parent l.2 := by
  replace h := forall₂_of_mapM h
  induction h with
  | nil => exact ⟨rfl, fun _ hl => absurd hl List.not_mem_nil⟩
  | @cons m l ms ls hm _ ih =>
    obtain ⟨ancestors, hchain, hl⟩ := ok_of_bind hm
    cases hl
    refine ⟨by rw [List.map_cons, ih.1], fun l hl => ?_⟩
    rcases List.mem_cons.mp hl with rfl | hl
    · exact lineage_of_chain hn List.eraseP_sublist hchain
    · exact ih.2 l hl

theorem mem_byName_iff (hn : (models.map Model.name).Nodup) {m : Model} :
    m ∈ byName models ↔ m ∈ models := by
  have hkeys : ((models.map fun m => (m.name, m)).map Prod.fst).Nodup := by
    rw [List.map_map]
    exact hn
  have hget : ∀ d ∈ models, (SortedMap.ofList (models.map fun m => (m.name, m))).get? d.name =
      some d := fun d hd => SortedMap.get?_ofList hkeys (List.mem_map_of_mem hd)
  unfold byName SortedMap.values
  rw [List.mem_map]
  constructor
  · rintro ⟨⟨name, d⟩, hd, rfl⟩
    replace hd := SortedMap.get?_eq_some_iff.mpr hd
    obtain ⟨_, hpair, rfl⟩ := List.mem_map.mp
      (SortedMap.contains_ofList.mp (SortedMap.contains_iff.mpr ⟨d, hd⟩))
    obtain ⟨m, hm, rfl⟩ := List.mem_map.mp hpair
    rw [hget m hm] at hd
    cases hd
    exact hm
  · exact fun hm => ⟨(m.name, m), SortedMap.get?_eq_some_iff.mp (hget m hm), rfl⟩

theorem strayRelation?_eq_none_iff {m : Model} :
    strayRelation? models m = none ↔ ∀ f ∈ m.fields, ∀ target, f.related? = some target →
      (declared? models target).isSome = true := by
  unfold strayRelation?
  rw [List.findSome?_eq_none_iff]
  refine forall_congr' fun f => imp_congr_right fun _ => ?_
  rw [Option.bind_eq_none_iff]
  refine forall_congr' fun target => imp_congr_right fun _ => ?_
  split
  · exact iff_of_true rfl ‹_›
  · exact iff_of_false (fun h => nomatch h) ‹_›

/-- **When declarations make a schema, and which.** -/
theorem ofModels_eq_ok_iff :
    ofModels models = .ok s ↔ (models.map Model.name).Nodup ∧
      ∃ lineages, (models.mapM fun m => do return (m, ← ancestorsOf models m)) = .ok lineages ∧
        (∀ m ∈ models, strayRelation? models m = none) ∧
        s = ⟨lineages.map fun l => entryOf models lineages l.1 l.2⟩ := by
  have hfirst : firstRepeated [] (models.map Model.name) = none ↔
      (models.map Model.name).Nodup := by
    rw [firstRepeated_eq_none_iff]
    exact and_iff_left fun _ _ => List.not_mem_nil
  unfold ofModels
  cases hrepeated : firstRepeated [] (models.map Model.name) with
  | some name =>
    refine iff_of_false (fun h => nomatch h) fun h => ?_
    rw [hfirst.mpr h.1] at hrepeated
    nomatch hrepeated
  | none =>
    have hn := hfirst.mp hrepeated
    have hstray : (byName models).findSome? (strayRelation? models) = none ↔
        ∀ m ∈ models, strayRelation? models m = none := by
      simp only [List.findSome?_eq_none_iff, mem_byName_iff hn]
    cases models.mapM fun m => do return (m, ← ancestorsOf models m) with
    | error fault => exact iff_of_false (fun h => nomatch h) fun ⟨_, _, h, _⟩ => nomatch h
    | ok lineages =>
      rw [← hstray]
      cases (byName models).findSome? (strayRelation? models) with
      | some fault => exact iff_of_false (fun h => nomatch h) fun ⟨_, _, _, h, _⟩ => nomatch h
      | none =>
        constructor
        · intro h
          cases h
          exact ⟨hn, lineages, rfl, rfl, rfl⟩
        · rintro ⟨-, _, hl, -, rfl⟩
          cases hl
          rfl

/-- **A schema that was built is the table of its declarations.** -/
theorem built_of_ofModels (h : ofModels models = .ok s) : Built models s := by
  obtain ⟨hn, lineages, hlineages, hstray, rfl⟩ := ofModels_eq_ok_iff.mp h
  obtain ⟨hmodels, hlineage⟩ := lineages_of_mapM hn hlineages
  refine ⟨hn, ?_, fun e he => ?_, fun m hm => strayRelation?_eq_none_iff.mp (hstray m hm)⟩
  · rw [List.map_map]
    exact hmodels
  · obtain ⟨⟨m, ancestors⟩, hl, rfl⟩ := List.mem_map.mp he
    refine ⟨hlineage _ hl, fun name => ?_, rfl⟩
    show name ∈ (lineages.filter fun l => l.2.contains m.name).map (fun l => l.1.name) ↔ _
    simp only [List.mem_map, List.mem_filter, List.contains_iff_mem]
    constructor
    · rintro ⟨l, ⟨hl, hmem⟩, rfl⟩
      exact ⟨_, ⟨l, hl, rfl⟩, rfl, hmem⟩
    · rintro ⟨_, ⟨l, hl, rfl⟩, rfl, hmem⟩
      exact ⟨l, ⟨hl, hmem⟩, rfl⟩

theorem mem_of_entry?_eq {name : String} {e : Entry} (h : s.entry? name = some e) :
    e ∈ s.entries ∧ e.model.name = name :=
  ⟨List.mem_of_find?_eq_some h, by simpa using List.find?_some h⟩

theorem contains_iff {name : String} : s.contains name = true ↔ ∃ e, s.entry? name = some e := by
  unfold contains
  rw [Option.isSome_iff_exists]

/-- What is read off the entry of a model. -/
theorem map_entry_eq_ok_iff {α : Type} {read : Entry → α} {name : String} {x : α} :
    read <$> s.entry name = .ok x ↔ ∃ e, s.entry? name = some e ∧ read e = x := by
  unfold entry
  cases s.entry? name with
  | none => exact iff_of_false (fun h => nomatch h) fun ⟨_, h, _⟩ => nomatch h
  | some e =>
    constructor
    · exact fun h => ⟨e, rfl, Except.ok.inj h⟩
    · rintro ⟨_, he, rfl⟩
      cases he
      rfl

theorem rootOf_eq_ok_iff {name root : String} :
    s.rootOf name = .ok root ↔
      ∃ e, s.entry? name = some e ∧ e.ancestors.getLast?.getD name = root :=
  map_entry_eq_ok_iff

theorem fields_eq_ok_iff {name : String} {fs : List Field} :
    s.fields name = .ok fs ↔ ∃ e, s.entry? name = some e ∧ e.fields = fs :=
  map_entry_eq_ok_iff

theorem contains_of_rootOf {name root : String} (h : s.rootOf name = .ok root) :
    s.contains name = true := by
  obtain ⟨e, he, -⟩ := rootOf_eq_ok_iff.mp h
  exact contains_iff.mpr ⟨e, he⟩

theorem contains_of_model {name : String} {m : Model} (h : s.model name = .ok m) :
    s.contains name = true := by
  obtain ⟨e, he, -⟩ := ok_of_map h
  unfold entry at he
  cases he? : s.entry? name with
  | none =>
    rw [he?] at he
    nomatch he
  | some e => exact contains_iff.mpr ⟨e, he?⟩

theorem contains_of_isIndexed {name : String} (h : s.isIndexed name = true) :
    s.contains name = true := by
  unfold isIndexed at h
  obtain ⟨e, he, -⟩ := (Option.any_eq_true ..).mp h
  exact contains_iff.mpr ⟨e, he⟩

theorem exists_rootOf {name : String} (h : s.contains name = true) :
    ∃ root, s.rootOf name = .ok root := by
  obtain ⟨e, he⟩ := contains_iff.mp h
  exact ⟨_, rootOf_eq_ok_iff.mpr ⟨e, he, rfl⟩⟩

theorem rootOf_of_not_contains {name : String} (h : s.contains name = false) :
    s.rootOf name = .error (.unknownModel name) := by
  unfold contains at h
  rw [Option.isSome_eq_false_iff, Option.isNone_iff_eq_none] at h
  unfold rootOf entry
  rw [h]
  rfl

theorem isSubtype_iff {name other : String} :
    s.isSubtype name other = true ↔
      name = other ∨ ∃ e, s.entry? name = some e ∧ other ∈ e.ancestors := by
  unfold isSubtype
  rw [Bool.or_eq_true, beq_iff_eq, Option.any_eq_true]
  simp only [List.contains_iff_mem]

/-- A model is a subtype of its root. -/
theorem isSubtype_of_rootOf {name root : String} (h : s.rootOf name = .ok root) :
    s.isSubtype name root = true := by
  obtain ⟨e, he, hroot⟩ := rootOf_eq_ok_iff.mp h
  cases hlast : e.ancestors.getLast? with
  | none =>
    rw [hlast] at hroot
    exact isSubtype_iff.mpr (Or.inl hroot)
  | some a =>
    rw [hlast, Option.getD_some] at hroot
    exact isSubtype_iff.mpr (Or.inr ⟨e, he, hroot ▸ List.mem_of_getLast? hlast⟩)

namespace Built

variable (h : Built models s)

include h

theorem models_eq : s.models = models.map Model.name := by
  rw [← h.entries, List.map_map]
  rfl

theorem nodup_entries : (s.entries.map fun e => e.model.name).Nodup := by
  have hn := h.nodup
  rw [← h.entries, List.map_map] at hn
  exact hn

theorem entry?_of_mem {e : Entry} (he : e ∈ s.entries) : s.entry? e.model.name = some e :=
  find?_name h.nodup_entries he

theorem declared_of_entry? {name : String} {e : Entry} (he : s.entry? name = some e) :
    declared? models name = some e.model := by
  obtain ⟨hmem, rfl⟩ := mem_of_entry?_eq he
  refine declared?_of_mem h.nodup ?_
  rw [← h.entries]
  exact List.mem_map_of_mem hmem

theorem entry?_of_declared {name : String} {m : Model} (hm : declared? models name = some m) :
    ∃ e, s.entry? name = some e ∧ e.model = m := by
  obtain ⟨hmem, rfl⟩ := mem_of_declared? hm
  rw [← h.entries] at hmem
  obtain ⟨e, he, rfl⟩ := List.mem_map.mp hmem
  exact ⟨e, h.entry?_of_mem he, rfl⟩

theorem lineage {name : String} {e : Entry} (he : s.entry? name = some e) :
    Lineage models e.model.parent e.ancestors :=
  (h.derived e (mem_of_entry?_eq he).1).lineage

/-- The ancestors of a model go on behind each of them with its own ancestors. -/
theorem ancestors_split {name a : String} {e : Entry} (he : s.entry? name = some e)
    (ha : a ∈ e.ancestors) :
    ∃ d before, s.entry? a = some d ∧ e.ancestors = before ++ a :: d.ancestors := by
  obtain ⟨m, before, behind, hsplit, hm, hlineage⟩ := (h.lineage he).split ha
  obtain ⟨d, hd, rfl⟩ := h.entry?_of_declared hm
  exact ⟨d, before, hd, by rw [hsplit, hlineage.unique (h.lineage hd)]⟩

/-- **A model and its subtypes have one root.** -/
theorem rootOf_eq_of_isSubtype {name other root : String} (hroot : s.rootOf name = .ok root)
    (hsub : s.isSubtype name other = true) : s.rootOf other = .ok root := by
  rcases isSubtype_iff.mp hsub with rfl | ⟨e, he, hother⟩
  · exact hroot
  · obtain ⟨d, before, hd, hsplit⟩ := h.ancestors_split he hother
    obtain ⟨e', he', hlast⟩ := rootOf_eq_ok_iff.mp hroot
    rw [he] at he'
    cases he'
    refine rootOf_eq_ok_iff.mpr ⟨d, hd, ?_⟩
    rw [← hlast, hsplit, List.getLast?_append, List.getLast?_cons]
    simp

/-- A root is its own root. -/
theorem rootOf_root {name root : String} (hroot : s.rootOf name = .ok root) :
    s.rootOf root = .ok root :=
  h.rootOf_eq_of_isSubtype hroot (isSubtype_of_rootOf hroot)

/-- A model is its own root if and only if it extends nothing. -/
theorem rootOf_self_iff {e : Entry} (he : e ∈ s.entries) :
    s.rootOf e.model.name = .ok e.model.name ↔ e.model.parent = none := by
  have hentry := h.entry?_of_mem he
  have hlineage := h.lineage hentry
  constructor
  · intro hroot
    obtain ⟨e', he', hlast⟩ := rootOf_eq_ok_iff.mp hroot
    rw [hentry] at he'
    cases he'
    cases hchain : e.ancestors.getLast? with
    | none =>
      rw [List.getLast?_eq_none_iff.mp hchain] at hlineage
      generalize e.model.parent = parent at hlineage
      cases hlineage
      rfl
    | some a =>
      -- a chain that is not empty would end in the model itself
      rw [hchain, Option.getD_some] at hlast
      have hmem := List.mem_of_getLast? hchain
      rw [hlast] at hmem
      exact absurd hmem (Lineage.not_mem (h.declared_of_entry? hentry) hlineage)
  · intro hparent
    rw [hparent] at hlineage
    refine rootOf_eq_ok_iff.mpr ⟨e, hentry, ?_⟩
    rw [hlineage.unique .root]
    rfl

/-- **A model has an indexed family if it or a type below it is indexed.** -/
theorem hasIndexedFamily_iff_isSubtype {model : String} (hmodel : s.contains model = true) :
    s.hasIndexedFamily model = true ↔
      ∃ name, s.isSubtype name model = true ∧ s.isIndexed name = true := by
  obtain ⟨e, he⟩ := contains_iff.mp hmodel
  obtain ⟨hmem, hname⟩ := mem_of_entry?_eq he
  unfold hasIndexedFamily
  rw [Bool.or_eq_true, he, Option.any_some, List.any_eq_true]
  constructor
  · rintro (hself | ⟨name, hsub, hindexed⟩)
    · exact ⟨model, isSubtype_iff.mpr (Or.inl rfl), hself⟩
    · obtain ⟨d, hd, rfl, hanc⟩ := ((h.derived e hmem).mem_subtypes name).mp hsub
      exact ⟨_, isSubtype_iff.mpr (Or.inr ⟨d, h.entry?_of_mem hd, hname ▸ hanc⟩), hindexed⟩
  · rintro ⟨name, hsub, hindexed⟩
    rcases isSubtype_iff.mp hsub with rfl | ⟨d, hd, hanc⟩
    · exact Or.inl hindexed
    · refine Or.inr ⟨name, ((h.derived e hmem).mem_subtypes name).mpr ⟨d, ?_⟩, hindexed⟩
      exact ⟨(mem_of_entry?_eq hd).1, (mem_of_entry?_eq hd).2, hname ▸ hanc⟩

/-- The family of a root is indexed if some model with this root is. -/
theorem hasIndexedFamily_iff {root : String} (hroot : s.rootOf root = .ok root) :
    s.hasIndexedFamily root = true ↔
      ∃ name, s.rootOf name = .ok root ∧ s.isIndexed name = true := by
  rw [h.hasIndexedFamily_iff_isSubtype (contains_of_rootOf hroot)]
  refine exists_congr fun name => and_congr_left fun hindexed =>
    ⟨fun hsub => ?_, isSubtype_of_rootOf⟩
  obtain ⟨top, htop⟩ := exists_rootOf (contains_of_isIndexed hindexed)
  have hsame := h.rootOf_eq_of_isSubtype htop hsub
  rwa [Except.ok.inj (hroot.symm.trans hsame)]

end Built

/-! ## Effective fields -/

theorem mem_declareField {fields : List Field} {f g : Field} (h : g ∈ declareField fields f) :
    g ∈ fields ∨ g = f := by
  unfold declareField at h
  split at h
  · obtain ⟨k, hk, rfl⟩ := List.mem_map.mp h
    split
    · exact Or.inr rfl
    · exact Or.inl hk
  · rcases List.mem_append.mp h with h | h
    · exact Or.inl h
    · exact Or.inr (List.mem_singleton.mp h)

theorem mem_foldl_declareField {own fields : List Field} {f : Field}
    (h : f ∈ own.foldl declareField fields) : f ∈ fields ∨ f ∈ own := by
  induction own generalizing fields with
  | nil => exact Or.inl h
  | cons g own ih =>
    rcases ih h with h | h
    · rcases mem_declareField h with h | rfl
      · exact Or.inl h
      · exact Or.inr List.mem_cons_self
    · exact Or.inr (List.mem_cons_of_mem _ h)

/-- Every effective field was declared by some model. -/
theorem mem_effectiveFields {lineage : List String} {f : Field}
    (h : f ∈ effectiveFields models lineage) : ∃ m ∈ models, f ∈ m.fields := by
  rcases mem_foldl_declareField h with h | h
  · exact absurd h List.not_mem_nil
  · obtain ⟨name, -, hf⟩ := List.mem_flatMap.mp h
    cases hm : declared? models name with
    | none =>
      rw [hm] at hf
      exact absurd hf List.not_mem_nil
    | some m =>
      rw [hm] at hf
      exact ⟨m, (mem_of_declared? hm).1, hf⟩

/-- A field of a new name comes last; any other leaves the names and their order as they were. -/
theorem names_declareField (fields : List Field) (f : Field) :
    (declareField fields f).map Field.name =
      if f.name ∈ fields.map Field.name then fields.map Field.name
      else fields.map Field.name ++ [f.name] := by
  have hdeclared : (fields.any fun g => g.name == f.name) = true ↔
      f.name ∈ fields.map Field.name := by
    simp only [List.any_eq_true, beq_iff_eq, List.mem_map]
  unfold declareField
  by_cases hf : f.name ∈ fields.map Field.name
  · rw [if_pos (hdeclared.mpr hf), if_pos hf, List.map_map]
    refine List.map_congr_left fun g _ => ?_
    by_cases hg : g.name = f.name
    · simp [hg]
    · simp [hg]
  · rw [if_neg (mt hdeclared.mp hf), if_neg hf, List.map_append, List.map_singleton]

theorem nodup_declareField {fields : List Field} (h : (fields.map Field.name).Nodup) (f : Field) :
    ((declareField fields f).map Field.name).Nodup := by
  rw [names_declareField]
  split
  · exact h
  · rename_i hnew
    rw [List.nodup_append_comm, List.singleton_append, List.nodup_cons]
    exact ⟨hnew, h⟩

theorem nodup_foldl_declareField {fields : List Field} (h : (fields.map Field.name).Nodup)
    (own : List Field) : ((own.foldl declareField fields).map Field.name).Nodup := by
  induction own generalizing fields with
  | nil => exact h
  | cons f own ih => exact ih (nodup_declareField h f)

/-- Effective fields have distinct names. -/
theorem nodup_effectiveFields (lineage : List String) :
    ((effectiveFields models lineage).map Field.name).Nodup := by
  have hnil : (([] : List Field).map Field.name).Nodup := List.nodup_nil
  exact nodup_foldl_declareField hnil _

/-- The field is one of the effective fields of the model. -/
def HasField (s : Schema) (model : String) (f : Field) : Prop :=
  ∃ fs, s.fields model = .ok fs ∧ f ∈ fs

/-- A field of a model is one of its effective fields. -/
theorem mem_of_field? {model name : String} {f : Field} (h : s.field? model name = some f) :
    ∃ e, s.entry? model = some e ∧ f ∈ e.fields ∧ f.name = name := by
  obtain ⟨e, he, hfind⟩ := Option.bind_eq_some_iff.mp h
  exact ⟨e, he, List.mem_of_find?_eq_some hfind, by simpa using List.find?_some hfind⟩

theorem hasField_iff {model : String} {f : Field} :
    s.HasField model f ↔ ∃ e, s.entry? model = some e ∧ f ∈ e.fields := by
  unfold HasField
  simp only [fields_eq_ok_iff]
  constructor
  · rintro ⟨_, ⟨e, he, rfl⟩, hf⟩
    exact ⟨e, he, hf⟩
  · rintro ⟨e, he, hf⟩
    exact ⟨_, ⟨e, he, rfl⟩, hf⟩

namespace Built

variable (h : Built models s)

include h

theorem nodup_names {name : String} {e : Entry} (he : s.entry? name = some e) :
    (e.fields.map Field.name).Nodup := by
  rw [(h.derived e (mem_of_entry?_eq he).1).fields]
  exact nodup_effectiveFields _

/-- A field of a model is found by its name. -/
theorem field?_of_mem {name : String} {e : Entry} (he : s.entry? name = some e) {f : Field}
    (hf : f ∈ e.fields) : s.field? name f.name = some f := by
  unfold field?
  rw [he]
  exact find?_name (h.nodup_names he) hf

/-- **The effective fields of a model are found by their names.** -/
theorem field?_eq_some_iff {model name : String} {f : Field} :
    s.field? model name = some f ↔ s.HasField model f ∧ f.name = name := by
  rw [hasField_iff]
  constructor
  · intro hfield
    obtain ⟨e, he, hf, hname⟩ := mem_of_field? hfield
    exact ⟨⟨e, he, hf⟩, hname⟩
  · rintro ⟨⟨e, he, hf⟩, rfl⟩
    exact h.field?_of_mem he hf

theorem exists_declaration {name : String} {e : Entry} (he : s.entry? name = some e) {f : Field}
    (hf : f ∈ e.fields) : ∃ m ∈ models, f ∈ m.fields := by
  rw [(h.derived e (mem_of_entry?_eq he).1).fields] at hf
  exact mem_effectiveFields hf

/-- **An effective field relates to a declared model.** -/
theorem contains_of_related {name target : String} {e : Entry} (he : s.entry? name = some e)
    {f : Field} (hf : f ∈ e.fields) (ht : f.related? = some target) :
    s.contains target = true := by
  obtain ⟨m, hm, hfield⟩ := h.exists_declaration he hf
  obtain ⟨d, hd⟩ := Option.isSome_iff_exists.mp (h.related m hm f hfield target ht)
  obtain ⟨e', he', -⟩ := h.entry?_of_declared hd
  exact contains_iff.mpr ⟨e', he'⟩

end Built

end Concordance.Schema
