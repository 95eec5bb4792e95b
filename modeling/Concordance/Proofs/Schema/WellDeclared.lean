import Concordance.Proofs.Schema.Hierarchy

/-!
# When declarations make a schema

`WellDeclared` is the condition under which a list of declarations is accepted, said of the
declarations alone. `Walk` is the way from a model to its topmost ancestor in which the models met
are remembered; it counts its steps, so that a walk with an outcome is one that ends.

* `walk_ancestorsOf`: every walk ends, after fewer steps than there are declarations, and its
  outcome is the chain of ancestors or the fault that the table is built from.
* `built_iff_wellDeclared`: a schema is built exactly from what is well declared, in whichever
  order, and its tables of ancestors, subtypes and roots agree with each other (`Coherent`).
-/

namespace Concordance.Schema

variable {models : List Model} {s : Schema}

/-! ## Declarations without a fault -/

/-- The first model names the second as its parent. -/
def Extends (models : List Model) (name parent : String) : Prop :=
  ∃ m ∈ models, m.name = name ∧ m.parent = some parent

/-- The declarations have no fault. -/
structure WellDeclared (models : List Model) : Prop where
  distinct : (models.map Model.name).Nodup
  parents : ∀ m ∈ models, ∀ p, m.parent = some p → ∃ d ∈ models, d.name = p
  acyclic : ∀ name, ¬ Relation.TransGen (Extends models) name name
  relations : ∀ m ∈ models, ∀ f ∈ m.fields, ∀ target, f.related? = some target →
    ∃ d ∈ models, d.name = target

/-- The order of the declarations does not matter. -/
theorem WellDeclared.perm {others : List Model} (h : WellDeclared models)
    (hperm : others.Perm models) : WellDeclared others := by
  have hmem {P : Model → Prop} : (∃ d ∈ models, P d) → ∃ d ∈ others, P d :=
    fun ⟨d, hd, hp⟩ => ⟨d, hperm.mem_iff.mpr hd, hp⟩
  refine ⟨(hperm.map Model.name).nodup_iff.mpr h.distinct, fun m hm p hp => ?_,
    fun name hcycle => ?_, fun m hm f hf target ht => ?_⟩
  · exact hmem (h.parents m (hperm.mem_iff.mp hm) p hp)
  · have hup (a b : String) : Extends others a b → Extends models a b :=
      fun ⟨m, hm, hname, hp⟩ => ⟨m, hperm.mem_iff.mp hm, hname, hp⟩
    exact h.acyclic name (Relation.TransGen.mono hup _ _ hcycle)
  · exact hmem (h.relations m (hperm.mem_iff.mp hm) f hf target ht)

theorem isSome_declared?_iff {name : String} :
    (declared? models name).isSome = true ↔ ∃ d ∈ models, d.name = name := by
  unfold declared?
  simp only [List.find?_isSome, beq_iff_eq]

theorem extends_of_declared? {name p : String} {m : Model} (hm : declared? models name = some m)
    (hp : m.parent = some p) : Extends models name p :=
  have ⟨hmem, hname⟩ := mem_of_declared? hm
  ⟨m, hmem, hname, hp⟩

/-! ## Walks -/

/-- The walk from a model up to its topmost ancestor, when `seen` was met and a parent is next:
the steps it takes and what comes of it. -/
inductive Walk (models : List Model) (name : String) :
    Nat → List String → Option String → Except SchemaFault (List String) → Prop
  | top {seen : List String} : Walk models name 0 seen none (.ok [])
  | stray {seen : List String} {p : String} (hp : declared? models p = none) :
      Walk models name 0 seen (some p) (.error (.undeclaredParent name p))
  | loop {seen : List String} {p : String} {m : Model} (hp : declared? models p = some m)
      (hseen : p ∈ seen) : Walk models name 0 seen (some p) (.error (.cycle name))
  | step {n : Nat} {seen : List String} {p : String} {m : Model}
      {outcome : Except SchemaFault (List String)} (hp : declared? models p = some m)
      (hseen : p ∉ seen) (h : Walk models name n (p :: seen) m.parent outcome) :
      Walk models name (n + 1) seen (some p) ((p :: ·) <$> outcome)

/-- A walk has one outcome. -/
theorem Walk.unique {name : String} {n k : Nat} {seen : List String} {parent : Option String}
    {x y : Except SchemaFault (List String)} (hx : Walk models name n seen parent x)
    (hy : Walk models name k seen parent y) : x = y := by
  induction hx generalizing k y with
  | top =>
    cases hy
    rfl
  | stray hp =>
    cases hy with
    | stray => rfl
    | loop hp' => rw [hp] at hp'; nomatch hp'
    | step hp' => rw [hp] at hp'; nomatch hp'
  | loop hp hseen =>
    cases hy with
    | stray hp' => rw [hp] at hp'; nomatch hp'
    | loop => rfl
    | step _ hseen' => exact absurd hseen hseen'
  | step hp hseen _ ih =>
    cases hy with
    | stray hp' => rw [hp] at hp'; nomatch hp'
    | loop _ hseen' => exact absurd hseen' hseen
    | step hp' _ h' =>
      rw [hp] at hp'
      cases hp'
      rw [ih h']

/-- What is left of the declarations when one model is used up. -/
theorem declared?_eraseP (hn : (models.map Model.name).Nodup) (p q : String) :
    declared? (models.eraseP fun m => m.name == p) q =
      if q = p then none else declared? models q := by
  induction models with
  | nil => simp [declared?]
  | cons m models ih =>
    rw [List.map_cons, List.nodup_cons] at hn
    by_cases hp : m.name = p
    · rw [List.eraseP_cons_of_pos (by simpa using hp)]
      split
      · rename_i hq
        cases hfound : declared? models q with
        | none => rfl
        | some d =>
          obtain ⟨hd, hname⟩ := mem_of_declared? hfound
          refine absurd (List.mem_map.mpr ⟨d, hd, ?_⟩) hn.1
          rw [hname, hq, hp]
      · rename_i hq
        refine (List.find?_cons_of_neg ?_).symm
        simpa [hp] using Ne.symm hq
    · rw [List.eraseP_cons_of_neg (by simpa using hp)]
      by_cases hq : m.name = q
      · have hne : q ≠ p := hq ▸ hp
        simp [declared?, hq, hne]
      · have ih' := ih hn.2
        unfold declared? at ih' ⊢
        rw [List.find?_cons_of_neg (by simpa using hq), ih',
          List.find?_cons_of_neg (by simpa using hq)]

/-- Following the parents through what is left of the declarations is the walk that remembers what
it met, as long as what is left is what was not met. -/
theorem walk_chain {name : String} {unused : List Model} {seen : List String}
    {parent : Option String} (hn : (unused.map Model.name).Nodup)
    (hleft : ∀ q, declared? unused q = if q ∈ seen then none else declared? models q) :
    ∃ n ≤ unused.length, Walk models name n seen parent (chain models name unused parent) := by
  fun_induction chain models name unused parent generalizing seen with
  | case1 => exact ⟨0, Nat.zero_le _, .top⟩
  | case2 unused p m hm hlength ih =>
    have hp := hleft p
    rw [hm] at hp
    split at hp
    · cases hp
    · rename_i hseen
      have hrest : ∀ q, declared? (unused.eraseP fun m => m.name == p) q =
          if q ∈ p :: seen then none else declared? models q := by
        intro q
        rw [declared?_eraseP hn, hleft]
        simp only [List.mem_cons]
        by_cases hq : q = p <;> simp [hq]
      obtain ⟨n, hle, hwalk⟩ := ih (hn.sublist (List.eraseP_sublist.map Model.name)) hrest
      exact ⟨n + 1, by omega, .step hp.symm hseen hwalk⟩
  | case3 unused p hnone hdeclared =>
    obtain ⟨m, hm⟩ := Option.isSome_iff_exists.mp hdeclared
    refine ⟨0, Nat.zero_le _, .loop hm ?_⟩
    have hp := hleft p
    rw [hnone, hm] at hp
    split at hp
    · assumption
    · cases hp
  | case4 unused p _ hdeclared =>
    exact ⟨0, Nat.zero_le _, .stray (by simpa using hdeclared)⟩

/-- **Every walk ends**, after fewer steps than there are declarations, also one that runs into a
cycle which its start is not on. -/
theorem walk_ancestorsOf (hn : (models.map Model.name).Nodup) {m : Model} (hm : m ∈ models) :
    ∃ n < models.length, Walk models m.name n [m.name] m.parent (ancestorsOf models m) := by
  have hleft (q : String) : declared? (models.eraseP fun other => other.name == m.name) q =
      if q ∈ [m.name] then none else declared? models q := by
    rw [declared?_eraseP hn]
    simp only [List.mem_singleton]
  obtain ⟨n, hle, hwalk⟩ := walk_chain (hn.sublist (List.eraseP_sublist.map Model.name)) hleft
  exact ⟨n, Nat.lt_of_le_of_lt hle (length_eraseP_of_declared (declared?_of_mem hn hm)), hwalk⟩

/-- A walk through declarations without a fault meets no fault: each model met lies below the
parent that is next. -/
theorem Walk.exists_ok (hw : WellDeclared models) {name : String} {n : Nat} {seen : List String}
    {parent : Option String} {outcome : Except SchemaFault (List String)}
    (h : Walk models name n seen parent outcome)
    (hparent : ∀ p, parent = some p → ∃ d ∈ models, d.name = p)
    (hseen : ∀ q ∈ seen, ∀ p, parent = some p → Relation.TransGen (Extends models) q p) :
    ∃ xs, outcome = .ok xs := by
  induction h with
  | top => exact ⟨[], rfl⟩
  | @stray _ p hp =>
    have hsome := isSome_declared?_iff.mpr (hparent p rfl)
    rw [hp] at hsome
    nomatch hsome
  | @loop _ p _ _ hmet => exact absurd (hseen p hmet p rfl) (hw.acyclic p)
  | @step _ _ p m _ hp _ _ ih =>
    obtain ⟨xs, rfl⟩ := ih (hw.parents m (mem_of_declared? hp).1) fun q hq next hnext => by
      have hup := extends_of_declared? hp hnext
      rcases List.mem_cons.mp hq with rfl | hq
      · exact .single hup
      · exact (hseen q hq p rfl).tail hup
    exact ⟨p :: xs, rfl⟩

theorem exists_ancestorsOf (hw : WellDeclared models) {m : Model} (hm : m ∈ models) :
    ∃ xs, ancestorsOf models m = .ok xs := by
  obtain ⟨n, -, hwalk⟩ := walk_ancestorsOf hw.distinct hm
  refine hwalk.exists_ok hw (hw.parents m hm) fun q hq p hp => .single ?_
  rw [List.mem_singleton.mp hq]
  exact ⟨m, hm, rfl, hp⟩

/-! ## What is accepted -/

theorem exists_ofModels (hw : WellDeclared models) : ∃ s, ofModels models = .ok s := by
  obtain ⟨lineages, hlineages⟩ : ∃ lineages,
      (models.mapM fun m => do return (m, ← ancestorsOf models m)) = .ok lineages := by
    refine exists_mapM_ok fun m hm => ?_
    obtain ⟨xs, hxs⟩ := exists_ancestorsOf hw hm
    exact ⟨(m, xs), by rw [hxs]; rfl⟩
  refine ⟨_, ofModels_eq_ok_iff.mpr ⟨hw.distinct, lineages, hlineages, fun m hm => ?_, rfl⟩⟩
  refine strayRelation?_eq_none_iff.mpr fun f hf target ht => ?_
  exact isSome_declared?_iff.mpr (hw.relations m hm f hf target ht)

/-- What a model extends, at any distance, is among its ancestors. -/
theorem Built.mem_ancestors_of_extends (h : Built models s) {name ancestor : String}
    (hup : Relation.TransGen (Extends models) name ancestor) :
    ∃ e, s.entry? name = some e ∧ ancestor ∈ e.ancestors := by
  have hstep {a b : String} : Extends models a b → ∃ e, s.entry? a = some e ∧ b ∈ e.ancestors := by
    rintro ⟨m, hm, rfl, hp⟩
    obtain ⟨e, he, rfl⟩ := h.entry?_of_declared (declared?_of_mem h.nodup hm)
    obtain ⟨_, chain, -, -, hchain⟩ := lineage_some_iff.mp (hp ▸ h.lineage he)
    exact ⟨e, he, hchain ▸ List.mem_cons_self⟩
  induction hup with
  | single hab => exact hstep hab
  | tail _ hbc ih =>
    obtain ⟨e, he, hb⟩ := ih
    obtain ⟨d, before, hd, hsplit⟩ := h.ancestors_split he hb
    obtain ⟨d', hd', hc⟩ := hstep hbc
    rw [hd] at hd'
    cases hd'
    refine ⟨e, he, ?_⟩
    rw [hsplit]
    exact List.mem_append_right _ (List.mem_cons_of_mem _ hc)

theorem Built.wellDeclared (h : Built models s) : WellDeclared models := by
  refine ⟨h.nodup, fun m hm p hp => ?_, fun name hcycle => ?_, fun m hm f hf target ht => ?_⟩
  · obtain ⟨e, he, rfl⟩ := h.entry?_of_declared (declared?_of_mem h.nodup hm)
    obtain ⟨d, _, hd, -, -⟩ := lineage_some_iff.mp (hp ▸ h.lineage he)
    exact ⟨d, mem_of_declared? hd⟩
  · obtain ⟨e, he, hmem⟩ := h.mem_ancestors_of_extends hcycle
    exact Lineage.not_mem (h.declared_of_entry? he) (h.lineage he) hmem
  · exact isSome_declared?_iff.mp (h.related m hm f hf target ht)

/-! ## What a schema says of its hierarchies -/

/-- The tables of a schema say the same of the hierarchies of its models. -/
structure Coherent (models : List Model) (s : Schema) : Prop where
  /-- The models, in order of declaration. -/
  order : s.models = models.map Model.name
  /-- A model without a parent has no ancestors. -/
  top : ∀ m ∈ models, m.parent = none → s.ancestors m.name = .ok []
  /-- The ancestors of any other model are its parent and the ancestors of the parent. -/
  below : ∀ m ∈ models, ∀ p, m.parent = some p →
    ∃ above, s.ancestors p = .ok above ∧ s.ancestors m.name = .ok (p :: above)
  /-- No ancestor occurs twice. -/
  nodup : ∀ m ∈ models, ∃ above, s.ancestors m.name = .ok above ∧ above.Nodup
  /-- The subtypes of a model are the models it is an ancestor of, each once and in order. -/
  subtypes : ∀ m ∈ models, ∃ under, s.subtypes m.name = .ok under ∧
    under.Sublist (models.map Model.name) ∧ under.Nodup ∧
    ∀ name, name ∈ under ↔ ∃ above, s.ancestors name = .ok above ∧ m.name ∈ above
  /-- A subtype is the model itself or has it among its ancestors. -/
  isSubtype : ∀ name other, s.isSubtype name other = true ↔
    name = other ∨ ∃ above, s.ancestors name = .ok above ∧ other ∈ above
  refl : ∀ name, s.isSubtype name name = true
  trans : ∀ x y z, s.isSubtype x y = true → s.isSubtype y z = true → s.isSubtype x z = true
  antisymm : ∀ x y, s.isSubtype x y = true → s.isSubtype y x = true → x = y
  /-- The root of a model is a model above it that extends nothing. -/
  root : ∀ m ∈ models, ∃ top ∈ models, s.rootOf m.name = .ok top.name ∧ top.parent = none ∧
    s.isSubtype m.name top.name = true
  /-- Two models have one root if and only if they are of one family. -/
  family : ∀ m ∈ models, ∀ other ∈ models, s.rootOf m.name = s.rootOf other.name ↔
    ∃ top ∈ models, s.isSubtype m.name top.name = true ∧ s.isSubtype other.name top.name = true

theorem ancestors_eq_ok_iff {name : String} {above : List String} :
    s.ancestors name = .ok above ↔ ∃ e, s.entry? name = some e ∧ e.ancestors = above :=
  map_entry_eq_ok_iff

theorem isSubtype_iff_ancestors {name other : String} :
    s.isSubtype name other = true ↔
      name = other ∨ ∃ above, s.ancestors name = .ok above ∧ other ∈ above := by
  rw [isSubtype_iff]
  refine or_congr_right ⟨fun ⟨e, he, hmem⟩ => ⟨_, ancestors_eq_ok_iff.mpr ⟨e, he, rfl⟩, hmem⟩, ?_⟩
  rintro ⟨_, h, hmem⟩
  obtain ⟨e, he, rfl⟩ := ancestors_eq_ok_iff.mp h
  exact ⟨e, he, hmem⟩

theorem subtypes_of_entry? {name : String} {e : Entry} (he : s.entry? name = some e) :
    s.subtypes name = .ok e.subtypes := by
  unfold subtypes entry
  rw [he]
  rfl

/-- Subtypes are listed in the order of the declarations. -/
theorem sublist_of_ofModels (h : ofModels models = .ok s) {e : Entry} (he : e ∈ s.entries) :
    e.subtypes.Sublist (models.map Model.name) := by
  obtain ⟨hn, lineages, hlineages, -, rfl⟩ := ofModels_eq_ok_iff.mp h
  obtain ⟨l, hl, rfl⟩ := List.mem_map.mp he
  rw [← (lineages_of_mapM hn hlineages).1, List.map_map]
  exact List.filter_sublist.map _

theorem Lineage.nodup {parent : Option String} {xs : List String}
    (h : Lineage models parent xs) : xs.Nodup := by
  induction h with
  | root => exact List.nodup_nil
  | step hm h ih => exact List.nodup_cons.mpr ⟨h.not_mem hm, ih⟩

namespace Built

variable (h : Built models s)

include h

theorem entry?_of_model {m : Model} (hm : m ∈ models) :
    ∃ e, s.entry? m.name = some e ∧ e.model = m :=
  h.entry?_of_declared (declared?_of_mem h.nodup hm)

theorem isSubtype_trans {x y z : String} (hxy : s.isSubtype x y = true)
    (hyz : s.isSubtype y z = true) : s.isSubtype x z = true := by
  rcases isSubtype_iff.mp hxy with rfl | ⟨e, he, hy⟩
  · exact hyz
  rcases isSubtype_iff.mp hyz with rfl | ⟨d, hd, hz⟩
  · exact hxy
  obtain ⟨d', before, hd', hsplit⟩ := h.ancestors_split he hy
  rw [hd] at hd'
  cases hd'
  refine isSubtype_iff.mpr (Or.inr ⟨e, he, ?_⟩)
  rw [hsplit]
  exact List.mem_append_right _ (List.mem_cons_of_mem _ hz)

theorem isSubtype_antisymm {x y : String} (hxy : s.isSubtype x y = true)
    (hyx : s.isSubtype y x = true) : x = y := by
  rcases isSubtype_iff.mp hxy with rfl | ⟨e, he, hy⟩
  · rfl
  rcases isSubtype_iff.mp hyx with rfl | ⟨d, hd, hx⟩
  · rfl
  -- the ancestors of the first go on behind the second and so hold the first itself
  obtain ⟨d', before, hd', hsplit⟩ := h.ancestors_split he hy
  rw [hd] at hd'
  cases hd'
  refine absurd ?_ (Lineage.not_mem (h.declared_of_entry? he) (h.lineage he))
  rw [hsplit]
  exact List.mem_append_right _ (List.mem_cons_of_mem _ hx)

/-- The root of a model is declared and extends nothing. -/
theorem exists_root {m : Model} (hm : m ∈ models) :
    ∃ top ∈ models, s.rootOf m.name = .ok top.name ∧ top.parent = none := by
  obtain ⟨e, he, -⟩ := h.entry?_of_model hm
  obtain ⟨root, hroot⟩ := exists_rootOf (contains_iff.mpr ⟨e, he⟩)
  have hself := h.rootOf_root hroot
  obtain ⟨d, hd, -⟩ := rootOf_eq_ok_iff.mp hself
  obtain ⟨hmem, rfl⟩ := mem_of_entry?_eq hd
  exact ⟨d.model, (mem_of_declared? (h.declared_of_entry? hd)).1, hroot,
    (h.rootOf_self_iff hmem).mp hself⟩

theorem rootOf_eq_iff {m other : Model} (hm : m ∈ models) (hother : other ∈ models) :
    s.rootOf m.name = s.rootOf other.name ↔ ∃ top ∈ models,
      s.isSubtype m.name top.name = true ∧ s.isSubtype other.name top.name = true := by
  obtain ⟨top, htop, hroot, -⟩ := h.exists_root hm
  constructor
  · intro heq
    exact ⟨top, htop, isSubtype_of_rootOf hroot, isSubtype_of_rootOf (heq ▸ hroot)⟩
  · rintro ⟨above, -, hmabove, hoabove⟩
    obtain ⟨top', -, hroot', -⟩ := h.exists_root hother
    have hsame := (h.rootOf_eq_of_isSubtype hroot hmabove).symm.trans
      (h.rootOf_eq_of_isSubtype hroot' hoabove)
    rw [hroot, hroot', hsame]

end Built

theorem coherent_of_ofModels (h : ofModels models = .ok s) : Coherent models s := by
  have hb := built_of_ofModels h
  refine ⟨hb.models_eq, fun m hm hp => ?_, fun m hm p hp => ?_, fun m hm => ?_, fun m hm => ?_,
    fun _ _ => isSubtype_iff_ancestors, fun _ => isSubtype_iff.mpr (Or.inl rfl),
    fun _ _ _ => hb.isSubtype_trans, fun _ _ => hb.isSubtype_antisymm, fun m hm => ?_,
    fun _ hm _ => hb.rootOf_eq_iff hm⟩
  · obtain ⟨e, he, rfl⟩ := hb.entry?_of_model hm
    exact ancestors_eq_ok_iff.mpr ⟨e, he, (hp ▸ hb.lineage he).unique .root⟩
  · obtain ⟨e, he, rfl⟩ := hb.entry?_of_model hm
    obtain ⟨d, above, hd, hlineage, hchain⟩ := lineage_some_iff.mp (hp ▸ hb.lineage he)
    obtain ⟨d', hd', rfl⟩ := hb.entry?_of_declared hd
    exact ⟨above, ancestors_eq_ok_iff.mpr ⟨d', hd', (hb.lineage hd').unique hlineage⟩,
      ancestors_eq_ok_iff.mpr ⟨e, he, hchain⟩⟩
  · obtain ⟨e, he, -⟩ := hb.entry?_of_model hm
    exact ⟨_, ancestors_eq_ok_iff.mpr ⟨e, he, rfl⟩, (hb.lineage he).nodup⟩
  · obtain ⟨e, he, rfl⟩ := hb.entry?_of_model hm
    have hmem := (mem_of_entry?_eq he).1
    have hsublist := sublist_of_ofModels h hmem
    refine ⟨_, subtypes_of_entry? he, hsublist, hb.nodup.sublist hsublist, fun name => ?_⟩
    rw [(hb.derived e hmem).mem_subtypes]
    constructor
    · rintro ⟨d, hd, rfl, hanc⟩
      exact ⟨_, ancestors_eq_ok_iff.mpr ⟨d, hb.entry?_of_mem hd, rfl⟩, hanc⟩
    · rintro ⟨_, habove, hanc⟩
      obtain ⟨d, hd, rfl⟩ := ancestors_eq_ok_iff.mp habove
      exact ⟨d, (mem_of_entry?_eq hd).1, (mem_of_entry?_eq hd).2, hanc⟩
  · obtain ⟨top, htop, hroot, hparent⟩ := hb.exists_root hm
    exact ⟨top, htop, hroot, hparent, isSubtype_of_rootOf hroot⟩

/-- **When a schema is built, and what it says of its hierarchies.** The declarations must have
distinct names, no parent that is missing, no cycle and no relation that leads nowhere. Every walk
to a topmost ancestor ends, the order of the declarations decides nothing, and the tables of the
schema agree. -/
theorem built_iff_wellDeclared (models : List Model) :
    ((∃ s, ofModels models = .ok s) ↔ WellDeclared models) ∧
    ((models.map Model.name).Nodup → ∀ m ∈ models, ∃ n < models.length, ∀ outcome,
      Walk models m.name n [m.name] m.parent outcome ↔ outcome = ancestorsOf models m) ∧
    (∀ others : List Model, others.Perm models →
      ((∃ s, ofModels others = .ok s) ↔ ∃ s, ofModels models = .ok s)) ∧
    ∀ s, ofModels models = .ok s → Coherent models s := by
  have hiff (ms : List Model) : (∃ s, ofModels ms = .ok s) ↔ WellDeclared ms :=
    ⟨fun ⟨_, h⟩ => (built_of_ofModels h).wellDeclared, exists_ofModels⟩
  refine ⟨hiff models, fun hn m hm => ?_, fun others hperm => ?_, fun _ => coherent_of_ofModels⟩
  · obtain ⟨n, hlt, hwalk⟩ := walk_ancestorsOf hn hm
    refine ⟨n, hlt, fun outcome => ⟨fun h => h.unique hwalk, ?_⟩⟩
    rintro rfl
    exact hwalk
  · rw [hiff, hiff]
    exact ⟨fun h => h.perm hperm.symm, fun h => h.perm hperm⟩

/-- Kinds of media, the lowest first. -/
def mediaModels : List Model :=
  [⟨"Novel", some "Book", []⟩, ⟨"Book", some "Item", []⟩, ⟨"Item", none, []⟩,
    ⟨"Disc", some "Item", [Field.related "about" "Book"]⟩]

def mediaSchema : Schema where
  entries :=
    [⟨⟨"Novel", some "Book", []⟩, ["Book", "Item"], [], []⟩,
      ⟨⟨"Book", some "Item", []⟩, ["Item"], ["Novel"], []⟩,
      ⟨⟨"Item", none, []⟩, [], ["Novel", "Book", "Disc"], []⟩,
      ⟨⟨"Disc", some "Item", [Field.related "about" "Book"]⟩, ["Item"], [],
        [Field.related "about" "Book"]⟩]

theorem ofModels_mediaModels : ofModels mediaModels = .ok mediaSchema := by
  with_unfolding_all rfl

/-- A draft is a copy; copies and prints are each other's kind. -/
def circularModels : List Model :=
  [⟨"Draft", some "Copy", []⟩, ⟨"Copy", some "Print", []⟩, ⟨"Print", some "Copy", []⟩]

theorem built_iff_wellDeclared_media :
    ofModels mediaModels = .ok mediaSchema ∧ WellDeclared mediaModels ∧
    Coherent mediaModels mediaSchema ∧ ¬ WellDeclared circularModels := by
  have hcircular : ofModels circularModels = .error (.cycle "Draft") := by with_unfolding_all rfl
  obtain ⟨haccepted, -, -, hcoherent⟩ := built_iff_wellDeclared mediaModels
  refine ⟨ofModels_mediaModels, haccepted.mp ⟨_, ofModels_mediaModels⟩,
    hcoherent _ ofModels_mediaModels, fun h => ?_⟩
  obtain ⟨s, hs⟩ := (built_iff_wellDeclared circularModels).1.mpr h
  rw [hcircular] at hs
  nomatch hs

end Concordance.Schema
