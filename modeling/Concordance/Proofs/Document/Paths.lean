import Concordance.Proofs.Document
import Concordance.Proofs.RecordSet.Reading
import Concordance.Proofs.Schema.Resolve

/-!
# The paths of an entry

A path has a place in the entries of a model if it resolves there for searching, goes through few
enough relations, all of them searchable, and ends in a field that is no relation
(`Schema.IndexedPath`). Where names have no dots a path tells its segments, so the contents of a
record under one path all come from one field of the records that the path leads to, with the same
boost, and stand in the order in which these records are reached.

* `filter_contents`: what is met under a path, record by record.
* `find?_foldl_addContent`: what merging leaves under a path.
* **`entry_of_paths`**: under each path an entry holds the tokens that the path reads, with the
  boosts along it multiplied, or nothing if there are none; and it holds no other path.
-/

namespace Concordance

variable {models : List Model} {st : Store}

/-! ## Paths that lead to searchable fields -/

/-- Segments lead from a model through searchable relations, of which there may be `depth`, to a
searchable field that is none. -/
inductive Schema.Leads (s : Schema) : Nat → String → List String → List Hop → Field → Prop
  | field {depth : Nat} {model : String} {f : Field} (hf : f ∈ s.searched model)
      (hplain : f.related? = none) : s.Leads depth model [f.name] [] f
  | hop {depth : Nat} {model target : String} {g f : Field} {segments : List String}
      {hops : List Hop} (hg : g ∈ s.searched model) (hrelated : g.related? = some target)
      (h : s.Leads depth target segments hops f) :
      s.Leads (depth + 1) model (g.name :: segments) (⟨model, g, target⟩ :: hops) f

/-- A resolved path that entries of a model have a place for. -/
structure Schema.IndexedPath (s : Schema) (model : String) (resolved : ResolvedPath) : Prop where
  resolves : s.resolve model resolved.path .search = .ok resolved
  hops_le : resolved.hops.length ≤ maxRelationDepth
  searchable : ∀ hop ∈ resolved.hops, hop.field.searchable = true
  plain : resolved.field.related? = none

/-- No declared field has an empty name or one with a dot. -/
def PlainNames (models : List Model) : Prop :=
  ∀ m ∈ models, ∀ f ∈ m.fields, f.name ≠ "" ∧ '.' ∉ f.name.toList

namespace Schema

variable {s : Schema}

theorem Leads.ne_nil {depth : Nat} {model : String} {segments : List String} {hops : List Hop}
    {f : Field} (h : s.Leads depth model segments hops f) : segments ≠ [] := by
  cases h <;> exact List.cons_ne_nil _ _

/-- **What leads to a field is what resolves for searching**, with searchable relations on the
way. -/
theorem leads_iff (hs : Built models s) {depth : Nat} {model : String} {segments : List String}
    {hops : List Hop} {f : Field} : s.Leads depth model segments hops f ↔
      (∃ last, s.follow .search model segments = .ok (hops, last, f)) ∧ hops.length ≤ depth ∧
        (∀ hop ∈ hops, hop.field.searchable = true) ∧ f.related? = none := by
  constructor
  · intro h
    induction h with
    | @field depth model f hf hplain =>
      obtain ⟨e, he, hmem, hsearchable⟩ := mem_searched.mp hf
      refine ⟨⟨model, ?_⟩, Nat.zero_le _, fun _ hhop => absurd hhop List.not_mem_nil, hplain⟩
      exact (follow_last hs (hasField_iff.mpr ⟨e, he, hmem⟩)).trans (if_pos hsearchable)
    | @hop depth model target g f segments hops hg hrelated h ih =>
      obtain ⟨e, he, hmem, hsearchable⟩ := mem_searched.mp hg
      obtain ⟨⟨last, hlast⟩, hdepth, hhops, hplain⟩ := ih
      refine ⟨⟨last, ?_⟩, Nat.succ_le_succ hdepth, ?_, hplain⟩
      · rw [follow_relation hs (hasField_iff.mpr ⟨e, he, hmem⟩) hrelated h.ne_nil, hlast]
        rfl
      · rintro hop (_ | ⟨_, hhop⟩)
        · exact hsearchable
        · exact hhops hop hhop
  · rintro ⟨⟨last, h⟩, hdepth, hhops, hplain⟩
    induction segments generalizing model hops depth with
    | nil => nomatch h
    | cons segment rest ih =>
      cases rest with
      | nil =>
        obtain ⟨g, hg, rfl, hsearchable, heq⟩ := (follow_singleton_eq_ok_iff hs).mp h
        cases heq
        obtain ⟨e, he, hmem⟩ := hasField_iff.mp hg
        exact .field (mem_searched.mpr ⟨e, he, hmem, hsearchable⟩) hplain
      | cons next rest =>
        obtain ⟨g, target, ⟨hops', last', f'⟩, hg, rfl, hrelated, hfollow, heq⟩ :=
          (follow_cons_eq_ok_iff hs (List.cons_ne_nil next rest)).mp h
        cases heq
        obtain ⟨e, he, hmem⟩ := hasField_iff.mp hg
        cases depth with
        | zero => exact absurd hdepth (Nat.not_succ_le_zero _)
        | succ depth =>
          refine .hop (mem_searched.mpr ⟨e, he, hmem, hhops _ List.mem_cons_self⟩) hrelated ?_
          exact ih hfollow (Nat.le_of_succ_le_succ hdepth) fun hop hhop =>
            hhops hop (List.mem_cons_of_mem _ hhop)

end Schema

/-! ## The records at the end of a path -/

/-- What `reached` reads where the relations lead to declared models. -/
def arrivals (st : Store) : List Hop → List Record → List Record
  | [], rs => rs
  | hop :: hops, rs => arrivals st hops
      (rs.flatMap fun r => (r.related hop.field.name).filterMap (st.find? hop.target))

theorem reached_eq {hops : List Hop} (h : ∀ hop ∈ hops, st.schema.contains hop.target = true)
    (rs : List Record) : reached st hops rs = .ok (arrivals st hops rs) := by
  induction hops generalizing rs with
  | nil => rw [reached, arrivals]
  | cons hop hops ih =>
    have hnext : ∀ r ∈ rs, st.getAll hop.target (r.related hop.field.name) =
        .ok ((r.related hop.field.name).filterMap (st.find? hop.target)) := by
      intro r _
      unfold Store.getAll
      rw [mapM_ok fun pk _ => Store.get_eq_find? (h hop List.mem_cons_self) pk]
      exact congrArg Except.ok List.filterMap_map
    rw [reached, mapM_ok hnext, arrivals, List.flatMap_def]
    exact ih (fun hop hhop => h hop (List.mem_cons_of_mem _ hhop)) _

/-- Each record goes its own way. -/
theorem arrivals_eq_flatMap (st : Store) (hops : List Hop) (rs : List Record) :
    arrivals st hops rs = rs.flatMap fun r => arrivals st hops [r] := by
  induction hops generalizing rs with
  | nil => exact (List.flatMap_singleton' rs).symm
  | cons hop hops ih =>
    simp only [arrivals, List.flatMap_singleton]
    rw [ih, List.flatMap_assoc]
    exact congrArg (rs.flatMap ·) (funext fun r => (ih _).symm)

/-! ## What is met under a path -/

/-- The product of a boost and the boosts along a path, from the outside inwards. -/
def boostAlong (boost : Float32) (hops : List Hop) (f : Field) : Float32 :=
  (hops.map (fun hop => hop.field.boost) ++ [f.boost]).foldl (· * ·) boost

/-- Among things with distinct names only one has a given name. -/
theorem flatMap_eq_of_name {α β : Type} {name : α → String} {xs : List α}
    (hn : (xs.map name).Nodup) {x : α} (hx : x ∈ xs) {g : α → List β}
    (hother : ∀ y ∈ xs, name y ≠ name x → g y = []) : xs.flatMap g = g x := by
  induction xs with
  | nil => exact absurd hx List.not_mem_nil
  | cons y ys ih =>
    rw [List.map_cons, List.nodup_cons] at hn
    rw [List.flatMap_cons]
    rcases List.mem_cons.mp hx with rfl | hx
    · rw [List.flatMap_eq_nil_iff.mpr fun z hz => hother z (List.mem_cons_of_mem _ hz) fun hname =>
        hn.1 (hname ▸ List.mem_map_of_mem hz), List.append_nil]
    · have hne : name y ≠ name x := fun h => hn.1 (h ▸ List.mem_map_of_mem hx)
      rw [hother y List.mem_cons_self hne, List.nil_append]
      exact ih hn.2 hx fun z hz => hother z (List.mem_cons_of_mem _ hz)

section Names

variable (hs : Schema.Built models st.schema) (hnames : PlainNames models)

include hs

theorem nodup_searched (model : String) : ((st.schema.searched model).map Field.name).Nodup := by
  unfold Schema.searched
  cases he : st.schema.entry? model with
  | none => exact List.nodup_nil
  | some e => exact (hs.nodup_names he).sublist (List.filter_sublist.map _)

include hnames

theorem parts_below_searched {model : String} {f : Field} (hf : f ∈ st.schema.searched model)
    (base : String) : Path.parts (Path.below base f.name) = Path.parts base ++ [f.name] := by
  obtain ⟨e, he, hmem, -⟩ := Schema.mem_searched.mp hf
  obtain ⟨m, hm, hfield⟩ := hs.exists_declaration he hmem
  obtain ⟨hname, hdot⟩ := hnames m hm f hfield
  exact Path.parts_below hname hdot base

/-- **Every content stands under segments that lead to a field.** -/
theorem leads_of_mem_contents {depth : Nat} {model : String} {r : Record} {base : String}
    {boost : Float32} {c : FieldContent} (h : c ∈ contents st depth model r base boost) :
    ∃ segments hops f, st.schema.Leads depth model segments hops f ∧
      Path.parts c.path = Path.parts base ++ segments := by
  induction depth using Nat.strongRecOn generalizing model r base boost with
  | ind depth ih =>
    rw [contents_eq, List.mem_flatMap] at h
    obtain ⟨f, hf, hc⟩ := h
    obtain ⟨hplain, rfl⟩ | ⟨target, n, related, hrelated, rfl, -, hc⟩ :=
      mem_contentsOfField.mp hc
    · exact ⟨_, _, f, .field hf hplain, parts_below_searched hs hnames hf base⟩
    · obtain ⟨segments, hops, g, hleads, hparts⟩ := ih n (Nat.lt_succ_self n) hc
      refine ⟨_, _, g, .hop hf hrelated hleads, ?_⟩
      rw [hparts, parts_below_searched hs hnames hf base, List.append_assoc]
      rfl

/-- What a field adds stands under its name. -/
theorem parts_of_mem_contentsOfField {depth : Nat} {model : String} {r : Record} {base : String}
    {boost : Float32} {f : Field} (hf : f ∈ st.schema.searched model) {c : FieldContent}
    (h : c ∈ contentsOfField st depth r base boost f) :
    ∃ more, Path.parts c.path = Path.parts base ++ f.name :: more := by
  have hbelow := parts_below_searched hs hnames hf base
  obtain ⟨-, rfl⟩ | ⟨target, n, related, -, -, -, hc⟩ := mem_contentsOfField.mp h
  · exact ⟨[], hbelow⟩
  · obtain ⟨segments, -, -, -, hparts⟩ := leads_of_mem_contents hs hnames hc
    exact ⟨segments, by rw [hparts, hbelow, List.append_assoc]; rfl⟩

theorem filter_contentsOfField_eq_nil {depth : Nat} {model name : String} {r : Record}
    {base path : String} {boost : Float32} {more : List String}
    (hpath : Path.parts path = Path.parts base ++ name :: more) {f : Field}
    (hf : f ∈ st.schema.searched model) (hname : f.name ≠ name) :
    (contentsOfField st depth r base boost f).filter (fun c => c.path == path) = [] := by
  refine List.filter_eq_nil_iff.mpr fun c hc heq => hname ?_
  obtain ⟨more', hparts⟩ := parts_of_mem_contentsOfField hs hnames hf hc
  rw [beq_iff_eq.mp heq, hpath, List.append_cancel_left_eq] at hparts
  exact (List.cons.inj hparts).1.symm

/-- **Under a path stand the tokens of one field**, record by record. -/
theorem filter_contents {depth : Nat} {model : String} {segments : List String} {hops : List Hop}
    {f : Field} (h : st.schema.Leads depth model segments hops f) (r : Record) {base path : String}
    (boost : Float32) (hpath : Path.parts path = Path.parts base ++ segments) :
    (contents st depth model r base boost).filter (fun c => c.path == path) =
      (arrivals st hops [r]).map fun x =>
        ⟨path, boostAlong boost hops f, (f.valueOf x).tokens⟩ := by
  induction h generalizing r base boost with
  | @field depth model f hf hplain =>
    have hbelow : Path.below base f.name = path :=
      Path.parts_inj ((parts_below_searched hs hnames hf base).trans hpath.symm)
    rw [contents_eq, List.filter_flatMap, flatMap_eq_of_name (nodup_searched hs model) hf
      fun g hg hname => filter_contentsOfField_eq_nil hs hnames hpath hg hname]
    unfold contentsOfField
    rw [hplain, hbelow, arrivals, List.map_singleton]
    exact List.filter_cons_of_pos (beq_self_eq_true path)
  | @hop depth model target g f segments hops hg hrelated h ih =>
    have hbelow : Path.parts path = Path.parts (Path.below base g.name) ++ segments := by
      rw [parts_below_searched hs hnames hg base, hpath, List.append_assoc]
      rfl
    rw [contents_eq, List.filter_flatMap, flatMap_eq_of_name (nodup_searched hs model) hg
      fun g hg hname => filter_contentsOfField_eq_nil hs hnames hpath hg hname]
    unfold contentsOfField
    rw [hrelated, arrivals, List.flatMap_singleton, arrivals_eq_flatMap, List.map_flatMap]
    show List.filter _ (List.flatMap _ _) = _
    rw [List.filter_flatMap]
    exact congrArg (List.flatMap · _) (funext fun x => ih x (boost * g.boost) hbelow)

end Names

/-! ## Entries -/

theorem Schema.Leads.contains_target {s : Schema} (hs : Schema.Built models s) {depth : Nat}
    {model : String} {segments : List String} {hops : List Hop} {f : Field}
    (h : s.Leads depth model segments hops f) : ∀ hop ∈ hops, s.contains hop.target = true := by
  induction h with
  | field => exact fun _ hhop => absurd hhop List.not_mem_nil
  | hop hg hrelated _ ih =>
    obtain ⟨e, he, hmem, -⟩ := Schema.mem_searched.mp hg
    rintro hop (_ | ⟨_, hhop⟩)
    · exact hs.contains_of_related he hmem hrelated
    · exact ih hop hhop

/-- The empty text is no path, since no field has an empty name. -/
theorem Schema.Leads.parts_eq {s : Schema} (hs : Schema.Built models s) (hnames : PlainNames models)
    {depth : Nat} {model path : String} {hops : List Hop} {f : Field}
    (h : s.Leads depth model (Path.segments path) hops f) :
    Path.parts path = Path.segments path := by
  refine Path.parts_of_ne ?_
  rintro rfl
  have hempty : ∀ g ∈ s.searched model, g.name ≠ "" := by
    intro g hg
    obtain ⟨e, he, hmem, -⟩ := Schema.mem_searched.mp hg
    obtain ⟨m, hm, hfield⟩ := hs.exists_declaration he hmem
    exact (hnames m hm g hfield).1
  have hsegments : Path.segments "" = [""] := by decide
  rw [hsegments] at h
  generalize hnil : [""] = segments at h
  cases h with
  | field hf => exact hempty _ hf (List.cons.inj hnil).1.symm
  | hop hg => exact hempty _ hg (List.cons.inj hnil).1.symm

/-- A path has a place in entries iff its segments lead to its field. -/
theorem Schema.indexedPath_iff {s : Schema} (hs : Schema.Built models s) {model : String}
    (hmodel : s.contains model = true) {resolved : ResolvedPath} :
    s.IndexedPath model resolved ↔ s.Leads maxRelationDepth model (Path.segments resolved.path)
        resolved.hops resolved.field ∧
      s.follow .search model (Path.segments resolved.path) =
        .ok (resolved.hops, resolved.model, resolved.field) := by
  constructor
  · intro h
    have hfollow := follow_of_resolve h.resolves
    exact ⟨(leads_iff hs).mpr ⟨⟨_, hfollow⟩, h.hops_le, h.searchable, h.plain⟩, hfollow⟩
  · rintro ⟨hleads, hfollow⟩
    obtain ⟨-, hdepth, hhops, hplain⟩ := (leads_iff hs).mp hleads
    exact ⟨(resolve_eq_ok_iff hmodel).mpr ⟨_, hfollow, rfl⟩, hdepth, hhops, hplain⟩

/-- **What an entry holds.** Over a built schema whose field names are neither empty nor contain a
dot, and a store that any writes have made, let the type of a record have a searchable field. Then
its entry is derived. Under each path that has a place there, the entry holds the tokens of the
field at its end over the records that the path leads to, in the order in which relations name
them, with the product of the boosts along the path; if there are no tokens the path does not
occur. Every path occurs at most once, and no path occurs that has no place there. -/
theorem entry_of_paths {schema : Schema} (hschema : Schema.ofModels models = .ok schema)
    (hnames : PlainNames models) (ws : List StoreWrite) {r : Record}
    (hr : schema.isIndexed r.model = true) :
    let st := (Store.empty schema).after ws
    ∃ e, buildEntry st r = .ok (some e) ∧ e.pk = r.pk ∧ e.model = r.model ∧
      (e.fields.map FieldContent.path).Nodup ∧
      (∀ resolved, schema.IndexedPath r.model resolved →
        ∃ ends, reached st resolved.hops [r] = .ok ends ∧
          let tokens := ends.flatMap fun x => (resolved.field.valueOf x).tokens
          (e.fields.find? fun c => c.path == resolved.path) =
            if tokens.isEmpty then none
            else some ⟨resolved.path, boostAlong 1.0 resolved.hops resolved.field, tokens⟩) ∧
      ∀ c ∈ e.fields, ∃ resolved, resolved.path = c.path ∧
        schema.IndexedPath r.model resolved := by
  intro st
  have hsame : st.schema = schema := Store.schema_after _ ws
  rw [← hsame] at hr ⊢
  have hs : Schema.Built models st.schema := hsame ▸ Schema.built_of_ofModels hschema
  have hmodel := Schema.contains_of_isIndexed hr
  obtain ⟨entry, hentry⟩ := Schema.contains_iff.mp hmodel
  refine ⟨_, (buildEntry_eq hs hentry).trans (congrArg Except.ok (if_pos hr)), rfl, rfl,
    nodup_foldl_addContent _, fun resolved hresolved => ?_, fun c hc => ?_⟩
  · have hleads := ((Schema.indexedPath_iff hs hmodel).mp hresolved).1
    refine ⟨_, reached_eq (hleads.contains_target hs) [r], ?_⟩
    refine (find?_foldl_addContent _ [] resolved.path).trans ?_
    rw [filter_contents hs hnames hleads r 1.0 (hleads.parts_eq hs hnames)]
    exact foldl_gain_of_same _ _ _ _
  · obtain ⟨met, hmet, hpath⟩ := path_of_mem_foldl_addContent hc
    obtain ⟨segments, hops, f, hleads, hparts⟩ := leads_of_mem_contents hs hnames hmet
    have hsegments : Path.segments c.path = segments := by
      rw [← hpath, ← Path.parts_of_ne, hparts]
      · rfl
      · rintro hempty
        rw [hempty] at hparts
        exact hleads.ne_nil hparts.symm
    rw [← hsegments] at hleads
    obtain ⟨last, hfollow⟩ := ((Schema.leads_iff hs).mp hleads).1
    exact ⟨⟨c.path, hops, last, f⟩, rfl, (Schema.indexedPath_iff hs hmodel).mpr ⟨hleads, hfollow⟩⟩

def nameField : Field := Field.search "name"

def friendsField : Field := { Field.related "friends" "Person" with boost := 0.5 }

def titleField : Field := { Field.search "title" with boost := 2.0 }

def authorsField : Field := Field.related "authors" "Person"

/-- People with friends, who are people, and books with authors. -/
def friendlyModels : List Model :=
  [⟨"Person", none, [nameField, friendsField]⟩, ⟨"Book", none, [titleField, authorsField]⟩]

def friendlySchema : Schema where
  entries :=
    [⟨⟨"Person", none, [nameField, friendsField]⟩, [], [], [nameField, friendsField]⟩,
      ⟨⟨"Book", none, [titleField, authorsField]⟩, [], [], [titleField, authorsField]⟩]

def person (pk : Key) (name : String) (friends : List Key) : Record :=
  ⟨"Person", pk, SortedMap.ofList [("name", .text name)], SortedMap.ofList [("friends", friends)]⟩

/-- A book with two authors and one that is not stored. -/
def engines : Record :=
  ⟨"Book", 5, SortedMap.ofList [("title", .text "On engines")],
    SortedMap.ofList [("authors", [1, 9, 2])]⟩

/-- Ada is a friend of hers, and Mary has one that is not stored. -/
def befriending : List StoreWrite :=
  [.insert (person 1 "Ada Byron" [2, 1]), .insert (person 2 "Mary" [1, 7])]

/-- The names of the friends of authors. -/
def friendNames : ResolvedPath where
  path := "authors.friends.name"
  hops := [⟨"Book", authorsField, "Person"⟩, ⟨"Person", friendsField, "Person"⟩]
  model := "Person"
  field := nameField

/-- Friends count once for each author, and friends of friends are too far away. -/
theorem entry_of_paths_engines :
    let st := (Store.empty friendlySchema).after befriending
    (Schema.ofModels friendlyModels = .ok friendlySchema ∧ PlainNames friendlyModels ∧
      friendlySchema.isIndexed engines.model = true ∧
      friendlySchema.IndexedPath engines.model friendNames) ∧
    ∃ e ends, buildEntry st engines = .ok (some e) ∧
      e.fields.map FieldContent.path = ["title", "authors.name", "authors.friends.name"] ∧
      reached st friendNames.hops [engines] = .ok ends ∧ ends.map Record.pk = [2, 1, 1] ∧
      (e.fields.find? fun c => c.path == friendNames.path) =
        some ⟨"authors.friends.name", 0.5, ["mary", "ada", "byron", "ada", "byron"]⟩ := by
  intro st
  have hschema : Schema.ofModels friendlyModels = .ok friendlySchema := by with_unfolding_all rfl
  have hnames : PlainNames friendlyModels := by
    unfold PlainNames
    decide
  have hindexed : friendlySchema.isIndexed engines.model = true := by decide
  have hpath : friendlySchema.IndexedPath engines.model friendNames := by
    refine ⟨by with_unfolding_all rfl, by decide, ?_, rfl⟩
    decide
  obtain ⟨e, he, -, -, -, hfields, -⟩ := entry_of_paths hschema hnames befriending hindexed
  obtain ⟨ends, hends, hfound⟩ := hfields friendNames hpath
  have hpaths : (buildEntry st engines).toOption.map (fun e => e.map fun e =>
      e.fields.map FieldContent.path) =
      some (some ["title", "authors.name", "authors.friends.name"]) := by decide +kernel
  rw [he] at hpaths
  have hpks : reached st friendNames.hops [engines] =
      .ok [person 2 "Mary" [1, 7], person 1 "Ada Byron" [2, 1], person 1 "Ada Byron" [2, 1]] := by
    decide +kernel
  obtain rfl := Except.ok.inj (hpks.symm.trans hends)
  refine ⟨⟨hschema, hnames, hindexed, hpath⟩, e, _, he, Option.some.inj (Option.some.inj hpaths),
    hends, rfl, hfound.trans ?_⟩
  decide +kernel

end Concordance
