import Concordance.Proofs.Document.Paths
import Concordance.Proofs.Document.Texts

/-!
# Paths that are filled

A search may be restricted to any path that resolves for searching, and only the last segment of
the path has to be searchable for that. Entries are filled by another walk, which follows searchable
relations only, and no more than `maxRelationDepth` of them. So a path that resolves and ends in a
field that is no relation is filled exactly if it goes the way of that walk
(`Schema.indexedPath_iff_followed`). On it the walk misses nothing that the path reads; off it the
walk never comes to the path, whatever the store holds.

* `Leads.exists_arrival`: what a path reads is shown by a record that its relations arrive at.
* **`filled_if_followed`**: a path that is followed holds all tokens that it reads, in their order,
  and any other is not filled.
* `unfilled_though_resolved`: a path that leaves the walk by depth, and one that leaves it by a
  relation, both resolve for searching.
-/

namespace Concordance

variable {models : List Model} {st : Store}

/-- The relations of a path are those that entries are filled through. -/
def ResolvedPath.Followed (resolved : ResolvedPath) : Prop :=
  resolved.hops.length ≤ maxRelationDepth ∧ ∀ hop ∈ resolved.hops, hop.field.searchable = true

instance (resolved : ResolvedPath) : Decidable resolved.Followed :=
  inferInstanceAs (Decidable (_ ∧ _))

/-- A path that resolves for searching, and ends in a field that is no relation, has a place in
entries if its relations are followed. -/
theorem Schema.indexedPath_iff_followed {s : Schema} {model path : String} {resolved : ResolvedPath}
    (h : s.resolve model path .search = .ok resolved) (hplain : resolved.field.related? = none) :
    s.IndexedPath model resolved ↔ resolved.Followed := by
  obtain ⟨found, -, hfound⟩ := (resolve_eq_ok_iff (contains_of_resolve h)).mp h
  have hpath : resolved.path = path := by rw [hfound]
  constructor
  · intro hindexed
    exact ⟨hindexed.hops_le, hindexed.searchable⟩
  · rintro ⟨hdepth, hhops⟩
    exact ⟨hpath ▸ h, hdepth, hhops, hplain⟩

/-! ## What a path reads -/

/-- **What a path reads is shown by a record that its relations arrive at.** -/
theorem Schema.Leads.exists_arrival (hs : Schema.Built models st.schema) (hst : st.Filed)
    {depth : Nat} {model : String} {segments : List String} {hops : List Hop} {f : Field}
    (h : st.schema.Leads depth model segments hops f) {r : Record} {v : Value}
    (hreads : st.Reads model segments r v) : ∃ x ∈ arrivals st hops [r], v = f.valueOf x := by
  induction h generalizing r with
  | @field depth model f hf hplain =>
    obtain ⟨e, he, hmem, -⟩ := Schema.mem_searched.mp hf
    have hfield := hs.field?_eq_some_iff.mpr ⟨Schema.hasField_iff.mpr ⟨e, he, hmem⟩, rfl⟩
    have hshows := (reads_singleton_iff hfield).mp hreads
    unfold Field.Shows at hshows
    rw [hplain] at hshows
    exact ⟨r, List.mem_singleton_self r, hshows⟩
  | @hop depth model target g f segments hops hg hrelated h ih =>
    obtain ⟨e, he, hmem, -⟩ := Schema.mem_searched.mp hg
    have hfield := hs.field?_eq_some_iff.mpr ⟨Schema.hasField_iff.mpr ⟨e, he, hmem⟩, rfl⟩
    obtain ⟨next, hheld, hnext, hsub, hrest⟩ :=
      (reads_cons_iff h.ne_nil hfield hrelated).mp hreads
    obtain ⟨x, hx, hv⟩ := ih hrest
    have hfound : st.find? target next.pk = some next :=
      (Store.find?_eq_some_iff hs hst (hs.contains_of_related he hmem hrelated)).mpr
        ⟨hheld, rfl, hsub⟩
    refine ⟨x, ?_, hv⟩
    rw [arrivals, List.flatMap_singleton, arrivals_eq_flatMap, List.mem_flatMap]
    exact ⟨next, List.mem_filterMap.mpr ⟨next.pk, hnext, hfound⟩, hx⟩

/-- A type whose fields lead somewhere has a searchable field. -/
theorem Schema.Leads.isIndexed {s : Schema} {depth : Nat} {model : String} {segments : List String}
    {hops : List Hop} {f : Field} (h : s.Leads depth model segments hops f) :
    s.isIndexed model = true := by
  cases h with
  | field hf => exact isIndexed_of_mem_searched hf
  | hop hg => exact isIndexed_of_mem_searched hg

/-! ## What entries are filled with -/

/-- The contents met under a path are merged into one that has all their tokens. -/
theorem exists_content_of_arrival (hs : Schema.Built models st.schema) (hnames : PlainNames models)
    {depth : Nat} {model path : String} {hops : List Hop} {f : Field}
    (h : st.schema.Leads depth model (Path.segments path) hops f) {r x : Record}
    (hx : x ∈ arrivals st hops [r]) (htokens : (f.valueOf x).tokens ≠ []) :
    ∃ c ∈ (contents st depth model r "" 1.0).foldl addContent [],
      c.path = path ∧ (f.valueOf x).tokens <:+: c.tokens := by
  have hmerged := find?_foldl_addContent (contents st depth model r "" 1.0) [] path
  rw [filter_contents hs hnames h r 1.0 (h.parts_eq hs hnames)] at hmerged
  replace hmerged := hmerged.trans (foldl_gain_of_same _ _ _ _)
  have hinfix : (f.valueOf x).tokens <:+:
      (arrivals st hops [r]).flatMap fun x => (f.valueOf x).tokens := by
    rw [List.flatMap_def]
    exact List.infix_of_mem_flatten (List.mem_map_of_mem hx)
  rw [if_neg] at hmerged
  · exact ⟨_, List.mem_of_find?_eq_some hmerged, rfl, hinfix⟩
  · intro hempty
    rw [List.isEmpty_iff.mp hempty] at hinfix
    exact htokens (List.infix_nil.mp hinfix)

/-- Only a path that leads to a field is filled. -/
theorem leads_of_mem_merged (hs : Schema.Built models st.schema) (hnames : PlainNames models)
    {depth : Nat} {model : String} {r : Record} {c : FieldContent}
    (h : c ∈ (contents st depth model r "" 1.0).foldl addContent []) :
    ∃ hops f, st.schema.Leads depth model (Path.segments c.path) hops f := by
  obtain ⟨met, hmet, hpath⟩ := path_of_mem_foldl_addContent h
  obtain ⟨segments, hops, f, hleads, hparts⟩ := leads_of_mem_contents hs hnames hmet
  rw [hpath] at hparts
  have hsome : c.path ≠ "" := by
    intro hempty
    rw [hempty] at hparts
    exact hleads.ne_nil hparts.symm
  have hsegments : Path.segments c.path = segments := (Path.parts_of_ne hsome).symm.trans hparts
  exact ⟨hops, f, hsegments ▸ hleads⟩

/-- **Which paths are filled.** Over a built schema whose field names are neither empty nor contain a
dot, and a store that any writes have made, let a path resolve for searching on the type of a record
and end in a field that is no relation. If its relations are followed, then whatever the path reads
that has tokens puts these, one after the other, into the entry of the record under exactly that
path. If they are not, the entry never has the path. -/
theorem filled_if_followed {schema : Schema} (hschema : Schema.ofModels models = .ok schema)
    (hnames : PlainNames models) (ws : List StoreWrite) {r : Record} {path : String}
    {resolved : ResolvedPath} (hresolved : schema.resolve r.model path .search = .ok resolved)
    (hplain : resolved.field.isRelation = false) :
    let st := (Store.empty schema).after ws
    (resolved.Followed → ∀ v, st.Reads r.model (Path.segments path) r v → v.tokens ≠ [] →
      ∃ e, buildEntry st r = .ok (some e) ∧
        ∃ c ∈ e.fields, c.path = path ∧ v.tokens <:+: c.tokens) ∧
    (¬resolved.Followed →
      ∃ e?, buildEntry st r = .ok e? ∧ ∀ e, e? = some e → ∀ c ∈ e.fields, c.path ≠ path) := by
  intro st
  obtain ⟨hsame, hst⟩ : st.schema = schema ∧ st.Filed := Store.schema_and_filed rfl
  rw [← hsame] at hschema hresolved
  have hs : Schema.Built models st.schema := Schema.built_of_ofModels hschema
  have hmodel := Schema.contains_of_resolve hresolved
  obtain ⟨entry, hentry⟩ := Schema.contains_iff.mp hmodel
  have hmade : buildEntry st r = _ := buildEntry_eq hs hentry
  have hend : resolved.field.related? = none := by
    rwa [Field.isRelation, Option.isSome_eq_false_iff, Option.isNone_iff_eq_none] at hplain
  have hindexed := Schema.indexedPath_iff_followed hresolved hend
  have hpath : resolved.path = path := by
    obtain ⟨found, -, hfound⟩ := (Schema.resolve_eq_ok_iff hmodel).mp hresolved
    rw [hfound]
  constructor
  · intro hfollowed v hreads htokens
    obtain ⟨hleads, -⟩ := (Schema.indexedPath_iff hs hmodel).mp (hindexed.mpr hfollowed)
    rw [hpath] at hleads
    rw [if_pos hleads.isIndexed] at hmade
    obtain ⟨x, hx, rfl⟩ := hleads.exists_arrival hs hst hreads
    exact ⟨_, hmade, exists_content_of_arrival hs hnames hleads hx htokens⟩
  · intro hfollowed
    refine ⟨_, hmade, ?_⟩
    intro e he c hc hcpath
    refine hfollowed (hindexed.mp ?_)
    split at he
    · cases he
      obtain ⟨hops, f, hleads⟩ := leads_of_mem_merged hs hnames hc
      -- the segments of the path are followed to one end, and so it is the one of the content
      have hfollow := Schema.follow_of_resolve hresolved
      obtain ⟨⟨last, hlast⟩, -⟩ := (Schema.leads_iff hs).mp hleads
      rw [hcpath, hfollow] at hlast
      cases hlast
      refine (Schema.indexedPath_iff hs hmodel).mpr ⟨?_, ?_⟩
      · rwa [hpath, ← hcpath]
      · rwa [hpath]
    · nomatch he

/-- The relation of a book to its owner is there for filters only. -/
def ownerField : Field := { Field.related "owner" "Person" with searchable := false }

/-- People with friends, and books with authors and an owner. -/
def lendingModels : List Model :=
  [⟨"Person", none, [nameField, friendsField]⟩,
    ⟨"Book", none, [titleField, authorsField, ownerField]⟩]

def lendingSchema : Schema where
  entries :=
    [⟨⟨"Person", none, [nameField, friendsField]⟩, [], [], [nameField, friendsField]⟩,
      ⟨⟨"Book", none, [titleField, authorsField, ownerField]⟩, [], [],
        [titleField, authorsField, ownerField]⟩]

def ada : Record := person 1 "Ada" [3, 9, 2]

def mary : Record := person 2 "Mary" [3]

def grace : Record := person 3 "Grace" []

/-- Ada has two friends and one that is not stored, and one of the two is a friend of the other. -/
def lending : List StoreWrite := [.insert ada, .insert mary, .insert grace]

def lendingStore : Store := (Store.empty lendingSchema).after lending

/-- A book by Ada that Grace owns. -/
def lent : Record :=
  ⟨"Book", 5, SortedMap.ofList [("title", .text "Engines")],
    SortedMap.ofList [("authors", [1]), ("owner", [3])]⟩

/-- The names of the friends of authors. -/
def friendNamesOfBook : ResolvedPath where
  path := "authors.friends.name"
  hops := [⟨"Book", authorsField, "Person"⟩, ⟨"Person", friendsField, "Person"⟩]
  model := "Person"
  field := nameField

/-- The names of the friends of the friends of authors. -/
def distantNamesOfBook : ResolvedPath where
  path := "authors.friends.friends.name"
  hops := [⟨"Book", authorsField, "Person"⟩, ⟨"Person", friendsField, "Person"⟩,
    ⟨"Person", friendsField, "Person"⟩]
  model := "Person"
  field := nameField

def ownerName : ResolvedPath where
  path := "owner.name"
  hops := [⟨"Book", ownerField, "Person"⟩]
  model := "Person"
  field := nameField

theorem ofModels_lendingModels : Schema.ofModels lendingModels = .ok lendingSchema := by
  with_unfolding_all rfl

theorem plainNames_lendingModels : PlainNames lendingModels := by
  unfold PlainNames
  decide

theorem holds_lending : ∀ r ∈ [ada, mary, grace], lendingStore.Holds r := by
  have hget : ∀ r ∈ [ada, mary, grace], (lendingStore.family "Person").get? r.pk = some r := by
    decide +kernel
  intro r hr
  exact ⟨"Person", hget r hr⟩

theorem reads_name (r : Record) : lendingStore.Reads "Person" ["name"] r (nameField.valueOf r) :=
  .value rfl rfl

/-- Mary is a friend of the author of the book. -/
theorem reads_of_mary {rest : List String} {v : Value}
    (h : lendingStore.Reads "Person" rest mary v) :
    lendingStore.Reads "Book" ("authors" :: "friends" :: rest) lent v := by
  have hada := holds_lending ada (by simp)
  have hmary := holds_lending mary (by simp)
  refine .hop (f := authorsField) rfl rfl (by decide) hada (by decide) ?_
  exact .hop (f := friendsField) rfl rfl (by decide) hmary (by decide) h

theorem reads_friendNamesOfBook :
    lendingStore.Reads "Book" (Path.segments "authors.friends.name") lent (.text "Mary") := by
  have hsegments : Path.segments "authors.friends.name" = ["authors", "friends", "name"] := by
    decide
  rw [hsegments]
  exact reads_of_mary (reads_name mary)

/-- Grace is a friend of Mary. -/
theorem reads_distantNamesOfBook :
    lendingStore.Reads "Book" (Path.segments "authors.friends.friends.name") lent
      (.text "Grace") := by
  have hsegments : Path.segments "authors.friends.friends.name" =
      ["authors", "friends", "friends", "name"] := by decide
  have hgrace := holds_lending grace (by simp)
  rw [hsegments]
  refine reads_of_mary ?_
  exact .hop (f := friendsField) rfl rfl (by decide) hgrace (by decide) (reads_name grace)

theorem reads_ownerName :
    lendingStore.Reads "Book" (Path.segments "owner.name") lent (.text "Grace") := by
  have hsegments : Path.segments "owner.name" = ["owner", "name"] := by decide
  have hgrace := holds_lending grace (by simp)
  rw [hsegments]
  exact .hop (f := ownerField) rfl rfl (by decide) hgrace (by decide) (reads_name grace)

/-- The book is found by the friend of its author, and not by its owner. -/
theorem filled_if_followed_lending :
    (Schema.ofModels lendingModels = .ok lendingSchema ∧ PlainNames lendingModels ∧
      lendingSchema.resolve lent.model "authors.friends.name" .search = .ok friendNamesOfBook ∧
      lendingSchema.resolve lent.model "owner.name" .search = .ok ownerName ∧
      nameField.isRelation = false ∧ friendNamesOfBook.Followed ∧ ¬ownerName.Followed ∧
      lendingStore.Reads "Book" (Path.segments "authors.friends.name") lent (.text "Mary") ∧
      (Value.text "Mary").tokens = ["mary"]) ∧
    (∃ e, buildEntry lendingStore lent = .ok (some e) ∧
      ∃ c ∈ e.fields, c.path = "authors.friends.name" ∧ ["mary"] <:+: c.tokens) ∧
    ∃ e?, buildEntry lendingStore lent = .ok e? ∧
      ∀ e, e? = some e → ∀ c ∈ e.fields, c.path ≠ "owner.name" := by
  have hfriends : lendingSchema.resolve lent.model "authors.friends.name" .search =
      .ok friendNamesOfBook := by with_unfolding_all rfl
  have howner : lendingSchema.resolve lent.model "owner.name" .search = .ok ownerName := by
    with_unfolding_all rfl
  have hfollowed : friendNamesOfBook.Followed := by decide
  have hleft : ¬ownerName.Followed := by decide
  have htokens : (Value.text "Mary").tokens = ["mary"] := by decide +kernel
  have hsome : (Value.text "Mary").tokens ≠ [] := by
    rw [htokens]
    decide
  obtain ⟨hfilled, -⟩ :=
    filled_if_followed ofModels_lendingModels plainNames_lendingModels lending hfriends rfl
  obtain ⟨-, hempty⟩ :=
    filled_if_followed ofModels_lendingModels plainNames_lendingModels lending howner rfl
  obtain ⟨e, he, c, hc, hpath, hinfix⟩ := hfilled hfollowed _ reads_friendNamesOfBook hsome
  rw [htokens] at hinfix
  exact ⟨⟨ofModels_lendingModels, plainNames_lendingModels, hfriends, howner, rfl, hfollowed, hleft,
    reads_friendNamesOfBook, htokens⟩, ⟨e, he, c, hc, hpath, hinfix⟩, hempty hleft⟩

/-- Grace's name is read along two paths that resolve for searching, and the book has neither: the
one goes through three relations, and the other through one that is not searchable. -/
theorem unfilled_though_resolved :
    Schema.ofModels lendingModels = .ok lendingSchema ∧ PlainNames lendingModels ∧
    ∀ resolved ∈ [distantNamesOfBook, ownerName],
      lendingSchema.resolve lent.model resolved.path .search = .ok resolved ∧
      resolved.field.isRelation = false ∧
      lendingStore.Reads lent.model (Path.segments resolved.path) lent (.text "Grace") ∧
      (Value.text "Grace").tokens = ["grace"] ∧
      ¬∃ e, buildEntry lendingStore lent = .ok (some e) ∧
        ∃ c ∈ e.fields, c.path = resolved.path ∧ ["grace"] <:+: c.tokens := by
  have hpaths : (buildEntry lendingStore lent).toOption.map
      (fun e => e.map fun e => e.fields.map FieldContent.path) =
      some (some ["title", "authors.name", "authors.friends.name"]) := by decide +kernel
  have hempty : ∀ path ∉ ["title", "authors.name", "authors.friends.name"],
      ¬∃ e, buildEntry lendingStore lent = .ok (some e) ∧
        ∃ c ∈ e.fields, c.path = path ∧ ["grace"] <:+: c.tokens := by
    rintro path hpath ⟨e, he, c, hc, rfl, -⟩
    rw [he] at hpaths
    have hfields := Option.some.inj (Option.some.inj hpaths)
    exact hpath (hfields ▸ List.mem_map_of_mem hc)
  have htokens : (Value.text "Grace").tokens = ["grace"] := by decide +kernel
  refine ⟨ofModels_lendingModels, plainNames_lendingModels, ?_⟩
  simp only [List.forall_mem_cons, List.not_mem_nil, false_implies, implies_true, and_true]
  constructor
  · exact ⟨by with_unfolding_all rfl, rfl, reads_distantNamesOfBook, htokens,
      hempty _ (by decide)⟩
  · exact ⟨by with_unfolding_all rfl, rfl, reads_ownerName, htokens, hempty _ (by decide)⟩

end Concordance
