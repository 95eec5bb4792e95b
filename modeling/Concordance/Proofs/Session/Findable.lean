import Concordance.Proofs.Backend.Rebuild
import Concordance.Proofs.Document.Paths
import Concordance.Proofs.Document.Texts
import Concordance.Proofs.Query.Normalized
import Concordance.Proofs.Session.Hits

/-!
# Records are found by their own texts

After a rebuild the entry of each stored record holds what the record tells, the tables of the
index lead to it, and a search among all records of a model finds what its query means. Texts are
indexed as wholes and queries are cut into words first, which makes no difference to the tokens.

* `compileSearch_of`: which searches among all records of a model compile.
* `find_of_rebuilt`: after a rebuild such a search finds, of the records that are indexed, those that
  its query means.
* `found_of_satisfies`: so it finds a record if the entry of the record alone decides that the query
  means it (`IndexEntry.Satisfies`).
* **`found_by_own_text`**: a record is found by each text that it tells, as a term and as words.
-/

namespace Concordance

/-! ## Searches among all records of a model -/

theorem checkBoosts_ok {q : NormalQuery} (h : ∀ t ∈ q.terms, isBoost t.2 = true) :
    q.checkBoosts = .ok () := by
  unfold NormalQuery.checkBoosts
  rw [List.find?_eq_none.mpr fun t ht => by simp [h t ht]]

/-- The boost of a term that is given none. -/
theorem isBoost_one : isBoost (1.0 * 1.0) = true := by decide +kernel

theorem isBoost_words (text : String) (operator : Operator) :
    ∀ t ∈ (Query.words text operator).normalize.terms, isBoost t.2 = true := by
  intro t ht
  have hterms : (Query.words text operator).normalize.terms = _ :=
    terms_ofWords operator (Text.words text) (1.0 * 1.0)
  rw [hterms] at ht
  obtain ⟨word, -, rfl⟩ := List.mem_map.mp ht
  exact isBoost_one

/-- A search for all records of a model compiles if the model has an indexed family, the text is not
blank and all boosts are right. -/
theorem compileSearch_of {s : Schema} {query : SearchQuery} {model : String}
    (hmodel : s.contains model = true) (hindexed : s.hasIndexedFamily model = true)
    (htext : query.isBlank = false)
    (hboosts : ∀ t ∈ (query.toQuery .or).normalize.terms, isBoost t.2 = true) :
    compileSearch s query (.of model) {} =
      .ok (some ⟨.of model, (query.toQuery .or).normalize, none, true⟩) := by
  obtain ⟨e, he⟩ := Schema.contains_iff.mp hmodel
  have hdeclared : s.model model = .ok e.model := by
    unfold Schema.model Schema.entry
    rw [he]
    rfl
  have hvalid : RecordSet.validate s ⟨model, none, [], none⟩ = .ok () := validate_of hmodel
  have hoperator : Operator.read Operator.default.text = .ok .or := by with_unfolding_all rfl
  unfold compileSearch RecordSet.of
  rw [hdeclared, hindexed, htext, hoperator, hvalid]
  show ((query.toQuery .or).normalize.checkBoosts >>= fun _ => Except.ok (some _)) = _
  rw [checkBoosts_ok hboosts]
  rfl

/-! ## Queries that an entry satisfies -/

/-- The query means the key of an entry in every index where the entry stands under it. -/
def IndexEntry.Satisfies (e : IndexEntry) (pk : Key) (q : NormalQuery) : Prop :=
  ∀ entries scope, pk ∈ scope → entries.get? pk = some e → pk ∈ meaning entries scope none q

namespace IndexEntry

variable {e : IndexEntry} {pk : Key} {words : List String} {boost : Float32}

theorem satisfies_term {term : String} (h : HoldsTerm none e term) :
    e.Satisfies pk (.term term boost) := by
  intro entries scope hscope hget
  rw [meaning]
  exact ⟨hscope, e, hget, h⟩

theorem satisfies_any {word : String} (hword : word ∈ words) (h : HoldsTerm none e word) :
    e.Satisfies pk (.ofWords .or words boost) := by
  intro entries scope hscope hget
  refine (mem_meaning_ofWords (List.ne_nil_of_mem hword)).1.mpr ⟨word, hword, ?_⟩
  exact satisfies_term h entries scope hscope hget

theorem satisfies_all (hsome : words ≠ []) (h : ∀ word ∈ words, HoldsTerm none e word) :
    e.Satisfies pk (.ofWords .and words boost) := by
  intro entries scope hscope hget
  refine (mem_meaning_ofWords hsome).2.mpr fun word hword => ?_
  exact satisfies_term (h word hword) entries scope hscope hget

end IndexEntry

/-! ## After a rebuild -/

namespace Session

variable {models : List Model} {s : Session} {n : Nat} {model : String} {query : SearchQuery}

section Rebuilt

variable (hs : Schema.Built models s.store.schema) (hst : s.store.Filed)
  (hcurrent : s.current < s.backends.length) (hb : (s.backend s.current).Labelled) (hn : 0 < n)
  (htext : query.isBlank = false)
  (hboosts : ∀ t ∈ (query.toQuery .or).normalize.terms, isBoost t.2 = true)

include hs hst hcurrent hb hn htext hboosts

/-- **After a rebuild a search finds what its query means**, among the stored records of the model
that are indexed. -/
theorem find_of_rebuilt (hmodel : s.store.schema.contains model = true)
    (hindexed : s.store.schema.hasIndexedFamily model = true) :
    ∃ root hits, s.store.schema.rootOf model = .ok root ∧
      (Command.find query (.of model) {}).answer
        ((Command.backend s.current (.rebuild n)).next s) = .ok (.hits hits) ∧
      let ix := (((Backend.rebuild s.store n).perform (s.backend s.current)).2.index root).index
      ∀ pk, pk ∈ Hits.keys hits ↔ pk ∈ meaning ix.entries
        {pk | (∃ r, (s.store.Holds r ∧ s.store.schema.isSubtype r.model model = true) ∧
          r.pk = pk) ∧ ix.contains pk = true} none (query.toQuery .or).normalize := by
  obtain ⟨base, hbase, -, hmem⟩ := Store.exists_records hs hst hmodel
  obtain ⟨root, hits, hroot, hfind, hfinds⟩ :=
    find_of_compiled (s := (Command.backend s.current (.rebuild n)).next s) hst
      (compileSearch_of hmodel hindexed htext hboosts) ((evaluate_of hmodel).trans hbase)
  refine ⟨root, hits, hroot, hfind, fun pk => ?_⟩
  have htabulated := Backend.tabulated_rebuild hs hst hb hn root
  have hbackend := backend_rebuild hcurrent n
  rw [← hbackend] at htabulated ⊢
  refine (hfinds.mem_keys_iff_meaning htabulated).trans ?_
  simp only [hmem]
  rfl

/-- **A stored record is found by each query that its entry satisfies.** -/
theorem found_of_satisfies {r : Record} {e : IndexEntry} (hr : s.store.Holds r)
    (hmodel : s.store.schema.isSubtype r.model model = true)
    (hentry : buildEntry s.store r = .ok (some e))
    (hsatisfied : e.Satisfies r.pk (query.toQuery .or).normalize) :
    ∃ hits, (Command.find query (.of model) {}).answer
        ((Command.backend s.current (.rebuild n)).next s) = .ok (.hits hits) ∧
      r.pk ∈ Hits.keys hits := by
  obtain ⟨top, htop, -⟩ := (Store.holds_iff hst).mp hr
  have hcontains := Schema.contains_of_rootOf (hs.rootOf_eq_of_isSubtype htop hmodel)
  obtain ⟨made?, hmade, hsome⟩ := exists_buildEntry hs (Schema.contains_of_rootOf htop)
  obtain rfl : some e = made? := Except.ok.inj (hentry.symm.trans hmade)
  have hindexed := (hs.hasIndexedFamily_iff_isSubtype hcontains).mpr ⟨r.model, hmodel, hsome.symm⟩
  obtain ⟨root, hits, hroot, hfind, hkeys⟩ :=
    find_of_rebuilt hs hst hcurrent hb hn htext hboosts hcontains hindexed
  obtain ⟨hget, -⟩ := (Store.holds_and_isSubtype_iff hs hst hroot).mp ⟨hr, hmodel⟩
  have hheld := ((Backend.upToDate_rebuild hs hst hb hn root).entry r.pk e).mpr ⟨r, hget, hentry⟩
  refine ⟨hits, hfind, (hkeys r.pk).mpr (hsatisfied _ _ ⟨⟨r, ⟨hr, hmodel⟩, rfl⟩, ?_⟩ hheld)⟩
  exact congrArg Option.isSome hheld

end Rebuilt

/-- **What is indexed is found by its own text.** Let a session over a built schema hold a store
that any writes have made, and rebuild its backend, whatever state that was in. Let a stored record
tell a text that has a token, by a searchable field of its own or of a record that is reached
through at most two searchable relations. Then, for the type of the record and every type above it,
the searches for the text as a term, as words any of which may be held, and as plain text find the
record. So does the search for all of the words, if each has a token. -/
theorem found_by_own_text {schema : Schema} (hs : Schema.ofModels models = .ok schema)
    {ws : List StoreWrite} (hstore : s.store = (Store.empty schema).after ws)
    (hcurrent : s.current < s.backends.length) (hb : (s.backend s.current).Labelled) (hn : 0 < n)
    {r : Record} (hr : s.store.Holds r) {text : String}
    (htells : s.store.Tells maxRelationDepth r.model r text) (htoken : tokenize text ≠ [])
    (hmodel : schema.isSubtype r.model model = true) :
    let rebuilt := (Command.backend s.current (.rebuild n)).next s
    let found (query : SearchQuery) := ∃ hits,
      (Command.find query (.of model) {}).answer rebuilt = .ok (.hits hits) ∧
        r.pk ∈ Hits.keys hits
    found (.query (.term text 1.0)) ∧ found (.query (.words text .or)) ∧ found (.text text) ∧
      ((∀ word ∈ Text.words text, tokenize word ≠ []) → found (.query (.words text .and))) := by
  intro rebuilt found
  obtain ⟨rfl, hfiled⟩ := Store.schema_and_filed hstore
  have hbuilt := Schema.built_of_ofModels hs
  obtain ⟨e, hentry, hholds⟩ := holdsTerm_of_tells hbuilt hfiled htells
  have hfound : ∀ query : SearchQuery, query.isBlank = false →
      (∀ t ∈ (query.toQuery .or).normalize.terms, isBoost t.2 = true) →
      e.Satisfies r.pk (query.toQuery .or).normalize → found query :=
    fun query htext hboosts hsatisfied =>
      found_of_satisfies hbuilt hfiled hcurrent hb hn htext hboosts hr hmodel hentry hsatisfied
  have hwords : ∀ word ∈ Text.words text, tokenize word ≠ [] → HoldsTerm none e word :=
    fun word hword hne => hholds word hne (tokenize_subset_of_mem_words hword)
  obtain ⟨word, hword, hne⟩ := exists_word_of_tokenize_ne_nil htoken
  have hsome : Text.words text ≠ [] := List.ne_nil_of_mem hword
  have hany : e.Satisfies r.pk (Query.words text .or).normalize :=
    IndexEntry.satisfies_any hword (hwords word hword hne)
  refine ⟨?_, ?_, ?_, fun hall => ?_⟩
  · refine hfound _ rfl (fun t ht => ?_) (IndexEntry.satisfies_term ?_)
    · obtain rfl := List.mem_singleton.mp ht
      exact isBoost_one
    · exact hholds text htoken (List.Subset.refl _)
  · exact hfound _ rfl (isBoost_words text .or) hany
  · have hvisible : (SearchQuery.text text).isBlank = false :=
      Bool.eq_false_of_not_eq_true fun hblank => hsome (Text.words_of_blank hblank)
    exact hfound _ hvisible (isBoost_words text .or) hany
  · refine hfound _ rfl (isBoost_words text .and) (IndexEntry.satisfies_all hsome ?_)
    exact fun word hword => hwords word hword (hall word hword)

/-- People and one book are stored, and nothing is indexed yet. -/
def readingRoom : Session :=
  ofStore ((Store.empty friendlySchema).after (befriending ++ [.insert engines])) []
    (.ofScorer flatScorer)

/-- The book tells the name of a friend of its second author. -/
theorem tells_engines : readingRoom.store.Tells maxRelationDepth "Book" engines "Ada Byron" := by
  have hpeople : readingRoom.store.schema.searched "Person" = [nameField, friendsField] := by
    with_unfolding_all rfl
  have hbooks : readingRoom.store.schema.searched "Book" = [titleField, authorsField] := by
    with_unfolding_all rfl
  have hada : readingRoom.store.Tells 0 "Person" (person 1 "Ada Byron" [2, 1]) "Ada Byron" :=
    .field (f := nameField) (by simp [hpeople]) rfl rfl
  have hmary : readingRoom.store.Tells 1 "Person" (person 2 "Mary" [1, 7]) "Ada Byron" :=
    .hop (f := friendsField) (by simp [hpeople]) rfl (by decide +kernel)
      ⟨"Person", by decide +kernel⟩ (by decide +kernel) hada
  exact .hop (f := authorsField) (by simp [hbooks]) rfl (by decide +kernel)
    ⟨"Person", by decide +kernel⟩ (by decide +kernel) hmary

/-- Once the index is rebuilt, the book is found by the name. -/
theorem found_by_own_text_engines :
    let rebuilt := (Command.backend 0 (.rebuild 2)).next readingRoom
    (Schema.ofModels friendlyModels = .ok friendlySchema ∧
      readingRoom.current < readingRoom.backends.length ∧ (readingRoom.backend 0).Labelled ∧
      0 < 2 ∧ readingRoom.store.Holds engines ∧
      readingRoom.store.Tells maxRelationDepth "Book" engines "Ada Byron" ∧
      tokenize "Ada Byron" = ["ada", "byron"] ∧ friendlySchema.isSubtype "Book" "Book" = true ∧
      ∀ word ∈ Text.words "Ada Byron", tokenize word ≠ []) ∧
    ∀ query ∈ [.query (.term "Ada Byron" 1.0), .query (.words "Ada Byron" .or), .text "Ada Byron",
        .query (.words "Ada Byron" .and)],
      ∃ hits, (Command.find query (.of "Book") {}).answer rebuilt = .ok (.hits hits) ∧
        5 ∈ Hits.keys hits := by
  intro rebuilt
  have hschema : Schema.ofModels friendlyModels = .ok friendlySchema := by with_unfolding_all rfl
  have hlabelled : (readingRoom.backend 0).Labelled := Backend.labelled_ofScorer flatScorer
  have hheld : readingRoom.store.Holds engines := ⟨"Book", by decide +kernel⟩
  have htokens : tokenize "Ada Byron" = ["ada", "byron"] := by decide +kernel
  have hsub : friendlySchema.isSubtype "Book" "Book" = true := by decide
  have hwords : ∀ word ∈ Text.words "Ada Byron", tokenize word ≠ [] := by decide +kernel
  refine ⟨⟨hschema, Nat.zero_lt_one, hlabelled, by decide, hheld, tells_engines, htokens, hsub,
    hwords⟩, ?_⟩
  obtain ⟨hterm, hor, htext, hand⟩ := found_by_own_text (s := readingRoom) (n := 2) hschema rfl
    Nat.zero_lt_one hlabelled (by decide) hheld tells_engines (by rw [htokens]; decide) hsub
  simp only [List.forall_mem_cons, List.not_mem_nil, false_imp_iff, implies_true, and_true]
  exact ⟨hterm, hor, htext, hand hwords⟩

end Session

end Concordance
