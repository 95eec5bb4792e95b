import Concordance.Proofs.RecordSet.Failures
import Concordance.Proofs.Session.Findable

/-!
# Searches that find nothing by their form

A search for a blank text, or for records of a model without an indexed family, is answered without
an evaluation. The check looks at the text as a whole and at the declarations; the evaluation would
cut the text into words and look at what is indexed. After a rebuild the two agree:

* A text is blank exactly if it has no words (`Text.words_eq_nil_iff`), that is, if the query made
  of it is the one that nothing matches (`normalize_plainText_eq_matchNone_iff`).
* In the index of a family stand stored records of indexed types only. Where no type below a model
  is indexed, none of the model's records stands there, also if types beside it are indexed. So
  nothing is in the scope, and a query that everything matches has no hits either.

* **`nothing_in_full`**: an acceptable search that is answered without an evaluation would find
  nothing if it were evaluated.
-/

namespace Concordance

/-! ## Blank texts -/

theorem NormalQuery.ofWords_eq_matchNone_iff {operator : Operator} {words : List String}
    {boost : Float32} : NormalQuery.ofWords operator words boost = .matchNone ↔ words = [] := by
  cases words with
  | nil => exact ⟨fun _ => rfl, fun _ => rfl⟩
  | cons word words =>
    refine ⟨fun h => ?_, fun h => nomatch h⟩
    cases operator <;> nomatch h

/-- **A text is blank exactly if it normalizes to the query that nothing matches.** -/
theorem normalize_plainText_eq_matchNone_iff (text : String) (operator : Operator)
    (boost : Float32) :
    (Query.plainText text operator boost).normalize = .matchNone ↔ Text.blank text = true :=
  NormalQuery.ofWords_eq_matchNone_iff.trans Text.words_eq_nil_iff

/-! ## Acceptable searches -/

/-- The set, the fields, the operator and the boosts of a search are all right. -/
structure Acceptable (s : Schema) (query : SearchQuery) (records : RecordSet)
    (options : SearchOptions) (operator : Operator) : Prop where
  valid : records.validate s = .ok ()
  operator_eq : Operator.read options.operator = .ok operator
  fields : ∀ fields, options.fields = some fields →
    ∃ paths, s.resolveAll records.model fields .search = .ok paths
  boosts : (query.toQuery operator).normalize.checkBoosts = .ok ()

/-- The search, checked and not cut short. -/
def CompiledSearch.inFull (query : SearchQuery) (records : RecordSet) (options : SearchOptions)
    (operator : Operator) : CompiledSearch :=
  ⟨records, (query.toQuery operator).normalize, options.fields, options.byRelevance⟩

section Acceptable

variable {s : Schema} {query : SearchQuery} {records : RecordSet} {options : SearchOptions}
  {operator : Operator}

theorem Acceptable.contains (h : Acceptable s query records options operator) :
    s.contains records.model = true := by
  obtain ⟨model, predicate, ordering, foreign⟩ := records
  exact (validate_iff.mp h.valid).1

/-- An acceptable search is cut short exactly if the model has no indexed family or the text is
blank. -/
theorem compileSearch_of_acceptable (h : Acceptable s query records options operator) :
    compileSearch s query records options =
      .ok (if s.hasIndexedFamily records.model = true ∧ query.isBlank = false
        then some (.inFull query records options operator) else none) := by
  obtain ⟨e, he⟩ := Schema.contains_iff.mp h.contains
  have hdeclared : s.model records.model = .ok e.model := by
    unfold Schema.model Schema.entry
    rw [he]
    rfl
  unfold compileSearch
  rw [hdeclared]
  cases hindexed : s.hasIndexedFamily records.model with
  | false => rfl
  | true =>
    cases hblank : query.isBlank with
    | true => rfl
    | false =>
      refine Eq.trans ?_ (congrArg Except.ok (if_pos ⟨rfl, rfl⟩).symm)
      rw [h.operator_eq, h.valid]
      cases hfields : options.fields with
      | none =>
        show ((query.toQuery operator).normalize.checkBoosts >>= fun _ => Except.ok (some _)) = _
        rw [h.boosts, CompiledSearch.inFull, hfields]
        rfl
      | some fields =>
        obtain ⟨paths, hpaths⟩ := h.fields fields hfields
        show (s.resolveAll records.model fields .search >>= fun _ =>
          (query.toQuery operator).normalize.checkBoosts >>= fun _ => Except.ok (some _)) = _
        rw [hpaths]
        show ((query.toQuery operator).normalize.checkBoosts >>= fun _ => Except.ok (some _)) = _
        rw [h.boosts, CompiledSearch.inFull, hfields]
        rfl

end Acceptable

/-! ## Evaluations without hits -/

namespace CompiledSearch

variable {c : CompiledSearch} {st : Store} {ix : InvertedIndex} {scorer : Scorer}

/-- A search finds nothing if no record of its set that is indexed has a score. -/
theorem hits_of_no_score {base : List Record} (hbase : c.records.evaluate st = .ok base)
    (h : ∀ r ∈ base, ix.contains r.pk = true →
      ((c.matcher ix scorer base).evaluate c.query).get? r.pk = none) :
    c.hits st ix scorer = .ok [] := by
  have hnone : c.hitsAmong st.schema ((c.matcher ix scorer base).evaluate c.query) base = [] := by
    refine List.eq_nil_iff_forall_not_mem.mpr fun hit hmem => ?_
    obtain ⟨r, hr, hindexed, x, hscore, -⟩ := mem_hitsAmong.mp hmem
    rw [h r hr hindexed] at hscore
    nomatch hscore
  rw [hits_of_ok hbase, hnone]
  split <;> rfl

/-- Nothing matches a blank text. -/
theorem hits_of_matchNone (hquery : c.query = .matchNone) :
    c.hits st ix scorer = (c.records.evaluate st).map fun _ => [] := by
  cases hbase : c.records.evaluate st with
  | error e => exact hits_of_error hbase ix scorer
  | ok base =>
    refine hits_of_no_score hbase fun r _ _ => ?_
    rw [hquery, Matcher.evaluate]
    rfl

/-- **Nothing is found of a model without an indexed family**, where the index is up to date,
whatever the query. -/
theorem hits_of_plain {models : List Model} (hs : Schema.Built models st.schema) (hst : st.Filed)
    {root : String} (hroot : st.schema.rootOf c.model = .ok root) {f : FamilyIndex}
    (hf : f.UpToDate st root) (hplain : st.schema.hasIndexedFamily c.model = false) :
    c.hits st f.index scorer = (c.records.evaluate st).map fun _ => [] := by
  cases hbase : c.records.evaluate st with
  | error e => exact hits_of_error hbase f.index scorer
  | ok base =>
    refine hits_of_no_score hbase fun r hr hindexed => ?_
    obtain ⟨⟨top, htop, hstored⟩, -⟩ := base_of_evaluate hst hbase
    obtain rfl : root = top := Except.ok.inj (hroot.symm.trans htop)
    obtain ⟨hget, hsub⟩ := hstored r hr
    obtain ⟨q, hq, hq_indexed⟩ := (hf.contains r.pk).mp hindexed
    obtain rfl : r = q := Option.some.inj (hget.symm.trans hq)
    -- the type of the record would make the family of the model an indexed one
    have hfamily := (hs.hasIndexedFamily_iff_isSubtype (Schema.contains_of_rootOf hroot)).mpr
      ⟨r.model, hsub, hq_indexed⟩
    exact Bool.noConfusion (hfamily.symm.trans hplain)

end CompiledSearch

namespace Session

variable {models : List Model} {s : Session} {n : Nat} {query : SearchQuery} {records : RecordSet}
  {options : SearchOptions} {operator : Operator}

/-- A search that compiles, evaluated after a rebuild. -/
theorem evaluate_rebuilt (hcurrent : s.current < s.backends.length) {c : CompiledSearch}
    {root : String} (hroot : s.store.schema.rootOf c.model = .ok root) (n : Nat) :
    let b := ((Backend.rebuild s.store n).perform (s.backend s.current)).2
    ((Command.backend s.current (.rebuild n)).next s).evaluate s.current (some c) =
      c.hits s.store (b.index root).index b.scorer := by
  intro b
  have hb : ((Command.backend s.current (.rebuild n)).next s).backend s.current = b :=
    backend_rebuild hcurrent n
  rw [← hb]
  exact congrArg (fun out : Result String => out.bind fun root =>
    (Session.source ((Command.backend s.current (.rebuild n)).next s)
      ⟨s.current, root, c⟩).fetch ()) hroot

section Rebuilt

variable (hs : Schema.Built models s.store.schema) (hst : s.store.Filed)
  (hcurrent : s.current < s.backends.length) (hb : (s.backend s.current).Labelled) (hn : 0 < n)
  (h : Acceptable s.store.schema query records options operator)

include hs hst hcurrent hb hn h

/-- **What is cut short would find nothing**, whatever the query. -/
theorem evaluate_inFull
    (hnone : compileSearch s.store.schema query records options = .ok none) :
    ((Command.backend s.current (.rebuild n)).next s).evaluate s.current
        (some (.inFull query records options operator)) =
      (records.evaluate s.store).map fun _ => [] := by
  obtain ⟨root, hroot⟩ := Schema.exists_rootOf h.contains
  rw [evaluate_rebuilt (c := .inFull query records options operator) hcurrent hroot n]
  cases hindexed : s.store.schema.hasIndexedFamily records.model with
  | false =>
    exact CompiledSearch.hits_of_plain (c := .inFull query records options operator) hs hst hroot
      (Backend.upToDate_rebuild hs hst hb hn root) hindexed
  | true =>
    -- the search was cut short because of its text
    have hblank : query.isBlank = true := by
      refine Bool.eq_true_of_not_eq_false fun hvisible => ?_
      rw [compileSearch_of_acceptable h, if_pos ⟨hindexed, hvisible⟩] at hnone
      nomatch hnone
    refine CompiledSearch.hits_of_matchNone ?_
    cases query with
    | text text => exact (normalize_plainText_eq_matchNone_iff text operator 1.0).mpr hblank
    | query q => nomatch hblank

end Rebuilt

/-- A search that is cut short answers with no hits. -/
theorem answer_find_of_none
    (hnone : compileSearch s.store.schema query records options = .ok none) :
    (Command.find query records options).answer s = .ok (.hits []) := by
  have hsought : s.sought query records options = .ok none := by
    unfold sought
    rw [hnone]
    rfl
  rw [answer_find, hsought]

/-- **What is cut short would find nothing.** Let a session over a built schema hold a store that
any writes have made, and rebuild its backend, whatever state that was in. An acceptable search is
cut short or compiles in full. If it is cut short, it answers with no hits, and so would its
evaluation in full, for every query: it fails only as the set of records does, and succeeds without
hits if all keys are signed integers of 64 bits and what the set selects can be sorted. For a text
and a model with an indexed family, it is cut short exactly if the text normalizes to the query that
nothing matches. -/
theorem nothing_in_full {schema : Schema} (hs : Schema.ofModels models = .ok schema)
    {ws : List StoreWrite} (hstore : s.store = (Store.empty schema).after ws)
    (hcurrent : s.current < s.backends.length) (hb : (s.backend s.current).Labelled) (hn : 0 < n)
    (h : Acceptable schema query records options operator) :
    let rebuilt := (Command.backend s.current (.rebuild n)).next s
    let compiled := compileSearch schema query records options
    let full := CompiledSearch.inFull query records options operator
    (compiled = .ok none ∨ compiled = .ok (some full)) ∧
    (compiled = .ok none →
      (Command.find query records options).answer rebuilt = .ok (.hits []) ∧
      rebuilt.evaluate s.current (some full) = (records.evaluate s.store).map (fun _ => []) ∧
      (s.store.KeysFit → records.Sorts s.store →
        rebuilt.evaluate s.current (some full) = .ok [])) ∧
    ∀ text, query = .text text → schema.hasIndexedFamily records.model = true →
      ∀ op boost, compiled = .ok none ↔
        (Query.plainText text op boost).normalize = .matchNone := by
  intro rebuilt compiled full
  obtain ⟨rfl, hfiled⟩ := Store.schema_and_filed hstore
  have hbuilt := Schema.built_of_ofModels hs
  have hcompiled : compiled = _ := compileSearch_of_acceptable h
  refine ⟨?_, fun hnone => ?_, fun text htext hindexed op boost => ?_⟩
  · rw [hcompiled]
    split
    · exact Or.inr rfl
    · exact Or.inl rfl
  · have hevaluated := evaluate_inFull hbuilt hfiled hcurrent hb hn h hnone
    refine ⟨answer_find_of_none (s := rebuilt) hnone, hevaluated, fun hkeys hsorts => ?_⟩
    obtain ⟨base, hbase, -⟩ := exists_evaluate hbuilt hfiled hkeys h.valid hsorts
    refine hevaluated.trans ?_
    rw [hbase]
    rfl
  · subst htext
    rw [normalize_plainText_eq_matchNone_iff, hcompiled, hindexed]
    cases hblank : Text.blank text with
    | true =>
      rw [if_neg fun hboth => Bool.noConfusion (hblank.symm.trans hboth.2)]
      exact ⟨fun _ => rfl, fun _ => rfl⟩
    | false =>
      rw [if_pos ⟨rfl, hblank⟩]
      exact ⟨fun hnone => (nomatch hnone), fun hfalse => (nomatch hfalse)⟩

/-- Books, a leaflet and a shelf are stored, and the index of the books is out of date. -/
def stockroom : Session :=
  ofStore ((Store.empty librarySchema).after Backend.stocking) [] Backend.disordered

/-- Everything, told in a roundabout way. -/
def allButNothing : SearchQuery := .query (.and [.matchAll, .not (.term "tea" 1.0)])

/-- A leaflet is stored in a family of which books are indexed, and a query that it would match is
cut short; so is a blank text among the books. -/
theorem nothing_in_full_stockroom :
    let rebuilt := (Command.backend 0 (.rebuild 2)).next stockroom
    (Schema.ofModels libraryModels = .ok librarySchema ∧ (stockroom.backend 0).Labelled ∧
      0 < stockroom.backends.length ∧ stockroom.store.KeysFit ∧
      Acceptable librarySchema allButNothing (.of "Leaflet") {} .or ∧
      Acceptable librarySchema (.text " \n") (.of "Book") inTitles .or) ∧
    (RecordSet.of "Leaflet").evaluate stockroom.store = .ok [titled "Leaflet" 2 "Milk"] ∧
    ((rebuilt.backend 0).index "Book").index.entries.keys = [1, 3] ∧
    compileSearch librarySchema allButNothing (.of "Leaflet") {} = .ok none ∧
    rebuilt.evaluate 0 (some (.inFull allButNothing (.of "Leaflet") {} .or)) = .ok [] ∧
    compileSearch librarySchema (.text " \n") (.of "Book") inTitles = .ok none ∧
    rebuilt.evaluate 0 (some (.inFull (.text " \n") (.of "Book") inTitles .or)) = .ok [] := by
  intro rebuilt
  have hlabelled : (stockroom.backend 0).Labelled := Backend.labelled_disordered
  have hkeys : stockroom.store.KeysFit := by
    have hfit : ∀ r ∈ [titled "Book" 1 "Tea", titled "Leaflet" 2 "Milk", titled "Shelf" 1 "Drinks",
        titled "Book" 3 "Maté", titled "Book" 1 "Coffee"], r.KeysFit := by decide
    exact keysFit_after fun r hr => hfit r (by simpa [Backend.stocking] using hr)
  have hleaflets : Acceptable librarySchema allButNothing (.of "Leaflet") {} .or :=
    ⟨validate_of (by decide), by with_unfolding_all rfl, fun _ h => (nomatch h),
      checkBoosts_ok (by decide +kernel)⟩
  have hbooks : Acceptable librarySchema (.text " \n") (.of "Book") inTitles .or :=
    ⟨validate_of (by decide), by with_unfolding_all rfl,
      fun fields h => ⟨_, by injection h with h; subst h; with_unfolding_all rfl⟩,
      checkBoosts_ok (by decide +kernel)⟩
  have hshort : compileSearch librarySchema allButNothing (.of "Leaflet") {} = .ok none := by
    with_unfolding_all rfl
  have hblank : compileSearch librarySchema (.text " \n") (.of "Book") inTitles = .ok none := by
    with_unfolding_all rfl
  obtain ⟨-, hleaflet, -⟩ := nothing_in_full (s := stockroom) (n := 2) ofModels_libraryModels rfl
    Nat.zero_lt_one hlabelled (by decide) hleaflets
  obtain ⟨-, hbook, -⟩ := nothing_in_full (s := stockroom) (n := 2) ofModels_libraryModels rfl
    Nat.zero_lt_one hlabelled (by decide) hbooks
  exact ⟨⟨ofModels_libraryModels, hlabelled, Nat.zero_lt_one, hkeys, hleaflets, hbooks⟩,
    by decide +kernel, by decide +kernel, hshort, (hleaflet hshort).2.2 hkeys (sorts_of _), hblank,
    (hbook hblank).2.2 hkeys (sorts_of _)⟩

end Session

end Concordance
