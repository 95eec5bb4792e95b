import Concordance.Proofs.Schema.Projection
import Concordance.Proofs.Session.Hits

/-!
# Records seen through supertypes

A search shows what it finds as records of the searched model. What has been found through one
model can be shown as any model above it, and comes out as a search through that model shows it:
nothing that the upper model has a field for is lost on the way, at any distance.

* `exists_of_find`: each hit is a stored record, seen as the searched model.
* `Store.eq_of_pk`: below one model there is one stored record with a key.
* **`seesThrough_of_ofModels`**: projecting to a model and then to one above it is projecting to that,
  and searches through both show a record alike.
-/

namespace Concordance

variable {models : List Model}

/-- Below one model there is one stored record with a key. -/
theorem Store.eq_of_pk {st : Store} (hs : Schema.Built models st.schema) (hst : st.Filed)
    {model : String} {r r' : Record} (hr : st.Holds r) (hr' : st.Holds r')
    (hsub : st.schema.isSubtype r.model model = true)
    (hsub' : st.schema.isSubtype r'.model model = true) (hpk : r'.pk = r.pk) : r' = r := by
  obtain ⟨root, hroot, -⟩ := (holds_iff hst).mp hr
  have htop := hs.rootOf_eq_of_isSubtype hroot hsub
  have hget := ((holds_and_isSubtype_iff hs hst htop).mp ⟨hr, hsub⟩).1
  have hget' := ((holds_and_isSubtype_iff hs hst htop).mp ⟨hr', hsub'⟩).1
  rw [hpk, hget] at hget'
  exact (Option.some.inj hget').symm

namespace Session

/-- **Each hit of a search is a stored record**, of the searched model or a type below, and seen as
that model. -/
theorem exists_of_find {s : Session} (hfiled : s.store.Filed) {query : SearchQuery}
    {records : RecordSet} {options : SearchOptions} {hits : List Hit}
    (h : (Command.find query records options).answer s = .ok (.hits hits)) {hit : Hit}
    (hhit : hit ∈ hits) :
    ∃ r, s.store.Holds r ∧ s.store.schema.isSubtype r.model records.model = true ∧
      hit.record = s.store.schema.project r records.model := by
  rw [answer_find] at h
  cases hsought : s.sought query records options with
  | error e =>
    rw [hsought] at h
    nomatch h
  | ok b? =>
    rw [hsought] at h
    obtain ⟨compiled, hcompiled, ⟨-, rfl⟩ | ⟨c, root, rfl, -, -, rfl⟩⟩ := compiled_of_sought hsought
    · cases h
      exact absurd hhit List.not_mem_nil
    obtain ⟨-, operator, -, hc⟩ := compileSearch_ok hcompiled
    have hrecords : c.records = records := by rw [hc]
    -- the hits are those of the compiled search, and so the set was evaluated
    replace h : (c.hits s.store ((s.backend s.current).index root).index
      (s.backend s.current).scorer).map Answer.hits = .ok (.hits hits) := h
    obtain ⟨found, hfound, heq⟩ := ok_of_map h
    cases heq
    obtain ⟨base, hbase, -⟩ := ok_of_bind hfound
    obtain ⟨found, hfound', hfinds⟩ := CompiledSearch.finds_of_hits hfiled hbase
      ((s.backend s.current).index root).index (s.backend s.current).scorer
    obtain rfl : found = hits := Except.ok.inj (hfound'.symm.trans hfound)
    obtain ⟨r, hr, -, x, -, rfl⟩ := (hfinds.mem_iff hit).mp hhit
    obtain ⟨⟨top, -, hheld⟩, -, -⟩ := base_of_evaluate hfiled hbase
    obtain ⟨hget, hsub⟩ := hheld r hr
    rw [hrecords] at hsub
    refine ⟨r, ⟨top, hget⟩, hsub, ?_⟩
    show s.store.schema.project r c.records.model = _
    rw [hrecords]

/-- A schema lets records be seen through the types in between. -/
structure SeesThrough (schema : Schema) : Prop where
  /-- A record seen as a type above its own, and then as one above that, is seen as the last one. -/
  through : ∀ r mid top, schema.isSubtype r.model mid = true → schema.isSubtype mid top = true →
    schema.project (schema.project r mid) top = schema.project r top
  /-- A record seen as a model is seen as that model as it stands. -/
  again : ∀ r model, schema.project (schema.project r model) model = schema.project r model
  /-- In any session, what a search through one type shows of a record comes out, seen as a type
  above, as the stored record does, and so as any search through that type shows it. -/
  shown : ∀ (s : Session) (ws : List StoreWrite), s.store = (Store.empty schema).after ws →
    ∀ query records options hits,
      (Command.find query records options).answer s = .ok (.hits hits) →
      ∀ hit ∈ hits, ∃ r, s.store.Holds r ∧ r.pk = hit.record.pk ∧
        schema.isSubtype r.model records.model = true ∧
        ∀ top, schema.isSubtype records.model top = true →
          schema.project hit.record top = schema.project r top ∧
          ∀ query' wide options' hits', wide.model = top →
            (Command.find query' wide options').answer s = .ok (.hits hits') →
            ∀ hit' ∈ hits', hit'.record.pk = hit.record.pk →
              hit'.record = schema.project hit.record top

/-- **Records are seen through supertypes.** Over a built schema, seeing a record as a type above its
own and then as one above that is seeing it as that at once, at any distance; seeing it twice as one
type is seeing it once. So a search through a type in between shows a record as a search through the
upper type does, once it is seen as that. -/
theorem seesThrough_of_ofModels {schema : Schema} (hschema : Schema.ofModels models = .ok schema) :
    SeesThrough schema := by
  have hb := Schema.built_of_ofModels hschema
  refine ⟨fun r mid top hmid htop => hb.project_project hmid htop, schema.project_again, ?_⟩
  intro s ws hstore query records options hits hfind hit hhit
  obtain ⟨rfl, hfiled⟩ := Store.schema_and_filed hstore
  obtain ⟨r, hr, hsub, hshown⟩ := exists_of_find hfiled hfind hhit
  have hpk : hit.record.pk = r.pk := by
    rw [hshown, Schema.pk_project]
  refine ⟨r, hr, hpk.symm, hsub, fun top htop => ?_⟩
  have hthrough : s.store.schema.project hit.record top = s.store.schema.project r top := by
    rw [hshown]
    exact hb.project_project hsub htop
  refine ⟨hthrough, ?_⟩
  rintro query' wide options' hits' rfl hfind' hit' hhit' hpk'
  obtain ⟨r', hr', hsub', hshown'⟩ := exists_of_find hfiled hfind' hhit'
  have hsame : r' = r := by
    refine Store.eq_of_pk hb hfiled hr hr' (hb.isSubtype_trans hsub htop) hsub' ?_
    rw [← hpk, ← hpk', hshown', Schema.pk_project]
  rw [hthrough, hshown', hsame]

/-- A saga with a year of birth, which sagas have no field for. -/
def tides : Record :=
  ⟨"Saga", 3, SortedMap.ofList [("born", .int 1914), ("pages", .int 900), ("setting", .text "Coast"),
    ("title", .text "Tides"), ("volumes", .int 4)], SortedMap.ofList [("author", [7])]⟩

def thickBook : Record := ⟨"Book", 4, SortedMap.ofList [("pages", .int 900)], ∅⟩

/-- The saga and a book of as many pages are stored and indexed. -/
def sagaShelf : Session :=
  (ofStore ((Store.empty Schema.sagaSchema).after [.insert tides, .insert thickBook]) []
    (.ofScorer flatScorer)).play [.backend 0 (.rebuild 1)]

/-- Among novels the saga has lost its volumes and the year, among books its setting too. -/
theorem seesThrough_of_ofModels_saga :
    Schema.ofModels Schema.sagaModels = .ok Schema.sagaSchema ∧ SeesThrough Schema.sagaSchema ∧
    (Schema.sagaSchema.project tides "Novel").values.keys = ["pages", "setting", "title"] ∧
    (Schema.sagaSchema.project tides "Book").values.keys = ["pages", "title"] ∧
    ∃ novels books,
      (Command.find (.text "900") (.of "Novel") {}).answer sagaShelf = .ok (.hits novels) ∧
      (Command.find (.text "900") (.of "Book") {}).answer sagaShelf = .ok (.hits books) ∧
      novels.map Hit.record = [Schema.sagaSchema.project tides "Novel"] ∧
      books.map Hit.record = [Schema.sagaSchema.project tides "Book", thickBook] ∧
      ∀ hit ∈ novels, ∀ hit' ∈ books, hit'.record.pk = hit.record.pk →
        hit'.record = Schema.sagaSchema.project hit.record "Book" := by
  have hstore : sagaShelf.store =
      (Store.empty Schema.sagaSchema).after [.insert tides, .insert thickBook] := rfl
  have hnovels : (Command.find (.text "900") (.of "Novel") {}).answer sagaShelf =
      .ok (.hits [⟨Schema.sagaSchema.project tides "Novel", 1.0⟩]) := by decide +kernel
  have hbooks : (Command.find (.text "900") (.of "Book") {}).answer sagaShelf =
      .ok (.hits [⟨Schema.sagaSchema.project tides "Book", 1.0⟩, ⟨thickBook, 1.0⟩]) := by
    decide +kernel
  have hsees := seesThrough_of_ofModels Schema.ofModels_sagaModels
  refine ⟨Schema.ofModels_sagaModels, hsees, by decide +kernel, by decide +kernel, _, _, hnovels,
    hbooks, rfl, rfl, fun hit hhit hit' hhit' hpk => ?_⟩
  obtain ⟨r, -, -, -, hshown⟩ := hsees.shown sagaShelf _ hstore _ _ _ _ hnovels hit hhit
  obtain ⟨-, hwide⟩ := hshown "Book" (by decide +kernel)
  exact hwide _ (.of "Book") _ _ rfl hbooks hit' hhit' hpk

end Session

end Concordance
