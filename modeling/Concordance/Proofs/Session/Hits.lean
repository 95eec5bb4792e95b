import Concordance.Proofs.Search.Narrowing
import Concordance.Proofs.Session.Freshness

/-!
# What views show

A search that compiles always succeeds. Its view, and every clone of the view, shows what the
search has to find in the store and the index as they are when the view is read, whatever was
written to either in between (`CompiledSearch.Finds`). The two may disagree on every record: what is
indexed need not be stored any more, and what is stored need not be indexed.

* `sought_of_compiled`: a search that compiles is on the index of its family.
* `answer_read_of_origin`: reading a view and evaluating its compiled search are one thing.
* **`hits_of_search`**: what a view shows at any later moment, each hit once, and in which order.
* **`hits_of_narrowed`**: a search among fewer records finds of these what it found before, with the
  same scores and in the same order.
-/

namespace Concordance

namespace Session

variable {s t : Session} {query : SearchQuery} {records : RecordSet} {options : SearchOptions}
  {c : CompiledSearch}

/-- A search that compiles is on the index of the family of its model. -/
theorem sought_of_compiled
    (h : compileSearch s.store.schema query records options = .ok (some c)) :
    ∃ root, s.store.schema.rootOf records.model = .ok root ∧
      s.sought query records options = .ok (some ⟨s.current, root, c⟩) := by
  obtain ⟨hmodel, _, -, rfl⟩ := compileSearch_ok h
  obtain ⟨root, hroot⟩ := Schema.exists_rootOf hmodel
  refine ⟨root, hroot, ?_⟩
  unfold sought
  rw [h]
  show (s.store.schema.rootOf records.model >>= fun root => Except.ok (some _)) = _
  rw [hroot]
  rfl

/-- **Reading a view is evaluating its compiled search**, provided that an evaluation that the view
holds was made fewer than `2 ^ 64` writes ago. -/
theorem answer_read_of_origin {n : String} {b : BackendSearch} (hfresh : Fresh s t (t.view n))
    (horigin : (t.view n).origin = some b)
    (hfew : (t.view n).isHeld = true →
      t.writes b.backend b.root < s.writes b.backend b.root + UInt64.size) (readout : Readout) :
    (Command.read n readout).answer t =
      ((t.source b).fetch ()).map fun hs => readout.answer hs := by
  have hevaluated : ((t.view n).consume t.source).answer = (t.view n).evaluated t.source := by
    cases hheld : (t.view n).isHeld with
    | false => exact View.answer_consume_of_not_held t.source hheld
    | true =>
      refine hfresh.answer_consume fun b' hb' => ?_
      obtain rfl : b = b' := Option.some.inj (horigin.symm.trans hb')
      exact hfew hheld
  rw [answer_read, hevaluated]
  unfold View.evaluated
  rw [horigin]

/-- **What a view shows.** Let a session hold a store that any writes have made, with any backends
and views, and let a search compile. Then the search succeeds. At any later moment of any run the
view, and each clone of it, fails as the set of the search does, and otherwise shows what the search
has to find among the records that the set is evaluated to (`CompiledSearch.Finds`): each record
once, in the order of the set or by rank. These records are ascending by key where the set has no
ordering. The count is the number of keys, and slices that share no position and leave none out
show each hit once. An evaluation that the view holds must not be `2 ^ 64` writes old. By rank, a
score that is NaN has the place of a positive NaN, above all numbers (`orderScores`); a machine that
gives it a negative sign puts the hit last. -/
theorem hits_of_search {schema : Schema} {ws : List StoreWrite}
    (hstore : s.store = (Store.empty schema).after ws)
    (hcompiled : compileSearch schema query records options = .ok (some c)) (name : String)
    (future : List Command) :
    ∃ root, schema.rootOf records.model = .ok root ∧
      (Command.search name query records options).answer s = .ok .done ∧
      let now := s.play (.search name query records options :: future)
      ∀ n ∈ future.foldl Command.holders [name],
        ((now.view n).isHeld = true →
          now.writes s.current root < s.writes s.current root + UInt64.size) →
        (∀ e, records.evaluate now.store = .error e →
          ∀ readout, (Command.read n readout).answer now = .error e) ∧
        ∀ base, records.evaluate now.store = .ok base →
          (records.ordering = [] → base.Pairwise fun a b => a.pk < b.pk) ∧
          ∃ hits, (∀ readout, (Command.read n readout).answer now = .ok (readout.answer hits)) ∧
            c.Finds schema ((now.backend s.current).index root).index
              (now.backend s.current).scorer base hits ∧
            Hits.count hits = (Hits.keys hits).length ∧
            ∀ slices : List (Bound × Bound),
              (∀ position < Hits.count hits,
                slices.countP (fun b => Hits.shows (Hits.count hits) b position) = 1) →
              (slices.flatMap fun b => Hits.slice b.1 b.2 hits).Perm hits := by
  obtain ⟨rfl, hfiled⟩ := Store.schema_and_filed hstore
  obtain ⟨root, hroot, hsought⟩ := sought_of_compiled hcompiled
  refine ⟨root, hroot, ?_, ?_⟩
  · rw [answer_search, hsought]
    rfl
  intro now n hn hfew
  have hrecords : c.records = records := by
    obtain ⟨-, _, -, rfl⟩ := compileSearch_ok hcompiled
    rfl
  obtain ⟨e, herror, -⟩ | ⟨b?, hb, v, horigin, hheld, hview⟩ :=
    view_search s name query records options
  · rw [hsought] at herror
    nomatch herror
  obtain rfl : some _ = b? := Except.ok.inj (hsought.symm.trans hb)
  have hafter : ((Command.search name query records options).next s).view name = v := by
    rw [hview, if_pos rfl]
  have hread : ∀ readout, (Command.read n readout).answer now =
      (c.hits now.store ((now.backend s.current).index root).index
        (now.backend s.current).scorer).map fun hs => readout.answer hs := by
    refine answer_read_of_origin (s := s) (b := ⟨s.current, root, c⟩) ?_ ?_ hfew
    · refine fresh_play (grows_next _ s) (fun m hm => ?_) future n hn
      rw [List.mem_singleton.mp hm, hafter]
      exact fresh_of_not_held hheld
    · refine origin_play (fun m hm => ?_) future n hn
      rw [List.mem_singleton.mp hm, hafter, horigin]
  replace hfiled : now.store.Filed := by
    rw [show now.store = _ from store_play _ s]
    exact Store.filed_after hfiled _
  rw [← (grows_play _ s : Grows s now).schema]
  refine ⟨fun e he readout => ?_, fun base hbase => ⟨(base_of_evaluate hfiled hbase).2.2, ?_⟩⟩
  · rw [hread, CompiledSearch.hits_of_error (hrecords ▸ he)]
    rfl
  · obtain ⟨hits, hhits, hfinds⟩ := CompiledSearch.finds_of_hits hfiled (hrecords ▸ hbase)
      ((now.backend s.current).index root).index (now.backend s.current).scorer
    refine ⟨hits, fun readout => ?_, hfinds, hfinds.length_keys.symm, fun slices hslices =>
      Hits.perm_flatMap_slice hslices⟩
    rw [hread, hhits]
    rfl

/-- Every token of every match scores one. -/
def flatScorer : Scorer := ⟨"flat", fun _ => 1.0⟩

def drinkBook (pk : Key) (title : String) : Record :=
  ⟨"Book", pk, SortedMap.ofList [("title", .text title)], ∅⟩

def drinks : List StoreWrite :=
  [.insert (drinkBook 3 "Tea and coffee"), .insert (drinkBook 1 "Tea"),
    .insert (drinkBook 4 "Black tea"), .insert (drinkBook 2 "Coffee"),
    .insert (drinkBook 5 "Water")]

/-- Five books are stored and indexed, and all matches of a term tie. -/
def flatShelf : Session :=
  (ofStore ((Store.empty shelf.store.schema).after drinks) [] (.ofScorer flatScorer)).play
    [.backend 0 (.rebuild 2)]

/-- The view is read and cloned, an indexed book goes, and one comes that is not indexed. -/
def flatFuture : List Command :=
  [.read "all" .count, .clone "all" "copy", .read "copy" .count, .delete "Book" 4,
    .insert (drinkBook 6 "Green tea")]

def teaSearch : CompiledSearch := ⟨.of "Book", (Query.words "tea" .or).normalize, none, true⟩

/-- Both views show the books that are stored and indexed, by key since all scores are equal, and
so do two pages of one of them. -/
theorem hits_of_search_tied :
    let now := flatShelf.play (.search "all" (.text "tea") (.of "Book") {} :: flatFuture)
    let base := [drinkBook 1 "Tea", drinkBook 2 "Coffee", drinkBook 3 "Tea and coffee",
      drinkBook 5 "Water", drinkBook 6 "Green tea"]
    flatShelf.store = (Store.empty shelf.store.schema).after drinks ∧
    compileSearch shelf.store.schema (.text "tea") (.of "Book") {} = .ok (some teaSearch) ∧
    (RecordSet.of "Book").evaluate now.store = .ok base ∧
    ∀ n ∈ ["copy", "all"], (now.view n).isHeld = true ∧
      now.writes 0 "Book" < flatShelf.writes 0 "Book" + UInt64.size ∧
      ∃ hits, (∀ readout, (Command.read n readout).answer now = .ok (readout.answer hits)) ∧
        teaSearch.Finds shelf.store.schema ((now.backend 0).index "Book").index
          (now.backend 0).scorer base hits ∧
        Hits.keys hits = [1, 3] ∧
        (Hits.slice .unbounded (.excluded 1) hits ++ Hits.slice (.included 1) .unbounded hits).Perm
          hits := by
  intro now base
  have hstore : flatShelf.store = (Store.empty shelf.store.schema).after drinks := rfl
  have hcompiled : compileSearch shelf.store.schema (.text "tea") (.of "Book") {} =
      .ok (some teaSearch) := by
    with_unfolding_all rfl
  have hbase : (RecordSet.of "Book").evaluate now.store = .ok base := by decide +kernel
  have hcurrent : flatShelf.current = 0 := by decide +kernel
  have hheld : ∀ n ∈ ["copy", "all"], (now.view n).isHeld = true := by decide +kernel
  have hfew : now.writes 0 "Book" < flatShelf.writes 0 "Book" + UInt64.size := by decide +kernel
  have hkeys : ∀ n ∈ ["copy", "all"], (Command.read n .keys).answer now = .ok (.keys [1, 3]) := by
    decide +kernel
  refine ⟨hstore, hcompiled, hbase, fun n hn => ⟨hheld n hn, hfew, ?_⟩⟩
  obtain ⟨root, hroot, -, hshown⟩ := hits_of_search hstore hcompiled "all" flatFuture
  rw [hcurrent] at hshown
  obtain rfl : "Book" = root := Except.ok.inj hroot
  obtain ⟨-, hread⟩ := hshown n hn fun _ => hfew
  obtain ⟨-, hits, hanswer, hfinds, -, hslices⟩ := hread base hbase
  refine ⟨hits, hanswer, hfinds, ?_, ?_⟩
  · have hanswers := (hanswer .keys).symm.trans (hkeys n hn)
    injection hanswers with hanswers
    injection hanswers
  · have hpages := hslices [(.unbounded, .excluded 1), (.included 1, .unbounded)]
      fun position hlt => by
        rcases position with _ | position
        · rfl
        · simp [Hits.shows, Hits.first, Hits.stop, hlt]
    simpa using hpages

/-! ## Narrowing -/

/-- **A search that compiles finds at once** what it has to find, if its set is evaluated. -/
theorem find_of_compiled (hfiled : s.store.Filed)
    (hcompiled : compileSearch s.store.schema query records options = .ok (some c))
    {base : List Record} (hbase : records.evaluate s.store = .ok base) :
    ∃ root hits, s.store.schema.rootOf records.model = .ok root ∧
      (Command.find query records options).answer s = .ok (.hits hits) ∧
      c.Finds s.store.schema ((s.backend s.current).index root).index
        (s.backend s.current).scorer base hits := by
  obtain ⟨root, hroot, hsought⟩ := sought_of_compiled hcompiled
  obtain ⟨-, _, -, hc⟩ := compileSearch_ok hcompiled
  have hrecords : c.records = records := by rw [hc]
  obtain ⟨hits, hhits, hfinds⟩ := CompiledSearch.finds_of_hits hfiled (hrecords ▸ hbase)
    ((s.backend s.current).index root).index (s.backend s.current).scorer
  refine ⟨root, hits, hroot, ?_, hfinds⟩
  rw [answer_find, hsought]
  exact congrArg (Except.map Answer.hits) hhits

/-- **Narrowing a search changes nothing of what remains.** Let a session hold a store that any
writes have made, with any backends, and let a search compile for two sets of one family without an
ordering, where every record of the narrow one is in the wide one. Then both searches succeed, and
the keys and scores found in the narrow set are those found in the wide set for which the narrow
set has a record, in the same order. -/
theorem hits_of_narrowed {schema : Schema} {ws : List StoreWrite}
    (hstore : s.store = (Store.empty schema).after ws) {wide narrow : RecordSet}
    {c c' : CompiledSearch} (hwide : compileSearch schema query wide options = .ok (some c))
    (hnarrow : compileSearch schema query narrow options = .ok (some c'))
    (hfamily : schema.rootOf narrow.model = schema.rootOf wide.model)
    (hplain : wide.ordering = []) (hplain' : narrow.ordering = []) {base base' : List Record}
    (hbase : wide.evaluate s.store = .ok base) (hbase' : narrow.evaluate s.store = .ok base')
    (hsub : ∀ r ∈ base', r ∈ base) :
    ∃ hits hits', (Command.find query wide options).answer s = .ok (.hits hits) ∧
      (Command.find query narrow options).answer s = .ok (.hits hits') ∧
      hits'.map Hit.standing =
        (hits.filter fun h => (base'.map Record.pk).contains h.record.pk).map Hit.standing := by
  obtain ⟨rfl, hfiled⟩ := Store.schema_and_filed hstore
  obtain ⟨root, hits, hroot, hfind, hfinds⟩ := find_of_compiled hfiled hwide hbase
  obtain ⟨root', hits', hroot', hfind', hfinds'⟩ := find_of_compiled hfiled hnarrow hbase'
  obtain rfl : root' = root := Except.ok.inj (hroot'.symm.trans (hfamily.trans hroot))
  obtain ⟨-, operator, hoperator, rfl⟩ := compileSearch_ok hwide
  obtain ⟨-, operator', hoperator', rfl⟩ := compileSearch_ok hnarrow
  obtain rfl : operator' = operator := Except.ok.inj (hoperator'.symm.trans hoperator)
  refine ⟨hits, hits', hfind, hfind', hfinds.narrowed hfinds' rfl rfl ?_
    ((base_of_evaluate hfiled hbase).2.2 hplain) ((base_of_evaluate hfiled hbase').2.2 hplain')
    hsub⟩
  show (options.byRelevance && !narrow.isOrdered) = (options.byRelevance && !wide.isOrdered)
  unfold RecordSet.isOrdered
  rw [hplain, hplain']

/-- Tea, or anything but coffee, in titles. -/
def teaOrNotCoffee : SearchQuery :=
  .query (.or [.term "tea" 1.0, .not (.and [.term "coffee" 1.0, .and []])])

def inTitles : SearchOptions := { fields := some ["title"] }

/-- The books but the first. -/
def laterBooks : RecordSet := (RecordSet.of "Book").exclude "pk" (.compare .exact (.int 1))

/-- The keys of the hits that a command answers with. -/
def hitKeys : Result Answer → List Key
  | .ok (.hits hits) => hits.map fun h => h.record.pk
  | _ => []

/-- Without the first book the third stays before the fourth, with which it ties, and both before
the fifth, which does not hold the term. -/
theorem hits_of_narrowed_drinks :
    ∃ c c' base base', flatShelf.store = (Store.empty shelf.store.schema).after drinks ∧
      compileSearch shelf.store.schema teaOrNotCoffee (.of "Book") inTitles = .ok (some c) ∧
      compileSearch shelf.store.schema teaOrNotCoffee laterBooks inTitles = .ok (some c') ∧
      shelf.store.schema.rootOf laterBooks.model = shelf.store.schema.rootOf "Book" ∧
      laterBooks.ordering = [] ∧ (RecordSet.of "Book").evaluate flatShelf.store = .ok base ∧
      laterBooks.evaluate flatShelf.store = .ok base' ∧ (∀ r ∈ base', r ∈ base) ∧
      ∃ hits hits',
        (Command.find teaOrNotCoffee (.of "Book") inTitles).answer flatShelf = .ok (.hits hits) ∧
        (Command.find teaOrNotCoffee laterBooks inTitles).answer flatShelf = .ok (.hits hits') ∧
        hits'.map Hit.standing =
          (hits.filter fun h => (base'.map Record.pk).contains h.record.pk).map Hit.standing ∧
        hits.map (fun h => h.record.pk) = [1, 3, 4, 5] ∧
        hits'.map (fun h => h.record.pk) = [3, 4, 5] := by
  have hstore : flatShelf.store = (Store.empty shelf.store.schema).after drinks := rfl
  obtain ⟨c, hwide⟩ : ∃ c, compileSearch shelf.store.schema teaOrNotCoffee (.of "Book") inTitles =
      .ok (some c) := ⟨_, by with_unfolding_all rfl⟩
  obtain ⟨c', hnarrow⟩ : ∃ c', compileSearch shelf.store.schema teaOrNotCoffee laterBooks inTitles =
      .ok (some c') := ⟨_, by with_unfolding_all rfl⟩
  have hbase : (RecordSet.of "Book").evaluate flatShelf.store =
      .ok [drinkBook 1 "Tea", drinkBook 2 "Coffee", drinkBook 3 "Tea and coffee",
        drinkBook 4 "Black tea", drinkBook 5 "Water"] := by decide +kernel
  have hbase' : laterBooks.evaluate flatShelf.store =
      .ok [drinkBook 2 "Coffee", drinkBook 3 "Tea and coffee", drinkBook 4 "Black tea",
        drinkBook 5 "Water"] := by decide +kernel
  have hsub := List.subset_cons_self (drinkBook 1 "Tea") [drinkBook 2 "Coffee",
    drinkBook 3 "Tea and coffee", drinkBook 4 "Black tea", drinkBook 5 "Water"]
  obtain ⟨hits, hits', hfind, hfind', hsame⟩ :=
    hits_of_narrowed hstore hwide hnarrow rfl rfl rfl hbase hbase' hsub
  have hkeys : hitKeys ((Command.find teaOrNotCoffee (.of "Book") inTitles).answer flatShelf) =
      [1, 3, 4, 5] := by decide +kernel
  have hkeys' : hitKeys ((Command.find teaOrNotCoffee laterBooks inTitles).answer flatShelf) =
      [3, 4, 5] := by decide +kernel
  rw [hfind] at hkeys
  rw [hfind'] at hkeys'
  exact ⟨c, c', _, _, hstore, hwide, hnarrow, rfl, rfl, hbase, hbase', hsub, hits, hits', hfind,
    hfind', hsame, hkeys, hkeys'⟩

end Session

end Concordance
