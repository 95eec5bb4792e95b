import Concordance.Proofs.RecordSet.Failures
import Concordance.Proofs.RecordSet.Local
import Concordance.Proofs.Session.Storage
import Concordance.Proofs.Session.Timely

/-!
# Families do not interfere

All families share one store and one version, and a backend makes their indexes as they are asked
for. Still a command that concerns one family (`Command.Concerns`) leaves the records and the index
of every other one as they were, also where both use the same keys (`sameFamily_next`), and so does
a run of such commands (`sameFamily_play`). It does move the watermark of every view, which then
evaluates again.

* `SameFamily.fetch_eq`: a search that is local to a family shows the same.
* **`answer_read_of_other_family`**: in every session that operations reach, a run of commands that
  concern one family changes nothing of what searches and views show that are local to another.
-/

namespace Concordance

/-! ## Writes to one family -/

/-- A write for one family leaves the records of the others alone. -/
theorem Store.agreeOn_apply {st : Store} {root other : String} (hne : root ≠ other)
    {w : StoreWrite} (hroot : st.schema.rootOf w.model = .ok other) :
    AgreeOn root st (w.apply st) where
  schema := schema_apply st w
  family := by
    refine SortedMap.ext_get? fun pk => ?_
    cases w with
    | insert r => rw [get?_apply_insert hroot, if_neg fun h => hne h.1]
    | delete model k =>
      have hmodel : st.schema.rootOf model = .ok other := hroot
      rw [get?_apply_delete hmodel, if_neg fun h => hne h.1]

namespace Backend

/-- Only the index of one family has changed. -/
def Elsewhere (root : String) (b c : Backend) : Prop :=
  c.scorer = b.scorer ∧ ∀ q, q ≠ root → c.index q = b.index q

instance {root : String} : Std.Refl (Elsewhere root) := ⟨fun _ => ⟨rfl, fun _ _ => rfl⟩⟩

instance {root : String} : IsTrans Backend (Elsewhere root) :=
  ⟨fun _ _ _ hbc hcd =>
    ⟨hcd.1.trans hbc.1, fun q hq => (hcd.2 q hq).trans (hbc.2 q hq)⟩⟩

variable {st : Store} {model root : String}

/-- An operation on the index of a family. -/
theorem elsewhere_onFamily {α : Type} (x : Update FamilyIndex α)
    (hroot : st.schema.rootOf model = .ok root) :
    Update.Regular (Elsewhere root) Eq (onFamily st model x) := by
  refine Update.regular_of_moves fun b => ?_
  unfold onFamily
  rw [Update.perform_ofResult_bind, indexedRoot_eq hroot]
  cases st.schema.hasIndexedFamily root with
  | false => exact Std.Refl.refl b
  | true =>
    show Elsewhere root b (Update.perform (some <$> onIndex root x) b).2
    rw [Update.perform_map, perform_onIndex]
    exact ⟨rfl, fun q hq => (index_setIndex ..).trans (if_neg hq)⟩

end Backend

/-- A write to a backend that is for one family. -/
def BackendCommand.Concerns (s : Schema) (root : String) : BackendCommand → Prop
  | index model _ | addBulk model _ => s.rootOf model = .ok root
  | add r | delete r => s.rootOf r.model = .ok root
  | refreshAll | resetAll | rebuild _ => False

instance (s : Schema) (root : String) : DecidablePred (BackendCommand.Concerns s root)
  | .index model _ | .addBulk model _ => inferInstanceAs (Decidable (s.rootOf model = .ok root))
  | .add r | .delete r => inferInstanceAs (Decidable (s.rootOf r.model = .ok root))
  | .refreshAll | .resetAll | .rebuild _ => inferInstanceAs (Decidable False)

theorem BackendCommand.elsewhere_run {st : Store} {root : String} {c : BackendCommand}
    (hc : c.Concerns st.schema root) : Update.Regular (Backend.Elsewhere root) Eq (c.run st) := by
  cases c with
  | index model c => exact Update.regular_map _ (Backend.elsewhere_onFamily (c.run st) hc)
  | add r =>
    exact Update.regular_map _ (Update.regular_bind (Backend.elsewhere_onFamily _ hc) fun _ =>
      Update.regular_pure ())
  | addBulk model rs =>
    exact Update.regular_map _ (Update.regular_bind (Backend.elsewhere_onFamily _ hc) fun _ =>
      Update.regular_pure ())
  | delete r =>
    exact Update.regular_map _ (Update.regular_bind (Backend.elsewhere_onFamily _ hc) fun _ =>
      Update.regular_pure ())
  | refreshAll | resetAll | rebuild => exact hc.elim

/-- A command that is for one family: it writes records of the family to the store, writes to the
index of the family of some backend, or searches among its records. Views may be read and cloned,
whichever they are. -/
def Command.Concerns (s : Schema) (root : String) : Command → Prop
  | insert r => s.rootOf r.model = .ok root
  | delete model _ => s.rootOf model = .ok root
  | backend _ c => c.Concerns s root
  | search _ _ records _ | find _ records _ => s.rootOf records.model = .ok root
  | read _ _ | clone _ _ => True

instance (s : Schema) (root : String) : DecidablePred (Command.Concerns s root)
  | .insert r => inferInstanceAs (Decidable (s.rootOf r.model = .ok root))
  | .delete model _ => inferInstanceAs (Decidable (s.rootOf model = .ok root))
  | .backend _ c => inferInstanceAs (Decidable (c.Concerns s root))
  | .search _ _ records _ | .find _ records _ =>
    inferInstanceAs (Decidable (s.rootOf records.model = .ok root))
  | .read _ _ | .clone _ _ => inferInstanceAs (Decidable True)

namespace Session

/-! ## What another family sees of it -/

/-- The records and the indexes of a family are what they were. -/
structure SameFamily (root : String) (s t : Session) : Prop where
  agree : Store.AgreeOn root s.store t.store
  scorer : ∀ n, (t.backend n).scorer = (s.backend n).scorer
  index : ∀ n, (t.backend n).index root = (s.backend n).index root

variable {root other : String} {s t u : Session}

theorem SameFamily.refl (root : String) (s : Session) : SameFamily root s s :=
  ⟨⟨rfl, rfl⟩, fun _ => rfl, fun _ => rfl⟩

theorem SameFamily.trans (hst : SameFamily root s t) (htu : SameFamily root t u) :
    SameFamily root s u where
  agree := ⟨htu.agree.schema.trans hst.agree.schema, htu.agree.family.trans hst.agree.family⟩
  scorer n := (htu.scorer n).trans (hst.scorer n)
  index n := (htu.index n).trans (hst.index n)

theorem Same.sameFamily (h : Same s t) (root : String) : SameFamily root s t where
  agree := by
    rw [h.store]
    exact ⟨rfl, rfl⟩
  scorer := h.scorer
  index n := h.index n root

/-- **A command that concerns one family changes nothing of another.** -/
theorem sameFamily_next (hne : root ≠ other) {c : Command}
    (hc : c.Concerns s.store.schema other) : SameFamily root s (c.next s) := by
  cases c with
  | insert r =>
    have hwrite : s.store.schema.rootOf (StoreWrite.insert r).model = .ok other := hc
    rw [next_insert]
    exact ⟨Store.agreeOn_apply hne hwrite, fun _ => rfl, fun _ => rfl⟩
  | delete model pk =>
    have hwrite : s.store.schema.rootOf (StoreWrite.delete model pk).model = .ok other := hc
    rw [next_delete]
    exact ⟨Store.agreeOn_apply hne hwrite, fun _ => rfl, fun _ => rfl⟩
  | backend n c =>
    rw [next_backend]
    have hmoved := (BackendCommand.elsewhere_run hc).moves (s.backend n)
    refine ⟨⟨rfl, rfl⟩, fun m => ?_, fun m => ?_⟩
    · rw [backend_set]
      split
      · rename_i hm
        rw [hm.1]
        exact hmoved.1
      · rfl
    · rw [backend_set]
      split
      · rename_i hm
        rw [hm.1]
        exact hmoved.2 root hne
      · rfl
  | search | find | read | clone => exact (same_next rfl s).sameFamily root

theorem sameFamily_play (hne : root ≠ other) {cs : List Command}
    (hcs : ∀ c ∈ cs, c.Concerns s.store.schema other) : SameFamily root s (s.play cs) := by
  induction cs generalizing s with
  | nil => exact SameFamily.refl root s
  | cons c cs ih =>
    obtain ⟨hc, hcs⟩ := List.forall_mem_cons.mp hcs
    have hnext := sameFamily_next hne hc
    refine hnext.trans (ih ?_)
    rw [hnext.agree.schema]
    exact hcs

/-- **A search that is local to a family reads nothing else.** -/
theorem SameFamily.fetch_eq (h : SameFamily root s t) {n : Instance} {c : CompiledSearch}
    (hlocal : c.records.Local s.store.schema root) :
    (t.source ⟨n, root, c⟩).fetch () = (s.source ⟨n, root, c⟩).fetch () := by
  show c.hits t.store ((t.backend n).index root).index (t.backend n).scorer =
    c.hits s.store ((s.backend n).index root).index (s.backend n).scorer
  rw [h.index, h.scorer, CompiledSearch.hits_congr_family h.agree hlocal]

theorem SameFamily.evaluate_eq (h : SameFamily root s t) (n : Instance) {c : CompiledSearch}
    (hlocal : c.records.Local s.store.schema root) :
    t.evaluate n (some c) = s.evaluate n (some c) := by
  have hroot : s.store.schema.rootOf c.model = .ok root := hlocal.rootOf
  rw [evaluate_some, evaluate_some, h.agree.schema, hroot]
  exact h.fetch_eq hlocal

/-! ## What is shown -/

theorem play_eq_operate (s : Session) (cs : List Command) :
    s.play cs = s.operate (cs.map .command) := by
  induction cs generalizing s with
  | nil => rfl
  | cons c cs ih =>
    show (c.next s).play cs = ((Operation.command c).next s).operate (cs.map .command)
    rw [next_command, ih]

/-- A view that is local to a family shows the same in timely sessions that agree on the family. -/
theorem SameFamily.answer_read_eq (h : SameFamily root s t) (hs : Timely s) (ht : Timely t)
    {name n : String} {b : BackendSearch} (hb : (s.view name).origin = some b)
    (hb' : (t.view n).origin = some b) (hlocal : b.search.records.Local s.store.schema root)
    (hfew : (s.view name).isHeld = true → s.writes b.backend root < UInt64.size)
    (hfew' : (t.view n).isHeld = true → t.writes b.backend root < UInt64.size)
    (readout : Readout) :
    (Command.read n readout).answer t = (Command.read name readout).answer s := by
  obtain ⟨m, q, c⟩ := b
  obtain rfl : q = root := Except.ok.inj ((hs.rooted name _ hb).symm.trans hlocal.rootOf)
  rw [ht.answer_read hb' hfew' readout, hs.answer_read hb hfew readout, h.fetch_eq hlocal]

/-- What a search has kept is on the current backend and among the records that were given. -/
theorem kept_of_search {s : Session} {name : String} {query : SearchQuery} {records : RecordSet}
    {options : SearchOptions} {b : BackendSearch}
    (h : (Command.search name query records options).answer s = .ok .done)
    (hb : (((Command.search name query records options).next s).view name).origin = some b) :
    b.backend = s.current ∧ b.search.records = records := by
  obtain ⟨b?, hsought, horigin⟩ := origin_search h
  obtain ⟨_, hcompiled, ⟨-, hnone⟩ | ⟨c, root, rfl, -, -, hsome⟩⟩ := compiled_of_sought hsought
  · rw [hnone, hb] at horigin
    nomatch horigin
  · obtain ⟨-, _, -, rfl⟩ := compileSearch_ok hcompiled
    rw [hsome, hb] at horigin
    cases horigin
    exact ⟨rfl, rfl⟩

/-- **Families do not interfere.** In any session that operations reach over an empty store, let a
run of commands concern one family: it stores and removes records of it, writes to, publishes and
resets indexes of it, searches among its records, and reads and clones views. Every compiled search
that is local to another family then evaluates to the hits that it had before the run, in their
order and with their scores, or to the same error, on every backend, whichever keys the families
share. So does every view of such a search that was kept, and every clone of it, however it is read;
only if it holds an evaluation must there have been fewer than `2 ^ 64` writes, for what it holds to
be told from what is right. -/
theorem answer_read_of_other_family {models : List Model} {schema : Schema}
    (hs : Schema.ofModels models = .ok schema) {classes : List BackendClass}
    (hclasses : BackendClass.ConstructOnly classes Backend.Labelled) {first : Backend}
    (hfirst : first.Labelled) (past : List Operation) {root other : String} (hne : root ≠ other)
    {run : List Command} (hrun : ∀ c ∈ run, c.Concerns schema other) :
    let s := (ofStore (Store.empty schema) classes first).operate past
    let t := s.play run
    (∀ n (c : CompiledSearch), c.records.Local schema root →
      t.evaluate n (some c) = s.evaluate n (some c)) ∧
    ∀ name, ∀ n ∈ run.foldl Command.holders [name],
      (∀ b, (s.view name).origin = some b → b.search.records.Local schema root ∧
        ((s.view name).isHeld = true ∨ (t.view n).isHeld = true →
          t.writes b.backend root < UInt64.size)) →
      ∀ readout, (Command.read n readout).answer t = (Command.read name readout).answer s := by
  intro s t
  have hnew := sound_ofStore hs hclasses hfirst
  have hschema : s.store.schema = schema := schema_operate past _
  have hsound : Sound models s := hnew.operate past
  have htimely : Timely s := (timely_ofStore _ _ _).operate hnew past
  have htimely' : Timely t := by
    have hplay : t = s.operate (run.map .command) := play_eq_operate s run
    rw [hplay]
    exact htimely.operate hsound _
  have hsame : SameFamily root s t := sameFamily_play hne (hschema ▸ hrun)
  refine ⟨fun n c hlocal => hsame.evaluate_eq n (hschema ▸ hlocal),
    fun name n hn hview readout => ?_⟩
  have horigin : (t.view n).origin = (s.view name).origin :=
    origin_play (fun m hm => by rw [List.mem_singleton.mp hm]) run n hn
  cases hb : (s.view name).origin with
  | none =>
    rw [hb] at horigin
    rw [answer_read, answer_read, View.eq_empty_of_origin horigin, View.eq_empty_of_origin hb]
    rfl
  | some b =>
    rw [hb] at horigin
    obtain ⟨hlocal, hfew⟩ := hview b hb
    have hle := (grows_play run s).writes_le b.backend root
    exact hsame.answer_read_eq htimely htimely' hb horigin (hschema ▸ hlocal)
      (fun hheld => Nat.lt_of_le_of_lt hle (hfew (Or.inl hheld)))
      (fun hheld => hfew (Or.inr hheld)) readout

/-- Authors, and books with a shelf mark. -/
def cardModels : List Model :=
  [⟨"Author", none, [Field.search "name"]⟩,
    ⟨"Book", none, [Field.search "title", Field.filter "shelf"]⟩]

def cardSchema : Schema where
  entries :=
    [⟨⟨"Author", none, [Field.search "name"]⟩, [], [], [Field.search "name"]⟩,
      ⟨⟨"Book", none, [Field.search "title", Field.filter "shelf"]⟩, [], [],
        [Field.search "title", Field.filter "shelf"]⟩]

theorem ofModels_cardModels : Schema.ofModels cardModels = .ok cardSchema := by
  with_unfolding_all rfl

def shelved (pk : Key) (title : String) (shelf : Int64) : Record :=
  ⟨"Book", pk, SortedMap.ofList [("title", .text title), ("shelf", .int shelf)], ∅⟩

/-- The books that share a shelf with a book after the first, the last one first. -/
def besideLater : RecordSet :=
  ((RecordSet.of "Book").filter "shelf" (.within
    ((RecordSet.of "Book").filter "pk" (.compare .gt (.int 1))) "shelf")).orderBy ["-pk"]

/-- Authors and books are stored, some under the same keys, and indexed. -/
def cardStock : List Operation :=
  [.command (.insert (shelved 1 "Tea" 7)), .command (.insert (shelved 2 "Black tea" 8)),
    .command (.insert (shelved 3 "Coffee" 8)), .save (shelved 4 "Tea and coffee" 8),
    .command (.insert (author 1 "Tea Green")), .command (.insert (author 2 "Joe Black")),
    .command (.backend 0 (.rebuild 2))]

/-- A search among some of the books. -/
def teaBeside : Command := .search "tea" (.text "tea") besideLater {}

/-- Authors come and go, also under keys of books, and are sought. -/
def authorRun : List Command :=
  [.insert (author 2 "Tea Black"), .delete "Author" 1, .backend 0 (.add (author 2 "Tea Black")),
    .backend 0 (.delete (author 1 "Tea Green")),
    .backend 0 (.index "Author" (.addItem (author 4 "Tea Brown"))),
    .read "tea" .count, .clone "tea" "copy",
    .backend 0 (.index "Author" .refresh), .insert (author 4 "Tea Brown"),
    .search "authors" (.text "tea") (.of "Author") {}, .read "authors" .hits,
    .backend 0 (.index "Author" .reset),
    .backend 0 (.addBulk "Author" [author 2 "Tea Black", author 3 "Matt"])]

def cardIndex : Session := ofStore (Store.empty cardSchema) [] (.ofScorer flatScorer)

theorem local_besideLater : besideLater.Local cardSchema "Book" := by
  have hroot : cardSchema.rootOf "Book" = .ok "Book" := rfl
  have hkey : cardSchema.PlainPath "Book" "pk" := Or.inl rfl
  have hshelf : cardSchema.PlainPath "Book" "shelf" :=
    Or.inr ⟨"shelf", Field.filter "shelf", by with_unfolding_all rfl, rfl, rfl⟩
  have hlater : RecordSet.Local cardSchema "Book"
      ⟨"Book", some (.field "pk" (.compare .gt (.int 1))), [], none⟩ := by
    rw [RecordSet.Local, conditionLocal, Predicate.Local, Lookup.Local]
    exact ⟨hroot, ⟨hkey, trivial⟩, fun _ h => nomatch h⟩
  show RecordSet.Local cardSchema "Book" ⟨"Book", some (.field "shelf" (.within
    ⟨"Book", some (.field "pk" (.compare .gt (.int 1))), [], none⟩ "shelf")), [⟨"pk", true⟩], none⟩
  rw [RecordSet.Local, conditionLocal, Predicate.Local, Lookup.Local]
  exact ⟨hroot, ⟨hshelf, hlater, hshelf⟩, fun key hmem => List.mem_singleton.mp hmem ▸ hkey⟩

/-- Authors under the keys of both books have changed, and both views still show the two. -/
theorem answer_read_of_other_family_cards :
    let s := cardIndex.operate (cardStock ++ [.command teaBeside])
    let t := s.play authorRun
    (Schema.ofModels cardModels = .ok cardSchema ∧
      BackendClass.ConstructOnly [] Backend.Labelled ∧ (Backend.ofScorer flatScorer).Labelled ∧
      "Book" ≠ "Author" ∧ (∀ c ∈ authorRun, c.Concerns cardSchema "Author") ∧
      ∀ b, (s.view "tea").origin = some b → b.search.records.Local cardSchema "Book" ∧
        t.writes b.backend "Book" < UInt64.size) ∧
    (∀ n ∈ ["copy", "tea"], (Command.read n .hits).answer t = (Command.read "tea" .hits).answer s) ∧
    hitKeys ((Command.read "tea" .hits).answer s) = [4, 2] ∧
    (s.store.family "Author").keys = [1, 2] ∧ (t.store.family "Author").keys = [2, 4] ∧
    hitKeys ((Command.find (.text "tea") (.of "Author") {}).answer s) = [1] ∧
    hitKeys ((Command.find (.text "tea") (.of "Author") {}).answer t) = [2] := by
  intro s t
  have hclasses : BackendClass.ConstructOnly [] Backend.Labelled := fun _ h => nomatch h
  have hlabelled : (Backend.ofScorer flatScorer).Labelled := Backend.labelled_ofScorer flatScorer
  have hne : "Book" ≠ "Author" := by decide
  have hrun : ∀ c ∈ authorRun, c.Concerns cardSchema "Author" := by decide +kernel
  have hview : ∀ b, (s.view "tea").origin = some b → b.search.records.Local cardSchema "Book" ∧
      t.writes b.backend "Book" < UInt64.size := by
    intro b hb
    have hfound : teaBeside.answer (cardIndex.operate cardStock) = .ok .done := by decide +kernel
    have hs : s = teaBeside.next (cardIndex.operate cardStock) := by
      rw [← next_command]
      exact List.foldl_append
    rw [hs] at hb
    obtain ⟨hbackend, hrecords⟩ := kept_of_search hfound hb
    rw [hbackend, hrecords]
    exact ⟨local_besideLater, by decide +kernel⟩
  obtain ⟨-, hreads⟩ := answer_read_of_other_family ofModels_cardModels hclasses hlabelled
    (cardStock ++ [.command teaBeside]) hne hrun
  refine ⟨⟨ofModels_cardModels, hclasses, hlabelled, hne, hrun, hview⟩, fun n hn =>
    hreads "tea" n hn (fun b hb => ⟨(hview b hb).1, fun _ => (hview b hb).2⟩) .hits,
    by decide +kernel, by decide +kernel, by decide +kernel, by decide +kernel, by decide +kernel⟩

end Session

end Concordance
