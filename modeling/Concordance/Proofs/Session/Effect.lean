import Concordance.Proofs.Backend.Regular
import Concordance.Proofs.Session.Command
import Concordance.Proofs.Store
import Concordance.Proofs.View

/-!
# What commands do to the store and the backends

* `regular_write`: a write leaves the store and every index as they were, or raises their version;
  and what it answers and leaves depends neither on versions nor on which empty indexes exist.
* `same_next`: a command that does not write leaves the store and every index as they were. A
  search may create an index, but an index without entries is read like one that does not exist.

So in every run the store and the indexes only move on with their versions (`grows_play`), and
leaving out of a run whatever does not write makes no difference to the answers of later writes
and searches (`alike_play`, `Alike.answer_eq`).
-/

namespace Concordance

/-! ## Writes to the store -/

namespace Store

theorem later_insert {st st' : Store} {r : Record} (h : st.insert r = .ok st') :
    st'.schema = st.schema ∧ Later version st st' := by
  obtain ⟨root, -, h⟩ := ok_of_bind h
  cases h
  exact ⟨rfl, Or.inr (Nat.lt_succ_self _)⟩

/-- A deletion that finds no record changes nothing; every other one counts. -/
theorem later_delete {st st' : Store} {model : String} {pk : Key} {removed : Option Record}
    (h : st.delete model pk = .ok (removed, st')) :
    st'.schema = st.schema ∧ Later version st st' := by
  obtain ⟨root, -, h⟩ := ok_of_bind h
  split at h
  · cases h
    exact ⟨rfl, later_refl st⟩
  · cases h
    exact ⟨rfl, Or.inr (Nat.lt_succ_self _)⟩

end Store

namespace Session

/-! ## How sessions compare -/

/-- The store and each index are what they were, or their version has grown. -/
structure Grows (s t : Session) : Prop where
  schema : t.store.schema = s.store.schema
  current : t.current = s.current
  store : Later Store.version s.store t.store
  backend : ∀ n, Backend.Grows (s.backend n) (t.backend n)

/-- The store and the indexes have grown, and the views are what they were. -/
structure Written (s t : Session) : Prop extends Grows s t where
  views : t.views = s.views

/-- The same store and indexes, but for versions and for which empty indexes exist. Views may
differ. -/
structure Alike (s t : Session) : Prop where
  store : s.store = t.store
  current : s.current = t.current
  length : s.backends.length = t.backends.length
  backend : ∀ n, Backend.Alike (s.backend n) (t.backend n)

/-- The same store and indexes, but for which empty indexes exist. Views may differ. -/
structure Same (s t : Session) : Prop where
  store : t.store = s.store
  current : t.current = s.current
  length : t.backends.length = s.backends.length
  scorer : ∀ n, (t.backend n).scorer = (s.backend n).scorer
  index : ∀ n root, (t.backend n).index root = (s.backend n).index root

theorem Grows.refl (s : Session) : Grows s s :=
  ⟨rfl, rfl, later_refl _, fun _ => Backend.grows_refl _⟩

theorem Grows.trans {s t u : Session} (hst : Grows s t) (htu : Grows t u) : Grows s u :=
  ⟨htu.schema.trans hst.schema, htu.current.trans hst.current, later_trans hst.store htu.store,
    fun n => Backend.grows_trans (hst.backend n) (htu.backend n)⟩

theorem Same.refl (s : Session) : Same s s := ⟨rfl, rfl, rfl, fun _ => rfl, fun _ _ => rfl⟩

theorem Same.grows {s t : Session} (h : Same s t) : Grows s t where
  schema := by rw [h.store]
  current := h.current
  store := Or.inl h.store
  backend n := by
    refine ⟨h.scorer n, fun root => ?_⟩
    rw [h.index n root]
    exact later_refl _

theorem Alike.trans_same {s t u : Session} (h : Alike s t) (hsame : Same t u) : Alike s u where
  store := h.store.trans hsame.store.symm
  current := h.current.trans hsame.current.symm
  length := h.length.trans hsame.length.symm
  backend n := by
    refine ⟨(h.backend n).1.trans (hsame.scorer n).symm, fun root => ?_⟩
    rw [hsame.index n root]
    exact (h.backend n).2 root

theorem Alike.refl (s : Session) : Alike s s :=
  ⟨rfl, rfl, rfl, fun _ => ⟨rfl, fun _ => rfl⟩⟩

theorem Grows.writes_le {s t : Session} (h : Grows s t) (n : Instance) (root : String) :
    s.writes n root ≤ t.writes n root :=
  Nat.add_le_add ((h.backend n).2 root).version_le h.store.version_le

/-- **Without a further write a source shows the same.** -/
theorem source_eq_of_writes {s t : Session} {b : BackendSearch}
    (hstore : Later Store.version s.store t.store)
    (hbackend : Backend.Grows (s.backend b.backend) (t.backend b.backend))
    (hwrites : t.writes b.backend b.root = s.writes b.backend b.root) :
    t.source b = s.source b := by
  have hindexLe := (hbackend.2 b.root).version_le
  have hstoreLe := hstore.version_le
  unfold writes at hwrites
  have hi : ((t.backend b.backend).index b.root).index =
      ((s.backend b.backend).index b.root).index :=
    (hbackend.2 b.root).eq_of_version (by omega)
  have hs : t.store = s.store := hstore.eq_of_version (by omega)
  unfold source Backend.source
  rw [hi, hs, hbackend.1]

theorem Same.source_eq {s t : Session} (h : Same s t) (b : BackendSearch) :
    t.source b = s.source b := by
  unfold source Backend.source
  rw [h.store, h.scorer, h.index]

/-- What a search finds depends neither on versions nor on which empty indexes exist. -/
theorem Alike.source_fetch {s t : Session} (h : Alike s t) (b : BackendSearch) :
    (s.source b).fetch () = (t.source b).fetch () := by
  show b.search.hits s.store ((s.backend b.backend).index b.root).index
      (s.backend b.backend).scorer =
    b.search.hits t.store ((t.backend b.backend).index b.root).index (t.backend b.backend).scorer
  rw [h.store, (h.backend b.backend).1]
  exact b.search.hits_congr t.store ((h.backend b.backend).2 b.root).index_eq _

/-! ## Writes -/

theorem backend_set (s : Session) (n m : Instance) (b : Backend) :
    backend { s with backends := s.backends.set n b } m =
      if m = n ∧ n < s.backends.length then b else s.backend m := by
  unfold backend
  rw [List.getD_eq_getElem?_getD, List.getD_eq_getElem?_getD, List.getElem?_set]
  by_cases hm : n = m
  · subst hm
    by_cases hn : n < s.backends.length
    · simp [hn]
    · simp [hn]
  · simp [hm, Ne.symm hm]

instance : Std.Refl Written := ⟨fun s => ⟨Grows.refl s, rfl⟩⟩

instance : IsTrans Session Written :=
  ⟨fun _ _ _ hst htu => ⟨hst.toGrows.trans htu.toGrows, htu.views.trans hst.views⟩⟩

/-- **An operation on a backend is regular on the session.** -/
theorem regular_onBackend {α : Type} {x : Update Backend α}
    (hx : Update.Regular Backend.Grows Backend.Alike x) (n : Instance) :
    Update.Regular Written Alike (onBackend n x) := by
  refine Update.regular_within hx (fun s t h => h.backend n) (fun s b hb => ?_)
    (fun s t b c h hbc => ?_)
  · refine ⟨⟨rfl, rfl, later_refl _, fun m => ?_⟩, rfl⟩
    rw [backend_set]
    split
    · rename_i hm
      exact hm.1 ▸ hb
    · exact Backend.grows_refl _
  · refine ⟨h.store, h.current, ?_, fun m => ?_⟩
    · rw [List.length_set, List.length_set]
      exact h.length
    · rw [backend_set, backend_set, h.length]
      split
      · exact hbc
      · exact h.backend m

/-- A write to the store that gives a value and a later store over the same schema, or fails. -/
theorem regular_onStore {α : Type} (write : Store → Result (α × Store)) {x : Update Session α}
    (hx : ∀ s, x.perform s = match write s.store with
      | .ok (a, st) => (.ok a, { s with store := st })
      | .error e => (.error e, s))
    (hwrite : ∀ st a st', write st = .ok (a, st') →
      st'.schema = st.schema ∧ Later Store.version st st') :
    Update.Regular Written Alike x where
  moves s := by
    rw [hx]
    cases hw : write s.store with
    | error e => exact Std.Refl.refl s
    | ok out =>
      obtain ⟨a, st⟩ := out
      obtain ⟨hschema, hlater⟩ := hwrite _ _ _ hw
      exact ⟨⟨hschema, rfl, hlater, fun _ => Backend.grows_refl _⟩, rfl⟩
  agrees s t h := by
    rw [hx, hx, h.store]
    cases write t.store with
    | error e => exact ⟨rfl, h⟩
    | ok out => exact ⟨rfl, rfl, h.current, h.length, h.backend⟩

theorem regular_insert (r : Record) : Update.Regular Written Alike (insert r) := by
  refine regular_onStore (fun st => (st.insert r).map fun st' => ((), st'))
    (fun s => ?_) (fun st a st' h => ?_)
  · show Update.perform (Update.ofResult (s.store.insert r) >>= _) s = _
    rw [Update.perform_ofResult_bind]
    cases s.store.insert r <;> rfl
  · cases hinsert : st.insert r with
    | error e =>
      rw [hinsert] at h
      nomatch h
    | ok st'' =>
      rw [hinsert] at h
      cases h
      exact Store.later_insert hinsert

theorem regular_delete (model : String) (pk : Key) :
    Update.Regular Written Alike (delete model pk) := by
  refine regular_onStore (fun st => st.delete model pk)
    (fun s => ?_) (fun st a st' h => ?_)
  · show Update.perform (Update.ofResult (s.store.delete model pk) >>= _) s = _
    rw [Update.perform_ofResult_bind]
    rcases s.store.delete model pk with _ | ⟨_, _⟩ <;> rfl
  · exact Store.later_delete h

end Session

theorem IndexCommand.regular_run (st : Store) (c : IndexCommand) :
    Update.Regular FamilyIndex.Grows FamilyIndex.Alike (c.run st) := by
  cases c with
  | addItem r => exact FamilyIndex.regular_addItem st r
  | addItems rs => exact FamilyIndex.regular_addItems st rs
  | deleteItem r => exact FamilyIndex.regular_deleteItem st r
  | refresh => exact FamilyIndex.regular_publish
  | reset => exact FamilyIndex.regular_reset

theorem BackendCommand.regular_run (st : Store) (c : BackendCommand) :
    Update.Regular Backend.Grows Backend.Alike (c.run st) := by
  cases c with
  | index model c =>
    exact Update.regular_map _ (Backend.regular_onFamily (c.regular_run st) st model)
  | add r => exact Update.regular_map _ (Backend.regular_add st r)
  | addBulk model rs => exact Update.regular_map _ (Backend.regular_addBulk st model rs)
  | delete r => exact Update.regular_map _ (Backend.regular_delete st r)
  | refreshAll => exact Update.regular_map _ Backend.regular_refreshAll
  | resetAll => exact Update.regular_map _ Backend.regular_resetAll
  | rebuild chunkSize => exact Update.regular_map _ (Backend.regular_rebuild st chunkSize)

/-- The writes to the store that a command makes. -/
def Command.storeWrites : Command → List StoreWrite
  | insert r => [.insert r]
  | delete model pk => [.delete model pk]
  | backend _ _ | search _ _ _ _ | find _ _ _ | read _ _ | clone _ _ => []

namespace Session

/-- **Every write is regular on the session.** -/
theorem regular_write {c : Command} (hc : c.isWrite = true) :
    Update.Regular Written Alike c.run := by
  cases c with
  | insert r => exact Update.regular_map _ (regular_insert r)
  | delete model pk => exact Update.regular_map _ (regular_delete model pk)
  | backend n c =>
    have hrun : ∀ s : Session, (Command.backend n c).run.perform s =
        (onBackend n (c.run s.store)).perform s :=
      Update.perform_get_bind fun s => onBackend n (c.run s.store)
    constructor
    · intro s
      rw [hrun]
      exact (regular_onBackend (c.regular_run s.store) n).moves s
    · intro s t h
      rw [hrun, hrun, h.store]
      exact (regular_onBackend (c.regular_run t.store) n).agrees s t h
  | search | find | read | clone => nomatch hc

/-! ## Searches -/

/-- The search on the current backend that a query compiles to, if there is one. -/
def sought (s : Session) (query : SearchQuery) (records : RecordSet) (options : SearchOptions) :
    Result (Option BackendSearch) := do
  match ← compileSearch s.store.schema query records options with
  | none => return none
  | some c => return some ⟨s.current, ← s.store.schema.rootOf c.model, c⟩

/-- The session with an index of the current backend created. -/
def opened (s : Session) (root : String) : Session :=
  { s with backends := s.backends.set s.current ((s.backend s.current).openIndex root) }

theorem same_opened (s : Session) (root : String) : Same s (s.opened root) where
  store := rfl
  current := rfl
  length := List.length_set ..
  scorer n := by
    unfold opened
    rw [backend_set]
    split
    · rename_i hn
      rw [hn.1]
      rfl
    · rfl
  index n q := by
    unfold opened
    rw [backend_set]
    split
    · rename_i hn
      rw [hn.1, Backend.index_openIndex]
    · rfl

/-- A search fails, finds nothing by its form, or creates the index it is on. -/
theorem perform_search (s : Session) (query : SearchQuery) (records : RecordSet)
    (options : SearchOptions) :
    (search query records options).perform s = match s.sought query records options with
      | .error e => (.error e, s)
      | .ok none => (.ok .empty, s)
      | .ok (some b) => (.ok (.ofSource b none), s.opened b.root) := by
  unfold sought
  show Update.perform (Update.ofResult (compileSearch s.store.schema query records options) >>= _)
    s = _
  rw [Update.perform_ofResult_bind]
  rcases compileSearch s.store.schema query records options with e | _ | c
  · rfl
  · rfl
  · show Update.perform (Update.ofResult (s.store.schema.rootOf c.model) >>= _) s = _
    rw [Update.perform_ofResult_bind]
    cases hroot : s.store.schema.rootOf c.model with
    | error e => simp only [bind, Except.bind, hroot]
    | ok root =>
      simp only [bind, Except.bind, hroot]
      rfl

theorem perform_find (s : Session) (query : SearchQuery) (records : RecordSet)
    (options : SearchOptions) :
    (find query records options).perform s = match s.sought query records options with
      | .error e => (.error e, s)
      | .ok none => (.ok [], s)
      | .ok (some b) => (((s.opened b.root).source b).fetch (), s.opened b.root) := by
  unfold find
  rw [Update.perform_bind, perform_search]
  rcases s.sought query records options with e | _ | b
  · rfl
  · rfl
  · exact congrArg (fun hs => (hs, s.opened b.root))
      (View.answer_refetch b none ((s.opened b.root).source b))

theorem perform_hits (s : Session) (name : String) :
    (hits name).perform s = (((s.view name).consume s.source).answer,
      { s with views := s.views.insert name ((s.view name).consume s.source).view }) := rfl

/-! ## Commands -/

theorem perform_insert (s : Session) (r : Record) :
    (insert r).perform s = match s.store.insert r with
      | .ok st => (.ok (), { s with store := st })
      | .error e => (.error e, s) := by
  show Update.perform (Update.ofResult (s.store.insert r) >>= _) s = _
  rw [Update.perform_ofResult_bind]
  cases s.store.insert r <;> rfl

theorem next_insert (s : Session) (r : Record) :
    (Command.insert r).next s = { s with store := (StoreWrite.insert r).apply s.store } := by
  show (Update.perform (_ <$> insert r) s).2 = _
  rw [Update.perform_map, perform_insert, StoreWrite.apply]
  cases s.store.insert r <;> rfl

theorem answer_insert (s : Session) (r : Record) :
    (Command.insert r).answer s = (s.store.insert r).map fun _ => .done := by
  show (Update.perform (_ <$> insert r) s).1 = _
  rw [Update.perform_map, perform_insert]
  cases s.store.insert r <;> rfl

theorem perform_delete (s : Session) (model : String) (pk : Key) :
    (delete model pk).perform s = match s.store.delete model pk with
      | .ok (removed, st) => (.ok removed, { s with store := st })
      | .error e => (.error e, s) := by
  show Update.perform (Update.ofResult (s.store.delete model pk) >>= _) s = _
  rw [Update.perform_ofResult_bind]
  rcases s.store.delete model pk with _ | ⟨_, _⟩ <;> rfl

theorem next_delete (s : Session) (model : String) (pk : Key) :
    (Command.delete model pk).next s =
      { s with store := (StoreWrite.delete model pk).apply s.store } := by
  show (Update.perform (_ <$> delete model pk) s).2 = _
  rw [Update.perform_map, perform_delete, StoreWrite.apply]
  rcases s.store.delete model pk with _ | ⟨_, _⟩ <;> rfl

theorem answer_delete (s : Session) (model : String) (pk : Key) :
    (Command.delete model pk).answer s =
      (s.store.delete model pk).map fun out => .record out.1 := by
  show (Update.perform (_ <$> delete model pk) s).1 = _
  rw [Update.perform_map, perform_delete]
  rcases s.store.delete model pk with _ | ⟨_, _⟩ <;> rfl

theorem next_backend (s : Session) (n : Instance) (c : BackendCommand) :
    (Command.backend n c).next s =
      { s with backends := s.backends.set n ((c.run s.store).perform (s.backend n)).2 } := rfl

/-- A backend of the session is rebuilt from the store. -/
theorem backend_rebuild {s : Session} {n : Instance} (hn : n < s.backends.length)
    (chunkSize : Nat) : ((Command.backend n (.rebuild chunkSize)).next s).backend n =
      ((Backend.rebuild s.store chunkSize).perform (s.backend n)).2 := by
  have hrun : ((BackendCommand.rebuild chunkSize).run s.store).perform (s.backend n) = _ :=
    Update.perform_map _ _ _
  rw [next_backend, backend_set, if_pos ⟨rfl, hn⟩, hrun]

theorem next_search (s : Session) (name : String) (query : SearchQuery) (records : RecordSet)
    (options : SearchOptions) :
    (Command.search name query records options).next s =
      match s.sought query records options with
      | .error _ => s
      | .ok none => { s with views := s.views.insert name .empty }
      | .ok (some b) =>
        { s.opened b.root with views := s.views.insert name (.ofSource b none) } := by
  show (Update.perform (search query records options >>= _) s).2 = _
  rw [Update.perform_bind, perform_search]
  rcases s.sought query records options with _ | _ | b <;> rfl

theorem answer_search (s : Session) (name : String) (query : SearchQuery) (records : RecordSet)
    (options : SearchOptions) :
    (Command.search name query records options).answer s =
      (s.sought query records options).map fun _ => .done := by
  show (Update.perform (search query records options >>= _) s).1 = _
  rw [Update.perform_bind, perform_search]
  rcases s.sought query records options with _ | _ | b <;> rfl

theorem next_find (s : Session) (query : SearchQuery) (records : RecordSet)
    (options : SearchOptions) :
    (Command.find query records options).next s =
      match s.sought query records options with
      | .error _ | .ok none => s
      | .ok (some b) => s.opened b.root := by
  show ((Answer.hits <$> find query records options).perform s).2 = _
  rw [Update.perform_map, perform_find]
  rcases s.sought query records options with _ | _ | b <;> rfl

theorem answer_find (s : Session) (query : SearchQuery) (records : RecordSet)
    (options : SearchOptions) :
    (Command.find query records options).answer s =
      match s.sought query records options with
      | .error e => .error e
      | .ok none => .ok (.hits [])
      | .ok (some b) => ((s.source b).fetch ()).map Answer.hits := by
  show ((Answer.hits <$> find query records options).perform s).1 = _
  rw [Update.perform_map, perform_find]
  rcases s.sought query records options with _ | _ | b
  · rfl
  · rfl
  · show (((s.opened b.root).source b).fetch ()).map _ = _
    rw [(same_opened s b.root).source_eq]

theorem next_read (s : Session) (name : String) (readout : Readout) :
    (Command.read name readout).next s =
      { s with views := s.views.insert name ((s.view name).consume s.source).view } := by
  show ((readout.answer <$> hits name).perform s).2 = _
  rw [Update.perform_map, perform_hits]

theorem answer_read (s : Session) (name : String) (readout : Readout) :
    (Command.read name readout).answer s =
      ((s.view name).consume s.source).answer.map fun hs => readout.answer hs := by
  show ((readout.answer <$> hits name).perform s).1 = _
  rw [Update.perform_map, perform_hits]

theorem next_clone (s : Session) (name other : String) :
    (Command.clone name other).next s =
      { s with views := s.views.insert other (s.view name).fresh } := rfl

theorem Same.with_views {s t : Session} (h : Same s t)
    (views : SortedMap String (View BackendSearch)) : Same s { t with views := views } :=
  ⟨h.store, h.current, h.length, h.scorer, h.index⟩

/-- **A command that does not write leaves the store and every index as they were.** -/
theorem same_next {c : Command} (hc : c.isWrite = false) (s : Session) : Same s (c.next s) := by
  cases c with
  | insert | delete | backend => nomatch hc
  | search name query records options =>
    rw [next_search]
    rcases s.sought query records options with _ | _ | b
    · exact Same.refl s
    · exact (Same.refl s).with_views _
    · exact (same_opened s b.root).with_views _
  | find query records options =>
    rw [next_find]
    rcases s.sought query records options with _ | _ | b
    · exact Same.refl s
    · exact Same.refl s
    · exact same_opened s b.root
  | read name readout =>
    rw [next_read]
    exact (Same.refl s).with_views _
  | clone name other =>
    rw [next_clone]
    exact (Same.refl s).with_views _

/-- **After any command the store and every index are what they were, or their version has
grown.** -/
theorem grows_next (c : Command) (s : Session) : Grows s (c.next s) := by
  cases hc : c.isWrite with
  | true => exact ((regular_write hc).moves s).toGrows
  | false => exact (same_next hc s).grows

theorem Alike.sought_eq {s t : Session} (h : Alike s t) (query : SearchQuery)
    (records : RecordSet) (options : SearchOptions) :
    s.sought query records options = t.sought query records options := by
  unfold sought
  rw [h.store, h.current]

/-- A command that reads no view answers the same in sessions that are alike. -/
theorem Alike.answer_eq {s t : Session} (h : Alike s t) {c : Command} (hc : c.usesView = false) :
    c.answer s = c.answer t := by
  cases c with
  | insert | delete | backend => exact ((regular_write rfl).agrees s t h).1
  | search name query records options => rw [answer_search, answer_search, h.sought_eq]
  | find query records options =>
    rw [answer_find, answer_find, h.sought_eq]
    rcases t.sought query records options with _ | _ | b
    · rfl
    · rfl
    · exact congrArg (Except.map Answer.hits) (h.source_fetch b)
  | read | clone => nomatch hc

/-! ## Runs -/

theorem play_append (s : Session) (cs ds : List Command) :
    s.play (cs ++ ds) = (s.play cs).play ds := List.foldl_append

theorem grows_play (cs : List Command) (s : Session) : Grows s (s.play cs) := by
  induction cs generalizing s with
  | nil => exact Grows.refl s
  | cons c cs ih => exact (grows_next c s).trans (ih (c.next s))

theorem store_next (c : Command) (s : Session) :
    (c.next s).store = s.store.after c.storeWrites := by
  cases c with
  | insert r =>
    rw [next_insert]
    rfl
  | delete model pk =>
    rw [next_delete]
    rfl
  | backend n bc =>
    rw [next_backend]
    rfl
  | search | find | read | clone => exact (same_next rfl s).store

/-- **A run makes its writes to the store**, and nothing else changes it. -/
theorem store_play (cs : List Command) (s : Session) :
    (s.play cs).store = s.store.after (cs.flatMap Command.storeWrites) := by
  induction cs generalizing s with
  | nil => rfl
  | cons c cs ih =>
    refine (ih (c.next s)).trans ?_
    rw [store_next, List.flatMap_cons]
    exact List.foldl_append.symm

/-- **Leaving out of a run whatever does not write makes no difference** to the store and the
indexes, but for versions and for which empty indexes exist. -/
theorem alike_play (cs : List Command) {s t : Session} (h : Alike s t) :
    Alike (s.play (cs.filter Command.isWrite)) (t.play cs) := by
  induction cs generalizing s t with
  | nil => exact h
  | cons c cs ih =>
    cases hc : c.isWrite with
    | true =>
      rw [List.filter_cons_of_pos hc]
      exact ih ((regular_write hc).agrees s t h).2
    | false =>
      rw [List.filter_cons_of_neg (by simp [hc])]
      exact ih (h.trans_same (same_next hc t))

end Session

end Concordance
