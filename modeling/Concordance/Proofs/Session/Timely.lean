import Concordance.Proofs.Session.Hits
import Concordance.Proofs.Session.Refusal

/-!
# Views in the sessions that operations reach

Registries construct backends and change which one is in use, so the sessions before and after an
operation cannot be compared backend by backend; but the backends that are there only move on with
their versions, and no operation other than a command touches a view (`Carried`).

* `Timely` says of a session that each view holds nothing or what was right at some number of
  writes, and that it is on the index of the family of its model. All operations keep it
  (`Timely.operate`).
* **`Timely.answer_read`**: in every session that operations reach, reading a view is evaluating its
  compiled search.
-/

namespace Concordance

namespace Session

variable {models : List Model} {s t : Session}

/-! ## Operations other than commands -/

/-- The store and the backends that were there have moved on with their versions, and the views are
what they were. -/
structure Carried (s t : Session) : Prop where
  schema : t.store.schema = s.store.schema
  store : Later Store.version s.store t.store
  backend : ∀ n < s.backends.length, Backend.Grows (s.backend n) (t.backend n)
  length : s.backends.length ≤ t.backends.length
  view : ∀ name, t.view name = s.view name

instance : Std.Refl Carried :=
  ⟨fun _ => ⟨rfl, later_refl _, fun _ _ => Backend.grows_refl _, le_rfl, fun _ => rfl⟩⟩

instance : IsTrans Session Carried :=
  ⟨fun _ _ _ hst htu => ⟨htu.schema.trans hst.schema, later_trans hst.store htu.store,
    fun n hn => Backend.grows_trans (hst.backend n hn) (htu.backend n (hn.trans_le hst.length)),
    hst.length.trans htu.length, fun name => (htu.view name).trans (hst.view name)⟩⟩

theorem carried_of_unchanged (h : Unchanged s t) : Carried s t where
  schema := by rw [h.store]
  store := Or.inl h.store
  backend n hn := by
    obtain ⟨hscorer, hindex⟩ := h.backend n hn
    refine ⟨hscorer, fun root => ?_⟩
    rw [hindex]
    exact later_refl _
  length := h.length
  view := h.view

theorem carried_onBackend {α : Type} {x : Update Backend α}
    (hx : ∀ b, Backend.Grows b (x.perform b).2) (n : Instance) :
    Update.Regular Carried Eq (onBackend n x) :=
  Update.regular_of_moves fun s => by
    refine ⟨rfl, later_refl _, fun m _ => ?_, (List.length_set ..).ge, fun _ => rfl⟩
    show Backend.Grows (s.backend m)
      (backend { s with backends := s.backends.set n (x.perform (s.backend n)).2 } m)
    rw [backend_set]
    split
    · rename_i hm
      rw [hm.1]
      exact hx (s.backend n)
    · exact Backend.grows_refl _

theorem carried_getFrom (i : Nat) (requested : Option String) :
    Update.Regular Carried Eq (getFrom i requested) :=
  Update.regular_of_moves fun s =>
    have hclasses : BackendClass.ConstructOnly s.classes fun _ => True := fun _ _ _ _ _ => trivial
    carried_of_unchanged (unchanged_supply
      (Registry.supplied_get hclasses requested (s.registryAt i, s.backends)))

theorem carried_allFrom (i : Nat) (autoUpdateOnly : Bool) :
    Update.Regular Carried Eq (allFrom i autoUpdateOnly) :=
  Update.regular_of_moves fun s =>
    have hclasses : BackendClass.ConstructOnly s.classes fun _ => True := fun _ _ _ _ _ => trivial
    carried_of_unchanged (unchanged_supply
      (Registry.supplied_all hclasses autoUpdateOnly (s.registryAt i, s.backends)))

theorem carried_configure (config : Config) : Update.Regular Carried Eq (configure config) :=
  Update.regular_of_moves fun s => carried_of_unchanged (unchanged_configure config s)

/-- Which backend or registry is in use, and what registries know, is seen by no view. -/
theorem carried_of_eq (hstore : t.store = s.store) (hbackends : t.backends = s.backends)
    (hviews : t.views = s.views) : Carried s t where
  schema := by rw [hstore]
  store := Or.inl hstore
  backend n _ := by
    unfold backend
    rw [hbackends]
    exact Backend.grows_refl _
  length := by rw [hbackends]
  view name := by
    unfold view
    rw [hviews]

theorem carried_use (requested : Option String) :
    Update.Regular Carried Eq (use requested) := by
  refine Update.regular_of_moves fun s => ?_
  have hget := (carried_getFrom s.registry requested).moves s
  rw [perform_use]
  generalize (getFrom s.registry requested).perform s = out at hget ⊢
  rcases out with ⟨_ | n, t⟩
  · exact hget
  · exact IsTrans.trans _ _ _ hget (carried_of_eq rfl rfl rfl)

theorem carried_passOn {write : Store → Record → Update Backend Unit} {r : Record}
    (hwrite : ∀ st b, Backend.Grows b ((write st r).perform b).2) :
    Update.Regular Carried Eq (passOn write r) := by
  have hpass (n : Instance) : Update.Regular Carried Eq (passTo write r n) := by
    refine Update.regular_bind Update.regular_get fun s => ?_
    split
    · exact carried_onBackend (hwrite s.store) n
    · exact Update.regular_pure ()
  exact Update.regular_bind Update.regular_get fun s =>
    Update.regular_bind (carried_allFrom s.registry true) fun instances =>
      Update.regular_forM hpass instances

theorem carried_rebuildAll (name : Option String) :
    Update.Regular Carried Eq (rebuildAll name) := by
  have hone (i : Nat) (st : Store) (chunkSize : Nat) (requested : Option String) :
      Update.Regular Carried Eq (rebuildOne i st chunkSize requested) :=
    Update.regular_bind (carried_getFrom i requested) fun n =>
      carried_onBackend (Backend.regular_rebuild st chunkSize).moves n
  exact Update.regular_bind Update.regular_get fun s =>
    Update.regular_mapM (hone s.registry s.store _) _

theorem carried_registryCommand (c : RegistryCommand) : Update.Regular Carried Eq c.run := by
  cases c with
  | configure config => exact carried_configure config
  | install config =>
    exact Update.regular_bind (carried_configure config) fun _ =>
      Update.regular_of_moves fun _ => carried_of_eq rfl rfl rfl
  | get i requested => exact Update.regular_map _ (carried_getFrom i requested)
  | all i autoUpdateOnly => exact Update.regular_map _ (carried_allFrom i autoUpdateOnly)
  | clear i => exact Update.regular_of_moves fun _ => carried_of_eq rfl rfl rfl
  | use requested => exact Update.regular_map _ (carried_use requested)
  | saved r => exact carried_passOn fun st => (Backend.regular_add st r).moves
  | deleted r => exact carried_passOn fun st => (Backend.regular_delete st r).moves
  | rebuildAll name => exact Update.regular_map _ (carried_rebuildAll name)

theorem carried_insert (r : Record) : Update.Regular Carried Eq (insert r) := by
  refine Update.regular_of_moves fun s => ?_
  rw [perform_insert]
  cases hinsert : s.store.insert r with
  | error e => exact Std.Refl.refl s
  | ok st =>
    obtain ⟨hschema, hlater⟩ := Store.later_insert hinsert
    exact ⟨hschema, hlater, fun _ _ => Backend.grows_refl _, le_rfl, fun _ => rfl⟩

/-- **An operation that is no command carries the views along.** -/
theorem carried_next {op : Operation} (hop : ∀ c, op ≠ .command c) (s : Session) :
    Carried s (op.next s) := by
  have hgrows {b c : Backend} (h : b.SameIndexes c) : Backend.Grows b c :=
    ⟨h.1, fun root => by rw [h.2]; exact later_refl _⟩
  cases op with
  | command c => exact absurd rfl (hop c)
  | indexFor n model =>
    exact (carried_onBackend (fun b => hgrows (sameIndexes_indexFor s.store model b)) n).moves s
  | addModel n model =>
    exact (carried_onBackend (fun b => hgrows (sameIndexes_addModel s.store model b)) n).moves s
  | ask question => exact Std.Refl.refl s
  | save r =>
    exact (Update.regular_bind (carried_insert r) fun _ =>
      Update.regular_bind Update.regular_get fun s =>
        carried_onBackend (Backend.regular_add s.store r).moves s.current).moves s
  | registry c => exact (carried_registryCommand c).moves s

/-! ## Timely sessions -/

/-- A session in which nothing has been written. -/
def blank : Session := ofStore (.empty ⟨[]⟩) [] .standard

theorem writes_blank (n : Instance) (root : String) : blank.writes n root = 0 := by
  cases n <;> rfl

/-- Each view holds nothing or what was right at some number of writes, and is on the index of the
family of its model. -/
structure Timely (s : Session) : Prop where
  fresh : ∀ name, Fresh blank s (s.view name)
  rooted : ∀ name b, (s.view name).origin = some b →
    s.store.schema.rootOf b.search.model = .ok b.root

theorem timely_ofStore (store : Store) (classes : List BackendClass) (b : Backend) :
    Timely (ofStore store classes b) where
  fresh _ := fresh_of_not_held rfl
  rooted _ _ h := nomatch h

theorem Timely.carried (h : Timely s) (hs : Sound models s) (hst : Carried s t) : Timely t where
  fresh name := by
    rw [hst.view]
    exact (h.fresh name).of_later hst.store fun b hb =>
      hst.backend b.backend (hs.viewed name b hb)
  rooted name b hb := by
    rw [hst.view] at hb
    rw [hst.schema]
    exact h.rooted name b hb

/-- **Every command keeps a session timely.** -/
theorem Timely.next_command (h : Timely s) (c : Command) : Timely (c.next s) where
  fresh := fresh_next (fun n root => (writes_blank n root).trans_le (Nat.zero_le _)) h.fresh c
  rooted name b hb := by
    rw [(grows_next c s).schema]
    cases c with
    | insert | delete | backend =>
      rw [view_of_write rfl] at hb
      exact h.rooted name b hb
    | find query records options =>
      rw [view_find] at hb
      exact h.rooted name b hb
    | search other query records options =>
      obtain ⟨-, -, hnext⟩ | ⟨b?, hsought, v, horigin, -, hview⟩ :=
        view_search s other query records options
      · rw [hnext] at hb
        exact h.rooted name b hb
      · rw [hview] at hb
        split at hb
        · obtain ⟨_, -, ⟨-, hnone⟩ | ⟨c, root, -, -, hroot, hsome⟩⟩ := compiled_of_sought hsought
          · rw [horigin, hnone] at hb
            nomatch hb
          · rw [horigin, hsome] at hb
            cases hb
            exact hroot
        · exact h.rooted name b hb
    | read other readout =>
      rw [next_read, view_insert] at hb
      split at hb
      · rw [View.origin_consume] at hb
        exact h.rooted other b hb
      · exact h.rooted name b hb
    | clone held other =>
      rw [next_clone, view_insert] at hb
      split at hb
      · rw [View.origin_fresh] at hb
        exact h.rooted held b hb
      · exact h.rooted name b hb

theorem Timely.next (h : Timely s) (hs : Sound models s) (op : Operation) : Timely (op.next s) := by
  by_cases hop : ∃ c, op = .command c
  · obtain ⟨c, rfl⟩ := hop
    rw [Session.next_command]
    exact h.next_command c
  · exact h.carried hs (carried_next (fun c hc => hop ⟨c, hc⟩) s)

theorem schema_next (op : Operation) (s : Session) : (op.next s).store.schema = s.store.schema := by
  by_cases hop : ∃ c, op = .command c
  · obtain ⟨c, rfl⟩ := hop
    rw [Session.next_command]
    exact (grows_next c s).schema
  · exact (carried_next (fun c hc => hop ⟨c, hc⟩) s).schema

/-- No operation changes the schema. -/
theorem schema_operate (ops : List Operation) (s : Session) :
    (s.operate ops).store.schema = s.store.schema := by
  induction ops generalizing s with
  | nil => rfl
  | cons op ops ih => exact (ih (op.next s)).trans (schema_next op s)

/-- **Every session that operations reach is timely.** -/
theorem Timely.operate (h : Timely s) (hs : Sound models s) (ops : List Operation) :
    Timely (s.operate ops) := by
  induction ops generalizing s with
  | nil => exact h
  | cons op ops ih => exact ih (h.next hs op) (hs.next op)

/-- **In a timely session reading a view is evaluating its search**, if there were fewer than
`2 ^ 64` writes for what it holds to be told from what is right. -/
theorem Timely.answer_read (h : Timely s) {name : String} {b : BackendSearch}
    (horigin : (s.view name).origin = some b)
    (hfew : (s.view name).isHeld = true → s.writes b.backend b.root < UInt64.size)
    (readout : Readout) :
    (Command.read name readout).answer s =
      ((s.source b).fetch ()).map fun hs => readout.answer hs := by
  refine answer_read_of_origin (h.fresh name) horigin (fun hheld => ?_) readout
  rw [writes_blank, Nat.zero_add]
  exact hfew hheld

end Session

end Concordance
