import Concordance.Proofs.Session.Operation

/-!
# Operations that fail

Whatever an operation refuses it refuses before it has an effect. What an operation leaves of a
session is said of its backends one by one (`Leaves`): the store and all views stay, and there may
be new backends.

* `Leaves.answer_eq`: where only buffers differ, every search and every view answers the same.
* `unchanged_of_command`, `unchanged_of_registry`: an operation that fails leaves the store, every
  view and every index as they were, unless it does several things one after the other.
* `batchStopped_of_error`: records that are handed over together are buffered up to the first that
  fails.
* `rebuiltUpTo_of_error`: backends are rebuilt up to the first that the registry cannot give.
* **`refused_of_error`**: what any operation that fails leaves, in any session that operations have
  reached.
-/

namespace Concordance

namespace Backend

variable {models : List Model} {st : Store} {b c : Backend}

theorem Shows.of_sameIndexes (h : b.Shows st) (hbc : b.SameIndexes c) : c.Shows st := by
  refine ⟨fun root => ?_, fun root => ?_⟩
  · rw [hbc.2]
    exact h.labelled root
  · rw [hbc.2]
    exact h.upToDate root

/-- A rebuild succeeds, and leaves the backend showing the store. -/
theorem exists_rebuild (hs : Schema.Built models st.schema) (hst : st.Filed) (hb : b.Labelled)
    {chunkSize : Nat} (hk : 0 < chunkSize) :
    ∃ stats, ((rebuild st chunkSize).perform b).1 = .ok stats ∧
      ((rebuild st chunkSize).perform b).2.Shows st := by
  have hshows : ((rebuild st chunkSize).perform b).2.Shows st :=
    ⟨(keepsLabels_rebuild st chunkSize).moves b hb, upToDate_rebuild hs hst hb hk⟩
  cases chunkSize with
  | zero => nomatch hk
  | succ size =>
    obtain ⟨b', hrebuilt, -⟩ := perform_rebuild hs hst hb size
    exact ⟨_, congrArg Prod.fst hrebuilt, hshows⟩

end Backend

namespace Session

variable {models : List Model} {R R' : Instance → Backend → Backend → Prop} {s t u : Session}
  {e : Error}

/-! ## What is left of a session -/

/-- The store and all views are what they were, and each backend is related to what it was; there
may be new ones. -/
structure Leaves (R : Instance → Backend → Backend → Prop) (s t : Session) : Prop where
  store : t.store = s.store
  current : t.current = s.current
  length : s.backends.length ≤ t.backends.length
  backend : ∀ n < s.backends.length, R n (s.backend n) (t.backend n)
  view : ∀ name, t.view name = s.view name

/-- Nothing has changed, but for which empty indexes exist and for new backends. -/
def Unchanged : Session → Session → Prop := Leaves fun _ => Backend.SameIndexes

theorem unchanged_refl (s : Session) : Unchanged s s :=
  ⟨rfl, rfl, le_rfl, fun _ _ => Backend.sameIndexes_refl _, fun _ => rfl⟩

theorem Leaves.mono (h : Leaves R s t) (hR : ∀ n b c, R n b c → R' n b c) : Leaves R' s t :=
  ⟨h.store, h.current, h.length, fun n hn => hR n _ _ (h.backend n hn), h.view⟩

theorem Leaves.trans {R'' : Instance → Backend → Backend → Prop} (hst : Leaves R s t)
    (htu : Leaves R' t u) (hR : ∀ n b c d, R n b c → R' n c d → R'' n b d) : Leaves R'' s u :=
  ⟨htu.store.trans hst.store, htu.current.trans hst.current, hst.length.trans htu.length,
    fun n hn => hR n _ _ _ (hst.backend n hn) (htu.backend n (hn.trans_le hst.length)),
    fun name => (htu.view name).trans (hst.view name)⟩

/-- One backend is changed. -/
theorem leaves_set {n : Instance} {b : Backend} (hb : n < s.backends.length → R n (s.backend n) b)
    (hother : ∀ m, m ≠ n → R m (s.backend m) (s.backend m)) :
    Leaves R s { s with backends := s.backends.set n b } := by
  refine ⟨rfl, rfl, (List.length_set ..).ge, fun m hm => ?_, fun _ => rfl⟩
  rw [backend_set]
  by_cases hn : m = n
  · subst hn
    rw [if_pos ⟨rfl, hm⟩]
    exact hb hm
  · rw [if_neg fun h => hn h.1]
    exact hother m hn

theorem unchanged_set {n : Instance} {b : Backend} (hb : (s.backend n).SameIndexes b) :
    Unchanged s { s with backends := s.backends.set n b } :=
  leaves_set (fun _ => hb) fun _ _ => Backend.sameIndexes_refl _

/-- The same entries and versions, but for what is buffered. -/
def SameEntries (b c : Backend) : Prop :=
  c.scorer = b.scorer ∧ ∀ root, (c.index root).index = (b.index root).index

theorem sameEntries_of_sameIndexes {b c : Backend} (h : b.SameIndexes c) : SameEntries b c :=
  ⟨h.1, fun root => by rw [h.2]⟩

theorem Leaves.source_eq (h : Leaves (fun _ => SameEntries) s t) {b : BackendSearch}
    (hb : b.backend < s.backends.length) : t.source b = s.source b := by
  obtain ⟨hscorer, hindex⟩ := h.backend b.backend hb
  unfold source Backend.source
  rw [h.store, hscorer, hindex]

/-- **What is buffered is seen by no search and in no view.** -/
theorem Leaves.answer_eq (h : Leaves (fun _ => SameEntries) s t) (hs : Sound models s)
    {c : Command} (hc : c.isWrite = false) : c.answer t = c.answer s := by
  have hsought (query : SearchQuery) (records : RecordSet) (options : SearchOptions) :
      t.sought query records options = s.sought query records options := by
    unfold sought
    rw [h.store, h.current]
  cases c with
  | insert | delete | backend => nomatch hc
  | search name query records options => rw [answer_search, answer_search, hsought]
  | find query records options =>
    rw [answer_find, answer_find, hsought]
    rcases hb : s.sought query records options with _ | _ | b
    · rfl
    · rfl
    · have hcurrent := hs.current
      rw [← backend_of_sought hb] at hcurrent
      dsimp only
      rw [h.source_eq hcurrent]
  | read name readout =>
    rw [answer_read, answer_read, h.view,
      View.consume_congr fun b hb => h.source_eq (hs.viewed name b hb)]
  | clone => rfl

/-! ## Commands -/

/-- **A command that fails changes nothing**, unless it hands over records together. -/
theorem unchanged_of_command (hs : Sound models s) {c : Command}
    (hc : (Operation.command c).batch? = none) (h : c.answer s = .error e) :
    Unchanged s (c.next s) := by
  cases c with
  | insert r =>
    rw [next_insert, StoreWrite.apply]
    rw [answer_insert] at h
    cases hinsert : s.store.insert r with
    | error => exact unchanged_refl s
    | ok st =>
      rw [hinsert] at h
      cases h
  | delete model pk =>
    rw [next_delete, StoreWrite.apply]
    rw [answer_delete] at h
    cases hdelete : s.store.delete model pk with
    | error => exact unchanged_refl s
    | ok out =>
      rw [hdelete] at h
      cases h
  | backend n c =>
    rw [next_backend]
    refine unchanged_set (Backend.sameIndexes_of_run hs.built hs.filed (hs.labelled_backend n) ?_ h)
    exact Option.map_eq_none_iff.mp hc
  | search name query records options =>
    rw [next_search]
    rw [answer_search] at h
    cases hsought : s.sought query records options with
    | error => exact unchanged_refl s
    | ok b? =>
      rw [hsought] at h
      cases h
  | find query records options =>
    rw [next_find]
    rcases s.sought query records options with _ | _ | b
    · exact unchanged_refl s
    · exact unchanged_refl s
    · exact unchanged_set ⟨rfl, Backend.index_openIndex _ b.root⟩
  | read name readout =>
    rw [answer_read] at h
    rw [next_read, View.view_consume_of_error (error_of_map h)]
    refine ⟨rfl, rfl, le_rfl, fun _ _ => Backend.sameIndexes_refl _, fun other => ?_⟩
    rw [view_insert]
    split
    · rename_i hother
      rw [hother]
    · rfl
  | clone => cases h

/-! ## Asking for an index -/

theorem sameIndexes_indexFor (st : Store) (model : String) (b : Backend) :
    b.SameIndexes
      (((fun _ => ()) <$> Backend.onFamily st model Backend.info).perform b).2 := by
  unfold Backend.onFamily
  rw [Update.perform_map, Update.perform_ofResult_bind]
  rcases Backend.indexedRoot st.schema model with _ | _ | root
  · exact Backend.sameIndexes_refl b
  · exact Backend.sameIndexes_refl b
  · exact Backend.sameIndexes_setIndex rfl

theorem sameIndexes_addModel (st : Store) (model : String) (b : Backend) :
    b.SameIndexes (Update.perform (do
      let root ← Update.ofResult (Backend.addModel st model)
      modify (Backend.openIndex root)) b).2 := by
  rw [Update.perform_ofResult_bind]
  cases Backend.addModel st model with
  | error => exact Backend.sameIndexes_refl b
  | ok root => exact ⟨rfl, Backend.index_openIndex b root⟩

/-! ## Registries -/

/-- Constructing backends for a registry changes none that exists. -/
theorem unchanged_supply {good : Backend → Prop} {i : Nat} {q : Registry × Pool}
    (hq : Registry.Supplied good (s.registryAt i, s.backends) q) :
    Unchanged s { s with registries := s.registries.set i q.1, backends := q.2 } := by
  obtain ⟨new, hpool, -⟩ := hq.pool
  replace hpool : q.2 = s.backends ++ new := hpool
  refine ⟨rfl, rfl, ?_, fun n hn => ?_, fun _ => rfl⟩
  · show s.backends.length ≤ q.2.length
    rw [hpool, List.length_append]
    exact Nat.le_add_right _ _
  · have hbackend : q.2.getD n .standard = s.backend n := by
      rw [hpool]
      exact List.getD_append _ _ _ _ hn
    show Backend.SameIndexes (s.backend n) (q.2.getD n .standard)
    rw [hbackend]
    exact Backend.sameIndexes_refl _

theorem unchanged_getFrom (hs : Sound models s) (i : Nat) (requested : Option String) :
    Unchanged s ((getFrom i requested).perform s).2 :=
  unchanged_supply (Registry.supplied_get hs.classes requested (s.registryAt i, s.backends))

theorem unchanged_allFrom (hs : Sound models s) (i : Nat) (autoUpdateOnly : Bool) :
    Unchanged s ((allFrom i autoUpdateOnly).perform s).2 :=
  unchanged_supply (Registry.supplied_all hs.classes autoUpdateOnly (s.registryAt i, s.backends))

theorem unchanged_configure (config : Config) (s : Session) :
    Unchanged s ((configure config).perform s).2 := by
  rw [perform_configure]
  cases config.validate with
  | error => exact unchanged_refl s
  | ok => exact ⟨rfl, rfl, le_rfl, fun _ _ => Backend.sameIndexes_refl _, fun _ => rfl⟩

/-- A write to a backend that is never refused for a record of a declared type. -/
structure Accepted (models : List Model) (write : Store → Record → Update Backend Unit)
    (r : Record) : Prop where
  keeps : ∀ st, Update.Regular Backend.KeepsLabels Eq (write st r)
  succeeds : ∀ (st : Store) (b : Backend), Schema.Built models st.schema → b.Labelled →
    st.schema.contains r.model = true → ((write st r).perform b).1 = .ok ()

theorem accepted_add (r : Record) : Accepted models Backend.add r where
  keeps st := Backend.keepsLabels_add st r
  succeeds st b hs hb hr := by
    obtain ⟨root, hroot⟩ := Schema.exists_rootOf hr
    exact Backend.published_ok (FamilyIndex.addItem_eq st r) hb hroot
      (FamilyIndex.addition_eq hs hroot)

theorem accepted_delete (r : Record) : Accepted models Backend.delete r where
  keeps st := Backend.keepsLabels_delete st r
  succeeds st b hs hb hr := by
    obtain ⟨root, hroot⟩ := Schema.exists_rootOf hr
    exact Backend.published_ok (FamilyIndex.deleteItem_eq st r) hb hroot
      (FamilyIndex.removal_eq hroot)

section PassOn

variable {write : Store → Record → Update Backend Unit} {r : Record}
  (hwrite : Accepted models write r)

include hwrite

theorem passTo_ok (hs : Sound models s) (n : Instance) :
    ((passTo write r n).perform s).1 = .ok () := by
  unfold passTo
  rw [Update.perform_get_bind]
  split
  · rename_i hr
    exact hwrite.succeeds s.store (s.backend n) hs.built (hs.labelled_backend n) hr
  · rfl

theorem passTo_all_ok (hs : Sound models s) (instances : List Instance) :
    ((instances.forM (passTo write r)).perform s).1 = .ok () := by
  induction instances generalizing s with
  | nil => rfl
  | cons n instances ih =>
    show (Update.perform (passTo write r n >>= fun _ => instances.forM (passTo write r)) s).1 = _
    have hkept := (keeps_passTo hwrite.keeps n).moves s hs
    have hok := passTo_ok hwrite hs n
    rw [Update.perform_bind]
    generalize (passTo write r n).perform s = out at hkept hok ⊢
    rcases out with ⟨_ | _, t⟩
    · nomatch hok
    · exact ih hkept

/-- **A record that is passed on is refused only before any backend is written to.** -/
theorem unchanged_of_passOn (hs : Sound models s) (h : ((passOn write r).perform s).1 = .error e) :
    Unchanged s ((passOn write r).perform s).2 := by
  have hkept := (keeps_allFrom s.registry true).moves s hs
  have hunchanged := unchanged_allFrom hs s.registry true
  rw [perform_passOn, Update.perform_bind] at h ⊢
  generalize (allFrom s.registry true).perform s = out at hkept hunchanged h ⊢
  rcases out with ⟨_ | instances, t⟩
  · exact hunchanged
  · rw [passTo_all_ok hwrite hkept instances] at h
    nomatch h

end PassOn

/-- **A record that is saved is refused only by the store.** -/
theorem unchanged_of_save (hs : Sound models s) {r : Record}
    (h : ((save r).perform s).1 = .error e) : Unchanged s ((save r).perform s).2 := by
  have hkept := (keeps_insert r).moves s hs
  have hsave : (save r).perform s =
      Update.perform (insert r >>= fun _ => onCurrent fun st => Backend.add st r) s := rfl
  rw [hsave, Update.perform_bind, perform_insert] at h ⊢
  rw [perform_insert] at hkept
  cases hinsert : s.store.insert r with
  | error => exact unchanged_refl s
  | ok st =>
    rw [hinsert] at h hkept
    obtain ⟨root, hroot, -⟩ := ok_of_bind hinsert
    have hr : st.schema.contains r.model = true := by
      rw [(Store.later_insert hinsert).1]
      exact Schema.contains_of_rootOf hroot
    have hadded := (accepted_add r).succeeds st (s.backend s.current) hkept.built
      (hs.labelled_backend s.current) hr
    nomatch h.symm.trans hadded

/-! ## Rebuilding several backends -/

/-- The registry with a number has only come to know more instances. -/
structure Ahead (i : Nat) (s t : Session) : Prop where
  store : t.store = s.store
  classes : t.classes = s.classes
  length : t.registries.length = s.registries.length
  config : (t.registryAt i).config = (s.registryAt i).config
  cached : i < s.registries.length → ∀ key n,
    (s.registryAt i).cache.lookup key = some n → (t.registryAt i).cache.lookup key = some n

instance {i : Nat} : Std.Refl (Ahead i) := ⟨fun _ => ⟨rfl, rfl, rfl, rfl, fun _ _ _ => id⟩⟩

instance {i : Nat} : IsTrans Session (Ahead i) :=
  ⟨fun _ _ _ hst htu => ⟨htu.store.trans hst.store, htu.classes.trans hst.classes,
    htu.length.trans hst.length, htu.config.trans hst.config, fun hi key n hn =>
      htu.cached (hst.length ▸ hi) key n (hst.cached hi key n hn)⟩⟩

theorem registryAt_set (s : Session) (pool : Pool) (r : Registry) (i : Nat) :
    registryAt { s with registries := s.registries.set i r, backends := pool } i =
      if i < s.registries.length then r else s.registryAt i := by
  unfold registryAt
  rw [List.getD_eq_getElem?_getD, List.getD_eq_getElem?_getD, List.getElem?_set_self']
  split
  · rename_i hi
    rw [List.getElem?_eq_getElem hi]
    rfl
  · rename_i hi
    rw [List.getElem?_eq_none (Nat.le_of_not_lt hi)]
    rfl

theorem ahead_getFrom (i : Nat) (requested : Option String) :
    Update.Regular (Ahead i) Eq (getFrom i requested) := by
  refine Update.regular_of_moves fun s => ?_
  have hclasses : BackendClass.ConstructOnly s.classes fun _ => True :=
    fun _ _ _ _ _ => trivial
  have hsupplied := Registry.supplied_get hclasses requested (s.registryAt i, s.backends)
  refine ⟨rfl, rfl, List.length_set .., ?_, fun hi key n hn => ?_⟩
  · refine (congrArg Registry.config (registryAt_set s _ _ i)).trans ?_
    split
    · exact hsupplied.config
    · rfl
  · refine (congrArg (fun r => r.cache.lookup key) (registryAt_set s _ _ i)).trans ?_
    rw [if_pos hi]
    exact hsupplied.cached key n hn

theorem ahead_onBackend {α : Type} (i : Nat) (n : Instance) (x : Update Backend α) :
    Update.Regular (Ahead i) Eq (onBackend n x) :=
  Update.regular_of_moves fun _ => ⟨rfl, rfl, rfl, rfl, fun _ _ _ => id⟩

theorem ahead_rebuildOne (i : Nat) (st : Store) (chunkSize : Nat) (requested : Option String) :
    Update.Regular (Ahead i) Eq (rebuildOne i st chunkSize requested) :=
  Update.regular_bind (ahead_getFrom i requested) fun n => ahead_onBackend i n _

/-- The instance that a registry gives for a name. -/
def Gives (s : Session) (i : Nat) (requested : Option String) (n : Instance) : Prop :=
  ((getFrom i requested).perform s).1 = .ok n

section Given

variable {i : Nat} (hi : i < s.registries.length)

include hi

/-- **The instance that was given is given again.** -/
theorem gives_of_ahead {requested : Option String} {n : Instance} (h : s.Gives i requested n)
    (ht : Ahead i ((getFrom i requested).perform s).2 t) : t.Gives i requested n := by
  have hlength : i < ((getFrom i requested).perform s).2.registries.length :=
    hi.trans_eq (List.length_set ..).symm
  have hcached := ht.cached hlength
  have hconfig := ht.config
  have hclasses : t.classes = s.classes := ht.classes
  unfold Gives at h ⊢
  rw [perform_getFrom] at h hcached hconfig
  dsimp only at h hcached hconfig
  rw [registryAt_set, if_pos hi] at hcached hconfig
  rw [perform_getFrom, hclasses]
  exact congrArg Prod.fst (Registry.get_again h hconfig hcached)

theorem eq_of_getFrom_error {requested : Option String}
    (h : ((getFrom i requested).perform s).1 = .error e) :
    ((getFrom i requested).perform s).2 = s := by
  have hset : s.registries.set i (s.registryAt i) = s.registries := by
    unfold registryAt
    rw [List.getD_eq_getElem _ _ hi, List.set_getElem_self]
  rw [perform_getFrom] at h ⊢
  dsimp only at h ⊢
  rw [Registry.eq_of_get_error h, hset]

end Given

/-- Some backends have been rebuilt and show the store, and the others have not changed. -/
def RebuiltWhere (st : Store) (rebuilt : Instance → Prop) (n : Instance) (b c : Backend) : Prop :=
  (rebuilt n → c.Shows st) ∧ (¬rebuilt n → b.SameIndexes c)

/-- **The rebuild of one backend** fails only if the registry cannot give it. -/
theorem rebuildOne_cases (hs : Sound models s) {i : Nat} (hi : i < s.registries.length)
    {chunkSize : Nat} (hk : 0 < chunkSize) (requested : Option String) :
    (∃ e, ((getFrom i requested).perform s).1 = .error e ∧
      (rebuildOne i s.store chunkSize requested).perform s = (.error e, s)) ∨
    ∃ n stats t, (rebuildOne i s.store chunkSize requested).perform s = (.ok stats, t) ∧
      (∀ u, Ahead i t u → u.Gives i requested n) ∧
      Leaves (RebuiltWhere s.store fun m => m = n) s t := by
  have hgot := unchanged_getFrom hs i requested
  have hkept := (keeps_getFrom i requested).moves s hs
  unfold rebuildOne
  rw [Update.perform_bind]
  rcases hget : (getFrom i requested).perform s with ⟨e | n, u⟩
  · have heq := eq_of_getFrom_error hi (congrArg Prod.fst hget)
    rw [hget] at heq
    exact Or.inl ⟨e, rfl, congrArg _ heq⟩
  · rw [hget] at hgot hkept
    obtain ⟨stats, hstats, hshows⟩ := Backend.exists_rebuild (b := u.backend n) hs.built hs.filed
      (hkept.labelled_backend n) hk
    have hahead := (ahead_onBackend i n (Backend.rebuild s.store chunkSize)).moves u
    refine Or.inr ⟨n, stats, _, Prod.ext hstats rfl, fun v hv => ?_, ?_⟩
    · refine gives_of_ahead hi (congrArg Prod.fst hget) ?_
      rw [hget]
      exact IsTrans.trans _ _ _ hahead hv
    · have hset : Leaves (RebuiltWhere s.store fun m => m = n) u _ :=
        leaves_set (fun _ => ⟨fun _ => hshows, fun h => absurd rfl h⟩) fun m hm =>
          ⟨fun h => absurd h hm, fun _ => Backend.sameIndexes_refl _⟩
      exact hgot.trans hset fun m b c d hbc hcd => ⟨hcd.1, fun hm => hbc.trans (hcd.2 hm)⟩

/-- **Backends were rebuilt one after the other, up to the first that the registry cannot give**:
those before it show the store, and no other has changed. -/
def RebuiltUpTo (i : Nat) (names : List (Option String)) (e : Error) (s t : Session) : Prop :=
  ∃ before requested later, names = before ++ requested :: later ∧
    (∀ x ∈ before, ∃ n, t.Gives i x n) ∧ ((getFrom i requested).perform t).1 = .error e ∧
    Leaves (RebuiltWhere s.store fun n => ∃ x ∈ before, t.Gives i x n) s t

/-- The rebuild of one more backend, before the others. -/
theorem RebuiltUpTo.cons {i : Nat} {names : List (Option String)} {x : Option String}
    {n : Instance} (hstore : u.store = s.store)
    (hsu : Leaves (RebuiltWhere s.store fun m => m = n) s u)
    (hut : RebuiltUpTo i names e u t) (hx : t.Gives i x n) :
    RebuiltUpTo i (x :: names) e s t := by
  obtain ⟨before, requested, later, rfl, hbefore, hrefused, hothers⟩ := hut
  rw [hstore] at hothers
  refine ⟨x :: before, requested, later, rfl, ?_, hrefused, hsu.trans hothers ?_⟩
  · intro y hy
    rcases List.mem_cons.mp hy with rfl | hy
    · exact ⟨n, hx⟩
    · exact hbefore y hy
  rintro m b c d ⟨hrebuilt, hspared⟩ ⟨hlater, hsame⟩
  constructor
  · rintro ⟨y, hy, hgives⟩
    by_cases hagain : ∃ y ∈ before, t.Gives i y m
    · exact hlater hagain
    · -- only `x` gives this backend, and what followed left it alone
      rcases List.mem_cons.mp hy with rfl | hy
      · obtain rfl : m = n := Except.ok.inj (hgives.symm.trans hx)
        exact (hrebuilt rfl).of_sameIndexes (hsame hagain)
      · exact absurd ⟨y, hy, hgives⟩ hagain
  · intro hnone
    have hm : ¬m = n := fun hm => hnone ⟨x, List.mem_cons_self, hm ▸ hx⟩
    exact (hspared hm).trans
      (hsame fun ⟨y, hy, h⟩ => hnone ⟨y, List.mem_cons_of_mem _ hy, h⟩)

/-- **Rebuilding several backends stops at the first that the registry cannot give.** -/
theorem rebuiltUpTo_of_error (hs : Sound models s) {i : Nat} (hi : i < s.registries.length)
    {chunkSize : Nat} (hk : 0 < chunkSize) {names : List (Option String)}
    (h : ((names.mapM (rebuildOne i s.store chunkSize)).perform s).1 = .error e) :
    RebuiltUpTo i names e s ((names.mapM (rebuildOne i s.store chunkSize)).perform s).2 := by
  induction names generalizing s with
  | nil => nomatch h
  | cons x names ih =>
    rw [List.mapM_cons, Update.perform_bind] at h ⊢
    have hahead := (ahead_rebuildOne i s.store chunkSize x).moves s
    have hkept := (keeps_rebuildOne i s.store chunkSize x).moves s hs
    obtain ⟨e', hget, hfails⟩ | ⟨n, stats, u, hdone, hgives, hleaves⟩ :=
      rebuildOne_cases hs hi hk x
    · rw [hfails] at h ⊢
      cases h
      refine ⟨[], x, names, rfl, fun _ hx => absurd hx List.not_mem_nil, hget, ?_⟩
      exact (unchanged_refl s).mono fun n b c hbc =>
        ⟨fun ⟨_, hx, _⟩ => absurd hx List.not_mem_nil, fun _ => hbc⟩
    · rw [hdone] at h hahead hkept ⊢
      dsimp only at h hahead hkept ⊢
      obtain ⟨hrest, hsame⟩ := Update.perform_bind_of_error h fun _ _ h => nomatch h
      rw [hsame]
      have hlater := (Update.regular_mapM (ahead_rebuildOne i s.store chunkSize) names).moves u
      have hstore := hahead.store
      refine RebuiltUpTo.cons hstore hleaves ?_ (hgives _ hlater)
      rw [← hstore] at hrest ⊢
      exact ih hkept (hahead.length ▸ hi) hrest

/-- Of one name, nothing is rebuilt. -/
theorem RebuiltUpTo.unchanged {i : Nat} {x : Option String} (h : RebuiltUpTo i [x] e s t) :
    Unchanged s t := by
  obtain ⟨before, requested, later, hnames, -, -, hleaves⟩ := h
  have hbefore : before = [] := by
    cases before with
    | nil => rfl
    | cons _ before => cases before <;> nomatch hnames
  subst hbefore
  exact hleaves.mono fun n b c hbc => hbc.2 fun ⟨_, hx, _⟩ => absurd hx List.not_mem_nil

/-- **An operation of a registry that fails changes nothing**, unless it rebuilds all backends. -/
theorem unchanged_of_registry (hs : Sound models s) {c : RegistryCommand}
    (hc : (Operation.registry c).rebuilds = false) (h : (c.run.perform s).1 = .error e) :
    Unchanged s (c.run.perform s).2 := by
  cases c with
  | configure config => exact unchanged_configure config s
  | install config =>
    obtain ⟨-, hsame⟩ := Update.perform_bind_of_error (x := configure config) h
      fun _ _ h => nomatch h
    show Unchanged s ((install config).perform s).2
    unfold install
    rw [hsame]
    exact unchanged_configure config s
  | get i requested =>
    unfold RegistryCommand.run
    rw [Update.perform_map]
    exact unchanged_getFrom hs i requested
  | all i autoUpdateOnly =>
    unfold RegistryCommand.run
    rw [Update.perform_map]
    exact unchanged_allFrom hs i autoUpdateOnly
  | clear => nomatch h
  | use requested =>
    have hgot := unchanged_getFrom hs s.registry requested
    unfold RegistryCommand.run at h ⊢
    rw [Update.perform_map, perform_use] at h ⊢
    generalize (getFrom s.registry requested).perform s = out at h hgot ⊢
    rcases out with ⟨_ | n, t⟩
    · exact hgot
    · nomatch h
  | saved r => exact unchanged_of_passOn (accepted_add r) hs h
  | deleted r => exact unchanged_of_passOn (accepted_delete r) hs h
  | rebuildAll name =>
    cases name with
    | none => nomatch hc
    | some name =>
      unfold RegistryCommand.run at h ⊢
      rw [Update.perform_map, perform_rebuildAll] at h ⊢
      exact (rebuiltUpTo_of_error hs hs.registry (hs.size_at _) (error_of_map h)).unchanged

/-! ## Records handed over together -/

/-- Records were handed over together to an index of one backend, and one failed. -/
def BatchStopped (st : Store) (n : Instance) (model : String) (rs : List Record) (e : Error)
    (m : Instance) (b c : Backend) : Prop :=
  c.scorer = b.scorer ∧ ∀ root,
    (m = n ∧ Backend.indexedRoot st.schema model = .ok (some root) →
      FamilyIndex.Stopped st rs e (b.index root) (c.index root)) ∧
    (¬(m = n ∧ Backend.indexedRoot st.schema model = .ok (some root)) →
      c.index root = b.index root)

theorem BatchStopped.sameEntries {st : Store} {n m : Instance} {model : String}
    {rs : List Record} {b c : Backend} (h : BatchStopped st n model rs e m b c) :
    SameEntries b c := by
  refine ⟨h.1, fun root => ?_⟩
  obtain ⟨hstopped, hother⟩ := h.2 root
  by_cases hroot : m = n ∧ Backend.indexedRoot st.schema model = .ok (some root)
  · exact (hstopped hroot).index_eq
  · rw [hother hroot]

/-- **A batch stops at the first record that fails.** -/
theorem batchStopped_of_error {n : Instance} {c : BackendCommand} {model : String}
    {rs : List Record} (hc : c.batch? = some (model, rs))
    (h : (Command.backend n c).answer s = .error e) :
    Leaves (BatchStopped s.store n model rs e) s ((Command.backend n c).next s) := by
  rw [next_backend]
  refine leaves_set (fun _ => ?_) fun m hm => ⟨rfl, fun root =>
    ⟨fun h => absurd h.1 hm, fun _ => rfl⟩⟩
  obtain ⟨hunknown, hsame⟩ | ⟨root, hroot, hfails, hafter⟩ := Backend.failed_of_batch hc h
  · rw [hsame]
    refine ⟨rfl, fun root => ⟨fun h => ?_, fun _ => rfl⟩⟩
    rw [hunknown] at h
    nomatch h.2
  · rw [hafter]
    refine ⟨rfl, fun q => ?_⟩
    rw [Backend.index_setIndex]
    by_cases hq : q = root
    · subst hq
      rw [if_pos rfl]
      exact ⟨fun _ => FamilyIndex.stopped_of_addItems hfails, fun h => absurd ⟨rfl, hroot⟩ h⟩
    · rw [if_neg hq]
      refine ⟨fun h => ?_, fun _ => rfl⟩
      rw [hroot] at h
      cases h.2
      exact absurd rfl hq

/-! ## Whatever fails -/

/-- What an operation that failed has left. -/
structure Refused (op : Operation) (e : Error) (s t : Session) : Prop where
  /-- Nothing has changed, unless the operation does several things one after the other. -/
  unchanged : op.batch? = none → op.rebuilds = false → Unchanged s t
  /-- A batch has left buffered writes. -/
  batch : ∀ n model rs, op.batch? = some (n, model, rs) →
    Leaves (BatchStopped s.store n model rs e) s t
  /-- The rebuild of all backends has rebuilt some. -/
  rebuilt : op.rebuilds = true →
    RebuiltUpTo s.registry (Registry.names (s.registryAt s.registry).config false) e s t
  /-- Every search and every view answers as before, if nothing was rebuilt. -/
  answers : op.rebuilds = false → ∀ c : Command, c.isWrite = false → c.answer t = c.answer s

theorem unchanged_of_verdict (hs : Sound models s) {op : Operation} (hbatch : op.batch? = none)
    (hall : op.rebuilds = false) (h : op.verdict s = .error e) : Unchanged s (op.next s) := by
  cases op with
  | command c =>
    rw [verdict_command] at h
    rw [next_command]
    exact unchanged_of_command hs hbatch (error_of_map h)
  | indexFor n model => exact unchanged_set (sameIndexes_indexFor s.store model (s.backend n))
  | addModel n model => exact unchanged_set (sameIndexes_addModel s.store model (s.backend n))
  | ask question => exact unchanged_refl s
  | save r => exact unchanged_of_save hs h
  | registry c => exact unchanged_of_registry hs hall h

theorem batchStopped_of_verdict {op : Operation} {n : Instance} {model : String}
    {rs : List Record} (hbatch : op.batch? = some (n, model, rs)) (h : op.verdict s = .error e) :
    Leaves (BatchStopped s.store n model rs e) s (op.next s) := by
  cases op with
  | command c =>
    rw [verdict_command] at h
    rw [next_command]
    cases c with
    | backend m c =>
      obtain ⟨_, hc, heq⟩ := Option.map_eq_some_iff.mp hbatch
      cases heq
      exact batchStopped_of_error hc (error_of_map h)
    | insert | delete | search | find | read | clone => nomatch hbatch
  | indexFor | addModel | ask | save | registry => nomatch hbatch

theorem rebuiltUpTo_of_verdict (hs : Sound models s) {op : Operation} (hall : op.rebuilds = true)
    (h : op.verdict s = .error e) :
    RebuiltUpTo s.registry (Registry.names (s.registryAt s.registry).config false) e s
      (op.next s) := by
  unfold Operation.rebuilds at hall
  split at hall
  · unfold Operation.verdict at h
    unfold Operation.next
    unfold Operation.run RegistryCommand.run at h ⊢
    rw [Update.perform_map, perform_rebuildAll] at h ⊢
    exact rebuiltUpTo_of_error hs hs.registry (hs.size_at _) (error_of_map h)
  all_goals nomatch hall

/-- **What fails has done nothing, but for what it did step by step.** Let a session start over an
empty store with a backend in order, whose indexes stand under their roots, and let the classes of
backends construct such ones. In any state that operations have reached, an operation that fails
leaves the store, every view, and the entries, buffered writes and version of every index as they
were, with two exceptions. A batch, by `addItems` or `addBulk`, has buffered the writes of the
records before the first that fails, and nothing else; every search and every view answers as
before. And the rebuild of all backends that a registry configures has rebuilt those before the
first that the registry cannot give, and no other. -/
theorem refused_of_error {schema : Schema} (hs : Schema.ofModels models = .ok schema)
    {classes : List BackendClass} (hclasses : BackendClass.ConstructOnly classes Backend.Labelled)
    {b : Backend} (hb : b.Labelled) (past : List Operation) (op : Operation)
    (h : op.verdict ((ofStore (Store.empty schema) classes b).operate past) = .error e) :
    Refused op e ((ofStore (Store.empty schema) classes b).operate past)
      (op.next ((ofStore (Store.empty schema) classes b).operate past)) := by
  have hsound := (sound_ofStore hs hclasses hb).operate past
  generalize (ofStore (Store.empty schema) classes b).operate past = s at h hsound
  refine ⟨fun hbatch hall => unchanged_of_verdict hsound hbatch hall h,
    fun n model rs hbatch => batchStopped_of_verdict hbatch h,
    fun hall => rebuiltUpTo_of_verdict hsound hall h, fun hall c hc => ?_⟩
  -- all that can differ is what is buffered
  have hentries : Leaves (fun _ => SameEntries) s (op.next s) := by
    cases hbatch : op.batch? with
    | none =>
      exact (unchanged_of_verdict hsound hbatch hall h).mono fun _ _ _ =>
        sameEntries_of_sameIndexes
    | some batch => exact (batchStopped_of_verdict hbatch h).mono fun _ _ _ h => h.sameEntries
  exact hentries.answer_eq hsound hc

/-- A class of backends that are constructed with the usual scorer. -/
def deskClasses : List BackendClass := [⟨"desk::SearchBackend", fun _ => .ok .standard⟩]

/-- Two backends are configured; the path of the second leads nowhere. -/
def deskConfig : Config := ⟨2, [⟨"main", "desk", true, ∅⟩, ⟨"spare", "attic", true, ∅⟩]⟩

/-- A desk in an empty library. -/
def desk : Session := ofStore (.empty librarySchema) deskClasses .standard

/-- A book is stored, and the first configured backend comes into use: a search there finds nothing
as yet. At the desk's own backend another book is buffered. -/
def deskPast : List Operation :=
  [.command (.insert (titled "Book" 1 "Tea")), .registry (.configure deskConfig),
    .registry (.use (some "main")),
    .command (.search "all" (.text "tea") (.of "Book") { byRelevance := false }),
    .command (.backend 0 (.index "Book" (.addItem (titled "Book" 2 "Coffee"))))]

/-- A batch with a shelf between two books. -/
def mixedBatch : Operation :=
  .command (.backend 0 (.addBulk "Book"
    [titled "Book" 3 "Mate", titled "Shelf" 9 "Tall", titled "Book" 4 "Cocoa"]))

theorem constructOnly_deskClasses : BackendClass.ConstructOnly deskClasses Backend.Labelled := by
  intro c hc options b hb
  rw [List.mem_singleton.mp hc] at hb
  cases hb
  exact Backend.labelled_ofScorer .standard

/-- The book before the shelf is buffered beside the one that was, and nothing is published. -/
theorem refused_of_error_mixedBatch :
    let s := desk.operate deskPast
    let t := mixedBatch.next s
    let fault : Error := .invalidValue (.family "Shelf" "Book")
    (Schema.ofModels libraryModels = .ok librarySchema ∧
      BackendClass.ConstructOnly deskClasses Backend.Labelled ∧ Backend.standard.Labelled ∧
      mixedBatch.verdict s = .error fault) ∧
    Refused mixedBatch fault s t ∧
    ((s.backend 0).index "Book").pending.keys = [2] ∧
    ((t.backend 0).index "Book").pending.keys = [2, 3] ∧
    ((t.backend 0).index "Book").index.entries.keys = [] := by
  intro s t fault
  have hlabelled : Backend.standard.Labelled := Backend.labelled_ofScorer .standard
  have hverdict : mixedBatch.verdict s = .error fault := by decide +kernel
  exact ⟨⟨ofModels_libraryModels, constructOnly_deskClasses, hlabelled, hverdict⟩,
    refused_of_error ofModels_libraryModels constructOnly_deskClasses hlabelled deskPast
      mixedBatch hverdict, by decide +kernel, by decide +kernel, by decide +kernel⟩

/-- **The rebuild of all backends can fail after it has rebuilt one.** The backend in use comes to
show the book before the path of the other is found to lead nowhere. -/
theorem rebuilt_before_refusal :
    let s := desk.operate deskPast
    let op : Operation := .registry (.rebuildAll none)
    let t := op.next s
    Schema.ofModels libraryModels = .ok librarySchema ∧
    op.verdict s = .error (.invalidBackend "spare" (.unresolved "attic")) ∧ op.batch? = none ∧
    s.current = 1 ∧
    ((s.backend 1).index "Book").index.entries.keys = [] ∧
    ((t.backend 1).index "Book").index.entries.keys = [1] ∧
    (Command.read "all" .count).answer s = .ok (.count 0) ∧
    (Command.read "all" .count).answer t = .ok (.count 1) ∧ ¬Unchanged s t := by
  intro s op t
  have hbefore : ((s.backend 1).index "Book").index.entries.keys = [] := by decide +kernel
  have hafter : ((t.backend 1).index "Book").index.entries.keys = [1] := by decide +kernel
  refine ⟨ofModels_libraryModels, by decide +kernel, rfl, by decide +kernel, hbefore, hafter,
    by decide +kernel, by decide +kernel, fun hsame => ?_⟩
  have hindex := (hsame.backend 1 (by decide +kernel)).2 "Book"
  rw [hindex, hbefore] at hafter
  nomatch hafter

end Session

end Concordance
