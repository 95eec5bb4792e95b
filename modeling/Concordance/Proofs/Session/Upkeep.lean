import Concordance.Proofs.Backend.Rebuild
import Concordance.Proofs.Session.Effect

/-!
# Keeping a backend up with the store

After a rebuild a program can keep the entries of a backend right without another one: each record
that it saves it also adds to the backend, and each record that a removal gives back it also
deletes there (`Upkeep`). Where no relation is searchable an entry depends on its record alone, so
one write changes the entry under one key, in the index as in a rebuild.

There is one exception. A record of a type without searchable fields is not indexed, and adding it
changes nothing: if it is saved over a record that has an entry, this entry stays, where a rebuild
would drop it (`entry_outlives_record`). What the index says is therefore what a rebuild would say
of the store as it would be if these saves had not happened (`StoreWrite.searched`).

* `index_published`, `entry?_published`: what adding and deleting do to each index.
* `Follows`: the index of a session follows a store; `follows_next` for one step.
* **`entries_of_upkeep`**: after any upkeep the entries are those of a rebuild, except under keys
  that hold a record of a type without searchable fields.
-/

namespace Concordance

namespace FamilyIndex

/-- Nothing is buffered, and everything stands under its key. -/
structure Settled (f : FamilyIndex) : Prop extends Keyed f where
  pending_eq : f.pending = ∅

variable {f : FamilyIndex} {w? : Option (Key × PendingWrite)}

theorem keyed_bufferAny (hf : Keyed f) (hw : ∀ pk w, w? = some (pk, w) → Addressed pk w) :
    Keyed (f.bufferAny w?) := by
  cases w? with
  | none => exact hf
  | some w => exact keyed_buffer hf (hw w.1 w.2 rfl)

/-- The entry under a key after a write, if there is one. -/
def entryAfter (pk : Key) (old : Option IndexEntry) :
    Option (Key × PendingWrite) → Option IndexEntry
  | some (q, w) => if pk = q then w.entry? else old
  | none => old

/-- **A write that is made visible at once changes one entry.** -/
theorem entry?_published (hf : Settled f) (hw : ∀ pk w, w? = some (pk, w) → Addressed pk w)
    (pk : Key) :
    (f.bufferAny w?).refresh.index.entry? pk = entryAfter pk (f.index.entry? pk) w? := by
  have hbefore := upcoming?_of_pending hf.pending_eq pk
  rw [entry?_refresh (keyed_bufferAny hf.toKeyed hw)]
  cases w? with
  | none => exact hbefore
  | some w =>
    rw [← hbefore]
    exact upcoming?_buffer f w.1 pk w.2

theorem entry?_of_upToDate {st : Store} {root : String} (h : UpToDate st root f) (pk : Key) :
    f.index.entry? pk = ((st.family root).get? pk).bind (entryOf? st) := by
  refine Option.ext fun e => ?_
  rw [h.entry, Option.bind_eq_some_iff]
  exact exists_congr fun r => and_congr_right fun _ => entryOf?_eq_some_iff.symm

end FamilyIndex

open FamilyIndex

namespace Backend

variable {b : Backend} {st : Store} {model root : String}

/-! ## Adding and deleting -/

/-- A write to the index of a model that is not declared fails. -/
theorem published_of_unknown {e : Error} (hroot : st.schema.rootOf model = .error e)
    (x : Update FamilyIndex Unit) :
    (Update.perform (do
      let _ ← onFamily st model do
        x
        publish) b).2 = b := by
  have hindexed : indexedRoot st.schema model = .error e := by
    unfold indexedRoot
    rw [hroot]
    rfl
  unfold onFamily
  rw [hindexed]
  rfl

/-- **Adding and deleting change the index of the record's family, if it is indexed.** -/
theorem index_published {step : FamilyIndex → Result FamilyIndex}
    {verdict : String → Result (Option (Key × PendingWrite))}
    (hstep : ∀ f, step f = (verdict f.root).map f.bufferAny) (hb : Labelled b)
    (hroot : st.schema.rootOf model = .ok root) {w? : Option (Key × PendingWrite)}
    (hw : verdict root = .ok w?) (q : String) :
    (Update.perform (do
      let _ ← onFamily st model do
        change step
        publish) b).2.index q =
      if q = root ∧ st.schema.hasIndexedFamily root = true then
        ((b.index q).bufferAny w?).refresh
      else b.index q := by
  unfold onFamily
  rw [indexedRoot_eq hroot]
  by_cases hindexed : st.schema.hasIndexedFamily root = true
  · have hchange : Update.perform (do change step; publish) (b.index root) =
        (.ok (), ((b.index root).bufferAny w?).refresh) := by
      have hfirst := hstep (b.index root)
      rw [hb root, hw] at hfirst
      rw [Update.perform_bind, perform_change_ok hfirst]
      rfl
    have hdone : (Update.perform (do
        let _ ← some <$> onIndex root (do change step; publish)
        pure ()) b).2 = b.setIndex root ((b.index root).bufferAny w?).refresh := by
      rw [Update.perform_bind, Update.perform_map, perform_onIndex, hchange]
      rfl
    rw [if_pos hindexed]
    refine (congrArg (fun c : Backend => c.index q) hdone).trans ?_
    rw [index_setIndex]
    by_cases hq : q = root
    · rw [if_pos hq, if_pos ⟨hq, hindexed⟩, hq]
    · rw [if_neg hq, if_neg fun h => hq h.1]
  · rw [if_neg hindexed, if_neg fun h => hindexed h.2]
    rfl

end Backend

/-! ## What the indexes show -/

/-- Whether a write is one that a search could come to show: not so an insertion of a record of a
type without searchable fields. -/
def StoreWrite.searched (s : Schema) : StoreWrite → Bool
  | insert r => s.isIndexed r.model
  | delete _ _ => true

/-- The store after those of some writes that a search could come to show. -/
def Store.showing (st : Store) (ws : List StoreWrite) : Store :=
  st.after (ws.filter fun w => w.searched st.schema)

namespace Store

theorem schema_showing (st : Store) (ws : List StoreWrite) : (st.showing ws).schema = st.schema :=
  schema_after st _

theorem showing_append (st : Store) (ws vs : List StoreWrite) :
    st.showing (ws ++ vs) = (st.showing ws).showing vs := by
  unfold showing
  rw [List.filter_append, schema_after]
  exact List.foldl_append

theorem showing_insert {st : Store} {r : Record} (h : st.schema.isIndexed r.model = true) :
    st.showing [.insert r] = (StoreWrite.insert r).apply st := by
  unfold showing
  rw [List.filter_cons_of_pos (by exact h)]
  rfl

theorem showing_insert_plain {st : Store} {r : Record}
    (h : st.schema.isIndexed r.model = false) : st.showing [.insert r] = st := by
  unfold showing
  rw [List.filter_cons_of_neg (by simp [StoreWrite.searched, h])]
  rfl

theorem showing_delete (st : Store) (model : String) (pk : Key) :
    st.showing [.delete model pk] = (StoreWrite.delete model pk).apply st := rfl

end Store

/-- Entries are those of the records of a store, and nothing is buffered. -/
structure Backend.Shows (st : Store) (b : Backend) : Prop where
  labelled : b.Labelled
  upToDate : ∀ root, UpToDate st root (b.index root)

section Shows

variable {models : List Model} {seen st : Store} {b : Backend}
  (hs : Schema.Built models seen.schema) (hseen : seen.Filed)

/-- Where no relation is searchable, the entry of a record is the same over every store. -/
theorem entryOf?_congr (hs : Schema.Built models seen.schema) (hrel : UnrelatedSearch models)
    (hschema : st.schema = seen.schema) (r : Record) : entryOf? st r = entryOf? seen r := by
  unfold entryOf?
  rw [buildEntry_congr hs hrel hschema]

theorem settled_of_upToDate (hseen : seen.Filed) {root : String} {f : FamilyIndex}
    (hf : UpToDate seen root f) : Settled f where
  index pk e he := by
    obtain ⟨r, hr, he⟩ := (hf.entry pk e).mp he
    rw [pk_of_buildEntry he]
    exact (hseen root pk r hr).1
  pending pk w hw := by
    rw [hf.pending] at hw
    nomatch hw
  pending_eq := hf.pending

include hs hseen

/-- A family without a searchable field has no entries. -/
theorem entry?_of_bare {root : String} (hroot : seen.schema.rootOf root = .ok root)
    (hbare : ¬seen.schema.hasIndexedFamily root = true) (pk : Key) :
    ((seen.family root).get? pk).bind (entryOf? seen) = none := by
  refine Option.bind_eq_none_iff.mpr fun r hr => ?_
  have hmodel := (hseen root pk r hr).2
  exact entryOf?_eq_none hs (Schema.contains_of_rootOf hmodel)
    (Bool.eq_false_of_not_eq_true fun h =>
      hbare ((hs.hasIndexedFamily_iff hroot).mpr ⟨_, hmodel, h⟩))

variable (hrel : UnrelatedSearch models) (hschema : st.schema = seen.schema) (hb : b.Shows seen)

include hrel hschema hb

/-- **A write to a backend shows a change of the store** if the records that change have the
entries that the write leaves. -/
theorem shows_published {step : FamilyIndex → Result FamilyIndex}
    {verdict : String → Result (Option (Key × PendingWrite))}
    (hstep : ∀ f, step f = (verdict f.root).map f.bufferAny) {model root : String}
    (hroot : seen.schema.rootOf model = .ok root) {w? : Option (Key × PendingWrite)}
    (hw : verdict root = .ok w?) (haddressed : ∀ pk w, w? = some (pk, w) → Addressed pk w)
    {seen' : Store} (hschema' : seen'.schema = seen.schema) (hseen' : seen'.Filed)
    (hother : ∀ q, q ≠ root → seen'.family q = seen.family q)
    (hentry : ∀ pk, ((seen'.family root).get? pk).bind (entryOf? seen) =
      entryAfter pk (((seen.family root).get? pk).bind (entryOf? seen)) w?) :
    (Update.perform (do
      let _ ← Backend.onFamily st model do
        change step
        Backend.publish) b).2.Shows seen' := by
  have hs' : Schema.Built models seen'.schema := hschema' ▸ hs
  have hsame : entryOf? seen' = entryOf? seen := funext (entryOf?_congr hs hrel hschema')
  have hindex := Backend.index_published hstep hb.labelled (hschema ▸ hroot) hw
  constructor
  · exact (Backend.keepsLabels_published (sameRoot_change hstep) st model).moves b hb.labelled
  · intro q
    have hold := entry?_of_upToDate (hb.upToDate q)
    have hself := hs.rootOf_root hroot
    rw [hindex, hschema]
    by_cases hq : q = root ∧ seen.schema.hasIndexedFamily root = true
    · rw [if_pos hq]
      obtain ⟨rfl, -⟩ := hq
      refine upToDate_of_entry? hs' hseen' rfl fun pk => ?_
      have hsettled := settled_of_upToDate hseen (hb.upToDate q)
      rw [entry?_published hsettled haddressed, hsame, hentry, hold]
    · rw [if_neg hq]
      refine upToDate_of_entry? hs' hseen' (hb.upToDate q).pending fun pk => ?_
      rw [hold]
      by_cases hfamily : q = root
      · subst hfamily
        have hbare : ¬seen.schema.hasIndexedFamily q = true := fun h => hq ⟨rfl, h⟩
        rw [entry?_of_bare hs hseen hself hbare,
          entry?_of_bare hs' hseen' (hschema' ▸ hself) (hschema' ▸ hbare)]
      · rw [hsame, hother q hfamily]

/-- Adding a record of a type without searchable fields shows nothing. -/
theorem shows_add_plain {r : Record} (hplain : seen.schema.isIndexed r.model = false) :
    ((Backend.add st r).perform b).2.Shows seen := by
  cases hroot : seen.schema.rootOf r.model with
  | error e =>
    unfold Backend.add
    rw [Backend.published_of_unknown (hschema ▸ hroot)]
    exact hb
  | ok root =>
    have hadd := addition_eq (hschema ▸ hs) (hschema ▸ hroot)
    rw [entryOf?_congr hs hrel hschema,
      entryOf?_eq_none hs (Schema.contains_of_rootOf hroot) hplain] at hadd
    exact shows_published hs hseen hrel hschema hb (addItem_eq st r) hroot hadd
      (fun _ _ h => nomatch h) rfl hseen (fun _ _ => rfl) fun _ => rfl

/-- **Adding a record of a type with a searchable field shows its insertion.** -/
theorem shows_add {r : Record}
    (hindexed : seen.schema.isIndexed r.model = true) :
    ((Backend.add st r).perform b).2.Shows ((StoreWrite.insert r).apply seen) := by
  have hmodel := Schema.contains_of_isIndexed hindexed
  obtain ⟨root, hroot⟩ := Schema.exists_rootOf hmodel
  have hadd := addition_eq (hschema ▸ hs) (hschema ▸ hroot)
  have haddressed : ∀ pk w, (entryOf? st r).map (fun e => (r.pk, .put e)) = some (pk, w) →
      Addressed pk w := fun pk w h => addressed_addition (by rw [hadd, h])
  have hsome := isSome_entryOf? hs hmodel
  rw [hindexed] at hsome
  obtain ⟨e, he⟩ := Option.isSome_iff_exists.mp hsome
  rw [entryOf?_congr hs hrel hschema, he] at hadd haddressed
  refine shows_published hs hseen hrel hschema hb (addItem_eq st r) hroot hadd haddressed
    (Store.schema_apply seen _) (Store.filed_apply hseen _) (fun q hq => ?_) fun pk => ?_
  · refine SortedMap.ext_get? fun pk => ?_
    rw [Store.get?_apply_insert hroot, if_neg fun h => hq h.1]
  · rw [Store.get?_apply_insert hroot]
    by_cases hpk : pk = r.pk
    · rw [if_pos ⟨rfl, hpk⟩, Option.bind_some, he]
      exact (if_pos hpk).symm
    · rw [if_neg fun h => hpk h.2]
      exact (if_neg hpk).symm

/-- **Deleting a record shows its removal.** -/
theorem shows_delete {r : Record} {model : String} {root : String}
    (hroot : seen.schema.rootOf r.model = .ok root)
    (hmodel : seen.schema.rootOf model = .ok root) :
    ((Backend.delete st r).perform b).2.Shows ((StoreWrite.delete model r.pk).apply seen) := by
  have hremove := removal_eq (hschema ▸ hroot)
  refine shows_published hs hseen hrel hschema hb (deleteItem_eq st r) hroot hremove
    (fun pk w h => addressed_removal (by rw [hremove, h])) (Store.schema_apply seen _)
    (Store.filed_apply hseen _) (fun q hq => ?_) fun pk => ?_
  · refine SortedMap.ext_get? fun pk => ?_
    rw [Store.get?_apply_delete hmodel, if_neg fun h => hq h.1]
  · rw [Store.get?_apply_delete hmodel]
    by_cases hpk : pk = r.pk
    · rw [if_pos ⟨rfl, hpk⟩]
      exact (if_pos hpk).symm
    · rw [if_neg fun h => hpk h.2]
      exact (if_neg hpk).symm

end Shows

/-! ## Steps -/

/-- Whether a command leaves the store and a backend alone. -/
def Command.spares (n : Instance) : Command → Bool
  | insert _ | delete _ _ => false
  | backend m _ => m != n
  | search _ _ _ _ | find _ _ _ | read _ _ | clone _ _ => true

/-- A step of a program that keeps a backend up with the store. -/
inductive Upkeep (n : Instance) where
  /-- Inserts a record into the store and adds it to the backend. -/
  | save (r : Record)
  /-- Deletes from the store, and deletes what was removed from the backend. -/
  | remove (model : String) (pk : Key)
  /-- Does something else. -/
  | aside (c : Command) (h : c.spares n = true)

namespace Upkeep

variable {n : Instance}

/-- The session after a step. -/
def next (s : Session) : Upkeep n → Session
  | save r => s.play [.insert r, .backend n (.add r)]
  | remove model pk =>
    match (Command.delete model pk).answer s with
    | .ok (.record (some r)) => s.play [.delete model pk, .backend n (.delete r)]
    | _ => (Command.delete model pk).next s
  | aside c _ => c.next s

/-- The writes to the store that a step makes. -/
def writes : Upkeep n → List StoreWrite
  | save r => [.insert r]
  | remove model pk => [.delete model pk]
  | aside _ _ => []

end Upkeep

namespace Session

/-- The session after steps of upkeep. -/
def keepUp {n : Instance} (s : Session) (steps : List (Upkeep n)) : Session :=
  steps.foldl Upkeep.next s

/-! ### The commands of a step -/

/-- A write to the store, and then one to a backend. -/
theorem play_pair {s : Session} {c : Command} {st : Store} (hc : c.next s = { s with store := st })
    {n : Instance} (hn : n < s.backends.length) (bc : BackendCommand) :
    (s.play [c, .backend n bc]).store = st ∧
      (s.play [c, .backend n bc]).backends.length = s.backends.length ∧
      (s.play [c, .backend n bc]).backend n = ((bc.run st).perform (s.backend n)).2 := by
  have hplay : s.play [c, .backend n bc] = (Command.backend n bc).next { s with store := st } := by
    rw [← hc]
    rfl
  rw [hplay, next_backend]
  refine ⟨rfl, List.length_set .., ?_⟩
  exact (backend_set { s with store := st } n n _).trans (if_pos ⟨rfl, hn⟩)

/-! ### Following the store -/

/-- The store is one that the index shows, but for records of types without searchable fields. -/
def Covers (st seen : Store) : Prop :=
  ∀ root pk, (st.family root).get? pk = (seen.family root).get? pk ∨
    ∃ r, (st.family root).get? pk = some r ∧ seen.schema.isIndexed r.model = false

/-- A backend of the session shows a store that the session's store covers. -/
structure Follows (n : Instance) (seen : Store) (s : Session) : Prop where
  schema : s.store.schema = seen.schema
  stored : s.store.Filed
  shown : seen.Filed
  covers : Covers s.store seen
  lt_length : n < s.backends.length
  shows : (s.backend n).Shows seen

variable {models : List Model} {n : Instance} {seen : Store} {s t : Session}

theorem covers_refl (st : Store) : Covers st st := fun _ _ => Or.inl rfl

theorem covers_insert {st : Store} (h : Covers st seen) (hschema : st.schema = seen.schema)
    (r : Record) : Covers ((StoreWrite.insert r).apply st) (seen.showing [.insert r]) := by
  intro q pk
  rw [Store.schema_showing]
  cases hroot : seen.schema.rootOf r.model with
  | error e =>
    have hplain : seen.schema.isIndexed r.model = false := by
      refine Bool.eq_false_of_not_eq_true fun hindexed => ?_
      obtain ⟨root, hok⟩ := Schema.exists_rootOf (Schema.contains_of_isIndexed hindexed)
      rw [hroot] at hok
      nomatch hok
    rw [Store.showing_insert_plain hplain, Store.apply_insert_of_unknown (hschema ▸ hroot)]
    exact h q pk
  | ok root =>
    rw [Store.get?_apply_insert (hschema ▸ hroot)]
    cases hindexed : seen.schema.isIndexed r.model with
    | true =>
      rw [Store.showing_insert hindexed, Store.get?_apply_insert hroot]
      by_cases hhit : q = root ∧ pk = r.pk
      · rw [if_pos hhit, if_pos hhit]
        exact Or.inl rfl
      · rw [if_neg hhit, if_neg hhit]
        exact h q pk
    | false =>
      rw [Store.showing_insert_plain hindexed]
      by_cases hhit : q = root ∧ pk = r.pk
      · rw [if_pos hhit]
        exact Or.inr ⟨r, rfl, hindexed⟩
      · rw [if_neg hhit]
        exact h q pk

theorem covers_delete {st : Store} (h : Covers st seen) (hschema : st.schema = seen.schema)
    (model : String) (pk : Key) :
    Covers ((StoreWrite.delete model pk).apply st) (seen.showing [.delete model pk]) := by
  intro q k
  rw [Store.schema_showing, Store.showing_delete]
  cases hroot : seen.schema.rootOf model with
  | error e =>
    rw [Store.apply_delete_of_unknown (hschema ▸ hroot), Store.apply_delete_of_unknown hroot]
    exact h q k
  | ok root =>
    rw [Store.get?_apply_delete (hschema ▸ hroot), Store.get?_apply_delete hroot]
    by_cases hhit : q = root ∧ k = pk
    · rw [if_pos hhit, if_pos hhit]
      exact Or.inl rfl
    · rw [if_neg hhit, if_neg hhit]
      exact h q k

/-- A session with the same store and the same indexes of the backend follows as well. -/
theorem Follows.of_same (h : Follows n seen s) (hstore : t.store = s.store)
    (hlength : t.backends.length = s.backends.length)
    (hindex : ∀ root, (t.backend n).index root = (s.backend n).index root) : Follows n seen t where
  schema := by rw [hstore, h.schema]
  stored := by
    rw [hstore]
    exact h.stored
  shown := h.shown
  covers := by
    rw [hstore]
    exact h.covers
  lt_length := by
    rw [hlength]
    exact h.lt_length
  shows := by
    refine ⟨fun root => ?_, fun root => ?_⟩
    · rw [hindex]
      exact h.shows.labelled root
    · rw [hindex]
      exact h.shows.upToDate root

theorem spares_next {c : Command} (hc : c.spares n = true) (s : Session) :
    (c.next s).store = s.store ∧ (c.next s).backends.length = s.backends.length ∧
      ∀ root, ((c.next s).backend n).index root = (s.backend n).index root := by
  have hsame : c.isWrite = false → Same s (c.next s) := fun hquiet => same_next hquiet s
  cases c with
  | insert | delete => nomatch hc
  | backend m bc =>
    have hother : m ≠ n := by simpa [Command.spares] using hc
    rw [next_backend]
    refine ⟨rfl, List.length_set .., fun root => ?_⟩
    rw [backend_set, if_neg fun h => hother h.1.symm]
  | search | find | read | clone =>
    have h := hsame rfl
    exact ⟨h.store, h.length, h.index n⟩

section Steps

variable (hs : Schema.Built models seen.schema) (hrel : UnrelatedSearch models)
  (h : Follows n seen s)

include hs hrel h

theorem follows_save (r : Record) :
    Follows n (seen.showing [.insert r]) (s.play [.insert r, .backend n (.add r)]) := by
  obtain ⟨hstore, hlength, hbackend⟩ := play_pair (next_insert s r) h.lt_length (.add r)
  have hschema : ((StoreWrite.insert r).apply s.store).schema = seen.schema := by
    rw [Store.schema_apply, h.schema]
  have hfiled := Store.filed_apply h.stored (.insert r)
  have hadd : ((BackendCommand.add r).run ((StoreWrite.insert r).apply s.store)).perform
      (s.backend n) = _ := Update.perform_map _ _ _
  refine ⟨?_, ?_, Store.filed_after h.shown _, ?_, ?_, ?_⟩
  · rw [hstore, Store.schema_showing, hschema]
  · rw [hstore]
    exact hfiled
  · rw [hstore]
    exact covers_insert h.covers h.schema r
  · rw [hlength]
    exact h.lt_length
  · rw [hbackend, hadd]
    cases hindexed : seen.schema.isIndexed r.model with
    | true =>
      rw [Store.showing_insert hindexed]
      exact shows_add hs h.shown hrel hschema h.shows hindexed
    | false =>
      rw [Store.showing_insert_plain hindexed]
      exact shows_add_plain hs h.shown hrel hschema h.shows hindexed

/-- What a removal gives back is deleted from the backend. -/
theorem follows_removed {model : String} {pk : Key} {r : Record}
    (hanswer : (Command.delete model pk).answer s = .ok (.record (some r))) :
    Follows n (seen.showing [.delete model pk])
      (s.play [.delete model pk, .backend n (.delete r)]) := by
  obtain ⟨hstore, hlength, hbackend⟩ :=
    play_pair (next_delete s model pk) h.lt_length (.delete r)
  have hschema : ((StoreWrite.delete model pk).apply s.store).schema = seen.schema := by
    rw [Store.schema_apply, h.schema]
  have hdelete : ((BackendCommand.delete r).run
      ((StoreWrite.delete model pk).apply s.store)).perform (s.backend n) = _ :=
    Update.perform_map _ _ _
  rw [answer_delete] at hanswer
  cases hroot : s.store.schema.rootOf model with
  | error e =>
    rw [Store.delete_of_unknown hroot] at hanswer
    nomatch hanswer
  | ok root =>
    rw [Store.apply_delete hroot] at hanswer
    have hget : (s.store.family root).get? pk = some r := by
      injection hanswer with hrecord
      injection hrecord
    obtain ⟨rfl, hr⟩ := h.stored root pk r hget
    refine ⟨?_, ?_, Store.filed_after h.shown _, ?_, ?_, ?_⟩
    · rw [hstore, Store.schema_showing, hschema]
    · rw [hstore]
      exact Store.filed_apply h.stored _
    · rw [hstore]
      exact covers_delete h.covers h.schema model r.pk
    · rw [hlength]
      exact h.lt_length
    · rw [hbackend, hdelete]
      exact shows_delete hs h.shown hrel hschema h.shows (h.schema ▸ hr) (h.schema ▸ hroot)

omit hs hrel in
/-- A removal that finds no record changes nothing. -/
theorem follows_missed {model : String} {pk : Key}
    (hanswer : ∀ r, (Command.delete model pk).answer s ≠ .ok (.record (some r))) :
    Follows n (seen.showing [.delete model pk]) ((Command.delete model pk).next s) := by
  have hkept : (StoreWrite.delete model pk).apply s.store = s.store ∧
      (StoreWrite.delete model pk).apply seen = seen := by
    cases hroot : seen.schema.rootOf model with
    | error e =>
      exact ⟨Store.apply_delete_of_unknown (h.schema ▸ hroot) pk,
        Store.apply_delete_of_unknown hroot pk⟩
    | ok root =>
      have hroot' : s.store.schema.rootOf model = .ok root := h.schema ▸ hroot
      have hnone : (s.store.family root).get? pk = none := by
        cases hget : (s.store.family root).get? pk with
        | none => rfl
        | some r =>
          refine absurd ?_ (hanswer r)
          rw [answer_delete, Store.apply_delete hroot', hget]
          rfl
      have hseen : (seen.family root).get? pk = none := by
        rcases h.covers root pk with heq | ⟨r, hr, -⟩
        · rw [← heq, hnone]
        · rw [hnone] at hr
          nomatch hr
      exact ⟨Store.apply_delete_of_absent hroot' hnone, Store.apply_delete_of_absent hroot hseen⟩
  rw [Store.showing_delete, hkept.2, next_delete, hkept.1]
  exact h

/-- **A step of upkeep shows its writes**, but for records of types without searchable fields. -/
theorem follows_next (step : Upkeep n) :
    Follows n (seen.showing step.writes) (step.next s) := by
  cases step with
  | save r => exact follows_save hs hrel h r
  | remove model pk =>
    rw [Upkeep.next]
    split
    · rename_i r hanswer
      exact follows_removed hs hrel h hanswer
    · rename_i hanswer
      exact follows_missed h fun r hr => hanswer r hr
  | aside c hc =>
    obtain ⟨hstore, hlength, hindex⟩ := spares_next hc s
    show Follows n seen (c.next s)
    exact h.of_same hstore hlength hindex

end Steps

/-- **Along an upkeep the backend follows the store.** -/
theorem follows_keepUp (hs : Schema.Built models seen.schema) (hrel : UnrelatedSearch models)
    (h : Follows n seen s) (steps : List (Upkeep n)) :
    Follows n (seen.showing (steps.flatMap Upkeep.writes)) (s.keepUp steps) := by
  induction steps generalizing seen s with
  | nil => exact h
  | cons step steps ih =>
    rw [List.flatMap_cons, Store.showing_append]
    refine ih ?_ (follows_next hs hrel h step)
    rw [Store.schema_showing]
    exact hs

theorem store_next_upkeep (step : Upkeep n) (s : Session) :
    (step.next s).store = s.store.after step.writes := by
  cases step with
  | save r =>
    show ((Command.insert r).next s).store = _
    rw [next_insert]
    rfl
  | remove model pk =>
    have hdelete : ((Command.delete model pk).next s).store =
        s.store.after [.delete model pk] := by
      rw [next_delete]
      rfl
    rw [Upkeep.next]
    split <;> exact hdelete
  | aside c hc => exact (spares_next hc s).1

theorem store_keepUp (s : Session) (steps : List (Upkeep n)) :
    (s.keepUp steps).store = s.store.after (steps.flatMap Upkeep.writes) := by
  induction steps generalizing s with
  | nil => rfl
  | cons step steps ih =>
    refine (ih (step.next s)).trans ?_
    rw [store_next_upkeep, List.flatMap_cons]
    exact List.foldl_append.symm

/-- After a rebuild the backend shows the store. -/
theorem follows_rebuild (hs : Schema.Built models s.store.schema) (hst : s.store.Filed)
    (hn : n < s.backends.length) (hb : (s.backend n).Labelled) {chunkSize : Nat}
    (hc : 0 < chunkSize) :
    Follows n s.store ((Command.backend n (.rebuild chunkSize)).next s) := by
  refine ⟨rfl, hst, hst, covers_refl _, ?_, ?_⟩
  · rw [next_backend, List.length_set]
    exact hn
  · rw [backend_rebuild hn]
    exact ⟨(Backend.keepsLabels_rebuild s.store chunkSize).moves _ hb,
      Backend.upToDate_rebuild hs hst hb hc⟩

/-- **Upkeep says what a rebuild would say.** Over a built schema in which no relation is
searchable, let a session with a store that any writes have made rebuild one of its backends, and
keep it up from then on. Then the entries are those of a rebuild of the store as it would be if no
record of a type without searchable fields had been saved since. Under a key where the store holds
no such record the entry is thus the one that a rebuild of the store as it is would leave. -/
theorem entries_of_upkeep {schema : Schema} (hs : Schema.ofModels models = .ok schema)
    (hrel : UnrelatedSearch models) {ws : List StoreWrite}
    (hstore : s.store = (Store.empty schema).after ws) (hn : n < s.backends.length)
    (hb : (s.backend n).Labelled) {k m : Nat} (hk : 0 < k) (hm : 0 < m)
    (steps : List (Upkeep n)) (root : String) :
    let writes := steps.flatMap Upkeep.writes
    let kept := ((Command.backend n (.rebuild k)).next s).keepUp steps
    let shown := ((kept.backend n).index root).index
    let rebuilt st := (((Backend.rebuild st m).perform (kept.backend n)).2.index root).index
    kept.store = s.store.after writes ∧
    shown.entries = (rebuilt (s.store.showing writes)).entries ∧
    ∀ pk, (∀ r, (kept.store.family root).get? pk = some r → schema.isIndexed r.model = true) →
      shown.entry? pk = InvertedIndex.entry? (rebuilt kept.store) pk := by
  intro writes kept shown rebuilt
  have hschema : s.store.schema = schema := by
    rw [hstore]
    exact Store.schema_after _ ws
  have hbuilt : Schema.Built models s.store.schema := hschema ▸ Schema.built_of_ofModels hs
  have hfiled : s.store.Filed := by
    rw [hstore]
    exact Store.filed_after_empty schema ws
  have hfollows : Follows n (s.store.showing writes) kept :=
    follows_keepUp hbuilt hrel (follows_rebuild hbuilt hfiled hn hb hk) steps
  have hbuilt' : Schema.Built models (s.store.showing writes).schema := by
    rw [Store.schema_showing]
    exact hbuilt
  have hshown := entry?_of_upToDate (hfollows.shows.upToDate root)
  have hlabelled := hfollows.shows.labelled
  refine ⟨store_keepUp _ steps, SortedMap.ext_get? fun pk => ?_, fun pk hsearched => ?_⟩
  · refine (hshown pk).trans ?_
    exact (entry?_of_upToDate
      (Backend.upToDate_rebuild hbuilt' hfollows.shown hlabelled hm root) pk).symm
  · have hkept := entry?_of_upToDate (Backend.upToDate_rebuild (hfollows.schema ▸ hbuilt')
      hfollows.stored hlabelled hm root) pk
    refine (hshown pk).trans (Eq.trans ?_ hkept.symm)
    rcases hfollows.covers root pk with heq | ⟨r, hr, hplain⟩
    · rw [heq, funext (entryOf?_congr hbuilt' hrel hfollows.schema)]
    · have hindexed := hsearched r hr
      rw [Store.schema_showing, hschema, hindexed] at hplain
      nomatch hplain

theorem unrelatedSearch_libraryModels : UnrelatedSearch libraryModels := by
  unfold UnrelatedSearch
  decide

/-- A session with one backend over a stocked library. -/
def libraryDesk (ws : List StoreWrite) : Session :=
  .ofStore ((Store.empty librarySchema).after ws) [] .standard

/-- Books come and go, a leaflet takes the key of a book, and another leaflet goes. -/
def reshelving : List (Upkeep 0) :=
  [.save (titled "Book" 3 "Mate"), .save (titled "Leaflet" 1 "Milk"), .remove "Leaflet" 2,
    .aside (.backend 1 .resetAll) rfl, .save (titled "Book" 2 "Cocoa"), .remove "Book" 3]

/-- The second book is indexed as by a rebuild; under the first key the leaflet is ignored. -/
theorem entries_of_upkeep_reshelving :
    let desk := libraryDesk Backend.stocking
    let kept := ((Command.backend 0 (.rebuild 2)).next desk).keepUp reshelving
    let shown := ((kept.backend 0).index "Book").index
    let rebuilt st := (((Backend.rebuild st 5).perform (kept.backend 0)).2.index "Book").index
    (Schema.ofModels libraryModels = .ok librarySchema ∧ UnrelatedSearch libraryModels ∧
      desk.store = (Store.empty librarySchema).after Backend.stocking ∧
      0 < desk.backends.length ∧ (desk.backend 0).Labelled ∧ 0 < 2 ∧ 0 < 5) ∧
    shown.entries = (rebuilt (desk.store.showing (reshelving.flatMap Upkeep.writes))).entries ∧
    shown.entries.keys = [1, 2] ∧
    (∀ r, (kept.store.family "Book").get? 2 = some r → librarySchema.isIndexed r.model = true) ∧
    shown.entry? 2 = InvertedIndex.entry? (rebuilt kept.store) 2 := by
  intro desk kept shown rebuilt
  have hlabelled : (desk.backend 0).Labelled := Backend.labelled_ofScorer .standard
  have hmain := entries_of_upkeep (s := desk) (n := 0) ofModels_libraryModels
    unrelatedSearch_libraryModels rfl (by decide) hlabelled (k := 2) (m := 5) (by decide)
    (by decide) reshelving "Book"
  have hsearched : ∀ r, (kept.store.family "Book").get? 2 = some r →
      librarySchema.isIndexed r.model = true := by
    intro r hr
    have hmodel : ((kept.store.family "Book").get? 2).map Record.model = some "Book" := by
      decide +kernel
    rw [hr] at hmodel
    rw [Option.some.inj hmodel]
    decide
  refine ⟨⟨ofModels_libraryModels, unrelatedSearch_libraryModels, rfl, by decide, hlabelled,
    by decide, by decide⟩, ?_, ?_, hsearched, hmain.2.2 2 hsearched⟩
  · simp only [shown, rebuilt, kept]
    exact hmain.2.1
  · decide +kernel

/-- A leaflet takes the key of a book. -/
def overwriting : List (Upkeep 0) :=
  [.save (titled "Book" 1 "Tea"), .save (titled "Leaflet" 1 "Milk")]

/-- **An entry can outlive its record.** A leaflet, which is not searched, is saved under the key of
a book: the book stays indexed, where a rebuild finds nothing to index. -/
theorem entry_outlives_record :
    let kept := ((Command.backend 0 (.rebuild 1)).next (libraryDesk [])).keepUp overwriting
    let shown := ((kept.backend 0).index "Book").index
    let rebuilt := (((Backend.rebuild kept.store 1).perform (kept.backend 0)).2.index "Book").index
    Schema.ofModels libraryModels = .ok librarySchema ∧ UnrelatedSearch libraryModels ∧
    shown.entries.keys = [1] ∧ rebuilt.entries.keys = [] ∧ shown.entries ≠ rebuilt.entries := by
  intro kept shown rebuilt
  have hshown : shown.entries.keys = [1] := by decide +kernel
  have hrebuilt : rebuilt.entries.keys = [] := by decide +kernel
  refine ⟨ofModels_libraryModels, unrelatedSearch_libraryModels, hshown, hrebuilt, fun heq => ?_⟩
  rw [heq, hrebuilt] at hshown
  nomatch hshown

end Session

end Concordance
