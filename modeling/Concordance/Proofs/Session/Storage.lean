import Concordance.Proofs.Schema.WellDeclared
import Concordance.Proofs.Session.Effect

/-!
# What is stored

A record is stored if it was inserted and nothing was written to its place since: neither another
record nor a removal at its key in its family (`Stored`). This speaks of the writes alone.

* `holds_apply`: one write puts a record in its place and leaves every other place alone.
* `holds_after`: a store holds what is stored after its writes.
* `givesBack_of_filed`: what a store gives back for a model, as a list and by key, is what it holds
  of the model's type and of the types below.
* `wrote_apply`: a write that fails changes nothing, and the version counts the writes that change
  something.
* `kept_after`: all of it for any store that writes have made, and for the commands of a session
  over it.
-/

namespace Concordance

/-! ## Places -/

namespace StoreWrite

/-- The type that a write is for. -/
def model : StoreWrite → String
  | insert r => r.model
  | delete model _ => model

/-- The key that a write is for. -/
def key : StoreWrite → Key
  | insert r => r.pk
  | delete _ pk => pk

/-- What a write answers: a deletion gives the record that it removed. -/
def answer (st : Store) : StoreWrite → Result (Option Record)
  | insert r => (fun _ => none) <$> st.insert r
  | delete model pk => Prod.fst <$> st.delete model pk

/-- The write changes what is stored: it inserts a record, or it removes one. -/
def Counts (st : Store) : StoreWrite → Prop
  | insert r => ∃ answered, (insert r).answer st = .ok answered
  | delete model pk => ∃ r, (delete model pk).answer st = .ok (some r)

/-- The write is to the place of the record: to its key in its family. -/
def Hits (s : Schema) (w : StoreWrite) (r : Record) : Prop :=
  s.rootOf w.model = s.rootOf r.model ∧ w.key = r.pk

end StoreWrite

/-- The record was inserted, and nothing was written to its place since. -/
def Stored (s : Schema) (ws : List StoreWrite) (r : Record) : Prop :=
  s.contains r.model = true ∧ ∃ before later, ws = before ++ .insert r :: later ∧
    ∀ w ∈ later, ¬ w.Hits s r

/-- What one more write makes of the stored records. -/
theorem stored_append {s : Schema} {ws : List StoreWrite} {w : StoreWrite} {r : Record} :
    Stored s (ws ++ [w]) r ↔
      (w = .insert r ∧ s.contains r.model = true) ∨ Stored s ws r ∧ ¬ w.Hits s r := by
  constructor
  · rintro ⟨hdeclared, before, later, heq, hlater⟩
    rcases List.eq_nil_or_concat' later with rfl | ⟨earlier, last, rfl⟩
    · exact Or.inl ⟨List.singleton_inj.mp (List.append_inj_right' heq rfl), hdeclared⟩
    · rw [← List.cons_append, ← List.append_assoc] at heq
      obtain ⟨rfl, hw⟩ := List.append_inj' heq rfl
      cases hw
      exact Or.inr ⟨⟨hdeclared, before, earlier, rfl, fun k hk =>
        hlater k (List.mem_append_left _ hk)⟩,
        hlater w (List.mem_append_right _ List.mem_cons_self)⟩
  · rintro (⟨rfl, hdeclared⟩ | ⟨⟨hdeclared, before, later, rfl, hlater⟩, hw⟩)
    · exact ⟨hdeclared, ws, [], rfl, fun k hk => absurd hk List.not_mem_nil⟩
    · refine ⟨hdeclared, before, later ++ [w], by simp, fun k hk => ?_⟩
      rcases List.mem_append.mp hk with hk | hk
      · exact hlater k hk
      · rw [List.mem_singleton.mp hk]
        exact hw

namespace Store

variable {models : List Model} {st : Store}

/-! ## One write -/

theorem exists_answer {w : StoreWrite} (h : st.schema.contains w.model = true) :
    ∃ answered, w.answer st = .ok answered := by
  obtain ⟨root, hroot⟩ := Schema.exists_rootOf h
  cases w with
  | insert r => exact ⟨none, congrArg (Functor.map fun _ => none) (apply_insert hroot)⟩
  | delete model pk => exact ⟨_, congrArg (Functor.map Prod.fst) (apply_delete hroot pk)⟩

theorem answer_of_unknown {w : StoreWrite} (h : st.schema.contains w.model = false) :
    w.answer st = .error (.unknownModel w.model) := by
  cases w with
  | insert r =>
    have hroot : st.schema.rootOf r.model = _ := Schema.rootOf_of_not_contains h
    show (fun _ => none) <$> st.insert r = _
    unfold insert
    rw [hroot]
    rfl
  | delete model pk =>
    have hroot : st.schema.rootOf model = _ := Schema.rootOf_of_not_contains h
    show Prod.fst <$> st.delete model pk = _
    rw [delete_of_unknown hroot]
    rfl

/-- A write fails for a type that is not declared, and for no other reason. -/
theorem answer_eq_error_iff {w : StoreWrite} {e : Error} :
    w.answer st = .error e ↔ st.schema.contains w.model = false ∧ e = .unknownModel w.model := by
  constructor
  · intro h
    cases hcontains : st.schema.contains w.model with
    | true =>
      obtain ⟨answered, hok⟩ := exists_answer hcontains
      rw [hok] at h
      nomatch h
    | false =>
      rw [answer_of_unknown hcontains] at h
      exact ⟨rfl, (Except.error.inj h).symm⟩
  · rintro ⟨hcontains, rfl⟩
    exact answer_of_unknown hcontains

/-- What stands in the place of a record after a write. -/
theorem get?_apply (w : StoreWrite) {r : Record} {root : String}
    (hroot : st.schema.rootOf r.model = .ok root) :
    ((w.apply st).family root).get? r.pk = some r ↔
      w = .insert r ∨ (st.family root).get? r.pk = some r ∧ ¬ w.Hits st.schema r := by
  unfold StoreWrite.Hits
  rw [hroot]
  cases w with
  | insert other =>
    show _ ↔ _ ∨ _ ∧ ¬ (st.schema.rootOf other.model = _ ∧ other.pk = r.pk)
    cases hother : st.schema.rootOf other.model with
    | error e =>
      have hne : StoreWrite.insert other ≠ .insert r := by
        rintro ⟨⟩
        rw [hroot] at hother
        nomatch hother
      simp [apply_insert_of_unknown hother, hne]
    | ok top =>
      rw [get?_apply_insert hother]
      by_cases hplace : top = root ∧ other.pk = r.pk
      · rw [if_pos ⟨hplace.1.symm, hplace.2.symm⟩]
        simp [hplace]
      · have hne : StoreWrite.insert other ≠ .insert r := by
          rintro ⟨⟩
          rw [hroot] at hother
          exact hplace ⟨(Except.ok.inj hother).symm, rfl⟩
        rw [if_neg fun h => hplace ⟨h.1.symm, h.2.symm⟩]
        simp [hplace, hne]
  | delete model pk =>
    show _ ↔ _ ∨ _ ∧ ¬ (st.schema.rootOf model = _ ∧ pk = r.pk)
    cases hmodel : st.schema.rootOf model with
    | error e => simp [apply_delete_of_unknown hmodel]
    | ok top =>
      rw [get?_apply_delete hmodel]
      by_cases hplace : top = root ∧ pk = r.pk
      · rw [if_pos ⟨hplace.1.symm, hplace.2.symm⟩]
        simp [hplace]
      · rw [if_neg fun h => hplace ⟨h.1.symm, h.2.symm⟩]
        simp [hplace]

/-- **A write puts a record in its place and leaves every other place alone.** -/
theorem holds_apply (hst : Filed st) (w : StoreWrite) (r : Record) :
    (w.apply st).Holds r ↔ (w = .insert r ∧ st.schema.contains r.model = true) ∨
      st.Holds r ∧ ¬ w.Hits st.schema r := by
  rw [holds_iff (filed_apply hst w), holds_iff hst, schema_apply]
  cases hcontains : st.schema.contains r.model with
  | false => simp [Schema.rootOf_of_not_contains hcontains]
  | true =>
    obtain ⟨root, hroot⟩ := Schema.exists_rootOf hcontains
    simp only [hroot, Except.ok.injEq, exists_eq_left', get?_apply w hroot, and_true]

theorem not_counts_of_error {w : StoreWrite} {e : Error} (h : w.answer st = .error e) :
    ¬ w.Counts st := by
  cases w with
  | insert r => exact fun ⟨_, hok⟩ => nomatch h.symm.trans hok
  | delete model pk => exact fun ⟨_, hok⟩ => nomatch h.symm.trans hok

/-- The version counts the writes that change something; any other leaves the store alone. -/
theorem version_apply (st : Store) (w : StoreWrite) :
    (w.Counts st ∧ (w.apply st).version = st.version + 1) ∨ (¬ w.Counts st ∧ w.apply st = st) := by
  cases w with
  | insert r =>
    cases h : st.insert r with
    | error e =>
      refine Or.inr ⟨?_, by simp only [StoreWrite.apply, h]⟩
      rintro ⟨_, hcounts⟩
      simp only [StoreWrite.answer, h] at hcounts
      cases hcounts
    | ok st' =>
      refine Or.inl ⟨⟨none, by simp only [StoreWrite.answer, h]; rfl⟩, ?_⟩
      simp only [StoreWrite.apply, h]
      obtain ⟨root, -, h⟩ := ok_of_bind h
      cases h
      rfl
  | delete model pk =>
    simp only [StoreWrite.Counts, StoreWrite.answer, StoreWrite.apply]
    cases h : st.delete model pk with
    | error e =>
      refine Or.inr ⟨?_, rfl⟩
      rintro ⟨_, hcounts⟩
      cases hcounts
    | ok removed =>
      obtain ⟨root, -, h⟩ := ok_of_bind h
      split at h
      · cases h
        refine Or.inr ⟨?_, rfl⟩
        rintro ⟨_, hcounts⟩
        cases hcounts
      · cases h
        exact Or.inl ⟨⟨_, rfl⟩, rfl⟩

/-- A deletion answers what stood in its place. -/
theorem answer_delete_iff (hst : Filed st) {model : String} {pk : Key} {removed : Option Record}
    (h : (StoreWrite.delete model pk).answer st = .ok removed) (r : Record) :
    removed = some r ↔ st.Holds r ∧ (StoreWrite.delete model pk).Hits st.schema r := by
  obtain ⟨⟨removed, st'⟩, hdelete, rfl⟩ := ok_of_map h
  obtain ⟨root, hroot, -, hremoved, -⟩ := delete_ok hdelete
  rw [hremoved]
  constructor
  · intro hget
    obtain ⟨rfl, hr⟩ := hst root pk r hget
    exact ⟨⟨root, hget⟩, hroot.trans hr.symm, rfl⟩
  · rintro ⟨hr, hmodel, rfl⟩
    obtain ⟨q, hq, hget⟩ := (holds_iff hst).mp hr
    rw [show st.schema.rootOf model = _ from hmodel, hq] at hroot
    cases hroot
    exact hget

/-- What a write does to a store. -/
structure Wrote (st : Store) (w : StoreWrite) : Prop where
  /-- It fails for a type that is not declared, and for no other reason. -/
  fails : ∀ e, w.answer st = .error e ↔
    st.schema.contains w.model = false ∧ e = .unknownModel w.model
  failed : ∀ e, w.answer st = .error e → w.apply st = st
  /-- The version grows by one if the write counts; else nothing changes. -/
  version : (w.Counts st ∧ (w.apply st).version = st.version + 1) ∨
    (¬ w.Counts st ∧ w.apply st = st)
  /-- Records in other places stay, and no others come than the one inserted. -/
  others : ∀ r, ¬ w.Hits st.schema r → ((w.apply st).Holds r ↔ st.Holds r)
  /-- An inserted record is the one in its place. -/
  inserted : ∀ new, w = .insert new → w.Counts st → ∀ r, w.Hits st.schema r →
    ((w.apply st).Holds r ↔ r = new)
  /-- A deletion answers the record in its place and leaves none there. -/
  deleted : ∀ model pk, w = .delete model pk → ∀ removed, w.answer st = .ok removed →
    ∀ r, w.Hits st.schema r → (removed = some r ↔ st.Holds r) ∧ ¬ (w.apply st).Holds r

theorem wrote_apply (hst : Filed st) (w : StoreWrite) : Wrote st w where
  fails _ := answer_eq_error_iff
  failed e h := by
    rcases version_apply st w with ⟨hcounts, -⟩ | ⟨-, hsame⟩
    · exact absurd hcounts (not_counts_of_error h)
    · exact hsame
  version := version_apply st w
  others r hother := by
    rw [holds_apply hst]
    constructor
    · rintro (⟨rfl, -⟩ | ⟨hr, -⟩)
      · exact absurd ⟨rfl, rfl⟩ hother
      · exact hr
    · exact fun hr => Or.inr ⟨hr, hother⟩
  inserted new h hcounts r hhits := by
    subst h
    rw [holds_apply hst]
    constructor
    · rintro (⟨h, -⟩ | ⟨-, hother⟩)
      · cases h
        rfl
      · exact absurd hhits hother
    · rintro rfl
      obtain ⟨_, hanswer⟩ := hcounts
      refine Or.inl ⟨rfl, ?_⟩
      cases hcontains : st.schema.contains r.model with
      | true => rfl
      | false =>
        rw [answer_of_unknown (w := .insert r) hcontains] at hanswer
        nomatch hanswer
  deleted model pk h removed hanswer r hhits := by
    subst h
    refine ⟨?_, fun hr => ?_⟩
    · rw [answer_delete_iff hst hanswer]
      exact and_iff_left hhits
    · rcases (holds_apply hst _ r).mp hr with ⟨h, -⟩ | ⟨-, hother⟩
      · nomatch h
      · exact hother hhits

/-! ## Any writes -/

/-- **A store holds what its writes left stored.** -/
theorem holds_after (s : Schema) (ws : List StoreWrite) (r : Record) :
    ((empty s).after ws).Holds r ↔ Stored s ws r := by
  induction ws using List.reverseRecOn with
  | nil =>
    refine iff_of_false (fun ⟨root, h⟩ => nomatch h) fun ⟨_, before, later, h, _⟩ => ?_
    exact List.append_ne_nil_of_right_ne_nil before (List.cons_ne_nil _ _) h.symm
  | append_singleton ws w ih =>
    have hafter : (empty s).after (ws ++ [w]) = w.apply ((empty s).after ws) := List.foldl_append
    have hschema : ((empty s).after ws).schema = s := schema_after _ ws
    rw [hafter, holds_apply (filed_after_empty s ws), hschema, ih, stored_append]

/-- The version is at most the number of writes, so that a counter of 64 bits holds it for as many
writes as there are keys. -/
theorem version_after_le (ws : List StoreWrite) :
    (st.after ws).version ≤ st.version + ws.length := by
  induction ws generalizing st with
  | nil => exact Nat.le_refl _
  | cons w ws ih =>
    have hstep : (w.apply st).version ≤ st.version + 1 := by
      rcases version_apply st w with ⟨-, h⟩ | ⟨-, h⟩
      · exact Nat.le_of_eq h
      · rw [h]
        exact Nat.le_succ _
    show ((w.apply st).after ws).version ≤ _
    refine Nat.le_trans ih ?_
    rw [List.length_cons]
    omega

/-! ## Reading -/

/-- What a store gives back for a model: the records of its type and of the types below it,
ascending by key, which are those of its root that are of such a type; and each by its key. -/
def GivesBack (st : Store) (model : String) : Prop :=
  ∃ root all rs, st.schema.rootOf model = .ok root ∧ st.records root = .ok all ∧
    st.records model = .ok rs ∧ (rs.Pairwise fun a b => a.pk < b.pk) ∧
    (∀ r, r ∈ rs ↔ st.Holds r ∧ st.schema.isSubtype r.model model = true) ∧
    (rs = all.filter fun r => st.schema.isSubtype r.model model) ∧
    ∀ pk, ∃ found, st.get model pk = .ok found ∧ ∀ r, found = some r ↔ r ∈ rs ∧ r.pk = pk

theorem givesBack_of_filed (hs : Schema.Built models st.schema) (hst : Filed st) {model : String}
    (hmodel : st.schema.contains model = true) : GivesBack st model := by
  obtain ⟨root, hroot⟩ := Schema.exists_rootOf hmodel
  obtain ⟨rs, hrs, hsorted, hmem⟩ := exists_records hs hst hmodel
  refine ⟨root, _, rs, hroot, records_root hst (hs.rootOf_root hroot), hrs, hsorted, hmem, ?_,
    fun pk => ?_⟩
  · unfold records at hrs
    rw [hroot] at hrs
    exact (Except.ok.inj hrs).symm
  · obtain ⟨found, hfound, hiff⟩ := exists_get hs hst hmodel pk
    refine ⟨found, hfound, fun r => ?_⟩
    rw [hiff, hmem]
    tauto

/-- In one place at most one record is stored. -/
theorem eq_of_samePlace (hst : Filed st) {r other : Record} (hr : st.Holds r)
    (hother : st.Holds other) (hroot : st.schema.rootOf r.model = st.schema.rootOf other.model)
    (hpk : r.pk = other.pk) : r = other := by
  obtain ⟨root, hroot', hget⟩ := (holds_iff hst).mp hr
  obtain ⟨top, htop, hget'⟩ := (holds_iff hst).mp hother
  rw [hroot, htop] at hroot'
  cases hroot'
  rw [hpk, hget'] at hget
  exact (Option.some.inj hget).symm

/-- What a store over declared models holds, gives back and does with one more write. -/
structure Kept (models : List Model) (ws : List StoreWrite) (st : Store) : Prop where
  holds : ∀ r, st.Holds r ↔ Stored st.schema ws r
  unique : ∀ r other, st.Holds r → st.Holds other →
    st.schema.rootOf r.model = st.schema.rootOf other.model → r.pk = other.pk → r = other
  reads : ∀ m ∈ models, GivesBack st m.name
  counted : st.version ≤ ws.length
  wrote : ∀ w, Wrote st w

end Store

/-! ## Commands of a session -/

/-- The command changes what is stored: it inserts a record, or it removes one. -/
def Command.Stores (s : Session) (c : Command) : Prop :=
  (∃ r, c = .insert r ∧ c.answer s = .ok .done) ∨
    ∃ model pk r, c = .delete model pk ∧ c.answer s = .ok (.record (some r))

namespace Session

theorem stores_iff {s : Session} {c : Command} :
    c.Stores s ↔ ∃ w ∈ c.storeWrites, w.Counts s.store := by
  unfold Command.Stores
  cases c with
  | insert r =>
    rw [answer_insert]
    cases h : s.store.insert r <;>
      simp [Command.storeWrites, StoreWrite.Counts, StoreWrite.answer, h, Except.map]
  | delete model pk =>
    rw [answer_delete]
    cases h : s.store.delete model pk <;>
      simp [Command.storeWrites, StoreWrite.Counts, StoreWrite.answer, h, Except.map]
  | backend | search | find | read | clone => simp [Command.storeWrites]

/-- **The version of the store grows with the commands that change what is stored**, and no other
command does anything to the store. -/
theorem store_step (s : Session) (c : Command) :
    (c.Stores s ∧ (c.next s).store.version = s.store.version + 1) ∨
      (¬ c.Stores s ∧ (c.next s).store = s.store) := by
  rw [stores_iff, store_next]
  have hone (w : StoreWrite) (h : c.storeWrites = [w]) :
      ((∃ w ∈ c.storeWrites, w.Counts s.store) ∧
        (s.store.after c.storeWrites).version = s.store.version + 1) ∨
      ((¬ ∃ w ∈ c.storeWrites, w.Counts s.store) ∧
        s.store.after c.storeWrites = s.store) := by
    simp only [h, List.mem_singleton, exists_eq_left]
    exact Store.version_apply s.store w
  cases c with
  | insert r => exact hone _ rfl
  | delete model pk => exact hone _ rfl
  | backend | search | find | read | clone =>
    exact Or.inr ⟨fun ⟨_, h, _⟩ => absurd h List.not_mem_nil, rfl⟩

end Session

namespace Store

/-- **What a store is after any inserts and deletes.** It holds the records that were inserted and
not overwritten or removed since, one in each place; what it gives back for a model are those of its
type and of the types below; one more write changes its own place only, or nothing if it fails; and
of all that a session can do only an insertion and a deletion that removes a record count. -/
theorem kept_after {models : List Model} {s : Schema} (hs : Schema.ofModels models = .ok s)
    (ws : List StoreWrite) :
    Kept models ws ((empty s).after ws) ∧
    ∀ (session : Session) (c : Command), session.store = (empty s).after ws →
      (c.Stores session ∧ (c.next session).store.version = session.store.version + 1) ∨
        (¬ c.Stores session ∧ (c.next session).store = session.store) := by
  have hbuilt := Schema.built_of_ofModels hs
  have hfiled := filed_after_empty s ws
  have hschema : ((empty s).after ws).schema = s := schema_after _ ws
  refine ⟨⟨fun r => ?_, fun r other => eq_of_samePlace hfiled, fun m hm => ?_, ?_,
    wrote_apply hfiled⟩, fun session c _ => session.store_step c⟩
  · rw [hschema]
    exact holds_after s ws r
  · refine givesBack_of_filed (hschema.symm ▸ hbuilt) hfiled ?_
    obtain ⟨e, he, -⟩ := hbuilt.entry?_of_model hm
    rw [hschema]
    exact Schema.contains_iff.mpr ⟨e, he⟩
  · exact Nat.le_trans (version_after_le ws) (Nat.le_of_eq (Nat.zero_add _))

/-- A novel takes the place of a book, and an item is removed as a disc; there are no maps. -/
def trading : List StoreWrite :=
  [.insert ⟨"Book", 1, ∅, ∅⟩, .insert ⟨"Item", 2, ∅, ∅⟩, .insert ⟨"Novel", 1, ∅, ∅⟩,
    .insert ⟨"Map", 3, ∅, ∅⟩, .insert ⟨"Disc", 4, ∅, ∅⟩, .delete "Disc" 2, .delete "Map" 4,
    .delete "Book" 9, .insert ⟨"Disc", 3, ∅, ∅⟩]

theorem kept_after_trading :
    let st := (empty Schema.mediaSchema).after trading
    Schema.ofModels Schema.mediaModels = .ok Schema.mediaSchema ∧
    Kept Schema.mediaModels trading st ∧ st.version = 6 ∧
    st.records "Item" = .ok [⟨"Novel", 1, ∅, ∅⟩, ⟨"Disc", 3, ∅, ∅⟩, ⟨"Disc", 4, ∅, ∅⟩] ∧
    st.records "Book" = .ok [⟨"Novel", 1, ∅, ∅⟩] ∧ st.get "Book" 4 = .ok none :=
  ⟨Schema.ofModels_mediaModels, (kept_after Schema.ofModels_mediaModels trading).1,
    by decide +kernel, by decide +kernel, by decide +kernel, by decide +kernel⟩

end Store

end Concordance
