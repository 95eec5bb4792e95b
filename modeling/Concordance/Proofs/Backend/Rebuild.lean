import Concordance.Proofs.Backend.Buffer
import Concordance.Proofs.Index.Tables

/-!
# What a rebuild leaves

A rebuild drops what a backend has and hands all stored records of every indexed family over to its
index, in batches, before the index is refreshed. What that leaves is told by the store alone.

* Batches do not matter: they are handed over as one list (`addItems_chunksOf`), and there are
  `⌈m / n⌉` of them (`length_chunksOf`).
* What was there before does not matter: after a reset every index is alike to the empty one
  (`alike_resetAll`).
* An index without entries, filled from the store and refreshed, has the entries of the stored
  records and no others (`upToDate_refilled`), and families are filled independently of each other
  (`perform_rebuildFamilies`).

An index must stand under the root of its family for its records to be accepted. This is so in a
new backend and stays so whatever is done (`Labelled`, `labelled_run`).

* **`rebuild_indexes_store`**: a rebuild succeeds, the entries are those of the stored records, and
  it reports the indexed families with their numbers of records and batches.
-/

namespace Concordance

/-! ## Batches -/

theorem flatten_chunksOf {α : Type} (size : Nat) (xs : List α) :
    (chunksOf size xs).flatten = xs := by
  fun_induction chunksOf size xs with
  | case1 => rfl
  | case2 x xs ih => rw [List.flatten_cons, ih, List.cons_append, List.take_append_drop]

/-- Only the last batch may be short. -/
theorem length_chunksOf {α : Type} (size : Nat) (xs : List α) :
    (chunksOf size xs).length = xs.length ⌈/⌉ (size + 1) := by
  rw [Nat.ceilDiv_eq_add_pred_div]
  fun_induction chunksOf size xs with
  | case1 => exact (Nat.div_eq_of_lt (by simp)).symm
  | case2 x xs ih =>
    rw [List.length_cons, ih, List.length_drop, List.length_cons]
    by_cases hshort : xs.length ≤ size
    · rw [Nat.div_eq_of_lt (by omega), Nat.zero_add,
        show xs.length + 1 + (size + 1) - 1 = xs.length + (size + 1) by omega,
        Nat.add_div_right _ (by omega), Nat.div_eq_of_lt (by omega)]
    · rw [← Nat.add_div_right _ (by omega)]
      congr 1
      omega

namespace FamilyIndex

variable {models : List Model} {st : Store} {root : String} {f g : FamilyIndex}

/-- Records handed over in batches are handed over one after the other. -/
theorem addItems_chunksOf (st : Store) (size : Nat) (rs : List Record) :
    ((chunksOf size rs).forM fun chunk => addItems st chunk) = addItems st rs := by
  have hflat : ∀ chunks : List (List Record),
      (chunks.forM fun chunk => addItems st chunk) = addItems st chunks.flatten := by
    intro chunks
    induction chunks with
    | nil => rfl
    | cons chunk chunks ih =>
      show (addItems st chunk >>= fun _ => chunks.forM fun chunk => addItems st chunk) = _
      rw [ih]
      exact List.forM_append.symm
  rw [hflat, flatten_chunksOf]

/-! ## Roots stay -/

/-- The index stands for the same family. -/
def SameRoot (f g : FamilyIndex) : Prop := g.root = f.root

instance : Std.Refl SameRoot := ⟨fun _ => rfl⟩

instance : IsTrans FamilyIndex SameRoot := ⟨fun _ _ _ hfg hgh => Eq.trans hgh hfg⟩

theorem sameRoot_change {step : FamilyIndex → Result FamilyIndex}
    {verdict : FamilyIndex → Result (Option (Key × PendingWrite))}
    (hstep : ∀ f, step f = (verdict f).map f.bufferAny) :
    Update.Regular SameRoot Eq (change step) := by
  refine Update.regular_of_moves fun f => ?_
  have hf := hstep f
  cases hverdict : verdict f with
  | error e =>
    rw [hverdict] at hf
    rw [perform_change_error hf]
    exact rfl
  | ok w? =>
    rw [hverdict] at hf
    rw [perform_change_ok hf]
    cases w? <;> exact rfl

theorem sameRoot_addItem (st : Store) (r : Record) :
    Update.Regular SameRoot Eq (change (addItem st r)) := sameRoot_change (addItem_eq st r)

theorem sameRoot_addItems (st : Store) (rs : List Record) :
    Update.Regular SameRoot Eq (addItems st rs) := Update.regular_forM (sameRoot_addItem st) rs

theorem sameRoot_publish : Update.Regular SameRoot Eq Backend.publish :=
  Update.regular_of_moves fun _ => rfl

theorem sameRoot_run (st : Store) (c : IndexCommand) :
    Update.Regular SameRoot Eq (c.run st) := by
  cases c with
  | addItem r => exact sameRoot_addItem st r
  | addItems rs => exact sameRoot_addItems st rs
  | deleteItem r => exact sameRoot_change (deleteItem_eq st r)
  | refresh => exact sameRoot_publish
  | reset => exact Update.regular_of_moves fun _ => rfl

/-! ## Filling an index -/

/-- The entry of a record, if there is one. -/
def entryOf? (st : Store) (r : Record) : Option IndexEntry := (buildEntry st r).toOption.join

theorem entryOf?_eq_some_iff {r : Record} {e : IndexEntry} :
    entryOf? st r = some e ↔ buildEntry st r = .ok (some e) := by
  unfold entryOf?
  cases buildEntry st r <;> simp [Except.toOption]

theorem entryOf?_of_buildEntry {r : Record} {made? : Option IndexEntry}
    (h : buildEntry st r = .ok made?) : entryOf? st r = made? := by
  unfold entryOf?
  rw [h]
  rfl

theorem pk_of_entryOf? {r : Record} {e : IndexEntry} (h : entryOf? st r = some e) : e.pk = r.pk :=
  pk_of_buildEntry (entryOf?_eq_some_iff.mp h)

/-- A record has an entry if its type has a searchable field. -/
theorem isSome_entryOf? (hs : Schema.Built models st.schema) {r : Record}
    (hr : st.schema.contains r.model = true) :
    (entryOf? st r).isSome = st.schema.isIndexed r.model := by
  obtain ⟨made?, hentry, hsome⟩ := exists_buildEntry hs hr
  rw [entryOf?_of_buildEntry hentry, hsome]

theorem entryOf?_eq_none (hs : Schema.Built models st.schema) {r : Record}
    (hr : st.schema.contains r.model = true) (hplain : st.schema.isIndexed r.model = false) :
    entryOf? st r = none := by
  have hsome := isSome_entryOf? hs hr
  rw [hplain] at hsome
  exact Option.isNone_iff_eq_none.mp (Option.isSome_eq_false_iff.mp hsome)

/-- A record of the family is accepted. -/
theorem addition_eq (hs : Schema.Built models st.schema) {r : Record}
    (hroot : st.schema.rootOf r.model = .ok root) :
    addition st r root = .ok ((entryOf? st r).map fun e => (r.pk, .put e)) := by
  obtain ⟨made?, hentry, -⟩ := exists_buildEntry hs (Schema.contains_of_rootOf hroot)
  unfold addition checkFamily
  rw [if_pos (Schema.isSubtype_of_rootOf hroot), hentry, entryOf?_of_buildEntry hentry]
  rfl

/-- The removal of a record of the family is accepted. -/
theorem removal_eq {r : Record} (hroot : st.schema.rootOf r.model = .ok root) :
    removal st r root = .ok (some (r.pk, .delete)) := by
  unfold removal checkFamily
  rw [if_pos (Schema.isSubtype_of_rootOf hroot)]
  rfl

/-- Records that are all accepted put their entries. -/
theorem additions_eq {rs : List Record}
    (h : ∀ r ∈ rs, addition st r root = .ok ((entryOf? st r).map fun e => (r.pk, .put e))) :
    additions st root rs = (rs.filterMap (entryOf? st)).map Change.put := by
  induction rs with
  | nil => rfl
  | cons r rs ih =>
    unfold additions
    rw [h r List.mem_cons_self, ih fun r hr => h r (List.mem_cons_of_mem _ hr),
      List.filterMap_cons]
    cases entryOf? st r <;> rfl

theorem addItems_ok {rs : List Record} (h : ∀ r ∈ rs, ∃ w?, addition st r f.root = .ok w?) :
    ((addItems st rs).perform f).1 = .ok () := by
  induction rs generalizing f with
  | nil => rfl
  | cons r rs ih =>
    obtain ⟨w?, hw⟩ := h r List.mem_cons_self
    have hadd := addItem_eq st r f
    rw [hw] at hadd
    have hkept : (f.bufferAny w?).root = f.root := by cases w? <;> rfl
    show (Update.perform (change (addItem st r) >>= fun _ => addItems st rs) f).1 = _
    rw [Update.perform_bind, perform_change_ok hadd]
    refine ih fun r hr => ?_
    rw [hkept]
    exact h r (List.mem_cons_of_mem _ hr)

/-- Entries that were put under distinct keys all stand in the map, and no others do. -/
theorem get?_entriesAfter_puts {entries : List IndexEntry}
    (hn : entries.Pairwise fun a b => a.pk ≠ b.pk) {pk : Key} {e : IndexEntry} :
    (entriesAfter (entries.map Change.put)).get? pk = some e ↔ e ∈ entries ∧ e.pk = pk := by
  constructor
  · intro h
    rw [← InvertedIndex.entries_after] at h
    refine ⟨?_, InvertedIndex.key_of_entry?_after _ pk e h⟩
    obtain ⟨e', he', heq⟩ := List.mem_map.mp (InvertedIndex.mem_changes_of_entry?_after h)
    cases heq
    exact he'
  · rintro ⟨he, rfl⟩
    have hnodup : ((entries.map fun e => (e.pk, e)).map Prod.fst).Nodup := by
      rw [List.map_map]
      exact List.pairwise_map.mpr hn
    have hmap : entriesAfter (entries.map Change.put) =
        SortedMap.ofList (entries.map fun e => (e.pk, e)) := by
      unfold entriesAfter SortedMap.ofList
      rw [List.foldl_map, List.foldl_map]
      rfl
    rw [hmap]
    exact SortedMap.get?_ofList hnodup (List.mem_map_of_mem he)

/-- The index after the stored records of its family were handed over to it and it was refreshed. -/
def refilled (st : Store) (f : FamilyIndex) : FamilyIndex :=
  ((addItems st (st.family f.root).values).perform f).2.refresh

/-- The entries are those of the stored records of the family, and nothing is buffered. -/
structure UpToDate (st : Store) (root : String) (f : FamilyIndex) : Prop where
  pending : f.pending = ∅
  entry : ∀ pk e, f.index.entry? pk = some e ↔
    ∃ r, (st.family root).get? pk = some r ∧ buildEntry st r = .ok (some e)
  contains : ∀ pk, f.index.contains pk = true ↔
    ∃ r, (st.family root).get? pk = some r ∧ st.schema.isIndexed r.model = true

section Filed

variable (hs : Schema.Built models st.schema) (hst : st.Filed)

include hs hst

theorem upToDate_of_entry? (hpending : f.pending = ∅)
    (hentry : ∀ pk, f.index.entry? pk = ((st.family root).get? pk).bind (entryOf? st)) :
    UpToDate st root f where
  pending := hpending
  entry pk e := by
    rw [hentry, Option.bind_eq_some_iff]
    exact exists_congr fun r => and_congr_right fun _ => entryOf?_eq_some_iff
  contains pk := by
    show (f.index.entry? pk).isSome = true ↔ _
    rw [hentry]
    cases hr : (st.family root).get? pk with
    | none => simp
    | some r =>
      rw [Option.bind_some, isSome_entryOf? hs (Schema.contains_of_rootOf (hst root pk r hr).2)]
      simp

theorem addition_of_mem {r : Record} (hr : r ∈ (st.family root).values) :
    addition st r root = .ok ((entryOf? st r).map fun e => (r.pk, .put e)) :=
  addition_eq hs (hst root r.pk r ((Store.mem_values_family hst).mp hr)).2

/-- **An index without entries, filled from the store, says what is stored.** -/
theorem upToDate_refilled (hf : Mirrors root f []) : UpToDate st root (refilled st f) := by
  refine upToDate_of_entry? hs hst rfl fun pk => ?_
  have hfilled := mirrors_addItems hf st (st.family root).values
  have hrefilled : (refilled st f).index.entry? pk =
      (entriesAfter (additions st root (st.family root).values)).get? pk := by
    unfold refilled
    rw [hf.root_eq]
    exact (entry?_refresh hfilled.toKeyed pk).trans (hfilled.upcoming pk)
  have hdistinct : ((st.family root).values.filterMap (entryOf? st)).Pairwise
      fun a b => a.pk ≠ b.pk := by
    refine List.Pairwise.filterMap _ (fun r q hrq e he d hd => ?_)
      (Store.pairwise_values_family hst root)
    rw [pk_of_entryOf? he, pk_of_entryOf? hd]
    exact UInt64.ne_of_lt hrq
  rw [hrefilled, additions_eq fun r hr => addition_of_mem hs hst hr]
  refine Option.ext fun e => ?_
  rw [get?_entriesAfter_puts hdistinct, List.mem_filterMap, Option.bind_eq_some_iff]
  constructor
  · rintro ⟨⟨r, hr, he⟩, rfl⟩
    refine ⟨r, ?_, he⟩
    rw [pk_of_entryOf? he]
    exact (Store.mem_values_family hst).mp hr
  · rintro ⟨r, hr, he⟩
    obtain ⟨rfl, -⟩ := hst root pk r hr
    exact ⟨⟨r, (Store.mem_values_family hst).mpr hr, he⟩, pk_of_entryOf? he⟩

end Filed

theorem alike_refilled (st : Store) (h : Alike f g) : Alike (refilled st f) (refilled st g) := by
  unfold refilled
  rw [h.root_eq]
  exact alike_refresh ((regular_addItems st _).agrees f g h).2

open InvertedIndex in
/-- A refresh leaves tables that account for the entries. -/
theorem tabulated_refresh (h : Tabulated f.index) : Tabulated f.refresh.index := by
  unfold refresh
  generalize f.index = ix at h
  induction f.pending.toList generalizing ix with
  | nil => exact h
  | cons w ws ih =>
    rw [List.foldl_cons, applyWrite_eq]
    exact ih _ (tabulated_apply h _)

theorem tabulated_refilled (st : Store) (h : f.index.Tabulated) :
    (refilled st f).index.Tabulated := by
  refine tabulated_refresh ?_
  rw [index_addItems]
  exact h

theorem tabulated_of_alike_empty (h : Alike f (.empty root)) : f.index.Tabulated := by
  have hcontent : f.index.content.Tabulated := by
    rw [h.index_eq]
    exact InvertedIndex.tabulated_version InvertedIndex.tabulated_empty 0
  exact InvertedIndex.tabulated_version hcontent f.index.version

/-- What is alike to an empty index has nothing and awaits nothing. -/
theorem mirrors_of_alike_empty (h : Alike f (.empty root)) : Mirrors root f [] where
  index pk e he := by
    have hentries : f.index.entries = ∅ := congrArg InvertedIndex.entries h.index_eq
    unfold InvertedIndex.entry? at he
    rw [hentries] at he
    nomatch he
  pending pk w hw := by
    rw [h.pending_eq] at hw
    nomatch hw
  root_eq := h.root_eq
  upcoming pk := by
    rw [upcoming?_of_pending h.pending_eq]
    show f.index.entries.get? pk = none
    rw [show f.index.entries = ∅ from congrArg InvertedIndex.entries h.index_eq]
    rfl

end FamilyIndex

namespace Backend

open FamilyIndex

variable {models : List Model} {st : Store} {b c : Backend}

/-! ## Labels -/

/-- Each index stands under the root of its family. -/
def Labelled (b : Backend) : Prop := ∀ root, (b.index root).root = root

theorem labelled_ofScorer (scorer : Scorer) : Labelled (ofScorer scorer) := fun _ => rfl

theorem labelled_setIndex (hb : Labelled b) {root : String} {f : FamilyIndex} (hf : f.root = root) :
    Labelled (b.setIndex root f) := by
  intro q
  rw [index_setIndex]
  split
  · rename_i hq
    rw [hf, hq]
  · exact hb q

theorem labelled_mapIndexes (hb : Labelled b) {op : FamilyIndex → FamilyIndex}
    (hop : ∀ f, (op f).root = f.root) : Labelled (b.mapIndexes op) := by
  intro root
  have hroot := hb root
  rw [index_mapIndexes]
  unfold index SortedMap.getD at hroot
  cases hget : b.indexes.get? root with
  | none => rfl
  | some f =>
    rw [hget] at hroot
    exact (hop f).trans hroot

/-- Labels stay. -/
def KeepsLabels (b c : Backend) : Prop := Labelled b → Labelled c

instance : Std.Refl KeepsLabels := ⟨fun _ => id⟩

instance : IsTrans Backend KeepsLabels := ⟨fun _ _ _ hbc hcd hb => hcd (hbc hb)⟩

theorem keepsLabels_onIndex {α : Type} {x : Update FamilyIndex α}
    (hx : Update.Regular SameRoot Eq x) (root : String) :
    Update.Regular KeepsLabels Eq (onIndex root x) :=
  Update.regular_of_moves fun b hb =>
    labelled_setIndex hb ((hx.moves (b.index root)).trans (hb root))

theorem keepsLabels_onFamily {α : Type} {x : Update FamilyIndex α}
    (hx : Update.Regular SameRoot Eq x) (st : Store) (model : String) :
    Update.Regular KeepsLabels Eq (onFamily st model x) := by
  unfold onFamily
  refine Update.regular_bind (Update.regular_ofResult _) fun root? => ?_
  cases root? with
  | none => exact Update.regular_pure none
  | some root => exact Update.regular_map some (keepsLabels_onIndex hx root)

theorem keepsLabels_published {x : Update FamilyIndex Unit} (hx : Update.Regular SameRoot Eq x)
    (st : Store) (model : String) :
    Update.Regular KeepsLabels Eq (do
      let _ ← onFamily st model do
        x
        publish) := by
  have hpublished := Update.regular_bind hx fun _ => sameRoot_publish
  exact Update.regular_bind (keepsLabels_onFamily hpublished st model) fun _ =>
    Update.regular_pure ()

theorem keepsLabels_add (st : Store) (r : Record) :
    Update.Regular KeepsLabels Eq (add st r) :=
  keepsLabels_published (sameRoot_addItem st r) st r.model

theorem keepsLabels_delete (st : Store) (r : Record) :
    Update.Regular KeepsLabels Eq (delete st r) :=
  keepsLabels_published (sameRoot_change (deleteItem_eq st r)) st r.model

theorem keepsLabels_rebuildFamily (st : Store) (size : Nat) (root : String) :
    Update.Regular KeepsLabels Eq (rebuildFamily st size root) := by
  unfold rebuildFamily
  refine Update.regular_bind (Update.regular_ofResult _) fun root => ?_
  refine Update.regular_bind (Update.regular_ofResult _) fun rs => ?_
  refine Update.regular_bind (keepsLabels_onIndex ?_ root) fun _ => Update.regular_pure _
  exact Update.regular_bind (Update.regular_forM (sameRoot_addItems st) _) fun _ => sameRoot_publish

theorem keepsLabels_rebuild (st : Store) (chunkSize : Nat) :
    Update.Regular KeepsLabels Eq (rebuild st chunkSize) := by
  unfold rebuild
  cases chunkSize with
  | zero => exact Update.regular_ofResult (.error _)
  | succ size =>
    refine Update.regular_bind
      (Update.regular_of_moves fun b hb => labelled_mapIndexes hb fun _ => rfl) fun _ => ?_
    refine Update.regular_bind
      (Update.regular_mapM (keepsLabels_rebuildFamily st size) _) fun _ => ?_
    exact Update.regular_pure _

/-- **Labels stay, whatever is done to a backend.** -/
theorem labelled_run (hb : Labelled b) (st : Store) (c : BackendCommand) :
    Labelled ((c.run st).perform b).2 := by
  refine Update.Regular.moves (R := KeepsLabels) (E := Eq) ?_ b hb
  cases c with
  | index model c => exact Update.regular_map _ (keepsLabels_onFamily (sameRoot_run st c) st model)
  | add r => exact Update.regular_map _ (keepsLabels_add st r)
  | addBulk model rs =>
    exact Update.regular_map _ (keepsLabels_published (sameRoot_addItems st rs) st model)
  | delete r => exact Update.regular_map _ (keepsLabels_delete st r)
  | refreshAll =>
    exact Update.regular_map _
      (Update.regular_of_moves fun b hb => labelled_mapIndexes hb fun _ => rfl)
  | resetAll =>
    exact Update.regular_map _
      (Update.regular_of_moves fun b hb => labelled_mapIndexes hb fun _ => rfl)
  | rebuild chunkSize => exact Update.regular_map _ (keepsLabels_rebuild st chunkSize)

/-! ## Families -/

/-- After a reset every index is alike to the empty one. -/
theorem alike_resetAll (hb : Labelled b) (root : String) :
    FamilyIndex.Alike (b.resetAll.index root) (.empty root) := by
  have hroot := hb root
  show FamilyIndex.Alike ((b.mapIndexes FamilyIndex.reset).index root) _
  rw [index_mapIndexes]
  unfold index SortedMap.getD at hroot
  cases hget : b.indexes.get? root with
  | none => rfl
  | some f =>
    rw [hget] at hroot
    exact alike_of_eq hroot rfl rfl

/-- An operation on an index gives its outcome and replaces the index. -/
theorem perform_onIndex {α : Type} (root : String) (x : Update FamilyIndex α) (b : Backend) :
    (onIndex root x).perform b =
      ((x.perform (b.index root)).1, b.setIndex root (x.perform (b.index root)).2) := rfl

theorem indexedRoot_eq {s : Schema} {model root : String} (hroot : s.rootOf model = .ok root) :
    indexedRoot s model = .ok (if s.hasIndexedFamily root then some root else none) := by
  unfold indexedRoot
  rw [hroot]
  rfl

section Indexed

variable {s : Schema} (hs : Schema.Built models s)

include hs

theorem mem_indexedRoots {root : String} :
    root ∈ indexedRoots s ↔ s.rootOf root = .ok root ∧ s.hasIndexedFamily root = true := by
  unfold indexedRoots
  simp only [List.mem_map, List.mem_filter, Bool.and_eq_true, Option.isNone_iff_eq_none]
  constructor
  · rintro ⟨e, ⟨he, hparent, hindexed⟩, rfl⟩
    exact ⟨(hs.rootOf_self_iff he).mpr hparent, hindexed⟩
  · rintro ⟨hroot, hindexed⟩
    obtain ⟨e, hentry⟩ := Schema.contains_iff.mp (Schema.contains_of_rootOf hroot)
    obtain ⟨he, rfl⟩ := Schema.mem_of_entry?_eq hentry
    exact ⟨e, ⟨he, (hs.rootOf_self_iff he).mp hroot, hindexed⟩, rfl⟩

theorem sublist_indexedRoots : (indexedRoots s).Sublist (models.map Model.name) := by
  rw [← hs.models_eq]
  exact List.filter_sublist.map _

/-- A record whose type is indexed belongs to an indexed family. -/
theorem root_mem_indexedRoots {name root : String} (hroot : s.rootOf name = .ok root)
    (hindexed : s.isIndexed name = true) : root ∈ indexedRoots s := by
  have hself := hs.rootOf_root hroot
  have hfamily := (hs.hasIndexedFamily_iff hself).mpr ⟨name, hroot, hindexed⟩
  exact (mem_indexedRoots hs).mpr ⟨hself, hfamily⟩

end Indexed

section Filed

variable (hs : Schema.Built models st.schema) (hst : st.Filed)

include hs hst

/-- **The index of an indexed family is filled, and nothing else is touched.** -/
theorem perform_rebuildFamily {root : String} (hb : (b.index root).root = root)
    (hroot : root ∈ indexedRoots st.schema) (size : Nat) :
    (rebuildFamily st size root).perform b =
      (.ok (chunksOf size (st.family root).values),
        b.setIndex root (refilled st (b.index root))) := by
  obtain ⟨hself, hindexed⟩ := (mem_indexedRoots hs).mp hroot
  have hmodel : addModel st root = .ok root := by
    unfold addModel
    rw [indexedRoot_eq hself, if_pos hindexed]
    rfl
  have hadded : ((addItems st (st.family root).values).perform (b.index root)).1 = .ok () := by
    refine addItems_ok fun r hr => ?_
    rw [hb]
    exact ⟨_, addition_of_mem hs hst hr⟩
  have hfilled : Update.perform (do
      (chunksOf size (st.family root).values).forM fun chunk => addItems st chunk
      publish) (b.index root) = (.ok (), refilled st (b.index root)) := by
    unfold refilled
    rw [addItems_chunksOf, Update.perform_bind, hb]
    generalize (addItems st (st.family root).values).perform (b.index root) = out at hadded ⊢
    obtain ⟨_, f⟩ := out
    cases hadded
    rfl
  unfold rebuildFamily
  rw [Update.perform_ofResult_bind, hmodel]
  show Update.perform (Update.ofResult (st.records root) >>= _) b = _
  rw [Update.perform_ofResult_bind, Store.records_root hst hself]
  show Update.perform (onIndex root _ >>= _) b = _
  rw [Update.perform_bind, perform_onIndex, hfilled]
  rfl

/-- **Families are filled independently of each other.** -/
theorem perform_rebuildFamilies {roots : List String}
    (hroots : ∀ root ∈ roots, root ∈ indexedRoots st.schema) (hnodup : roots.Nodup)
    (hb : Labelled b) (size : Nat) :
    ∃ b', (roots.mapM (rebuildFamily st size)).perform b =
        (.ok (roots.map fun root => chunksOf size (st.family root).values), b') ∧
      ∀ q, b'.index q = if q ∈ roots then refilled st (b.index q) else b.index q := by
  induction roots generalizing b with
  | nil => exact ⟨b, rfl, fun q => rfl⟩
  | cons root roots ih =>
    obtain ⟨hfresh, hnodup⟩ := List.nodup_cons.mp hnodup
    have hfirst := perform_rebuildFamily hs hst (hb root) (hroots root List.mem_cons_self) size
    have hlabelled := (keepsLabels_rebuildFamily st size root).moves b hb
    rw [hfirst] at hlabelled
    obtain ⟨b', hrest, hindex⟩ :=
      ih (fun q hq => hroots q (List.mem_cons_of_mem _ hq)) hnodup hlabelled
    refine ⟨b', ?_, fun q => ?_⟩
    · rw [List.mapM_cons, Update.perform_bind, hfirst]
      show Update.perform (roots.mapM (rebuildFamily st size) >>= _) _ = _
      rw [Update.perform_bind, hrest]
      rfl
    · rw [hindex, index_setIndex]
      by_cases hq : q = root
      · subst hq
        rw [if_neg hfresh, if_pos rfl, if_pos List.mem_cons_self]
      · rw [if_neg hq]
        simp only [List.mem_cons, hq, false_or]

/-- **What a rebuild does**: the indexes of the indexed families are filled, and all others are
reset. -/
theorem perform_rebuild (hb : Labelled b) (size : Nat) :
    let roots := indexedRoots st.schema
    ∃ b', (rebuild st (size + 1)).perform b =
        (.ok ⟨className, roots, (roots.map fun root => (st.family root).size).sum,
          (roots.map fun root => (st.family root).size ⌈/⌉ (size + 1)).sum⟩, b') ∧
      ∀ q, b'.index q =
        if q ∈ roots then refilled st (b.resetAll.index q) else b.resetAll.index q := by
  intro roots
  have hnodup : roots.Nodup := (sublist_indexedRoots hs).nodup hs.nodup
  have hreset : Labelled b.resetAll := labelled_mapIndexes hb fun _ => rfl
  obtain ⟨b', hfilled, hindex⟩ := perform_rebuildFamilies hs hst (fun _ => id) hnodup hreset size
  refine ⟨b', ?_, hindex⟩
  show Update.perform (roots.mapM (rebuildFamily st size) >>= _) b.resetAll = _
  rw [Update.perform_bind, hfilled]
  have hrecords :
      (roots.map fun root => chunksOf size (st.family root).values).flatten.flatten.length =
        (roots.map fun root => (st.family root).size).sum := by
    rw [List.length_flatten, List.map_flatten, List.sum_flatten, List.map_map, List.map_map]
    refine congrArg List.sum (List.map_congr_left fun root _ => ?_)
    show ((chunksOf size (st.family root).values).map List.length).sum = _
    rw [← List.length_flatten, flatten_chunksOf, SortedMap.length_values]
  have hchunks :
      (roots.map fun root => chunksOf size (st.family root).values).flatten.length =
        (roots.map fun root => (st.family root).size ⌈/⌉ (size + 1)).sum := by
    rw [List.length_flatten, List.map_map]
    refine congrArg List.sum (List.map_congr_left fun root _ => ?_)
    show (chunksOf size (st.family root).values).length = _
    rw [length_chunksOf, SortedMap.length_values]
  rw [← hrecords, ← hchunks]
  rfl

theorem upToDate_rebuild (hb : Labelled b) {n : Nat} (hn : 0 < n) (root : String) :
    UpToDate st root (((rebuild st n).perform b).2.index root) := by
  obtain ⟨size, rfl⟩ := Nat.exists_eq_add_of_lt hn
  obtain ⟨b', hrebuilt, hindex⟩ := perform_rebuild hs hst hb (0 + size)
  have hreset := mirrors_of_alike_empty (alike_resetAll hb root)
  rw [hrebuilt, hindex]
  split
  · exact upToDate_refilled hs hst hreset
  · rename_i hroot
    -- no type of the family has a searchable field
    refine upToDate_of_entry? hs hst (alike_resetAll hb root).pending_eq fun pk => ?_
    have hbare := (upcoming?_of_pending (alike_resetAll hb root).pending_eq pk).symm
    rw [hreset.upcoming] at hbare
    refine hbare.trans (Option.bind_eq_none_iff.mpr fun r hr => ?_).symm
    have hmodel := (hst root pk r hr).2
    exact entryOf?_eq_none hs (Schema.contains_of_rootOf hmodel)
      (Bool.eq_false_of_not_eq_true fun h => hroot (root_mem_indexedRoots hs hmodel h))

/-- The tables of each index account for its entries. -/
theorem tabulated_rebuild (hb : Labelled b) {n : Nat} (hn : 0 < n) (root : String) :
    (((rebuild st n).perform b).2.index root).index.Tabulated := by
  obtain ⟨size, rfl⟩ := Nat.exists_eq_add_of_lt hn
  obtain ⟨b', hrebuilt, hindex⟩ := perform_rebuild hs hst hb (0 + size)
  have hreset := tabulated_of_alike_empty (alike_resetAll hb root)
  rw [hrebuilt, hindex]
  split
  · exact tabulated_refilled st hreset
  · exact hreset

/-- What was there before a rebuild and the size of its batches do not matter. -/
theorem alike_rebuild (hb : Labelled b) (hc : Labelled c) {n m : Nat} (hn : 0 < n) (hm : 0 < m)
    (root : String) :
    FamilyIndex.Alike (((rebuild st n).perform b).2.index root)
      (((rebuild st m).perform c).2.index root) := by
  obtain ⟨size, rfl⟩ := Nat.exists_eq_add_of_lt hn
  obtain ⟨other, rfl⟩ := Nat.exists_eq_add_of_lt hm
  obtain ⟨b', hb', hindexb⟩ := perform_rebuild hs hst hb (0 + size)
  obtain ⟨c', hc', hindexc⟩ := perform_rebuild hs hst hc (0 + other)
  have hreset : FamilyIndex.Alike (b.resetAll.index root) (c.resetAll.index root) :=
    (alike_resetAll hb root).trans (alike_resetAll hc root).symm
  rw [hb', hc', hindexb, hindexc]
  split
  · exact alike_refilled st hreset
  · exact hreset

end Filed

/-! ## The whole rebuild -/

/-- What a rebuild in batches of `n` has to report. -/
structure Reports (models : List Model) (st : Store) (n : Nat) (stats : RebuildStats) : Prop where
  order : stats.models.Sublist (models.map Model.name)
  mem_models : ∀ root, root ∈ stats.models ↔
    ∃ name, st.schema.rootOf name = .ok root ∧ st.schema.isIndexed name = true
  records : stats.records = (stats.models.map fun root => (st.family root).size).sum
  chunks : stats.chunks = (stats.models.map fun root => (st.family root).size ⌈/⌉ n).sum

/-- **A rebuild indexes what is stored.** Over a built schema, with a store that any writes have
made and a backend in whatever state, a rebuild in batches of at least one record succeeds. It
reports the roots of the indexed families in the order of declaration, the number of their records
and the number of batches. Afterwards each index has an entry for each stored record of its family
that is of a type with a searchable field, derived from the store as it is, and no other entry;
nothing is buffered. Neither the state before nor the size of the batches makes a difference.
Batches without records are refused, and the backend is left alone. -/
theorem rebuild_indexes_store {s : Schema} (hs : Schema.ofModels models = .ok s)
    (ws : List StoreWrite) (hb : Labelled b) {n : Nat} (hn : 0 < n) :
    let st := (Store.empty s).after ws
    (∃ stats, ((rebuild st n).perform b).1 = .ok stats ∧ Reports models st n stats) ∧
    (∀ root, UpToDate st root (((rebuild st n).perform b).2.index root)) ∧
    (∀ c m, Labelled c → 0 < m → ∀ root,
      FamilyIndex.Alike (((rebuild st n).perform b).2.index root)
        (((rebuild st m).perform c).2.index root)) ∧
    (rebuild st 0).perform b = (.error (.config .emptyBatch), b) := by
  intro st
  have hschema : st.schema = s := Store.schema_after _ ws
  have hbuilt : Schema.Built models st.schema := hschema ▸ Schema.built_of_ofModels hs
  have hfiled : st.Filed := Store.filed_after_empty s ws
  refine ⟨?_, upToDate_rebuild hbuilt hfiled hb hn,
    fun c m hc hm => alike_rebuild hbuilt hfiled hb hc hn hm, rfl⟩
  obtain ⟨size, rfl⟩ := Nat.exists_eq_add_of_lt hn
  obtain ⟨b', hrebuilt, -⟩ := perform_rebuild hbuilt hfiled hb (0 + size)
  rw [hrebuilt]
  refine ⟨_, rfl, sublist_indexedRoots hbuilt, fun root => ?_, rfl, rfl⟩
  constructor
  · intro hroot
    obtain ⟨hself, hindexed⟩ := (mem_indexedRoots hbuilt).mp hroot
    exact (hbuilt.hasIndexedFamily_iff hself).mp hindexed
  · rintro ⟨name, hname, hindexed⟩
    exact root_mem_indexedRoots hbuilt hname hindexed

/-- Two books, a leaflet and a shelf, the first book under a new title. -/
def stocking : List StoreWrite :=
  [.insert (titled "Book" 1 "Tea"), .insert (titled "Leaflet" 2 "Milk"),
    .insert (titled "Shelf" 1 "Drinks"), .insert (titled "Book" 3 "Maté"),
    .insert (titled "Book" 1 "Coffee")]

/-- A backend whose index of books has entries and buffered writes that are out of date. -/
def disordered : Backend :=
  (ofScorer .standard).setIndex "Book"
    (play (.empty librarySchema, .empty "Book") (shelving ++ .index .refresh :: shelvingOn)).2

theorem labelled_disordered : Labelled disordered :=
  labelled_setIndex (labelled_ofScorer .standard) (mirrors_play (mirrors_empty "Book") _ _).root_eq

/-- Three records in batches of two; the leaflet is handed over, and nothing is indexed of it. -/
theorem rebuild_indexes_store_stocking :
    let st := (Store.empty librarySchema).after stocking
    let rebuilt := (rebuild st 2).perform disordered
    (Schema.ofModels libraryModels = .ok librarySchema ∧ Labelled disordered ∧ 0 < 2) ∧
    ((disordered.index "Book").index.entries.keys = [1, 3] ∧
      (disordered.index "Book").pending.keys = [3, 5]) ∧
    rebuilt.1.toOption = some ⟨className, ["Book"], 3, 2⟩ ∧
    Reports libraryModels st 2 ⟨className, ["Book"], 3, 2⟩ ∧
    UpToDate st "Book" (rebuilt.2.index "Book") ∧
    (rebuilt.2.index "Book").index.entries.keys = [1, 3] := by
  intro st rebuilt
  obtain ⟨⟨stats, hok, hreports⟩, hcurrent, -⟩ :=
    rebuild_indexes_store ofModels_libraryModels stocking labelled_disordered (n := 2) (by decide)
  have hstats : rebuilt.1.toOption = some ⟨className, ["Book"], 3, 2⟩ := by decide +kernel
  have heq : rebuilt.1.toOption = some stats := congrArg Except.toOption hok
  rw [hstats] at heq
  refine ⟨⟨ofModels_libraryModels, labelled_disordered, by decide⟩, ?_, hstats,
    Option.some.inj heq ▸ hreports, hcurrent "Book", ?_⟩
  · decide +kernel
  · decide +kernel

end Backend

end Concordance
