import Concordance.Proofs.Index.Version
import Concordance.Proofs.Update
import Concordance.Rebuild

/-!
# Writes to indexes and backends are regular

Whatever a write to an index or a backend does:

* each index is the one it was, or its version has grown (`FamilyIndex.Grows`, `Backend.Grows`);
* its outcome, and what it leaves but for versions, do not depend on versions
  (`FamilyIndex.Alike`, `Backend.Alike`). For a backend this includes which of its indexes without
  entries have been created: an index that is read before it exists is empty.

Both hold of the few operations that touch an index, and hence of everything that is built from
them (`Update.Regular`).
-/

namespace Concordance

/-! ## The index of a family -/

/-- A buffered write as a change to the entries. -/
def PendingWrite.toChange (pk : Key) : PendingWrite → Change
  | put entry => .put entry
  | delete => .remove pk

namespace FamilyIndex

/-- The index is the one it was, or its version has grown. -/
def Grows (f g : FamilyIndex) : Prop := Later InvertedIndex.version f.index g.index

/-- The family index without the version of its index. -/
def content (f : FamilyIndex) : FamilyIndex := { f with index := f.index.content }

/-- The same but for the version. -/
def Alike (f g : FamilyIndex) : Prop := f.content = g.content

instance : Std.Refl Grows := ⟨fun f => later_refl f.index⟩

instance : IsTrans FamilyIndex Grows := ⟨fun _ _ _ => later_trans⟩

theorem Alike.root_eq {f g : FamilyIndex} (h : Alike f g) : f.root = g.root := by
  injection h

theorem Alike.pending_eq {f g : FamilyIndex} (h : Alike f g) : f.pending = g.pending := by
  injection h

theorem Alike.index_eq {f g : FamilyIndex} (h : Alike f g) :
    f.index.content = g.index.content := by
  injection h

theorem alike_of_eq {f g : FamilyIndex} (hroot : f.root = g.root)
    (hindex : f.index.content = g.index.content) (hpending : f.pending = g.pending) :
    Alike f g := by
  unfold Alike content
  rw [hroot, hindex, hpending]

/-! ### Buffering -/

/-- Buffers a write, if there is one. -/
def bufferAny (f : FamilyIndex) : Option (Key × PendingWrite) → FamilyIndex
  | some (pk, w) => f.buffer pk w
  | none => f

theorem grows_bufferAny (f : FamilyIndex) (w? : Option (Key × PendingWrite)) :
    Grows f (f.bufferAny w?) := by
  cases w? <;> exact later_refl f.index

theorem alike_bufferAny {f g : FamilyIndex} (h : Alike f g) (w? : Option (Key × PendingWrite)) :
    Alike (f.bufferAny w?) (g.bufferAny w?) := by
  cases w? with
  | none => exact h
  | some w =>
    refine alike_of_eq h.root_eq h.index_eq ?_
    show f.pending.insert w.1 w.2 = g.pending.insert w.1 w.2
    rw [h.pending_eq]

theorem perform_change_ok {step : FamilyIndex → Result FamilyIndex} {f f' : FamilyIndex}
    (h : step f = .ok f') : (change step).perform f = (.ok (), f') := by
  simp only [change, Update.perform, ExceptT.run, ExceptT.mk, h]

theorem perform_change_error {step : FamilyIndex → Result FamilyIndex} {f : FamilyIndex}
    {e : Error} (h : step f = .error e) : (change step).perform f = (.error e, f) := by
  simp only [change, Update.perform, ExceptT.run, ExceptT.mk, h]

/-- An operation that buffers a write, or none, as the root of the family decides. -/
theorem regular_change {step : FamilyIndex → Result FamilyIndex}
    (verdict : String → Result (Option (Key × PendingWrite)))
    (hstep : ∀ f, step f = (verdict f.root).map f.bufferAny) :
    Update.Regular Grows Alike (change step) := by
  have herror : ∀ f e, verdict f.root = .error e → (change step).perform f = (.error e, f) := by
    intro f e h
    exact perform_change_error (by rw [hstep, h]; rfl)
  have hok : ∀ f w?, verdict f.root = .ok w? →
      (change step).perform f = (.ok (), f.bufferAny w?) := by
    intro f w? h
    exact perform_change_ok (by rw [hstep, h]; rfl)
  constructor
  · intro f
    cases h : verdict f.root with
    | error e =>
      rw [herror f e h]
      exact later_refl f.index
    | ok w? =>
      rw [hok f w? h]
      exact grows_bufferAny f w?
  · intro f g hfg
    cases h : verdict g.root with
    | error e =>
      rw [herror f e (hfg.root_eq ▸ h), herror g e h]
      exact ⟨rfl, hfg⟩
    | ok w? =>
      rw [hok f w? (hfg.root_eq ▸ h), hok g w? h]
      exact ⟨rfl, alike_bufferAny hfg w?⟩

/-- The write that is buffered for a record handed over for indexing; none if its type has no
searchable field. -/
def addition (st : Store) (r : Record) (root : String) : Result (Option (Key × PendingWrite)) := do
  checkFamily st.schema root r
  return (← buildEntry st r).map fun entry => (r.pk, .put entry)

/-- The write that is buffered for a record handed over for removal. -/
def removal (st : Store) (r : Record) (root : String) : Result (Option (Key × PendingWrite)) := do
  checkFamily st.schema root r
  return some (r.pk, .delete)

theorem addItem_eq (st : Store) (r : Record) (f : FamilyIndex) :
    addItem st r f = (addition st r f.root).map f.bufferAny := by
  unfold addItem addition
  cases checkFamily st.schema f.root r with
  | error e => rfl
  | ok u => rcases buildEntry st r with _ | _ | entry <;> rfl

theorem deleteItem_eq (st : Store) (r : Record) (f : FamilyIndex) :
    deleteItem st r f = (removal st r f.root).map f.bufferAny := by
  unfold deleteItem removal
  cases checkFamily st.schema f.root r <;> rfl

theorem regular_addItem (st : Store) (r : Record) :
    Update.Regular Grows Alike (change (addItem st r)) :=
  regular_change (addition st r) (addItem_eq st r)

theorem regular_deleteItem (st : Store) (r : Record) :
    Update.Regular Grows Alike (change (deleteItem st r)) :=
  regular_change (removal st r) (deleteItem_eq st r)

theorem regular_addItems (st : Store) (rs : List Record) :
    Update.Regular Grows Alike (addItems st rs) :=
  Update.regular_forM (regular_addItem st) rs

/-! ### Refresh and reset -/

theorem applyWrite_eq (ix : InvertedIndex) (pk : Key) (w : PendingWrite) :
    applyWrite ix pk w = (w.toChange pk).apply ix := by
  cases w <;> rfl

theorem later_applyWrites (ws : List (Key × PendingWrite)) (ix : InvertedIndex) :
    Later InvertedIndex.version ix (ws.foldl (fun ix w => applyWrite ix w.1 w.2) ix) := by
  induction ws generalizing ix with
  | nil => exact later_refl ix
  | cons w ws ih =>
    rw [List.foldl_cons, applyWrite_eq]
    exact later_trans (ix.later_apply _) (ih _)

theorem content_applyWrites (ws : List (Key × PendingWrite)) {ix ix' : InvertedIndex}
    (h : ix.content = ix'.content) :
    (ws.foldl (fun ix w => applyWrite ix w.1 w.2) ix).content =
      (ws.foldl (fun ix w => applyWrite ix w.1 w.2) ix').content := by
  induction ws generalizing ix ix' with
  | nil => exact h
  | cons w ws ih =>
    rw [List.foldl_cons, List.foldl_cons, applyWrite_eq, applyWrite_eq]
    apply ih
    rw [ix.content_apply, ix'.content_apply, h]

theorem grows_refresh (f : FamilyIndex) : Grows f f.refresh :=
  later_applyWrites f.pending.toList f.index

theorem alike_refresh {f g : FamilyIndex} (h : Alike f g) : Alike f.refresh g.refresh := by
  refine alike_of_eq h.root_eq ?_ rfl
  unfold refresh
  rw [h.pending_eq]
  exact content_applyWrites g.pending.toList h.index_eq

theorem grows_reset (f : FamilyIndex) : Grows f f.reset := f.index.later_apply .clear

theorem alike_reset {f g : FamilyIndex} (h : Alike f g) : Alike f.reset g.reset :=
  alike_of_eq h.root_eq rfl rfl

theorem regular_publish : Update.Regular Grows Alike Backend.publish :=
  Update.regular_modify grows_refresh fun _ _ => alike_refresh

theorem regular_reset : Update.Regular Grows Alike (modify reset) :=
  Update.regular_modify grows_reset fun _ _ => alike_reset

end FamilyIndex

/-! ## Backends -/

namespace Backend

/-- Each index is the one it was, or its version has grown; the scorer stays. -/
def Grows (b c : Backend) : Prop :=
  c.scorer = b.scorer ∧ ∀ root, FamilyIndex.Grows (b.index root) (c.index root)

/-- The same scorer and indexes, but for versions and for which empty indexes exist. -/
def Alike (b c : Backend) : Prop :=
  b.scorer = c.scorer ∧ ∀ root, FamilyIndex.Alike (b.index root) (c.index root)

theorem grows_refl (b : Backend) : Grows b b := ⟨rfl, fun root => later_refl (b.index root).index⟩

theorem grows_trans {b c d : Backend} (hbc : Grows b c) (hcd : Grows c d) : Grows b d :=
  ⟨hcd.1.trans hbc.1, fun root => later_trans (hbc.2 root) (hcd.2 root)⟩

instance : Std.Refl Grows := ⟨grows_refl⟩

instance : IsTrans Backend Grows := ⟨fun _ _ _ => grows_trans⟩

/-! ### One index -/

theorem index_setIndex (b : Backend) (root q : String) (f : FamilyIndex) :
    (b.setIndex root f).index q = if q = root then f else b.index q := by
  unfold index setIndex SortedMap.getD
  rw [SortedMap.get?_insert]
  split <;> rfl

/-- **An operation on an index is regular on the backend.** -/
theorem regular_onIndex {α : Type} {x : Update FamilyIndex α}
    (hx : Update.Regular FamilyIndex.Grows FamilyIndex.Alike x) (root : String) :
    Update.Regular Grows Alike (onIndex root x) := by
  refine Update.regular_within hx (fun b c h => h.2 root) (fun b f hf => ⟨rfl, fun q => ?_⟩)
    (fun b c f g h hfg => ⟨h.1, fun q => ?_⟩)
  · rw [index_setIndex]
    split
    · rename_i hq
      exact hq ▸ hf
    · exact later_refl _
  · rw [index_setIndex, index_setIndex]
    split
    · exact hfg
    · exact h.2 q

theorem regular_onFamily {α : Type} {x : Update FamilyIndex α}
    (hx : Update.Regular FamilyIndex.Grows FamilyIndex.Alike x) (st : Store) (model : String) :
    Update.Regular Grows Alike (onFamily st model x) := by
  unfold onFamily
  refine Update.regular_bind (Update.regular_ofResult _) fun root? => ?_
  cases root? with
  | none => exact Update.regular_pure none
  | some root => exact Update.regular_map some (regular_onIndex hx root)

/-- Creating an index is seen by nothing. -/
theorem index_openIndex (b : Backend) (root q : String) :
    (b.openIndex root).index q = b.index q := by
  unfold openIndex
  rw [index_setIndex]
  split
  · rename_i hq
    rw [hq]
  · rfl

/-! ### Single writes -/

/-- Writing to the index of a model and refreshing it. -/
theorem regular_published {x : Update FamilyIndex Unit}
    (hx : Update.Regular FamilyIndex.Grows FamilyIndex.Alike x) (st : Store) (model : String) :
    Update.Regular Grows Alike (do
      let _ ← onFamily st model do
        x
        publish) := by
  have hpublished := Update.regular_bind hx fun _ => FamilyIndex.regular_publish
  exact Update.regular_bind (regular_onFamily hpublished st model) fun _ => Update.regular_pure ()

theorem regular_add (st : Store) (r : Record) : Update.Regular Grows Alike (add st r) :=
  regular_published (FamilyIndex.regular_addItem st r) st r.model

theorem regular_addBulk (st : Store) (model : String) (rs : List Record) :
    Update.Regular Grows Alike (addBulk st model rs) :=
  regular_published (FamilyIndex.regular_addItems st rs) st model

theorem regular_delete (st : Store) (r : Record) : Update.Regular Grows Alike (delete st r) :=
  regular_published (FamilyIndex.regular_deleteItem st r) st r.model

/-! ### All indexes at once -/

/-- The backend with an operation done on every index that exists. -/
def mapIndexes (op : FamilyIndex → FamilyIndex) (b : Backend) : Backend :=
  { b with indexes := b.indexes.map op }

theorem index_mapIndexes (op : FamilyIndex → FamilyIndex) (b : Backend) (root : String) :
    (b.mapIndexes op).index root = ((b.indexes.get? root).map op).getD (.empty root) := by
  unfold index mapIndexes SortedMap.getD
  rw [SortedMap.get?_map]

/-- An operation on every index is regular if it is on each, and leaves an empty index empty: one
that does not exist yet is not reached. -/
theorem regular_mapIndexes {op : FamilyIndex → FamilyIndex}
    (hgrows : ∀ f, FamilyIndex.Grows f (op f))
    (halike : ∀ {f g}, FamilyIndex.Alike f g → FamilyIndex.Alike (op f) (op g))
    (hempty : ∀ root, FamilyIndex.Alike (.empty root) (op (.empty root))) :
    Update.Regular Grows Alike (modify (mapIndexes op)) := by
  have hop : ∀ (b : Backend) (root : String),
      FamilyIndex.Alike ((b.mapIndexes op).index root) (op (b.index root)) := by
    intro b root
    rw [index_mapIndexes]
    unfold index SortedMap.getD
    cases b.indexes.get? root with
    | none => exact hempty root
    | some f => exact rfl
  refine Update.regular_modify (fun b => ⟨rfl, fun root => ?_⟩)
    (fun b c h => ⟨h.1, fun root => ?_⟩)
  · rw [index_mapIndexes]
    unfold index SortedMap.getD
    cases b.indexes.get? root with
    | none => exact later_refl _
    | some f => exact hgrows f
  · exact (hop b root).trans ((halike (h.2 root)).trans (hop c root).symm)

theorem regular_resetAll : Update.Regular Grows Alike (modify resetAll) :=
  regular_mapIndexes FamilyIndex.grows_reset FamilyIndex.alike_reset fun _ => rfl

theorem regular_refreshAll : Update.Regular Grows Alike (modify refreshAll) :=
  regular_mapIndexes FamilyIndex.grows_refresh FamilyIndex.alike_refresh fun _ => rfl

/-! ### Rebuilds -/

theorem regular_rebuildFamily (st : Store) (size : Nat) (root : String) :
    Update.Regular Grows Alike (rebuildFamily st size root) := by
  unfold rebuildFamily
  refine Update.regular_bind (Update.regular_ofResult _) fun root => ?_
  refine Update.regular_bind (Update.regular_ofResult _) fun rs => ?_
  refine Update.regular_bind (regular_onIndex ?_ root) fun _ => Update.regular_pure _
  exact Update.regular_bind (Update.regular_forM (FamilyIndex.regular_addItems st) _) fun _ =>
    FamilyIndex.regular_publish

theorem regular_rebuild (st : Store) (chunkSize : Nat) :
    Update.Regular Grows Alike (rebuild st chunkSize) := by
  unfold rebuild
  cases chunkSize with
  | zero => exact Update.regular_ofResult (.error _)
  | succ size =>
    refine Update.regular_bind regular_resetAll fun _ => ?_
    refine Update.regular_bind (Update.regular_mapM (regular_rebuildFamily st size) _) fun _ => ?_
    exact Update.regular_pure _

end Backend

end Concordance
