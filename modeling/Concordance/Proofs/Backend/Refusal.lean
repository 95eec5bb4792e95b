import Concordance.Proofs.Backend.Rebuild

/-!
# Writes to a backend that fail

A write to a backend finds its index, buffers what it is given, and refreshes. Every check stands
before the first effect, so a write that fails has done nothing; only records that are handed over
together are checked one by one, and those before the first that fails stay buffered.

* `stopped_of_addItems`: what a failing `addItems` leaves in the buffer (`FamilyIndex.Stopped`).
* `failed_of_batch`: what a failing batch does to a backend.
* **`sameIndexes_of_run`**: any other write to a backend that fails has left every index alone. A
  rebuild fails for an empty batch size, before it drops anything, and for no other reason.
-/

namespace Concordance

namespace FamilyIndex

variable {st : Store} {f g : FamilyIndex} {e : Error}

/-! ## One record -/

/-- The buffer with the entries of records put into it, one after the other. -/
def buffered (st : Store) (pending : SortedMap Key PendingWrite) (rs : List Record) :
    SortedMap Key PendingWrite :=
  rs.foldl (fun pending r =>
    match buildEntry st r with
    | .ok (some entry) => pending.insert r.pk (.put entry)
    | .ok none | .error _ => pending) pending

theorem addItem_ok {r : Record} (h : addItem st r f = .ok g) :
    g = { f with pending := buffered st f.pending [r] } := by
  unfold addItem at h
  obtain ⟨_, -, h⟩ := ok_of_bind h
  obtain ⟨made?, hmade, h⟩ := ok_of_bind h
  unfold buffered
  rw [List.foldl_cons, hmade]
  cases made? with
  | none =>
    cases h
    rfl
  | some entry =>
    cases h
    rfl

/-- Whether a record can be added does not depend on what is buffered already. -/
theorem addItem_eq_error_iff {r : Record} {pending : SortedMap Key PendingWrite} :
    addItem st r { f with pending := pending } = .error e ↔ addItem st r f = .error e := by
  rw [addItem_eq, addItem_eq]
  cases addition st r f.root with
  | error => exact Iff.rfl
  | ok => exact iff_of_false (fun h => nomatch h) fun h => nomatch h

theorem exists_addItem_iff {r : Record} {pending : SortedMap Key PendingWrite} :
    (∃ g, addItem st r { f with pending := pending } = .ok g) ↔ ∃ g, addItem st r f = .ok g := by
  rw [addItem_eq, addItem_eq]
  cases addition st r f.root with
  | error => exact Iff.rfl
  | ok => exact iff_of_true ⟨_, rfl⟩ ⟨_, rfl⟩

theorem perform_change_of_error {step : FamilyIndex → Result FamilyIndex}
    (h : ((change step).perform f).1 = .error e) :
    step f = .error e ∧ ((change step).perform f).2 = f := by
  cases hstep : step f with
  | error e' =>
    rw [perform_change_error hstep] at h ⊢
    cases h
    exact ⟨rfl, rfl⟩
  | ok f' =>
    rw [perform_change_ok hstep] at h
    nomatch h

/-! ## Records handed over together -/

/-- Records were handed over to an index, and one failed: those before it are buffered, and nothing
else has changed. -/
def Stopped (st : Store) (rs : List Record) (e : Error) (f g : FamilyIndex) : Prop :=
  ∃ before r later, rs = before ++ r :: later ∧
    (∀ x ∈ before, ∃ f', addItem st x f = .ok f') ∧ addItem st r f = .error e ∧
    g = { f with pending := buffered st f.pending before }

/-- **Adding records stops at the first that fails.** -/
theorem stopped_of_addItems {rs : List Record} (h : ((addItems st rs).perform f).1 = .error e) :
    Stopped st rs e f ((addItems st rs).perform f).2 := by
  induction rs generalizing f with
  | nil => nomatch h
  | cons r rs ih =>
    have hcons : (addItems st (r :: rs)).perform f =
      Update.perform (change (addItem st r) >>= fun _ => addItems st rs) f := rfl
    rw [hcons, Update.perform_bind] at h ⊢
    cases hr : addItem st r f with
    | error e' =>
      rw [perform_change_error hr] at h ⊢
      cases h
      exact ⟨[], r, rs, rfl, fun _ hx => absurd hx List.not_mem_nil, hr, rfl⟩
    | ok f' =>
      rw [perform_change_ok hr] at h ⊢
      obtain ⟨before, x, later, rfl, hbefore, hx, hg⟩ := ih h
      obtain rfl := addItem_ok hr
      refine ⟨r :: before, x, later, rfl, fun y hy => ?_, addItem_eq_error_iff.mp hx, hg⟩
      rcases List.mem_cons.mp hy with rfl | hy
      · exact ⟨_, hr⟩
      · exact exists_addItem_iff.mp (hbefore y hy)

theorem Stopped.index_eq {rs : List Record} (h : Stopped st rs e f g) : g.index = f.index := by
  obtain ⟨_, _, _, -, -, -, rfl⟩ := h
  rfl

end FamilyIndex

open FamilyIndex

/-- The records that a write to a backend hands over together, and the model whose index they are
for. -/
def BackendCommand.batch? : BackendCommand → Option (String × List Record)
  | index model (.addItems rs) | addBulk model rs => some (model, rs)
  | index _ _ | add _ | delete _ | refreshAll | resetAll | rebuild _ => none

namespace Backend

variable {models : List Model} {st : Store} {b c : Backend} {e : Error}

/-- The same indexes, but for which empty ones exist. -/
def SameIndexes (b c : Backend) : Prop :=
  c.scorer = b.scorer ∧ ∀ root, c.index root = b.index root

theorem sameIndexes_refl (b : Backend) : SameIndexes b b := ⟨rfl, fun _ => rfl⟩

theorem SameIndexes.trans {d : Backend} (hbc : SameIndexes b c) (hcd : SameIndexes c d) :
    SameIndexes b d :=
  ⟨hcd.1.trans hbc.1, fun root => (hcd.2 root).trans (hbc.2 root)⟩

theorem sameIndexes_setIndex {root : String} {f : FamilyIndex} (h : f = b.index root) :
    SameIndexes b (b.setIndex root f) := by
  refine ⟨rfl, fun q => ?_⟩
  rw [index_setIndex]
  split
  · rename_i hq
    rw [h, hq]
  · rfl

/-- What a backend is after an operation on the index of a model that failed: the model is not
declared, or the operation failed on the index. -/
def Failed {α : Type} (st : Store) (model : String) (x : Update FamilyIndex α) (e : Error)
    (b c : Backend) : Prop :=
  (indexedRoot st.schema model = .error e ∧ c = b) ∨
    ∃ root, indexedRoot st.schema model = .ok (some root) ∧
      (x.perform (b.index root)).1 = .error e ∧ c = b.setIndex root (x.perform (b.index root)).2

theorem failed_of_onFamily {α : Type} {model : String} {x : Update FamilyIndex α}
    (h : ((onFamily st model x).perform b).1 = .error e) :
    Failed st model x e b ((onFamily st model x).perform b).2 := by
  unfold onFamily at h ⊢
  rw [Update.perform_ofResult_bind] at h ⊢
  cases hindexed : indexedRoot st.schema model with
  | error e' =>
    rw [hindexed] at h
    cases h
    exact Or.inl ⟨hindexed, rfl⟩
  | ok root? =>
    rw [hindexed] at h
    cases root? with
    | none => nomatch h
    | some root =>
      replace h : ((some <$> onIndex root x).perform b).1 = .error e := h
      show Failed st model x e b ((some <$> onIndex root x).perform b).2
      rw [Update.perform_map, perform_onIndex] at h ⊢
      exact Or.inr ⟨root, hindexed, error_of_map h, rfl⟩

/-- A write that is followed by a refresh fails before the refresh. -/
theorem failed_of_published {model : String} {x : Update FamilyIndex Unit}
    (h : (Update.perform (do
      let _ ← onFamily st model do
        x
        publish) b).1 = .error e) :
    Failed st model x e b (Update.perform (do
      let _ ← onFamily st model do
        x
        publish) b).2 := by
  obtain ⟨hfamily, hstate⟩ := Update.perform_bind_of_error h fun _ _ h => nomatch h
  rw [hstate]
  obtain hunknown | ⟨root, hroot, hfails, hafter⟩ := failed_of_onFamily hfamily
  · exact Or.inl hunknown
  · obtain ⟨hx, hsame⟩ := Update.perform_bind_of_error hfails fun _ _ h => nomatch h
    exact Or.inr ⟨root, hroot, hx, by rw [hafter, hsame]⟩

/-- **Adding and deleting succeed** for a model that is declared, where the write that is to be
buffered can be told. -/
theorem published_ok {step : FamilyIndex → Result FamilyIndex}
    {verdict : String → Result (Option (Key × PendingWrite))}
    (hstep : ∀ f, step f = (verdict f.root).map f.bufferAny) (hb : Labelled b)
    {model root : String} (hroot : st.schema.rootOf model = .ok root)
    {w? : Option (Key × PendingWrite)} (hw : verdict root = .ok w?) :
    (Update.perform (do
      let _ ← onFamily st model do
        change step
        publish) b).1 = .ok () := by
  cases h : (Update.perform (do
      let _ ← onFamily st model do
        change step
        publish) b).1 with
  | ok => rfl
  | error e =>
    have hindexed := indexedRoot_eq hroot
    obtain ⟨hunknown, -⟩ | ⟨q, hq, hfails, -⟩ := failed_of_published h
    · rw [hunknown] at hindexed
      nomatch hindexed
    · have hq : q = root := by
        rw [hindexed] at hq
        split at hq
        · cases hq
          rfl
        · nomatch hq
      obtain ⟨hstopped, -⟩ := perform_change_of_error hfails
      rw [hstep, hb q, hq, hw] at hstopped
      nomatch hstopped

/-- An operation that fails without effect on an index leaves the backend alone. -/
theorem Failed.sameIndexes {α : Type} {model : String} {x : Update FamilyIndex α}
    (h : Failed st model x e b c)
    (hx : ∀ f, (x.perform f).1 = .error e → (x.perform f).2 = f) : SameIndexes b c := by
  obtain ⟨-, rfl⟩ | ⟨root, -, hfails, rfl⟩ := h
  · exact sameIndexes_refl _
  · exact sameIndexes_setIndex (hx _ hfails)

/-- **A write to a backend that fails leaves every index alone**, unless it hands over records
together. -/
theorem sameIndexes_of_run (hs : Schema.Built models st.schema) (hst : st.Filed)
    (hb : Labelled b) {w : BackendCommand} (hw : w.batch? = none)
    (h : ((w.run st).perform b).1 = .error e) : SameIndexes b ((w.run st).perform b).2 := by
  cases w with
  | index model c =>
    unfold BackendCommand.run at h ⊢
    rw [Update.perform_map] at h ⊢
    refine (failed_of_onFamily (error_of_map h)).sameIndexes fun f hf => ?_
    cases c with
    | addItem r => exact (perform_change_of_error hf).2
    | addItems rs => nomatch hw
    | deleteItem r => exact (perform_change_of_error hf).2
    | refresh => nomatch hf
    | reset => nomatch hf
  | add r =>
    unfold BackendCommand.run at h ⊢
    rw [Update.perform_map] at h ⊢
    exact (failed_of_published (error_of_map h)).sameIndexes fun f hf =>
      (perform_change_of_error hf).2
  | addBulk => nomatch hw
  | delete r =>
    unfold BackendCommand.run at h ⊢
    rw [Update.perform_map] at h ⊢
    exact (failed_of_published (error_of_map h)).sameIndexes fun f hf =>
      (perform_change_of_error hf).2
  | refreshAll => nomatch h
  | resetAll => nomatch h
  | rebuild chunkSize =>
    unfold BackendCommand.run at h ⊢
    rw [Update.perform_map] at h ⊢
    cases chunkSize with
    | zero => exact sameIndexes_refl b
    | succ size =>
      obtain ⟨b', hrebuilt, -⟩ := perform_rebuild hs hst hb size
      rw [hrebuilt] at h
      nomatch h

/-- **What a failing batch does to a backend.** -/
theorem failed_of_batch {w : BackendCommand} {model : String} {rs : List Record}
    (hw : w.batch? = some (model, rs)) (h : ((w.run st).perform b).1 = .error e) :
    Failed st model (addItems st rs) e b ((w.run st).perform b).2 := by
  cases w with
  | index model' c =>
    unfold BackendCommand.run at h ⊢
    rw [Update.perform_map] at h ⊢
    cases c with
    | addItems rs' =>
      cases hw
      exact failed_of_onFamily (error_of_map h)
    | addItem | deleteItem | refresh | reset => nomatch hw
  | addBulk model' rs' =>
    cases hw
    unfold BackendCommand.run at h ⊢
    rw [Update.perform_map] at h ⊢
    exact failed_of_published (error_of_map h)
  | add | delete | refreshAll | resetAll | rebuild => nomatch hw

end Backend

end Concordance
