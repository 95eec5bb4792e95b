import Concordance.Proofs.Backend.Regular
import Concordance.Proofs.Document
import Concordance.Proofs.Session.Command

/-!
# Buffered writes

The index of a family keeps writes in a buffer, one for each key, and applies them by key when it
is refreshed. This is seen by nobody who looks only after refreshes: the entries are then those of
a map to which each write was applied at once (`history`, `entriesAfter`).

`FamilyIndex.upcoming?` is what a refresh would show under a key. A buffered write changes it like
a write to a map (`upcoming?_buffer`), and a refresh makes it visible without changing it
(`entry?_refresh`, `upcoming?_refresh`), so along every run it is what the plain map holds
(`Mirrors`, `mirrors_run`, `mirrors_play`).

* **`entries_of_buffered_run`**: between refreshes and resets the entries stay, and right after a
  refresh they are those of the plain map, in which the last write for a key decides.
-/

namespace Concordance

/-- The entry that a write leaves. -/
def PendingWrite.entry? : PendingWrite → Option IndexEntry
  | put entry => some entry
  | delete => none

namespace FamilyIndex

/-! ## What a refresh would show -/

/-- The entry that a record will have after the next refresh. -/
def upcoming? (f : FamilyIndex) (pk : Key) : Option IndexEntry :=
  match f.pending.get? pk with
  | some w => w.entry?
  | none => f.index.entry? pk

/-- A write for a key puts no entry of another key. -/
def Addressed (pk : Key) (w : PendingWrite) : Prop := ∀ e, w = .put e → e.pk = pk

/-- Entries and buffered writes stand under the keys of their records. -/
structure Keyed (f : FamilyIndex) : Prop where
  index : f.index.Keyed
  pending : ∀ pk w, f.pending.get? pk = some w → Addressed pk w

theorem keyed_empty (root : String) : Keyed (empty root) where
  index _ _ h := nomatch h
  pending _ _ h := nomatch h

theorem keyed_buffer {f : FamilyIndex} (hf : Keyed f) {pk : Key} {w : PendingWrite}
    (hw : Addressed pk w) : Keyed (f.buffer pk w) where
  index := hf.index
  pending q v h := by
    rw [show (f.buffer pk w).pending = f.pending.insert pk w from rfl, SortedMap.get?_insert] at h
    split at h
    · rename_i hq
      cases h
      exact hq ▸ hw
    · exact hf.pending q v h

theorem upcoming?_buffer (f : FamilyIndex) (pk q : Key) (w : PendingWrite) :
    (f.buffer pk w).upcoming? q = if q = pk then w.entry? else f.upcoming? q := by
  unfold upcoming?
  rw [show (f.buffer pk w).pending = f.pending.insert pk w from rfl, SortedMap.get?_insert]
  by_cases hq : q = pk
  · rw [if_pos hq, if_pos hq]
  · rw [if_neg hq, if_neg hq]
    rfl

/-- Applying a write for a key changes what stands under it and nothing else. -/
theorem entries_applyWrite {ix : InvertedIndex} (hix : ix.Keyed) {pk : Key} {w : PendingWrite}
    (hw : Addressed pk w) :
    (applyWrite ix pk w).entries = ix.entries.alter pk fun _ => w.entry? := by
  rw [applyWrite_eq, InvertedIndex.entries_apply hix]
  cases w with
  | put e =>
    show ix.entries.insert e.pk e = ix.entries.insert pk e
    rw [hw e rfl]
  | delete => rfl

theorem keyed_applyWrite {ix : InvertedIndex} (hix : ix.Keyed) (pk : Key) (w : PendingWrite) :
    (applyWrite ix pk w).Keyed := by
  rw [applyWrite_eq]
  exact InvertedIndex.keyed_apply hix _

theorem keyed_applyWrites {ix : InvertedIndex} (hix : ix.Keyed)
    (ws : List (Key × PendingWrite)) :
    (ws.foldl (fun ix w => applyWrite ix w.1 w.2) ix).Keyed := by
  induction ws generalizing ix with
  | nil => exact hix
  | cons w ws ih => exact ih (keyed_applyWrite hix w.1 w.2)

theorem entries_applyWrites {ix : InvertedIndex} (hix : ix.Keyed) {ws : List (Key × PendingWrite)}
    (hws : ∀ w ∈ ws, Addressed w.1 w.2) :
    (ws.foldl (fun ix w => applyWrite ix w.1 w.2) ix).entries =
      ws.foldl (fun m w => m.alter w.1 fun _ => PendingWrite.entry? w.2) ix.entries := by
  induction ws generalizing ix with
  | nil => rfl
  | cons w ws ih =>
    rw [List.foldl_cons, List.foldl_cons, ih (keyed_applyWrite hix w.1 w.2)
      fun v hv => hws v (List.mem_cons_of_mem _ hv),
      entries_applyWrite hix (hws w List.mem_cons_self)]

/-- **A refresh makes visible what was upcoming.** -/
theorem entry?_refresh {f : FamilyIndex} (hf : Keyed f) (pk : Key) :
    f.refresh.index.entry? pk = f.upcoming? pk := by
  show (f.pending.toList.foldl (fun ix w => applyWrite ix w.1 w.2) f.index).entries.get? pk = _
  rw [entries_applyWrites hf.index
      fun w hw => hf.pending w.1 w.2 (SortedMap.get?_eq_some_iff.mpr hw),
    SortedMap.get?_foldl_alter Prod.fst fun (w : Key × PendingWrite) _ => PendingWrite.entry? w.2,
    SortedMap.filter_toList]
  unfold upcoming?
  cases f.pending.get? pk <;> rfl

theorem keyed_refresh {f : FamilyIndex} (hf : Keyed f) : Keyed f.refresh where
  index := keyed_applyWrites hf.index _
  pending _ _ h := nomatch h

theorem upcoming?_refresh {f : FamilyIndex} (hf : Keyed f) (pk : Key) :
    f.refresh.upcoming? pk = f.upcoming? pk := entry?_refresh hf pk

/-- Nothing is buffered, so what is visible is what is upcoming. -/
theorem upcoming?_of_pending {f : FamilyIndex} (h : f.pending = ∅) (pk : Key) :
    f.upcoming? pk = f.index.entry? pk := by
  unfold upcoming?
  rw [h]
  rfl

theorem keyed_reset (f : FamilyIndex) : Keyed f.reset where
  index _ _ h := nomatch h
  pending _ _ h := nomatch h

/-! ## Writes of single records -/

/-- The change that a write of a record stands for, if it succeeds and there is one. -/
def changesOf : Result (Option (Key × PendingWrite)) → List Change
  | .ok (some (pk, w)) => [w.toChange pk]
  | .ok none | .error _ => []

/-- The changes that adding records one after the other stands for, up to the first that fails. -/
def additions (st : Store) (root : String) : List Record → List Change
  | [] => []
  | r :: rs =>
    match addition st r root with
    | .ok w? => changesOf (.ok w?) ++ additions st root rs
    | .error _ => []

end FamilyIndex

open FamilyIndex

/-- The changes that a write to an index stands for when it is not buffered. -/
def IndexCommand.changes (st : Store) (root : String) : IndexCommand → List Change
  | addItem r => changesOf (addition st r root)
  | addItems rs => additions st root rs
  | deleteItem r => changesOf (removal st r root)
  | refresh => []
  | reset => [.clear]

/-! ## Runs -/

/-- A step of a program that uses an index: a write to the store, or one to the index. -/
inductive IndexStep where
  | store (w : StoreWrite)
  | index (c : IndexCommand)

namespace IndexStep

/-- The store and the index after a step. -/
def next : Store × FamilyIndex → IndexStep → Store × FamilyIndex
  | (st, f), store w => (w.apply st, f)
  | (st, f), index c => (st, ((c.run st).perform f).2)

/-- Whether a step makes writes visible or drops the entries. -/
def publishes : IndexStep → Bool
  | index .refresh | index .reset => true
  | store _ | index _ => false

end IndexStep

namespace FamilyIndex

/-- The store and the index after steps. -/
def play (s : Store × FamilyIndex) (steps : List IndexStep) : Store × FamilyIndex :=
  steps.foldl IndexStep.next s

/-- The changes that steps stand for, in order; entries are derived from the store that a step
finds. -/
def history (st : Store) (root : String) : List IndexStep → List Change
  | [] => []
  | .store w :: steps => history (w.apply st) root steps
  | .index c :: steps => c.changes st root ++ history st root steps

/-- What the index of a family will show is what the changes leave on a plain map. -/
structure Mirrors (root : String) (f : FamilyIndex) (changes : List Change) : Prop
    extends Keyed f where
  root_eq : f.root = root
  upcoming : ∀ pk, f.upcoming? pk = (entriesAfter changes).get? pk

variable {root : String} {f : FamilyIndex} {past : List Change}

theorem Mirrors.unchanged (hf : Mirrors root f past) : Mirrors root f (past ++ []) := by
  rw [List.append_nil]
  exact hf

theorem addressed_addition {st : Store} {r : Record} {pk : Key} {w : PendingWrite}
    (h : addition st r root = .ok (some (pk, w))) : Addressed pk w := by
  unfold addition at h
  obtain ⟨_, -, h⟩ := ok_of_bind h
  obtain ⟨made?, hentry, h⟩ := ok_of_bind h
  cases made? with
  | none => nomatch h
  | some entry =>
    cases h
    rintro e ⟨⟩
    exact pk_of_buildEntry hentry

theorem addressed_removal {st : Store} {r : Record} {pk : Key} {w : PendingWrite}
    (h : removal st r root = .ok (some (pk, w))) : Addressed pk w := by
  unfold removal at h
  obtain ⟨_, -, h⟩ := ok_of_bind h
  cases h
  exact fun e he => nomatch he

/-- **Buffering a write and making its change at once come to the same.** -/
theorem mirrors_bufferAny (hf : Mirrors root f past) {w? : Option (Key × PendingWrite)}
    (hw : ∀ pk w, w? = some (pk, w) → Addressed pk w) :
    Mirrors root (f.bufferAny w?) (past ++ changesOf (.ok w?)) := by
  cases w? with
  | none => exact hf.unchanged
  | some w =>
    obtain ⟨pk, w⟩ := w
    have haddressed := hw pk w rfl
    refine ⟨keyed_buffer hf.toKeyed haddressed, hf.root_eq, fun q => ?_⟩
    show (f.buffer pk w).upcoming? q = (entriesAfter (past ++ [w.toChange pk])).get? q
    rw [upcoming?_buffer, hf.upcoming, entriesAfter_append, List.foldl_cons, List.foldl_nil,
      Change.get?_play]
    cases w with
    | put e =>
      have hpk := haddressed e rfl
      simp only [PendingWrite.toChange, Change.concerns, Change.entry?, PendingWrite.entry?, hpk,
        beq_iff_eq, @eq_comm _ q]
    | delete =>
      simp only [PendingWrite.toChange, Change.concerns, Change.entry?, PendingWrite.entry?,
        beq_iff_eq, @eq_comm _ q]

/-- A write of a record is buffered or fails, and fails without effect. -/
theorem mirrors_change (hf : Mirrors root f past) {step : FamilyIndex → Result FamilyIndex}
    {verdict : Result (Option (Key × PendingWrite))} (hstep : step f = verdict.map f.bufferAny)
    (hverdict : ∀ pk w, verdict = .ok (some (pk, w)) → Addressed pk w) :
    Mirrors root ((change step).perform f).2 (past ++ changesOf verdict) := by
  cases verdict with
  | error e =>
    rw [perform_change_error hstep]
    exact hf.unchanged
  | ok w? =>
    rw [perform_change_ok hstep]
    exact mirrors_bufferAny hf fun pk w hw => hverdict pk w (by rw [hw])

/-- What is buffered of records handed over together: those before the first that fails. -/
theorem mirrors_addItems (hf : Mirrors root f past) (st : Store) (rs : List Record) :
    Mirrors root ((addItems st rs).perform f).2 (past ++ additions st root rs) := by
  induction rs generalizing f past with
  | nil => exact hf.unchanged
  | cons r rs ih =>
    have hadd := addItem_eq st r f
    have hfirst := mirrors_change hf hadd fun pk w hw => addressed_addition hw
    show Mirrors root (Update.perform (change (addItem st r) >>= fun _ => addItems st rs) f).2 _
    rw [Update.perform_bind]
    unfold additions
    rw [hf.root_eq] at hadd hfirst
    cases hr : addition st r root with
    | error e =>
      rw [hr] at hadd hfirst
      rw [perform_change_error hadd] at hfirst ⊢
      exact hfirst
    | ok w? =>
      rw [hr] at hadd hfirst
      rw [perform_change_ok hadd] at hfirst ⊢
      have hrest := ih hfirst
      rw [List.append_assoc] at hrest
      exact hrest

/-! ## Every step -/

/-- **Each write to the index is mirrored by the changes that it stands for.** -/
theorem mirrors_run (hf : Mirrors root f past) (st : Store) (c : IndexCommand) :
    Mirrors root ((c.run st).perform f).2 (past ++ c.changes st root) := by
  cases c with
  | addItem r =>
    have hadd := addItem_eq st r f
    rw [hf.root_eq] at hadd
    exact mirrors_change hf hadd fun pk w hw => addressed_addition hw
  | addItems rs => exact mirrors_addItems hf st rs
  | deleteItem r =>
    have hdelete := deleteItem_eq st r f
    rw [hf.root_eq] at hdelete
    exact mirrors_change hf hdelete fun pk w hw => addressed_removal hw
  | refresh =>
    refine ⟨keyed_refresh hf.toKeyed, hf.root_eq, fun pk => ?_⟩
    show f.refresh.upcoming? pk = (entriesAfter (past ++ [])).get? pk
    rw [upcoming?_refresh hf.toKeyed, hf.upcoming, List.append_nil]
  | reset =>
    refine ⟨keyed_reset f, hf.root_eq, fun pk => ?_⟩
    show f.reset.upcoming? pk = (entriesAfter (past ++ [.clear])).get? pk
    rw [entriesAfter_append]
    rfl

/-- **Along a run the index mirrors the plain map.** -/
theorem mirrors_play (hf : Mirrors root f past) (st : Store) (steps : List IndexStep) :
    Mirrors root (play (st, f) steps).2 (past ++ history st root steps) := by
  induction steps generalizing st f past with
  | nil => exact hf.unchanged
  | cons step steps ih =>
    cases step with
    | store w => exact ih hf (w.apply st)
    | index c =>
      have hrest := ih (mirrors_run hf st c) st
      rw [List.append_assoc] at hrest
      exact hrest

theorem mirrors_empty (root : String) : Mirrors root (empty root) [] :=
  ⟨keyed_empty root, rfl, fun _ => rfl⟩

/-! ## What is visible -/

theorem index_change {step : FamilyIndex → Result FamilyIndex}
    (hstep : ∀ f', step f = .ok f' → f'.index = f.index) :
    ((change step).perform f).2.index = f.index := by
  cases h : step f with
  | error e => rw [perform_change_error h]
  | ok f' => rw [perform_change_ok h, hstep f' h]

theorem index_of_buffered {verdict : Result (Option (Key × PendingWrite))} {f' : FamilyIndex}
    (h : verdict.map f.bufferAny = .ok f') : f'.index = f.index := by
  rcases verdict with _ | _ | w
  · nomatch h
  · cases h
    rfl
  · cases h
    rfl

theorem index_addItem (st : Store) (r : Record) (f : FamilyIndex) :
    ((change (addItem st r)).perform f).2.index = f.index :=
  index_change fun _ hf' => index_of_buffered ((addItem_eq st r f).symm.trans hf')

theorem index_addItems (st : Store) (rs : List Record) (f : FamilyIndex) :
    ((addItems st rs).perform f).2.index = f.index := by
  induction rs generalizing f with
  | nil => rfl
  | cons r rs ih =>
    show (Update.perform (change (addItem st r) >>= fun _ => addItems st rs) f).2.index = _
    have hfirst := index_addItem st r f
    rw [Update.perform_bind]
    generalize (change (addItem st r)).perform f = out at hfirst ⊢
    rcases out with ⟨_ | _, f'⟩
    · exact hfirst
    · exact (ih f').trans hfirst

/-- A step that does not publish changes nothing that is visible. -/
theorem index_next {step : IndexStep} (hstep : step.publishes = false) (s : Store × FamilyIndex) :
    (IndexStep.next s step).2.index = s.2.index := by
  obtain ⟨st, f⟩ := s
  cases step with
  | store w => rfl
  | index c =>
    cases c with
    | addItem r => exact index_addItem st r f
    | addItems rs => exact index_addItems st rs f
    | deleteItem r =>
      exact index_change fun _ hf' => index_of_buffered ((deleteItem_eq st r f).symm.trans hf')
    | refresh | reset => nomatch hstep

theorem index_play {steps : List IndexStep} (hsteps : ∀ step ∈ steps, step.publishes = false)
    (s : Store × FamilyIndex) : (play s steps).2.index = s.2.index := by
  induction steps generalizing s with
  | nil => rfl
  | cons step steps ih =>
    refine (ih (fun step hstep => hsteps step (List.mem_cons_of_mem _ hstep)) _).trans ?_
    exact index_next (hsteps step List.mem_cons_self) s

theorem play_append (s : Store × FamilyIndex) (steps more : List IndexStep) :
    play s (steps ++ more) = play (play s steps) more := List.foldl_append

/-- The entries that searches see after steps with a new index. -/
def visible (st : Store) (root : String) (steps : List IndexStep) : SortedMap Key IndexEntry :=
  (play (st, .empty root) steps).2.index.entries

/-- **Buffering is seen only between refreshes.** Let steps with a new index be followed by ones
that neither refresh nor reset it. These change nothing that is visible. If a refresh comes in
between, then what is visible are the entries of a map on which every write of a record that
succeeds acts at once: the last one for a key decides what stands under it, unless a reset came
later. -/
theorem entries_of_buffered_run (st : Store) (root : String) (steps quiet : List IndexStep)
    (hquiet : ∀ step ∈ quiet, step.publishes = false) :
    let changes := history st root steps
    visible st root (steps ++ quiet) = visible st root steps ∧
    visible st root (steps ++ .index .refresh :: quiet) = entriesAfter changes ∧
    visible st root (steps ++ .index .reset :: quiet) = ∅ ∧
    ∀ pk, (visible st root (steps ++ .index .refresh :: quiet)).get? pk =
      (changes.reverse.find? fun c => c.concerns pk).bind Change.entry? := by
  intro changes
  have hmirrors : Mirrors root (play (st, .empty root) steps).2 changes :=
    mirrors_play (mirrors_empty root) st steps
  have hrefreshed : visible st root (steps ++ .index .refresh :: quiet) = entriesAfter changes := by
    unfold visible
    rw [play_append]
    refine (congrArg InvertedIndex.entries (index_play hquiet _)).trans ?_
    refine SortedMap.ext_get? fun pk => ?_
    exact (entry?_refresh hmirrors.toKeyed pk).trans (hmirrors.upcoming pk)
  refine ⟨?_, hrefreshed, ?_, fun pk => ?_⟩
  · unfold visible
    rw [play_append, index_play hquiet]
  · unfold visible
    rw [play_append]
    exact congrArg InvertedIndex.entries (index_play hquiet _)
  · rw [hrefreshed, get?_entriesAfter]

end FamilyIndex

/-! ## A library -/

/-- Books, of which leaflets are a kind that is not searched, and shelves. -/
def libraryModels : List Model :=
  [⟨"Book", none, [Field.search "title"]⟩, ⟨"Leaflet", some "Book", [Field.filter "title"]⟩,
    ⟨"Shelf", none, [Field.filter "label"]⟩]

def librarySchema : Schema where
  entries :=
    [⟨⟨"Book", none, [Field.search "title"]⟩, [], ["Leaflet"], [Field.search "title"]⟩,
      ⟨⟨"Leaflet", some "Book", [Field.filter "title"]⟩, ["Book"], [], [Field.filter "title"]⟩,
      ⟨⟨"Shelf", none, [Field.filter "label"]⟩, [], [], [Field.filter "label"]⟩]

theorem ofModels_libraryModels : Schema.ofModels libraryModels = .ok librarySchema := by
  with_unfolding_all rfl

/-- A record with a title. -/
def titled (model : String) (pk : Key) (title : String) : Record :=
  ⟨model, pk, SortedMap.ofList [("title", .text title)], ∅⟩

namespace FamilyIndex

/-- Books come, go and come back with another title; a leaflet and a shelf are turned away. -/
def shelving : List IndexStep :=
  [.store (.insert (titled "Book" 1 "Tea")), .index (.addItem (titled "Book" 1 "Tea")),
    .index (.addItem (titled "Book" 2 "Cocoa")), .index (.deleteItem (titled "Book" 1 "Tea")),
    .index (.addItem (titled "Book" 1 "Coffee")), .index (.addItem (titled "Leaflet" 1 "Milk")),
    .index (.addItems [titled "Book" 3 "Maté", titled "Shelf" 9 "Drinks", titled "Book" 4 "Water"]),
    .index (.deleteItem (titled "Book" 2 "Cocoa"))]

/-- More of the same, without a refresh. -/
def shelvingOn : List IndexStep :=
  [.index (.addItem (titled "Book" 5 "Juice")), .store (.delete "Book" 1),
    .index (.deleteItem (titled "Book" 3 "Maté"))]

/-- Nothing is visible before the refresh, and the third book is until the next one. -/
theorem entries_of_buffered_run_shelving :
    (∀ step ∈ shelvingOn, step.publishes = false) ∧
    visible (.empty librarySchema) "Book" (shelving ++ shelvingOn) = ∅ ∧
    (visible (.empty librarySchema) "Book" (shelving ++ .index .refresh :: shelvingOn)).keys =
      [1, 3] ∧
    ((visible (.empty librarySchema) "Book" (shelving ++ .index .refresh :: shelvingOn)).get?
      1).map IndexEntry.terms = some ["coffee"] := by
  have hquiet : ∀ step ∈ shelvingOn, step.publishes = false := by decide
  obtain ⟨hsame, hrefreshed, -, hlast⟩ :=
    entries_of_buffered_run (.empty librarySchema) "Book" shelving shelvingOn hquiet
  refine ⟨hquiet, ?_, ?_, ?_⟩
  · rw [hsame]
    exact congrArg InvertedIndex.entries
      (index_play (by decide) (.empty librarySchema, empty "Book"))
  · rw [hrefreshed]
    decide +kernel
  · rw [hlast]
    decide +kernel

end FamilyIndex

end Concordance
