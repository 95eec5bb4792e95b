import Concordance.Proofs.Session.Storage

/-!
# Deleting and reading

A record stands under its key in its family, whatever its type there. A deletion takes the record
that the family has at the key; reading finds that record only if it is of the type that is asked
for or of one below. So a deletion may take a record that reading does not find.

* `delete_takes`: what a deletion takes and leaves, in any store that is filed.
* **`delete_beside_get`**: what a deletion takes beside what reading the same model and key finds,
  after any writes, and exactly when the two are the same.
* `delete_takes_unread`: a deletion that takes what reading does not find.
-/

namespace Concordance.Store

variable {models : List Model} {st : Store}

/-- The record stands under the key in the family of the model. -/
def HasAt (st : Store) (model : String) (pk : Key) (r : Record) : Prop :=
  st.Holds r ∧ r.pk = pk ∧ st.schema.rootOf r.model = st.schema.rootOf model

/-- What a deletion takes and leaves. -/
structure Takes (st : Store) (model : String) (pk : Key) (taken : Option Record) (left : Store) :
    Prop where
  /-- It takes the record of the family at the key, of whichever type. -/
  taken_iff : ∀ r, taken = some r ↔ st.HasAt model pk r
  /-- Without one the store and its version stay as they were. -/
  absent : taken = none → left = st
  /-- Only the record taken disappears, and the deletion counts as one write. -/
  present : ∀ r, taken = some r → left.schema = st.schema ∧ left.version = st.version + 1 ∧
    ∀ other, left.Holds other ↔ st.Holds other ∧ other ≠ r

theorem hasAt_iff {model : String} {pk : Key} {r : Record} :
    st.HasAt model pk r ↔ st.Holds r ∧ (StoreWrite.delete model pk).Hits st.schema r := by
  unfold HasAt StoreWrite.Hits
  exact and_congr_right fun _ => and_comm.trans (and_congr eq_comm eq_comm)

/-- A deletion succeeds on a declared model, and takes the record at the key. -/
theorem delete_takes (hst : Filed st) {model : String} (hmodel : st.schema.contains model = true)
    (pk : Key) : ∃ taken left, st.delete model pk = .ok (taken, left) ∧
      st.Takes model pk taken left := by
  obtain ⟨root, hroot⟩ := Schema.exists_rootOf hmodel
  have hdelete := apply_delete hroot pk
  have hanswer : (StoreWrite.delete model pk).answer st = .ok ((st.family root).get? pk) :=
    congrArg (Functor.map Prod.fst) hdelete
  have htaken (r : Record) : (st.family root).get? pk = some r ↔ st.HasAt model pk r :=
    (answer_delete_iff hst hanswer r).trans hasAt_iff.symm
  refine ⟨_, _, hdelete, htaken, fun habsent => ?_,
    fun r hr => ⟨schema_apply _ _, ?_, fun other => ?_⟩⟩
  · rcases version_apply st (.delete model pk) with ⟨⟨r, hr⟩, -⟩ | ⟨-, hsame⟩
    · rw [hanswer, habsent] at hr
      nomatch hr
    · exact hsame
  · rcases version_apply st (.delete model pk) with ⟨-, hversion⟩ | ⟨hcounts, -⟩
    · exact hversion
    · exact absurd ⟨r, hanswer.trans (congrArg _ hr)⟩ hcounts
  · rw [holds_apply hst]
    obtain ⟨hheld, hpk, hfamily⟩ := (htaken r).mp hr
    constructor
    · rintro (⟨h, -⟩ | ⟨hother, hplace⟩)
      · nomatch h
      · refine ⟨hother, ?_⟩
        rintro rfl
        exact hplace (hasAt_iff.mp ⟨hheld, hpk, hfamily⟩).2
    · rintro ⟨hother, hne⟩
      -- a second record in the place would be the one taken
      refine Or.inr ⟨hother, fun hplace => hne ?_⟩
      obtain ⟨-, hpk', hfamily'⟩ := hasAt_iff.mpr ⟨hother, hplace⟩
      exact eq_of_samePlace hst hother hheld (hfamily'.trans hfamily.symm) (hpk'.trans hpk.symm)

/-- Reading finds the record that the family has at the key, if its type is right. -/
theorem get_finds (hs : Schema.Built models st.schema) (hst : Filed st) {model : String}
    (hmodel : st.schema.contains model = true) (pk : Key) : ∃ found, st.get model pk = .ok found ∧
      ∀ r, found = some r ↔ st.HasAt model pk r ∧ st.schema.isSubtype r.model model = true := by
  obtain ⟨found, hfound, hiff⟩ := exists_get hs hst hmodel pk
  refine ⟨found, hfound, fun r => ?_⟩
  rw [hiff]
  constructor
  · rintro ⟨hheld, hpk, hsub⟩
    obtain ⟨root, hroot, -⟩ := (holds_iff hst).mp hheld
    have hfamily := hs.rootOf_eq_of_isSubtype hroot hsub
    exact ⟨⟨hheld, hpk, hroot.trans hfamily.symm⟩, hsub⟩
  · rintro ⟨⟨hheld, hpk, -⟩, hsub⟩
    exact ⟨hheld, hpk, hsub⟩

/-- What reading a model at a key finds, and what deleting it there instead takes and leaves. -/
structure ReadAndDeleted (st : Store) (model : String) (pk : Key) (found taken : Option Record)
    (left : Store) : Prop where
  read : st.get model pk = .ok found
  deleted : st.delete model pk = .ok (taken, left)
  /-- Reading finds the record at the key if it is of the model's type or of one below. -/
  found_iff : ∀ r, found = some r ↔ st.HasAt model pk r ∧ st.schema.isSubtype r.model model = true
  /-- The deletion takes the record at the key whatever its type, and nothing else. -/
  takes : st.Takes model pk taken left
  /-- The two give the same exactly if no record of another type stands at the key. -/
  same_iff : taken = found ↔ ∀ r, st.HasAt model pk r → st.schema.isSubtype r.model model = true

/-- **What a deletion takes beside what reading finds.** After any writes, reading a declared model
at a key finds the record that the model's family has there if it is of the model's type or of one
below, and deleting takes that record whatever its type. So the two give the same exactly if there
is no record of another type at the key; and a deletion that takes nothing changes nothing, while
any other makes only the record taken disappear. -/
theorem delete_beside_get {s : Schema} (hs : Schema.ofModels models = .ok s) (ws : List StoreWrite)
    {model : String} (hmodel : s.contains model = true) (pk : Key) :
    ∃ found taken left, ReadAndDeleted ((empty s).after ws) model pk found taken left := by
  have hschema : ((empty s).after ws).schema = s := schema_after _ ws
  have hst : Filed ((empty s).after ws) := filed_after_empty s ws
  rw [← hschema] at hmodel
  obtain ⟨found, hfound, hfinds⟩ :=
    get_finds (hschema.symm ▸ Schema.built_of_ofModels hs) hst hmodel pk
  obtain ⟨taken, left, hdelete, htakes⟩ := delete_takes hst hmodel pk
  refine ⟨found, taken, left, hfound, hdelete, hfinds, htakes, ?_⟩
  constructor
  · rintro rfl r hr
    exact ((hfinds r).mp ((htakes.taken_iff r).mpr hr)).2
  · intro htype
    ext r
    rw [htakes.taken_iff, hfinds]
    exact (and_iff_left_of_imp (htype r)).symm

/-- An item and a novel are taken in. -/
def stocking : List StoreWrite := [.insert ⟨"Item", 2, ∅, ∅⟩, .insert ⟨"Novel", 1, ∅, ∅⟩]

theorem delete_beside_get_stocking :
    let st := (empty Schema.mediaSchema).after stocking
    Schema.ofModels Schema.mediaModels = .ok Schema.mediaSchema ∧
    Schema.mediaSchema.contains "Book" = true ∧
    (∃ found taken left, ReadAndDeleted st "Book" 1 found taken left) ∧
    st.get "Book" 1 = .ok (some ⟨"Novel", 1, ∅, ∅⟩) ∧
    Prod.fst <$> st.delete "Book" 1 = .ok (some ⟨"Novel", 1, ∅, ∅⟩) :=
  ⟨Schema.ofModels_mediaModels, by decide +kernel,
    delete_beside_get Schema.ofModels_mediaModels stocking (by decide +kernel) 1,
    by decide +kernel, by decide +kernel⟩

/-- A deletion takes what reading does not find: the item is no disc, but it stands in the family
of the discs. -/
theorem delete_takes_unread :
    let st := (empty Schema.mediaSchema).after stocking
    Schema.ofModels Schema.mediaModels = .ok Schema.mediaSchema ∧
    Schema.mediaSchema.contains "Disc" = true ∧ st.get "Disc" 2 = .ok none ∧
    ∃ left, st.delete "Disc" 2 = .ok (some ⟨"Item", 2, ∅, ∅⟩, left) ∧
      left.version = st.version + 1 ∧ st.get "Item" 2 = .ok (some ⟨"Item", 2, ∅, ∅⟩) ∧
      left.get "Item" 2 = .ok none :=
  ⟨Schema.ofModels_mediaModels, by decide +kernel, by decide +kernel, _, rfl, by decide +kernel,
    by decide +kernel, by decide +kernel⟩

end Concordance.Store
