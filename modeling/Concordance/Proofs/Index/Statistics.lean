import Concordance.Proofs.Index.Tables

/-!
# The statistics of an index after any history

`statistics_after` reads the tables of an index off its history: which postings a term has and with
which numbers, how many entries hold it, and the total and number of the fields of a path. The
numbers of a posting have 32 bits, so the history may put no field of `2 ^ 32` tokens or more
(`Change.Countable`).
-/

namespace Concordance

/-- Every field that a change puts has fewer than `2 ^ 32` tokens. -/
def Change.Countable : Change → Prop
  | put e => ∀ f ∈ e.fields, f.tokens.length < UInt32.size
  | remove _ | clear => True

namespace InvertedIndex

/-! ## Fields that 32 bits can count -/

/-- The numbers of a posting are the counts in its field, if 32 bits hold them. -/
theorem posting?_eq_some_iff {pk : Key} {term : String} {f : FieldContent} {p : Posting}
    (hf : f.tokens.length < UInt32.size) :
    posting? pk term f p.field = some p ↔
      p.pk = pk ∧ term ∈ f.tokens ∧ p.frequency.toNat = f.tokens.count term ∧
        p.length.toNat = f.tokens.length := by
  have hcount : f.tokens.count term < UInt32.size := Nat.lt_of_le_of_lt List.count_le_length hf
  unfold posting?
  split
  · rename_i hmem
    rw [Option.some.injEq]
    constructor
    · rintro hp
      rw [← hp]
      exact ⟨rfl, hmem, UInt32.toNat_ofNat_of_lt hcount, UInt32.toNat_ofNat_of_lt hf⟩
    · rintro ⟨hpk, -, hfreq, hlen⟩
      cases p
      simp only [Posting.mk.injEq] at hpk hfreq hlen ⊢
      refine ⟨hpk.symm, trivial, UInt32.toNat_inj.mp ?_, UInt32.toNat_inj.mp ?_⟩
      · rw [hfreq]
        exact UInt32.toNat_ofNat_of_lt hcount
      · rw [hlen]
        exact UInt32.toNat_ofNat_of_lt hf
  · rename_i hmem
    simp [hmem]

theorem countable_of_entry?_after {changes : List Change} (hc : ∀ c ∈ changes, c.Countable)
    {pk : Key} {e : IndexEntry} (he : entry? (after changes) pk = some e) {f : FieldContent}
    (hf : f ∈ e.fields) : f.tokens.length < UInt32.size :=
  hc (.put e) (mem_changes_of_entry?_after he) f hf

/-- **The tables of an index are exactly those of the entries that its history leaves**: one
posting for each field that holds the term and no other, with the number of occurrences and the
length of the field; the number of entries that hold the term; and the total and number of the
fields of a path, absent if there are none. -/
theorem statistics_after (changes : List Change) (hc : ∀ c ∈ changes, c.Countable) :
    (after changes).entries = entriesAfter changes ∧
    (∀ term p, p ∈ (after changes).postingsOf term ↔
      ∃ e f, (entriesAfter changes).get? p.pk = some e ∧ e.fields[p.field]? = some f ∧
        term ∈ f.tokens ∧ p.frequency.toNat = f.tokens.count term ∧
        p.length.toNat = f.tokens.length) ∧
    (∀ term, (((after changes).postingsOf term).map fun p => (p.pk, p.field)).Nodup) ∧
    (∀ term, (after changes).documentFrequency term =
        (entriesAfter changes).values.countP (fun e => e.holds term) ∧
      (after changes).documentFrequency term ≤ (after changes).size) ∧
    ∀ path, (after changes).lengths.get? path =
      lengthsOf (fieldsAt path (entriesAfter changes).values) := by
  have ht := tabulated_after changes
  have hentries := entries_after changes
  refine ⟨hentries, fun term p => ?_, ht.nodup_postingsOf,
    fun term => ⟨?_, ht.documentFrequency_le term⟩, fun path => ?_⟩
  · rw [ht.mem_postingsOf, ← hentries]
    constructor
    · rintro ⟨e, f, he, hf, hp⟩
      have hlt := countable_of_entry?_after hc he (List.mem_of_getElem? hf)
      exact ⟨e, f, he, hf, ((posting?_eq_some_iff hlt).mp hp).2⟩
    · rintro ⟨e, f, he, hf, hp⟩
      have hlt := countable_of_entry?_after hc he (List.mem_of_getElem? hf)
      exact ⟨e, f, he, hf, (posting?_eq_some_iff hlt).mpr ⟨rfl, hp⟩⟩
  · rw [ht.frequencies term, hentries]
  · rw [ht.lengths path, hentries]

/-- A history in which record 1 is indexed twice, with a path that occurs twice and a repeated
token, and record 2 comes and goes. -/
def refiledHistory : List Change :=
  [.put ⟨1, "M", [⟨"title", 1.0, ["old", "tea"]⟩], ∅⟩,
    .put ⟨2, "M", [⟨"title", 1.0, ["tea"]⟩], ∅⟩,
    .put ⟨1, "M", [⟨"title", 2.0, ["tea", "pot", "tea"]⟩, ⟨"title", 1.0, ["tea"]⟩], ∅⟩,
    .remove 2]

theorem countable_refiledHistory : ∀ c ∈ refiledHistory, c.Countable := by
  simp [refiledHistory, Change.Countable, UInt32.size]

theorem statistics_after_refiledHistory :
    (∀ c ∈ refiledHistory, c.Countable) ∧
    (⟨1, 0, 2, 3⟩ : Posting) ∈ (after refiledHistory).postingsOf "tea" ∧
    (⟨2, 0, 1, 1⟩ : Posting) ∉ (after refiledHistory).postingsOf "tea" ∧
    (after refiledHistory).documentFrequency "tea" = 1 ∧
    (after refiledHistory).lengths.get? "title" = some ⟨4, 2⟩ := by
  obtain ⟨-, hpost, -, hfreq, hlen⟩ := statistics_after refiledHistory countable_refiledHistory
  refine ⟨countable_refiledHistory, (hpost "tea" _).mpr ⟨_, _, rfl, rfl, by decide, rfl, rfl⟩,
    fun h => ?_, (hfreq "tea").1.trans rfl, (hlen "title").trans rfl⟩
  obtain ⟨e, f, he, -⟩ := (hpost "tea" _).mp h
  have hgone : (entriesAfter refiledHistory).get? 2 = none := rfl
  exact absurd (hgone.symm.trans he) (by simp)

end InvertedIndex

end Concordance
