import Concordance.Index.Inverted
import Concordance.Proofs.SortedMap

/-!
# Histories of an index

A `Change` is one write to an index from outside, and `InvertedIndex.after` is the index that a
history of changes leaves. What the changes mean is told by the entries alone: `entriesAfter` plays
the history on a map from keys to entries and knows no other table.

* `entries_after`: the entries of the index are those of the plain map.
* `key_of_entry?_after`: an entry stands under the key of its record.
* `mem_changes_of_entry?_after`: each entry was put at some point of the history.
-/

namespace Concordance

/-- A write to an index. -/
inductive Change where
  | put (e : IndexEntry)
  | remove (pk : Key)
  | clear

namespace Change

/-- What a change does to an index. -/
def apply (ix : InvertedIndex) : Change → InvertedIndex
  | put e => ix.put e
  | remove pk => ix.remove pk
  | clear => ix.clear

/-- What a change does to the entries by key. -/
def play (entries : SortedMap Key IndexEntry) : Change → SortedMap Key IndexEntry
  | put e => entries.insert e.pk e
  | remove pk => entries.erase pk
  | clear => ∅

/-- Whether a change decides what stands under a key. -/
def concerns (pk : Key) : Change → Bool
  | put e => e.pk == pk
  | remove q => q == pk
  | clear => true

/-- The entry that a change leaves under the keys that it concerns. -/
def entry? : Change → Option IndexEntry
  | put e => some e
  | remove _ | clear => none

theorem get?_play (entries : SortedMap Key IndexEntry) (c : Change) (pk : Key) :
    (c.play entries).get? pk = if c.concerns pk then c.entry? else entries.get? pk := by
  cases c with
  | put e =>
    show (entries.insert e.pk e).get? pk = _
    rw [SortedMap.get?_insert]
    simp only [concerns, entry?, beq_iff_eq, @eq_comm _ pk]
  | remove q =>
    show (entries.erase q).get? pk = _
    rw [SortedMap.get?_erase]
    simp only [concerns, entry?, beq_iff_eq, @eq_comm _ pk]
  | clear => rfl

end Change

/-- The entries by key that a history leaves. -/
def entriesAfter (changes : List Change) : SortedMap Key IndexEntry :=
  changes.foldl Change.play ∅

theorem entriesAfter_append (past future : List Change) :
    entriesAfter (past ++ future) = future.foldl Change.play (entriesAfter past) :=
  List.foldl_append

/-- **The last change that concerns a key decides what stands under it.** -/
theorem get?_entriesAfter (changes : List Change) (pk : Key) :
    (entriesAfter changes).get? pk =
      (changes.reverse.find? fun c => c.concerns pk).bind Change.entry? := by
  induction changes using List.reverseRecOn with
  | nil => rfl
  | append_singleton cs c ih =>
    rw [entriesAfter_append, List.foldl_cons, List.foldl_nil, Change.get?_play, ih,
      List.reverse_append, List.reverse_singleton, List.singleton_append, List.find?_cons]
    cases c.concerns pk <;> rfl

namespace InvertedIndex

/-- The index that a history leaves, from the empty one on. -/
def after (changes : List Change) : InvertedIndex := changes.foldl Change.apply empty

theorem after_append_singleton (changes : List Change) (c : Change) :
    after (changes ++ [c]) = c.apply (after changes) := by
  unfold after
  rw [List.foldl_append, List.foldl_cons, List.foldl_nil]

/-- Whatever holds of the empty index and is kept by every change holds after every history. -/
theorem after_induction {P : InvertedIndex → Prop} (h₀ : P empty)
    (hstep : ∀ ix c, P ix → P (Change.apply ix c)) (changes : List Change) : P (after changes) := by
  induction changes using List.reverseRecOn with
  | nil => exact h₀
  | append_singleton cs c ih =>
    rw [after_append_singleton]
    exact hstep _ c ih

/-! ## Entries after one change -/

/-- Each entry stands under the key of its record. -/
def Keyed (ix : InvertedIndex) : Prop := ∀ pk e, ix.entry? pk = some e → e.pk = pk

theorem entry?_add (ix : InvertedIndex) (e : IndexEntry) (pk : Key) :
    entry? (ix.add e) pk = if pk = e.pk then some e else ix.entry? pk :=
  SortedMap.get?_insert ix.entries e.pk pk e

theorem entry?_drop (ix : InvertedIndex) (e : IndexEntry) (pk : Key) :
    entry? (ix.drop e) pk = if pk = e.pk then none else ix.entry? pk :=
  SortedMap.get?_erase ix.entries e.pk pk

theorem entry?_without {ix : InvertedIndex} (hk : Keyed ix) (pk q : Key) :
    entry? (ix.without pk) q = if q = pk then none else ix.entry? q := by
  unfold without
  cases h : ix.entry? pk with
  | none =>
    by_cases hq : q = pk
    · rw [if_pos hq, hq, h]
    · rw [if_neg hq]
  | some old =>
    have hpk := hk pk old h
    show entry? (ix.drop old) q = _
    rw [entry?_drop, hpk]

theorem entry?_put {ix : InvertedIndex} (hk : Keyed ix) (e : IndexEntry) (pk : Key) :
    entry? (ix.put e) pk = if pk = e.pk then some e else ix.entry? pk := by
  show entry? ((ix.without e.pk).add e) pk = _
  rw [entry?_add, entry?_without hk]
  split <;> rfl

/-- A removal leaves the entries and tables of the index without the key. -/
theorem remove_eq_without (ix : InvertedIndex) (pk : Key) :
    ix.remove pk = { ix.without pk with version := (ix.remove pk).version } := by
  unfold remove without
  cases ix.entry? pk <;> rfl

theorem entry?_remove {ix : InvertedIndex} (hk : Keyed ix) (pk q : Key) :
    entry? (ix.remove pk) q = if q = pk then none else ix.entry? q := by
  rw [remove_eq_without]
  exact entry?_without hk pk q

/-- **One change plays on the entries as on a plain map.** -/
theorem entries_apply {ix : InvertedIndex} (hk : Keyed ix) (c : Change) :
    (c.apply ix).entries = c.play ix.entries := by
  apply SortedMap.ext_get?
  intro pk
  cases c with
  | put e => exact (entry?_put hk e pk).trans (SortedMap.get?_insert ix.entries e.pk pk e).symm
  | remove q => exact (entry?_remove hk q pk).trans (SortedMap.get?_erase ix.entries q pk).symm
  | clear => rfl

theorem keyed_apply {ix : InvertedIndex} (hk : Keyed ix) (c : Change) : Keyed (c.apply ix) := by
  intro pk e h
  cases c with
  | put new =>
    rw [show (Change.put new).apply ix = ix.put new from rfl, entry?_put hk] at h
    split at h
    · rename_i hpk
      rw [← Option.some.inj h, hpk]
    · exact hk pk e h
  | remove q =>
    rw [show (Change.remove q).apply ix = ix.remove q from rfl, entry?_remove hk] at h
    split at h
    · exact absurd h (by simp)
    · exact hk pk e h
  | clear => exact absurd h (by simp [Change.apply, clear, empty, entry?])

/-! ## Entries after a history -/

theorem key_of_entry?_after (changes : List Change) : Keyed (after changes) :=
  after_induction (P := Keyed) (fun _ _ h => absurd h (by simp [empty, entry?]))
    (fun _ c hk => keyed_apply hk c) changes

/-- **The entries of an index are those that its history leaves on a plain map.** -/
theorem entries_after (changes : List Change) : (after changes).entries = entriesAfter changes := by
  induction changes using List.reverseRecOn with
  | nil => rfl
  | append_singleton cs c ih =>
    rw [after_append_singleton, entries_apply (key_of_entry?_after cs), ih]
    unfold entriesAfter
    rw [List.foldl_append, List.foldl_cons, List.foldl_nil]

/-- An entry is there because it was put. -/
theorem mem_changes_of_entry?_after {changes : List Change} {pk : Key} {e : IndexEntry}
    (h : entry? (after changes) pk = some e) : Change.put e ∈ changes := by
  induction changes using List.reverseRecOn with
  | nil => exact absurd h (by simp [after, empty, entry?])
  | append_singleton cs c ih =>
    have hk := key_of_entry?_after cs
    rw [after_append_singleton] at h
    cases c with
    | put new =>
      rw [show (Change.put new).apply (after cs) = (after cs).put new from rfl, entry?_put hk] at h
      split at h
      · rw [Option.some.inj h]
        exact List.mem_append_right _ List.mem_cons_self
      · exact List.mem_append_left _ (ih h)
    | remove q =>
      rw [show (Change.remove q).apply (after cs) = (after cs).remove q from rfl,
        entry?_remove hk] at h
      split at h
      · exact absurd h (by simp)
      · exact List.mem_append_left _ (ih h)
    | clear => exact absurd h (by simp [Change.apply, clear, empty, entry?])

end InvertedIndex

end Concordance
