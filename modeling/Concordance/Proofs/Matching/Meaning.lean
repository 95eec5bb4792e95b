import Concordance.Proofs.Index.Tables
import Concordance.Proofs.Matching.Pointwise
import Concordance.Proofs.Schema.Path

/-!
# Which records match a query

`meaning` reads a query as a set of keys, over the entries of an index and nothing else: no table,
no score and no boost. A term means the records of the scope that hold each of its tokens in some
allowed field (`HoldsTerm`), and the connectives mean what they do on sets.

* `isSome_token_iff`: the postings of a token lead to exactly the records that hold it.
* `isSome_scoreAt_iff`: a key has a score iff it is in the meaning, whatever the score is.
* `keys_evaluate`: after every history of the index, a matcher answers a query with the keys of
  its meaning; boosts and the scorer have no say in it.
-/

namespace Concordance

/-! ## Meaning -/

/-- Whether a term may match in a path: with a restriction, the segments of a requested field must
be the first ones of the path. -/
def Allowed (fields : Option (List String)) (path : String) : Prop :=
  match fields with
  | none => True
  | some fs => ∃ f ∈ fs, Path.segments f <+: Path.segments path

/-- Whether an entry holds a token in some allowed field. -/
def HoldsToken (fields : Option (List String)) (e : IndexEntry) (token : String) : Prop :=
  ∃ f ∈ e.fields, Allowed fields f.path ∧ token ∈ f.tokens

/-- Whether an entry holds each token of a term, of which there must be one; different tokens may
stand in different fields. -/
def HoldsTerm (fields : Option (List String)) (e : IndexEntry) (term : String) : Prop :=
  termTokens term ≠ [] ∧ ∀ token ∈ termTokens term, HoldsToken fields e token

section Meaning

variable (entries : SortedMap Key IndexEntry) (scope : Set Key) (fields : Option (List String))

mutual

/-- The keys that a query means, among those of a scope. -/
def meaning : NormalQuery → Set Key
  | .matchAll => scope
  | .matchNone => ∅
  | .term t _ => {pk | pk ∈ scope ∧ ∃ e, entries.get? pk = some e ∧ HoldsTerm fields e t}
  | .and [] => scope
  | .and (q :: qs) => meaning q ∩ meaningOfAll qs
  | .or qs => meaningOfAny qs
  | .not q => scope \ meaning q

/-- The keys that all of some queries mean. -/
def meaningOfAll : List NormalQuery → Set Key
  | [] => Set.univ
  | q :: qs => meaning q ∩ meaningOfAll qs

/-- The keys that any of some queries means. -/
def meaningOfAny : List NormalQuery → Set Key
  | [] => ∅
  | q :: qs => meaning q ∪ meaningOfAny qs

end

mutual

/-- No query means a key outside the scope. -/
theorem meaning_subset : ∀ q : NormalQuery, meaning entries scope fields q ⊆ scope
  | .matchAll => by rw [meaning]
  | .matchNone => by
    rw [meaning]
    exact Set.empty_subset scope
  | .term _ _ => by
    rw [meaning]
    exact fun _ h => h.1
  | .and [] => by rw [meaning]
  | .and (q :: qs) => by
    rw [meaning]
    exact Set.inter_subset_left.trans (meaning_subset q)
  | .or qs => by
    rw [meaning]
    exact meaningOfAny_subset qs
  | .not q => by
    rw [meaning]
    exact Set.sdiff_subset

theorem meaningOfAny_subset : ∀ qs : List NormalQuery,
    meaningOfAny entries scope fields qs ⊆ scope
  | [] => by
    rw [meaningOfAny]
    exact Set.empty_subset scope
  | q :: qs => by
    rw [meaningOfAny]
    exact Set.union_subset (meaning_subset q) (meaningOfAny_subset qs)

end

variable {entries scope fields} {pk : Key}

theorem mem_meaningOfAll {qs : List NormalQuery} :
    pk ∈ meaningOfAll entries scope fields qs ↔ ∀ q ∈ qs, pk ∈ meaning entries scope fields q := by
  induction qs with
  | nil => simp [meaningOfAll]
  | cons q qs ih => rw [meaningOfAll, Set.mem_inter_iff, ih, List.forall_mem_cons]

theorem mem_meaningOfAny {qs : List NormalQuery} :
    pk ∈ meaningOfAny entries scope fields qs ↔ ∃ q ∈ qs, pk ∈ meaning entries scope fields q := by
  induction qs with
  | nil => simp [meaningOfAny]
  | cons q qs ih => rw [meaningOfAny, Set.mem_union, ih, List.exists_mem_cons_iff]

/-- Some word of a text must be held, or each of them if there is one. -/
theorem mem_meaning_ofWords {words : List String} (h : words ≠ []) {boost : Float32} :
    (pk ∈ meaning entries scope fields (.ofWords .or words boost) ↔
        ∃ word ∈ words, pk ∈ meaning entries scope fields (.term word boost)) ∧
      (pk ∈ meaning entries scope fields (.ofWords .and words boost) ↔
        ∀ word ∈ words, pk ∈ meaning entries scope fields (.term word boost)) := by
  obtain ⟨word, words, rfl⟩ := List.exists_cons_of_ne_nil h
  constructor
  · show pk ∈ meaning entries scope fields (.or ((word :: words).map fun w => .term w boost)) ↔ _
    rw [meaning, mem_meaningOfAny]
    simp only [List.mem_map, exists_exists_and_eq_and]
  · show pk ∈ meaning entries scope fields
      (.and (.term word boost :: words.map fun w => .term w boost)) ↔ _
    rw [meaning, Set.mem_inter_iff, mem_meaningOfAll, List.forall_mem_cons, List.forall_mem_map]

end Meaning

mutual

/-- The query with every boost one. -/
def NormalQuery.unboosted : NormalQuery → NormalQuery
  | .matchAll => .matchAll
  | .matchNone => .matchNone
  | .term t _ => .term t 1.0
  | .and qs => .and (unboostedAll qs)
  | .or qs => .or (unboostedAll qs)
  | .not q => .not q.unboosted

/-- The queries with every boost one. -/
def unboostedAll : List NormalQuery → List NormalQuery
  | [] => []
  | q :: qs => q.unboosted :: unboostedAll qs

end

section Unboosted

variable (entries : SortedMap Key IndexEntry) (scope : Set Key) (fields : Option (List String))

mutual

theorem meaning_unboosted : ∀ q : NormalQuery,
    meaning entries scope fields q.unboosted = meaning entries scope fields q
  | .matchAll => rfl
  | .matchNone => rfl
  | .term _ _ => rfl
  | .and [] => rfl
  | .and (q :: qs) => by
    rw [NormalQuery.unboosted, unboostedAll, meaning, meaning, meaning_unboosted q,
      meaningOfAll_unboosted qs]
  | .or qs => by
    rw [NormalQuery.unboosted, meaning, meaning, meaningOfAny_unboosted qs]
  | .not q => by
    rw [NormalQuery.unboosted, meaning, meaning, meaning_unboosted q]

theorem meaningOfAll_unboosted : ∀ qs : List NormalQuery,
    meaningOfAll entries scope fields (unboostedAll qs) = meaningOfAll entries scope fields qs
  | [] => rfl
  | q :: qs => by
    rw [unboostedAll, meaningOfAll, meaningOfAll, meaning_unboosted q, meaningOfAll_unboosted qs]

theorem meaningOfAny_unboosted : ∀ qs : List NormalQuery,
    meaningOfAny entries scope fields (unboostedAll qs) = meaningOfAny entries scope fields qs
  | [] => rfl
  | q :: qs => by
    rw [unboostedAll, meaningOfAny, meaningOfAny, meaning_unboosted q, meaningOfAny_unboosted qs]

end

end Unboosted

/-! ## Tokens lead to the records that hold them -/

namespace Matcher

open ScoreMap InvertedIndex

theorem allows_iff (m : Matcher) (path : String) :
    m.allows path = true ↔ Allowed m.fields path := by
  unfold allows Allowed
  cases m.fields with
  | none => simp
  | some fs => simp only [List.any_eq_true, Path.covers_iff]

/-- A posting counts if its record is in the scope and its field is one that is allowed. -/
theorem field?_eq_some_iff {m : Matcher} {p : Posting} {f : FieldContent} :
    m.field? p = some f ↔ m.scope.contains p.pk = true ∧
      (∃ e, m.index.entry? p.pk = some e ∧ e.fields[p.field]? = some f) ∧
      Allowed m.fields f.path := by
  unfold field?
  split
  · rename_i hscope
    rw [Option.filter_eq_some_iff, Option.bind_eq_some_iff, allows_iff]
    simp only [hscope, true_and]
  · rename_i hscope
    simp [hscope]

theorem isSome_token_iff {m : Matcher} (ht : Tabulated m.index) (boost : Float32) (t : String)
    (pk : Key) : ((m.token boost t).get? pk).isSome = true ↔
      m.scope.contains pk = true ∧
        ∃ e, m.index.entry? pk = some e ∧ HoldsToken m.fields e t := by
  rw [isSome_get?_token]
  constructor
  · rintro ⟨p, hp, rfl, f, hf⟩
    obtain ⟨hscope, ⟨e, he, hfield⟩, hallow⟩ := field?_eq_some_iff.mp hf
    obtain ⟨e', f', he', hfield', hpost⟩ := ht.mem_postingsOf.mp hp
    obtain rfl := Option.some.inj (he.symm.trans he')
    obtain rfl := Option.some.inj (hfield.symm.trans hfield')
    obtain ⟨-, -, htok⟩ := posting?_eq_some hpost
    exact ⟨hscope, e, he, f, List.mem_of_getElem? hfield, hallow, htok⟩
  · rintro ⟨hscope, e, he, f, hmem, hallow, htok⟩
    obtain ⟨i, hi⟩ := List.mem_iff_getElem?.mp hmem
    refine ⟨⟨pk, i, (f.tokens.count t).toUInt32, f.tokens.length.toUInt32⟩,
      ht.mem_postingsOf.mpr ⟨e, f, he, hi, ?_⟩, rfl, f,
      field?_eq_some_iff.mpr ⟨hscope, ⟨e, he, hi⟩, hallow⟩⟩
    unfold posting?
    rw [if_pos htok]

/-! ## Queries have a score exactly where they hold -/

theorem isSome_meetAt (x y : Option Float32) :
    (meetAt x y).isSome = true ↔ x.isSome = true ∧ y.isSome = true := by
  cases x <;> cases y <;> simp [meetAt]

theorem isSome_joinAt (x y : Option Float32) :
    (joinAt x y).isSome = true ↔ x.isSome = true ∨ y.isSome = true := by
  cases x <;> cases y <;> simp [joinAt, addAt]

theorem isSome_complementAt (inScope : Bool) (x : Option Float32) :
    (complementAt inScope x).isSome = true ↔ inScope = true ∧ ¬ x.isSome = true := by
  cases inScope <;> cases x <;> simp [complementAt]

theorem isSome_foldl_meetAt (ts : List String) (f : String → Option Float32)
    (x : Option Float32) : (ts.foldl (fun x t => meetAt x (f t)) x).isSome = true ↔
      x.isSome = true ∧ ∀ t ∈ ts, (f t).isSome = true := by
  induction ts generalizing x with
  | nil => simp
  | cons t ts ih =>
    rw [List.foldl_cons, ih, isSome_meetAt, List.forall_mem_cons, and_assoc]

section

variable {entries : SortedMap Key IndexEntry} {scope : Set Key} {fields : Option (List String)}
  {pk : Key} {inScope : Bool} {token : Float32 → String → Option Float32}

/-- What is known of one key: whether it is in the scope, and that a token gives it a score iff
its entry holds the token. -/
structure Reads (entries : SortedMap Key IndexEntry) (scope : Set Key)
    (fields : Option (List String)) (pk : Key) (inScope : Bool)
    (token : Float32 → String → Option Float32) : Prop where
  scope_iff : inScope = true ↔ pk ∈ scope
  token_iff : ∀ boost t, (token boost t).isSome = true ↔
    pk ∈ scope ∧ ∃ e, entries.get? pk = some e ∧ HoldsToken fields e t

theorem isSome_termAt_iff (h : Reads entries scope fields pk inScope token) (term : String)
    (boost : Float32) : (termAt token term boost).isSome = true ↔
      pk ∈ scope ∧ ∃ e, entries.get? pk = some e ∧ HoldsTerm fields e term := by
  unfold termAt HoldsTerm
  cases termTokens term with
  | nil => simp
  | cons t ts =>
    refine (isSome_foldl_meetAt ts (token boost) (token boost t)).trans ?_
    simp only [h.token_iff, List.forall_mem_cons]
    constructor
    · rintro ⟨⟨hs, e, he, ht⟩, hts⟩
      refine ⟨hs, e, he, by simp, ht, fun t' ht' => ?_⟩
      obtain ⟨-, e', he', hh⟩ := hts t' ht'
      obtain rfl := Option.some.inj (he.symm.trans he')
      exact hh
    · rintro ⟨hs, e, he, -, ht, hts⟩
      exact ⟨⟨hs, e, he, ht⟩, fun t' ht' => ⟨hs, e, he, hts t' ht'⟩⟩

mutual

/-- **A key has a score for a query iff it is in the meaning**, also where the score is zero. -/
theorem isSome_scoreAt_iff (h : Reads entries scope fields pk inScope token) :
    ∀ q : NormalQuery, (scoreAt inScope token q).isSome = true ↔
      pk ∈ meaning entries scope fields q
  | .matchAll => by
    rw [scoreAt, isSome_complementAt, h.scope_iff, meaning]
    simp
  | .matchNone => by
    rw [scoreAt, meaning]
    simp
  | .term t boost => by
    rw [scoreAt, meaning]
    exact isSome_termAt_iff h t boost
  | .and [] => by
    rw [scoreAt, isSome_complementAt, h.scope_iff, meaning]
    simp
  | .and (q :: qs) => by
    rw [scoreAt, meaning, isSome_meetAllAt_iff h _ qs, isSome_scoreAt_iff h q]
    exact Iff.rfl
  | .or qs => by
    rw [scoreAt, meaning, isSome_joinAllAt_iff h _ qs]
    simp
  | .not q => by
    rw [scoreAt, meaning, isSome_complementAt, h.scope_iff, isSome_scoreAt_iff h q]
    exact Iff.rfl

theorem isSome_meetAllAt_iff (h : Reads entries scope fields pk inScope token)
    (x : Option Float32) : ∀ qs : List NormalQuery,
    (meetAllAt inScope token x qs).isSome = true ↔
      x.isSome = true ∧ pk ∈ meaningOfAll entries scope fields qs
  | [] => by
    rw [meetAllAt, meaningOfAll]
    simp
  | q :: qs => by
    rw [meetAllAt, meaningOfAll, isSome_meetAllAt_iff h _ qs, isSome_meetAt,
      isSome_scoreAt_iff h q, and_assoc]
    exact Iff.rfl

theorem isSome_joinAllAt_iff (h : Reads entries scope fields pk inScope token)
    (x : Option Float32) : ∀ qs : List NormalQuery,
    (joinAllAt inScope token x qs).isSome = true ↔
      x.isSome = true ∨ pk ∈ meaningOfAny entries scope fields qs
  | [] => by
    rw [joinAllAt, meaningOfAny]
    simp
  | q :: qs => by
    rw [joinAllAt, meaningOfAny, isSome_joinAllAt_iff h _ qs, isSome_joinAt,
      isSome_scoreAt_iff h q, or_assoc]
    exact Iff.rfl

end

end

/-- **Only keys of the scope have a score**, whatever the tables of the index hold. -/
theorem contains_of_evaluate {m : Matcher} {q : NormalQuery} {pk : Key} {x : Float32}
    (h : (m.evaluate q).get? pk = some x) : m.scope.contains pk = true := by
  by_contra hout
  have hout := Bool.eq_false_of_not_eq_true hout
  -- outside the scope a key is read like one that no scope has
  have hreads : Reads ∅ ∅ m.fields pk (m.scope.contains pk)
      (fun boost t => (m.token boost t).get? pk) :=
    ⟨by simp [hout], fun boost t => by simp [get?_token_eq_none hout]⟩
  have hmeant := (isSome_scoreAt_iff hreads q).mp (by rw [← get?_evaluate, h]; rfl)
  exact meaning_subset _ _ _ q hmeant

/-- A matcher reads each key off its index and scope. -/
theorem reads_of_tabulated {m : Matcher} (ht : Tabulated m.index) (pk : Key) :
    Reads m.index.entries {pk | pk ∈ m.scope.keys} m.fields pk (m.scope.contains pk)
      (fun boost t => (m.token boost t).get? pk) where
  scope_iff := SortedMap.mem_keys.symm
  token_iff boost t := by
    rw [isSome_token_iff ht boost t pk]
    exact and_congr SortedMap.mem_keys.symm Iff.rfl

theorem mem_keys_evaluate_iff {m : Matcher} (ht : Tabulated m.index) (q : NormalQuery)
    (pk : Key) : pk ∈ (m.evaluate q).keys ↔
      pk ∈ meaning m.index.entries {pk | pk ∈ m.scope.keys} m.fields q := by
  rw [SortedMap.mem_keys, ← isSome_scoreAt_iff (reads_of_tabulated ht pk) q, ← get?_evaluate]
  rfl

/-- **A matcher answers with the keys that the query means**, whatever the history of its index,
the scope and the restriction to fields. No boost and no scorer has a say in it: the query without
its boosts has the same keys, under any scorer. -/
theorem keys_evaluate (changes : List Change) (scope : KeySet) (fields : Option (List String))
    (scorer : Scorer) (q : NormalQuery) :
    {pk | pk ∈ (evaluate ⟨after changes, scope, fields, scorer⟩ q).keys} =
      meaning (entriesAfter changes) {pk | pk ∈ scope.keys} fields q ∧
    ∀ other : Scorer, (evaluate ⟨after changes, scope, fields, other⟩ q.unboosted).keys =
      (evaluate ⟨after changes, scope, fields, scorer⟩ q).keys := by
  have ht := tabulated_after changes
  have hkeys : ∀ (s : Scorer) (q : NormalQuery) (pk : Key),
      pk ∈ (evaluate ⟨after changes, scope, fields, s⟩ q).keys ↔
        pk ∈ meaning (entriesAfter changes) {pk | pk ∈ scope.keys} fields q := by
    intro s q pk
    rw [← entries_after changes]
    exact mem_keys_evaluate_iff (m := ⟨after changes, scope, fields, s⟩) ht q pk
  refine ⟨Set.ext fun pk => hkeys scorer q pk, fun other => ?_⟩
  refine SortedMap.keys_congr fun pk => ?_
  rw [hkeys other q.unboosted pk, meaning_unboosted, hkeys scorer q pk]

end Matcher

end Concordance
