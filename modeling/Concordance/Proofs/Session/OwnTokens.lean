import Concordance.Proofs.Session.Findable
import Concordance.Proofs.Token.Stable

/-!
# Searching for a token of the index

A token that is taken from an index and searched for is cut as a term. If it has no combining dot it
is its own only token, and the term means the records that hold it, no more and no less
(`Matcher.keys_evaluate_token`). So each record is found by the tokens of the texts that it tells.

A token with combining dots is cut at them, and the term means the records that hold the pieces. The
record that the token is from need not hold any of these, and then is not found
(`dotted_token_not_found`).

* **`Session.found_by_own_token`**: which tokens are their own only tokens, what the others are cut
  into, and that the first kind finds the records that hold them, in every index and in a search
  after a rebuild.
-/

namespace Concordance

variable {s t : String}

/-- A token without combining dots is a word. -/
theorem mem_words_of_token (h : t ∈ tokenize s) (hdot : Text.combiningDot ∉ t.toList) :
    t ∈ Text.words t := by
  have hlong := length_of_mem_tokenize h
  have hvisible : ∀ c ∈ t.toList, (!Text.isBlank c) = true := by
    intro c hc
    have halnum : Text.isAlphanumeric c = true := by
      rw [(chars_of_mem_tokenize h c hc).2, bne_iff_ne]
      exact fun heq => hdot (heq ▸ hc)
    rw [Text.isBlank_of_isAlphanumeric halnum, Bool.not_false]
  have hne : t.toList ≠ [] := fun hnil => by simp [hnil, minTokenLength] at hlong
  rw [Text.words, Text.runs_of_all hne hvisible]
  simp

namespace Matcher

open InvertedIndex

/-- **A term that is its own only token means the records that hold it**, whatever the history of
the index, the scope, the restriction to fields, the scorer and the boost. -/
theorem keys_evaluate_token (ht : termTokens t = [t]) (changes : List Change) (scope : KeySet)
    (fields : Option (List String)) (scorer : Scorer) (boost : Float32) :
    {pk | pk ∈ (evaluate ⟨after changes, scope, fields, scorer⟩ (.term t boost)).keys} =
      {pk | pk ∈ scope.keys ∧ ∃ e, (entriesAfter changes).get? pk = some e ∧
        HoldsToken fields e t} := by
  ext pk
  have hkeys := mem_keys_evaluate_iff (m := ⟨after changes, scope, fields, scorer⟩)
    (tabulated_after changes) (.term t boost) pk
  rw [Set.mem_ofPred_eq, hkeys, meaning]
  simp only [HoldsTerm, ht, List.forall_mem_singleton, entries_after, ne_eq, List.cons_ne_self,
    not_false_eq_true, true_and, Set.mem_ofPred_eq]

end Matcher

namespace Session

/-- A token without combining dots of a text that a stored record tells finds the record. -/
theorem found_of_tells {models : List Model} {s : Session} {n : Nat} {model text : String}
    (hs : Schema.Built models s.store.schema) (hst : s.store.Filed)
    (hcurrent : s.current < s.backends.length) (hb : (s.backend s.current).Labelled) (hn : 0 < n)
    {r : Record} (hr : s.store.Holds r) (htells : s.store.Tells maxRelationDepth r.model r text)
    (hmodel : s.store.schema.isSubtype r.model model = true) (h : t ∈ tokenize text)
    (hdot : Text.combiningDot ∉ t.toList) :
    ∀ query ∈ [SearchQuery.query (.term t 1.0), .text t],
      ∃ hits, (Command.find query (.of model) {}).answer
          ((Command.backend s.current (.rebuild n)).next s) = .ok (.hits hits) ∧
        r.pk ∈ Hits.keys hits := by
  obtain ⟨e, hentry, hholds⟩ := holdsTerm_of_tells hs hst htells
  have hself := (tokenize_eq_singleton_iff h).mpr hdot
  have hterm : HoldsTerm none e t := by
    refine hholds t ?_ ?_
    · rw [hself]
      exact List.cons_ne_nil t []
    · rw [hself]
      exact List.cons_subset.mpr ⟨h, List.nil_subset _⟩
  have hword := mem_words_of_token h hdot
  simp only [List.forall_mem_cons, List.not_mem_nil, false_imp_iff, implies_true, and_true]
  constructor
  · refine found_of_satisfies hs hst hcurrent hb hn rfl (fun u hu => ?_) hr hmodel hentry
      (IndexEntry.satisfies_term hterm)
    obtain rfl := List.mem_singleton.mp hu
    exact isBoost_one
  · have hvisible : (SearchQuery.text t).isBlank = false := by
      refine Bool.eq_false_of_not_eq_true fun hblank => ?_
      rw [Text.words_of_blank hblank] at hword
      nomatch hword
    exact found_of_satisfies hs hst hcurrent hb hn hvisible (isBoost_words t .or) hr hmodel hentry
      (IndexEntry.satisfies_any hword hterm)

/-- **What the tokens of a token are, and what they find.** A token of any text is its own only
token, as a text and as a term, exactly if it has no combining dot, and it has one exactly if the
run that it is the lower case of has a dotted capital I. In any case its tokens are its pieces
between the dots that have two characters, and these are their own only tokens. A token without such
dots finds as a term the records of the scope that hold it in a field that is allowed: in every
index that a history of changes has made, for every scorer and boost. And let a session over a built
schema hold a store that any writes have made, and rebuild its backend. Then the token finds each
stored record that tells the text, among the records of the type of the record and of every type
above it. -/
theorem found_by_own_token {text t : String} (h : t ∈ tokenize text) :
    ((tokenize t = [t] ↔ Text.combiningDot ∉ t.toList) ∧
      (termTokens t = [t] ↔ Text.combiningDot ∉ t.toList)) ∧
    (∃ run ∈ Text.runs Text.isAlphanumeric text.toList,
      t = String.ofList (Text.lowercase run) ∧ (Text.combiningDot ∈ t.toList ↔ 'İ' ∈ run)) ∧
    (tokenize t = dotlessPieces t ∧ ∀ piece ∈ tokenize t, tokenize piece = [piece]) ∧
    (Text.combiningDot ∉ t.toList →
      (∀ (changes : List Change) (scope : KeySet) (fields : Option (List String)) (scorer : Scorer)
          (boost : Float32),
        {pk | pk ∈ (Matcher.evaluate ⟨InvertedIndex.after changes, scope, fields, scorer⟩
            (.term t boost)).keys} =
          {pk | pk ∈ scope.keys ∧ ∃ e, (entriesAfter changes).get? pk = some e ∧
            HoldsToken fields e t}) ∧
      ∀ {models : List Model} {schema : Schema} {ws : List StoreWrite} {s : Session} {n : Nat}
          {r : Record} {model : String},
        Schema.ofModels models = .ok schema → s.store = (Store.empty schema).after ws →
        s.current < s.backends.length → (s.backend s.current).Labelled → 0 < n →
        s.store.Holds r → s.store.Tells maxRelationDepth r.model r text →
        schema.isSubtype r.model model = true →
        ∀ query ∈ [SearchQuery.query (.term t 1.0), .text t],
          ∃ hits, (Command.find query (.of model) {}).answer
              ((Command.backend s.current (.rebuild n)).next s) = .ok (.hits hits) ∧
            r.pk ∈ Hits.keys hits) := by
  have hself := tokenize_eq_singleton_iff h
  have hterm := (termTokens_eq_singleton_iff h).trans hself
  refine ⟨⟨hself, hterm⟩, combiningDot_mem_iff h,
    ⟨tokenize_of_mem h, fun piece => tokenize_of_mem_of_mem h⟩, fun hdot => ⟨?_, ?_⟩⟩
  · exact Matcher.keys_evaluate_token (hterm.mpr hdot)
  · intro models schema ws s n r model hs hstore hcurrent hb hn hr htells hmodel
    obtain ⟨rfl, hfiled⟩ := Store.schema_and_filed hstore
    exact found_of_tells (Schema.built_of_ofModels hs) hfiled hcurrent hb hn hr htells hmodel h hdot

/-- A book is found by a token of the name of a friend of its second author. -/
theorem found_by_own_token_byron :
    ("byron" ∈ tokenize "Ada Byron" ∧ Text.combiningDot ∉ "byron".toList ∧
      Schema.ofModels friendlyModels = .ok friendlySchema ∧
      readingRoom.current < readingRoom.backends.length ∧ (readingRoom.backend 0).Labelled ∧
      readingRoom.store.Holds engines ∧
      readingRoom.store.Tells maxRelationDepth "Book" engines "Ada Byron" ∧
      friendlySchema.isSubtype "Book" "Book" = true) ∧
    termTokens "byron" = ["byron"] ∧
    ∃ hits, (Command.find (.query (.term "byron" 1.0)) (.of "Book") {}).answer
        ((Command.backend 0 (.rebuild 2)).next readingRoom) = .ok (.hits hits) ∧
      5 ∈ Hits.keys hits := by
  have htoken : "byron" ∈ tokenize "Ada Byron" := by decide +kernel
  have hdot : Text.combiningDot ∉ "byron".toList := by decide
  have hschema : Schema.ofModels friendlyModels = .ok friendlySchema := by with_unfolding_all rfl
  have hlabelled : (readingRoom.backend 0).Labelled := Backend.labelled_ofScorer flatScorer
  have hheld : readingRoom.store.Holds engines := ⟨"Book", by decide +kernel⟩
  have hsub : friendlySchema.isSubtype "Book" "Book" = true := by decide
  obtain ⟨⟨-, hself⟩, -, -, hfinds⟩ := found_by_own_token htoken
  refine ⟨⟨htoken, hdot, hschema, Nat.zero_lt_one, hlabelled, hheld, tells_engines, hsub⟩,
    hself.mpr hdot, ?_⟩
  exact (hfinds hdot).2 hschema rfl Nat.zero_lt_one hlabelled (by decide) hheld tells_engines hsub _
    List.mem_cons_self

end Session

/-- The entry of a record with the title "İZMİR". -/
def izmir : IndexEntry := ⟨1, "Book", [⟨"title", 1.0, tokenize "İZMİR"⟩], ∅⟩

/-- The only token of the text has two combining dots. What is between them is no token of the
entry, so the entry is not found by its own token. -/
theorem dotted_token_not_found :
    tokenize "İZMİR" = ["i\u0307zmi\u0307r"] ∧ tokenize "i\u0307zmi\u0307r" = ["zmi"] ∧
    termTokens "i\u0307zmi\u0307r" = ["zmi"] ∧
    (Matcher.evaluate ⟨InvertedIndex.after [.put izmir], KeySet.ofKeys [1], none, .standard⟩
      (.term "i\u0307zmi\u0307r" 1.0)).keys = [] := by
  decide +kernel

end Concordance
