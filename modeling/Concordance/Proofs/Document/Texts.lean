import Concordance.Proofs.Document
import Concordance.Proofs.Matching.Meaning
import Concordance.Proofs.Token

/-!
# The texts of a record

A record tells a text if a searchable field shows it, on the record itself or on one that is reached
through searchable relations (`Store.Tells`). Each token of a text that is told is met on the way
and stays in the entry, under whatever path: this holds for all names of fields, also where several
fields share a path.

* **`holdsTerm_of_tells`**: the entry of a record holds every text that the record tells as a term,
  and every word of it that has a token.
-/

namespace Concordance

variable {models : List Model} {st : Store}

/-- A text is what some searchable field of a model shows of a record, or of a stored record that
is reached from there through searchable relations, of which there may be `depth`. -/
inductive Store.Tells (st : Store) : Nat → String → Record → String → Prop
  | field {depth : Nat} {model text : String} {r : Record} {f : Field}
      (hf : f ∈ st.schema.searched model) (hplain : f.related? = none)
      (htext : (f.valueOf r).toText = some text) : st.Tells depth model r text
  | hop {depth : Nat} {model target text : String} {r next : Record} {f : Field}
      (hf : f ∈ st.schema.searched model) (hrelated : f.related? = some target)
      (hnext : next.pk ∈ r.related f.name) (hheld : st.Holds next)
      (hmodel : st.schema.isSubtype next.model target = true)
      (h : st.Tells depth target next text) : st.Tells (depth + 1) model r text

/-- A record tells texts only if its type has a searchable field. -/
theorem Store.Tells.isIndexed {depth : Nat} {model text : String} {r : Record}
    (h : st.Tells depth model r text) : st.schema.isIndexed model = true := by
  cases h with
  | field hf => exact Schema.isIndexed_of_mem_searched hf
  | hop hf => exact Schema.isIndexed_of_mem_searched hf

theorem Store.find?_eq_some_iff (hs : Schema.Built models st.schema) (hst : st.Filed)
    {model : String} (hmodel : st.schema.contains model = true) {pk : Key} {r : Record} :
    st.find? model pk = some r ↔
      st.Holds r ∧ r.pk = pk ∧ st.schema.isSubtype r.model model = true := by
  obtain ⟨r?, hget, hiff⟩ := exists_get hs hst hmodel pk
  obtain rfl : st.find? model pk = r? := Except.ok.inj ((get_eq_find? hmodel pk).symm.trans hget)
  exact hiff r

/-- **Each token of a text that a record tells is met.** -/
theorem exists_content_of_tells (hs : Schema.Built models st.schema) (hst : st.Filed) {depth : Nat}
    {model text : String} {r : Record} (h : st.Tells depth model r text) (base : String)
    (boost : Float32) {token : String} (htoken : token ∈ tokenize text) :
    ∃ c ∈ contents st depth model r base boost, token ∈ c.tokens := by
  induction h generalizing base boost with
  | @field depth model text r f hf hplain htext =>
    refine ⟨⟨Path.below base f.name, boost * f.boost, (f.valueOf r).tokens⟩, ?_, ?_⟩
    · rw [contents_eq, List.mem_flatMap]
      exact ⟨f, hf, mem_contentsOfField.mpr (Or.inl ⟨hplain, rfl⟩)⟩
    · show token ∈ (f.valueOf r).tokens
      unfold Value.tokens
      rw [htext]
      exact htoken
  | @hop depth model target text r next f hf hrelated hnext hheld hmodel _ ih =>
    obtain ⟨e, he, hmem, -⟩ := Schema.mem_searched.mp hf
    have htarget := hs.contains_of_related he hmem hrelated
    obtain ⟨c, hc, htokens⟩ := ih (Path.below base f.name) (boost * f.boost) htoken
    refine ⟨c, ?_, htokens⟩
    rw [contents_eq, List.mem_flatMap]
    refine ⟨f, hf, mem_contentsOfField.mpr (Or.inr ⟨target, depth, next, hrelated, rfl, ?_, hc⟩)⟩
    exact List.mem_filterMap.mpr
      ⟨next.pk, hnext, (Store.find?_eq_some_iff hs hst htarget).mpr ⟨hheld, rfl, hmodel⟩⟩

/-- No token is lost in merging. -/
theorem exists_mem_foldl_addContent {cs : List FieldContent} {c : FieldContent} (hc : c ∈ cs)
    {token : String} (htoken : token ∈ c.tokens) :
    ∃ d ∈ cs.foldl addContent [], token ∈ d.tokens := by
  have hmerged := find?_foldl_addContent cs [] c.path
  have htokens := tokens_foldl_gain (cs.filter fun d => d.path == c.path) none
  have hmet : token ∈ (cs.filter fun d => d.path == c.path).flatMap FieldContent.tokens :=
    List.mem_flatMap.mpr ⟨c, List.mem_filter.mpr ⟨hc, beq_self_eq_true c.path⟩, htoken⟩
  rw [List.find?_nil] at hmerged
  rw [← hmerged] at htokens
  cases hfound : (cs.foldl addContent []).find? fun d => d.path == c.path with
  | none =>
    rw [hfound] at htokens
    rw [show (cs.filter fun d => d.path == c.path).flatMap FieldContent.tokens = [] from
      htokens.symm] at hmet
    exact absurd hmet List.not_mem_nil
  | some d =>
    rw [hfound] at htokens
    refine ⟨d, List.mem_of_find?_eq_some hfound, ?_⟩
    rw [show d.tokens = _ from htokens]
    exact hmet

/-- **The entry of a record holds the texts that the record tells.** Any text whose tokens are among
those of a text that is told, and that has a token, is held as a term. -/
theorem holdsTerm_of_tells (hs : Schema.Built models st.schema) (hst : st.Filed) {r : Record}
    {text : String} (h : st.Tells maxRelationDepth r.model r text) :
    ∃ e, buildEntry st r = .ok (some e) ∧
      ∀ term, tokenize term ≠ [] → tokenize term ⊆ tokenize text → HoldsTerm none e term := by
  obtain ⟨entry, hentry⟩ := Schema.contains_iff.mp (Schema.contains_of_isIndexed h.isIndexed)
  refine ⟨_, (buildEntry_eq hs hentry).trans (congrArg Except.ok (if_pos h.isIndexed)),
    fun term hterm hsub => ⟨?_, fun token htoken => ?_⟩⟩
  · obtain ⟨token, htoken⟩ := List.exists_mem_of_ne_nil _ hterm
    exact List.ne_nil_of_mem (List.mem_eraseDups.mpr htoken)
  · have htext := hsub (List.mem_eraseDups.mp htoken)
    obtain ⟨c, hc, htokens⟩ := exists_content_of_tells hs hst h "" 1.0 htext
    obtain ⟨d, hd, htokens⟩ := exists_mem_foldl_addContent hc htokens
    exact ⟨d, hd, trivial, htokens⟩

end Concordance
