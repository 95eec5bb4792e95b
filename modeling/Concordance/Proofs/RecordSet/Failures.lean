import Concordance.Proofs.RecordSet.Evaluate
import Concordance.Proofs.RecordSet.Ordering

/-!
# How the evaluation of a set can fail

The validation of a set and its evaluation walk over its syntax separately, and each resolves the
paths that it meets. What validation accepts, evaluation resolves. Then two things can go wrong: a
key, of a stored record or in one of its relations, is no signed integer of 64 bits
(`Store.Oversized`), or what is selected somewhere cannot be sorted (`RecordSet.Sorts`).

* **`fault_of_evaluate`**, `fault_of_compile`, `fault_of_test`: the evaluation of what was validated
  fails for one of these reasons only, by induction on its syntax.
* `evaluate_of_invalid`: what is not valid fails as its validation does.
* **`exists_evaluate`**: so a valid set is evaluated to what it selects, where keys fit and what is
  selected can be sorted.
* **`evaluate_selects`**: the same over any store that writes have made, for sets without ordering.
-/

namespace Concordance

variable {models : List Model} {st : Store}

/-- An evaluation has failed for an oversized key, or where there was something to sort that cannot
be sorted. -/
def Store.Fault (st : Store) (sorts : Prop) (e : Error) : Prop :=
  st.Oversized e ∨ e = .panic ∧ ¬sorts

theorem Store.Fault.mono {p q : Prop} {e : Error} (h : st.Fault p e) (hpq : q → p) :
    st.Fault q e :=
  h.imp_right fun hpanic => ⟨hpanic.1, mt hpq hpanic.2⟩

/-- Two parts that are compiled one after the other have the faults of both. -/
theorem fault_of_both {x y : Result Condition} {f : Condition → Condition → Condition}
    {p q : Prop} (hx : ∀ e, x = .error e → st.Fault p e) (hy : ∀ e, y = .error e → st.Fault q e)
    {e : Error} (h : (do return f (← x) (← y)) = Except.error e) : st.Fault (p ∧ q) e := by
  rcases error_of_bind h with h | ⟨_, -, h⟩
  · exact (hx e h).mono And.left
  rcases error_of_bind h with h | ⟨_, -, h⟩
  · exact (hy e h).mono And.right
  · nomatch h

section Evaluate

variable (hs : Schema.Built models st.schema) (hst : st.Filed)

include hs hst

/-- Records are not arranged for an oversized key, or because they cannot be sorted. -/
theorem fault_of_arrange {model : String} {ordering : List OrderKey}
    (hordering : ∀ key ∈ ordering, st.schema.checkPath model key.field .order = .ok ())
    {rs : List Record} (hrs : ∀ r ∈ rs, st.Holds r) {e : Error}
    (h : arrange st model ordering rs = .error e) :
    st.Fault (Sortable (st.compareBy model ordering) rs) e := by
  unfold arrange at h
  split at h
  · nomatch h
  rcases error_of_bind h with h | ⟨readings, hreadings, h⟩
  · obtain ⟨key, hkey, h⟩ := error_of_mapM h
    obtain ⟨reading, hreading⟩ := exists_reading (hordering key hkey)
    rw [hreading] at h
    nomatch h
  rcases error_of_bind h with h | ⟨decorated, hdecorated, h⟩
  · obtain ⟨r, hr, h⟩ := error_of_mapM h
    rcases error_of_bind h with h | ⟨_, -, h⟩
    · obtain ⟨reading, hreading, h⟩ := error_of_mapM h
      obtain ⟨key, -, hreading⟩ := (mem_of_mapM hreadings).mp hreading
      exact Or.inl (oversized_of_values hs hst hreading (hrs r hr) (error_of_map h))
    · nomatch h
  · rw [decorated_eq hreadings hdecorated, map_snd_sortBy] at h
    exact Or.inr (sortBy_eq_error_iff.mp h).symm

/-- Without an ordering the evaluation of a valid set has the faults of its condition, when it is
compiled and when it decides a record. -/
theorem fault_of_condition {model : String} {predicate : Option Predicate}
    {foreign : Option String}
    (hvalid : RecordSet.validate st.schema ⟨model, predicate, [], foreign⟩ = .ok ())
    (hcompile : ∀ e, compileCondition st model predicate = .error e →
      st.Fault (conditionSorts st predicate) e)
    (hdecides : ∀ c, compileCondition st model predicate = .ok (some c) → ∀ r, st.Holds r →
      ∀ e, c.decides st r = .error e → st.Oversized e)
    {e : Error} (h : RecordSet.evaluate st ⟨model, predicate, [], foreign⟩ = .error e) :
    st.Fault (conditionSorts st predicate) e := by
  obtain ⟨all, hall, -, hmem⟩ := Store.exists_records hs hst (validate_iff.mp hvalid).1
  rw [RecordSet.evaluate] at h
  replace h := error_of_ok_bind hvalid h
  rcases error_of_bind h with h | ⟨condition, hcondition, h⟩
  · exact hcompile e h
  replace h := error_of_ok_bind hall h
  rcases error_of_bind h with h | ⟨kept, -, h⟩
  · obtain ⟨r, hr, h⟩ := error_of_filterM h
    cases condition with
    | none => cases h
    | some c => exact Or.inl (hdecides c hcondition r ((hmem r).mp hr).1 e h)
  · cases h

/-- An ordering adds to the faults of a set that what the set selects cannot be sorted. -/
theorem fault_of_ordering {set : RecordSet} (hvalid : set.validate st.schema = .ok ())
    (hplain : ∀ e, { set with ordering := [] }.evaluate st = .error e →
      st.Fault (conditionSorts st set.predicate) e)
    {e : Error} (h : set.evaluate st = .error e) : st.Fault (set.Sorts st) e := by
  rw [evaluate_eq_arrange hvalid] at h
  rcases error_of_bind h with h | ⟨plain, hevaluate, h⟩
  · exact (hplain e h).mono fun hsorts => (sorts_iff.mp hsorts).1
  · have hselects : ∀ r ∈ plain, set.Selects st r := by
      intro r hr
      have hplain := (selects_of_evaluate hs hst _ plain hevaluate r).mp hr
      rw [selects_iff] at hplain ⊢
      exact hplain
    obtain ⟨-, hnodup, -⟩ := base_of_evaluate hst hevaluate
    obtain ⟨model, predicate, ordering, foreign⟩ := set
    obtain ⟨-, -, -, hordering⟩ := validate_iff.mp hvalid
    exact (fault_of_arrange hs hst hordering (fun r hr => (hselects r hr).holds) h).mono
      fun hsorts => (sorts_iff.mp hsorts).2 plain (hnodup.of_map _) hselects

mutual

/-- **The evaluation of a valid set fails only for an oversized key**, or because it cannot sort. -/
theorem fault_of_evaluate : ∀ set : RecordSet, set.validate st.schema = .ok () →
    ∀ e, set.evaluate st = .error e → st.Fault (set.Sorts st) e
  | ⟨model, none, ordering, foreign⟩, hvalid => fun e h => by
    refine fault_of_ordering hs hst hvalid (fun e h => ?_) h
    refine fault_of_condition hs hst (validate_unordered hvalid) (fun _ h => ?_) (fun c hc => ?_) h
    · rw [compileCondition] at h
      nomatch h
    · rw [compileCondition] at hc
      nomatch hc
  | ⟨model, some p, ordering, foreign⟩, hvalid => fun e h => by
    obtain ⟨-, -, hpredicate, -⟩ := validate_iff.mp hvalid
    rw [validateCondition] at hpredicate
    obtain ⟨hcompile, hdecides⟩ := fault_of_compile model p hpredicate
    refine fault_of_ordering hs hst hvalid (fun e h => ?_) h
    refine fault_of_condition hs hst (validate_unordered hvalid) (fun e h => ?_) (fun c hc => ?_) h
    · rw [compileCondition] at h
      rw [conditionSorts]
      exact hcompile e (error_of_map h)
    · rw [compileCondition] at hc
      obtain ⟨c', hc', heq⟩ := ok_of_map hc
      cases heq
      exact hdecides c hc'

/-- **A predicate that was checked has the same faults**, when it is compiled. When it decides a
record, only a key can be oversized. -/
theorem fault_of_compile (model : String) : ∀ p : Predicate,
    p.validate st.schema model = .ok () →
    (∀ e, p.compile st model = .error e → st.Fault (p.Sorts st) e) ∧
    ∀ c, p.compile st model = .ok c → ∀ r, st.Holds r →
      ∀ e, c.decides st r = .error e → st.Oversized e
  | .field path lookup, hvalid => by
    rw [Predicate.validate] at hvalid
    obtain ⟨_, hpath, hlookup⟩ := ok_of_bind hvalid
    obtain ⟨reading, hreading⟩ := exists_reading hpath
    rw [Predicate.compile, Predicate.Sorts]
    refine ⟨fun e h => ?_, fun c hc r hr e h => ?_⟩
    · replace h := error_of_ok_bind hreading h
      rcases error_of_bind h with h | ⟨_, -, h⟩
      · exact fault_of_test lookup hlookup e h
      · nomatch h
    · obtain ⟨reading, hreading, hc⟩ := ok_of_bind hc
      obtain ⟨test, -, hc⟩ := ok_of_bind hc
      cases hc
      exact oversized_of_values hs hst hreading hr (error_of_map h)
  | .and p q, hvalid => by
    rw [Predicate.validate] at hvalid
    obtain ⟨_, hp, hq⟩ := ok_of_bind hvalid
    obtain ⟨hcompileP, hdecidesP⟩ := fault_of_compile model p hp
    obtain ⟨hcompileQ, hdecidesQ⟩ := fault_of_compile model q hq
    rw [Predicate.compile, Predicate.Sorts]
    refine ⟨fun e => fault_of_both hcompileP hcompileQ, fun c hc r hr e h => ?_⟩
    obtain ⟨c, hcp, hc⟩ := ok_of_bind hc
    obtain ⟨d, hcq, hc⟩ := ok_of_bind hc
    cases hc
    rw [Condition.decides] at h
    rcases error_of_bind h with h | ⟨b, -, h⟩
    · exact hdecidesP c hcp r hr e h
    · split at h
      · exact hdecidesQ d hcq r hr e h
      · nomatch h
  | .or p q, hvalid => by
    rw [Predicate.validate] at hvalid
    obtain ⟨_, hp, hq⟩ := ok_of_bind hvalid
    obtain ⟨hcompileP, hdecidesP⟩ := fault_of_compile model p hp
    obtain ⟨hcompileQ, hdecidesQ⟩ := fault_of_compile model q hq
    rw [Predicate.compile, Predicate.Sorts]
    refine ⟨fun e => fault_of_both hcompileP hcompileQ, fun c hc r hr e h => ?_⟩
    obtain ⟨c, hcp, hc⟩ := ok_of_bind hc
    obtain ⟨d, hcq, hc⟩ := ok_of_bind hc
    cases hc
    rw [Condition.decides] at h
    rcases error_of_bind h with h | ⟨b, -, h⟩
    · exact hdecidesP c hcp r hr e h
    · split at h
      · nomatch h
      · exact hdecidesQ d hcq r hr e h
  | .not p, hvalid => by
    rw [Predicate.validate] at hvalid
    obtain ⟨hcompile, hdecides⟩ := fault_of_compile model p hvalid
    rw [Predicate.compile, Predicate.Sorts]
    refine ⟨fun e h => ?_, fun c hc r hr e h => ?_⟩
    · rcases error_of_bind h with h | ⟨_, -, h⟩
      · exact hcompile e h
      · nomatch h
    · obtain ⟨c, hcp, hc⟩ := ok_of_bind hc
      cases hc
      rw [Condition.decides] at h
      exact hdecides c hcp r hr e (error_of_map h)

/-- **A lookup that was checked has the faults of its subquery**, when it is compiled, and those of
the keys that it reads there. -/
theorem fault_of_test : ∀ lookup : Lookup, lookup.validate st.schema = .ok () →
    ∀ e, lookup.compile st = .error e → st.Fault (lookup.Sorts st) e
  | .within set field, hvalid => fun e h => by
    rw [Lookup.validate] at hvalid
    obtain ⟨_, hset, hfield⟩ := ok_of_bind hvalid
    obtain ⟨reading, hreading⟩ := exists_reading hfield
    rw [Lookup.Sorts]
    rw [Lookup.compile] at h
    replace h := error_of_ok_bind hreading h
    rcases error_of_bind h with h | ⟨rs, hrs, h⟩
    · exact fault_of_evaluate set hset e h
    rcases error_of_bind h with h | ⟨_, -, h⟩
    · obtain ⟨r, hr, h⟩ := error_of_mapM h
      have hheld := ((selects_of_evaluate hs hst set rs hrs r).mp hr).holds
      exact Or.inl (oversized_of_values hs hst hreading hheld h)
    · nomatch h
  | .compare c w, _ => fun e h => by rw [Lookup.compile] at h; nomatch h
  | .oneOf ws, _ => fun e h => by rw [Lookup.compile] at h; nomatch h
  | .isNull expected, _ => fun e h => by rw [Lookup.compile] at h; nomatch h
  | .startsWith start, _ => fun e h => by rw [Lookup.compile] at h; nomatch h

end

/-- **A valid set is evaluated to what it selects**, in ascending order of keys if it has no
ordering, where all keys fit and what it selects can be sorted. -/
theorem exists_evaluate (hkeys : st.KeysFit) {set : RecordSet}
    (hvalid : set.validate st.schema = .ok ()) (hsorts : set.Sorts st) :
    ∃ rs, set.evaluate st = .ok rs ∧ (∀ r, r ∈ rs ↔ set.Selects st r) ∧
      (set.ordering = [] → rs.Pairwise fun a b => a.pk < b.pk) := by
  cases h : set.evaluate st with
  | error e =>
    rcases fault_of_evaluate hs hst set hvalid e h with hlarge | ⟨-, hunsorted⟩
    · exact absurd hlarge (hkeys.not_oversized e)
    · exact absurd hsorts hunsorted
  | ok rs =>
    obtain ⟨-, -, hascending⟩ := base_of_evaluate hst h
    exact ⟨rs, rfl, selects_of_evaluate hs hst set rs h, hascending⟩

end Evaluate

/-- What is not valid fails as its validation does. -/
theorem evaluate_of_invalid {set : RecordSet} {e : Error}
    (h : set.validate st.schema = .error e) : set.evaluate st = .error e := by
  obtain ⟨model, predicate, ordering, foreign⟩ := set
  rw [RecordSet.evaluate, h]
  rfl

/-! ## Stores made by writes -/

theorem keysFit_after {s : Schema} {ws : List StoreWrite}
    (h : ∀ r, .insert r ∈ ws → r.KeysFit) : ((Store.empty s).after ws).KeysFit :=
  fun r hr => h r (Store.mem_of_holds_after hr)

/-- Authors, their books, and anthologies among these. -/
def catalogueModels : List Model :=
  [⟨"Author", none, [Field.filter "name"]⟩,
    ⟨"Book", none, [{ Field.related "authors" "Author" with filterable := true }]⟩,
    ⟨"Anthology", some "Book", []⟩]

def catalogueSchema : Schema where
  entries :=
    [⟨⟨"Author", none, [Field.filter "name"]⟩, [], [], [Field.filter "name"]⟩,
      ⟨⟨"Book", none, [{ Field.related "authors" "Author" with filterable := true }]⟩, [],
        ["Anthology"], [{ Field.related "authors" "Author" with filterable := true }]⟩,
      ⟨⟨"Anthology", some "Book", []⟩, ["Book"], [],
        [{ Field.related "authors" "Author" with filterable := true }]⟩]

/-- An author with a name. -/
def author (pk : Key) (name : String) : Record :=
  ⟨"Author", pk, SortedMap.ofList [("name", .text name)], ∅⟩

/-- A book, or an anthology, by some authors. -/
def written (model : String) (pk : Key) (authors : List Key) : Record :=
  ⟨model, pk, ∅, SortedMap.ofList [("authors", authors)]⟩

def catalogue : List Record :=
  [author 1 "Ada", author 2 "Blaise", author 3 "Alan", ⟨"Author", 4, ∅, ∅⟩, author 9 "Alonzo",
    written "Anthology" 5 [2, 3], written "Book" 1 [1, 9], written "Book" 2 [2],
    written "Book" 3 [9], written "Book" 4 [4]]

/-- The ninth author is removed again; the third book keeps the key. -/
def cataloguing : List StoreWrite := catalogue.map .insert ++ [.delete "Author" 9]

theorem mem_catalogue {r : Record}
    (h : ((Store.empty catalogueSchema).after cataloguing).Holds r) : r ∈ catalogue := by
  rcases List.mem_append.mp (Store.mem_of_holds_after h) with hr | hr
  · obtain ⟨r', hr', heq⟩ := List.mem_map.mp hr
    cases heq
    exact hr'
  · nomatch List.mem_singleton.mp hr

theorem keysFit_cataloguing : ((Store.empty catalogueSchema).after cataloguing).KeysFit := by
  have hfit : ∀ r ∈ catalogue, r.KeysFit := by decide
  exact fun r hr => hfit r (mem_catalogue hr)

/-- Authors whose name starts with a text, by descending name. -/
def authorsFrom (start : String) : RecordSet :=
  ((RecordSet.of "Author").filter "name" (.startsWith start)).orderBy ["-name"]

/-- Books by an author from the start of the alphabet, and books of which no author has a name. -/
def chosenBooks : RecordSet :=
  { RecordSet.of "Book" with predicate := some (.or
      (.and (.field "authors" (.within (authorsFrom "A") "pk"))
        (.not (.field "authors.name" (.isNull true))))
      (.field "authors.name" (.isNull true))) }

/-- The catalogue is so small that any ordering arranges it. -/
theorem sorts_cataloguing (set : RecordSet) :
    set.Sorts ((Store.empty catalogueSchema).after cataloguing) := by
  have hfew : catalogue.length ≤ insertionLimit := by decide
  exact sorts_of_arranges (fun _ _ => Store.arranges_of_sortable @mem_catalogue (Or.inl hfew)) set

end Concordance
