import Concordance.Proofs.RecordSet.Reading
import Concordance.Search

/-!
# Sets that stay within one family

A set is local to a family if it and all its subqueries are over models of the family, and all
paths that it mentions are the key or plain fields of these models: no path goes along a relation.
Reading such a path looks at nothing but the record itself, and the records that are looked at are
those of the one family.

* `values_congr`, `decides_congr`: plain paths read no store.
* **`evaluate_congr`**: two stores over one schema that agree on a family evaluate the sets that are
  local to it alike, errors included; `hits_congr_family` says it of compiled searches.
-/

namespace Concordance

/-! ## Plain paths -/

/-- The path is the key or names a field of the model that is no relation. -/
def Schema.PlainPath (s : Schema) (model path : String) : Prop :=
  path = keyField ∨ ∃ name f, Path.segments path = [name] ∧ s.field? model name = some f ∧
    f.isRelation = false

/-- The reading looks at the record alone. -/
def Reading.Plain : Reading → Prop
  | .key => True
  | .path resolved => resolved.hops = [] ∧ resolved.field.isRelation = false

theorem plain_of_reading {s : Schema} {model path : String} {purpose : Purpose} {reading : Reading}
    (hpath : s.PlainPath model path) (h : s.reading model path purpose = .ok reading) :
    reading.Plain := by
  unfold Schema.reading at h
  split at h
  · cases h
    trivial
  · rename_i hkey
    obtain hkey' | ⟨name, f, hsegments, hfield, hplain⟩ := hpath
    · exact absurd hkey' hkey
    obtain ⟨resolved, hresolved, rfl⟩ := ok_of_map h
    have hfollow := Schema.follow_of_resolve hresolved
    rw [hsegments, Schema.follow, hfield] at hfollow
    dsimp only at hfollow
    split at hfollow
    · cases hfollow
    · injection hfollow with hfollow
      injection hfollow with hhops hfollow
      injection hfollow with _ hlast
      exact ⟨hhops.symm, hlast ▸ hplain⟩

/-- **Plain paths read no store.** -/
theorem Reading.Plain.values_congr {reading : Reading} (h : reading.Plain) (st st' : Store)
    (r : Record) : reading.values st' r = reading.values st r := by
  cases reading with
  | key => rfl
  | path resolved =>
    obtain ⟨hhops, hplain⟩ := h
    rw [values, values, hhops, reached, reached, hplain]

/-- All paths of the condition are plain. -/
def Condition.Plain : Condition → Prop
  | .field reading _ => reading.Plain
  | .and p q | .or p q => p.Plain ∧ q.Plain
  | .not p => p.Plain

theorem Condition.Plain.decides_congr {c : Condition} (h : c.Plain) (st st' : Store) (r : Record) :
    c.decides st' r = c.decides st r := by
  induction c with
  | field reading test => rw [decides, decides, Reading.Plain.values_congr h st st']
  | and p q ihp ihq => rw [decides, decides, ihp h.1, ihq h.2]
  | or p q ihp ihq => rw [decides, decides, ihp h.1, ihq h.2]
  | not p ih => rw [decides, decides, ih h]

/-! ## Local sets -/

mutual

/-- The set reads nothing but keys and plain fields of one family. -/
def RecordSet.Local (s : Schema) (root : String) : RecordSet → Prop
  | ⟨model, predicate, ordering, _⟩ =>
    s.rootOf model = .ok root ∧ conditionLocal s root model predicate ∧
      ∀ key ∈ ordering, s.PlainPath model key.field

/-- The condition of a set of records of a model reads nothing else. -/
def conditionLocal (s : Schema) (root model : String) : Option Predicate → Prop
  | none => True
  | some p => p.Local s root model

/-- The predicate on records of a model reads nothing else. -/
def Predicate.Local (s : Schema) (root model : String) : Predicate → Prop
  | .field path lookup => s.PlainPath model path ∧ lookup.Local s root
  | .and p q | .or p q => p.Local s root model ∧ q.Local s root model
  | .not p => p.Local s root model

/-- The subquery of the lookup reads nothing else. -/
def Lookup.Local (s : Schema) (root : String) : Lookup → Prop
  | .within set field => set.Local s root ∧ s.PlainPath set.model field
  | .compare _ _ | .oneOf _ | .isNull _ | .startsWith _ => True

end

theorem RecordSet.Local.rootOf {s : Schema} {root : String} {set : RecordSet}
    (h : set.Local s root) : s.rootOf set.model = .ok root := by
  obtain ⟨model, predicate, ordering, foreign⟩ := set
  rw [RecordSet.Local] at h
  exact h.1

theorem Predicate.Local.plain {st : Store} {root model : String} {p : Predicate} {c : Condition}
    (hp : p.Local st.schema root model) (h : p.compile st model = .ok c) : c.Plain := by
  match p with
  | .field path lookup =>
    rw [Predicate.Local] at hp
    rw [Predicate.compile] at h
    obtain ⟨reading, hreading, h⟩ := ok_of_bind h
    obtain ⟨test, -, h⟩ := ok_of_bind h
    cases h
    exact plain_of_reading hp.1 hreading
  | .and p q =>
    rw [Predicate.Local] at hp
    rw [Predicate.compile] at h
    obtain ⟨c, hc, h⟩ := ok_of_bind h
    obtain ⟨d, hd, h⟩ := ok_of_bind h
    cases h
    exact ⟨hp.1.plain hc, hp.2.plain hd⟩
  | .or p q =>
    rw [Predicate.Local] at hp
    rw [Predicate.compile] at h
    obtain ⟨c, hc, h⟩ := ok_of_bind h
    obtain ⟨d, hd, h⟩ := ok_of_bind h
    cases h
    exact ⟨hp.1.plain hc, hp.2.plain hd⟩
  | .not p =>
    rw [Predicate.Local] at hp
    rw [Predicate.compile] at h
    obtain ⟨d, hd, h⟩ := ok_of_bind h
    cases h
    have hplain : d.Plain := Predicate.Local.plain hp hd
    exact hplain

theorem plain_of_compileCondition {st : Store} {root model : String} {predicate : Option Predicate}
    {c : Condition} (hlocal : conditionLocal st.schema root model predicate)
    (h : compileCondition st model predicate = .ok (some c)) : c.Plain := by
  cases predicate with
  | none =>
    rw [compileCondition] at h
    cases h
  | some p =>
    rw [conditionLocal] at hlocal
    rw [compileCondition] at h
    obtain ⟨d, hd, heq⟩ := ok_of_map h
    cases heq
    exact Predicate.Local.plain hlocal hd

/-! ## Two stores that agree on a family -/

/-- Two stores over one schema hold the same records of a family. -/
structure Store.AgreeOn (root : String) (st st' : Store) : Prop where
  schema : st'.schema = st.schema
  family : st'.family root = st.family root

section Agree

variable {root : String} {st st' : Store} (hagree : Store.AgreeOn root st st')

include hagree

theorem records_congr {model : String} (hroot : st.schema.rootOf model = .ok root) :
    st'.records model = st.records model := by
  unfold Store.records
  rw [hagree.schema, hroot]
  show Except.ok _ = Except.ok _
  rw [hagree.family]

theorem arrange_congr {model : String} {ordering : List OrderKey}
    (hordering : ∀ key ∈ ordering, st.schema.PlainPath model key.field) (rs : List Record) :
    arrange st' model ordering rs = arrange st model ordering rs := by
  unfold arrange
  split
  · rfl
  rw [hagree.schema]
  cases hreadings : ordering.mapM fun key => st.schema.reading model key.field .order with
  | error e => simp only [bind, Except.bind]
  | ok readings =>
    have hplain : ∀ reading ∈ readings, reading.Plain := by
      intro reading hmem
      obtain ⟨key, hkey, hreading⟩ := (mem_of_mapM hreadings).mp hmem
      exact plain_of_reading (hordering key hkey) hreading
    have hsort : ∀ r, readings.mapM (Reading.sortValue st' r) =
        readings.mapM (Reading.sortValue st r) := fun r => mapM_congr fun reading hmem => by
      unfold Reading.sortValue
      rw [(hplain reading hmem).values_congr st st']
    simp only [bind, Except.bind, hsort]

/-- A local set whose condition compiles alike is evaluated alike. -/
theorem evaluate_congr_of_condition {model : String} {predicate : Option Predicate}
    {ordering : List OrderKey} {foreign : Option String}
    (hlocal : RecordSet.Local st.schema root ⟨model, predicate, ordering, foreign⟩)
    (hcompile : compileCondition st' model predicate = compileCondition st model predicate) :
    RecordSet.evaluate st' ⟨model, predicate, ordering, foreign⟩ =
      RecordSet.evaluate st ⟨model, predicate, ordering, foreign⟩ := by
  rw [RecordSet.Local] at hlocal
  obtain ⟨hroot, hcondition, hordering⟩ := hlocal
  rw [RecordSet.evaluate, RecordSet.evaluate, hagree.schema, records_congr hagree hroot, hcompile]
  cases hcompiled : compileCondition st model predicate with
  | error e => simp only [bind, Except.bind]
  | ok condition =>
    cases condition with
    | none => simp only [bind, Except.bind, arrange_congr hagree hordering]
    | some c =>
      have hdecides : ∀ r, c.decides st' r = c.decides st r :=
        (plain_of_compileCondition hcondition hcompiled).decides_congr st st'
      simp only [bind, Except.bind, hdecides, arrange_congr hagree hordering]

mutual

/-- **A set that is local to a family is evaluated on the records of the family alone.** -/
theorem evaluate_congr : ∀ set : RecordSet, set.Local st.schema root →
    set.evaluate st' = set.evaluate st
  | ⟨model, none, ordering, foreign⟩, hlocal =>
    evaluate_congr_of_condition hagree hlocal (by rw [compileCondition, compileCondition])
  | ⟨model, some p, ordering, foreign⟩, hlocal => by
    refine evaluate_congr_of_condition hagree hlocal ?_
    rw [RecordSet.Local, conditionLocal] at hlocal
    rw [compileCondition, compileCondition, compile_congr model p hlocal.2.1]

/-- A local predicate compiles to the same condition. -/
theorem compile_congr (model : String) : ∀ p : Predicate, p.Local st.schema root model →
    p.compile st' model = p.compile st model
  | .field path lookup, hlocal => by
    rw [Predicate.Local] at hlocal
    rw [Predicate.compile, Predicate.compile, hagree.schema, test_congr lookup hlocal.2]
  | .and p q, hlocal => by
    rw [Predicate.Local] at hlocal
    rw [Predicate.compile, Predicate.compile, compile_congr model p hlocal.1,
      compile_congr model q hlocal.2]
  | .or p q, hlocal => by
    rw [Predicate.Local] at hlocal
    rw [Predicate.compile, Predicate.compile, compile_congr model p hlocal.1,
      compile_congr model q hlocal.2]
  | .not p, hlocal => by
    rw [Predicate.Local] at hlocal
    rw [Predicate.compile, Predicate.compile, compile_congr model p hlocal]

/-- A local lookup compiles to the same test. -/
theorem test_congr : ∀ lookup : Lookup, lookup.Local st.schema root →
    lookup.compile st' = lookup.compile st
  | .compare _ _, _ | .oneOf _, _ | .isNull _, _ | .startsWith _, _ => by
    rw [Lookup.compile, Lookup.compile]
  | .within set field, hlocal => by
    rw [Lookup.Local] at hlocal
    rw [Lookup.compile, Lookup.compile, hagree.schema, evaluate_congr set hlocal.1]
    cases hreading : st.schema.reading set.model field .filter with
    | error e => simp only [bind, Except.bind]
    | ok reading =>
      have hvalues : ∀ r, reading.values st' r = reading.values st r :=
        (plain_of_reading hlocal.2 hreading).values_congr st st'
      simp only [bind, Except.bind, hvalues]

end

/-- **So are the searches among such a set.** -/
theorem CompiledSearch.hits_congr_family {c : CompiledSearch}
    (hlocal : c.records.Local st.schema root) (ix : InvertedIndex) (scorer : Scorer) :
    c.hits st' ix scorer = c.hits st ix scorer := by
  unfold hits
  rw [evaluate_congr hagree c.records hlocal, hagree.schema]

end Agree

end Concordance
