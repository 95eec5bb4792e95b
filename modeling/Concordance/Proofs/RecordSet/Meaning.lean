import Concordance.Proofs.Store
import Concordance.RecordSet.Evaluate

/-!
# The meaning of record sets

What a record set is about, record by record and without evaluating anything.

* `Store.Reads` relates a record to the values that a path has on it: relations are followed to the
  records that the store holds, and a relation at the end is read as its keys.
* `Lookup.Met` asks for one of these values, whatever values they are; `Predicate.Met` combines
  lookups as classical logic does.
* `RecordSet.Selects` are the stored records of the set's model, or of a type below, that meet its
  predicate. A subquery asks for the records that it selects in its turn.

The definitions follow the syntax of sets and know neither the readings nor the conditions that
evaluation works with.
-/

namespace Concordance

/-- The value is the primary key, as a number. -/
def IsKey (pk : Key) (v : Value) : Prop := ∃ i : Int64, v = .int i ∧ i.toInt = pk.toNat

/-- The key of a record, and those that its relations refer to, are signed integers of 64 bits. -/
def Record.KeysFit (r : Record) : Prop :=
  r.pk.toNat < 2 ^ 63 ∧ ∀ keys ∈ r.relations.values, ∀ pk ∈ keys, pk.toNat < 2 ^ 63

-- the keys of a list are looked at one by one; there are too many keys to look at all
instance (r : Record) : Decidable r.KeysFit :=
  have : ∀ keys : List Key, Decidable (∀ pk ∈ keys, pk.toNat < 2 ^ 63) := List.decidableBAll _
  inferInstanceAs (Decidable (_ ∧ _))

theorem Record.KeysFit.related {r : Record} (h : r.KeysFit) {name : String} {pk : Key}
    (hpk : pk ∈ r.related name) : pk.toNat < 2 ^ 63 := by
  unfold Record.related SortedMap.getD at hpk
  cases hkeys : r.relations.get? name with
  | none =>
    rw [hkeys] at hpk
    exact absurd hpk List.not_mem_nil
  | some keys =>
    rw [hkeys] at hpk
    have hmem := SortedMap.get?_eq_some_iff.mp hkeys
    exact h.2 keys (List.mem_map_of_mem hmem) pk hpk

namespace Store

/-- A record of a model, or of a type below it, has a value at the end of a path, given by its
segments. -/
inductive Reads (st : Store) : String → List String → Record → Value → Prop
  | value {model name : String} {f : Field} {r : Record}
      (hfield : st.schema.field? model name = some f) (hplain : f.related? = none) :
      Reads st model [name] r (f.valueOf r)
  | key {model name target : String} {f : Field} {r : Record} {pk : Key} {v : Value}
      (hfield : st.schema.field? model name = some f) (hrelated : f.related? = some target)
      (hpk : pk ∈ r.related name) (hv : IsKey pk v) : Reads st model [name] r v
  | hop {model name target : String} {rest : List String} {f : Field} {r next : Record} {v : Value}
      (hfield : st.schema.field? model name = some f) (hrelated : f.related? = some target)
      (hnext : next.pk ∈ r.related name) (hheld : st.Holds next)
      (hmodel : st.schema.isSubtype next.model target = true)
      (hrest : Reads st target rest next v) : Reads st model (name :: rest) r v

/-- A record has a value for a path; the path `pk` is the primary key. -/
def Has (st : Store) (model path : String) (r : Record) (v : Value) : Prop :=
  if path = keyField then IsKey r.pk v else st.Reads model (Path.segments path) r v

/-- All stored records have keys that fit. -/
def KeysFit (st : Store) : Prop := ∀ r, st.Holds r → r.KeysFit

/-- The error reports a key beyond the signed integers of 64 bits, which a stored record has or
refers to. -/
def Oversized (st : Store) (e : Error) : Prop :=
  ∃ r pk, st.Holds r ∧ (pk = r.pk ∨ ∃ name, pk ∈ r.related name) ∧ 2 ^ 63 ≤ pk.toNat ∧
    e = .invalidValue (.keyRange pk)

/-- No key is too large where all keys fit. -/
theorem KeysFit.not_oversized {st : Store} (h : st.KeysFit) (e : Error) : ¬st.Oversized e := by
  rintro ⟨r, pk, hr, hpk, hlarge, -⟩
  obtain rfl | ⟨name, hpk⟩ := hpk
  · exact Nat.not_lt.mpr hlarge (h r hr).1
  · exact Nat.not_lt.mpr hlarge ((h r hr).related hpk)

end Store

/-- Orders of a value to the compared one that a comparison allows. -/
def Comparison.Allows : Comparison → Ordering → Prop
  | exact, o => o = .eq
  | lt, o => o = .lt
  | lte, o => o = .lt ∨ o = .eq
  | gt, o => o = .gt
  | gte, o => o = .gt ∨ o = .eq

mutual

/-- The record is one of the set. -/
def RecordSet.Selects (st : Store) : RecordSet → Record → Prop
  | ⟨model, predicate, _, _⟩, r =>
    st.Holds r ∧ st.schema.isSubtype r.model model = true ∧ conditionMet st model predicate r

/-- The record meets the condition of a set, if there is one. -/
def conditionMet (st : Store) (model : String) : Option Predicate → Record → Prop
  | none, _ => True
  | some p, r => p.Met st model r

/-- The record meets the predicate. -/
def Predicate.Met (st : Store) (model : String) : Predicate → Record → Prop
  | .field path lookup, r => lookup.Met st (st.Has model path r)
  | .and p q, r => p.Met st model r ∧ q.Met st model r
  | .or p q, r => p.Met st model r ∨ q.Met st model r
  | .not p, r => ¬p.Met st model r

/-- The values meet the lookup. -/
def Lookup.Met (st : Store) : Lookup → (Value → Prop) → Prop
  | .compare c w, has =>
    ∃ v, has v ∧ v ≠ .null ∧ ∃ o, v.compare w = some o ∧ c.Allows o
  | .oneOf ws, has => ∃ v, has v ∧ v ≠ .null ∧ ∃ w ∈ ws, v.matchesValue w = true
  | .within set field, has => ∃ v, has v ∧ v ≠ .null ∧
    ∃ r w, set.Selects st r ∧ st.Has set.model field r w ∧ v.matchesValue w = true
  | .isNull expected, has => (∀ v, has v → v = .null) ↔ expected = true
  | .startsWith start, has => ∃ s : String, has (.text s) ∧ start.toList <+: s.toList

end

theorem selects_iff {st : Store} {set : RecordSet} {r : Record} : set.Selects st r ↔
    st.Holds r ∧ st.schema.isSubtype r.model set.model = true ∧
      conditionMet st set.model set.predicate r := by
  obtain ⟨model, predicate, ordering, foreign⟩ := set
  rw [RecordSet.Selects]

/-- Only stored records are selected. -/
theorem RecordSet.Selects.holds {st : Store} {set : RecordSet} {r : Record}
    (h : set.Selects st r) : st.Holds r := (selects_iff.mp h).1

end Concordance
