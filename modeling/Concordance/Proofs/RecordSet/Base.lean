import Concordance.Proofs.Sort
import Concordance.Proofs.Store
import Concordance.RecordSet.Evaluate

/-!
# What an evaluation starts from and keeps

Whatever a record set asks for, and also where keys are too large for it to be evaluated on other
stores, an evaluation that succeeds gives stored records of the set's model. It reads them in the
order of their keys, keeps some of them, and an ordering rearranges those (`arrange_ok`). So no key
comes twice.

* **`base_of_evaluate`**: what a set is evaluated to are stored records of its family with distinct
  keys, and they are ascending by key where there is no ordering.
-/

namespace Concordance

variable {st : Store}

/-- Pairing records with their sort values loses none of them. -/
theorem map_snd_decorated {sortValues : Record → Result (List Value)} {rs : List Record}
    {decorated : List (List Value × Record)}
    (h : (rs.mapM fun r => do return (← sortValues r, r)) = .ok decorated) :
    decorated.map Prod.snd = rs := by
  replace h := forall₂_of_mapM h
  induction h with
  | nil => rfl
  | cons hd _ ih =>
    obtain ⟨values, -, hd⟩ := ok_of_bind hd
    cases hd
    rw [List.map_cons, ih]

/-- **An ordering rearranges the records**, and they stay as they are without one. -/
theorem arrange_ok {model : String} {ordering : List OrderKey} {rs arranged : List Record}
    (h : arrange st model ordering rs = .ok arranged) :
    arranged.Perm rs ∧ (ordering = [] → arranged = rs) := by
  unfold arrange at h
  split at h
  · cases h
    exact ⟨.refl _, fun _ => rfl⟩
  · rename_i hsome
    obtain ⟨readings, -, h⟩ := ok_of_bind h
    obtain ⟨decorated, hdecorated, h⟩ := ok_of_bind h
    obtain ⟨sorted, hsorted, rfl⟩ := ok_of_map h
    obtain ⟨-, rfl⟩ := sortBy_eq_ok_iff.mp hsorted
    refine ⟨?_, fun hnone => absurd (List.isEmpty_iff.mpr hnone) hsome⟩
    have hperm := (perm_stableSort (compareSorted ordering) decorated).map Prod.snd
    rwa [map_snd_decorated hdecorated] at hperm

/-- What an evaluation keeps of the records of the model, and how it arranges them. -/
theorem kept_of_evaluate {set : RecordSet} {base : List Record}
    (h : set.evaluate st = .ok base) :
    ∃ all kept, st.records set.model = .ok all ∧ kept.Sublist all ∧ base.Perm kept ∧
      (set.ordering = [] → base = kept) := by
  obtain ⟨model, predicate, ordering, foreign⟩ := set
  rw [RecordSet.evaluate] at h
  obtain ⟨_, -, h⟩ := ok_of_bind h
  obtain ⟨condition, -, h⟩ := ok_of_bind h
  obtain ⟨all, hall, h⟩ := ok_of_bind h
  obtain ⟨kept, hkept, h⟩ := ok_of_bind h
  exact ⟨all, kept, hall, sublist_of_filterM hkept, arrange_ok h⟩

/-- **What a set is evaluated to**: stored records of the model and the types below, no two with one
key, and by ascending key if the set has no ordering. -/
theorem base_of_evaluate (hst : st.Filed) {set : RecordSet} {base : List Record}
    (h : set.evaluate st = .ok base) :
    (∃ root, st.schema.rootOf set.model = .ok root ∧ ∀ r ∈ base,
      (st.family root).get? r.pk = some r ∧ st.schema.isSubtype r.model set.model = true) ∧
    (base.map Record.pk).Nodup ∧
    (set.ordering = [] → base.Pairwise fun a b => a.pk < b.pk) := by
  obtain ⟨all, kept, hall, hsub, hperm, hplain⟩ := kept_of_evaluate h
  obtain ⟨root, hroot, hall⟩ := ok_of_bind hall
  cases hall
  have hascending : kept.Pairwise fun a b => a.pk < b.pk :=
    ((Store.pairwise_values_family hst root).filter _).sublist hsub
  refine ⟨⟨root, hroot, fun r hr => ?_⟩, ?_, fun hnone => hplain hnone ▸ hascending⟩
  · obtain ⟨hvalue, hmodel⟩ := List.mem_filter.mp (hsub.subset (hperm.mem_iff.mp hr))
    exact ⟨(Store.mem_values_family hst).mp hvalue, hmodel⟩
  · rw [(hperm.map Record.pk).nodup_iff]
    exact List.pairwise_map.mpr (hascending.imp fun hlt => UInt64.ne_of_lt hlt)

/-! ## Validity -/

/-- When a set is valid. -/
theorem validate_iff {s : Schema} {model : String} {predicate : Option Predicate}
    {ordering : List OrderKey} {foreign : Option String} :
    RecordSet.validate s ⟨model, predicate, ordering, foreign⟩ = .ok () ↔
      s.contains model = true ∧ foreign = none ∧ validateCondition s model predicate = .ok () ∧
        ∀ key ∈ ordering, s.checkPath model key.field .order = .ok () := by
  rw [RecordSet.validate]
  cases hmodel : s.contains model with
  | false => exact iff_of_false (fun h => nomatch h) (fun h => nomatch h.1)
  | true =>
    cases foreign with
    | some other => exact iff_of_false (fun h => nomatch h) (fun h => nomatch h.2.1)
    | none =>
      constructor
      · intro h
        obtain ⟨_, hpredicate, hordering⟩ := ok_of_bind h
        exact ⟨rfl, rfl, hpredicate, forM_ok_iff.mp hordering⟩
      · rintro ⟨-, -, hpredicate, hordering⟩
        show (validateCondition s model predicate >>= _) = _
        rw [hpredicate]
        exact forM_ok_iff.mpr hordering

/-! ## All records of a model -/

theorem validate_of {s : Schema} {model : String} (hmodel : s.contains model = true) :
    (RecordSet.of model).validate s = .ok () := by
  unfold RecordSet.of
  rw [RecordSet.validate, hmodel]
  rfl

/-- A set without condition and ordering is evaluated to all records of its model. -/
theorem evaluate_of {model : String} (hmodel : st.schema.contains model = true) :
    (RecordSet.of model).evaluate st = st.records model := by
  have hvalid : RecordSet.validate st.schema ⟨model, none, [], none⟩ = .ok () :=
    validate_of hmodel
  unfold RecordSet.of
  rw [RecordSet.evaluate, hvalid]
  show (st.records model >>= fun all => all.filterM (fun _ => .ok true) >>= arrange st model []) = _
  cases st.records model with
  | error e => rfl
  | ok all =>
    show (all.filterM (fun _ => .ok true) >>= arrange st model []) = _
    rw [filterM_ok (p := fun _ => true) fun _ _ => rfl, List.filter_true]
    rfl

end Concordance
