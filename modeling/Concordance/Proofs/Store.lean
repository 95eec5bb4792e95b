import Concordance.Proofs.Schema.Hierarchy
import Concordance.Store

/-!
# What a store holds

A store is known by the writes that made it (`StoreWrite`, `Store.after`). Whatever they were, each
record stands in the family of its type and under its key (`Filed`). What a store gives back for a
model is then told by the records alone: those that it `Holds` and that are of the model's type or
of one below, by ascending key (`exists_records`, `exists_get`).
-/

namespace Concordance

/-- A write to a store. -/
inductive StoreWrite where
  | insert (r : Record)
  | delete (model : String) (pk : Key)

/-- The store after a write; one that fails leaves it alone. -/
def StoreWrite.apply (st : Store) : StoreWrite → Store
  | insert r =>
    match st.insert r with
    | .ok st' => st'
    | .error _ => st
  | delete model pk =>
    match st.delete model pk with
    | .ok (_, st') => st'
    | .error _ => st

namespace Store

/-- The store after writes. -/
def after (st : Store) (ws : List StoreWrite) : Store := ws.foldl StoreWrite.apply st

/-- The record is stored. -/
def Holds (st : Store) (r : Record) : Prop := ∃ root, (st.family root).get? r.pk = some r

/-- Each record stands in the family of its type, under its key. -/
def Filed (st : Store) : Prop :=
  ∀ root pk r, (st.family root).get? pk = some r → r.pk = pk ∧ st.schema.rootOf r.model = .ok root

/-! ## One write -/

theorem family_insert (st : Store) (root q : String) (m : SortedMap Key Record) (version : Nat) :
    family { st with families := st.families.insert root m, version := version } q =
      if q = root then m else st.family q := by
  unfold family SortedMap.getD
  rw [SortedMap.get?_insert]
  split <;> rfl

/-- An insertion that succeeds writes to one key of one family. -/
theorem insert_ok {st st' : Store} {r : Record} (h : st.insert r = .ok st') :
    ∃ root, st.schema.rootOf r.model = .ok root ∧ st'.schema = st.schema ∧
      ∀ q pk, (st'.family q).get? pk =
        if q = root ∧ pk = r.pk then some r else (st.family q).get? pk := by
  obtain ⟨root, hroot, h⟩ := ok_of_bind h
  cases h
  refine ⟨root, hroot, rfl, fun q pk => ?_⟩
  rw [family_insert]
  by_cases hq : q = root
  · subst hq
    rw [if_pos rfl, SortedMap.get?_insert]
    simp
  · rw [if_neg hq, if_neg fun h => hq h.1]

/-- A deletion that succeeds gives what stood at one key of one family, and clears the key. -/
theorem delete_ok {st st' : Store} {model : String} {pk : Key} {removed : Option Record}
    (h : st.delete model pk = .ok (removed, st')) :
    ∃ root, st.schema.rootOf model = .ok root ∧ st'.schema = st.schema ∧
      removed = (st.family root).get? pk ∧
      ∀ q k, (st'.family q).get? k =
        if q = root ∧ k = pk then none else (st.family q).get? k := by
  obtain ⟨root, hroot, h⟩ := ok_of_bind h
  refine ⟨root, hroot, ?_⟩
  split at h
  · rename_i hnone
    cases h
    refine ⟨rfl, hnone.symm, fun q k => ?_⟩
    split
    · rename_i hqk
      rw [hqk.1, hqk.2, hnone]
    · rfl
  · rename_i r hsome
    cases h
    refine ⟨rfl, hsome.symm, fun q k => ?_⟩
    rw [family_insert]
    by_cases hq : q = root
    · subst hq
      rw [if_pos rfl, SortedMap.get?_erase]
      simp
    · rw [if_neg hq, if_neg fun h => hq h.1]

theorem apply_insert {st : Store} {r : Record} {root : String}
    (hroot : st.schema.rootOf r.model = .ok root) :
    st.insert r = .ok ((StoreWrite.insert r).apply st) := by
  have hok : ∃ st', st.insert r = .ok st' := by
    unfold insert
    rw [hroot]
    exact ⟨_, rfl⟩
  obtain ⟨st', hok⟩ := hok
  simp only [StoreWrite.apply, hok]

theorem apply_delete {st : Store} {model root : String}
    (hroot : st.schema.rootOf model = .ok root) (pk : Key) :
    st.delete model pk =
      .ok ((st.family root).get? pk, (StoreWrite.delete model pk).apply st) := by
  have hok : ∃ st', st.delete model pk = .ok ((st.family root).get? pk, st') := by
    unfold delete
    rw [hroot]
    cases hget : (st.family root).get? pk with
    | none => exact ⟨st, by simp only [bind, Except.bind, hget]; rfl⟩
    | some r => exact ⟨_, by simp only [bind, Except.bind, hget]; rfl⟩
  obtain ⟨st', hok⟩ := hok
  simp only [StoreWrite.apply, hok]

theorem get?_apply_insert {st : Store} {r : Record} {root : String}
    (hroot : st.schema.rootOf r.model = .ok root) (q : String) (pk : Key) :
    (((StoreWrite.insert r).apply st).family q).get? pk =
      if q = root ∧ pk = r.pk then some r else (st.family q).get? pk := by
  obtain ⟨top, htop, -, hget⟩ := insert_ok (apply_insert hroot)
  rw [hroot] at htop
  cases htop
  exact hget q pk

theorem get?_apply_delete {st : Store} {model root : String}
    (hroot : st.schema.rootOf model = .ok root) (pk : Key) (q : String) (k : Key) :
    (((StoreWrite.delete model pk).apply st).family q).get? k =
      if q = root ∧ k = pk then none else (st.family q).get? k := by
  obtain ⟨top, htop, -, -, hget⟩ := delete_ok (apply_delete hroot pk)
  rw [hroot] at htop
  cases htop
  exact hget q k

/-- A write for a model that is not declared fails. -/
theorem apply_insert_of_unknown {st : Store} {r : Record} {e : Error}
    (hroot : st.schema.rootOf r.model = .error e) : (StoreWrite.insert r).apply st = st := by
  have herror : st.insert r = .error e := by
    unfold insert
    rw [hroot]
    rfl
  simp only [StoreWrite.apply, herror]

theorem delete_of_unknown {st : Store} {model : String} {e : Error}
    (hroot : st.schema.rootOf model = .error e) (pk : Key) : st.delete model pk = .error e := by
  unfold delete
  rw [hroot]
  rfl

theorem apply_delete_of_unknown {st : Store} {model : String} {e : Error}
    (hroot : st.schema.rootOf model = .error e) (pk : Key) :
    (StoreWrite.delete model pk).apply st = st := by
  simp only [StoreWrite.apply, delete_of_unknown hroot]

/-- A deletion that finds nothing changes nothing. -/
theorem apply_delete_of_absent {st : Store} {model root : String} {pk : Key}
    (hroot : st.schema.rootOf model = .ok root) (hnone : (st.family root).get? pk = none) :
    (StoreWrite.delete model pk).apply st = st := by
  have hok : st.delete model pk = .ok (none, st) := by
    unfold delete
    rw [hroot]
    simp only [bind, Except.bind, hnone]
    rfl
  simp only [StoreWrite.apply, hok]

/-! ## Any writes -/

/-- A write leaves the store alone, or it is an insertion or a deletion that succeeds. -/
theorem apply_cases (st : Store) (w : StoreWrite) :
    w.apply st = st ∨ (∃ r, st.insert r = .ok (w.apply st)) ∨
      ∃ model pk removed, st.delete model pk = .ok (removed, w.apply st) := by
  cases w with
  | insert r =>
    cases h : st.insert r with
    | error e =>
      refine Or.inl ?_
      simp only [StoreWrite.apply, h]
    | ok st' =>
      refine Or.inr (Or.inl ⟨r, ?_⟩)
      simp only [StoreWrite.apply, h]
  | delete model pk =>
    rcases h : st.delete model pk with e | ⟨removed, st'⟩
    · refine Or.inl ?_
      simp only [StoreWrite.apply, h]
    · refine Or.inr (Or.inr ⟨model, pk, removed, ?_⟩)
      simp only [StoreWrite.apply, h]

theorem schema_apply (st : Store) (w : StoreWrite) : (w.apply st).schema = st.schema := by
  obtain h | ⟨r, h⟩ | ⟨model, pk, removed, h⟩ := apply_cases st w
  · rw [h]
  · obtain ⟨-, -, hschema, -⟩ := insert_ok h
    exact hschema
  · obtain ⟨-, -, hschema, -⟩ := delete_ok h
    exact hschema

theorem filed_insert {st st' : Store} (hst : Filed st) {r : Record} (h : st.insert r = .ok st') :
    Filed st' := by
  obtain ⟨root, hroot, hschema, hget⟩ := insert_ok h
  intro q pk r' hr'
  rw [hget] at hr'
  rw [hschema]
  split at hr'
  · rename_i hqk
    cases hr'
    exact ⟨hqk.2.symm, hqk.1 ▸ hroot⟩
  · exact hst q pk r' hr'

theorem filed_delete {st st' : Store} (hst : Filed st) {model : String} {pk : Key}
    {removed : Option Record} (h : st.delete model pk = .ok (removed, st')) : Filed st' := by
  obtain ⟨root, -, hschema, -, hget⟩ := delete_ok h
  intro q k r' hr'
  rw [hget] at hr'
  rw [hschema]
  split at hr'
  · nomatch hr'
  · exact hst q k r' hr'

theorem filed_apply {st : Store} (hst : Filed st) (w : StoreWrite) : Filed (w.apply st) := by
  obtain h | ⟨r, h⟩ | ⟨model, pk, removed, h⟩ := apply_cases st w
  · rw [h]
    exact hst
  · exact filed_insert hst h
  · exact filed_delete hst h

theorem schema_after (st : Store) (ws : List StoreWrite) : (st.after ws).schema = st.schema := by
  induction ws generalizing st with
  | nil => rfl
  | cons w ws ih => exact (ih (w.apply st)).trans (schema_apply st w)

theorem filed_after {st : Store} (hst : Filed st) (ws : List StoreWrite) : Filed (st.after ws) := by
  induction ws generalizing st with
  | nil => exact hst
  | cons w ws ih => exact ih (filed_apply hst w)

/-- **Every store that writes have made is filed.** -/
theorem filed_after_empty (schema : Schema) (ws : List StoreWrite) :
    Filed ((empty schema).after ws) := by
  have hempty : Filed (empty schema) := fun root pk r h => nomatch h
  exact filed_after hempty ws

/-- What is known of a store that writes have made over a schema. -/
theorem schema_and_filed {st : Store} {s : Schema} {ws : List StoreWrite}
    (h : st = (empty s).after ws) : st.schema = s ∧ Filed st := by
  rw [h]
  exact ⟨schema_after _ ws, filed_after_empty s ws⟩

/-- A record is stored because it was inserted. -/
theorem mem_of_holds_after {schema : Schema} {ws : List StoreWrite} {r : Record}
    (h : ((empty schema).after ws).Holds r) : .insert r ∈ ws := by
  induction ws using List.reverseRecOn with
  | nil =>
    obtain ⟨root, hget⟩ := h
    nomatch hget
  | append_singleton ws w ih =>
    obtain ⟨root, hget⟩ := h
    have hafter : (empty schema).after (ws ++ [w]) = w.apply ((empty schema).after ws) :=
      List.foldl_append
    rw [hafter] at hget
    have hearlier : ∀ q, (((empty schema).after ws).family q).get? r.pk = some r →
        StoreWrite.insert r ∈ ws ++ [w] := fun q hq => List.mem_append_left _ (ih ⟨q, hq⟩)
    cases w with
    | insert new =>
      cases hroot : ((empty schema).after ws).schema.rootOf new.model with
      | error e =>
        rw [apply_insert_of_unknown hroot] at hget
        exact hearlier root hget
      | ok top =>
        rw [get?_apply_insert hroot] at hget
        split at hget
        · cases hget
          exact List.mem_append_right _ List.mem_cons_self
        · exact hearlier root hget
    | delete model pk =>
      cases hroot : ((empty schema).after ws).schema.rootOf model with
      | error e =>
        rw [apply_delete_of_unknown hroot] at hget
        exact hearlier root hget
      | ok top =>
        rw [get?_apply_delete hroot] at hget
        split at hget
        · nomatch hget
        · exact hearlier root hget

/-! ## Reading -/

section Reading

variable {models : List Model} {st : Store}

theorem holds_iff (hst : Filed st) {r : Record} :
    st.Holds r ↔ ∃ root, st.schema.rootOf r.model = .ok root ∧
      (st.family root).get? r.pk = some r :=
  ⟨fun ⟨root, h⟩ => ⟨root, (hst root r.pk r h).2, h⟩, fun ⟨root, _, h⟩ => ⟨root, h⟩⟩

theorem mem_values_family (hst : Filed st) {root : String} {r : Record} :
    r ∈ (st.family root).values ↔ (st.family root).get? r.pk = some r := by
  unfold SortedMap.values
  rw [List.mem_map]
  constructor
  · rintro ⟨⟨pk, r'⟩, hmem, rfl⟩
    have hget := SortedMap.get?_eq_some_iff.mpr hmem
    rw [(hst root pk r' hget).1, hget]
  · exact fun h => ⟨(r.pk, r), SortedMap.get?_eq_some_iff.mp h, rfl⟩

/-- The records of a family are ascending by key. -/
theorem pairwise_values_family (hst : Filed st) (root : String) :
    (st.family root).values.Pairwise fun a b => a.pk < b.pk := by
  refine List.pairwise_map.mpr ((st.family root).sorted.imp_of_mem fun {a b} ha hb hlt => ?_)
  rw [(hst root a.1 a.2 (SortedMap.get?_eq_some_iff.mpr ha)).1,
    (hst root b.1 b.2 (SortedMap.get?_eq_some_iff.mpr hb)).1]
  exact Std.compare_eq_lt.mp hlt

variable (hs : Schema.Built models st.schema) (hst : Filed st)

include hs hst

/-- The records of a family that are of a type or of one below. -/
theorem holds_and_isSubtype_iff {model root : String} (hroot : st.schema.rootOf model = .ok root)
    {r : Record} :
    st.Holds r ∧ st.schema.isSubtype r.model model = true ↔
      (st.family root).get? r.pk = some r ∧ st.schema.isSubtype r.model model = true := by
  refine and_congr_left fun hsub => ⟨fun hr => ?_, fun hr => ⟨root, hr⟩⟩
  obtain ⟨top, htop, hget⟩ := (holds_iff hst).mp hr
  have hsame := hs.rootOf_eq_of_isSubtype htop hsub
  rw [hroot] at hsame
  cases hsame
  exact hget

/-- **What is read for a model are the records of its type and the types below.** -/
theorem exists_records {model : String} (hmodel : st.schema.contains model = true) :
    ∃ rs, st.records model = .ok rs ∧ (rs.Pairwise fun a b => a.pk < b.pk) ∧
      ∀ r, r ∈ rs ↔ st.Holds r ∧ st.schema.isSubtype r.model model = true := by
  obtain ⟨root, hroot⟩ := Schema.exists_rootOf hmodel
  refine ⟨(st.family root).values.filter fun r => st.schema.isSubtype r.model model, ?_,
    (pairwise_values_family hst root).filter _, fun r => ?_⟩
  · unfold records
    rw [hroot]
    rfl
  · rw [List.mem_filter, mem_values_family hst, holds_and_isSubtype_iff hs hst hroot]

theorem exists_get {model : String} (hmodel : st.schema.contains model = true) (pk : Key) :
    ∃ r?, st.get model pk = .ok r? ∧
      ∀ r, r? = some r ↔ st.Holds r ∧ r.pk = pk ∧ st.schema.isSubtype r.model model = true := by
  obtain ⟨root, hroot⟩ := Schema.exists_rootOf hmodel
  refine ⟨((st.family root).get? pk).filter fun r => st.schema.isSubtype r.model model, ?_,
    fun r => ?_⟩
  · unfold get
    rw [hroot]
    rfl
  · rw [Option.filter_eq_some_iff, and_left_comm, holds_and_isSubtype_iff hs hst hroot]
    constructor
    · rintro ⟨hget, hsub⟩
      obtain ⟨rfl, -⟩ := hst root pk r hget
      exact ⟨rfl, hget, hsub⟩
    · rintro ⟨rfl, hget, hsub⟩
      exact ⟨hget, hsub⟩

omit hs in
/-- All records of a family are records of its root. -/
theorem records_root {root : String} (hroot : st.schema.rootOf root = .ok root) :
    st.records root = .ok (st.family root).values := by
  have hall : (st.family root).values.filter (fun r => st.schema.isSubtype r.model root) =
      (st.family root).values := by
    refine List.filter_eq_self.mpr fun r hr => ?_
    exact Schema.isSubtype_of_rootOf (hst root r.pk r ((mem_values_family hst).mp hr)).2
  unfold records
  rw [hroot]
  exact congrArg Except.ok hall

end Reading

end Store

end Concordance
