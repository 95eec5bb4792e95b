import Concordance.Proofs.RecordSet.Meaning
import Concordance.Proofs.Schema.Resolve

/-!
# Reading paths

The values of a path that has been resolved are those that the record has for the path. A path is
resolved segment by segment, and read relation by relation; `exists_reached` joins the two by an
induction on the segments.

* `exists_reading`: a path that was checked can be read.
* **`mem_values_iff`**: what a path reads on a stored record is what the record has for it.
* **`oversized_of_values`**: reading a path on a stored record fails only for a key that is no
  signed integer of 64 bits (`Store.Oversized`).
-/

namespace Concordance

variable {models : List Model} {st : Store}

/-! ## Keys -/

theorem signed64?_eq_some_iff {n : Int} {i : Int64} : signed64? n = some i ↔ i.toInt = n := by
  have hmin : Int64.minValue.toInt = -2 ^ 63 := by decide
  have hmax : Int64.maxValue.toInt = 2 ^ 63 - 1 := by decide
  have hlow := i.le_toInt
  have hhigh := i.toInt_lt
  unfold signed64?
  rw [hmin, hmax]
  split
  · rename_i h
    have htoInt : (Int64.ofInt n).toInt = n := Int64.toInt_ofInt_of_le (by omega) (by omega)
    rw [Option.some_inj, ← Int64.toInt_inj, htoInt, eq_comm]
  · exact iff_of_false nofun (by omega)

/-- A key is read as the integer that it is. -/
theorem keyValue_eq_ok_iff {pk : Key} {v : Value} : keyValue pk = .ok v ↔ IsKey pk v := by
  unfold keyValue IsKey
  simp only [← signed64?_eq_some_iff]
  cases signed64? pk.toNat <;> simp [eq_comm]

/-- A key that is not read is too large. -/
theorem error_of_keyValue {pk : Key} {e : Error} (h : keyValue pk = .error e) :
    2 ^ 63 ≤ pk.toNat ∧ e = .invalidValue (.keyRange pk) := by
  unfold keyValue at h
  cases hsigned : signed64? pk.toNat with
  | some i =>
    rw [hsigned] at h
    nomatch h
  | none =>
    rw [hsigned] at h
    refine ⟨?_, (Except.error.inj h).symm⟩
    by_contra hfits
    have htoInt : (Int64.ofInt pk.toNat).toInt = pk.toNat :=
      Int64.toInt_ofInt_of_le (by omega) (by omega)
    rw [signed64?_eq_some_iff.mpr htoInt] at hsigned
    nomatch hsigned

/-! ## Related records -/

theorem exists_getAll (hs : Schema.Built models st.schema) (hst : st.Filed) {model : String}
    (hmodel : st.schema.contains model = true) (pks : List Key) :
    ∃ found, st.getAll model pks = .ok found ∧
      ∀ r, r ∈ found ↔ st.Holds r ∧ r.pk ∈ pks ∧ st.schema.isSubtype r.model model = true := by
  obtain ⟨found, hfound, hmem⟩ :=
    exists_mapM_mem fun pk (_ : pk ∈ pks) => Store.exists_get hs hst hmodel pk
  refine ⟨found.filterMap id, ?_, fun r => ?_⟩
  · unfold Store.getAll
    rw [hfound]
    rfl
  · rw [List.mem_filterMap]
    refine (hmem r).trans ?_
    constructor
    · rintro ⟨_, hpk, hheld, rfl, hsub⟩
      exact ⟨hheld, hpk, hsub⟩
    · rintro ⟨hheld, hpk, hsub⟩
      exact ⟨r.pk, hpk, hheld, rfl, hsub⟩

/-! ## Paths -/

/-- A record shows a value in a field; a relation shows the keys that it refers to. -/
def Field.Shows (f : Field) (r : Record) (v : Value) : Prop :=
  match f.related? with
  | none => v = f.valueOf r
  | some _ => ∃ pk ∈ r.related f.name, IsKey pk v

/-- What a path of one segment reads. -/
theorem reads_singleton_iff {model name : String} {f : Field}
    (hfield : st.schema.field? model name = some f) {r : Record} {v : Value} :
    st.Reads model [name] r v ↔ f.Shows r v := by
  obtain ⟨-, -, -, hname⟩ := Schema.mem_of_field? hfield
  unfold Field.Shows
  constructor
  · intro h
    cases h with
    | value hfield' hplain =>
      rw [hfield] at hfield'
      cases hfield'
      rw [hplain]
    | key hfield' hrelated hpk hv =>
      rw [hfield] at hfield'
      cases hfield'
      rw [hrelated, hname]
      exact ⟨_, hpk, hv⟩
    | hop _ _ _ _ _ hrest => nomatch hrest
  · intro h
    cases hrelated : f.related? with
    | none =>
      rw [hrelated] at h
      rw [show v = f.valueOf r from h]
      exact .value hfield hrelated
    | some target =>
      rw [hrelated, hname] at h
      obtain ⟨pk, hpk, hv⟩ := h
      exact .key hfield hrelated hpk hv

/-- What a longer path reads, by way of its first relation. -/
theorem reads_cons_iff {model name target : String} {rest : List String} (hrest : rest ≠ [])
    {f : Field} (hfield : st.schema.field? model name = some f)
    (hrelated : f.related? = some target) {r : Record} {v : Value} :
    st.Reads model (name :: rest) r v ↔
      ∃ next, st.Holds next ∧ next.pk ∈ r.related name ∧
        st.schema.isSubtype next.model target = true ∧ st.Reads target rest next v := by
  constructor
  · intro h
    cases h with
    | value | key => exact absurd rfl hrest
    | hop hfield' hrelated' hnext hheld hmodel hreads =>
      rw [hfield] at hfield'
      cases hfield'
      rw [hrelated] at hrelated'
      cases hrelated'
      exact ⟨_, hheld, hnext, hmodel, hreads⟩
  · rintro ⟨next, hheld, hnext, hmodel, hreads⟩
    exact .hop hfield hrelated hnext hheld hmodel hreads

/-- **The records that a path leads to show what the path reads.** -/
theorem exists_reached (hs : Schema.Built models st.schema) (hst : st.Filed) {purpose : Purpose}
    {model : String} {segments : List String} {hops : List Hop} {last : String} {f : Field}
    (h : st.schema.follow purpose model segments = .ok (hops, last, f)) {rs : List Record}
    (hrs : ∀ r ∈ rs, st.Holds r) :
    ∃ ends, reached st hops rs = .ok ends ∧ (∀ r ∈ ends, st.Holds r) ∧
      ∀ v, (∃ r ∈ ends, f.Shows r v) ↔ ∃ r ∈ rs, st.Reads model segments r v := by
  fun_induction Schema.follow st.schema purpose model segments generalizing hops rs with
  | case1 => nomatch h
  | case2 => nomatch h
  | case3 => nomatch h
  | case4 model name g hfield hfault =>
    cases h
    refine ⟨rs, by rw [reached], hrs, fun v => ?_⟩
    exact exists_congr fun r => and_congr_right fun _ => (reads_singleton_iff hfield).symm
  | case5 => nomatch h
  | case6 => nomatch h
  | case7 model name rest hrest g hfield target hrelated ih =>
    obtain ⟨⟨hops', last', f'⟩, hfollow, heq⟩ := ok_of_map h
    cases heq
    obtain ⟨e, he, hmem, hname⟩ := Schema.mem_of_field? hfield
    have htarget := hs.contains_of_related he hmem hrelated
    -- the records one relation further on
    obtain ⟨next, hnext, hmem_next⟩ := exists_mapM_mem fun r (_ : r ∈ rs) =>
      exists_getAll hs hst htarget (r.related g.name)
    simp only [← List.mem_flatten, hname] at hmem_next
    obtain ⟨ends, hends, hheld, hshows⟩ := ih hfollow fun x hx => by
      obtain ⟨r, -, hx, -⟩ := (hmem_next x).mp hx
      exact hx
    refine ⟨ends, ?_, hheld, fun v => ?_⟩
    · rw [reached, hnext]
      exact hends
    · rw [hshows]
      constructor
      · rintro ⟨x, hx, hreads⟩
        obtain ⟨r, hr, hx⟩ := (hmem_next x).mp hx
        exact ⟨r, hr, (reads_cons_iff hrest hfield hrelated).mpr ⟨x, hx.1, hx.2.1, hx.2.2, hreads⟩⟩
      · rintro ⟨r, hr, hreads⟩
        obtain ⟨x, hx, hpk, hsub, hreads⟩ := (reads_cons_iff hrest hfield hrelated).mp hreads
        exact ⟨x, (hmem_next x).mpr ⟨r, hr, hx, hpk, hsub⟩, hreads⟩

/-! ## Readings -/

/-- A path that was checked can be read. -/
theorem exists_reading {s : Schema} {model path : String} {purpose : Purpose}
    (h : s.checkPath model path purpose = .ok ()) :
    ∃ reading, s.reading model path purpose = .ok reading := by
  unfold Schema.checkPath at h
  unfold Schema.reading
  split at h
  · rename_i hkey
    rw [if_pos hkey]
    exact ⟨_, rfl⟩
  · rename_i hkey
    obtain ⟨resolved, hresolved, -⟩ := ok_of_map h
    rw [if_neg hkey, hresolved]
    exact ⟨_, rfl⟩

/-- The values of a field at the end of a path. -/
theorem mem_endValues_iff {f : Field} {ends : List Record} {vs : List Value}
    (h : (if f.isRelation then (ends.flatMap fun e => e.related f.name).mapM keyValue
      else return ends.map f.valueOf) = Except.ok vs) (v : Value) :
    v ∈ vs ↔ ∃ r ∈ ends, f.Shows r v := by
  unfold Field.isRelation at h
  unfold Field.Shows
  cases hrelated : f.related? with
  | none =>
    rw [hrelated] at h
    cases h
    simp only [List.mem_map, eq_comm]
  | some target =>
    rw [hrelated] at h
    rw [mem_of_mapM h]
    simp only [List.mem_flatMap, keyValue_eq_ok_iff]
    constructor
    · rintro ⟨pk, ⟨r, hr, hpk⟩, hv⟩
      exact ⟨r, hr, pk, hpk, hv⟩
    · rintro ⟨r, hr, pk, hpk, hv⟩
      exact ⟨pk, ⟨r, hr, hpk⟩, hv⟩

section Values

variable (hs : Schema.Built models st.schema) (hst : st.Filed) {model path : String}
  {purpose : Purpose} {reading : Reading}
  (hreading : st.schema.reading model path purpose = .ok reading) {r : Record} (hr : st.Holds r)

include hs hst hreading hr

/-- What a reading is: that of the key, or of a path that leads somewhere. -/
theorem key_or_ends_of_reading :
    path = keyField ∧ reading = .key ∨
    path ≠ keyField ∧ ∃ resolved ends, reading = .path resolved ∧
      reached st resolved.hops [r] = .ok ends ∧ (∀ x ∈ ends, st.Holds x) ∧
      ∀ v, (∃ x ∈ ends, resolved.field.Shows x v) ↔ st.Reads model (Path.segments path) r v := by
  unfold Schema.reading at hreading
  split at hreading
  · rename_i hkey
    cases hreading
    exact Or.inl ⟨hkey, rfl⟩
  · rename_i hkey
    obtain ⟨resolved, hresolved, rfl⟩ := ok_of_map hreading
    have hself : ∀ x ∈ [r], st.Holds x := List.forall_mem_singleton.mpr hr
    obtain ⟨ends, hends, hheld, hshows⟩ :=
      exists_reached hs hst (Schema.follow_of_resolve hresolved) hself
    simp only [List.mem_singleton, exists_eq_left] at hshows
    exact Or.inr ⟨hkey, resolved, ends, rfl, hends, hheld, hshows⟩

/-- **Reading a path gives what the record has for it.** -/
theorem mem_values_iff {vs : List Value} (h : reading.values st r = .ok vs) (v : Value) :
    v ∈ vs ↔ st.Has model path r v := by
  unfold Store.Has
  obtain ⟨hkey, rfl⟩ | ⟨hkey, resolved, ends, rfl, hends, -, hshows⟩ :=
    key_or_ends_of_reading hs hst hreading hr
  · obtain ⟨w, hw, rfl⟩ := ok_of_map h
    rw [if_pos hkey, List.mem_singleton, ← keyValue_eq_ok_iff, hw, Except.ok.injEq, eq_comm]
  · rw [Reading.values, hends] at h
    rw [if_neg hkey, ← hshows]
    exact mem_endValues_iff h v

/-- **Reading a path fails only for an oversized key.** -/
theorem oversized_of_values {e : Error} (h : reading.values st r = .error e) :
    st.Oversized e := by
  obtain ⟨-, rfl⟩ | ⟨-, resolved, ends, rfl, hends, hheld, -⟩ :=
    key_or_ends_of_reading hs hst hreading hr
  · obtain ⟨hlarge, he⟩ := error_of_keyValue (error_of_map h)
    exact ⟨r, r.pk, hr, Or.inl rfl, hlarge, he⟩
  · rw [Reading.values, hends] at h
    replace h : (if resolved.field.isRelation then
        (ends.flatMap fun x => x.related resolved.field.name).mapM keyValue
      else return ends.map resolved.field.valueOf) = Except.error e := h
    split at h
    · obtain ⟨pk, hpk, h⟩ := error_of_mapM h
      obtain ⟨x, hx, hpk⟩ := List.mem_flatMap.mp hpk
      obtain ⟨hlarge, he⟩ := error_of_keyValue h
      exact ⟨x, pk, hheld x hx, Or.inr ⟨_, hpk⟩, hlarge, he⟩
    · nomatch h

end Values

end Concordance
