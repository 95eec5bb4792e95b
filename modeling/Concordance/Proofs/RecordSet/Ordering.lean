import Concordance.Proofs.RecordSet.Base
import Concordance.Proofs.RecordSet.Reading

/-!
# What orderings sort by

An ordering sorts records by the first value that each of its paths has on them (`Store.sortValue`),
in the direction of its key, and by primary key in the end (`Store.compareBy`). Evaluation reads all
values of a record beforehand and sorts the records with their values; that is the same
(`sortValue_eq`, `sortBy_of_arrange`).

The order of values is none where integers and floats meet, and a sort of more than a few records
depends on it. `RecordSet.Sorts` says of a set, and of the sets within it, that each selects records
that can be sorted: there are few of them, or their sort values are ordered. It is about what a set
means and knows no evaluation.
-/

namespace Concordance

/-- A primary key as a value. -/
def Key.value (pk : Key) : Value := .int (Int64.ofInt pk.toNat)

namespace Store

/-- The first value at the end of a path, given by its segments. Relations are followed in the order
of their keys, and a key that leads to no value is passed over. -/
def first? (st : Store) (model : String) : List String → Record → Option Value
  | [], _ => none
  | [name], r => do
    let f ← st.schema.field? model name
    match f.related? with
    | none => some (f.valueOf r)
    | some _ => (r.related name).head?.map Key.value
  | name :: rest, r => do
    let f ← st.schema.field? model name
    let target ← f.related?
    (r.related name).findSome? fun pk =>
      match st.get target pk with
      | .ok (some next) => st.first? target rest next
      | _ => none

/-- The value that a path sorts a record by. -/
def sortValue (st : Store) (model path : String) (r : Record) : Value :=
  if path = keyField then r.pk.value else (st.first? model (Path.segments path) r).getD .null

end Store

/-- The order of two values in the direction of an ordering key. -/
def OrderKey.order (key : OrderKey) (a b : Value) : Ordering :=
  if key.descending then (a.order b).swap else a.order b

variable {st : Store}

/-! ## First values -/

theorem value_of_keyValue {pk : Key} {v : Value} (h : keyValue pk = .ok v) : v = pk.value := by
  unfold keyValue signed64? at h
  split at h
  · rename_i hfit
    split at hfit
    · cases hfit
      cases h
      rfl
    · nomatch hfit
  · nomatch h

theorem values_of_mapM_keyValue {pks : List Key} {vs : List Value}
    (h : pks.mapM keyValue = .ok vs) : vs = pks.map Key.value := by
  replace h := forall₂_of_mapM h
  induction h with
  | nil => rfl
  | cons hv _ ih => rw [List.map_cons, ih, value_of_keyValue hv]

/-- What is found first among the records at some keys. -/
theorem findSome?_getAll {model : String} {pks : List Key} {found : List Record}
    (h : st.getAll model pks = .ok found) (g : Record → Option Value) :
    found.findSome? g = pks.findSome? fun pk =>
      match st.get model pk with
      | .ok (some next) => g next
      | _ => none := by
  obtain ⟨gotten, hgotten, rfl⟩ := ok_of_map h
  clear h
  replace hgotten := forall₂_of_mapM hgotten
  induction hgotten with
  | nil => rfl
  | @cons pk got pks gotten hget _ ih =>
    rw [List.findSome?_cons, hget, ← ih]
    cases got <;> rfl

/-- What is found first among lists that are read off some elements. -/
theorem findSome?_flatten_of_mapM {α β γ : Type} {f : α → Result (List β)} {xs : List α}
    {yss : List (List β)} (h : xs.mapM f = .ok yss) (g : β → Option γ) (first : α → Option γ)
    (hfirst : ∀ x ∈ xs, ∀ ys, f x = .ok ys → ys.findSome? g = first x) :
    yss.flatten.findSome? g = xs.findSome? first := by
  replace h := forall₂_of_mapM h
  induction h with
  | nil => rfl
  | @cons x ys xs yss hx _ ih =>
    rw [List.flatten_cons, List.findSome?_append, List.findSome?_cons,
      hfirst x List.mem_cons_self ys hx, ih fun x hx => hfirst x (List.mem_cons_of_mem _ hx)]
    cases first x <;> rfl

/-- The first value of a longer path, by way of its first relation. -/
theorem first?_cons {model name target : String} {rest : List String} (hrest : rest ≠ [])
    {f : Field} (hfield : st.schema.field? model name = some f)
    (hrelated : f.related? = some target) (r : Record) :
    st.first? model (name :: rest) r = (r.related name).findSome? fun pk =>
      match st.get target pk with
      | .ok (some next) => st.first? target rest next
      | _ => none := by
  cases rest with
  | nil => exact absurd rfl hrest
  | cons second rest =>
    simp only [Store.first?, hfield, hrelated, Option.bind_eq_bind, Option.bind_some]

/-- The first value of a field at the end of a path. -/
theorem head?_of_endValues {model name : String} {f : Field}
    (hfield : st.schema.field? model name = some f) {ends : List Record} {vs : List Value}
    (h : (if f.isRelation then (ends.flatMap fun e => e.related f.name).mapM keyValue
        else return ends.map f.valueOf) = Except.ok vs) :
    vs.head? = ends.findSome? (st.first? model [name]) := by
  obtain ⟨-, -, -, hname⟩ := Schema.mem_of_field? hfield
  unfold Field.isRelation at h
  cases hrelated : f.related? with
  | none =>
    rw [hrelated] at h
    cases h
    have hfirst : st.first? model [name] = some ∘ f.valueOf := by
      funext r
      simp [Store.first?, hfield, hrelated]
    rw [hfirst, List.head?_map, ← List.findSome?_map]
    cases ends <;> rfl
  | some target =>
    rw [hrelated] at h
    rw [values_of_mapM_keyValue h, List.head?_map, List.head?_flatMap, List.map_findSome?, hname]
    congr 1
    funext r
    simp [Store.first?, hfield, hrelated]

/-- **The first value that a path reads** on some records is the first that one of them has. -/
theorem head?_of_reached {purpose : Purpose} {model : String} {segments : List String}
    {hops : List Hop} {last : String} {f : Field}
    (h : st.schema.follow purpose model segments = .ok (hops, last, f)) {rs ends : List Record}
    (hends : reached st hops rs = .ok ends) {vs : List Value}
    (hvs : (if f.isRelation then (ends.flatMap fun e => e.related f.name).mapM keyValue
        else return ends.map f.valueOf) = Except.ok vs) :
    vs.head? = rs.findSome? (st.first? model segments) := by
  fun_induction Schema.follow st.schema purpose model segments generalizing hops rs with
  | case1 | case2 | case3 => cases h
  | case4 model name g hfield hfault =>
    cases h
    rw [reached] at hends
    cases hends
    exact head?_of_endValues hfield hvs
  | case5 | case6 => cases h
  | case7 model name rest hrest g hfield target hrelated ih =>
    obtain ⟨⟨hops', last', f'⟩, hfollow, heq⟩ := ok_of_map h
    cases heq
    obtain ⟨-, -, -, hname⟩ := Schema.mem_of_field? hfield
    rw [reached] at hends
    obtain ⟨next, hnext, hends⟩ := ok_of_bind hends
    rw [ih hfollow hends]
    refine findSome?_flatten_of_mapM hnext _ _ fun r _ found hfound => ?_
    rw [findSome?_getAll hfound, hname, first?_cons hrest hfield hrelated]

/-- **What a reading sorts a record by** is the first value that the record has for the path. -/
theorem sortValue_eq {model path : String} {purpose : Purpose} {reading : Reading}
    (hreading : st.schema.reading model path purpose = .ok reading) {r : Record} {v : Value}
    (hv : reading.sortValue st r = .ok v) : v = st.sortValue model path r := by
  obtain ⟨vs, hvs, rfl⟩ := ok_of_map hv
  unfold Schema.reading at hreading
  unfold Store.sortValue
  split at hreading
  · rename_i hkey
    cases hreading
    obtain ⟨w, hw, rfl⟩ := ok_of_map hvs
    rw [if_pos hkey, value_of_keyValue hw]
    rfl
  · rename_i hkey
    obtain ⟨resolved, hresolved, rfl⟩ := ok_of_map hreading
    obtain ⟨ends, hends, hvs⟩ := ok_of_bind hvs
    have hfirst := head?_of_reached (Schema.follow_of_resolve hresolved) hends hvs
    rw [if_neg hkey, List.headD_eq_head?_getD, hfirst, List.findSome?_singleton]

/-! ## The order of records -/

/-- The order of two records by an ordering, and by their primary keys in the end. -/
def Store.compareBy (st : Store) (model : String) : List OrderKey → Record → Record → Ordering
  | [], a, b => compare a.pk b.pk
  | key :: rest, a, b =>
    (key.order (st.sortValue model key.field a) (st.sortValue model key.field b)).then
      (st.compareBy model rest a b)

/-- The sort values of a record for an ordering. -/
def Store.sortValues (st : Store) (model : String) (ordering : List OrderKey) (r : Record) :
    List Value :=
  ordering.map fun key => st.sortValue model key.field r

theorem compareSorted_eq {model : String} (ordering : List OrderKey) (a b : Record) :
    compareSorted ordering (st.sortValues model ordering a, a) (st.sortValues model ordering b, b) =
      st.compareBy model ordering a b := by
  unfold compareSorted Store.sortValues
  induction ordering with
  | nil => rfl
  | cons key rest ih =>
    rw [Store.compareBy, ← ih]
    rfl

/-- To sort records with their sort values is to sort the records by these. -/
theorem map_snd_sortBy (model : String) (ordering : List OrderKey) (rs : List Record) :
    List.map Prod.snd <$>
        sortBy (compareSorted ordering) (rs.map fun r => (st.sortValues model ordering r, r)) =
      sortBy (st.compareBy model ordering) rs := by
  rw [sortBy_map]
  simp only [compareSorted_eq]
  cases sortBy (fun a b => st.compareBy model ordering a b) rs with
  | error e => rfl
  | ok sorted =>
    show Except.ok ((sorted.map fun r => (st.sortValues model ordering r, r)).map Prod.snd) = _
    rw [List.map_map]
    exact congrArg Except.ok (List.map_id _)

theorem sortValues_eq {model : String} {ordering : List OrderKey} {readings : List Reading}
    (hreadings : (ordering.mapM fun key => st.schema.reading model key.field .order) = .ok readings)
    {r : Record} {values : List Value}
    (hvalues : readings.mapM (Reading.sortValue st r) = .ok values) :
    values = st.sortValues model ordering r := by
  replace hreadings := forall₂_of_mapM hreadings
  replace hvalues := forall₂_of_mapM hvalues
  unfold Store.sortValues
  induction hreadings generalizing values with
  | nil =>
    cases hvalues
    rfl
  | cons hreading _ ih =>
    cases hvalues with
    | cons hv hvs => rw [List.map_cons, sortValue_eq hreading hv, ih hvs]

theorem decorated_eq {model : String} {ordering : List OrderKey} {readings : List Reading}
    (hreadings : (ordering.mapM fun key => st.schema.reading model key.field .order) = .ok readings)
    {rs : List Record} {decorated : List (List Value × Record)}
    (h : (rs.mapM fun r => do return (← readings.mapM (Reading.sortValue st r), r)) =
      .ok decorated) :
    decorated = rs.map fun r => (st.sortValues model ordering r, r) := by
  replace h := forall₂_of_mapM h
  induction h with
  | nil => rfl
  | cons hd _ ih =>
    obtain ⟨values, hvalues, hd⟩ := ok_of_bind hd
    cases hd
    rw [List.map_cons, ih, sortValues_eq hreadings hvalues]

/-- **An ordering sorts the records** by their sort values, then by primary key. -/
theorem sortBy_of_arrange {model : String} {ordering : List OrderKey} (hsome : ordering ≠ [])
    {rs arranged : List Record} (h : arrange st model ordering rs = .ok arranged) :
    sortBy (st.compareBy model ordering) rs = .ok arranged := by
  unfold arrange at h
  rw [if_neg (mt List.isEmpty_iff.mp hsome)] at h
  obtain ⟨readings, hreadings, h⟩ := ok_of_bind h
  obtain ⟨decorated, hdecorated, h⟩ := ok_of_bind h
  rwa [decorated_eq hreadings hdecorated, map_snd_sortBy] at h

theorem validate_unordered {set : RecordSet} (h : set.validate st.schema = .ok ()) :
    { set with ordering := [] }.validate st.schema = .ok () := by
  obtain ⟨model, predicate, ordering, foreign⟩ := set
  obtain ⟨hmodel, hforeign, hpredicate, -⟩ := validate_iff.mp h
  exact validate_iff.mpr
    ⟨hmodel, hforeign, hpredicate, fun _ hkey => absurd hkey List.not_mem_nil⟩

/-- **An ordering arranges what the set has without it.** -/
theorem evaluate_eq_arrange {set : RecordSet} (h : set.validate st.schema = .ok ()) :
    set.evaluate st =
      { set with ordering := [] }.evaluate st >>= arrange st set.model set.ordering := by
  have hplain := validate_unordered h
  obtain ⟨model, predicate, ordering, foreign⟩ := set
  rw [RecordSet.evaluate, RecordSet.evaluate, h, hplain]
  simp only [bind_assoc]
  rfl

theorem validate_of_evaluate {set : RecordSet} {rs : List Record}
    (h : set.evaluate st = .ok rs) : set.validate st.schema = .ok () := by
  obtain ⟨model, predicate, ordering, foreign⟩ := set
  rw [RecordSet.evaluate] at h
  exact (ok_of_bind h).elim fun _ h => h.1

/-- A set that is evaluated is so without its ordering. -/
theorem unordered_of_evaluate {set : RecordSet} {rs : List Record} (h : set.evaluate st = .ok rs) :
    ∃ plain, { set with ordering := [] }.evaluate st = .ok plain ∧
      arrange st set.model set.ordering plain = .ok rs := by
  rw [evaluate_eq_arrange (validate_of_evaluate h)] at h
  exact ok_of_bind h

/-! ## Sets that can be sorted -/

/-- Records of a kind can be sorted by an ordering, as many of them as there may be. -/
def Store.Arranges (st : Store) (model : String) (ordering : List OrderKey)
    (P : Record → Prop) : Prop :=
  ∀ rs : List Record, rs.Nodup → (∀ r ∈ rs, P r) → Sortable (st.compareBy model ordering) rs

mutual

/-- What the set selects can be sorted, and so can what is selected within it. Without an ordering
anywhere there is nothing to ask for (`Store.arranges_nil`). -/
def RecordSet.Sorts (st : Store) : RecordSet → Prop
  | ⟨model, predicate, ordering, foreign⟩ => conditionSorts st predicate ∧
    st.Arranges model ordering (RecordSet.Selects st ⟨model, predicate, ordering, foreign⟩)

/-- What is selected within the condition of a set can be sorted. -/
def conditionSorts (st : Store) : Option Predicate → Prop
  | none => True
  | some p => p.Sorts st

/-- What is selected within the predicate can be sorted. -/
def Predicate.Sorts (st : Store) : Predicate → Prop
  | .field _ lookup => lookup.Sorts st
  | .and p q => p.Sorts st ∧ q.Sorts st
  | .or p q => p.Sorts st ∧ q.Sorts st
  | .not p => p.Sorts st

/-- What a subquery selects can be sorted. -/
def Lookup.Sorts (st : Store) : Lookup → Prop
  | .within set _ => set.Sorts st
  | .compare _ _ => True
  | .oneOf _ => True
  | .isNull _ => True
  | .startsWith _ => True

end

theorem sorts_iff {set : RecordSet} : set.Sorts st ↔ conditionSorts st set.predicate ∧
    st.Arranges set.model set.ordering (set.Selects st) := by
  obtain ⟨model, predicate, ordering, foreign⟩ := set
  rw [RecordSet.Sorts]

theorem Store.Arranges.mono {model : String} {ordering : List OrderKey} {P Q : Record → Prop}
    (h : st.Arranges model ordering P) (hsub : ∀ r, Q r → P r) : st.Arranges model ordering Q :=
  fun rs hnodup hrs => h rs hnodup fun r hr => hsub r (hrs r hr)

/-- Records can be sorted if they are some of those that can. -/
theorem Store.arranges_of_sortable {model : String} {ordering : List OrderKey}
    {P : Record → Prop} {all : List Record} (hall : ∀ r, P r → r ∈ all)
    (h : Sortable (st.compareBy model ordering) all) : st.Arranges model ordering P :=
  fun _ hnodup hrs => h.of_subset hnodup fun r hr => hall r (hrs r hr)

/-- Records can be sorted by their keys. -/
theorem Store.arranges_nil {model : String} {P : Record → Prop} : st.Arranges model [] P :=
  fun rs _ _ =>
    have : Std.TransCmp (st.compareBy model []) :=
      inferInstanceAs (Std.TransCmp (compareOn Record.pk))
    sortable_of_transCmp rs

theorem sorts_of (model : String) : (RecordSet.of model).Sorts st :=
  sorts_iff.mpr ⟨by rw [RecordSet.of, conditionSorts]; trivial, Store.arranges_nil⟩

mutual

/-- **Where all records of a store can be sorted, so can what any set selects.** -/
theorem sorts_of_arranges (h : ∀ model ordering, st.Arranges model ordering st.Holds) :
    ∀ set : RecordSet, set.Sorts st
  | ⟨_, none, _, _⟩ => by
    rw [RecordSet.Sorts, conditionSorts]
    exact ⟨trivial, (h _ _).mono fun _ => RecordSet.Selects.holds⟩
  | ⟨_, some p, _, _⟩ => by
    rw [RecordSet.Sorts, conditionSorts]
    exact ⟨predicateSorts_of_arranges h p, (h _ _).mono fun _ => RecordSet.Selects.holds⟩

theorem predicateSorts_of_arranges (h : ∀ model ordering, st.Arranges model ordering st.Holds) :
    ∀ p : Predicate, p.Sorts st
  | .field _ (.within set _) => by
    rw [Predicate.Sorts, Lookup.Sorts]
    exact sorts_of_arranges h set
  | .field _ (.compare _ _) | .field _ (.oneOf _) | .field _ (.isNull _)
  | .field _ (.startsWith _) => by
    rw [Predicate.Sorts, Lookup.Sorts]
    trivial
  | .and p q | .or p q => by
    rw [Predicate.Sorts]
    exact ⟨predicateSorts_of_arranges h p, predicateSorts_of_arranges h q⟩
  | .not p => by
    rw [Predicate.Sorts]
    exact predicateSorts_of_arranges h p

end

end Concordance
