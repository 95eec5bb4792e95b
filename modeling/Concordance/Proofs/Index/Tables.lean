import Concordance.Proofs.Index.Change

/-!
# The tables of an index are those of its entries

An index maintains three tables beside its entries, entry by entry and in place. `Tabulated` says
what they hold in terms of the entries alone:

* the postings of a term that belong to one record are those of its entry, in field order
  (`postingsFor`), and there are none without an entry;
* a document frequency counts the entries that hold the term;
* the lengths of a path sum up the fields that have it (`lengthsOf`), absent if there are none.

Every table update changes one cell at a time, so an update with a list is played on each cell
alone (`SortedMap.get?_foldl_alter`). `tabulated_after`: after every history the tables are those
of the entries, whatever was replaced, removed or cleared on the way.
-/

namespace Concordance

namespace IndexEntry

/-- Whether a term occurs in some field of an entry. -/
def holds (e : IndexEntry) (term : String) : Bool := e.fields.any fun f => f.tokens.contains term

theorem holds_iff {e : IndexEntry} {term : String} :
    e.holds term = true ↔ ∃ f ∈ e.fields, term ∈ f.tokens := by
  unfold holds
  simp only [List.any_eq_true, List.contains_iff_mem]

theorem mem_terms {e : IndexEntry} {term : String} : term ∈ e.terms ↔ e.holds term = true := by
  unfold terms
  rw [List.mem_eraseDups, List.mem_flatMap, holds_iff]

end IndexEntry

namespace InvertedIndex

/-! ## What the tables hold -/

/-- The posting of a term for a field of a record, if the field holds the term. -/
def posting? (pk : Key) (term : String) (f : FieldContent) (position : Nat) : Option Posting :=
  if term ∈ f.tokens then
    some ⟨pk, position, (f.tokens.count term).toUInt32, f.tokens.length.toUInt32⟩
  else none

/-- A posting names its record and field, and the field holds the term. -/
theorem posting?_eq_some {pk : Key} {term : String} {f : FieldContent} {position : Nat}
    {p : Posting} (h : posting? pk term f position = some p) :
    p.pk = pk ∧ p.field = position ∧ term ∈ f.tokens := by
  unfold posting? at h
  split at h
  · rename_i hmem
    rw [← Option.some.inj h]
    exact ⟨rfl, rfl, hmem⟩
  · exact absurd h (by simp)

/-- The postings of a term that an entry accounts for, in field order. -/
def postingsFor (term : String) (e : IndexEntry) : List Posting :=
  e.fields.zipIdx.filterMap fun (f, position) => posting? e.pk term f position

/-- The total and the number of a list of fields; none without fields. -/
def lengthsOf (fs : List FieldContent) : Option PathLengths :=
  if fs.isEmpty then none else some ⟨(fs.map fun f => f.tokens.length).sum, fs.length⟩

/-- The fields of entries with a path. -/
def fieldsAt (path : String) (es : List IndexEntry) : List FieldContent :=
  (es.flatMap IndexEntry.fields).filter fun f => f.path == path

/-- The tables of an index hold what its entries account for, and nothing else. -/
structure Tabulated (ix : InvertedIndex) : Prop where
  keyed : Keyed ix
  /-- The postings of a record are those of its entry, in field order. -/
  postings : ∀ term pk, ((ix.postingsOf term).filter fun p => p.pk == pk) =
    ((ix.entry? pk).map (postingsFor term)).getD []
  /-- A document frequency counts entries. -/
  frequencies : ∀ term, ix.documentFrequency term =
    ix.entries.values.countP fun e => e.holds term
  /-- The lengths of a path are those of the fields that have it. -/
  lengths : ∀ path, ix.lengths.get? path = lengthsOf (fieldsAt path ix.entries.values)

/-! ## Adding to and dropping from a table -/

/-- Without repeats, an element stands once among those equal to it, or not at all. -/
theorem filter_eraseDups (l : List String) (a : String) :
    (l.eraseDups.filter fun x => x == a) = if a ∈ l then [a] else [] := by
  induction hn : l.length using Nat.strongRecOn generalizing l with
  | ind n ih =>
    cases l with
    | nil => rfl
    | cons x xs =>
      have hlen : (xs.filter fun b => !b == x).length < n := by
        have := List.length_filter_le (fun b => !b == x) xs
        rw [List.length_cons] at hn
        omega
      rw [List.eraseDups_cons]
      by_cases hx : x = a
      · subst hx
        have hnot : x ∉ xs.filter fun b => !b == x := by simp
        rw [List.filter_cons_of_pos (by simp), ih _ hlen _ rfl, if_neg hnot,
          if_pos List.mem_cons_self]
      · have hmem : a ∈ (xs.filter fun b => !b == x) ↔ a ∈ x :: xs := by
          simp [Ne.symm hx]
        rw [List.filter_cons_of_neg (by simpa using hx), ih _ hlen _ rfl]
        simp only [hmem]

/-! ### Postings -/

/-- The postings that an entry contributes to a term are those it accounts for. -/
theorem filter_postingsOfEntry (e : IndexEntry) (term : String) :
    ((postingsOfEntry e).filter fun p => p.1 == term).map Prod.snd = postingsFor term e := by
  unfold postingsOfEntry postingsFor
  induction e.fields.zipIdx with
  | nil => rfl
  | cons x xs ih =>
    obtain ⟨f, i⟩ := x
    have hf : ((postingsIn e.pk i f).filter fun p => p.1 == term).map Prod.snd =
        (posting? e.pk term f i).toList := by
      unfold postingsIn posting?
      rw [List.filter_map, List.map_map]
      show List.map _ (f.tokens.eraseDups.filter fun t => t == term) = _
      rw [filter_eraseDups]
      split <;> rfl
    rw [List.flatMap_cons, List.filter_append, List.map_append, ih, hf]
    cases hp : posting? e.pk term f i with
    | none => rw [List.filterMap_cons_none (by exact hp)]; rfl
    | some p => rw [List.filterMap_cons_some (by exact hp)]; rfl

/-- Postings added to a term stand behind those it had. -/
theorem getD_foldl_addPosting (ps : List (String × Posting))
    (table : SortedMap String (List Posting)) (term : String) :
    (ps.foldl addPosting table).getD term [] =
      table.getD term [] ++ (ps.filter fun p => p.1 == term).map Prod.snd := by
  have hcell : ∀ (ps : List (String × Posting)) (cell : Option (List Posting)),
      (ps.foldl (fun cell p => some (cell.getD [] ++ [p.2])) cell).getD [] =
        cell.getD [] ++ ps.map Prod.snd := by
    intro ps
    induction ps with
    | nil => intro cell; exact (List.append_nil _).symm
    | cons p ps ih =>
      intro cell
      rw [List.foldl_cons, ih, Option.getD_some, List.map_cons, List.append_assoc]
      rfl
  have hget : (ps.foldl addPosting table).get? term =
      (ps.filter fun p => p.1 == term).foldl (fun cell p => some (cell.getD [] ++ [p.2]))
        (table.get? term) :=
    SortedMap.get?_foldl_alter Prod.fst (fun p cell => some (cell.getD [] ++ [p.2])) ps table term
  unfold SortedMap.getD
  rw [hget, hcell]

/-- Dropping the postings of a record from the terms of a list. -/
theorem getD_foldl_dropPostings (pk : Key) (ts : List String)
    (table : SortedMap String (List Posting)) (term : String) :
    (ts.eraseDups.foldl (dropPostings pk) table).getD term [] =
      if term ∈ ts then (table.getD term []).filter fun p => p.pk != pk
      else table.getD term [] := by
  show ((ts.eraseDups.foldl (dropPostings pk) table).get? term).getD [] = _
  rw [show (ts.eraseDups.foldl (dropPostings pk) table).get? term = _ from
    SortedMap.get?_foldl_alter id _ ts.eraseDups table term]
  simp only [id, filter_eraseDups]
  split
  · rw [List.foldl_cons, List.foldl_nil]
    show Option.getD ((table.get? term).bind _) [] = ((table.get? term).getD []).filter _
    cases table.get? term with
    | none => rfl
    | some list =>
      rw [Option.bind_some, Option.getD_some]
      split
      · rename_i hk
        rw [List.isEmpty_iff.mp hk]
        rfl
      · rfl
  · rfl

/-! ### Document frequencies -/

/-- Counting an entry for each of its terms. -/
theorem getD_foldl_addFrequency (ts : List String) (table : SortedMap String Nat) (term : String) :
    (ts.eraseDups.foldl addFrequency table).getD term 0 =
      table.getD term 0 + if term ∈ ts then 1 else 0 := by
  show ((ts.eraseDups.foldl addFrequency table).get? term).getD 0 = _
  rw [show (ts.eraseDups.foldl addFrequency table).get? term = _ from
    SortedMap.get?_foldl_alter id (fun _ cell => some (cell.getD 0 + 1)) ts.eraseDups table term]
  simp only [id, filter_eraseDups]
  split <;> rfl

/-- Counting an entry less for each of its terms. -/
theorem getD_foldl_dropFrequency (ts : List String) (table : SortedMap String Nat)
    (term : String) :
    (ts.eraseDups.foldl dropFrequency table).getD term 0 =
      table.getD term 0 - if term ∈ ts then 1 else 0 := by
  show ((ts.eraseDups.foldl dropFrequency table).get? term).getD 0 = _
  rw [show (ts.eraseDups.foldl dropFrequency table).get? term = _ from
    SortedMap.get?_foldl_alter id _ ts.eraseDups table term]
  simp only [id, filter_eraseDups]
  split
  · rw [List.foldl_cons, List.foldl_nil]
    show Option.getD ((table.get? term).bind _) 0 = (table.get? term).getD 0 - 1
    cases table.get? term with
    | none => rfl
    | some n =>
      rw [Option.bind_some, Option.getD_some]
      split
      · rename_i hn
        rw [hn]
        rfl
      · rfl
  · rfl

/-! ### Lengths -/

theorem lengthsOf_cons (f : FieldContent) (fs : List FieldContent) :
    lengthsOf (f :: fs) =
      some ⟨f.tokens.length + (fs.map fun g => g.tokens.length).sum, fs.length + 1⟩ := by
  simp [lengthsOf]

theorem lengthsOf_perm {fs gs : List FieldContent} (h : fs.Perm gs) :
    lengthsOf fs = lengthsOf gs := by
  unfold lengthsOf
  rw [h.isEmpty_eq, h.length_eq, (h.map fun f => f.tokens.length).sum_nat]

theorem fieldsAt_perm {es es' : List IndexEntry} (h : es.Perm es') (path : String) :
    (fieldsAt path es).Perm (fieldsAt path es') :=
  (h.flatMap_right IndexEntry.fields).filter _

theorem fieldsAt_cons (path : String) (e : IndexEntry) (es : List IndexEntry) :
    fieldsAt path (e :: es) = (e.fields.filter fun f => f.path == path) ++ fieldsAt path es := by
  unfold fieldsAt
  rw [List.flatMap_cons, List.filter_append]

/-- The lengths of a path with one more field. -/
def lengthened (f : FieldContent) (cell : Option PathLengths) : Option PathLengths :=
  let l := cell.getD ⟨0, 0⟩
  some ⟨l.total + f.tokens.length, l.count + 1⟩

/-- The lengths of a path with one field less. -/
def shortened (f : FieldContent) (cell : Option PathLengths) : Option PathLengths :=
  cell.bind fun l =>
    if l.count - 1 = 0 then none else some ⟨l.total - f.tokens.length, l.count - 1⟩

theorem lengthened_lengthsOf (f : FieldContent) (fs : List FieldContent) :
    lengthened f (lengthsOf fs) = lengthsOf (f :: fs) := by
  rw [lengthsOf_cons]
  cases fs with
  | nil => simp [lengthened, lengthsOf]
  | cons g fs =>
    rw [lengthsOf_cons]
    simp only [lengthened, Option.getD_some, List.map_cons, List.sum_cons, List.length_cons]
    rw [Nat.add_comm]

/-- Taking a field away leaves the lengths of the others. -/
theorem shortened_lengthsOf (f : FieldContent) (fs : List FieldContent) :
    shortened f (lengthsOf (f :: fs)) = lengthsOf fs := by
  rw [lengthsOf_cons]
  cases fs with
  | nil => rfl
  | cons g fs =>
    rw [lengthsOf_cons]
    simp only [shortened, Option.bind_some, Nat.add_sub_cancel, Nat.add_sub_cancel_left,
      List.map_cons, List.sum_cons, List.length_cons]
    rw [if_neg (Nat.succ_ne_zero _)]

/-- Fields added to a path whose fields are `gs`. -/
theorem get?_foldl_addLength (fs gs : List FieldContent) (table : SortedMap String PathLengths)
    (path : String) (h : table.get? path = lengthsOf gs) :
    (fs.foldl addLength table).get? path =
      lengthsOf ((fs.filter fun f => f.path == path) ++ gs) := by
  refine (SortedMap.get?_foldl_alter FieldContent.path lengthened fs table path).trans ?_
  rw [h]
  clear h
  induction fs.filter fun f => f.path == path generalizing gs with
  | nil => rfl
  | cons f fs ih =>
    rw [List.foldl_cons, lengthened_lengthsOf, ih]
    exact lengthsOf_perm List.perm_middle

/-- Fields dropped from a path whose other fields are `gs`. -/
theorem get?_foldl_dropLength (fs gs : List FieldContent) (table : SortedMap String PathLengths)
    (path : String)
    (h : table.get? path = lengthsOf ((fs.filter fun f => f.path == path) ++ gs)) :
    (fs.foldl dropLength table).get? path = lengthsOf gs := by
  refine (SortedMap.get?_foldl_alter FieldContent.path shortened fs table path).trans ?_
  rw [h]
  induction fs.filter fun f => f.path == path with
  | nil => rfl
  | cons f fs ih => rw [List.foldl_cons, List.cons_append, shortened_lengthsOf, ih]

/-! ## Adding and dropping one entry -/

theorem mem_postingsFor {term : String} {e : IndexEntry} {p : Posting} :
    p ∈ postingsFor term e ↔
      ∃ f, e.fields[p.field]? = some f ∧ posting? e.pk term f p.field = some p := by
  unfold postingsFor
  simp only [List.mem_filterMap, Prod.exists, List.mem_zipIdx_iff_getElem?]
  constructor
  · rintro ⟨f, i, hf, hp⟩
    obtain ⟨-, hi, -⟩ := posting?_eq_some hp
    rw [hi]
    exact ⟨f, hf, hp⟩
  · rintro ⟨f, hf, hp⟩
    exact ⟨f, p.field, hf, hp⟩

theorem pk_of_mem_postingsFor {term : String} {e : IndexEntry} {p : Posting}
    (h : p ∈ postingsFor term e) : p.pk = e.pk := by
  obtain ⟨f, -, hp⟩ := mem_postingsFor.mp h
  exact (posting?_eq_some hp).1

theorem postingsFor_eq_nil {term : String} {e : IndexEntry} (h : ¬ e.holds term = true) :
    postingsFor term e = [] := by
  rw [List.eq_nil_iff_forall_not_mem]
  intro p hp
  obtain ⟨f, hf, hp⟩ := mem_postingsFor.mp hp
  obtain ⟨-, -, hmem⟩ := posting?_eq_some hp
  exact h (IndexEntry.holds_iff.mpr ⟨f, List.mem_of_getElem? hf, hmem⟩)

theorem tabulated_add {ix : InvertedIndex} (h : Tabulated ix) {e : IndexEntry}
    (hnew : ix.entry? e.pk = none) : Tabulated (ix.add e) where
  keyed pk e' he := by
    rw [entry?_add] at he
    split at he
    · rename_i hpk
      rw [← Option.some.inj he, hpk]
    · exact h.keyed pk e' he
  postings term pk := by
    rw [show (ix.add e).postingsOf term = _ from getD_foldl_addPosting _ ix.postings term,
      filter_postingsOfEntry, List.filter_append, entry?_add]
    have hold := h.postings term pk
    show List.filter _ (ix.postingsOf term) ++ _ = _
    rw [hold]
    by_cases hpk : pk = e.pk
    · have hall : ((postingsFor term e).filter fun p => p.pk == pk) = postingsFor term e :=
        List.filter_eq_self.mpr fun p hp => by simp [pk_of_mem_postingsFor hp, hpk]
      rw [if_pos hpk, hall, hpk, hnew]
      rfl
    · have hnone : ((postingsFor term e).filter fun p => p.pk == pk) = [] :=
        List.filter_eq_nil_iff.mpr fun p hp => by
          simp [pk_of_mem_postingsFor hp, Ne.symm hpk]
      rw [if_neg hpk, hnone, List.append_nil]
  frequencies term := by
    rw [show (ix.add e).documentFrequency term = _ from
        getD_foldl_addFrequency _ ix.documentFrequencies term,
      show ix.documentFrequencies.getD term 0 = _ from h.frequencies term,
      show (ix.add e).entries = ix.entries.insert e.pk e from rfl,
      (SortedMap.perm_values_insert hnew e).countP_eq, List.countP_cons]
    simp only [← IndexEntry.mem_terms, IndexEntry.terms, List.mem_eraseDups]
  lengths path := by
    rw [show (ix.add e).lengths.get? path = _ from
        get?_foldl_addLength e.fields _ ix.lengths path (h.lengths path),
      show (ix.add e).entries = ix.entries.insert e.pk e from rfl, ← fieldsAt_cons]
    exact (lengthsOf_perm (fieldsAt_perm (SortedMap.perm_values_insert hnew e) path)).symm

theorem tabulated_drop {ix : InvertedIndex} (h : Tabulated ix) {e : IndexEntry}
    (he : ix.entry? e.pk = some e) : Tabulated (ix.drop e) where
  keyed pk e' he' := by
    rw [entry?_drop] at he'
    split at he'
    · exact absurd he' (by simp)
    · exact h.keyed pk e' he'
  postings term pk := by
    rw [show (ix.drop e).postingsOf term = _ from
      getD_foldl_dropPostings e.pk _ ix.postings term, entry?_drop]
    have hold := h.postings term pk
    by_cases hpk : pk = e.pk
    · subst hpk
      rw [if_pos rfl]
      split
      · rw [List.filter_filter]
        exact List.filter_eq_nil_iff.mpr fun p _ => by simp
      · rename_i hterm
        have hnot : ¬ e.holds term = true := fun hh =>
          hterm (List.mem_eraseDups.mp (IndexEntry.mem_terms.mpr hh))
        rw [show ix.postings.getD term [] = ix.postingsOf term from rfl, hold, he]
        exact postingsFor_eq_nil hnot
    · rw [if_neg hpk, ← hold]
      split
      · rw [List.filter_filter]
        refine List.filter_congr fun p _ => ?_
        by_cases hp : p.pk = pk
        · simp [hp, hpk]
        · simp [hp]
      · rfl
  frequencies term := by
    have hperm := SortedMap.perm_values_erase (m := ix.entries) he
    rw [show (ix.drop e).documentFrequency term = _ from
        getD_foldl_dropFrequency _ ix.documentFrequencies term,
      show ix.documentFrequencies.getD term 0 = _ from h.frequencies term, hperm.countP_eq,
      List.countP_cons]
    simp only [← IndexEntry.mem_terms, IndexEntry.terms, List.mem_eraseDups]
    exact Nat.add_sub_cancel _ _
  lengths path := by
    have hperm := SortedMap.perm_values_erase (m := ix.entries) he
    refine get?_foldl_dropLength e.fields _ ix.lengths path ?_
    rw [h.lengths path, lengthsOf_perm (fieldsAt_perm hperm path), fieldsAt_cons]
    rfl

/-! ## Every change and every history -/

theorem tabulated_empty : Tabulated empty where
  keyed _ _ h := absurd h (by simp [empty, entry?])
  postings _ _ := rfl
  frequencies _ := rfl
  lengths _ := rfl

/-- The version is no table. -/
theorem tabulated_version {ix : InvertedIndex} (h : Tabulated ix) (n : Nat) :
    Tabulated { ix with version := n } :=
  ⟨h.keyed, h.postings, h.frequencies, h.lengths⟩

theorem tabulated_without {ix : InvertedIndex} (h : Tabulated ix) (pk : Key) :
    Tabulated (ix.without pk) := by
  unfold without
  cases hpk : ix.entry? pk with
  | none => exact h
  | some old =>
    have hkey := h.keyed pk old hpk
    exact tabulated_drop h (hkey ▸ hpk)

/-- **One change keeps the tables those of the entries.** -/
theorem tabulated_apply {ix : InvertedIndex} (h : Tabulated ix) (c : Change) :
    Tabulated (c.apply ix) := by
  cases c with
  | put e =>
    refine tabulated_version (tabulated_add (tabulated_without h e.pk) ?_) _
    rw [entry?_without h.keyed, if_pos rfl]
  | remove pk =>
    show Tabulated (ix.remove pk)
    rw [remove_eq_without]
    exact tabulated_version (tabulated_without h pk) _
  | clear => exact tabulated_version tabulated_empty _

/-- **After every history the tables are those of the entries.** -/
theorem tabulated_after (changes : List Change) : Tabulated (after changes) :=
  after_induction (P := Tabulated) tabulated_empty (fun _ c h => tabulated_apply h c) changes

/-! ## The order of postings -/

theorem pairwise_postingsFor (term : String) (e : IndexEntry) :
    (postingsFor term e).Pairwise fun p q => p.field < q.field := by
  have hidx : e.fields.zipIdx.Pairwise fun x y => x.2 < y.2 := by
    rw [← List.pairwise_map (f := Prod.snd) (R := (· < ·)), List.zipIdx_map_snd]
    exact List.pairwise_lt_range'
  unfold postingsFor
  refine List.Pairwise.filterMap _ (fun x y hxy p hp q hq => ?_) hidx
  rw [(posting?_eq_some hp).2.1, (posting?_eq_some hq).2.1]
  exact hxy

/-- What holds between the elements of each key in turn holds between elements of equal keys. -/
theorem pairwise_of_filter {α : Type} (key : α → Key) {R : α → α → Prop} {l : List α}
    (h : ∀ k, (l.filter fun x => key x == k).Pairwise R) :
    l.Pairwise fun x y => key x = key y → R x y := by
  induction l with
  | nil => exact List.Pairwise.nil
  | cons x xs ih =>
    refine List.pairwise_cons.mpr ⟨fun y hy hxy => ?_, ih fun k => ?_⟩
    · have hx := h (key x)
      rw [List.filter_cons_of_pos (by simp)] at hx
      exact (List.pairwise_cons.mp hx).1 y (List.mem_filter.mpr ⟨hy, by simp [hxy]⟩)
    · exact (h k).sublist ((List.sublist_cons_self x xs).filter _)

/-- **The postings of one record stay in field order.** -/
theorem Tabulated.pairwise_postings {ix : InvertedIndex} (h : Tabulated ix) (term : String) :
    (ix.postingsOf term).Pairwise fun p q => p.pk = q.pk → p.field < q.field := by
  refine pairwise_of_filter Posting.pk fun pk => ?_
  rw [h.postings term pk]
  cases ix.entry? pk with
  | none => exact List.Pairwise.nil
  | some e => exact pairwise_postingsFor term e

/-- The postings of a term are those of the entries, wherever they stand in the list. -/
theorem Tabulated.mem_postingsOf {ix : InvertedIndex} (h : Tabulated ix) {term : String}
    {p : Posting} : p ∈ ix.postingsOf term ↔
      ∃ e f, ix.entry? p.pk = some e ∧ e.fields[p.field]? = some f ∧
        posting? p.pk term f p.field = some p := by
  have hmem : p ∈ ix.postingsOf term ↔ p ∈ (ix.postingsOf term).filter fun q => q.pk == p.pk := by
    simp [List.mem_filter]
  rw [hmem, h.postings term p.pk]
  cases he : ix.entry? p.pk with
  | none => simp
  | some e =>
    rw [Option.map_some, Option.getD_some, mem_postingsFor]
    have hkey : p.pk = e.pk := (h.keyed p.pk e he).symm
    constructor
    · rintro ⟨f, hf, hp⟩
      exact ⟨e, f, rfl, hf, hkey ▸ hp⟩
    · rintro ⟨e', f, he', hf, hp⟩
      obtain rfl := Option.some.inj he'
      exact ⟨f, hf, hkey ▸ hp⟩

theorem Tabulated.nodup_postingsOf {ix : InvertedIndex} (h : Tabulated ix) (term : String) :
    ((ix.postingsOf term).map fun p => (p.pk, p.field)).Nodup := by
  refine List.pairwise_map.mpr ((h.pairwise_postings term).imp fun {p q} hpq heq => ?_)
  obtain ⟨hpk, hfield⟩ := Prod.mk.inj heq
  exact absurd (hpq hpk) (by omega)

theorem Tabulated.documentFrequency_le {ix : InvertedIndex} (h : Tabulated ix) (term : String) :
    ix.documentFrequency term ≤ ix.size := by
  rw [h.frequencies term]
  exact Nat.le_trans List.countP_le_length (Nat.le_of_eq (SortedMap.length_values ix.entries))

end InvertedIndex

end Concordance
