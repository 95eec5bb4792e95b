import Concordance.Proofs.Matching.Meaning

/-!
# What normalization keeps and what it spreads

Normalization takes the boosts off a query, takes free text apart, and weighs each term by what it
took off. Its result is described from two sides that share nothing with it:

* `Query.skeleton` is the tree without any weight. Nodes and the order of children stay.
* `Query.occurrences` is the list of the terms where they stand, words of free text among them, each
  with its own boost and the factors of the boosts around it (`Occurrence.weight`).

A `QueryContext` is a query with a hole. What is normalized alike below all factors can replace one
another in any context (`normalizeBelow_plug_congr`), so a boost may be moved down to the children
of its child.

* **`shape_and_weights_of_normalize`**: the shape and the weights of what a query normalizes to,
  where boosts may be moved, and which boosts are refused.
-/

namespace Concordance

/-! ## Shape -/

mutual

/-- The query without its weights: boosts are taken off, free text is a term for each of its words,
and all else stays where it is. -/
def Query.skeleton : Query → NormalQuery
  | .matchAll => .matchAll
  | .term t _ => .term t 1.0
  | .plainText text operator _ =>
    if Text.words text = [] then .matchNone
    else match operator with
      | .and => .and ((Text.words text).map fun word => .term word 1.0)
      | .or => .or ((Text.words text).map fun word => .term word 1.0)
  | .and qs => .and (skeletons qs)
  | .or qs => .or (skeletons qs)
  | .not q => .not q.skeleton
  | .boost q _ => q.skeleton

/-- The queries without their weights. -/
def skeletons : List Query → List NormalQuery
  | [] => []
  | q :: qs => q.skeleton :: skeletons qs

end

theorem normalizeAll_eq_map (factor : Float32) (qs : List Query) :
    normalizeAll factor qs = qs.map (Query.normalizeBelow factor) := by
  induction qs with
  | nil => rfl
  | cons q qs ih => simp [normalizeAll, ih]

theorem unboostedAll_eq_map (qs : List NormalQuery) :
    unboostedAll qs = qs.map NormalQuery.unboosted := by
  induction qs with
  | nil => rfl
  | cons q qs ih => simp [unboostedAll, ih]

theorem unboosted_ofWords (text : String) (operator : Operator) (boost weight : Float32) :
    (NormalQuery.ofWords operator (Text.words text) weight).unboosted =
      (Query.plainText text operator boost).skeleton := by
  unfold Query.skeleton
  cases hwords : Text.words text with
  | nil => simp [NormalQuery.ofWords, NormalQuery.unboosted]
  | cons word words =>
    cases operator <;>
      simp [NormalQuery.ofWords, NormalQuery.unboosted, unboostedAll_eq_map]

mutual

/-- **Apart from weights, normalization takes boosts off and free text apart**, below any boosts. -/
theorem unboosted_normalizeBelow (factor : Float32) : ∀ q : Query,
    (q.normalizeBelow factor).unboosted = q.skeleton
  | .matchAll => rfl
  | .term _ _ => rfl
  | .plainText text operator boost => unboosted_ofWords text operator boost (boost * factor)
  | .and qs => by
    simp [Query.normalizeBelow, NormalQuery.unboosted, Query.skeleton,
      unboostedAll_normalizeAll factor qs]
  | .or qs => by
    simp [Query.normalizeBelow, NormalQuery.unboosted, Query.skeleton,
      unboostedAll_normalizeAll factor qs]
  | .not q => by
    simp [Query.normalizeBelow, NormalQuery.unboosted, Query.skeleton,
      unboosted_normalizeBelow factor q]
  | .boost q f => by
    simp [Query.normalizeBelow, Query.skeleton, unboosted_normalizeBelow (factor * f) q]

theorem unboostedAll_normalizeAll (factor : Float32) : ∀ qs : List Query,
    unboostedAll (normalizeAll factor qs) = skeletons qs
  | [] => rfl
  | q :: qs => by
    simp [normalizeAll, unboostedAll, skeletons, unboosted_normalizeBelow factor q,
      unboostedAll_normalizeAll factor qs]

end

/-! ## Weights -/

/-- A term where it stands in a query: with its own boost, and with the factors of the boosts around
it from the outermost inwards. -/
structure Occurrence where
  term : String
  boost : Float32
  factors : List Float32

/-- The product of factors, taken from the left. -/
def product (factors : List Float32) : Float32 := factors.foldl (· * ·) 1.0

theorem product_append_singleton (factors : List Float32) (f : Float32) :
    product (factors ++ [f]) = product factors * f := by
  simp [product]

namespace Occurrence

/-- What the term weighs there. -/
def weight (o : Occurrence) : Float32 := o.boost * product o.factors

/-- The term with its weight. -/
def weighed (o : Occurrence) : String × Float32 := (o.term, o.weight)

end Occurrence

mutual

/-- The terms of a query below boosts with some factors, from left to right. -/
def Query.occurrencesBelow (factors : List Float32) : Query → List Occurrence
  | .matchAll => []
  | .term t b => [⟨t, b, factors⟩]
  | .plainText text _ b => (Text.words text).map fun word => ⟨word, b, factors⟩
  | .and qs | .or qs => occurrencesOfAll factors qs
  | .not q => q.occurrencesBelow factors
  | .boost q f => q.occurrencesBelow (factors ++ [f])

/-- The terms of each query of a list. -/
def occurrencesOfAll (factors : List Float32) : List Query → List Occurrence
  | [] => []
  | q :: qs => q.occurrencesBelow factors ++ occurrencesOfAll factors qs

end

/-- The terms of a query, from left to right. -/
def Query.occurrences (q : Query) : List Occurrence := q.occurrencesBelow []

theorem termsOfAll_words (words : List String) (boost : Float32) :
    termsOfAll (words.map fun word => .term word boost) = words.map fun word => (word, boost) := by
  induction words with
  | nil => rfl
  | cons word words ih => simp [termsOfAll, NormalQuery.terms, ih]

theorem terms_ofWords (operator : Operator) (words : List String) (boost : Float32) :
    (NormalQuery.ofWords operator words boost).terms = words.map fun word => (word, boost) := by
  cases words with
  | nil => rfl
  | cons word words => cases operator <;> exact termsOfAll_words (word :: words) boost

mutual

/-- **Each term weighs its own boost times the product of the factors around it.** The induction
carries the list of the factors, of which normalization has the product only. -/
theorem terms_normalizeBelow (factors : List Float32) : ∀ q : Query,
    (q.normalizeBelow (product factors)).terms =
      (q.occurrencesBelow factors).map Occurrence.weighed
  | .matchAll => rfl
  | .term _ _ => rfl
  | .plainText text operator boost => by
    simp only [Query.normalizeBelow, Query.occurrencesBelow, terms_ofWords, List.map_map]
    rfl
  | .and qs => by
    simp [Query.normalizeBelow, NormalQuery.terms, Query.occurrencesBelow,
      termsOfAll_normalizeAll factors qs]
  | .or qs => by
    simp [Query.normalizeBelow, NormalQuery.terms, Query.occurrencesBelow,
      termsOfAll_normalizeAll factors qs]
  | .not q => by
    simp [Query.normalizeBelow, NormalQuery.terms, Query.occurrencesBelow,
      terms_normalizeBelow factors q]
  | .boost q f => by
    rw [Query.normalizeBelow, Query.occurrencesBelow, ← product_append_singleton,
      terms_normalizeBelow (factors ++ [f]) q]

theorem termsOfAll_normalizeAll (factors : List Float32) : ∀ qs : List Query,
    termsOfAll (normalizeAll (product factors) qs) =
      (occurrencesOfAll factors qs).map Occurrence.weighed
  | [] => rfl
  | q :: qs => by
    simp [normalizeAll, termsOfAll, occurrencesOfAll, terms_normalizeBelow factors q,
      termsOfAll_normalizeAll factors qs]

end

/-! ## Contexts -/

/-- A query with a hole. -/
inductive QueryContext where
  | hole
  | and (left : List Query) (inner : QueryContext) (right : List Query)
  | or (left : List Query) (inner : QueryContext) (right : List Query)
  | not (inner : QueryContext)
  | boost (inner : QueryContext) (factor : Float32)

/-- The context with a query in its hole. -/
def QueryContext.plug (q : Query) : QueryContext → Query
  | hole => q
  | and left inner right => .and (left ++ inner.plug q :: right)
  | or left inner right => .or (left ++ inner.plug q :: right)
  | not inner => .not (inner.plug q)
  | boost inner factor => .boost (inner.plug q) factor

/-- **What is normalized alike below all factors may stand for one another in any context.** The
context may put more factors around the hole, so it does not suffice to look at one. -/
theorem normalizeBelow_plug_congr {p q : Query}
    (h : ∀ factor, p.normalizeBelow factor = q.normalizeBelow factor) (c : QueryContext)
    (factor : Float32) : (c.plug p).normalizeBelow factor = (c.plug q).normalizeBelow factor := by
  induction c generalizing factor with
  | hole => exact h factor
  | and left inner right ih =>
    simp [QueryContext.plug, Query.normalizeBelow, normalizeAll_eq_map, ih]
  | or left inner right ih =>
    simp [QueryContext.plug, Query.normalizeBelow, normalizeAll_eq_map, ih]
  | not inner ih => simp [QueryContext.plug, Query.normalizeBelow, ih]
  | boost inner f ih => simp [QueryContext.plug, Query.normalizeBelow, ih]

theorem normalizeAll_boosts (factor f : Float32) (qs : List Query) :
    normalizeAll factor (qs.map fun q => .boost q f) = normalizeAll (factor * f) qs := by
  simp [normalizeAll_eq_map, Query.normalizeBelow, Function.comp_def]

/-! ## Boosts that are refused -/

/-- A finite number that is not below zero. -/
def IsWeight (x : Float32) : Prop := x.isFinite = true ∧ ¬x < 0.0

/-- Finite numbers and zero compare, so a finite number that is not below zero is one that zero does
not exceed. Infinities and a NaN are told apart by not being finite. -/
theorem isBoost_iff (x : Float32) : isBoost x = true ↔ IsWeight x := by
  have hzero : (0.0 : Float32).toModel.unpack = .zero .positive := by rfl
  have hlt : x < 0.0 ↔ x.toModel.unpack.compare (.zero .positive) = some .lt := by
    rw [← hzero]
    show decide (x.toModel.lt _ = true) = true ↔ _
    rw [decide_eq_true_iff]
    exact beq_iff_eq
  have hle : (0.0 : Float32) ≤ x ↔ ∃ o,
      (Float.Model.UnpackedFloat.zero .positive).compare x.toModel.unpack = some o ∧ o ≠ .gt := by
    rw [← hzero]
    show decide ((_ : Option Ordering).any (·.isLE) = true) = true ↔ _
    rw [decide_eq_true_iff, Option.any_eq_true]
    simp only [Ordering.isLE_iff_ne_gt, ne_eq]
  have hfinite : x.isFinite = x.toModel.unpack.isFinite := rfl
  unfold isBoost IsWeight
  rw [Bool.and_eq_true, decide_eq_true_iff, hle, hlt, hfinite]
  refine and_congr_right fun h => ?_
  cases hx : x.toModel.unpack with
  | notANumber => simp [hx, Float.Model.UnpackedFloat.isFinite] at h
  | infinity s => simp [hx, Float.Model.UnpackedFloat.isFinite] at h
  | zero s => simp [Float.Model.UnpackedFloat.compare]
  | finite s m e _ => cases s <;> simp [Float.Model.UnpackedFloat.compare]

theorem checkBoosts_eq_ok_iff (q : NormalQuery) :
    q.checkBoosts = .ok () ↔ ∀ t ∈ q.terms, IsWeight t.2 := by
  simp only [← isBoost_iff]
  unfold NormalQuery.checkBoosts
  cases hfind : q.terms.find? fun t => !isBoost t.2 with
  | none => simpa using hfind
  | some t =>
    have hbad := List.find?_some hfind
    simp only [reduceCtorEq, false_iff]
    intro hall
    simp [hall t (List.mem_of_find?_eq_some hfind)] at hbad

/-- The boost that is reported is the first one that is no weight. -/
theorem checkBoosts_eq_error_iff (q : NormalQuery) (e : Error) :
    q.checkBoosts = .error e ↔ ∃ before t after, q.terms = before ++ t :: after ∧
      (∀ b ∈ before, IsWeight b.2) ∧ ¬IsWeight t.2 ∧ e = .invalidValue (.boost t.1 t.2) := by
  simp only [← isBoost_iff]
  unfold NormalQuery.checkBoosts
  cases hfind : q.terms.find? fun t => !isBoost t.2 with
  | none =>
    simp only [reduceCtorEq, false_iff]
    rintro ⟨before, t, after, hterms, -, hbad, -⟩
    have hgood := List.find?_eq_none.mp hfind t (by simp [hterms])
    simp [hbad] at hgood
  | some t =>
    obtain ⟨hbad, before, after, hterms, hgood⟩ := List.find?_eq_some_iff_append.mp hfind
    constructor
    · intro h
      refine ⟨before, t, after, hterms, by simpa using hgood, by simpa using hbad, ?_⟩
      simpa using h.symm
    · rintro ⟨before', t', after', hterms', hgood', hbad', rfl⟩
      have hfind' : q.terms.find? (fun t => !isBoost t.2) = some t' :=
        List.find?_eq_some_iff_append.mpr
          ⟨by simpa using hbad', before', after', hterms', by simpa using hgood'⟩
      obtain rfl := Option.some.inj (hfind.symm.trans hfind')
      rfl

/-! ## Normalization -/

/-- **What a query normalizes to.** Apart from the weights it is the skeleton of the query, and its
terms are those of the query, from left to right, each with its own boost times the product of the
factors around it. So a boost of a conjunction, a disjunction or a negation may be moved down to the
children, in any context. The boosts pass the check exactly if all are finite and none is below
zero; otherwise the first that is not is reported. -/
theorem shape_and_weights_of_normalize :
    (∀ q : Query, q.normalize.unboosted = q.skeleton ∧
      q.normalize.terms = q.occurrences.map Occurrence.weighed) ∧
    (∀ (c : QueryContext) (f : Float32),
      (∀ qs, (c.plug (.boost (.and qs) f)).normalize =
        (c.plug (.and (qs.map fun q => .boost q f))).normalize) ∧
      (∀ qs, (c.plug (.boost (.or qs) f)).normalize =
        (c.plug (.or (qs.map fun q => .boost q f))).normalize) ∧
      ∀ q, (c.plug (.boost (.not q) f)).normalize = (c.plug (.not (.boost q f))).normalize) ∧
    ∀ n : NormalQuery,
      (n.checkBoosts = .ok () ↔ ∀ t ∈ n.terms, IsWeight t.2) ∧
      ∀ e, n.checkBoosts = .error e ↔ ∃ before t after, n.terms = before ++ t :: after ∧
        (∀ b ∈ before, IsWeight b.2) ∧ ¬IsWeight t.2 ∧ e = .invalidValue (.boost t.1 t.2) := by
  refine ⟨fun q => ⟨unboosted_normalizeBelow 1.0 q, terms_normalizeBelow [] q⟩, fun c f => ?_,
    fun n => ⟨checkBoosts_eq_ok_iff n, checkBoosts_eq_error_iff n⟩⟩
  refine ⟨fun qs => ?_, fun qs => ?_, fun q => ?_⟩ <;>
    refine normalizeBelow_plug_congr (fun factor => ?_) c 1.0
  · simp only [Query.normalizeBelow, normalizeAll_boosts]
  · simp only [Query.normalizeBelow, normalizeAll_boosts]
  · simp only [Query.normalizeBelow]

end Concordance
