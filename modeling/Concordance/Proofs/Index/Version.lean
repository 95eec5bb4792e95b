import Concordance.Proofs.Index.Change
import Concordance.Proofs.Matching.Pointwise
import Concordance.Search

/-!
# Versions

Every change to an index that has an effect raises its version, so an index of the same version is
the same index (`later_apply`). The version itself is never looked at: what changes do to the
`content` of an index, and what a search finds in it, are told by the content alone
(`content_apply`, `hits_content`).
-/

namespace Concordance

/-! ## What only changes with its version -/

/-- From `a` to `b` either nothing has changed or the version has grown. -/
def Later {α : Type} (version : α → Nat) (a b : α) : Prop := b = a ∨ version a < version b

section Later

variable {α : Type} {version : α → Nat}

theorem later_refl (a : α) : Later version a a := Or.inl rfl

theorem later_trans {a b c : α} (hab : Later version a b) (hbc : Later version b c) :
    Later version a c := by
  rcases hab with rfl | hab
  · exact hbc
  rcases hbc with rfl | hbc
  · exact Or.inr hab
  · exact Or.inr (Nat.lt_trans hab hbc)

theorem Later.version_le {a b : α} (h : Later version a b) : version a ≤ version b := by
  rcases h with rfl | h
  · exact Nat.le_refl _
  · exact Nat.le_of_lt h

theorem Later.eq_of_version {a b : α} (h : Later version a b) (hv : version b = version a) :
    b = a := by
  rcases h with heq | hlt
  · exact heq
  · omega

end Later

namespace InvertedIndex

/-! ## Changes -/

/-- **A change has no effect or raises the version.** -/
theorem later_apply (ix : InvertedIndex) (c : Change) : Later version ix (c.apply ix) := by
  cases c with
  | put e => exact Or.inr (Nat.lt_succ_self _)
  | remove pk =>
    show Later version ix (ix.remove pk)
    unfold remove
    cases ix.entry? pk with
    | none => exact later_refl ix
    | some old => exact Or.inr (Nat.lt_succ_self _)
  | clear => exact Or.inr (Nat.lt_succ_self _)

/-- The index without its version. -/
def content (ix : InvertedIndex) : InvertedIndex := { ix with version := 0 }

theorem content_without (ix : InvertedIndex) (pk : Key) :
    (ix.without pk).content = ix.content.without pk := by
  unfold without
  rw [show ix.content.entry? pk = ix.entry? pk from rfl]
  cases ix.entry? pk <;> rfl

/-- A change acts on the content alone. -/
theorem content_apply (ix : InvertedIndex) (c : Change) :
    (c.apply ix).content = (c.apply ix.content).content := by
  cases c with
  | put e =>
    show content (add (ix.without e.pk) e) = content (add (ix.content.without e.pk) e)
    rw [← content_without]
    rfl
  | remove pk =>
    show (ix.remove pk).content = (ix.content.remove pk).content
    unfold remove
    rw [show ix.content.entry? pk = ix.entry? pk from rfl]
    cases ix.entry? pk <;> rfl
  | clear => rfl

end InvertedIndex

/-! ## Searches -/

/-- A search finds the same in an index as in its content. -/
theorem CompiledSearch.hits_content (c : CompiledSearch) (st : Store) (ix : InvertedIndex)
    (scorer : Scorer) : c.hits st ix.content scorer = c.hits st ix scorer := by
  have hscores : ∀ base, (c.matcher ix.content scorer base).evaluate c.query =
      (c.matcher ix scorer base).evaluate c.query := by
    intro base
    refine Matcher.evaluate_congr ?_ (fun boost t pk => ?_) c.query
    · rfl
    · rfl
  unfold hits
  simp only [hscores]

theorem CompiledSearch.hits_congr (c : CompiledSearch) (st : Store) {ix ix' : InvertedIndex}
    (h : ix.content = ix'.content) (scorer : Scorer) :
    c.hits st ix scorer = c.hits st ix' scorer := by
  rw [← c.hits_content st ix, h, c.hits_content st ix']

end Concordance
