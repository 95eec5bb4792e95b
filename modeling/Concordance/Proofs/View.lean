import Concordance.View
import Mathlib

/-!
# Consuming views

`consume_cases` lists what consuming a view can do: nothing, if the view has no source; show the
hits that it holds, if its source still shows their watermark; and else evaluate the source. In
each case the view keeps its source (`origin_consume`).
-/

namespace Concordance.View

variable {σ : Type}

/-- The source of a view, if it has one. -/
def origin : View σ → Option σ
  | empty => none
  | ofSource source _ => some source

/-- The hits of a view, evaluated now. -/
def evaluated (now : σ → Source) (v : View σ) : Result (List Hit) :=
  match v.origin with
  | none => .ok []
  | some source => (now source).fetch ()

/-- Only the view that never holds a hit has no source. -/
theorem eq_empty_of_origin {v : View σ} (h : v.origin = none) : v = .empty := by
  cases v with
  | empty => rfl
  | ofSource => nomatch h

theorem origin_fresh (v : View σ) : v.fresh.origin = v.origin := by
  cases v <;> rfl

theorem isHeld_fresh (v : View σ) : v.fresh.isHeld = false := by
  cases v <;> rfl

theorem answer_refetch (source : σ) (held : Option (Nat × List Hit)) (now : Source) :
    (refetch source held now).answer = now.fetch () := by
  unfold refetch
  cases now.fetch () <;> rfl

theorem origin_refetch (source : σ) (held : Option (Nat × List Hit)) (now : Source) :
    (refetch source held now).view.origin = some source := by
  unfold refetch
  cases now.fetch () <;> rfl

/-- **What consuming a view does.** -/
theorem consume_cases (now : σ → Source) (v : View σ) :
    (v = .empty ∧ v.consume now = ⟨.ok [], v, false⟩) ∨
    (∃ source hits, v = .ofSource source (some ((now source).watermark, hits)) ∧
      v.consume now = ⟨.ok hits, v, false⟩) ∨
    ∃ source held, v = .ofSource source held ∧
      v.consume now = refetch source held (now source) := by
  cases v with
  | empty => exact Or.inl ⟨rfl, rfl⟩
  | ofSource source held =>
    right
    cases held with
    | none => exact Or.inr ⟨source, none, rfl, rfl⟩
    | some evaluation =>
      obtain ⟨seen, hits⟩ := evaluation
      by_cases hseen : seen = (now source).watermark
      · subst hseen
        refine Or.inl ⟨source, hits, rfl, ?_⟩
        show (if _ = _ then _ else _) = _
        rw [if_pos rfl]
      · refine Or.inr ⟨source, some (seen, hits), rfl, ?_⟩
        show (if _ = _ then _ else _) = _
        rw [if_neg hseen]

theorem answer_consume_of_not_held (now : σ → Source) {v : View σ} (h : v.isHeld = false) :
    (v.consume now).answer = v.evaluated now := by
  obtain ⟨rfl, hv⟩ | ⟨source, hits, rfl, -⟩ | ⟨source, held, rfl, hv⟩ := consume_cases now v
  · rw [hv]
    rfl
  · nomatch h
  · rw [hv]
    exact answer_refetch source held (now source)

/-- Consuming a view reads its own source only. -/
theorem consume_congr {now now' : σ → Source} {v : View σ}
    (h : ∀ source, v.origin = some source → now source = now' source) :
    v.consume now = v.consume now' := by
  cases v with
  | empty => rfl
  | ofSource source held =>
    have hsource := h source rfl
    cases held with
    | none => simp only [consume, hsource]
    | some evaluation => simp only [consume, hsource]

/-- A view that fails is left as it was. -/
theorem view_consume_of_error {now : σ → Source} {v : View σ} {e : Error}
    (h : (v.consume now).answer = .error e) : (v.consume now).view = v := by
  obtain ⟨-, hv⟩ | ⟨source, hits, -, hv⟩ | ⟨source, held, rfl, hv⟩ := consume_cases now v
  · rw [hv]
  · rw [hv]
  · rw [hv, answer_refetch] at h
    rw [hv]
    unfold refetch
    rw [h]

/-- A view fails only as its source does. -/
theorem error_of_consume {now : σ → Source} {v : View σ} {e : Error}
    (h : (v.consume now).answer = .error e) :
    ∃ source, v.origin = some source ∧ (now source).fetch () = .error e := by
  obtain ⟨rfl, hv⟩ | ⟨source, hits, rfl, hv⟩ | ⟨source, held, rfl, hv⟩ := consume_cases now v
  · rw [hv] at h
    nomatch h
  · rw [hv] at h
    nomatch h
  · rw [hv, answer_refetch] at h
    exact ⟨source, rfl, h⟩

theorem origin_consume (now : σ → Source) (v : View σ) :
    (v.consume now).view.origin = v.origin := by
  obtain ⟨-, h⟩ | ⟨source, hits, -, h⟩ | ⟨source, held, rfl, h⟩ := consume_cases now v
  · rw [h]
  · rw [h]
  · rw [h, origin_refetch]
    rfl

end Concordance.View
