import Concordance.Proofs.View
import Concordance.Proofs.Session.Command

/-!
# Views over a source that changes

A `Watch` is a source with the views over it: a first view, and clones of views. Between two uses
of a view the source can change in any way: another list, any watermark, later or earlier, and an
evaluation that succeeds or fails. The `Watch` also keeps the evaluations so far, each with the view
that asked for it and with what the source was then.

That record says everything about a view: it holds what its own last successful evaluation gave
(`kept_play`), whatever the other views did.

* **`serves`**: after every run, a view is evaluated exactly when it holds nothing under the present
  watermark; what a success and a failure leave; that what is held is served again whenever its
  watermark returns; that a view and its clones go on without each other; and that a view tells the
  present list if no watermark has been shown with two lists.
* **`outdated`**: that changed lists come with unused watermarks does not suffice, since a source
  can return to an earlier watermark and keep its list.
-/

namespace Concordance

/-- What a source shows at some moment. -/
structure Feed where
  watermark : Nat
  /-- The list of hits. -/
  hits : List Hit
  /-- The error of every evaluation, while they fail. -/
  fault : Option Error

namespace Feed

/-- Evaluates the source. -/
def fetch (f : Feed) : Result (List Hit) :=
  match f.fault with
  | none => .ok f.hits
  | some e => .error e

/-- The source itself. -/
def source (f : Feed) : Source := ⟨f.watermark, fun _ => f.fetch⟩

end Feed

/-- A source with the views over it. -/
structure Watch where
  feed : Feed
  views : List (View Unit)
  /-- The evaluations so far, the latest first: the view that asked, and the source then. -/
  fetches : List (Nat × Feed)

/-- Something that happens to a source and its views. -/
inductive Watch.Step where
  /-- The source changes. -/
  | change (feed : Feed)
  /-- A view is read. -/
  | read (n : Nat) (readout : Readout)
  /-- A view is cloned. -/
  | clone (n : Nat)

/-- The evaluation that a view holds, with its watermark. -/
def View.held {σ : Type} : View σ → Option (Nat × List Hit)
  | .empty => none
  | .ofSource _ held => held

namespace Watch

/-- What a view gives now. -/
def consume (w : Watch) (v : View Unit) : View.Outcome Unit := v.consume fun _ => w.feed.source

/-- What reading a view gives, if there is such a view. -/
def answer (w : Watch) (n : Nat) (readout : Readout) : Option (Result Answer) :=
  w.views[n]?.map fun v => (w.consume v).answer.map fun hs => readout.answer hs

/-- The views after one of them was consumed. -/
def record (w : Watch) (n : Nat) (outcome : View.Outcome Unit) : Watch :=
  { w with
    views := w.views.set n outcome.view
    fetches := if outcome.fetched then (n, w.feed) :: w.fetches else w.fetches }

/-- The views after a step. -/
def step (w : Watch) : Step → Watch
  | .change feed => { w with feed }
  | .read n _ =>
    match w.views[n]? with
    | some v => w.record n (w.consume v)
    | none => w
  | .clone n =>
    match w.views[n]? with
    | some v => { w with views := w.views ++ [v.fresh] }
    | none => w

/-- The views after steps. -/
def play (w : Watch) (steps : List Step) : Watch := steps.foldl step w

/-- A source with one view that was not read yet. -/
def start (feed : Feed) : Watch := ⟨feed, [.ofSource () none], []⟩

/-- What the last successful evaluation for a view gave, with the watermark then. -/
def lastFetched (n : Nat) (fetches : List (Nat × Feed)) : Option (Nat × List Hit) :=
  (fetches.find? fun (m, f) => m == n && f.fault.isNone).map fun (_, f) => (f.watermark, f.hits)

/-- What the source shows in a run, from the start on. -/
def shown (feed : Feed) (steps : List Step) : List Feed :=
  feed :: steps.filterMap fun
    | .change feed => some feed
    | .read _ _ | .clone _ => none

/-- Whether a step changes the source or reads a view. -/
def Step.concerns (n : Nat) : Step → Bool
  | .change _ => true
  | .read m _ => m == n
  | .clone _ => false

/-- The evaluations for a view. -/
def fetchesOf (n : Nat) (w : Watch) : List (Nat × Feed) := w.fetches.filter fun p => p.1 == n

theorem play_append (w : Watch) (steps more : List Step) :
    w.play (steps ++ more) = (w.play steps).play more := List.foldl_append

/-! ## Reading a view -/

section Reading

variable {w : Watch} {n : Nat} {held : Option (Nat × List Hit)} {hits : List Hit}

/-- What is held under the present watermark is given, and nothing else happens. -/
theorem consume_held (h : held = some (w.feed.watermark, hits)) :
    w.consume (.ofSource () held) = ⟨.ok hits, .ofSource () held, false⟩ := by
  subst h
  show (if _ = _ then _ else _) = _
  exact if_pos rfl

theorem consume_not_held (h : ∀ hits, held ≠ some (w.feed.watermark, hits)) :
    w.consume (.ofSource () held) = View.refetch () held w.feed.source := by
  cases held with
  | none => rfl
  | some evaluation =>
    obtain ⟨seen, hits⟩ := evaluation
    have hseen : seen ≠ w.feed.watermark := fun heq => h hits (by rw [heq])
    show (if _ = _ then _ else _) = _
    exact if_neg hseen

theorem refetch_ok (h : w.feed.fetch = .ok hits) :
    View.refetch () held w.feed.source =
      ⟨.ok hits, .ofSource () (some (w.feed.watermark, hits)), true⟩ := by
  have hfetch : w.feed.source.fetch () = .ok hits := h
  rw [View.refetch, hfetch]
  rfl

theorem refetch_error {e : Error} (h : w.feed.fetch = .error e) :
    View.refetch () held w.feed.source = ⟨.error e, .ofSource () held, true⟩ := by
  have hfetch : w.feed.source.fetch () = .error e := h
  rw [View.refetch, hfetch]

theorem step_read {v : View Unit} (hv : w.views[n]? = some v) (readout : Readout) :
    w.step (.read n readout) = w.record n (w.consume v) := by
  simp only [step, hv]

theorem answer_eq {v : View Unit} (hv : w.views[n]? = some v) (readout : Readout) :
    w.answer n readout = some ((w.consume v).answer.map fun hs => readout.answer hs) := by
  simp only [answer, hv, Option.map_some]

theorem lt_of_view {v : View Unit} (hv : w.views[n]? = some v) : n < w.views.length :=
  (List.getElem?_eq_some_iff.mp hv).1

theorem set_view {v : View Unit} (hv : w.views[n]? = some v) : w.views.set n v = w.views :=
  List.ext_getElem? fun i => by
    rw [List.getElem?_set]
    by_cases hi : n = i
    · subst hi
      rw [if_pos rfl, if_pos (lt_of_view hv), hv]
    · rw [if_neg hi]

/-- **Reading a view that holds an evaluation under the present watermark.** -/
theorem read_held (hv : w.views[n]? = some (.ofSource () held))
    (h : held = some (w.feed.watermark, hits)) (readout : Readout) :
    w.answer n readout = some (.ok (readout.answer hits)) ∧ w.step (.read n readout) = w := by
  refine ⟨by rw [answer_eq hv, consume_held h]; rfl, ?_⟩
  rw [step_read hv, consume_held h]
  show ({ w with views := w.views.set n _ } : Watch) = w
  rw [set_view hv]

/-- **Reading a view that does not, when the source can be evaluated.** -/
theorem read_ok (hv : w.views[n]? = some (.ofSource () held))
    (h : ∀ hits, held ≠ some (w.feed.watermark, hits)) (hok : w.feed.fetch = .ok hits)
    (readout : Readout) :
    w.answer n readout = some (.ok (readout.answer hits)) ∧
      w.step (.read n readout) = { w with
        views := w.views.set n (.ofSource () (some (w.feed.watermark, hits)))
        fetches := (n, w.feed) :: w.fetches } := by
  have hc := (consume_not_held h).trans (refetch_ok hok)
  refine ⟨by rw [answer_eq hv, hc]; rfl, ?_⟩
  rw [step_read hv, hc]
  rfl

/-- **Reading a view that does not, when the source fails.** -/
theorem read_error {e : Error} (hv : w.views[n]? = some (.ofSource () held))
    (h : ∀ hits, held ≠ some (w.feed.watermark, hits)) (herr : w.feed.fetch = .error e)
    (readout : Readout) :
    w.answer n readout = some (.error e) ∧
      w.step (.read n readout) = { w with fetches := (n, w.feed) :: w.fetches } := by
  have hc := (consume_not_held h).trans (refetch_error herr)
  refine ⟨by rw [answer_eq hv, hc]; rfl, ?_⟩
  rw [step_read hv, hc]
  show ({ w with views := w.views.set n _, fetches := (n, w.feed) :: w.fetches } : Watch) = _
  rw [set_view hv]

end Reading

/-! ## What a view holds -/

section Kept

theorem lastFetched_cons_other {n m : Nat} (h : m ≠ n) (feed : Feed)
    (fetches : List (Nat × Feed)) :
    lastFetched n ((m, feed) :: fetches) = lastFetched n fetches := by
  simp [lastFetched, h]

theorem lastFetched_cons_ok {n : Nat} {feed : Feed} {hits : List Hit} (h : feed.fetch = .ok hits)
    (fetches : List (Nat × Feed)) :
    lastFetched n ((n, feed) :: fetches) = some (feed.watermark, hits) := by
  unfold Feed.fetch at h
  split at h
  · rename_i hfault
    injection h with hhits
    simp [lastFetched, hfault, hhits]
  · nomatch h

theorem lastFetched_cons_error {n : Nat} {feed : Feed} {e : Error} (h : feed.fetch = .error e)
    (fetches : List (Nat × Feed)) :
    lastFetched n ((n, feed) :: fetches) = lastFetched n fetches := by
  unfold Feed.fetch at h
  split at h
  · nomatch h
  · rename_i hfault
    simp [lastFetched, hfault]

/-- Failures and other views do not count. -/
theorem lastFetched_append {n : Nat} {new fetches : List (Nat × Feed)}
    (h : ∀ feed, (n, feed) ∈ new → feed.fault ≠ none) :
    lastFetched n (new ++ fetches) = lastFetched n fetches := by
  unfold lastFetched
  rw [List.find?_append, List.find?_eq_none.mpr, Option.none_or]
  rintro ⟨m, feed⟩ hmem hm
  simp only [Bool.and_eq_true, beq_iff_eq, Option.isNone_iff_eq_none] at hm
  obtain ⟨rfl, hfault⟩ := hm
  exact h feed hmem hfault

theorem exists_of_lastFetched {n seen : Nat} {hits : List Hit} {fetches : List (Nat × Feed)}
    (h : lastFetched n fetches = some (seen, hits)) :
    ∃ feed, (n, feed) ∈ fetches ∧ feed.watermark = seen ∧ feed.hits = hits := by
  obtain ⟨⟨m, feed⟩, hfind, heq⟩ := Option.map_eq_some_iff.mp h
  have hm := List.find?_some hfind
  simp only [Bool.and_eq_true, beq_iff_eq] at hm
  obtain ⟨rfl, -⟩ := hm
  injection heq with hseen hhits
  exact ⟨feed, List.mem_of_find?_eq_some hfind, hseen, hhits⟩

/-- Each view holds what its own last successful evaluation gave. -/
structure Kept (w : Watch) : Prop where
  held : ∀ n v, w.views[n]? = some v → v = View.ofSource () (lastFetched n w.fetches)
  /-- Only views that exist were evaluated, so a new clone holds nothing. -/
  known : ∀ n feed, (n, feed) ∈ w.fetches → n < w.views.length

variable {w : Watch}

theorem kept_start (feed : Feed) : Kept (start feed) where
  held n v hv := by
    cases n with
    | zero =>
      injection hv with hv
      exact hv.symm
    | succ n => nomatch hv
  known _ _ hmem := nomatch hmem

theorem Kept.lastFetched_length (h : Kept w) : lastFetched w.views.length w.fetches = none := by
  cases hlast : lastFetched w.views.length w.fetches with
  | none => rfl
  | some evaluation =>
    obtain ⟨seen, hits⟩ := evaluation
    obtain ⟨feed, hmem, -⟩ := exists_of_lastFetched hlast
    exact absurd (h.known _ feed hmem) (lt_irrefl _)

/-- A read that evaluated the source leaves each view with what its last evaluation gave. -/
theorem Kept.of_fetched (h : Kept w) {n : Nat} (hn : n < w.views.length)
    {held : Option (Nat × List Hit)} (hheld : held = lastFetched n ((n, w.feed) :: w.fetches)) :
    Kept { w with
      views := w.views.set n (.ofSource () held)
      fetches := (n, w.feed) :: w.fetches } where
  held m v hv := by
    rw [List.getElem?_set] at hv
    by_cases hm : n = m
    · subst hm
      rw [if_pos rfl, if_pos hn] at hv
      injection hv with hv
      rw [← hv, hheld]
    · rw [if_neg hm] at hv
      rw [h.held m v hv, lastFetched_cons_other hm]
  known m feed hmem := by
    rw [List.length_set]
    obtain heq | hmem := List.mem_cons.mp hmem
    · injection heq with hm _
      rw [hm]
      exact hn
    · exact h.known m feed hmem

theorem Kept.step (h : Kept w) (s : Step) : Kept (w.step s) := by
  cases s with
  | change feed => exact ⟨h.held, h.known⟩
  | read n readout =>
    cases hv : w.views[n]? with
    | none =>
      simp only [Watch.step, hv]
      exact h
    | some v =>
      have hview := h.held n v hv
      subst hview
      by_cases hnow : ∃ hits, lastFetched n w.fetches = some (w.feed.watermark, hits)
      · obtain ⟨hits, hhits⟩ := hnow
        rw [(read_held hv hhits readout).2]
        exact h
      · have hnot := fun hits heq => hnow ⟨hits, heq⟩
        cases hfetch : w.feed.fetch with
        | ok hits =>
          rw [(read_ok hv hnot hfetch readout).2]
          exact h.of_fetched (lt_of_view hv) (lastFetched_cons_ok hfetch _).symm
        | error e =>
          have hset := h.of_fetched (lt_of_view hv) (lastFetched_cons_error hfetch _).symm
          rw [set_view hv] at hset
          rw [(read_error hv hnot hfetch readout).2]
          exact hset
  | clone n =>
    cases hv : w.views[n]? with
    | none =>
      simp only [Watch.step, hv]
      exact h
    | some v =>
      have hview := h.held n v hv
      subst hview
      simp only [Watch.step, hv]
      refine ⟨fun m v hm => ?_, fun m feed hmem => ?_⟩
      · rw [List.getElem?_append] at hm
        split at hm
        · exact h.held m v hm
        · rename_i hlen
          obtain ⟨hm0, rfl⟩ : m - w.views.length = 0 ∧ View.ofSource () none = v := by
            cases hsub : m - w.views.length with
            | zero =>
              rw [hsub] at hm
              injection hm with hm
              exact ⟨rfl, hm⟩
            | succ k =>
              rw [hsub] at hm
              nomatch hm
          obtain rfl : m = w.views.length := by omega
          rw [h.lastFetched_length]
      · rw [List.length_append]
        exact Nat.lt_of_lt_of_le (h.known m feed hmem) (Nat.le_add_right _ _)

/-- **Each view holds what its own last successful evaluation gave**, after every run. -/
theorem kept_play (feed : Feed) (steps : List Step) : Kept ((start feed).play steps) := by
  have hrun : ∀ {w : Watch}, Kept w → Kept (w.play steps) := by
    induction steps with
    | nil => exact fun h => h
    | cons s steps ih => exact fun h => ih (h.step s)
  exact hrun (kept_start feed)

end Kept

/-! ## A run, seen from one view -/

section Runs

variable {w w' : Watch} {n : Nat}

/-- A step can only add an evaluation, of the source as it is, and keeps every view. -/
theorem step_grows (w : Watch) (s : Step) :
    (∃ new, (w.step s).fetches = new ++ w.fetches ∧ ∀ p ∈ new, p.2 = w.feed) ∧
      ∀ n < w.views.length, n < (w.step s).views.length := by
  cases s with
  | change feed => exact ⟨⟨[], rfl, fun _ hp => nomatch hp⟩, fun _ hn => hn⟩
  | read n readout =>
    cases hv : w.views[n]? with
    | none =>
      simp only [step, hv]
      exact ⟨⟨[], rfl, fun _ hp => nomatch hp⟩, fun _ hn => hn⟩
    | some v =>
      rw [step_read hv]
      refine ⟨?_, fun m hm => by simpa [record] using hm⟩
      unfold record
      cases (w.consume v).fetched with
      | true => exact ⟨[(n, w.feed)], rfl, fun p hp => by rw [List.mem_singleton.mp hp]⟩
      | false => exact ⟨[], rfl, fun _ hp => nomatch hp⟩
  | clone n =>
    cases hv : w.views[n]? with
    | none =>
      simp only [step, hv]
      exact ⟨⟨[], rfl, fun _ hp => nomatch hp⟩, fun _ hn => hn⟩
    | some v =>
      simp only [step, hv]
      refine ⟨⟨[], rfl, fun _ hp => nomatch hp⟩, fun m hm => ?_⟩
      rw [List.length_append]
      exact Nat.lt_of_lt_of_le hm (Nat.le_add_right _ _)

theorem play_grows (w : Watch) (steps : List Step) :
    (∃ new, (w.play steps).fetches = new ++ w.fetches) ∧
      ∀ n < w.views.length, n < (w.play steps).views.length := by
  induction steps generalizing w with
  | nil => exact ⟨⟨[], rfl⟩, fun _ hn => hn⟩
  | cons s steps ih =>
    obtain ⟨⟨new, hnew⟩, hlen⟩ := ih (w.step s)
    obtain ⟨⟨first, hfirst, -⟩, hstep⟩ := step_grows w s
    refine ⟨⟨new ++ first, ?_⟩, fun n hn => hlen n (hstep n hn)⟩
    rw [List.append_assoc, ← hfirst]
    exact hnew

/-- What was evaluated was shown. -/
theorem shown_of_fetched (feed : Feed) (steps : List Step) :
    ((start feed).play steps).feed ∈ shown feed steps ∧
      ∀ p ∈ ((start feed).play steps).fetches, p.2 ∈ shown feed steps := by
  induction steps using List.reverseRecOn with
  | nil => exact ⟨List.mem_singleton.mpr rfl, fun _ hp => nomatch hp⟩
  | append_singleton steps s ih =>
    obtain ⟨hfeed, hfetches⟩ := ih
    have hsub : ∀ f ∈ shown feed steps, f ∈ shown feed (steps ++ [s]) := by
      intro f hf
      unfold shown at hf ⊢
      rw [List.filterMap_append, ← List.cons_append]
      exact List.mem_append_left _ hf
    rw [play_append]
    refine ⟨?_, fun p hp => ?_⟩
    · show (((start feed).play steps).step s).feed ∈ _
      cases s with
      | change later =>
        unfold shown
        rw [List.filterMap_append, ← List.cons_append]
        exact List.mem_append_right _ (List.mem_singleton.mpr rfl)
      | read n readout =>
        simp only [step]
        split <;> exact hsub _ hfeed
      | clone n =>
        simp only [step]
        split <;> exact hsub _ hfeed
    · obtain ⟨⟨new, hnew, hwhen⟩, -⟩ := step_grows ((start feed).play steps) s
      have hp : p ∈ (((start feed).play steps).step s).fetches := hp
      rw [hnew] at hp
      obtain hp | hp := List.mem_append.mp hp
      · rw [hwhen p hp]
        exact hsub _ hfeed
      · exact hsub _ (hfetches p hp)

/-- Two runs look the same from a view. -/
structure Alike (n : Nat) (w w' : Watch) : Prop where
  feed : w.feed = w'.feed
  view : w.views[n]? = w'.views[n]?
  exists_view : n < w.views.length
  fetches : w.fetchesOf n = w'.fetchesOf n

/-- A step that does not concern a view does not show there. -/
theorem Alike.step_left (h : Alike n w w') {s : Step} (hs : s.concerns n = false) :
    Alike n (w.step s) w' := by
  cases s with
  | change feed => nomatch hs
  | read m readout =>
    have hm : m ≠ n := by simpa [Step.concerns] using hs
    cases hv : w.views[m]? with
    | none =>
      simp only [step, hv]
      exact h
    | some v =>
      rw [step_read hv]
      refine ⟨h.feed, ?_, by simpa [record] using h.exists_view, ?_⟩
      · show (w.views.set m _)[n]? = _
        rw [List.getElem?_set_ne hm]
        exact h.view
      · rw [← h.fetches]
        show List.filter _ (if _ then (m, w.feed) :: w.fetches else w.fetches) = _
        split
        · exact List.filter_cons_of_neg (by simpa using hm)
        · rfl
  | clone m =>
    cases hv : w.views[m]? with
    | none =>
      simp only [step, hv]
      exact h
    | some v =>
      simp only [step, hv]
      refine ⟨h.feed, ?_, ?_, h.fetches⟩
      · show (w.views ++ _)[n]? = _
        rw [List.getElem?_append_left h.exists_view]
        exact h.view
      · rw [List.length_append]
        exact Nat.lt_of_lt_of_le h.exists_view (Nat.le_add_right _ _)

/-- A step that concerns a view does the same in both. -/
theorem Alike.step (h : Alike n w w') {s : Step} (hs : s.concerns n = true) :
    Alike n (w.step s) (w'.step s) := by
  cases s with
  | change feed => exact ⟨rfl, h.view, h.exists_view, h.fetches⟩
  | read m readout =>
    obtain rfl : m = n := by simpa [Step.concerns] using hs
    have hm := h.exists_view
    have hv : w.views[m]? = some w.views[m] := List.getElem?_eq_getElem hm
    have hv' := h.view.symm.trans hv
    have hconsume : w.consume w.views[m] = w'.consume w.views[m] := by
      unfold consume
      rw [h.feed]
    rw [step_read hv, step_read hv']
    refine ⟨h.feed, ?_, by simpa [record] using h.exists_view, ?_⟩
    · show (w.views.set m _)[m]? = (w'.views.set m _)[m]?
      rw [List.getElem?_set_self hm, List.getElem?_set_self (lt_of_view hv'), hconsume]
    · have hfetches := h.fetches
      unfold fetchesOf at hfetches ⊢
      unfold record
      rw [hconsume, h.feed]
      cases (w'.consume w.views[m]).fetched with
      | true =>
        show List.filter _ (_ :: _) = List.filter _ (_ :: _)
        rw [List.filter_cons_of_pos (by simp), List.filter_cons_of_pos (by simp), hfetches]
      | false => exact hfetches
  | clone m => nomatch hs

/-- **What other views do does not show at a view.** -/
theorem alike_play (h : n < w.views.length) (steps : List Step) :
    Alike n (w.play steps) (w.play (steps.filter (Step.concerns n))) := by
  have hrun : ∀ {w w' : Watch}, Alike n w w' →
      Alike n (w.play steps) (w'.play (steps.filter (Step.concerns n))) := by
    induction steps with
    | nil => exact fun h => h
    | cons s steps ih =>
      intro w w' h
      cases hs : s.concerns n with
      | true =>
        rw [List.filter_cons_of_pos hs]
        exact ih (h.step hs)
      | false =>
        rw [List.filter_cons_of_neg (by rw [hs]; exact Bool.false_ne_true)]
        exact ih (h.step_left hs)
  exact hrun ⟨rfl, rfl, h, rfl⟩

end Runs

/-! ## The contract of views -/

/-- If no watermark has been shown with two lists, what is read is the present list. -/
theorem answer_of_steady {w : Watch} {n : Nat} {feeds : List Feed} (hnow : w.feed ∈ feeds)
    (hfetched : ∀ p ∈ w.fetches, p.2 ∈ feeds)
    (hsteady : ∀ f ∈ feeds, ∀ g ∈ feeds, f.watermark = g.watermark → f.hits = g.hits)
    (hv : w.views[n]? = some (.ofSource () (lastFetched n w.fetches))) {readout : Readout}
    {a : Answer} (ha : w.answer n readout = some (.ok a)) : a = readout.answer w.feed.hits := by
  by_cases hheld : ∃ hits, lastFetched n w.fetches = some (w.feed.watermark, hits)
  · obtain ⟨hits, hhits⟩ := hheld
    obtain ⟨f, hf, hmark, rfl⟩ := exists_of_lastFetched hhits
    rw [(read_held hv hhits readout).1] at ha
    injection ha with ha
    injection ha with ha
    rw [← ha, hsteady f (hfetched _ hf) w.feed hnow hmark]
  · have hnot := fun hits heq => hheld ⟨hits, heq⟩
    cases hfault : w.feed.fault with
    | none =>
      have hok : w.feed.fetch = .ok w.feed.hits := by
        unfold Feed.fetch
        rw [hfault]
      rw [(read_ok hv hnot hok readout).1] at ha
      injection ha with ha
      injection ha with ha
      exact ha.symm
    | some e =>
      have herr : w.feed.fetch = .error e := by
        unfold Feed.fetch
        rw [hfault]
      rw [(read_error hv hnot herr readout).1] at ha
      injection ha with ha
      nomatch ha

/-- **What a view gives and holds**, after every run over a source that changes in any way.

* It holds what its own last successful evaluation gave.
* A read evaluates the source exactly if nothing is held under the present watermark. Else it gives
  what is held, and nothing changes. If the evaluation succeeds, its list is given and held instead,
  under the present watermark; if it fails, its error is given and the views are as they were.
* What is held is held until the next successful evaluation for the view, and is given, without an
  evaluation, whenever the source shows its watermark again.
* A clone holds nothing, and making it changes nothing else. Whatever steps follow, a view, its
  evaluations and the source are as if the other views had not been read or cloned.
* If no watermark has been shown with two lists, what is read is the present list. -/
theorem serves (feed : Feed) (steps : List Step) (n : Nat) (v : View Unit)
    (hv : ((start feed).play steps).views[n]? = some v) :
    let w := (start feed).play steps
    v.held = lastFetched n w.fetches ∧
    (∀ readout hits, v.held = some (w.feed.watermark, hits) →
      w.answer n readout = some (.ok (readout.answer hits)) ∧ w.step (.read n readout) = w) ∧
    (∀ readout, (∀ hits, v.held ≠ some (w.feed.watermark, hits)) →
      (∀ hits, w.feed.fetch = .ok hits →
        w.answer n readout = some (.ok (readout.answer hits)) ∧
        w.step (.read n readout) = { w with
          views := w.views.set n (.ofSource () (some (w.feed.watermark, hits)))
          fetches := (n, w.feed) :: w.fetches }) ∧
      (∀ e, w.feed.fetch = .error e →
        w.answer n readout = some (.error e) ∧
        w.step (.read n readout) = { w with fetches := (n, w.feed) :: w.fetches })) ∧
    (∀ more, ∃ new, (w.play more).fetches = new ++ w.fetches ∧
      ((∀ later, (n, later) ∈ new → later.fault ≠ none) →
        ∀ hits, v.held = some ((w.play more).feed.watermark, hits) → ∀ readout,
          (w.play more).answer n readout = some (.ok (readout.answer hits)) ∧
          (w.play more).step (.read n readout) = w.play more)) ∧
    w.step (.clone n) = { w with views := w.views ++ [.ofSource () none] } ∧
    (∀ more, Alike n (w.play more) (w.play (more.filter (Step.concerns n)))) ∧
    ((∀ f ∈ shown feed steps, ∀ g ∈ shown feed steps, f.watermark = g.watermark → f.hits = g.hits) →
      ∀ readout a, w.answer n readout = some (.ok a) → a = readout.answer w.feed.hits) := by
  intro w
  have hkept : Kept w := kept_play feed steps
  have hview := hkept.held n v hv
  subst hview
  refine ⟨rfl, fun readout hits h => read_held hv h readout, fun readout h =>
    ⟨fun hits hok => read_ok hv h hok readout, fun e herr => read_error hv h herr readout⟩,
    fun more => ?_, ?_, fun more => alike_play (lt_of_view hv) more, fun hsteady readout a ha => ?_⟩
  · obtain ⟨⟨new, hnew⟩, hlen⟩ := play_grows w more
    refine ⟨new, hnew, fun hfailed hits hheld readout => ?_⟩
    have hmore : Kept (w.play more) := play_append (start feed) steps more ▸ kept_play feed _
    have hlater := List.getElem?_eq_getElem (hlen n (lt_of_view hv))
    rw [hmore.held n _ hlater] at hlater
    refine read_held hlater ?_ readout
    rw [hnew, lastFetched_append hfailed]
    exact hheld
  · have hv : w.views[n]? = some (.ofSource () (lastFetched n w.fetches)) := hv
    simp only [step, hv]
    rfl
  · obtain ⟨hnow, hfetched⟩ := shown_of_fetched feed steps
    exact answer_of_steady hnow hfetched hsteady hv ha

/-- A hit with a book. -/
def bookHit (pk : Key) : Hit := ⟨⟨"Book", pk, ∅, ∅⟩, 0.5⟩

/-- A source that fails for a while under another watermark and then comes back, while its view is
read and cloned. -/
def interrupted : List Step :=
  [.read 0 .count, .change ⟨1, [bookHit 2], some (.storage "gone")⟩, .read 0 .count, .clone 0,
    .change ⟨0, [bookHit 1], none⟩]

theorem serves_interrupted :
    let w := (start ⟨0, [bookHit 1], none⟩).play interrupted
    w.fetches.map Prod.fst = [0, 0] ∧ w.answer 0 .count = some (.ok (.count 1)) ∧
      w.step (.read 0 .count) = w ∧
      (∀ readout a, w.answer 0 readout = some (.ok a) → a = readout.answer [bookHit 1]) ∧
      w.step (.clone 1) = { w with views := w.views ++ [.ofSource () none] } := by
  intro w
  have h := serves ⟨0, [bookHit 1], none⟩ interrupted 0 (.ofSource () (some (0, [bookHit 1]))) rfl
  have hclone := serves ⟨0, [bookHit 1], none⟩ interrupted 1 (.ofSource () none) rfl
  have hread := h.2.1 .count [bookHit 1] rfl
  exact ⟨rfl, hread.1, hread.2, h.2.2.2.2.2.2 (by decide +kernel), hclone.2.2.2.2.1⟩

/-- In what a source shows, each change of the list comes with a watermark not shown before. -/
def Renewing (shown : List Feed) : Prop :=
  ∀ i j f g h, j ≤ i → shown[i]? = some f → shown[i + 1]? = some g → shown[j]? = some h →
    f.hits ≠ g.hits → h.watermark ≠ g.watermark

/-- The list changes under a new watermark, which a clone reads; then the source goes back to the
watermark before and keeps its list. -/
def goingBack : List Step :=
  [.read 0 .count, .clone 0, .change ⟨1, [], none⟩, .read 1 .count, .change ⟨0, [], none⟩]

theorem renewing_goingBack : Renewing (shown ⟨0, [bookHit 1], none⟩ goingBack) := by
  intro i j f g h hji hf hg hh hne
  match i, j with
  | 0, 0 =>
    injection hg with hg
    injection hh with hh
    subst hg hh
    exact Nat.zero_ne_one
  | 1, j =>
    -- The second change keeps the list.
    injection hf with hf
    injection hg with hg
    subst hf hg
    exact absurd rfl hne
  | i + 2, j => nomatch hg

/-- **A view can be outdated** although the list only changed together with a new watermark: what it
holds under an earlier watermark is given when the source returns to it. -/
theorem outdated :
    ¬ ∀ feed steps n readout a, Renewing (shown feed steps) →
      ((start feed).play steps).answer n readout = some (.ok a) →
      a = readout.answer ((start feed).play steps).feed.hits := by
  intro h
  have hcount := h ⟨0, [bookHit 1], none⟩ goingBack 0 .count (.count 1) renewing_goingBack rfl
  nomatch hcount

end Watch

end Concordance
