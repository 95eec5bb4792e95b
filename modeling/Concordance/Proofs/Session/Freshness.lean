import Concordance.Proofs.Session.Effect

/-!
# Views are never stale

A view holds its last evaluation under the watermark that its source showed then. The watermark is
the number of writes to the store and to the index, cut to 64 bits. Each write that has an effect
counts (`Session.grows_next`), so an evaluation that is held was made at some number of writes of
the run and is right as long as that number stands (`Session.Fresh`). With fewer than `2 ^ 64`
writes in a run no two numbers are cut to the same watermark.

* `fresh_next`, `allFresh_play`: every view stays fresh, under a command and along every run.
* `origin_next`, `origin_play`: the names that a view and its clones are kept under show one search.
* **`read_after_search`**: each reading of a view, at any later moment, reads what the same compiled
  search gives then, and only the writes of the run have a part in that.
-/

namespace Concordance

namespace Session

/-! ## Evaluations that are held -/

/-- An evaluation that a view holds was made since `s₀`, at a number of writes that its watermark
shows, and is right if there was no write since. -/
def Fresh (s₀ s : Session) (v : View BackendSearch) : Prop :=
  ∀ b seen hits, v = .ofSource b (some (seen, hits)) →
    ∃ k, s₀.writes b.backend b.root ≤ k ∧ k ≤ s.writes b.backend b.root ∧
      seen = k % UInt64.size ∧
      (k = s.writes b.backend b.root → (s.source b).fetch () = .ok hits)

theorem fresh_of_not_held {s₀ s : Session} {v : View BackendSearch} (h : v.isHeld = false) :
    Fresh s₀ s v := by
  rintro b seen hits rfl
  nomatch h

/-- What is held stays right until there is a write, and then is no longer claimed to be. -/
theorem Fresh.of_later {s₀ s t : Session} {v : View BackendSearch} (h : Fresh s₀ s v)
    (hstore : Later Store.version s.store t.store)
    (hbackend : ∀ b, v.origin = some b →
      Backend.Grows (s.backend b.backend) (t.backend b.backend)) : Fresh s₀ t v := by
  rintro b seen hits rfl
  obtain ⟨k, hfirst, hlast, hseen, hright⟩ := h b seen hits rfl
  have hgrows := hbackend b rfl
  have hle : s.writes b.backend b.root ≤ t.writes b.backend b.root :=
    Nat.add_le_add (hgrows.2 b.root).version_le hstore.version_le
  refine ⟨k, hfirst, Nat.le_trans hlast hle, hseen, fun hk => ?_⟩
  rw [source_eq_of_writes hstore hgrows (by omega)]
  exact hright (by omega)

theorem Fresh.of_grows {s₀ s t : Session} {v : View BackendSearch} (h : Fresh s₀ s v)
    (hgrows : Grows s t) : Fresh s₀ t v :=
  h.of_later hgrows.store fun b _ => hgrows.backend b.backend

theorem watermark_source (s : Session) (b : BackendSearch) :
    (s.source b).watermark = s.writes b.backend b.root % UInt64.size := rfl

/-- Evaluating a view makes what it holds right. -/
theorem fresh_refetch {s₀ s : Session} (hfirst : ∀ n root, s₀.writes n root ≤ s.writes n root)
    {b : BackendSearch}
    {held : Option (Nat × List Hit)} (h : Fresh s₀ s (.ofSource b held)) :
    Fresh s₀ s (View.refetch b held (s.source b)).view := by
  unfold View.refetch
  cases hfetch : (s.source b).fetch () with
  | error e => exact h
  | ok hits =>
    rintro b' seen' hits' hv
    cases hv
    exact ⟨s.writes b.backend b.root, hfirst b.backend b.root, Nat.le_refl _,
      watermark_source s b, fun _ => hfetch⟩

theorem Fresh.consume {s₀ s : Session} (hfirst : ∀ n root, s₀.writes n root ≤ s.writes n root)
    {v : View BackendSearch} (h : Fresh s₀ s v) : Fresh s₀ s (v.consume s.source).view := by
  obtain ⟨-, hv⟩ | ⟨b, hits, -, hv⟩ | ⟨b, held, rfl, hv⟩ := View.consume_cases s.source v
  · rw [hv]
    exact h
  · rw [hv]
    exact h
  · rw [hv]
    exact fresh_refetch hfirst h

/-- Two numbers less than `2 ^ 64` apart are not cut to the same 64 bits. -/
theorem eq_of_mod_eq {k n first : Nat} (hfirst : first ≤ k) (hlast : k ≤ n)
    (hfew : n < first + UInt64.size) (h : n % UInt64.size = k % UInt64.size) : k = n := by
  have hk := Nat.div_add_mod k UInt64.size
  have hn := Nat.div_add_mod n UInt64.size
  unfold UInt64.size at *
  omega

/-- **With fewer than `2 ^ 64` writes, consuming a fresh view gives what evaluating it gives.** -/
theorem Fresh.answer_consume {s₀ s : Session} {v : View BackendSearch} (h : Fresh s₀ s v)
    (hfew : ∀ b, v.origin = some b →
      s.writes b.backend b.root < s₀.writes b.backend b.root + UInt64.size) :
    (v.consume s.source).answer = v.evaluated s.source := by
  obtain ⟨rfl, hv⟩ | ⟨b, hits, rfl, hv⟩ | ⟨b, held, rfl, hv⟩ := View.consume_cases s.source v
  · rw [hv]
    rfl
  · rw [hv]
    obtain ⟨k, hfirst, hlast, hseen, hright⟩ := h b _ hits rfl
    exact (hright (eq_of_mod_eq hfirst hlast (hfew b rfl) hseen)).symm
  · rw [hv]
    exact View.answer_refetch b held (s.source b)

/-! ## Views along a run -/

theorem view_insert (s : Session) (other : String) (v : View BackendSearch) (name : String) :
    view { s with views := s.views.insert other v } name =
      if name = other then v else s.view name := by
  unfold view SortedMap.getD
  rw [SortedMap.get?_insert]
  split <;> rfl

theorem view_of_write {c : Command} (hc : c.isWrite = true) (s : Session) (name : String) :
    (c.next s).view name = s.view name := by
  unfold view
  rw [show (c.next s).views = s.views from ((regular_write hc).moves s).views]

theorem view_find (s : Session) (query : SearchQuery) (records : RecordSet)
    (options : SearchOptions) (name : String) :
    ((Command.find query records options).next s).view name = s.view name := by
  rw [next_find]
  rcases s.sought query records options with _ | _ | b <;> rfl

/-- A search fails and changes nothing, or puts a view that holds nothing under its name. -/
theorem view_search (s : Session) (name : String) (query : SearchQuery) (records : RecordSet)
    (options : SearchOptions) :
    (∃ e, s.sought query records options = .error e ∧
        (Command.search name query records options).next s = s) ∨
      ∃ b?, s.sought query records options = .ok b? ∧ ∃ v : View BackendSearch,
        v.origin = b? ∧ v.isHeld = false ∧ ∀ n,
          ((Command.search name query records options).next s).view n =
            if n = name then v else s.view n := by
  rw [next_search]
  rcases s.sought query records options with e | _ | b
  · exact Or.inl ⟨e, rfl, rfl⟩
  · exact Or.inr ⟨none, rfl, .empty, rfl, rfl, view_insert s name .empty⟩
  · exact Or.inr ⟨some b, rfl, .ofSource b none, rfl, rfl, view_insert s name _⟩

/-- Every view holds nothing or what was right at some moment since `s₀`. -/
structure AllFresh (s₀ s : Session) : Prop where
  grows : Grows s₀ s
  fresh : ∀ name, Fresh s₀ s (s.view name)

/-- **Every command keeps every view fresh.** -/
theorem fresh_next {s₀ s : Session} (hfirst : ∀ n root, s₀.writes n root ≤ s.writes n root)
    (h : ∀ name, Fresh s₀ s (s.view name)) (c : Command) (name : String) :
    Fresh s₀ (c.next s) ((c.next s).view name) := by
  have hgrows := grows_next c s
  cases c with
  | insert | delete | backend =>
    rw [view_of_write rfl]
    exact (h name).of_grows hgrows
  | find query records options =>
    rw [view_find]
    exact (h name).of_grows hgrows
  | search other query records options =>
    obtain ⟨-, -, hnext⟩ | ⟨b?, -, v, -, hheld, hview⟩ := view_search s other query records options
    · rw [hnext]
      exact h name
    · rw [hview]
      split
      · exact fresh_of_not_held hheld
      · exact (h name).of_grows hgrows
  | read other readout =>
    refine Fresh.of_grows ?_ hgrows
    rw [next_read, view_insert]
    split
    · exact (h other).consume hfirst
    · exact h name
  | clone held other =>
    refine Fresh.of_grows ?_ hgrows
    rw [next_clone, view_insert]
    split
    · exact fresh_of_not_held (View.isHeld_fresh _)
    · exact h name

theorem allFresh_next {s₀ s : Session} (h : AllFresh s₀ s) (c : Command) :
    AllFresh s₀ (c.next s) :=
  ⟨h.grows.trans (grows_next c s), fresh_next h.grows.writes_le h.fresh c⟩

theorem allFresh_play {s₀ s : Session} (h : AllFresh s₀ s) (cs : List Command) :
    AllFresh s₀ (s.play cs) := by
  induction cs generalizing s with
  | nil => exact h
  | cons c cs ih => exact ih (allFresh_next h c)

/-- **What a command makes of a view and its clones**: under each name that they are kept under
afterwards stands one of the views before, as it was, consumed, or without its evaluation. -/
theorem view_next (c : Command) (s : Session) {names : List String} :
    ∀ n ∈ c.holders names, ∃ m ∈ names, (c.next s).view n = s.view m ∨
      (c.next s).view n = ((s.view m).consume s.source).view ∨
      (c.next s).view n = (s.view m).fresh := by
  intro n hn
  cases c with
  | insert | delete | backend => exact ⟨n, hn, Or.inl (view_of_write rfl s n)⟩
  | find query records options => exact ⟨n, hn, Or.inl (view_find s query records options n)⟩
  | search other query records options =>
    obtain ⟨hn, hne⟩ := List.mem_filter.mp hn
    refine ⟨n, hn, Or.inl ?_⟩
    obtain ⟨-, -, hnext⟩ | ⟨-, -, v, -, -, hview⟩ := view_search s other query records options
    · rw [hnext]
    · rw [hview, if_neg (by simpa using hne)]
  | read other readout =>
    refine ⟨n, hn, ?_⟩
    rw [next_read, view_insert]
    split
    · rename_i hother
      exact Or.inr (Or.inl (by rw [hother]))
    · exact Or.inl rfl
  | clone held other =>
    rw [next_clone, view_insert]
    replace hn : n ∈ if names.contains held = true then other :: names
        else names.filter fun n => n != other := hn
    by_cases hheld : names.contains held = true
    · rw [if_pos hheld] at hn
      split
      · exact ⟨held, List.contains_iff_mem.mp hheld, Or.inr (Or.inr rfl)⟩
      · rename_i hne
        exact ⟨n, (List.mem_cons.mp hn).resolve_left hne, Or.inl rfl⟩
    · rw [if_neg hheld] at hn
      obtain ⟨hn, hne⟩ := List.mem_filter.mp hn
      exact ⟨n, hn, Or.inl (if_neg (by simpa using hne))⟩

/-- **The names that a view and its clones are kept under show one search.** -/
theorem origin_next {s : Session} {names : List String} {b? : Option BackendSearch}
    (h : ∀ n ∈ names, (s.view n).origin = b?) (c : Command) :
    ∀ n ∈ c.holders names, ((c.next s).view n).origin = b? := by
  intro n hn
  obtain ⟨m, hm, hview | hview | hview⟩ := view_next c s n hn
  · rw [hview, h m hm]
  · rw [hview, View.origin_consume, h m hm]
  · rw [hview, View.origin_fresh, h m hm]

/-- **A view that holds nothing stays fresh with its clones**, whatever other views hold. -/
theorem fresh_play {s₀ s : Session} {names : List String} (hgrows : Grows s₀ s)
    (h : ∀ n ∈ names, Fresh s₀ s (s.view n)) (cs : List Command) :
    ∀ n ∈ cs.foldl Command.holders names, Fresh s₀ (s.play cs) ((s.play cs).view n) := by
  induction cs generalizing s names with
  | nil => exact h
  | cons c cs ih =>
    have hnext := grows_next c s
    refine ih (hgrows.trans hnext) fun n hn => ?_
    obtain ⟨m, hm, hview | hview | hview⟩ := view_next c s n hn
    · rw [hview]
      exact (h m hm).of_grows hnext
    · rw [hview]
      exact ((h m hm).consume hgrows.writes_le).of_grows hnext
    · rw [hview]
      exact fresh_of_not_held (View.isHeld_fresh _)

theorem origin_play {s : Session} {names : List String} {b? : Option BackendSearch}
    (h : ∀ n ∈ names, (s.view n).origin = b?) (cs : List Command) :
    ∀ n ∈ cs.foldl Command.holders names, ((s.play cs).view n).origin = b? := by
  induction cs generalizing s names with
  | nil => exact h
  | cons c cs ih => exact ih (origin_next h c)

/-! ## What a view shows -/

/-- **What a search that compiles has passed, and what it is compiled to.** -/
theorem compileSearch_ok {s : Schema} {query : SearchQuery} {records : RecordSet}
    {options : SearchOptions} {c : CompiledSearch}
    (h : compileSearch s query records options = .ok (some c)) :
    s.contains records.model = true ∧ ∃ operator, Operator.read options.operator = .ok operator ∧
      c = ⟨records, (query.toQuery operator).normalize, options.fields, options.byRelevance⟩ := by
  unfold compileSearch at h
  obtain ⟨m, hmodel, h⟩ := ok_of_bind h
  split at h
  · cases h
  split at h
  · cases h
  obtain ⟨operator, hoperator, h⟩ := ok_of_bind h
  obtain ⟨_, -, h⟩ := ok_of_bind h
  refine ⟨Schema.contains_of_model hmodel, operator, hoperator, ?_⟩
  split at h
  · obtain ⟨_, -, h⟩ := ok_of_bind h
    obtain ⟨_, -, h⟩ := ok_of_bind h
    cases h
    rfl
  · obtain ⟨_, -, h⟩ := ok_of_bind h
    cases h
    rfl

/-- What a search is on: nothing, or the index of the family of the model that was asked for. -/
theorem compiled_of_sought {s : Session} {query : SearchQuery} {records : RecordSet}
    {options : SearchOptions} {b? : Option BackendSearch}
    (h : s.sought query records options = .ok b?) :
    ∃ compiled, compileSearch s.store.schema query records options = .ok compiled ∧
      ((compiled = none ∧ b? = none) ∨
        ∃ c root, compiled = some c ∧ c.model = records.model ∧
          s.store.schema.rootOf c.model = .ok root ∧ b? = some ⟨s.current, root, c⟩) := by
  unfold sought at h
  obtain ⟨compiled, hcompiled, h⟩ := ok_of_bind h
  refine ⟨compiled, hcompiled, ?_⟩
  cases compiled with
  | none =>
    cases h
    exact Or.inl ⟨rfl, rfl⟩
  | some c =>
    obtain ⟨root, hroot, h⟩ := ok_of_bind h
    cases h
    obtain ⟨-, _, -, rfl⟩ := compileSearch_ok hcompiled
    exact Or.inr ⟨_, root, rfl, rfl, hroot, rfl⟩

/-- A search that succeeds puts a view of what it is on under its name. -/
theorem origin_search {s : Session} {name : String} {query : SearchQuery} {records : RecordSet}
    {options : SearchOptions}
    (h : (Command.search name query records options).answer s = .ok .done) :
    ∃ b?, s.sought query records options = .ok b? ∧
      (((Command.search name query records options).next s).view name).origin = b? := by
  rw [answer_search] at h
  obtain ⟨e, hsought, -⟩ | ⟨b?, hsought, v, horigin, -, hview⟩ :=
    view_search s name query records options
  · rw [hsought] at h
    nomatch h
  · refine ⟨b?, hsought, ?_⟩
    rw [hview, if_pos rfl]
    exact horigin

theorem evaluate_some (s : Session) (n : Instance) (c : CompiledSearch) :
    s.evaluate n (some c) =
      (s.store.schema.rootOf c.model).bind fun root => (s.source ⟨n, root, c⟩).fetch () := rfl

/-- Evaluating a view and evaluating its compiled search are one thing. -/
theorem evaluated_eq_evaluate {s : Session} {n : Instance} {v : View BackendSearch}
    {compiled : Option CompiledSearch} {b? : Option BackendSearch} (hv : v.origin = b?)
    (h : (compiled = none ∧ b? = none) ∨
      ∃ c root, compiled = some c ∧ s.store.schema.rootOf c.model = .ok root ∧
        b? = some ⟨n, root, c⟩) :
    v.evaluated s.source = s.evaluate n compiled := by
  unfold View.evaluated
  rw [hv]
  obtain ⟨rfl, rfl⟩ | ⟨c, root, rfl, hroot, rfl⟩ := h
  · rfl
  · rw [evaluate_some, hroot]
    rfl

/-- What a compiled search gives is the same in sessions that are alike. -/
theorem Alike.evaluate_eq {s t : Session} (h : Alike s t) (n : Instance)
    (compiled : Option CompiledSearch) : s.evaluate n compiled = t.evaluate n compiled := by
  cases compiled with
  | none => rfl
  | some c =>
    rw [evaluate_some, evaluate_some, h.store]
    exact congrArg _ (funext fun root => h.source_fetch ⟨n, root, c⟩)

/-- **A view always shows what its search gives now.** Let a search in a run succeed and keep its
view under a name. If the run makes fewer than `2 ^ 64` writes, then after it each reading of the
view, or of a clone of it, reads what the same compiled search gives when it is evaluated afresh,
errors included. And what any compiled search gives, and what every command answers that reads no
view, is the same after the run and after its writes alone. -/
theorem read_after_search (s₀ : Session) (hnew : ∀ name, (s₀.view name).isHeld = false)
    (past future : List Command) (name : String) (query : SearchQuery) (records : RecordSet)
    (options : SearchOptions)
    (hfound : (Command.search name query records options).answer (s₀.play past) = .ok .done)
    (hfew : ∀ root, s₀.store.schema.rootOf records.model = .ok root →
      (s₀.play (past ++ .search name query records options :: future)).writes s₀.current root <
        s₀.writes s₀.current root + UInt64.size) :
    ∃ compiled, compileSearch s₀.store.schema query records options = .ok compiled ∧
      let run := past ++ .search name query records options :: future
      let now := s₀.play run
      let quiet := s₀.play (run.filter Command.isWrite)
      (∀ n ∈ future.foldl Command.holders [name], ∀ readout,
        (Command.read n readout).answer now =
          (now.evaluate s₀.current compiled).map fun hs => readout.answer hs) ∧
      (∀ n c, quiet.evaluate n c = now.evaluate n c) ∧
      ∀ c : Command, c.usesView = false → c.answer quiet = c.answer now := by
  have hpast := grows_play past s₀
  obtain ⟨b?, hsought, horigin⟩ := origin_search hfound
  obtain ⟨compiled, hcompiled, hb⟩ := compiled_of_sought hsought
  rw [hpast.schema] at hcompiled
  refine ⟨compiled, hcompiled, ?_⟩
  intro run now quiet
  have hgrows : Grows s₀ now := grows_play run s₀
  have hquiet : Alike quiet now := alike_play run (Alike.refl s₀)
  have hfresh : AllFresh s₀ now :=
    allFresh_play ⟨Grows.refl s₀, fun name => fresh_of_not_held (hnew name)⟩ run
  have hnow : now = play ((Command.search name query records options).next (s₀.play past))
      future := play_append s₀ past _
  refine ⟨fun n hn readout => ?_, fun n c => hquiet.evaluate_eq n c, fun c hc =>
    hquiet.answer_eq hc⟩
  have hview : (now.view n).origin = b? := by
    rw [hnow]
    refine origin_play (fun m hm => ?_) future n hn
    rw [List.mem_singleton.mp hm]
    exact horigin
  rw [hpast.current, hpast.schema] at hb
  rw [answer_read, (hfresh.fresh n).answer_consume ?_, evaluated_eq_evaluate hview ?_]
  · obtain ⟨hnone, hb⟩ | ⟨c, root, hc, -, hroot, hb⟩ := hb
    · exact Or.inl ⟨hnone, hb⟩
    · exact Or.inr ⟨c, root, hc, by rw [hgrows.schema]; exact hroot, hb⟩
  · intro b horiginb
    rw [hview] at horiginb
    obtain ⟨-, rfl⟩ | ⟨c, root, -, hmodel, hroot, rfl⟩ := hb
    · nomatch horiginb
    · cases horiginb
      exact hfew root (hmodel ▸ hroot)

/-- A session over an empty store, with one model that has one searchable field. -/
def shelf : Session :=
  ofStore (.empty ⟨[⟨⟨"Book", none, [Field.search "title"]⟩, [], [], [Field.search "title"]⟩]⟩) []
    .standard

def teaBook (pk : Key) : Record := ⟨"Book", pk, SortedMap.ofList [("title", .text "Tea")], ∅⟩

/-- A book is stored and indexed. -/
def shelfPast : List Command := [.insert (teaBook 1), .backend 0 (.add (teaBook 1))]

/-- A search for it, unranked. -/
def shelfSearch : Command := .search "all" (.text "tea") (.of "Book") { byRelevance := false }

/-- The view is read and cloned, the clone is read, and another book comes. -/
def shelfFuture : List Command :=
  [.read "all" .count, .clone "all" "copy", .read "copy" .count, .insert (teaBook 2),
    .backend 0 (.add (teaBook 2))]

/-- Both views hold an evaluation with one book when the other one comes, and neither shows it. -/
theorem read_after_search_shelf :
    (∀ name, (shelf.view name).isHeld = false) ∧
    shelfSearch.answer (shelf.play shelfPast) = .ok .done ∧
    (∀ root, shelf.store.schema.rootOf "Book" = .ok root →
      (shelf.play (shelfPast ++ shelfSearch :: shelfFuture)).writes 0 root <
        shelf.writes 0 root + UInt64.size) ∧
    (∃ compiled, compileSearch shelf.store.schema (.text "tea") (.of "Book")
        { byRelevance := false } = .ok compiled ∧
      ∀ n ∈ ["copy", "all"], ∀ readout,
        (Command.read n readout).answer (shelf.play (shelfPast ++ shelfSearch :: shelfFuture)) =
          ((shelf.play (shelfPast ++ shelfSearch :: shelfFuture)).evaluate 0 compiled).map
            fun hs => readout.answer hs) ∧
    (Command.read "all" .count).answer (shelf.play (shelfPast ++ [shelfSearch])) =
      .ok (.count 1) ∧
    (Command.read "all" .count).answer (shelf.play (shelfPast ++ shelfSearch :: shelfFuture)) =
      .ok (.count 2) := by
  have hnew : ∀ name, (shelf.view name).isHeld = false := fun _ => rfl
  have hfound : shelfSearch.answer (shelf.play shelfPast) = .ok .done := by decide +kernel
  have hfew : ∀ root, shelf.store.schema.rootOf "Book" = .ok root →
      (shelf.play (shelfPast ++ shelfSearch :: shelfFuture)).writes 0 root <
        shelf.writes 0 root + UInt64.size := by
    intro root hroot
    have hbook : shelf.store.schema.rootOf "Book" = .ok "Book" := rfl
    obtain rfl : "Book" = root := Except.ok.inj (hbook.symm.trans hroot)
    decide +kernel
  refine ⟨hnew, hfound, hfew, ?_, by decide +kernel, by decide +kernel⟩
  obtain ⟨compiled, hcompiled, hread, -⟩ :=
    read_after_search shelf hnew shelfPast shelfFuture "all" _ _ _ hfound hfew
  exact ⟨compiled, hcompiled, hread⟩

end Session

end Concordance
