import Concordance.Proofs.Result
import Concordance.Proofs.Update
import Concordance.Registry

/-!
# What registries do

A registry gives the instance that it has cached for a request, or constructs one at the end of the
pool (`perform_get`). So registries and the pool only grow (`Supplied`): what is in the pool is not
touched, and the instance that was given is given again (`get_again`).
-/

namespace Concordance

/-- In a valid configuration batches hold records. -/
theorem Config.chunkSize_pos {config : Config} (h : config.validate = .ok ()) :
    0 < config.chunkSize := by
  refine Nat.pos_of_ne_zero fun hzero => ?_
  unfold validate fault? at h
  rw [if_pos hzero] at h
  nomatch h

namespace BackendClass

theorem mem_of_resolve? {classes : List BackendClass} {path : String} {cls : BackendClass}
    (h : resolve? classes path = some cls) : cls ∈ classes := by
  unfold resolve? at h
  split at h
  · rename_i hmodule
    cases h
    exact List.mem_of_find?_eq_some hmodule
  · exact List.mem_of_find?_eq_some h

/-- What the classes construct is all of one kind. -/
def ConstructOnly (classes : List BackendClass) (good : Backend → Prop) : Prop :=
  ∀ c ∈ classes, ∀ options b, c.construct options = .ok b → good b

end BackendClass

namespace Registry

variable {classes : List BackendClass} {good : Backend → Prop}

theorem mem_of_request {config : Config} {requested : Option String} {r : BackendRequest}
    (h : request classes config requested = .ok r) : r.cls ∈ classes := by
  unfold request at h
  dsimp only at h
  split at h
  · rename_i hcls
    cases h
    exact BackendClass.mem_of_resolve? hcls
  · nomatch h

/-- **What asking for an instance does.** -/
theorem perform_get (classes : List BackendClass) (requested : Option String)
    (p : Registry × Pool) :
    (get classes requested).perform p = match request classes p.1.config requested with
      | .error e => (.error e, p)
      | .ok r => match p.1.cache.lookup r.key with
        | some n => (.ok n, p)
        | none => match r.cls.construct r.options with
          | .error e => (.error e, p)
          | .ok b => (.ok p.2.length,
            { p.1 with cache := (r.key, p.2.length) :: p.1.cache }, p.2 ++ [b]) := by
  have hget : (get classes requested).perform p = Update.perform (do
      let r ← Update.ofResult (request classes p.1.config requested)
      match p.1.cache.lookup r.key with
      | some n => return n
      | none =>
        let built ← Update.ofResult (r.cls.construct r.options)
        set (({ p.1 with cache := (r.key, p.2.length) :: p.1.cache }, p.2 ++ [built]) :
          Registry × Pool)
        return p.2.length) p := rfl
  rw [hget, Update.perform_ofResult_bind]
  cases request classes p.1.config requested with
  | error e => rfl
  | ok r =>
    dsimp only
    cases p.1.cache.lookup r.key with
    | some n => rfl
    | none =>
      dsimp only
      rw [Update.perform_ofResult_bind]
      cases r.cls.construct r.options <;> rfl

theorem get_cases (classes : List BackendClass) (requested : Option String)
    (p : Registry × Pool) :
    (∃ e, (get classes requested).perform p = (.error e, p)) ∨
    ∃ r, request classes p.1.config requested = .ok r ∧
      ((∃ n, p.1.cache.lookup r.key = some n ∧ (get classes requested).perform p = (.ok n, p)) ∨
        p.1.cache.lookup r.key = none ∧ ∃ b, r.cls.construct r.options = .ok b ∧
          (get classes requested).perform p = (.ok p.2.length,
            { p.1 with cache := (r.key, p.2.length) :: p.1.cache }, p.2 ++ [b])) := by
  rw [perform_get]
  cases hr : request classes p.1.config requested with
  | error e => exact Or.inl ⟨e, rfl⟩
  | ok r =>
    dsimp only
    cases hn : p.1.cache.lookup r.key with
    | some n => exact Or.inr ⟨r, rfl, Or.inl ⟨n, hn, rfl⟩⟩
    | none =>
      cases hb : r.cls.construct r.options with
      | error e => exact Or.inl ⟨e, rfl⟩
      | ok b => exact Or.inr ⟨r, rfl, Or.inr ⟨hn, b, hb, rfl⟩⟩

/-- A request that fails changes nothing. -/
theorem eq_of_get_error {requested : Option String} {p : Registry × Pool} {e : Error}
    (h : ((get classes requested).perform p).1 = .error e) :
    ((get classes requested).perform p).2 = p := by
  obtain ⟨_, hget⟩ | ⟨r, -, ⟨_, -, hget⟩ | ⟨-, b, -, hget⟩⟩ := get_cases classes requested p
  · rw [hget]
  · rw [hget]
  · rw [hget] at h
    nomatch h

/-- An instance is cached where it is given. -/
theorem cached_of_get {requested : Option String} {p : Registry × Pool} {n : Instance}
    (h : ((get classes requested).perform p).1 = .ok n) :
    let q := ((get classes requested).perform p).2
    ∃ r, request classes q.1.config requested = .ok r ∧ q.1.cache.lookup r.key = some n := by
  obtain ⟨_, hget⟩ | ⟨r, hr, ⟨m, hm, hget⟩ | ⟨-, b, -, hget⟩⟩ := get_cases classes requested p
  · rw [hget] at h
    nomatch h
  · rw [hget] at h ⊢
    cases h
    exact ⟨r, hr, hm⟩
  · rw [hget] at h ⊢
    cases h
    exact ⟨r, hr, List.lookup_cons_self⟩

/-! ## Growth -/

/-- Every cached instance is in the pool. -/
def Pooled (p : Registry × Pool) : Prop :=
  ∀ key n, p.1.cache.lookup key = some n → n < p.2.length

/-- Instances have been constructed and cached, and nothing else has happened. -/
structure Supplied (good : Backend → Prop) (p q : Registry × Pool) : Prop where
  config : q.1.config = p.1.config
  pool : ∃ new, q.2 = p.2 ++ new ∧ ∀ b ∈ new, good b
  cached : ∀ key n, p.1.cache.lookup key = some n → q.1.cache.lookup key = some n
  pooled : Pooled p → Pooled q

instance : Std.Refl (Supplied good) :=
  ⟨fun p => ⟨rfl, ⟨[], (List.append_nil p.2).symm, fun _ h => nomatch h⟩, fun _ _ h => h, id⟩⟩

instance : IsTrans (Registry × Pool) (Supplied good) := by
  refine ⟨fun p q r hpq hqr => ⟨hqr.config.trans hpq.config, ?_, fun key n h =>
    hqr.cached key n (hpq.cached key n h), hqr.pooled ∘ hpq.pooled⟩⟩
  obtain ⟨new, hq, hnew⟩ := hpq.pool
  obtain ⟨more, hr, hmore⟩ := hqr.pool
  refine ⟨new ++ more, by rw [hr, hq, List.append_assoc], fun b hb => ?_⟩
  exact (List.mem_append.mp hb).elim (hnew b) (hmore b)

/-- **Asking for an instance constructs at most this one.** -/
theorem supplied_get (hclasses : BackendClass.ConstructOnly classes good)
    (requested : Option String) (p : Registry × Pool) :
    Supplied good p ((get classes requested).perform p).2 := by
  obtain ⟨_, hget⟩ | ⟨r, hr, ⟨_, -, hget⟩ | ⟨hnew, b, hb, hget⟩⟩ := get_cases classes requested p
  · rw [hget]
    exact Std.Refl.refl p
  · rw [hget]
    exact Std.Refl.refl p
  rw [hget]
  refine ⟨rfl, ⟨[b], rfl, fun c hc => ?_⟩, fun key n hkey => ?_, fun hp key n hkey => ?_⟩
  · rw [List.mem_singleton.mp hc]
    exact hclasses _ (mem_of_request hr) _ _ hb
  · have hne : (key == r.key) = false := by
      refine beq_eq_false_iff_ne.mpr fun heq => ?_
      rw [heq, hnew] at hkey
      nomatch hkey
    rw [List.lookup_cons, hne]
    exact hkey
  · rw [List.length_append, List.length_singleton]
    rw [List.lookup_cons] at hkey
    split at hkey
    · cases hkey
      exact Nat.lt_succ_self _
    · exact Nat.lt_succ_of_lt (hp key n hkey)

theorem regular_get (hclasses : BackendClass.ConstructOnly classes good)
    (requested : Option String) : Update.Regular (Supplied good) Eq (get classes requested) :=
  Update.regular_of_moves (supplied_get hclasses requested)

theorem supplied_all (hclasses : BackendClass.ConstructOnly classes good)
    (autoUpdateOnly : Bool) (p : Registry × Pool) :
    Supplied good p ((all classes autoUpdateOnly).perform p).2 :=
  (Update.regular_mapM (regular_get hclasses) (names p.1.config autoUpdateOnly)).moves p

/-- An instance that a registry gives is in the pool. -/
theorem lt_of_get {requested : Option String} {p : Registry × Pool} {n : Instance}
    (hclasses : BackendClass.ConstructOnly classes good) (hp : Pooled p)
    (h : ((get classes requested).perform p).1 = .ok n) :
    n < ((get classes requested).perform p).2.2.length := by
  obtain ⟨r, -, hn⟩ := cached_of_get h
  exact (supplied_get hclasses requested p).pooled hp _ _ hn

/-- **A registry gives the same instance again** as long as it is cached. -/
theorem get_again {requested : Option String} {p q : Registry × Pool} {n : Instance}
    (h : ((get classes requested).perform p).1 = .ok n)
    (hconfig : q.1.config = ((get classes requested).perform p).2.1.config)
    (hcached : ∀ key m, ((get classes requested).perform p).2.1.cache.lookup key = some m →
      q.1.cache.lookup key = some m) :
    (get classes requested).perform q = (.ok n, q) := by
  obtain ⟨r, hr, hn⟩ := cached_of_get h
  rw [perform_get, hconfig, hr]
  dsimp only
  rw [hcached _ _ hn]

end Registry

end Concordance
