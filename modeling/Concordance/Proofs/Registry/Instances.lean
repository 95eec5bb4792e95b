import Concordance.Proofs.Config
import Concordance.Proofs.Registry

/-!
# Which instances a registry gives

A registry is asked for single backends and for all configured ones, and its cache is cleared
between. `Resolves` says what a name or path leads to, without the lookups: the entry of that name
comes first, then the default name, then the path itself; and a path leads to the class in its
module before the class of that very path.

* Requests fail or resolve as `Resolves` says (`request_of_resolves`, `resolves_of_request`), and
  what they resolve to can be told from their keys (`key_eq_iff`): the options of two requests are
  the same when their texts are.
* `Tidy` is kept by every call: instances are in the pool, no two keys share one, and a key stands
  for a request whose backend could be constructed.
* Asking for several backends is asking for one after the other, up to the first that cannot be had
  (`perform_mapM_get`).
* **`sharesInstances_of_calls`**: after any calls, two answers are one instance exactly when they
  resolve to the same and the cache was not cleared between them; what fails is not remembered; and
  the instances of all configured backends are the ones that their names give.
-/

namespace Concordance

/-! ## Classes -/

namespace BackendClass

/-- The class path that a path leads to: in the module of that name, or the path itself. -/
inductive Leads (classes : List BackendClass) (path : String) : String → Prop
  | module (hclass : ∃ cls ∈ classes, cls.path = pathInModule path) :
    Leads classes path (pathInModule path)
  | itself (hmodule : ∀ cls ∈ classes, cls.path ≠ pathInModule path)
    (hclass : ∃ cls ∈ classes, cls.path = path) : Leads classes path path

theorem path_of_find? {classes : List BackendClass} {path : String} {cls : BackendClass}
    (h : find? classes path = some cls) : cls.path = path := by
  have hpath := List.find?_some h
  exact eq_of_beq hpath

theorem find?_eq_none {classes : List BackendClass} {path : String} :
    find? classes path = none ↔ ∀ cls ∈ classes, cls.path ≠ path := by
  simp [find?]

theorem exists_find? {classes : List BackendClass} {path : String} :
    (∃ cls, find? classes path = some cls) ↔ ∃ cls ∈ classes, cls.path = path := by
  rw [← Option.isSome_iff_exists, ← not_iff_not, Option.not_isSome_iff_eq_none, find?_eq_none]
  simp

/-- A class is resolved to where the path leads. -/
theorem leads_of_resolve? {classes : List BackendClass} {path : String} {cls : BackendClass}
    (h : resolve? classes path = some cls) :
    Leads classes path cls.path ∧ find? classes cls.path = some cls := by
  unfold resolve? at h
  split at h
  · rename_i hmodule
    cases h
    have hpath := path_of_find? hmodule
    rw [hpath]
    exact ⟨.module (exists_find?.mp ⟨_, hmodule⟩), hmodule⟩
  · rename_i hmodule
    have hpath := path_of_find? h
    rw [hpath]
    exact ⟨.itself (find?_eq_none.mp hmodule) (exists_find?.mp ⟨_, h⟩), h⟩

/-- Where a path leads, there is a class to resolve it to. -/
theorem resolve?_of_leads {classes : List BackendClass} {path classPath : String}
    (h : Leads classes path classPath) :
    ∃ cls, resolve? classes path = some cls ∧ find? classes classPath = some cls := by
  unfold resolve?
  cases h with
  | module hclass =>
    obtain ⟨cls, hcls⟩ := exists_find?.mpr hclass
    exact ⟨cls, by rw [hcls], hcls⟩
  | itself hmodule hclass =>
    obtain ⟨cls, hcls⟩ := exists_find?.mpr hclass
    exact ⟨cls, by rw [find?_eq_none.mpr hmodule]; exact hcls, hcls⟩

end BackendClass

namespace Registry

variable {classes : List BackendClass} {config : Config}

/-! ## What requests resolve to -/

/-- What a name or path resolves to: a class path and the options to construct the class from. No
name is the default one. -/
def Resolves (classes : List BackendClass) (config : Config) (requested : Option String)
    (classPath : String) (options : Options) : Prop :=
  ∃ path, config.Asks (requested.getD Config.defaultName) path options ∧
    BackendClass.Leads classes path classPath

theorem resolves_of_request {requested : Option String} {r : BackendRequest}
    (h : request classes config requested = .ok r) :
    Resolves classes config requested r.cls.path r.options ∧
      BackendClass.find? classes r.cls.path = some r.cls := by
  have hasks := config.asks_resolve? (requested.getD Config.defaultName)
  unfold request at h
  dsimp only at h
  split at h
  · rename_i cls hcls
    cases h
    obtain ⟨hleads, hfind⟩ := BackendClass.leads_of_resolve? hcls
    refine ⟨⟨_, ?_, hleads⟩, hfind⟩
    cases hentry : config.resolve? (requested.getD Config.defaultName) <;>
      (rw [hentry] at hasks; exact hasks)
  · nomatch h

theorem request_of_resolves (hvalid : config.validate = .ok ()) {requested : Option String}
    {classPath : String} {options : Options}
    (h : Resolves classes config requested classPath options) :
    ∃ cls, BackendClass.find? classes classPath = some cls ∧
      request classes config requested = .ok ⟨cls, options⟩ := by
  obtain ⟨path, hasks, hleads⟩ := h
  obtain ⟨cls, hcls, hfind⟩ := BackendClass.resolve?_of_leads hleads
  refine ⟨cls, hfind, ?_⟩
  have hfirst := config.asks_resolve? (requested.getD Config.defaultName)
  unfold request
  dsimp only
  cases hentry : config.resolve? (requested.getD Config.defaultName) with
  | some entry =>
    rw [hentry] at hfirst
    obtain ⟨rfl, rfl⟩ := hasks.unique hvalid hfirst
    dsimp only
    rw [hcls]
  | none =>
    rw [hentry] at hfirst
    obtain ⟨rfl, rfl⟩ := hasks.unique hvalid hfirst
    dsimp only
    rw [hcls]

/-- **The key of a request says what it resolves to.** -/
theorem key_eq_iff (hoptions : config.OptionsWritable) {requested requested' : Option String}
    {r r' : BackendRequest} (hr : request classes config requested = .ok r)
    (hr' : request classes config requested' = .ok r') :
    r.key = r'.key ↔ r.cls.path = r'.cls.path ∧ r.options = r'.options := by
  obtain ⟨⟨_, hasks, -⟩, -⟩ := resolves_of_request hr
  obtain ⟨⟨_, hasks', -⟩, -⟩ := resolves_of_request hr'
  unfold BackendRequest.key
  rw [Prod.mk.injEq]
  refine and_congr_right fun _ => ⟨fun htext => ?_, fun heq => by rw [heq]⟩
  have heq := Json.render_inj (hasks.writable hoptions) (hasks'.writable hoptions) htext
  exact SortedMap.ext (Json.object.inj heq)

/-- Requests with one key resolve to the same. -/
theorem key_eq_iff_resolves (hvalid : config.validate = .ok ()) (hoptions : config.OptionsWritable)
    {requested requested' : Option String} {r r' : BackendRequest}
    (hr : request classes config requested = .ok r)
    (hr' : request classes config requested' = .ok r') :
    r.key = r'.key ↔ ∃ classPath options, Resolves classes config requested classPath options ∧
      Resolves classes config requested' classPath options := by
  rw [key_eq_iff hoptions hr hr']
  constructor
  · rintro ⟨hpath, heq⟩
    have hresolves' := (resolves_of_request hr').1
    rw [← hpath, ← heq] at hresolves'
    exact ⟨r.cls.path, r.options, (resolves_of_request hr).1, hresolves'⟩
  · rintro ⟨classPath, options, h, h'⟩
    obtain ⟨cls, hfind, hcls⟩ := request_of_resolves hvalid h
    obtain ⟨cls', hfind', hcls'⟩ := request_of_resolves hvalid h'
    obtain rfl := Except.ok.inj (hr.symm.trans hcls)
    obtain rfl := Except.ok.inj (hr'.symm.trans hcls')
    exact ⟨(BackendClass.path_of_find? hfind).trans (BackendClass.path_of_find? hfind').symm, rfl⟩

/-! ## Calls -/

end Registry

/-- What a registry is asked to do. -/
inductive RegistryCall where
  /-- Give the instance of a name or path. -/
  | get (requested : Option String)
  /-- Give the instances of all configured backends. -/
  | all (autoUpdateOnly : Bool)
  /-- Forget all instances. -/
  | clear

namespace Registry

variable {classes : List BackendClass} {config : Config}

/-- The registry and the pool after a call. -/
def call (classes : List BackendClass) (p : Registry × Pool) : RegistryCall → Registry × Pool
  | .get requested => ((get classes requested).perform p).2
  | .all autoUpdateOnly => ((all classes autoUpdateOnly).perform p).2
  | .clear => (p.1.clear, p.2)

/-- The registry and the pool after a run of calls. -/
def calls (classes : List BackendClass) (cs : List RegistryCall) (p : Registry × Pool) :
    Registry × Pool :=
  cs.foldl (call classes) p

/-- The registry and the pool after a run of requests for single backends. -/
def gets (classes : List BackendClass) (requests : List (Option String)) (p : Registry × Pool) :
    Registry × Pool :=
  calls classes (requests.map .get) p

/-- **Asking for several backends is asking for one after the other**, up to the first that cannot
be had. -/
theorem perform_mapM_get (requests : List (Option String)) (p : Registry × Pool) :
    (∃ ns, (requests.mapM (get classes)).perform p = (.ok ns, gets classes requests p)) ∨
    ∃ before requested after e, requests = before ++ requested :: after ∧
      (get classes requested).perform (gets classes before p) = (.error e, gets classes before p) ∧
      (requests.mapM (get classes)).perform p = (.error e, gets classes before p) := by
  induction requests generalizing p with
  | nil => exact Or.inl ⟨[], rfl⟩
  | cons requested requests ih =>
    rw [List.mapM_cons, Update.perform_bind]
    rcases hget : (get classes requested).perform p with ⟨e | n, q⟩
    · have hstate : q = p := by
        have := eq_of_get_error (e := e) (by rw [hget])
        rwa [hget] at this
      subst hstate
      exact Or.inr ⟨[], requested, requests, e, rfl, hget, rfl⟩
    · have hq : q = call classes p (.get requested) := by
        show q = ((get classes requested).perform p).2
        rw [hget]
      dsimp only
      rw [Update.perform_bind]
      obtain ⟨ns, hns⟩ | ⟨before, other, after, e, hsplit, hfail, hall⟩ := ih q
      · refine Or.inl ⟨n :: ns, ?_⟩
        rw [hns, hq]
        rfl
      · refine Or.inr ⟨requested :: before, other, after, e, by rw [hsplit]; rfl, ?_, ?_⟩
        · rw [hq] at hfail
          exact hfail
        · rw [hall, hq]
          rfl

/-- **What every request and every clearing keep, all calls keep.** -/
theorem calls_induction {P : Registry × Pool → Prop}
    (hget : ∀ requested p, P p → P ((get classes requested).perform p).2)
    (hclear : ∀ p, P p → P (p.1.clear, p.2)) (cs : List RegistryCall) {p : Registry × Pool}
    (hp : P p) : P (calls classes cs p) := by
  have hgets : ∀ (requests : List (Option String)) (p : Registry × Pool), P p →
      P (gets classes requests p) := by
    intro requests
    induction requests with
    | nil => exact fun _ hp => hp
    | cons requested requests ih => exact fun p hp => ih _ (hget requested p hp)
  induction cs generalizing p with
  | nil => exact hp
  | cons c cs ih =>
    refine ih ?_
    cases c with
    | get requested => exact hget requested p hp
    | all autoUpdateOnly =>
      have hall : call classes p (.all autoUpdateOnly) =
        (((names p.1.config autoUpdateOnly).mapM (get classes)).perform p).2 := rfl
      obtain ⟨ns, hns⟩ | ⟨before, _, _, e, -, -, hfail⟩ :=
        perform_mapM_get (names p.1.config autoUpdateOnly) p
      · rw [hall, hns]
        exact hgets _ p hp
      · rw [hall, hfail]
        exact hgets before p hp
    | clear => exact hclear p hp

/-- Without clearings, instances are constructed and cached, and nothing else happens. -/
theorem supplied_calls {cs : List RegistryCall} (hcs : RegistryCall.clear ∉ cs)
    (p : Registry × Pool) : Supplied (fun _ => True) p (calls classes cs p) := by
  have hclasses : BackendClass.ConstructOnly classes fun _ => True := fun _ _ _ _ _ => trivial
  induction cs generalizing p with
  | nil => exact Std.Refl.refl p
  | cons c cs ih =>
    obtain ⟨hc, hcs⟩ := not_or.mp (mt List.mem_cons.mpr hcs)
    refine IsTrans.trans _ _ _ ?_ (ih hcs _)
    cases c with
    | get requested => exact supplied_get hclasses requested p
    | all autoUpdateOnly => exact supplied_all hclasses autoUpdateOnly p
    | clear => exact absurd rfl hc

/-! ## What all calls keep -/

/-- The cache is in order: instances are in the pool, no two keys share one, and each key stands for
a request whose backend could be constructed. -/
structure Tidy (classes : List BackendClass) (config : Config) (p : Registry × Pool) : Prop where
  configured : p.1.config = config
  pooled : Pooled p
  distinct : ∀ key key' n, p.1.cache.lookup key = some n → p.1.cache.lookup key' = some n →
    key = key'
  constructed : ∀ key n, p.1.cache.lookup key = some n → ∃ requested r b,
    request classes config requested = .ok r ∧ r.key = key ∧ r.cls.construct r.options = .ok b

theorem tidy_clear {p : Registry × Pool} (hp : Tidy classes config p) :
    Tidy classes config (p.1.clear, p.2) where
  configured := hp.configured
  pooled _ _ h := nomatch h
  distinct _ _ _ h := nomatch h
  constructed _ _ h := nomatch h

theorem tidy_get (requested : Option String) {p : Registry × Pool} (hp : Tidy classes config p) :
    Tidy classes config ((get classes requested).perform p).2 := by
  have hclasses : BackendClass.ConstructOnly classes fun _ => True := fun _ _ _ _ _ => trivial
  have hpooled := (supplied_get hclasses requested p).pooled hp.pooled
  obtain ⟨_, hget⟩ | ⟨r, hr, ⟨_, -, hget⟩ | ⟨-, b, hb, hget⟩⟩ := get_cases classes requested p
  · rw [hget]
    exact hp
  · rw [hget]
    exact hp
  rw [hget] at hpooled ⊢
  -- the new instance is the length of the pool, so no key had it
  have hlookup : ∀ key n, ((r.key, p.2.length) :: p.1.cache).lookup key = some n →
      key = r.key ∧ n = p.2.length ∨ p.1.cache.lookup key = some n ∧ n < p.2.length := by
    intro key n h
    rw [List.lookup_cons] at h
    split at h
    · rename_i heq
      exact Or.inl ⟨eq_of_beq heq, (Option.some.inj h).symm⟩
    · exact Or.inr ⟨h, hp.pooled key n h⟩
  refine ⟨hp.configured, hpooled, fun key key' n h h' => ?_, fun key n h => ?_⟩
  · obtain ⟨hkey, hn⟩ | ⟨hkey, hn⟩ := hlookup key n h
    · obtain ⟨hkey', -⟩ | ⟨-, hn'⟩ := hlookup key' n h'
      · exact hkey.trans hkey'.symm
      · omega
    · obtain ⟨-, hn'⟩ | ⟨hkey', -⟩ := hlookup key' n h'
      · omega
      · exact hp.distinct key key' n hkey hkey'
  · obtain ⟨hkey, -⟩ | ⟨hkey, -⟩ := hlookup key n h
    · rw [hp.configured] at hr
      exact ⟨requested, r, b, hr, hkey.symm, hb⟩
    · exact hp.constructed key n hkey

theorem tidy_calls (cs : List RegistryCall) {p : Registry × Pool} (hp : Tidy classes config p) :
    Tidy classes config (calls classes cs p) :=
  calls_induction (fun requested _ => tidy_get requested) (fun _ => tidy_clear) cs hp

theorem tidy_new (classes : List BackendClass) (config : Config) (pool : Pool) :
    Tidy classes config (⟨config, []⟩, pool) where
  configured := rfl
  pooled _ _ h := nomatch h
  distinct _ _ _ h := nomatch h
  constructed _ _ h := nomatch h

/-- Calls forget nothing that was constructed. -/
theorem length_le_calls (cs : List RegistryCall) (p : Registry × Pool) :
    p.2.length ≤ (calls classes cs p).2.length := by
  refine calls_induction (P := fun q => p.2.length ≤ q.2.length) (fun requested q hq => ?_)
    (fun _ hq => hq) cs (Nat.le_refl _)
  have hclasses : BackendClass.ConstructOnly classes fun _ => True := fun _ _ _ _ _ => trivial
  obtain ⟨new, hpool, -⟩ := (supplied_get hclasses requested q).pool
  rw [hpool, List.length_append]
  exact Nat.le_add_right_of_le hq

/-- Every cached instance is at or behind a position of the pool. -/
def CachedFrom (bound : Nat) (p : Registry × Pool) : Prop :=
  bound ≤ p.2.length ∧ ∀ key n, p.1.cache.lookup key = some n → bound ≤ n

theorem cachedFrom_get {bound : Nat} (requested : Option String) {p : Registry × Pool}
    (hp : CachedFrom bound p) : CachedFrom bound ((get classes requested).perform p).2 := by
  obtain ⟨_, hget⟩ | ⟨r, -, ⟨_, -, hget⟩ | ⟨-, b, -, hget⟩⟩ := get_cases classes requested p
  · rw [hget]
    exact hp
  · rw [hget]
    exact hp
  rw [hget]
  refine ⟨?_, fun key n h => ?_⟩
  · rw [List.length_append]
    exact Nat.le_add_right_of_le hp.1
  · rw [List.lookup_cons] at h
    split at h
    · cases h
      exact hp.1
    · exact hp.2 key n h

/-- What is given after a clearing was not in the pool before it. -/
theorem cachedFrom_of_clear (cs : List RegistryCall) (p : Registry × Pool) :
    CachedFrom p.2.length (calls classes cs (p.1.clear, p.2)) :=
  calls_induction (fun requested _ => cachedFrom_get requested)
    (fun _ hp => ⟨hp.1, fun _ _ h => (nomatch h)⟩) cs ⟨Nat.le_refl _, fun _ _ h => (nomatch h)⟩

/-! ## Answers -/

/-- **A backend is given when the request resolves and its class constructs one**, whatever was
asked before. -/
theorem get_found_iff (hvalid : config.validate = .ok ()) (hoptions : config.OptionsWritable)
    {p : Registry × Pool} (hp : Tidy classes config p) (requested : Option String) :
    (∃ n, ((get classes requested).perform p).1 = .ok n) ↔
      ∃ cls options b, Resolves classes config requested cls.path options ∧
        BackendClass.find? classes cls.path = some cls ∧ cls.construct options = .ok b := by
  constructor
  · rintro ⟨n, hn⟩
    obtain ⟨_, hget⟩ | ⟨r, hr, ⟨m, hm, -⟩ | ⟨-, b, hb, -⟩⟩ := get_cases classes requested p
    · rw [hget] at hn
      nomatch hn
    · rw [hp.configured] at hr
      obtain ⟨requested', r', b, hr', hkey, hb⟩ := hp.constructed r.key m hm
      obtain ⟨hresolves, hfind⟩ := resolves_of_request hr
      obtain ⟨-, hfind'⟩ := resolves_of_request hr'
      obtain ⟨hpath, hsame⟩ := (key_eq_iff hoptions hr' hr).mp hkey
      rw [hpath, hfind] at hfind'
      rw [← Option.some.inj hfind', hsame] at hb
      exact ⟨r.cls, r.options, b, hresolves, hfind, hb⟩
    · rw [hp.configured] at hr
      obtain ⟨hresolves, hfind⟩ := resolves_of_request hr
      exact ⟨r.cls, r.options, b, hresolves, hfind, hb⟩
  · rintro ⟨cls, options, b, hresolves, hfind, hb⟩
    obtain ⟨cls', hfind', hr⟩ := request_of_resolves hvalid hresolves
    obtain rfl := Option.some.inj (hfind.symm.trans hfind')
    rw [perform_get, hp.configured, hr]
    dsimp only
    cases p.1.cache.lookup (BackendRequest.key ⟨cls, options⟩) with
    | some n => exact ⟨n, rfl⟩
    | none =>
      dsimp only
      rw [hb]
      exact ⟨p.2.length, rfl⟩

/-- **Two answers are one instance** exactly when they resolve to the same and nothing was cleared
between them. -/
theorem get_eq_iff (hvalid : config.validate = .ok ()) (hoptions : config.OptionsWritable)
    {p : Registry × Pool} (hp : Tidy classes config p) (between : List RegistryCall)
    {requested requested' : Option String} {n m : Instance}
    (hn : ((get classes requested).perform p).1 = .ok n)
    (hm : ((get classes requested').perform
      (calls classes between ((get classes requested).perform p).2)).1 = .ok m) :
    n = m ↔ (∃ classPath options, Resolves classes config requested classPath options ∧
      Resolves classes config requested' classPath options) ∧ RegistryCall.clear ∉ between := by
  have hclasses : BackendClass.ConstructOnly classes fun _ => True := fun _ _ _ _ _ => trivial
  have hfirst := tidy_get requested hp
  have hlast := tidy_get requested' (tidy_calls between hfirst)
  obtain ⟨r, hr, hcached⟩ := cached_of_get hn
  obtain ⟨r', hr', hcached'⟩ := cached_of_get hm
  rw [hfirst.configured] at hr
  rw [hlast.configured] at hr'
  rw [← key_eq_iff_resolves hvalid hoptions hr hr']
  by_cases hclear : RegistryCall.clear ∈ between
  · -- what was in the pool at the clearing is not given after it
    refine iff_of_false (fun heq => ?_) fun h => h.2 hclear
    obtain ⟨before, after, hsplit⟩ := List.append_of_mem hclear
    let cleared := calls classes before ((get classes requested).perform p).2
    have hbefore : n < cleared.2.length :=
      Nat.lt_of_lt_of_le (lt_of_get hclasses hp.pooled hn) (length_le_calls before _)
    have hsince : calls classes between ((get classes requested).perform p).2 =
        calls classes after (cleared.1.clear, cleared.2) := by
      rw [hsplit, calls, List.foldl_append]
      rfl
    have hafter : CachedFrom cleared.2.length ((get classes requested').perform
        (calls classes between ((get classes requested).perform p).2)).2 := by
      rw [hsince]
      exact cachedFrom_get requested' (cachedFrom_of_clear after cleared)
    exact Nat.not_lt.mpr (hafter.2 _ _ hcached') (heq ▸ hbefore)
  · have hkept : (calls classes between _).1.cache.lookup r.key = some n :=
      (supplied_calls hclear _).cached _ _ hcached
    have hstill := (supplied_get hclasses requested' _).cached _ _ hkept
    refine ⟨fun heq => ⟨?_, hclear⟩, fun h => ?_⟩
    · rw [← heq] at hcached'
      exact hlast.distinct _ _ _ hstill hcached'
    · rw [h.1, hcached'] at hstill
      exact (Option.some.inj hstill).symm

/-! ## All configured backends -/

theorem names_eq_listing (config : Config) (autoUpdateOnly : Bool) :
    names config autoUpdateOnly = config.listing autoUpdateOnly := by
  unfold names Config.listing
  cases config.backends with
  | nil => rfl
  | cons entry entries =>
    cases autoUpdateOnly with
    | true => rfl
    | false =>
      have hall : (entry :: entries).filter (fun e => !false || e.autoUpdate) = entry :: entries :=
        List.filter_eq_self.mpr fun _ _ => rfl
      rw [hall]
      rfl

theorem perform_all {p : Registry × Pool} (hp : p.1.config = config) (autoUpdateOnly : Bool) :
    (all classes autoUpdateOnly).perform p =
      ((config.listing autoUpdateOnly).mapM (get classes)).perform p := by
  rw [← hp, ← names_eq_listing]
  rfl

/-- What several requests give, each of them gives afterwards. -/
theorem gives_of_mapM_get {requests : List (Option String)} {p q : Registry × Pool}
    {ns : List Instance} (h : (requests.mapM (get classes)).perform p = (.ok ns, q)) :
    requests.map (fun requested => (get classes requested).perform q) =
      ns.map fun n => (.ok n, q) := by
  induction requests generalizing p ns with
  | nil =>
    cases h
    rfl
  | cons requested requests ih =>
    have hclasses : BackendClass.ConstructOnly classes fun _ => True := fun _ _ _ _ _ => trivial
    rw [List.mapM_cons, Update.perform_bind] at h
    rcases hget : (get classes requested).perform p with ⟨e | n, p'⟩
    · rw [hget] at h
      nomatch h
    rw [hget] at h
    dsimp only at h
    rw [Update.perform_bind] at h
    rcases hmore : (requests.mapM (get classes)).perform p' with ⟨e | ms, q'⟩
    · rw [hmore] at h
      nomatch h
    rw [hmore] at h
    cases h
    have hmoves := (Update.regular_mapM (regular_get hclasses) requests).moves p'
    rw [hmore] at hmoves
    have hagain : (get classes requested).perform q = (.ok n, q) := by
      refine get_again (by rw [hget]) ?_ ?_
      · rw [hget]
        exact hmoves.config
      · rw [hget]
        exact hmoves.cached
    rw [List.map_cons, List.map_cons, hagain, ih hmore]

/-- **All backends are given when each of them is.** -/
theorem all_found_iff (hvalid : config.validate = .ok ()) (hoptions : config.OptionsWritable)
    {p : Registry × Pool} (hp : Tidy classes config p) (autoUpdateOnly : Bool) :
    (∃ ns, ((all classes autoUpdateOnly).perform p).1 = .ok ns) ↔
      ∀ requested ∈ config.listing autoUpdateOnly,
        ∃ n, ((get classes requested).perform p).1 = .ok n := by
  have hsame : ∀ cs requested, (∃ n, ((get classes requested).perform p).1 = .ok n) ↔
      ∃ n, ((get classes requested).perform (calls classes cs p)).1 = .ok n := fun cs requested =>
    (get_found_iff hvalid hoptions hp requested).trans
      (get_found_iff hvalid hoptions (tidy_calls cs hp) requested).symm
  rw [perform_all hp.configured]
  obtain ⟨ns, hns⟩ | ⟨before, requested, after, e, hsplit, hfail, hall⟩ :=
    perform_mapM_get (config.listing autoUpdateOnly) p
  · refine iff_of_true ⟨ns, by rw [hns]⟩ fun requested hmem => ?_
    have hgives := List.mem_map_of_mem (f := fun requested =>
      (get classes requested).perform (gets classes (config.listing autoUpdateOnly) p)) hmem
    rw [gives_of_mapM_get hns] at hgives
    obtain ⟨n, -, hn⟩ := List.mem_map.mp hgives
    exact (hsame _ requested).mpr ⟨n, congrArg Prod.fst hn.symm⟩
  · refine iff_of_false (fun ⟨ns, hns⟩ => ?_) fun h => ?_
    · rw [hall] at hns
      nomatch hns
    · have hmem : requested ∈ config.listing autoUpdateOnly := by
        rw [hsplit]
        exact List.mem_append_right _ List.mem_cons_self
      obtain ⟨n, hn⟩ := (hsame _ requested).mp (h requested hmem)
      rw [gets] at hfail
      rw [hfail] at hn
      nomatch hn

/-- What is not given is not remembered: the requests before the first that fails have been
answered, and it fails as it does when it is asked for alone. -/
theorem all_failed {p : Registry × Pool} (hp : p.1.config = config) {autoUpdateOnly : Bool}
    {e : Error} (h : ((all classes autoUpdateOnly).perform p).1 = .error e) :
    ∃ before requested after, config.listing autoUpdateOnly = before ++ requested :: after ∧
      (get classes requested).perform (gets classes before p) = (.error e, gets classes before p) ∧
      (all classes autoUpdateOnly).perform p = (.error e, gets classes before p) := by
  rw [perform_all hp] at h ⊢
  obtain ⟨ns, hns⟩ | ⟨before, requested, after, e', hsplit, hfail, hall⟩ :=
    perform_mapM_get (config.listing autoUpdateOnly) p
  · rw [hns] at h
    nomatch h
  · rw [hall] at h
    cases h
    exact ⟨before, requested, after, hsplit, hfail, hall⟩

/-! ## Registries in use -/

/-- What the answers of a registry in some state have in common. -/
structure SharesInstances (classes : List BackendClass) (config : Config) (p : Registry × Pool) :
    Prop where
  /-- A backend is given when the request resolves and the class constructs one. -/
  found : ∀ requested, (∃ n, ((get classes requested).perform p).1 = .ok n) ↔
    ∃ cls options b, Resolves classes config requested cls.path options ∧
      BackendClass.find? classes cls.path = some cls ∧ cls.construct options = .ok b
  /-- Two answers are one instance exactly when they resolve to the same class path and options and
  nothing was cleared between them. -/
  shared : ∀ between requested requested' n m,
    ((get classes requested).perform p).1 = .ok n →
    ((get classes requested').perform
      (calls classes between ((get classes requested).perform p).2)).1 = .ok m →
    (n = m ↔ (∃ classPath options, Resolves classes config requested classPath options ∧
      Resolves classes config requested' classPath options) ∧ RegistryCall.clear ∉ between)
  /-- A request that fails changes nothing. -/
  failed : ∀ requested e, ((get classes requested).perform p).1 = .error e →
    ((get classes requested).perform p).2 = p
  /-- All configured backends are given when each of them is. -/
  all_found : ∀ autoUpdateOnly, (∃ ns, ((all classes autoUpdateOnly).perform p).1 = .ok ns) ↔
    ∀ requested ∈ config.listing autoUpdateOnly, ∃ n, ((get classes requested).perform p).1 = .ok n
  /-- They are the instances that their names give, in order. -/
  all_gives : ∀ autoUpdateOnly ns q, (all classes autoUpdateOnly).perform p = (.ok ns, q) →
    (config.listing autoUpdateOnly).map (fun requested => (get classes requested).perform q) =
      ns.map fun n => (.ok n, q)
  /-- Where one of them is not given, those before it have been, and it changes nothing. -/
  all_failed : ∀ autoUpdateOnly e, ((all classes autoUpdateOnly).perform p).1 = .error e →
    ∃ before requested after, config.listing autoUpdateOnly = before ++ requested :: after ∧
      (get classes requested).perform (gets classes before p) = (.error e, gets classes before p) ∧
      (all classes autoUpdateOnly).perform p = (.error e, gets classes before p)

/-- **Whatever a registry was asked, its answers are one instance exactly when they should be.** The
numbers of JSON are finite, and so are those of all configurations that are read
(`Config.optionsWritable_of_ofText`). Options are compared as the values that they are: a whole
number differs from a floating point one, and the zero with a sign from the one without. -/
theorem sharesInstances_of_calls (hvalid : config.validate = .ok ())
    (hoptions : config.OptionsWritable) (pool : Pool) (cs : List RegistryCall) :
    SharesInstances classes config (calls classes cs (⟨config, []⟩, pool)) := by
  have htidy := tidy_calls cs (tidy_new classes config pool)
  exact {
    found := get_found_iff hvalid hoptions htidy
    shared := fun between _ _ _ _ hn hm => get_eq_iff hvalid hoptions htidy between hn hm
    failed := fun _ _ h => eq_of_get_error h
    all_found := all_found_iff hvalid hoptions htidy
    all_gives := fun _ _ _ h => gives_of_mapM_get ((perform_all htidy.configured _).symm.trans h)
    all_failed := fun _ _ h => Registry.all_failed htidy.configured h }

/-- A class that cannot be constructed from options that hold a fault. -/
def shopClass (path : String) : BackendClass :=
  ⟨path, fun options => if options.contains "fault" then .error (.config .malformed) else
    .ok .standard⟩

/-- The module of the shop, and another class in it. -/
def shopClasses : List BackendClass := [shopClass "shop::SearchBackend", shopClass "shop::Flat"]

/-- The second entry has the name of the module that the first one means by it; the third cannot be
constructed. -/
def shopConfig : Config :=
  ⟨1, [⟨"main", "shop", true, ∅⟩, ⟨"shop", "shop::Flat", false, ∅⟩,
    ⟨"broken", "shop", true, .ofList [("fault", .bool true)]⟩]⟩

/-- The first entry and the class path of its module are one instance, the name of the module is
another; listing all backends fails, and what it gave before is kept until the cache is cleared. -/
theorem sharesInstances_of_calls_shop :
    let p := calls shopClasses [.get (some "broken"), .all false] (⟨shopConfig, []⟩, [])
    let answer (q : Registry × Pool) (requested : String) :=
      ((get shopClasses (some requested)).perform q).1
    (shopConfig.validate = .ok () ∧ shopConfig.OptionsWritable) ∧
    SharesInstances shopClasses shopConfig p ∧
    answer p "main" = .ok 0 ∧ answer p "shop::SearchBackend" = .ok 0 ∧ answer p "shop" = .ok 1 ∧
    answer p "broken" = .error (.config .malformed) ∧
    answer (calls shopClasses [.clear] p) "main" = .ok 2 := by
  intro p answer
  have hvalid : shopConfig.validate = .ok () := by decide +kernel
  have hoptions : shopConfig.OptionsWritable := by
    unfold Config.OptionsWritable
    decide +kernel
  exact ⟨⟨hvalid, hoptions⟩, sharesInstances_of_calls hvalid hoptions [] _, by decide +kernel,
    by decide +kernel, by decide +kernel, by decide +kernel, by decide +kernel⟩

end Registry

end Concordance
