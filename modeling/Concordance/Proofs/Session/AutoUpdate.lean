import Concordance.Proofs.Session.Moves
import Concordance.Proofs.Session.Refusal

/-!
# Backends that opt out of updates

A record that is saved or deleted is passed on to the configured backends that do not opt out.
Entries opt out one by one, but an instance belongs to a class path and options, and entries that
resolve to the same have one instance (`Config.Shares`). What is passed on for the one is seen by
the other.

* `Tidied.operate`: the caches of all registries stay in order, whatever operations do.
* `Registry.all_apart`: asking for the backends that are updated gives instances of their own keys,
  and does not touch what is cached for others.
* `Spares`: what is left alone between two sessions, for the instances of some keys; a request that
  leads to one of them is answered as before (`Spares.given_eq`), and passing a record on spares
  what is not listed for updates (`spares_passOn`).
* **`given_of_optedOut`**: an entry that opts out gives the same backend before and after, unless it
  shares its instance with one that does not; `optedOut_written` is such an entry.
-/

namespace Concordance

/-! ## Registries -/

namespace Config

/-- Two entries share their instance: their names resolve to one class path and the same options. -/
def Shares (config : Config) (classes : List BackendClass) (e other : BackendConfig) : Prop :=
  ∃ classPath options, Registry.Resolves classes config (some e.name) classPath options ∧
    Registry.Resolves classes config (some other.name) classPath options

/-- Entries of a valid configuration share an instance only if they have the same options. -/
theorem Shares.options_eq {config : Config} {classes : List BackendClass} {e other : BackendConfig}
    (hvalid : config.validate = .ok ()) (he : e ∈ config.backends)
    (hother : other ∈ config.backends) (h : config.Shares classes e other) :
    other.options = e.options := by
  obtain ⟨classPath, options, ⟨path, hasks, -⟩, path', hasks', -⟩ := h
  have hoptions : options = e.options := (hasks.unique hvalid (.entry he rfl)).2
  have hoptions' : options = other.options := (hasks'.unique hvalid (.entry hother rfl)).2
  rw [← hoptions, ← hoptions']

/-- Where there are entries, what is listed for updates are the names of those that do not opt
out. -/
theorem exists_of_mem_listing {config : Config} {e : BackendConfig} (he : e ∈ config.backends)
    {requested : Option String} (h : requested ∈ config.listing true) :
    ∃ other ∈ config.backends, other.autoUpdate = true ∧ requested = some other.name := by
  unfold listing at h
  cases hentries : config.backends with
  | nil =>
    rw [hentries] at he
    nomatch he
  | cons first rest =>
    rw [hentries] at h
    obtain ⟨other, hmem, rfl⟩ := List.mem_map.mp h
    obtain ⟨hmem, hauto⟩ := List.mem_filter.mp hmem
    exact ⟨other, hmem, hauto, rfl⟩

end Config

namespace Registry

variable {classes : List BackendClass}

/-- The cached instance for a key, after requests for other keys. -/
theorem lookup_gets {requests : List (Option String)} {p : Registry × Pool} {key : InstanceKey}
    (hother : ∀ requested ∈ requests, ∀ r,
      request classes p.1.config requested = .ok r → r.key ≠ key) :
    (gets classes requests p).1.cache.lookup key = p.1.cache.lookup key := by
  induction requests generalizing p with
  | nil => rfl
  | cons requested requests ih =>
    have hclasses : BackendClass.ConstructOnly classes fun _ => True := fun _ _ _ _ _ => trivial
    have hconfig := (supplied_get hclasses requested p).config
    have hfirst : ((get classes requested).perform p).2.1.cache.lookup key =
        p.1.cache.lookup key := by
      obtain ⟨_, hget⟩ | ⟨r, hr, ⟨_, -, hget⟩ | ⟨-, b, -, hget⟩⟩ := get_cases classes requested p
      · rw [hget]
      · rw [hget]
      · have hne := hother requested List.mem_cons_self r hr
        rw [hget]
        show ((r.key, p.2.length) :: p.1.cache).lookup key = _
        rw [List.lookup_cons, beq_eq_false_iff_ne.mpr hne.symm]
    refine (ih (p := ((get classes requested).perform p).2) fun other hmem r hr => ?_).trans hfirst
    rw [hconfig] at hr
    exact hother other (List.mem_cons_of_mem _ hmem) r hr

/-- **Asking for all backends, or those that are updated**, gives instances of their keys, and
leaves the cache for any other key as it was. -/
theorem all_apart {p : Registry × Pool} {config : Config} (hp : Tidy classes config p)
    {autoUpdateOnly : Bool} {key : InstanceKey}
    (hother : ∀ requested ∈ config.listing autoUpdateOnly, ∀ r,
      request classes config requested = .ok r → r.key ≠ key) :
    let out := (all classes autoUpdateOnly).perform p
    out.2.1.cache.lookup key = p.1.cache.lookup key ∧
      ∀ ns, out.1 = .ok ns → ∀ n ∈ ns, out.2.1.cache.lookup key ≠ some n := by
  intro out
  have hout : out = _ := perform_all hp.configured autoUpdateOnly
  have htidy : Tidy classes config out.2 := tidy_calls [.all autoUpdateOnly] hp
  constructor
  · rw [hout]
    obtain ⟨ns, hns⟩ | ⟨before, requested, after, e, hsplit, -, hfail⟩ :=
      perform_mapM_get (config.listing autoUpdateOnly) p
    · rw [hns]
      exact lookup_gets (hp.configured ▸ hother)
    · rw [hfail]
      refine lookup_gets (hp.configured ▸ fun other hmem => hother other ?_)
      rw [hsplit]
      exact List.mem_append_left _ hmem
  · intro ns hns n hn hkey
    have hrun : ((config.listing autoUpdateOnly).mapM (get classes)).perform p =
        (.ok ns, out.2) := by
      rw [← hout, ← hns]
    have hmem : (Except.ok n, out.2) ∈ (config.listing autoUpdateOnly).map fun requested =>
        (get classes requested).perform out.2 := by
      rw [gives_of_mapM_get hrun]
      exact List.mem_map_of_mem hn
    obtain ⟨requested, hlisted, hget⟩ := List.mem_map.mp hmem
    obtain ⟨r, hr, hcached⟩ := cached_of_get (congrArg Prod.fst hget)
    rw [hget] at hr hcached
    rw [htidy.configured] at hr
    exact hother requested hlisted r hr (htidy.distinct _ _ n hcached hkey)

end Registry

namespace Session

variable {s t : Session}

/-! ## Registries of reachable sessions -/

/-- The caches of all registries are in order. -/
def Tidied (s : Session) : Prop :=
  ∀ r ∈ s.registries, Registry.Tidy s.classes r.config (r, s.backends)

theorem Tidied.at (h : Tidied s) (i : Nat) :
    Registry.Tidy s.classes (s.registryAt i).config (s.registryAt i, s.backends) :=
  getD_of_forall (P := fun r : Registry => Registry.Tidy s.classes r.config (r, s.backends)) h
    (Registry.tidy_new s.classes Config.default s.backends) i

theorem tidied_ofStore (store : Store) (classes : List BackendClass) (b : Backend) :
    Tidied (ofStore store classes b) := by
  intro r hr
  rw [List.mem_singleton.mp hr]
  exact Registry.tidy_new classes Config.default [b]

/-- More backends leave a cache in order. -/
theorem tidy_of_le {classes : List BackendClass} {config : Config} {r : Registry}
    {pool pool' : Pool} (h : Registry.Tidy classes config (r, pool))
    (hle : pool.length ≤ pool'.length) : Registry.Tidy classes config (r, pool') where
  configured := h.configured
  pooled key n hn := (h.pooled key n hn).trans_le hle
  distinct := h.distinct
  constructed := h.constructed

theorem Tidied.move (h : Tidied s) (hmove : Move s t) : Tidied t := by
  cases hmove with
  | store | views | install | use => exact h
  | backend n b => exact fun r hr => tidy_of_le (h r hr) (List.length_set ..).ge
  | call i c =>
    intro r hr
    have hq : Registry.Tidy s.classes (s.registryAt i).config
      (Registry.call s.classes (s.registryAt i, s.backends) c) := Registry.tidy_calls [c] (h.at i)
    rcases List.mem_or_eq_of_mem_set hr with hr | rfl
    · exact tidy_of_le (h r hr) (Registry.length_le_calls [c] (s.registryAt i, s.backends))
    · rw [hq.configured]
      exact hq
  | configure config =>
    intro r hr
    rcases List.mem_append.mp hr with hr | hr
    · exact h r hr
    · rw [List.mem_singleton.mp hr]
      exact Registry.tidy_new s.classes config s.backends

/-- **In every session that operations reach the caches are in order.** -/
theorem Tidied.operate (h : Tidied s) (ops : List Operation) : Tidied (s.operate ops) :=
  kept_of_operate (fun _ _ hmove hs => hs.move hmove) h ops

/-! ## The backend that is given -/

/-- The registry in use. -/
def inUse (s : Session) : Registry := s.registryAt s.registry

/-- The backend that the registry in use gives for a name or path, as it then is. -/
def given (s : Session) (requested : Option String) : Result Backend :=
  let out := (getFrom s.registry requested).perform s
  out.1.map out.2.backend

theorem given_eq (s : Session) (requested : Option String) : s.given requested =
    match Registry.request s.classes s.inUse.config requested with
    | .error e => .error e
    | .ok r => match s.inUse.cache.lookup r.key with
      | some n => .ok (s.backend n)
      | none => r.cls.construct r.options := by
  unfold given inUse
  rw [perform_getFrom, Registry.perform_get]
  dsimp only
  cases Registry.request s.classes (s.registryAt s.registry).config requested with
  | error e => rfl
  | ok r =>
    dsimp only
    cases (s.registryAt s.registry).cache.lookup r.key with
    | some n => rfl
    | none =>
      dsimp only
      cases r.cls.construct r.options with
      | error e => rfl
      | ok b =>
        show Except.ok ((s.backends ++ [b]).getD s.backends.length .standard) = _
        rw [List.getD_append_right _ _ _ _ le_rfl, Nat.sub_self]
        rfl

/-- The classes and the configuration in use stay, and nothing happens to the instances that the
registry in use has for some keys, nor to their backends. -/
structure Spares (spared : InstanceKey → Prop) (s t : Session) : Prop where
  classes : t.classes = s.classes
  config : t.inUse.config = s.inUse.config
  cached : ∀ key, spared key →
    t.inUse.cache.lookup key = s.inUse.cache.lookup key
  backend : ∀ key, spared key → ∀ n,
    s.inUse.cache.lookup key = some n → t.backend n = s.backend n

variable {spared : InstanceKey → Prop}

theorem Spares.refl (spared : InstanceKey → Prop) (s : Session) : Spares spared s s :=
  ⟨rfl, rfl, fun _ _ => rfl, fun _ _ _ _ => rfl⟩

theorem Spares.trans {u : Session} (hst : Spares spared s t) (htu : Spares spared t u) :
    Spares spared s u where
  classes := htu.classes.trans hst.classes
  config := htu.config.trans hst.config
  cached key hkey := (htu.cached key hkey).trans (hst.cached key hkey)
  backend key hkey n hn :=
    (htu.backend key hkey n ((hst.cached key hkey).trans hn)).trans (hst.backend key hkey n hn)

/-- **A request whose key is spared is answered as before.** -/
theorem Spares.given_eq (h : Spares spared s t) {requested : Option String}
    (hspared : ∀ r, Registry.request s.classes s.inUse.config requested = .ok r →
      spared r.key) : t.given requested = s.given requested := by
  rw [Session.given_eq, Session.given_eq, h.classes, h.config]
  cases hr : Registry.request s.classes s.inUse.config requested with
  | error e => rfl
  | ok r =>
    dsimp only
    rw [h.cached r.key (hspared r hr)]
    cases hn : s.inUse.cache.lookup r.key with
    | some n =>
      dsimp only
      rw [h.backend r.key (hspared r hr) n hn]
    | none => rfl

/-! Where no key is spared, the classes and the configuration in use are still as they were. -/

theorem spares_backend (n : Instance) (c : BackendCommand) (s : Session) :
    Spares (fun _ => False) s ((Operation.command (.backend n c)).next s) := by
  rw [next_command, next_backend]
  exact ⟨rfl, rfl, fun _ h => h.elim, fun _ h => h.elim⟩

theorem spares_use (requested : Option String) (s : Session) :
    Spares (fun _ => False) s ((use requested).perform s).2 := by
  have hahead := (ahead_getFrom s.registry requested).moves s
  have hregistry : ((getFrom s.registry requested).perform s).2.registry = s.registry := rfl
  rw [perform_use]
  generalize (getFrom s.registry requested).perform s = out at hahead hregistry ⊢
  have hconfig : out.2.inUse.config = s.inUse.config := by
    unfold inUse
    rw [hregistry]
    exact hahead.config
  rcases out with ⟨_ | _, t⟩ <;>
    exact ⟨hahead.classes, hconfig, fun _ h => h.elim, fun _ h => h.elim⟩

/-! ## Passing records on -/

section PassOn

variable (write : Store → Record → Update Backend Unit) (r : Record)

theorem spares_passTo {n : Instance}
    (hn : ∀ key, spared key → s.inUse.cache.lookup key ≠ some n) :
    Spares spared s ((passTo write r n).perform s).2 := by
  unfold passTo
  rw [Update.perform_get_bind]
  split
  · refine ⟨rfl, rfl, fun _ _ => rfl, fun key hkey m hm => ?_⟩
    have hne : m ≠ n := fun heq => hn key hkey (heq ▸ hm)
    exact (backend_set s n m _).trans (if_neg fun h => hne h.1)
  · exact Spares.refl spared s

theorem spares_forM_passTo {instances : List Instance}
    (hinstances : ∀ n ∈ instances, ∀ key, spared key →
      s.inUse.cache.lookup key ≠ some n) :
    Spares spared s ((instances.forM (passTo write r)).perform s).2 := by
  induction instances generalizing s with
  | nil => exact Spares.refl spared s
  | cons n instances ih =>
    show Spares spared s
      (Update.perform (passTo write r n >>= fun _ => instances.forM (passTo write r)) s).2
    have hfirst := spares_passTo write r (hinstances n List.mem_cons_self)
    rw [Update.perform_bind]
    generalize (passTo write r n).perform s = out at hfirst ⊢
    rcases out with ⟨_ | _, t⟩
    · exact hfirst
    · refine hfirst.trans (ih fun m hm key hkey => ?_)
      rw [hfirst.cached key hkey]
      exact hinstances m (List.mem_cons_of_mem _ hm) key hkey

/-- A key that no request for a backend with updates has. -/
def Unlisted (s : Session) (key : InstanceKey) : Prop :=
  ∀ requested ∈ s.inUse.config.listing true, ∀ r,
    Registry.request s.classes s.inUse.config requested = .ok r → r.key ≠ key

/-- Asking for the backends with updates gives instances of other keys than the unlisted ones. -/
theorem spares_allFrom (h : Tidied s) (hi : s.registry < s.registries.length) :
    let out := (allFrom s.registry true).perform s
    Spares s.Unlisted s out.2 ∧ ∀ ns, out.1 = .ok ns → ∀ n ∈ ns, ∀ key, s.Unlisted key →
      out.2.inUse.cache.lookup key ≠ some n := by
  intro out
  have hclasses : BackendClass.ConstructOnly s.classes fun _ => True := fun _ _ _ _ _ => trivial
  have htidy := h.at s.registry
  obtain ⟨hconfig, ⟨new, hpool, -⟩, -, -⟩ :=
    Registry.supplied_all hclasses true (s.registryAt s.registry, s.backends)
  have hregistry : out.2.inUse =
      ((Registry.all s.classes true).perform (s.registryAt s.registry, s.backends)).2.1 :=
    (registryAt_set s _ _ s.registry).trans (if_pos hi)
  refine ⟨⟨rfl, ?_, fun key hkey => ?_, fun key hkey n hn => ?_⟩, fun ns hns n hmem key hkey => ?_⟩
  · rw [hregistry, hconfig]
    rfl
  · rw [hregistry, (Registry.all_apart htidy hkey).1]
    rfl
  · show ((Registry.all s.classes true).perform (s.registryAt s.registry, s.backends)).2.2.getD n
      .standard = _
    rw [hpool]
    exact List.getD_append _ _ _ _ (htidy.pooled key n hn)
  · rw [hregistry]
    exact (Registry.all_apart htidy hkey).2 ns hns n hmem

/-- **A record that is passed on** reaches no instance of an unlisted key. -/
theorem spares_passOn (h : Tidied s) (hi : s.registry < s.registries.length) :
    Spares s.Unlisted s ((passOn write r).perform s).2 := by
  obtain ⟨hspares, hapart⟩ := spares_allFrom h hi
  rw [perform_passOn, Update.perform_bind]
  generalize (allFrom s.registry true).perform s = out at hspares hapart ⊢
  rcases out with ⟨_ | instances, t⟩
  · exact hspares
  · exact hspares.trans (spares_forM_passTo write r (hapart instances rfl))

/-- **The backend of an entry that opts out** is not written to, if those of which it shares the
instance opt out as well. -/
theorem given_passOn (h : Tidied s) {e : BackendConfig} (he : e ∈ s.inUse.config.backends)
    (hout : e.autoUpdate = false) (hoptions : s.inUse.config.OptionsWritable)
    (hshared : ∀ other ∈ s.inUse.config.backends, other ≠ e →
      s.inUse.config.Shares s.classes e other → other.autoUpdate = false) :
    ((passOn write r).perform s).2.given (some e.name) = s.given (some e.name) := by
  have hi : s.registry < s.registries.length := by
    by_contra hi
    have hnone : s.inUse = ⟨Config.default, []⟩ :=
      List.getD_eq_default _ _ (Nat.le_of_not_lt hi)
    rw [hnone] at he
    nomatch he
  refine (spares_passOn write r h hi).given_eq fun q hq requested hlisted q' hq' hkey => ?_
  obtain ⟨other, hmem, hauto, rfl⟩ := Config.exists_of_mem_listing he hlisted
  obtain ⟨hpath, heq⟩ := (Registry.key_eq_iff hoptions hq' hq).mp hkey
  have hresolves := (Registry.resolves_of_request hq').1
  rw [hpath, heq] at hresolves
  have hne : other ≠ e := by
    rintro rfl
    rw [hout] at hauto
    nomatch hauto
  have hboth := hshared other hmem hne ⟨_, _, (Registry.resolves_of_request hq).1, hresolves⟩
  rw [hauto] at hboth
  nomatch hboth

end PassOn

/-- **A backend that opts out of updates.** In any session that operations reach, let the registry
in use configure an entry that opts out, and let all other entries that resolve to its class path
and options opt out as well; options hold finite numbers, as JSON has no others. Then the backend
that the registry gives for the name of the entry, with all that it has indexed and buffered, is the
same before and after any saved or deleted record is passed on, whether that succeeds or fails. -/
theorem given_of_optedOut {store : Store} {classes : List BackendClass} {b : Backend}
    {past : List Operation} {s : Session} (hs : s = (ofStore store classes b).operate past)
    {e : BackendConfig} (he : e ∈ s.inUse.config.backends) (hout : e.autoUpdate = false)
    (hoptions : s.inUse.config.OptionsWritable)
    (hshared : ∀ other ∈ s.inUse.config.backends, other ≠ e →
      s.inUse.config.Shares s.classes e other → other.autoUpdate = false) (r : Record) :
    ((Operation.registry (.saved r)).next s).given (some e.name) = s.given (some e.name) ∧
      ((Operation.registry (.deleted r)).next s).given (some e.name) = s.given (some e.name) := by
  have htidied : Tidied s := hs ▸ (tidied_ofStore store classes b).operate past
  exact ⟨given_passOn Backend.add r htidied he hout hoptions hshared,
    given_passOn Backend.delete r htidied he hout hoptions hshared⟩

/-- A backend that is updated, and two that opt out and share their instance: the first of them says
the path of the class, and both have an option that the first backend has not. -/
def countersConfig : Config :=
  ⟨2, [⟨"main", "desk", true, ∅⟩,
    ⟨"manual", "desk::SearchBackend", false, .ofList [("quiet", .bool true)]⟩,
    ⟨"twin", "desk", false, .ofList [("quiet", .bool true)]⟩]⟩

/-- The first of the two that opt out. -/
def manual : BackendConfig :=
  ⟨"manual", "desk::SearchBackend", false, .ofList [("quiet", .bool true)]⟩

/-- A book is indexed by hand. -/
def countersPast : List Operation :=
  [.registry (.configure countersConfig), .registry (.use (some "twin")),
    .command (.backend 1 (.add (titled "Book" 1 "Tea")))]

/-- The keys of the books that searches see in a backend. -/
def bookKeys (b : Result Backend) : Option (List Key) :=
  b.toOption.map fun b => (b.index "Book").index.entries.keys

/-- A book that is passed on reaches the backend with updates. The one that opts out keeps the book
that was indexed by hand through its twin. -/
theorem given_of_optedOut_counters :
    let s := desk.operate countersPast
    let t := (Operation.registry (.saved (titled "Book" 2 "Milk"))).next s
    (manual ∈ s.inUse.config.backends ∧ manual.autoUpdate = false ∧
      s.inUse.config.OptionsWritable ∧
      ∀ other ∈ s.inUse.config.backends, other ≠ manual →
        s.inUse.config.Shares s.classes manual other → other.autoUpdate = false) ∧
    t.given (some "manual") = s.given (some "manual") ∧
    bookKeys (s.given (some "manual")) = some [1] ∧ bookKeys (t.given (some "manual")) = some [1] ∧
    bookKeys (s.given (some "main")) = some [] ∧ bookKeys (t.given (some "main")) = some [2] := by
  intro s t
  have hvalid : countersConfig.validate = .ok () := by decide +kernel
  have hconfigured : ((configure countersConfig).perform desk).2 =
      { desk with registries := desk.registries ++ [⟨countersConfig, []⟩], registry := 1 } := by
    rw [perform_configure, hvalid]
    rfl
  have hspares : Spares (fun _ => False) ((configure countersConfig).perform desk).2 s :=
    (spares_use (some "twin") _).trans (spares_backend 1 _ _)
  rw [hconfigured] at hspares
  have hconfig : s.inUse.config = countersConfig := hspares.config
  have hoptions : s.inUse.config.OptionsWritable := by
    rw [hconfig]
    unfold Config.OptionsWritable
    decide +kernel
  have hmem : manual ∈ s.inUse.config.backends := by
    rw [hconfig]
    exact List.mem_cons_of_mem _ List.mem_cons_self
  have hshared : ∀ other ∈ s.inUse.config.backends, other ≠ manual →
      s.inUse.config.Shares s.classes manual other → other.autoUpdate = false := by
    rw [hconfig]
    intro other hother hne hshares
    have heq := hshares.options_eq hvalid (hconfig ▸ hmem) hother
    rcases List.mem_cons.mp hother with rfl | hother
    · have hlength := congrArg (fun options => options.toList.length) heq
      revert hlength
      decide +kernel
    · rcases List.mem_cons.mp hother with rfl | hother
      · exact absurd rfl hne
      · rw [List.mem_singleton.mp hother]
  exact ⟨⟨hmem, rfl, hoptions, hshared⟩, (given_of_optedOut rfl hmem rfl hoptions hshared _).1,
    by decide +kernel, by decide +kernel, by decide +kernel, by decide +kernel⟩

/-- **An entry that opts out is written to all the same** where it shares its instance with one that
does not. -/
theorem optedOut_written :
    let config : Config := ⟨2, [⟨"main", "desk", true, ∅⟩, ⟨"manual", "desk", false, ∅⟩]⟩
    let s := desk.operate [.registry (.configure config)]
    let t := (Operation.registry (.saved (titled "Book" 1 "Tea"))).next s
    (config.validate = .ok () ∧ s.inUse.config = config) ∧
    bookKeys (s.given (some "manual")) = some [] ∧
    bookKeys (t.given (some "manual")) = some [1] := by
  intro config s t
  have hvalid : config.validate = .ok () := by decide +kernel
  have hconfig : s.inUse.config = config := by
    show ((configure config).perform desk).2.inUse.config = config
    rw [perform_configure, hvalid]
    rfl
  exact ⟨⟨hvalid, hconfig⟩, by decide +kernel, by decide +kernel⟩

end Session

end Concordance
