import Concordance.Registry

/-!
# Sessions

A `Session` is a store with backends over it, registries that construct further backends, and
views under names. Everything that is shared is one part of the session: all backends read one
store, and a view refers to the backend that it came from, so it shows later writes.

Searches and writes go to the current backend. One of the registries may be installed for the
whole process; it stays installed when the session changes to another one.
-/

namespace Concordance

/-- A compiled search on the index of a family of a backend. -/
structure BackendSearch where
  backend : Instance
  root : String
  search : CompiledSearch

/-- A store with the backends, registries and views over it. -/
structure Session where
  store : Store
  /-- The classes that backends are constructed from. -/
  classes : List BackendClass
  /-- All backends constructed so far. -/
  backends : Pool
  /-- The backend that searches and writes go to. -/
  current : Instance
  /-- All registries made so far. -/
  registries : List Registry
  /-- The registry in use. -/
  registry : Nat
  /-- The registry of the whole process. -/
  installed : Option Nat
  views : SortedMap String (View BackendSearch)

namespace Session

/-- A session over a store, with one backend and a registry without configured backends. -/
def ofStore (store : Store) (classes : List BackendClass) (backend : Backend) : Session where
  store := store
  classes := classes
  backends := [backend]
  current := 0
  registries := [⟨Config.default, []⟩]
  registry := 0
  installed := none
  views := ∅

/-- The backend with a number. -/
def backend (s : Session) (n : Instance) : Backend := s.backends.getD n .standard

/-- The registry with a number. -/
def registryAt (s : Session) (n : Nat) : Registry := s.registries.getD n ⟨Config.default, []⟩

/-- What a search shows as a source of hits. -/
def source (s : Session) (b : BackendSearch) : Source :=
  (s.backend b.backend).source s.store b.root b.search

/-! ## Writes -/

/-- Runs an operation on a backend. -/
def onBackend {α : Type} (n : Instance) (x : Update Backend α) : Update Session α :=
  .within (fun s => s.backend n) (fun b s => { s with backends := s.backends.set n b }) x

/-- Runs an operation, which may read the store, on the current backend. -/
def onCurrent {α : Type} (x : Store → Update Backend α) : Update Session α := do
  let s ← get
  onBackend s.current (x s.store)

/-- Inserts a record into the store. -/
def insert (r : Record) : Update Session Unit := do
  let s ← get
  let store ← Update.ofResult (s.store.insert r)
  set { s with store := store }

/-- Removes a record from the store and returns it. -/
def delete (model : String) (pk : Key) : Update Session (Option Record) := do
  let s ← get
  let (removed, store) ← Update.ofResult (s.store.delete model pk)
  set { s with store := store }
  return removed

/-- Inserts a record into the store and indexes it. -/
def save (r : Record) : Update Session Unit := do
  insert r
  onCurrent fun st => Backend.add st r

/-! ## Searches -/

/-- A view over the hits of a search on the current backend; the index searched is created, unless
it exists. -/
def search (query : SearchQuery) (records : RecordSet) (options : SearchOptions) :
    Update Session (View BackendSearch) := do
  let s ← get
  match ← Update.ofResult (compileSearch s.store.schema query records options) with
  | none => return .empty
  | some c =>
    let root ← Update.ofResult (s.store.schema.rootOf c.model)
    onBackend s.current (modify (Backend.openIndex root))
    return .ofSource ⟨s.current, root, c⟩ none

/-- Keeps a view under a name. -/
def keep (name : String) (v : View BackendSearch) : Update Session Unit :=
  modify fun s => { s with views := s.views.insert name v }

/-- The view under a name; without one, the empty view. -/
def view (s : Session) (name : String) : View BackendSearch := s.views.getD name .empty

/-- The hits of the view under a name. -/
def hits (name : String) : Update Session (List Hit) := do
  let s ← get
  let outcome := (s.view name).consume s.source
  keep name outcome.view
  Update.ofResult outcome.answer

/-- The hits of a search whose view is not kept. -/
def find (query : SearchQuery) (records : RecordSet) (options : SearchOptions) :
    Update Session (List Hit) := do
  let v ← search query records options
  let s ← get
  Update.ofResult (v.consume s.source).answer

/-! ## Registries -/

/-- Runs an operation on a registry and the pool of backends. -/
def onRegistry {α : Type} (n : Nat) (x : Update (Registry × Pool) α) : Update Session α :=
  .within (fun s => (s.registryAt n, s.backends))
    (fun (r, pool) s => { s with registries := s.registries.set n r, backends := pool }) x

/-- Changes to a new registry over a configuration. -/
def configure (config : Config) : Update Session Unit := do
  let r ← Update.ofResult (Registry.ofConfig config)
  modify fun s => { s with registries := s.registries ++ [r], registry := s.registries.length }

/-- Changes to a new registry and installs it for the whole process. -/
def install (config : Config) : Update Session Unit := do
  configure config
  modify fun s => { s with installed := some s.registry }

/-- The number of the installed registry. -/
def installedRegistry : Update Session Nat := do
  match (← get).installed with
  | some n => return n
  | none => throw (.config .notInstalled)

/-- The instance that a registry gives for a name or path. -/
def getFrom (n : Nat) (requested : Option String) : Update Session Instance := do
  onRegistry n (Registry.get (← get).classes requested)

/-- The instances of all backends that a registry configures. -/
def allFrom (n : Nat) (autoUpdateOnly : Bool) : Update Session (List Instance) := do
  onRegistry n (Registry.all (← get).classes autoUpdateOnly)

/-- Forgets the instances that a registry has given. -/
def clearCache (n : Nat) : Update Session Unit :=
  modify fun s => { s with registries := s.registries.set n (s.registryAt n).clear }

/-- Makes the instance for a name or path the current backend. -/
def use (requested : Option String) : Update Session Instance := do
  let n ← getFrom (← get).registry requested
  modify fun s => { s with current := n }
  return n

/-- Passes a record on to every backend of the registry that takes writes; types that the schema
does not declare are skipped. -/
def passOn (write : Store → Record → Update Backend Unit) (r : Record) : Update Session Unit := do
  let instances ← allFrom (← get).registry true
  instances.forM fun n => do
    let s ← get
    if s.store.schema.contains r.model then onBackend n (write s.store r)

/-- Passes a saved record on. -/
def saved (r : Record) : Update Session Unit := passOn Backend.add r

/-- Passes a deleted record on. -/
def deleted (r : Record) : Update Session Unit := passOn Backend.delete r

/-- Rebuilds the backend of a name, or all configured ones. -/
def rebuildAll (name : Option String) : Update Session (List RebuildStats) := do
  let s ← get
  let registry := s.registryAt s.registry
  (Registry.rebuildNames registry.config name).mapM fun requested => do
    let n ← getFrom s.registry requested
    onBackend n (Backend.rebuild s.store registry.config.chunkSize)

end Session

end Concordance
