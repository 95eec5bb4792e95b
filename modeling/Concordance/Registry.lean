import Concordance.Rebuild

/-!
# The backend registry

Backends are asked for by a configured name, by the path of a module, or by the path of a class.
The name `default` is configured even if no entry says so. A path stands for the class named
`SearchBackend` below it, and else for the class of that path.

A backend is constructed once for each class path and text of options; asking again gives the same
instance until the cache is cleared. Instances are numbers: positions in the pool of everything
constructed so far.
-/

namespace Concordance

/-- A class of backends that can be constructed from options. -/
structure BackendClass where
  path : String
  construct : Options → Result Backend

namespace BackendClass

/-- The name of the class that the path of its module alone leads to. -/
def moduleClassName : String := "SearchBackend"

/-- The path of the class that the path of a module leads to. -/
def pathInModule (path : String) : String := path ++ "::" ++ moduleClassName

/-- The classes that are always there. -/
def builtin : List BackendClass :=
  [⟨Backend.className, Backend.ofOptions⟩, ⟨pathInModule Config.defaultPath, Backend.ofOptions⟩]

/-- The class with a path. -/
def find? (classes : List BackendClass) (path : String) : Option BackendClass :=
  List.find? (fun c => c.path == path) classes

/-- The class that a path leads to: below a module, or by itself. -/
def resolve? (classes : List BackendClass) (path : String) : Option BackendClass :=
  match find? classes (pathInModule path) with
  | some c => some c
  | none => find? classes path

end BackendClass

/-- The number of a constructed backend. -/
abbrev Instance := Nat

/-- What makes two requests for a backend the same: the class path and the text of the options. -/
abbrev InstanceKey := String × String

/-- Configured backends with the instances constructed for them. -/
structure Registry where
  config : Config
  cache : List (InstanceKey × Instance)

/-- The backends constructed so far. -/
abbrev Pool := List Backend

/-- A request for a backend that has been resolved. -/
structure BackendRequest where
  cls : BackendClass
  options : Options

/-- The key of a request. -/
def BackendRequest.key (r : BackendRequest) : InstanceKey :=
  (r.cls.path, (Json.object r.options.toList).render)

namespace Registry

/-- A registry over a configuration that must be valid. -/
def ofConfig (config : Config) : Result Registry := do
  config.validate
  return ⟨config, []⟩

/-- What a name or path asks for; no name is the default one. -/
def request (classes : List BackendClass) (config : Config) (requested : Option String) :
    Result BackendRequest :=
  let name := requested.getD Config.defaultName
  let (path, options) := match config.resolve? name with
    | some entry => (entry.path, entry.options)
    | none => (name, ∅)
  match BackendClass.resolve? classes path with
  | some cls => .ok ⟨cls, options⟩
  | none => .error (.invalidBackend name (.unresolved path))

/-- The instance that a name or path asks for, constructed if there is none yet. -/
def get (classes : List BackendClass) (requested : Option String) :
    Update (Registry × Pool) Instance := do
  let (registry, pool) ← MonadState.get
  let request ← Update.ofResult (request classes registry.config requested)
  match registry.cache.lookup request.key with
  | some n => return n
  | none =>
    let built ← Update.ofResult (request.cls.construct request.options)
    set (({ registry with cache := (request.key, pool.length) :: registry.cache },
      pool ++ [built]) : Registry × Pool)
    return pool.length

/-- The names of the configured backends, or only of those that writes are passed on to; without
any configured, the default one. -/
def names (config : Config) (autoUpdateOnly : Bool) : List (Option String) :=
  if config.backends.isEmpty then [none]
  else (config.backends.filter fun b => !autoUpdateOnly || b.autoUpdate).map fun b => some b.name

/-- The instances of all configured backends, in order. -/
def all (classes : List BackendClass) (autoUpdateOnly : Bool) :
    Update (Registry × Pool) (List Instance) := do
  let (registry, _) ← MonadState.get
  (names registry.config autoUpdateOnly).mapM (get classes)

/-- The registry without cached instances. -/
def clear (r : Registry) : Registry := { r with cache := [] }

/-- The names of the backends that a rebuild is for: the given one, or all configured. -/
def rebuildNames (config : Config) (name : Option String) : List (Option String) :=
  match name with
  | some n => [some n]
  | none => names config false

end Registry

end Concordance
