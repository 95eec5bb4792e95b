import Concordance.Error
import Concordance.Toml.Printer
import Concordance.Toml.Reader

/-!
# Configuration

A `Config` lists the search backends by name and says how many records a rebuild hands over at a
time. It is read from TOML, where unknown keys are ignored and missing ones have defaults, and
written to TOML. A configuration is valid when batches hold records, no name and no path is blank
and no name occurs twice; the first fault in the order of the entries is reported.
-/

namespace Concordance

/-- The options of a backend. -/
abbrev Options := SortedMap String Json

/-- One configured backend. -/
structure BackendConfig where
  /-- The name that it is looked up by. -/
  name : String
  /-- The path of its class or module. -/
  path : String
  /-- Whether saved and deleted records are passed on to it. -/
  autoUpdate : Bool
  options : Options

/-- The configured backends. -/
structure Config where
  /-- The number of records that a rebuild hands over at a time. -/
  chunkSize : Nat
  /-- The backends, in order. -/
  backends : List BackendConfig

namespace Config

/-- The usual number of records that a rebuild hands over at a time. -/
def defaultChunkSize : Nat := 1000

/-- The name that stands for no name. -/
def defaultName : String := "default"

/-- The path that the default name leads to when it is not configured. -/
def defaultPath : String := "sift_search::database"

/-- The configuration without backends. -/
def default : Config := ⟨defaultChunkSize, []⟩

/-- The entry with a name. -/
def backend? (c : Config) (name : String) : Option BackendConfig :=
  c.backends.find? fun b => b.name == name

/-- The entry that a name leads to, the default one included. -/
def resolve? (c : Config) (name : String) : Option BackendConfig :=
  match c.backend? name with
  | some entry => some entry
  | none => if name = defaultName then some ⟨defaultName, defaultPath, true, ∅⟩ else none

/-! ## Validity -/

/-- The first fault of the entries; `seen` are the names before them. -/
def entryFault? (seen : List String) : List BackendConfig → Option ConfigFault
  | [] => none
  | b :: bs =>
    if Text.blank b.name then some .blankName
    else if Text.blank b.path then some (.blankPath b.name)
    else if seen.contains b.name then some (.repeatedName b.name)
    else entryFault? (b.name :: seen) bs

/-- The first fault of the configuration. -/
def fault? (c : Config) : Option ConfigFault :=
  if c.chunkSize = 0 then some .chunkSize else entryFault? [] c.backends

/-- Checks the configuration. -/
def validate (c : Config) : Result Unit :=
  match c.fault? with
  | some fault => .error (.config fault)
  | none => .ok ()

/-! ## Reading -/

/-- The values under any of some keys. -/
def valuesAt (keys : List String) (members : List (String × Toml)) : List Toml :=
  (members.filter fun m => keys.contains m.1).map Prod.snd

/-- Reads a text. -/
def readText? : Toml → Option String
  | .text s => some s
  | _ => none

/-- Reads a truth value. -/
def readBool? : Toml → Option Bool
  | .bool b => some b
  | _ => none

/-- Reads a number of records. -/
def readCount? : Toml → Option Nat
  | .int i => if 0 ≤ i.toInt then some i.toInt.toNat else none
  | _ => none

/-- Reads the options of a backend. -/
def readOptions? : Toml → Option Options
  | .table members =>
    some (SortedMap.ofList (members.map fun m => (m.1, m.2.toJson.canonical)))
  | _ => none

/-- Reads the only value, or takes the default if there is none; two are too many. -/
def readOne? {α : Type} (read : Toml → Option α) (default : Option α) : List Toml → Option α
  | [] => default
  | [v] => read v
  | _ => none

/-- Reads a backend off the values given for each of its parts. -/
def readParts? (names paths autoUpdates options : List Toml) : Option BackendConfig := do
  return {
    name := ← readOne? readText? none names
    path := ← readOne? readText? none paths
    autoUpdate := ← readOne? readBool? (some true) autoUpdates
    options := ← readOne? readOptions? (some ∅) options }

/-- Reads a backend: a table, or a list of its parts in order. -/
def readBackend? : Toml → Option BackendConfig
  | .table members =>
    readParts? (valuesAt ["name"] members) (valuesAt ["backend", "BACKEND"] members)
      (valuesAt ["auto_update", "AUTO_UPDATE"] members) (valuesAt ["options"] members)
  | .list parts =>
    readParts? (parts.take 1) ((parts.drop 1).take 1) ((parts.drop 2).take 1)
      ((parts.drop 3).take 1)
  | _ => none

/-- Reads the list of backends. -/
def readBackends? : Toml → Option (List BackendConfig)
  | .list items => items.mapM readBackend?
  | _ => none

/-- Reads a configuration off the table of a document. -/
def ofToml? (members : List (String × Toml)) : Option Config := do
  let sizes := valuesAt ["reindex_chunk_size"] members
  return {
    chunkSize := ← readOne? readCount? (some defaultChunkSize) sizes
    backends := ← readOne? readBackends? (some []) (valuesAt ["backends"] members) }

/-- Reads and checks a configuration; `fault` is reported of a text that holds none. -/
def read (fault : ConfigFault) (s : String) : Result Config :=
  match (Toml.read? s).bind ofToml? with
  | none => .error (.config fault)
  | some c => (fun _ => c) <$> c.validate

/-- Reads and checks a configuration from text. -/
def ofText (s : String) : Result Config := read .malformed s

/-! ## Writing -/

/-- A backend as TOML; options are left out when there are none. -/
def backendToToml? (b : BackendConfig) : Option Toml := do
  let options ← b.options.toList.mapM fun (k, j) => do return (k, ← j.toToml?)
  return .table ([("name", .text b.name), ("backend", .text b.path),
    ("auto_update", .bool b.autoUpdate)] ++
    if options.isEmpty then [] else [("options", .table options)])

/-- The configuration as the table of a document; backends are left out when there are none. -/
def toToml? (c : Config) : Option (List (String × Toml)) := do
  let chunkSize ← signed64? c.chunkSize
  let backends ← c.backends.mapM backendToToml?
  return [("reindex_chunk_size", .int chunkSize)] ++
    if backends.isEmpty then [] else [("backends", .list backends)]

/-- The text of the configuration; null and integers beyond 64 signed bits cannot be written. -/
def write (c : Config) : Result String :=
  match c.toToml? with
  | some members => .ok (Toml.write members)
  | none => .error (.config .unwritable)

/-- The text of a new configuration file. -/
def defaultText : String :=
"# Sift search configuration
#
# Records per batch when rebuilding indexes (default: 1000)
reindex_chunk_size = 1000

# Backends, looked up by name. \"default\" is used when no name is given.
# Without any [[backends]] entry, the database backend is used.
#
#   backend     = module path (\"sift_search::database\") or class path
#                 (\"sift_search::database::DatabaseSearchBackend\")
#   auto_update = propagate record saves and deletes (default: true)
[[backends]]
name = \"default\"
backend = \"sift_search::database\"
auto_update = true

# BM25 parameters of the database backend
# [backends.options]
# k1 = 1.2
# b = 0.75
"

end Config

/-! ## Configuration files -/

/-- A configuration file: what it holds, if it exists, and whether its directory does. -/
structure ConfigFile where
  path : String
  content : Option String
  hasDirectory : Bool

namespace ConfigFile

/-- Replaces what the file holds. -/
def put (f : ConfigFile) (s : String) : Result ConfigFile :=
  if f.hasDirectory then .ok { f with content := some s } else .error (.io missingFileReason)

/-- What the file holds. -/
def text (f : ConfigFile) : Result String :=
  match f.content with
  | some s => .ok s
  | none => .error (.io missingFileReason)

/-- Reads and checks the configuration in the file. -/
def read (f : ConfigFile) : Result Config :=
  match f.content with
  | none => .error (.config (.unreadableFile f.path missingFileReason))
  | some s => Config.read (.malformedFile f.path) s

/-- Writes a configuration, valid or not. -/
def write (f : ConfigFile) (c : Config) : Result ConfigFile := do f.put (← c.write)

/-- Writes the text of a new file, unless there is one already. -/
def writeDefault (f : ConfigFile) : Result ConfigFile :=
  if f.content.isSome then .ok f else f.put Config.defaultText

end ConfigFile

end Concordance
