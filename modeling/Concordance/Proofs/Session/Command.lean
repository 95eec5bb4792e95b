import Concordance.Session

/-!
# Runs of a session

A `Command` is one thing that a program does with a session: it writes to the store, to a backend
or to one index of it, searches, reads a view in one of several ways (`Readout`), or clones one.
What a command does is put together from the operations of sessions; it gives an `Answer` or fails,
and in either case `Command.next` is the session after it.

`Session.play` runs commands one after the other. `Command.holders` follows a view through a run:
the names under which it or a clone of it is kept.
-/

namespace Concordance

/-! ## Reading views -/

/-- A way to read a list of hits. -/
inductive Readout where
  | count
  | record (position : Nat)
  | slice (start finish : Bound)
  | sliceHits (start finish : Bound)
  | hits
  | records
  | keys

/-- What a command gives. -/
inductive Answer where
  | done
  | count (n : Nat)
  | record (r? : Option Record)
  | records (rs : List Record)
  | hits (hs : List Hit)
  | keys (pks : List Key)
  | rebuilt (stats : RebuildStats)
  deriving DecidableEq

/-- What is read off a list of hits. -/
def Readout.answer (hs : List Hit) : Readout → Answer
  | count => .count (Hits.count hs)
  | record position => .record (Hits.at? position hs)
  | slice start finish => .records ((Hits.slice start finish hs).map Hit.record)
  | sliceHits start finish => .hits (Hits.slice start finish hs)
  | hits => .hits hs
  | records => .records (Hits.records hs)
  | keys => .keys (Hits.keys hs)

/-! ## Commands -/

/-- A write to the index of a family. -/
inductive IndexCommand where
  | addItem (r : Record)
  | addItems (rs : List Record)
  | deleteItem (r : Record)
  | refresh
  | reset

/-- A write to a backend. -/
inductive BackendCommand where
  | index (model : String) (c : IndexCommand)
  | add (r : Record)
  | addBulk (model : String) (rs : List Record)
  | delete (r : Record)
  | refreshAll
  | resetAll
  | rebuild (chunkSize : Nat)

/-- One step of a program that uses a session. -/
inductive Command where
  | insert (r : Record)
  | delete (model : String) (pk : Key)
  | backend (n : Instance) (c : BackendCommand)
  /-- Searches and keeps the view under a name. -/
  | search (name : String) (query : SearchQuery) (records : RecordSet) (options : SearchOptions)
  /-- Searches and reads all hits at once. -/
  | find (query : SearchQuery) (records : RecordSet) (options : SearchOptions)
  /-- Reads the view under a name. -/
  | read (name : String) (readout : Readout)
  /-- Keeps a clone of the view under a name. -/
  | clone (name other : String)

/-- Performs a write to the index of a family. -/
def IndexCommand.run (st : Store) : IndexCommand → Update FamilyIndex Unit
  | addItem r => FamilyIndex.change (FamilyIndex.addItem st r)
  | addItems rs => FamilyIndex.addItems st rs
  | deleteItem r => FamilyIndex.change (FamilyIndex.deleteItem st r)
  | refresh => Backend.publish
  | reset => modify FamilyIndex.reset

/-- Performs a write to a backend. -/
def BackendCommand.run (st : Store) : BackendCommand → Update Backend Answer
  | index model c => (fun _ => .done) <$> Backend.onFamily st model (c.run st)
  | add r => (fun _ => .done) <$> Backend.add st r
  | addBulk model rs => (fun _ => .done) <$> Backend.addBulk st model rs
  | delete r => (fun _ => .done) <$> Backend.delete st r
  | refreshAll => (fun _ => .done) <$> (modify Backend.refreshAll : Update Backend Unit)
  | resetAll => (fun _ => .done) <$> (modify Backend.resetAll : Update Backend Unit)
  | rebuild chunkSize => Answer.rebuilt <$> Backend.rebuild st chunkSize

namespace Command

/-- Performs a command. -/
def run : Command → Update Session Answer
  | insert r => (fun _ => .done) <$> Session.insert r
  | delete model pk => Answer.record <$> Session.delete model pk
  | backend n c => do Session.onBackend n (c.run (← get).store)
  | search name query records options => do
    Session.keep name (← Session.search query records options)
    return .done
  | find query records options => Answer.hits <$> Session.find query records options
  | read name readout => (fun hs => readout.answer hs) <$> Session.hits name
  | clone name other => do
    Session.keep other ((← get).view name).fresh
    return .done

/-- The answer of a command, or its error. -/
def answer (c : Command) (s : Session) : Result Answer := (c.run.perform s).1

/-- The session after a command, also if it fails. -/
def next (c : Command) (s : Session) : Session := (c.run.perform s).2

/-- Whether a command writes to the store or a backend. -/
def isWrite : Command → Bool
  | insert _ | delete _ _ | backend _ _ => true
  | search _ _ _ _ | find _ _ _ | read _ _ | clone _ _ => false

/-- Whether a command reads or clones a view that is kept. -/
def usesView : Command → Bool
  | read _ _ | clone _ _ => true
  | insert _ | delete _ _ | backend _ _ | search _ _ _ _ | find _ _ _ => false

/-- The names that a view and its clones are kept under after a command, from those before it. -/
def holders (names : List String) : Command → List String
  | search name _ _ _ => names.filter fun n => n != name
  | clone name other =>
    if names.contains name then other :: names else names.filter fun n => n != other
  | insert _ | delete _ _ | backend _ _ | find _ _ _ | read _ _ => names

end Command

namespace Session

/-- The session after commands. -/
def play (s : Session) (cs : List Command) : Session := cs.foldl (fun s c => c.next s) s

/-- What a compiled search on a backend gives when it is evaluated now; without a search nothing
is found. -/
def evaluate (s : Session) (n : Instance) : Option CompiledSearch → Result (List Hit)
  | none => .ok []
  | some c => do
    let root ← s.store.schema.rootOf c.model
    c.hits s.store ((s.backend n).index root).index (s.backend n).scorer

/-- The number of writes to the store and to the index of a family of a backend. -/
def writes (s : Session) (n : Instance) (root : String) : Nat :=
  ((s.backend n).index root).index.version + s.store.version

end Session

end Concordance
