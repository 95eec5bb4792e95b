import Concordance.Proofs.Registry.Instances
import Concordance.Proofs.Session.Operation

/-!
# What operations do to a session

An operation does one thing after another, and each of them is a `Move`: to the store, to a backend,
to the views, to a registry, or to what is in use. Of the store and the backends a move says only
which of them it is about; of the registries it says everything. So what every move keeps holds of
all sessions that operations reach, and registries can be followed without a look at what is indexed.

* **`moves_next`**: an operation makes moves, also one that fails.
* **`kept_of_operate`**: what every move keeps, all operations keep.
-/

namespace Concordance.Session

variable {s t : Session}

/-- The session after a call of a registry. -/
def called (s : Session) (i : Nat) (c : RegistryCall) : Session :=
  let q := Registry.call s.classes (s.registryAt i, s.backends) c
  { s with registries := s.registries.set i q.1, backends := q.2 }

/-- One thing that is done to a session. -/
inductive Move (s : Session) : Session → Prop
  | store (st : Store) : Move s { s with store := st }
  | backend (n : Instance) (b : Backend) : Move s { s with backends := s.backends.set n b }
  | views (views : SortedMap String (View BackendSearch)) : Move s { s with views := views }
  /-- A registry is asked for backends, or its cache is cleared. -/
  | call (i : Nat) (c : RegistryCall) : Move s (s.called i c)
  /-- A new registry comes into use. -/
  | configure (config : Config) (h : config.validate = .ok ()) :
    Move s { s with
      registries := s.registries ++ [⟨config, []⟩], registry := s.registries.length }
  | install : Move s { s with installed := some s.registry }
  | use (n : Instance) : Move s { s with current := n }

/-- Several moves, one after the other. -/
def Moves : Session → Session → Prop := Relation.ReflTransGen Move

instance : Std.Refl Moves := ⟨fun _ => .refl⟩

instance : IsTrans Session Moves := ⟨fun _ _ _ => Relation.ReflTransGen.trans⟩

theorem Move.moves (h : Move s t) : Moves s t := .single h

/-! ## The parts of operations -/

theorem moves_onBackend {α : Type} (n : Instance) (x : Update Backend α) :
    Update.Regular Moves Eq (onBackend n x) :=
  Update.regular_of_moves fun _ => (Move.backend n _).moves

theorem moves_getFrom (i : Nat) (requested : Option String) :
    Update.Regular Moves Eq (getFrom i requested) :=
  Update.regular_of_moves fun _ => (Move.call i (.get requested)).moves

theorem moves_allFrom (i : Nat) (autoUpdateOnly : Bool) :
    Update.Regular Moves Eq (allFrom i autoUpdateOnly) :=
  Update.regular_of_moves fun _ => (Move.call i (.all autoUpdateOnly)).moves

theorem moves_configure (config : Config) : Update.Regular Moves Eq (configure config) := by
  refine Update.regular_of_moves fun s => ?_
  rw [perform_configure]
  cases hvalid : config.validate with
  | error => exact .refl
  | ok => exact (Move.configure config hvalid).moves

theorem moves_use (requested : Option String) : Update.Regular Moves Eq (use requested) := by
  refine Update.regular_of_moves fun s => ?_
  have hget := (moves_getFrom s.registry requested).moves s
  rw [perform_use]
  generalize (getFrom s.registry requested).perform s = out at hget ⊢
  rcases out with ⟨_ | n, t⟩
  · exact hget
  · exact hget.tail (.use n)

theorem moves_passTo (write : Store → Record → Update Backend Unit) (r : Record) (n : Instance) :
    Update.Regular Moves Eq (passTo write r n) := by
  refine Update.regular_bind Update.regular_get fun s => ?_
  split
  · exact moves_onBackend n _
  · exact Update.regular_pure ()

theorem moves_passOn (write : Store → Record → Update Backend Unit) (r : Record) :
    Update.Regular Moves Eq (passOn write r) :=
  Update.regular_bind Update.regular_get fun s =>
    Update.regular_bind (moves_allFrom s.registry true) fun instances =>
      Update.regular_forM (moves_passTo write r) instances

theorem moves_rebuildAll (name : Option String) : Update.Regular Moves Eq (rebuildAll name) :=
  Update.regular_bind Update.regular_get fun s =>
    Update.regular_mapM (fun requested => Update.regular_bind (moves_getFrom s.registry requested)
      fun n => moves_onBackend n _) _

theorem moves_insert (r : Record) : Update.Regular Moves Eq (insert r) := by
  refine Update.regular_of_moves fun s => ?_
  rw [perform_insert]
  cases s.store.insert r with
  | error => exact .refl
  | ok st => exact (Move.store st).moves

/-! ## Operations -/

theorem moves_registryCommand (c : RegistryCommand) : Update.Regular Moves Eq c.run := by
  cases c with
  | configure config => exact moves_configure config
  | install config =>
    exact Update.regular_bind (moves_configure config) fun _ =>
      Update.regular_of_moves fun _ => Move.install.moves
  | get i requested => exact Update.regular_map _ (moves_getFrom i requested)
  | all i autoUpdateOnly => exact Update.regular_map _ (moves_allFrom i autoUpdateOnly)
  | clear i => exact Update.regular_of_moves fun _ => (Move.call i .clear).moves
  | use requested => exact Update.regular_map _ (moves_use requested)
  | saved r => exact moves_passOn Backend.add r
  | deleted r => exact moves_passOn Backend.delete r
  | rebuildAll name => exact Update.regular_map _ (moves_rebuildAll name)

theorem moves_command (c : Command) (s : Session) : Moves s (c.next s) := by
  cases c with
  | insert r =>
    rw [next_insert]
    exact (Move.store _).moves
  | delete model pk =>
    rw [next_delete]
    exact (Move.store _).moves
  | backend n c => exact (Move.backend n _).moves
  | search name query records options =>
    rw [next_search]
    rcases s.sought query records options with _ | _ | b
    · exact .refl
    · exact (Move.views _).moves
    · exact (Move.backend s.current _).moves.tail (.views _)
  | find query records options =>
    rw [next_find]
    rcases s.sought query records options with _ | _ | b
    · exact .refl
    · exact .refl
    · exact (Move.backend s.current _).moves
  | read name readout =>
    rw [next_read]
    exact (Move.views _).moves
  | clone name other => exact (Move.views _).moves

/-- **An operation makes moves.** -/
theorem moves_next (op : Operation) (s : Session) : Moves s (op.next s) := by
  cases op with
  | command c =>
    rw [next_command]
    exact moves_command c s
  | indexFor n model | addModel n model =>
    exact (Update.regular_bind Update.regular_get fun _ => moves_onBackend n _).moves s
  | ask question => exact .refl
  | save r =>
    exact (Update.regular_bind (moves_insert r) fun _ =>
      Update.regular_bind Update.regular_get fun s => moves_onBackend s.current _).moves s
  | registry c => exact (moves_registryCommand c).moves s

/-- **What every move keeps** holds after any operations. -/
theorem kept_of_operate {P : Session → Prop} (hmove : ∀ s t, Move s t → P s → P t) (h : P s)
    (ops : List Operation) : P (s.operate ops) := by
  induction ops generalizing s with
  | nil => exact h
  | cons op ops ih =>
    refine ih ?_
    show P (op.next s)
    have hmoves := moves_next op s
    generalize op.next s = t at hmoves ⊢
    induction hmoves with
    | refl => exact h
    | tail _ hlast hkept => exact hmove _ _ hlast hkept

end Concordance.Session
