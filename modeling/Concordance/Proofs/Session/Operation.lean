import Concordance.Proofs.Backend.Refusal
import Concordance.Proofs.Registry
import Concordance.Proofs.Session.Upkeep
import Concordance.Proofs.Session.Freshness

/-!
# Operations and reachable sessions

An `Operation` is anything that is done with a session: a command, the request for an index, a
question that only reads, the saving of a record, or an operation of a registry. Operations can fail
and leave what they did before (`Operation.verdict`, `Operation.next`).

In every session that operations reach, indexes stand under their roots, stored records under
theirs, and every number of a backend that is held anywhere is the number of one (`Sound`,
`Sound.operate`). Of the classes that backends are constructed from it is assumed only that what
they construct is in order.
-/

namespace Concordance

/-! ## Operations -/

/-- An operation of a registry. -/
inductive RegistryCommand where
  | configure (config : Config)
  | install (config : Config)
  | get (registry : Nat) (requested : Option String)
  | all (registry : Nat) (autoUpdateOnly : Bool)
  | clear (registry : Nat)
  | use (requested : Option String)
  | saved (r : Record)
  | deleted (r : Record)
  | rebuildAll (name : Option String)

/-- Something that is done with a session. -/
inductive Operation where
  | command (c : Command)
  /-- Asks for the index of a model; it is created, if the family of the model has one. -/
  | indexFor (n : Instance) (model : String)
  /-- Asks for the index of a model, whose family must have one. -/
  | addModel (n : Instance) (model : String)
  /-- Reads the store, its schema or anything else and changes nothing. -/
  | ask (question : Session → Result Unit)
  /-- Inserts a record into the store and indexes it. -/
  | save (r : Record)
  | registry (c : RegistryCommand)

/-- Performs an operation of a registry; what it answers is left out. -/
def RegistryCommand.run : RegistryCommand → Update Session Unit
  | configure config => Session.configure config
  | install config => Session.install config
  | get registry requested => (fun _ => ()) <$> Session.getFrom registry requested
  | all registry autoUpdateOnly => (fun _ => ()) <$> Session.allFrom registry autoUpdateOnly
  | clear registry => Session.clearCache registry
  | use requested => (fun _ => ()) <$> Session.use requested
  | saved r => Session.saved r
  | deleted r => Session.deleted r
  | rebuildAll name => (fun _ => ()) <$> Session.rebuildAll name

namespace Operation

/-- Performs an operation; what it answers is left out. -/
def run : Operation → Update Session Unit
  | command c => (fun _ => ()) <$> c.run
  | indexFor n model => do
    let s ← get
    Session.onBackend n ((fun _ => ()) <$> Backend.onFamily s.store model Backend.info)
  | addModel n model => do
    let s ← get
    Session.onBackend n do
      let root ← Update.ofResult (Backend.addModel s.store model)
      modify (Backend.openIndex root)
  | ask question => do
    let s ← get
    Update.ofResult (question s)
  | save r => Session.save r
  | registry c => c.run

/-- Whether an operation succeeds, or its error. -/
def verdict (op : Operation) (s : Session) : Result Unit := (op.run.perform s).1

/-- The session after an operation, also if it fails. -/
def next (op : Operation) (s : Session) : Session := (op.run.perform s).2

/-- The records that an operation hands over together: the backend, the model whose index they are
for, and the records. -/
def batch? : Operation → Option (Instance × String × List Record)
  | command (.backend n c) => c.batch?.map fun (model, rs) => (n, model, rs)
  | command _ | indexFor _ _ | addModel _ _ | ask _ | save _ | registry _ => none

/-- Whether an operation rebuilds all backends that a registry configures. -/
def rebuilds : Operation → Bool
  | registry (.rebuildAll none) => true
  | command _ | indexFor _ _ | addModel _ _ | ask _ | save _ | registry _ => false

end Operation

namespace Session

/-- The session after operations. -/
def operate (s : Session) (ops : List Operation) : Session :=
  ops.foldl (fun s op => op.next s) s

variable {models : List Model} {s t : Session}

theorem verdict_command (c : Command) (s : Session) :
    (Operation.command c).verdict s = (c.answer s).map fun _ => () := by
  unfold Operation.verdict Operation.run
  rw [Update.perform_map]
  rfl

theorem next_command (c : Command) (s : Session) : (Operation.command c).next s = c.next s := by
  unfold Operation.next Operation.run
  rw [Update.perform_map]
  rfl

/-! ## Sound sessions -/

/-- The store is one over the declared models that writes have made, indexes stand under their
roots, registries are valid, and what is held as the number of a backend is one. -/
structure Sound (models : List Model) (s : Session) : Prop where
  built : Schema.Built models s.store.schema
  filed : s.store.Filed
  labelled : ∀ b ∈ s.backends, b.Labelled
  classes : BackendClass.ConstructOnly s.classes Backend.Labelled
  sizes : ∀ r ∈ s.registries, 0 < r.config.chunkSize
  pooled : ∀ r ∈ s.registries, Registry.Pooled (r, s.backends)
  registry : s.registry < s.registries.length
  current : s.current < s.backends.length
  viewed : ∀ name b, (s.view name).origin = some b → b.backend < s.backends.length

/-- What holds of every member of a list and of a default holds of what is read off the list. -/
theorem getD_of_forall {α : Type} {P : α → Prop} {xs : List α} {d : α} (h : ∀ x ∈ xs, P x)
    (hd : P d) (n : Nat) : P (xs.getD n d) := by
  by_cases hn : n < xs.length
  · rw [List.getD_eq_getElem _ _ hn]
    exact h _ (List.getElem_mem hn)
  · rw [List.getD_eq_default _ _ (Nat.le_of_not_lt hn)]
    exact hd

theorem Sound.labelled_backend (h : Sound models s) (n : Instance) : (s.backend n).Labelled :=
  getD_of_forall h.labelled (Backend.labelled_ofScorer _) n

theorem Sound.size_at (h : Sound models s) (i : Nat) : 0 < (s.registryAt i).config.chunkSize :=
  getD_of_forall h.sizes (Nat.succ_pos _) i

theorem Sound.pooled_at (h : Sound models s) (i : Nat) :
    Registry.Pooled (s.registryAt i, s.backends) :=
  getD_of_forall h.pooled (show Registry.Pooled (⟨Config.default, []⟩, s.backends) from
    fun _ _ hn => nomatch hn) i

theorem sound_ofStore {schema : Schema} (hs : Schema.ofModels models = .ok schema)
    {classes : List BackendClass} (hclasses : BackendClass.ConstructOnly classes Backend.Labelled)
    {b : Backend} (hb : b.Labelled) : Sound models (ofStore (Store.empty schema) classes b) where
  built := Schema.built_of_ofModels hs
  filed := Store.filed_after_empty schema []
  labelled c hc := by
    rw [List.mem_singleton.mp hc]
    exact hb
  classes := hclasses
  sizes r hr := by
    rw [List.mem_singleton.mp hr]
    exact Nat.succ_pos _
  pooled r hr := by
    rw [List.mem_singleton.mp hr]
    exact fun _ _ hn => nomatch hn
  registry := Nat.one_pos
  current := Nat.one_pos
  viewed _ _ hb := nomatch hb

/-! ## What operations keep -/

/-- A sound session stays sound. -/
def Keeps (models : List Model) (s t : Session) : Prop := Sound models s → Sound models t

instance : Std.Refl (Keeps models) := ⟨fun _ => id⟩

instance : IsTrans Session (Keeps models) := ⟨fun _ _ _ hst htu hs => htu (hst hs)⟩

/-- A change of one backend. -/
theorem Sound.set_backend (h : Sound models s) (n : Instance) {b : Backend} (hb : b.Labelled) :
    Sound models { s with backends := s.backends.set n b } where
  built := h.built
  filed := h.filed
  labelled c hc := (List.mem_or_eq_of_mem_set hc).elim (h.labelled c) fun heq => heq ▸ hb
  classes := h.classes
  sizes := h.sizes
  pooled r hr key m hm := (h.pooled r hr key m hm).trans_eq (List.length_set ..).symm
  registry := h.registry
  current := h.current.trans_eq (List.length_set ..).symm
  viewed name b hb := (h.viewed name b hb).trans_eq (List.length_set ..).symm

theorem keeps_onBackend {α : Type} {x : Update Backend α}
    (hx : Update.Regular Backend.KeepsLabels Eq x) (n : Instance) :
    Update.Regular (Keeps models) Eq (onBackend n x) :=
  Update.regular_of_moves fun s h =>
    h.set_backend n (hx.moves (s.backend n) (h.labelled_backend n))

/-- An index is created. -/
theorem Sound.opened (h : Sound models s) (root : String) : Sound models (s.opened root) :=
  h.set_backend s.current (Backend.labelled_setIndex (h.labelled_backend s.current)
    (h.labelled_backend s.current root))

/-- A change of one view. -/
theorem Sound.set_view (h : Sound models s) (name : String) {v : View BackendSearch}
    (hv : ∀ b, v.origin = some b → b.backend < s.backends.length) :
    Sound models { s with views := s.views.insert name v } where
  built := h.built
  filed := h.filed
  labelled := h.labelled
  classes := h.classes
  sizes := h.sizes
  pooled := h.pooled
  registry := h.registry
  current := h.current
  viewed other b hb := by
    rw [view_insert] at hb
    split at hb
    · exact hv b hb
    · exact h.viewed other b hb

/-- A write to the store. -/
theorem Sound.set_store (h : Sound models s) (w : StoreWrite) :
    Sound models { s with store := w.apply s.store } where
  built := by
    show Schema.Built models (w.apply s.store).schema
    rw [Store.schema_apply]
    exact h.built
  filed := Store.filed_apply h.filed w
  labelled := h.labelled
  classes := h.classes
  sizes := h.sizes
  pooled := h.pooled
  registry := h.registry
  current := h.current
  viewed := h.viewed

/-- Instances are constructed for a registry. -/
theorem Sound.supply (h : Sound models s) (i : Nat) {q : Registry × Pool}
    (hq : Registry.Supplied Backend.Labelled (s.registryAt i, s.backends) q) :
    Sound models { s with registries := s.registries.set i q.1, backends := q.2 } := by
  obtain ⟨new, hpool, hnew⟩ := hq.pool
  have hle : s.backends.length ≤ q.2.length := by
    rw [hpool, List.length_append]
    exact Nat.le_add_right _ _
  constructor
  · exact h.built
  · exact h.filed
  · intro b hb
    replace hb : b ∈ q.2 := hb
    rw [hpool] at hb
    exact (List.mem_append.mp hb).elim (h.labelled b) (hnew b)
  · exact h.classes
  · intro r hr
    rcases List.mem_or_eq_of_mem_set hr with hr | rfl
    · exact h.sizes r hr
    · rw [hq.config]
      exact h.size_at i
  · intro r hr
    rcases List.mem_or_eq_of_mem_set hr with hr | rfl
    · exact fun key m hm => (h.pooled r hr key m hm).trans_le hle
    · exact hq.pooled (h.pooled_at i)
  · exact h.registry.trans_eq (List.length_set ..).symm
  · exact h.current.trans_le hle
  · exact fun name b hb => (h.viewed name b hb).trans_le hle

/-! ### Commands -/

/-- A search is on the current backend. -/
theorem backend_of_sought {query : SearchQuery} {records : RecordSet} {options : SearchOptions}
    {b : BackendSearch} (h : s.sought query records options = .ok (some b)) :
    b.backend = s.current := by
  obtain ⟨_, -, ⟨-, hnone⟩ | ⟨_, _, -, -, -, hsome⟩⟩ := compiled_of_sought h
  · nomatch hnone
  · cases hsome
    rfl

theorem Sound.next_command (h : Sound models s) (c : Command) : Sound models (c.next s) := by
  cases c with
  | insert r =>
    rw [next_insert]
    exact h.set_store _
  | delete model pk =>
    rw [next_delete]
    exact h.set_store _
  | backend n c =>
    rw [next_backend]
    exact h.set_backend n (Backend.labelled_run (h.labelled_backend n) s.store c)
  | search name query records options =>
    rw [next_search]
    rcases hsought : s.sought query records options with _ | _ | b
    · exact h
    · exact h.set_view name fun _ hb => nomatch hb
    · refine (h.opened b.root).set_view name fun b' hb' => ?_
      cases hb'
      rw [backend_of_sought hsought]
      exact (h.opened b.root).current
  | find query records options =>
    rw [next_find]
    rcases s.sought query records options with _ | _ | b
    · exact h
    · exact h
    · exact h.opened b.root
  | read name readout =>
    rw [next_read]
    refine h.set_view name fun b hb => h.viewed name b ?_
    rw [← hb, View.origin_consume]
  | clone name other =>
    rw [next_clone]
    refine h.set_view other fun b hb => h.viewed name b ?_
    rw [← hb, View.origin_fresh]

theorem keeps_insert (r : Record) : Update.Regular (Keeps models) Eq (insert r) := by
  refine Update.regular_of_moves fun s h => ?_
  have hinsert := h.set_store (.insert r)
  rw [perform_insert]
  rw [StoreWrite.apply] at hinsert
  cases hstored : s.store.insert r with
  | ok st =>
    rw [hstored] at hinsert
    exact hinsert
  | error e => exact h

theorem keeps_save (r : Record) : Update.Regular (Keeps models) Eq (save r) :=
  Update.regular_bind (keeps_insert r) fun _ => Update.regular_bind Update.regular_get fun s =>
    keeps_onBackend (Backend.keepsLabels_add s.store r) s.current

/-! ### Registries -/

theorem keeps_onRegistry {α : Type} {i : Nat} {x : List BackendClass → Update (Registry × Pool) α}
    (hx : ∀ classes, BackendClass.ConstructOnly classes Backend.Labelled → ∀ p,
      Registry.Supplied Backend.Labelled p ((x classes).perform p).2) :
    Update.Regular (Keeps models) Eq (do onRegistry i (x (← get).classes)) :=
  Update.regular_of_moves fun s h =>
    h.supply i (hx s.classes h.classes (s.registryAt i, s.backends))

theorem keeps_getFrom (i : Nat) (requested : Option String) :
    Update.Regular (Keeps models) Eq (getFrom i requested) :=
  keeps_onRegistry fun _ hclasses => Registry.supplied_get hclasses requested

theorem keeps_allFrom (i : Nat) (autoUpdateOnly : Bool) :
    Update.Regular (Keeps models) Eq (allFrom i autoUpdateOnly) :=
  keeps_onRegistry fun _ hclasses => Registry.supplied_all hclasses autoUpdateOnly

theorem perform_getFrom (i : Nat) (requested : Option String) (s : Session) :
    (getFrom i requested).perform s =
      let out := (Registry.get s.classes requested).perform (s.registryAt i, s.backends)
      (out.1, { s with registries := s.registries.set i out.2.1, backends := out.2.2 }) := rfl

/-- An instance that a registry gives is one. -/
theorem lt_of_getFrom (h : Sound models s) {i : Nat} {requested : Option String} {n : Instance}
    (hget : ((getFrom i requested).perform s).1 = .ok n) :
    n < ((getFrom i requested).perform s).2.backends.length := by
  rw [perform_getFrom] at hget ⊢
  exact Registry.lt_of_get h.classes (h.pooled_at i) hget

/-- A registry is made of a valid configuration. -/
theorem Sound.configured (h : Sound models s) {config : Config} (hc : config.validate = .ok ()) :
    Sound models { s with
      registries := s.registries ++ [⟨config, []⟩], registry := s.registries.length } where
  built := h.built
  filed := h.filed
  labelled := h.labelled
  classes := h.classes
  sizes r hr := by
    rcases List.mem_append.mp hr with hr | hr
    · exact h.sizes r hr
    · rw [List.mem_singleton.mp hr]
      exact Config.chunkSize_pos hc
  pooled r hr := by
    rcases List.mem_append.mp hr with hr | hr
    · exact h.pooled r hr
    · rw [List.mem_singleton.mp hr]
      exact fun _ _ hn => nomatch hn
  registry := by
    rw [List.length_append]
    exact Nat.lt_succ_self _
  current := h.current
  viewed := h.viewed

theorem perform_configure (config : Config) (s : Session) :
    (configure config).perform s = match config.validate with
      | .error e => (.error e, s)
      | .ok () => (.ok (), { s with
          registries := s.registries ++ [⟨config, []⟩], registry := s.registries.length }) := by
  unfold configure Registry.ofConfig
  rw [Update.perform_ofResult_bind]
  cases config.validate <;> rfl

theorem keeps_configure (config : Config) :
    Update.Regular (Keeps models) Eq (configure config) := by
  refine Update.regular_of_moves fun s h => ?_
  rw [perform_configure]
  cases hc : config.validate with
  | error => exact h
  | ok => exact h.configured hc

theorem keeps_install (config : Config) : Update.Regular (Keeps models) Eq (install config) := by
  refine Update.regular_bind (keeps_configure config) fun _ => ?_
  refine Update.regular_of_moves fun s h => ?_
  exact ⟨h.built, h.filed, h.labelled, h.classes, h.sizes, h.pooled, h.registry, h.current,
    h.viewed⟩

theorem keeps_clearCache (i : Nat) : Update.Regular (Keeps models) Eq (clearCache i) := by
  refine Update.regular_of_moves fun s h => ?_
  refine ⟨h.built, h.filed, h.labelled, h.classes, fun r hr => ?_, fun r hr => ?_, ?_, h.current,
    h.viewed⟩
  · rcases List.mem_or_eq_of_mem_set hr with hr | rfl
    · exact h.sizes r hr
    · exact h.size_at i
  · rcases List.mem_or_eq_of_mem_set hr with hr | rfl
    · exact h.pooled r hr
    · exact fun _ _ hn => nomatch hn
  · exact h.registry.trans_eq (List.length_set ..).symm

theorem perform_use (requested : Option String) (s : Session) :
    (use requested).perform s = match (getFrom s.registry requested).perform s with
      | (.error e, t) => (.error e, t)
      | (.ok n, t) => (.ok n, { t with current := n }) := by
  have huse : (use requested).perform s = Update.perform (do
      let n ← getFrom s.registry requested
      modify fun t => { t with current := n }
      return n) s := rfl
  rw [huse, Update.perform_bind]
  rcases (getFrom s.registry requested).perform s with ⟨_ | _, _⟩ <;> rfl

theorem keeps_use (requested : Option String) :
    Update.Regular (Keeps models) Eq (use requested) := by
  refine Update.regular_of_moves fun s h => ?_
  have hkept := (keeps_getFrom s.registry requested).moves s h
  rw [perform_use]
  rcases hget : (getFrom s.registry requested).perform s with ⟨_ | n, t⟩
  · rw [hget] at hkept
    exact hkept
  · have hn := lt_of_getFrom h (congrArg Prod.fst hget)
    rw [hget] at hkept hn
    exact ⟨hkept.built, hkept.filed, hkept.labelled, hkept.classes, hkept.sizes, hkept.pooled,
      hkept.registry, hn, hkept.viewed⟩

/-- Passes a record on to one backend. -/
def passTo (write : Store → Record → Update Backend Unit) (r : Record) (n : Instance) :
    Update Session Unit := do
  let s ← get
  if s.store.schema.contains r.model then onBackend n (write s.store r)

theorem keeps_passTo {write : Store → Record → Update Backend Unit} {r : Record}
    (hwrite : ∀ st, Update.Regular Backend.KeepsLabels Eq (write st r)) (n : Instance) :
    Update.Regular (Keeps models) Eq (passTo write r n) := by
  refine Update.regular_bind Update.regular_get fun s => ?_
  split
  · exact keeps_onBackend (hwrite s.store) n
  · exact Update.regular_pure ()

theorem perform_passOn (write : Store → Record → Update Backend Unit) (r : Record) (s : Session) :
    (passOn write r).perform s = Update.perform
      (allFrom s.registry true >>= fun instances => instances.forM (passTo write r)) s := rfl

theorem keeps_passOn {write : Store → Record → Update Backend Unit} {r : Record}
    (hwrite : ∀ st, Update.Regular Backend.KeepsLabels Eq (write st r)) :
    Update.Regular (Keeps models) Eq (passOn write r) :=
  Update.regular_bind Update.regular_get fun s =>
    Update.regular_bind (keeps_allFrom s.registry true) fun instances =>
      Update.regular_forM (keeps_passTo hwrite) instances

/-- Rebuilds the backend that a registry gives for a name. -/
def rebuildOne (i : Nat) (st : Store) (chunkSize : Nat) (requested : Option String) :
    Update Session RebuildStats := do
  let n ← getFrom i requested
  onBackend n (Backend.rebuild st chunkSize)

theorem keeps_rebuildOne (i : Nat) (st : Store) (chunkSize : Nat) (requested : Option String) :
    Update.Regular (Keeps models) Eq (rebuildOne i st chunkSize requested) :=
  Update.regular_bind (keeps_getFrom i requested) fun n =>
    keeps_onBackend (Backend.keepsLabels_rebuild st chunkSize) n

theorem perform_rebuildAll (name : Option String) (s : Session) :
    (rebuildAll name).perform s =
      ((Registry.rebuildNames (s.registryAt s.registry).config name).mapM
        (rebuildOne s.registry s.store (s.registryAt s.registry).config.chunkSize)).perform s := by
  unfold rebuildAll
  rw [Update.perform_get_bind]
  rfl

theorem keeps_rebuildAll (name : Option String) :
    Update.Regular (Keeps models) Eq (rebuildAll name) :=
  Update.regular_bind Update.regular_get fun s =>
    Update.regular_mapM (keeps_rebuildOne s.registry s.store _) _

theorem keeps_registryCommand (c : RegistryCommand) :
    Update.Regular (Keeps models) Eq c.run := by
  cases c with
  | configure config => exact keeps_configure config
  | install config => exact keeps_install config
  | get i requested => exact Update.regular_map _ (keeps_getFrom i requested)
  | all i autoUpdateOnly => exact Update.regular_map _ (keeps_allFrom i autoUpdateOnly)
  | clear i => exact keeps_clearCache i
  | use requested => exact Update.regular_map _ (keeps_use requested)
  | saved r => exact keeps_passOn fun st => Backend.keepsLabels_add st r
  | deleted r => exact keeps_passOn fun st => Backend.keepsLabels_delete st r
  | rebuildAll name => exact Update.regular_map _ (keeps_rebuildAll name)

/-! ### Runs -/

theorem Sound.next (h : Sound models s) (op : Operation) : Sound models (op.next s) := by
  cases op with
  | command c =>
    rw [Session.next_command]
    exact h.next_command c
  | indexFor n model =>
    have hinfo : Update.Regular FamilyIndex.SameRoot Eq Backend.info :=
      Update.regular_of_moves fun _ => rfl
    exact (keeps_onBackend (Update.regular_map _
      (Backend.keepsLabels_onFamily hinfo s.store model)) n).moves s h
  | addModel n model =>
    refine (keeps_onBackend ?_ n).moves s h
    refine Update.regular_bind (Update.regular_ofResult _) fun root => ?_
    exact Update.regular_of_moves fun b hb => Backend.labelled_setIndex hb (hb root)
  | ask question => exact h
  | save r => exact (keeps_save r).moves s h
  | registry c => exact (keeps_registryCommand c).moves s h

/-- **Every session that operations reach is sound.** -/
theorem Sound.operate (h : Sound models s) (ops : List Operation) :
    Sound models (s.operate ops) := by
  induction ops generalizing s with
  | nil => exact h
  | cons op ops ih => exact ih (h.next op)

end Session

end Concordance
