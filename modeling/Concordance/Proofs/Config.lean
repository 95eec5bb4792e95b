import Concordance.Config
import Concordance.Proofs.Json.Printer

/-!
# What configurations say

The entries of a valid configuration have distinct names (`nodup_names`), so a name stands for one
path with options (`Asks`, `Asks.unique`). What a configuration has been read from holds options
that JSON text can say (`optionsWritable_of_ofText`).
-/

namespace Concordance

namespace Toml

mutual

/-- What TOML says, JSON text can say. -/
theorem writable_toJson : ∀ v : Toml, v.toJson.writable = true
  | .text _ | .int _ | .bool _ | .moment _ => rfl
  | .float x => by
    rw [toJson]
    split
    · assumption
    · rfl
  | .list items => writableItems_toJson items
  | .table members => writableMembers_toJson members

theorem writableItems_toJson : ∀ vs : List Toml, Json.writableItems (itemsToJson vs) = true
  | [] => rfl
  | v :: vs => by
    rw [itemsToJson, Json.writableItems, Bool.and_eq_true]
    exact ⟨writable_toJson v, writableItems_toJson vs⟩

theorem writableMembers_toJson : ∀ ms : List (String × Toml),
    Json.writableMembers (membersToJson ms) = true
  | [] => rfl
  | (k, v) :: ms => by
    rw [membersToJson, Json.writableMembers, Bool.and_eq_true]
    exact ⟨writable_toJson v, writableMembers_toJson ms⟩

end

end Toml

namespace Config

/-! ## Names -/

theorem entryFault?_eq_none {seen : List String} {entries : List BackendConfig}
    (h : entryFault? seen entries = none) :
    (entries.map BackendConfig.name).Nodup ∧ ∀ entry ∈ entries, entry.name ∉ seen := by
  induction entries generalizing seen with
  | nil => exact ⟨List.nodup_nil, fun _ h => (nomatch h)⟩
  | cons entry entries ih =>
    rw [entryFault?] at h
    split at h
    · nomatch h
    split at h
    · nomatch h
    split at h
    · nomatch h
    rename_i hseen
    obtain ⟨hdistinct, hnew⟩ := ih h
    refine ⟨List.nodup_cons.mpr ⟨fun hmem => ?_, hdistinct⟩,
      List.forall_mem_cons.mpr ⟨fun hmem => hseen (List.contains_iff_mem.mpr hmem),
        fun e he hmem => hnew e he (List.mem_cons_of_mem _ hmem)⟩⟩
    obtain ⟨other, hother, hname⟩ := List.mem_map.mp hmem
    exact hnew other hother (hname ▸ List.mem_cons_self)

/-- The entries of a valid configuration have distinct names. -/
theorem nodup_names {config : Config} (h : config.validate = .ok ()) :
    (config.backends.map BackendConfig.name).Nodup := by
  unfold validate fault? at h
  split at h
  · nomatch h
  · rename_i hfault
    split at hfault
    · nomatch hfault
    · exact (entryFault?_eq_none hfault).1

/-- What a name stands for, a path with options: an entry has the first word, then the default
name, and what is left is a path. -/
inductive Asks (config : Config) (name : String) : String → Options → Prop
  | entry {entry : BackendConfig} (hmem : entry ∈ config.backends) (hname : entry.name = name) :
    config.Asks name entry.path entry.options
  | default (hnew : ∀ entry ∈ config.backends, entry.name ≠ name) (hname : name = defaultName) :
    config.Asks name defaultPath ∅
  | path (hnew : ∀ entry ∈ config.backends, entry.name ≠ name) (hname : name ≠ defaultName) :
    config.Asks name name ∅

/-- The path and the options that the entry of a name gives, or the name itself. -/
theorem asks_resolve? (config : Config) (name : String) :
    match config.resolve? name with
    | some entry => config.Asks name entry.path entry.options
    | none => config.Asks name name ∅ := by
  have hnew : config.backend? name = none → ∀ entry ∈ config.backends, entry.name ≠ name :=
    fun hnone entry hmem => by simpa using List.find?_eq_none.mp hnone entry hmem
  unfold resolve?
  cases hfound : config.backend? name with
  | some entry =>
    have hname := List.find?_some hfound
    exact .entry (List.mem_of_find?_eq_some hfound) (eq_of_beq hname)
  | none =>
    dsimp only
    by_cases hdefault : name = defaultName
    · rw [if_pos hdefault]
      exact .default (hnew hfound) hdefault
    · rw [if_neg hdefault]
      exact .path (hnew hfound) hdefault

/-- Names of a valid configuration stand for one path with options. -/
theorem Asks.unique {config : Config} (hvalid : config.validate = .ok ()) {name path path' : String}
    {options options' : Options} (h : config.Asks name path options)
    (h' : config.Asks name path' options') : path = path' ∧ options = options' := by
  cases h with
  | entry hmem hname =>
    cases h' with
    | entry hmem' hname' =>
      have heq := List.inj_on_of_nodup_map (nodup_names hvalid) hmem hmem' (hname.trans hname'.symm)
      rw [heq]
      exact ⟨rfl, rfl⟩
    | default hnew _ => exact absurd hname (hnew _ hmem)
    | path hnew _ => exact absurd hname (hnew _ hmem)
  | default hnew hname =>
    cases h' with
    | entry hmem hname' => exact absurd hname' (hnew _ hmem)
    | default _ _ => exact ⟨rfl, rfl⟩
    | path _ hname' => exact absurd hname hname'
  | path hnew hname =>
    cases h' with
    | entry hmem hname' => exact absurd hname' (hnew _ hmem)
    | default _ hname' => exact absurd hname' hname
    | path _ _ => exact ⟨rfl, rfl⟩

/-- JSON text can say the options of every entry. -/
def OptionsWritable (config : Config) : Prop :=
  ∀ entry ∈ config.backends, (Json.object entry.options.toList).writable = true

theorem Asks.writable {config : Config} (hoptions : config.OptionsWritable) {name path : String}
    {options : Options} (h : config.Asks name path options) :
    (Json.object options.toList).writable = true := by
  cases h with
  | entry hmem _ => exact hoptions _ hmem
  | default _ _ => rfl
  | path _ _ => rfl

/-- The names under which all configured backends are asked for, in order; without any, the default
one. -/
def listing (config : Config) (autoUpdateOnly : Bool) : List (Option String) :=
  match config.backends, autoUpdateOnly with
  | [], _ => [none]
  | entries, false => entries.map fun entry => some entry.name
  | entries, true => (entries.filter BackendConfig.autoUpdate).map fun entry => some entry.name

/-! ## Options that are read -/

theorem writable_of_readOptions? {v : Toml} {options : Options}
    (h : readOptions? v = some options) :
    (Json.object options.toList).writable = true := by
  unfold readOptions? at h
  split at h
  · cases h
    refine Json.writableMembers_iff.mpr fun m hm => ?_
    obtain ⟨m', -, rfl⟩ := List.mem_map.mp (SortedMap.mem_of_mem_ofList hm)
    exact Json.writable_canonical _ m'.2.writable_toJson
  · nomatch h

theorem of_readOne? {α : Type} {read : Toml → Option α} {default : Option α} {values : List Toml}
    {a : α} (h : readOne? read default values = some a) :
    default = some a ∨ ∃ v, read v = some a := by
  unfold readOne? at h
  split at h
  · exact Or.inl h
  · exact Or.inr ⟨_, h⟩
  · nomatch h

theorem writable_of_readParts? {names paths autoUpdates options : List Toml}
    {entry : BackendConfig} (h : readParts? names paths autoUpdates options = some entry) :
    (Json.object entry.options.toList).writable = true := by
  unfold readParts? at h
  simp only [Option.bind_eq_bind, Option.bind_eq_some_iff, Option.pure_def,
    Option.some.injEq] at h
  obtain ⟨name, -, path, -, autoUpdate, -, options, hoptions, rfl⟩ := h
  obtain hdefault | ⟨v, hv⟩ := of_readOne? hoptions
  · cases hdefault
    rfl
  · exact writable_of_readOptions? hv

theorem writable_of_readBackend? {v : Toml} {entry : BackendConfig}
    (h : readBackend? v = some entry) : (Json.object entry.options.toList).writable = true := by
  unfold readBackend? at h
  split at h
  · exact writable_of_readParts? h
  · exact writable_of_readParts? h
  · nomatch h

/-- What a list of readings gives, one of them has given. -/
theorem exists_of_mem_mapM {α β : Type} {f : α → Option β} {xs : List α} {ys : List β}
    (h : xs.mapM f = some ys) {y : β} (hy : y ∈ ys) : ∃ x ∈ xs, f x = some y := by
  induction xs generalizing ys with
  | nil =>
    cases h
    nomatch hy
  | cons x xs ih =>
    rw [List.mapM_cons] at h
    simp only [Option.bind_eq_bind, Option.bind_eq_some_iff, Option.pure_def,
      Option.some.injEq] at h
    obtain ⟨z, hz, zs, hzs, rfl⟩ := h
    obtain rfl | hy := List.mem_cons.mp hy
    · exact ⟨x, List.mem_cons_self, hz⟩
    · obtain ⟨w, hw, hfw⟩ := ih hzs hy
      exact ⟨w, List.mem_cons_of_mem _ hw, hfw⟩

theorem optionsWritable_of_ofToml? {members : List (String × Toml)} {config : Config}
    (h : ofToml? members = some config) : config.OptionsWritable := by
  unfold ofToml? at h
  simp only [Option.bind_eq_bind, Option.bind_eq_some_iff, Option.pure_def,
    Option.some.injEq] at h
  obtain ⟨chunkSize, -, backends, hbackends, rfl⟩ := h
  intro entry hentry
  obtain hdefault | ⟨v, hv⟩ := of_readOne? hbackends
  · cases hdefault
    nomatch hentry
  · unfold readBackends? at hv
    split at hv
    · obtain ⟨item, -, hitem⟩ := exists_of_mem_mapM hv hentry
      exact writable_of_readBackend? hitem
    · nomatch hv

/-- **JSON text can say the options of a configuration that has been read.** -/
theorem optionsWritable_of_ofText {s : String} {config : Config} (h : ofText s = .ok config) :
    config.OptionsWritable := by
  unfold ofText read at h
  split at h
  · nomatch h
  · rename_i c hread
    obtain ⟨members, -, hmembers⟩ := Option.bind_eq_some_iff.mp hread
    cases hvalid : c.validate with
    | error e =>
      rw [hvalid] at h
      nomatch h
    | ok _ =>
      rw [hvalid] at h
      rw [← Except.ok.inj h]
      exact optionsWritable_of_ofToml? hmembers

end Config

end Concordance
