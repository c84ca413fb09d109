import FormRules.Config.Load
import FormRules.Proofs.Compilation
import FormRules.Proofs.Config.Layers

/-!
# The settings of a configuration

A configuration is read setting by setting from a tree with tables in the places of its sections:
each setting is the converted value of what stands at its path, or the standard value if nothing
stands there, and the tree is refused exactly if one of them does not convert.
-/

namespace FormRules.Config

/-! ## Settings of a record -/

/-- A setting as a record has it. -/
structure Item (Record : Type) where
  {Data : Type}
  /-- Where the setting stands. -/
  path : Path
  /-- What it is if nothing stands there. -/
  standard : Data
  convert? : Setting → Option Data
  /-- Which part of the record it is. -/
  value : Record → Data

namespace Item

variable {Record : Type}

/-- The setting as one of a larger record. -/
def within {Whole : Type} (part : Whole → Record) (item : Item Record) : Item Whole :=
  { item with value := fun whole => item.value (part whole) }

/-- The record has the converted value of what is defined, or the standard value if nothing is. -/
def Takes (item : Item Record) (defined : Option Setting) (record : Record) : Prop :=
  match defined with
  | none => item.value record = item.standard
  | some setting => item.convert? setting = some (item.value record)

/-- What is defined does not convert. -/
def Refuses (item : Item Record) (defined : Option Setting) : Prop :=
  ∃ setting, defined = some setting ∧ item.convert? setting = none

/-- Reads the setting from a tree. -/
def readFrom (item : Item Record) (root : Setting) : Except ConfigError item.Data :=
  read root item.path item.standard item.convert?

theorem readFrom_eq_ok_iff {item : Item Record} {root : Setting} {record : Record} :
    item.readFrom root = .ok (item.value record) ↔ item.Takes (root.find? item.path) record := by
  unfold readFrom read Takes
  cases root.find? item.path with
  | none => simp [eq_comm]
  | some setting =>
      dsimp only
      cases item.convert? setting <;> simp

theorem exists_error_iff {item : Item Record} {root : Setting} :
    (∃ error, item.readFrom root = .error error) ↔ item.Refuses (root.find? item.path) := by
  unfold readFrom read Refuses
  cases root.find? item.path with
  | none => simp
  | some setting =>
      dsimp only
      cases convert : item.convert? setting <;> simp [convert]

end Item

/-! ## Reading a record -/

/-- A record of which something is given is read as its settings are: it has what they read, and it
is refused for an error of one of them. -/
structure Reads {Record : Type} (given : Record → Prop) (items : List (Item Record))
    (root : Setting) (outcome : Except ConfigError Record) : Prop where
  ok_iff : ∀ record, outcome = .ok record ↔
    given record ∧ ∀ item ∈ items, item.readFrom root = .ok (item.value record)
  of_error : ∀ error, outcome = .error error → ∃ item ∈ items, item.readFrom root = .error error

namespace Reads

variable {Record : Type} {given : Record → Prop} {items : List (Item Record)} {root : Setting}

/-- What is given makes up the whole record. -/
theorem ofGiven {whole : Record} (given_iff : ∀ record, given record ↔ record = whole) :
    Reads given [] root (.ok whole) where
  ok_iff record := by simp [given_iff, eq_comm]
  of_error := nofun

/-- What a setting reads is given to the rest. -/
theorem bind {item : Item Record} {next : item.Data → Except ConfigError Record}
    (rest : ∀ data, Reads (fun record => given record ∧ item.value record = data) items root
      (next data)) :
    Reads given (item :: items) root (item.readFrom root >>= next) := by
  cases read_eq : item.readFrom root with
  | error error =>
      refine ⟨fun record => ?_, fun other failed => ?_⟩
      · simp [read_eq, Bind.bind, Except.bind]
      · cases failed
        exact ⟨item, List.mem_cons_self, read_eq⟩
  | ok data =>
      refine ⟨fun record => ?_, fun error failed => ?_⟩
      · refine ((rest data).ok_iff record).trans ?_
        rw [List.forall_mem_cons, read_eq, Except.ok.injEq, and_assoc, @eq_comm _ data]
      · obtain ⟨other, member, other_failed⟩ := (rest data).of_error error failed
        exact ⟨other, List.mem_cons_of_mem _ member, other_failed⟩

/-- What a part of the record reads is given to the rest. -/
theorem bindPart {Part : Type} {partItems : List (Item Part)} {part : Record → Part}
    {outcome : Except ConfigError Part} {next : Part → Except ConfigError Record}
    (reads : Reads (fun _ => True) partItems root outcome)
    (rest : ∀ value, Reads (fun record => given record ∧ part record = value) items root
      (next value)) :
    Reads given (partItems.map (.within part) ++ items) root (outcome >>= next) := by
  have part_ok_iff : ∀ record, (∀ item ∈ partItems.map (Item.within part),
      item.readFrom root = .ok (item.value record)) ↔ outcome = .ok (part record) := by
    intro record
    rw [List.forall_mem_map, reads.ok_iff, true_and]
    rfl
  refine ⟨fun record => ?_, fun error failed => ?_⟩
  · rw [List.forall_mem_append, part_ok_iff]
    cases outcome with
    | error error => simp [Bind.bind, Except.bind]
    | ok value =>
        refine ((rest value).ok_iff record).trans ?_
        simp [and_assoc, eq_comm]
  · rcases bind_eq_error.1 failed with part_failed | ⟨value, -, rest_failed⟩
    · obtain ⟨item, member, item_failed⟩ := reads.of_error error part_failed
      exact ⟨item.within part, List.mem_append_left _ (List.mem_map_of_mem member), item_failed⟩
    · obtain ⟨item, member, item_failed⟩ := (rest value).of_error error rest_failed
      exact ⟨item, List.mem_append_right _ member, item_failed⟩

/-- A record is refused exactly if one of its settings is. -/
theorem exists_error_iff {outcome : Except ConfigError Record}
    (reads : Reads given items root outcome) :
    (∃ error, outcome = .error error) ↔
      ∃ item ∈ items, ∃ error, item.readFrom root = .error error := by
  constructor
  · rintro ⟨error, failed⟩
    obtain ⟨item, member, item_failed⟩ := reads.of_error error failed
    exact ⟨item, member, error, item_failed⟩
  · rintro ⟨item, member, error, item_failed⟩
    cases outcome with
    | error error => exact ⟨error, rfl⟩
    | ok record =>
        have item_ok := ((reads.ok_iff record).1 rfl).2 item member
        rw [item_failed] at item_ok
        exact nomatch item_ok

end Reads

/-! ## The settings of the service -/

/-- The settings of the server. -/
def Server.items : List (Item Server) :=
  let standard := Server.standard
  [⟨["server", "host"], standard.host, Setting.toText?, Server.host⟩,
    ⟨["server", "port"], standard.port, Setting.toBounded? _, Server.port⟩,
    ⟨["server", "request_timeout_seconds"], standard.requestTimeout, Setting.toBounded? _,
      Server.requestTimeout⟩,
    ⟨["server", "cors_origins"], standard.corsOrigins, Setting.toText?, Server.corsOrigins⟩]

/-- The settings of the database. -/
def Database.items : List (Item Database) :=
  let standard := Database.standard
  [⟨["database", "url"], standard.url, Setting.toText?, Database.url⟩,
    ⟨["database", "max_connections"], standard.maxConnections, Setting.toBounded? _,
      Database.maxConnections⟩,
    ⟨["database", "min_connections"], standard.minConnections, Setting.toBounded? _,
      Database.minConnections⟩,
    ⟨["database", "connect_timeout_seconds"], standard.connectTimeout, Setting.toBounded? _,
      Database.connectTimeout⟩,
    ⟨["database", "idle_timeout_seconds"], standard.idleTimeout, Setting.toBounded? _,
      Database.idleTimeout⟩,
    ⟨["database", "run_migrations"], standard.runMigrations, Setting.toFlag?,
      Database.runMigrations⟩]

/-- The settings of logs and metrics. -/
def Observability.items : List (Item Observability) :=
  let standard := Observability.standard
  [⟨["observability", "log_level"], standard.logLevel, Setting.toText?, Observability.logLevel⟩,
    ⟨["observability", "log_format"], standard.logFormat, Setting.toText?,
      Observability.logFormat⟩,
    ⟨["observability", "metrics_enabled"], standard.metricsEnabled, Setting.toFlag?,
      Observability.metricsEnabled⟩,
    ⟨["observability", "metrics_port"], standard.metricsPort, Setting.toBounded? _,
      Observability.metricsPort⟩]

/-- The settings of the engine. -/
def Engine.items : List (Item Engine) :=
  let standard := Engine.standard
  [⟨["engine", "store"], standard.store, StoreKind.ofSetting?, Engine.store⟩,
    ⟨["engine", "max_expression_length"], standard.maxExpressionLength, Setting.toBounded? _,
      Engine.maxExpressionLength⟩,
    ⟨["engine", "max_depth"], standard.maxDepth, Setting.toBounded? _, Engine.maxDepth⟩,
    ⟨["engine", "seed_demo_rules"], standard.seedDemoRules, Setting.toFlag?,
      Engine.seedDemoRules⟩]

/-- The settings that stand in sections. -/
def sectionItems : List (Item Config) :=
  Server.items.map (.within Config.server) ++ (Database.items.map (.within Config.database) ++
    (Observability.items.map (.within Config.observability) ++
      Engine.items.map (.within Config.engine)))

/-- A text that stands outside the sections. -/
def nameItem (path : Path) (standard : String) (value : Config → String) : Item Config :=
  ⟨path, standard, Setting.toText?, value⟩

/-- The names of the service and of its environment. -/
def nameItems (service environment : String) : List (Item Config) :=
  [nameItem ["service_name"] service Config.serviceName,
    nameItem ["environment"] environment Config.environment]

/-- All settings of a configuration. -/
def items (service environment : String) : List (Item Config) :=
  nameItems service environment ++ sectionItems

/-! ## Reading the sections -/

section Sections

variable (root : Setting)

theorem Server.reads : Reads (fun _ => True) Server.items root (Server.ofSetting root) :=
  .bind fun host => .bind fun port => .bind fun timeout => .bind fun origins => .ofGiven <| by
    rintro ⟨⟩
    simp [and_assoc]

theorem Database.reads : Reads (fun _ => True) Database.items root (Database.ofSetting root) :=
  .bind fun url => .bind fun most => .bind fun least => .bind fun connect => .bind fun idle =>
    .bind fun migrates => .ofGiven <| by
      rintro ⟨⟩
      simp [and_assoc]

theorem Observability.reads :
    Reads (fun _ => True) Observability.items root (Observability.ofSetting root) :=
  .bind fun level => .bind fun format => .bind fun enabled => .bind fun port => .ofGiven <| by
    rintro ⟨⟩
    simp [and_assoc]

theorem Engine.reads : Reads (fun _ => True) Engine.items root (Engine.ofSetting root) :=
  .bind fun store => .bind fun length => .bind fun depth => .bind fun seeds => .ofGiven <| by
    rintro ⟨⟩
    simp [and_assoc]

theorem forM_checkSection {names : List String} (tables : ∀ name ∈ names, root.HasSection name) :
    names.forM (checkSection root) = .ok () := by
  induction names with
  | nil => rfl
  | cons name rest induction =>
      obtain ⟨table, rest_tables⟩ := List.forall_mem_cons.1 tables
      have passes : checkSection root name = .ok () := if_pos table
      rw [List.forM, passes]
      exact induction rest_tables

/-- A tree with tables in the places of the sections is read as all settings are. -/
theorem ofSetting_reads (tables : ∀ name ∈ sections, root.HasSection name) :
    Reads (fun _ => True) (items "" "") root (ofSetting root) := by
  rw [ofSetting, forM_checkSection root tables]
  refine .bind fun (serviceName : String) => .bind fun (environment : String) => ?_
  refine .bindPart (Server.reads root) fun server => ?_
  refine .bindPart (Database.reads root) fun database => ?_
  refine .bindPart (Observability.reads root) fun observability => ?_
  rw [← List.append_nil (Engine.items.map _)]
  refine .bindPart (Engine.reads root) fun engine => .ofGiven ?_
  rintro ⟨⟩
  simp [nameItem, and_assoc]

end Sections

end FormRules.Config
