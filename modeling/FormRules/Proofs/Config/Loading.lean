import FormRules.Proofs.Config.Settings
import FormRules.Proofs.Config.Sources

/-!
# What a configuration takes from its sources

Every setting of a configuration is the converted value of the last source that defines it, or the
standard value if no source does. Loading fails exactly if such a value does not convert or a file
cannot be read. A source that defines one setting of a section therefore leaves the others as they
are without it.
-/

namespace FormRules.Config

/-! ## The lowest layer -/

theorem mem_sectionItems_path {item : Item Config} (member : item ∈ sectionItems) :
    ∃ name key, name ∈ sections ∧ item.path = [name, key] := by
  revert item
  simp [sectionItems, Server.items, Database.items, Observability.items, Engine.items,
    Item.within, sections]

theorem exists_mem_sectionItems {name : String} (member : name ∈ sections) :
    ∃ item ∈ sectionItems, ∃ key, item.path = [name, key] := by
  revert name
  simp [sectionItems, Server.items, Database.items, Observability.items, Engine.items,
    Item.within, sections]

section Caller

variable (service environment : String)

theorem callerLayer_fits {item : Item Config} (member : item ∈ items service environment) :
    (callerLayer service environment).Fits item.path := by
  rcases List.mem_append.1 member with named | sectioned
  · simp only [nameItems, List.mem_cons, List.not_mem_nil, or_false] at named
    rcases named with rfl | rfl <;>
      simp [nameItem, callerLayer, Layer.Fits, Setting.under, Setting.Fits, Setting.isTable,
        Setting.entries]
  · obtain ⟨name, key, name_mem, path_eq⟩ := mem_sectionItems_path sectioned
    rw [path_eq]
    simp only [sections, List.mem_cons, List.not_mem_nil, or_false] at name_mem
    rcases name_mem with rfl | rfl | rfl | rfl <;>
      simp [callerLayer, Layer.Fits, Setting.under, Setting.Fits, Setting.isTable,
        Setting.entries]

theorem definitions_callerLayer :
    (callerLayer service environment).definitions = callerLayer service environment :=
  Layer.definitions_of_leaves (by simp [callerLayer, Setting.isTable])

theorem defined?_callerLayer_service :
    (callerLayer service environment).defined? ["service_name"] = some (.text service) := by
  rw [Layer.defined?, definitions_callerLayer]
  rfl

theorem defined?_callerLayer_environment :
    (callerLayer service environment).defined? ["environment"] = some (.text environment) := by
  rw [Layer.defined?, definitions_callerLayer]
  rfl

theorem defined?_callerLayer_section (name key : String) :
    (callerLayer service environment).defined? [name, key] = none := by
  rw [Layer.defined?, definitions_callerLayer]
  simp [callerLayer, Layer.last?, List.lookup_cons]

end Caller

/-- A name that the caller gives is defined like one that no layer above defines but has it as its
standard value. -/
theorem takes_nameItem {path : Path} {name : String} {value : Config → String}
    (defined : Option Setting) (config : Config) :
    (nameItem path "" value).Takes (defined.or (some (.text name))) config ↔
      (nameItem path name value).Takes defined config := by
  cases defined with
  | none => simp [Item.Takes, nameItem, Setting.toText?, eq_comm]
  | some setting => rfl

theorem refuses_nameItem {path : Path} {name : String} {value : Config → String}
    (defined : Option Setting) :
    (nameItem path "" value).Refuses (defined.or (some (.text name))) ↔
      (nameItem path name value).Refuses defined := by
  cases defined with
  | none => simp [Item.Refuses, nameItem, Setting.toText?]
  | some setting => rfl

/-! ## Sources -/

/-- The paths of all settings. -/
def paths : List Path :=
  [["service_name"], ["environment"],
    ["server", "host"], ["server", "port"], ["server", "request_timeout_seconds"],
    ["server", "cors_origins"],
    ["database", "url"], ["database", "max_connections"], ["database", "min_connections"],
    ["database", "connect_timeout_seconds"], ["database", "idle_timeout_seconds"],
    ["database", "run_migrations"],
    ["observability", "log_level"], ["observability", "log_format"],
    ["observability", "metrics_enabled"], ["observability", "metrics_port"],
    ["engine", "store"], ["engine", "max_expression_length"], ["engine", "max_depth"],
    ["engine", "seed_demo_rules"]]

theorem map_path_items (service environment : String) :
    (items service environment).map Item.path = paths := rfl

theorem plain_of_mem_paths {path : Path} (member : path ∈ paths) : Plain path := by
  have all_plain : ∀ path ∈ paths, (path ≠ [] ∧ path.length ≤ 2) ∧
      (∀ name ∈ path, name.isEmpty = false ∧ name.toList.all isPathCharacter = true) ∧
      ∀ separator ∈ separators,
        withPoints (separator.intercalate path).toList = (".".intercalate path).toList := by
    decide +kernel
  obtain ⟨⟨nonempty, short⟩, names, separated⟩ := all_plain path member
  exact ⟨nonempty, short, names, separated⟩

theorem Item.plain {service environment : String} {item : Item Config}
    (member : item ∈ items service environment) : Plain item.path :=
  plain_of_mem_paths (map_path_items service environment ▸ List.mem_map_of_mem member)

/-- The document in the configuration file of a name, if there is such a file and it can be
read. -/
def document? (read? : DocumentReader) (surroundings : Surroundings) (directory name : String) :
    Option Setting :=
  (content? surroundings directory name).bind fun content =>
    read? (Text.withoutByteOrderMark content.toList)

/-- The configuration file of a name is there, and it cannot be read. -/
def Malformed (read? : DocumentReader) (surroundings : Surroundings) (directory name : String) :
    Prop :=
  ∃ content, content? surroundings directory name = some content ∧
    read? (Text.withoutByteOrderMark content.toList) = none

/-- The configuration file of a name as a source. A missing file defines nothing. -/
def fileSource (read? : DocumentReader) (surroundings : Surroundings) (directory name : String) :
    Source := fun path =>
  (document? read? surroundings directory name).bind fun document => document.source path

/-- The files and the variables that a configuration is loaded from, the lowest first. -/
def sources (read? : DocumentReader) (surroundings : Surroundings)
    (service environment directory : String) : List Source :=
  [fileSource read? surroundings directory commonName,
    fileSource read? surroundings directory environment,
    fileSource read? surroundings directory service, variableSource surroundings.bindings]

/-- The names of sections hold tables and settings hold none, in the files and the variables. -/
structure Orderly (read? : DocumentReader) (surroundings : Surroundings)
    (service environment directory : String) : Prop where
  files : ∀ name ∈ [commonName, environment, service],
    ∀ document ∈ document? read? surroundings directory name, ∀ entry ∈ document.entries,
      ∀ item ∈ items service environment, (entry.2.under (pathOf entry.1)).Fits item.path
  bindings : ∀ binding ∈ surroundings.bindings, ∀ entry ∈ ofVariable? binding.1 binding.2,
    ∀ item ∈ items service environment, (entry.2.under entry.1).Fits item.path

section Files

variable {read? : DocumentReader} {surroundings : Surroundings} {directory name : String}

theorem exists_error_of_malformed (malformed : Malformed read? surroundings directory name) :
    ∃ error, fileLayer read? surroundings directory name = .error error := by
  obtain ⟨content, found, unread⟩ := malformed
  refine ⟨.malformed (wayTo directory name), ?_⟩
  unfold fileLayer
  rw [found]
  dsimp only
  rw [unread]

/-- A file that can be read is laid as a layer of what it defines. -/
structure LaidFrom (read? : DocumentReader) (surroundings : Surroundings) (directory name : String)
    (layer : Layer) : Prop where
  laid : fileLayer read? surroundings directory name = .ok layer
  defines : layer.defined? = fileSource read? surroundings directory name
  fits : ∀ path, (∀ document ∈ document? read? surroundings directory name,
    ∀ entry ∈ document.entries, (entry.2.under (pathOf entry.1)).Fits path) → layer.Fits path

theorem exists_laidFrom (readable : ¬ Malformed read? surroundings directory name) :
    ∃ layer, LaidFrom read? surroundings directory name layer := by
  cases found : content? surroundings directory name with
  | none =>
      have missing : document? read? surroundings directory name = none := by
        rw [document?, found, Option.bind_none]
      refine ⟨[], ?_, ?_, fun _ _ _ => nofun⟩
      · rw [fileLayer, found]
      · unfold fileSource
        rw [missing]
        rfl
  | some content =>
      have found_eq : document? read? surroundings directory name =
          read? (Text.withoutByteOrderMark content.toList) := by
        rw [document?, found, Option.bind_some]
      cases read : read? (Text.withoutByteOrderMark content.toList) with
      | none => exact absurd ⟨content, found, read⟩ readable
      | some document =>
          rw [read] at found_eq
          refine ⟨documentLayer document, ?_, ?_, fun path fits => ?_⟩
          · unfold fileLayer
            rw [found]
            dsimp only
            rw [read]
          · unfold fileSource
            rw [found_eq, defined?_documentLayer]
            rfl
          · exact List.forall_mem_map.2 (fits document found_eq)

end Files

variable {read? : DocumentReader} {surroundings : Surroundings}
  {service environment directory : String}

theorem exists_error_of_malformed_mem {name : String}
    (member : name ∈ [commonName, environment, service])
    (malformed : Malformed read? surroundings directory name) :
    ∃ error, loadFrom surroundings service environment directory read? = .error error := by
  obtain ⟨error, failed⟩ := exists_error_of_malformed malformed
  unfold loadFrom layers
  cases common : fileLayer read? surroundings directory commonName with
  | error first => exact ⟨first, rfl⟩
  | ok =>
      cases ofEnvironment : fileLayer read? surroundings directory environment with
      | error second => exact ⟨second, rfl⟩
      | ok =>
          cases ofService : fileLayer read? surroundings directory service with
          | error third => exact ⟨third, rfl⟩
          | ok =>
              simp only [List.mem_cons, List.not_mem_nil, or_false] at member
              rcases member with rfl | rfl | rfl <;> simp_all

/-- What stands in the tree of a configuration, if its layers fit its settings. -/
structure Stacked (service environment : String) (sources : List Source) (root : Setting) :
    Prop where
  sections : ∀ name ∈ sections, root.HasSection name
  service_eq : root.find? ["service_name"] =
    (lastDefined? sources ["service_name"]).or (some (.text service))
  environment_eq : root.find? ["environment"] =
    (lastDefined? sources ["environment"]).or (some (.text environment))
  section_eq : ∀ item ∈ sectionItems, root.find? item.path = lastDefined? sources item.path

theorem stacked_stack (service environment : String) (layers : List Layer)
    (fits : ∀ layer ∈ layers, ∀ item ∈ items service environment, layer.Fits item.path) :
    Stacked service environment (layers.map Layer.defined?)
      (stack (callerLayer service environment :: layers)) := by
  have all_fit : ∀ item ∈ items service environment,
      ∀ layer ∈ callerLayer service environment :: layers, layer.Fits item.path :=
    fun item member => List.forall_mem_cons.2
      ⟨callerLayer_fits service environment member, fun layer layer_mem =>
        fits layer layer_mem item member⟩
  obtain ⟨names_fit, sections_fit⟩ := List.forall_mem_append.1 all_fit
  obtain ⟨service_fits, names_fit⟩ := List.forall_mem_cons.1 names_fit
  have environment_fits := List.forall_mem_singleton.1 names_fit
  refine ⟨fun name member => ?_, ?_, ?_, fun item member => ?_⟩
  · obtain ⟨item, item_mem, key, path_eq⟩ := exists_mem_sectionItems member
    exact hasSection_stack (path_eq ▸ sections_fit item item_mem)
  · rw [find?_stack service_fits, List.map_cons, lastDefined?_cons, defined?_callerLayer_service]
  · rw [find?_stack environment_fits, List.map_cons, lastDefined?_cons,
      defined?_callerLayer_environment]
  · have item_fits := sections_fit item member
    obtain ⟨name, key, -, path_eq⟩ := mem_sectionItems_path member
    rw [path_eq] at item_fits ⊢
    rw [find?_stack item_fits, List.map_cons, lastDefined?_cons, defined?_callerLayer_section,
      Option.or_none]

namespace Stacked

variable {sources : List Source} {root : Setting}

/-- Sources that define the same settings stand in the same tree. -/
theorem congr {others : List Source} (stacked : Stacked service environment sources root)
    (same : ∀ item ∈ items service environment,
      lastDefined? sources item.path = lastDefined? others item.path) :
    Stacked service environment others root := by
  obtain ⟨names_same, sections_same⟩ := List.forall_mem_append.1 same
  simp only [nameItems, List.forall_mem_cons] at names_same
  obtain ⟨service_same, environment_same, -⟩ := names_same
  exact
    { sections := stacked.sections
      service_eq := stacked.service_eq.trans (congrArg (Option.or · _) service_same)
      environment_eq := stacked.environment_eq.trans (congrArg (Option.or · _) environment_same)
      section_eq := fun item member =>
        (stacked.section_eq item member).trans (sections_same item member) }

theorem ofSetting_eq_ok_iff (stacked : Stacked service environment sources root)
    (config : Config) :
    ofSetting root = .ok config ↔
      ∀ item ∈ items service environment, item.Takes (lastDefined? sources item.path) config := by
  rw [(ofSetting_reads root stacked.sections).ok_iff, true_and]
  simp only [Item.readFrom_eq_ok_iff, items, nameItems, List.forall_mem_append,
    List.forall_mem_cons]
  refine and_congr (and_congr ?_ (and_congr ?_ ?_)) ?_
  · exact stacked.service_eq ▸ takes_nameItem _ config
  · exact stacked.environment_eq ▸ takes_nameItem _ config
  · simp
  · exact forall₂_congr fun item member => by rw [stacked.section_eq item member]

theorem exists_error_iff (stacked : Stacked service environment sources root) :
    (∃ error, ofSetting root = .error error) ↔
      ∃ item ∈ items service environment, item.Refuses (lastDefined? sources item.path) := by
  rw [(ofSetting_reads root stacked.sections).exists_error_iff]
  simp only [Item.exists_error_iff, items, nameItems, List.mem_append, List.mem_cons,
    List.not_mem_nil, or_false, or_and_right, exists_or, exists_eq_left]
  refine or_congr (or_congr ?_ ?_) ?_
  · exact stacked.service_eq ▸ refuses_nameItem _
  · exact stacked.environment_eq ▸ refuses_nameItem _
  · exact exists_congr fun item => and_congr_right fun member => by
      rw [stacked.section_eq item member]

end Stacked

/-- If every file can be read, what is loaded is read from a tree of what the sources define. -/
theorem exists_stacked (orderly : Orderly read? surroundings service environment directory)
    (readable : ∀ name ∈ [commonName, environment, service],
      ¬ Malformed read? surroundings directory name) :
    ∃ root, loadFrom surroundings service environment directory read? = ofSetting root ∧
      Stacked service environment (sources read? surroundings service environment directory)
        root := by
  have laid : ∀ name ∈ [commonName, environment, service],
      ∃ layer, LaidFrom read? surroundings directory name layer ∧
        ∀ item ∈ items service environment, layer.Fits item.path := by
    intro name member
    obtain ⟨layer, laid⟩ := exists_laidFrom (readable name member)
    refine ⟨layer, laid, fun item item_mem => laid.fits item.path ?_⟩
    exact fun document found entry entry_mem =>
      orderly.files name member document found entry entry_mem item item_mem
  have variables_fit : ∀ item ∈ items service environment,
      (variableLayer surroundings.bindings).Fits item.path := by
    intro item item_mem entry entry_mem
    obtain ⟨binding, binding_mem, sets⟩ := List.mem_filterMap.1 entry_mem
    exact orderly.bindings binding binding_mem entry sets item item_mem
  simp only [List.forall_mem_cons] at laid
  obtain ⟨⟨common, common_laid, common_fits⟩, ⟨ofEnvironment, environment_laid, environment_fits⟩,
    ⟨ofService, service_laid, service_fits⟩, -⟩ := laid
  have stacked := stacked_stack service environment
    [common, ofEnvironment, ofService, variableLayer surroundings.bindings]
    (by simpa using ⟨common_fits, environment_fits, service_fits, variables_fit⟩)
  refine ⟨_, ?_, stacked.congr fun item member => ?_⟩
  · rw [loadFrom, layers, common_laid.laid, environment_laid.laid, service_laid.laid]
    rfl
  · simp only [List.map_cons, List.map_nil, sources, lastDefined?_cons, common_laid.defines,
      environment_laid.defines, service_laid.defines, defined?_variableLayer (Item.plain member)]

/-- A configuration is loaded setting by setting. The sources of a setting are the common file, the
file of the environment, the file of the service and the variables, in this order. -/
structure LoadsByLayers (read? : DocumentReader) (surroundings : Surroundings)
    (service environment directory : String) : Prop where
  /-- A setting is the converted value of the last source that defines it, or its standard value,
  which is the one that the caller gives for the names of the service and the environment. -/
  ok_iff : ∀ config, loadFrom surroundings service environment directory read? = .ok config ↔
    (∀ name ∈ [commonName, environment, service], ¬ Malformed read? surroundings directory name) ∧
      ∀ item ∈ items service environment,
        item.Takes
          (lastDefined? (sources read? surroundings service environment directory) item.path)
          config
  /-- A source that does not define a setting leaves it as it is without the source, whatever else
  it defines in the same section. -/
  skip : ∀ config, loadFrom surroundings service environment directory read? = .ok config →
    ∀ front source back,
      sources read? surroundings service environment directory = front ++ source :: back →
      ∀ item ∈ items service environment, source item.path = none →
        item.Takes (lastDefined? (front ++ back) item.path) config
  /-- Loading fails exactly if a file cannot be read or what is defined last somewhere does not
  convert. -/
  error_iff :
    (∃ error, loadFrom surroundings service environment directory read? = .error error) ↔
      (∃ name ∈ [commonName, environment, service],
        Malformed read? surroundings directory name) ∨
      ∃ item ∈ items service environment,
        item.Refuses
          (lastDefined? (sources read? surroundings service environment directory) item.path)

/-- Whatever reads the files, loading goes by layers if the names of sections hold tables and
settings hold none. -/
theorem loadFrom_byLayers (read? : DocumentReader) (surroundings : Surroundings)
    (service environment directory : String)
    (orderly : Orderly read? surroundings service environment directory) :
    LoadsByLayers read? surroundings service environment directory := by
  by_cases malformed : ∃ name ∈ [commonName, environment, service],
      Malformed read? surroundings directory name
  · obtain ⟨name, member, unread⟩ := malformed
    obtain ⟨error, failed⟩ := exists_error_of_malformed_mem member unread
    refine ⟨fun config => iff_of_false ?_ fun readable => readable.1 name member unread, ?_,
      iff_of_true ⟨error, failed⟩ (.inl ⟨name, member, unread⟩)⟩
    · rw [failed]
      exact nofun
    · rw [failed]
      exact fun _ => nofun
  · have readable : ∀ name ∈ [commonName, environment, service],
        ¬ Malformed read? surroundings directory name :=
      fun name member unread => malformed ⟨name, member, unread⟩
    obtain ⟨root, loads, stacked⟩ := exists_stacked orderly readable
    have ok_iff := stacked.ofSetting_eq_ok_iff
    have error_iff := stacked.exists_error_iff
    rw [← loads] at ok_iff error_iff
    refine ⟨fun config => (ok_iff config).trans (and_iff_right readable).symm, ?_,
      error_iff.trans (or_iff_right malformed).symm⟩
    intro config loaded front source back split item member silent
    have takes := (ok_iff config).1 loaded item member
    rwa [split, lastDefined?_append_cons_of_none silent] at takes

/-- The surroundings of a service with a file of each kind and two variables. -/
def stagingSurroundings : Surroundings where
  files :=
    [("/etc/validation/default.toml",
        "[server]\nport = 9000\nhost = \"localhost\"\n\n[engine]\nmax_depth = 32\n"),
      ("/etc/validation/staging.toml", "[server]\nport = 9100\n"),
      ("/etc/validation/rules.toml", "[engine]\nseed_demo_rules = true\n")]
  bindings :=
    [("VALIDATION_ENGINE__STORE", "postgres"), ("VALIDATION_DATABASE__MAX_CONNECTIONS", "20")]

theorem loadFrom_byLayers_staging :
    Orderly Toml.read? stagingSurroundings "rules" "staging" "/etc/validation" ∧
      LoadsByLayers Toml.read? stagingSurroundings "rules" "staging" "/etc/validation" ∧
      ∃ config, loadFrom stagingSurroundings "rules" "staging" "/etc/validation" = .ok config ∧
        config.serviceName = "rules" ∧ config.environment = "staging" ∧
        config.server.host = "localhost" ∧ config.server.port.val = 9100 ∧
        config.server.requestTimeout.val = 30 ∧ config.database.maxConnections.val = 20 ∧
        config.database.minConnections.val = 2 ∧ config.observability.logLevel = "info" ∧
        config.engine.store = .postgres ∧ config.engine.maxDepth.val = 32 ∧
        config.engine.maxExpressionLength.val = 4096 ∧ config.engine.seedDemoRules = true := by
  have orderly : Orderly Toml.read? stagingSurroundings "rules" "staging" "/etc/validation" :=
    ⟨by decide +kernel, by decide +kernel⟩
  have byLayers := loadFrom_byLayers Toml.read? stagingSurroundings "rules" "staging"
    "/etc/validation" orderly
  refine ⟨orderly, byLayers, ?_⟩
  have loaded :
      (loadFrom stagingSurroundings "rules" "staging" "/etc/validation").toOption.any
        fun config => config.serviceName = "rules" ∧ config.environment = "staging" ∧
          config.server.host = "localhost" ∧ config.server.port.val = 9100 ∧
          config.server.requestTimeout.val = 30 ∧ config.database.maxConnections.val = 20 ∧
          config.database.minConnections.val = 2 ∧ config.observability.logLevel = "info" ∧
          config.engine.store = .postgres ∧ config.engine.maxDepth.val = 32 ∧
          config.engine.maxExpressionLength.val = 4096 ∧ config.engine.seedDemoRules = true := by
    decide +kernel
  cases outcome : loadFrom stagingSurroundings "rules" "staging" "/etc/validation" with
  | error error => exact nomatch outcome ▸ loaded
  | ok config =>
      rw [outcome] at loaded
      exact ⟨config, rfl, of_decide_eq_true loaded⟩

end FormRules.Config
