import FormRules.Config
import FormRules.Config.EnvFile
import FormRules.Config.Toml

/-!
# Loading a configuration

A configuration is stacked from layers, each of which overrides the ones before it name by name: the
names that the caller gives, the common file, the file of the environment, the file of the service,
and the variables. A file that is missing is an empty layer. The language of the files is a matter
of the reader that is given for it; if none is given, they are read as TOML.
-/

namespace FormRules.Config

open EnvFile (Variables)

/-- Settings to be laid at paths, one after another. -/
abbrev Layer := List (Path × Setting)

/-- A tree with a layer laid over it. -/
def Setting.withLayer (root : Setting) (layer : Layer) : Setting :=
  layer.foldl (fun root entry => entry.2.place entry.1 (some root)) root

/-- The tree that layers make, the first one lowest. -/
def stack (layers : List Layer) : Setting :=
  layers.foldl Setting.withLayer Setting.empty

/-! ## Names and paths -/

/-- The characters of the names on a path. -/
def isPathCharacter (character : Char) : Bool :=
  character.isAlphanum || character == '_' || character == '-'

/-- The path that a text spells with points between its names. A text that spells none is one name,
and so is one with a subscript. -/
def pathOf (text : String) : Path :=
  let names := (text.toList.splitOn '.').map String.ofList
  if names.all fun (name : String) => !name.isEmpty && name.toList.all isPathCharacter then names
  else [text]

/-- The layer of a document, in which the names at the top may be paths. -/
def documentLayer (document : Setting) : Layer :=
  document.entries.map fun (name, setting) => (pathOf name, setting)

/-! ## Variables -/

/-- The beginning of the names of variables that set something, in lower case. -/
def variablePrefix : List Char := "validation_".toList

/-- A name with each pair of underscores made a point, from the left. -/
def withPoints : List Char → List Char
  | '_' :: '_' :: rest => '.' :: withPoints rest
  | head :: rest => head :: withPoints rest
  | [] => []

/-- The integer of 64 bits that a text spells. -/
def integerOf? (text : List Char) : Option Int :=
  let (negative, digits) := Text.readSign text
  if digits ≠ [] ∧ digits.all Char.isDigit then
    let value := Number.signed negative (Text.digitsValue digits)
    if -(2 ^ 63) ≤ value ∧ value < 2 ^ 63 then some value else none
  else none

/-- The setting that the value of a variable spells. -/
def settingOf (value : String) : Setting :=
  if value.toLower = "true" then .boolean true
  else if value.toLower = "false" then .boolean false
  else match integerOf? value.toList with
    | some integer => .integer integer
    | none => match Number.ofNumeral? value.toList with
      | some number => .decimal number
      | none => .text value

/-- What a variable sets, if its name has the right beginning in either case. -/
def ofVariable? (name value : String) : Option (Path × Setting) :=
  let lower := name.toList.map Char.toLower
  if variablePrefix.isPrefixOf lower then
    let spelled := withPoints (lower.drop variablePrefix.length)
    some (pathOf (String.ofList spelled), settingOf value)
  else none

/-- The layer of variables. -/
def variableLayer (bindings : Variables) : Layer :=
  bindings.filterMap fun (name, value) => ofVariable? name value

/-! ## Files -/

/-- What surrounds a program: the files that it can reach, by their paths from its working directory
or from the root, and variables. -/
structure Surroundings where
  files : List (String × String)
  bindings : Variables

/-- The root of all files. -/
def rootName : String := "/"

/-- The names on the way to a file, which may begin at the root. -/
def filePath (text : String) : Path :=
  let names := ((text.toList.splitOn '/').map String.ofList).filter fun (name : String) =>
    name ≠ "" && name ≠ "."
  if text.startsWith rootName then rootName :: names else names

/-- The way to a file below a directory. A way that begins at the root is not below any other. -/
def wayTo (directory name : String) : Path :=
  if name.startsWith rootName then filePath name else filePath directory ++ filePath name

namespace Surroundings

/-- Some file lies below a path. -/
def isDirectory (surroundings : Surroundings) (path : Path) : Bool :=
  path = [] || surroundings.files.any fun (file, _) =>
    path.isPrefixOf (filePath file) && path.length < (filePath file).length

/-- Where a way leads from a directory. Two points lead to the directory above; the root is above
itself, and nothing is known above the working directory. -/
def follow? (surroundings : Surroundings) : Path → Path → Option Path
  | start, [] => some start
  | start, ".." :: way =>
      if start = [rootName] then surroundings.follow? start way
      else if start ≠ [] ∧ surroundings.isDirectory start then
        surroundings.follow? start.dropLast way
      else none
  | start, name :: way => surroundings.follow? (start ++ [name]) way

/-- The content of a file below a directory. -/
def file? (surroundings : Surroundings) (directory name : String) : Option String := do
  let place ← surroundings.follow? [] (wayTo directory name)
  let (_, content) ← surroundings.files.find? fun (path, _) => filePath path = place
  return content

/-- The value of a variable. -/
def valueOf? (surroundings : Surroundings) (name : String) : Option String :=
  surroundings.bindings.lookup name

/-- The surroundings after the variables of the environment file, if there is one. -/
def withEnvFile (surroundings : Surroundings) : Surroundings :=
  match surroundings.file? "" ".env" with
  | some content =>
      { surroundings with bindings := EnvFile.load surroundings.bindings content }
  | none => surroundings

end Surroundings

/-- The ending of the names of configuration files. -/
def fileEnding : String := ".toml"

/-- The content of the configuration file of a name. If the file is missing, one with the ending
twice takes its place. A file whose name is the ending alone is not read. -/
def content? (surroundings : Surroundings) (directory name : String) : Option String :=
  let fileName := name ++ fileEnding
  match surroundings.file? directory fileName with
  | some content => if (filePath fileName).getLast? = some fileEnding then none else some content
  | none => surroundings.file? directory (fileName ++ fileEnding)

/-- Reads the text of a configuration file, unless it is malformed. -/
abbrev DocumentReader := List Char → Option Setting

/-- The layer of the configuration file of a name. -/
def fileLayer (read? : DocumentReader) (surroundings : Surroundings) (directory name : String) :
    Except ConfigError Layer :=
  match content? surroundings directory name with
  | none => .ok []
  | some content =>
      match read? (Text.withoutByteOrderMark content.toList) with
      | some document => .ok (documentLayer document)
      | none => .error (.malformed (wayTo directory name))

/-! ## Loading -/

/-- The name of the file that is common to all environments. -/
def commonName : String := "default"

/-- The layer of the names that the caller gives. -/
def callerLayer (service environment : String) : Layer :=
  [(["service_name"], .text service), (["environment"], .text environment)]

/-- The layers of a configuration, the lowest first. -/
def layers (read? : DocumentReader) (surroundings : Surroundings)
    (service environment directory : String) : Except ConfigError (List Layer) := do
  return [callerLayer service environment,
    ← fileLayer read? surroundings directory commonName,
    ← fileLayer read? surroundings directory environment,
    ← fileLayer read? surroundings directory service,
    variableLayer surroundings.bindings]

/-- Loads the configuration of a service in an environment from a directory. -/
def loadFrom (surroundings : Surroundings) (service environment directory : String)
    (read? : DocumentReader := Toml.read?) : Except ConfigError Config := do
  ofSetting (stack (← layers read? surroundings service environment directory))

/-- The environment in which a service runs if no variable names one. -/
def standardEnvironment : String := "development"

/-- The directory of the configuration files if no variable names one. -/
def standardDirectory : String := "config"

/-- Loads the configuration of a service in the environment and from the directory that variables
name, those of the environment file included. -/
def load (surroundings : Surroundings) (service : String)
    (read? : DocumentReader := Toml.read?) : Except ConfigError Config :=
  let surroundings := surroundings.withEnvFile
  loadFrom surroundings service
    ((surroundings.valueOf? "VALIDATION_ENV").getD standardEnvironment)
    ((surroundings.valueOf? "CONFIG_DIR").getD standardDirectory) read?

/-- The variable that sets the level of the logs from outside. -/
def levelVariable : String := "RUST_LOG"

/-- The level of the logs of a configured service. -/
def logLevel (config : Config) (surroundings : Surroundings) : LogLevel :=
  config.observability.level (surroundings.valueOf? levelVariable)

end FormRules.Config
