import ServiceHealth.Settings.FromYaml
import ServiceHealth.Json.Parser

/-!
# Settings files

A file whose extension is exactly `yaml` or `yml` holds YAML, any other file JSON. Its bytes
have to be UTF-8, its text has to hold settings, and the settings have to be valid.

## Main definitions

* `LoadError`, `LoadError.message` — why a file gives no settings.
* `Settings.load` — the settings of a file, from its name and its bytes.
-/

namespace ServiceHealth

/-- The formats of settings files. -/
inductive FileFormat
  | yaml | json
  deriving DecidableEq, Repr

/-- The name under which a format is known. -/
def FileFormat.name : FileFormat → String
  | yaml => "YAML"
  | json => "JSON"

/-- The last part of a path, if it is a name. -/
def fileName? (path : String) : Option (List Char) :=
  let parts := (path.toList.splitOn '/').filter fun part => part ≠ [] ∧ part ≠ ['.']
  parts.getLast?.filter (· ≠ ['.', '.'])

/-- The extension of a path: what follows the last point of its name, unless that point is
the first character. -/
def extension? (path : String) : Option String := do
  let name ← fileName? path
  let ending := name.reverse.takeWhile (· ≠ '.')
  if ending.length + 1 < name.length then some (String.ofList ending.reverse) else none

/-- The format of the file at a path. -/
def FileFormat.ofPath (path : String) : FileFormat :=
  if extension? path = some "yaml" ∨ extension? path = some "yml" then yaml else json

/-- Why a file gives no settings. -/
inductive LoadError
  | read (path : String)
  | parse (format : FileFormat)
  | invalid (fault : SettingsError)
  deriving DecidableEq, Repr

/-- The text of an error. -/
def LoadError.message : LoadError → String
  | read path => "Failed to read config file " ++ path
  | parse format => "Failed to parse " ++ format.name ++ " config"
  | invalid fault => fault.message

namespace Settings

/-- The settings that a text holds. -/
def parse? (format : FileFormat) (text : String) : Option Settings :=
  match format with
  | .yaml => (Yaml.Document.parse? text).bind ofYaml?
  | .json => (Json.parse? text).bind ofJson?

/-- The valid settings of the file at a path, given its bytes, which are absent when it cannot
be read. -/
def load (path : String) (bytes : Option ByteArray) : Except LoadError Settings :=
  match bytes.bind String.fromUTF8? with
  | none => .error (.read path)
  | some text =>
    match parse? (FileFormat.ofPath path) text with
    | none => .error (.parse (FileFormat.ofPath path))
    | some s =>
      match s.fault? with
      | some fault => .error (.invalid fault)
      | none => .ok s

end Settings

example : FileFormat.ofPath "etc/app.yml" = .yaml := by decide +kernel
example : FileFormat.ofPath ".yaml" = .json := by decide +kernel

end ServiceHealth
