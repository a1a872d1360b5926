import ServiceHealth.Settings
import ServiceHealth.Json.Basic

/-!
# Reading settings from data

Settings are read from any data format that can present a value as a text, a number, a truth
value, a sequence or a record. In a record each known field stands at most once, an absent
field takes its default if it has one, and unknown fields are passed over unread.

## Main definitions

* `Format` — how a data format presents its values.
* `Format.settings?` — the settings in a value.
* `Json.format`, `Settings.ofJson?` — JSON as a format: a record is an object, or an array
  of the fields in order with the last ones left out.
-/

namespace ServiceHealth

/-- How the values of a data format are presented. A record is read under the names of its
fields, in order; the fields of the result may hold unknown names and repetitions. -/
structure Format (α : Type) where
  text? : α → Option String
  nat? : α → Option Nat
  bool? : α → Option Bool
  items? : α → Option (List α)
  record? : List String → α → Option (List (String × α))

namespace Format

variable {α : Type} (F : Format α)

/-- The value of a known field: `none` when it stands twice, `some none` when it is absent. -/
def field? (record : List (String × α)) (name : String) : Option (Option α) :=
  match record.filter (·.1 == name) with
  | [] => some none
  | [f] => some (some f.2)
  | _ => none

/-- A field that has to be there. -/
def required? {β : Type} (record : List (String × α)) (name : String) (read : α → Option β) :
    Option β := do
  read (← ← field? record name)

/-- A field that takes its default when it is absent. -/
def optional? {β : Type} (record : List (String × α)) (name : String) (default : β)
    (read : α → Option β) : Option β := do
  match ← field? record name with
  | some v => read v
  | none => some default

/-- A sequence of values. -/
def list? {β : Type} (read : α → Option β) (v : α) : Option (List β) := do
  (← F.items? v).mapM read

/-- A natural number below a bound. -/
def below? (bound : Nat) (v : α) : Option Nat := (F.nat? v).filter (· < bound)

/-- A health check. -/
def healthCheck? (v : α) : Option HealthCheck := do
  let r ← F.record? ["name", "uri"] v
  return ⟨← required? r "name" F.text?, ← required? r "uri" F.text?⟩

/-- An application. -/
def application? (v : α) : Option Application := do
  let r ← F.record? ["name", "members"] v
  return ⟨← required? r "name" F.text?, ← optional? r "members" [] (F.list? F.text?)⟩

/-- The probe settings. -/
def probe? (v : α) : Option ProbeSettings := do
  let r ← F.record? ["timeout_ms"] v
  return ⟨← optional? r "timeout_ms" ({} : ProbeSettings).timeoutMs
    fun v => (F.below? UInt64.size v).map UInt64.ofNat⟩

/-- The server settings. -/
def server? (v : α) : Option ServerSettings := do
  let r ← F.record? ["listen_addr", "base_path"] v
  return ⟨← optional? r "listen_addr" ({} : ServerSettings).listenAddress
      fun v => (F.text? v).bind Net.SocketAddress.parse?,
    ← optional? r "base_path" ({} : ServerSettings).basePath F.text?⟩

/-- The metrics settings. -/
def metrics? (v : α) : Option MetricsSettings := do
  let r ← F.record? ["enabled", "port", "path"] v
  return ⟨← optional? r "enabled" ({} : MetricsSettings).enabled F.bool?,
    ← optional? r "port" ({} : MetricsSettings).port
      fun v => (F.below? UInt16.size v).map UInt16.ofNat,
    ← optional? r "path" ({} : MetricsSettings).path F.text?⟩

/-- The settings in a value. -/
def settings? (v : α) : Option Settings := do
  let r ← F.record? ["health_checks", "applications", "probe", "server", "metrics"] v
  return ⟨← optional? r "health_checks" [] (F.list? F.healthCheck?),
    ← optional? r "applications" [] (F.list? F.application?),
    ← optional? r "probe" {} F.probe?,
    ← optional? r "server" {} F.server?,
    ← optional? r "metrics" {} F.metrics?⟩

end Format

namespace Json

/-- The fields of an object, every key of which has to be a text. -/
def namedFields? (fields : List (Literal × Json)) : Option (List (String × Json)) :=
  fields.mapM fun f => f.1.map (·, f.2)

/-- JSON as a format for settings. -/
def format : Format Json where
  text? := Json.text?
  nat? := fun
    | .number n => n.toNat?
    | _ => none
  bool? := fun
    | .bool b => some b
    | _ => none
  items? := fun
    | .array items => some items
    | _ => none
  record? names := fun
    | .object fields => namedFields? fields
    | .array items => if items.length ≤ names.length then some (names.zip items) else none
    | _ => none

end Json

/-- The settings in a JSON document. -/
def Settings.ofJson? (j : Json) : Option Settings := Json.format.settings? j

end ServiceHealth
