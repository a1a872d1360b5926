import ServiceHealth.Net.Address

/-!
# Settings

The member registry, the applications over it, and the parameters of probing, serving and
metrics. Settings are valid when every name is non-empty and given once, and the probe
timeout is positive.

## Main definitions

* `Settings` and its parts, with their defaults.
* `Settings.validate` — the first fault: health checks by position, then applications by
  position, then the timeout.
* `Settings.application?`, `Settings.memberUri?` — look-ups by exact name, the first entry
  winning.
-/

namespace ServiceHealth

open Net

/-- A probe-able endpoint and the name it is registered under. -/
structure HealthCheck where
  name : String
  uri : String
  deriving DecidableEq, Repr, Inhabited

/-- An application and the names of its members. -/
structure Application where
  name : String
  members : List String := []
  deriving DecidableEq, Repr, Inhabited

/-- How members are probed. -/
structure ProbeSettings where
  timeoutMs : UInt64 := 3000
  deriving DecidableEq, Repr, Inhabited

/-- Where the service listens, and the path its routes begin with. -/
structure ServerSettings where
  listenAddress : SocketAddress := .v4 ⟨0, 0, 0, 0⟩ 8080
  basePath : String := "/api/health"
  deriving DecidableEq, Repr, Inhabited

/-- Whether and where metrics are served. -/
structure MetricsSettings where
  enabled : Bool := false
  port : UInt16 := 9090
  path : String := "/metrics"
  deriving DecidableEq, Repr, Inhabited

/-- The settings of the service. -/
structure Settings where
  healthChecks : List HealthCheck := []
  applications : List Application := []
  probe : ProbeSettings := {}
  server : ServerSettings := {}
  metrics : MetricsSettings := {}
  deriving DecidableEq, Repr, Inhabited

/-- Why settings are not valid. -/
inductive SettingsError
  | emptyHealthCheckName
  | duplicateHealthCheck (name : String)
  | emptyApplicationName
  | duplicateApplication (name : String)
  | zeroProbeTimeout
  deriving DecidableEq, Repr

/-- The text of a fault. -/
def SettingsError.message : SettingsError → String
  | emptyHealthCheckName => "Health check name must not be empty"
  | duplicateHealthCheck name => "Duplicate health check name: " ++ name
  | emptyApplicationName => "Application name must not be empty"
  | duplicateApplication name => "Duplicate application name: " ++ name
  | zeroProbeTimeout => "Probe timeout must be greater than zero"

/-- A fault in a list of names. -/
inductive NameFault
  | empty
  | duplicate (name : String)
  deriving DecidableEq, Repr

/-- The first fault in a list of names, after others that were seen. -/
def NameFault.first? (seen : List String) : List String → Option NameFault
  | [] => none
  | name :: names =>
    if name = "" then some .empty
    else if name ∈ seen then some (.duplicate name)
    else first? (name :: seen) names

namespace Settings

/-- The first fault of the settings, if there is one. -/
def fault? (s : Settings) : Option SettingsError :=
  match NameFault.first? [] (s.healthChecks.map (·.name)) with
  | some .empty => some .emptyHealthCheckName
  | some (.duplicate name) => some (.duplicateHealthCheck name)
  | none =>
    match NameFault.first? [] (s.applications.map (·.name)) with
    | some .empty => some .emptyApplicationName
    | some (.duplicate name) => some (.duplicateApplication name)
    | none => if s.probe.timeoutMs = 0 then some .zeroProbeTimeout else none

/-- The settings, if they are valid. -/
def validate (s : Settings) : Except SettingsError Unit :=
  match s.fault? with
  | some e => .error e
  | none => .ok ()

/-- The application of this name. -/
def application? (s : Settings) (name : String) : Option Application :=
  s.applications.find? (·.name == name)

/-- The URI a member is probed under: that of the first health check of this name. -/
def memberUri? (s : Settings) (name : String) : Option String :=
  (s.healthChecks.find? (·.name == name)).map (·.uri)

/-- The resolved members of an application, in order: those that are registered, each with
its URI. -/
def targets (s : Settings) (app : Application) : List (String × String) :=
  app.members.filterMap fun name => (s.memberUri? name).map (name, ·)

end Settings

/-- The seconds and nanoseconds of the probe timeout. -/
def ProbeSettings.timeoutParts (p : ProbeSettings) : Nat × Nat :=
  (p.timeoutMs.toNat / 1000, p.timeoutMs.toNat % 1000 * 1000000)

end ServiceHealth
