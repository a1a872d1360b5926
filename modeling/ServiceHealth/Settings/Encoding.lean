import ServiceHealth.Settings
import ServiceHealth.Json.Writer

/-!
# Settings as JSON

Every key is written, in the order of the declarations.

## Main definitions

* `Settings.toJson` and the documents of its parts.
-/

namespace ServiceHealth

/-- The document of a health check. -/
def HealthCheck.toJson (c : HealthCheck) : Json :=
  .object [(some "name", .text c.name), (some "uri", .text c.uri)]

/-- The document of an application. -/
def Application.toJson (a : Application) : Json :=
  .object [(some "name", .text a.name), (some "members", .array (a.members.map Json.text))]

/-- The document of the probe settings. -/
def ProbeSettings.toJson (p : ProbeSettings) : Json :=
  .object [(some "timeout_ms", .nat p.timeoutMs.toNat)]

/-- The document of the server settings. -/
def ServerSettings.toJson (s : ServerSettings) : Json :=
  .object [(some "listen_addr", .text s.listenAddress.render),
    (some "base_path", .text s.basePath)]

/-- The document of the metrics settings. -/
def MetricsSettings.toJson (m : MetricsSettings) : Json :=
  .object [(some "enabled", .bool m.enabled), (some "port", .nat m.port.toNat),
    (some "path", .text m.path)]

/-- The document of the settings. -/
def Settings.toJson (s : Settings) : Json :=
  .object [
    (some "health_checks", .array (s.healthChecks.map HealthCheck.toJson)),
    (some "applications", .array (s.applications.map Application.toJson)),
    (some "probe", s.probe.toJson),
    (some "server", s.server.toJson),
    (some "metrics", s.metrics.toJson)]

end ServiceHealth
