import ServiceHealth.Prober.Http
import ServiceHealth.Server.Listener
import ServiceHealth.Settings.File

/-!
# The program

A run of the program begins with the settings of its file. A hangup reloads the file: valid
settings become current, and otherwise the current ones stay. The base path, the addresses and
the timeout of probes are those of the start.

## Main definitions

* `settingsPath` — the file that is named on the command line.
* `Program`, `Program.start`, `Program.reload` — a run, its start and a hangup.
* `Program.answer`, `Program.answerMetrics?` — the answers to requests.
-/

namespace ServiceHealth

open Net

/-- The file of the settings: the first argument, or a default. -/
def settingsPath (arguments : List String) : String := arguments.headD "config.yaml"

/-- A run of the program: its file, the settings it started with, and what queries share. -/
structure Program where
  path : String
  initial : Settings
  service : Service
  deriving DecidableEq, Repr

namespace Program

/-- A run that begins with the file at a path, whose bytes are absent when it cannot be
read. -/
def start (path : String) (bytes : Option ByteArray) : Except LoadError Program := do
  let s ← Settings.load path bytes
  return ⟨path, s, .ofSettings s s.metrics.enabled⟩

/-- The run after a hangup, and what came of loading the file. -/
def reload (p : Program) (bytes : Option ByteArray) : Except LoadError Settings × Program :=
  match Settings.load p.path bytes with
  | .ok s => (.ok s, { p with service := p.service.swap s })
  | .error e => (.error e, p)

/-- What is told of settings that were loaded at the start. -/
def loadedText (s : Settings) : String :=
  toString s.applications.length ++ " applications over " ++ toString s.healthChecks.length ++
    " health checks"

/-- What is told of settings that were loaded again. -/
def reloadedText (s : Settings) : String := toString s.applications.length ++ " applications"

/-- What is told when the program ends with an error. -/
def errorText (e : LoadError) : String := "Error: " ++ e.message

/-- The handler of a run: its base path and its timeout are those of the start. -/
def handler (p : Program) (network : Network) (clock : Nat → Timestamp) : Server.Handler :=
  ⟨p.initial.server.basePath, Prober.http network p.initial.probe.timeoutMs.toNat, clock⟩

/-- The answer to a first line, and the run after it. -/
def answer (p : Program) (network : Network) (clock : Nat → Timestamp) (method target : String) :
    Server.Response × Program :=
  let (response, _, service) := (p.handler network clock).answerLine p.service method target
  (response, { p with service })

/-- The answer of the server of metrics to a first line, if there is one. -/
def answerMetrics? (p : Program) (method target : String) : Option Server.Response :=
  p.service.metrics.map fun m =>
    Server.answerMetricsLine p.initial.metrics.path m method target

end Program

end ServiceHealth
