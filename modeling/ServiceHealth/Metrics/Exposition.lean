import ServiceHealth.Metrics
import ServiceHealth.Number.Shortest

/-!
# The text form of metrics

Families by name, each under a line of help and a line with its kind, and in a family one
line for every sample, by the values of its labels. Families without samples are left out. In
the value of a label the backslash, the quote and the line end are escaped.

## Main definitions

* `Sample`, `Family` — what is written.
* `Metrics.families` — the families of the metrics, by name.
* `Metrics.render` — the text.
-/

namespace ServiceHealth.Metrics

open Number

/-- A line of a family: what its name ends in, its labels and its value. -/
structure Sample where
  ending : String := ""
  labels : List (String × String)
  value : String
  deriving DecidableEq, Repr

/-- A family of samples. -/
structure Family where
  name : String
  help : String
  kind : String
  samples : List Sample
  deriving DecidableEq, Repr

/-- A character of the value of a label. -/
def escapeChar (c : Char) : List Char :=
  if c = '\\' then ['\\', '\\']
  else if c = '"' then ['\\', '"']
  else if c = '\n' then ['\\', 'n']
  else [c]

/-- The value of a label between its quotes. -/
def escape (s : String) : String := String.ofList (s.toList.flatMap escapeChar)

/-- A label with its value. -/
def labelText (l : String × String) : String := l.1 ++ "=\"" ++ escape l.2 ++ "\""

/-- The line of a sample. -/
def Sample.render (family : String) (s : Sample) : String :=
  family ++ s.ending ++ "\x7b" ++ ",".intercalate (s.labels.map labelText) ++ "\x7d " ++ s.value ++
    "\n"

/-- The lines of a family. -/
def Family.render (f : Family) : String :=
  if f.samples = [] then ""
  else
    "# HELP " ++ f.name ++ " " ++ f.help ++ "\n# TYPE " ++ f.name ++ " " ++ f.kind ++ "\n" ++
      String.join (f.samples.map (Sample.render f.name))

/-- The samples of a gauge, by application. -/
def gaugeSamples (m : Metrics) (g : Gauge) : List Sample :=
  ((m.gauges.sorted fun k => [k.2]).filter fun e => e.1.1 = g).map fun e =>
    { labels := [("application", e.1.2)], value := toString e.2 }

/-- A bound as the value of a label, in seconds. -/
def boundText (ms : Nat) : String := (Histogram.seconds ms).shortest.positional

/-- The samples of the histogram of a member. -/
def histogramSamples (member : String) (h : Histogram) : List Sample :=
  let bucket (bound : String) (n : Nat) : Sample :=
    ⟨"_bucket", [("member", member), ("le", bound)], toString n⟩
  List.zipWith (fun bound n => bucket (boundText bound) n) Histogram.bounds h.below ++
    [bucket "+Inf" h.count,
     ⟨"_sum", [("member", member)], h.sum.shortest.positional⟩,
     ⟨"_count", [("member", member)], toString h.count⟩]

/-- The samples of the probes, by member and then by status. -/
def probeSamples (m : Metrics) : List Sample :=
  (m.probes.sorted fun k => [k.1, k.2.name]).map fun e =>
    { labels := [("member", e.1.1), ("status", e.1.2.name)], value := toString e.2 }

/-- The families of the metrics, by name. -/
def families (m : Metrics) : List Family :=
  [⟨"aggregator_application_healthy_members",
    "Healthy members in the last application check", "gauge", m.gaugeSamples .healthyMembers⟩,
   ⟨"aggregator_application_status",
    "Aggregated application status (0=healthy, 1=degraded, 2=unhealthy, 3=unknown)", "gauge",
    m.gaugeSamples .status⟩,
   ⟨"aggregator_application_total_members",
    "Probed members in the last application check", "gauge", m.gaugeSamples .totalMembers⟩,
   ⟨"aggregator_probe_duration_seconds", "Member probe duration in seconds", "histogram",
    (m.durations.sorted fun k => [k]).flatMap fun e => histogramSamples e.1 e.2⟩,
   ⟨"aggregator_probes_total", "Total member probes by outcome", "counter", m.probeSamples⟩]

/-- The text of the metrics. -/
def render (m : Metrics) : String := String.join (m.families.map Family.render)

example : render {} = "" := by decide +kernel
example : Histogram.bounds.map boundText =
    ["0.005", "0.01", "0.025", "0.05", "0.1", "0.25", "0.5", "1", "2.5", "5", "10"] := by
  decide +kernel

end ServiceHealth.Metrics
