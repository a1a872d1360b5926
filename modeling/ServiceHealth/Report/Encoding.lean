import ServiceHealth.Report
import ServiceHealth.Json.Writer

/-!
# Reports as JSON

## Main definitions

* `MemberReport.toJson`, `ApplicationReport.toJson` — the document of a report.
-/

namespace ServiceHealth

/-- The document of a member report: an absent payload is `null`. -/
def MemberReport.toJson (m : MemberReport) : Json :=
  .object [
    (some "name", .text m.name),
    (some "uri", .text m.uri),
    (some "status", .text m.status.text),
    (some "durationMs", .nat m.durationMs),
    (some "payload", (m.payload.map Json.text).getD .null)]

/-- The document of an application report. -/
def ApplicationReport.toJson (r : ApplicationReport) : Json :=
  .object [
    (some "name", .text r.name),
    (some "status", .text r.status.name),
    (some "healthyCount", .nat r.healthyCount),
    (some "totalCount", .nat r.totalCount),
    (some "averageDurationMs", .number (.ofDouble r.averageDurationMs)),
    (some "checkedAt", .text r.checkedAt.render),
    (some "members", .array (r.members.map MemberReport.toJson))]

end ServiceHealth
