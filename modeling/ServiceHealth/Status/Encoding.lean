import ServiceHealth.Status
import ServiceHealth.Json.Basic

/-!
# Statuses as JSON

A canonical status is written as its name. It is read from its exact name, or from an object
whose only field has that name as its key and `null` as its value. A member's status is any
string.

## Main definitions

* `HealthStatus.toJson`, `HealthStatus.ofJson?`.
* `MemberStatus.toJson`, `MemberStatus.ofJson?`.
-/

namespace ServiceHealth

/-- The document of a canonical status. -/
def HealthStatus.toJson (s : HealthStatus) : Json := .text s.name

/-- The canonical status that a document stands for. -/
def HealthStatus.ofJson? : Json → Option HealthStatus
  | .string (some s) => ofName? s
  | .object [(some s, .null)] => ofName? s
  | _ => none

/-- The document of a member's status. -/
def MemberStatus.toJson (m : MemberStatus) : Json := .text m.text

/-- The status that a document stands for. -/
def MemberStatus.ofJson? (j : Json) : Option MemberStatus := j.text?.map MemberStatus.mk

theorem HealthStatus.ofJson?_toJson (s : HealthStatus) : ofJson? s.toJson = some s := by
  cases s <;> decide

end ServiceHealth
