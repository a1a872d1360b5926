import ServiceHealth.Text.AsciiCase

/-!
# Health statuses

An application always has one of five canonical statuses. A member reports any text it
likes: the text is kept as it stands and compared with the canonical names up to ASCII
case. `aggregate` folds the statuses of an application's members into one of the five,
the worst deciding.

## Main definitions

* `HealthStatus`, `HealthStatus.name` — the canonical statuses and their names.
* `MemberStatus`, `MemberStatus.names` — a reported text, and the canonical status it names.
* `MemberStatus.canonical` — the canonical status a text is counted under.
* `aggregateFrom`, `aggregate` — the status of a group of members, looked at one by one.

## Main results

* `HealthStatus.names_iff_eq` — a canonical name names its own status and no other.
* `MemberStatus.names_unique` — a text names at most one canonical status.
-/

namespace ServiceHealth

open Text

/-- The canonical statuses. -/
inductive HealthStatus
  | healthy | degraded | unhealthy | unreachable | unknown
  deriving DecidableEq, Repr, Inhabited

namespace HealthStatus

/-- All canonical statuses, from best to worst and `unknown` last. -/
def all : List HealthStatus := [healthy, degraded, unhealthy, unreachable, unknown]

/-- The name under which a status is written. -/
def name : HealthStatus → String
  | healthy => "Healthy"
  | degraded => "Degraded"
  | unhealthy => "Unhealthy"
  | unreachable => "Unreachable"
  | unknown => "Unknown"

/-- The status that has exactly this name. -/
def ofName? (s : String) : Option HealthStatus := all.find? (·.name == s)

/-- A success answer means healthy, any other answer unhealthy. -/
def ofSuccess (success : Bool) : HealthStatus := if success then healthy else unhealthy

theorem mem_all (s : HealthStatus) : s ∈ all := by cases s <;> decide

theorem foldCase_name_injective {s t : HealthStatus}
    (h : foldCase s.name = foldCase t.name) : s = t := by
  revert h
  cases s <;> cases t <;> decide

end HealthStatus

/-- A member's status as it was reported, kept verbatim. -/
structure MemberStatus where
  text : String
  deriving DecidableEq, Repr, Inhabited

namespace MemberStatus

/-- The text names the status `s`, up to ASCII case. -/
def names (m : MemberStatus) (s : HealthStatus) : Bool := sameFolded m.text s.name

/-- The canonical status that a text is counted under; a text that names none of them is
`unknown`. -/
def canonical (m : MemberStatus) : HealthStatus :=
  ([.healthy, .degraded, .unhealthy, .unreachable].find? m.names).getD .unknown

/-- A canonical status as a member would report it. -/
def ofHealth (s : HealthStatus) : MemberStatus := ⟨s.name⟩

instance : Coe HealthStatus MemberStatus := ⟨ofHealth⟩

/-- A text names at most one canonical status. -/
theorem names_unique {m : MemberStatus} {s t : HealthStatus}
    (hs : m.names s = true) (ht : m.names t = true) : s = t := by
  rw [names, sameFolded_iff] at hs ht
  exact HealthStatus.foldCase_name_injective (hs.symm.trans ht)

end MemberStatus

/-- A canonical name names its own status and no other. -/
theorem HealthStatus.names_iff_eq {s t : HealthStatus} :
    (MemberStatus.ofHealth s).names t = true ↔ s = t := by
  cases s <;> cases t <;> decide

/-- The status of a group of members behind those that were looked at already: none of these is
unhealthy or unreachable, and the flags say whether one is degraded and whether one is healthy. -/
def aggregateFrom (degraded healthy : Bool) : List MemberStatus → HealthStatus
  | [] => if degraded then .degraded else if healthy then .healthy else .unknown
  | m :: ms =>
    if m.names .unhealthy || m.names .unreachable then .unhealthy
    else aggregateFrom (degraded || m.names .degraded) (healthy || m.names .healthy) ms

/-- The status of a group of members, the worst deciding: unhealthy as soon as a member is
unhealthy or unreachable, else degraded, else healthy; unknown when no member names any of
the four, and for no members at all. -/
def aggregate (members : List MemberStatus) : HealthStatus := aggregateFrom false false members

end ServiceHealth
