import ServiceHealth.Status
import ServiceHealth.Text.Blank
import ServiceHealth.Json.Parser

/-!
# The status an answer reports

A member may say how it is: an answer whose body is a JSON object with a string under
`status`, or failing that under `Status`, reports that string word for word. The code of the
answer counts only when there is no such string.

## Main definitions

* `StatusCode` — the codes of HTTP answers, 100 to 999.
* `reportedStatus?` — the status a document reports.
* `classify` — the status of an answer.
-/

namespace ServiceHealth

/-- The code of an HTTP answer. -/
structure StatusCode where
  value : Nat
  lower : 100 ≤ value := by decide
  upper : value < 1000 := by decide
  deriving DecidableEq, Repr

namespace StatusCode

instance : Inhabited StatusCode := ⟨⟨200, by decide, by decide⟩⟩

/-- The code with this value, if there is one. -/
def ofNat? (n : Nat) : Option StatusCode :=
  if h : 100 ≤ n ∧ n < 1000 then some ⟨n, h.1, h.2⟩ else none

/-- The codes of success. -/
def isSuccess (c : StatusCode) : Bool := 200 ≤ c.value && c.value < 300

/-- What the code alone says of the member. -/
def status (c : StatusCode) : HealthStatus := .ofSuccess c.isSuccess

end StatusCode

/-- The status that a document reports: the string under `status`, else the one under
`Status`. -/
def reportedStatus? (doc : Json) : Option String :=
  ((doc.field? "status").bind Json.text?).or ((doc.field? "Status").bind Json.text?)

/-- The status of an answer: what its body reports, or else what its code says. -/
def classify (code : StatusCode) (body : String) : MemberStatus :=
  if Text.isBlank body then .ofHealth code.status
  else
    match (Json.parseValue? body).bind reportedStatus? with
    | some text => ⟨text⟩
    | none => .ofHealth code.status

end ServiceHealth
