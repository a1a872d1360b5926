import ServiceHealth.Proofs.Report
import ServiceHealth.Status.Encoding

/-!
# Reading reports back

A client that reads the text of a report as a JSON value, and looks its fields up by their keys,
gets back all that the report holds: the name, the status, the counts and every member word for
word and in order, durations up to the last of 64 bits, and an absent payload apart from an empty
one. No text in a report, whatever characters it has, reaches beyond its own field, since the text
of a report is the text of one document only, and that has the keys it always has.

## Main definitions

* `MemberReport.ofJson?` — reading the document of a member.
* `ReportContents`, `ReportContents.ofJson?` — what a client gets of a report, and how.

## Main results

* `ApplicationReport.contents_of_text` — the text of a report gives its contents, and reports with
  one text have the same.
-/

namespace ServiceHealth

/-! ### Values of fields -/

namespace Json

/-- The keys of an object in the order of its fields, with repetitions. -/
def keys : Json → List Literal
  | .object fields => fields.map Prod.fst
  | _ => []

/-- The items of an array. -/
def items? : Json → Option (List Json)
  | .array items => some items
  | _ => none

/-- A natural number that fits in 64 bits. -/
def word? : Json → Option Nat
  | .number n => n.toNat?.filter (· < UInt64.size)
  | _ => none

/-- A text or `null`, which stands for an absent one. -/
def nullable? : Json → Option (Option String)
  | .null => some none
  | .string (some s) => some (some s)
  | _ => none

/-- Numbers of 64 bits are read exactly. -/
theorem word?_nat {n : Nat} (h : n < UInt64.size) : (nat n).word? = some n := by
  rw [word?, Numeral.ofNat, Numeral.toNat?, Option.filter_some, if_pos (decide_eq_true h)]

/-- A text that may be absent is read as it was written; an empty one is not absent. -/
theorem nullable?_getD_null (s : Option String) :
    ((s.map Json.text).getD .null).nullable? = some s := by
  cases s <;> rfl

end Json

/-! ### Members -/

namespace MemberReport

/-- The report on a member that a document stands for. -/
def ofJson? (j : Json) : Option MemberReport := do
  let name ← (← j.field? "name").text?
  let uri ← (← j.field? "uri").text?
  let status ← MemberStatus.ofJson? (← j.field? "status")
  let durationMs ← (← j.field? "durationMs").word?
  let payload ← (← j.field? "payload").nullable?
  return ⟨name, uri, status, durationMs, payload⟩

/-- The report on a member is read from its document. -/
theorem ofJson?_toJson {m : MemberReport} (h : m.durationMs < UInt64.size) :
    ofJson? m.toJson = some m := by
  have hname : m.toJson.field? "name" = some (.text m.name) := rfl
  have huri : m.toJson.field? "uri" = some (.text m.uri) := rfl
  have hstatus : m.toJson.field? "status" = some m.status.toJson := rfl
  have hduration : m.toJson.field? "durationMs" = some (.nat m.durationMs) := rfl
  have hpayload : m.toJson.field? "payload" = some ((m.payload.map Json.text).getD .null) := rfl
  rw [ofJson?, hname, huri, hstatus, hduration, hpayload]
  simp only [Option.bind_eq_bind, Option.bind_some, Json.word?_nat h, Json.nullable?_getD_null]
  rfl

/-- Different reports on members have different documents, whatever their durations. -/
theorem toJson_injective : Function.Injective toJson := by
  intro m m' h
  obtain ⟨hname, huri, hstatus, hduration, hpayload⟩ :
      m.name = m'.name ∧ m.uri = m'.uri ∧ m.status.text = m'.status.text ∧
        m.durationMs = m'.durationMs ∧
        (m.payload.map Json.text).getD .null = (m'.payload.map Json.text).getD .null := by
    simpa [toJson, Json.Numeral.ofNat] using h
  have hpayload' : m.payload = m'.payload := by
    have hread := congrArg Json.nullable? hpayload
    rw [Json.nullable?_getD_null, Json.nullable?_getD_null] at hread
    exact Option.some.inj hread
  obtain ⟨_, _, ⟨_⟩, _, _⟩ := m
  obtain ⟨_, _, ⟨_⟩, _, _⟩ := m'
  subst hname huri hstatus hduration hpayload'
  rfl

/-- Reports on several members are read from their documents, in order. -/
theorem mapM_ofJson?_toJson {ms : List MemberReport} (h : ∀ m ∈ ms, m.durationMs < UInt64.size) :
    (ms.map toJson).mapM ofJson? = some ms := by
  induction ms with
  | nil => rfl
  | cons m ms ih =>
    rw [List.forall_mem_cons] at h
    rw [List.map_cons, List.mapM_cons, ofJson?_toJson h.1, ih h.2]
    rfl

end MemberReport

/-! ### Applications -/

/-- What a client gets of a report. The mean and the moment of the check are for people to read. -/
structure ReportContents where
  name : String
  status : HealthStatus
  healthyCount : Nat
  totalCount : Nat
  members : List MemberReport
  deriving DecidableEq, Repr

/-- The contents of a report. -/
def ApplicationReport.contents (r : ApplicationReport) : ReportContents :=
  ⟨r.name, r.status, r.healthyCount, r.totalCount, r.members⟩

/-- The contents that a document gives. -/
def ReportContents.ofJson? (j : Json) : Option ReportContents := do
  let name ← (← j.field? "name").text?
  let status ← HealthStatus.ofJson? (← j.field? "status")
  let healthyCount ← (← j.field? "healthyCount").word?
  let totalCount ← (← j.field? "totalCount").word?
  let members ← (← (← j.field? "members").items?).mapM MemberReport.ofJson?
  return ⟨name, status, healthyCount, totalCount, members⟩

namespace ApplicationReport

variable {r r' : ApplicationReport}

/-- The contents of a report are read from its document. -/
theorem ofJson?_toJson (hcount : r.members.length < UInt64.size)
    (hsum : r.totalDurationMs < UInt64.size) :
    ReportContents.ofJson? r.toJson = some r.contents := by
  have hname : r.toJson.field? "name" = some (.text r.name) := rfl
  have hstatus : r.toJson.field? "status" = some r.status.toJson := rfl
  have hhealthy : r.toJson.field? "healthyCount" = some (.nat r.healthyCount) := rfl
  have htotal : r.toJson.field? "totalCount" = some (.nat r.totalCount) := rfl
  have hmembers : r.toJson.field? "members" = some (.array (r.members.map MemberReport.toJson)) :=
    rfl
  have hfew : r.healthyCount < UInt64.size := List.countP_le_length.trans_lt hcount
  have hread := MemberReport.mapM_ofJson?_toJson fun m hm =>
    (durationMs_le_total hm).trans_lt hsum
  rw [ReportContents.ofJson?, hname, hstatus, hhealthy, htotal, hmembers]
  simp only [Option.bind_eq_bind, Option.bind_some, HealthStatus.ofJson?_toJson,
    Json.word?_nat hfew, Json.word?_nat (show r.totalCount < UInt64.size from hcount),
    Json.items?, hread]
  rfl

/-- The text of a report is read as its document, which is accepted as a value. -/
theorem parseValue?_render (hcount : r.members.length < UInt64.size)
    (hsum : r.totalDurationMs < UInt64.size) :
    Json.parseValue? r.toJson.render = some r.toJson := by
  rw [(Json.isDocument_render r.toJson).parseValue?_eq, if_pos (withinLimits_toJson hcount hsum)]

/-- The document of a report says its contents, the moment of its check, and no more. -/
theorem toJson_eq_iff : r'.toJson = r.toJson ↔
    r'.contents = r.contents ∧ r'.checkedAt.render = r.checkedAt.render := by
  constructor
  · intro h
    obtain ⟨hname, htime, hdocs⟩ : r'.name = r.name ∧ r'.checkedAt.render = r.checkedAt.render ∧
        r'.members.map MemberReport.toJson = r.members.map MemberReport.toJson := by
      simp only [toJson, Json.object.injEq, List.cons.injEq, Prod.mk.injEq, Json.string.injEq,
        Option.some.injEq, Json.array.injEq, true_and, and_true] at h
      exact ⟨h.1, h.2.2.2.2.2⟩
    have hmembers : r'.members = r.members :=
      MemberReport.toJson_injective.list_map hdocs
    refine ⟨?_, htime⟩
    simp only [contents, status, healthyCount, totalCount, hname, hmembers]
  · rintro ⟨h, htime⟩
    have hname : r'.name = r.name := congrArg ReportContents.name h
    have hmembers : r'.members = r.members := congrArg ReportContents.members h
    have hmean : r'.averageDurationMs = r.averageDurationMs := by
      simp only [averageDurationMs, totalDurationMs, totalCount, hmembers]
    simp only [toJson, status, healthyCount, totalCount, hname, hmembers, hmean, htime]

/-- **The text of a report loses nothing.** Whatever texts the name and the members hold, as long
as the durations together fit in 64 bits (and the number of members does, as a length must), the
text of a report is accepted as a value. That is an object with the seven keys in their order,
whose items of `members` are objects with the five keys of a member, and what is read of it is what
the report holds. No other document is spelled by the text. So two reports have one text only if
their contents are the same, and the moments of their checks are written alike. -/
theorem contents_of_text (hcount : r.members.length < UInt64.size)
    (hsum : r.totalDurationMs < UInt64.size) :
    ∃ doc items, Json.parseValue? r.toJson.render = some doc ∧
      doc.keys = [some "name", some "status", some "healthyCount", some "totalCount",
        some "averageDurationMs", some "checkedAt", some "members"] ∧
      (doc.field? "members").bind Json.items? = some items ∧
      (∀ item ∈ items,
        item.keys = [some "name", some "uri", some "status", some "durationMs", some "payload"]) ∧
      ReportContents.ofJson? doc = some r.contents ∧
      (∀ j, Json.IsDocument j r.toJson.render → j = doc) ∧
      ∀ r' : ApplicationReport, r'.toJson.render = r.toJson.render ↔
        r'.contents = r.contents ∧ r'.checkedAt.render = r.checkedAt.render := by
  have hdoc := Json.isDocument_render r.toJson
  refine ⟨r.toJson, r.members.map MemberReport.toJson, parseValue?_render hcount hsum, rfl, rfl,
    ?_, ?_, ?_, ?_⟩
  · intro item hitem
    obtain ⟨m, -, rfl⟩ := List.mem_map.mp hitem
    rfl
  · exact ofJson?_toJson hcount hsum
  · exact fun j hj => hj.unique hdoc
  · intro r'
    have htext : r'.toJson.render = r.toJson.render ↔ r'.toJson = r.toJson :=
      ⟨Json.render_inj, congrArg Json.render⟩
    exact htext.trans toJson_eq_iff

/-- A report whose texts look like ends of fields, with the longest duration and an empty payload,
and one that has no payload instead. -/
theorem contents_of_text_of_hostile_texts :
    let hostile := "\",\"status\":\"Healthy\",\\\u0000\u001F😀"
    let report (payload : Option String) : ApplicationReport :=
      ⟨hostile, default, [⟨"a", "http://a/", ⟨hostile⟩, UInt64.size - 1, payload⟩,
        ⟨hostile, "", ⟨"HEALTHY"⟩, 0, some hostile⟩]⟩
    (report (some "")).members.length < UInt64.size ∧
    (report (some "")).totalDurationMs < UInt64.size ∧
    (∃ doc, Json.parseValue? (report (some "")).toJson.render = some doc ∧
      ReportContents.ofJson? doc =
        some ⟨hostile, .healthy, 1, 2, (report (some "")).members⟩) ∧
    (report none).toJson.render ≠ (report (some "")).toJson.render := by
  intro hostile report
  have hcount : (report (some "")).members.length < UInt64.size := by decide
  have hsum : (report (some "")).totalDurationMs < UInt64.size := by decide
  obtain ⟨doc, -, hparse, -, -, -, hread, -, htexts⟩ := contents_of_text hcount hsum
  have hstatus : (report (some "")).contents =
      ⟨hostile, .healthy, 1, 2, (report (some "")).members⟩ := by decide +kernel
  refine ⟨hcount, hsum, ⟨doc, hparse, hread.trans (congrArg some hstatus)⟩, fun h => ?_⟩
  have hpayloads : (report none).contents = (report (some "")).contents := ((htexts _).mp h).1
  exact absurd hpayloads (by decide +kernel)

end ApplicationReport

end ServiceHealth
