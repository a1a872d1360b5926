import ServiceHealth.Proofs.Report.Reading
import ServiceHealth.Proofs.Server.Handler
import ServiceHealth.Proofs.Server.Router
import ServiceHealth.Server.Listener

/-!
# The report of a name

A request for a name, in any encoding and behind any base path, is answered with the report that
the query for this very name gives or, if no application has the name, with a document that says
so. Whatever the characters of a name, it is reached under itself, and who reads the answer gets the
name back from it.

## Main results

* `Handler.answerLine_get` — a request that asks for a resource is handled as it stands.
* `Handler.answerLine_name` — the answer to a request for a name.
-/

namespace ServiceHealth.Server

open Text

namespace Handler

/-- A request that asks for a resource by a legal path is handled as it stands. -/
theorem answerLine_get (h : Handler) (v : Service) {path : String}
    (hlegal : Net.RequestTarget.ofString? path = some ⟨path⟩) :
    h.answerLine v "GET" path = h.handle v ⟨.get, ⟨path⟩⟩ := by
  have hparts : Request.ofParts? "GET" path = some ⟨.get, ⟨path⟩⟩ := by
    rw [Request.ofParts?, hlegal]
    rfl
  rw [answerLine, hparts]
  rfl

/-- **The report of a name.** With valid settings and any application, a request for any encoding
of a name behind the base path is answered with the report of the query for the name, if an
application has it, and else with a document that says that none has. The text of the report is that
of an object under whose keys are the name, the mean and the moment of the check, and as a value it
gives all contents of the report; members are counted, and their durations added up, in words of 64
bits. -/
theorem answerLine_name (h : Handler) (v : Service) (hvalid : v.settings.validate = .ok ())
    (happs : v.settings.applications ≠ []) {name encoded : String} (hname : name ≠ "")
    (hencoded : Percent.Encodes (Percent.bytes name) (Percent.bytes encoded))
    (hlegal : Net.RequestTarget.ofString? (h.basePath ++ "/applications/" ++ encoded) =
      some ⟨h.basePath ++ "/applications/" ++ encoded⟩) :
    (∀ app ∈ v.settings.applications, app.name = name →
      let c := Check.begin h.probing v.settings none v.nextTask 0 app
      let r := c.report h.clock
      ∃ after doc, v.ask h.probing h.clock v.settings none (.get name) = (.ok [c], after) ∧
        r.name = name ∧
        h.answerLine v "GET" (h.basePath ++ "/applications/" ++ encoded) =
          (⟨200, some "application/json", r.toJson.render⟩, [c], after) ∧
        Json.parse? r.toJson.render = some doc ∧
        doc.field? "name" = some (.text name) ∧
        doc.field? "averageDurationMs" = some (.number (.ofDouble r.averageDurationMs)) ∧
        doc.field? "checkedAt" = some (.text r.checkedAt.render) ∧
        (r.members.length < UInt64.size → r.totalDurationMs < UInt64.size →
          Json.parseValue? r.toJson.render = some doc ∧
          ReportContents.ofJson? doc = some r.contents)) ∧
    ((∀ app ∈ v.settings.applications, app.name ≠ name) →
      ∃ body, h.answerLine v "GET" (h.basePath ++ "/applications/" ++ encoded) =
          (⟨404, some "application/json", body⟩, [], v) ∧
        Json.parseValue? body =
          some (.object [(some "message", .text ("Application '" ++ name ++ "' not found"))])) := by
  have hanswer : h.answerLine v "GET" (h.basePath ++ "/applications/" ++ encoded) =
      h.serve v (.get name) := by
    rw [answerLine_get h v hlegal]
    exact handle_of_route h v (route?_name h.basePath hname hencoded) rfl happs
  constructor
  · intro app hmem happ c r
    have hfound : v.settings.application? name = some app :=
      (Settings.application?_eq_some_iff hvalid).mpr ⟨hmem, happ⟩
    have hask := v.ask_get_eq h.probing h.clock v.settings none hfound
    have hown : r.name = name := (Check.name_report ..).trans happ
    have hdoc : r.toJson.field? "name" = some (.text name) := by
      rw [← hown]
      rfl
    refine ⟨_, r.toJson, hask, hown, ?_, Json.parse?_render _, hdoc, rfl, rfl, fun hcount hsum =>
      ⟨ApplicationReport.parseValue?_render hcount hsum,
        ApplicationReport.ofJson?_toJson hcount hsum⟩⟩
    rw [hanswer, serve, hask]
    rfl
  · intro hnone
    have hmissing : v.settings.application? name = none :=
      Settings.application?_eq_none_iff.mpr hnone
    refine ⟨(NotFound.toJson ⟨name⟩).render, ?_, NotFound.parseValue?_toJson ⟨name⟩⟩
    rw [hanswer, serve_get_eq_error h v hmissing]
    rfl

/-- A name with a slash, a quote, a percent sign, a line feed and a letter of two bytes, behind a
base path with two slashes at its end: the application is reached, and its report read back under
this name; without it the name is told. -/
theorem answerLine_of_odd_name :
    let name := "a/\"%é\n"
    let path := "/api//" ++ "/applications/" ++ "%61%2F%22%25%C3%A9%0A"
    let h : Handler :=
      ⟨"/api//", Prober.timed fun _ _ => { outcome := .panic none }, fun _ => default⟩
    let v : Service := { settings := { applications := [⟨name, []⟩] } }
    let other : Service := { settings := { applications := [⟨"b", []⟩] } }
    (∃ body doc, (h.answerLine v "GET" path).1 = ⟨200, some "application/json", body⟩ ∧
      Json.parseValue? body = some doc ∧ doc.field? "name" = some (.text name) ∧
      ReportContents.ofJson? doc = some ⟨name, .unknown, 0, 0, []⟩) ∧
    ∃ body, h.answerLine other "GET" path =
        (⟨404, some "application/json", body⟩, [], other) ∧
      Json.parseValue? body =
        some (.object [(some "message", .text ("Application '" ++ name ++ "' not found"))]) := by
  intro name path h v other
  have hencoded : Percent.Encodes (Percent.bytes name) (Percent.bytes "%61%2F%22%25%C3%A9%0A") := by
    have hall := Percent.encodes_flatMap_encodeByte (Percent.bytes name)
    have hchars : String.ofList ((Percent.bytes name).flatMap Percent.encodeByte) =
        "%61%2F%22%25%C3%A9%0A" := by decide +kernel
    rwa [hchars] at hall
  have hlegal : Net.RequestTarget.ofString? path = some ⟨path⟩ := by decide +kernel
  constructor
  · have happ : ⟨name, []⟩ ∈ v.settings.applications := List.mem_singleton_self _
    obtain ⟨after, doc, -, -, hanswer, -, hname, -, -, hread⟩ := (h.answerLine_name v (by decide)
      (by decide) (by decide) hencoded hlegal).1 _ happ rfl
    obtain ⟨hvalue, hcontents⟩ := hread (by decide +kernel) (by decide +kernel)
    have hnone : ((Check.begin h.probing v.settings none v.nextTask 0 ⟨name, []⟩).report
        h.clock).contents = ⟨name, .unknown, 0, 0, []⟩ := by decide +kernel
    rw [hnone] at hcontents
    exact ⟨_, doc, congrArg Prod.fst hanswer, hvalue, hname, hcontents⟩
  · exact (h.answerLine_name other (by decide) (by decide) (by decide) hencoded hlegal).2
      (by decide)

end Handler

end ServiceHealth.Server
