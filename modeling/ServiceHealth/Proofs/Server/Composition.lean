import ServiceHealth.Proofs.Prober
import ServiceHealth.Proofs.Report
import ServiceHealth.Proofs.Server.Handler
import ServiceHealth.Proofs.Text.Charset

/-!
# Services that probe services

An application of one service may be a member of an application of another one: its URI is then
the path under which the first service reports the application by name. The report travels as the
text of its document, is read back character for character, and its status becomes the status of
the member. No text inside the report, be it a document with a status of its own, changes that.

## Main definitions

* `Response.ArrivesAs` — what a client receives of an answer.

## Main results

* `classify_served_report` — the status of a member that is an application of another service.
-/

namespace ServiceHealth

open Text Number

/-- The document of a report begins with a brace. -/
theorem ApplicationReport.toList_render (r : ApplicationReport) :
    ∃ cs, r.toJson.render.toList = '{' :: cs := by
  rw [Json.render, String.toList_ofList]
  exact ⟨_, rfl⟩

/-- The bytes of a report's document are read back as its text under the type of documents, whatever
decoders the client has. -/
theorem ApplicationReport.bodyText_render (r : ApplicationReport) (decoders : Decoders)
    {head : Net.Head} (htype : head.field? "content-type" = some "application/json") :
    Fetch.bodyText decoders head (Percent.bytes r.toJson.render) = r.toJson.render := by
  obtain ⟨cs, hcs⟩ := r.toList_render
  have hlabel : Net.MediaType.label? "application/json" = none := by decide +kernel
  rw [Fetch.bodyText, htype, Option.bind_some, hlabel]
  exact Charset.decode_bytes hcs (by decide)

namespace Server

/-- A client receives an answer with this head and these bytes: its code, its content type and
the bytes of its body. -/
structure Response.ArrivesAs (response : Response) (head : Net.Head) (bytes : List UInt8) :
    Prop where
  code : head.code.value = response.status
  contentType : head.field? "content-type" = response.contentType
  body : bytes = Percent.bytes response.body

/-- The report that a service answers the query for a name with arrives at the client that
fetches it. -/
theorem Response.ArrivesAs.ofUri_eq {r : ApplicationReport} {head : Net.Head} {bytes : List UInt8}
    (h : (Response.json 200 r.toJson).ArrivesAs head bytes) {network : Net.Network} {uri : String}
    {url : Net.Url} (hurl : Net.Url.parse network.toAscii uri = .ok url)
    (hfetched : Fetch.isFetched url.withoutCredentials = true)
    (htarget : Fetch.isTarget url.withoutCredentials = true) {delay bodyDelay : Nat}
    (hanswer : network.exchange [] url.withoutCredentials =
      .answer delay head (.complete bodyDelay bytes)) :
    Fetch.ofUri network uri =
      { requests := [(0, url.withoutCredentials)]
        ending := some (delay + bodyDelay, .ok ⟨head.code, r.toJson.render⟩) } := by
  have hcode : head.code.value = 200 := h.code
  have hstays : Fetch.isRedirect head.code = false := by
    rw [Fetch.isRedirect, hcode]
    decide
  have htype : head.field? "content-type" = some "application/json" := h.contentType
  rw [Fetch.ofUri_of_answer hurl hfetched htarget hanswer hstays, h.body, Response.json,
    r.bodyText_render network.decoders htype]

/-- **Services compose.** An answer with the document of a report has the status of the report,
whatever its code and whatever texts its members hold; members are counted, and their durations
added up, in words of 64 bits. So a member whose URI leads to the report of an application of
another service, when the report arrives before the timer and before the signal, has the status
of that application, and the report as its payload. -/
theorem classify_served_report (r : ApplicationReport) (hcount : r.members.length < UInt64.size)
    (hsum : r.totalDurationMs < UInt64.size) :
    (∀ code, classify code r.toJson.render = .ofHealth r.status) ∧
    ∀ (h : Handler) (v : Service) (request : Request) (name : String) (app : Application),
      route? h.basePath request.target.path = some (.get name) → request.method = .get →
      v.settings.application? name = some app →
      (Check.begin h.probing v.settings none v.nextTask 0 app).report h.clock = r →
    ∀ (network : Net.Network) (timeoutMs start delay bodyDelay : Nat) (cancelAt : Option Nat)
      (member uri : String) (url : Net.Url) (head : Net.Head) (bytes : List UInt8),
      Net.Url.parse network.toAscii uri = .ok url → Fetch.isFetched url.withoutCredentials = true →
      Fetch.isTarget url.withoutCredentials = true →
      (h.handle v request).1.ArrivesAs head bytes →
      network.exchange [] url.withoutCredentials = .answer delay head (.complete bodyDelay bytes) →
      delay + bodyDelay < max timeoutMs 1 → (∀ c ∈ cancelAt, start + (delay + bodyDelay) < c) →
      Prober.http network timeoutMs member uri start cancelAt =
        { endsAt := start + (delay + bodyDelay)
          outcome := .report
            ⟨member, uri, .ofHealth r.status, delay + bodyDelay, some r.toJson.render⟩
          asked := [url.withoutCredentials] } := by
  have hclassify (code : StatusCode) := r.classify_render code hcount hsum
  refine ⟨hclassify, ?_⟩
  intro h v request name app hroute hget hfound hreport network timeoutMs start delay bodyDelay
    cancelAt member uri url head bytes hurl hfetched htarget harrives hanswer htimer hsignal
  have happs : v.settings.applications ≠ [] := List.ne_nil_of_mem (List.mem_of_find?_eq_some hfound)
  rw [h.handle_of_route v hroute hget happs, h.serve_get_eq v hfound, hreport] at harrives
  have hfetch := harrives.ofUri_eq hurl hfetched htarget hanswer
  rw [Prober.http_of_answer hfetch htimer hsignal, hclassify]
  rfl

/-- A degraded application with a member whose payload is a document that says `Unhealthy`, behind
a quote and a backslash: over the wire it is degraded. -/
theorem classify_served_report_of_document :
    let payload := "\x7b\"status\":\"Unhealthy\",\"path\":\"C:\\\\\"\x7d"
    let h : Handler := ⟨"/api", Prober.timed fun name uri =>
      { delay := 12, outcome := .report ⟨name, uri, ⟨"Degraded"⟩, 12, some payload⟩ },
      fun _ => default⟩
    let app : Application := ⟨"App", ["db"]⟩
    let v : Service :=
      { settings := { healthChecks := [⟨"db", "http://db"⟩], applications := [app] } }
    let r := (Check.begin h.probing v.settings none 1 0 app).report h.clock
    let head : Net.Head :=
      ⟨⟨200, by decide, by decide⟩, [("Content-Type", "application/json")]⟩
    let body := Percent.bytes (h.handle v ⟨.get, ⟨"/api/applications/App"⟩⟩).1.body
    let network : Net.Network := { exchange := fun _ _ => .answer 3 head (.complete 4 body) }
    r.status = .degraded ∧
    (Prober.http network 3000 "Other" "http://b/api/applications/App" 0 none).outcome = .report
      ⟨"Other", "http://b/api/applications/App", ⟨"Degraded"⟩, 7, some r.toJson.render⟩ := by
  intro payload h app v r head body network
  have hstatus : r.status = .degraded := by decide +kernel
  refine ⟨hstatus, ?_⟩
  have hcomposes := (classify_served_report r (by decide +kernel) (by decide +kernel)).2 h v
    ⟨.get, ⟨"/api/applications/App"⟩⟩ "App" app (by decide +kernel) rfl (by decide +kernel) rfl
    network 3000 0 3 4 none "Other" "http://b/api/applications/App"
    ⟨"http", some ⟨"", none, .name "b", none⟩, .segments ["api", "applications", "App"], none, none⟩
    head body (by decide +kernel) (by decide +kernel) (by decide +kernel)
    ⟨by decide +kernel, by decide +kernel, rfl⟩ rfl (by decide) (by simp)
  rw [hcomposes, hstatus]
  rfl

end Server

end ServiceHealth
