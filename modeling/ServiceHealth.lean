import ServiceHealth.Cancel
import ServiceHealth.Check
import ServiceHealth.Classification
import ServiceHealth.Join
import ServiceHealth.Json.Basic
import ServiceHealth.Json.Literal
import ServiceHealth.Json.Numeral
import ServiceHealth.Json.Parser
import ServiceHealth.Json.Token
import ServiceHealth.Json.Writer
import ServiceHealth.Main
import ServiceHealth.Metrics
import ServiceHealth.Metrics.Exposition
import ServiceHealth.Metrics.Series
import ServiceHealth.Net.Address
import ServiceHealth.Net.Host
import ServiceHealth.Net.MediaType
import ServiceHealth.Net.Message
import ServiceHealth.Net.Network
import ServiceHealth.Net.RequestTarget
import ServiceHealth.Net.Url
import ServiceHealth.Net.Url.Reader
import ServiceHealth.Number.Binary64
import ServiceHealth.Number.Digit
import ServiceHealth.Number.Radix
import ServiceHealth.Number.Shortest
import ServiceHealth.Prober
import ServiceHealth.Prober.Fetch
import ServiceHealth.Prober.Http
import ServiceHealth.Program
import ServiceHealth.Proofs.Cancel
import ServiceHealth.Proofs.Cancel.Descent
import ServiceHealth.Proofs.Cancel.Wakeup
import ServiceHealth.Proofs.Check.Duration
import ServiceHealth.Proofs.Check.Isolation
import ServiceHealth.Proofs.Check.Members
import ServiceHealth.Proofs.Check.Outcomes
import ServiceHealth.Proofs.Check.Timeline
import ServiceHealth.Proofs.Classification
import ServiceHealth.Proofs.Join
import ServiceHealth.Proofs.Json.Grammar
import ServiceHealth.Proofs.Json.Literal
import ServiceHealth.Proofs.Json.Numeral
import ServiceHealth.Proofs.Json.Range
import ServiceHealth.Proofs.Json.Reading
import ServiceHealth.Proofs.Json.Recognition
import ServiceHealth.Proofs.Json.Scan
import ServiceHealth.Proofs.Json.Value
import ServiceHealth.Proofs.Metrics
import ServiceHealth.Proofs.Metrics.Growth
import ServiceHealth.Proofs.Metrics.Overlap
import ServiceHealth.Proofs.Metrics.Recount
import ServiceHealth.Proofs.Metrics.Tally
import ServiceHealth.Proofs.Net.Address
import ServiceHealth.Proofs.Number.Binary64
import ServiceHealth.Proofs.Number.HexDigit
import ServiceHealth.Proofs.Number.Nearest
import ServiceHealth.Proofs.Number.Positional
import ServiceHealth.Proofs.Number.Shortest
import ServiceHealth.Proofs.Number.ShortestReading
import ServiceHealth.Proofs.Prober
import ServiceHealth.Proofs.Prober.Race
import ServiceHealth.Proofs.Prober.Reporting
import ServiceHealth.Proofs.Prober.TimeoutText
import ServiceHealth.Proofs.Program
import ServiceHealth.Proofs.Program.Shutdown
import ServiceHealth.Proofs.Program.Timeout
import ServiceHealth.Proofs.Report
import ServiceHealth.Proofs.Report.Mean
import ServiceHealth.Proofs.Report.Reading
import ServiceHealth.Proofs.Report.Summary
import ServiceHealth.Proofs.Server.Abandonment
import ServiceHealth.Proofs.Server.Composition
import ServiceHealth.Proofs.Server.Decision
import ServiceHealth.Proofs.Server.Flight
import ServiceHealth.Proofs.Server.Handler
import ServiceHealth.Proofs.Server.Interleaving
import ServiceHealth.Proofs.Server.ListAndGet
import ServiceHealth.Proofs.Server.NamedReport
import ServiceHealth.Proofs.Server.PathLanguage
import ServiceHealth.Proofs.Server.Replay
import ServiceHealth.Proofs.Server.Router
import ServiceHealth.Proofs.Service
import ServiceHealth.Proofs.Service.Activity
import ServiceHealth.Proofs.Service.Arrangement
import ServiceHealth.Proofs.Service.Call
import ServiceHealth.Proofs.Settings
import ServiceHealth.Proofs.Settings.File
import ServiceHealth.Proofs.Settings.Reading
import ServiceHealth.Proofs.Settings.Validation
import ServiceHealth.Proofs.Status
import ServiceHealth.Proofs.Status.Counts
import ServiceHealth.Proofs.Text.AsciiCase
import ServiceHealth.Proofs.Text.Charset
import ServiceHealth.Proofs.Text.Percent
import ServiceHealth.Query
import ServiceHealth.Report
import ServiceHealth.Report.Encoding
import ServiceHealth.Server.Handler
import ServiceHealth.Server.Listener
import ServiceHealth.Server.Message
import ServiceHealth.Server.Router
import ServiceHealth.Service
import ServiceHealth.Settings
import ServiceHealth.Settings.Decoding
import ServiceHealth.Settings.Encoding
import ServiceHealth.Settings.File
import ServiceHealth.Settings.FromYaml
import ServiceHealth.Status
import ServiceHealth.Status.Encoding
import ServiceHealth.Text.AsciiCase
import ServiceHealth.Text.Blank
import ServiceHealth.Text.Charset
import ServiceHealth.Text.Percent
import ServiceHealth.Text.Printable
import ServiceHealth.Text.Quoted
import ServiceHealth.Text.Utf8
import ServiceHealth.Timestamp
import ServiceHealth.Yaml.Cursor
import ServiceHealth.Yaml.Node
import ServiceHealth.Yaml.Token
import ServiceHealth.Yaml.Token.Block
import ServiceHealth.Yaml.Token.Folding
import ServiceHealth.Yaml.Token.Lexer
import ServiceHealth.Yaml.Token.Plain
import ServiceHealth.Yaml.Token.Property
import ServiceHealth.Yaml.Token.Quoted
import ServiceHealth.Proofs.Classification.Spelling
