import RequestGuard.Address
import RequestGuard.Attack
import RequestGuard.Console.Action
import RequestGuard.Console.Arguments
import RequestGuard.Console.Command
import RequestGuard.Console.Target
import RequestGuard.Context
import RequestGuard.Endpoint
import RequestGuard.Event
import RequestGuard.Failure
import RequestGuard.Form
import RequestGuard.Guard.Credential
import RequestGuard.Guard.Envelope
import RequestGuard.Guard.Exchange
import RequestGuard.Guard.Journal
import RequestGuard.Guard.Quota
import RequestGuard.Guard.Screening
import RequestGuard.Guard.Stage
import RequestGuard.Guard.Standard
import RequestGuard.Http.MediaType
import RequestGuard.Http.Message
import RequestGuard.Http.Reason
import RequestGuard.Json.Binary64
import RequestGuard.Json.Clean
import RequestGuard.Json.Conform
import RequestGuard.Json.Fault
import RequestGuard.Json.Printer
import RequestGuard.Json.Reader
import RequestGuard.Json.Schema
import RequestGuard.Json.Shortest
import RequestGuard.Json.Skip
import RequestGuard.Json.Value
import RequestGuard.Limiter
import RequestGuard.Main
import RequestGuard.Markup
import RequestGuard.Origin
import RequestGuard.Pattern
import RequestGuard.Record
import RequestGuard.Routing
import RequestGuard.Service
import RequestGuard.Settings.Basic
import RequestGuard.Settings.Reading
import RequestGuard.Settings.Summary
import RequestGuard.Store
import RequestGuard.Tally
import RequestGuard.Text.Character
import RequestGuard.Text.DigitRanges
import RequestGuard.Text.ExtenderRanges
import RequestGuard.Text.HiddenRanges
import RequestGuard.Text.Listing
import RequestGuard.Text.Numeral
import RequestGuard.Text.Quoted
import RequestGuard.Text.UniqueId
import RequestGuard.Text.Utf8
import RequestGuard.Text.WordRanges
import RequestGuard.Token.Base64
import RequestGuard.Token.Claims
import RequestGuard.Token.Credential
import RequestGuard.Token.Key
import RequestGuard.Token.Sha256
import RequestGuard.Validation.Bounds
import RequestGuard.Validation.Path
import RequestGuard.Validation.Request
import RequestGuard.Verifier
import RequestGuard.Wire
import RequestGuard.Proofs.Store.Live
import RequestGuard.Proofs.Text.Numeral
import RequestGuard.Proofs.Text.Utf8
import RequestGuard.Proofs.Store.Operations
import RequestGuard.Proofs.Limiter.Keys
import RequestGuard.Proofs.Limiter.Windows
import RequestGuard.Proofs.Store.Expiring
import RequestGuard.Proofs.Limiter.History
import RequestGuard.Proofs.Limiter.Admission
import RequestGuard.Proofs.Markup.Escaping
import RequestGuard.Proofs.Json.Canonical
import RequestGuard.Proofs.Json.Reading
import RequestGuard.Proofs.Json.Cleaning
import RequestGuard.Proofs.Json.Occurrence
import RequestGuard.Proofs.Validation.Bounds
import RequestGuard.Proofs.Validation.Texts
import RequestGuard.Proofs.Validation.Acceptance
import RequestGuard.Proofs.Json.RoundTrip
import RequestGuard.Proofs.Form
import RequestGuard.Proofs.Validation.Rewriting
import RequestGuard.Proofs.Validation.Rewritten
import RequestGuard.Proofs.Validation.FormFields
import RequestGuard.Proofs.Guard.Gatekeeping
import RequestGuard.Proofs.Limiter.Concurrency
import RequestGuard.Proofs.Limiter.Budgets
import RequestGuard.Proofs.Console.Revoking
import RequestGuard.Proofs.Record.Fields
import RequestGuard.Proofs.Record.Masking
import RequestGuard.Proofs.Token.Acceptance
import RequestGuard.Proofs.Guard.Withholding
import RequestGuard.Proofs.Guard.Trail
import RequestGuard.Proofs.Guard.Correlation
import RequestGuard.Proofs.Markup.Removal
import RequestGuard.Proofs.Validation.Enforcement
import RequestGuard.Proofs.Wire
import RequestGuard.Proofs.Console.Minting
import RequestGuard.Proofs.Markup.Decoding
import RequestGuard.Proofs.Validation.Spots
import RequestGuard.Proofs.Validation.Reporting
import RequestGuard.Proofs.Validation.HostileKeys
import RequestGuard.Proofs.Limiter.Remaining
import RequestGuard.Proofs.Guard.Inherited
import RequestGuard.Proofs.Markup.Growth
import RequestGuard.Proofs.Settings.Exposure
import RequestGuard.Proofs.Store.Residue
import RequestGuard.Proofs.Json.Extent
import RequestGuard.Proofs.Json.Intake
import RequestGuard.Proofs.Json.Magnitude
import RequestGuard.Proofs.Json.NumberIntake
import RequestGuard.Proofs.Form.Growth
import RequestGuard.Proofs.Validation.HandedOn
import RequestGuard.Proofs.Store.Successor
import RequestGuard.Proofs.Console.Restoring
import RequestGuard.Proofs.Guard.Transparency
import RequestGuard.Proofs.Json.SkipIntake
import RequestGuard.Proofs.Json.RecordIntake
import RequestGuard.Proofs.Token.Extent
import RequestGuard.Proofs.Console.Naming
import RequestGuard.Proofs.Pattern.Evasion
import RequestGuard.Proofs.Text.Span
import RequestGuard.Proofs.Address.Spelling
import RequestGuard.Proofs.Address.Reading
import RequestGuard.Proofs.Address.Writing
import RequestGuard.Proofs.Address.Identity
import RequestGuard.Proofs.Validation.Paths
import RequestGuard.Proofs.Validation.Leaves
