import Federation.Api
import Federation.Api.EvaluationRequest
import Federation.Api.MediaType
import Federation.Api.Request
import Federation.Api.Response
import Federation.Audit.Chain
import Federation.Audit.Record
import Federation.Audit.Timeline
import Federation.Audit.Trail
import Federation.Audit.Writer
import Federation.Authenticator
import Federation.Binary64
import Federation.Binding
import Federation.Binding.Compile
import Federation.Binding.Diff
import Federation.Binding.Digest
import Federation.Binding.Group
import Federation.Binding.Set
import Federation.Claim
import Federation.Command.Arguments
import Federation.Command.ExitCode
import Federation.Command.Line
import Federation.Command.Run
import Federation.Config
import Federation.Config.Domain
import Federation.Credential
import Federation.Decimal.Shortest
import Federation.Decision
import Federation.Evaluate
import Federation.FileSystem
import Federation.FileSystem.Disk
import Federation.Gateway
import Federation.Gateway.Call
import Federation.Gateway.Error
import Federation.Instant
import Federation.Instant.Rfc3339
import Federation.Issuer
import Federation.Issuer.Registry
import Federation.Issuer.Validation
import Federation.Json.Basic
import Federation.Json.Decoder
import Federation.Json.Document
import Federation.Json.Number
import Federation.Json.Printer
import Federation.Jwt
import Federation.Jwt.Algorithm
import Federation.Jwt.Compact
import Federation.Jwt.Header
import Federation.Jwt.Key
import Federation.Keys.Ring
import Federation.Keys.Web
import Federation.Main
import Federation.Policy
import Federation.Proofs.Api.Reload
import Federation.Proofs.Audit.Chain
import Federation.Proofs.Audit.Commitment
import Federation.Proofs.Audit.History
import Federation.Proofs.Audit.Reading
import Federation.Proofs.Audit.Record
import Federation.Proofs.Audit.Recovery
import Federation.Proofs.Audit.Removal
import Federation.Proofs.Audit.Sealed
import Federation.Proofs.Audit.Trail
import Federation.Proofs.Audit.Writer
import Federation.Proofs.Authenticator
import Federation.Proofs.Binding.Compile
import Federation.Proofs.Binding.Diff
import Federation.Proofs.Binding.Drift
import Federation.Proofs.Binding.Group
import Federation.Proofs.Binding.Index
import Federation.Proofs.Binding.Patch
import Federation.Proofs.Binding.Set
import Federation.Proofs.Config.Domain
import Federation.Proofs.Config.Forms
import Federation.Proofs.Config.Order
import Federation.Proofs.Config.Secrets
import Federation.Proofs.Config.Settings
import Federation.Proofs.Decimal
import Federation.Proofs.Evaluate
import Federation.Proofs.Evaluate.Alike
import Federation.Proofs.Evaluate.Ambiguity
import Federation.Proofs.Evaluate.Attributes
import Federation.Proofs.Evaluate.Evidence
import Federation.Proofs.Evaluate.Extension
import Federation.Proofs.Evaluate.Grant
import Federation.Proofs.Evaluate.Isolation
import Federation.Proofs.Evaluate.Outcome
import Federation.Proofs.Evaluate.Reference
import Federation.Proofs.Except
import Federation.Proofs.Gateway.Calls
import Federation.Proofs.Gateway.Revisions
import Federation.Proofs.Gateway.Service
import Federation.Proofs.Gateway.Stage
import Federation.Proofs.Gateway.Traffic
import Federation.Proofs.Gateway.Trail
import Federation.Proofs.Instant
import Federation.Proofs.Issuer.Cycle
import Federation.Proofs.Issuer.Listing
import Federation.Proofs.Issuer.Reading
import Federation.Proofs.Issuer.Registered
import Federation.Proofs.Json.Compact
import Federation.Proofs.Json.Document
import Federation.Proofs.Json.Fields
import Federation.Proofs.Json.Indented
import Federation.Proofs.Json.Legible
import Federation.Proofs.Json.Members
import Federation.Proofs.Json.Number
import Federation.Proofs.Json.Numeral
import Federation.Proofs.Json.Printable
import Federation.Proofs.Json.Quoted
import Federation.Proofs.Json.Typed
import Federation.Proofs.Jwt
import Federation.Proofs.Keys
import Federation.Proofs.Keys.Channel
import Federation.Proofs.Keys.Requests
import Federation.Proofs.Keys.Retention
import Federation.Proofs.Keys.Transparency
import Federation.Proofs.Snapshot.Loading
import Federation.Proofs.Snapshot.Store
import Federation.Proofs.StringMap
import Federation.Proofs.Template
import Federation.Proofs.Template.Filling
import Federation.Proofs.Text.Digits
import Federation.Proofs.Text.Hex
import Federation.Proofs.Text.Utf8
import Federation.Proofs.Token
import Federation.Proofs.Token.Carried
import Federation.Proofs.Token.DryRun
import Federation.Proofs.Toml.Distinct
import Federation.Proofs.Toml.Keys
import Federation.Proofs.Toml.Nested
import Federation.Proofs.Toml.Reading
import Federation.Proofs.Toml.Resolve
import Federation.Revision
import Federation.Sha256
import Federation.Signature.Ecdsa
import Federation.Signature.Modular
import Federation.Signature.Rsa
import Federation.Snapshot
import Federation.Snapshot.Store
import Federation.StringMap
import Federation.StringSet
import Federation.Template
import Federation.Text.Base64Url
import Federation.Text.Blank
import Federation.Text.Digits
import Federation.Text.Hex
import Federation.Text.Split
import Federation.Text.Utf8
import Federation.Token
import Federation.Token.ClaimSet
import Federation.Token.Error
import Federation.Token.Format
import Federation.Toml
import Federation.Toml.Basic
import Federation.Toml.Datetime
import Federation.Toml.Line
import Federation.Toml.Numeral
import Federation.Toml.Quoted
import Federation.Toml.Resolve
import Federation.Toml.Table
import Federation.Url
import Federation.Url.Domain
import Federation.Url.Host
import Federation.Url.Punycode
import Federation.Version
