import PolicyLint.CommandLine.Arguments
import PolicyLint.CommandLine.FileTree
import PolicyLint.CommandLine.Host
import PolicyLint.CommandLine.Log
import PolicyLint.CommandLine.LogFilter
import PolicyLint.CommandLine.Program
import PolicyLint.Decimal.Binary64
import PolicyLint.Decimal.Bounds
import PolicyLint.Decimal.Form
import PolicyLint.Decimal.Shortest
import PolicyLint.Digest.Sha256
import PolicyLint.Glob.FileName
import PolicyLint.Glob.Match
import PolicyLint.Glob.Nesting
import PolicyLint.Glob.Pattern
import PolicyLint.Json.Fault
import PolicyLint.Json.NumberReader
import PolicyLint.Json.Printer
import PolicyLint.Json.Reader
import PolicyLint.Json.Shape
import PolicyLint.Json.Value
import PolicyLint.License.Expr
import PolicyLint.License.Identifier
import PolicyLint.License.Reader
import PolicyLint.License.Token
import PolicyLint.Lint.Check
import PolicyLint.Lint.Checks.Clarifications
import PolicyLint.Lint.Checks.ConfidenceThreshold
import PolicyLint.Lint.Checks.Exceptions
import PolicyLint.Lint.Checks.LicenseLists
import PolicyLint.Lint.Checks.Packages
import PolicyLint.Lint.Checks.SkipEntries
import PolicyLint.Lint.Checks.UnknownKeys
import PolicyLint.Lint.Explanation
import PolicyLint.Lint.Finding
import PolicyLint.Lint.Fingerprint
import PolicyLint.Lint.Issue
import PolicyLint.Lint.Plan
import PolicyLint.Lint.Run
import PolicyLint.Lint.Severity
import PolicyLint.Main
import PolicyLint.Policy.Document
import PolicyLint.Policy.FilePath
import PolicyLint.Policy.KnownKeys
import PolicyLint.Policy.Load
import PolicyLint.Policy.Model
import PolicyLint.Report.Annotations
import PolicyLint.Report.Basic
import PolicyLint.Report.Check
import PolicyLint.Report.Markdown
import PolicyLint.Report.Normal
import PolicyLint.Report.Reader
import PolicyLint.Report.Schema
import PolicyLint.Report.Writer
import PolicyLint.Settings.Document
import PolicyLint.Settings.Load
import PolicyLint.Settings.Resolve
import PolicyLint.Text.Blank
import PolicyLint.Text.Bytes
import PolicyLint.Text.Digits
import PolicyLint.Text.Mismatch
import PolicyLint.Text.Printable
import PolicyLint.Text.Quoted
import PolicyLint.Text.Span
import PolicyLint.Text.Split
import PolicyLint.Text.Taken
import PolicyLint.Text.Trail
import PolicyLint.Time.Calendar
import PolicyLint.Time.Stamp
import PolicyLint.Toml.Document
import PolicyLint.Toml.Excerpt
import PolicyLint.Toml.Fault
import PolicyLint.Toml.Meaning
import PolicyLint.Toml.Moment
import PolicyLint.Toml.Node
import PolicyLint.Toml.Number
import PolicyLint.Toml.Quoted
import PolicyLint.Toml.Scalar
import PolicyLint.Toml.Shape
import PolicyLint.Toml.Statement
import PolicyLint.Toml.Table
import PolicyLint.Toml.Token
import PolicyLint.Version.Requirement
import PolicyLint.Proofs.License.Lexemes
import PolicyLint.Proofs.License.Grammar
import PolicyLint.Proofs.License.Readers
import PolicyLint.Proofs.License.Completeness
import PolicyLint.Proofs.License.Soundness
import PolicyLint.Proofs.License.Acceptance
import PolicyLint.Proofs.License.Regrouping
import PolicyLint.Proofs.License.Written
import PolicyLint.Proofs.License.RoundTrip
import PolicyLint.Proofs.License.Single
import PolicyLint.Proofs.Decimal.Value
import PolicyLint.Proofs.Lint.WellFormed
import PolicyLint.Proofs.Lint.Clarifications
import PolicyLint.Proofs.Lint.Exactness
import PolicyLint.Proofs.Toml.DistinctKeys
import PolicyLint.Proofs.Toml.Paths
import PolicyLint.Proofs.Toml.Records
import PolicyLint.Proofs.Toml.Parts
import PolicyLint.Proofs.Toml.Heeded
import PolicyLint.Proofs.Policy.Records
import PolicyLint.Proofs.Policy.Places
import PolicyLint.Proofs.Policy.Labels
import PolicyLint.Proofs.Policy.Walk
import PolicyLint.Proofs.Policy.IgnoredKeys
import PolicyLint.Proofs.Policy.ReportedKeys
import PolicyLint.Proofs.Policy.Checksums
import PolicyLint.Proofs.Toml.Removal
import PolicyLint.Proofs.Lint.Order
import PolicyLint.Proofs.Lint.Truncation
import PolicyLint.Proofs.Lint.Suppression
import PolicyLint.Proofs.Lint.Independence
import PolicyLint.Proofs.Lint.Walks
import PolicyLint.Proofs.Lint.LicenseIssues
import PolicyLint.Proofs.Lint.Repeats
import PolicyLint.Proofs.Version.Blanks
import PolicyLint.Proofs.Lint.Versions
import PolicyLint.Proofs.Glob.Literals
import PolicyLint.Proofs.Lint.Fingerprints
import PolicyLint.Proofs.Lint.Stability
import PolicyLint.Proofs.Text.Lines
import PolicyLint.Proofs.Text.Digits
import PolicyLint.Proofs.Time.Stamps
import PolicyLint.Proofs.Json.Members
import PolicyLint.Proofs.Json.Numbers
import PolicyLint.Proofs.Json.Strings
import PolicyLint.Proofs.Json.Readers
import PolicyLint.Proofs.Json.Canonical
import PolicyLint.Proofs.Json.Flat
import PolicyLint.Proofs.Json.RoundTrip
import PolicyLint.Proofs.Json.Records
import PolicyLint.Proofs.Json.Fields
import PolicyLint.Proofs.Lint.Emission
import PolicyLint.Proofs.Lint.Provenance
import PolicyLint.Proofs.Report.Consistency
import PolicyLint.Proofs.Report.RoundTrip
import PolicyLint.Proofs.Report.Runs
import PolicyLint.Proofs.CommandLine.Steps
import PolicyLint.Proofs.CommandLine.ExitCode
import PolicyLint.Proofs.CommandLine.Rendering
import PolicyLint.Proofs.Text.Offsets
import PolicyLint.Proofs.License.Tokens
import PolicyLint.Proofs.License.Failures
import PolicyLint.Proofs.License.Faults
import PolicyLint.Proofs.License.Beginnings
import PolicyLint.Proofs.License.Parentheses
import PolicyLint.Proofs.License.Completion
import PolicyLint.Proofs.License.Agreement
import PolicyLint.Proofs.License.Requirements
import PolicyLint.Proofs.Settings.Layers
import PolicyLint.Proofs.Report.Commands
import PolicyLint.Proofs.Report.Tables
import PolicyLint.Proofs.Lint.Respelling
import PolicyLint.Proofs.Lint.PassedOver
import PolicyLint.Proofs.Glob.Effects
import PolicyLint.Proofs.Lint.Silence
import PolicyLint.Proofs.Settings.Globs
import PolicyLint.Proofs.Lint.Advice
import PolicyLint.Proofs.Report.Hints
import PolicyLint.Proofs.Policy.FilePaths
import PolicyLint.Proofs.Report.Paths
import PolicyLint.Proofs.Lint.Identities
import PolicyLint.Proofs.Lint.Containment
import PolicyLint.Proofs.Policy.Positions
import PolicyLint.Proofs.Json.Paths
import PolicyLint.Proofs.Report.NormalForms
import PolicyLint.Proofs.Toml.MovedSpans
import PolicyLint.Proofs.Policy.MovedText
import PolicyLint.Proofs.Lint.Relocation
import PolicyLint.Proofs.License.Tiling
import PolicyLint.Proofs.License.BareNames
import PolicyLint.Proofs.License.Machine
import PolicyLint.Proofs.License.Counters
