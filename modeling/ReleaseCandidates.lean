import ReleaseCandidates.Calendar
import ReleaseCandidates.Catalogue
import ReleaseCandidates.Catalogue.Cache
import ReleaseCandidates.CommandLine
import ReleaseCandidates.CommandLine.Reader
import ReleaseCandidates.Component
import ReleaseCandidates.Configuration
import ReleaseCandidates.Configuration.Layout
import ReleaseCandidates.Configuration.Stored
import ReleaseCandidates.Failure
import ReleaseCandidates.FileSystem
import ReleaseCandidates.FileSystem.Arrange
import ReleaseCandidates.FileSystem.OsError
import ReleaseCandidates.FileSystem.Path
import ReleaseCandidates.FileSystem.Problem
import ReleaseCandidates.FileSystem.Regular
import ReleaseCandidates.FileSystem.Replace
import ReleaseCandidates.FileSystem.Stepwise
import ReleaseCandidates.Forge.Api
import ReleaseCandidates.Http.Exchange
import ReleaseCandidates.Http.Fault
import ReleaseCandidates.Http.Payload
import ReleaseCandidates.Http.Payload.Reader
import ReleaseCandidates.Http.Percent
import ReleaseCandidates.Http.Url
import ReleaseCandidates.ImageReference
import ReleaseCandidates.Instant
import ReleaseCandidates.Instant.Text
import ReleaseCandidates.Main
import ReleaseCandidates.NamedVersion
import ReleaseCandidates.NamedVersion.Layout
import ReleaseCandidates.NamedVersion.Stored
import ReleaseCandidates.Playbook
import ReleaseCandidates.Program
import ReleaseCandidates.Program.ExitCode
import ReleaseCandidates.Program.Report
import ReleaseCandidates.Proofs.FileSystem.Elsewhere
import ReleaseCandidates.Proofs.FileSystem.Replaced
import ReleaseCandidates.Proofs.FileSystem.Walks
import ReleaseCandidates.Proofs.Http.Percent
import ReleaseCandidates.Proofs.Scan.Findings
import ReleaseCandidates.Proofs.Scan.Schedules
import ReleaseCandidates.Proofs.SnapshotLog.Changes
import ReleaseCandidates.Proofs.SnapshotLog.Decoding
import ReleaseCandidates.Proofs.SnapshotLog.History
import ReleaseCandidates.Proofs.SnapshotLog.OnFile
import ReleaseCandidates.Proofs.SnapshotLog.RoundTrip
import ReleaseCandidates.Proofs.Tag.AtMostOnce
import ReleaseCandidates.Proofs.Tag.Calls
import ReleaseCandidates.Proofs.Tag.Orderly
import ReleaseCandidates.Proofs.Tag.Settling
import ReleaseCandidates.Proofs.Tag.Steps
import ReleaseCandidates.Proofs.TestRun.Verdict
import ReleaseCandidates.Proofs.Text.Cutting
import ReleaseCandidates.Proofs.Yaml.Building
import ReleaseCandidates.Proofs.Yaml.EscapedText
import ReleaseCandidates.Proofs.Yaml.LineScalars
import ReleaseCandidates.Proofs.Yaml.LineTokens
import ReleaseCandidates.Proofs.Yaml.LiteralText
import ReleaseCandidates.Proofs.Yaml.PlainText
import ReleaseCandidates.Proofs.Yaml.QuotedText
import ReleaseCandidates.Proofs.Yaml.RoundTrip
import ReleaseCandidates.Proofs.Yaml.Stepping
import ReleaseCandidates.Proofs.Yaml.Storable
import ReleaseCandidates.Proofs.Yaml.TreeLines
import ReleaseCandidates.Proofs.Yaml.Walking
import ReleaseCandidates.Registry
import ReleaseCandidates.Release
import ReleaseCandidates.RepositoryId
import ReleaseCandidates.Resolution
import ReleaseCandidates.Scan
import ReleaseCandidates.Snapshot
import ReleaseCandidates.Snapshot.Status
import ReleaseCandidates.SnapshotLog
import ReleaseCandidates.SnapshotLog.Layout
import ReleaseCandidates.SnapshotLog.Stored
import ReleaseCandidates.Tag.Plan
import ReleaseCandidates.Tag.Reconcile
import ReleaseCandidates.Tag.Report
import ReleaseCandidates.TestEnvironment
import ReleaseCandidates.TestRun
import ReleaseCandidates.Text.Blank
import ReleaseCandidates.Text.Case
import ReleaseCandidates.Text.Pieces
import ReleaseCandidates.TrackedRepository
import ReleaseCandidates.Yaml.Cursor
import ReleaseCandidates.Yaml.Document
import ReleaseCandidates.Yaml.Fault
import ReleaseCandidates.Yaml.Meaning
import ReleaseCandidates.Yaml.Node
import ReleaseCandidates.Yaml.Record
import ReleaseCandidates.Yaml.Token.Basic
import ReleaseCandidates.Yaml.Token.Scan
import ReleaseCandidates.Yaml.Token.Tag
import ReleaseCandidates.Yaml.Token.Text
import ReleaseCandidates.Yaml.Tree
import ReleaseCandidates.Proofs.Http.Address
import ReleaseCandidates.Proofs.Forge.Requests
import ReleaseCandidates.Proofs.Forge.Confinement
import ReleaseCandidates.Proofs.Forge.TagProbe
import ReleaseCandidates.Proofs.Tag.Commits
import ReleaseCandidates.Proofs.Tag.Selection
import ReleaseCandidates.Proofs.TestEnvironment.Exports
import ReleaseCandidates.Proofs.TestEnvironment.Pairing
import ReleaseCandidates.Proofs.Instant.Dates
import ReleaseCandidates.Proofs.Instant.Spelling
import ReleaseCandidates.Proofs.Instant.TextOrder
import ReleaseCandidates.Proofs.SnapshotLog.Identity
import ReleaseCandidates.Proofs.Resolution.Answers
import ReleaseCandidates.Proofs.TestEnvironment.Silence
import ReleaseCandidates.Proofs.TestRun.Meanwhile
import ReleaseCandidates.Proofs.SnapshotLog.Turns
import ReleaseCandidates.Proofs.TestRun.Draining
import ReleaseCandidates.Proofs.TestRun.Endings
import ReleaseCandidates.Proofs.FileSystem.AllOrNothing
import ReleaseCandidates.Proofs.FileSystem.Parents
import ReleaseCandidates.Proofs.Program.TestCommand
import ReleaseCandidates.Proofs.Scan.Recording
import ReleaseCandidates.Proofs.Program.ScanCommand
import ReleaseCandidates.Proofs.Tag.Grouping
import ReleaseCandidates.Proofs.Tag.Outcomes
import ReleaseCandidates.Proofs.Tag.Isolation
import ReleaseCandidates.Proofs.Program.TagCommand
import ReleaseCandidates.Proofs.Catalogue.Sharing
import ReleaseCandidates.Proofs.Catalogue.Transparency
import ReleaseCandidates.Proofs.Text.Trimming
import ReleaseCandidates.Proofs.RepositoryId.Canonical
import ReleaseCandidates.Proofs.SnapshotLog.Newest
import ReleaseCandidates.Proofs.SnapshotLog.Tangles
import ReleaseCandidates.Proofs.Yaml.Notations
import ReleaseCandidates.Proofs.Yaml.Tables
import ReleaseCandidates.Proofs.SnapshotLog.OlderLayouts
import ReleaseCandidates.Proofs.RepositoryId.Owners
import ReleaseCandidates.Proofs.Resolution.Probes
import ReleaseCandidates.Proofs.ImageReference.Reading
import ReleaseCandidates.Proofs.Http.Hosts
import ReleaseCandidates.Proofs.Http.Paths
import ReleaseCandidates.Proofs.Registry.Requests
import ReleaseCandidates.Proofs.Registry.Addressing
import ReleaseCandidates.Proofs.Resolution.Recorded
import ReleaseCandidates.Proofs.Resolution.Fallback
import ReleaseCandidates.Proofs.Tag.DryRuns
import ReleaseCandidates.Proofs.Tag.Roles
import ReleaseCandidates.Proofs.Tag.OneByOne
import ReleaseCandidates.Proofs.TestEnvironment.LastValues
import ReleaseCandidates.Proofs.TestRun.DryRun
import ReleaseCandidates.Proofs.Instant.Stored
import ReleaseCandidates.Proofs.Instant.SignedYears
import ReleaseCandidates.Proofs.TestRun.Moment
