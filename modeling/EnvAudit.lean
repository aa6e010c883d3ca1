import EnvAudit.Cli
import EnvAudit.FileTree.Change
import EnvAudit.Json.Printer
import EnvAudit.Main
import EnvAudit.Proofs.AccessOnce
import EnvAudit.Proofs.AccessVariants
import EnvAudit.Proofs.AssignmentPattern
import EnvAudit.Proofs.AtomicExample
import EnvAudit.Proofs.CommitStatus
import EnvAudit.Proofs.EntryLines
import EnvAudit.Proofs.ExampleFindings
import EnvAudit.Proofs.ExampleReparse
import EnvAudit.Proofs.ExampleRequest
import EnvAudit.Proofs.ExampleSecrets
import EnvAudit.Proofs.ExclusionMono
import EnvAudit.Proofs.FileIsolation
import EnvAudit.Proofs.FindingOrder
import EnvAudit.Proofs.FirstEquals
import EnvAudit.Proofs.FirstReadings
import EnvAudit.Proofs.GlobShapes
import EnvAudit.Proofs.KeyAgreement
import EnvAudit.Proofs.LineEdges
import EnvAudit.Proofs.LoadedConfig
import EnvAudit.Proofs.LongRuns
import EnvAudit.Proofs.MaskedSnippets
import EnvAudit.Proofs.OwnConfigFile
import EnvAudit.Proofs.QuotedSecrets
import EnvAudit.Proofs.ReadingBack
import EnvAudit.Proofs.ReportAgreement
import EnvAudit.Proofs.SameLinks
import EnvAudit.Proofs.ScanLimit
import EnvAudit.Proofs.SecretClasses
import EnvAudit.Proofs.SecretSpans
import EnvAudit.Proofs.SizeLimit
import EnvAudit.Proofs.TextFiles
import EnvAudit.Proofs.TrackerAnswers
import EnvAudit.Proofs.UsageGroups
import EnvAudit.Proofs.VerdictOrder
import EnvAudit.Proofs.Walk
import EnvAudit.Proofs.WorkerCount
import EnvAudit.Git.Listing
import EnvAudit.Git.Program
import EnvAudit.Proofs.PathQuestions
