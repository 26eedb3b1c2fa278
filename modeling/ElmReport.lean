import ElmReport.Main
import ElmReport.Proofs.Compiler.Framing
import ElmReport.Proofs.Compiler.Session
import ElmReport.Proofs.Diagnostic.Conservation
import ElmReport.Proofs.Diagnostic.Publication
import ElmReport.Proofs.FileUri.Trip
import ElmReport.Proofs.Issue.Steps
import ElmReport.Proofs.Report.Delimited
import ElmReport.Proofs.Stream.Check
import ElmReport.Publisher
import ElmReport.Text.Utf8
import ElmReport.Proofs.Publisher.Log
import ElmReport.Proofs.FileUri.Scalar
import ElmReport.Proofs.Diagnostic.Writable
import ElmReport.Proofs.Diagnostic.Below
import ElmReport.Proofs.FileUri.Kept
import ElmReport.Proofs.Batch.Named
import ElmReport.Proofs.Batch.Ordered
import ElmReport.Proofs.Compiler.ShellWords
import ElmReport.Proofs.Diagnostic.Unplaced
import ElmReport.Proofs.Publisher.Concurrent
import ElmReport.Proofs.Compiler.WholeText
import ElmReport.Proofs.Compiler.Launch
import ElmReport.Proofs.FileUri.Naming
import ElmReport.Proofs.Diagnostic.BrokenCode
import ElmReport.Proofs.Issue.Fallback
import ElmReport.Proofs.Report.Meaning
import ElmReport.Proofs.Diagnostic.Partition
import ElmReport.Proofs.Batch.Summary
import ElmReport.Proofs.Report.Padded
import ElmReport.Proofs.Batch.Generated
