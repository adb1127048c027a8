import JarMetrics.Analysis.Run
import JarMetrics.Archive.Reading
import JarMetrics.Assembly.Sample
import JarMetrics.Browser
import JarMetrics.Build
import JarMetrics.Bytes.Cursor
import JarMetrics.Category
import JarMetrics.CommandLine.Run
import JarMetrics.Files.Delivery
import JarMetrics.Files.Discovery
import JarMetrics.Graph.Run
import JarMetrics.Instruction.Decoder
import JarMetrics.Json.Parser
import JarMetrics.Main
import JarMetrics.Metrics.Archive
import JarMetrics.Progress
import JarMetrics.Proofs.Assembled
import JarMetrics.Proofs.Batches
import JarMetrics.Proofs.DirectoryOrder
import JarMetrics.Proofs.Documents
import JarMetrics.Proofs.Exporting
import JarMetrics.Proofs.Inheritance
import JarMetrics.Proofs.Loaders
import JarMetrics.Proofs.LooseSettings
import JarMetrics.Proofs.PlainTables
import JarMetrics.Proofs.SeparateArchives
import JarMetrics.Proofs.StrictSettings
import JarMetrics.Proofs.Truncation
import JarMetrics.Report.Format
import JarMetrics.Report.Reader
import JarMetrics.Report.Selection
import JarMetrics.Request
import JarMetrics.Settings.Load
import JarMetrics.Toml.Reader
import JarMetrics.Tools.Server
import JarMetrics.Yaml.Document
import JarMetrics.Zip.Writer
import JarMetrics.Proofs.PageTags
import JarMetrics.Proofs.Replaying
import JarMetrics.Proofs.Balance
import JarMetrics.Proofs.Doubles
import JarMetrics.Proofs.ClassLimit
import JarMetrics.Proofs.Ascent
import JarMetrics.Proofs.Growth
import JarMetrics.Proofs.RecordOrder
import JarMetrics.Proofs.Bounds
import JarMetrics.Proofs.TextRoundTrip
import JarMetrics.Proofs.BrokenSequences
import JarMetrics.Proofs.InvalidPatterns
import JarMetrics.Proofs.VariableForms
import JarMetrics.Proofs.BatchRoom
import JarMetrics.Proofs.TableReading
import JarMetrics.Proofs.WithinLimits
import JarMetrics.Proofs.Finding
import JarMetrics.Proofs.OpenBodies
import JarMetrics.Proofs.Categorizing
import JarMetrics.Proofs.DoubleOrder
import JarMetrics.Proofs.Ranking
import JarMetrics.Proofs.Spellings
import JarMetrics.Proofs.NearestSettings
import JarMetrics.Proofs.EndlessSwitch
import JarMetrics.Proofs.SharedIndices
