import PETriage.Cache.Memory
import PETriage.Image.Given
import PETriage.Main
import PETriage.Report.Given
import PETriage.Request.Concurrent
import PETriage.Request.Given
import PETriage.Proofs.Direct.Front
import PETriage.Proofs.Loader.Agreement
import PETriage.Proofs.Report.InRange
import PETriage.Proofs.Report.ReadBack
import PETriage.Proofs.Request.Coherence
import PETriage.Proofs.Request.Fallback
import PETriage.Proofs.Request.Reports
import PETriage.Proofs.Bytes
import PETriage.Proofs.Image.Acceptance
import PETriage.Proofs.Image.Encoding
import PETriage.Proofs.Image.RoundTrip
import PETriage.Proofs.Report.Accounting
import PETriage.Proofs.Gzip.Stored
import PETriage.Proofs.Json.RoundTrip
import PETriage.Proofs.Cache.Entry
import PETriage.Proofs.Files.Places
import PETriage.Proofs.Cache.Writing
import PETriage.Proofs.Cache.Refinement
import PETriage.Proofs.Request.Progress
import PETriage.Proofs.Request.Cancellation
import PETriage.Proofs.Request.FrontReads
import PETriage.Proofs.Threat.Placeholders
import PETriage.Proofs.Report.Encodings
import PETriage.Proofs.Report.Coherence
import PETriage.Proofs.Loader.Names
import PETriage.Proofs.Request.Coverage
import PETriage.Proofs.Statistics.Rearranged
import PETriage.Proofs.Statistics.Windows
import PETriage.Proofs.Direct.Spans
import PETriage.Proofs.Report.Sections
import PETriage.Proofs.Request.Chunks
import PETriage.Proofs.Threat.Scoring
import PETriage.Proofs.Threat.Kept
import PETriage.Proofs.Cache.Alike
import PETriage.Proofs.Cache.Failures
import PETriage.Proofs.Cache.Lookup
import PETriage.Proofs.Files.Sound
import PETriage.Proofs.Image.Calendar
import PETriage.Proofs.Report.Resources
import PETriage.Proofs.Cache.Layout
import PETriage.Proofs.Cache.Inside
import PETriage.Proofs.Config.Overrides
