import ScanEngine.Enumeration
import ScanEngine.Header.Layout
import ScanEngine.Session
import ScanEngine.Trace.Bracket
import ScanEngine.Trace.Custody
import ScanEngine.Proofs.Stream.Conversation
import ScanEngine.Proofs.Stream.Filling
import ScanEngine.Proofs.Custody.Moves
import ScanEngine.Proofs.Custody.Operations
import ScanEngine.Proofs.Custody.Sessions
import ScanEngine.Proofs.Custody.Ledger
import ScanEngine.Proofs.Custody.Order
import ScanEngine.Proofs.Custody.Runs
import ScanEngine.Proofs.Custody.Callbacks
import ScanEngine.Proofs.Stream.Delivery
import ScanEngine.Proofs.Stream.Draining
import ScanEngine.Proofs.Stream.RoundTrip
import ScanEngine.Proofs.Header.LineScan
import ScanEngine.Proofs.Header.Comments
import ScanEngine.Proofs.Header.Bearings
import ScanEngine.Proofs.Header.Peeling
import ScanEngine.Proofs.Header.Numerals
import ScanEngine.Proofs.Header.Layouts
import ScanEngine.Proofs.Header.Rendering
import ScanEngine.Proofs.Header.Values
import ScanEngine.Proofs.Stream.Faults
import ScanEngine.Proofs.Table.Copying
import ScanEngine.Proofs.Status.CleanUps
import ScanEngine.Proofs.Status.Plans
import ScanEngine.Proofs.Status.Services
import ScanEngine.Proofs.Table.Slots
import ScanEngine.Proofs.Text.Passage
import ScanEngine.Proofs.Status.Diagnostics
import ScanEngine.Proofs.Scan.Sessions
import ScanEngine.Proofs.Scan.Outcomes
import ScanEngine.Proofs.Text.Decoding
import ScanEngine.Proofs.Rule.Cursors
import ScanEngine.Proofs.Rule.Tags
import ScanEngine.Proofs.Rule.Metadata
import ScanEngine.Proofs.Text.Paths
import ScanEngine.Proofs.Setting.Cells
