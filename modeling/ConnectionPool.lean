import ConnectionPool.Time
import ConnectionPool.Text.Blank
import ConnectionPool.Text.Lines
import ConnectionPool.Text.Numeral
import ConnectionPool.Text.Printable
import ConnectionPool.Text.Quoted
import ConnectionPool.Text.Record
import ConnectionPool.Text.Unassigned
import ConnectionPool.Digest.SipHash
import ConnectionPool.Driver.Basic
import ConnectionPool.Driver.Scripted
import ConnectionPool.Driver.Faulty
import ConnectionPool.Error
import ConnectionPool.Config.TypeCode
import ConnectionPool.Config.Basic
import ConnectionPool.Config.Properties
import ConnectionPool.Statistics
import ConnectionPool.Occupancy
import ConnectionPool.Entry
import ConnectionPool.Journal
import ConnectionPool.Backend
import ConnectionPool.Pool.Basic
import ConnectionPool.Pool.Builder
import ConnectionPool.Pool.Seek
import ConnectionPool.Service.Basic
import ConnectionPool.Service.Clock
import ConnectionPool.Service.Run
import ConnectionPool.Script.Step
import ConnectionPool.Script.Direct
import ConnectionPool.Script.Session
import ConnectionPool.Proofs.Books
import ConnectionPool.Proofs.Turns
import ConnectionPool.Proofs.Moves
import ConnectionPool.Proofs.Deadlines
import ConnectionPool.Proofs.Ledger
import ConnectionPool.Proofs.Upkeep
import ConnectionPool.Proofs.Ownership
import ConnectionPool.Proofs.Capacity
import ConnectionPool.Proofs.Views
import ConnectionPool.Proofs.Settlements
import ConnectionPool.Proofs.Relay
import ConnectionPool.Proofs.Starvation
import ConnectionPool.Proofs.Search
import ConnectionPool.Proofs.Handoff
import ConnectionPool.Proofs.Provenance
import ConnectionPool.Proofs.Traffic
import ConnectionPool.Proofs.Custody
import ConnectionPool.Proofs.Dealings
import ConnectionPool.Proofs.Safekeeping
import ConnectionPool.Proofs.Tracking
import ConnectionPool.Proofs.Accounting
import ConnectionPool.Proofs.Finality
import ConnectionPool.Proofs.Leases
import ConnectionPool.Proofs.Staleness
import ConnectionPool.Proofs.Resets
import ConnectionPool.Proofs.Openings
import ConnectionPool.Proofs.Arrivals
import ConnectionPool.Proofs.Epochs
import ConnectionPool.Proofs.Attribution
import ConnectionPool.Proofs.Conformity
import ConnectionPool.Proofs.Handovers
import ConnectionPool.Proofs.Counts
import ConnectionPool.Proofs.LeaseTime
import ConnectionPool.Proofs.Transparency
import ConnectionPool.Proofs.Redaction
import ConnectionPool.Proofs.Indifference
import ConnectionPool.Proofs.Secrecy
import ConnectionPool.Proofs.Stretches
import ConnectionPool.Proofs.Loop
import ConnectionPool.Proofs.Brevity
import ConnectionPool.Proofs.Exhaustion
import ConnectionPool.Proofs.Probing
import ConnectionPool.Proofs.Selection
import ConnectionPool.Proofs.Stamps
import ConnectionPool.Proofs.Episodes
import ConnectionPool.Proofs.Reclamation
import ConnectionPool.Proofs.Failures
import ConnectionPool.Proofs.Cancellation
import ConnectionPool.Proofs.Dependability
import ConnectionPool.Proofs.Notice
import ConnectionPool.Proofs.Readings
import ConnectionPool.Proofs.Documents
import ConnectionPool.Proofs.Returns
import ConnectionPool.Proofs.Waits
import ConnectionPool.Proofs.Futility
import ConnectionPool.Proofs.Transcripts
import ConnectionPool.Proofs.Framing
import ConnectionPool.Proofs.Creations
import ConnectionPool.Proofs.Identities
