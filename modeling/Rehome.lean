import Rehome.Fleet.Memory
import Rehome.Fleet.Scripted
import Rehome.Main
import Rehome.Numeric.Bits
import Rehome.Proofs.Fates
import Rehome.Proofs.Failures
import Rehome.Proofs.Journal
import Rehome.Proofs.Runs
import Rehome.Proofs.Watching
import Rehome.Proofs.Accounting
import Rehome.Proofs.Safety
import Rehome.Proofs.MemoryPass
import Rehome.Proofs.Resuming
import Rehome.Proofs.Stragglers
import Rehome.Proofs.Course
import Rehome.Proofs.Waiting
import Rehome.Proofs.Attempts
import Rehome.Proofs.Streaks
import Rehome.Proofs.Rounding
import Rehome.Proofs.Magnitudes
import Rehome.Proofs.Seats
import Rehome.Proofs.Quotas
import Rehome.Proofs.Batches
import Rehome.Proofs.Composition
import Rehome.Proofs.Undoing
import Rehome.Proofs.Samples
import Rehome.Proofs.Splitting
import Rehome.Proofs.Pacing
import Rehome.Proofs.Printed
import Rehome.Proofs.Records
import Rehome.Proofs.Reports
import Rehome.Proofs.Remainders
import Rehome.Proofs.Ratios
import Rehome.Proofs.Positions
import Rehome.Proofs.Schedules
import Rehome.Proofs.Retrying
import Rehome.Proofs.Placing
import Rehome.Proofs.Backoff
import Rehome.Proofs.Restricting
import Rehome.Proofs.Checking
import Rehome.Proofs.Growth
import Rehome.Proofs.Changes
import Rehome.Proofs.Settling
import Rehome.Proofs.Linewise
import Rehome.Proofs.Decoding
import Rehome.Proofs.HostFiles
import Rehome.Proofs.LowerCase
import Rehome.Proofs.Messages
import Rehome.Proofs.Printouts
import Rehome.Proofs.StatusListing
import Rehome.Proofs.NameListings
import Rehome.Proofs.Headcount
import Rehome.Proofs.InputFiles
import Rehome.Proofs.Descriptors
