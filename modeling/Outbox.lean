import Outbox.Rehearsal.Drafting
import Outbox.Rehearsal.Loopback
import Outbox.Proofs.PoolAccount
import Outbox.Proofs.Backpressure
import Outbox.Proofs.Isolation
import Outbox.Proofs.SubmissionOrder
import Outbox.Proofs.Suspensions
import Outbox.Proofs.TimerPhases
import Outbox.Proofs.PoolBlindness
import Outbox.Proofs.FreeList
import Outbox.Proofs.Overtaking
import Outbox.Proofs.Disposals
import Outbox.Proofs.Deferral
import Outbox.Proofs.Clearance
import Outbox.Proofs.Discipline
import Outbox.Proofs.ClosePolicies
import Outbox.Proofs.Submissions
import Outbox.Proofs.Limits
import Outbox.Proofs.Standstills
import Outbox.Proofs.Loans
import Outbox.Proofs.Log
