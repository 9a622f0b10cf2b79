import Remedy.Main
import Remedy.Proofs.Actions
import Remedy.Proofs.Analysis
import Remedy.Proofs.Backup.Accepting
import Remedy.Proofs.Backup.Afterwards
import Remedy.Proofs.Backup.Confining
import Remedy.Proofs.Backup.Lasting
import Remedy.Proofs.Backup.Reinstating
import Remedy.Proofs.CommandLine.Damage
import Remedy.Proofs.Diagnostic.Compiling
import Remedy.Proofs.Faults
import Remedy.Proofs.Gate
import Remedy.Proofs.Lock.Safety
import Remedy.Proofs.Metering
import Remedy.Proofs.Pipeline.Exclusion
import Remedy.Proofs.Pipeline.Rehearsal
import Remedy.Proofs.References
import Remedy.Proofs.Reordering
import Remedy.Proofs.Run.Calm
import Remedy.Proofs.Run.Checking
import Remedy.Proofs.Run.Declining
import Remedy.Proofs.Run.Guarding
import Remedy.Proofs.Run.Ledger
import Remedy.Proofs.Run.Moves
import Remedy.Proofs.Run.Recordable
import Remedy.Proofs.Run.Recovery
import Remedy.Proofs.Run.Refusals
import Remedy.Proofs.Run.Rerun
import Remedy.Proofs.Run.Rollback
import Remedy.Proofs.Run.Tried
import Remedy.Proofs.SafeNames
import Remedy.Proofs.Settings
import Remedy.Proofs.Summaries
import Remedy.Proofs.Tree.Wholeness
import Remedy.Report
import Remedy.Token
