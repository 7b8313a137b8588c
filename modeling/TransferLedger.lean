import TransferLedger.Main
import TransferLedger.Proofs.Accounting
import TransferLedger.Proofs.Agreement
import TransferLedger.Proofs.Entries
import TransferLedger.Proofs.FailedReports
import TransferLedger.Proofs.Interleaving
import TransferLedger.Proofs.Resume
import TransferLedger.Plan.InPlace
import TransferLedger.Proofs.InPlace
import TransferLedger.Proofs.Packing
import TransferLedger.Proofs.Creation
import TransferLedger.Inspection.Visit
import TransferLedger.Proofs.Printout
import TransferLedger.Proofs.Inspection
import TransferLedger.Plan.Piecewise
import TransferLedger.Proofs.Format
import TransferLedger.Proofs.Completion
import TransferLedger.Proofs.Desk
import TransferLedger.Proofs.Descriptor
import TransferLedger.Proofs.FileName
import TransferLedger.Duration.Split
import TransferLedger.Proofs.Backoff
import TransferLedger.Proofs.Tuning
