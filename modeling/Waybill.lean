import Waybill.Main
import Waybill.Store.Recording
import Waybill.Proofs.Store.Invariant
import Waybill.Proofs.Builder.Nesting
import Waybill.Proofs.Builder.History
import Waybill.Proofs.Builder.Reuse
import Waybill.Proofs.Order.Pipeline
import Waybill.Proofs.Order.Arrival
import Waybill.Proofs.Message.RoundTrip
import Waybill.Proofs.Handoff.Interleaving
import Waybill.Proofs.Builder.Untouched
import Waybill.Proofs.Builder.Produced
import Waybill.Proofs.Builder.Outcome
import Waybill.Proofs.Builder.Copying
import Waybill.Proofs.Wildcard.FirstRound
import Waybill.Proofs.Order.Accounting
import Waybill.Proofs.MessageId.Sorting
