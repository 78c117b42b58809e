import TrialView.Main
import TrialView.Session
import TrialView.Proofs.Projection.Shown
import TrialView.Proofs.Projection.Composition
import TrialView.Proofs.Projection.Disclosure
import TrialView.Proofs.Projection.Fault
import TrialView.Proofs.Projection.Report
import TrialView.Proofs.Projection.Everything
import TrialView.Proofs.Filter.Visibility
import TrialView.Proofs.Filter.Literal
import TrialView.Proofs.Filter.Identifier
import TrialView.Proofs.Encoding.Size
import TrialView.Proofs.Encoding.Shrink
import TrialView.Proofs.Encoding.RoundTrip
import TrialView.Proofs.Encoding.OneLine
import TrialView.Proofs.Schema.Conformance
import TrialView.Proofs.Text.Utf8
import TrialView.Proofs.Store.Write
import TrialView.Proofs.Store.Log
import TrialView.Proofs.Store.Apart
import TrialView.Proofs.Tally.Totals
import TrialView.Proofs.Session.Move
import TrialView.Proofs.Session.Run
import TrialView.Proofs.Session.Family
import TrialView.Proofs.Session.Snapshot
import TrialView.Proofs.Session.Accounts
import TrialView.Proofs.Command.Spelling
import TrialView.Proofs.Command.Run
import TrialView.Proofs.Command.Refusal
import TrialView.Proofs.Command.Again
