import Striping.Audit.Words
import Striping.Command.Session
import Striping.Environment
import Striping.Fetch
import Striping.Json.Codec
import Striping.Layout.Words
import Striping.Main
import Striping.Proofs.Addressing
import Striping.Proofs.Admission
import Striping.Proofs.Audit.Agreement
import Striping.Proofs.Audit.Failures
import Striping.Proofs.Audit.Padding
import Striping.Proofs.Audit.Refusals
import Striping.Proofs.Audit.Reordering
import Striping.Proofs.Bytewise
import Striping.Proofs.Command.Initialization
import Striping.Proofs.Command.Verification
import Striping.Proofs.Faults
import Striping.Proofs.Grouping
import Striping.Proofs.Json.RoundTrip
import Striping.Proofs.Members
import Striping.Proofs.Reassembly
import Striping.Proofs.Sharing
import Striping.Proofs.Store.Atomicity
import Striping.Proofs.Store.Edits
import Striping.Proofs.Store.Ownership
import Striping.Proofs.Store.Prefixes
import Striping.Proofs.Store.Staleness
import Striping.Proofs.Tiling
import Striping.Proofs.Usability
import Striping.Proofs.Words.Exactness
import Striping.Proofs.Words.Layout
import Striping.Proofs.Words.Stripe
import Striping.Stripe.Words
