import Interchain.Session.Run
import Interchain.Proofs.Chain.Parse
import Interchain.Proofs.Document.Reviver
import Interchain.Proofs.Session.Refinement
import Interchain.Proofs.Document.Message
import Interchain.Proofs.Chain.Rejection
import Interchain.Proofs.Chain.Conversion
import Interchain.Proofs.Failure.Attribution
import Interchain.Proofs.Wire.Sequence
import Interchain.Proofs.Text.Hexadecimal
import Interchain.Proofs.Wire.HexText
import Interchain.Proofs.Wire.HexChain
import Interchain.Proofs.Json.Printable
import Interchain.Proofs.Failure.Painted
import Interchain.Proofs.Failure.Unpainted
import Interchain.Proofs.Failure.Lines
import Interchain.Proofs.Document.Rewritten
import Interchain.Proofs.Value.Numbered
import Interchain.Proofs.Value.Spelled
import Interchain.Proofs.Wire.Window
import Interchain.Proofs.Chain.Unreadable
import Interchain.Proofs.Chain.Canonical
import Interchain.Proofs.Failure.Serialised
import Interchain.Proofs.Chain.Accepted
import Interchain.Proofs.Chain.Captured
import Interchain.Proofs.Chain.Order
import Interchain.Proofs.Chain.Named
import Interchain.Proofs.Failure.Attached
