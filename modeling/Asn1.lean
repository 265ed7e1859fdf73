import Asn1.Field
import Asn1.Main
import Asn1.Proofs.Config.Printed
import Asn1.Proofs.Descent.Answer
import Asn1.Proofs.Encoding.Distinguished
import Asn1.Proofs.Equality
import Asn1.Proofs.InputFormat
import Asn1.Proofs.Listing.Json
import Asn1.Proofs.Listing.Lines
import Asn1.Proofs.Nesting
import Asn1.Proofs.ObjectId.Dotted
import Asn1.Proofs.Parser.Calls
import Asn1.Proofs.Parser.Elements
import Asn1.Proofs.Parser.SetOrder
import Asn1.Proofs.Program
import Asn1.Proofs.Reader.Framing
import Asn1.Proofs.Text.Content
import Asn1.Proofs.Unicode.Transcoder.Calls
import Asn1.Proofs.Unicode.Utf8.Window
import Asn1.Proofs.UtcTime.Instant
import Asn1.Proofs.UtcTime.Positions
import Asn1.Proofs.Writer
import Asn1.Sink
