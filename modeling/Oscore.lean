import Oscore.NonceUse
import Oscore.BareResponse
import Oscore.Receiver
import Oscore.KeyRecord
import Oscore.RoundTrip
import Oscore.Preflight
import Oscore.Association
import Oscore.Matching
import Oscore.Admission
import Oscore.Answering
import Oscore.Reordering
import Oscore.Restart
import Oscore.Gapless
import Oscore.WireImage
import Oscore.OptionFilter
import Oscore.NonceUnique
import Oscore.Restore
import Oscore.Exchange
import Oscore.InStep
import Oscore.FailedReceive
import Oscore.SetWindow
import Oscore.OptionCodec
import Oscore.NonceSource
import Oscore.EncoderExact
import Oscore.Edhoc.Lifecycle
import Oscore.Edhoc.Selection
import Oscore.Edhoc.Handshake
import Oscore.Edhoc.SuitesR
import Oscore.Edhoc.ShortestForm
import Oscore.Edhoc.KeyBinding
import Oscore.Edhoc.Separation
import Oscore.Edhoc.Bootstrap
import Oscore.Edhoc.Noise
import Oscore.Edhoc.Builders
import Oscore.Edhoc.Strict
