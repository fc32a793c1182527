import UoscoreUedhoc.Common.Runtime
import UoscoreUedhoc.Common.External
import UoscoreUedhoc.Lib.ExchangeSort
import UoscoreUedhoc.Lib.PaddedDigits
import UoscoreUedhoc.Lib.Runs
import UoscoreUedhoc.Oscore.OscoreCoap
import UoscoreUedhoc.Oscore.Option
import UoscoreUedhoc.Oscore.Nonce
import UoscoreUedhoc.Oscore.Cose
import UoscoreUedhoc.Oscore.SecurityContext
import UoscoreUedhoc.Oscore.Coap2Oscore
import UoscoreUedhoc.Oscore.Oscore2Coap
import UoscoreUedhoc.Oscore.Calls
import UoscoreUedhoc.Oscore.NonceUniqueness
import UoscoreUedhoc.Oscore.ReplayProtection
import UoscoreUedhoc.Oscore.RejectedPackets
import UoscoreUedhoc.Oscore.DerivedKeys
import UoscoreUedhoc.Oscore.SequenceNumbers
import UoscoreUedhoc.Oscore.ResponseNonces
import UoscoreUedhoc.Oscore.KidContexts
import UoscoreUedhoc.Oscore.RequestBuffers
import UoscoreUedhoc.Oscore.AadRoom
import UoscoreUedhoc.Oscore.System
import UoscoreUedhoc.Oscore.ResponseBinding
import UoscoreUedhoc.Coap.OptionFormat
import UoscoreUedhoc.Oscore.OptionFraming
import UoscoreUedhoc.Oscore.ParserSafety
import UoscoreUedhoc.Coap.Message
import UoscoreUedhoc.Oscore.MarkedRegion
import UoscoreUedhoc.Oscore.MessageParsing
import UoscoreUedhoc.Oscore.PacketWriting
import UoscoreUedhoc.Oscore.OuterPacket
import UoscoreUedhoc.Common.Zcbor
import UoscoreUedhoc.Edhoc.Suites
import UoscoreUedhoc.Edhoc.External
import UoscoreUedhoc.Edhoc.TranscriptHash
import UoscoreUedhoc.Common.CanonicalCbor
import UoscoreUedhoc.Edhoc.TranscriptBinding
import UoscoreUedhoc.Edhoc.KeySchedule
import UoscoreUedhoc.Edhoc.SignatureOrMac
import UoscoreUedhoc.Edhoc.Plaintext
import UoscoreUedhoc.Edhoc.Credentials
import UoscoreUedhoc.Edhoc.Ciphertext
import UoscoreUedhoc.Edhoc.Messages
import UoscoreUedhoc.Edhoc.Initiator
import UoscoreUedhoc.Edhoc.Responder
import UoscoreUedhoc.Edhoc.MacVerification
import UoscoreUedhoc.Edhoc.CopyBounds
import UoscoreUedhoc.Edhoc.Delivery
import UoscoreUedhoc.Edhoc.Exchange
import UoscoreUedhoc.Edhoc.KeyAgreement
import UoscoreUedhoc.Edhoc.CredentialEntries
import UoscoreUedhoc.Edhoc.PlaintextDelivery
import UoscoreUedhoc.Edhoc.HonestSteps
import UoscoreUedhoc.Edhoc.HonestRuns
import UoscoreUedhoc.Oscore.OptionPlaces
import UoscoreUedhoc.Oscore.MessagePackets
import UoscoreUedhoc.Oscore.OuterOptions
import UoscoreUedhoc.Lib.CursorMerge
import UoscoreUedhoc.Oscore.OptionMerge
import UoscoreUedhoc.Oscore.WrittenOptions
import UoscoreUedhoc.Oscore.InnerPlaintext
import UoscoreUedhoc.Oscore.Reencoding
import UoscoreUedhoc.Oscore.OptionValue
import UoscoreUedhoc.Oscore.OptionParsing
import UoscoreUedhoc.Lib.LargestEntries
import UoscoreUedhoc.Oscore.ReplayWindow
import UoscoreUedhoc.Edhoc.IdCredDelivery
import UoscoreUedhoc.Edhoc.Message1Delivery
import UoscoreUedhoc.Edhoc.Negotiation
import UoscoreUedhoc.Edhoc.Certificates
import UoscoreUedhoc.Edhoc.CredentialRetrieval
import UoscoreUedhoc.Oscore.ClassEDelivery
import UoscoreUedhoc.Oscore.RestoredOptions
import UoscoreUedhoc.Oscore.RestoredMessages
import UoscoreUedhoc.Oscore.MessageExchange
import UoscoreUedhoc.Oscore.OptionDivision
import UoscoreUedhoc.Oscore.KeySeparation
import UoscoreUedhoc.Oscore.ClassEncoding
import UoscoreUedhoc.Lib.Stores
import UoscoreUedhoc.Edhoc.HkdfExpand
import UoscoreUedhoc.Oscore.ParserAgreement
import UoscoreUedhoc.Oscore.PlaintextPrediction
import UoscoreUedhoc.Oscore.CutPackets
import UoscoreUedhoc.Oscore.SealedPackets
import UoscoreUedhoc.Oscore.OutputStores
import UoscoreUedhoc.Oscore.ProtectedOutput
import UoscoreUedhoc.Oscore.OptionEntries
import UoscoreUedhoc.Oscore.OpenedPackets
import UoscoreUedhoc.Oscore.OptionArrays
import UoscoreUedhoc.Oscore.InnerParserSafety
import UoscoreUedhoc.Edhoc.CiphertextBuffers
import UoscoreUedhoc.Oscore.WindowUpdates
import UoscoreUedhoc.Oscore.OptionRoundTrip
import UoscoreUedhoc.Lib.Simulations
import UoscoreUedhoc.Lib.Channels
import UoscoreUedhoc.Oscore.PartyKeys
import UoscoreUedhoc.Oscore.SecureChannel
import UoscoreUedhoc.Oscore.SystemRuns
import UoscoreUedhoc.Oscore.RequestDelivery
import UoscoreUedhoc.Oscore.NetworkDelivery
import UoscoreUedhoc.Edhoc.Attestations
import UoscoreUedhoc.Edhoc.Authentication
import UoscoreUedhoc.Samples.EdhocOscore
import UoscoreUedhoc.Lib.ModularPowers
import UoscoreUedhoc.Lib.CurvePoints
import UoscoreUedhoc.Edhoc.P256
import UoscoreUedhoc.Edhoc.P256Points
import UoscoreUedhoc.Edhoc.P256Agreement
import UoscoreUedhoc.Edhoc.P256Exchange
import UoscoreUedhoc.Oscore.ContextWear
import UoscoreUedhoc.Oscore.HkdfBackends
import UoscoreUedhoc.Oscore.RequestLife
