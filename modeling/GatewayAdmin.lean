import GatewayAdmin.Main
import GatewayAdmin.Proofs.AuthorityText
import GatewayAdmin.Proofs.CanonicalQuery
import GatewayAdmin.Proofs.PercentCode
import GatewayAdmin.Proofs.Splitting
import GatewayAdmin.Proofs.Signing
import GatewayAdmin.Proofs.SignatureVerification
import GatewayAdmin.Proofs.CanonicalPath
import GatewayAdmin.Proofs.CanonicalRequest
import GatewayAdmin.Proofs.UriReading
import GatewayAdmin.Proofs.AdminCallUrl
import GatewayAdmin.Proofs.AcceptedEndpoint
import GatewayAdmin.Proofs.OperationArguments
import GatewayAdmin.Proofs.OperationTable
import GatewayAdmin.Proofs.AdminRequestTarget
import GatewayAdmin.Proofs.JsonGrammar
import GatewayAdmin.Proofs.JsonNumberScan
import GatewayAdmin.Proofs.QueryFidelity
import GatewayAdmin.Proofs.JsonScan
import GatewayAdmin.Proofs.JsonParse
import GatewayAdmin.Proofs.JsonRead
import GatewayAdmin.Proofs.Utf8Text
import GatewayAdmin.Proofs.ErrorClassification
import GatewayAdmin.Proofs.RepeatedSigning
import GatewayAdmin.Proofs.SigningFailure
import GatewayAdmin.Proofs.CallRuns
import GatewayAdmin.Proofs.SecretIndependence
import GatewayAdmin.Proofs.DecimalText
import GatewayAdmin.Proofs.CalendarDate
import GatewayAdmin.Proofs.TimestampReading
import GatewayAdmin.Proofs.JsonText
import GatewayAdmin.Proofs.JsonReadBack
import GatewayAdmin.Proofs.RecordCodec
import GatewayAdmin.Proofs.ResponseType
import GatewayAdmin.Proofs.ResponseRoundTrip
import GatewayAdmin.Proofs.RecordRevision
import GatewayAdmin.Proofs.ResponseRevision
import GatewayAdmin.Proofs.OperationConformance
import GatewayAdmin.Proofs.JsonNumberText
import GatewayAdmin.Proofs.JsonKept
import GatewayAdmin.Proofs.ReplyDepth
import GatewayAdmin.Proofs.CommandRuns
import GatewayAdmin.Proofs.ClientSetup
import GatewayAdmin.Proofs.UnrelatedMembers
import GatewayAdmin.Proofs.CommandWords
import GatewayAdmin.Proofs.UsageScope
import GatewayAdmin.Proofs.JsonFault
import GatewayAdmin.Proofs.ReplyShape
import GatewayAdmin.Proofs.CanonicalGrammar
import GatewayAdmin.Proofs.HostValue
import GatewayAdmin.Proofs.TimestampOrder
import GatewayAdmin.Proofs.EncodedOrder
import GatewayAdmin.Proofs.KeyPairing
