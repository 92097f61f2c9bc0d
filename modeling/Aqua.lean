import Aqua.Soundness.FrameExactness
import Aqua.Soundness.Delimiting
import Aqua.Soundness.Progress
import Aqua.Soundness.RoundTrip
import Aqua.Soundness.StreamCompleteness
import Aqua.Soundness.Chunking
import Aqua.Soundness.Rejection
import Aqua.Soundness.SessionMaps
import Aqua.Soundness.Subscriptions
import Aqua.Soundness.RetainOrder
import Aqua.Soundness.Handshakes
import Aqua.Soundness.ConnectionPhases
import Aqua.Soundness.ResponseQueue
import Aqua.Soundness.VersionPerConnection
import Aqua.Proofs.ServerRuns
import Aqua.Soundness.Delivery
import Aqua.Soundness.FirstPacket
import Aqua.Soundness.EndOfFile
import Aqua.Soundness.Takeover
import Aqua.Soundness.EndedConnections
import Aqua.Proofs.Workers
import Aqua.Soundness.ConnackDecision
import Aqua.Soundness.ConnackFirst
import Aqua.Soundness.PacketIds
import Aqua.Soundness.PublisherOrder
import Aqua.Soundness.ConnackFraming
import Aqua.Soundness.ConnackReadBack
import Aqua.Soundness.OmittedFields
import Aqua.Soundness.ConnectRoundTrip
import Aqua.Spec.ConnectContent
import Aqua.Proofs.FieldSpells
import Aqua.Proofs.ConnectProperties
import Aqua.Proofs.WillProperties
import Aqua.Proofs.ConnectHeader
import Aqua.Soundness.PropertyLists
import Aqua.Soundness.ConnectContent
import Aqua.Soundness.EarlyExit
import Aqua.Wire.Refusal
import Aqua.Spec.RepeatedProperties
import Aqua.Soundness.RepeatedProperties
import Aqua.Proofs.MinimalLength
import Aqua.Soundness.Reencoding
import Aqua.Soundness.Forwarding
import Aqua.Soundness.PolledEncoder
import Aqua.Proofs.ReasonAndUser
import Aqua.Soundness.PubrelRoundTrip
import Aqua.Soundness.CodesFraming
import Aqua.Soundness.LengthCodec
import Aqua.Spec.Wildcards
import Aqua.Soundness.TopicMatching
import Aqua.Spec.Subscription
import Aqua.Soundness.FilterLists
import Aqua.Model.MainService
import Aqua.Soundness.UnsubackCodes
import Aqua.Soundness.SubackCodes
import Aqua.Soundness.RetainedOnSubscribe
import Aqua.Proofs.Enqueued
import Aqua.Soundness.HandlerAssumptions
import Aqua.Wire.Iterations
import Aqua.Soundness.LoopsEnd
import Aqua.Wire.Delimited
import Aqua.Model.Writer
import Aqua.Model.Network
import Aqua.Proofs.Writers
import Aqua.Proofs.Network
import Aqua.Proofs.PoolRuns
import Aqua.Proofs.Sendable
import Aqua.Soundness.ConnectionOutput
import Aqua.Soundness.StoredMessages
import Aqua.Proofs.Clients
import Aqua.Soundness.Provenance
import Aqua.Proofs.Replies
import Aqua.Proofs.PoolVersions
import Aqua.Soundness.ControlPackets
import Aqua.Proofs.Endings
import Aqua.Soundness.MainServer
import Aqua.Soundness.ConnectionEndings
import Aqua.Soundness.Relay
import Aqua.Soundness.Deliveries
import Aqua.Model.Wakers
import Aqua.Proofs.Wakers
import Aqua.Soundness.Wakeups
import Aqua.Proofs.Segments
import Aqua.Soundness.HeardBytes
import Aqua.Spec.Hub
import Aqua.Proofs.HubView
import Aqua.Proofs.HubSteps
import Aqua.Proofs.HubRequests
import Aqua.Soundness.HubRefinement
