import PushDispatch.Log.Loggers
import PushDispatch.Proofs.Concurrency.Isolation
import PushDispatch.Proofs.Condition.Containment
import PushDispatch.Proofs.Dispatch.Selection
import PushDispatch.Proofs.Envelope.DataRoundTrip
import PushDispatch.Proofs.Envelope.Decoding
import PushDispatch.Proofs.Token.Lifetime
import PushDispatch.Server.Push
import PushDispatch.Proofs.Server.Runs
import PushDispatch.Proofs.Server.Independence
import PushDispatch.Proofs.Server.Answers
import PushDispatch.Proofs.DateTime.Calendar
import PushDispatch.Proofs.Dispatch.Order
import PushDispatch.Proofs.DateTime.RoundTrip
import PushDispatch.Proofs.Envelope.NormalForm
import PushDispatch.Proofs.Envelope.Salvage
import PushDispatch.Proofs.Condition.Booleans
import PushDispatch.Proofs.Server.Lifecycle
import PushDispatch.Proofs.Base64.Acceptance
import PushDispatch.Proofs.Envelope.DataText
import PushDispatch.Proofs.Envelope.Conformance
import PushDispatch.Proofs.Dispatch.Forwarding
import PushDispatch.Proofs.Server.JsonBody
import PushDispatch.Proofs.Value.Equivalence
import PushDispatch.Proofs.Dispatch.Shadowing
import PushDispatch.Proofs.Dispatch.KnownFields
import PushDispatch.Proofs.Server.Sharing
import PushDispatch.Proofs.Token.Acceptance
import PushDispatch.Proofs.Log.Lines
import PushDispatch.Proofs.Settings.Layers
import PushDispatch.Proofs.Server.Options
import PushDispatch.Proofs.Condition.Paths
import PushDispatch.Proofs.Log.Setup
