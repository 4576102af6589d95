import EventSourcing.Config
import EventSourcing.Engine.Delivery
import EventSourcing.Main
import EventSourcing.Proofs.Domain.CanonicalNames
import EventSourcing.Proofs.Domain.Checks
import EventSourcing.Proofs.Domain.Directory
import EventSourcing.Proofs.Domain.Search
import EventSourcing.Proofs.Domain.Extraction
import EventSourcing.Proofs.Domain.SameUri
import EventSourcing.Proofs.Engine.Causation
import EventSourcing.Proofs.Engine.DeliveryOrder
import EventSourcing.Proofs.Engine.Invocation
import EventSourcing.Proofs.Engine.Pending
import EventSourcing.Proofs.Engine.Readable
import EventSourcing.Proofs.Engine.Separation
import EventSourcing.Proofs.Engine.Snapshots
import EventSourcing.Proofs.Engine.Subscribers
import EventSourcing.Proofs.Engine.Substitution
import EventSourcing.Proofs.Engine.WiringCalls
import EventSourcing.Proofs.IdSet.Splitting
import EventSourcing.Proofs.Json.RoundTrip
import EventSourcing.Proofs.Message.Decoding
import EventSourcing.Proofs.Message.HeaderText
import EventSourcing.Proofs.Message.Origin
import EventSourcing.Proofs.Message.Packing
import EventSourcing.Proofs.Store.Chronology
import EventSourcing.Proofs.Store.Ledger
import EventSourcing.Proofs.Store.NextVersion
import EventSourcing.Proofs.Store.Panics
import EventSourcing.Proofs.Store.WellFormed
import EventSourcing.Proofs.ValueChanger.Draining
import EventSourcing.Proofs.ValueChanger.Reactions
import EventSourcing.ValueChanger.Application
