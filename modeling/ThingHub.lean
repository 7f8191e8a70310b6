import ThingHub.Client.Run
import ThingHub.Connection.Loop
import ThingHub.Registry.Scripted
import ThingHub.Settings.Address
import ThingHub.Proofs.Settings.Given
import ThingHub.Proofs.Settings.Overlay
import ThingHub.Proofs.Pem.Base64
import ThingHub.Proofs.Pem.Layout
import ThingHub.Proofs.Topic.Segments
import ThingHub.Proofs.Topic.Slots
import ThingHub.Proofs.Topic.Search
import ThingHub.Proofs.Topic.Table
import ThingHub.Proofs.Topic.Wildcards
import ThingHub.Proofs.Topic.Grammar
import ThingHub.Proofs.Data.Entries
import ThingHub.Proofs.Data.Lists
import ThingHub.Proofs.Registry.Ledger
import ThingHub.Proofs.Registry.Represents
import ThingHub.Proofs.Registry.Operations
import ThingHub.Proofs.Registry.Bookings
import ThingHub.Proofs.Registry.Run
import ThingHub.Proofs.Registry.Chronicle
import ThingHub.Proofs.Registry.Refinement
import ThingHub.Proofs.Registry.Session
import ThingHub.Proofs.Registry.Leak
import ThingHub.Proofs.Registry.Replay
import ThingHub.Proofs.Registry.Barred
import ThingHub.Proofs.Registry.Nesting
import ThingHub.Proofs.Registry.Snapshot
import ThingHub.Proofs.Data.Bytes
import ThingHub.Proofs.Json.Strings
import ThingHub.Proofs.Json.Numbers
import ThingHub.Proofs.Json.RoundTrip
import ThingHub.Proofs.Json.Grammar
import ThingHub.Proofs.Json.Members
import ThingHub.Proofs.Json.Records
import ThingHub.Proofs.Json.Skipping
import ThingHub.Proofs.Json.Numerals
import ThingHub.Proofs.Json.Truncation
import ThingHub.Proofs.Message.RoundTrip
import ThingHub.Proofs.Message.Truncation
import ThingHub.Proofs.Message.Actions
import ThingHub.Proofs.Connection.Connect
import ThingHub.Proofs.Client.Delivery
import ThingHub.Proofs.Client.Hearing
import ThingHub.Proofs.Client.Removal
import ThingHub.Proofs.Topic.Gap
import ThingHub.Proofs.Number.Double
import ThingHub.Proofs.Number.Shortest
import ThingHub.Proofs.Connection.Loop
import ThingHub.Proofs.Connection.Race
import ThingHub.Proofs.Connection.Overlap
import ThingHub.Proofs.Credential.Files
import ThingHub.Proofs.Credential.Transport
import ThingHub.Proofs.Topic.Canonical
import ThingHub.Proofs.Connection.Window
import ThingHub.Proofs.Client.Timeout
import ThingHub.Proofs.Topic.Frame
import ThingHub.Proofs.Connection.Backoff
import ThingHub.Proofs.Connection.ClientId
import ThingHub.Proofs.Settings.Address
import ThingHub.Proofs.Connection.Watchers
