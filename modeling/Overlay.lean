import Overlay.Agent
import Overlay.Bus
import Overlay.Confirmation.Board
import Overlay.Confirmation.Criterion
import Overlay.Confirmation.Vigil
import Overlay.Delivery.Ledger
import Overlay.Delivery.Receipt
import Overlay.Delivery.Status
import Overlay.Delivery.Waiting
import Overlay.Directory
import Overlay.Endpoint
import Overlay.Engine
import Overlay.Fabric.Basic
import Overlay.Fabric.Command
import Overlay.Fabric.Lifecycle
import Overlay.Fabric.Liveness
import Overlay.Fabric.Membership
import Overlay.Fabric.Schedule
import Overlay.Fabric.Traffic
import Overlay.Failure
import Overlay.Fanout.Basic
import Overlay.Fanout.Roster
import Overlay.Identity.Basic
import Overlay.Identity.Register
import Overlay.Identity.Text
import Overlay.Json.Basic
import Overlay.Json.Normal
import Overlay.Json.Printer
import Overlay.Message.Basic
import Overlay.Message.Payload
import Overlay.Number.Binary64
import Overlay.Number.Shortest
import Overlay.Settings.Basic
import Overlay.Settings.Environment
import Overlay.Text.Blank
import Overlay.Text.Extender
import Overlay.Text.Graphic
import Overlay.Text.Quoted
import Overlay.Text.Radix
import Overlay.Text.Utf8
import Overlay.Timer
import Overlay.Uuid
import Overlay.Wire.Decode
import Overlay.Wire.Encode
import Overlay.Wire.Fault
import Overlay.Wire.Numerals
import Overlay.Wire.Reader
import Overlay.Wire.Record
import Overlay.Wire.Scalar
import Overlay.Wire.Strings
import Overlay.Wire.Value
import Overlay.Proofs.Contacts
import Overlay.Proofs.Directory
import Overlay.Proofs.History
import Overlay.Proofs.Interleaving.Basic
import Overlay.Proofs.Interleaving.Eviction
import Overlay.Proofs.Interleaving.Faults
import Overlay.Proofs.Interleaving.Separation
import Overlay.Proofs.Json
import Overlay.Proofs.Names
import Overlay.Proofs.Wire.Token
import Overlay.Proofs.Wire.Record
import Overlay.Proofs.Wire.Cut
import Overlay.Proofs.Wire.Value
import Overlay.Proofs.Wire.Depth
import Overlay.Proofs.Wire.Message
import Overlay.Proofs.Wire.Codec
import Overlay.Proofs.Bus
import Overlay.Proofs.Broadcast
import Overlay.Proofs.Fanout
import Overlay.Proofs.Confirmation.Board
import Overlay.Proofs.Confirmation.Even
import Overlay.Proofs.Tasks
import Overlay.Proofs.Traffic
import Overlay.Proofs.Interleaving.Fabric
import Overlay.Proofs.Mesh.Basic
import Overlay.Proofs.Mesh.Traffic
import Overlay.Proofs.Mesh.Joining
import Overlay.Proofs.Mesh.Leaving
import Overlay.Proofs.Mesh.Liveness
import Overlay.Proofs.Mesh.Run
import Overlay.Proofs.Mesh.Routing
import Overlay.Proofs.Mesh.Survival
import Overlay.Proofs.Cascade.Machine
import Overlay.Proofs.Cascade.Bounds
import Overlay.Proofs.Attachment.Scene
import Overlay.Proofs.Attachment.Bonds
import Overlay.Proofs.Attachment.Commands
import Overlay.Proofs.Attachment.Agreement
import Overlay.Proofs.Attachment.Twins
import Overlay.Proofs.Attachment.Schedules
import Overlay.Proofs.Attachment.Situations
import Overlay.Proofs.Attachment.Dropped
import Overlay.Proofs.Attachment.Replies
import Overlay.Proofs.Confirmation.Watch
import Overlay.Proofs.Confirmation.Joins
import Overlay.Proofs.Confirmation.Commands
import Overlay.Proofs.Confirmation.Vigil
import Overlay.Proofs.Seclusion.Basic
import Overlay.Proofs.Seclusion.Visits
import Overlay.Proofs.Seclusion.Membership
import Overlay.Proofs.Solo.Lobby
import Overlay.Proofs.Solo.State
import Overlay.Proofs.Solo.Fabric
import Overlay.Proofs.Solo.Passes
import Overlay.Proofs.Solo.Alike
import Overlay.Proofs.Solo.Membership
import Overlay.Proofs.Solo.Waits
import Overlay.Proofs.Solo.Late
import Overlay.Proofs.Solo.Abreast
import Overlay.Proofs.Solo.Turns
import Overlay.Proofs.Solo.Dispatch
import Overlay.Proofs.Delivery.Waiting
import Overlay.Proofs.Delivery.Polling
import Overlay.Proofs.Delivery.Runs
import Overlay.Proofs.Delivery.Aggregate
import Overlay.Proofs.Delivery.Budget
import Overlay.Proofs.Delivery.Statuses
import Overlay.Proofs.Liveness.Incidents
import Overlay.Proofs.Liveness.Unanswered
import Overlay.Proofs.Liveness.Pass
import Overlay.Proofs.Liveness.Thresholds
import Overlay.Proofs.Lone.Echo
import Overlay.Proofs.Lone.Join
import Overlay.Proofs.Lone.Doze
import Overlay.Proofs.Lone.Wait
import Overlay.Proofs.Lone.Outcome
import Overlay.Proofs.Cascade.Trace
import Overlay.Proofs.Attachment.Journeys
import Overlay.Proofs.Attachment.Answers
import Overlay.Proofs.Delivery.Sending
import Overlay.Proofs.Wire.Gathering
import Overlay.Proofs.Wire.Spellings
import Overlay.Proofs.Numerals
import Overlay.Proofs.Identities
import Overlay.Proofs.Environment
