import DropRoom.Json.Printer
import DropRoom.Event
import DropRoom.Text.Blank
import DropRoom.Api.Documents
import DropRoom.Url.Edit
import DropRoom.Settings.Document
import DropRoom.Settings.Yaml
import DropRoom.Bus
import DropRoom.Scheduler
import DropRoom.Page.Toasts
import DropRoom.Page.Navigation
import DropRoom.Error
import DropRoom.Cache.Store
import DropRoom.Cache.Classifier
import DropRoom.Cache.Offline
import DropRoom.Room.Visit
import DropRoom.Room.Reader
import DropRoom.Room.Command
import DropRoom.Cache.Json
import DropRoom.Settings.Patch
import DropRoom.Http.Network
import DropRoom.Http.Target
import DropRoom.Http.Wire
import DropRoom.Cache.Engine
import DropRoom.Cache.Serving
import DropRoom.Proxy
import DropRoom.Http.Prepared
import DropRoom.Proxy.Json
import DropRoom.Room.Following
import DropRoom.Room.Json
import DropRoom.Proofs.Scheduler.Deadlines
import DropRoom.Proofs.Page.Announcements
import DropRoom.Proofs.Room.Run
import DropRoom.Proofs.Room.Termination
import DropRoom.Proofs.Room.Closed
import DropRoom.Proofs.Room.Replay
import DropRoom.Proofs.Cache.Provenance
import DropRoom.Proofs.Url.Characters
import DropRoom.Proofs.Url.Web
import DropRoom.Proofs.Http.Resolution
import DropRoom.Proofs.Cache.NetworkFirst
import DropRoom.Proofs.Proxy.Answered
import DropRoom.Proofs.Room.Reconnecting
import DropRoom.Proofs.Cache.Idle
import DropRoom.Proofs.Proxy.Interception
import DropRoom.Proofs.Proxy.Run
import DropRoom.Proofs.Proxy.Freshness
import DropRoom.Proofs.Cache.Revalidation
import DropRoom.Proofs.Cache.Retention
import DropRoom.Proofs.Proxy.Installed
import DropRoom.Proofs.Url.PlainPath
import DropRoom.Proofs.Proxy.Assets
import DropRoom.Proofs.Page.Operations
import DropRoom.Proofs.Api.Actions
import DropRoom.Proofs.Room.Departures
import DropRoom.Proofs.Log
import DropRoom.Proofs.Scheduler.Selection
import DropRoom.Proofs.Scheduler.Journal
import DropRoom.Proofs.Scheduler.Record
import DropRoom.Proofs.Scheduler.Tickets
import DropRoom.Proofs.Scheduler.Keeping
import DropRoom.Proofs.Scheduler.Fates
import DropRoom.Proofs.Scheduler.Firing
import DropRoom.Proofs.Page.Course
import DropRoom.Proofs.Page.Mirror
import DropRoom.Proofs.Page.Matching
import DropRoom.Proofs.Page.Lifetimes
import DropRoom.Proofs.Api.Reports
import DropRoom.Proofs.Api.Requests
import DropRoom.Proofs.Room.Commands
import DropRoom.Proofs.Bytes.Utf8
import DropRoom.Proofs.Url.Percent
import DropRoom.Proofs.Api.Files
import DropRoom.Proofs.Json.Scanning
import DropRoom.Proofs.Json.Decoding
import DropRoom.Proofs.Room.Documents
import DropRoom.Proofs.Page.Documents
import DropRoom.Proofs.Cache.History
import DropRoom.Proofs.Cache.Versions
import DropRoom.Proofs.Proxy.Passage
import DropRoom.Proofs.Cache.Placement
import DropRoom.Proofs.Proxy.Placement
import DropRoom.Proofs.Room.Shutdown
import DropRoom.Proofs.Settings.Check
import DropRoom.Proofs.Settings.Checked
import DropRoom.Proofs.Yaml.Mappings
import DropRoom.Proofs.Settings.Omitted
import DropRoom.Proofs.Proxy.Sources
import DropRoom.Proofs.Cache.Lookup
import DropRoom.Proofs.Cache.Cascades
import DropRoom.Proofs.Cache.Renewal
import DropRoom.Proofs.Url.Servers
import DropRoom.Proofs.Proxy.Fetched
import DropRoom.Proofs.Room.Listening
import DropRoom.Proofs.Room.Intake
import DropRoom.Proofs.Room.InOrder
import DropRoom.Proofs.Proxy.Installation
import DropRoom.Proofs.Cache.Eviction
import DropRoom.Proofs.Cache.Precedence
import DropRoom.Proofs.Proxy.Streams
import DropRoom.Proofs.Room.Connecting
import DropRoom.Proofs.Room.Table
import DropRoom.Proofs.Settings.Waits
import DropRoom.Proofs.Room.Waiting
import DropRoom.Proofs.Url.ServerPath
import DropRoom.Proofs.Api.Endpoints
import DropRoom.Proofs.Time.Offsets
import DropRoom.Proofs.Json.Grammar
import DropRoom.Proofs.Json.Trees
import DropRoom.Proofs.Json.Members
import DropRoom.Proofs.Json.Rearranged
import DropRoom.Proofs.Room.Rearranged
import DropRoom.Proofs.Api.Deletions
import DropRoom.Proofs.File.Rounding
import DropRoom.Proofs.File.Labels
import DropRoom.Proofs.File.Sizes
import DropRoom.Proofs.File.Normalised
import DropRoom.Proofs.Room.Changes
import DropRoom.Proofs.Room.Attempts
