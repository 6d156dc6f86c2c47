import GoproNative.Support.Transition
import GoproNative.Support.FirstMatch
import GoproNative.Support.History
import GoproNative.Framing.RoundTrip
import GoproNative.Queue.Ledger
import GoproNative.Session.Heeding
import GoproNative.Session.GateTruth
import GoproNative.Session.Disconnect
import GoproNative.Session.Requests
import GoproNative.Session.Routing
import GoproNative.Session.Wire
import GoproNative.Session.Ambiguity
import GoproNative.Session.Conversation
import GoproNative.Session.KeepAlive
import GoproNative.Session.KeepAliveGap
import GoproNative.Link.Stall
import GoproNative.Link.Backoff
import GoproNative.Bridge.Format
import GoproNative.Query.Grammar
import GoproNative.BringUp.Subscription
import GoproNative.Usb.Codec
import GoproNative.Usb.Settle
import GoproNative.Usb.Discovery
import GoproNative.Camera.Lifetime
import GoproNative.Camera.Reconnect
import GoproNative.Camera.Correlation
import GoproNative.Http.Download
import GoproNative.Link.Bonded
import GoproNative.Support.Delimited
import GoproNative.Usb.Identity
import GoproNative.Camera.Mtu
import GoproNative.Camera.Queries
import GoproNative.Wifi.Definitions
import GoproNative.Wifi.Paging
import GoproNative.Wifi.Joining
import GoproNative.Support.Replace
import GoproNative.Wifi.Scrubbing
import GoproNative.Http.Url
import GoproNative.Support.Json
import GoproNative.Cohn.Definitions
import GoproNative.Cohn.Store
import GoproNative.Support.Channel
import GoproNative.Usb.Mirror
import GoproNative.Usb.Watch
import GoproNative.Support.Simulation
import GoproNative.Queue.Dispatcher
import GoproNative.Queue.Promptness
import GoproNative.BringUp.Progress
import GoproNative.Support.Progress
import GoproNative.Transport.Definitions
import GoproNative.Transport.Agent
import GoproNative.Transport.SameCamera
import GoproNative.Camera.Replies
import GoproNative.Camera.Futures
import GoproNative.Support.Polling
import GoproNative.Client.Definitions
import GoproNative.Client.Polling
import GoproNative.Client.Livestream
import GoproNative.Cohn.Provision
import GoproNative.Client.OnCamera
import GoproNative.Session.Promptness
import GoproNative.Camera.Promptness
