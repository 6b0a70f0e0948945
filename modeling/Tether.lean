import Tether.Afc.Client
import Tether.Directory
import Tether.Muxer.Address
import Tether.Muxer.Client
import Tether.Proofs.Tunnel.Calm
import Tether.Proofs.Tunnel.Sending
import Tether.Service.Apps
import Tether.Service.KeepAlive
import Tether.Service.Profiles
import Tether.Tunnel.Stream
import Tether.Proofs.Tunnel.Isolation
import Tether.Proofs.Tunnel.Cuts
import Tether.Proofs.Xpc.Receiving
import Tether.Proofs.Xpc.Closure
import Tether.Proofs.Tunnel.Routes
import Tether.Proofs.Tunnel.Chunks
import Tether.Proofs.Tunnel.Separation
import Tether.Proofs.Afc.Packet
import Tether.Proofs.Afc.Requests
import Tether.Proofs.Afc.Matching
import Tether.Proofs.Afc.Conversation
import Tether.Proofs.Afc.Files
import Tether.Proofs.Afc.Replies
import Tether.Proofs.Service.Lost
import Tether.Proofs.Service.Negotiation
import Tether.Proofs.Tunnel.Lifecycle
import Tether.Proofs.Tunnel.Closing
import Tether.Proofs.Tunnel.Gaps
import Tether.Proofs.Tunnel.Resets
import Tether.Proofs.Tunnel.Discarding
import Tether.Proofs.Xpc.Sending
import Tether.Proofs.Xpc.Extent
import Tether.Proofs.Xpc.Framing
import Tether.Proofs.Xpc.Blocked
import Tether.Proofs.Http2.Credit
import Tether.Proofs.Xpc.Windows
import Tether.Proofs.Xpc.Layout
import Tether.Proofs.Http2.Synchrony
import Tether.Proofs.Net.Wrapping
import Tether.Proofs.Net.Checksum
import Tether.Proofs.Plist.Conversion
import Tether.Proofs.Directory
import Tether.Proofs.Afc.Closing
import Tether.Proofs.Afc.Attributes
import Tether.Proofs.Afc.Accounts
import Tether.Proofs.Service.Progress
import Tether.Proofs.Muxer.Devices
import Tether.Proofs.Pairing.Record
import Tether.Proofs.Service.Patience
import Tether.Proofs.Service.Silence
import Tether.Proofs.Muxer.Replies
import Tether.Proofs.Tunnel.Setup
import Tether.Proofs.Tunnel.Capture
import Tether.Proofs.Tunnel.Sizes
import Tether.Proofs.Tunnel.Drawing
