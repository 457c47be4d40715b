import WireSentinel.Packet.WellFormed
import WireSentinel.Packet.HeaderLength
import WireSentinel.Packet.Fragments
import WireSentinel.Packet.Metadata
import WireSentinel.Packet.Tagging
import WireSentinel.Packet.Exact
import WireSentinel.Queue.Pipeline
import WireSentinel.Payload.Decode
import WireSentinel.Payload.Request
import WireSentinel.Payload.Framing
import WireSentinel.Client.Response
import WireSentinel.Client.Delivery
import WireSentinel.Client.Pairing
import WireSentinel.Client.Scanning
import WireSentinel.Client.Sockets
import WireSentinel.Client.Ingest
import WireSentinel.Queue.Threads
import WireSentinel.Client.Coherence
import WireSentinel.Config.Prompts
import WireSentinel.Queue.Flush
import WireSentinel.System.EndToEnd
import WireSentinel.System.Ended
import WireSentinel.System.Memory
import WireSentinel.System.Rest
