import WireSentinel.Queue.BufferList

/-!
# The packet queue

`packet_list.c`: the records the parser thread hands to the payload thread.
A record hangs off its node and is freed with it.
-/

namespace WireSentinel

abbrev PacketList := Queue (Tagged FullInternetPacket)

/-- The bound of the loop in `insert_packet_node_on_list`. -/
def maxPackets : Nat := 1000

def freePacket (s : Front (Tagged FullInternetPacket)) :
    Except Fault (Front (Tagged FullInternetPacket)) :=
  freeFirst s

def insertPacketNodeOnList (hint : Nat) (pkt : Tagged FullInternetPacket) (q : PacketList) :
    Except Fault (PacketList × List (Tagged FullInternetPacket)) :=
  q.insertLast freePacket maxPackets hint pkt

def freeList (q : PacketList) : Except Fault PacketList := do
  let s ← freeAll q.heap.length { heap := q.heap, inicio := q.inicio, quantity := q.quantity }
  pure { q with heap := s.heap, inicio := s.inicio, quantity := 0 }

/-- The payload thread's `free_list`, after which it resets both pointers. -/
def resetList (q : PacketList) : Except Fault PacketList := do
  let q ← freeList q
  pure { q with inicio := none, final := none }

end WireSentinel
