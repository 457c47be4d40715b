import WireSentinel.Lib.Reader
import WireSentinel.Packet.Record

/-!
# The packet parser

`packet_service.c`. The functions take the captured bytes as the memory of
a `Reader`, so every `buffer[i]` of the source is one `byte i`. A record
the source fills through a pointer is passed in and handed back. `NULL` is
`none`.
-/

namespace WireSentinel

open Reader (byte bytes)
open Text (hexByte decimal snprintf)

/-- `unsigned char content[65535]`, the slot of the raw queue a frame is
parsed in. -/
abbrev Content := Fin 65535 → UInt8

/-- A slot as memory. Nothing is read behind its end (`fill_reads_lt`). -/
def Content.memory (content : Content) : Memory :=
  fun i => if h : i < 65535 then content ⟨i, h⟩ else 0

-- ---------------------------------------------------------------------------
-- Numbers and texts
-- ---------------------------------------------------------------------------

/-- `(((uint16_t)buffer[i])<<8 | buffer[i+1])` -/
def word16 (i : Nat) : Reader Nat := do
  let hi ← byte i
  let lo ← byte (i + 1)
  pure (hi.toNat <<< 8 ||| lo.toNat)

/-- `((uint32_t)buffer[i])<<24 | (uint32_t)buffer[i+1]<<16 | (uint32_t)buffer[i+2]<<8 |
(uint32_t)buffer[i+3]` -/
def word32 (i : Nat) : Reader Nat := do
  let a ← byte i
  let b ← byte (i + 1)
  let c ← byte (i + 2)
  let d ← byte (i + 3)
  pure (a.toNat <<< 24 ||| b.toNat <<< 16 ||| c.toNat <<< 8 ||| d.toNat)

/-- `(byte & mask) ? 1 : 0` -/
def flag (byte mask : UInt8) : UInt8 := if byte &&& mask ≠ 0 then 1 else 0

/-- `"%02x:%02x:%02x:%02x:%02x:%02x"` -/
def macText (raw : List UInt8) : CString := [':'].intercalate (raw.map hexByte)

/-- `"%d.%d.%d.%d"` -/
def ipv4Text (raw : List UInt8) : CString := ['.'].intercalate (raw.map fun b => decimal b.toNat)

/-- The `%02x%02x` groups of an IPv6 address. -/
def hexGroups : List UInt8 → List CString
  | a :: b :: rest => (hexByte a ++ hexByte b) :: hexGroups rest
  | _ => []

/-- `"%02x%02x:%02x%02x:%02x%02x:%02x%02x:%02x%02x:%02x%02x:%02x%02x:%02x%02x"` -/
def ipv6Text (raw : List UInt8) : CString := [':'].intercalate (hexGroups raw)

-- ---------------------------------------------------------------------------
-- Transport
-- ---------------------------------------------------------------------------

/-- `fill_tcp`: the record and the header's length. -/
def fillTcp (offset : Nat) (node : FullInternetPacket) : Reader (FullInternetPacket × Nat) := do
  let sourcePort ← word16 offset
  let destPort ← word16 (offset + 2)
  let seqNbr ← word32 (offset + 4)
  let ackNbr ← word32 (offset + 8)
  let flags ← byte (offset + 13)
  let dataOffset ← byte (offset + 12)
  let node := { node with
    portaDestino := destPort
    portaOrigem := sourcePort
    tcpSeq := seqNbr
    tcpAckSeq := ackNbr
    tcpFin := flag flags 0b00000001
    tcpSyn := flag flags 0b00000010
    tcpRst := flag flags 0b00000100
    tcpPsh := flag flags 0b00001000
    tcpAck := flag flags 0b00010000
    tcpUrg := flag flags 0b00100000
    tcpEce := flag flags 0b01000000
    tcpCwr := flag flags 0b10000000 }
  pure (node, (dataOffset.toNat >>> 4) * 4)

def fillUdp (offset : Nat) (node : FullInternetPacket) : Reader (FullInternetPacket × Nat) := do
  let sourcePort ← word16 offset
  let destPort ← word16 (offset + 2)
  pure ({ node with portaDestino := destPort, portaOrigem := sourcePort }, 8)

/-- The `default` branch of the transport switch: it leaves the ECE and CWR
flags alone. -/
def clearTransport (node : FullInternetPacket) : FullInternetPacket :=
  { node with
    portaDestino := 0
    portaOrigem := 0
    tcpSeq := 0
    tcpAckSeq := 0
    tcpAck := 0
    tcpFin := 0
    tcpSyn := 0
    tcpRst := 0
    tcpPsh := 0
    tcpUrg := 0 }

/-- The transport switch and the assignment after it, which the source
spells out once for each IP family. -/
def fillTransport (recvlen : Int) (node : FullInternetPacket) :
    Reader (Option FullInternetPacket) :=
  let transportOffset := node.totalHeaderLenght
  if node.protocoloTransporte = 6 then
    if recvlen < transportOffset + 20 then pure none
    else do
      let (node, lenght) ← fillTcp transportOffset node
      pure (some (node.setHeader (transportOffset + lenght)))
  else if node.protocoloTransporte = 17 then
    if recvlen < transportOffset + 8 then pure none
    else do
      let (node, lenght) ← fillUdp transportOffset node
      pure (some (node.setHeader (transportOffset + lenght)))
  else
    pure (some ((clearTransport node).setHeader transportOffset))

-- ---------------------------------------------------------------------------
-- IPv4
-- ---------------------------------------------------------------------------

/-- The protocol switch of `fill_ipv4`: ICMP, STREAM, TCP, UDP. -/
def ipv4Transporte (protocolo : Nat) : Int :=
  if protocolo = 1 then 1
  else if protocolo = 5 then 5
  else if protocolo = 6 then 6
  else if protocolo = 17 then 17
  else -1

def fillIpv4 (node : FullInternetPacket) (offsetEthernet : Nat) : Reader FullInternetPacket := do
  let versionIhl ← byte offsetEthernet
  let ihl := (versionIhl &&& 0b00001111).toNat * 4
  let timeToLive ← byte (offsetEthernet + 8)
  let protocolo ← byte (offsetEthernet + 9)
  let ipSourceRaw ← bytes (offsetEthernet + 12) 4
  let ipDestRaw ← bytes (offsetEthernet + 16) 4
  pure { node with
    ipDestino := snprintf 64 (ipv4Text ipDestRaw)
    ipOrigem := snprintf 64 (ipv4Text ipSourceRaw)
    totalHeaderLenght := ihl + offsetEthernet
    tempoVida := timeToLive.toNat
    protocoloTransporte := ipv4Transporte protocolo.toNat }

/-- The `define_protocol == 1` block of `fill_fullPacket_node`. -/
def ipv4Layer (recvlen : Int) (ethrHeaderLen : Nat) (node : FullInternetPacket) :
    Reader (Option FullInternetPacket) :=
  if recvlen < ethrHeaderLen + 20 then pure none
  else do
    let node ← fillIpv4 node ethrHeaderLen
    if node.totalHeaderLenght < 20 + ethrHeaderLen ∨ recvlen < node.totalHeaderLenght then pure none
    else fillTransport recvlen node

-- ---------------------------------------------------------------------------
-- IPv6
-- ---------------------------------------------------------------------------

/-- The variables the extension-header loop of `fill_ipv6` works on. -/
structure ExtLoop where
  condBreakLoop : Nat
  protocolo : Nat
  currIndex : Nat
  node : FullInternetPacket

/-- `cond_break_loop && cond_break_loop < 8` -/
def ExtLoop.Running (s : ExtLoop) : Prop := s.condBreakLoop ≠ 0 ∧ s.condBreakLoop < 8

instance (s : ExtLoop) : Decidable s.Running := inferInstanceAs (Decidable (_ ∧ _))

/-- The cases that end the loop: ICMP, STREAM, TCP, UDP, ICMPv6 and
`default`. -/
def ipv6Transporte (protocolo : Nat) : Int :=
  if protocolo = 1 then 1
  else if protocolo = 5 then 5
  else if protocolo = 6 then 6
  else if protocolo = 17 then 17
  else if protocolo = 58 then 58
  else -1

/-- Cases 0, 43 and 60: hop-by-hop, routing and destination options, whose
second byte is their length. -/
def ExtLoop.sized (s : ExtLoop) : Reader ExtLoop := do
  let protocolo ← byte s.currIndex
  let lenght ← byte (s.currIndex + 1)
  pure { s with
    condBreakLoop := s.condBreakLoop + 1
    protocolo := protocolo.toNat
    currIndex := s.currIndex + (lenght.toNat + 1) * 8 }

/-- Case 44: the fragment header, of eight bytes. -/
def ExtLoop.fragment (s : ExtLoop) : Reader ExtLoop := do
  let protocolo ← byte s.currIndex
  pure { s with
    condBreakLoop := s.condBreakLoop + 1
    protocolo := protocolo.toNat
    currIndex := s.currIndex + 8 }

def ExtLoop.stop (s : ExtLoop) : ExtLoop :=
  { s with condBreakLoop := 0, node := s.node.setTransporte (ipv6Transporte s.protocolo) }

/-- The protocols whose headers give their own length. -/
def IsSized (protocolo : Nat) : Prop := protocolo = 0 ∨ protocolo = 43 ∨ protocolo = 60

instance (protocolo : Nat) : Decidable (IsSized protocolo) := inferInstanceAs (Decidable (_ ∨ _))

/-- The body of the loop: the switch, then `total_header_lenght = curr_index`. -/
def ExtLoop.body (s : ExtLoop) : Reader ExtLoop := do
  let s ←
    if IsSized s.protocolo then s.sized
    else if s.protocolo = 44 then s.fragment
    else pure s.stop
  pure { s with node := s.node.setHeader s.currIndex }

/-- The loop. `fuel` bounds the iterations; `ExtLoop.run_exits` shows that
seven are enough for the test to fail by itself. -/
def ExtLoop.run : Nat → ExtLoop → Reader ExtLoop
  | 0, s => pure s
  | fuel + 1, s =>
    if s.Running then do
      let s ← s.body
      s.run fuel
    else pure s

def fillIpv6 (node : FullInternetPacket) (offsetEthernet : Nat) : Reader FullInternetPacket := do
  let ttl ← byte (offsetEthernet + 7)
  let protocolo ← byte (offsetEthernet + 6)
  let ipSourceRaw ← bytes (offsetEthernet + 8) 16
  let ipDestRaw ← bytes (offsetEthernet + 24) 16
  let node := { node with
    ipOrigem := snprintf 64 (ipv6Text ipSourceRaw)
    ipDestino := snprintf 64 (ipv6Text ipDestRaw)
    totalHeaderLenght := 40
    tempoVida := ttl.toNat }
  let s ← ExtLoop.run 7
    { condBreakLoop := 1, protocolo := protocolo.toNat, currIndex := 40 + offsetEthernet, node }
  pure s.node

/-- The `define_protocol == 2` block of `fill_fullPacket_node`. -/
def ipv6Layer (recvlen : Int) (ethrHeaderLen : Nat) (node : FullInternetPacket) :
    Reader (Option FullInternetPacket) :=
  if recvlen < ethrHeaderLen + 40 then pure none
  else do
    let node ← fillIpv6 node ethrHeaderLen
    fillTransport recvlen node

-- ---------------------------------------------------------------------------
-- Ethernet
-- ---------------------------------------------------------------------------

/-- What `fill_fullPacket_node` knows of the link header. -/
structure Link where
  node : FullInternetPacket
  ethtype : Nat
  ethrHeaderLen : Nat
  offset : Nat

/-- The MAC addresses and the first EtherType. The source stores `recvlen`
in `tamanho_total_packet` first, but the `memset` after it clears it. -/
def readLink : Reader Link := do
  let destino ← bytes 0 6
  let origem ← bytes 6 6
  let ethtype ← word16 12
  let node : FullInternetPacket := {
    macDestino := snprintf 64 (macText destino)
    macOrigem := snprintf 64 (macText origem) }
  pure { node, ethtype, ethrHeaderLen := 14, offset := 0 }

/-- What the two tag blocks share: step over four bytes and read the
EtherType behind them. -/
def skipTag (recvlen : Int) (link : Link) : Reader (Option Link) :=
  let offset := link.offset + 4
  if recvlen < 14 + offset then pure none
  else do
    let ethtype ← word16 (12 + offset)
    pure (some { link with ethtype, ethrHeaderLen := link.ethrHeaderLen + 4, offset })

/-- `if (ethtype == 0x88a8)` -/
def stackedTag (recvlen : Int) (link : Link) : Reader (Option Link) :=
  if link.ethtype = 0x88a8 then skipTag recvlen link else pure (some link)

/-- `if (ethtype == 0x8100)` -/
def vlanTag (recvlen : Int) (link : Link) : Reader (Option Link) :=
  if link.ethtype = 0x8100 then
    skipTag recvlen { link with node := link.node.setVlan 0b1 }
  else pure (some link)

/-- What every EtherType but IPv4 and IPv6 sets, under its own name. -/
def nonIp (name : String) (node : FullInternetPacket) : FullInternetPacket :=
  { node with
    protocoloIp := name.toList
    ipOrigem := "Null".toList
    ipDestino := "Null".toList
    protocoloTransporte := -1
    tempoVida := 0
    totalHeaderLenght := 0
    tamanhoTotalPacket := 0 }

/-- The EtherType switch: the record and `define_protocol`. -/
def nameProtocol (ethtype : Nat) (node : FullInternetPacket) : FullInternetPacket × Nat :=
  if ethtype = 0x0800 then ({ node with protocoloIp := "IPv4".toList }, 1)
  else if ethtype = 0x86DD then ({ node with protocoloIp := "IPv6".toList }, 2)
  else if ethtype = 0x0806 then (nonIp "ARP" node, 3)
  else if ethtype = 0x8035 then (nonIp "RARP" node, 4)
  else if ethtype = 0x8847 then (nonIp "MPLS Unicast" node, 6)
  else if ethtype = 0x8848 then (nonIp "MPLS Multicast" node, 7)
  else if ethtype = 0x8864 then (nonIp "PPPoE Session" node, 8)
  else if ethtype = 0x8863 then (nonIp "PPPoE Discovery" node, 9)
  else (nonIp "Unknown" node, 10)

/-- The two blocks behind the EtherType switch. -/
def internetLayer (recvlen : Int) (ethrHeaderLen : Nat) :
    FullInternetPacket × Nat → Reader (Option FullInternetPacket)
  | (node, defineProtocol) =>
    if defineProtocol = 1 then ipv4Layer recvlen ethrHeaderLen node
    else if defineProtocol = 2 then ipv6Layer recvlen ethrHeaderLen node
    else pure (some node)

/-- `fill_fullPacket_node`; `now` is the time `get_time` reads at the end. -/
def fillFullPacketNode (recvlen : Int) (now : Tm) : Reader (Option FullInternetPacket) :=
  if recvlen < 14 then pure none
  else do
    let link ← readLink
    (stackedTag recvlen link).andThen fun link =>
      (vlanTag recvlen link).andThen fun link =>
        (internetLayer recvlen link.ethrHeaderLen (nameProtocol link.ethtype link.node)).andThen
          fun node => pure (some (node.setTimestamp (getTime now)))

end WireSentinel
