import WireSentinel.Packet.Laws

/-!
# Frames on the wire

Well-formed Ethernet frames with an IPv4 or IPv6 packet in them, field by
field, and the bytes they are sent as. Fields the client never looks at
(checksums, options, windows) are bytes of the right number.
-/

namespace WireSentinel

def bytes16 (v : Nat) : List UInt8 := [UInt8.ofNat (v / 2 ^ 8), UInt8.ofNat v]

def bytes32 (v : Nat) : List UInt8 :=
  [UInt8.ofNat (v / 2 ^ 24), UInt8.ofNat (v / 2 ^ 16), UInt8.ofNat (v / 2 ^ 8), UInt8.ofNat v]

theorem be16_bytes16 (h : v < 2 ^ 16) : be16 (UInt8.ofNat (v / 2 ^ 8)) (UInt8.ofNat v) = v := by
  simp only [be16, UInt8.toNat_ofNat']
  omega

theorem bytes16_be16 (a b : UInt8) : bytes16 (be16 a b) = [a, b] := by
  have := b.toNat_lt
  have hhi : be16 a b / 2 ^ 8 = a.toNat := by
    unfold be16
    omega
  have hlo : UInt8.ofNat (be16 a b) = b := by
    rw [← UInt8.toNat_inj, UInt8.toNat_ofNat', be16]
    omega
  rw [bytes16, hhi, hlo, UInt8.ofNat_toNat]

theorem be32_bytes32 (h : v < 2 ^ 32) :
    be32 (UInt8.ofNat (v / 2 ^ 24)) (UInt8.ofNat (v / 2 ^ 16)) (UInt8.ofNat (v / 2 ^ 8))
      (UInt8.ofNat v) = v := by
  simp only [be32, UInt8.toNat_ofNat']
  omega

-- ---------------------------------------------------------------------------
-- Ethernet
-- ---------------------------------------------------------------------------

/-- The tags the client steps over, each with its two bytes of priority and
VLAN identifier. -/
inductive Tags where
  | untagged
  | stacked (a b : UInt8)
  | vlan (a b : UInt8)
  | both (a b c d : UInt8)

def Tags.encode : Tags → List UInt8
  | .untagged => []
  | .stacked a b => [0x88, 0xa8, a, b]
  | .vlan a b => [0x81, 0x00, a, b]
  | .both a b c d => [0x88, 0xa8, a, b, 0x81, 0x00, c, d]

def Tags.isVlan : Tags → Bool
  | .untagged | .stacked .. => false
  | .vlan .. | .both .. => true

structure Ethernet where
  destination : List UInt8
  source : List UInt8
  tags : Tags
  destination_length : destination.length = 6
  source_length : source.length = 6

def Ethernet.encode (e : Ethernet) (ethtype : Nat) : List UInt8 :=
  e.destination ++ e.source ++ e.tags.encode ++ bytes16 ethtype

def Ethernet.size (e : Ethernet) : Nat := 14 + e.tags.encode.length

theorem Ethernet.encode_length (e : Ethernet) (ethtype : Nat) :
    (e.encode ethtype).length = e.size := by
  simp [Ethernet.encode, Ethernet.size, e.destination_length, e.source_length, bytes16]
  omega

-- ---------------------------------------------------------------------------
-- Transport headers
-- ---------------------------------------------------------------------------

structure Transport where
  portaOrigem : Nat := 0
  portaDestino : Nat := 0
  tcpSeq : Nat := 0
  tcpAckSeq : Nat := 0
  tcpCwr : UInt8 := 0
  tcpEce : UInt8 := 0
  tcpUrg : UInt8 := 0
  tcpAck : UInt8 := 0
  tcpPsh : UInt8 := 0
  tcpRst : UInt8 := 0
  tcpSyn : UInt8 := 0
  tcpFin : UInt8 := 0
  deriving DecidableEq

def FullInternetPacket.transport (p : FullInternetPacket) : Transport where
  portaOrigem := p.portaOrigem
  portaDestino := p.portaDestino
  tcpSeq := p.tcpSeq
  tcpAckSeq := p.tcpAckSeq
  tcpCwr := p.tcpCwr
  tcpEce := p.tcpEce
  tcpUrg := p.tcpUrg
  tcpAck := p.tcpAck
  tcpPsh := p.tcpPsh
  tcpRst := p.tcpRst
  tcpSyn := p.tcpSyn
  tcpFin := p.tcpFin

structure TcpHeader where
  sourcePort : UInt16
  destinationPort : UInt16
  sequence : UInt32
  acknowledgement : UInt32
  dataOffset : Nat
  reserved : Nat
  cwr : Bool
  ece : Bool
  urg : Bool
  ack : Bool
  psh : Bool
  rst : Bool
  syn : Bool
  fin : Bool
  /-- Window, checksum and urgent pointer. -/
  window : List UInt8
  options : List UInt8
  dataOffset_ge : 5 ≤ dataOffset
  dataOffset_le : dataOffset ≤ 15
  reserved_lt : reserved < 16
  window_length : window.length = 6
  options_length : options.length = 4 * (dataOffset - 5)

def TcpHeader.flags (h : TcpHeader) : UInt8 :=
  h.fin.toUInt8 + 2 * h.syn.toUInt8 + 4 * h.rst.toUInt8 + 8 * h.psh.toUInt8 + 16 * h.ack.toUInt8 +
    32 * h.urg.toUInt8 + 64 * h.ece.toUInt8 + 128 * h.cwr.toUInt8

def TcpHeader.encode (h : TcpHeader) : List UInt8 :=
  bytes16 h.sourcePort.toNat ++ bytes16 h.destinationPort.toNat ++ bytes32 h.sequence.toNat ++
    bytes32 h.acknowledgement.toNat ++ [UInt8.ofNat (16 * h.dataOffset + h.reserved), h.flags] ++
    h.window ++ h.options

structure UdpHeader where
  sourcePort : UInt16
  destinationPort : UInt16
  /-- Length and checksum. -/
  rest : List UInt8
  rest_length : rest.length = 4

def UdpHeader.encode (h : UdpHeader) : List UInt8 :=
  bytes16 h.sourcePort.toNat ++ bytes16 h.destinationPort.toNat ++ h.rest

/-- The header behind the IP headers, if the client decodes it. -/
inductive Upper where
  | tcp (header : TcpHeader)
  | udp (header : UdpHeader)
  | other (protocol : UInt8) (not_tcp : protocol ≠ 6) (not_udp : protocol ≠ 17)

namespace Upper

def protocol : Upper → UInt8
  | .tcp _ => 6
  | .udp _ => 17
  | .other p _ _ => p

def encode : Upper → List UInt8
  | .tcp h => h.encode
  | .udp h => h.encode
  | .other .. => []

def transport : Upper → Transport
  | .tcp h =>
    { portaOrigem := h.sourcePort.toNat
      portaDestino := h.destinationPort.toNat
      tcpSeq := h.sequence.toNat
      tcpAckSeq := h.acknowledgement.toNat
      tcpCwr := h.cwr.toUInt8
      tcpEce := h.ece.toUInt8
      tcpUrg := h.urg.toUInt8
      tcpAck := h.ack.toUInt8
      tcpPsh := h.psh.toUInt8
      tcpRst := h.rst.toUInt8
      tcpSyn := h.syn.toUInt8
      tcpFin := h.fin.toUInt8 }
  | .udp h => { portaOrigem := h.sourcePort.toNat, portaDestino := h.destinationPort.toNat }
  | .other .. => {}

end Upper

theorem TcpHeader.encode_length (h : TcpHeader) : h.encode.length = 4 * h.dataOffset := by
  have := h.dataOffset_ge
  simp [TcpHeader.encode, bytes16, bytes32, h.window_length, h.options_length]
  omega

theorem UdpHeader.encode_length (h : UdpHeader) : h.encode.length = 8 := by
  simp [UdpHeader.encode, bytes16, h.rest_length]

theorem flag_flags (h : TcpHeader) :
    flag h.flags 0b00000001 = h.fin.toUInt8 ∧ flag h.flags 0b00000010 = h.syn.toUInt8 ∧
      flag h.flags 0b00000100 = h.rst.toUInt8 ∧ flag h.flags 0b00001000 = h.psh.toUInt8 ∧
      flag h.flags 0b00010000 = h.ack.toUInt8 ∧ flag h.flags 0b00100000 = h.urg.toUInt8 ∧
      flag h.flags 0b01000000 = h.ece.toUInt8 ∧ flag h.flags 0b10000000 = h.cwr.toUInt8 := by
  have all : ∀ f s r p a u e c : Bool,
      let b := f.toUInt8 + 2 * s.toUInt8 + 4 * r.toUInt8 + 8 * p.toUInt8 + 16 * a.toUInt8 +
        32 * u.toUInt8 + 64 * e.toUInt8 + 128 * c.toUInt8
      flag b 0b00000001 = f.toUInt8 ∧ flag b 0b00000010 = s.toUInt8 ∧
        flag b 0b00000100 = r.toUInt8 ∧ flag b 0b00001000 = p.toUInt8 ∧
        flag b 0b00010000 = a.toUInt8 ∧ flag b 0b00100000 = u.toUInt8 ∧
        flag b 0b01000000 = e.toUInt8 ∧ flag b 0b10000000 = c.toUInt8 := by decide +kernel
  exact all ..

-- ---------------------------------------------------------------------------
-- IP headers
-- ---------------------------------------------------------------------------

structure Ipv4Header where
  version : Nat
  ihl : Nat
  /-- Service, total length, identification and fragment offset. -/
  service : List UInt8
  ttl : UInt8
  checksum : List UInt8
  source : List UInt8
  destination : List UInt8
  options : List UInt8
  version_lt : version < 16
  ihl_ge : 5 ≤ ihl
  ihl_le : ihl ≤ 15
  service_length : service.length = 7
  checksum_length : checksum.length = 2
  source_length : source.length = 4
  destination_length : destination.length = 4
  options_length : options.length = 4 * (ihl - 5)

def Ipv4Header.encode (h : Ipv4Header) (protocol : UInt8) : List UInt8 :=
  UInt8.ofNat (16 * h.version + h.ihl) :: h.service ++ [h.ttl, protocol] ++ h.checksum ++
    h.source ++ h.destination ++ h.options

theorem Ipv4Header.encode_length (h : Ipv4Header) (p : UInt8) :
    (h.encode p).length = 4 * h.ihl := by
  have := h.ihl_ge
  simp [Ipv4Header.encode, h.service_length, h.checksum_length, h.source_length,
    h.destination_length, h.options_length]
  omega

structure Ipv6Header where
  /-- Version, traffic class, flow label and payload length. -/
  flow : List UInt8
  hopLimit : UInt8
  source : List UInt8
  destination : List UInt8
  flow_length : flow.length = 6
  source_length : source.length = 16
  destination_length : destination.length = 16

def Ipv6Header.encode (h : Ipv6Header) (protocol : UInt8) : List UInt8 :=
  h.flow ++ [protocol, h.hopLimit] ++ h.source ++ h.destination

theorem Ipv6Header.encode_length (h : Ipv6Header) (p : UInt8) : (h.encode p).length = 40 := by
  simp [Ipv6Header.encode, h.flow_length, h.source_length, h.destination_length]

inductive ExtKind where
  | hopByHop
  | routing
  | fragment
  | destinationOptions

def ExtKind.protocol : ExtKind → UInt8
  | .hopByHop => 0
  | .routing => 43
  | .fragment => 44
  | .destinationOptions => 60

/-- The bytes of an extension header whose second byte is `second`. -/
def ExtKind.size (second : UInt8) : ExtKind → Nat
  | .fragment => 8
  | _ => (second.toNat + 1) * 8

structure ExtHeader where
  kind : ExtKind
  second : UInt8
  body : List UInt8
  body_length : body.length + 2 = kind.size second

/-- The protocol a chain of extension headers is announced as. -/
def chainProtocol (upper : UInt8) : List ExtHeader → UInt8
  | [] => upper
  | h :: _ => h.kind.protocol

def encodeChain (upper : UInt8) : List ExtHeader → List UInt8
  | [] => []
  | h :: hs => chainProtocol upper hs :: h.second :: h.body ++ encodeChain upper hs

-- ---------------------------------------------------------------------------
-- Whole frames
-- ---------------------------------------------------------------------------

structure Ipv4Frame where
  link : Ethernet
  ip : Ipv4Header
  upper : Upper
  payload : List UInt8

/-- Where the last header the client decodes ends. -/
def Ipv4Frame.headerEnd (f : Ipv4Frame) : Nat :=
  f.link.size + 4 * f.ip.ihl + f.upper.encode.length

def Ipv4Frame.encode (f : Ipv4Frame) : List UInt8 :=
  f.link.encode 0x0800 ++ f.ip.encode f.upper.protocol ++ f.upper.encode ++ f.payload

structure Ipv6Frame where
  link : Ethernet
  ip : Ipv6Header
  extensions : List ExtHeader
  upper : Upper
  upper_not_extension : ¬ (IsSized upper.protocol.toNat ∨ upper.protocol.toNat = 44)

def Ipv6Frame.headerEnd (f : Ipv6Frame) : Nat :=
  f.link.size + 40 + (encodeChain f.upper.protocol f.extensions).length + f.upper.encode.length

def Ipv6Frame.encode (f : Ipv6Frame) : List UInt8 :=
  f.link.encode 0x86DD ++ f.ip.encode (chainProtocol f.upper.protocol f.extensions) ++
    encodeChain f.upper.protocol f.extensions ++ f.upper.encode

def Content.ofBytes (bs : List UInt8) : Content := fun i => bs.getD i 0

theorem holds_ofBytes (h : bs.length ≤ 65535) : Holds (Content.ofBytes bs).memory 0 bs := by
  refine List.ext_getElem (by simp) fun i h1 h2 => ?_
  simp only [List.getElem_map, List.getElem_range', Content.memory, Content.ofBytes]
  rw [dif_pos (by omega)]
  simp [h2]

end WireSentinel
