import WireSentinel.Packet.Captured
import WireSentinel.Packet.Frames

/-!
# The parser inverts the encoders

`parse_ipv4Frame` and `parse_ipv6Frame`: a well-formed frame at the start
of a slot is parsed to a record from which its addresses, transport header
and exact header length are read back. The IPv6 walk is an induction over
the chain of extension headers.
-/

namespace WireSentinel

open Text (readColonHex readDotted readHex hexByte decimal IsHexDigit)

variable {mem : Memory} {i k : Nat} {node : FullInternetPacket}

-- ---------------------------------------------------------------------------
-- Address texts
-- ---------------------------------------------------------------------------

theorem readHex_hexByte_self (b : UInt8) : readHex (hexByte b) = some [b] := by
  simpa [readHex] using Text.readHex_hexByte b []

theorem flatten_singletons (raw : List UInt8) : (raw.map fun b => [b]).flatten = raw := by
  induction raw with
  | nil => rfl
  | cons b raw ih => simp [ih]

theorem readColonHex_macText (hne : raw ≠ []) : readColonHex (macText raw) = some raw := by
  have h := Text.readColonHex_intercalate (raw.map hexByte) (by simpa using hne)
    (by
      simp only [List.forall_mem_map]
      exact fun b _ hc => Text.colon_not_hexDigit (Text.isHexDigit_of_mem_hexByte hc))
    (Text.mapM_map (h := fun b => [b]) fun b _ => readHex_hexByte_self b)
  rwa [flatten_singletons] at h

theorem readHex_hexGroups (raw : List UInt8) (hlen : raw.length % 2 = 0) :
    ∃ gs, (hexGroups raw).mapM readHex = some gs ∧ gs.flatten = raw := by
  fun_induction hexGroups raw with
  | case1 a b rest ih =>
    obtain ⟨gs, hgs, hflat⟩ := ih (by simp at hlen; omega)
    refine ⟨[a, b] :: gs, ?_, by simp [hflat]⟩
    rw [List.mapM_cons, Text.readHex_hexByte, readHex_hexByte_self, hgs]
    rfl
  | case2 raw hshort =>
    cases raw with
    | nil => exact ⟨[], rfl, rfl⟩
    | cons a rest =>
      cases rest with
      | nil => simp at hlen
      | cons b rest => exact absurd rfl (hshort a b rest)

theorem readColonHex_ipv6Text (hlen : raw.length = 16) :
    readColonHex (ipv6Text raw) = some raw := by
  obtain ⟨gs, hgs, hflat⟩ := readHex_hexGroups raw (by omega)
  have hne : hexGroups raw ≠ [] := by
    apply List.ne_nil_of_length_pos
    rw [hexGroups_length, hlen]
    decide
  have h := Text.readColonHex_intercalate _ hne
    (fun g hg hc => Text.colon_not_hexDigit ((formed_of_mem_hexGroups hg).2 _ hc)) hgs
  rwa [hflat] at h

-- ---------------------------------------------------------------------------
-- The link header
-- ---------------------------------------------------------------------------

theorem ethtypeBefore_of_holds (h : Holds mem i (bytes16 t)) (ht : t < 2 ^ 16) :
    ethtypeBefore mem (i + 2) = t := by
  simp only [bytes16, holds_cons, holds_nil, and_true] at h
  simp only [ethtypeBefore, Nat.add_sub_cancel, show i + 2 - 1 = i + 1 by omega, h.1, h.2]
  exact be16_bytes16 ht

theorem linkEnd_of_holds (e : Ethernet) (ht : t < 2 ^ 16) (h1 : t ≠ 0x88a8) (h2 : t ≠ 0x8100)
    (h : Holds mem 0 (e.encode t)) : linkEnd mem = ⟨e.size, t, e.tags.isVlan⟩ := by
  have hd := e.destination_length
  have hs := e.source_length
  simp only [Ethernet.encode, holds_append, hd, hs, List.length_append, Nat.zero_add] at h
  obtain ⟨⟨-, htags⟩, htype⟩ := h
  have hlast := ethtypeBefore_of_holds htype ht
  have tag : ∀ {i a b} {p : List UInt8}, Holds mem i (a :: b :: p) →
      ethtypeBefore mem (i + 2) = be16 a b := by
    intro i a b p h
    simp only [holds_cons] at h
    simp [ethtypeBefore, h.1, h.2.1, show i + 2 - 1 = i + 1 by omega]
  cases htg : e.tags with
  | untagged =>
    simp only [htg, Tags.encode, List.length_nil] at htags hlast
    simp [linkEnd, stackedEnd, hlast, h1, h2, Ethernet.size, htg, Tags.encode, Tags.isVlan]
  | stacked a b =>
    simp only [htg, Tags.encode, List.length_cons, List.length_nil] at htags hlast
    have h88 : ethtypeBefore mem 14 = 0x88a8 := tag htags
    simp [linkEnd, stackedEnd, h88, hlast, h2, Ethernet.size, htg, Tags.encode, Tags.isVlan]
  | vlan a b =>
    simp only [htg, Tags.encode, List.length_cons, List.length_nil] at htags hlast
    have h81 : ethtypeBefore mem 14 = 0x8100 := tag htags
    simp [linkEnd, stackedEnd, h81, hlast, Ethernet.size, htg, Tags.encode, Tags.isVlan]
  | both a b c d =>
    simp only [htg, Tags.encode, List.length_cons, List.length_nil] at htags hlast
    have h88 : ethtypeBefore mem 14 = 0x88a8 := tag htags
    have h81 : ethtypeBefore mem 18 = 0x8100 := by
      simp only [holds_cons] at htags
      exact tag (holds_cons.mpr ⟨htags.2.2.2.2.1, holds_cons.mpr ⟨htags.2.2.2.2.2.1, holds_nil⟩⟩)
    simp [linkEnd, stackedEnd, h88, h81, hlast, Ethernet.size, htg, Tags.encode, Tags.isVlan]

structure DecodesLink (r : FullInternetPacket) (e : Ethernet) : Prop where
  destination : readColonHex r.macDestino = some e.destination
  source : readColonHex r.macOrigem = some e.source
  isVlan : r.isVlan = if e.tags.isVlan then 1 else 0

theorem linkRecord_of_holds (e : Ethernet) (ht : t < 2 ^ 16) (h1 : t ≠ 0x88a8) (h2 : t ≠ 0x8100)
    (h : Holds mem 0 (e.encode t)) : DecodesLink (linkRecord mem) e := by
  have hend := linkEnd_of_holds e ht h1 h2 h
  have hd := e.destination_length
  have hs := e.source_length
  simp only [Ethernet.encode, holds_append, hd, Nat.zero_add] at h
  have hdest := h.1.1.1.map_range' hd
  have hsrc := h.1.1.2.map_range' hs
  have hmac : macRecord mem =
      { macDestino := macText e.destination, macOrigem := macText e.source } := by
    rw [macRecord, hdest, hsrc]
  have hdne : e.destination ≠ [] := List.ne_nil_of_length_pos (by omega)
  have hsne : e.source ≠ [] := List.ne_nil_of_length_pos (by omega)
  rw [linkRecord, hend, hmac]
  cases hv : e.tags.isVlan
  · exact ⟨readColonHex_macText hdne, readColonHex_macText hsne, by simp [hv]⟩
  · exact ⟨readColonHex_macText hdne, readColonHex_macText hsne, by
      simp [hv, FullInternetPacket.setVlan]⟩

-- ---------------------------------------------------------------------------
-- The transport header
-- ---------------------------------------------------------------------------

theorem tcpRecord_of_holds (node : FullInternetPacket) (h : TcpHeader) (hm : Holds mem i h.encode) :
    (tcpRecord mem i node).transport = (Upper.tcp h).transport ∧
      tcpLenght mem i = h.encode.length := by
  have hoff : (UInt8.ofNat (16 * h.dataOffset + h.reserved)).toNat / 16 = h.dataOffset := by
    have := h.dataOffset_le
    have := h.reserved_lt
    simp only [UInt8.toNat_ofNat']
    omega
  have hport := be16_bytes16 h.sourcePort.toNat_lt
  have hdport := be16_bytes16 h.destinationPort.toNat_lt
  have hseq := be32_bytes32 h.sequence.toNat_lt
  have hack := be32_bytes32 h.acknowledgement.toNat_lt
  obtain ⟨f1, f2, f3, f4, f5, f6, f7, f8⟩ := flag_flags h
  simp only [TcpHeader.encode, bytes16, bytes32, List.cons_append, List.nil_append, holds_cons,
    holds_append, Nat.add_assoc, Nat.reduceAdd] at hm
  obtain ⟨b0, b1, b2, b3, b4, b5, b6, b7, b8, b9, b10, b11, b12, b13, -⟩ := hm
  constructor
  · simp only [FullInternetPacket.transport, Upper.transport, tcpRecord, b0, b1, b2, b3, b4, b5, b6,
      b7, b8, b9, b10, b11, b13, hport, hdport, hseq, hack, f1, f2, f3, f4, f5, f6, f7, f8]
  · rw [TcpHeader.encode_length, tcpLenght, b12, hoff, Nat.mul_comm]

theorem udpRecord_of_holds (h : UdpHeader) (hm : Holds mem i h.encode)
    (hzero : node.transport = {}) :
    (udpRecord mem i node).transport = (Upper.udp h).transport := by
  have hport := be16_bytes16 h.sourcePort.toNat_lt
  have hdport := be16_bytes16 h.destinationPort.toNat_lt
  simp only [UdpHeader.encode, bytes16, List.cons_append, List.nil_append, holds_cons,
    Nat.add_assoc, Nat.reduceAdd] at hm
  obtain ⟨b0, b1, b2, b3, -⟩ := hm
  simp only [FullInternetPacket.transport, Transport.mk.injEq] at hzero
  simp only [FullInternetPacket.transport, Upper.transport, udpRecord, b0, b1, b2, b3, hport,
    hdport, hzero]

/-- The fields that the transport layer and the clock do not touch. -/
def FullInternetPacket.SameIp (r s : FullInternetPacket) : Prop :=
  r.isVlan = s.isVlan ∧ r.macOrigem = s.macOrigem ∧ r.macDestino = s.macDestino ∧
    r.ipOrigem = s.ipOrigem ∧ r.ipDestino = s.ipDestino ∧ r.tempoVida = s.tempoVida

/-- `transporte` is what an upper header's protocol is recorded as. -/
def Upper.RecordedAs (u : Upper) (transporte : Int) : Prop :=
  match u with
  | .tcp _ => transporte = 6
  | .udp _ => transporte = 17
  | .other .. => transporte ≠ 6 ∧ transporte ≠ 17

theorem clearTransport_transport (hzero : node.transport = {}) :
    (clearTransport node).transport = {} := by
  simp only [FullInternetPacket.transport, Transport.mk.injEq] at hzero
  simp [FullInternetPacket.transport, clearTransport, hzero]

theorem fillTransport_of_holds (recvlen : Int) (node : FullInternetPacket) (u : Upper)
    (hm : Holds mem node.totalHeaderLenght u.encode)
    (ht : u.RecordedAs node.protocoloTransporte) (hzero : node.transport = {})
    (hlen : (node.totalHeaderLenght + u.encode.length : Int) ≤ recvlen) :
    ∃ r, (fillTransport recvlen node).eval mem = some r ∧ r.SameIp node ∧
      r.protocoloTransporte = node.protocoloTransporte ∧ r.transport = u.transport ∧
      r.totalHeaderLenght = node.totalHeaderLenght + u.encode.length := by
  cases u with
  | tcp h =>
    obtain ⟨htr, hl⟩ := tcpRecord_of_holds node h hm
    have hmin := h.dataOffset_ge
    have hsize := h.encode_length
    simp only [Upper.encode] at hlen
    refine ⟨(tcpRecord mem node.totalHeaderLenght node).setHeader
        (node.totalHeaderLenght + tcpLenght mem node.totalHeaderLenght), ?_,
        ⟨rfl, rfl, rfl, rfl, rfl, rfl⟩, rfl, htr, ?_⟩
    · rw [fillTransport_tcp mem ht, if_neg (by omega)]
    · rw [hl]
      rfl
  | udp h =>
    have htr := udpRecord_of_holds h hm hzero
    simp only [Upper.encode, h.encode_length] at hlen ⊢
    refine ⟨(udpRecord mem node.totalHeaderLenght node).setHeader (node.totalHeaderLenght + 8), ?_,
        ⟨rfl, rfl, rfl, rfl, rfl, rfl⟩, rfl, htr, rfl⟩
    rw [fillTransport_udp mem ht, if_neg (by omega)]
  | other p h6 h17 =>
    exact ⟨_, fillTransport_other mem ht.1 ht.2, ⟨rfl, rfl, rfl, rfl, rfl, rfl⟩, rfl,
      clearTransport_transport hzero, rfl⟩

-- ---------------------------------------------------------------------------
-- The IP layer
-- ---------------------------------------------------------------------------

theorem ipBase_transport (mem : Memory) (name : String) : (ipBase mem name).transport = {} := by
  unfold ipBase linkRecord
  split <;> rfl

theorem walked_transport (node : FullInternetPacket) (w : Int × Nat) :
    (node.walked w).transport = node.transport := rfl

theorem ipv6Record_transport (mem : Memory) (o : Nat) (node : FullInternetPacket) :
    (ipv6Record mem o node).transport = node.transport := rfl

/-- What a record says about the addresses, the lifetime and the tags. -/
structure DecodesIp (r : FullInternetPacket) (link : Ethernet) (source destination : List UInt8)
    (ttl : UInt8) (read : CString → Option (List UInt8)) : Prop where
  link : DecodesLink r link
  source : read r.ipOrigem = some source
  destination : read r.ipDestino = some destination
  tempoVida : r.tempoVida = ttl.toNat

theorem decodesIp_of_sameIp {read : CString → Option (List UInt8)}
    (h : DecodesIp s e source destination ttl read) (hr : r.SameIp s) :
    DecodesIp r e source destination ttl read := by
  obtain ⟨hvlan, hsrc, hdst, ho, hd, ht⟩ := hr
  exact ⟨⟨hdst ▸ h.link.destination, hsrc ▸ h.link.source, hvlan ▸ h.link.isVlan⟩,
    ho ▸ h.source, hd ▸ h.destination, ht ▸ h.tempoVida⟩

theorem sameIp_setTimestamp (r : FullInternetPacket) (t : CString) : (r.setTimestamp t).SameIp r :=
  ⟨rfl, rfl, rfl, rfl, rfl, rfl⟩

theorem sameIp_walked (r : FullInternetPacket) (w : Int × Nat) : (r.walked w).SameIp r :=
  ⟨rfl, rfl, rfl, rfl, rfl, rfl⟩

/-- A protocol as a record names it: one of the known numbers, or -1. -/
def named (known : List UInt8) (p : UInt8) : Int := if p ∈ known then (p.toNat : Int) else -1

theorem Upper.recordedAs_named (u : Upper) (h6 : 6 ∈ known) (h17 : 17 ∈ known) :
    u.RecordedAs (named known u.protocol) := by
  cases u with
  | tcp h => simp [Upper.RecordedAs, Upper.protocol, named, h6]
  | udp h => simp [Upper.RecordedAs, Upper.protocol, named, h17]
  | other p hp6 hp17 =>
    have hp6 : p.toNat ≠ 6 := fun h => hp6 (UInt8.toNat_inj.mp h)
    have hp17 : p.toNat ≠ 17 := fun h => hp17 (UInt8.toNat_inj.mp h)
    by_cases hk : p ∈ known
    · simp only [Upper.RecordedAs, Upper.protocol, named, hk, ↓reduceIte]
      omega
    · simp [Upper.RecordedAs, Upper.protocol, named, hk]

def ipv4Named (p : UInt8) : Int := named [1, 5, 6, 17] p

def ipv6Named (p : UInt8) : Int := named [1, 5, 6, 17, 58] p

theorem Upper.recordedAs_ipv4 (u : Upper) : u.RecordedAs (ipv4Named u.protocol) :=
  u.recordedAs_named (by decide) (by decide)

theorem Upper.recordedAs_ipv6 (u : Upper) : u.RecordedAs (ipv6Named u.protocol) :=
  u.recordedAs_named (by decide) (by decide)

theorem ipv4Transporte_eq (p : UInt8) : ipv4Transporte p.toNat = ipv4Named p := by
  have all : ∀ p : Fin 256, ipv4Transporte p.val = ipv4Named (UInt8.ofNat p.val) := by
    decide +kernel
  simpa using all ⟨p.toNat, p.toNat_lt⟩

theorem ipv6Transporte_eq (p : UInt8) : ipv6Transporte p.toNat = ipv6Named p := by
  have all : ∀ p : Fin 256, ipv6Transporte p.val = ipv6Named (UInt8.ofNat p.val) := by
    decide +kernel
  simpa using all ⟨p.toNat, p.toNat_lt⟩

-- ---------------------------------------------------------------------------
-- IPv4
-- ---------------------------------------------------------------------------

theorem ipv4Record_of_holds (node : FullInternetPacket) (h : Ipv4Header) (p : UInt8)
    (hm : Holds mem i (h.encode p)) :
    (mem i).toNat % 16 = h.ihl ∧
      ipv4Record mem i node = { node with
        ipDestino := ipv4Text h.destination
        ipOrigem := ipv4Text h.source
        totalHeaderLenght := i + 4 * h.ihl
        tempoVida := h.ttl.toNat
        protocoloTransporte := ipv4Transporte p.toNat } := by
  have hihl : (UInt8.ofNat (16 * h.version + h.ihl)).toNat % 16 = h.ihl := by
    have := h.ihl_le
    simp only [UInt8.toNat_ofNat']
    omega
  simp only [Ipv4Header.encode, List.cons_append, holds_cons, holds_append, h.service_length,
    h.checksum_length, h.source_length, h.destination_length, List.length_append, List.length_cons,
    List.length_nil, Nat.add_assoc, Nat.reduceAdd] at hm
  obtain ⟨h0, ⟨⟨⟨-, h8, h9, -⟩, -⟩, hsrc⟩, hdst⟩ := hm.imp_right And.left
  rw [h0]
  refine ⟨hihl, ?_⟩
  rw [ipv4Record, h0, hihl, h8, h9, hsrc.map_range' h.source_length,
    hdst.map_range' h.destination_length, Nat.add_comm, Nat.mul_comm]

/-- A well-formed IPv4 frame, and nothing else, in the slot: the parser
returns a record that decodes to it.

Premise: the slot starts with the frame's bytes, and `recvlen` is their
number. -/
theorem parse_ipv4Frame (f : Ipv4Frame) (content : Content)
    (h : Holds content.memory 0 f.encode) (now : Tm) :
    ∃ r, parse content f.encode.length now = some r ∧
      DecodesIp r f.link f.ip.source f.ip.destination f.ip.ttl readDotted ∧
      r.transport = f.upper.transport ∧
      r.protocoloTransporte = ipv4Named f.upper.protocol ∧
      r.totalHeaderLenght = f.headerEnd := by
  unfold Ipv4Frame.encode at h
  simp only [holds_append, f.link.encode_length, f.ip.encode_length, List.length_append,
    Nat.zero_add] at h
  obtain ⟨⟨⟨hlink, hip⟩, hupper⟩, -⟩ := h
  have hend := linkEnd_of_holds f.link (by decide) (by decide) (by decide) hlink
  have hrec := linkRecord_of_holds f.link (by decide) (by decide) (by decide) hlink
  obtain ⟨hihl, hnode⟩ := ipv4Record_of_holds (ipBase content.memory "IPv4") f.ip _ hip
  have hsize : f.encode.length =
      f.link.size + 4 * f.ip.ihl + f.upper.encode.length + f.payload.length := by
    simp [Ipv4Frame.encode, f.link.encode_length, f.ip.encode_length]
    omega
  have hge := f.ip.ihl_ge
  have hparse : parse content f.encode.length now =
      ((fillTransport f.encode.length (ipv4Record content.memory f.link.size
        (ipBase content.memory "IPv4"))).eval content.memory).map
        (·.setTimestamp (getTime now)) := by
    rw [parse, fill_ipv4 content.memory (by rw [hend]), hend, ipv4Layer_eval, hihl,
      if_neg (by simp only; omega), if_neg (by simp only; omega)]
  rw [ipv4Transporte_eq] at hnode
  rw [hnode] at hparse
  obtain ⟨r, hr, hsame, hproto, htr, hhl⟩ := fillTransport_of_holds f.encode.length
    { ipBase content.memory "IPv4" with
      ipDestino := ipv4Text f.ip.destination
      ipOrigem := ipv4Text f.ip.source
      totalHeaderLenght := f.link.size + 4 * f.ip.ihl
      tempoVida := f.ip.ttl.toNat
      protocoloTransporte := ipv4Named f.upper.protocol }
    f.upper hupper f.upper.recordedAs_ipv4 (ipBase_transport content.memory "IPv4")
    (by simp only; omega)
  rw [hr] at hparse
  refine ⟨_, hparse, ?_, htr, hproto, hhl⟩
  refine decodesIp_of_sameIp (decodesIp_of_sameIp ?_ hsame) (sameIp_setTimestamp r _)
  exact ⟨⟨hrec.destination, hrec.source, hrec.isVlan⟩,
    Text.readDotted_intercalate (List.ne_nil_of_length_pos (by rw [f.ip.source_length]; decide)),
    Text.readDotted_intercalate
      (List.ne_nil_of_length_pos (by rw [f.ip.destination_length]; decide)), rfl⟩

/-- A SYN to port 80 behind both tags, with IP and TCP options. -/
def synFrame : Ipv4Frame where
  link := {
    destination := [2, 0, 0, 0, 0, 1], source := [2, 0, 0, 0, 0, 2], tags := .both 0 1 0 2
    destination_length := rfl, source_length := rfl }
  ip := {
    version := 4, ihl := 6, service := [0, 0, 48, 0, 1, 64, 0], ttl := 64, checksum := [0, 0]
    source := [10, 0, 0, 2], destination := [10, 0, 0, 1], options := [1, 1, 1, 0]
    version_lt := by decide, ihl_ge := by decide, ihl_le := by decide, service_length := rfl
    checksum_length := rfl, source_length := rfl, destination_length := rfl
    options_length := rfl }
  upper := .tcp {
    sourcePort := 51000, destinationPort := 80, sequence := 0xfffffff0, acknowledgement := 0
    dataOffset := 6, reserved := 0, cwr := false, ece := false, urg := false, ack := false
    psh := false, rst := false, syn := true, fin := false
    window := [255, 255, 0, 0, 0, 0], options := [2, 4, 5, 180]
    dataOffset_ge := by decide, dataOffset_le := by decide, reserved_lt := by decide
    window_length := rfl, options_length := rfl }
  payload := []

theorem parse_synFrame :
    ∃ r, parse (Content.ofBytes synFrame.encode) synFrame.encode.length noon = some r ∧
      DecodesIp r synFrame.link synFrame.ip.source synFrame.ip.destination synFrame.ip.ttl
        readDotted ∧
      r.transport = synFrame.upper.transport ∧
      r.protocoloTransporte = ipv4Named synFrame.upper.protocol ∧
      r.totalHeaderLenght = synFrame.headerEnd :=
  parse_ipv4Frame synFrame _ (holds_ofBytes (by decide)) _

-- ---------------------------------------------------------------------------
-- IPv6
-- ---------------------------------------------------------------------------

theorem chain_step (h : ExtHeader) (hm : Holds mem i (next :: h.second :: h.body)) :
    chain mem (k + 1) h.kind.protocol.toNat i =
      chain mem k next.toNat (i + (next :: h.second :: h.body).length) := by
  simp only [holds_cons] at hm
  obtain ⟨hnext, hsecond, -⟩ := hm
  rw [List.length_cons, List.length_cons, h.body_length]
  cases hk : h.kind <;> simp [chain, ExtKind.protocol, ExtKind.size, IsSized, hnext, hsecond]

theorem chain_of_holds {p : UInt8} (hp : ¬ (IsSized p.toNat ∨ p.toNat = 44)) (hs : List ExtHeader)
    (hm : Holds mem i (encodeChain p hs)) (hk : hs.length < k) :
    chain mem k (chainProtocol p hs).toNat i =
      (ipv6Transporte p.toNat, i + (encodeChain p hs).length) := by
  obtain ⟨hsized, h44⟩ := not_or.mp hp
  induction hs generalizing i k with
  | nil =>
    obtain ⟨k, rfl⟩ := Nat.exists_eq_add_one_of_ne_zero (Nat.ne_of_gt hk)
    simp [chain, chainProtocol, encodeChain, hsized, h44]
  | cons h hs ih =>
    obtain ⟨k, rfl⟩ := Nat.exists_eq_add_one_of_ne_zero (Nat.ne_of_gt (Nat.zero_lt_of_lt hk))
    rw [encodeChain, holds_append] at hm
    rw [chainProtocol, chain_step h hm.1, ih hm.2 (by simpa using hk)]
    simp only [encodeChain, List.length_append, List.length_cons, Nat.add_assoc]

/-- A longer chain is not: the walk gives up with no transport. -/
theorem chain_of_holds_long {p : UInt8} (hs : List ExtHeader)
    (hm : Holds mem i (encodeChain p hs)) (hk : k ≤ hs.length) :
    (chain mem k (chainProtocol p hs).toNat i).1 = 0 := by
  induction hs generalizing i k with
  | nil =>
    obtain rfl := Nat.le_zero.mp hk
    rfl
  | cons h hs ih =>
    cases k with
    | zero => rfl
    | succ k =>
      rw [encodeChain, holds_append] at hm
      rw [chainProtocol, chain_step h hm.1]
      exact ih hm.2 (by simpa using hk)

theorem ipv6Record_of_holds (node : FullInternetPacket) (h : Ipv6Header) (p : UInt8)
    (hm : Holds mem i (h.encode p)) :
    mem (i + 6) = p ∧
      ipv6Record mem i node = { node with
        ipOrigem := ipv6Text h.source
        ipDestino := ipv6Text h.destination
        tempoVida := h.hopLimit.toNat } := by
  simp only [Ipv6Header.encode, holds_append, holds_cons, h.flow_length, h.source_length,
    List.length_append, List.length_cons, List.length_nil, Nat.add_assoc, Nat.reduceAdd] at hm
  obtain ⟨⟨⟨-, hp, hhop, -⟩, hsrc⟩, hdst⟩ := hm
  refine ⟨hp, ?_⟩
  rw [ipv6Record, hhop, hsrc.map_range' h.source_length, hdst.map_range' h.destination_length]

/-- A well-formed IPv6 frame at the start of the slot: the parser returns a
record that decodes to it if its chain has at most six extension headers,
and one without a transport otherwise.

Premises: the slot starts with the frame's bytes, and all of them are
captured. -/
theorem parse_ipv6Frame (f : Ipv6Frame) (content : Content) (recvlen : Int)
    (h : Holds content.memory 0 f.encode) (hlen : f.encode.length ≤ recvlen) (now : Tm) :
    ∃ r, parse content recvlen now = some r ∧
      DecodesIp r f.link f.ip.source f.ip.destination f.ip.hopLimit readColonHex ∧
      (f.extensions.length ≤ 6 →
        r.protocoloTransporte = ipv6Named f.upper.protocol ∧
        r.transport = f.upper.transport ∧
        r.totalHeaderLenght = f.headerEnd) ∧
      (7 ≤ f.extensions.length →
        r.protocoloTransporte ∉ [1, 5, 6, 17, 58] ∧ r.transport = {}) := by
  unfold Ipv6Frame.encode at h
  simp only [holds_append, f.link.encode_length, f.ip.encode_length, List.length_append,
    Nat.zero_add] at h
  obtain ⟨⟨⟨hlink, hip⟩, hext⟩, hupper⟩ := h
  have hend := linkEnd_of_holds f.link (by decide) (by decide) (by decide) hlink
  have hrec := linkRecord_of_holds f.link (by decide) (by decide) (by decide) hlink
  obtain ⟨hnext, hnode⟩ := ipv6Record_of_holds (ipBase content.memory "IPv6") f.ip _ hip
  have hsize : f.encode.length = f.link.size + 40 +
      (encodeChain f.upper.protocol f.extensions).length + f.upper.encode.length := by
    simp [Ipv6Frame.encode, f.link.encode_length, f.ip.encode_length]
    omega
  have hparse : parse content recvlen now =
      ((fillTransport recvlen ((ipv6Record content.memory f.link.size
          (ipBase content.memory "IPv6")).walked (frameChain content.memory f.link.size))).eval
        content.memory).map (·.setTimestamp (getTime now)) := by
    rw [parse, fill_ipv6 content.memory (by rw [hend]), hend,
      ipv6Layer_eval _ (ipBase_protocoloTransporte _ _), if_neg (by simp only; omega)]
  have hdecodes : DecodesIp (ipv6Record content.memory f.link.size (ipBase content.memory "IPv6"))
      f.link f.ip.source f.ip.destination f.ip.hopLimit readColonHex := by
    rw [hnode]
    exact ⟨⟨hrec.destination, hrec.source, hrec.isVlan⟩, readColonHex_ipv6Text f.ip.source_length,
      readColonHex_ipv6Text f.ip.destination_length, rfl⟩
  rw [frameChain, hnext, Nat.add_comm 40] at hparse
  have hzero :
      (ipv6Record content.memory f.link.size (ipBase content.memory "IPv6")).transport = {} := by
    rw [ipv6Record_transport, ipBase_transport]
  generalize ipv6Record content.memory f.link.size (ipBase content.memory "IPv6") = node
    at hparse hdecodes hzero
  by_cases hn : f.extensions.length ≤ 6
  · rw [chain_of_holds f.upper_not_extension f.extensions hext (by omega), ipv6Transporte_eq]
      at hparse
    obtain ⟨r, hr, hsame, hproto, htr, hhl⟩ := fillTransport_of_holds recvlen
      (node.walked (ipv6Named f.upper.protocol, f.link.size + 40 +
        (encodeChain f.upper.protocol f.extensions).length)) f.upper hupper f.upper.recordedAs_ipv6
      hzero (by simp only [FullInternetPacket.walked_totalHeaderLenght]; omega)
    rw [hr] at hparse
    exact ⟨_, hparse, decodesIp_of_sameIp (decodesIp_of_sameIp (decodesIp_of_sameIp hdecodes
      (sameIp_walked _ _)) hsame) (sameIp_setTimestamp r _), fun _ => ⟨hproto, htr, hhl⟩,
      fun h => absurd h (by omega)⟩
  · have hlost := chain_of_holds_long f.extensions hext (k := 7) (by omega)
    generalize chain content.memory 7 _ _ = w at hlost hparse
    rw [fillTransport_other _ (by simp [hlost]) (by simp [hlost])] at hparse
    have hcleared : (clearTransport (node.walked w)).transport = {} :=
      clearTransport_transport ((walked_transport node w).trans hzero)
    refine ⟨_, hparse, ?_, fun h => absurd h hn, fun _ => ⟨?_, hcleared⟩⟩
    · exact decodesIp_of_sameIp hdecodes ⟨rfl, rfl, rfl, rfl, rfl, rfl⟩
    · have hnone :
          ((clearTransport (node.walked w)).setTimestamp (getTime now)).protocoloTransporte = 0 :=
        hlost
      rw [hnone]
      decide

/-- A UDP datagram behind a destination options header of 16 bytes and a
fragment header. -/
def datagramFrame : Ipv6Frame where
  link := {
    destination := [2, 0, 0, 0, 0, 1], source := [2, 0, 0, 0, 0, 2], tags := .untagged
    destination_length := rfl, source_length := rfl }
  ip := {
    flow := [96, 0, 0, 0, 0, 32], hopLimit := 64
    source := [0xfe, 0x80, 0, 0, 0, 0, 0, 0, 0, 0, 0, 0, 0, 0, 0, 2]
    destination := [0xfe, 0x80, 0, 0, 0, 0, 0, 0, 0, 0, 0, 0, 0, 0, 0, 1]
    flow_length := rfl, source_length := rfl, destination_length := rfl }
  extensions := [
    { kind := .destinationOptions, second := 1, body := [1, 12, 0, 0, 0, 0, 0, 0, 0, 0, 0, 0, 0, 0]
      body_length := rfl },
    { kind := .fragment, second := 255, body := [0, 0, 0, 0, 0, 7], body_length := rfl }]
  upper := .udp {
    sourcePort := 53, destinationPort := 50000, rest := [0, 8, 0, 0], rest_length := rfl }
  upper_not_extension := by decide

theorem parse_datagramFrame :
    ∃ r, parse (Content.ofBytes datagramFrame.encode) 86 noon = some r ∧
      DecodesIp r datagramFrame.link datagramFrame.ip.source datagramFrame.ip.destination
        datagramFrame.ip.hopLimit readColonHex ∧
      (datagramFrame.extensions.length ≤ 6 →
        r.protocoloTransporte = ipv6Named datagramFrame.upper.protocol ∧
        r.transport = datagramFrame.upper.transport ∧
        r.totalHeaderLenght = datagramFrame.headerEnd) ∧
      (7 ≤ datagramFrame.extensions.length →
        r.protocoloTransporte ∉ [1, 5, 6, 17, 58] ∧ r.transport = {}) :=
  parse_ipv6Frame datagramFrame _ 86 (holds_ofBytes (by decide)) (by decide) _

end WireSentinel
