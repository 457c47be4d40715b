import WireSentinel.Packet.Grammar

/-!
# The parser decodes the grammar

`parse_decodes`: the slot starts with one frame of the grammar and no
other, and the parser's answer, for any number of captured bytes, is the
record of that frame if it fits, and `NULL` if not.
-/

namespace WireSentinel

variable {mem : Memory} {recvlen : Int} {node : FullInternetPacket} {i k : Nat}

-- ---------------------------------------------------------------------------
-- What a frame is recorded as
-- ---------------------------------------------------------------------------

def FullInternetPacket.withTransport (p : FullInternetPacket) (t : Transport) :
    FullInternetPacket :=
  { p with
    portaOrigem := t.portaOrigem
    portaDestino := t.portaDestino
    tcpSeq := t.tcpSeq
    tcpAckSeq := t.tcpAckSeq
    tcpCwr := t.tcpCwr
    tcpEce := t.tcpEce
    tcpUrg := t.tcpUrg
    tcpAck := t.tcpAck
    tcpPsh := t.tcpPsh
    tcpRst := t.tcpRst
    tcpSyn := t.tcpSyn
    tcpFin := t.tcpFin }

def Ethernet.record (e : Ethernet) : FullInternetPacket where
  isVlan := if e.tags.isVlan then 1 else 0
  macDestino := macText e.destination
  macOrigem := macText e.source

/-- The name of a network layer that is not looked into. -/
def etherName (ethtype : UInt16) : String :=
  if ethtype = 0x0806 then "ARP"
  else if ethtype = 0x8035 then "RARP"
  else if ethtype = 0x8847 then "MPLS Unicast"
  else if ethtype = 0x8848 then "MPLS Multicast"
  else if ethtype = 0x8864 then "PPPoE Session"
  else if ethtype = 0x8863 then "PPPoE Discovery"
  else "Unknown"

/-- A record with a segment that starts at `start` in it. -/
def FullInternetPacket.carrying (p : FullInternetPacket) (s : Segment) (start : Nat) :
    FullInternetPacket :=
  (p.withTransport s.transport).setHeader (start + s.announced)

def Ipv4Header.record (ip : Ipv4Header) (transporte : Int) (link : FullInternetPacket) :
    FullInternetPacket :=
  { link with
    protocoloIp := "IPv4".toList
    ipOrigem := ipv4Text ip.source
    ipDestino := ipv4Text ip.destination
    tempoVida := ip.ttl.toNat
    protocoloTransporte := transporte }

def Ipv6Header.record (ip : Ipv6Header) (transporte : Int) (link : FullInternetPacket) :
    FullInternetPacket :=
  { link with
    protocoloIp := "IPv6".toList
    ipOrigem := ipv6Text ip.source
    ipDestino := ipv6Text ip.destination
    tempoVida := ip.hopLimit.toNat
    protocoloTransporte := transporte }

/-- A network layer at `start`, put down in the record of its link header. -/
def Network.record (start : Nat) (link : FullInternetPacket) : Network → FullInternetPacket
  | .ipv4 ip s => (ip.record (ipv4Named s.protocol) link).carrying s (start + 4 * ip.ihl)
  | .ipv4Short .. => link
  | .ipv6 ip hs s _ _ =>
    (ip.record (ipv6Named s.protocol) link).carrying s
      (start + 40 + (encodeChain s.protocol hs).length)
  | .ipv6Deep ip hs p _ =>
    (ip.record 0 link).setHeader (start + 40 + (encodeChain p hs).length)
  | .other t _ _ =>
    { link with
      protocoloIp := (etherName t).toList
      ipOrigem := "Null".toList
      ipDestino := "Null".toList
      protocoloTransporte := -1 }

def Frame.record (f : Frame) (now : Tm) : FullInternetPacket :=
  (f.network.record f.link.size f.link.record).setTimestamp (getTime now)

-- ---------------------------------------------------------------------------
-- Which frames are accepted
-- ---------------------------------------------------------------------------

/-- The bytes of a TCP or UDP header at `start` are captured. -/
def Segment.Fits (start : Nat) (recvlen : Int) : Segment → Prop
  | .tcp h => (start + h.encode.length : Int) ≤ recvlen
  | .udp h => (start + h.encode.length : Int) ≤ recvlen
  | .other .. => True

/-- The headers of a network layer at `start` are captured. No one asks that
for the extension headers in front of anything but TCP and UDP. -/
def Network.Fits (start : Nat) (recvlen : Int) : Network → Prop
  | .ipv4 ip s =>
    (start + 4 * ip.ihl : Int) ≤ recvlen ∧ s.Fits (start + 4 * ip.ihl) recvlen
  | .ipv4Short .. => False
  | .ipv6 _ hs s _ _ =>
    (start + 40 : Int) ≤ recvlen ∧ s.Fits (start + 40 + (encodeChain s.protocol hs).length) recvlen
  | .ipv6Deep .. => (start + 40 : Int) ≤ recvlen
  | .other .. => (start : Int) ≤ recvlen

def Frame.Fits (f : Frame) (recvlen : Int) : Prop := f.network.Fits f.link.size recvlen

instance (start : Nat) (recvlen : Int) : (s : Segment) → Decidable (s.Fits start recvlen)
  | .tcp _ | .udp _ => inferInstanceAs (Decidable (_ ≤ _))
  | .other .. => .isTrue trivial

instance (start : Nat) (recvlen : Int) : (n : Network) → Decidable (n.Fits start recvlen)
  | .ipv4 .. | .ipv6 .. => inferInstanceAs (Decidable (_ ∧ _))
  | .ipv4Short .. => .isFalse id
  | .ipv6Deep .. | .other .. => inferInstanceAs (Decidable (_ ≤ _))

instance (f : Frame) (recvlen : Int) : Decidable (f.Fits recvlen) :=
  inferInstanceAs (Decidable (f.network.Fits _ _))

/-- The answer to a network layer behind a link header. -/
def Network.answer (n : Network) (start : Nat) (recvlen : Int) (link : FullInternetPacket) :
    Option FullInternetPacket :=
  if n.Fits start recvlen then some (n.record start link) else none

-- ---------------------------------------------------------------------------
-- The transport switch
-- ---------------------------------------------------------------------------

theorem flag_testBit (b : UInt8) :
    flag b 0b00000001 = (b.toNat.testBit 0).toUInt8 ∧
      flag b 0b00000010 = (b.toNat.testBit 1).toUInt8 ∧
      flag b 0b00000100 = (b.toNat.testBit 2).toUInt8 ∧
      flag b 0b00001000 = (b.toNat.testBit 3).toUInt8 ∧
      flag b 0b00010000 = (b.toNat.testBit 4).toUInt8 ∧
      flag b 0b00100000 = (b.toNat.testBit 5).toUInt8 ∧
      flag b 0b01000000 = (b.toNat.testBit 6).toUInt8 ∧
      flag b 0b10000000 = (b.toNat.testBit 7).toUInt8 := by
  have all : ∀ b : Fin 256, let c := UInt8.ofNat b.val
      flag c 0b00000001 = (b.val.testBit 0).toUInt8 ∧
        flag c 0b00000010 = (b.val.testBit 1).toUInt8 ∧
        flag c 0b00000100 = (b.val.testBit 2).toUInt8 ∧
        flag c 0b00001000 = (b.val.testBit 3).toUInt8 ∧
        flag c 0b00010000 = (b.val.testBit 4).toUInt8 ∧
        flag c 0b00100000 = (b.val.testBit 5).toUInt8 ∧
        flag c 0b01000000 = (b.val.testBit 6).toUInt8 ∧
        flag c 0b10000000 = (b.val.testBit 7).toUInt8 := by decide +kernel
  simpa using all ⟨b.toNat, b.toNat_lt⟩

theorem tcpRecord_read (mem : Memory) (i : Nat) (node : FullInternetPacket) :
    tcpRecord mem i node = node.withTransport (Segment.tcp (TcpStart.read mem i)).transport := by
  obtain ⟨h0, h1, h2, h3, h4, h5, h6, h7⟩ := flag_testBit (mem (i + 13))
  simp only [tcpRecord, h0, h1, h2, h3, h4, h5, h6, h7, FullInternetPacket.withTransport,
    Segment.transport, TcpStart.read, TcpStart.bit, word_toNat, long_toNat, Nat.add_assoc,
    Nat.reduceAdd]

theorem udpRecord_read (mem : Memory) (i : Nat) (hzero : node.transport = {}) :
    udpRecord mem i node = node.withTransport (Segment.udp (UdpHeader.read mem i)).transport := by
  simp only [FullInternetPacket.transport, Transport.mk.injEq] at hzero
  simp only [udpRecord, FullInternetPacket.withTransport, Segment.transport, UdpHeader.read,
    word_toNat, hzero, Nat.add_assoc, Nat.reduceAdd]

theorem withTransport_empty (hzero : node.transport = {}) : node.withTransport {} = node := by
  rw [← hzero]
  rfl

theorem clearTransport_eq (hzero : node.transport = {}) : clearTransport node = node := by
  have hclear : clearTransport node =
      node.withTransport { tcpCwr := node.tcpCwr, tcpEce := node.tcpEce } := rfl
  have hfields := hzero
  simp only [FullInternetPacket.transport, Transport.mk.injEq] at hfields
  rw [hclear, hfields.2.2.2.2.1, hfields.2.2.2.2.2.1]
  exact withTransport_empty hzero

/-- The transport switch on a record that names the protocol `p`, the
segment's start in its header length. -/
theorem fillTransport_read (mem : Memory) (node : FullInternetPacket) (recvlen : Int)
    (hi : node.totalHeaderLenght = i)
    (hp : node.protocoloTransporte = named known p) (h6 : 6 ∈ known) (h17 : 17 ∈ known)
    (hzero : node.transport = {}) :
    (fillTransport recvlen node).eval mem =
      if (Segment.read mem p i).Fits i recvlen then
        some (node.carrying (Segment.read mem p i) i)
      else none := by
  subst hi
  unfold Segment.read
  split
  · rename_i hp6
    have ht : node.protocoloTransporte = 6 := by simp [hp, hp6, named, h6]
    rw [fillTransport_tcp mem ht, tcpRecord_read]
    simp only [Segment.Fits, TcpStart.encode_length]
    split
    · rw [if_neg (by omega)]
    · rw [if_pos (by omega)]
      rfl
  · split
    · rename_i hp17
      have ht : node.protocoloTransporte = 17 := by simp [hp, hp17, named, h17]
      rw [fillTransport_udp mem ht, udpRecord_read mem _ hzero]
      simp only [Segment.Fits, UdpHeader.encode_length]
      split
      · rw [if_neg (by omega)]
      · rw [if_pos (by omega)]
        rfl
    · rename_i hp6 hp17
      have hrec := (Upper.other p hp6 hp17).recordedAs_named h6 h17
      rw [Upper.protocol, ← hp] at hrec
      have hfits : (Segment.other p hp6 hp17).Fits node.totalHeaderLenght recvlen := trivial
      rw [fillTransport_other mem hrec.1 hrec.2, clearTransport_eq hzero, if_pos hfits,
        FullInternetPacket.carrying, Segment.transport, withTransport_empty hzero]
      rfl

-- ---------------------------------------------------------------------------
-- The network layer
-- ---------------------------------------------------------------------------

theorem Segment.read_protocol (mem : Memory) (p : UInt8) (i : Nat) :
    (Segment.read mem p i).protocol = p := ((Segment.holds_iff _ p).mpr rfl).1

theorem carrying_setHeader (p : FullInternetPacket) (n : Nat) (s : Segment) (start : Nat) :
    (p.setHeader n).carrying s start = p.carrying s start := rfl

theorem ipv4Record_read (mem : Memory) (start : Nat) (h5 : 5 ≤ (mem start).toNat % 16) :
    ipv4Record mem start (ipBase mem "IPv4") =
      ((Ipv4Header.read mem start h5).record (ipv4Named (mem (start + 9)))
        (linkRecord mem)).setHeader ((mem start).toNat % 16 * 4 + start) := by
  rw [← ipv4Transporte_eq]
  rfl

theorem ipv4Layer_read (mem : Memory) (recvlen : Int) (start : Nat) :
    (ipv4Layer recvlen start (ipBase mem "IPv4")).eval mem =
      (Network.read mem 0x0800 start).answer start recvlen (linkRecord mem) := by
  rw [ipv4Layer_eval, Network.answer]
  unfold Network.read
  simp only [↓reduceDIte]
  by_cases h5 : 5 ≤ (mem start).toNat % 16
  · have hfill := fillTransport_read (i := start + 4 * ((mem start).toNat % 16)) mem
      (ipv4Record mem start (ipBase mem "IPv4")) recvlen (by simp only [ipv4Record]; omega)
      (ipv4Transporte_eq (mem (start + 9))) (by decide) (by decide) (ipBase_transport mem "IPv4")
    have hihl : (Ipv4Header.read mem start h5).ihl = (mem start).toNat % 16 := rfl
    rw [dif_pos h5, hfill, ipv4Record_read mem start h5, carrying_setHeader]
    simp only [Network.Fits, Network.record, Segment.read_protocol, hihl]
    by_cases hcaptured : (start + 4 * ((mem start).toNat % 16 : Nat) : Int) ≤ recvlen
    · rw [if_neg (by omega), if_neg (by omega)]
      simp only [hcaptured, true_and]
    · simp only [hcaptured, false_and, ↓reduceIte]
      split
      · rfl
      · rw [if_pos (by omega)]
  · rw [dif_neg h5, if_neg (c := Network.Fits ..) id]
    split
    · rfl
    · rw [if_pos (by omega)]

/-- The walk ends behind the chain it read, at what the last header
announces, if it is not given up. -/
theorem chain_read (mem : Memory) (k : Nat) (p : UInt8) (i : Nat) :
    chain mem k p.toNat i =
      (if (readChain mem k p i).1.length < k then ipv6Named (readChain mem k p i).2 else 0,
        i + (encodeChain (readChain mem k p i).2 (readChain mem k p i).1).length) := by
  induction k generalizing p i with
  | zero => rfl
  | succ k ih =>
    unfold readChain
    cases hp : ExtKind.of p with
    | none =>
      obtain ⟨hsized, h44⟩ := not_or.mp (ExtKind.of_none.mp hp)
      simp [chain, hsized, h44, ipv6Transporte_eq, encodeChain]
    | some kind =>
      have hlies := ((ExtHeader.read mem kind i).holds_iff (mem i)).mpr ⟨rfl, rfl⟩
      have hstep := chain_step (k := k) _ hlies
      have hbody : (ExtHeader.read mem kind i).body.length + 1 + 1 = kind.size (mem (i + 1)) :=
        (ExtHeader.read mem kind i).body_length
      rw [List.length_cons, List.length_cons, hbody, ih] at hstep
      rw [← ExtKind.of_some hp]
      refine hstep.trans ?_
      simp only [List.length_cons, Nat.add_lt_add_iff_right, encodeChain, List.length_append,
        Nat.add_assoc, hbody]

theorem ipv6Record_read (mem : Memory) (start : Nat) (w : Int × Nat) :
    (ipv6Record mem start (ipBase mem "IPv6")).walked w =
      ((Ipv6Header.read mem start).record w.1 (linkRecord mem)).setHeader w.2 := by
  simp only [FullInternetPacket.setHeader, FullInternetPacket.walked,
    FullInternetPacket.setTransporte, ipv6Record, ipBase, Ipv6Header.record, Ipv6Header.read, slice]

theorem readIpv6_eval (mem : Memory) (recvlen : Int) (start : Nat) (c : List ExtHeader × UInt8)
    (ends : ChainEnds 7 c.2 c.1) :
    (if recvlen < start + 40 then none
      else (fillTransport recvlen ((ipv6Record mem start (ipBase mem "IPv6")).walked
        (if c.1.length < 7 then ipv6Named c.2 else 0,
          start + 40 + (encodeChain c.2 c.1).length))).eval mem) =
      (Network.readIpv6 mem start c ends).answer start recvlen (linkRecord mem) := by
  have hzero : ∀ w, ((ipv6Record mem start (ipBase mem "IPv6")).walked w).transport = {} := by
    intro w
    rw [walked_transport, ipv6Record_transport, ipBase_transport]
  have hguard : (start + 40 : Int) ≤ recvlen ↔ ¬ recvlen < start + 40 := Int.not_lt.symm
  unfold Network.readIpv6 Network.answer
  by_cases few : c.1.length < 7
  · have hfill := fillTransport_read (i := start + 40 + (encodeChain c.2 c.1).length) (p := c.2) mem
      ((ipv6Record mem start (ipBase mem "IPv6")).walked
        (ipv6Named c.2, start + 40 + (encodeChain c.2 c.1).length)) recvlen rfl rfl
      (by decide) (by decide) (hzero _)
    rw [if_pos few, dif_pos few, hfill, ipv6Record_read, carrying_setHeader]
    simp only [Network.Fits, Network.record, Segment.read_protocol, hguard]
    by_cases hshort : recvlen < start + 40
    · simp only [hshort, not_true_eq_false, false_and, ↓reduceIte]
    · simp only [hshort, not_false_eq_true, true_and, ↓reduceIte]
  · rw [if_neg few, dif_neg few, fillTransport_other mem (by simp) (by simp),
      clearTransport_eq (hzero _), ipv6Record_read]
    simp only [Network.Fits, Network.record, hguard, ite_not]

theorem ipv6Layer_read (mem : Memory) (recvlen : Int) (start : Nat) :
    (ipv6Layer recvlen start (ipBase mem "IPv6")).eval mem =
      (Network.read mem 0x86DD start).answer start recvlen (linkRecord mem) := by
  have hwalk := chain_read mem 7 (mem (start + 6)) (start + 40)
  rw [ipv6Layer_eval mem (ipBase_protocoloTransporte mem _), Network.read_ipv6, frameChain,
    Nat.add_comm 40, hwalk]
  exact readIpv6_eval mem recvlen start _ _

theorem toNat_eq (t : UInt16) {c : UInt16} {n : Nat} (h : c.toNat = n) : t.toNat = n ↔ t = c := by
  subst h
  exact UInt16.toNat_inj

/-- The names of the protocols that are not looked into. -/
theorem nameProtocol_other (t : UInt16) (link : FullInternetPacket) (h4 : t ≠ 0x0800)
    (h6 : t ≠ 0x86DD) : (nameProtocol t.toNat link).1 = nonIp (etherName t) link := by
  have is (n : Nat) (c : UInt16) (h : c.toNat = n) : t.toNat = n ↔ t = c := toNat_eq t h
  unfold nameProtocol etherName
  simp only [is 0x0800 0x0800 rfl, is 0x86DD 0x86DD rfl, is 0x0806 0x0806 rfl,
    is 0x8035 0x8035 rfl, is 0x8847 0x8847 rfl, is 0x8848 0x8848 rfl, is 0x8864 0x8864 rfl,
    is 0x8863 0x8863 rfl, h4, h6, ↓reduceIte]
  split_ifs <;> rfl

-- ---------------------------------------------------------------------------
-- The frame
-- ---------------------------------------------------------------------------

theorem ethtypeBefore_word (mem : Memory) (i : Nat) :
    ethtypeBefore mem (i + 2) = (word mem i).toNat := by
  rw [word_toNat]
  rfl

theorem linkEnd_read (mem : Memory) :
    linkEnd mem = ⟨(Ethernet.read mem).size, (finalType mem).toNat,
      (Ethernet.read mem).tags.isVlan⟩ := by
  have h14 : ethtypeBefore mem 14 = (word mem 12).toNat := ethtypeBefore_word mem 12
  have h18 : ethtypeBefore mem 18 = (word mem 16).toNat := ethtypeBefore_word mem 16
  have h22 : ethtypeBefore mem 22 = (word mem 20).toNat := ethtypeBefore_word mem 20
  have stacked (t : UInt16) : t.toNat = 0x88a8 ↔ t = 0x88a8 := toNat_eq t rfl
  have vlan (t : UInt16) : t.toNat = 0x8100 ↔ t = 0x8100 := toNat_eq t rfl
  unfold linkEnd stackedEnd finalType Ethernet.read Ethernet.size Tags.read
  simp only [h14, stacked]
  by_cases h88 : word mem 12 = 0x88a8
  · by_cases h81 : word mem 16 = 0x8100
    · simp [h88, h18, h81, h22, Tags.encode, Tags.isVlan]
    · simp [h88, h18, h81, vlan, Tags.encode, Tags.isVlan]
  · by_cases h81 : word mem 12 = 0x8100
    · simp [h81, h18, Tags.encode, Tags.isVlan]
    · simp [h88, h81, vlan, Tags.encode, Tags.isVlan]

theorem linkRecord_read (mem : Memory) : linkRecord mem = (Ethernet.read mem).record := by
  rw [linkRecord, linkEnd_read]
  unfold Ethernet.record
  cases (Ethernet.read mem).tags.isVlan <;> rfl

theorem fill_answer (mem : Memory) (recvlen : Int) (now : Tm) :
    (fillFullPacketNode recvlen now).eval mem =
      ((Frame.read mem).network.answer (Ethernet.read mem).size recvlen
        (Ethernet.read mem).record).map (·.setTimestamp (getTime now)) := by
  have hend := linkEnd_read mem
  have hnetwork : (Frame.read mem).network =
      Network.read mem (finalType mem) (Ethernet.read mem).size := rfl
  rw [hnetwork, ← linkRecord_read]
  by_cases h4 : finalType mem = 0x0800
  · rw [fill_ipv4 mem (by rw [hend, h4]; rfl), ipv4Layer_read, hend, h4]
  by_cases h6 : finalType mem = 0x86DD
  · rw [fill_ipv6 mem (by rw [hend, h6]; rfl), ipv6Layer_read, hend, h6]
  · have hnat : ∀ c : UInt16, (linkEnd mem).ethtype = c.toNat ↔ finalType mem = c := by
      intro c
      rw [hend, UInt16.toNat_inj]
    rw [fill_nonIp mem ((hnat 0x0800).not.mpr h4) ((hnat 0x86DD).not.mpr h6), hend]
    have hread : Network.read mem (finalType mem) (Ethernet.read mem).size =
        .other (finalType mem) h4 h6 := by
      unfold Network.read
      rw [dif_neg h4, dif_neg h6]
    have hrecord : ∀ start, nonIp (etherName (finalType mem)) (linkRecord mem) =
        Network.record start (linkRecord mem) (.other (finalType mem) h4 h6) := by
      intro start
      rw [linkRecord_read]
      rfl
    rw [hread, nameProtocol_other _ _ h4 h6, hrecord (Ethernet.read mem).size, Network.answer]
    simp only [Network.Fits, ← Int.not_lt, ite_not]
    split <;> rfl

theorem fill_read (mem : Memory) (recvlen : Int) (now : Tm) :
    (fillFullPacketNode recvlen now).eval mem =
      if (Frame.read mem).Fits recvlen then some ((Frame.read mem).record now) else none := by
  rw [fill_answer, Network.answer]
  split
  · rename_i hfits
    exact (if_pos hfits).symm
  · rename_i hfits
    exact (if_neg hfits).symm

/-- The slot starts with one frame of the grammar and no other. Whatever the
number of captured bytes, the parser answers with the record of that frame
if its headers fit, and with `NULL` if they do not. -/
theorem parse_decodes (content : Content) :
    ∃ f : Frame, (∀ g : Frame, Holds content.memory 0 g.encode ↔ g = f) ∧
      ∀ recvlen now, parse content recvlen now =
        if f.Fits recvlen then some (f.record now) else none :=
  ⟨Frame.read content.memory, fun g => g.holds_iff, fun recvlen now => fill_read _ recvlen now⟩

/-- The TCP options of a frame need not be captured; its fixed header must. -/
example :
    (Frame.read (Content.ofBytes synFrame.encode).memory).Fits 66 ∧
      ¬ (Frame.read (Content.ofBytes synFrame.encode).memory).Fits 65 := by decide

end WireSentinel
