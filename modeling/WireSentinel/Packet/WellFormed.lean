import WireSentinel.Packet.Decode

/-!
# What every record satisfies

`wellFormed_of_parse`: whatever bytes are captured, a record that the parser
returns has texts of the expected shape and numbers within the range of the
header fields they come from.
-/

namespace WireSentinel

open Text (DottedQuad HexGroups)

/-- The addresses of a record, by what it says the protocol is. -/
inductive NetworkTexts (p : FullInternetPacket) : Prop
  | ipv4 (name : p.protocoloIp = "IPv4".toList) (source destination : List UInt8)
      (hs : source.length = 4) (hd : destination.length = 4)
      (origem : p.ipOrigem = ipv4Text source) (destino : p.ipDestino = ipv4Text destination)
  | ipv6 (name : p.protocoloIp = "IPv6".toList) (source destination : List UInt8)
      (hs : source.length = 16) (hd : destination.length = 16)
      (origem : p.ipOrigem = ipv6Text source) (destino : p.ipDestino = ipv6Text destination)
  | nonIp (name : p.protocoloIp ∈ ["ARP", "RARP", "MPLS Unicast", "MPLS Multicast", "PPPoE Session",
        "PPPoE Discovery", "Unknown"].map String.toList)
      (origem : p.ipOrigem = "Null".toList) (destino : p.ipDestino = "Null".toList)
      (transporte : p.protocoloTransporte = -1)

structure NetworkFormed (p : FullInternetPacket) : Prop where
  macOrigem : ∃ raw : List UInt8, raw.length = 6 ∧ p.macOrigem = macText raw
  macDestino : ∃ raw : List UInt8, raw.length = 6 ∧ p.macDestino = macText raw
  texts : NetworkTexts p
  tempoVida : p.tempoVida < 256
  protocoloTransporte : p.protocoloTransporte ∈ [-1, 0, 1, 5, 6, 17, 58]

/-- The transport part of a record: nothing but ports without TCP, and
nothing at all without TCP or UDP. -/
structure TransportFormed (p : FullInternetPacket) : Prop where
  portaOrigem : p.portaOrigem < 2 ^ 16
  portaDestino : p.portaDestino < 2 ^ 16
  tcpSeq : p.tcpSeq < 2 ^ 32
  tcpAckSeq : p.tcpAckSeq < 2 ^ 32
  ofUdp : p.protocoloTransporte = 17 →
    p.transport = { portaOrigem := p.portaOrigem, portaDestino := p.portaDestino }
  ofOther : p.protocoloTransporte ≠ 6 → p.protocoloTransporte ≠ 17 → p.transport = {}

structure FullInternetPacket.WellFormed (p : FullInternetPacket) : Prop where
  network : NetworkFormed p
  transport : TransportFormed p
  totalHeaderLenght : p.totalHeaderLenght < 10 ^ 5
  timestamp : ∃ now, p.timestamp = getTime now

variable {mem : Memory} {recvlen : Int} {node r s : FullInternetPacket}

/-- A record with the same network fields is as well formed. -/
theorem NetworkFormed.congr (h : NetworkFormed r) (hsame : s.SameIp r)
    (hip : s.protocoloIp = r.protocoloIp)
    (hproto : s.protocoloTransporte = r.protocoloTransporte) : NetworkFormed s := by
  obtain ⟨-, hmo, hmd, hio, hid, httl⟩ := hsame
  refine ⟨hmo ▸ h.macOrigem, hmd ▸ h.macDestino, ?_, httl ▸ h.tempoVida,
    hproto ▸ h.protocoloTransporte⟩
  cases h.texts with
  | ipv4 name src dst hs hd origem destino =>
    exact .ipv4 (hip.trans name) src dst hs hd (hio.trans origem) (hid.trans destino)
  | ipv6 name src dst hs hd origem destino =>
    exact .ipv6 (hip.trans name) src dst hs hd (hio.trans origem) (hid.trans destino)
  | nonIp name origem destino transporte =>
    exact .nonIp (hip ▸ name) (hio.trans origem) (hid.trans destino) (hproto.trans transporte)

theorem TransportFormed.congr (h : TransportFormed r) (htr : s.transport = r.transport)
    (hproto : s.protocoloTransporte = r.protocoloTransporte) : TransportFormed s := by
  have hfields := htr
  simp only [FullInternetPacket.transport, Transport.mk.injEq] at hfields
  obtain ⟨ho, hd, hseq, hack, -⟩ := hfields
  refine ⟨ho ▸ h.portaOrigem, hd ▸ h.portaDestino, hseq ▸ h.tcpSeq, hack ▸ h.tcpAckSeq,
    fun h17 => ?_, fun h6 h17 => htr.trans (h.ofOther (hproto ▸ h6) (hproto ▸ h17))⟩
  rw [htr, ho, hd]
  exact h.ofUdp (hproto ▸ h17)

-- ---------------------------------------------------------------------------
-- The transport layer
-- ---------------------------------------------------------------------------

theorem tcpLenght_le (mem : Memory) (i : Nat) : tcpLenght mem i ≤ 60 := by
  have := (mem (i + 12)).toNat_lt
  unfold tcpLenght
  omega

/-- The transport layer keeps what the lower layers put down, and adds at
most a header of 60 bytes. -/
theorem fillTransport_formed (h : (fillTransport recvlen node).eval mem = some r)
    (hnet : NetworkFormed node) (hzero : node.transport = {}) :
    NetworkFormed r ∧ TransportFormed r ∧ r.totalHeaderLenght ≤ node.totalHeaderLenght + 60 := by
  by_cases h6 : node.protocoloTransporte = 6
  · rw [fillTransport_tcp mem h6] at h
    split at h
    · simp at h
    · obtain rfl := Option.some.inj h
      have := tcpLenght_le mem node.totalHeaderLenght
      refine ⟨hnet.congr ⟨rfl, rfl, rfl, rfl, rfl, rfl⟩ rfl rfl, ⟨be16_lt _ _, be16_lt _ _,
        be32_lt _ _ _ _, be32_lt _ _ _ _, fun h17 => ?_, fun hne => absurd h6 hne⟩, ?_⟩
      · exact absurd (h6.symm.trans h17) (by decide)
      · simp only [FullInternetPacket.setHeader_totalHeaderLenght]
        omega
  · by_cases h17 : node.protocoloTransporte = 17
    · rw [fillTransport_udp mem h17] at h
      split at h
      · simp at h
      · obtain rfl := Option.some.inj h
        simp only [FullInternetPacket.transport, Transport.mk.injEq] at hzero
        obtain ⟨-, -, hseq, hack, hflags⟩ := hzero
        refine ⟨hnet.congr ⟨rfl, rfl, rfl, rfl, rfl, rfl⟩ rfl rfl, ⟨be16_lt _ _, be16_lt _ _,
          ?_, ?_, fun _ => ?_, fun _ hne => absurd h17 hne⟩, ?_⟩
        · exact Nat.lt_of_le_of_lt (Nat.le_of_eq hseq) (by decide)
        · exact Nat.lt_of_le_of_lt (Nat.le_of_eq hack) (by decide)
        · simp [FullInternetPacket.transport, FullInternetPacket.setHeader, udpRecord, hseq, hack,
            hflags]
        · simp only [FullInternetPacket.setHeader_totalHeaderLenght]
          omega
    · rw [fillTransport_other mem h6 h17] at h
      obtain rfl := Option.some.inj h
      have hcleared := clearTransport_transport hzero
      exact ⟨hnet.congr ⟨rfl, rfl, rfl, rfl, rfl, rfl⟩ rfl rfl,
        ⟨Nat.two_pow_pos 16, Nat.two_pow_pos 16, Nat.two_pow_pos 32, Nat.two_pow_pos 32,
          fun h => absurd h h17, fun _ _ => hcleared⟩,
        Nat.le_add_right _ _⟩

-- ---------------------------------------------------------------------------
-- The frame
-- ---------------------------------------------------------------------------

theorem chain_fst_mem (mem : Memory) (k p i : Nat) :
    (chain mem k p i).1 ∈ ([-1, 0, 1, 5, 6, 17, 58] : List Int) := by
  induction k generalizing p i with
  | zero => simp [chain]
  | succ k ih =>
    unfold chain
    split
    · exact ih _ _
    · split
      · exact ih _ _
      · unfold ipv6Transporte
        repeat' split
        all_goals simp

theorem chain_snd_le (mem : Memory) (k p i : Nat) : (chain mem k p i).2 ≤ i + k * 2048 := by
  induction k generalizing p i with
  | zero => simp [chain]
  | succ k ih =>
    have := (mem (i + 1)).toNat_lt
    unfold chain
    split
    · have := ih (mem i).toNat (i + ((mem (i + 1)).toNat + 1) * 8)
      omega
    · split
      · have := ih (mem i).toNat (i + 8)
        omega
      · simp

theorem linkRecord_macs (mem : Memory) :
    (linkRecord mem).macOrigem = macText ((List.range' 6 6).map mem) ∧
      (linkRecord mem).macDestino = macText ((List.range' 0 6).map mem) := by
  unfold linkRecord
  split <;> exact ⟨rfl, rfl⟩

theorem linkRecord_transport (mem : Memory) : (linkRecord mem).transport = {} := by
  unfold linkRecord
  split <;> rfl

theorem ipv4Transporte_mem (p : Nat) :
    ipv4Transporte p ∈ ([-1, 0, 1, 5, 6, 17, 58] : List Int) := by
  unfold ipv4Transporte
  repeat' split
  all_goals simp

theorem ipBase_macs (mem : Memory) (name : String) :
    (∃ raw : List UInt8, raw.length = 6 ∧ (ipBase mem name).macOrigem = macText raw) ∧
      ∃ raw : List UInt8, raw.length = 6 ∧ (ipBase mem name).macDestino = macText raw :=
  ⟨⟨_, by simp, (linkRecord_macs mem).1⟩, ⟨_, by simp, (linkRecord_macs mem).2⟩⟩

theorem ipv4Record_formed (mem : Memory) (o : Nat) :
    NetworkFormed (ipv4Record mem o (ipBase mem "IPv4")) := by
  obtain ⟨horigem, hdestino⟩ := ipBase_macs mem "IPv4"
  have hname : (ipBase mem "IPv4").protocoloIp = "IPv4".toList := rfl
  generalize ipBase mem "IPv4" = node at horigem hdestino hname
  exact ⟨horigem, hdestino, .ipv4 hname _ _ (by simp) (by simp) rfl rfl,
    (mem (o + 8)).toNat_lt, ipv4Transporte_mem _⟩

theorem ipv6Record_formed (mem : Memory) (o : Nat) :
    NetworkFormed ((ipv6Record mem o (ipBase mem "IPv6")).walked (frameChain mem o)) := by
  obtain ⟨horigem, hdestino⟩ := ipBase_macs mem "IPv6"
  have hname : (ipBase mem "IPv6").protocoloIp = "IPv6".toList := rfl
  have hwalk := chain_fst_mem mem 7 (mem (o + 6)).toNat (40 + o)
  rw [← frameChain] at hwalk
  generalize ipBase mem "IPv6" = node at horigem hdestino hname
  generalize frameChain mem o = w at hwalk
  unfold ipv6Record FullInternetPacket.walked FullInternetPacket.setTransporte
    FullInternetPacket.setHeader
  exact ⟨horigem, hdestino, .ipv6 hname _ _ (by simp) (by simp) rfl rfl,
    (mem (o + 7)).toNat_lt, hwalk⟩

theorem nameProtocol_formed (mem : Memory) (h4 : e ≠ 0x0800) (h6 : e ≠ 0x86DD) :
    NetworkFormed (nameProtocol e (linkRecord mem)).1 ∧
      TransportFormed (nameProtocol e (linkRecord mem)).1 ∧
      (nameProtocol e (linkRecord mem)).1.totalHeaderLenght = 0 := by
  have hzero := linkRecord_transport mem
  obtain ⟨horigem, hdestino⟩ := linkRecord_macs mem
  generalize linkRecord mem = node at hzero horigem hdestino
  have hnon : ∀ name ∈ ["ARP", "RARP", "MPLS Unicast", "MPLS Multicast", "PPPoE Session",
      "PPPoE Discovery", "Unknown"], NetworkFormed (nonIp name node) ∧
        TransportFormed (nonIp name node) ∧ (nonIp name node).totalHeaderLenght = 0 := by
    intro name hname
    have htr : (nonIp name node).transport = {} := hzero
    simp only [FullInternetPacket.transport, Transport.mk.injEq] at hzero
    refine ⟨⟨⟨_, by simp, horigem⟩, ⟨_, by simp, hdestino⟩,
      .nonIp (List.mem_map_of_mem hname) rfl rfl rfl, by simp [nonIp], by simp [nonIp]⟩,
      ⟨?_, ?_, ?_, ?_, ?_, ?_⟩, rfl⟩
    · simp [nonIp, hzero]
    · simp [nonIp, hzero]
    · simp [nonIp, hzero]
    · simp [nonIp, hzero]
    · exact fun h => absurd h (by simp [nonIp])
    · exact fun _ _ => htr
  unfold nameProtocol
  simp only [h4, h6, ↓reduceIte]
  repeat' split
  all_goals exact hnon _ (by simp)

theorem wellFormed_setTimestamp (hnet : NetworkFormed r) (htr : TransportFormed r)
    (hhl : r.totalHeaderLenght < 10 ^ 5) (now : Tm) :
    (r.setTimestamp (getTime now)).WellFormed where
  network := hnet.congr (sameIp_setTimestamp r _) rfl rfl
  transport := htr.congr rfl rfl
  totalHeaderLenght := hhl
  timestamp := ⟨now, rfl⟩

theorem wellFormed_of_fill {now : Tm} (h : (fillFullPacketNode recvlen now).eval mem = some r) :
    r.WellFormed := by
  have hend := headerLen_cases mem
  by_cases h4 : (linkEnd mem).ethtype = 0x0800
  · rw [fill_ipv4 mem h4, Option.map_eq_some_iff] at h
    obtain ⟨r, hr, rfl⟩ := h
    rw [ipv4Layer_eval] at hr
    split at hr
    · simp at hr
    split at hr
    · simp at hr
    obtain ⟨hnet, htr, hle⟩ := fillTransport_formed hr (ipv4Record_formed mem _)
      (ipBase_transport mem "IPv4")
    refine wellFormed_setTimestamp hnet htr ?_ now
    simp only [ipv4Record] at hle
    omega
  by_cases h6 : (linkEnd mem).ethtype = 0x86DD
  · rw [fill_ipv6 mem h6, Option.map_eq_some_iff] at h
    obtain ⟨r, hr, rfl⟩ := h
    rw [ipv6Layer_eval _ (ipBase_protocoloTransporte mem _)] at hr
    split at hr
    · simp at hr
    have hwalk := chain_snd_le mem 7 (mem ((linkEnd mem).headerLen + 6)).toNat
      (40 + (linkEnd mem).headerLen)
    rw [← frameChain] at hwalk
    obtain ⟨hnet, htr, hle⟩ := fillTransport_formed hr (ipv6Record_formed mem _)
      (by rw [walked_transport, ipv6Record_transport, ipBase_transport])
    refine wellFormed_setTimestamp hnet htr ?_ now
    rw [FullInternetPacket.walked_totalHeaderLenght] at hle
    omega
  · rw [fill_nonIp mem h4 h6] at h
    split at h
    · simp at h
    obtain rfl := Option.some.inj h
    obtain ⟨hnet, htr, hhl⟩ := nameProtocol_formed mem h4 h6
    exact wellFormed_setTimestamp hnet htr (by omega) now

theorem wellFormed_of_parse (h : parse content n now = some r) : r.WellFormed :=
  wellFormed_of_fill h

/-- A record as the parser thread queues it: made from a frame of at most
65535 bytes, whose number it carries. -/
def Produced (r : FullInternetPacket) : Prop :=
  ∃ content n now, 0 < n ∧ n ≤ 65535 ∧ ∃ node ∈ parse content n now,
    r = { node with tamanhoTotalPacket := n }

def synRecord : FullInternetPacket where
  isVlan := 1
  tcpSyn := 1
  macOrigem := "02:00:00:00:00:02".toList
  macDestino := "02:00:00:00:00:01".toList
  protocoloIp := "IPv4".toList
  ipOrigem := "10.0.0.2".toList
  ipDestino := "10.0.0.1".toList
  tempoVida := 64
  totalHeaderLenght := 70
  tamanhoTotalPacket := 70
  portaOrigem := 51000
  portaDestino := 80
  tcpSeq := 0xfffffff0
  protocoloTransporte := 6
  timestamp := "2026-05-08T12:00:00".toList

theorem produced_synRecord : Produced synRecord :=
  ⟨Content.ofBytes synFrame.encode, 70, noon, by decide, by decide,
    { synRecord with tamanhoTotalPacket := 0 }, by decide +kernel, rfl⟩

def datagramRecord : FullInternetPacket where
  macOrigem := "02:00:00:00:00:02".toList
  macDestino := "02:00:00:00:00:01".toList
  protocoloIp := "IPv6".toList
  ipOrigem := "fe80:0000:0000:0000:0000:0000:0000:0002".toList
  ipDestino := "fe80:0000:0000:0000:0000:0000:0000:0001".toList
  tempoVida := 64
  totalHeaderLenght := 86
  tamanhoTotalPacket := 86
  portaOrigem := 53
  portaDestino := 50000
  protocoloTransporte := 17
  timestamp := "2026-05-08T12:00:00".toList

theorem produced_datagramRecord : Produced datagramRecord :=
  ⟨Content.ofBytes datagramFrame.encode, 86, noon, by decide, by decide,
    { datagramRecord with tamanhoTotalPacket := 0 }, by decide +kernel, rfl⟩

theorem produced_records : ∀ pkt ∈ [synRecord, datagramRecord], Produced pkt := by
  simpa using ⟨produced_synRecord, produced_datagramRecord⟩

theorem Produced.wellFormed (h : Produced r) : r.WellFormed := by
  obtain ⟨content, n, now, -, -, node, hnode, rfl⟩ := h
  obtain ⟨hnet, htr, hhl, htime⟩ := wellFormed_of_parse hnode
  exact ⟨hnet.congr ⟨rfl, rfl, rfl, rfl, rfl, rfl⟩ rfl rfl, htr.congr rfl rfl, hhl, htime⟩

-- ---------------------------------------------------------------------------
-- What the encoder relies on
-- ---------------------------------------------------------------------------

namespace FullInternetPacket

def IsIp (p : FullInternetPacket) : Prop :=
  p.protocoloIp = "IPv4".toList ∨ p.protocoloIp = "IPv6".toList

def flags (p : FullInternetPacket) : List UInt8 :=
  [p.tcpCwr, p.tcpEce, p.tcpUrg, p.tcpAck, p.tcpPsh, p.tcpRst, p.tcpSyn, p.tcpFin]

end FullInternetPacket

def IsMac (cs : CString) : Prop := cs.length = 17 ∧ HexGroups 6 2 cs

/-- An address of either family, or what stands for none. -/
def IsAddress (cs : CString) : Prop :=
  cs = "Null".toList ∨ DottedQuad cs ∨ (cs.length = 39 ∧ HexGroups 8 4 cs)

/-- What `generate_json_payload` takes for granted. -/
structure Encodable (p : FullInternetPacket) : Prop where
  macOrigem : IsMac p.macOrigem
  macDestino : IsMac p.macDestino
  ipOrigem : IsAddress p.ipOrigem ∧ (p.ipOrigem = "Null".toList ↔ ¬ p.IsIp)
  ipDestino : IsAddress p.ipDestino ∧ (p.ipDestino = "Null".toList ↔ ¬ p.IsIp)
  portas : p.portaOrigem < 2 ^ 16 ∧ p.portaDestino < 2 ^ 16
  semPortas : p.protocoloTransporte ≠ 6 → p.protocoloTransporte ≠ 17 →
    p.portaOrigem = 0 ∧ p.portaDestino = 0
  sequences : p.tcpSeq < 2 ^ 32 ∧ p.tcpAckSeq < 2 ^ 32
  semTcp : p.protocoloTransporte ≠ 6 →
    p.tcpSeq = 0 ∧ p.tcpAckSeq = 0 ∧ ∀ flag ∈ p.flags, flag = 0
  semIp : ¬ p.IsIp → p.protocoloTransporte ∉ [6, 17, 1, 5, 58]

theorem isMac_macText (h : raw.length = 6) : IsMac (macText raw) :=
  ⟨macText_length h, macText_hexGroups h⟩

theorem dottedQuad_ne_null (h : DottedQuad cs) : cs ≠ "Null".toList := by
  obtain ⟨octets, -, -, rfl⟩ := h
  intro heq
  have hmem : 'N' ∈ ['.'].intercalate (octets.map Text.decimal) := heq ▸ by decide
  rcases Text.mem_intercalate hmem with hsep | ⟨l, hl, hmem⟩
  · exact absurd hsep (by decide)
  · obtain ⟨n, -, rfl⟩ := List.mem_map.mp hl
    exact absurd (Text.decimal_isDigit hmem) (by decide)

theorem hexGroups_ne_null (h : HexGroups k w cs) : cs ≠ "Null".toList := by
  obtain ⟨groups, -, hgroups, rfl⟩ := h
  intro heq
  have hmem : 'N' ∈ [':'].intercalate groups := heq ▸ by decide
  rcases Text.mem_intercalate hmem with hsep | ⟨g, hg, hmem⟩
  · exact absurd hsep (by decide)
  · exact absurd ((hgroups g hg).2 _ hmem) (by decide)

theorem IsAddress.given (h : IsAddress cs) (hne : cs ≠ "Null".toList) (hip : r.IsIp) :
    IsAddress cs ∧ (cs = "Null".toList ↔ ¬ r.IsIp) :=
  ⟨h, fun hnull => absurd hnull hne, fun hnot => absurd hip hnot⟩

/-- Addresses are given exactly by the records that say they are of an IP
frame. -/
theorem NetworkTexts.addresses (h : NetworkTexts r) :
    (IsAddress r.ipOrigem ∧ (r.ipOrigem = "Null".toList ↔ ¬ r.IsIp)) ∧
      IsAddress r.ipDestino ∧ (r.ipDestino = "Null".toList ↔ ¬ r.IsIp) := by
  cases h with
  | ipv4 name source destination hs hd origem destino =>
    have given : ∀ raw : List UInt8, raw.length = 4 → IsAddress (ipv4Text raw) ∧
        (ipv4Text raw = "Null".toList ↔ ¬ r.IsIp) := by
      intro raw hraw
      have hquad := ipv4Text_dottedQuad hraw
      exact IsAddress.given (.inr (.inl hquad)) (dottedQuad_ne_null hquad) (.inl name)
    rw [origem, destino]
    exact ⟨given source hs, given destination hd⟩
  | ipv6 name source destination hs hd origem destino =>
    have given : ∀ raw : List UInt8, raw.length = 16 → IsAddress (ipv6Text raw) ∧
        (ipv6Text raw = "Null".toList ↔ ¬ r.IsIp) := by
      intro raw hraw
      have hgroups := ipv6Text_hexGroups hraw
      exact IsAddress.given (.inr (.inr ⟨ipv6Text_length hraw, hgroups⟩))
        (hexGroups_ne_null hgroups) (.inr name)
    rw [origem, destino]
    exact ⟨given source hs, given destination hd⟩
  | nonIp name origem destino transporte =>
    have hip : ¬ r.IsIp := by
      rintro (h4 | h6)
      · exact absurd (h4 ▸ name) (by decide)
      · exact absurd (h6 ▸ name) (by decide)
    exact ⟨⟨.inl origem, fun _ => hip, fun _ => origem⟩, .inl destino, fun _ => hip,
      fun _ => destino⟩

theorem NetworkTexts.transporte_of_not_isIp (h : NetworkTexts r) (hip : ¬ r.IsIp) :
    r.protocoloTransporte = -1 := by
  cases h with
  | ipv4 name => exact absurd (.inl name) hip
  | ipv6 name => exact absurd (.inr name) hip
  | nonIp name origem destino transporte => exact transporte

/-- Without TCP there is nothing of TCP, and without UDP either no ports. -/
theorem TransportFormed.fields (h : TransportFormed r) :
    (r.protocoloTransporte ≠ 6 → r.protocoloTransporte ≠ 17 →
        r.portaOrigem = 0 ∧ r.portaDestino = 0) ∧
      (r.protocoloTransporte ≠ 6 →
        r.tcpSeq = 0 ∧ r.tcpAckSeq = 0 ∧ ∀ flag ∈ r.flags, flag = 0) := by
  refine ⟨fun h6 h17 => ?_, fun h6 => ?_⟩
  · have hzero := h.ofOther h6 h17
    simp only [FullInternetPacket.transport, Transport.mk.injEq] at hzero
    exact ⟨hzero.1, hzero.2.1⟩
  · have hzero : r.transport =
        { portaOrigem := r.portaOrigem, portaDestino := r.portaDestino } := by
      by_cases h17 : r.protocoloTransporte = 17
      · exact h.ofUdp h17
      · have hnone := h.ofOther h6 h17
        simp only [FullInternetPacket.transport, Transport.mk.injEq] at hnone ⊢
        exact ⟨trivial, trivial, hnone.2.2⟩
    simp only [FullInternetPacket.transport, Transport.mk.injEq, true_and] at hzero
    obtain ⟨hseq, hack, hflags⟩ := hzero
    refine ⟨hseq, hack, ?_⟩
    simpa [FullInternetPacket.flags] using hflags

/-- Every record the parser returns is one the encoder can take, whatever
the bytes and their number.

Premise: a record is returned. -/
theorem encodable_of_fill {now : Tm} (h : (fillFullPacketNode recvlen now).eval mem = some r) :
    Encodable r := by
  obtain ⟨hnet, htr, -, -⟩ := wellFormed_of_fill h
  obtain ⟨raw, hraw, hmo⟩ := hnet.macOrigem
  obtain ⟨raw', hraw', hmd⟩ := hnet.macDestino
  obtain ⟨horigem, hdestino⟩ := hnet.texts.addresses
  obtain ⟨hportas, htcp⟩ := htr.fields
  exact {
    macOrigem := hmo ▸ isMac_macText hraw
    macDestino := hmd ▸ isMac_macText hraw'
    ipOrigem := horigem
    ipDestino := hdestino
    portas := ⟨htr.portaOrigem, htr.portaDestino⟩
    semPortas := hportas
    sequences := ⟨htr.tcpSeq, htr.tcpAckSeq⟩
    semTcp := htcp
    semIp := fun hip => by rw [hnet.texts.transporte_of_not_isIp hip]; decide }

theorem encodable_of_fill_synFrame :
    ∃ r, (fillFullPacketNode 70 noon).eval (Content.ofBytes synFrame.encode).memory = some r ∧
      Encodable r := by
  have h : (fillFullPacketNode 70 noon).eval (Content.ofBytes synFrame.encode).memory =
      some { synRecord with tamanhoTotalPacket := 0 } := by decide +kernel
  exact ⟨_, h, encodable_of_fill h⟩

end WireSentinel
