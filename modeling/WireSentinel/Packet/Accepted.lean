import WireSentinel.Packet.Decode

/-!
# Accepted frames

`fill_fullPacket_node` read backwards. A frame of IPv4 or IPv6 is accepted
when the guards in front of the transport switch pass and the switch takes
one of its three exits (`TransportExit`); the record is then that exit's,
with the timestamp. Any other EtherType is accepted once the link header is
captured.
-/

namespace WireSentinel

variable {mem mem' : Memory} {recvlen : Int} {node r : FullInternetPacket} {now : Tm}

-- ---------------------------------------------------------------------------
-- The transport switch
-- ---------------------------------------------------------------------------

/-- What the transport switch makes of a record, by the branch it takes. -/
inductive TransportExit (mem : Memory) (recvlen : Int) (node : FullInternetPacket) :
    FullInternetPacket → Prop
  | tcp (proto : node.protocoloTransporte = 6)
      (fits : (node.totalHeaderLenght + 20 : Int) ≤ recvlen) :
      TransportExit mem recvlen node ((tcpRecord mem node.totalHeaderLenght node).setHeader
        (node.totalHeaderLenght + tcpLenght mem node.totalHeaderLenght))
  | udp (proto : node.protocoloTransporte = 17)
      (fits : (node.totalHeaderLenght + 8 : Int) ≤ recvlen) :
      TransportExit mem recvlen node ((udpRecord mem node.totalHeaderLenght node).setHeader
        (node.totalHeaderLenght + 8))
  | other (h6 : node.protocoloTransporte ≠ 6) (h17 : node.protocoloTransporte ≠ 17) :
      TransportExit mem recvlen node (clearTransport node)

theorem fillTransport_ok :
    (fillTransport recvlen node).eval mem = some r ↔ TransportExit mem recvlen node r := by
  constructor
  · intro h
    by_cases h6 : node.protocoloTransporte = 6
    · rw [fillTransport_tcp mem h6] at h
      split at h
      · simp at h
      · obtain rfl := Option.some.inj h
        exact .tcp h6 (by omega)
    by_cases h17 : node.protocoloTransporte = 17
    · rw [fillTransport_udp mem h17] at h
      split at h
      · simp at h
      · obtain rfl := Option.some.inj h
        exact .udp h17 (by omega)
    · rw [fillTransport_other mem h6 h17] at h
      obtain rfl := Option.some.inj h
      exact .other h6 h17
  · intro h
    cases h with
    | tcp proto fits => rw [fillTransport_tcp mem proto, if_neg (by omega)]
    | udp proto fits => rw [fillTransport_udp mem proto, if_neg (by omega)]
    | other h6 h17 => exact fillTransport_other mem h6 h17

theorem TransportExit.protocoloTransporte (h : TransportExit mem recvlen node r) :
    r.protocoloTransporte = node.protocoloTransporte := by
  cases h <;> rfl

-- ---------------------------------------------------------------------------
-- The IP layer
-- ---------------------------------------------------------------------------

theorem le_chain_snd (mem : Memory) (k p i : Nat) : i ≤ (chain mem k p i).2 := by
  induction k generalizing p i with
  | zero => exact Nat.le_refl i
  | succ k ih =>
    unfold chain
    split
    · exact Nat.le_trans (Nat.le_add_right ..) (ih _ _)
    · split
      · exact Nat.le_trans (Nat.le_add_right ..) (ih _ _)
      · exact Nat.le_refl i

/-- The frame's EtherType is that of IPv4 or of IPv6. -/
def IsIp (mem : Memory) : Prop := (linkEnd mem).ethtype = 0x0800 ∨ (linkEnd mem).ethtype = 0x86DD

instance (mem : Memory) : Decidable (IsIp mem) := inferInstanceAs (Decidable (_ ∨ _))

/-- The index behind the IP headers: where a TCP or UDP header would
start. -/
def transportStart (mem : Memory) : Nat :=
  let o := (linkEnd mem).headerLen
  if (linkEnd mem).ethtype = 0x0800 then (mem o).toNat % 16 * 4 + o else (frameChain mem o).2

/-- The guards in front of the transport switch. -/
def IpCaptured (mem : Memory) (recvlen : Int) : Prop :=
  let o := (linkEnd mem).headerLen
  if (linkEnd mem).ethtype = 0x0800 then
    (o + 20 : Int) ≤ recvlen ∧ 5 ≤ (mem o).toNat % 16 ∧ (transportStart mem : Int) ≤ recvlen
  else (o + 40 : Int) ≤ recvlen

/-- The record the transport switch is given. -/
def ipRecord (mem : Memory) : FullInternetPacket :=
  let o := (linkEnd mem).headerLen
  if (linkEnd mem).ethtype = 0x0800 then ipv4Record mem o (ipBase mem "IPv4")
  else (ipv6Record mem o (ipBase mem "IPv6")).walked (frameChain mem o)

@[simp] theorem ipRecord_totalHeaderLenght (mem : Memory) :
    (ipRecord mem).totalHeaderLenght = transportStart mem := by
  unfold ipRecord transportStart
  simp only
  split <;> rfl

theorem ipRecord_transport (mem : Memory) : (ipRecord mem).transport = {} := by
  unfold ipRecord
  simp only
  split
  · exact ipBase_transport mem "IPv4"
  · rw [walked_transport, ipv6Record_transport, ipBase_transport]

theorem fill_ip_eval (hip : IsIp mem) (recvlen : Int) (now : Tm) :
    (IpCaptured mem recvlen ∧ (fillFullPacketNode recvlen now).eval mem =
      ((fillTransport recvlen (ipRecord mem)).eval mem).map (·.setTimestamp (getTime now))) ∨
    (¬ IpCaptured mem recvlen ∧ (fillFullPacketNode recvlen now).eval mem = none) := by
  rcases hip with h4 | h6
  · rw [fill_ipv4 mem h4, ipv4Layer_eval]
    simp only [IpCaptured, ipRecord, transportStart, h4, ↓reduceIte]
    split
    · exact .inr ⟨by omega, rfl⟩
    · split
      · exact .inr ⟨by omega, rfl⟩
      · exact .inl ⟨by omega, rfl⟩
  · have h4 : (linkEnd mem).ethtype ≠ 0x0800 := by simp [h6]
    rw [fill_ipv6 mem h6, ipv6Layer_eval mem (ipBase_protocoloTransporte mem _)]
    simp only [IpCaptured, ipRecord, h4, ↓reduceIte]
    split
    · exact .inr ⟨by omega, rfl⟩
    · exact .inl ⟨by omega, rfl⟩

theorem fill_ip_ok (hip : IsIp mem) :
    (fillFullPacketNode recvlen now).eval mem = some r ↔
      IpCaptured mem recvlen ∧ ∃ q, TransportExit mem recvlen (ipRecord mem) q ∧
        r = q.setTimestamp (getTime now) := by
  rcases fill_ip_eval hip recvlen now with ⟨hc, h⟩ | ⟨hc, h⟩
  · rw [h, Option.map_eq_some_iff]
    simp only [fillTransport_ok, hc, true_and]
    constructor
    · rintro ⟨q, hq, rfl⟩
      exact ⟨q, hq, rfl⟩
    · rintro ⟨q, hq, rfl⟩
      exact ⟨q, hq, rfl⟩
  · simp [h, hc]

theorem fill_nonIp_ok (hip : ¬ IsIp mem) :
    (fillFullPacketNode recvlen now).eval mem = some r ↔
      ((linkEnd mem).headerLen : Int) ≤ recvlen ∧
        r = (nameProtocol (linkEnd mem).ethtype (linkRecord mem)).1.setTimestamp (getTime now) := by
  obtain ⟨h4, h6⟩ := not_or.mp hip
  rw [fill_nonIp mem h4 h6]
  split
  · rename_i hlen
    simp [Int.not_le.mpr hlen]
  · rename_i hlen
    simp [Int.not_lt.mp hlen, eq_comm]

end WireSentinel
