import WireSentinel.Packet.Accepted

/-!
# Tags are transparent

A frame with tags inserted behind its MAC addresses is parsed as the frame
without them: the bytes behind the tags are read at indices that are all
moved by the tags' length, and so are the guards.
-/

namespace WireSentinel

variable {mem mem' : Memory} {n : Int} {node r : FullInternetPacket} {d i k p : Nat} {v : UInt8}

-- ---------------------------------------------------------------------------
-- Inserting tags
-- ---------------------------------------------------------------------------

/-- The frame with tags behind its MAC addresses. -/
def insertTags (tags : Tags) (mem : Memory) : Memory := fun i =>
  if i < 12 then mem i else (tags.encode[i - 12]?).getD (mem (i - tags.encode.length))

/-- `mem'` holds the bytes of `mem` from the EtherType on, `d` bytes
later. -/
def Shifted (d : Nat) (mem mem' : Memory) : Prop := ∀ i, 12 ≤ i → mem' (i + d) = mem i

theorem insertTags_shifted (tags : Tags) (mem : Memory) :
    Shifted tags.encode.length mem (insertTags tags mem) := by
  intro i hi
  have hnone : tags.encode[i + tags.encode.length - 12]? = none :=
    List.getElem?_eq_none (by omega)
  simp [insertTags, hnone, show ¬ i + tags.encode.length < 12 by omega]

theorem insertTags_before (tags : Tags) (mem : Memory) (hk : i + k ≤ 12) :
    (List.range' i k).map (insertTags tags mem) = (List.range' i k).map mem := by
  refine List.map_congr_left fun j hj => ?_
  have := List.mem_range'_1.mp hj
  simp [insertTags, show j < 12 by omega]

theorem holds_insertTags (tags : Tags) (mem : Memory) :
    Holds (insertTags tags mem) 12 tags.encode := by
  refine List.ext_getElem (by simp) fun i hi hi' => ?_
  simp [insertTags, hi']

/-- The link header of a frame, as one with the given tags. -/
def taggedLink (tags : Tags) (mem : Memory) : Ethernet where
  destination := (List.range' 0 6).map mem
  source := (List.range' 6 6).map mem
  tags := tags
  destination_length := by simp
  source_length := by simp

theorem holds_taggedLink (tags : Tags) (mem : Memory) :
    Holds (insertTags tags mem) 0 ((taggedLink tags mem).encode (be16 (mem 12) (mem 13))) := by
  have hdest := insertTags_before tags mem (i := 0) (k := 6) (by decide)
  have hsrc := insertTags_before tags mem (i := 6) (k := 6) (by decide)
  have htags := holds_insertTags tags mem
  have h12 := insertTags_shifted tags mem 12 (by decide)
  have h13 := insertTags_shifted tags mem 13 (by decide)
  rw [show 13 + tags.encode.length = 12 + tags.encode.length + 1 by omega] at h13
  simp only [Ethernet.encode, taggedLink, bytes16_be16, holds_append, holds_cons, holds_nil,
    List.length_append, List.length_map, List.length_range', Nat.zero_add, and_true]
  refine ⟨⟨⟨?_, ?_⟩, htags⟩, h12, h13⟩
  · simpa [Holds] using hdest
  · simpa [Holds] using hsrc

/-- A frame whose EtherType does not announce a tag. -/
structure Untagged (mem : Memory) : Prop where
  stacked : be16 (mem 12) (mem 13) ≠ 0x88a8
  vlan : be16 (mem 12) (mem 13) ≠ 0x8100

theorem Untagged.link (h : Untagged mem) : linkEnd mem = ⟨14, be16 (mem 12) (mem 13), false⟩ := by
  have ht : ethtypeBefore mem 14 = be16 (mem 12) (mem 13) := rfl
  simp [linkEnd, stackedEnd, ht, h.stacked, h.vlan]

theorem linkEnd_insertTags (h : Untagged mem) (tags : Tags) :
    linkEnd (insertTags tags mem) =
      ⟨14 + tags.encode.length, be16 (mem 12) (mem 13), tags.isVlan⟩ :=
  linkEnd_of_holds (taggedLink tags mem) (be16_lt ..) h.stacked h.vlan (holds_taggedLink tags mem)

/-- `is_vlan` of a frame with these tags. -/
def Tags.flag (tags : Tags) : UInt8 := if tags.isVlan then 1 else 0

theorem linkRecord_insertTags (h : Untagged mem) (tags : Tags) :
    linkRecord (insertTags tags mem) = (linkRecord mem).setVlan tags.flag := by
  have hmac : macRecord (insertTags tags mem) = macRecord mem := by
    rw [macRecord, macRecord, insertTags_before tags mem (by decide),
      insertTags_before tags mem (by decide)]
  rw [linkRecord, linkRecord, h.link, linkEnd_insertTags h, hmac]
  cases hv : tags.isVlan
  · simp [Tags.flag, hv, FullInternetPacket.setVlan, macRecord]
  · simp [Tags.flag, hv]

-- ---------------------------------------------------------------------------
-- Moving the reads
-- ---------------------------------------------------------------------------

section
variable (hs : Shifted d mem mem')

include hs

theorem Shifted.range (hi : 12 ≤ i) :
    (List.range' (i + d) k).map mem' = (List.range' i k).map mem := by
  refine List.ext_getElem (by simp) fun j _ _ => ?_
  simp only [List.getElem_map, List.getElem_range', Nat.one_mul]
  rw [Nat.add_right_comm]
  exact hs (i + j) (by omega)

theorem Shifted.walk (hi : 12 ≤ i) :
    chain mem' k p (i + d) = ((chain mem k p i).1, (chain mem k p i).2 + d) := by
  induction k generalizing p i with
  | zero => rfl
  | succ k ih =>
    unfold chain
    have h0 : mem' (i + d) = mem i := hs i hi
    have h1 : mem' (i + d + 1) = mem (i + 1) := by
      rw [Nat.add_right_comm]
      exact hs (i + 1) (by omega)
    by_cases hz : IsSized p
    · simp only [hz, ↓reduceIte, h0, h1]
      rw [Nat.add_right_comm]
      exact ih (by omega)
    · by_cases hf : p = 44
      · simp only [hf, not_isSized_fragment, ↓reduceIte, h0]
        rw [Nat.add_right_comm]
        exact ih (by omega)
      · simp [hz, hf]

theorem Shifted.tcp (hi : 12 ≤ i) (node : FullInternetPacket) :
    tcpRecord mem' (i + d) node = tcpRecord mem i node ∧
      tcpLenght mem' (i + d) = tcpLenght mem i := by
  have h : ∀ j, mem' (i + d + j) = mem (i + j) := fun j => by
    rw [Nat.add_right_comm]
    exact hs (i + j) (by omega)
  have h0 : mem' (i + d) = mem i := h 0
  simp only [tcpRecord, tcpLenght, h, h0, and_self]

theorem Shifted.udp (hi : 12 ≤ i) (node : FullInternetPacket) :
    udpRecord mem' (i + d) node = udpRecord mem i node := by
  have h : ∀ j, mem' (i + d + j) = mem (i + j) := fun j => by
    rw [Nat.add_right_comm]
    exact hs (i + j) (by omega)
  have h0 : mem' (i + d) = mem i := h 0
  simp only [udpRecord, h, h0]

end

-- ---------------------------------------------------------------------------
-- The record
-- ---------------------------------------------------------------------------

/-- A record with `is_vlan` set to `v` and `d` bytes more of headers. -/
def FullInternetPacket.retag (r : FullInternetPacket) (v : UInt8) (d : Nat) : FullInternetPacket :=
  (r.setVlan v).setHeader (r.totalHeaderLenght + d)

theorem fillTransport_shifted (hs : Shifted d mem mem') (hi : 12 ≤ node.totalHeaderLenght)
    (n : Int) (v : UInt8) :
    (fillTransport (n + d) (node.retag v d)).eval mem' =
      ((fillTransport n node).eval mem).map (·.retag v d) := by
  have hstart : (node.retag v d).totalHeaderLenght = node.totalHeaderLenght + d := rfl
  have hproto : (node.retag v d).protocoloTransporte = node.protocoloTransporte := rfl
  by_cases h6 : node.protocoloTransporte = 6
  · obtain ⟨hrec, hlen⟩ := hs.tcp hi (node.retag v d)
    rw [fillTransport_tcp mem h6, fillTransport_tcp mem' (hproto.trans h6), hstart, hrec, hlen]
    by_cases hfits : n < node.totalHeaderLenght + 20
    · rw [if_pos hfits, if_pos (by omega), Option.map_none]
    · rw [if_neg hfits, if_neg (by omega), Option.map_some, Nat.add_right_comm]
      rfl
  by_cases h17 : node.protocoloTransporte = 17
  · rw [fillTransport_udp mem h17, fillTransport_udp mem' (hproto.trans h17), hstart, hs.udp hi]
    by_cases hfits : n < node.totalHeaderLenght + 8
    · rw [if_pos hfits, if_pos (by omega), Option.map_none]
    · rw [if_neg hfits, if_neg (by omega), Option.map_some, Nat.add_right_comm]
      rfl
  · rw [fillTransport_other mem h6 h17, fillTransport_other mem' (hproto ▸ h6) (hproto ▸ h17)]
    rfl

theorem ipRecord_insertTags (h : Untagged mem) (tags : Tags) :
    ipRecord (insertTags tags mem) = (ipRecord mem).retag tags.flag tags.encode.length := by
  have hs := insertTags_shifted tags mem
  have hbase : ∀ name, ipBase (insertTags tags mem) name =
      (ipBase mem name).setVlan tags.flag := fun name => by
    rw [ipBase, ipBase, linkRecord_insertTags h]
    rfl
  have hbyte : ∀ j, insertTags tags mem (14 + tags.encode.length + j) = mem (14 + j) :=
    fun j => by
      rw [Nat.add_right_comm]
      exact hs (14 + j) (by omega)
  have hfirst : insertTags tags mem (14 + tags.encode.length) = mem 14 := hbyte 0
  have hrange : ∀ j k, (List.range' (14 + tags.encode.length + j) k).map (insertTags tags mem) =
      (List.range' (14 + j) k).map mem := fun j k => by
    rw [Nat.add_right_comm]
    exact hs.range (by omega)
  have hwalk : frameChain (insertTags tags mem) (14 + tags.encode.length) =
      ((frameChain mem 14).1, (frameChain mem 14).2 + tags.encode.length) := by
    rw [frameChain, hbyte, ← Nat.add_assoc]
    exact hs.walk (by omega)
  unfold ipRecord
  rw [linkEnd_insertTags h, h.link]
  simp only
  split
  · simp only [ipv4Record, hbase, hfirst, hbyte, hrange, ← Nat.add_assoc]
    rfl
  · simp only [ipv6Record, hbase, hbyte, hrange, hwalk]
    rfl

theorem ipCaptured_insertTags (h : Untagged mem) (tags : Tags) (n : Int) :
    IpCaptured (insertTags tags mem) (n + tags.encode.length) ↔ IpCaptured mem n := by
  have hstart : transportStart (insertTags tags mem) =
      transportStart mem + tags.encode.length := by
    rw [← ipRecord_totalHeaderLenght, ipRecord_insertTags h, ← ipRecord_totalHeaderLenght mem]
    rfl
  have hfirst : insertTags tags mem (14 + tags.encode.length) = mem 14 :=
    insertTags_shifted tags mem 14 (by decide)
  unfold IpCaptured
  rw [hstart, linkEnd_insertTags h, h.link]
  simp only
  rw [hfirst]
  split
  · omega
  · omega

/-- `is_vlan` says whether an 802.1Q tag was inserted, and the headers of an
IP frame are longer by the tags. -/
def tagged (tags : Tags) (mem : Memory) (r : FullInternetPacket) : FullInternetPacket :=
  { r with
    isVlan := if tags.isVlan then 1 else 0
    totalHeaderLenght :=
      if IsIp mem then r.totalHeaderLenght + tags.encode.length else r.totalHeaderLenght }

theorem nameProtocol_setVlan (e : Nat) (node : FullInternetPacket) (v : UInt8) :
    (nameProtocol e (node.setVlan v)).1 = (nameProtocol e node).1.setVlan v := by
  unfold nameProtocol
  repeat' split
  all_goals rfl

theorem fill_insertTags_eval (h : Untagged mem) (tags : Tags) (n : Int) (now : Tm) :
    (fillFullPacketNode (n + tags.encode.length) now).eval (insertTags tags mem) =
      ((fillFullPacketNode n now).eval mem).map (tagged tags mem) := by
  have hend := linkEnd_insertTags h tags
  have hsame : IsIp (insertTags tags mem) ↔ IsIp mem := by rw [IsIp, IsIp, hend, h.link]
  by_cases hip : IsIp mem
  · have htagged : ∀ r, tagged tags mem r = r.retag tags.flag tags.encode.length := fun r => by
      rw [tagged, if_pos hip]
      rfl
    have hstart : 12 ≤ (ipRecord mem).totalHeaderLenght := by
      have := le_chain_snd mem 7 (mem (14 + 6)).toNat (40 + 14)
      rw [ipRecord_totalHeaderLenght, transportStart, h.link]
      simp only [frameChain]
      split <;> omega
    have hcaptured := ipCaptured_insertTags h tags n
    rcases fill_ip_eval hip n now with ⟨hc, hm⟩ | ⟨hc, hm⟩
    · rcases fill_ip_eval (hsame.mpr hip) (n + tags.encode.length) now with ⟨-, hm'⟩ | ⟨hc', -⟩
      · rw [hm, hm', ipRecord_insertTags h,
          fillTransport_shifted (insertTags_shifted tags mem) hstart]
        simp only [Option.map_map, Function.comp_def, htagged]
        rfl
      · exact absurd (hcaptured.mpr hc) hc'
    · rcases fill_ip_eval (hsame.mpr hip) (n + tags.encode.length) now with ⟨hc', -⟩ | ⟨-, hm'⟩
      · exact absurd (hcaptured.mp hc') hc
      · rw [hm, hm', Option.map_none]
  · obtain ⟨h4, h6⟩ := not_or.mp hip
    obtain ⟨h4', h6'⟩ := not_or.mp (hsame.not.mpr hip)
    have hguard : n + tags.encode.length < (14 + tags.encode.length : Nat) ↔ n < 14 := by omega
    rw [fill_nonIp mem h4 h6, fill_nonIp _ h4' h6', hend, h.link, linkRecord_insertTags h]
    simp only [hguard]
    split
    · rename_i hlen
      rw [if_pos (by exact hlen), Option.map_none]
    · rename_i hlen
      rw [if_neg (by exact hlen), Option.map_some, tagged, if_neg hip, nameProtocol_setVlan]
      rfl

/-- The time shows in the timestamp only. -/
theorem sameRecord_now (mem : Memory) (n : Int) (now now' : Tm) :
    SameRecord ((fillFullPacketNode n now).eval mem) ((fillFullPacketNode n now').eval mem) := by
  rw [SameRecord, fill_eval, fill_eval]
  split
  · rfl
  · simp [Function.comp_def]

/-- Inserting tags makes the parser refuse exactly the frames it refused,
and changes in a record `is_vlan` and, for IPv4 and IPv6, the header length,
by the tags' length.

Premise: the frame has no tag before. -/
theorem fill_insertTags (h : Untagged mem) (tags : Tags) (n : Int) (now now' : Tm) :
    ((fillFullPacketNode (n + tags.encode.length) now').eval (insertTags tags mem) = none ↔
        (fillFullPacketNode n now).eval mem = none) ∧
      ∀ r, (fillFullPacketNode n now).eval mem = some r →
        ∃ r', (fillFullPacketNode (n + tags.encode.length) now').eval (insertTags tags mem) =
            some r' ∧ r'.untimed = (tagged tags mem r).untimed := by
  have hnow := sameRecord_now (insertTags tags mem) (n + tags.encode.length) now' now
  rw [SameRecord, fill_insertTags_eval h tags n now] at hnow
  constructor
  · rw [← Option.map_eq_none_iff (f := FullInternetPacket.untimed), hnow]
    simp
  · intro r hr
    rw [hr, Option.map_some, Option.map_some, Option.map_eq_some_iff] at hnow
    exact hnow

def plainFrame : Ipv4Frame :=
  { synFrame with link := { synFrame.link with tags := .untagged } }

/-- With both tags, the 62 bytes of headers of a SYN are 70. -/
theorem fill_insertTags_syn :
    ∃ r r', (fillFullPacketNode 62 noon).eval (Content.ofBytes plainFrame.encode).memory = some r ∧
      (fillFullPacketNode 70 noon).eval
          (insertTags (.both 0 1 0 2) (Content.ofBytes plainFrame.encode).memory) = some r' ∧
      r'.isVlan = 1 ∧ r.totalHeaderLenght = 62 ∧ r'.totalHeaderLenght = 70 := by
  have hlen : ((fillFullPacketNode 62 noon).eval (Content.ofBytes plainFrame.encode).memory).map
      (·.totalHeaderLenght) = some 62 := by decide +kernel
  have hplain : Untagged (Content.ofBytes plainFrame.encode).memory := ⟨by decide, by decide⟩
  have hip : IsIp (Content.ofBytes plainFrame.encode).memory := by decide
  generalize (Content.ofBytes plainFrame.encode).memory = mem at *
  obtain ⟨r, hr, h62⟩ := Option.map_eq_some_iff.mp hlen
  obtain ⟨r', hr', heq⟩ := (fill_insertTags hplain (.both 0 1 0 2) 62 noon noon).2 r hr
  have hvlan : r'.isVlan = 1 := congrArg (·.isVlan) heq
  have hgrown : r'.totalHeaderLenght = (tagged (.both 0 1 0 2) mem r).totalHeaderLenght :=
    congrArg (·.totalHeaderLenght) heq
  refine ⟨r, r', hr, hr', hvlan, h62, ?_⟩
  rw [hgrown, tagged, if_pos hip, h62]
  rfl

end WireSentinel
