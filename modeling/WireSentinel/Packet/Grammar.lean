import WireSentinel.Packet.Decode

/-!
# What lies in a slot

Every content of a slot starts with exactly one `Frame`: the link header,
the network header as far as it has a shape, and the start of the transport
header. Malformed input has a frame too; which ones the parser accepts is
`Frame.Fits`. Each header comes with the function that reads it, and one
lemma says that a header lies in memory if and only if it is the one read
there.
-/

namespace WireSentinel

variable {mem : Memory} {i k n : Nat}

-- ---------------------------------------------------------------------------
-- Bytes and words
-- ---------------------------------------------------------------------------

def word (mem : Memory) (i : Nat) : UInt16 := UInt16.ofNat (be16 (mem i) (mem (i + 1)))

def long (mem : Memory) (i : Nat) : UInt32 :=
  UInt32.ofNat (be32 (mem i) (mem (i + 1)) (mem (i + 2)) (mem (i + 3)))

theorem word_toNat (mem : Memory) (i : Nat) :
    (word mem i).toNat = be16 (mem i) (mem (i + 1)) :=
  UInt16.toNat_ofNat_of_lt' (be16_lt ..)

theorem long_toNat (mem : Memory) (i : Nat) :
    (long mem i).toNat = be32 (mem i) (mem (i + 1)) (mem (i + 2)) (mem (i + 3)) :=
  UInt32.toNat_ofNat_of_lt' (be32_lt ..)

theorem bytes32_be32 (a b c d : UInt8) : bytes32 (be32 a b c d) = [a, b, c, d] := by
  have := a.toNat_lt
  have := b.toNat_lt
  have := c.toNat_lt
  have := d.toNat_lt
  simp only [bytes32, be32, List.cons.injEq, and_true, ← UInt8.toNat_inj, UInt8.toNat_ofNat']
  omega

@[simp] theorem bytes16_length (v : Nat) : (bytes16 v).length = 2 := rfl

@[simp] theorem bytes32_length (v : Nat) : (bytes32 v).length = 4 := rfl

theorem holds_bytes16 {v : UInt16} : Holds mem i (bytes16 v.toNat) ↔ v = word mem i := by
  constructor
  · intro h
    simp only [bytes16, holds_cons, holds_nil, and_true] at h
    apply UInt16.toNat_inj.mp
    rw [word_toNat, h.1, h.2, be16_bytes16 v.toNat_lt]
  · rintro rfl
    simp [word_toNat, bytes16_be16]

theorem holds_bytes32 {v : UInt32} : Holds mem i (bytes32 v.toNat) ↔ v = long mem i := by
  constructor
  · intro h
    simp only [bytes32, holds_cons, holds_nil, and_true] at h
    apply UInt32.toNat_inj.mp
    obtain ⟨h0, h1, h2, h3⟩ := h
    rw [long_toNat, h0, h1, h2, h3, be32_bytes32 v.toNat_lt]
  · rintro rfl
    simp [long_toNat, bytes32_be32]

-- ---------------------------------------------------------------------------
-- Transport
-- ---------------------------------------------------------------------------

/-- The twenty bytes of a TCP header that the client asks for. -/
structure TcpStart where
  sourcePort : UInt16
  destinationPort : UInt16
  sequence : UInt32
  acknowledgement : UInt32
  /-- Data offset and reserved bits. -/
  offset : UInt8
  flags : UInt8
  /-- Window, checksum and urgent pointer. -/
  window : List UInt8
  window_length : window.length = 6

namespace TcpStart

def encode (h : TcpStart) : List UInt8 :=
  bytes16 h.sourcePort.toNat ++ bytes16 h.destinationPort.toNat ++ bytes32 h.sequence.toNat ++
    bytes32 h.acknowledgement.toNat ++ [h.offset, h.flags] ++ h.window

/-- The length the header announces, in bytes. -/
def announced (h : TcpStart) : Nat := h.offset.toNat / 16 * 4

def bit (h : TcpStart) (k : Nat) : UInt8 := (h.flags.toNat.testBit k).toUInt8

def read (mem : Memory) (i : Nat) : TcpStart where
  sourcePort := word mem i
  destinationPort := word mem (i + 2)
  sequence := long mem (i + 4)
  acknowledgement := long mem (i + 8)
  offset := mem (i + 12)
  flags := mem (i + 13)
  window := slice mem (i + 14) 6
  window_length := slice_length ..

theorem encode_length (h : TcpStart) : h.encode.length = 20 := by
  simp [encode, h.window_length]

theorem holds_iff (h : TcpStart) : Holds mem i h.encode ↔ h = read mem i := by
  obtain ⟨s, d, q, a, o, f, w, hw⟩ := h
  simp only [encode, read, mk.injEq, holds_append, holds_bytes16, holds_bytes32, holds_byte,
    holds_slice hw, holds_nil, and_true, List.length_append, List.length_cons, List.length_nil,
    bytes16_length, bytes32_length, Nat.add_assoc, Nat.reduceAdd, and_assoc]

end TcpStart

def UdpHeader.read (mem : Memory) (i : Nat) : UdpHeader where
  sourcePort := word mem i
  destinationPort := word mem (i + 2)
  rest := slice mem (i + 4) 4
  rest_length := slice_length ..

theorem UdpHeader.holds_iff (h : UdpHeader) : Holds mem i h.encode ↔ h = UdpHeader.read mem i := by
  obtain ⟨s, d, r, hr⟩ := h
  simp only [encode, read, mk.injEq, holds_append, holds_bytes16, holds_slice hr,
    List.length_append, bytes16_length, Nat.reduceAdd, and_assoc]

/-- What follows the IP headers, as far as the client asks for it. -/
inductive Segment where
  | tcp (start : TcpStart)
  | udp (header : UdpHeader)
  | other (protocol : UInt8) (not_tcp : protocol ≠ 6) (not_udp : protocol ≠ 17)

namespace Segment

def protocol : Segment → UInt8
  | .tcp _ => 6
  | .udp _ => 17
  | .other p _ _ => p

def encode : Segment → List UInt8
  | .tcp h => h.encode
  | .udp h => h.encode
  | .other .. => []

/-- What the segment adds to the reported header length. -/
def announced : Segment → Nat
  | .tcp h => h.announced
  | .udp _ => 8
  | .other .. => 0

def transport : Segment → Transport
  | .tcp h =>
    { portaOrigem := h.sourcePort.toNat
      portaDestino := h.destinationPort.toNat
      tcpSeq := h.sequence.toNat
      tcpAckSeq := h.acknowledgement.toNat
      tcpFin := h.bit 0
      tcpSyn := h.bit 1
      tcpRst := h.bit 2
      tcpPsh := h.bit 3
      tcpAck := h.bit 4
      tcpUrg := h.bit 5
      tcpEce := h.bit 6
      tcpCwr := h.bit 7 }
  | .udp h => { portaOrigem := h.sourcePort.toNat, portaDestino := h.destinationPort.toNat }
  | .other .. => {}

def read (mem : Memory) (p : UInt8) (i : Nat) : Segment :=
  if h6 : p = 6 then .tcp (TcpStart.read mem i)
  else if h17 : p = 17 then .udp (UdpHeader.read mem i)
  else .other p h6 h17

theorem holds_iff (s : Segment) (p : UInt8) :
    s.protocol = p ∧ Holds mem i s.encode ↔ s = read mem p i := by
  constructor
  · rintro ⟨rfl, h⟩
    cases s with
    | tcp start =>
      obtain rfl := start.holds_iff.mp h
      rfl
    | udp header =>
      obtain rfl := header.holds_iff.mp h
      rfl
    | other p h6 h17 => simp [read, protocol, h6, h17]
  · rintro rfl
    unfold read
    split
    · rename_i h6
      exact ⟨h6.symm, (TcpStart.holds_iff _).mpr rfl⟩
    · split
      · rename_i h17
        exact ⟨h17.symm, (UdpHeader.holds_iff _).mpr rfl⟩
      · exact ⟨rfl, holds_nil⟩

end Segment

-- ---------------------------------------------------------------------------
-- IP headers
-- ---------------------------------------------------------------------------

def Ipv4Header.read (mem : Memory) (i : Nat) (h : 5 ≤ (mem i).toNat % 16) : Ipv4Header where
  version := (mem i).toNat / 16
  ihl := (mem i).toNat % 16
  service := slice mem (i + 1) 7
  ttl := mem (i + 8)
  checksum := slice mem (i + 10) 2
  source := slice mem (i + 12) 4
  destination := slice mem (i + 16) 4
  options := slice mem (i + 20) (4 * ((mem i).toNat % 16 - 5))
  version_lt := Nat.div_lt_of_lt_mul (mem i).toNat_lt
  ihl_ge := h
  ihl_le := Nat.le_of_lt_succ (Nat.mod_lt _ (by decide))
  service_length := slice_length ..
  checksum_length := slice_length ..
  source_length := slice_length ..
  destination_length := slice_length ..
  options_length := slice_length ..

theorem nibbles_eq (hv : v < 16) (hl : l ≤ 15) (b : UInt8) :
    UInt8.ofNat (16 * v + l) = b ↔ v = b.toNat / 16 ∧ l = b.toNat % 16 := by
  have := b.toNat_lt
  rw [← UInt8.toNat_inj, UInt8.toNat_ofNat']
  omega

/-- The bytes of a header, one field after the other. -/
theorem Ipv4Header.holds_encode (h : Ipv4Header) (p : UInt8) :
    Holds mem i (h.encode p) ↔
      (h.version = (mem i).toNat / 16 ∧ h.ihl = (mem i).toNat % 16) ∧
        h.service = slice mem (i + 1) 7 ∧ h.ttl = mem (i + 8) ∧ p = mem (i + 9) ∧
        h.checksum = slice mem (i + 10) 2 ∧ h.source = slice mem (i + 12) 4 ∧
        h.destination = slice mem (i + 16) 4 ∧
        h.options = slice mem (i + 20) (4 * (h.ihl - 5)) := by
  simp only [Ipv4Header.encode, List.cons_append, holds_byte, holds_append, holds_nil, and_true,
    holds_slice h.service_length, holds_slice h.checksum_length, holds_slice h.source_length,
    holds_slice h.destination_length, holds_slice h.options_length, h.service_length,
    h.checksum_length, h.source_length, h.destination_length, List.length_append, List.length_cons,
    List.length_nil, Nat.add_assoc, Nat.reduceAdd, nibbles_eq h.version_lt h.ihl_le, and_assoc]

theorem Ipv4Header.holds_iff (h : Ipv4Header) (p : UInt8) :
    Holds mem i (h.encode p) ↔ p = mem (i + 9) ∧ ∃ h5, h = Ipv4Header.read mem i h5 := by
  rw [h.holds_encode]
  constructor
  · rintro ⟨⟨hversion, hihl⟩, hservice, httl, hp, hchecksum, hsource, hdestination, hoptions⟩
    refine ⟨hp, hihl ▸ h.ihl_ge, ?_⟩
    cases h
    simp only at hihl hversion
    subst hihl hversion
    simp only [read, mk.injEq, true_and]
    exact ⟨hservice, httl, hchecksum, hsource, hdestination, hoptions⟩
  · rintro ⟨rfl, h5, rfl⟩
    exact ⟨⟨rfl, rfl⟩, rfl, rfl, rfl, rfl, rfl, rfl, rfl⟩

def Ipv6Header.read (mem : Memory) (i : Nat) : Ipv6Header where
  flow := slice mem i 6
  hopLimit := mem (i + 7)
  source := slice mem (i + 8) 16
  destination := slice mem (i + 24) 16
  flow_length := slice_length ..
  source_length := slice_length ..
  destination_length := slice_length ..

theorem Ipv6Header.holds_iff (h : Ipv6Header) (p : UInt8) :
    Holds mem i (h.encode p) ↔ p = mem (i + 6) ∧ h = Ipv6Header.read mem i := by
  obtain ⟨f, l, s, d, hf, hs, hd⟩ := h
  simp only [encode, read, mk.injEq, holds_append, holds_byte, holds_nil, and_true, holds_slice hf,
    holds_slice hs, holds_slice hd, hf, hs, List.length_append, List.length_cons, List.length_nil,
    Nat.add_assoc, Nat.reduceAdd, and_assoc]
  exact and_left_comm

-- ---------------------------------------------------------------------------
-- Extension headers
-- ---------------------------------------------------------------------------

/-- The kind of extension header a protocol number announces. -/
def ExtKind.of (p : UInt8) : Option ExtKind :=
  if p = 0 then some .hopByHop
  else if p = 43 then some .routing
  else if p = 44 then some .fragment
  else if p = 60 then some .destinationOptions
  else none

theorem ExtKind.of_protocol (kind : ExtKind) : ExtKind.of kind.protocol = some kind := by
  cases kind <;> rfl

theorem ExtKind.of_some (h : ExtKind.of p = some kind) : kind.protocol = p := by
  unfold ExtKind.of at h
  repeat' split at h
  all_goals cases h <;> simp_all [ExtKind.protocol]

theorem ExtKind.of_none {p : UInt8} :
    ExtKind.of p = none ↔ ¬ (IsSized p.toNat ∨ p.toNat = 44) := by
  have all : ∀ p : Fin 256, (ExtKind.of (UInt8.ofNat p.val) = none ↔
      ¬ (IsSized p.val ∨ p.val = 44)) := by decide +kernel
  simpa using all ⟨p.toNat, p.toNat_lt⟩

theorem ExtKind.two_le_size (kind : ExtKind) (second : UInt8) : 2 ≤ kind.size second := by
  cases kind <;> simp only [ExtKind.size] <;> omega

def ExtHeader.read (mem : Memory) (kind : ExtKind) (i : Nat) : ExtHeader where
  kind := kind
  second := mem (i + 1)
  body := slice mem (i + 2) (kind.size (mem (i + 1)) - 2)
  body_length := by
    have := kind.two_le_size (mem (i + 1))
    rw [slice_length]
    omega

theorem ExtHeader.holds_iff (h : ExtHeader) (next : UInt8) :
    Holds mem i (next :: h.second :: h.body) ↔
      next = mem i ∧ h = ExtHeader.read mem h.kind i := by
  have hlength : h.body.length = h.kind.size h.second - 2 := by
    have := h.body_length
    omega
  rw [holds_byte, holds_byte, holds_slice hlength]
  constructor
  · rintro ⟨hnext, hsecond, hbody⟩
    refine ⟨hnext, ?_⟩
    cases h
    simp only at hsecond hbody
    subst hsecond
    simpa only [read, mk.injEq, true_and] using hbody
  · rintro ⟨hnext, h'⟩
    rw [h']
    exact ⟨hnext, rfl, rfl⟩

/-- The extension headers from the one announced as `p` at `i` on, at most
`k` of them, and what the last one announces. -/
def readChain (mem : Memory) : Nat → UInt8 → Nat → List ExtHeader × UInt8
  | 0, p, _ => ([], p)
  | k + 1, p, i =>
    match ExtKind.of p with
    | none => ([], p)
    | some kind =>
      let rest := readChain mem k (mem i) (i + kind.size (mem (i + 1)))
      (ExtHeader.read mem kind i :: rest.1, rest.2)

/-- A chain of at most `k` extension headers that ends before the `k`-th
only at something else. -/
def ChainEnds (k : Nat) (p : UInt8) (hs : List ExtHeader) : Prop :=
  hs.length ≤ k ∧ (hs.length < k → ExtKind.of p = none)

theorem readChain_ends (mem : Memory) (k : Nat) (p : UInt8) (i : Nat) :
    ChainEnds k (readChain mem k p i).2 (readChain mem k p i).1 := by
  induction k generalizing p i with
  | zero => exact ⟨Nat.le_refl 0, fun h => absurd h (Nat.lt_irrefl 0)⟩
  | succ k ih =>
    unfold readChain
    cases hp : ExtKind.of p with
    | none => exact ⟨Nat.zero_le _, fun _ => hp⟩
    | some kind =>
      obtain ⟨hle, hlast⟩ := ih (mem i) (i + kind.size (mem (i + 1)))
      exact ⟨Nat.succ_le_succ hle, fun h => hlast (Nat.lt_of_succ_lt_succ h)⟩

theorem holds_chain (mem : Memory) (hs : List ExtHeader) (last p : UInt8)
    (hends : ChainEnds k last hs) :
    chainProtocol last hs = p ∧ Holds mem i (encodeChain last hs) ↔
      (hs, last) = readChain mem k p i := by
  induction k generalizing hs p i with
  | zero =>
    obtain rfl := List.length_eq_zero_iff.mp (Nat.le_zero.mp hends.1)
    simp [chainProtocol, encodeChain, readChain]
  | succ k ih =>
    cases hs with
    | nil =>
      have hlast := hends.2 (Nat.succ_pos k)
      unfold readChain
      constructor
      · rintro ⟨rfl, -⟩
        rw [chainProtocol, hlast]
      · intro h
        split at h
        · obtain rfl := (Prod.mk.inj h).2
          exact ⟨rfl, holds_nil⟩
        · cases (Prod.mk.inj h).1
    | cons h hs =>
      have hends' : ChainEnds k last hs :=
        ⟨Nat.le_of_succ_le_succ hends.1, fun hlt => hends.2 (Nat.succ_lt_succ hlt)⟩
      have hsize : (chainProtocol last hs :: h.second :: h.body).length = h.kind.size h.second := by
        rw [← h.body_length]
        rfl
      rw [chainProtocol, encodeChain, holds_append, h.holds_iff, hsize]
      unfold readChain
      constructor
      · rintro ⟨rfl, ⟨hnext, hread⟩, hrest⟩
        rw [ExtKind.of_protocol]
        have hsecond : h.second = mem (i + 1) := congrArg ExtHeader.second hread
        rw [hsecond] at hrest
        simp only [← (ih hs (mem i) hends').mp ⟨hnext, hrest⟩, ← hread]
      · intro heq
        split at heq
        · cases (Prod.mk.inj heq).1
        · rename_i kind hkind
          simp only [Prod.mk.injEq, List.cons.injEq] at heq
          obtain ⟨⟨rfl, hhs⟩, hl⟩ := heq
          obtain ⟨hnext, hrest⟩ := (ih hs (mem i) hends').mpr (Prod.ext hhs hl)
          exact ⟨ExtKind.of_some hkind, ⟨hnext, rfl⟩, hrest⟩

-- ---------------------------------------------------------------------------
-- The network layer
-- ---------------------------------------------------------------------------

/-- What lies behind the link header. The walk along the extension headers
of an IPv6 packet is given up after the seventh, and an IPv4 packet whose
first byte announces less than the fixed header has no shape at all. -/
inductive Network where
  | ipv4 (ip : Ipv4Header) (segment : Segment)
  | ipv4Short (first : UInt8) (short : first.toNat % 16 < 5)
  | ipv6 (ip : Ipv6Header) (extensions : List ExtHeader) (segment : Segment)
      (few : extensions.length < 7) (last : ExtKind.of segment.protocol = none)
  | ipv6Deep (ip : Ipv6Header) (extensions : List ExtHeader) (protocol : UInt8)
      (deep : extensions.length = 7)
  | other (ethtype : UInt16) (not_ipv4 : ethtype ≠ 0x0800) (not_ipv6 : ethtype ≠ 0x86DD)

namespace Network

def ethtype : Network → UInt16
  | .ipv4 .. | .ipv4Short .. => 0x0800
  | .ipv6 .. | .ipv6Deep .. => 0x86DD
  | .other t _ _ => t

def encode : Network → List UInt8
  | .ipv4 ip s => ip.encode s.protocol ++ s.encode
  | .ipv4Short first _ => [first]
  | .ipv6 ip hs s _ _ =>
    ip.encode (chainProtocol s.protocol hs) ++ (encodeChain s.protocol hs ++ s.encode)
  | .ipv6Deep ip hs p _ => ip.encode (chainProtocol p hs) ++ encodeChain p hs
  | .other .. => []

/-- An IPv6 packet whose chain of extension headers is `chain`. -/
def readIpv6 (mem : Memory) (i : Nat) (chain : List ExtHeader × UInt8)
    (ends : ChainEnds 7 chain.2 chain.1) : Network :=
  if few : chain.1.length < 7 then
    .ipv6 (Ipv6Header.read mem i) chain.1
      (Segment.read mem chain.2 (i + 40 + (encodeChain chain.2 chain.1).length)) few
      (by rw [((Segment.holds_iff _ _).mpr rfl).1]; exact ends.2 few)
  else
    .ipv6Deep (Ipv6Header.read mem i) chain.1 chain.2
      (Nat.le_antisymm ends.1 (Nat.le_of_not_lt few))

def read (mem : Memory) (t : UInt16) (i : Nat) : Network :=
  if h4 : t = 0x0800 then
    if h5 : 5 ≤ (mem i).toNat % 16 then
      .ipv4 (Ipv4Header.read mem i h5)
        (Segment.read mem (mem (i + 9)) (i + 4 * ((mem i).toNat % 16)))
    else .ipv4Short (mem i) (Nat.lt_of_not_le h5)
  else if h6 : t = 0x86DD then
    readIpv6 mem i (readChain mem 7 (mem (i + 6)) (i + 40)) (readChain_ends ..)
  else .other t h4 h6

theorem holds_ipv4 (ip : Ipv4Header) (s : Segment) :
    Holds mem i (encode (.ipv4 ip s)) ↔ .ipv4 ip s = read mem 0x0800 i := by
  rw [encode, holds_append, ip.holds_iff, ip.encode_length]
  constructor
  · rintro ⟨⟨hp, h5, rfl⟩, hs⟩
    rw [(s.holds_iff _).mp ⟨hp, hs⟩]
    simp [read, h5, Ipv4Header.read]
  · intro h
    by_cases h5 : 5 ≤ (mem i).toNat % 16
    · simp only [read, h5, ↓reduceDIte, ipv4.injEq] at h
      obtain ⟨rfl, hs⟩ := h
      obtain ⟨hp, hs⟩ := (s.holds_iff _).mpr hs
      exact ⟨⟨hp, h5, rfl⟩, hs⟩
    · simp [read, h5] at h

theorem read_ipv6 (mem : Memory) (i : Nat) :
    read mem 0x86DD i =
      readIpv6 mem i (readChain mem 7 (mem (i + 6)) (i + 40)) (readChain_ends ..) := by
  unfold read
  rw [dif_neg (by decide), dif_pos rfl]

theorem holds_ipv6 (ip : Ipv6Header) (hs : List ExtHeader) (s : Segment) (few last) :
    Holds mem i (encode (.ipv6 ip hs s few last)) ↔
      .ipv6 ip hs s few last = read mem 0x86DD i := by
  have hends : ChainEnds 7 s.protocol hs := ⟨Nat.le_of_lt few, fun _ => last⟩
  have hchain := holds_chain (i := i + 40) mem hs s.protocol (mem (i + 6)) hends
  rw [encode, holds_append, holds_append, ip.holds_iff, ip.encode_length, read_ipv6, readIpv6]
  constructor
  · rintro ⟨⟨hp, hip⟩, hhs, hs⟩
    simp only [← hchain.mp ⟨hp, hhs⟩, few, ↓reduceDIte, ipv6.injEq, true_and]
    exact ⟨hip, (s.holds_iff _).mp ⟨rfl, hs⟩⟩
  · intro h
    split at h
    · obtain ⟨hip, hhs, hseg⟩ := ipv6.inj h
      obtain ⟨hp, hs⟩ := (s.holds_iff _).mpr hseg
      obtain ⟨hfirst, hlies⟩ := hchain.mpr (Prod.ext hhs hp)
      rw [← hhs, ← hp] at hs
      exact ⟨⟨hfirst, hip⟩, hlies, hs⟩
    · cases h

theorem holds_ipv6Deep (ip : Ipv6Header) (hs : List ExtHeader) (p : UInt8) (deep) :
    Holds mem i (encode (.ipv6Deep ip hs p deep)) ↔
      .ipv6Deep ip hs p deep = read mem 0x86DD i := by
  have hends : ChainEnds 7 p hs := ⟨Nat.le_of_eq deep, fun h => absurd deep (Nat.ne_of_lt h)⟩
  have hchain := holds_chain (i := i + 40) mem hs p (mem (i + 6)) hends
  rw [encode, holds_append, ip.holds_iff, ip.encode_length, read_ipv6, readIpv6]
  constructor
  · rintro ⟨⟨hp, hip⟩, hhs⟩
    simp only [← hchain.mp ⟨hp, hhs⟩, deep, Nat.lt_irrefl, ↓reduceDIte, ipv6Deep.injEq,
      and_true]
    exact hip
  · intro h
    split at h
    · cases h
    · obtain ⟨hip, hhs, hp⟩ := ipv6Deep.inj h
      obtain ⟨hfirst, hlies⟩ := hchain.mpr (Prod.ext hhs hp)
      exact ⟨⟨hfirst, hip⟩, hlies⟩

theorem read_ethtype (mem : Memory) (t : UInt16) (i : Nat) : (read mem t i).ethtype = t := by
  unfold read readIpv6
  split
  · rename_i h4
    split <;> exact h4.symm
  · split
    · rename_i h6
      split <;> exact h6.symm
    · rfl

/-- A network layer lies behind a link header if and only if it is the one
read there. -/
theorem holds_iff (mem : Memory) (n : Network) (t : UInt16) :
    n.ethtype = t ∧ Holds mem i n.encode ↔ n = read mem t i := by
  have hlies : Holds mem i n.encode ↔ n = read mem n.ethtype i := by
    cases n with
    | ipv4 ip s => exact holds_ipv4 ip s
    | ipv4Short first short =>
      simp only [encode, holds_byte, holds_nil, and_true, ethtype, read, ↓reduceDIte]
      constructor
      · rintro rfl
        simp [short]
      · intro h
        split at h
        · cases h
        · exact (ipv4Short.inj h)
    | ipv6 ip hs s few last => exact holds_ipv6 ip hs s few last
    | ipv6Deep ip hs p deep => exact holds_ipv6Deep ip hs p deep
    | other t h4 h6 => simp [encode, ethtype, read, h4, h6]
  constructor
  · rintro ⟨rfl, h⟩
    exact hlies.mp h
  · intro h
    have ht : n.ethtype = t := by rw [h, read_ethtype]
    exact ⟨ht, hlies.mpr (ht ▸ h)⟩

end Network

-- ---------------------------------------------------------------------------
-- The link header
-- ---------------------------------------------------------------------------

/-- The EtherType behind the tags does not announce a tag that would be
stepped over too. -/
def Tags.Final : Tags → UInt16 → Prop
  | .untagged, t => t ≠ 0x88a8 ∧ t ≠ 0x8100
  | .stacked .., t => t ≠ 0x8100
  | .vlan .., _ | .both .., _ => True

def Tags.read (mem : Memory) : Tags :=
  if word mem 12 = 0x88a8 then
    if word mem 16 = 0x8100 then .both (mem 14) (mem 15) (mem 18) (mem 19)
    else .stacked (mem 14) (mem 15)
  else if word mem 12 = 0x8100 then .vlan (mem 14) (mem 15)
  else .untagged

theorem holds_tagged (v : UInt16) (h : bytes16 v.toNat = [a, b]) :
    Holds mem i (a :: b :: bs) ↔ word mem i = v ∧ Holds mem (i + 2) bs := by
  have happend : a :: b :: bs = bytes16 v.toNat ++ bs := by
    rw [h]
    rfl
  rw [happend, holds_append, holds_bytes16, bytes16_length, eq_comm]

theorem Tags.holds_iff (mem : Memory) (tags : Tags) (t : UInt16) :
    tags.Final t ∧ Holds mem 12 (tags.encode ++ bytes16 t.toNat) ↔
      tags = Tags.read mem ∧ t = word mem (12 + tags.encode.length) := by
  have stacked : ∀ {i bs}, Holds mem i (0x88 :: 0xa8 :: bs) ↔
      word mem i = 0x88a8 ∧ Holds mem (i + 2) bs := holds_tagged 0x88a8 rfl
  have vlan : ∀ {i bs}, Holds mem i (0x81 :: 0x00 :: bs) ↔
      word mem i = 0x8100 ∧ Holds mem (i + 2) bs := holds_tagged 0x8100 rfl
  cases tags with
  | untagged =>
    simp only [Final, encode, List.nil_append, holds_bytes16, List.length_nil, Nat.add_zero, read]
    grind
  | stacked a b =>
    simp only [Final, encode, List.cons_append, List.nil_append, stacked, holds_byte,
      holds_bytes16, List.length_cons, List.length_nil, Nat.reduceAdd, read]
    grind
  | vlan a b =>
    simp only [Final, encode, List.cons_append, List.nil_append, vlan, holds_byte,
      holds_bytes16, List.length_cons, List.length_nil, Nat.reduceAdd, read]
    grind
  | both a b c d =>
    simp only [Final, encode, List.cons_append, List.nil_append, stacked, vlan, holds_byte,
      holds_bytes16, List.length_cons, List.length_nil, Nat.reduceAdd, read]
    grind

def Ethernet.read (mem : Memory) : Ethernet where
  destination := slice mem 0 6
  source := slice mem 6 6
  tags := Tags.read mem
  destination_length := slice_length ..
  source_length := slice_length ..

/-- The EtherType the network layer is told apart by. -/
def finalType (mem : Memory) : UInt16 := word mem (12 + (Tags.read mem).encode.length)

theorem Ethernet.holds_iff (mem : Memory) (e : Ethernet) (t : UInt16) :
    e.tags.Final t ∧ Holds mem 0 (e.encode t.toNat) ↔
      e = Ethernet.read mem ∧ t = finalType mem := by
  obtain ⟨d, s, tags, hd, hs⟩ := e
  have htags := tags.holds_iff mem t
  rw [encode, List.append_assoc, List.append_assoc, holds_append, holds_append, holds_slice hd,
    holds_slice hs, hd, hs]
  simp only [Nat.zero_add, Nat.reduceAdd, read, mk.injEq, finalType]
  constructor
  · rintro ⟨hfinal, hd, hs, hlies⟩
    obtain ⟨htags, ht⟩ := htags.mp ⟨hfinal, hlies⟩
    exact ⟨⟨hd, hs, htags⟩, htags ▸ ht⟩
  · rintro ⟨⟨hd, hs, rfl⟩, ht⟩
    obtain ⟨hfinal, hlies⟩ := htags.mpr ⟨rfl, ht⟩
    exact ⟨hfinal, hd, hs, hlies⟩

-- ---------------------------------------------------------------------------
-- Whole frames
-- ---------------------------------------------------------------------------

structure Frame where
  link : Ethernet
  network : Network
  final : link.tags.Final network.ethtype

def Frame.encode (f : Frame) : List UInt8 :=
  f.link.encode f.network.ethtype.toNat ++ f.network.encode

theorem Ethernet.read_final (mem : Memory) : (Ethernet.read mem).tags.Final (finalType mem) :=
  ((Ethernet.holds_iff mem _ _).mpr ⟨rfl, rfl⟩).1

def Frame.read (mem : Memory) : Frame where
  link := Ethernet.read mem
  network := Network.read mem (finalType mem) (Ethernet.read mem).size
  final := by
    rw [Network.read_ethtype]
    exact Ethernet.read_final mem

/-- The grammar is unambiguous, and it leaves no memory out: the frame at
the start of a memory is the one read there, and no other. -/
theorem Frame.holds_iff (f : Frame) : Holds mem 0 f.encode ↔ f = Frame.read mem := by
  have hlink := f.link.holds_iff mem f.network.ethtype
  have hnetwork := f.network.holds_iff (i := f.link.size) mem (finalType mem)
  rw [encode, holds_append, f.link.encode_length, Nat.zero_add]
  constructor
  · rintro ⟨hl, hn⟩
    obtain ⟨hlink, ht⟩ := hlink.mp ⟨f.final, hl⟩
    have hn := hnetwork.mp ⟨ht, hn⟩
    cases f
    simp only [read, mk.injEq] at hlink hn ⊢
    exact ⟨hlink, hlink ▸ hn⟩
  · rintro rfl
    have ht : (read mem).network.ethtype = finalType mem := Network.read_ethtype ..
    exact ⟨(hlink.mpr ⟨rfl, ht⟩).2, (hnetwork.mpr rfl).2⟩

end WireSentinel
