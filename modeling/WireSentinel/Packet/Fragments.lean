import WireSentinel.Packet.Accepted

/-!
# Fragments

The parser steps over fragment headers and never reads a fragment offset.
What lies behind the headers of a later fragment is taken as the transport
header the protocol number announces, as in an unfragmented frame, and the
record is the one of the frame with any other offset in its place.
-/

namespace WireSentinel

variable {mem mem' : Memory} {n : Int} {node r : FullInternetPacket} {now : Tm} {i j k p x : Nat}

-- ---------------------------------------------------------------------------
-- Where the offsets are
-- ---------------------------------------------------------------------------

/-- The fragment headers the extension-header walk steps over. -/
def fragmentHeaders (mem : Memory) : Nat → Nat → Nat → List Nat
  | 0, _, _ => []
  | k + 1, p, i =>
    if IsSized p then
      fragmentHeaders mem k (mem i).toNat (i + ((mem (i + 1)).toNat + 1) * 8)
    else if p = 44 then i :: fragmentHeaders mem k (mem i).toNat (i + 8)
    else []

/-- The fragment headers of an IPv6 frame whose IP header starts at `o`. -/
def frameFragments (mem : Memory) (o : Nat) : List Nat :=
  fragmentHeaders mem 7 (mem (o + 6)).toNat (40 + o)

/-- The index of every 16-bit word that holds a fragment offset. -/
def offsetWords (mem : Memory) : List Nat :=
  let o := (linkEnd mem).headerLen
  if (linkEnd mem).ethtype = 0x0800 then [o + 6]
  else if (linkEnd mem).ethtype = 0x86DD then (frameFragments mem o).map (· + 2)
  else []

/-- A frame with a fragment offset other than zero: 13 bits under the flags
of an IPv4 header, or the upper 13 bits of a fragment header's second
word. -/
def IsFragment (mem : Memory) : Prop :=
  let o := (linkEnd mem).headerLen
  ((linkEnd mem).ethtype = 0x0800 ∧ be16 (mem (o + 6)) (mem (o + 7)) % 2 ^ 13 ≠ 0) ∨
  ((linkEnd mem).ethtype = 0x86DD ∧
    ∃ i ∈ frameFragments mem o, be16 (mem (i + 2)) (mem (i + 3)) / 2 ^ 3 ≠ 0)

instance (mem : Memory) : Decidable (IsFragment mem) := inferInstanceAs (Decidable (_ ∨ _))

/-- Two buffers that differ in nothing but fragment offsets and the flags
that share their words. -/
def SameButOffsets (mem mem' : Memory) : Prop :=
  ∀ i, (∀ w ∈ offsetWords mem, i ≠ w ∧ i ≠ w + 1) → mem i = mem' i

theorem fragmentHeaders_range (h : j ∈ fragmentHeaders mem k p i) :
    i ≤ j ∧ j + 8 ≤ (chain mem k p i).2 := by
  induction k generalizing p i with
  | zero => simp [fragmentHeaders] at h
  | succ k ih =>
    have hnext : ∀ {q d}, j ∈ fragmentHeaders mem k q (i + d) →
        i ≤ j ∧ j + 8 ≤ (chain mem k q (i + d)).2 := fun h => by
      obtain ⟨hle, hend⟩ := ih h
      exact ⟨by omega, hend⟩
    unfold fragmentHeaders at h
    unfold chain
    by_cases hs : IsSized p
    · simp only [hs, ↓reduceIte] at h ⊢
      exact hnext h
    · by_cases hf : p = 44
      · simp only [hf, not_isSized_fragment, ↓reduceIte] at h ⊢
        rcases List.mem_cons.mp h with rfl | h
        · exact ⟨Nat.le_refl _, le_chain_snd ..⟩
        · exact hnext h
      · simp [hs, hf] at h

-- ---------------------------------------------------------------------------
-- The offsets are not read
-- ---------------------------------------------------------------------------

/-- The walk reads the first two bytes of a header only. -/
theorem chain_sameButOffsets (h : ∀ x, i ≤ x →
      (∀ j ∈ fragmentHeaders mem k p i, x ≠ j + 2 ∧ x ≠ j + 3) → mem x = mem' x) :
    chain mem k p i = chain mem' k p i := by
  induction k generalizing p i with
  | zero => rfl
  | succ k ih =>
    unfold chain
    unfold fragmentHeaders at h
    by_cases hs : IsSized p
    · simp only [hs, ↓reduceIte] at h ⊢
      have hfar : ∀ j ∈ fragmentHeaders mem k (mem i).toNat (i + ((mem (i + 1)).toNat + 1) * 8),
          i + 8 ≤ j := fun j hj => by
        have := (fragmentHeaders_range hj).1
        omega
      have h0 : mem i = mem' i := h i (Nat.le_refl i) fun j hj => by
        have := hfar j hj
        omega
      have h1 : mem (i + 1) = mem' (i + 1) := h (i + 1) (by omega) fun j hj => by
        have := hfar j hj
        omega
      rw [← h0, ← h1]
      exact ih fun x hx hj => h x (by omega) hj
    · by_cases hf : p = 44
      · simp only [hf, not_isSized_fragment, ↓reduceIte, List.forall_mem_cons] at h ⊢
        have h0 : mem i = mem' i := h i (Nat.le_refl i) ⟨by omega, fun j hj => by
          have := (fragmentHeaders_range hj).1
          omega⟩
        rw [← h0]
        exact ih fun x hx hj => h x (by omega) ⟨by omega, hj⟩
      · simp [hs, hf]

/-- The transport switch reads nothing in front of the transport header. -/
theorem fillTransport_behind (h : ∀ x, node.totalHeaderLenght ≤ x → mem x = mem' x) (n : Int) :
    (fillTransport n node).eval mem = (fillTransport n node).eval mem' := by
  refine Reader.eval_congr _ fun x hx => h x ?_
  unfold fillTransport at hx
  by_cases h6 : node.protocoloTransporte = 6
  · simp only [h6, ↓reduceIte, Reader.reads_ite, Reader.reads_pure] at hx
    split at hx
    · simp at hx
    · simp [fillTcp] at hx
      omega
  · by_cases h17 : node.protocoloTransporte = 17
    · simp only [h17, Int.reduceEq, ↓reduceIte, Reader.reads_ite, Reader.reads_pure] at hx
      split at hx
      · simp at hx
      · simp [fillUdp] at hx
        omega
    · simp [h6, h17] at hx

theorem le_of_mem_offsetWords (h : x ∈ offsetWords mem) : (linkEnd mem).headerLen + 6 ≤ x := by
  unfold offsetWords at h
  simp only at h
  split at h
  · simp only [List.mem_singleton] at h
    omega
  · split at h
    · obtain ⟨j, hj, rfl⟩ := List.mem_map.mp h
      have := fragmentHeaders_range hj
      omega
    · simp at h

/-- An offset word lies in front of the transport header. -/
theorem offsetWords_before (hc : IpCaptured mem n) (h : x ∈ offsetWords mem) :
    x + 2 ≤ transportStart mem := by
  unfold offsetWords at h
  unfold IpCaptured transportStart at hc
  unfold transportStart
  simp only at h hc ⊢
  split at h
  · rename_i h4
    simp only [h4, ↓reduceIte, List.mem_singleton] at hc h ⊢
    omega
  · rename_i h4
    rw [if_neg h4]
    split at h
    · obtain ⟨j, hj, rfl⟩ := List.mem_map.mp h
      have := fragmentHeaders_range hj
      unfold frameChain
      omega
    · simp at h

theorem SameButOffsets.range (h : SameButOffsets mem mem')
    (hfar : ∀ w ∈ offsetWords mem, w + 2 ≤ i ∨ i + k ≤ w) :
    (List.range' i k).map mem = (List.range' i k).map mem' := by
  refine List.map_congr_left fun j hj => h j fun w hw => ?_
  have := List.mem_range'_1.mp hj
  have := hfar w hw
  omega

theorem SameButOffsets.link (h : SameButOffsets mem mem') :
    linkEnd mem = linkEnd mem' ∧ linkRecord mem = linkRecord mem' := by
  have hagree : Agree (linkEnd mem).headerLen mem mem' := fun i hi => h i fun w hw => by
    have := le_of_mem_offsetWords hw
    omega
  rcases agree_linkEnd hagree with ⟨hlt, -⟩ | ⟨hend, hrec, -⟩
  · exact absurd hlt (Int.lt_irrefl _)
  · exact ⟨hend, hrec⟩

theorem SameButOffsets.base (h : SameButOffsets mem mem') (name : String) :
    ipBase mem name = ipBase mem' name := by
  rw [ipBase, ipBase, h.link.2]

/-- An IPv4 header is read the same, and ends at the same place. -/
theorem SameButOffsets.ipv4 (h : SameButOffsets mem mem')
    (h4 : (linkEnd mem).ethtype = 0x0800) :
    ipRecord mem = ipRecord mem' ∧ transportStart mem = transportStart mem' := by
  have hend := h.link.1
  have hword : ∀ w ∈ offsetWords mem, w = (linkEnd mem).headerLen + 6 := by simp [offsetWords, h4]
  have hbyte : ∀ d, d ≠ 6 → d ≠ 7 →
      mem ((linkEnd mem).headerLen + d) = mem' ((linkEnd mem).headerLen + d) :=
    fun d h6 h7 => h _ fun w hw => by
      have := hword w hw
      omega
  have hrange : ∀ d, 8 ≤ d → (List.range' ((linkEnd mem).headerLen + d) 4).map mem =
      (List.range' ((linkEnd mem).headerLen + d) 4).map mem' :=
    fun d hd => h.range fun w hw => by
      have := hword w hw
      omega
  have hfirst : mem (linkEnd mem).headerLen = mem' (linkEnd mem).headerLen :=
    hbyte 0 (by decide) (by decide)
  constructor
  · unfold ipRecord ipv4Record
    rw [← hend, ← h.base "IPv4"]
    simp only [h4, ↓reduceIte, hfirst, hbyte 8 (by decide) (by decide),
      hbyte 9 (by decide) (by decide), hrange 12 (by decide), hrange 16 (by decide)]
  · unfold transportStart
    rw [← hend]
    simp only [h4, ↓reduceIte, hfirst]

/-- An IPv6 header is read the same, and the walk behind it ends at the same
place. -/
theorem SameButOffsets.ipv6 (h : SameButOffsets mem mem')
    (h6 : (linkEnd mem).ethtype = 0x86DD) :
    ipRecord mem = ipRecord mem' ∧ transportStart mem = transportStart mem' := by
  have hend := h.link.1
  have h4 : (linkEnd mem).ethtype ≠ 0x0800 := by simp [h6]
  have hwords : offsetWords mem =
      (frameFragments mem (linkEnd mem).headerLen).map (· + 2) := by simp [offsetWords, h6]
  have hbehind : ∀ w ∈ offsetWords mem, (linkEnd mem).headerLen + 42 ≤ w := fun w hw => by
    rw [hwords] at hw
    obtain ⟨j, hj, rfl⟩ := List.mem_map.mp hw
    have := fragmentHeaders_range hj
    omega
  have hbyte : ∀ d, d < 40 →
      mem ((linkEnd mem).headerLen + d) = mem' ((linkEnd mem).headerLen + d) :=
    fun d hd => h _ fun w hw => by
      have := hbehind w hw
      omega
  have hrange : ∀ d, d ≤ 24 → (List.range' ((linkEnd mem).headerLen + d) 16).map mem =
      (List.range' ((linkEnd mem).headerLen + d) 16).map mem' :=
    fun d hd => h.range fun w hw => by
      have := hbehind w hw
      omega
  have hwalk : frameChain mem (linkEnd mem).headerLen =
      frameChain mem' (linkEnd mem).headerLen := by
    unfold frameChain
    rw [← hbyte 6 (by decide)]
    refine chain_sameButOffsets fun x _ hx => h x fun w hw => ?_
    rw [hwords] at hw
    obtain ⟨j, hj, rfl⟩ := List.mem_map.mp hw
    exact hx j hj
  constructor
  · unfold ipRecord ipv6Record
    rw [← hend, ← h.base "IPv6"]
    simp only [h4, ↓reduceIte, hbyte 7 (by decide), hrange 8 (by decide), hrange 24 (by decide),
      hwalk]
  · unfold transportStart
    rw [← hend]
    simp only [h4, ↓reduceIte, hwalk]

theorem SameButOffsets.ipCaptured (h : SameButOffsets mem mem') (hip : IsIp mem) :
    IpCaptured mem n ↔ IpCaptured mem' n := by
  have hend := h.link.1
  unfold IpCaptured
  rcases hip with h4 | h6
  · have hfirst : mem (linkEnd mem).headerLen = mem' (linkEnd mem).headerLen :=
      h _ fun w hw => by
        have := le_of_mem_offsetWords hw
        omega
    rw [← hend, ← (h.ipv4 h4).2]
    simp only [h4, ↓reduceIte, hfirst]
  · rw [← hend]
    simp [h6]

/-- Fragment offsets do not reach the record. -/
theorem fill_sameButOffsets (h : SameButOffsets mem mem') (n : Int) (now : Tm) :
    (fillFullPacketNode n now).eval mem = (fillFullPacketNode n now).eval mem' := by
  obtain ⟨hend, hrec⟩ := h.link
  by_cases hip : IsIp mem
  · have hip' : IsIp mem' := by rwa [IsIp, ← hend]
    have hcaptured := h.ipCaptured (n := n) hip
    rcases fill_ip_eval hip n now with ⟨hc, hm⟩ | ⟨hc, hm⟩
    · rcases fill_ip_eval hip' n now with ⟨-, hm'⟩ | ⟨hc', -⟩
      · have hrecord : ipRecord mem = ipRecord mem' := by
          rcases hip with h4 | h6
          · exact (h.ipv4 h4).1
          · exact (h.ipv6 h6).1
        rw [hm, hm', ← hrecord, fillTransport_behind fun x hx => h x fun w hw => ?_]
        rw [ipRecord_totalHeaderLenght] at hx
        have := offsetWords_before hc hw
        omega
      · exact absurd (hcaptured.mp hc) hc'
    · rcases fill_ip_eval hip' n now with ⟨hc', -⟩ | ⟨-, hm'⟩
      · exact absurd (hcaptured.mpr hc') hc
      · rw [hm, hm']
  · obtain ⟨h4, h6⟩ := not_or.mp hip
    rw [fill_nonIp mem h4 h6, fill_nonIp mem' (hend ▸ h4) (hend ▸ h6), ← hend, ← hrec]

-- ---------------------------------------------------------------------------
-- What a fragment is recorded as
-- ---------------------------------------------------------------------------

/-- The bytes at `i` read as a header of the recorded protocol. -/
def readTransport (mem : Memory) (i : Nat) (protocolo : Int) : Transport :=
  if protocolo = 6 then (tcpRecord mem i {}).transport
  else if protocolo = 17 then
    { portaOrigem := be16 (mem i) (mem (i + 1))
      portaDestino := be16 (mem (i + 2)) (mem (i + 3)) }
  else {}

theorem TransportExit.transport (h : TransportExit mem n node r) (hzero : node.transport = {}) :
    r.transport = readTransport mem node.totalHeaderLenght node.protocoloTransporte := by
  cases h with
  | tcp proto fits =>
    rw [readTransport, if_pos proto]
    rfl
  | udp proto fits =>
    simp only [FullInternetPacket.transport, Transport.mk.injEq] at hzero
    rw [readTransport, if_neg (by simp [proto]), if_pos proto]
    simp [FullInternetPacket.transport, FullInternetPacket.setHeader, udpRecord, hzero]
  | other h6 h17 =>
    rw [readTransport, if_neg h6, if_neg h17]
    exact clearTransport_transport hzero

/-- Whatever an accepted frame's fragment offsets, its record is the one of
the same frame with any other offsets, and the bytes behind the headers are
in it as a transport header: nothing of them unless the protocol is TCP or
UDP, and nothing but the ports with UDP.

Premises: the frame is IPv4 or IPv6, and accepted. -/
theorem fill_fragment (hip : IsIp mem) (h : (fillFullPacketNode n now).eval mem = some r) :
    r.transport = readTransport mem (transportStart mem) r.protocoloTransporte ∧
      ∀ mem', SameButOffsets mem mem' → (fillFullPacketNode n now).eval mem' = some r := by
  constructor
  · obtain ⟨-, q, hq, rfl⟩ := (fill_ip_ok hip).mp h
    have hread := hq.transport (ipRecord_transport mem)
    rw [ipRecord_totalHeaderLenght, ← hq.protocoloTransporte] at hread
    exact hread
  · intro mem' hsame
    rw [← fill_sameButOffsets hsame]
    exact h

/-- The second fragment of an IPv4 datagram: offset 185, UDP, and eight bytes
of user data. -/
def secondFragment : Content :=
  Content.ofBytes ([2, 0, 0, 0, 0, 1, 2, 0, 0, 0, 0, 2, 0x08, 0x00] ++
    [0x45, 0, 0, 28, 0, 1, 0, 185, 64, 17, 0, 0, 10, 0, 0, 2, 10, 0, 0, 1] ++
    [0x47, 0x45, 0x54, 0x20, 0x2f, 0x20, 0x48, 0x54])

/-- The user data is recorded as ports 18245 and 21536. -/
theorem fill_secondFragment :
    ∃ r, (fillFullPacketNode 42 noon).eval secondFragment.memory = some r ∧
      r.transport = { portaOrigem := 18245, portaDestino := 21536 } ∧
      r.transport = readTransport secondFragment.memory (transportStart secondFragment.memory)
        r.protocoloTransporte := by
  have hport : ((fillFullPacketNode 42 noon).eval secondFragment.memory).map (·.transport) =
      some { portaOrigem := 18245, portaDestino := 21536 } := by decide +kernel
  obtain ⟨r, hr, htr⟩ := Option.map_eq_some_iff.mp hport
  exact ⟨r, hr, htr, (fill_fragment (by decide +kernel) hr).1⟩

/-- A fragment with an offset is recorded with ports. -/
theorem fragment_ports_counterexample :
    ¬ ∀ (mem : Memory) (n : Int) (now : Tm) (r : FullInternetPacket), IsFragment mem →
      (fillFullPacketNode n now).eval mem = some r → r.transport = {} := by
  intro h
  have hport : ((fillFullPacketNode 42 noon).eval secondFragment.memory).map (·.transport) =
      some { portaOrigem := 18245, portaDestino := 21536 } := by decide +kernel
  obtain ⟨r, hr, htr⟩ := Option.map_eq_some_iff.mp hport
  have hzero := h _ _ _ r (by decide +kernel) hr
  rw [htr] at hzero
  exact absurd hzero (by decide)

end WireSentinel
