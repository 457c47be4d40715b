import WireSentinel.Packet.Service
import Mathlib.Tactic.SplitIfs

/-!
# What the parser computes

Equations for the answers of the parser's functions on a given memory. The
extension-header loop is the recursion `chain` over the bytes; everything
else is a closed expression.
-/

namespace WireSentinel

open Text (hexByte decimal snprintf snprintf_eq HexGroups DottedQuad IsHexDigit hexByte_length
  isHexDigit_of_mem_hexByte)

variable (mem : Memory) {recvlen : Int} {i k o : Nat} {node : FullInternetPacket} {link : Link}

-- ---------------------------------------------------------------------------
-- Big-endian numbers
-- ---------------------------------------------------------------------------

def be16 (a b : UInt8) : Nat := a.toNat * 2 ^ 8 + b.toNat

def be32 (a b c d : UInt8) : Nat :=
  a.toNat * 2 ^ 24 + b.toNat * 2 ^ 16 + c.toNat * 2 ^ 8 + d.toNat

theorem be16_lt (a b : UInt8) : be16 a b < 2 ^ 16 := by
  have := a.toNat_lt
  have := b.toNat_lt
  unfold be16
  omega

theorem be32_lt (a b c d : UInt8) : be32 a b c d < 2 ^ 32 := by
  have := a.toNat_lt
  have := b.toNat_lt
  have := c.toNat_lt
  have := d.toNat_lt
  unfold be32
  omega

theorem shift_or (a : Nat) (h : b < 2 ^ k) : a <<< k ||| b = a * 2 ^ k + b := by
  rw [← Nat.shiftLeft_add_eq_or_of_lt h, Nat.shiftLeft_eq]

@[simp] theorem word16_eval (i : Nat) : (word16 i).eval mem = be16 (mem i) (mem (i + 1)) := by
  simp only [word16, Reader.eval_bind, Reader.eval_byte, Reader.eval_pure]
  exact shift_or _ (mem (i + 1)).toNat_lt

@[simp] theorem word16_reads (i : Nat) : (word16 i).reads mem = [i, i + 1] := rfl

@[simp] theorem word32_eval (i : Nat) :
    (word32 i).eval mem = be32 (mem i) (mem (i + 1)) (mem (i + 2)) (mem (i + 3)) := by
  have h1 := (mem (i + 1)).toNat_lt
  have h2 := (mem (i + 2)).toNat_lt
  have h3 := (mem (i + 3)).toNat_lt
  simp only [word32, Reader.eval_bind, Reader.eval_byte, Reader.eval_pure, be32, Nat.or_assoc]
  have low : ∀ x : Nat, (x <<< 8 ||| (mem (i + 3)).toNat) = x * 2 ^ 8 + (mem (i + 3)).toNat :=
    fun x => shift_or x h3
  rw [low, shift_or (k := 16) _ (by omega), shift_or (k := 24) _ (by omega)]
  omega

@[simp] theorem word32_reads (i : Nat) :
    (word32 i).reads mem = [i, i + 1, i + 2, i + 3] := rfl

-- ---------------------------------------------------------------------------
-- Texts
-- ---------------------------------------------------------------------------

theorem intercalate_length_le (xs : List CString) (h : ∀ x ∈ xs, x.length ≤ k) :
    ([c].intercalate xs).length ≤ xs.length * (k + 1) := by
  induction xs with
  | nil => simp
  | cons x xs ih =>
    have hx := h x (by simp)
    have hxs := ih fun y hy => h y (by simp [hy])
    cases xs with
    | nil => simp; omega
    | cons y ys =>
      simp only [List.intercalate_cons_cons, List.length_append, List.length_cons,
        List.length_nil] at hxs ⊢
      rw [Nat.succ_mul]
      omega

theorem hexGroups_length (raw : List UInt8) : (hexGroups raw).length = raw.length / 2 := by
  fun_induction hexGroups raw with
  | case1 a b rest ih =>
    simp only [List.length_cons, ih]
    omega
  | case2 raw hraw =>
    cases raw with
    | nil => rfl
    | cons a rest =>
      cases rest with
      | nil => simp
      | cons b rest => exact absurd rfl (hraw a b rest)

theorem formed_of_mem_hexGroups (h : g ∈ hexGroups raw) :
    g.length = 4 ∧ ∀ c ∈ g, IsHexDigit c := by
  fun_induction hexGroups raw with
  | case1 a b rest ih =>
    rcases List.mem_cons.mp h with rfl | h
    · refine ⟨by simp, fun c hc => ?_⟩
      rcases List.mem_append.mp hc with hc | hc
      · exact isHexDigit_of_mem_hexByte hc
      · exact isHexDigit_of_mem_hexByte hc
    · exact ih h
  | case2 => simp at h

theorem macText_hexGroups (h : raw.length = 6) : HexGroups 6 2 (macText raw) := by
  refine ⟨raw.map hexByte, by rw [List.length_map, h], ?_, rfl⟩
  simp only [List.forall_mem_map]
  exact fun b _ => ⟨hexByte_length b, fun c hc => isHexDigit_of_mem_hexByte hc⟩

theorem ipv6Text_hexGroups (h : raw.length = 16) : HexGroups 8 4 (ipv6Text raw) :=
  ⟨hexGroups raw, by rw [hexGroups_length, h], fun _ => formed_of_mem_hexGroups, rfl⟩

theorem ipv4Text_dottedQuad (h : raw.length = 4) : DottedQuad (ipv4Text raw) := by
  refine ⟨raw.map UInt8.toNat, by rw [List.length_map, h], ?_, ?_⟩
  · simp only [List.forall_mem_map]
    exact fun b _ => b.toNat_lt
  · rw [List.map_map]
    rfl

theorem macText_length (h : raw.length = 6) : (macText raw).length = 17 :=
  Nat.succ.inj ((macText_hexGroups h).length_eq (by decide))

theorem ipv6Text_length (h : raw.length = 16) : (ipv6Text raw).length = 39 :=
  Nat.succ.inj ((ipv6Text_hexGroups h).length_eq (by decide))

theorem ipv4Text_length_le (h : raw.length = 4) : (ipv4Text raw).length ≤ 16 := by
  have := intercalate_length_le (c := '.') (k := 3) (raw.map fun b => decimal b.toNat) (by
    simp only [List.forall_mem_map]
    intro b _
    have := b.toNat_lt
    exact Text.decimal_length_le (by decide) (by omega))
  rwa [List.length_map, h] at this

theorem macText_snprintf (h : raw.length = 6) : snprintf 64 (macText raw) = macText raw :=
  snprintf_eq (by rw [macText_length h]; decide)

theorem ipv4Text_snprintf (h : raw.length = 4) : snprintf 64 (ipv4Text raw) = ipv4Text raw :=
  snprintf_eq (Nat.lt_of_le_of_lt (ipv4Text_length_le h) (by decide))

theorem ipv6Text_snprintf (h : raw.length = 16) : snprintf 64 (ipv6Text raw) = ipv6Text raw :=
  snprintf_eq (by rw [ipv6Text_length h]; decide)

-- ---------------------------------------------------------------------------
-- Transport
-- ---------------------------------------------------------------------------

def tcpRecord (offset : Nat) (node : FullInternetPacket) : FullInternetPacket :=
  { node with
    portaDestino := be16 (mem (offset + 2)) (mem (offset + 3))
    portaOrigem := be16 (mem offset) (mem (offset + 1))
    tcpSeq := be32 (mem (offset + 4)) (mem (offset + 5)) (mem (offset + 6)) (mem (offset + 7))
    tcpAckSeq := be32 (mem (offset + 8)) (mem (offset + 9)) (mem (offset + 10)) (mem (offset + 11))
    tcpFin := flag (mem (offset + 13)) 0b00000001
    tcpSyn := flag (mem (offset + 13)) 0b00000010
    tcpRst := flag (mem (offset + 13)) 0b00000100
    tcpPsh := flag (mem (offset + 13)) 0b00001000
    tcpAck := flag (mem (offset + 13)) 0b00010000
    tcpUrg := flag (mem (offset + 13)) 0b00100000
    tcpEce := flag (mem (offset + 13)) 0b01000000
    tcpCwr := flag (mem (offset + 13)) 0b10000000 }

def tcpLenght (offset : Nat) : Nat := (mem (offset + 12)).toNat / 16 * 4

theorem fillTcp_eval (offset : Nat) (node : FullInternetPacket) :
    (fillTcp offset node).eval mem = (tcpRecord mem offset node, tcpLenght mem offset) := by
  simp [fillTcp, tcpRecord, tcpLenght, Nat.shiftRight_eq_div_pow]

def udpRecord (offset : Nat) (node : FullInternetPacket) : FullInternetPacket :=
  { node with
    portaDestino := be16 (mem (offset + 2)) (mem (offset + 3))
    portaOrigem := be16 (mem offset) (mem (offset + 1)) }

theorem fillUdp_eval (offset : Nat) (node : FullInternetPacket) :
    (fillUdp offset node).eval mem = (udpRecord mem offset node, 8) := by
  simp [fillUdp, udpRecord]

theorem fillTransport_tcp (h : node.protocoloTransporte = 6) :
    (fillTransport recvlen node).eval mem =
      if recvlen < node.totalHeaderLenght + 20 then none
      else some ((tcpRecord mem node.totalHeaderLenght node).setHeader
        (node.totalHeaderLenght + tcpLenght mem node.totalHeaderLenght)) := by
  simp [fillTransport, h, fillTcp_eval]

theorem fillTransport_udp (h : node.protocoloTransporte = 17) :
    (fillTransport recvlen node).eval mem =
      if recvlen < node.totalHeaderLenght + 8 then none
      else some ((udpRecord mem node.totalHeaderLenght node).setHeader
        (node.totalHeaderLenght + 8)) := by
  simp [fillTransport, h, fillUdp_eval]

theorem fillTransport_other (h6 : node.protocoloTransporte ≠ 6)
    (h17 : node.protocoloTransporte ≠ 17) :
    (fillTransport recvlen node).eval mem = some (clearTransport node) := by
  simp only [fillTransport, h6, h17, ↓reduceIte, Reader.eval_pure]
  rfl

theorem fillTransport_reads (h : i ∈ (fillTransport recvlen node).reads mem) :
    (i : Int) < recvlen := by
  unfold fillTransport at h
  by_cases h6 : node.protocoloTransporte = 6
  · simp only [h6, ↓reduceIte, Reader.reads_ite, Reader.reads_pure] at h
    split at h
    · simp at h
    · simp [fillTcp] at h
      omega
  · by_cases h17 : node.protocoloTransporte = 17
    · simp only [h17, Int.reduceEq, ↓reduceIte, Reader.reads_ite, Reader.reads_pure] at h
      split at h
      · simp at h
      · simp [fillUdp] at h
        omega
    · simp [h6, h17] at h

-- ---------------------------------------------------------------------------
-- IPv4
-- ---------------------------------------------------------------------------

def ipv4Record (o : Nat) (node : FullInternetPacket) : FullInternetPacket :=
  { node with
    ipDestino := ipv4Text ((List.range' (o + 16) 4).map mem)
    ipOrigem := ipv4Text ((List.range' (o + 12) 4).map mem)
    totalHeaderLenght := (mem o).toNat % 16 * 4 + o
    tempoVida := (mem (o + 8)).toNat
    protocoloTransporte := ipv4Transporte (mem (o + 9)).toNat }

theorem low_nibble (b : UInt8) : (b &&& 0b00001111).toNat = b.toNat % 16 := by
  rw [UInt8.toNat_and]
  exact Nat.and_two_pow_sub_one_eq_mod b.toNat 4

theorem fillIpv4_eval (node : FullInternetPacket) (o : Nat) :
    (fillIpv4 node o).eval mem = ipv4Record mem o node := by
  simp only [fillIpv4, Reader.eval_bind, Reader.eval_byte, Reader.eval_bytes, Reader.eval_pure]
  rw [ipv4Text_snprintf (by simp), ipv4Text_snprintf (by simp), low_nibble]
  rfl

theorem ipv4Layer_eval (recvlen : Int) (o : Nat) (node : FullInternetPacket) :
    (ipv4Layer recvlen o node).eval mem =
      if recvlen < o + 20 then none
      else if (mem o).toNat % 16 < 5 ∨ recvlen < ((mem o).toNat % 16 * 4 + o : Nat) then none
      else (fillTransport recvlen (ipv4Record mem o node)).eval mem := by
  have hsmall : (ipv4Record mem o node).totalHeaderLenght < 20 + o ↔ (mem o).toNat % 16 < 5 := by
    simp only [ipv4Record]
    omega
  simp only [ipv4Layer, Reader.eval_ite, Reader.eval_pure, Reader.eval_bind, fillIpv4_eval, hsmall]
  rfl

theorem ipv4Layer_reads (h : i ∈ (ipv4Layer recvlen o node).reads mem) : (i : Int) < recvlen := by
  unfold ipv4Layer at h
  simp only [Reader.reads_ite, Reader.reads_pure] at h
  split at h
  · simp at h
  · rename_i hlen
    rw [Reader.reads_bind, List.mem_append] at h
    rcases h with h | h
    · simp [fillIpv4] at h
      omega
    · rw [Reader.reads_ite] at h
      split at h
      · simp at h
      · exact fillTransport_reads mem h

-- ---------------------------------------------------------------------------
-- IPv6
-- ---------------------------------------------------------------------------

/-- The extension-header walk: how many headers may still be stepped over,
the protocol of the next header and its index. The answer is the transport
and the index it starts at; a walk that runs out leaves the transport as
`memset` set it. -/
def chain : Nat → Nat → Nat → Int × Nat
  | 0, _, i => (0, i)
  | k + 1, p, i =>
    if IsSized p then chain k (mem i).toNat (i + ((mem (i + 1)).toNat + 1) * 8)
    else if p = 44 then chain k (mem i).toNat (i + 8)
    else (ipv6Transporte p, i)

def chainReads : Nat → Nat → Nat → List Nat
  | 0, _, _ => []
  | k + 1, p, i =>
    if IsSized p then i :: (i + 1) :: chainReads k (mem i).toNat (i + ((mem (i + 1)).toNat + 1) * 8)
    else if p = 44 then i :: chainReads k (mem i).toNat (i + 8)
    else []

/-- A record with the transport and the header length a walk found. -/
def FullInternetPacket.walked (node : FullInternetPacket) (w : Int × Nat) : FullInternetPacket :=
  (node.setTransporte w.1).setHeader w.2

@[simp] theorem FullInternetPacket.walked_protocoloTransporte (node : FullInternetPacket)
    (w : Int × Nat) : (node.walked w).protocoloTransporte = w.1 := rfl

@[simp] theorem FullInternetPacket.walked_totalHeaderLenght (node : FullInternetPacket)
    (w : Int × Nat) : (node.walked w).totalHeaderLenght = w.2 := rfl

@[simp] theorem not_isSized_fragment : ¬ IsSized 44 := by decide

theorem ExtLoop.run_stopped (h : s.condBreakLoop = 0) (fuel : Nat) :
    ExtLoop.run fuel s = pure s := by
  cases fuel with
  | zero => rfl
  | succ fuel => simp [ExtLoop.run, ExtLoop.Running, h]

/-- One iteration, by the three kinds of protocol. -/
theorem ExtLoop.body_eval (s : ExtLoop) :
    s.body.eval mem =
      if IsSized s.protocolo then
        let i := s.currIndex + ((mem (s.currIndex + 1)).toNat + 1) * 8
        { condBreakLoop := s.condBreakLoop + 1, protocolo := (mem s.currIndex).toNat,
          currIndex := i, node := s.node.setHeader i }
      else if s.protocolo = 44 then
        let i := s.currIndex + 8
        { condBreakLoop := s.condBreakLoop + 1, protocolo := (mem s.currIndex).toNat,
          currIndex := i, node := s.node.setHeader i }
      else
        { s with
          condBreakLoop := 0
          node := s.node.walked (ipv6Transporte s.protocolo, s.currIndex) } := by
  by_cases hs : IsSized s.protocolo
  · simp [ExtLoop.body, hs, ExtLoop.sized]
  · by_cases hf : s.protocolo = 44
    · simp [ExtLoop.body, hf, ExtLoop.fragment]
    · simp [ExtLoop.body, hs, hf, ExtLoop.stop, FullInternetPacket.walked]

/-- The loop is the walk. It counts up to 8 where the walk counts down. -/
theorem ExtLoop.run_eval (s : ExtLoop) (fuel : Nat) (hcount : s.condBreakLoop + fuel = 8)
    (hpos : 0 < s.condBreakLoop) (h0 : s.node.protocoloTransporte = 0)
    (hlast : fuel = 0 → s.node.totalHeaderLenght = s.currIndex) :
    ((ExtLoop.run fuel s).eval mem).node =
      s.node.walked (chain mem fuel s.protocolo s.currIndex) := by
  induction fuel generalizing s with
  | zero =>
    simp only [ExtLoop.run, chain, Reader.eval_pure, FullInternetPacket.walked]
    rw [← h0, ← hlast rfl]
    rfl
  | succ fuel ih =>
    have hrun : s.Running := ⟨by omega, by omega⟩
    simp only [ExtLoop.run, hrun, ↓reduceIte, Reader.eval_bind, ExtLoop.body_eval, chain]
    split
    · exact ih _ (by simp only; omega) (by simp) h0 fun _ => rfl
    · split
      · exact ih _ (by simp only; omega) (by simp) h0 fun _ => rfl
      · rw [ExtLoop.run_stopped rfl]
        rfl

theorem ExtLoop.run_reads (s : ExtLoop) (fuel : Nat) (hcount : s.condBreakLoop + fuel = 8)
    (hpos : 0 < s.condBreakLoop) :
    (ExtLoop.run fuel s).reads mem = chainReads mem fuel s.protocolo s.currIndex := by
  induction fuel generalizing s with
  | zero => rfl
  | succ fuel ih =>
    have hrun : s.Running := ⟨by omega, by omega⟩
    simp only [ExtLoop.run, hrun, ↓reduceIte, Reader.reads_bind, ExtLoop.body_eval, chainReads]
    by_cases hs : IsSized s.protocolo
    · simp only [hs, ↓reduceIte]
      rw [ih _ (by simp only; omega) (by simp)]
      simp [ExtLoop.body, hs, ExtLoop.sized]
    · by_cases hf : s.protocolo = 44
      · simp only [hf, not_isSized_fragment, ↓reduceIte]
        rw [ih _ (by simp only; omega) (by simp)]
        simp [ExtLoop.body, hf, ExtLoop.fragment]
      · simp only [hs, hf, ↓reduceIte]
        rw [ExtLoop.run_stopped rfl]
        simp [ExtLoop.body, hs, hf]

/-- The loop's state after `k` iterations. -/
def ExtLoop.iterated : Nat → ExtLoop → ExtLoop
  | 0, s => s
  | k + 1, s => (s.body.eval mem).iterated k

/-- The flag that ends the loop is its counter: an iteration counts up, or
stops it. -/
theorem ExtLoop.body_count (s : ExtLoop) :
    (s.body.eval mem).condBreakLoop = s.condBreakLoop + 1 ∨
      (s.body.eval mem).condBreakLoop = 0 := by
  rw [ExtLoop.body_eval]
  split
  · exact .inl rfl
  · split
    · exact .inl rfl
    · exact .inr rfl

/-- Seven iterations are enough: the loop's own test ends it. -/
theorem ExtLoop.run_exits (s : ExtLoop) (fuel : Nat) (hcount : 8 ≤ s.condBreakLoop + fuel) :
    ∃ k ≤ fuel, (∀ j < k, (s.iterated mem j).Running) ∧ ¬ (s.iterated mem k).Running ∧
      (ExtLoop.run fuel s).eval mem = s.iterated mem k := by
  induction fuel generalizing s with
  | zero =>
    refine ⟨0, le_refl 0, fun j hj => absurd hj (Nat.not_lt_zero j), ?_, rfl⟩
    exact fun h => Nat.not_le_of_lt h.2 hcount
  | succ fuel ih =>
    by_cases hrun : s.Running
    · have hnext : ∃ k ≤ fuel, (∀ j < k, ((s.body.eval mem).iterated mem j).Running) ∧
          ¬ ((s.body.eval mem).iterated mem k).Running ∧
          (ExtLoop.run fuel (s.body.eval mem)).eval mem = (s.body.eval mem).iterated mem k := by
        rcases ExtLoop.body_count mem s with hcounted | hstopped
        · exact ih _ (by omega)
        · refine ⟨0, Nat.zero_le _, fun j hj => absurd hj (Nat.not_lt_zero j), ?_, ?_⟩
          · exact fun h => h.1 hstopped
          · rw [ExtLoop.run_stopped hstopped]
            rfl
      obtain ⟨k, hk, hbefore, hend, heval⟩ := hnext
      refine ⟨k + 1, Nat.succ_le_succ hk, ?_, hend, ?_⟩
      · intro j hj
        cases j with
        | zero => exact hrun
        | succ j => exact hbefore j (Nat.lt_of_succ_lt_succ hj)
      · simp only [ExtLoop.run, hrun, ↓reduceIte, Reader.eval_bind, ExtLoop.iterated]
        exact heval
    · refine ⟨0, Nat.zero_le _, fun j hj => absurd hj (Nat.not_lt_zero j), hrun, ?_⟩
      simp only [ExtLoop.run, hrun, ↓reduceIte]
      rfl

def ipv6Record (o : Nat) (node : FullInternetPacket) : FullInternetPacket :=
  { node with
    ipOrigem := ipv6Text ((List.range' (o + 8) 16).map mem)
    ipDestino := ipv6Text ((List.range' (o + 24) 16).map mem)
    tempoVida := (mem (o + 7)).toNat }

/-- The walk of a frame whose IPv6 header starts at `o`. -/
def frameChain (o : Nat) : Int × Nat := chain mem 7 (mem (o + 6)).toNat (40 + o)

theorem fillIpv6_eval (h0 : node.protocoloTransporte = 0) (o : Nat) :
    (fillIpv6 node o).eval mem = (ipv6Record mem o node).walked (frameChain mem o) := by
  simp only [fillIpv6, Reader.eval_bind, Reader.eval_byte, Reader.eval_bytes, Reader.eval_pure]
  rw [ExtLoop.run_eval mem _ 7 (by rfl) (by simp) h0 (by simp), ipv6Text_snprintf (by simp),
    ipv6Text_snprintf (by simp)]
  rfl

theorem ipv6Layer_eval (h0 : node.protocoloTransporte = 0) (recvlen : Int) (o : Nat) :
    (ipv6Layer recvlen o node).eval mem =
      if recvlen < o + 40 then none
      else (fillTransport recvlen
        ((ipv6Record mem o node).walked (frameChain mem o))).eval mem := by
  simp only [ipv6Layer, Reader.eval_ite, Reader.eval_pure, Reader.eval_bind, fillIpv6_eval mem h0]

-- ---------------------------------------------------------------------------
-- The frame
-- ---------------------------------------------------------------------------

/-- Where a frame's link header ends, the EtherType there, and whether an
802.1Q tag was passed. -/
structure LinkEnd where
  headerLen : Nat
  ethtype : Nat
  vlan : Bool

def ethtypeBefore (n : Nat) : Nat := be16 (mem (n - 2)) (mem (n - 1))

def stackedEnd : LinkEnd :=
  if ethtypeBefore mem 14 = 0x88a8 then ⟨18, ethtypeBefore mem 18, false⟩
  else ⟨14, ethtypeBefore mem 14, false⟩

def linkEnd : LinkEnd :=
  let e := stackedEnd mem
  if e.ethtype = 0x8100 then ⟨e.headerLen + 4, ethtypeBefore mem (e.headerLen + 4), true⟩ else e

def macRecord : FullInternetPacket :=
  { macDestino := macText ((List.range' 0 6).map mem)
    macOrigem := macText ((List.range' 6 6).map mem) }

def linkRecord : FullInternetPacket :=
  if (linkEnd mem).vlan then (macRecord mem).setVlan 1 else macRecord mem

theorem headerLen_cases :
    (linkEnd mem).headerLen = 14 ∨ (linkEnd mem).headerLen = 18 ∨ (linkEnd mem).headerLen = 22 := by
  unfold linkEnd stackedEnd
  simp only
  repeat' split
  all_goals simp

theorem readLink_eval :
    readLink.eval mem =
      { node := macRecord mem, ethtype := ethtypeBefore mem 14,
        ethrHeaderLen := 14, offset := 0 } := by
  simp only [readLink, Reader.eval_bind, Reader.eval_bytes, Reader.eval_pure, word16_eval]
  rw [macText_snprintf (by simp), macText_snprintf (by simp)]
  rfl

def stackedLink : Link where
  node := macRecord mem
  ethtype := (stackedEnd mem).ethtype
  ethrHeaderLen := (stackedEnd mem).headerLen
  offset := (stackedEnd mem).headerLen - 14

def frameLink : Link where
  node := linkRecord mem
  ethtype := (linkEnd mem).ethtype
  ethrHeaderLen := (linkEnd mem).headerLen
  offset := (linkEnd mem).headerLen - 14

theorem stackedEnd_headerLen :
    (stackedEnd mem).headerLen = 14 ∨ (stackedEnd mem).headerLen = 18 := by
  unfold stackedEnd
  split
  · exact .inr rfl
  · exact .inl rfl

theorem stackedEnd_le : (stackedEnd mem).headerLen ≤ (linkEnd mem).headerLen := by
  unfold linkEnd
  simp only
  split <;> simp

theorem stackedTag_eval (h14 : ¬ recvlen < 14) :
    (stackedTag recvlen (readLink.eval mem)).eval mem =
      if recvlen < (stackedEnd mem).headerLen then none else some (stackedLink mem) := by
  rw [readLink_eval]
  by_cases ht : ethtypeBefore mem 14 = 0x88a8
  · simp [stackedTag, skipTag, stackedLink, stackedEnd, ht]
    rfl
  · simp [stackedTag, stackedLink, stackedEnd, ht, h14]

theorem vlanTag_eval (hlen : ¬ recvlen < (stackedEnd mem).headerLen) :
    (vlanTag recvlen (stackedLink mem)).eval mem =
      if recvlen < (linkEnd mem).headerLen then none else some (frameLink mem) := by
  have hs := stackedEnd_headerLen mem
  by_cases ht : (stackedEnd mem).ethtype = 0x8100
  · have hend : linkEnd mem = ⟨(stackedEnd mem).headerLen + 4,
        ethtypeBefore mem ((stackedEnd mem).headerLen + 4), true⟩ := by simp [linkEnd, ht]
    have hidx : 12 + ((stackedEnd mem).headerLen - 14 + 4) = (stackedEnd mem).headerLen + 2 := by
      omega
    have hguard : (recvlen < 14 + ((stackedEnd mem).headerLen - 14 + 4 : Nat)) ↔
        recvlen < ((stackedEnd mem).headerLen + 4 : Nat) := by omega
    have hoff : (stackedEnd mem).headerLen + 4 - 14 = (stackedEnd mem).headerLen - 14 + 4 := by
      omega
    simp only [vlanTag, stackedLink, frameLink, ht, ↓reduceIte, skipTag, Reader.eval_ite,
      Reader.eval_pure, Reader.eval_bind, word16_eval, hguard, hidx, hend, hoff, linkRecord]
    split <;> rfl
  · have hend : linkEnd mem = stackedEnd mem := by simp [linkEnd, ht]
    have hvlan : (stackedEnd mem).vlan = false := by
      unfold stackedEnd
      split <;> rfl
    simp [vlanTag, stackedLink, frameLink, linkRecord, ht, hend, hvlan, hlen]

/-- The link layer accepts exactly the frames that hold their link header. -/
theorem link_eval (h14 : ¬ recvlen < 14) (f : Link → Reader (Option α)) :
    ((stackedTag recvlen (readLink.eval mem)).andThen fun link =>
        (vlanTag recvlen link).andThen f).eval mem =
      if recvlen < (linkEnd mem).headerLen then none else (f (frameLink mem)).eval mem := by
  have hle := stackedEnd_le mem
  rw [Reader.eval_andThen, stackedTag_eval mem h14]
  by_cases hlen : recvlen < (stackedEnd mem).headerLen
  · have : recvlen < (linkEnd mem).headerLen := by omega
    simp [hlen, this]
  · simp only [hlen, ↓reduceIte, Option.bind_some, Reader.eval_andThen, vlanTag_eval mem hlen]
    split <;> rfl

theorem skipTag_reads (h : i ∈ (skipTag recvlen link).reads mem) : (i : Int) < recvlen := by
  unfold skipTag at h
  simp only [Reader.reads_ite, Reader.reads_pure] at h
  split at h
  · simp at h
  · simp only [Reader.reads_bind, word16_reads, Reader.reads_pure, List.append_nil, List.mem_cons,
      List.not_mem_nil, or_false] at h
    omega

theorem stackedTag_reads (h : i ∈ (stackedTag recvlen link).reads mem) : (i : Int) < recvlen := by
  unfold stackedTag at h
  rw [Reader.reads_ite] at h
  split at h
  · exact skipTag_reads mem h
  · simp at h

theorem vlanTag_reads (h : i ∈ (vlanTag recvlen link).reads mem) : (i : Int) < recvlen := by
  unfold vlanTag at h
  rw [Reader.reads_ite] at h
  split at h
  · exact skipTag_reads mem h
  · simp at h

/-- What the link layer reads is captured; the rest is read behind it. -/
theorem link_reads (h14 : ¬ recvlen < 14) (f : Link → Reader (Option α))
    (h : i ∈ ((stackedTag recvlen (readLink.eval mem)).andThen fun link =>
        (vlanTag recvlen link).andThen f).reads mem) :
    (i : Int) < recvlen ∨ i ∈ (f (frameLink mem)).reads mem := by
  rw [Reader.reads_andThen, List.mem_append, stackedTag_eval mem h14] at h
  rcases h with h | h
  · exact .inl (stackedTag_reads mem h)
  by_cases hlen : recvlen < (stackedEnd mem).headerLen
  · simp [hlen] at h
  simp only [hlen, ↓reduceIte, Option.elim_some, Reader.reads_andThen, List.mem_append,
    vlanTag_eval mem hlen] at h
  rcases h with h | h
  · exact .inl (vlanTag_reads mem h)
  · split at h
    · simp at h
    · exact .inr h

theorem fill_eval (recvlen : Int) (now : Tm) :
    (fillFullPacketNode recvlen now).eval mem =
      if recvlen < (linkEnd mem).headerLen then none
      else ((internetLayer recvlen (linkEnd mem).headerLen
          (nameProtocol (linkEnd mem).ethtype (linkRecord mem))).eval mem).map
        (·.setTimestamp (getTime now)) := by
  have hcases := headerLen_cases mem
  unfold fillFullPacketNode
  by_cases h14 : recvlen < 14
  · have : recvlen < (linkEnd mem).headerLen := by omega
    simp [h14, this]
  · simp only [h14, ↓reduceIte, Reader.eval_bind]
    rw [link_eval mem h14]
    split
    · rfl
    · rw [Reader.eval_andThen]
      simp only [frameLink]
      cases (internetLayer recvlen (linkEnd mem).headerLen
          (nameProtocol (linkEnd mem).ethtype (linkRecord mem))).eval mem <;> rfl

def ipBase (name : String) : FullInternetPacket :=
  { linkRecord mem with protocoloIp := name.toList }

theorem ipBase_protocoloTransporte (name : String) :
    (ipBase mem name).protocoloTransporte = 0 := by
  unfold ipBase linkRecord
  split <;> rfl

theorem fill_ipv4 (ht : (linkEnd mem).ethtype = 0x0800) (recvlen : Int) (now : Tm) :
    (fillFullPacketNode recvlen now).eval mem =
      ((ipv4Layer recvlen (linkEnd mem).headerLen (ipBase mem "IPv4")).eval mem).map
        (·.setTimestamp (getTime now)) := by
  rw [fill_eval, ht]
  split
  · rw [ipv4Layer_eval, if_pos (by omega)]
    rfl
  · rfl

theorem fill_ipv6 (ht : (linkEnd mem).ethtype = 0x86DD) (recvlen : Int) (now : Tm) :
    (fillFullPacketNode recvlen now).eval mem =
      ((ipv6Layer recvlen (linkEnd mem).headerLen (ipBase mem "IPv6")).eval mem).map
        (·.setTimestamp (getTime now)) := by
  rw [fill_eval, ht]
  split
  · rw [ipv6Layer_eval mem (ipBase_protocoloTransporte mem _), if_pos (by omega)]
    rfl
  · rfl

theorem fill_nonIp (h4 : (linkEnd mem).ethtype ≠ 0x0800) (h6 : (linkEnd mem).ethtype ≠ 0x86DD)
    (recvlen : Int) (now : Tm) :
    (fillFullPacketNode recvlen now).eval mem =
      if recvlen < (linkEnd mem).headerLen then none
      else some ((nameProtocol (linkEnd mem).ethtype (linkRecord mem)).1.setTimestamp
        (getTime now)) := by
  rw [fill_eval]
  split
  · rfl
  · have hdefine : (nameProtocol (linkEnd mem).ethtype (linkRecord mem)).2 ≠ 1 ∧
        (nameProtocol (linkEnd mem).ethtype (linkRecord mem)).2 ≠ 2 := by
      unfold nameProtocol
      simp only [h4, h6, ↓reduceIte]
      repeat' split
      all_goals simp
    simp [internetLayer, hdefine]

end WireSentinel
