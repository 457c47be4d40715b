import WireSentinel.Payload.Builder
import WireSentinel.Packet.WellFormed

/-!
# The payload fits its buffers
-/

namespace WireSentinel

open Json (quoted)
open Text (lit strcat snprintf snprintf_eq signed decimal)

variable {pkt : FullInternetPacket} {pkts : List FullInternetPacket}

-- ---------------------------------------------------------------------------
-- Texts of a record
-- ---------------------------------------------------------------------------

theorem NetworkFormed.lengths (h : NetworkFormed pkt) :
    pkt.macOrigem.length ≤ 18 ∧ pkt.macDestino.length ≤ 18 ∧ pkt.protocoloIp.length ≤ 15 ∧
      pkt.ipOrigem.length ≤ 40 ∧ pkt.ipDestino.length ≤ 40 := by
  obtain ⟨⟨raw, hraw, hmo⟩, ⟨raw', hraw', hmd⟩, htexts, -, -⟩ := h
  refine ⟨?_, ?_, ?_⟩
  · rw [hmo, macText_length hraw]
    decide
  · rw [hmd, macText_length hraw']
    decide
  cases htexts with
  | ipv4 name s d hs hd origem destino =>
    have := ipv4Text_length_le hs
    have := ipv4Text_length_le hd
    rw [name, origem, destino]
    exact ⟨by decide, by omega, by omega⟩
  | ipv6 name s d hs hd origem destino =>
    rw [name, origem, destino, ipv6Text_length hs, ipv6Text_length hd]
    decide
  | nonIp name origem destino _ =>
    have hname : ∀ n ∈ ["ARP", "RARP", "MPLS Unicast", "MPLS Multicast", "PPPoE Session",
        "PPPoE Discovery", "Unknown"].map String.toList, n.length ≤ 15 := by decide
    rw [origem, destino]
    exact ⟨hname _ name, by decide, by decide⟩

theorem signed_length_le {n : Nat} (hk : 0 < k) (h : n < 10 ^ k) :
    (signed (n : Int)).length ≤ k :=
  Text.decimal_length_le hk h

-- ---------------------------------------------------------------------------
-- One packet
-- ---------------------------------------------------------------------------

@[simp] theorem line_length (key : String) (value : CString) :
    (line key value).length = key.toList.length + value.length + 10 := by
  simp [line]
  omega

@[simp] theorem quoted_length (s : CString) : (quoted s).length = s.length + 2 := by
  simp [quoted]

theorem line_length_le (key : String) (h : value.length ≤ k) :
    (line key value).length ≤ key.toList.length + k + 10 := by
  rw [line_length]
  omega

theorem textLine_length_le (key : String) (h : s.length ≤ k) :
    (textLine key s).length ≤ key.toList.length + k + 14 := by
  simp [textLine]
  omega

theorem numberLine_length_le (key : String) {n : Nat} (hk : 0 < k) (h : n < 10 ^ k) :
    (numberLine key n).length ≤ key.toList.length + k + 12 := by
  have := signed_length_le hk h
  simp [numberLine]
  omega

theorem flagLine_length_le (key : String) (b : UInt8) :
    (flagLine key b).length ≤ key.toList.length + 17 := by
  unfold flagLine
  split <;> simp

theorem flatten_length_le {bounds : List Nat}
    (h : List.Forall₂ (fun piece k => piece.length ≤ k) pieces bounds) :
    (pieces.flatten : CString).length ≤ bounds.sum := by
  induction h with
  | nil => simp
  | cons hpiece _ ih =>
    simp only [List.flatten_cons, List.length_append, List.sum_cons]
    omega

/-- What the size of a packet's text depends on. -/
structure Sized (pkt : FullInternetPacket) : Prop where
  wellFormed : pkt.WellFormed
  tamanho : ∃ n : Nat, pkt.tamanhoTotalPacket = n ∧ n < 10 ^ 5

theorem Produced.sized (h : Produced pkt) : Sized pkt := by
  refine ⟨h.wellFormed, ?_⟩
  obtain ⟨content, n, now, hpos, hle, node, -, rfl⟩ := h
  exact ⟨n.toNat, by simp only; omega, by omega⟩

theorem packetFields_length_le (h : Sized pkt) : (packetFields pkt).length ≤ 700 := by
  obtain ⟨⟨hnet, htr, hhl, now, htime⟩, n, hn, hlt⟩ := h
  obtain ⟨hmo, hmd, hip, hio, hid⟩ := hnet.lengths
  have ht : pkt.timestamp.length ≤ 25 := htime ▸ getTime_length now
  have httl : (line "tempoDeVida" (signed pkt.tempoVida) ++ lit ", \n").length ≤ 27 := by
    have := line_length_le "tempoDeVida"
      (signed_length_le (k := 3) (by decide) (Nat.lt_trans hnet.tempoVida (by decide)))
    simp at this ⊢
    omega
  have hport : 2 ^ 16 < 10 ^ 5 := by decide
  have hseq : 2 ^ 32 < 10 ^ 10 := by decide
  unfold packetFields
  rw [hn]
  refine Nat.le_trans (flatten_length_le (.cons (b := 6) (by simp) (.cons (textLine_length_le _ ht)
    (.cons (textLine_length_le _ hmo) (.cons (textLine_length_le _ hmd)
    (.cons (textLine_length_le _ hip) (.cons (textLine_length_le _ hio)
    (.cons (textLine_length_le _ hid) (.cons httl
    (.cons (numberLine_length_le _ (by decide) hhl) (.cons (numberLine_length_le _ (by decide) hlt)
    (.cons (numberLine_length_le _ (by decide) (Nat.lt_trans htr.portaOrigem hport))
    (.cons (numberLine_length_le _ (by decide) (Nat.lt_trans htr.portaDestino hport))
    (.cons (numberLine_length_le _ (by decide) (Nat.lt_trans htr.tcpSeq hseq))
    (.cons (numberLine_length_le _ (by decide) (Nat.lt_trans htr.tcpAckSeq hseq))
    .nil))))))))))))))) ?_
  simp

theorem flagLines_length_le (pkt : FullInternetPacket) : (flagLines pkt).flatten.length ≤ 250 := by
  unfold flagLines
  refine Nat.le_trans (flatten_length_le
    (.cons (flagLine_length_le _ _) (.cons (flagLine_length_le _ _)
    (.cons (flagLine_length_le _ _) (.cons (flagLine_length_le _ _)
    (.cons (flagLine_length_le _ _) (.cons (flagLine_length_le _ _)
    (.cons (flagLine_length_le _ _) (.cons (flagLine_length_le _ _)
    (.cons (flagLine_length_le _ _) .nil)))))))))) ?_
  simp

theorem listed_length_le (h : name ∈ listed table port) : name.length ≤ 200 := by
  unfold listed at h
  split at h
  · exact table.length_le port name h
  · simp at h

/-- The application of a packet: by its destination port, or else by its
source port. -/
def applicationName (table : ServicesTable) (pkt : FullInternetPacket) : CString :=
  ((listed table pkt.portaDestino).or (listed table pkt.portaOrigem)).getD (lit "Unknown/None")

theorem applicationName_length_le (table : ServicesTable) (pkt : FullInternetPacket) :
    (applicationName table pkt).length ≤ 200 := by
  unfold applicationName
  cases hd : listed table pkt.portaDestino with
  | some name => simpa using listed_length_le hd
  | none =>
    cases ho : listed table pkt.portaOrigem with
    | some name => simpa using listed_length_le ho
    | none => simp

/-- A listed name goes through `buffer_aplicacao` uncut. -/
theorem applicationLine_eq (table : ServicesTable) (pkt : FullInternetPacket) :
    applicationLine table pkt =
      line "protocolo_aplicacao" (quoted (applicationName table pkt)) ++ lit "\n" := by
  have hcut : ∀ port, ∀ name ∈ listed table port,
      snprintf 256 (line "protocolo_aplicacao" (quoted name) ++ lit "\n") =
        line "protocolo_aplicacao" (quoted name) ++ lit "\n" := by
    intro port name hname
    have := listed_length_le hname
    refine snprintf_eq ?_
    simp
    omega
  unfold applicationLine applicationName
  cases hd : listed table pkt.portaDestino with
  | some name => simpa using hcut _ name hd
  | none =>
    cases ho : listed table pkt.portaOrigem with
    | some name => simpa using hcut _ name ho
    | none => simp

theorem transportLines_length_le (services : Services) (pkt : FullInternetPacket) :
    (transportLines services pkt).flatten.length ≤ 310 := by
  have htcp := applicationName_length_le services.tcp pkt
  have hudp := applicationName_length_le services.udp pkt
  unfold transportLines
  simp only [applicationLine_eq]
  repeat' split
  all_goals
    simp
    try omega

theorem packetPieces_length_le (services : Services) (pkt : FullInternetPacket) (more : Bool) :
    (packetPieces services pkt more).flatten.length ≤ 570 := by
  have hflags := flagLines_length_le pkt
  have htransport := transportLines_length_le services pkt
  unfold packetPieces
  have hlast : ∀ tail : List CString, tail.flatten.length ≤ 2 →
      (flagLines pkt ++ transportLines services pkt ++ [lit "    \x7d"] ++ tail).flatten.length ≤
        570 := by
    intro tail htail
    simp only [List.flatten_append, List.flatten_singleton, List.length_append, Text.lit_length]
    simp only [String.reduceToList, List.length_cons, List.length_nil]
    omega
  split
  · exact hlast _ (by simp)
  · exact hlast _ (by simp)

def packetText (services : Services) (pkt : FullInternetPacket) (more : Bool) : CString :=
  packetFields pkt ++ (packetPieces services pkt more).flatten

theorem packetText_length_lt (services : Services) (h : Sized pkt) (more : Bool) :
    (packetText services pkt more).length < 2048 := by
  have := packetFields_length_le h
  have := packetPieces_length_le services pkt more
  unfold packetText
  rw [List.length_append]
  omega

theorem packetBuffer_eq (services : Services) (h : Sized pkt) (more : Bool) :
    packetBuffer services pkt more = some (packetText services pkt more) := by
  have hfields := packetFields_length_le h
  have htext := packetText_length_lt services h more
  unfold packetText at htext
  rw [List.length_append] at htext
  rw [packetBuffer, snprintf_eq (by omega), Text.foldlM_strcat _ htext]
  rfl

-- ---------------------------------------------------------------------------
-- The payload
-- ---------------------------------------------------------------------------

def packetsText (services : Services) : List FullInternetPacket → CString
  | [] => []
  | pkt :: rest => packetText services pkt (!rest.isEmpty) ++ packetsText services rest

def payloadText (services : Services) (pkts : List FullInternetPacket) : CString :=
  lit "\x7b\n  \"packets\": [\n" ++ packetsText services pkts ++ lit "\n  ]\n\x7d\n"

theorem packetsText_length_le (services : Services) (h : ∀ pkt ∈ pkts, Sized pkt) :
    (packetsText services pkts).length ≤ 2048 * pkts.length := by
  induction pkts with
  | nil => simp [packetsText]
  | cons pkt rest ih =>
    have hpkt := packetText_length_lt services (h pkt (by simp)) (!rest.isEmpty)
    have hrest := ih fun p hp => h p (by simp [hp])
    rw [packetsText, List.length_append, List.length_cons]
    omega

theorem appendPackets_eq (services : Services) (h : ∀ pkt ∈ pkts, Sized pkt)
    (hfit : buffer.length + (packetsText services pkts).length < maxJsonSize) :
    appendPackets services pkts buffer = some (buffer ++ packetsText services pkts) := by
  induction pkts generalizing buffer with
  | nil => simp [appendPackets, packetsText]
  | cons pkt rest ih =>
    rw [packetsText, List.length_append] at hfit
    rw [appendPackets, packetBuffer_eq services (h pkt (by simp)), Option.bind_eq_bind,
      Option.bind_some, strcat, if_pos (by omega), Option.bind_some,
      ih (fun p hp => h p (by simp [hp])) (by rw [List.length_append]; omega), packetsText,
      List.append_assoc]

/-- The payload of a full queue leaves room for a header of 2047 bytes. -/
theorem payloadText_length_lt (services : Services) (h : ∀ pkt ∈ pkts, Sized pkt)
    (hlen : pkts.length ≤ 1000) :
    (payloadText services pkts).length + 2048 < maxJsonSize := by
  have := packetsText_length_le services h
  simp [payloadText, maxJsonSize]
  omega

theorem generateJsonPayload_eq (services : Services) (h : ∀ pkt ∈ pkts, Sized pkt)
    (hlen : pkts.length ≤ 1000) :
    generateJsonPayload services pkts = some (payloadText services pkts) := by
  have hfit := payloadText_length_lt services h hlen
  simp only [payloadText, List.length_append] at hfit
  rw [generateJsonPayload, strcat, if_pos (by rw [List.length_nil]; omega), Option.bind_eq_bind,
    Option.bind_some, List.nil_append, appendPackets_eq services h (by omega), Option.bind_some,
    strcat, if_pos (by rw [List.length_append]; omega)]
  rfl

end WireSentinel
