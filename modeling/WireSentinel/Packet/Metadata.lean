import WireSentinel.Packet.Accepted

/-!
# The metadata of a record is the headers'

A record depends on no byte behind `metadataEnd`, a bound read off the
record itself, and on the captured length only through that bound. The
first half is `sameRecord_of_captured`, the second `fill_resize`: every
guard the parser passed is a lower bound on the captured length.
-/

namespace WireSentinel

variable {mem mem' : Memory} {m n : Int} {node q r : FullInternetPacket} {now : Tm} {i k p : Nat}

/-- The link header, the headers the record counts, and the fixed part of a
TCP header, whatever its data offset. -/
def metadataEnd (mem : Memory) (r : FullInternetPacket) : Nat :=
  max (max (linkEnd mem).headerLen r.totalHeaderLenght)
    (if r.protocoloTransporte = 6 then transportStart mem + 20 else 0)

theorem metadataEnd_le (h : (metadataEnd mem r : Int) ≤ m) :
    ((linkEnd mem).headerLen : Int) ≤ m ∧ (r.totalHeaderLenght : Int) ≤ m ∧
      (r.protocoloTransporte = 6 → (transportStart mem + 20 : Int) ≤ m) := by
  unfold metadataEnd at h
  split at h
  · omega
  · rename_i h6
    exact ⟨by omega, by omega, fun h => absurd h h6⟩

-- ---------------------------------------------------------------------------
-- The captured length
-- ---------------------------------------------------------------------------

theorem TransportExit.start_le (h : TransportExit mem n node q) :
    node.totalHeaderLenght ≤ q.totalHeaderLenght := by
  cases h with
  | tcp proto fits => exact Nat.le_add_right ..
  | udp proto fits => exact Nat.le_add_right ..
  | other h6 h17 => exact Nat.le_refl _

/-- The switch takes the same exit with more bytes captured, and with any
number that covers what the exit reports. -/
theorem TransportExit.resize (h : TransportExit mem n node q)
    (hm : n ≤ m ∨ (q.totalHeaderLenght : Int) ≤ m ∧
      (q.protocoloTransporte = 6 → (node.totalHeaderLenght + 20 : Int) ≤ m)) :
    TransportExit mem m node q := by
  cases h with
  | tcp proto fits =>
    refine .tcp proto ?_
    rcases hm with hm | ⟨-, hm⟩
    · omega
    · exact hm proto
  | udp proto fits =>
    refine .udp proto ?_
    rw [FullInternetPacket.setHeader_totalHeaderLenght] at hm
    omega
  | other h6 h17 => exact .other h6 h17

theorem IpCaptured.resize (h : IpCaptured mem n) (hm : n ≤ m ∨ (transportStart mem : Int) ≤ m) :
    IpCaptured mem m := by
  have hend := le_chain_snd mem 7 (mem ((linkEnd mem).headerLen + 6)).toNat
    (40 + (linkEnd mem).headerLen)
  unfold IpCaptured transportStart frameChain at *
  simp only at *
  split
  · rename_i h4
    simp only [h4, ↓reduceIte] at h hm ⊢
    omega
  · rename_i h4
    simp only [h4, ↓reduceIte] at h hm
    omega

/-- A frame is parsed to the same record with more bytes captured, and with
any number that covers the metadata. -/
theorem fill_resize (h : (fillFullPacketNode n now).eval mem = some r)
    (hm : n ≤ m ∨ (metadataEnd mem r : Int) ≤ m) :
    (fillFullPacketNode m now).eval mem = some r := by
  by_cases hip : IsIp mem
  · obtain ⟨hc, q, hq, rfl⟩ := (fill_ip_ok hip).mp h
    have hstart := hq.start_le
    rw [ipRecord_totalHeaderLenght] at hstart
    refine (fill_ip_ok hip).mpr ⟨hc.resize ?_, q, hq.resize ?_, rfl⟩
    · rcases hm with hm | hm
      · exact .inl hm
      · have := (metadataEnd_le hm).2.1
        simp only [FullInternetPacket.setTimestamp] at this
        exact .inr (by omega)
    · rcases hm with hm | hm
      · exact .inl hm
      · rw [ipRecord_totalHeaderLenght]
        exact .inr (metadataEnd_le hm).2
  · obtain ⟨hlen, hr⟩ := (fill_nonIp_ok hip).mp h
    refine (fill_nonIp_ok hip).mpr ⟨?_, hr⟩
    rcases hm with hm | hm
    · omega
    · exact (metadataEnd_le hm).1

-- ---------------------------------------------------------------------------
-- The bytes
-- ---------------------------------------------------------------------------

/-- A walk that ends in the captured bytes read captured bytes only: the
header it stepped over last is at least eight bytes long. -/
theorem covered_of_le (h : ((chain mem k p i).2 : Int) ≤ n) : Covered mem n k p i := by
  induction k generalizing p i with
  | zero => trivial
  | succ k ih =>
    unfold chain at h
    unfold Covered
    by_cases hs : IsSized p
    · simp only [hs, ↓reduceIte] at h ⊢
      have := le_chain_snd mem k (mem i).toNat (i + ((mem (i + 1)).toNat + 1) * 8)
      exact .inl ⟨by omega, ih h⟩
    · by_cases hf : p = 44
      · simp only [hf, not_isSized_fragment, ↓reduceIte] at h ⊢
        have := le_chain_snd mem k (mem i).toNat (i + 8)
        exact .inl ⟨by omega, ih h⟩
      · simp [hs, hf]

theorem chainCaptured_metadataEnd (h : (fillFullPacketNode n now).eval mem = some r) :
    ChainCaptured mem (metadataEnd mem r) := by
  intro h6 _
  have hip : IsIp mem := .inr h6
  have h4 : (linkEnd mem).ethtype ≠ 0x0800 := by simp [h6]
  obtain ⟨-, q, hq, rfl⟩ := (fill_ip_ok hip).mp h
  have hstart := hq.start_le
  have hend := (metadataEnd_le (Int.le_refl (metadataEnd mem (q.setTimestamp (getTime now))))).2.1
  rw [ipRecord_totalHeaderLenght, transportStart] at hstart
  simp only [h4, ↓reduceIte] at hstart
  simp only [FullInternetPacket.setTimestamp] at hend ⊢
  refine covered_of_le ?_
  unfold frameChain at hstart
  omega

/-- The record is that of its metadata: any frame with the same bytes in
front of `metadataEnd`, and at least these captured, has the same record
apart from the timestamp.

Premises: the first frame is accepted; the second agrees with it on the
metadata and is no shorter. -/
theorem fill_of_metadata (h : (fillFullPacketNode n now).eval mem = some r)
    (ha : Agree (metadataEnd mem r) mem mem') (hm : (metadataEnd mem r : Int) ≤ m) (now' : Tm) :
    ∃ r', (fillFullPacketNode m now').eval mem' = some r' ∧ r'.untimed = r.untimed := by
  have hcut := fill_resize h (.inr (Int.le_refl (metadataEnd mem r)))
  have hsame := sameRecord_of_captured (chainCaptured_metadataEnd h) ha now now'
  rw [SameRecord, hcut, Option.map_some, eq_comm, Option.map_eq_some_iff] at hsame
  obtain ⟨r', hr', heq⟩ := hsame
  exact ⟨r', fill_resize hr' (.inl hm), heq⟩

/-- The 70 bytes of a TCP frame are all metadata: a byte of payload behind
them changes nothing. -/
theorem fill_of_metadata_syn :
    ∃ r r', (fillFullPacketNode 70 noon).eval (Content.ofBytes synFrame.encode).memory = some r ∧
      metadataEnd (Content.ofBytes synFrame.encode).memory r = 70 ∧
      (fillFullPacketNode 71 noon).eval (patch (Content.ofBytes synFrame.encode).memory 70 70 9) =
        some r' ∧ r'.untimed = r.untimed := by
  have hend : ((fillFullPacketNode 70 noon).eval (Content.ofBytes synFrame.encode).memory).map
      (metadataEnd (Content.ofBytes synFrame.encode).memory) = some 70 := by decide +kernel
  obtain ⟨r, hr, hmeta⟩ := Option.map_eq_some_iff.mp hend
  obtain ⟨r', hr', heq⟩ := fill_of_metadata (m := 71) hr
    (by rw [hmeta]; exact patch_agree _ 70 70 9) (by rw [hmeta]; decide) noon
  exact ⟨r, r', hr, hmeta, hr', heq⟩

end WireSentinel
