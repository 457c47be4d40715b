import WireSentinel.Packet.Laws

/-!
# Which bytes the parser depends on

The parser's length guards cover every read but those of the IPv6
extension-header walk, which steps wherever the packet says.
`ChainCaptured` is the exact condition under which the record depends on
the captured bytes alone.
-/

namespace WireSentinel

/-- Two memories with the same first `n` bytes. -/
def Agree (n : Int) (mem mem' : Memory) : Prop := ∀ i : Nat, (i : Int) < n → mem i = mem' i

/-- The same record in every field except the timestamp, or `NULL` twice. -/
def SameRecord (a b : Option FullInternetPacket) : Prop :=
  a.map FullInternetPacket.untimed = b.map FullInternetPacket.untimed

instance (a b : Option FullInternetPacket) : Decidable (SameRecord a b) :=
  inferInstanceAs (Decidable (_ = _))

variable {mem mem' : Memory} {n : Int} {i j k p x : Nat} {v : UInt8}

theorem agree_map_range' (h : Agree n mem mem') (hn : (i + k : Int) ≤ n) :
    (List.range' i k).map mem = (List.range' i k).map mem' := by
  refine List.map_congr_left fun j hj => h j ?_
  have := List.mem_range'_1.mp hj
  omega

theorem agree_ethtypeBefore (h : Agree n mem mem') (hk : 2 ≤ k) (hn : (k : Int) ≤ n) :
    ethtypeBefore mem k = ethtypeBefore mem' k := by
  unfold ethtypeBefore
  rw [h (k - 2) (by omega), h (k - 1) (by omega)]

theorem agree_eval (h : Agree n mem mem') (m : Reader α) (hm : ∀ i ∈ m.reads mem, (i : Int) < n) :
    m.eval mem = m.eval mem' :=
  m.eval_congr fun i hi => h i (hm i hi)

-- ---------------------------------------------------------------------------
-- The link layer
-- ---------------------------------------------------------------------------

theorem agree_stackedEnd (h : Agree n mem mem') (h14 : 14 ≤ n) :
    (n < (stackedEnd mem).headerLen ∧ n < (stackedEnd mem').headerLen) ∨
      stackedEnd mem = stackedEnd mem' := by
  unfold stackedEnd
  rw [← agree_ethtypeBefore h (by decide) h14]
  split
  · by_cases h18 : 18 ≤ n
    · exact .inr (by rw [agree_ethtypeBefore h (by decide) h18])
    · refine .inl ⟨?_, ?_⟩ <;> simp only <;> omega
  · exact .inr rfl

theorem agree_linkEnd (h : Agree n mem mem') :
    (n < (linkEnd mem).headerLen ∧ n < (linkEnd mem').headerLen) ∨
      (linkEnd mem = linkEnd mem' ∧ linkRecord mem = linkRecord mem' ∧
        ((linkEnd mem).headerLen : Int) ≤ n) := by
  have hc := headerLen_cases mem
  have hc' := headerLen_cases mem'
  by_cases h14 : 14 ≤ n
  · have hmac : macRecord mem = macRecord mem' := by
      unfold macRecord
      rw [agree_map_range' h (by omega), agree_map_range' h (by omega)]
    rcases agree_stackedEnd h h14 with ⟨hs, hs'⟩ | hs
    · have := stackedEnd_le mem
      have := stackedEnd_le mem'
      omega
    · by_cases hin : n < (linkEnd mem).headerLen
      · refine .inl ⟨hin, ?_⟩
        unfold linkEnd at hin ⊢
        rw [← hs]
        simp only at hin ⊢
        split at hin <;> rename_i ht <;> simpa [ht] using hin
      · have hend : linkEnd mem = linkEnd mem' := by
          unfold linkEnd at hin ⊢
          rw [← hs]
          simp only at hin ⊢
          split
          · rename_i ht
            rw [if_pos ht] at hin
            rw [agree_ethtypeBefore h (by omega) (by simpa using hin)]
          · rfl
        refine .inr ⟨hend, ?_, by omega⟩
        rw [linkRecord, linkRecord, hend, hmac]
  · exact .inl ⟨by omega, by omega⟩

-- ---------------------------------------------------------------------------
-- The extension-header walk
-- ---------------------------------------------------------------------------

/-- The walk's reads that matter lie below `n`. With `k` headers left to
step over, the next one of protocol `p` at `i`:

* a header that gives its own length has both bytes captured; or only the
  first, and it announces TCP or UDP, which the transport guard then refuses
  whatever the length;
* a fragment header has its first byte captured, or is the last header the
  loop steps over, whose announced protocol nobody looks at. -/
def Covered (mem : Memory) (n : Int) : Nat → Nat → Nat → Prop
  | 0, _, _ => True
  | k + 1, p, i =>
    if IsSized p then
      ((i + 1 : Int) < n ∧
        Covered mem n k (mem i).toNat (i + ((mem (i + 1)).toNat + 1) * 8)) ∨
      ((i + 1 : Int) = n ∧ k ≠ 0 ∧ (mem i = 6 ∨ mem i = 17))
    else if p = 44 then
      ((i : Int) < n ∧ Covered mem n k (mem i).toNat (i + 8)) ∨ k = 0
    else True

instance Covered.decidable (mem : Memory) (n : Int) :
    (k p i : Nat) → Decidable (Covered mem n k p i)
  | 0, _, _ => .isTrue trivial
  | k + 1, p, i => by
    unfold Covered
    have := Covered.decidable mem n k (mem i).toNat (i + ((mem (i + 1)).toNat + 1) * 8)
    have := Covered.decidable mem n k (mem i).toNat (i + 8)
    infer_instance

/-- A frame whose extension headers are captured as far as they matter. -/
def ChainCaptured (mem : Memory) (n : Int) : Prop :=
  (linkEnd mem).ethtype = 0x86DD → ((linkEnd mem).headerLen + 40 : Int) ≤ n →
    Covered mem n 7 (mem ((linkEnd mem).headerLen + 6)).toNat (40 + (linkEnd mem).headerLen)

instance (mem : Memory) (n : Int) : Decidable (ChainCaptured mem n) :=
  inferInstanceAs (Decidable (_ → _ → _))

/-- A walk to a TCP or UDP header that starts behind the captured bytes. -/
def Past (n : Int) (w : Int × Nat) : Prop := (w.1 = 6 ∨ w.1 = 17) ∧ n < w.2

theorem fillTransport_past {node : FullInternetPacket} {w : Int × Nat} (h : Past n w) :
    (fillTransport n (node.walked w)).eval mem = none := by
  obtain ⟨h6 | h17, hn⟩ := h
  · rw [fillTransport_tcp mem h6, if_pos]
    simp only [FullInternetPacket.walked, FullInternetPacket.setHeader_totalHeaderLenght]
    omega
  · rw [fillTransport_udp mem h17, if_pos]
    simp only [FullInternetPacket.walked, FullInternetPacket.setHeader_totalHeaderLenght]
    omega

theorem chain_next_tcp_udp (hb : b = 6 ∨ b = 17) (hk : k ≠ 0) (mem : Memory) (i : Nat) :
    chain mem k (UInt8.toNat b) i = (Int.ofNat (UInt8.toNat b), i) := by
  obtain ⟨k, rfl⟩ := Nat.exists_eq_succ_of_ne_zero hk
  rcases hb with rfl | rfl <;> rfl

/-- A covered walk is the same over every memory with the same captured
bytes, or ends behind them both times. -/
theorem covered_chain (h : Covered mem n k p i) (ha : Agree n mem mem') :
    chain mem k p i = chain mem' k p i ∨
      (Past n (chain mem k p i) ∧ Past n (chain mem' k p i)) := by
  induction k generalizing p i with
  | zero => exact .inl rfl
  | succ k ih =>
    unfold Covered at h
    unfold chain
    by_cases hs : IsSized p
    · simp only [hs, ↓reduceIte] at h ⊢
      rcases h with ⟨hi, h⟩ | ⟨hi, hk, hb⟩
      · rw [← ha i (by omega), ← ha (i + 1) (by omega)]
        exact ih h
      · have hb' : mem' i = 6 ∨ mem' i = 17 := by rwa [← ha i (by omega)]
        rw [chain_next_tcp_udp hb hk, chain_next_tcp_udp hb' hk]
        refine .inr ⟨⟨?_, ?_⟩, ⟨?_, ?_⟩⟩
        · rcases hb with hb | hb <;> simp [hb]
        · simp only; omega
        · rcases hb' with hb' | hb' <;> simp [hb']
        · simp only; omega
    · by_cases hf : p = 44
      · simp only [hf, not_isSized_fragment, ↓reduceIte] at h ⊢
        rcases h with ⟨hi, h⟩ | rfl
        · rw [← ha i hi]
          exact ih h
        · exact .inl rfl
      · simp [hs, hf]

/-- The bytes behind the captured ones replaced: `v` at `j`, and 58, the
number of ICMPv6, everywhere else. -/
def patch (mem : Memory) (n : Int) (j : Nat) (v : UInt8) : Memory :=
  fun x => if (x : Int) < n then mem x else if x = j then v else 58

theorem patch_agree (mem : Memory) (n : Int) (j : Nat) (v : UInt8) :
    Agree n mem (patch mem n j v) := fun i hi => by simp [patch, hi]

theorem patch_at (h : n ≤ (j : Int)) : patch mem n j v j = v := by
  simp [patch, Int.not_lt.mpr h]

theorem patch_else (h : n ≤ (x : Int)) (hx : x ≠ j) : patch mem n j v x = 58 := by
  simp [patch, Int.not_lt.mpr h, hx]

/-- A walk whose transport neither `fill_tcp` nor `fill_udp` fills. -/
def Plain (w : Int × Nat) : Prop := w.1 ≠ 6 ∧ w.1 ≠ 17

theorem chain_icmpv6 (mem : Memory) (k i : Nat) :
    (chain mem k 58 i).2 = i ∧ Plain (chain mem k 58 i) := by
  cases k with
  | zero => exact ⟨rfl, by simp [Plain, chain]⟩
  | succ k => exact ⟨rfl, by simp [Plain, chain, IsSized, ipv6Transporte]⟩

theorem ipv6Transporte_plain (h6 : p ≠ 6) (h17 : p ≠ 17) :
    ipv6Transporte p ≠ 6 ∧ ipv6Transporte p ≠ 17 := by
  unfold ipv6Transporte
  repeat' split
  all_goals simp_all

/-- From a header at or behind the end of the captured bytes whose protocol
is not TCP or UDP, the end of the walk moves with the header, and the
transport stays plain. `j` is a patched byte in front of the header. -/
theorem chain_uncaptured (hi : n ≤ (i : Int)) (hj : j < i) (h6 : p ≠ 6) (h17 : p ≠ 17) :
    Plain (chain (patch mem n j v) k p i) ∧
      ∃ d, (chain (patch mem n j v) k p i).2 = i + d ∧
        ∀ (i' : Nat) v', n ≤ (i' : Int) → j < i' →
          (chain (patch mem n j v') k p i').2 = i' + d := by
  cases k with
  | zero => exact ⟨⟨by simp [chain], by simp [chain]⟩, 0, rfl, fun _ _ _ _ => rfl⟩
  | succ k =>
    have next : ∀ (i' : Nat) v', n ≤ (i' : Int) → j < i' →
        patch mem n j v' i' = 58 ∧ patch mem n j v' (i' + 1) = 58 := fun i' v' hn hj =>
      ⟨patch_else hn (by omega), patch_else (by omega) (by omega)⟩
    unfold chain
    by_cases hs : IsSized p
    · simp only [hs, ↓reduceIte, (next i v hi hj).1, (next i v hi hj).2]
      refine ⟨(chain_icmpv6 ..).2, 472, (chain_icmpv6 ..).1, fun i' v' hn hj' => ?_⟩
      rw [(next i' v' hn hj').1, (next i' v' hn hj').2]
      exact (chain_icmpv6 ..).1
    · by_cases hf : p = 44
      · simp only [hf, not_isSized_fragment, ↓reduceIte, (next i v hi hj).1]
        refine ⟨(chain_icmpv6 ..).2, 8, (chain_icmpv6 ..).1, fun i' v' hn hj' => ?_⟩
        rw [(next i' v' hn hj').1]
        exact (chain_icmpv6 ..).1
      · simp only [hs, hf, ↓reduceIte]
        exact ⟨ipv6Transporte_plain h6 h17, 0, rfl, fun _ _ _ _ => rfl⟩

/-- Where a walk is not covered, two continuations of the captured bytes
end it at different places or with different transports, both plain. -/
theorem uncovered_chain (h : ¬ Covered mem n k p i) :
    ∃ j v w, chain (patch mem n j v) k p i ≠ chain (patch mem n j w) k p i ∧
      Plain (chain (patch mem n j v) k p i) ∧ Plain (chain (patch mem n j w) k p i) := by
  induction k generalizing p i with
  | zero => exact absurd trivial h
  | succ k ih =>
    unfold Covered at h
    unfold chain
    by_cases hs : IsSized p
    · simp only [hs, ↓reduceIte, not_or, not_and] at h ⊢
      by_cases hin : (i + 1 : Int) < n
      · obtain ⟨j, v, w, hne, hv, hw⟩ := ih (h.1 hin)
        have same : ∀ u, patch mem n j u i = mem i ∧ patch mem n j u (i + 1) = mem (i + 1) :=
          fun u => ⟨(patch_agree mem n j u i (by omega)).symm,
            (patch_agree mem n j u (i + 1) (by omega)).symm⟩
        exact ⟨j, v, w, by simpa only [same] using ⟨hne, hv, hw⟩⟩
      · -- the length byte is not captured: lengths 0 and 1 end the walk eight bytes apart
        have hb : ∃ b : UInt8, (∀ u, patch mem n (i + 1) u i = b) ∧
            (k ≠ 0 → b ≠ 6 ∧ b ≠ 17) := by
          by_cases hi : (i : Int) < n
          · refine ⟨mem i, fun u => (patch_agree mem n (i + 1) u i hi).symm, fun hk => ?_⟩
            simpa [not_or] using h.2 (by omega) hk
          · exact ⟨58, fun u => patch_else (by omega) (by omega), fun _ => by decide⟩
        obtain ⟨b, hb, hplain⟩ := hb
        refine ⟨i + 1, 0, 1, ?_⟩
        rw [hb, hb, patch_at (by omega), patch_at (by omega)]
        by_cases hk : k = 0
        · subst hk
          simp [chain, Plain]
        · obtain ⟨h6, h17⟩ := hplain hk
          have h6 : b.toNat ≠ 6 := fun hb6 => h6 (UInt8.toNat_inj.mp hb6)
          have h17 : b.toNat ≠ 17 := fun hb17 => h17 (UInt8.toNat_inj.mp hb17)
          obtain ⟨hp0, d, hd0, hd⟩ := chain_uncaptured (n := n) (j := i + 1) (k := k)
            (v := 0) (i := i + (UInt8.toNat 0 + 1) * 8) (by omega) (by omega) h6 h17
          obtain ⟨hp1, -⟩ := chain_uncaptured (n := n) (j := i + 1) (k := k)
            (v := 1) (i := i + (UInt8.toNat 1 + 1) * 8) (by omega) (by omega) h6 h17
          have hd1 := hd (i + (UInt8.toNat 1 + 1) * 8) 1 (by omega) (by omega)
          refine ⟨fun heq => ?_, hp0, hp1⟩
          have h2 := congrArg Prod.snd heq
          rw [hd0, hd1] at h2
          have e0 : UInt8.toNat 0 = 0 := rfl
          have e1 : UInt8.toNat 1 = 1 := rfl
          omega
    · by_cases hf : p = 44
      · simp only [hf, not_isSized_fragment, ↓reduceIte, not_or, not_and] at h ⊢
        by_cases hin : (i : Int) < n
        · obtain ⟨j, v, w, hne, hv, hw⟩ := ih (h.1 hin)
          have same : ∀ u, patch mem n j u i = mem i := fun u => (patch_agree mem n j u i hin).symm
          exact ⟨j, v, w, by simpa only [same] using ⟨hne, hv, hw⟩⟩
        · -- the announced protocol is not captured: ICMPv6 and ICMP are told apart
          obtain ⟨k, rfl⟩ := Nat.exists_eq_succ_of_ne_zero h.2
          refine ⟨i, 58, 1, ?_⟩
          rw [patch_at (by omega), patch_at (by omega)]
          simp [chain, Plain, IsSized, ipv6Transporte]
      · simp [hs, hf] at h

-- ---------------------------------------------------------------------------
-- All reads
-- ---------------------------------------------------------------------------

theorem chainReads_lt (h : x ∈ chainReads mem k p i) : x < i + 2048 * k := by
  induction k generalizing p i with
  | zero => simp [chainReads] at h
  | succ k ih =>
    have hl := (mem (i + 1)).toNat_lt
    unfold chainReads at h
    split at h
    · simp only [List.mem_cons] at h
      rcases h with rfl | rfl | h
      · omega
      · omega
      · have := ih h
        omega
    · split at h
      · rcases List.mem_cons.mp h with rfl | h
        · omega
        · have := ih h
          omega
      · simp at h

/-- The IPv6 layer reads captured bytes and, in the walk, bytes of the
slot. -/
theorem ipv6Layer_reads {node : FullInternetPacket} {recvlen : Int} {o : Nat}
    (h : x ∈ (ipv6Layer recvlen o node).reads mem) :
    (x : Int) < recvlen ∨ x < 40 + o + 2048 * 7 := by
  unfold ipv6Layer at h
  simp only [Reader.reads_ite, Reader.reads_pure] at h
  split at h
  · simp at h
  · rw [Reader.reads_bind, List.mem_append] at h
    rcases h with h | h
    · unfold fillIpv6 at h
      rw [Reader.reads_bind, Reader.reads_bind, Reader.reads_bind, Reader.reads_bind,
        Reader.reads_bind, ExtLoop.run_reads mem _ 7 (by rfl) (by simp)] at h
      simp only [Reader.reads_byte, Reader.reads_bytes, Reader.reads_pure, List.append_nil,
        List.mem_append, List.mem_singleton, List.mem_range'_1] at h
      rcases h with h | h | h | h | h
      · left; omega
      · left; omega
      · left; omega
      · left; omega
      · exact .inr (chainReads_lt h)
    · exact .inl (fillTransport_reads mem h)

/-- Every index the parser reads lies in the slot, whatever the packet
says. -/
theorem fill_reads_lt {now : Tm} (hn : n ≤ 65535)
    (h : x ∈ (fillFullPacketNode n now).reads mem) : x < 65535 := by
  have hcases := headerLen_cases mem
  unfold fillFullPacketNode at h
  simp only [Reader.reads_ite, Reader.reads_pure] at h
  split at h
  · simp at h
  rename_i h14
  rw [Reader.reads_bind, List.mem_append] at h
  rcases h with h | h
  · simp only [readLink, Reader.reads_bind, Reader.reads_bytes, word16_reads, Reader.reads_pure,
      List.append_nil, List.mem_append, List.mem_range'_1, List.mem_cons, List.not_mem_nil,
      or_false] at h
    omega
  rcases link_reads mem h14 _ h with h | h
  · omega
  rw [Reader.reads_andThen, List.mem_append] at h
  rcases h with h | h
  · unfold internetLayer at h
    simp only [Reader.reads_ite, Reader.reads_pure] at h
    split at h
    · have := ipv4Layer_reads mem h
      omega
    · split at h
      · have := ipv6Layer_reads h
        simp only [frameLink] at this
        omega
      · simp at h
  · generalize (internetLayer n (frameLink mem).ethrHeaderLen
      (nameProtocol (frameLink mem).ethtype (frameLink mem).node)).eval mem = r at h
    cases r <;> simp at h

/-- The extension loop ends within seven iterations from wherever
`fill_ipv6` starts it, and nothing outside the slot is read.

Premise: `recvlen` is a length `recvfrom` can return into the 65535-byte
buffer. -/
theorem parser_in_slot (content : Content) (hn : n ≤ 65535) (now : Tm) :
    (∀ s : ExtLoop, s.condBreakLoop = 1 →
      ∃ k ≤ 7, (∀ j < k, (s.iterated content.memory j).Running) ∧
        ¬ (s.iterated content.memory k).Running ∧
        (ExtLoop.run 7 s).eval content.memory = s.iterated content.memory k) ∧
      ∀ x ∈ (fillFullPacketNode n now).reads content.memory, x < 65535 :=
  ⟨fun s hs => s.run_exits content.memory 7 (by omega), fun _ hx => fill_reads_lt hn hx⟩

/-- Hop-by-hop options of the greatest length, one behind the other. -/
def hopsFrame : Content := fun i =>
  if i.val = 12 then 0x86
  else if i.val = 13 then 0xDD
  else if i.val % 2 = 0 then 0
  else 255

/-- The loop takes its seven iterations, to index 14390. -/
theorem parser_in_slot_hopsFrame :
    (∀ s : ExtLoop, s.condBreakLoop = 1 →
      ∃ k ≤ 7, (∀ j < k, (s.iterated hopsFrame.memory j).Running) ∧
        ¬ (s.iterated hopsFrame.memory k).Running ∧
        (ExtLoop.run 7 s).eval hopsFrame.memory = s.iterated hopsFrame.memory k) ∧
      (∀ x ∈ (fillFullPacketNode 65535 noon).reads hopsFrame.memory, x < 65535) ∧
      frameChain hopsFrame.memory 14 = (0, 14390) := by
  obtain ⟨hloop, hreads⟩ := parser_in_slot hopsFrame (by decide : (65535 : Int) ≤ 65535) noon
  exact ⟨hloop, hreads, by decide +kernel⟩

-- ---------------------------------------------------------------------------
-- Two runs
-- ---------------------------------------------------------------------------

/-- Two continuations of the same captured bytes parse to the same record
if the walk of an IPv6 frame is covered. -/
theorem sameRecord_of_captured (hc : ChainCaptured mem n) (ha : Agree n mem mem') (now now' : Tm) :
    SameRecord ((fillFullPacketNode n now).eval mem) ((fillFullPacketNode n now').eval mem') := by
  unfold SameRecord
  rcases agree_linkEnd ha with ⟨hl, hl'⟩ | ⟨hend, hrec, hin⟩
  · rw [fill_eval, fill_eval, if_pos hl, if_pos hl']
  have hbase : ∀ name, ipBase mem name = ipBase mem' name := fun name => by simp [ipBase, hrec]
  by_cases h4 : (linkEnd mem).ethtype = 0x0800
  · rw [fill_ipv4 mem h4, fill_ipv4 mem' (hend ▸ h4), ← hend, ← hbase,
      ← agree_eval ha _ fun i hi => ipv4Layer_reads mem hi]
    simp [Function.comp_def]
  by_cases h6 : (linkEnd mem).ethtype = 0x86DD
  · rw [fill_ipv6 mem h6, fill_ipv6 mem' (hend ▸ h6), ← hend, ← hbase,
      ipv6Layer_eval mem (ipBase_protocoloTransporte mem _),
      ipv6Layer_eval mem' (ipBase_protocoloTransporte mem _)]
    split
    · rfl
    rename_i h40
    have hrec6 : ipv6Record mem (linkEnd mem).headerLen (ipBase mem "IPv6") =
        ipv6Record mem' (linkEnd mem).headerLen (ipBase mem "IPv6") := by
      unfold ipv6Record
      rw [agree_map_range' ha (by omega), agree_map_range' ha (by omega), ha _ (by omega)]
    have hcov := hc h6 (by omega)
    unfold frameChain
    rw [← hrec6, ← ha ((linkEnd mem).headerLen + 6) (by omega)]
    rcases covered_chain hcov ha with hw | ⟨hp, hp'⟩
    · rw [← hw, ← agree_eval ha _ fun i hi => fillTransport_reads mem hi]
      simp [Function.comp_def]
    · rw [fillTransport_past hp, fillTransport_past hp']
      rfl
  · rw [fill_nonIp mem h4 h6, fill_nonIp mem' (hend ▸ h4) (hend ▸ h6), ← hend, ← hrec]
    split <;> rfl

theorem fill_plain (h6 : (linkEnd mem).ethtype = 0x86DD)
    (h40 : ((linkEnd mem).headerLen + 40 : Int) ≤ n)
    (hp : Plain (frameChain mem (linkEnd mem).headerLen)) (now : Tm) :
    ∃ r, (fillFullPacketNode n now).eval mem = some r ∧
      (r.protocoloTransporte, r.totalHeaderLenght) = frameChain mem (linkEnd mem).headerLen := by
  rw [fill_ipv6 mem h6, ipv6Layer_eval mem (ipBase_protocoloTransporte mem _), if_neg (by omega),
    fillTransport_other mem hp.1 hp.2]
  exact ⟨_, rfl, rfl⟩

/-- If the walk of an IPv6 frame is not covered, two continuations of its
captured bytes parse to different records. -/
theorem not_sameRecord_of_uncaptured (hc : ¬ ChainCaptured mem n) (now : Tm) :
    ∃ a b, Agree n mem a ∧ Agree n mem b ∧
      ¬ SameRecord ((fillFullPacketNode n now).eval a) ((fillFullPacketNode n now).eval b) := by
  simp only [ChainCaptured, Classical.not_imp] at hc
  obtain ⟨h6, h40, hcov⟩ := hc
  obtain ⟨j, v, w, hne, hpv, hpw⟩ := uncovered_chain hcov
  have patched : ∀ u, Plain (chain (patch mem n j u) 7 (mem ((linkEnd mem).headerLen + 6)).toNat
        (40 + (linkEnd mem).headerLen)) →
      ∃ r, (fillFullPacketNode n now).eval (patch mem n j u) = some r ∧
        (r.protocoloTransporte, r.totalHeaderLenght) = chain (patch mem n j u) 7
          (mem ((linkEnd mem).headerLen + 6)).toNat (40 + (linkEnd mem).headerLen) := by
    intro u hu
    have ha := patch_agree mem n j u
    rcases agree_linkEnd ha with ⟨hl, -⟩ | ⟨hend, -, -⟩
    · omega
    have hchain : frameChain (patch mem n j u) (linkEnd (patch mem n j u)).headerLen =
        chain (patch mem n j u) 7 (mem ((linkEnd mem).headerLen + 6)).toNat
          (40 + (linkEnd mem).headerLen) := by
      rw [← hend, frameChain, ← ha _ (by omega)]
    rw [← hchain] at hu ⊢
    exact fill_plain (hend ▸ h6) (hend ▸ h40) hu now
  obtain ⟨r, hr, hrw⟩ := patched v hpv
  obtain ⟨q, hq, hqw⟩ := patched w hpw
  refine ⟨_, _, patch_agree mem n j v, patch_agree mem n j w, ?_⟩
  rw [hr, hq]
  intro hsame
  have heq : r.untimed = q.untimed := by simpa [SameRecord] using hsame
  apply hne
  rw [← hrw, ← hqw, Prod.mk.injEq]
  exact ⟨congrArg (·.protocoloTransporte) heq, congrArg (·.totalHeaderLenght) heq⟩

def Content.ofMemory (mem : Memory) : Content := fun i => mem i

theorem memory_ofMemory (h : i < 65535) : (Content.ofMemory mem).memory i = mem i := by
  simp [Content.memory, Content.ofMemory, h]

theorem fill_ofMemory (hn : n ≤ 65535) (now : Tm) :
    (fillFullPacketNode n now).eval (Content.ofMemory mem).memory =
      (fillFullPacketNode n now).eval mem :=
  (Reader.eval_congr _ fun _ hi => (memory_ofMemory (fill_reads_lt hn hi)).symm).symm

/-- `fill_fullPacket_node(content, n)` -/
def parse (content : Content) (n : Int) (now : Tm) : Option FullInternetPacket :=
  (fillFullPacketNode n now).eval content.memory

/-- The parser's answer on `n` captured bytes depends on these bytes alone
exactly when the extension-header walk is captured as far as it matters.

Premise: `recvlen` is a length `recvfrom` can return into the 65535-byte
buffer. -/
theorem parse_of_captured_iff (content : Content) (hn : n ≤ 65535) :
    (∀ content' : Content, Agree n content.memory content'.memory → ∀ now now' : Tm,
        SameRecord (parse content n now) (parse content' n now')) ↔
      ChainCaptured content.memory n := by
  constructor
  · intro h
    by_contra hc
    obtain ⟨a, b, ha, hb, hne⟩ := not_sameRecord_of_uncaptured hc noon
    have slot : ∀ m, Agree n content.memory m →
        SameRecord (parse content n noon) ((fillFullPacketNode n noon).eval m) := by
      intro m hm
      have := h (Content.ofMemory m) (fun i hi => by
        rw [hm i hi, memory_ofMemory (by omega)]) noon noon
      unfold parse at this
      rwa [fill_ofMemory hn] at this
    exact hne ((slot a ha).symm.trans (slot b hb))
  · intro hc content' ha now now'
    exact sameRecord_of_captured hc ha now now'

/-- An IPv6 frame of 54 captured bytes whose header announces hop-by-hop
options; the first byte of the options is not captured. -/
def cutFrame (next : UInt8) : Content := fun i =>
  if i.val < 12 then 1
  else if i.val = 12 then 0x86
  else if i.val = 13 then 0xDD
  else if i.val = 54 then next
  else 0

/-- The same 54 captured bytes are refused or parsed as ICMPv6, by what the
heap holds behind them. -/
theorem parse_reads_uncaptured :
    ¬ ∀ (n : Int) (content content' : Content), 0 < n → n ≤ 65535 →
      Agree n content.memory content'.memory → ∀ now now' : Tm,
        SameRecord (parse content n now) (parse content' n now') := by
  intro h
  have agree : Agree 54 (cutFrame 17).memory (cutFrame 58).memory := by
    intro i hi
    simp only [Content.memory, cutFrame]
    split <;> repeat' split
    all_goals first | rfl | omega
  exact absurd (h 54 (cutFrame 17) (cutFrame 58) (by decide) (by decide) agree noon noon)
    (by decide +kernel)

/-- Of a hop-by-hop header in front of TCP only the first byte is captured:
the frame is refused whatever follows. -/
theorem parse_of_captured_cutFrame :
    ChainCaptured (cutFrame 6).memory 55 ∧
      ∀ content' : Content, Agree 55 (cutFrame 6).memory content'.memory → ∀ now now' : Tm,
        SameRecord (parse (cutFrame 6) 55 now) (parse content' 55 now') := by
  have hc : ChainCaptured (cutFrame 6).memory 55 := by decide +kernel
  exact ⟨hc, (parse_of_captured_iff (cutFrame 6) (by decide)).mpr hc⟩

end WireSentinel
