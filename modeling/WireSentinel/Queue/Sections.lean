import WireSentinel.Queue.Pipeline
import WireSentinel.Lib.LiveHeap

/-!
# What a section does

The ways through a critical section, one by one, with what the operations on
the queues returned. What a section keeps is read off them.
-/

namespace WireSentinel

/-- Whether `routine_processing` makes a record of the frame it takes. -/
def Pipeline.records (now : Tm) (p : Pipeline) : Bool :=
  match p.raw.heap.deref p.raw.inicio with
  | .error _ => false
  | .ok (_, item) =>
    match parse item.value.value.content item.value.value.recvlen now with
    | none => false
    | some node => node.macDestino ≠ zeroMac ∧ node.macOrigem ≠ zeroMac

variable {p p' : Pipeline} {hint : Nat} {junk buffer : Content} {bytesRecived : Int} {now : Tm}

-- ---------------------------------------------------------------------------
-- The ways through
-- ---------------------------------------------------------------------------

inductive CaptureSection (hint : Nat) (junk buffer : Content) (bytesRecived : Int) (p : Pipeline) :
    Pipeline → Prop
  | nothing : CaptureSection hint junk buffer bytesRecived p p
  | added (raw : BufferList) (evicted : List (Tagged BufferItem)) (hpos : bytesRecived > 0)
      (hadd : addItem p.ledger.captured.length hint junk buffer bytesRecived p.raw =
        .ok (raw, evicted)) :
      CaptureSection hint junk buffer bytesRecived p { p with
        raw
        ledger := { p.ledger with
          captured := p.ledger.captured ++ [⟨copyBytes junk buffer bytesRecived, bytesRecived⟩]
          evictedRaw := p.ledger.evictedRaw ++ found p.raw.quantity evicted } }

inductive ProcessingSection (hint : Nat) (now : Tm) (p : Pipeline) : Pipeline → Prop
  | nothing (hempty : p.raw.quantity = 0) : ProcessingSection hint now p p
  | rejected (temp : Nat) (item : Node (Tagged BufferItem)) (raw : BufferList)
      (hrecords : p.records now = false)
      (hfree : freeTemp temp { p.raw with inicio := item.next } = .ok raw) :
      ProcessingSection hint now p { p with
        raw
        ledger := { p.ledger with
          rejected := p.ledger.rejected ++ [⟨item.value.frame, now⟩] } }
  | recorded (temp : Nat) (item : Node (Tagged BufferItem)) (raw : BufferList)
      (node : FullInternetPacket) (packets : PacketList)
      (evicted : List (Tagged FullInternetPacket)) (hrecords : p.records now = true)
      (hinsert : insertPacketNodeOnList hint ⟨item.value.frame, node⟩ p.packets =
        .ok (packets, evicted))
      (hfree : freeTemp temp { p.raw with inicio := item.next } = .ok raw) :
      ProcessingSection hint now p { p with
        raw, packets
        ledger := { p.ledger with
          evictedPackets := p.ledger.evictedPackets ++ found p.packets.quantity evicted } }

inductive PayloadSection (p : Pipeline) : Pipeline → Prop
  | nothing (hempty : p.packets.inicio = none) : PayloadSection p p
  | shipped (batch : List (Tagged FullInternetPacket)) (packets : PacketList)
      (hne : p.packets.inicio ≠ none)
      (hwalk : walk p.packets.heap p.packets.heap.length p.packets.inicio = .ok batch)
      (hreset : resetList p.packets = .ok packets) :
      PayloadSection p { p with
        packets, ledger := { p.ledger with shipped := p.ledger.shipped ++ [batch] } }

theorem capture_section (h : p.capture hint junk buffer bytesRecived = .ok p') :
    CaptureSection hint junk buffer bytesRecived p p' := by
  unfold Pipeline.capture at h
  split at h
  · obtain ⟨⟨raw, evicted⟩, hadd, h⟩ := bind_eq_ok.mp h
    cases h
    exact .added raw evicted ‹_› hadd
  · cases h
    exact .nothing

theorem routineProcessing_section (h : p.routineProcessing hint now = .ok p') :
    ProcessingSection hint now p p' := by
  unfold Pipeline.routineProcessing at h
  split at h
  · cases h
    exact .nothing ‹_›
  · obtain ⟨⟨temp, item⟩, hitem, h⟩ := bind_eq_ok.mp h
    dsimp only at h
    split at h
    · rename_i hparse
      obtain ⟨raw, hfree, h⟩ := bind_eq_ok.mp h
      cases h
      exact .rejected temp item raw (by simp [Pipeline.records, hitem, hparse]) hfree
    · rename_i node hparse
      split at h
      · rename_i hzero
        obtain ⟨raw, hfree, h⟩ := bind_eq_ok.mp h
        cases h
        refine .rejected temp item raw ?_ hfree
        simpa [Pipeline.records, hitem, hparse, Classical.or_iff_not_imp_left] using hzero
      · rename_i hzero
        obtain ⟨⟨packets, evicted⟩, hinsert, h⟩ := bind_eq_ok.mp h
        obtain ⟨raw, hfree, h⟩ := bind_eq_ok.mp h
        cases h
        refine .recorded temp item raw _ packets evicted ?_ hinsert hfree
        simpa [Pipeline.records, hitem, hparse] using hzero

theorem routinePayload_section (h : p.routinePayload = .ok p') : PayloadSection p p' := by
  unfold Pipeline.routinePayload at h
  split at h
  · cases h
    exact .nothing ‹_›
  · obtain ⟨batch, hwalk, h⟩ := bind_eq_ok.mp h
    obtain ⟨packets, hreset, h⟩ := bind_eq_ok.mp h
    cases h
    exact .shipped batch packets ‹_› hwalk hreset

-- ---------------------------------------------------------------------------
-- The counters
-- ---------------------------------------------------------------------------

theorem capture_quantity (h : p.capture hint junk buffer bytesRecived = .ok p') :
    p'.packets = p.packets ∧ p'.raw.quantity ≤ p.raw.quantity + 1 := by
  cases capture_section h with
  | nothing => exact ⟨rfl, Int.le_add_one le_rfl⟩
  | added raw evicted hpos hadd =>
    have hcount := (Queue.insertLast_conserves hadd).2
    refine ⟨rfl, ?_⟩
    dsimp only at hcount ⊢
    omega

theorem freeTemp_quantity {q q' : BufferList} {temp : Nat} (h : freeTemp temp q = .ok q') :
    q'.quantity = q.quantity - 1 := by
  obtain ⟨s, hs, h⟩ := bind_eq_ok.mp h
  cases h
  obtain ⟨s₁, hs₁, h⟩ := bind_eq_ok.mp hs
  cases h
  rw [(unlink_conserves hs₁).2]

/-- A frame less in one queue, and a record more in the other if there is
one. -/
theorem processing_quantity (hpos : 0 < p.raw.quantity)
    (h : p.routineProcessing hint now = .ok p') :
    p'.raw.quantity = p.raw.quantity - 1 ∧
      (p.records now = false ∧ p'.packets = p.packets ∨
        p.records now = true ∧ p'.packets.quantity ≤ p.packets.quantity + 1) := by
  cases routineProcessing_section h with
  | nothing hempty => omega
  | rejected temp item raw hrecords hfree =>
    have hquantity := freeTemp_quantity hfree
    exact ⟨hquantity, .inl ⟨hrecords, rfl⟩⟩
  | recorded temp item raw node packets evicted hrecords hinsert hfree =>
    have hquantity := freeTemp_quantity hfree
    have hcount := (Queue.insertLast_conserves hinsert).2
    refine ⟨hquantity, .inr ⟨hrecords, ?_⟩⟩
    dsimp only at hcount ⊢
    omega

theorem routinePayload_quantity (hne : p.packets.inicio ≠ none) (h : p.routinePayload = .ok p') :
    p'.packets.quantity = 0 := by
  cases routinePayload_section h with
  | nothing hempty => exact absurd hempty hne
  | shipped batch packets _ hwalk hreset =>
    obtain ⟨q, hfree, h⟩ := bind_eq_ok.mp hreset
    obtain ⟨s, -, hq⟩ := bind_eq_ok.mp hfree
    cases hq
    cases h
    rfl

-- ---------------------------------------------------------------------------
-- The ledger
-- ---------------------------------------------------------------------------

/-- The records on the list. -/
def Pipeline.listed (p : Pipeline) : List (Tagged FullInternetPacket) :=
  (walk p.packets.heap p.packets.heap.length p.packets.inicio).toOption.getD []

/-- The record is in a batch, or dropped from the full list. -/
def Pipeline.Gone (t : Tagged FullInternetPacket) (p : Pipeline) : Prop :=
  t ∈ p.ledger.shipped.flatten ∨ t.frame ∈ frames p.ledger.evictedPackets

variable {t : Tagged FullInternetPacket} {action : Action}

theorem listed_eq {packets : List (Tagged FullInternetPacket)}
    (h : p.packets.Stores 1000 packets) : p.listed = packets := by
  rw [Pipeline.listed, h.freeAll.1]
  rfl

theorem pipeline_step_gone (h : p.step action = .ok p') (ht : p.Gone t) : p'.Gone t := by
  cases action with
  | capture hint junk buffer bytesRecived =>
    cases capture_section h with
    | nothing => exact ht
    | added => exact ht
  | processing hint now =>
    cases routineProcessing_section h with
    | nothing => exact ht
    | rejected => exact ht
    | recorded =>
      refine ht.imp id fun ht => ?_
      rw [frames_append]
      exact List.mem_append_left _ ht
  | payload =>
    cases routinePayload_section h with
    | nothing => exact ht
    | shipped =>
      refine ht.imp (fun ht => ?_) id
      rw [List.flatten_append]
      exact List.mem_append_left _ ht

/-- A record stays on the list until it is gone. -/
theorem pipeline_step_listed (hi : p.Inv) (h : p.step action = .ok p') (ht : t ∈ p.listed) :
    t ∈ p'.listed ∨ p'.Gone t := by
  cases action with
  | capture hint junk buffer bytesRecived =>
    cases capture_section h with
    | nothing => exact .inl ht
    | added => exact .inl ht
  | processing hint now =>
    cases routineProcessing_section h with
    | nothing => exact .inl ht
    | rejected => exact .inl ht
    | recorded temp item raw node packets evicted hrecords hinsert hfree =>
      obtain ⟨_, listed, -, hlisted, -⟩ := hi
      obtain ⟨q, hq, hstores⟩ := insertPacketNodeOnList_ok hlisted hint ⟨item.value.frame, node⟩
      obtain ⟨rfl, rfl⟩ := Prod.mk.inj (Except.ok.inj (hinsert.symm.trans hq))
      rw [listed_eq hlisted] at ht
      have hkept := (push_perm 1000 ⟨item.value.frame, node⟩ listed).mem_iff.mpr
        (List.mem_append_left _ ht)
      rcases List.mem_append.mp hkept with hmem | hmem
      · left
        rw [Pipeline.listed, hstores.freeAll.1]
        exact hmem
      · refine .inr (.inr ?_)
        rw [frames_append, frames_found]
        exact List.mem_append_right _ (List.mem_map_of_mem hmem)
  | payload =>
    cases routinePayload_section h with
    | nothing => exact .inl ht
    | shipped batch packets hne hwalk hreset =>
      refine .inr (.inl ?_)
      rw [Pipeline.listed, hwalk] at ht
      simp only [List.flatten_append, List.flatten_singleton, List.mem_append]
      exact .inr ht

end WireSentinel
