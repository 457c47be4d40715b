import WireSentinel.Queue.Refinement
import WireSentinel.Packet.Captured

/-!
# From the capture to the payload

The critical sections of the three threads of `main.c`, in any order. A
ledger on the side notes what becomes of each captured frame;
`pipeline_accounts` says that the entries add up, and that what is sent is
sent in capture order.
-/

namespace WireSentinel

-- ---------------------------------------------------------------------------
-- The threads
-- ---------------------------------------------------------------------------

/-- What became of the captured frames, oldest first. No function of the
client reads it. -/
structure Ledger where
  captured : List BufferItem := []
  /-- With the time of the attempt to parse them. -/
  rejected : List (Tagged Tm) := []
  /-- With the counter the eviction found. -/
  evictedRaw : List (Tagged Int) := []
  evictedPackets : List (Tagged Int) := []
  shipped : List (List (Tagged FullInternetPacket)) := []

/-- The entries for values dropped while the counter was `k`. -/
def found (k : Int) (ts : List (Tagged α)) : List (Tagged Int) := ts.map fun t => ⟨t.frame, k⟩

structure Pipeline extends Queues where
  ledger : Ledger := {}

def zeroMac : CString := "00:00:00:00:00:00".toList

/-- The capture thread's section: `recvfrom` has filled `buffer`. -/
def Pipeline.capture (hint : Nat) (junk buffer : Content) (bytesRecived : Int) (s : Pipeline) :
    Except Fault Pipeline :=
  if bytesRecived > 0 then do
    let frame := s.ledger.captured.length
    let (raw, evicted) ← addItem frame hint junk buffer bytesRecived s.raw
    pure { s with
      raw
      ledger := { s.ledger with
        captured := s.ledger.captured ++ [⟨copyBytes junk buffer bytesRecived, bytesRecived⟩]
        evictedRaw := s.ledger.evictedRaw ++ found s.raw.quantity evicted } }
  else .ok s

/-- The section of `routine_processing`, one turn of its loop. -/
def Pipeline.routineProcessing (hint : Nat) (now : Tm) (s : Pipeline) : Except Fault Pipeline :=
  if s.raw.quantity = 0 then .ok s
  else do
    let (temp, item) ← s.raw.heap.deref s.raw.inicio
    let raw := { s.raw with inicio := item.next }
    let frame := item.value.frame
    match parse item.value.value.content item.value.value.recvlen now with
    | none =>
      let raw ← freeTemp temp raw
      pure { s with
        raw, ledger := { s.ledger with rejected := s.ledger.rejected ++ [⟨frame, now⟩] } }
    | some node =>
      if node.macDestino = zeroMac ∨ node.macOrigem = zeroMac then
        let raw ← freeTemp temp raw
        pure { s with
          raw, ledger := { s.ledger with rejected := s.ledger.rejected ++ [⟨frame, now⟩] } }
      else
        let node := { node with tamanhoTotalPacket := item.value.value.recvlen }
        let (packets, evicted) ← insertPacketNodeOnList hint ⟨frame, node⟩ s.packets
        let raw ← freeTemp temp raw
        pure { s with
          raw, packets
          ledger := { s.ledger with
            evictedPackets := s.ledger.evictedPackets ++ found s.packets.quantity evicted } }

/-- The section of `routine_payload`: the list is walked to be written out,
and freed. -/
def Pipeline.routinePayload (s : Pipeline) : Except Fault Pipeline :=
  if s.packets.inicio = none then .ok s
  else do
    let batch ← walk s.packets.heap s.packets.heap.length s.packets.inicio
    let packets ← resetList s.packets
    pure { s with packets, ledger := { s.ledger with shipped := s.ledger.shipped ++ [batch] } }

inductive Action where
  | capture (hint : Nat) (junk buffer : Content) (bytesRecived : Int)
  | processing (hint : Nat) (now : Tm)
  | payload

/-- The frame that an action captures, as it is kept. -/
def Action.captured : Action → List BufferItem
  | .capture _ junk buffer bytesRecived =>
    if bytesRecived > 0 then [⟨copyBytes junk buffer bytesRecived, bytesRecived⟩] else []
  | .processing .. | .payload => []

def Pipeline.step (s : Pipeline) : Action → Except Fault Pipeline
  | .capture hint junk buffer bytesRecived => s.capture hint junk buffer bytesRecived
  | .processing hint now => s.routineProcessing hint now
  | .payload => s.routinePayload

-- ---------------------------------------------------------------------------
-- The accounts
-- ---------------------------------------------------------------------------

/-- The frame was parsed at `now` to `NULL`, or to a record with a zero
MAC. -/
def BufferItem.Rejected (item : BufferItem) (now : Tm) : Prop :=
  ∀ node ∈ parse item.content item.recvlen now, node.macDestino = zeroMac ∨ node.macOrigem = zeroMac

/-- The frame was parsed to the record `r`. -/
def BufferItem.Recorded (item : BufferItem) (r : FullInternetPacket) : Prop :=
  r.macDestino ≠ zeroMac ∧ r.macOrigem ≠ zeroMac ∧
    ∃ now, ∃ node ∈ parse item.content item.recvlen now,
      r = { node with tamanhoTotalPacket := item.recvlen }

def frames (ts : List (Tagged α)) : List Nat := ts.map Tagged.frame

@[simp] theorem frames_nil : frames ([] : List (Tagged α)) = [] := rfl

@[simp] theorem frames_append (ts us : List (Tagged α)) :
    frames (ts ++ us) = frames ts ++ frames us := List.map_append

@[simp] theorem frames_cons (t : Tagged α) (ts : List (Tagged α)) :
    frames (t :: ts) = t.frame :: frames ts := rfl

/-- The records on their way, in the order they are sent in. -/
def Ledger.sent (l : Ledger) (packets : List (Tagged FullInternetPacket)) :
    List (Tagged FullInternetPacket) := l.shipped.flatten ++ packets

/-- The accounts of a pipeline whose queues hold `raw` and `packets`. -/
structure Ledger.Accounts (l : Ledger) (raw : List (Tagged BufferItem))
    (packets : List (Tagged FullInternetPacket)) : Prop where
  /-- What is sent, queued to be sent and still to be parsed is in capture
  order. -/
  order : (frames (l.sent packets) ++ frames raw).Sublist (List.range l.captured.length)
  sent : ∀ t ∈ l.sent packets, ∃ item ∈ l.captured[t.frame]?, item.Recorded t.value
  queued : ∀ t ∈ raw, l.captured[t.frame]? = some t.value
  rejected : ∀ t ∈ l.rejected, ∃ item ∈ l.captured[t.frame]?, item.Rejected t.value
  evictedRaw : ∀ t ∈ l.evictedRaw, t.value = 1000
  evictedPackets : ∀ t ∈ l.evictedPackets, t.value = 1000
  /-- Each frame is in one class, once. -/
  once : (frames raw ++ frames l.rejected ++ frames l.evictedRaw ++ frames l.evictedPackets ++
    frames packets ++ frames l.shipped.flatten).Perm (List.range l.captured.length)

def Pipeline.Inv (s : Pipeline) : Prop :=
  ∃ raw packets, s.raw.Stores 1000 raw ∧ s.packets.Stores 1000 packets ∧
    s.ledger.Accounts raw packets

-- ---------------------------------------------------------------------------
-- Each section keeps them
-- ---------------------------------------------------------------------------

theorem push_sublist (capacity : Nat) (v : α) (vs : List α) :
    (push capacity v vs).Sublist (vs ++ [v]) := by
  unfold push
  split
  · exact List.Sublist.refl _
  · exact (List.tail_sublist vs).append (List.Sublist.refl _)

theorem push_perm (capacity : Nat) (v : α) (vs : List α) :
    (push capacity v vs ++ dropped capacity vs).Perm (vs ++ [v]) := by
  unfold push dropped
  split
  · simp
  · cases vs with
    | nil => simp
    | cons w ws =>
      have hcomm : (ws ++ [v] ++ [w]).Perm ([w] ++ (ws ++ [v])) := List.perm_append_comm
      simpa using hcomm

theorem frames_push_perm (capacity : Nat) (t : Tagged α) (ts : List (Tagged α)) :
    (frames (push capacity t ts) ++ frames (dropped capacity ts)).Perm
      (frames ts ++ [t.frame]) := by
  simpa [frames] using (push_perm capacity t ts).map Tagged.frame

theorem mem_push (h : w ∈ push capacity v vs) : w ∈ vs ∨ w = v := by
  simpa using (push_sublist capacity v vs).mem h

theorem quantity_of_dropped {q : Queue (Tagged α)} (h : q.Stores 1000 vs) :
    ∀ t ∈ found q.quantity (dropped 1000 vs), t.value = 1000 := by
  intro t ht
  obtain ⟨u, hu, rfl⟩ := List.mem_map.mp ht
  have hle := h.le
  have hquant := h.quantity_eq
  unfold dropped at hu
  split at hu
  · simp at hu
  · simp only
    omega

@[simp] theorem frames_found (k : Int) (ts : List (Tagged α)) :
    frames (found k ts) = frames ts := by
  simp [frames, found, Function.comp_def]

namespace Ledger

variable {l : Ledger} {raw : List (Tagged BufferItem)}
  {packets : List (Tagged FullInternetPacket)} {k : Int}

theorem Accounts.capture (ha : l.Accounts raw packets) (item : BufferItem)
    (hk : ∀ t ∈ found k (dropped 1000 raw), t.value = 1000) :
    Accounts { l with
        captured := l.captured ++ [item]
        evictedRaw := l.evictedRaw ++ found k (dropped 1000 raw) }
      (push 1000 ⟨l.captured.length, item⟩ raw) packets := by
  have hkeep : ∀ {i : Nat} {x}, l.captured[i]? = some x → (l.captured ++ [item])[i]? = some x := by
    intro i x hi
    rw [List.getElem?_append_left (List.getElem?_eq_some_iff.mp hi).1, hi]
  constructor
  · have hpush := (push_sublist 1000 ⟨l.captured.length, item⟩ raw).map Tagged.frame
    refine ((List.Sublist.refl _).append hpush).trans ?_
    rw [List.length_append, List.length_singleton, List.range_succ, List.map_append,
      ← List.append_assoc]
    exact ha.order.append (List.Sublist.refl _)
  · intro t ht
    obtain ⟨item, hitem, hrec⟩ := ha.sent t ht
    exact ⟨item, hkeep hitem, hrec⟩
  · intro t ht
    rcases mem_push ht with ht | rfl
    · exact hkeep (ha.queued t ht)
    · simp
  · intro t ht
    obtain ⟨item, hitem, hrej⟩ := ha.rejected t ht
    exact ⟨item, hkeep hitem, hrej⟩
  · intro t ht
    exact (List.mem_append.mp ht).elim (ha.evictedRaw t) (hk t)
  · exact ha.evictedPackets
  · rw [List.perm_iff_count]
    intro a
    have honce := ha.once.count_eq a
    have hpush := (frames_push_perm 1000 ⟨l.captured.length, item⟩ raw).count_eq a
    simp only [frames_append, frames_found, List.count_append, List.length_append,
      List.length_singleton, List.range_succ] at honce hpush ⊢
    omega

theorem Accounts.reject (ha : l.Accounts (t :: raw) packets) (hr : t.value.Rejected now) :
    Accounts { l with rejected := l.rejected ++ [⟨t.frame, now⟩] } raw packets := by
  constructor
  · refine List.Sublist.trans ?_ ha.order
    exact (List.Sublist.refl _).append (List.sublist_cons_self _ _)
  · exact ha.sent
  · exact fun u hu => ha.queued u (List.mem_cons_of_mem _ hu)
  · intro u hu
    rcases List.mem_append.mp hu with hu | hu
    · exact ha.rejected u hu
    · obtain rfl := List.mem_singleton.mp hu
      exact ⟨t.value, ha.queued t List.mem_cons_self, hr⟩
  · exact ha.evictedRaw
  · exact ha.evictedPackets
  · rw [List.perm_iff_count]
    intro a
    have honce := ha.once.count_eq a
    simp only [frames_append, frames_cons, frames_nil, List.count_append, List.count_cons,
      List.count_nil] at honce ⊢
    omega

theorem Accounts.insert (ha : l.Accounts (t :: raw) packets) {r : FullInternetPacket}
    (hr : t.value.Recorded r) (hk : ∀ t ∈ found k (dropped 1000 packets), t.value = 1000) :
    Accounts { l with evictedPackets := l.evictedPackets ++ found k (dropped 1000 packets) } raw
      (push 1000 ⟨t.frame, r⟩ packets) := by
  constructor
  · refine List.Sublist.trans ?_ ha.order
    have hpush := (push_sublist 1000 ⟨t.frame, r⟩ packets).map Tagged.frame
    have hsent := (List.Sublist.refl (frames l.shipped.flatten)).append hpush
    simpa [Ledger.sent, frames, List.append_assoc] using
      hsent.append (List.Sublist.refl (frames raw))
  · intro u hu
    rcases List.mem_append.mp hu with hu | hu
    · exact ha.sent u (List.mem_append.mpr (.inl hu))
    · rcases mem_push hu with hu | rfl
      · exact ha.sent u (List.mem_append.mpr (.inr hu))
      · exact ⟨t.value, ha.queued t List.mem_cons_self, hr⟩
  · exact fun u hu => ha.queued u (List.mem_cons_of_mem _ hu)
  · exact ha.rejected
  · exact ha.evictedRaw
  · intro u hu
    exact (List.mem_append.mp hu).elim (ha.evictedPackets u) (hk u)
  · rw [List.perm_iff_count]
    intro a
    have honce := ha.once.count_eq a
    have hpush := (frames_push_perm 1000 ⟨t.frame, r⟩ packets).count_eq a
    simp only [frames_append, frames_found, frames_cons, List.count_append, List.count_cons,
      List.count_nil] at honce hpush ⊢
    omega

theorem Accounts.ship (ha : l.Accounts raw packets) :
    Accounts { l with shipped := l.shipped ++ [packets] } raw [] := by
  have hsent : Ledger.sent { l with shipped := l.shipped ++ [packets] } [] = l.sent packets := by
    simp [Ledger.sent]
  refine ⟨?_, ?_, ha.queued, ha.rejected, ha.evictedRaw, ha.evictedPackets, ?_⟩
  · rw [hsent]
    exact ha.order
  · rw [hsent]
    exact ha.sent
  · refine List.Perm.trans ?_ ha.once
    rw [List.perm_iff_count]
    intro a
    simp only [List.flatten_append, List.flatten_singleton, frames_append, frames_nil,
      List.count_append, List.count_nil]
    omega

end Ledger

variable {s : Pipeline}

theorem capture_inv (h : s.Inv) (hint : Nat) (junk buffer : Content) (bytesRecived : Int) :
    ∃ s', s.capture hint junk buffer bytesRecived = .ok s' ∧ s'.Inv ∧
      s'.ledger.captured = s.ledger.captured ++
        (Action.capture hint junk buffer bytesRecived).captured := by
  unfold Pipeline.capture
  by_cases hpos : bytesRecived > 0
  · obtain ⟨raw, packets, hraw, hpackets, ha⟩ := h
    obtain ⟨q, hq, hstores⟩ :=
      addItem_ok hraw s.ledger.captured.length hint junk buffer bytesRecived
    simp only [hpos, ↓reduceIte, hq]
    exact ⟨_, rfl, ⟨_, packets, hstores, hpackets, ha.capture _ (quantity_of_dropped hraw)⟩,
      by simp [Action.captured, hpos]⟩
  · exact ⟨s, by simp [hpos], h, by simp [Action.captured, hpos]⟩

theorem routineProcessing_inv (h : s.Inv) (hint : Nat) (now : Tm) :
    ∃ s', s.routineProcessing hint now = .ok s' ∧ s'.Inv ∧
      s'.ledger.captured = s.ledger.captured := by
  obtain ⟨raw, packets, hraw, hpackets, ha⟩ := h
  unfold Pipeline.routineProcessing
  cases raw with
  | nil =>
    exact ⟨s, by simp [hraw.quantity_eq_zero_iff.mpr rfl], ⟨[], packets, hraw, hpackets, ha⟩, rfl⟩
  | cons t raw =>
    obtain ⟨temp, next, q, hderef, hfree, hstores⟩ := freeTemp_ok hraw
    simp only [if_neg (mt hraw.quantity_eq_zero_iff.mp (List.cons_ne_nil _ _)), hderef, bind,
      Except.bind]
    split
    · rename_i hparse
      rw [hfree]
      refine ⟨_, rfl, ⟨raw, packets, hstores, hpackets, ha.reject ?_⟩, rfl⟩
      simp [BufferItem.Rejected, hparse]
    · rename_i node hparse
      split
      · rename_i hzero
        rw [hfree]
        refine ⟨_, rfl, ⟨raw, packets, hstores, hpackets, ha.reject ?_⟩, rfl⟩
        simpa [BufferItem.Rejected, hparse] using hzero
      · rename_i hzero
        obtain ⟨p, hp, hpstores⟩ := insertPacketNodeOnList_ok hpackets hint
          ⟨t.frame, { node with tamanhoTotalPacket := t.value.recvlen }⟩
        simp only [hp, hfree]
        refine ⟨_, rfl, ⟨raw, _, hstores, hpstores,
          ha.insert ?_ (quantity_of_dropped hpackets)⟩, rfl⟩
        exact ⟨fun h => hzero (.inl h), fun h => hzero (.inr h), now, node, hparse, rfl⟩

theorem routinePayload_inv (h : s.Inv) :
    ∃ s', s.routinePayload = .ok s' ∧ s'.Inv ∧ s'.ledger.captured = s.ledger.captured := by
  unfold Pipeline.routinePayload
  by_cases hnone : s.packets.inicio = none
  · exact ⟨s, by simp [hnone], h, rfl⟩
  · obtain ⟨raw, packets, hraw, hpackets, ha⟩ := h
    obtain ⟨q, hq, hstores⟩ := resetList_ok hpackets
    simp only [hnone, ↓reduceIte, hpackets.freeAll.1, hq]
    exact ⟨_, rfl, ⟨raw, [], hraw, hstores, ha.ship⟩, rfl⟩

theorem pipeline_step_inv (h : s.Inv) (action : Action) :
    ∃ s', s.step action = .ok s' ∧ s'.Inv ∧
      s'.ledger.captured = s.ledger.captured ++ action.captured := by
  cases action with
  | capture hint junk buffer bytesRecived => exact capture_inv h hint junk buffer bytesRecived
  | processing hint now =>
    obtain ⟨s', hs', hinv, hcaptured⟩ := routineProcessing_inv h hint now
    exact ⟨s', hs', hinv, by simpa [Action.captured] using hcaptured⟩
  | payload =>
    obtain ⟨s', hs', hinv, hcaptured⟩ := routinePayload_inv h
    exact ⟨s', hs', hinv, by simpa [Action.captured] using hcaptured⟩

theorem pipeline_run_inv (h : s.Inv) (actions : List Action) :
    ∃ s', actions.foldlM Pipeline.step s = .ok s' ∧ s'.Inv ∧
      s'.ledger.captured = s.ledger.captured ++ actions.flatMap Action.captured := by
  induction actions generalizing s with
  | nil => exact ⟨s, rfl, h, by simp⟩
  | cons action actions ih =>
    obtain ⟨s₁, hs₁, h₁, hcaptured₁⟩ := pipeline_step_inv h action
    obtain ⟨s', hs', h', hcaptured⟩ := ih h₁
    refine ⟨s', ?_, h', ?_⟩
    · rw [List.foldlM_cons, hs₁]
      exact hs'
    · rw [hcaptured, hcaptured₁, List.flatMap_cons, List.append_assoc]

theorem pipeline_start : Pipeline.Inv {} := by
  refine ⟨[], [], Queue.stores_empty _ _, Queue.stores_empty _ _, ?_⟩
  exact ⟨by simp [Ledger.sent], by simp [Ledger.sent], by simp, by simp, by simp, by simp, by simp⟩

/-- Whatever is captured and however the threads take turns, no section
faults, and the accounts of all captured frames are in order. -/
theorem pipeline_accounts (actions : List Action) :
    ∃ s, actions.foldlM Pipeline.step {} = .ok s ∧
      s.ledger.captured = actions.flatMap Action.captured ∧
      ∃ raw packets, s.raw.Stores 1000 raw ∧ s.packets.Stores 1000 packets ∧
        s.ledger.Accounts raw packets := by
  obtain ⟨s, hs, hinv, hcaptured⟩ := pipeline_run_inv pipeline_start actions
  exact ⟨s, hs, by simpa using hcaptured, hinv⟩

end WireSentinel
