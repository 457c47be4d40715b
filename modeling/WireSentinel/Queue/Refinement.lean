import WireSentinel.Queue.PacketList

/-!
# The queues are bounded FIFOs

The threads' operations on the two lists, in any order and number, do to the
pointers and counters what `push` and `tail` do to a list of at most 1000
values: `queues_refine`. No operation faults, so the eviction loops end and
no pointer to a freed node is followed.
-/

namespace WireSentinel

/-- The part of a critical section that works on a list. -/
inductive QueueOp where
  | addItem (frame hint : Nat) (junk buffer : Content) (recvBytes : Int)
  | takeItem
  | insertPacket (hint : Nat) (pkt : Tagged FullInternetPacket)
  | takeList

-- ---------------------------------------------------------------------------
-- The lists in memory
-- ---------------------------------------------------------------------------

/-- `nmbr_itens`, `nmbr_packets` and the four ends of the lists. -/
structure Queues where
  raw : BufferList := {}
  packets : PacketList := {}

/-- What the parser thread does to the raw queue: move the head on and free
the node it led to. It waits while the counter is 0. -/
def takeItem (q : BufferList) : Except Fault BufferList :=
  if q.quantity = 0 then .ok q
  else do
    let (temp, item) ← q.heap.deref q.inicio
    freeTemp temp { q with inicio := item.next }

/-- What the payload thread does to the packet queue. It waits while the
head is `NULL`. -/
def takeList (q : PacketList) : Except Fault PacketList :=
  if q.inicio = none then .ok q else resetList q

def Queues.step (s : Queues) : QueueOp → Except Fault Queues
  | .addItem frame hint junk buffer recvBytes => do
    let (raw, _) ← addItem frame hint junk buffer recvBytes s.raw
    pure { s with raw }
  | .takeItem => do
    let raw ← takeItem s.raw
    pure { s with raw }
  | .insertPacket hint pkt => do
    let (packets, _) ← insertPacketNodeOnList hint pkt s.packets
    pure { s with packets }
  | .takeList => do
    let packets ← takeList s.packets
    pure { s with packets }

-- ---------------------------------------------------------------------------
-- The lists as they are meant
-- ---------------------------------------------------------------------------

structure Fifos where
  raw : List (Tagged BufferItem) := []
  packets : List (Tagged FullInternetPacket) := []

def Fifos.step (a : Fifos) : QueueOp → Fifos
  | .addItem frame _ junk buffer recvBytes =>
    { a with raw := push 1000 ⟨frame, copyBytes junk buffer recvBytes, recvBytes⟩ a.raw }
  | .takeItem => { a with raw := a.raw.tail }
  | .insertPacket _ pkt => { a with packets := push 1000 pkt a.packets }
  | .takeList => { a with packets := [] }

-- ---------------------------------------------------------------------------
-- Refinement
-- ---------------------------------------------------------------------------

theorem addItem_ok {q : BufferList} (h : q.Stores 1000 vs) (frame hint : Nat)
    (junk buffer : Content) (recvBytes : Int) :
    ∃ q', addItem frame hint junk buffer recvBytes q = .ok (q', dropped 1000 vs) ∧
      q'.Stores 1000 (push 1000 ⟨frame, copyBytes junk buffer recvBytes, recvBytes⟩ vs) :=
  h.insertLast (by decide) hint _

theorem insertPacketNodeOnList_ok {q : PacketList} (h : q.Stores 1000 vs) (hint : Nat)
    (pkt : Tagged FullInternetPacket) :
    ∃ q', insertPacketNodeOnList hint pkt q = .ok (q', dropped 1000 vs) ∧
      q'.Stores 1000 (push 1000 pkt vs) :=
  h.insertLast (by decide) hint pkt

theorem freeTemp_ok {q : BufferList} (h : q.Stores 1000 (v :: vs)) :
    ∃ temp next q', q.heap.deref q.inicio = .ok (temp, ⟨v, next⟩) ∧
      freeTemp temp { q with inicio := next } = .ok q' ∧ q'.Stores 1000 vs := by
  obtain ⟨temp, next, s, hderef, hfree, hstores⟩ := h.removeFirst
  refine ⟨temp, next, _, hderef, ?_, hstores⟩
  rw [freeTemp, freeItem, hfree]
  rfl

theorem takeItem_ok {q : BufferList} (h : q.Stores 1000 vs) :
    ∃ q', takeItem q = .ok q' ∧ q'.Stores 1000 vs.tail := by
  cases vs with
  | nil => exact ⟨q, by simp [takeItem, h.quantity_eq_zero_iff.mpr rfl], h⟩
  | cons v vs =>
    obtain ⟨temp, next, q', hderef, hfree, hstores⟩ := freeTemp_ok h
    refine ⟨q', ?_, hstores⟩
    rw [takeItem, if_neg (by simp [h.quantity_eq_zero_iff]), hderef]
    exact hfree

theorem resetList_ok {q : PacketList} (h : q.Stores 1000 vs) :
    ∃ q', resetList q = .ok q' ∧ q'.Stores 1000 [] := by
  obtain ⟨-, s, hs, -⟩ := h.freeAll
  refine ⟨{ heap := s.heap, quantity := 0 }, ?_, [], ⟨rfl, by simp, rfl, by simp, by simp⟩, rfl⟩
  rw [resetList, freeList, hs]
  rfl

theorem takeList_ok {q : PacketList} (h : q.Stores 1000 vs) :
    ∃ q', takeList q = .ok q' ∧ q'.Stores 1000 [] := by
  by_cases hnone : q.inicio = none
  · obtain rfl := h.inicio_eq_none_iff.mp hnone
    exact ⟨q, by simp [takeList, hnone], h⟩
  · simpa [takeList, hnone] using resetList_ok h

structure Queues.Refines (s : Queues) (a : Fifos) : Prop where
  raw : s.raw.Stores 1000 a.raw
  packets : s.packets.Stores 1000 a.packets

theorem step_refines {s : Queues} (h : s.Refines a) (op : QueueOp) :
    ∃ s', s.step op = .ok s' ∧ s'.Refines (a.step op) := by
  cases op with
  | addItem frame hint junk buffer recvBytes =>
    obtain ⟨raw, hraw, hstores⟩ := addItem_ok h.raw frame hint junk buffer recvBytes
    exact ⟨{ s with raw }, by rw [Queues.step, hraw]; rfl, hstores, h.packets⟩
  | takeItem =>
    obtain ⟨raw, hraw, hstores⟩ := takeItem_ok h.raw
    exact ⟨{ s with raw }, by rw [Queues.step, hraw]; rfl, hstores, h.packets⟩
  | insertPacket hint pkt =>
    obtain ⟨packets, hpackets, hstores⟩ := insertPacketNodeOnList_ok h.packets hint pkt
    exact ⟨{ s with packets }, by rw [Queues.step, hpackets]; rfl, h.raw, hstores⟩
  | takeList =>
    obtain ⟨packets, hpackets, hstores⟩ := takeList_ok h.packets
    exact ⟨{ s with packets }, by rw [Queues.step, hpackets]; rfl, h.raw, hstores⟩

theorem run_refines {s : Queues} (h : s.Refines a) (ops : List QueueOp) :
    ∃ s', ops.foldlM Queues.step s = .ok s' ∧ s'.Refines (ops.foldl Fifos.step a) := by
  induction ops generalizing s a with
  | nil => exact ⟨s, rfl, h⟩
  | cons op ops ih =>
    obtain ⟨s₁, hs₁, h₁⟩ := step_refines h op
    obtain ⟨s', hs', h'⟩ := ih h₁
    refine ⟨s', ?_, h'⟩
    rw [List.foldlM_cons, hs₁]
    exact hs'

/-- Every run of list operations from the empty lists goes through without a
fault, and leaves lists whose pointers and counters stand for what the
bounded FIFOs hold. -/
theorem queues_refine (ops : List QueueOp) :
    ∃ s, ops.foldlM Queues.step {} = .ok s ∧ s.Refines (ops.foldl Fifos.step {}) ∧
      (s.raw.inicio = none ↔ s.raw.quantity = 0) ∧
      (s.packets.inicio = none ↔ s.packets.quantity = 0) := by
  obtain ⟨s, hs, h⟩ := run_refines (s := {}) (a := {})
    ⟨Queue.stores_empty _ _, Queue.stores_empty _ _⟩ ops
  refine ⟨s, hs, h, ?_, ?_⟩
  · rw [h.raw.inicio_eq_none_iff, h.raw.quantity_eq_zero_iff]
  · rw [h.packets.inicio_eq_none_iff, h.packets.quantity_eq_zero_iff]

end WireSentinel
