import WireSentinel.Lib.LinkedQueue

/-!
# Live nodes

A conservation law for linked queues: what is allocated is live until it is
freed. It needs nothing of the lists' shape. Where a queue also stores its
values, counting shows that the live nodes are the reachable ones, so that
none is lost: `Stores.live_iff`.
-/

namespace WireSentinel

variable {heap heap' : Heap α} {s s' : Front α} {capacity : Nat}

namespace Heap

def live (heap : Heap α) : Nat := heap.countP Option.isSome

/-- The addresses of the live nodes. -/
def addresses (heap : Heap α) : List Nat :=
  (List.range heap.length).filter fun p => (heap.get p).isSome

theorem mem_addresses : p ∈ heap.addresses ↔ ∃ node, heap.get p = some node := by
  simp only [addresses, List.mem_filter, List.mem_range, Option.isSome_iff_exists]
  exact and_iff_right_of_imp fun ⟨node, h⟩ => by
    by_contra hp
    simp [get, List.getElem?_eq_none (Nat.le_of_not_lt hp)] at h

theorem addresses_length (heap : Heap α) : heap.addresses.length = heap.live := by
  have hmap : (List.range heap.length).map (fun p => (heap.get p).isSome) =
      heap.map Option.isSome := by
    refine List.ext_getElem (by simp) fun p hp hp' => ?_
    have hlt : p < heap.length := by simpa using hp'
    simp [get, List.getElem?_eq_getElem hlt]
  have hcount := congrArg (List.countP id) hmap
  rw [List.countP_map, List.countP_map] at hcount
  rw [addresses, ← List.countP_eq_length_filter, live]
  exact hcount

theorem live_set (h : heap.get p = some node) (cell : Option (Node α)) :
    live (heap.set p cell) + 1 = heap.live + if cell.isSome then 1 else 0 := by
  have hp := lt_length_of_get h
  have hcell : heap[p] = some node := by
    simpa [get, List.getElem?_eq_getElem hp] using h
  have hpos : 0 < heap.countP Option.isSome :=
    List.countP_pos_iff.mpr ⟨heap[p], List.getElem_mem hp, by simp [hcell]⟩
  rw [live, live, List.countP_set hp, hcell]
  simp only [Option.isSome_some, ↓reduceIte]
  omega

theorem live_free (h : heap.get p = some node) : (heap.free p).live + 1 = heap.live := by
  rw [free, live_set h]
  rfl

theorem live_malloc (hint : Nat) (node : Node α) :
    (heap.malloc hint node).1.live = heap.live + 1 := by
  unfold malloc
  split
  · rename_i hfreed
    obtain ⟨hlt, hnone⟩ := List.getElem?_eq_some_iff.mp hfreed
    rw [live, List.countP_set hlt, hnone]
    rfl
  · simp [live, List.countP_append]

theorem deref_get {pointer : Option Nat} (h : heap.deref pointer = .ok (p, node)) :
    heap.get p = some node := by
  unfold deref at h
  split at h
  · cases h
  · split at h <;> cases h
    assumption

theorem live_setNext {pointer next : Option Nat} (h : heap.setNext pointer next = .ok heap') :
    heap'.live = heap.live := by
  obtain ⟨⟨p, node⟩, hderef, h⟩ := bind_eq_ok.mp h
  cases h
  exact Nat.succ.inj (live_set (deref_get hderef) _)

end Heap

-- ---------------------------------------------------------------------------
-- What is freed is not live any more
-- ---------------------------------------------------------------------------

/-- Between two states of a front, as much is freed as stops to be live. -/
def Front.Conserves (s s' : Front α) : Prop :=
  s'.heap.live + s'.freed.length = s.heap.live + s.freed.length

/-- And the counter keeps up. -/
def Front.Counts (s s' : Front α) : Prop :=
  s'.quantity + s'.freed.length = s.quantity + s.freed.length

theorem unlink_conserves (h : unlink s = .ok s') :
    s.Conserves s' ∧ s'.quantity = s.quantity := by
  obtain ⟨⟨p, node⟩, hderef, h⟩ := bind_eq_ok.mp h
  cases h
  have hlive := Heap.live_free (Heap.deref_get hderef)
  refine ⟨?_, rfl⟩
  simp only [Front.Conserves, List.length_append, List.length_singleton]
  omega

theorem freeFirst_conserves (h : freeFirst s = .ok s') : s.Conserves s' ∧ s.Counts s' := by
  unfold freeFirst at h
  split at h
  · cases h
    exact ⟨rfl, rfl⟩
  · obtain ⟨s₁, hs₁, h⟩ := bind_eq_ok.mp h
    cases h
    obtain ⟨⟨p, node⟩, -, heq⟩ := bind_eq_ok.mp hs₁
    refine ⟨(unlink_conserves hs₁).1, ?_⟩
    cases heq
    simp only [Front.Counts, List.length_append, List.length_singleton]
    omega

theorem evict_conserves (fuel : Nat) (h : evict freeFirst capacity fuel s = .ok s') :
    s.Conserves s' ∧ s.Counts s' := by
  induction fuel generalizing s with
  | zero => cases h
  | succ fuel ih =>
    unfold evict at h
    split at h
    · obtain ⟨s₁, hs₁, h⟩ := bind_eq_ok.mp h
      obtain ⟨hlive, hcount⟩ := freeFirst_conserves hs₁
      obtain ⟨hlive', hcount'⟩ := ih h
      exact ⟨hlive'.trans hlive, hcount'.trans hcount⟩
    · cases h
      exact ⟨rfl, rfl⟩

theorem freeAll_conserves (fuel : Nat) (h : freeAll fuel s = .ok s') : s.Conserves s' := by
  induction fuel generalizing s with
  | zero =>
    unfold freeAll at h
    split at h <;> cases h
    rfl
  | succ fuel ih =>
    unfold freeAll at h
    split at h
    · cases h
      rfl
    · obtain ⟨s₁, hs₁, h⟩ := bind_eq_ok.mp h
      exact (ih h).trans (unlink_conserves hs₁).1

namespace Queue

variable {q q' : Queue α} {vs : List α}

/-- As many nodes are live as are counted. -/
def Balanced (q : Queue α) : Prop := (q.heap.live : Int) = q.quantity

theorem balanced_empty (α : Type) : Balanced ({} : Queue α) := rfl

theorem insertLast_conserves {hint : Nat} {v : α} {freed : List α}
    (h : q.insertLast freeFirst capacity hint v = .ok (q', freed)) :
    q'.heap.live + freed.length = q.heap.live + 1 ∧
      q'.quantity + freed.length = q.quantity + 1 := by
  have hnew : (q.heap.malloc hint ⟨v, none⟩).1.live = q.heap.live + 1 :=
    Heap.live_malloc hint ⟨v, none⟩
  unfold Queue.insertLast at h
  generalize q.heap.malloc hint ⟨v, none⟩ = m at h hnew
  dsimp only at h
  split at h
  · cases h
    exact ⟨hnew, Int.add_zero _⟩
  · obtain ⟨s, hs, h⟩ := bind_eq_ok.mp h
    obtain ⟨heap', hset, h⟩ := bind_eq_ok.mp h
    cases h
    obtain ⟨hlive, hcount⟩ := evict_conserves _ hs
    have hsame := Heap.live_setNext hset
    simp only [Front.Conserves, Front.Counts, List.length_nil] at hlive hcount
    constructor <;> dsimp only <;> omega

theorem Balanced.insertLast (hq : q.Balanced) {hint : Nat} {v : α}
    (h : q.insertLast freeFirst capacity hint v = .ok (q', freed)) : q'.Balanced := by
  obtain ⟨hlive, hcount⟩ := insertLast_conserves h
  unfold Balanced at hq ⊢
  omega

/-- In a queue that counts its live nodes, each of them is reachable from the
head. -/
theorem Stores.live_iff (h : q.Stores capacity vs) (hq : q.Balanced) :
    ∃ cells, Linked q.heap q.inicio cells ∧ cells.map Prod.snd = vs ∧
      ∀ p, (∃ node, q.heap.get p = some node) ↔ p ∈ cells.map Prod.fst := by
  obtain ⟨cells, hshape, hvs⟩ := h
  refine ⟨cells, hshape.linked, hvs, fun p => ?_⟩
  have hsub : cells.map Prod.fst ⊆ q.heap.addresses := fun p hp =>
    Heap.mem_addresses.mpr (hshape.linked.live hp)
  have hlength : q.heap.addresses.length ≤ (cells.map Prod.fst).length := by
    have hquantity := hshape.quantity
    unfold Balanced at hq
    rw [Heap.addresses_length, List.length_map]
    omega
  have hperm := (List.subperm_of_subset hshape.nodup hsub).perm_of_length_le hlength
  rw [← Heap.mem_addresses]
  exact hperm.mem_iff.symm

/-- Freeing such a queue leaves no node live. -/
theorem freeAll_live (h : q.Stores capacity vs) (hq : q.Balanced)
    (hs : freeAll q.heap.length { heap := q.heap, inicio := q.inicio, quantity := q.quantity } =
      .ok s) : s.heap.live = 0 := by
  obtain ⟨cells, hshape, -⟩ := h
  have hquantity := hshape.quantity
  have hlive : q.heap.live ≤ q.heap.length := List.countP_le_length
  unfold Balanced at hq
  obtain ⟨s', hs', -, -, hfreed⟩ := freeAll_ok
    (s := { heap := q.heap, inicio := q.inicio, quantity := q.quantity }) q.heap.length
    ⟨hshape.linked, hshape.nodup⟩ (by omega)
  obtain rfl := Except.ok.inj (hs'.symm.trans hs)
  have hconserves := freeAll_conserves _ hs
  simp only [Front.Conserves, hfreed, List.nil_append, List.length_map, List.length_nil]
    at hconserves
  omega

end Queue

end WireSentinel
