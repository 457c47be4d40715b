import Mathlib.Data.List.Nodup
import Mathlib.Data.List.Perm.Basic

/-!
# Linked queues

A bounded queue kept as a singly linked list: nodes on a heap, a head and a
tail pointer, and a counter. Following `NULL` or a freed node is a fault,
and so is a loop that would not end. `Queue.Stores` relates the pointers to
the list of values they stand for; each operation keeps it and does to the
list what `push`, `tail` or `[]` do.
-/

namespace WireSentinel

inductive Fault where
  | nullDereference
  | useAfterFree
  | neverReturns
  deriving DecidableEq

/-- Where a computation does not fault, no part of it does. -/
theorem bind_eq_ok {ε : Type} {x : Except ε α} {f : α → Except ε β} :
    x >>= f = .ok b ↔ ∃ a, x = .ok a ∧ f a = .ok b := by
  cases x <;> simp [bind, Except.bind]

structure Node (α : Type) where
  value : α
  next : Option Nat

-- ---------------------------------------------------------------------------
-- The heap
-- ---------------------------------------------------------------------------

/-- One entry for each address handed out so far, `none` once it is freed. -/
abbrev Heap (α : Type) := List (Option (Node α))

namespace Heap

variable {heap heap' : Heap α} {p q : Nat} {node : Node α}

def get (heap : Heap α) (p : Nat) : Option (Node α) := heap[p]?.join

/-- A new node. The allocator may hand out the freed address `hint` again;
if that address is live or unknown, it takes a fresh one. -/
def malloc (heap : Heap α) (hint : Nat) (node : Node α) : Heap α × Nat :=
  match heap[hint]? with
  | some none => (heap.set hint (some node), hint)
  | _ => (heap ++ [some node], heap.length)

def free (heap : Heap α) (p : Nat) : Heap α := heap.set p none

def deref (heap : Heap α) : Option Nat → Except Fault (Nat × Node α)
  | none => .error .nullDereference
  | some p =>
    match heap.get p with
    | some node => .ok (p, node)
    | none => .error .useAfterFree

/-- `p->next = next` -/
def setNext (heap : Heap α) (pointer next : Option Nat) : Except Fault (Heap α) := do
  let (p, node) ← heap.deref pointer
  pure (heap.set p (some { node with next }))

theorem lt_length_of_get (h : heap.get p = some node) : p < heap.length := by
  by_contra hp
  simp [get, List.getElem?_eq_none (Nat.le_of_not_lt hp)] at h

theorem get_set (h : p < heap.length) (cell : Option (Node α)) :
    get (heap.set p cell) q = if q = p then cell else heap.get q := by
  by_cases hq : q = p
  · subst hq
    simp [get, h]
  · simp [get, List.getElem?_set_ne (Ne.symm hq), hq]

theorem malloc_get (hint : Nat) (node : Node α) :
    get (heap.malloc hint node).1 q =
      if q = (heap.malloc hint node).2 then some node else heap.get q := by
  unfold malloc
  split
  · rename_i hfreed
    exact get_set (List.getElem?_eq_some_iff.mp hfreed).1 _
  · by_cases hq : q = heap.length
    · subst hq
      simp [get]
    · rcases Nat.lt_or_gt_of_ne hq with hlt | hgt
      · simp [get, List.getElem?_append_left hlt, hq]
      · simp only [get, hq, ↓reduceIte]
        rw [List.getElem?_eq_none (by simp; omega), List.getElem?_eq_none (by omega)]

theorem get_malloc_snd (heap : Heap α) (hint : Nat) (node : Node α) :
    heap.get (heap.malloc hint node).2 = none := by
  unfold malloc
  split
  · rename_i hfreed
    simp [get, hfreed]
  · simp [get]

theorem free_get (h : heap.get p = some node) :
    (heap.free p).get q = if q = p then none else heap.get q :=
  get_set (lt_length_of_get h) _

theorem deref_ok (h : heap.get p = some node) : heap.deref (some p) = .ok (p, node) := by
  simp [deref, h]

theorem setNext_ok (h : heap.get p = some node) (next : Option Nat) :
    ∃ heap', heap.setNext (some p) next = .ok heap' ∧
      ∀ q, heap'.get q = if q = p then some { node with next } else heap.get q := by
  refine ⟨_, ?_, fun q => get_set (lt_length_of_get h) _⟩
  rw [setNext, deref_ok h]
  rfl

end Heap

-- ---------------------------------------------------------------------------
-- Lists on the heap
-- ---------------------------------------------------------------------------

/-- The nodes reachable from a pointer, with their addresses: all are live,
and the last one's link is `NULL`. -/
def Linked (heap : Heap α) : Option Nat → List (Nat × α) → Prop
  | pointer, [] => pointer = none
  | pointer, (p, v) :: cells =>
    pointer = some p ∧ ∃ next, heap.get p = some ⟨v, next⟩ ∧ Linked heap next cells

namespace Linked

variable {heap heap' : Heap α} {pointer : Option Nat} {cells : List (Nat × α)}

theorem congr (h : Linked heap pointer cells)
    (hsame : ∀ p ∈ cells.map Prod.fst, heap'.get p = heap.get p) : Linked heap' pointer cells := by
  induction cells generalizing pointer with
  | nil => exact h
  | cons cell cells ih =>
    obtain ⟨hp, next, hget, hrest⟩ := h
    refine ⟨hp, next, (hsame cell.1 (by simp)).trans hget, ih hrest fun p hm => hsame p ?_⟩
    simp only [List.map_cons, List.mem_cons]
    exact .inr hm

theorem live (h : Linked heap pointer cells) (hm : p ∈ cells.map Prod.fst) :
    ∃ node, heap.get p = some node := by
  induction cells generalizing pointer with
  | nil => simp at hm
  | cons cell cells ih =>
    obtain ⟨-, next, hget, hrest⟩ := h
    rcases List.mem_cons.mp hm with rfl | hm
    · exact ⟨_, hget⟩
    · exact ih hrest hm

theorem pointer_eq_none_iff (h : Linked heap pointer cells) : pointer = none ↔ cells = [] := by
  cases cells with
  | nil => exact iff_of_true h rfl
  | cons cell cells => simp [h.1]

theorem get_last (h : Linked heap pointer (cells ++ [(last, v)])) :
    heap.get last = some ⟨v, none⟩ := by
  induction cells generalizing pointer with
  | nil =>
    obtain ⟨-, next, hget, hnext⟩ := h
    rw [hget, hnext]
  | cons cell cells ih =>
    obtain ⟨-, next, -, hrest⟩ := h
    exact ih hrest

theorem append (h : Linked heap pointer (cells ++ [(last, v)]))
    (hsame : ∀ p ∈ cells.map Prod.fst, heap'.get p = heap.get p)
    (hlast : heap'.get last = some ⟨v, some new⟩) (hnew : heap'.get new = some ⟨w, none⟩) :
    Linked heap' pointer (cells ++ [(last, v), (new, w)]) := by
  induction cells generalizing pointer with
  | nil => exact ⟨h.1, some new, hlast, rfl, none, hnew, rfl⟩
  | cons cell cells ih =>
    obtain ⟨hp, next, hget, hrest⟩ := h
    refine ⟨hp, next, (hsame cell.1 (by simp)).trans hget, ih hrest fun p hm => hsame p ?_⟩
    simp only [List.map_cons, List.mem_cons]
    exact .inr hm

end Linked

-- ---------------------------------------------------------------------------
-- Operations
-- ---------------------------------------------------------------------------

/-- What an operation is passed by pointer: the head and the counter. The
values of the nodes it frees are kept in `freed`, for accounts only. -/
structure Front (α : Type) where
  heap : Heap α
  inicio : Option Nat
  quantity : Int
  freed : List α := []

def unlink (s : Front α) : Except Fault (Front α) := do
  let (temp, node) ← s.heap.deref s.inicio
  pure { s with
    heap := s.heap.free temp
    inicio := node.next
    freed := s.freed ++ [node.value] }

/-- Free the first node and count it out, if there is one. -/
def freeFirst (s : Front α) : Except Fault (Front α) :=
  if s.inicio = none then .ok s
  else do
    let s ← unlink s
    pure { s with quantity := s.quantity - 1 }

/-- `while (quantity >= capacity)`: free one node. Running out of fuel is a
fault, so an answer is one the loop itself gives. -/
def evict (freeOne : Front α → Except Fault (Front α)) (capacity : Nat) :
    Nat → Front α → Except Fault (Front α)
  | 0, _ => .error .neverReturns
  | fuel + 1, s =>
    if s.quantity ≥ capacity then do
      let s ← freeOne s
      evict freeOne capacity fuel s
    else .ok s

/-- `while (inicio != NULL)`: free the first node. The counter is left to
the caller. -/
def freeAll : Nat → Front α → Except Fault (Front α)
  | 0, s => if s.inicio = none then .ok s else .error .neverReturns
  | fuel + 1, s =>
    if s.inicio = none then .ok s
    else do
      let s ← unlink s
      freeAll fuel s

def walk (heap : Heap α) : Nat → Option Nat → Except Fault (List α)
  | 0, pointer => if pointer = none then .ok [] else .error .neverReturns
  | fuel + 1, pointer =>
    if pointer = none then .ok []
    else do
      let (_, node) ← heap.deref pointer
      let rest ← walk heap fuel node.next
      pure (node.value :: rest)

/-- A queue: its nodes, its two ends and its counter. -/
structure Queue (α : Type) where
  heap : Heap α := []
  inicio : Option Nat := none
  final : Option Nat := none
  quantity : Int := 0

namespace Queue

/-- Append a value, after making room for it. The second part of the answer
is what was evicted. -/
def insertLast (freeOne : Front α → Except Fault (Front α)) (capacity hint : Nat) (value : α)
    (q : Queue α) : Except Fault (Queue α × List α) :=
  let (heap, new) := q.heap.malloc hint ⟨value, none⟩
  match q.inicio with
  | none =>
    .ok ({ heap, inicio := some new, final := some new, quantity := q.quantity + 1 }, [])
  | some _ => do
    let s ← evict freeOne capacity (q.quantity.toNat + 1)
      { heap, inicio := q.inicio, quantity := q.quantity }
    let heap ← s.heap.setNext q.final (some new)
    pure ({ heap, inicio := s.inicio, final := some new, quantity := s.quantity + 1 }, s.freed)

end Queue

-- ---------------------------------------------------------------------------
-- What the loops do
-- ---------------------------------------------------------------------------

section loops

variable {s : Front α} {cells : List (Nat × α)} {capacity : Nat}

/-- The front of a list: its nodes and their number. -/
structure Front.Shape (s : Front α) (cells : List (Nat × α)) : Prop where
  linked : Linked s.heap s.inicio cells
  nodup : (cells.map Prod.fst).Nodup

theorem unlink_ok (h : s.Shape ((p, v) :: cells)) :
    s.inicio = some p ∧ ∃ s', unlink s = .ok s' ∧ s'.Shape cells ∧ s'.quantity = s.quantity ∧
      s'.freed = s.freed ++ [v] ∧ ∀ q, q ≠ p → s'.heap.get q = s.heap.get q := by
  obtain ⟨⟨hp, next, hget, hrest⟩, hnodup⟩ := h
  have hfresh : p ∉ cells.map Prod.fst := (List.nodup_cons.mp hnodup).1
  have hkeep : ∀ q, q ≠ p → (s.heap.free p).get q = s.heap.get q := fun q hq => by
    rw [Heap.free_get hget, if_neg hq]
  refine ⟨hp, ⟨s.heap.free p, next, s.quantity, s.freed ++ [v]⟩, ?_, ⟨hrest.congr ?_,
    (List.nodup_cons.mp hnodup).2⟩, rfl, rfl, hkeep⟩
  · rw [unlink, hp, Heap.deref_ok hget]
    rfl
  · exact fun q hq => hkeep q fun hqp => hfresh (hqp ▸ hq)

theorem freeFirst_ok (h : s.Shape ((p, v) :: cells)) :
    ∃ s', freeFirst s = .ok s' ∧ s'.Shape cells ∧ s'.quantity = s.quantity - 1 ∧
      s'.freed = s.freed ++ [v] ∧ ∀ q, q ≠ p → s'.heap.get q = s.heap.get q := by
  obtain ⟨hp, s₁, hs₁, hshape, hquant, hfreed, hkeep⟩ := unlink_ok h
  refine ⟨{ s₁ with quantity := s₁.quantity - 1 }, ?_, ⟨hshape.linked, hshape.nodup⟩, ?_, hfreed,
    hkeep⟩
  · simp [freeFirst, hp, hs₁]
  · rw [hquant]

theorem evict_ok (hcap : 0 < capacity) (fuel : Nat) (h : s.Shape cells)
    (hq : s.quantity = cells.length) (hfuel : cells.length + 1 - capacity < fuel) :
    ∃ s', evict freeFirst capacity fuel s = .ok s' ∧
      s'.Shape (cells.drop (cells.length + 1 - capacity)) ∧
      s'.quantity = (cells.drop (cells.length + 1 - capacity)).length ∧
      s'.freed = s.freed ++ (cells.take (cells.length + 1 - capacity)).map Prod.snd ∧
      ∀ p, p ∉ (cells.take (cells.length + 1 - capacity)).map Prod.fst →
        s'.heap.get p = s.heap.get p := by
  induction fuel generalizing s cells with
  | zero => omega
  | succ fuel ih =>
    unfold evict
    by_cases hfull : s.quantity ≥ capacity
    · simp only [hfull, ↓reduceIte]
      obtain ⟨⟨p, v⟩, cells, rfl⟩ := List.exists_cons_of_ne_nil
        (List.ne_nil_of_length_pos (l := cells) (by omega))
      obtain ⟨s₁, hs₁, hshape, hquant, hfreed, hkeep⟩ := freeFirst_ok h
      simp only [List.length_cons] at hq hfuel ⊢
      obtain ⟨s', hs', hshape', hquant', hfreed', hkeep'⟩ :=
        ih hshape (by omega) (by omega)
      have hdrop : cells.length + 1 + 1 - capacity = cells.length + 1 - capacity + 1 := by omega
      rw [hdrop, hs₁]
      refine ⟨s', hs', hshape', hquant', ?_, fun q hq => ?_⟩
      · rw [hfreed', hfreed]
        simp
      · simp only [List.take_succ_cons, List.map_cons, List.mem_cons, not_or] at hq
        rw [hkeep' q hq.2, hkeep q hq.1]
    · have hdrop : cells.length + 1 - capacity = 0 := by omega
      rw [hdrop]
      exact ⟨s, by simp [hfull], h, by simpa using hq, by simp, fun _ _ => rfl⟩

theorem freeAll_ok (fuel : Nat) (h : s.Shape cells) (hfuel : cells.length ≤ fuel) :
    ∃ s', freeAll fuel s = .ok s' ∧ s'.inicio = none ∧ s'.quantity = s.quantity ∧
      s'.freed = s.freed ++ cells.map Prod.snd := by
  induction cells generalizing s fuel with
  | nil =>
    have hnone : s.inicio = none := h.linked
    cases fuel <;> exact ⟨s, by simp [freeAll, hnone], hnone, rfl, by simp⟩
  | cons cell cells ih =>
    cases fuel with
    | zero => simp at hfuel
    | succ fuel =>
      obtain ⟨hp, s₁, hs₁, hshape, hquant, hfreed, -⟩ := unlink_ok h
      obtain ⟨s', hs', hnone, hquant', hfreed'⟩ := ih fuel hshape (by simpa using hfuel)
      refine ⟨s', ?_, hnone, hquant'.trans hquant, ?_⟩
      · simp only [freeAll, hp, reduceCtorEq, ↓reduceIte, hs₁]
        exact hs'
      · rw [hfreed', hfreed]
        simp

theorem walk_ok (fuel : Nat) (h : Linked heap pointer cells) (hfuel : cells.length ≤ fuel) :
    walk heap fuel pointer = .ok (cells.map Prod.snd) := by
  induction cells generalizing pointer fuel with
  | nil =>
    have hnone : pointer = none := h
    cases fuel <;> simp [walk, hnone]
  | cons cell cells ih =>
    cases fuel with
    | zero => simp at hfuel
    | succ fuel =>
      obtain ⟨hp, next, hget, hrest⟩ := h
      have hih := ih fuel hrest (by simpa using hfuel)
      simp only [walk, hp, reduceCtorEq, ↓reduceIte, Heap.deref_ok hget]
      change (do let rest ← walk heap fuel next; pure (cell.2 :: rest)) = _
      rw [hih]
      rfl

theorem setNext_last (h : Linked heap pointer cells) (hnodup : (cells.map Prod.fst).Nodup)
    (hne : cells ≠ []) (hfinal : ∀ cell ∈ cells.getLast?, final = some cell.1)
    (hnew : heap.get new = some ⟨w, none⟩) (hfresh : new ∉ cells.map Prod.fst) :
    ∃ heap', heap.setNext final (some new) = .ok heap' ∧
      Linked heap' pointer (cells ++ [(new, w)]) := by
  obtain ⟨⟨last, v⟩, init, rfl⟩ : ∃ cell init, cells = init ++ [cell] :=
    ⟨_, _, (List.dropLast_append_getLast hne).symm⟩
  have hlast := h.get_last
  obtain ⟨heap', hset, hget⟩ := Heap.setNext_ok hlast (some new)
  rw [hfinal (last, v) (by simp)]
  simp only [List.map_append, List.map_cons, List.map_nil, List.mem_append, List.mem_singleton,
    not_or] at hfresh
  refine ⟨heap', hset, ?_⟩
  rw [List.append_assoc]
  refine h.append (fun p hp => ?_) (by rw [hget, if_pos rfl]) (by rw [hget, if_neg hfresh.2, hnew])
  rw [hget, if_neg]
  rintro rfl
  rw [List.map_append] at hnodup
  exact (List.nodup_append.mp hnodup).2.2 _ hp _ (by simp) rfl

end loops

-- ---------------------------------------------------------------------------
-- The bounded queue
-- ---------------------------------------------------------------------------

/-- Appending to a queue that holds at most `capacity` values: a full one
gives up its oldest first. -/
def push (capacity : Nat) (v : α) (vs : List α) : List α :=
  (if vs.length < capacity then vs else vs.tail) ++ [v]

def dropped (capacity : Nat) (vs : List α) : List α :=
  if vs.length < capacity then [] else vs.take 1

theorem dropped_eq (h : vs.length ≤ capacity) :
    dropped capacity vs = vs.take (vs.length + 1 - capacity) := by
  unfold dropped
  split
  · rw [show vs.length + 1 - capacity = 0 by omega, List.take_zero]
  · rw [show vs.length + 1 - capacity = 1 by omega]

theorem push_eq (h : vs.length ≤ capacity) (v : α) :
    push capacity v vs = vs.drop (vs.length + 1 - capacity) ++ [v] := by
  unfold push
  split
  · rw [show vs.length + 1 - capacity = 0 by omega, List.drop_zero]
  · rw [show vs.length + 1 - capacity = 1 by omega, List.drop_one]

namespace Queue

/-- The pointers and the counter of a queue whose reachable nodes are
`cells`. -/
structure Shape (capacity : Nat) (q : Queue α) (cells : List (Nat × α)) : Prop where
  linked : Linked q.heap q.inicio cells
  nodup : (cells.map Prod.fst).Nodup
  quantity : q.quantity = cells.length
  le : cells.length ≤ capacity
  final : ∀ cell ∈ cells.getLast?, q.final = some cell.1

/-- The queue stands for the values `vs`. -/
def Stores (capacity : Nat) (q : Queue α) (vs : List α) : Prop :=
  ∃ cells, q.Shape capacity cells ∧ cells.map Prod.snd = vs

variable {q : Queue α} {capacity : Nat} {vs : List α}

theorem stores_empty (α : Type) (capacity : Nat) : ({} : Queue α).Stores capacity [] :=
  ⟨[], ⟨rfl, by simp, rfl, by simp, by simp⟩, rfl⟩

theorem Stores.quantity_eq (h : q.Stores capacity vs) : q.quantity = vs.length := by
  obtain ⟨cells, hshape, rfl⟩ := h
  simpa using hshape.quantity

theorem Stores.quantity_eq_zero_iff (h : q.Stores capacity vs) : q.quantity = 0 ↔ vs = [] := by
  rw [h.quantity_eq]
  simp

theorem Stores.le (h : q.Stores capacity vs) : vs.length ≤ capacity := by
  obtain ⟨cells, hshape, rfl⟩ := h
  simpa using hshape.le

theorem Stores.inicio_eq_none_iff (h : q.Stores capacity vs) : q.inicio = none ↔ vs = [] := by
  obtain ⟨cells, hshape, rfl⟩ := h
  simpa using hshape.linked.pointer_eq_none_iff

theorem Stores.insertLast (hcap : 1 < capacity) (h : q.Stores capacity vs) (hint : Nat) (v : α) :
    ∃ q', q.insertLast freeFirst capacity hint v = .ok (q', dropped capacity vs) ∧
      q'.Stores capacity (push capacity v vs) := by
  obtain ⟨cells, ⟨hlinked, hnodup, hquant, hle, hfinal⟩, rfl⟩ := h
  generalize hm : q.heap.malloc hint ⟨v, none⟩ = m
  obtain ⟨heap, new⟩ := m
  have hget : ∀ p, heap.get p = if p = new then some ⟨v, none⟩ else q.heap.get p := by
    intro p
    have hmalloc : (q.heap.malloc hint ⟨v, none⟩).1.get p =
        if p = (q.heap.malloc hint ⟨v, none⟩).2 then some ⟨v, none⟩ else q.heap.get p :=
      Heap.malloc_get hint ⟨v, none⟩
    simpa [hm] using hmalloc
  have hdead : q.heap.get new = none := by
    simpa [hm] using Heap.get_malloc_snd q.heap hint ⟨v, none⟩
  have hfresh : new ∉ cells.map Prod.fst := fun hmem => by
    obtain ⟨node, hnode⟩ := hlinked.live hmem
    simp [hdead] at hnode
  simp only [Queue.insertLast, hm]
  cases hinicio : q.inicio with
  | none =>
    obtain rfl := hlinked.pointer_eq_none_iff.mp hinicio
    have hempty : ([] : List α).length < capacity := by
      rw [List.length_nil]
      omega
    refine ⟨{ heap, inicio := some new, final := some new, quantity := q.quantity + 1 }, ?_,
      [(new, v)], ⟨⟨rfl, none, by simp [hget], rfl⟩, by simp, by simp [hquant], by
        rw [List.length_singleton]; omega, by simp⟩, ?_⟩
    · rw [dropped, List.map_nil, if_pos hempty]
    · rw [push, List.map_nil, if_pos hempty]
      rfl
  | some first =>
    have hne : cells ≠ [] := by
      rintro rfl
      simp [hlinked.pointer_eq_none_iff.mpr rfl] at hinicio
    have hkeep : ∀ p ∈ cells.map Prod.fst, heap.get p = q.heap.get p := fun p hp => by
      rw [hget, if_neg fun (hpn : p = new) => hfresh (hpn ▸ hp)]
    obtain ⟨s, hs, hshape, hsq, hfreed, hsame⟩ :=
      evict_ok (s := { heap, inicio := q.inicio, quantity := q.quantity })
        (show 0 < capacity by omega) (q.quantity.toNat + 1) ⟨hlinked.congr hkeep, hnodup⟩ hquant
        (by omega)
    have hle' := List.length_pos_of_ne_nil hne
    generalize hd : cells.length + 1 - capacity = d at hshape hsq hfreed hsame
    have hlast : (cells.drop d).getLast? = cells.getLast? := by
      rw [List.getLast?_drop, if_neg (by omega)]
    have hrest : ∀ p ∈ (cells.drop d).map Prod.fst, p ∈ cells.map Prod.fst := fun p hp =>
      ((List.drop_sublist d cells).map Prod.fst).mem hp
    obtain ⟨heap', hset, hlinked'⟩ := setNext_last (w := v)
      hshape.linked hshape.nodup (List.ne_nil_of_length_pos (by rw [List.length_drop]; omega))
      (by rwa [hlast])
      (by
        rw [hsame, hget, if_pos rfl]
        exact fun hp => hfresh (((List.take_sublist d cells).map Prod.fst).mem hp))
      (fun hp => hfresh (hrest _ hp))
    refine ⟨{ heap := heap', inicio := s.inicio, final := some new, quantity := s.quantity + 1 },
      ?_, cells.drop d ++ [(new, v)], ⟨hlinked', ?_, ?_, ?_, ?_⟩, ?_⟩
    · rw [hinicio] at hs
      simp only [hs, hset, bind, Except.bind, pure, Except.pure]
      rw [dropped_eq (by simpa using hle), ← List.map_take, List.length_map, hd, hfreed]
      rfl
    · rw [List.map_append, List.nodup_append]
      refine ⟨hshape.nodup, by simp, fun p hp r hr => ?_⟩
      rw [List.mem_singleton.mp hr]
      rintro rfl
      exact hfresh (hrest p hp)
    · rw [hsq]
      simp
    · rw [List.length_append, List.length_drop, List.length_singleton]
      omega
    · simp
    · rw [List.map_append, List.map_drop, push_eq (by simpa using hle), List.length_map, hd]
      rfl

/-- The head of a non-empty queue leads to its oldest value. Once a caller
has moved the head on and freed the old node, the rest is stored. -/
theorem Stores.removeFirst (h : q.Stores capacity (v :: vs)) :
    ∃ p next s, q.heap.deref q.inicio = .ok (p, ⟨v, next⟩) ∧
      freeFirst { heap := q.heap, inicio := some p, quantity := q.quantity } = .ok s ∧
      Stores capacity { q with heap := s.heap, inicio := next, quantity := s.quantity } vs := by
  obtain ⟨cells, ⟨hlinked, hnodup, hquant, hle, hfinal⟩, hvs⟩ := h
  obtain ⟨⟨p, v⟩, cells, rfl, rfl, rfl⟩ := List.map_eq_cons_iff.mp hvs
  obtain ⟨hp, next, hget, hrest⟩ := hlinked
  obtain ⟨s, hs, hshape, hsq, -, hkeep⟩ := freeFirst_ok
    (s := { heap := q.heap, inicio := some p, quantity := q.quantity })
    ⟨⟨rfl, next, hget, hrest⟩, hnodup⟩
  refine ⟨p, next, s, by rw [hp, Heap.deref_ok hget], hs, cells, ⟨?_, hshape.nodup, ?_, ?_, ?_⟩,
    rfl⟩
  · refine hrest.congr fun r hr => hkeep r ?_
    rintro rfl
    exact (List.nodup_cons.mp hnodup).1 hr
  · rw [hsq, hquant]
    simp
  · simp at hle
    omega
  · intro cell hcell
    refine hfinal cell ?_
    cases cells with
    | nil => simp at hcell
    | cons c cs => rwa [List.getLast?_cons_cons]

theorem Stores.freeAll (h : q.Stores capacity vs) :
    walk q.heap q.heap.length q.inicio = .ok vs ∧
      ∃ s, freeAll q.heap.length { heap := q.heap, inicio := q.inicio, quantity := q.quantity } =
        .ok s ∧ s.inicio = none := by
  obtain ⟨cells, ⟨hlinked, hnodup, -, -, -⟩, rfl⟩ := h
  have hlen : cells.length ≤ q.heap.length := by
    have hsub : cells.map Prod.fst ⊆ List.range q.heap.length := fun p hp => by
      obtain ⟨node, hnode⟩ := hlinked.live hp
      exact List.mem_range.mpr (Heap.lt_length_of_get hnode)
    simpa using (List.subperm_of_subset hnodup hsub).length_le
  obtain ⟨s, hs, hnone, -⟩ := freeAll_ok
    (s := { heap := q.heap, inicio := q.inicio, quantity := q.quantity }) _ ⟨hlinked, hnodup⟩ hlen
  exact ⟨walk_ok _ hlinked hlen, s, hs, hnone⟩

end Queue

end WireSentinel
