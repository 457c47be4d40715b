import WireSentinel.Lib.LinkedQueue
import WireSentinel.Packet.Service

/-!
# The raw queue

`buffer_list.c`: the frames the capture thread hands to the parser thread.
-/

namespace WireSentinel

/-- A value with the number of the captured frame it comes from. The number
is kept for accounts; no function looks at it. -/
structure Tagged (α : Type) where
  frame : Nat
  value : α

structure BufferItem where
  content : Content
  recvlen : Int

abbrev BufferList := Queue (Tagged BufferItem)

/-- The bound of the loop in `add_item` (`MAX_BUFFER_ITENS` has the same
value, but is not used). -/
def maxBufferItens : Nat := 1000

def freeItem (s : Front (Tagged BufferItem)) : Except Fault (Front (Tagged BufferItem)) :=
  freeFirst s

/-- What `memcpy` makes of the bytes `malloc` returned. -/
def copyBytes (junk buffer : Content) (recvBytes : Int) : Content :=
  fun i => if (i.val : Int) < recvBytes then buffer i else junk i

/-- `add_item`: `junk` is what the new node's memory held before. -/
def addItem (frame hint : Nat) (junk buffer : Content) (recvBytes : Int) (q : BufferList) :
    Except Fault (BufferList × List (Tagged BufferItem)) :=
  q.insertLast freeItem maxBufferItens hint
    ⟨frame, { content := copyBytes junk buffer recvBytes, recvlen := recvBytes }⟩

/-- The parser thread's `free_item(&temp, &nmbr_itens)`: `temp` is the node
`inicio_buffer` has been moved past. -/
def freeTemp (temp : Nat) (q : BufferList) : Except Fault BufferList := do
  let s ← freeItem { heap := q.heap, inicio := some temp, quantity := q.quantity }
  pure { q with heap := s.heap, quantity := s.quantity }

end WireSentinel
