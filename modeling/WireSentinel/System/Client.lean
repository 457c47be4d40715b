import WireSentinel.Client.Attempts
import WireSentinel.Payload.Server
import WireSentinel.Queue.Sections
import WireSentinel.Queue.Threads

/-!
# The client as a whole

The three threads around their queues, the calls of the payload thread on the
network, and the server, in any order. `routine_payload` is in two parts of
the model, which meet where a batch is taken: what it does to the list is its
section, and what it makes of the list is its request.
-/

namespace WireSentinel

structure System where
  threads : Threads := {}
  exchange : Exchange

inductive Agent where
  | capture (turn : Turn)
  | processing (turn : Turn)
  /-- `routine_payload` at the queue. -/
  | payload (now : Tm) (stack heap : List Char)
  /-- `routine_payload` at the network. -/
  | client (i : Input)
  | server (request : Request)
  | spurious (role : Role)

namespace System

/-- As the process starts. -/
def start (uuidFile : Option CString) (recvBuffer : List Char) : System :=
  { exchange := { thread := .start uuidFile recvBuffer } }

def queue (choice : Choice) (s : System) : Option System :=
  (s.threads.step choice).map fun threads => { s with threads }

def talk (c : Settings) (party : Party) (s : System) : Option System :=
  (s.exchange.step c party).map fun exchange => { s with exchange }

/-- The list is written out and freed. -/
def take (c : Settings) (now : Tm) (stack heap : List Char) (s : System) : Option System := do
  let packets := s.threads.pipeline.packets
  let batch ← (walk packets.heap packets.heap.length packets.inicio).toOption
  let threads ← s.threads.step .payload
  let exchange ← s.exchange.step c (.client ⟨.batch (batch.map Tagged.value), now, stack, heap⟩)
  pure { threads, exchange }

/-- `recvfrom` has a buffer of 65535 bytes; the payload thread is at the queue
or at the network. -/
def step (c : Settings) (s : System) : Agent → Option System
  | .capture turn => if turn.bytesRecived ≤ 65535 then s.queue (.capture turn) else none
  | .processing turn => s.queue (.processing turn)
  | .payload now stack heap =>
    match s.threads.payload with
    | .take => s.take c now stack heap
    | .unlock => s.queue .payload
    | _ => if s.exchange.thread.pc = .wait then s.queue .payload else none
  | .client i =>
    match s.threads.payload, i.answer with
    | _, .batch _ => none
    | .lock, _ => s.talk c (.client i)
    | _, _ => none
  | .server request => s.talk c (.server request)
  | .spurious role => s.queue (.spurious role)

end System

-- ---------------------------------------------------------------------------
-- What the sections do to the ledger
-- ---------------------------------------------------------------------------

/-- As `recvfrom` returned it. -/
def Fits (bytesRecived : Int) : Prop := 0 < bytesRecived ∧ bytesRecived ≤ 65535

def CapturePc.Fits : CapturePc → Prop
  | .lock _ bytesRecived | .addItem _ bytesRecived => WireSentinel.Fits bytesRecived
  | _ => True

def Ledger.Fits (l : Ledger) : Prop := ∀ item ∈ l.captured, WireSentinel.Fits item.recvlen

variable {p p' : Pipeline}

theorem capture_ledger {hint : Nat} {junk buffer : Content} {bytesRecived : Int}
    (h : p.capture hint junk buffer bytesRecived = .ok p') :
    p'.ledger.shipped = p.ledger.shipped ∧
      (p.ledger.Fits → Fits bytesRecived → p'.ledger.Fits) := by
  cases capture_section h with
  | nothing => exact ⟨rfl, fun hp _ => hp⟩
  | added raw evicted hpos hadd =>
    refine ⟨rfl, fun hp hfits item hitem => ?_⟩
    rcases List.mem_append.mp hitem with hitem | hitem
    · exact hp item hitem
    · obtain rfl := List.mem_singleton.mp hitem
      exact hfits

theorem processing_ledger {hint : Nat} {now : Tm} (h : p.routineProcessing hint now = .ok p') :
    p'.ledger.shipped = p.ledger.shipped ∧ p'.ledger.captured = p.ledger.captured := by
  cases routineProcessing_section h with
  | nothing => exact ⟨rfl, rfl⟩
  | rejected => exact ⟨rfl, rfl⟩
  | recorded => exact ⟨rfl, rfl⟩

/-- What the section ships is what the walk along the list found. -/
theorem payload_ledger {batch : List (Tagged FullInternetPacket)}
    (hwalk : walk p.packets.heap p.packets.heap.length p.packets.inicio = .ok batch)
    (hne : batch ≠ []) (h : p.routinePayload = .ok p') :
    p'.ledger.shipped = p.ledger.shipped ++ [batch] ∧ p'.ledger.captured = p.ledger.captured := by
  cases routinePayload_section h with
  | nothing hempty =>
    have hnil : walk p.packets.heap p.packets.heap.length none = .ok [] := by
      cases p.packets.heap.length <;> rfl
    rw [hempty, hnil] at hwalk
    exact absurd (Except.ok.inj hwalk).symm hne
  | shipped listed packets _ hlisted _ =>
    obtain rfl := Except.ok.inj (hwalk.symm.trans hlisted)
    exact ⟨rfl, rfl⟩

-- ---------------------------------------------------------------------------
-- What the threads do to the ledger
-- ---------------------------------------------------------------------------

variable {s s' : Threads} {turn : Turn}

structure Threads.Fits (s : Threads) : Prop where
  capture : s.capture.Fits
  ledger : s.pipeline.ledger.Fits

theorem captureStep_ledger (hf : s.Fits) (hturn : turn.bytesRecived ≤ 65535)
    (h : captureStep turn s = some s') :
    s'.pipeline.ledger.shipped = s.pipeline.ledger.shipped ∧ s'.Fits := by
  unfold captureStep at h
  split at h
  · split at h <;> cases h
    · rename_i hpos
      exact ⟨rfl, ⟨hpos, hturn⟩, hf.ledger⟩
    · exact ⟨rfl, trivial, hf.ledger⟩
  · rename_i hpc
    obtain ⟨monitor, -, rfl⟩ := Option.map_eq_some_iff.mp h
    have hfits := hf.capture
    rw [hpc] at hfits
    exact ⟨rfl, hfits, hf.ledger⟩
  · rename_i buffer bytesRecived hpc
    split at h <;> cases h
    rename_i pipeline hp
    have hfits := hf.capture
    rw [hpc] at hfits
    obtain ⟨hshipped, hledger⟩ := capture_ledger hp
    exact ⟨hshipped, trivial, hledger hf.ledger hfits⟩
  · obtain ⟨monitor, -, rfl⟩ := Option.map_eq_some_iff.mp h
    exact ⟨rfl, trivial, hf.ledger⟩
  · obtain ⟨monitor, -, rfl⟩ := Option.map_eq_some_iff.mp h
    exact ⟨rfl, trivial, hf.ledger⟩
  · cases h
    refine ⟨rfl, ?_, hf.ledger⟩
    dsimp only
    split <;> trivial
  · obtain ⟨monitor, -, rfl⟩ := Option.map_eq_some_iff.mp h
    exact ⟨rfl, trivial, hf.ledger⟩
  · obtain ⟨monitor, -, rfl⟩ := Option.map_eq_some_iff.mp h
    exact ⟨rfl, trivial, hf.ledger⟩
  · obtain ⟨monitor, -, rfl⟩ := Option.map_eq_some_iff.mp h
    exact ⟨rfl, trivial, hf.ledger⟩

theorem processingStep_ledger (hf : s.Fits) (h : s.step (.processing turn) = some s') :
    s'.pipeline.ledger.shipped = s.pipeline.ledger.shipped ∧ s'.Fits := by
  obtain ⟨⟨monitor, pipeline, pc⟩, hloop, rfl⟩ := Option.map_eq_some_iff.mp h
  rcases (loopStep_ok hloop).pipeline_eq with rfl | hwork
  · exact ⟨rfl, hf.capture, hf.ledger⟩
  · obtain ⟨hshipped, hcaptured⟩ := processing_ledger hwork
    refine ⟨hshipped, hf.capture, ?_⟩
    unfold Ledger.Fits
    rw [hcaptured]
    exact hf.ledger

theorem payloadStep_take (hpc : s.payload = .take) (h : s.step .payload = some s') :
    s'.capture = s.capture ∧ s.pipeline.routinePayload = .ok s'.pipeline := by
  obtain ⟨⟨monitor, pipeline, pc⟩, hloop, rfl⟩ := Option.map_eq_some_iff.mp h
  have hstep := loopStep_ok hloop
  rw [hpc] at hstep
  cases hstep with
  | took pipeline hwork => exact ⟨rfl, hwork⟩

/-- `routine_payload` leaves the queues alone but where it takes the batch. -/
theorem payloadStep_other (hpc : s.payload ≠ .take) (h : s.step .payload = some s') :
    s'.capture = s.capture ∧ s'.pipeline = s.pipeline := by
  obtain ⟨⟨monitor, pipeline, pc⟩, hloop, rfl⟩ := Option.map_eq_some_iff.mp h
  have hstep := loopStep_ok hloop
  generalize s.payload = start at hpc hstep
  cases hstep with
  | took => exact absurd rfl hpc
  | _ => exact ⟨rfl, rfl⟩

end WireSentinel
