import WireSentinel.Client.Thread

/-!
# Sessions in which nothing fails

A client without a UUID registers, and then sends batch after batch.
-/

namespace WireSentinel

open Text (lit cString)

variable {c : Settings} {i : Input} {t : Thread} {uuid request payload : CString}
  {recvBuffer stack : List Char}

theorem Thread.registerReceived_ok (caller : Caller)
    (h : registeredUuid (responseText received i.stack) = some uuid) :
    t.registerReceived caller received i =
      { t.answered .register received (extractStatusCode (responseText received i.stack))
          (some uuid) with
        uuid := some uuid, uuidFile := some (setUuid uuid) }.identified caller := by
  rcases Thread.registerReceived_spec caller received i t with ⟨hnone, -⟩ | ⟨uuid', hsome, heq⟩
  · rw [h] at hnone
    cases hnone
  · rw [h] at hsome
    cases hsome
    rw [heq, h]

/-- To the end of the registration. -/
def greet (c : Settings) (fd : Int) (chunk : Chunk) (now : Tm) (stack : List Char) : List Input := [
  ⟨.getaddrinfo true, now, stack, []⟩,
  ⟨.socket fd, now, stack, []⟩,
  ⟨.connect true, now, stack, []⟩,
  ⟨.setsockopt, now, stack, []⟩,
  ⟨.send (c.registerRequest now).length, now, stack, []⟩,
  ⟨.recv (.data chunk), now, stack, []⟩]

theorem run_greet (fd : Int) (h : registeredUuid (responseText (.data chunk) stack) = some uuid) :
    run (Thread.step c) (.start none recvBuffer) (greet c fd chunk now stack) = some
      { pc := .wait
        socketfd := fd
        uuidFile := some (setUuid uuid)
        uuid := some uuid
        buffer := c.registerRequest now
        recvBuffer
        requests := 1
        trace := [
          .extracted .register 1 (extractStatusCode (responseText (.data chunk) stack)) (some uuid),
          .received fd .register (.data chunk),
          .sent fd .register 1 (c.registerRequest now) (c.registerRequest now).length,
          .configured fd, .connected fd, .opened fd, .resolved .startup true] } := by
  have hlen : ¬ ((c.registerRequest now).length : Int) < 0 := by omega
  simp [greet, run, Thread.step, Thread.start, Thread.resolved, Thread.record, Thread.goto,
    Thread.hand, Thread.startUp, Thread.caseNotOk, SendResult, Thread.resume, hlen,
    Thread.registerReceived_ok, h, Thread.identified, Thread.answered]

theorem run_batch (hpc : t.pc = .wait) (hne : pkts ≠ [])
    (hpayload : generateJsonPayload c.services pkts = some payload) (now : Tm)
    (stack heap : List Char) :
    run (Thread.step c) t [⟨.batch pkts, now, stack, heap⟩] = some
      { t.record (.took (generateRequest (c.sender now) payload t.uuidText)) with
        jsonRequest := generateRequest (c.sender now) payload t.uuidText
        pc := .ingestSend } := by
  simp [run, Thread.step, hpc, hne, Thread.takeBatch, hpayload]

/-- A batch is handed over, and its request to the kernel. -/
theorem run_ingest (hpc : t.pc = .wait) (hne : pkts ≠ [])
    (hpayload : generateJsonPayload c.services pkts = some payload)
    (hrequest : generateRequest (c.sender now) payload t.uuidText = request)
    (stack : List Char) :
    run (Thread.step c) t
        [⟨.batch pkts, now, stack, []⟩, ⟨.send request.length, now, stack, []⟩] = some
      { t with
        pc := .ingestRecv
        jsonRequest := request
        result := request.length
        requests := t.requests + 1
        trace := .sent t.socketfd .ingest (t.requests + 1) request request.length ::
          .took request :: t.trace } := by
  have hlen : ¬ (request.length : Int) = -1 := by omega
  have hsent : -1 ≤ (request.length : Int) := by omega
  refine (run_append (run_batch hpc hne hpayload now stack []) _).trans ?_
  rw [hrequest]
  simp [run, Thread.step, Thread.ingestSent, Thread.hand, SendResult, hlen, hsent, Thread.record]

/-- One turn of the loop. -/
def turn (request : CString) (pkts : List FullInternetPacket) (chunk : Chunk) (now : Tm)
    (stack : List Char) : List Input := [
  ⟨.batch pkts, now, stack, []⟩,
  ⟨.send request.length, now, stack, []⟩,
  ⟨.recv (.data chunk), now, stack, []⟩]

theorem run_turn (hpc : t.pc = .wait) (hne : pkts ≠ [])
    (hpayload : generateJsonPayload c.services pkts = some payload)
    (hrequest : generateRequest (c.sender now) payload t.uuidText = request)
    (h : extractStatusCode (cString ((t.fill chunk).recvBuffer ++ stack)) = some 200) :
    run (Thread.step c) t (turn request pkts chunk now stack) = some
      { t.fill chunk with
        pc := .wait
        jsonRequest := request
        result := request.length
        requests := t.requests + 1
        trace := .released :: .extracted .ingest (t.requests + 1) (some 200) none ::
          .received t.socketfd .ingest (.data chunk) ::
          .sent t.socketfd .ingest (t.requests + 1) request request.length ::
          .took request :: t.trace } := by
  refine (run_append (run_ingest hpc hne hpayload hrequest stack) _).trans ?_
  simp only [Thread.fill, List.append_assoc] at h
  simp [run, Thread.step, Thread.record, Thread.goto, Thread.ingestReceived, Thread.fill,
    Thread.answered, h]

/-- A batch is sent, `recv` times out, and the request is sent again on a new
connection. -/
def timedOut (request : CString) (pkts : List FullInternetPacket) (fd : Int) (now : Tm)
    (stack : List Char) : List Input := [
  ⟨.batch pkts, now, stack, []⟩,
  ⟨.send request.length, now, stack, []⟩,
  ⟨.recv .failed, now, stack, []⟩,
  ⟨.close, now, stack, []⟩,
  ⟨.getaddrinfo true, now, stack, []⟩,
  ⟨.socket fd, now, stack, []⟩,
  ⟨.connect true, now, stack, []⟩,
  ⟨.send request.length, now, stack, []⟩]

theorem run_timedOut (hpc : t.pc = .wait) (hne : pkts ≠ [])
    (hpayload : generateJsonPayload c.services pkts = some payload)
    (hrequest : generateRequest (c.sender now) payload t.uuidText = request) (fd : Int) :
    run (Thread.step c) t (timedOut request pkts fd now stack) = some
      { t with
        pc := .ingestRecv
        socketfd := fd
        jsonRequest := request
        result := request.length
        requests := t.requests + 2
        trace := .sent fd .ingest (t.requests + 2) request request.length :: .connected fd ::
          .opened fd :: .resolved .recvLoop true :: .closed t.socketfd ::
          .received t.socketfd .ingest .failed ::
          .sent t.socketfd .ingest (t.requests + 1) request request.length ::
          .took request :: t.trace } := by
  have hlen : ¬ (request.length : Int) = -1 := by omega
  have hsent : -1 ≤ (request.length : Int) := by omega
  refine (run_append (run_ingest hpc hne hpayload hrequest stack) _).trans ?_
  simp [run, Thread.step, Thread.ingestSent, Thread.hand, SendResult, hlen, hsent, Thread.record,
    Thread.goto, Thread.ingestReceived, Thread.resolved, Thread.resume]

-- ---------------------------------------------------------------------------
-- For examples
-- ---------------------------------------------------------------------------

def localStart : Thread := .start none (List.replicate 2048 '\x00')

def localUuid : CString := ['f', 'e', 'c', 'e', 'f', '4', '3', '5']

/-- The response `HTTP/1.1 200` to a request, with the UUID in it. -/
def okChunk (request : Nat) : Chunk where
  bytes := (Response.ok localUuid).text
  request
  length_le := by decide

theorem registeredUuid_local :
    registeredUuid (responseText (.data (okChunk 1)) ['\x00']) = some localUuid := by
  decide

/-- The request with one packet of the client that got that UUID. -/
def localRequest : CString :=
  generateRequest (localSettings.sender noon) (payloadText localSettings.services [synRecord])
    localUuid

end WireSentinel
