import WireSentinel.Client.Session

/-!
# The response to a request

TCP cuts the responses of a server as it likes. The client makes one `recv`
for each request, and takes what it returns for the response;
`responses_paired` says which cuts this is right for.
-/

namespace WireSentinel

open Text (cString)

variable {c : Settings} {i : Input} {t t' : Thread} {responses : Nat → Response}
  {past : List Event} {e : Event}

/-- What the client takes from the response to the k-th request is what the
server's k-th response says. -/
def Paired (responses : Nat → Response) (_ : List Event) : Event → Prop
  | .extracted endpoint number code uuid =>
    code = some ((responses number).code : Int) ∧
      (endpoint = .register → (responses number).code = 200 → uuid = some (responses number).body)
  | _ => True

-- ---------------------------------------------------------------------------
-- The connection
-- ---------------------------------------------------------------------------

/-- The responses to the first requests, one behind the other. -/
def responseStream (responses : Nat → Response) (requests : Nat) : List Char :=
  (List.range requests).flatMap fun k => (responses (k + 1)).text

def receivedBytes : List Event → List Char
  | [] => []
  | .received _ _ received :: past => receivedBytes past ++ received.bytes
  | _ :: past => receivedBytes past

/-- Nothing fails, and a `recv` returns some of what comes next of the
responses to the requests so far. -/
structure Segments (responses : Nat → Response) (t : Thread) (i : Input) : Prop where
  sent : ∀ n, i.answer = .send n → n ≠ -1
  received : ∀ received, i.answer = .recv received → ∃ chunk,
    received = .data chunk ∧ chunk.bytes ≠ [] ∧
      receivedBytes t.trace ++ chunk.bytes <+: responseStream responses t.requests

-- ---------------------------------------------------------------------------
-- The condition
-- ---------------------------------------------------------------------------

/-- Of a registration that succeeds, the whole response is there, and it ends
where the string in memory ends. -/
def Ends (response : Response) (bytes stack : List Char) : Prop :=
  response.code = 200 →
    bytes = response.text ∧ '\x00' ∉ response.body ∧ cString (stack.drop bytes.length) = []

/-- No request is sent while a part of a response is still unread; a `recv`
goes beyond the status code at least, and returns the whole response where
its body is used. -/
structure Whole (responses : Nat → Response) (t : Thread) (i : Input) : Prop where
  read : ∀ n, i.answer = .send n → receivedBytes t.trace = responseStream responses t.requests
  code : ∀ received, i.answer = .recv received →
    (responses t.requests).codeEnd < received.bytes.length
  registered : ∀ received, i.answer = .recv received → ∀ caller, t.pc = .registerRecv caller →
    Ends (responses t.requests) received.bytes i.stack

/-- At a `recv`, the earlier responses have been read. -/
def Thread.Fed (responses : Nat → Response) (t : Thread) : Prop :=
  t.pc = .authRecv ∨ (∃ caller, t.pc = .registerRecv caller) ∨ t.pc = .ingestRecv →
    ∃ k, t.requests = k + 1 ∧ receivedBytes t.trace = responseStream responses k

-- ---------------------------------------------------------------------------
-- Each step
-- ---------------------------------------------------------------------------

/-- The bytes are the response to the request with this number, from its
start to beyond its code. -/
def Starts (responses : Nat → Response) (number : Nat) (bytes : List Char) : Prop :=
  bytes <+: (responses number).text ∧ (responses number).codeEnd < bytes.length

/-- Each `recv` returns the response to the last request. -/
def ReadsResponse (responses : Nat → Response) (t : Thread) (i : Input) : Prop :=
  ∀ received, i.answer = .recv received → Starts responses t.requests received.bytes ∧
    ∀ caller, t.pc = .registerRecv caller → Ends (responses t.requests) received.bytes i.stack

theorem responseStream_succ (responses : Nat → Response) (k : Nat) :
    responseStream responses (k + 1) =
      responseStream responses k ++ (responses (k + 1)).text := by
  simp [responseStream, List.range_succ]

theorem Thread.Fed.readsResponse (hfed : t.Fed responses) (hseg : Segments responses t i)
    (hwhole : Whole responses t i) (h : t.step c i = some t') : ReadsResponse responses t i := by
  intro received ha
  have hrecv : t.pc = .authRecv ∨ (∃ caller, t.pc = .registerRecv caller) ∨ t.pc = .ingestRecv := by
    cases Thread.step_sound h <;> simp_all
  obtain ⟨k, hk, hread⟩ := hfed hrecv
  obtain ⟨chunk, rfl, -, hpre⟩ := hseg.received received ha
  rw [hk, responseStream_succ, hread, List.prefix_append_right_inj] at hpre
  refine ⟨⟨?_, hwhole.code _ ha⟩, hwhole.registered _ ha⟩
  rw [hk]
  exact hpre

theorem Thread.Fed.step (hwhole : Whole responses t i) (h : t.step c i = some t') :
    t'.Fed responses := by
  have hsent : ∀ {endpoint text n}, i.answer = .send n → ∀ t'' : Thread,
      t''.requests = (t.hand endpoint text n).requests →
      t''.trace = (t.hand endpoint text n).trace → t''.Fed responses := by
    intro endpoint text n ha t'' hrequests htrace _
    refine ⟨t.requests, hrequests, ?_⟩
    rw [htrace]
    exact hwhole.read n ha
  cases Thread.step_sound h with
  | @resolved site ok hpc ha =>
    rcases Thread.resolved_pc site ok t with h | ⟨-, -, h⟩ <;> simp [Thread.Fed, h]
  | opened hpc ha => simp [Thread.Fed, Thread.record]
  | @connected site hpc ha =>
    cases site <;> simp [Thread.Fed, Thread.goto, Thread.resume]
  | refused hpc ha => simp [Thread.Fed, Thread.goto]
  | configured hpc ha =>
    rcases Thread.startUp_pc c i (t.record (.configured t.socketfd)) with h | h | h <;>
      simp [Thread.Fed, h]
  | authSent hpc ha hn => exact hsent ha _ rfl rfl
  | @authReceived received hpc ha =>
    rcases (Thread.authReceived_spec c received i t).2 with h | h | h <;> simp [Thread.Fed, h]
  | registerSent hpc ha hn => exact hsent ha _ rfl rfl
  | @registerReceived caller received hpc ha =>
    rcases Thread.registerReceived_spec caller received i t with ⟨-, pc, hpc', h⟩ | ⟨uuid, -, h⟩
    all_goals rw [h]
    · rcases hpc' with rfl | rfl <;> simp [Thread.Fed, Thread.goto]
    · cases caller <;> simp [Thread.Fed, Thread.identified, Thread.goto]
  | took hpc ha hne =>
    rcases Thread.takeBatch_spec c _ i.now t with h | ⟨payload, -, h⟩
    all_goals
      rw [h]
      simp [Thread.Fed, Thread.goto]
  | ingestSent hpc ha hn => exact hsent ha _ rfl rfl
  | ingestResent hpc ha hn => exact hsent ha _ rfl rfl
  | @ingestReceived received hpc ha =>
    cases received with
    | failed => simp [Thread.Fed, Thread.ingestReceived]
    | data chunk =>
      rcases Thread.ingestReceived_spec c chunk i t with ⟨-, h⟩ | ⟨-, h⟩ | ⟨-, h⟩
      all_goals
        rw [h]
        simp [Thread.Fed, Thread.goto, Thread.caseNotOk]
  | closed hpc ha => simp [Thread.Fed, Thread.goto]

theorem Starts.extractStatusCode (h : Starts responses number bytes) (memory : List Char) :
    WireSentinel.extractStatusCode (cString (bytes ++ memory)) =
      some ((responses number).code : Int) :=
  (responses number).extractStatusCode_bytes h.1 h.2 memory

theorem Ends.registeredUuid (hstart : Starts responses number received.bytes)
    (h : Ends (responses number) received.bytes stack) (h200 : (responses number).code = 200) :
    WireSentinel.registeredUuid (responseText received stack) = some (responses number).body := by
  obtain ⟨hwhole, hbody, hend⟩ := h h200
  have hcode : WireSentinel.extractStatusCode
      (cString (received.bytes ++ stack.drop received.bytes.length)) = some 200 := by
    rw [hstart.extractStatusCode, h200]
    rfl
  have huuid := (responses number).extractUuid_bytes hbody hend
  rw [← hwhole] at huuid
  rw [WireSentinel.registeredUuid, responseText, if_pos hcode, huuid]

theorem paired_step (hpast : Always (Paired responses) t.trace)
    (hreads : ReadsResponse responses t i) (h : t.step c i = some t') :
    Always (Paired responses) t'.trace := by
  cases Thread.step_sound h with
  | resolved hpc ha => exact ⟨trivial, hpast⟩
  | opened hpc ha => exact ⟨trivial, hpast⟩
  | connected hpc ha => exact ⟨trivial, hpast⟩
  | refused hpc ha => exact ⟨trivial, hpast⟩
  | configured hpc ha =>
    rw [Thread.startUp_trace]
    exact ⟨trivial, hpast⟩
  | authSent hpc ha hn => exact ⟨trivial, hpast⟩
  | @authReceived received hpc ha =>
    rw [(Thread.authReceived_spec c received i t).1]
    exact ⟨⟨(hreads received ha).1.extractStatusCode _, by simp⟩, trivial, hpast⟩
  | registerSent hpc ha hn => exact ⟨trivial, hpast⟩
  | @registerReceived caller received hpc ha =>
    obtain ⟨hstart, hend⟩ := hreads received ha
    have hanswered : Always (Paired responses) (t.answered .register received
        (extractStatusCode (responseText received i.stack))
        (registeredUuid (responseText received i.stack))).trace :=
      ⟨⟨hstart.extractStatusCode _, fun _ => (hend caller hpc).registeredUuid hstart⟩,
        trivial, hpast⟩
    rcases Thread.registerReceived_spec caller received i t with ⟨-, pc, -, h⟩ | ⟨uuid, -, h⟩
    all_goals rw [h]
    · exact hanswered
    · cases caller with
      | startup => exact hanswered
      | ingest => exact ⟨trivial, hanswered⟩
  | took hpc ha hne =>
    rcases Thread.takeBatch_spec c _ i.now t with h | ⟨payload, -, h⟩
    all_goals rw [h]
    · exact hpast
    · exact ⟨trivial, hpast⟩
  | ingestSent hpc ha hn => exact ⟨trivial, hpast⟩
  | ingestResent hpc ha hn => exact ⟨trivial, hpast⟩
  | @ingestReceived received hpc ha =>
    cases received with
    | failed => exact ⟨trivial, hpast⟩
    | data chunk =>
      have hcode := (hreads _ ha).1.extractStatusCode
        (t.recvBuffer.drop chunk.bytes.length ++ i.stack)
      rw [← List.append_assoc] at hcode
      have hanswered : Always (Paired responses) ((t.fill chunk).answered .ingest (.data chunk)
          (extractStatusCode (cString ((t.fill chunk).recvBuffer ++ i.stack))) none).trace :=
        ⟨⟨hcode, by simp⟩, trivial, hpast⟩
      rcases Thread.ingestReceived_spec c chunk i t with ⟨-, h⟩ | ⟨-, h⟩ | ⟨-, h⟩
      all_goals rw [h]
      · exact hanswered
      · exact hanswered
      · exact ⟨trivial, hanswered⟩
  | closed hpc ha => exact ⟨trivial, hpast⟩

/-- What the client takes from the response to its k-th request is what the
server's k-th response says.

Premises: the connection delivers the server's responses; no request is sent
while a part of one is unread, and each `recv` goes beyond the status code at
least, and returns all of a registration, with a NUL behind it. -/
theorem responses_paired (c : Settings) (uuidFile : Option CString) (recvBuffer : List Char)
    (responses : Nat → Response) (inputs : List Input)
    (h : run (Thread.step c) (.start uuidFile recvBuffer) inputs = some t)
    (hseg : Along (Thread.step c) (Segments responses) (.start uuidFile recvBuffer) inputs)
    (hwhole : Along (Thread.step c) (Whole responses) (.start uuidFile recvBuffer) inputs) :
    Always (Paired responses) t.trace := by
  have hstart : Always (Paired responses) (Thread.start uuidFile recvBuffer).trace ∧
      (Thread.start uuidFile recvBuffer).Fed responses :=
    ⟨trivial, by simp [Thread.Fed, Thread.start]⟩
  have hstep : ∀ t i t', Thread.step c t i = some t' →
      Segments responses t i ∧ Whole responses t i →
      Always (Paired responses) t.trace ∧ t.Fed responses →
      Always (Paired responses) t'.trace ∧ t'.Fed responses := by
    rintro t i t' h ⟨hseg, hwhole⟩ ⟨hpast, hfed⟩
    exact ⟨paired_step hpast (hfed.readsResponse hseg hwhole h) h, .step hwhole h⟩
  have hrun := run_inv hstep hstart (hseg.and hwhole) h
  exact hrun.1

theorem along_greet {C : Thread → Input → Prop} (fd : Int) (recvBuffer : List Char)
    (hquiet : ∀ t answer, (∀ n, answer ≠ .send n) → (∀ received, answer ≠ .recv received) →
      C t ⟨answer, now, stack, []⟩)
    (hsend : ∀ t, t.requests = 0 → receivedBytes t.trace = [] →
      C t ⟨.send (c.registerRequest now).length, now, stack, []⟩)
    (hrecv : ∀ t, t.requests = 1 → receivedBytes t.trace = [] →
      C t ⟨.recv (.data chunk), now, stack, []⟩) :
    Along (Thread.step c) C (.start none recvBuffer) (greet c fd chunk now stack) := by
  have hlen : ¬ ((c.registerRequest now).length : Int) < 0 := by omega
  simp only [Thread.start, greet, Along, Thread.step, Thread.resolved, Thread.record,
    Option.mem_def, Option.some.injEq, Thread.goto, Thread.resume, Thread.startUp,
    Thread.caseNotOk, SendResult, Int.reduceNeg, Thread.hand, and_true, and_false, forall_eq',
    ↓reduceIte, Int.neg_ofNat_le_natCast, Std.le_refl, and_self, hlen, Nat.zero_add, reduceCtorEq,
    imp_self, implies_true]
  refine ⟨hquiet _ _ ?_ ?_, hquiet _ _ ?_ ?_, hquiet _ _ ?_ ?_, hquiet _ _ ?_ ?_, hsend _ rfl rfl,
    hrecv _ rfl rfl⟩
  all_goals simp

def localResponses : Nat → Response := fun _ => .ok localUuid

theorem segments_greet (chunk : Chunk) (hne : chunk.bytes ≠ [])
    (hpre : chunk.bytes <+: (Response.ok localUuid).text) :
    Along (Thread.step localSettings) (Segments localResponses) localStart
      (greet localSettings 3 chunk noon ['\x00']) := by
  refine along_greet 3 _ (fun t answer hs hr => ⟨fun n ha => absurd ha (hs n), fun r ha =>
    absurd ha (hr r)⟩) (fun t _ _ => ⟨?_, by simp⟩) fun t hrequests hread => ⟨by simp, ?_⟩
  · rintro n ⟨⟩
    omega
  · rintro received ⟨⟩
    refine ⟨chunk, rfl, hne, ?_⟩
    rw [hrequests, hread]
    simpa [responseStream, localResponses] using hpre

theorem whole_greet :
    Along (Thread.step localSettings) (Whole localResponses) localStart
      (greet localSettings 3 (okChunk 1) noon ['\x00']) := by
  refine along_greet 3 _ (fun t answer hs hr => ⟨fun n ha => absurd ha (hs n), fun r ha =>
    absurd ha (hr r), fun r ha => absurd ha (hr r)⟩)
    (fun t hrequests hread => ⟨?_, by simp, by simp⟩)
    fun t hrequests hread => ⟨by simp, ?_, ?_⟩
  · rintro n -
    rw [hrequests, hread]
    rfl
  · rintro received ⟨⟩
    exact (Response.ok localUuid).codeEnd_lt
  · rintro received ⟨⟩ caller - -
    exact ⟨rfl, (by decide : '\x00' ∉ localUuid), by decide⟩

theorem along_turn {C : Thread → Input → Prop} (hpc : t.pc = .wait) (hne : pkts ≠ [])
    (hpayload : generateJsonPayload c.services pkts = some payload)
    (hrequest : generateRequest (c.sender now) payload t.uuidText = request)
    (htook : C t ⟨.batch pkts, now, stack, []⟩)
    (hsend : ∀ t', t'.requests = t.requests → receivedBytes t'.trace = receivedBytes t.trace →
      C t' ⟨.send request.length, now, stack, []⟩)
    (hrecv : ∀ t', t'.pc = .ingestRecv → t'.requests = t.requests + 1 →
      receivedBytes t'.trace = receivedBytes t.trace → C t' ⟨.recv (.data chunk), now, stack, []⟩) :
    Along (Thread.step c) C t (turn request pkts chunk now stack) := by
  have hlen : ¬ (request.length : Int) = -1 := by omega
  have hsent : -1 ≤ (request.length : Int) := by omega
  simp only [turn, Along, Thread.step, hpc, hne, Thread.takeBatch, hpayload, hrequest,
    Thread.record, Thread.ingestSent, Thread.hand, SendResult, hlen, hsent, Option.mem_def,
    Option.some.injEq, ↓reduceIte, forall_eq', Std.le_refl, and_self, and_true, implies_true]
  exact ⟨htook, hsend _ rfl rfl, hrecv _ rfl rfl rfl⟩

/-- A registration, and a batch. -/
theorem responses_paired_local :
    ∃ t, run (Thread.step localSettings) localStart
        (greet localSettings 3 (okChunk 1) noon ['\x00'] ++
          turn localRequest [synRecord] (okChunk 2) noon ['\x00']) = some t ∧
      Always (Paired localResponses) t.trace := by
  obtain ⟨t, hgreet, hpc, huuid, hrequests, hbytes⟩ :
      ∃ t, run (Thread.step localSettings) localStart
          (greet localSettings 3 (okChunk 1) noon ['\x00']) = some t ∧ t.pc = .wait ∧
        t.uuid = some localUuid ∧ t.requests = 1 ∧ receivedBytes t.trace = (okChunk 1).bytes :=
    ⟨_, run_greet 3 registeredUuid_local, rfl, rfl, rfl, rfl⟩
  have hrequest : generateRequest (localSettings.sender noon)
      (payloadText localSettings.services [synRecord]) t.uuidText = localRequest := by
    rw [Thread.uuidText, huuid]
    rfl
  have hread : extractStatusCode (cString ((t.fill (okChunk 2)).recvBuffer ++ ['\x00'])) =
      some 200 := by
    rw [Thread.fill, List.append_assoc]
    exact (statusOk_ok _).extractStatusCode _
  have hstream : responseStream localResponses 1 = (okChunk 1).bytes := by
    simp [responseStream, localResponses, okChunk]
  have hne : [synRecord] ≠ [] := List.cons_ne_nil _ _
  have hrun := (run_append hgreet _).trans
    (run_turn hpc hne localSettings_payload hrequest hread)
  have hseg : Along (Thread.step localSettings) (Segments localResponses) t
      (turn localRequest [synRecord] (okChunk 2) noon ['\x00']) := by
    refine along_turn hpc hne localSettings_payload hrequest ⟨by simp, by simp⟩
      (fun t' _ _ => ⟨?_, by simp⟩) fun t' _ hrequests' hbytes' => ⟨by simp, ?_⟩
    · rintro n ⟨⟩
      omega
    · rintro received ⟨⟩
      refine ⟨okChunk 2, rfl, by decide, ?_⟩
      rw [hrequests', hrequests, hbytes', hbytes, responseStream_succ, hstream]
      exact List.prefix_refl _
  have hwhole : Along (Thread.step localSettings) (Whole localResponses) t
      (turn localRequest [synRecord] (okChunk 2) noon ['\x00']) := by
    refine along_turn hpc hne localSettings_payload hrequest ⟨by simp, by simp, by simp⟩
      (fun t' hrequests' hbytes' => ⟨?_, by simp, by simp⟩)
      fun t' hpc' hrequests' _ => ⟨by simp, ?_, ?_⟩
    · rintro n -
      rw [hbytes', hrequests', hrequests, hbytes, hstream]
    · rintro received ⟨⟩
      exact (Response.ok localUuid).codeEnd_lt
    · rintro received - caller hcaller
      rw [hpc'] at hcaller
      cases hcaller
  exact ⟨_, hrun, responses_paired _ _ _ localResponses _ hrun
    ((segments_greet _ (by decide) (List.prefix_refl _)).append hgreet hseg)
    (whole_greet.append hgreet hwhole)⟩

/-- The head of the response to a registration, in a segment of its own. -/
def headChunk : Chunk where
  bytes := (Response.ok localUuid).head ++ Text.blankLine
  request := 1
  length_le := by decide

/-- The client takes the head for the response, and the empty string for its
UUID. -/
theorem responses_unpaired :
    Along (Thread.step localSettings) (Segments localResponses) localStart
        (greet localSettings 3 headChunk noon ['\x00']) ∧
      ∃ t, run (Thread.step localSettings) localStart
          (greet localSettings 3 headChunk noon ['\x00']) = some t ∧
        ¬ Always (Paired localResponses) t.trace := by
  have hregistered : registeredUuid (responseText (.data headChunk) ['\x00']) = some [] := by
    decide
  have hrun : run (Thread.step localSettings) localStart
      (greet localSettings 3 headChunk noon ['\x00']) = some _ := run_greet 3 hregistered
  refine ⟨segments_greet _ (by decide) (List.prefix_append _ _), _, hrun, ?_⟩
  rintro ⟨⟨-, huuid⟩, -⟩
  exact absurd (huuid rfl rfl) (by decide)

end WireSentinel
