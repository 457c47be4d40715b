import WireSentinel.Client.Identity
import WireSentinel.Client.Response
import WireSentinel.Lib.Run

/-!
# The payload thread

`routine_payload` of `main.c` with `start_server` and `case_not_ok`, from one
call of the operating system to the next. What the calls answer, what the
clock says and what uninitialised memory holds are inputs; what happened is
kept in a trace that no function looks at.
-/

namespace WireSentinel

open Text (lit cString)

-- ---------------------------------------------------------------------------
-- The operating system
-- ---------------------------------------------------------------------------

/-- Bytes a `recv` returned, none if the server has closed the connection.
`request` is the number of the request they belong to the response of; no
function looks at it. -/
structure Chunk where
  bytes : List Char
  request : Nat
  length_le : bytes.length ≤ 2048

inductive Received where
  | failed
  | data (chunk : Chunk)

def Received.bytes : Received → List Char
  | .failed => []
  | .data chunk => chunk.bytes

/-- The text in `http_response_buffer`. -/
def responseText (received : Received) (stack : List Char) : CString :=
  cString (received.bytes ++ stack.drop received.bytes.length)

/-- The UUID `case_not_ok` takes from a response, if it takes one. -/
def registeredUuid (response : CString) : Option CString :=
  if extractStatusCode response = some 200 then extractUuid response else none

def SendResult (text : CString) (result : Int) : Prop := -1 ≤ result ∧ result ≤ text.length

instance (text : CString) (result : Int) : Decidable (SendResult text result) :=
  inferInstanceAs (Decidable (_ ∧ _))

inductive Answer where
  | getaddrinfo (ok : Bool)
  | socket (fd : Int)
  | connect (ok : Bool)
  | setsockopt
  | send (result : Int)
  | recv (received : Received)
  /-- `inicio_packet` is not `NULL` any more. -/
  | batch (pkts : List FullInternetPacket)
  | close

/-- The answer, the time the clock shows next, and what the memory held that
is used next without being set: on the stack and from `malloc`. -/
structure Input where
  answer : Answer
  now : Tm
  stack : List Char
  heap : List Char

-- ---------------------------------------------------------------------------
-- The state
-- ---------------------------------------------------------------------------

inductive Site where
  | startup | sendLoop | recvLoop
  deriving DecidableEq

inductive Caller where
  | startup | ingest
  deriving DecidableEq

/-- The call of the operating system the thread is at. -/
inductive Pc where
  | getaddrinfo (site : Site)
  | socket (site : Site)
  | connect (site : Site)
  | setsockopt
  | authSend
  | authRecv
  | registerSend (caller : Caller)
  | registerRecv (caller : Caller)
  | wait
  | ingestSend
  | ingestResend
  | ingestRecv
  | close (site : Site)
  | exited
  | crashed
  deriving DecidableEq

/-- `GET /api/client_auth`, `GET /api/register` and `POST /api/ingest`. -/
inductive Endpoint where
  | clientAuth | register | ingest
  deriving DecidableEq

inductive Event where
  | resolved (site : Site) (ok : Bool)
  | opened (fd : Int)
  | refused (fd : Int)
  | connected (fd : Int)
  | configured (fd : Int)
  | closed (fd : Int)
  /-- The first `result` bytes of the text went out, as the request with this
  number. -/
  | sent (fd : Int) (endpoint : Endpoint) (number : Nat) (text : CString) (result : Int)
  | received (fd : Int) (endpoint : Endpoint) (received : Received)
  /-- What the client took for the response to the request. -/
  | extracted (endpoint : Endpoint) (number : Nat) (code : Option Int) (uuid : Option CString)
  | took (jsonRequest : CString)
  | released

structure Thread where
  pc : Pc := .getaddrinfo .startup
  socketfd : Int := 0
  /-- The text of the file, if it exists. -/
  uuidFile : Option CString
  /-- `none` is `NULL`. -/
  uuid : Option CString := none
  /-- The `buffer` of `case_not_ok` and of the first request. -/
  buffer : CString := []
  jsonRequest : CString := []
  result : Int := 0
  recvBuffer : List Char
  /-- How many requests have been sent. -/
  requests : Nat := 0
  /-- Newest first. -/
  trace : List Event := []

namespace Thread

/-- As it starts: with what the file holds, and whatever is on the stack. -/
def start (uuidFile : Option CString) (recvBuffer : List Char) : Thread :=
  { uuidFile, recvBuffer }

def goto (pc : Pc) (t : Thread) : Thread := { t with pc }

def record (e : Event) (t : Thread) : Thread := { t with trace := e :: t.trace }

def hand (endpoint : Endpoint) (text : CString) (result : Int) (t : Thread) : Thread :=
  { t with
    requests := t.requests + 1
    trace := .sent t.socketfd endpoint (t.requests + 1) text result :: t.trace }

def answered (endpoint : Endpoint) (received : Received) (code : Option Int)
    (uuid : Option CString) (t : Thread) : Thread :=
  (t.record (.received t.socketfd endpoint received)).record
    (.extracted endpoint t.requests code uuid)

-- ---------------------------------------------------------------------------
-- Between the calls
-- ---------------------------------------------------------------------------

/-- Behind `getaddrinfo`. If it fails, `*socketList` is the list of the call
before; the first call leaves it uninitialised. -/
def resolved (site : Site) (ok : Bool) (t : Thread) : Thread :=
  (t.record (.resolved site ok)).goto
    (if site = .startup ∧ ok = false then .crashed else .socket site)

/-- `%s` of a pointer that may be `NULL`. -/
def uuidText (t : Thread) : CString := t.uuid.getD (lit "(null)")

/-- `get_UUID(&uuid)`, and then to the next call. -/
def getUuid (heap : List Char) (next : Pc) (t : Thread) : Thread :=
  match t.uuidFile with
  | none => { t with uuid := none, pc := next }
  | some file =>
    match WireSentinel.getUuid heap file with
    | none => t.goto .crashed
    | some uuid => { t with uuid := some uuid, pc := next }

/-- `case_not_ok`, to its `send`. -/
def caseNotOk (c : Settings) (caller : Caller) (now : Tm) (t : Thread) : Thread :=
  { t with buffer := c.registerRequest now, pc := .registerSend caller }

/-- From `setsockopt` to the first `send`. -/
def startUp (c : Settings) (i : Input) (t : Thread) : Thread :=
  if t.uuidFile = none then t.caseNotOk c .startup i.now
  else
    let t := t.getUuid i.heap .authSend
    { t with buffer := c.clientAuthRequest i.now t.uuidText }

/-- Behind the `recv` of the first response. -/
def authReceived (c : Settings) (received : Received) (i : Input) (t : Thread) : Thread :=
  let code := extractStatusCode (responseText received i.stack)
  let t := t.answered .clientAuth received code none
  match code with
  | none => t.goto .crashed
  | some code =>
    if code = 200 then t.getUuid i.heap .wait
    else t.caseNotOk c .startup i.now

/-- `case_not_ok` returns; the ingest request is freed. -/
def identified (caller : Caller) (t : Thread) : Thread :=
  match caller with
  | .startup => t.goto .wait
  | .ingest => (t.record .released).goto .wait

/-- `case_not_ok` behind its `recv`. -/
def registerReceived (caller : Caller) (received : Received) (i : Input) (t : Thread) : Thread :=
  let response := responseText received i.stack
  let code := extractStatusCode response
  let uuid := registeredUuid response
  let t := t.answered .register received code uuid
  match code with
  | none => t.goto .crashed
  | some code =>
    if code ≠ 200 then t.goto .exited
    else
      match uuid with
      | none => t.goto .crashed
      | some uuid => { t with uuid := some uuid, uuidFile := some (setUuid uuid) }.identified caller

/-- The batch is taken and written out. -/
def takeBatch (c : Settings) (pkts : List FullInternetPacket) (now : Tm) (t : Thread) : Thread :=
  match generateJsonPayload c.services pkts with
  | none => t.goto .crashed
  | some payload =>
    let jsonRequest := generateRequest (c.sender now) payload t.uuidText
    { t.record (.took jsonRequest) with jsonRequest, pc := .ingestSend }

/-- `result = send(…)` in one of the two loops. -/
def ingestSent (site : Site) (result : Int) (t : Thread) : Thread :=
  { t.hand .ingest t.jsonRequest result with
    result, pc := if result = -1 then .close site else .ingestRecv }

def fill (chunk : Chunk) (t : Thread) : Thread :=
  { t with recvBuffer := chunk.bytes ++ t.recvBuffer.drop chunk.bytes.length }

/-- `result = recv(…)` and what follows the loop. -/
def ingestReceived (c : Settings) (received : Received) (i : Input) (t : Thread) : Thread :=
  match received with
  | .failed =>
    { t.record (.received t.socketfd .ingest .failed) with result := -1, pc := .close .recvLoop }
  | .data chunk =>
    let t := t.fill chunk
    let code := extractStatusCode (cString (t.recvBuffer ++ i.stack))
    let t := t.answered .ingest received code none
    match code with
    | none => t.goto .crashed
    | some code =>
      if code ≠ 200 then t.caseNotOk c .ingest i.now
      else (t.record .released).goto .wait

-- ---------------------------------------------------------------------------
-- Steps
-- ---------------------------------------------------------------------------

def resume : Site → Pc
  | .startup => .setsockopt
  | .sendLoop => .ingestSend
  | .recvLoop => .ingestResend

/-- One call of the operating system, and what follows it up to the next. -/
def step (c : Settings) (t : Thread) (i : Input) : Option Thread :=
  match t.pc, i.answer with
  | .getaddrinfo site, .getaddrinfo ok => some (t.resolved site ok)
  | .socket site, .socket fd =>
    some ({ t with socketfd := fd, pc := .connect site }.record (.opened fd))
  | .connect site, .connect ok =>
    if ok then some ((t.record (.connected t.socketfd)).goto (resume site))
    else some ((t.record (.refused t.socketfd)).goto (.socket site))
  | .setsockopt, .setsockopt => some ((t.record (.configured t.socketfd)).startUp c i)
  | .authSend, .send result =>
    if SendResult t.buffer result then
      some ((t.hand .clientAuth t.buffer result).goto (if result < 0 then .exited else .authRecv))
    else none
  | .authRecv, .recv received => some (t.authReceived c received i)
  | .registerSend caller, .send result =>
    if SendResult t.buffer result then
      some ((t.hand .register t.buffer result).goto
        (if result < 0 then .exited else .registerRecv caller))
    else none
  | .registerRecv caller, .recv received => some (t.registerReceived caller received i)
  | .wait, .batch pkts => if pkts = [] then none else some (t.takeBatch c pkts i.now)
  | .ingestSend, .send result =>
    if SendResult t.jsonRequest result then some (t.ingestSent .sendLoop result) else none
  | .ingestResend, .send result =>
    if SendResult t.jsonRequest result then some (t.ingestSent .recvLoop result) else none
  | .ingestRecv, .recv received => some (t.ingestReceived c received i)
  | .close site, .close => some ((t.record (.closed t.socketfd)).goto (.getaddrinfo site))
  | _, _ => none

inductive Step (c : Settings) (i : Input) (t : Thread) : Thread → Prop where
  | resolved (hpc : t.pc = .getaddrinfo site) (ha : i.answer = .getaddrinfo ok) :
      Step c i t (t.resolved site ok)
  | opened (hpc : t.pc = .socket site) (ha : i.answer = .socket fd) :
      Step c i t ({ t with socketfd := fd, pc := .connect site }.record (.opened fd))
  | connected (hpc : t.pc = .connect site) (ha : i.answer = .connect true) :
      Step c i t ((t.record (.connected t.socketfd)).goto (resume site))
  | refused (hpc : t.pc = .connect site) (ha : i.answer = .connect false) :
      Step c i t ((t.record (.refused t.socketfd)).goto (.socket site))
  | configured (hpc : t.pc = .setsockopt) (ha : i.answer = .setsockopt) :
      Step c i t ((t.record (.configured t.socketfd)).startUp c i)
  | authSent (hpc : t.pc = .authSend) (ha : i.answer = .send n)
      (hn : SendResult t.buffer n) :
      Step c i t ((t.hand .clientAuth t.buffer n).goto
        (if n < 0 then .exited else .authRecv))
  | authReceived (hpc : t.pc = .authRecv) (ha : i.answer = .recv received) :
      Step c i t (t.authReceived c received i)
  | registerSent (hpc : t.pc = .registerSend caller) (ha : i.answer = .send n)
      (hn : SendResult t.buffer n) :
      Step c i t ((t.hand .register t.buffer n).goto
        (if n < 0 then .exited else .registerRecv caller))
  | registerReceived (hpc : t.pc = .registerRecv caller) (ha : i.answer = .recv received) :
      Step c i t (t.registerReceived caller received i)
  | took (hpc : t.pc = .wait) (ha : i.answer = .batch pkts) (hne : pkts ≠ []) :
      Step c i t (t.takeBatch c pkts i.now)
  | ingestSent (hpc : t.pc = .ingestSend) (ha : i.answer = .send n)
      (hn : SendResult t.jsonRequest n) : Step c i t (t.ingestSent .sendLoop n)
  | ingestResent (hpc : t.pc = .ingestResend) (ha : i.answer = .send n)
      (hn : SendResult t.jsonRequest n) : Step c i t (t.ingestSent .recvLoop n)
  | ingestReceived (hpc : t.pc = .ingestRecv) (ha : i.answer = .recv received) :
      Step c i t (t.ingestReceived c received i)
  | closed (hpc : t.pc = .close site) (ha : i.answer = .close) :
      Step c i t ((t.record (.closed t.socketfd)).goto (.getaddrinfo site))

variable {c : Settings} {i : Input} {t t' : Thread}

theorem step_sound (h : t.step c i = some t') : Step c i t t' := by
  unfold step at h
  split at h
  · cases h
    exact .resolved ‹_› ‹_›
  · cases h
    exact .opened ‹_› ‹_›
  · split at h <;> cases h
    · exact .connected ‹_› (by simp_all)
    · exact .refused ‹_› (by simp_all)
  · cases h
    exact .configured ‹_› ‹_›
  · split at h <;> cases h
    exact .authSent ‹_› ‹_› ‹_›
  · cases h
    exact .authReceived ‹_› ‹_›
  · split at h <;> cases h
    exact .registerSent ‹_› ‹_› ‹_›
  · cases h
    exact .registerReceived ‹_› ‹_›
  · split at h <;> cases h
    exact .took ‹_› ‹_› ‹_›
  · split at h <;> cases h
    exact .ingestSent ‹_› ‹_› ‹_›
  · split at h <;> cases h
    exact .ingestResent ‹_› ‹_› ‹_›
  · cases h
    exact .ingestReceived ‹_› ‹_›
  · cases h
    exact .closed ‹_› ‹_›
  · cases h

theorem step_complete (h : Step c i t t') : t.step c i = some t' := by
  cases h <;> simp_all [step]

-- ---------------------------------------------------------------------------
-- What the functions between the calls do
-- ---------------------------------------------------------------------------

theorem resolved_pc (site : Site) (ok : Bool) (t : Thread) :
    (t.resolved site ok).pc = .socket site ∨
      site = .startup ∧ ok = false ∧ (t.resolved site ok).pc = .crashed := by
  by_cases hlost : site = .startup ∧ ok = false
  · exact .inr ⟨hlost.1, hlost.2, if_pos hlost⟩
  · exact .inl (if_neg hlost)

@[simp] theorem getUuid_trace (heap : List Char) (next : Pc) (t : Thread) :
    (t.getUuid heap next).trace = t.trace := by
  unfold getUuid
  split
  · rfl
  · split <;> rfl

theorem getUuid_pc (heap : List Char) (next : Pc) (t : Thread) :
    (t.getUuid heap next).pc = next ∨ (t.getUuid heap next).pc = .crashed := by
  unfold getUuid
  split
  · exact .inl rfl
  · split
    · exact .inr rfl
    · exact .inl rfl

@[simp] theorem startUp_trace (c : Settings) (i : Input) (t : Thread) :
    (t.startUp c i).trace = t.trace := by
  unfold startUp
  split
  · rfl
  · exact getUuid_trace _ _ t

theorem startUp_pc (c : Settings) (i : Input) (t : Thread) :
    (t.startUp c i).pc = .registerSend .startup ∨ (t.startUp c i).pc = .authSend ∨
      (t.startUp c i).pc = .crashed := by
  unfold startUp
  split
  · exact .inl rfl
  · exact .inr (getUuid_pc _ _ t)

theorem authReceived_spec (c : Settings) (received : Received) (i : Input) (t : Thread) :
    (t.authReceived c received i).trace =
        .extracted .clientAuth t.requests
            (extractStatusCode (responseText received i.stack)) none ::
          .received t.socketfd .clientAuth received :: t.trace ∧
      ((t.authReceived c received i).pc = .wait ∨
        (t.authReceived c received i).pc = .registerSend .startup ∨
        (t.authReceived c received i).pc = .crashed) := by
  unfold authReceived
  cases extractStatusCode (responseText received i.stack) with
  | none => exact ⟨rfl, .inr (.inr rfl)⟩
  | some code =>
    dsimp only
    split
    · refine ⟨getUuid_trace _ _ _, ?_⟩
      rcases getUuid_pc i.heap .wait (t.answered .clientAuth received (some code) none) with h | h
      · exact .inl h
      · exact .inr (.inr h)
    · exact ⟨rfl, .inr (.inl rfl)⟩

/-- A registration stops the client, or gives it a UUID. -/
theorem registerReceived_spec (caller : Caller) (received : Received) (i : Input) (t : Thread) :
    let response := responseText received i.stack
    let next := t.answered .register received (extractStatusCode response) (registeredUuid response)
    (registeredUuid response = none ∧ ∃ pc, (pc = .exited ∨ pc = .crashed) ∧
        t.registerReceived caller received i = next.goto pc) ∨
      ∃ uuid, registeredUuid response = some uuid ∧ t.registerReceived caller received i =
        { next with uuid := some uuid, uuidFile := some (setUuid uuid) }.identified caller := by
  dsimp only
  unfold registerReceived
  cases hcode : extractStatusCode (responseText received i.stack) with
  | none => exact .inl ⟨by simp [registeredUuid, hcode], .crashed, .inr rfl, by simp [hcode]⟩
  | some code =>
    by_cases h200 : code = 200
    · cases huuid : registeredUuid (responseText received i.stack) with
      | none => exact .inl ⟨rfl, .crashed, .inr rfl, by simp [hcode, h200, huuid]⟩
      | some uuid => exact .inr ⟨uuid, rfl, by simp [hcode, h200, huuid]⟩
    · exact .inl ⟨by simp [registeredUuid, hcode, h200], .exited, .inl rfl, by simp [hcode, h200]⟩

theorem takeBatch_spec (c : Settings) (pkts : List FullInternetPacket) (now : Tm) (t : Thread) :
    t.takeBatch c pkts now = t.goto .crashed ∨
      ∃ payload, generateJsonPayload c.services pkts = some payload ∧
        let jsonRequest := generateRequest (c.sender now) payload t.uuidText
        t.takeBatch c pkts now =
          { t.record (.took jsonRequest) with jsonRequest, pc := .ingestSend } := by
  unfold takeBatch
  cases generateJsonPayload c.services pkts with
  | none => exact .inl rfl
  | some payload => exact .inr ⟨payload, rfl, rfl⟩

/-- The code read from a response to an ingest request decides what
follows. -/
theorem ingestReceived_spec (c : Settings) (chunk : Chunk) (i : Input) (t : Thread) :
    let code := extractStatusCode (cString ((t.fill chunk).recvBuffer ++ i.stack))
    let next := (t.fill chunk).answered .ingest (.data chunk) code none
    code = none ∧ t.ingestReceived c (.data chunk) i = next.goto .crashed ∨
      code ≠ some 200 ∧ t.ingestReceived c (.data chunk) i = next.caseNotOk c .ingest i.now ∨
      code = some 200 ∧
        t.ingestReceived c (.data chunk) i = (next.record .released).goto .wait := by
  unfold ingestReceived
  dsimp only
  cases extractStatusCode (cString ((t.fill chunk).recvBuffer ++ i.stack)) with
  | none => exact .inl ⟨rfl, rfl⟩
  | some code =>
    by_cases hcode : code = 200
    · exact .inr (.inr ⟨by rw [hcode], by simp [hcode]⟩)
    · exact .inr (.inl ⟨by simpa using hcode, by simp [hcode]⟩)

end Thread

end WireSentinel
