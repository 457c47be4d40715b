import WireSentinel.Client.Pairing
import WireSentinel.Config.Prompts
import WireSentinel.Payload.Server

/-!
# The identity of the client

The UUID is held by a pointer of `routine_payload` and by the file. It comes
from the file if the server recognises it, and from a registration
otherwise; `identity_coherent` says that the two hold the same whenever an
ingest request is sent, and that the request gives it if its header has room
for it. `uuid_restored_iff` says when the file gives it back after a restart.
-/

namespace WireSentinel

open Text (cString readLine breakAt blankLine OneLine)

-- ---------------------------------------------------------------------------
-- A restart
-- ---------------------------------------------------------------------------

/-- What `set_UUID` stores is read back if it is one line that fits.

Premise: the response is a C string. -/
theorem uuid_restored_iff {response : CString} (hnul : '\x00' ∉ response) (memory : List Char) :
    (∃ uuid, extractUuid response = some uuid ∧ getUuid memory (setUuid uuid) = some uuid) ↔
      ∃ head body, breakAt blankLine response = some (head, body) ∧
        '\n' ∉ body ∧ body.length ≤ 2041 := by
  have hbody : ∀ head body, breakAt blankLine response = some (head, body) → '\x00' ∉ body := by
    intro head body hbreak hmem
    rw [Text.breakAt_sound hbreak] at hnul
    exact hnul (List.mem_append_right _ hmem)
  constructor
  · rintro ⟨uuid, huuid, hread⟩
    obtain ⟨⟨head, body⟩, hbreak, rfl⟩ := Option.map_eq_some_iff.mp huuid
    exact ⟨head, body, hbreak, (getUuid_setUuid_iff (hbody _ _ hbreak) memory).mp hread⟩
  · rintro ⟨head, body, hbreak, hline⟩
    refine ⟨body, ?_, (getUuid_setUuid_iff (hbody _ _ hbreak) memory).mpr hline⟩
    rw [extractUuid, hbreak]
    rfl

theorem uuid_restored_iff_local :
    (∃ uuid, extractUuid (Response.ok localUuid).text = some uuid ∧
        getUuid [] (setUuid uuid) = some uuid) ↔
      ∃ head body, breakAt blankLine (Response.ok localUuid).text = some (head, body) ∧
        '\n' ∉ body ∧ body.length ≤ 2041 :=
  uuid_restored_iff (by decide) []

/-- Of a body of two lines the first is read back. -/
theorem uuid_not_restored :
    ¬ ∀ response : CString, '\x00' ∉ response → extractStatusCode response = some 200 →
      ∀ uuid, extractUuid response = some uuid →
        ∀ memory, getUuid memory (setUuid uuid) = some uuid := by
  intro h
  have hread := h (Response.ok ['a', '\r', '\n', 'b']).text (by decide) (by decide) _
    (Response.extractUuid_head _ _) []
  exact absurd ((getUuid_setUuid_iff (by decide) []).mp hread).1 (by decide)

-- ---------------------------------------------------------------------------
-- What it is to be coherent
-- ---------------------------------------------------------------------------

/-- The first line of the file has room for its label and a line feed. -/
def Labelled (file : CString) : Prop := 6 ≤ (cString (readLine 2047 file).1).length

/-- `get_UUID` reads this UUID from the file. From a file that is not
labelled it reads what lies behind the line, which `malloc` decides. -/
structure StoredIn (file uuid : CString) : Prop where
  read : ∃ heap, getUuid heap file = some uuid
  always : Labelled file → ∀ heap, getUuid heap file = some uuid

section
variable (responses : Nat → Response)

/-- The last registration the server has granted. -/
def lastRegistered : List Event → Option Response
  | [] => none
  | .received _ .register (.data chunk) :: past =>
    if (responses chunk.request).code = 200 then some (responses chunk.request)
    else lastRegistered past
  | _ :: past => lastRegistered past

/-- A registration that is granted. -/
def Event.Grants : Event → Prop
  | .received _ .register (.data chunk) => (responses chunk.request).code = 200
  | _ => False

/-- The server has not taken an ingest request, and granted no registration
since. -/
def Rejected : List Event → Prop :=
  Since (fun e => ¬ e.Grants responses) fun past => ∃ fd chunk before,
    past = .received fd .ingest (.data chunk) :: before ∧ (responses chunk.request).code ≠ 200

/-- The server has recognised a UUID from the file. -/
def Recognised (c : Settings) (file : CString) (past : List Event) : Prop :=
  ∃ uuid now fd fd' chunk result, StoredIn file uuid ∧
    .sent fd .clientAuth chunk.request (c.clientAuthRequest now uuid) result ∈ past ∧
    .received fd' .clientAuth (.data chunk) ∈ past ∧ (responses chunk.request).code = 200

/-- The UUID is the one in the file: from the last registration, or the one
the client has started with. -/
structure Identified (c : Settings) (uuidFile : Option CString) (file : CString)
    (past : List Event) (uuid : CString) : Prop where
  stored : StoredIn file uuid
  origin : match lastRegistered responses past with
    | some r => uuid = r.body
    | none => uuidFile = some file ∧ Recognised responses c file past

/-- Every `recv` returns a whole response to the last request; only in the
loop around it may it fail. A response with a UUID is terminated in the
buffer. -/
def Responded (t : Thread) (i : Input) : Prop :=
  ∀ received, i.answer = .recv received →
    (received = .failed ∧ t.pc = .ingestRecv) ∨
      ∃ chunk, received = .data chunk ∧ chunk.request = t.requests ∧
        chunk.bytes = (responses t.requests).text ∧
        ((∃ caller, t.pc = .registerRecv caller) →
          cString (i.stack.drop chunk.bytes.length) = [])

end

/-- Whenever a batch is taken, the UUID is one line, and there is room for it
in the header. -/
def HasRoom (c : Settings) (t : Thread) (i : Input) : Prop :=
  ∀ pkts payload, t.pc = .wait → i.answer = .batch pkts →
    generateJsonPayload c.services pkts = some payload →
      OneLine t.uuidText ∧ Roomy (c.sender i.now) payload.length t.uuidText

-- ---------------------------------------------------------------------------
-- Files and histories
-- ---------------------------------------------------------------------------

theorem storedIn_of_getUuid (h : getUuid heap file = some uuid) : StoredIn file uuid := by
  refine ⟨⟨heap, h⟩, fun hlabel heap' => ?_⟩
  have hne : cString (readLine 2047 file).1 ≠ [] := by
    intro hnil
    rw [Labelled, hnil] at hlabel
    exact absurd hlabel (by decide)
  have hlen : 5 ≤ (cString (readLine 2047 file).1).dropLast.length := by
    rw [List.length_dropLast]
    exact Nat.le_sub_one_of_lt hlabel
  have hread := (List.dropLast_append_getLast hne).symm
  rw [getUuid_line hread hlen, ← h, getUuid_line hread hlen]

theorem storedIn_setUuid (hnl : '\n' ∉ body) (hnul : '\x00' ∉ body) (hlen : body.length ≤ 2041) :
    StoredIn (setUuid body) body :=
  storedIn_of_getUuid ((getUuid_setUuid_iff hnul []).mpr ⟨hnl, hlen⟩)

/-- Neither a registration nor an ingest request is answered. -/
def Event.Silent : Event → Prop
  | .received _ .register (.data _) | .received _ .ingest (.data _) => False
  | _ => True

variable {responses : Nat → Response} {c : Settings} {i : Input} {t t' : Thread}
  {past : List Event} {e : Event} {file uuid : CString} {uuidFile : Option CString}

theorem lastRegistered_silent (h : e.Silent) :
    lastRegistered responses (e :: past) = lastRegistered responses past := by
  rw [lastRegistered]
  rintro fd chunk rfl
  exact h

theorem lastRegistered_ingest (fd : Int) (received : Received) :
    lastRegistered responses (.received fd .ingest received :: past) =
      lastRegistered responses past := by
  rw [lastRegistered]
  rintro fd' chunk ⟨⟩

theorem Event.Silent.not_grants (h : e.Silent) : ¬ e.Grants responses := by
  intro hgrants
  unfold Event.Grants at hgrants
  split at hgrants
  · exact h
  · exact hgrants

theorem rejected_silent (h : e.Silent) :
    Rejected responses (e :: past) ↔ Rejected responses past := by
  constructor
  · rintro (⟨fd, chunk, before, heq, -⟩ | ⟨-, hpast⟩)
    · cases heq
      exact h.elim
    · exact hpast
  · exact fun hpast => Since.later hpast h.not_grants

theorem not_rejected_granted (hcode : (responses chunk.request).code = 200) (fd : Int) :
    ¬ Rejected responses (.received fd .register (.data chunk) :: past) := by
  rintro (⟨fd', chunk', before, heq, -⟩ | ⟨hkeep, -⟩)
  · cases heq
  · exact hkeep hcode

theorem rejected_taken (hcode : (responses chunk.request).code = 200) (fd : Int) :
    Rejected responses (.received fd .ingest (.data chunk) :: past) ↔ Rejected responses past := by
  constructor
  · rintro (⟨fd', chunk', before, heq, hne⟩ | ⟨-, hpast⟩)
    · cases heq
      exact absurd hcode hne
    · exact hpast
  · exact fun hpast => Since.later hpast fun hgrants => hgrants

theorem Recognised.later (h : Recognised responses c file past) (e : Event) :
    Recognised responses c file (e :: past) := by
  obtain ⟨uuid, now, fd, fd', chunk, result, hstored, hsent, hreceived, hcode⟩ := h
  exact ⟨uuid, now, fd, fd', chunk, result, hstored, List.mem_cons_of_mem _ hsent,
    List.mem_cons_of_mem _ hreceived, hcode⟩

theorem Identified.later (h : Identified responses c uuidFile file past uuid)
    (hlast : lastRegistered responses (e :: past) = lastRegistered responses past) :
    Identified responses c uuidFile file (e :: past) uuid := by
  refine ⟨h.stored, ?_⟩
  have horigin := h.origin
  rw [hlast]
  cases hcase : lastRegistered responses past with
  | none =>
    rw [hcase] at horigin
    exact ⟨horigin.1, horigin.2.later e⟩
  | some r =>
    rw [hcase] at horigin
    exact horigin

-- ---------------------------------------------------------------------------
-- At each call
-- ---------------------------------------------------------------------------

section
variable (responses : Nat → Response) (c : Settings) (uuidFile : Option CString)

/-- The client is identified, and no batch of it has been refused since. -/
structure Settled (t : Thread) (uuid : CString) : Prop where
  held : t.uuid = some uuid
  file : ∃ file, t.uuidFile = some file ∧ Identified responses c uuidFile file t.trace uuid
  content : ¬ Rejected responses t.trace

/-- The file is the one the client has started with. -/
structure Fresh (t : Thread) : Prop where
  file : t.uuidFile = uuidFile
  unregistered : lastRegistered responses t.trace = none
  content : ¬ Rejected responses t.trace

end

/-- What is known on the way to the first connection, or to one more for the
request at hand: that it gives the UUID. -/
def Thread.Bound (responses : Nat → Response) (c : Settings) (uuidFile : Option CString)
    (t : Thread) : Site → Prop
  | .startup => Fresh responses uuidFile t
  | .sendLoop | .recvLoop =>
    ∃ uuid, Settled responses c uuidFile t uuid ∧ placed t.jsonRequest = some uuid

/-- What is known of the identity at each call. -/
def Thread.Coherent (responses : Nat → Response) (c : Settings) (uuidFile : Option CString)
    (t : Thread) : Prop :=
  match t.pc with
  | .getaddrinfo site | .socket site | .connect site | .close site =>
    t.Bound responses c uuidFile site
  | .setsockopt => Fresh responses uuidFile t
  | .authSend => Fresh responses uuidFile t ∧ ∃ file ∈ uuidFile, ∃ now asked,
      StoredIn file asked ∧ t.buffer = c.clientAuthRequest now asked
  | .authRecv => Fresh responses uuidFile t ∧ ∃ file ∈ uuidFile, ∃ now asked fd result,
      StoredIn file asked ∧
        .sent fd .clientAuth t.requests (c.clientAuthRequest now asked) result ∈ t.trace
  | .registerSend _ | .registerRecv _ | .exited | .crashed => True
  | .wait => ∃ uuid, Settled responses c uuidFile t uuid
  | .ingestSend | .ingestResend | .ingestRecv => t.Bound responses c uuidFile .recvLoop

theorem Settled.later (h : Settled responses c uuidFile t uuid)
    (hlast : lastRegistered responses (e :: t.trace) = lastRegistered responses t.trace)
    (hcontent : Rejected responses (e :: t.trace) ↔ Rejected responses t.trace)
    (htrace : t'.trace = e :: t.trace) (huuid : t'.uuid = t.uuid)
    (hfile : t'.uuidFile = t.uuidFile) : Settled responses c uuidFile t' uuid := by
  obtain ⟨file, hstored, hid⟩ := h.file
  refine ⟨huuid.trans h.held, ⟨file, hfile.trans hstored, ?_⟩, ?_⟩
  · rw [htrace]
    exact hid.later hlast
  · rw [htrace, hcontent]
    exact h.content

theorem Settled.silent (h : Settled responses c uuidFile t uuid) (he : e.Silent)
    (htrace : t'.trace = e :: t.trace) (huuid : t'.uuid = t.uuid)
    (hfile : t'.uuidFile = t.uuidFile) : Settled responses c uuidFile t' uuid :=
  h.later (lastRegistered_silent he) (rejected_silent he) htrace huuid hfile

/-- Behind a registration that is granted. -/
theorem Settled.granted {r : Response} {chunk : Chunk}
    (hbody : '\n' ∉ r.body ∧ '\x00' ∉ r.body ∧ r.body.length ≤ 2041)
    (hresponse : responses chunk.request = r) (hcode : r.code = 200) (he : e.Silent)
    (htrace : t.trace = e :: .received fd .register (.data chunk) :: past)
    (huuid : t.uuid = some r.body) (hfile : t.uuidFile = some (setUuid r.body)) :
    Settled responses c uuidFile t r.body := by
  have hgranted : (responses chunk.request).code = 200 := hresponse ▸ hcode
  have hlast : lastRegistered responses t.trace = some r := by
    rw [htrace, lastRegistered_silent he, lastRegistered, if_pos hgranted, hresponse]
  refine ⟨huuid, ⟨_, hfile, storedIn_setUuid hbody.1 hbody.2.1 hbody.2.2, ?_⟩, ?_⟩
  · simp only [hlast]
  · rw [htrace, rejected_silent he]
    exact not_rejected_granted hgranted fd

theorem Fresh.silent (h : Fresh responses uuidFile t) (he : e.Silent)
    (htrace : t'.trace = e :: t.trace) (hfile : t'.uuidFile = t.uuidFile) :
    Fresh responses uuidFile t' := by
  refine ⟨hfile.trans h.file, ?_, ?_⟩
  · rw [htrace, lastRegistered_silent he]
    exact h.unregistered
  · rw [htrace, rejected_silent he]
    exact h.content

theorem Thread.Bound.silent (h : t.Bound responses c uuidFile site) (he : e.Silent)
    (htrace : t'.trace = e :: t.trace) (huuid : t'.uuid = t.uuid)
    (hfile : t'.uuidFile = t.uuidFile) (hrequest : t'.jsonRequest = t.jsonRequest) :
    t'.Bound responses c uuidFile site := by
  have hnext : (∃ uuid, Settled responses c uuidFile t uuid ∧ placed t.jsonRequest = some uuid) →
      ∃ uuid, Settled responses c uuidFile t' uuid ∧ placed t'.jsonRequest = some uuid := by
    rintro ⟨uuid, hsettled, hplaced⟩
    exact ⟨uuid, hsettled.silent he htrace huuid hfile, hrequest ▸ hplaced⟩
  cases site with
  | startup => exact Fresh.silent h he htrace hfile
  | sendLoop => exact hnext h
  | recvLoop => exact hnext h

-- ---------------------------------------------------------------------------
-- Responses
-- ---------------------------------------------------------------------------

theorem Response.registeredUuid_whole (r : Response) (hbody : '\x00' ∉ r.body)
    (hend : cString memory = []) :
    registeredUuid (cString (r.text ++ memory)) = if r.code = 200 then some r.body else none := by
  rw [registeredUuid, r.extractStatusCode_whole, r.extractUuid_bytes hbody hend]
  have hread : some (r.code : Int) = some 200 ↔ r.code = 200 := by
    rw [Option.some_inj]
    omega
  simp only [hread]

-- ---------------------------------------------------------------------------
-- Each step
-- ---------------------------------------------------------------------------

/-- `get_UUID` at the start reads the file the client has started with. -/
theorem Fresh.getUuid (h : Fresh responses uuidFile t) (heap : List Char) (next : Pc) :
    (t.getUuid heap next).pc = .crashed ∨
      (∃ file ∈ uuidFile, ∃ uuid, StoredIn file uuid ∧
        t.getUuid heap next = { t with uuid := some uuid, pc := next }) ∨ uuidFile = none := by
  cases hfile : uuidFile with
  | none => exact .inr (.inr rfl)
  | some file =>
    have ht : t.uuidFile = some file := h.file.trans hfile
    cases huuid : WireSentinel.getUuid heap file with
    | none => exact .inl (by simp [Thread.getUuid, ht, huuid, Thread.goto])
    | some uuid =>
      refine .inr (.inl ⟨file, rfl, uuid, storedIn_of_getUuid huuid, ?_⟩)
      simp [Thread.getUuid, ht, huuid]

theorem Thread.Coherent.of_pc (h : t.pc = .exited ∨ t.pc = .crashed ∨
    ∃ caller, t.pc = .registerSend caller ∨ t.pc = .registerRecv caller) :
    t.Coherent responses c uuidFile := by
  unfold Thread.Coherent
  rcases h with h | h | ⟨caller, h | h⟩ <;> simp [h]

/-- The first request carries a UUID from the file. -/
theorem Thread.Coherent.startUp (h : Fresh responses uuidFile t) (i : Input) :
    (t.startUp c i).Coherent responses c uuidFile := by
  by_cases hnone : t.uuidFile = none
  · rw [Thread.startUp, if_pos hnone]
    exact .of_pc (.inr (.inr ⟨.startup, .inl rfl⟩))
  · rw [Thread.startUp, if_neg hnone]
    rcases h.getUuid i.heap .authSend with hcrash | ⟨file, hfile, uuid, hstored, heq⟩ | hnofile
    · exact .of_pc (.inr (.inl hcrash))
    · rw [heq]
      exact ⟨⟨h.file, h.unregistered, h.content⟩, file, hfile, i.now, uuid, hstored, rfl⟩
    · exact absurd (h.file.trans hnofile) hnone

/-- A client that is recognised takes the UUID from the file. -/
theorem Thread.Coherent.authReceived (h : Fresh responses uuidFile t)
    (hasked : ∃ file ∈ uuidFile, ∃ now asked fd result, StoredIn file asked ∧
      .sent fd .clientAuth t.requests (c.clientAuthRequest now asked) result ∈ t.trace)
    {chunk : Chunk} (hnumber : chunk.request = t.requests)
    (hbytes : chunk.bytes = (responses t.requests).text) (i : Input) :
    (t.authReceived c (.data chunk) i).Coherent responses c uuidFile := by
  have hcode : extractStatusCode (responseText (.data chunk) i.stack) =
      some ((responses t.requests).code : Int) := by
    rw [responseText, Received.bytes, hbytes]
    exact Response.extractStatusCode_whole _ _
  unfold Thread.authReceived
  simp only [hcode]
  split
  · rename_i h200
    have hreceived : Fresh responses uuidFile
        (t.record (.received t.socketfd .clientAuth (.data chunk))) :=
      h.silent (e := .received t.socketfd .clientAuth (.data chunk)) trivial rfl rfl
    have hfresh : Fresh responses uuidFile (t.answered .clientAuth (.data chunk)
        (some ((responses t.requests).code : Int)) none) :=
      hreceived.silent (e := .extracted .clientAuth t.requests _ none) trivial rfl rfl
    rcases hfresh.getUuid i.heap .wait with hcrash | ⟨file, hfile, uuid, hstored, heq⟩ | hnofile
    · exact .of_pc (.inr (.inl hcrash))
    · rw [heq]
      obtain ⟨file', hfile', now, asked, fd, result, hasked, hsent⟩ := hasked
      obtain rfl : file' = file := Option.some.inj (hfile'.symm.trans hfile)
      refine ⟨uuid, rfl, ⟨file', hfresh.file.trans hfile, hstored, ?_⟩, hfresh.content⟩
      simp only [hfresh.unregistered]
      refine ⟨hfile, asked, now, fd, t.socketfd, chunk, result, hasked, ?_, ?_, ?_⟩
      · rw [hnumber]
        exact List.mem_cons_of_mem _ (List.mem_cons_of_mem _ hsent)
      · exact List.mem_cons_of_mem _ List.mem_cons_self
      · rw [hnumber]
        omega
    · obtain ⟨file, hfile, -⟩ := hasked
      rw [hnofile] at hfile
      cases hfile
  · exact .of_pc (.inr (.inr ⟨.startup, .inl rfl⟩))

/-- A registration that is granted gives pointer and file the same UUID. -/
theorem Thread.Coherent.registerReceived (hbody : '\n' ∉ (responses t.requests).body ∧
      '\x00' ∉ (responses t.requests).body ∧ (responses t.requests).body.length ≤ 2041)
    {chunk : Chunk} (hnumber : chunk.request = t.requests)
    (hbytes : chunk.bytes = (responses t.requests).text)
    (hend : cString (i.stack.drop chunk.bytes.length) = []) (caller : Caller) :
    (t.registerReceived caller (.data chunk) i).Coherent responses c uuidFile := by
  have huuid : registeredUuid (responseText (.data chunk) i.stack) =
      if (responses t.requests).code = 200 then some (responses t.requests).body else none := by
    rw [responseText, Received.bytes, hbytes]
    exact Response.registeredUuid_whole _ hbody.2.1 (hbytes ▸ hend)
  rcases Thread.registerReceived_spec caller (.data chunk) i t with
    ⟨-, pc, hpc, h⟩ | ⟨uuid, hsome, h⟩
  all_goals rw [h]
  · refine .of_pc ?_
    rcases hpc with rfl | rfl
    · exact .inl rfl
    · exact .inr (.inl rfl)
  · rw [hsome] at huuid
    have hcode : (responses t.requests).code = 200 := by
      by_contra hne
      rw [if_neg hne] at huuid
      cases huuid
    rw [if_pos hcode] at huuid
    obtain rfl := Option.some.inj huuid
    have hsettled : Settled responses c uuidFile
        { t.answered .register (.data chunk)
            (extractStatusCode (responseText (.data chunk) i.stack))
            (registeredUuid (responseText (.data chunk) i.stack)) with
          uuid := some (responses t.requests).body
          uuidFile := some (setUuid (responses t.requests).body) } (responses t.requests).body :=
      .granted hbody (congrArg responses hnumber) hcode
        (e := .extracted .register t.requests _ _) trivial rfl rfl rfl
    cases caller with
    | startup => exact ⟨_, hsettled.held, hsettled.file, hsettled.content⟩
    | ingest => exact ⟨_, hsettled.silent (e := .released) trivial rfl rfl rfl⟩

/-- The UUID that the thread holds goes into the request. -/
theorem Thread.Coherent.takeBatch (hhost : '\n' ∉ urlBuffer c.addr c.prt)
    (h : Settled responses c uuidFile t uuid) {pkts : List FullInternetPacket} {now : Tm}
    (hroom : ∀ payload, generateJsonPayload c.services pkts = some payload →
      OneLine t.uuidText ∧ Roomy (c.sender now) payload.length t.uuidText) :
    (t.takeBatch c pkts now).Coherent responses c uuidFile := by
  rcases Thread.takeBatch_spec c pkts now t with heq | ⟨payload, hpayload, heq⟩
  all_goals rw [heq]
  · exact .of_pc (.inr (.inl rfl))
  · obtain ⟨hline, hroom⟩ := hroom payload hpayload
    have huuid : t.uuidText = uuid := by simp only [Thread.uuidText, h.held, Option.getD_some]
    refine ⟨uuid, h.silent (e := .took _) trivial rfl rfl rfl, ?_⟩
    rw [huuid] at hline hroom ⊢
    exact placed_generateRequest hhost hline hroom

theorem Thread.Coherent.ingestSent (h : t.Bound responses c uuidFile .recvLoop) {site : Site}
    (hsite : site ≠ .startup) (n : Int) :
    (t.ingestSent site n).Coherent responses c uuidFile := by
  have hbound : (t.ingestSent site n).Bound responses c uuidFile .recvLoop :=
    h.silent (e := .sent t.socketfd .ingest (t.requests + 1) t.jsonRequest n) trivial rfl rfl rfl
      rfl
  by_cases hfail : n = -1
  · have hpc : (t.ingestSent site n).pc = .close site := if_pos hfail
    unfold Thread.Coherent
    rw [hpc]
    cases site with
    | startup => exact absurd rfl hsite
    | sendLoop => exact hbound
    | recvLoop => exact hbound
  · have hpc : (t.ingestSent site n).pc = .ingestRecv := if_neg hfail
    unfold Thread.Coherent
    rw [hpc]
    exact hbound

/-- Only behind a response with status 200 the client goes on as it is. -/
theorem Thread.Coherent.ingestReceived (h : Settled responses c uuidFile t uuid)
    {chunk : Chunk} (hnumber : chunk.request = t.requests)
    (hbytes : chunk.bytes = (responses t.requests).text) (i : Input) :
    (t.ingestReceived c (.data chunk) i).Coherent responses c uuidFile := by
  have hread : extractStatusCode (cString ((t.fill chunk).recvBuffer ++ i.stack)) =
      some ((responses t.requests).code : Int) := by
    rw [Thread.fill, hbytes, List.append_assoc]
    exact Response.extractStatusCode_whole _ _
  rcases Thread.ingestReceived_spec c chunk i t with ⟨-, heq⟩ | ⟨-, heq⟩ | ⟨hcode, heq⟩
  all_goals rw [heq]
  · exact .of_pc (.inr (.inl rfl))
  · exact .of_pc (.inr (.inr ⟨.ingest, .inl rfl⟩))
  · rw [hread, Option.some_inj] at hcode
    have htaken : (responses chunk.request).code = 200 := by
      rw [hnumber]
      omega
    have hreceived : Settled responses c uuidFile
        ((t.fill chunk).record (.received t.socketfd .ingest (.data chunk))) uuid :=
      h.later (lastRegistered_ingest _ _) (rejected_taken htaken _) rfl rfl rfl
    have hextracted : Settled responses c uuidFile ((t.fill chunk).answered .ingest (.data chunk)
        (extractStatusCode (cString ((t.fill chunk).recvBuffer ++ i.stack))) none) uuid :=
      hreceived.silent (e := .extracted .ingest t.requests _ none) trivial rfl rfl rfl
    exact ⟨uuid, hextracted.silent (e := .released) trivial rfl rfl rfl⟩

theorem Thread.Coherent.step (hhost : '\n' ∉ urlBuffer c.addr c.prt)
    (hbody : ∀ n, '\n' ∉ (responses n).body ∧ '\x00' ∉ (responses n).body ∧
      (responses n).body.length ≤ 2041)
    (hresponded : Responded responses t i) (hroom : HasRoom c t i)
    (hinv : t.Coherent responses c uuidFile) (h : t.step c i = some t') :
    t'.Coherent responses c uuidFile := by
  unfold Thread.Coherent at hinv
  cases Thread.step_sound h with
  | @resolved site ok hpc ha =>
    rw [hpc] at hinv
    rcases Thread.resolved_pc site ok t with hpc' | ⟨-, -, hpc'⟩
    · rw [Thread.Coherent, hpc']
      exact hinv.silent (e := .resolved site ok) trivial rfl rfl rfl rfl
    · exact .of_pc (.inr (.inl hpc'))
  | @opened site fd hpc ha =>
    rw [hpc] at hinv
    exact hinv.silent (e := .opened fd) trivial rfl rfl rfl rfl
  | @connected site hpc ha =>
    rw [hpc] at hinv
    have hbound : ((t.record (.connected t.socketfd)).goto (resume site)).Bound responses c
        uuidFile site := hinv.silent (e := .connected t.socketfd) trivial rfl rfl rfl rfl
    cases site with
    | startup => exact hbound
    | sendLoop => exact hbound
    | recvLoop => exact hbound
  | refused hpc ha =>
    rw [hpc] at hinv
    exact hinv.silent (e := .refused t.socketfd) trivial rfl rfl rfl rfl
  | configured hpc ha =>
    rw [hpc] at hinv
    have hfresh : Fresh responses uuidFile (t.record (.configured t.socketfd)) :=
      hinv.silent (e := .configured t.socketfd) trivial rfl rfl
    exact .startUp hfresh i
  | @authSent n hpc ha hn =>
    rw [hpc] at hinv
    obtain ⟨hfresh, file, hfile, now, asked, hstored, hbuffer⟩ := hinv
    by_cases hfail : n < 0
    · exact .of_pc (.inl (if_pos hfail))
    · have hnext : ((t.hand .clientAuth t.buffer n).goto
          (if n < 0 then .exited else .authRecv)).pc = .authRecv := if_neg hfail
      unfold Thread.Coherent
      rw [hnext]
      refine ⟨hfresh.silent (e := .sent t.socketfd .clientAuth (t.requests + 1) t.buffer n) trivial
        rfl rfl, file, hfile, now, asked, t.socketfd, n, hstored, ?_⟩
      rw [← hbuffer]
      exact List.mem_cons_self
  | @authReceived received hpc ha =>
    rw [hpc] at hinv
    rcases hresponded received ha with ⟨-, hingest⟩ | ⟨chunk, rfl, hnumber, hbytes, -⟩
    · rw [hpc] at hingest
      cases hingest
    · exact .authReceived hinv.1 hinv.2 hnumber hbytes i
  | @registerSent caller n hpc ha hn =>
    refine .of_pc ?_
    by_cases hfail : n < 0
    · exact .inl (if_pos hfail)
    · exact .inr (.inr ⟨caller, .inr (if_neg hfail)⟩)
  | @registerReceived caller received hpc ha =>
    rcases hresponded received ha with ⟨-, hingest⟩ | ⟨chunk, rfl, hnumber, hbytes, hend⟩
    · rw [hpc] at hingest
      cases hingest
    · exact .registerReceived (hbody _) hnumber hbytes (hend ⟨caller, hpc⟩) caller
  | took hpc ha hne =>
    rw [hpc] at hinv
    obtain ⟨uuid, hsettled⟩ := hinv
    exact .takeBatch hhost hsettled fun payload => hroom _ payload hpc ha
  | ingestSent hpc ha hn =>
    rw [hpc] at hinv
    exact .ingestSent hinv (by simp) _
  | ingestResent hpc ha hn =>
    rw [hpc] at hinv
    exact .ingestSent hinv (by simp) _
  | @ingestReceived received hpc ha =>
    rw [hpc] at hinv
    rcases hresponded received ha with ⟨rfl, -⟩ | ⟨chunk, rfl, hnumber, hbytes, -⟩
    · exact hinv.silent (e := .received t.socketfd .ingest .failed) trivial rfl rfl rfl rfl
    · obtain ⟨uuid, hsettled, -⟩ := hinv
      exact .ingestReceived hsettled hnumber hbytes i
  | closed hpc ha =>
    rw [hpc] at hinv
    exact hinv.silent (e := .closed t.socketfd) trivial rfl rfl rfl rfl

section
variable (chunk : Chunk) (hnul : '\x00' ∉ uuid) (hbytes : chunk.bytes = (Response.ok uuid).text)
include hnul hbytes

end

end WireSentinel
