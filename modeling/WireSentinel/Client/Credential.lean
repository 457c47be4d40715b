import WireSentinel.Client.Thread
import WireSentinel.Payload.Server

/-!
# What a credential vouches for

The HMAC of a request is over a text of four lines: the time, and the length
of the body or the agent. `admits` is the check of a server that holds the
key, `Composed` what the client puts together; `credential_binds` says when two
requests that are let in show the same credential.
-/

namespace WireSentinel

open Text (lit snprintf snprintf_eq decimal hexByte readHex OneLine crlf crlfLines blankLine
  breakAt)

-- ---------------------------------------------------------------------------
-- The text
-- ---------------------------------------------------------------------------

/-- The values of the headers the HMAC is over: of a request without a body,
and of one with a body. -/
inductive Signed where
  | greeting (stamp agent : CString)
  | ingest (stamp length : CString)
  deriving DecidableEq

namespace Signed

def stamp : Signed → CString
  | greeting stamp _ | ingest stamp _ => stamp

/-- The line below the time. -/
def field : Signed → CString
  | greeting _ agent => lit "  User-Agent: " ++ agent
  | ingest _ length => lit "  Length: " ++ length

def lines (s : Signed) : List CString :=
  [lit "\x7b", lit "  X-WireSentinel-Timestamp: " ++ s.stamp ++ lit ",", s.field, lit "\x7d"]

def text (s : Signed) : CString := crlf.intercalate s.lines

/-- No value goes over a line's end. -/
def OneLined : Signed → Prop
  | greeting stamp agent => OneLine stamp ∧ OneLine agent
  | ingest stamp length => OneLine stamp ∧ OneLine length

theorem lines_oneLine {s : Signed} (h : s.OneLined) : ∀ l ∈ s.lines, OneLine l := by
  have hstamp : OneLine s.stamp := by
    cases s with
    | greeting | ingest => exact h.1
  have hfield : OneLine s.field := by
    cases s with
    | greeting _ value | ingest _ value =>
      refine OneLine.append ?_ h.2 ?_
      all_goals
        simp only [Text.lit_eq, String.reduceToList]
        decide
  have hcomma : lit "," = [','] := Text.lit_eq _
  simp only [lines, hcomma, List.append_assoc, List.forall_mem_cons, List.not_mem_nil,
    IsEmpty.forall_iff, implies_true, and_true]
  refine ⟨?_, OneLine.append ?_ (hstamp.concat (by decide)) ?_, hfield, ?_⟩
  all_goals
    simp only [Text.lit_eq, String.reduceToList]
    decide

theorem text_injective {a b : Signed} (ha : a.OneLined) (hb : b.OneLined) (h : a.text = b.text) :
    a = b := by
  have hlines : a.lines = b.lines := by
    have hcut := congrArg crlfLines h
    rwa [text, text, Text.crlfLines_intercalate (by simp [lines]) (lines_oneLine ha),
      Text.crlfLines_intercalate (by simp [lines]) (lines_oneLine hb)] at hcut
  simp only [lines, List.cons.injEq, List.append_cancel_left_eq, List.append_cancel_right_eq,
    and_true, true_and] at hlines
  obtain ⟨hstamp, hfield⟩ := hlines
  cases a with
  | greeting stamp agent =>
    cases b with
    | greeting stamp' agent' =>
      obtain rfl : stamp = stamp' := hstamp
      rw [List.append_cancel_left hfield]
    | ingest stamp' length => simp [field, Text.lit_eq] at hfield
  | ingest stamp length =>
    cases b with
    | greeting stamp' agent => simp [field, Text.lit_eq] at hfield
    | ingest stamp' length' =>
      obtain rfl : stamp = stamp' := hstamp
      rw [List.append_cancel_left hfield]

end Signed

-- ---------------------------------------------------------------------------
-- The check
-- ---------------------------------------------------------------------------

def Endpoint.requestLine : Endpoint → CString
  | .clientAuth => lit "GET /api/client_auth HTTP/1.1"
  | .register => lit "GET /api/register HTTP/1.1"
  | .ingest => lit "POST /api/ingest HTTP/1.1"

/-- What the credential of a request with these lines has to vouch for. -/
def vouched (endpoint : Endpoint) (lines : List CString) : Option Signed := do
  let stamp ← headerValue "X-WireSentinel-Timestamp" lines
  match endpoint with
  | .ingest => (headerValue "Content-Length" lines).map (.ingest stamp)
  | .clientAuth | .register => (headerValue "User-Agent" lines).map (.greeting stamp)

def presented (request : CString) : Option CString := do
  let (lines, _) ← readRequest request
  headerValue "X-WireSentinel-Credential" lines

/-- The UUID that a request carries, which no credential is over. -/
def claimed (request : CString) : Option CString := do
  let (lines, _) ← readRequest request
  headerValue "X-WireSentinel-UUID" lines

/-- The endpoint of a request, and what it has vouched for, if the server lets
it in. -/
def admits (hmac : CString → CString → Digest) (key request : CString) :
    Option (Endpoint × Signed) := do
  let (lines, _) ← readRequest request
  let endpoint ← [Endpoint.clientAuth, .register, .ingest].find? fun endpoint =>
    lines.head? = some endpoint.requestLine
  let signed ← vouched endpoint lines
  let credential ← presented request
  if credential = digestHex (hmac key signed.text) then some (endpoint, signed) else none

variable {hmac : CString → CString → Digest} {key request request' : CString}
  {endpoint endpoint' : Endpoint} {a b signed : Signed} {lines : List CString}

theorem digestHex_injective : Function.Injective digestHex := by
  have hread : ∀ bs : List UInt8, readHex (bs.flatMap hexByte) = some bs := by
    intro bs
    induction bs with
    | nil => rfl
    | cons b bs ih =>
      rw [List.flatMap_cons, Text.readHex_hexByte, ih]
      rfl
  rintro ⟨bs, hbs⟩ ⟨bs', hbs'⟩ h
  have hbytes := congrArg readHex h
  simp only [digestHex, hread, Option.some_inj] at hbytes
  subst hbytes
  rfl

/-- The values of the headers do not go over a line's end. -/
theorem headerValue_oneLine {name : String} {value : CString}
    (h : headerValue name lines = some value) (hlines : ∀ l ∈ lines, OneLine l) :
    OneLine value := by
  obtain ⟨l, hl, heq⟩ := List.exists_of_findSome?_eq_some h
  split at heq
  · obtain rfl := Option.some.inj heq
    exact (hlines l hl).part (List.drop_suffix _ l).isInfix
  · cases heq

theorem vouched_oneLined (h : vouched endpoint lines = some signed)
    (hlines : ∀ l ∈ lines, OneLine l) : signed.OneLined := by
  simp only [vouched, Option.bind_eq_bind, Option.bind_eq_some_iff] at h
  obtain ⟨stamp, hstamp, h⟩ := h
  cases endpoint with
  | clientAuth | register | ingest =>
    obtain ⟨value, hvalue, rfl⟩ := Option.map_eq_some_iff.mp h
    exact ⟨headerValue_oneLine hstamp hlines, headerValue_oneLine hvalue hlines⟩

theorem readRequest_oneLine (h : readRequest request = some (lines, body)) :
    ∀ l ∈ lines, OneLine l := by
  obtain ⟨⟨head, _⟩, -, heq⟩ := Option.map_eq_some_iff.mp h
  obtain ⟨rfl, -⟩ := Prod.mk.inj heq
  exact fun l hl => Text.oneLine_of_mem_crlfLines hl

theorem admits_spec (h : admits hmac key request = some (endpoint, signed)) :
    signed.OneLined ∧ presented request = some (digestHex (hmac key signed.text)) := by
  simp only [admits, Option.bind_eq_bind, Option.bind_eq_some_iff] at h
  obtain ⟨⟨lines, body⟩, hread, e, -, s, hsigned, credential, hcredential, h⟩ := h
  split at h <;> cases h
  rename_i heq
  exact ⟨vouched_oneLined hsigned (readRequest_oneLine hread), heq ▸ hcredential⟩

/-- Two requests that are let in show the same credential only if they have the
same time, and the same length or the same agent; or if the HMAC of two texts
that differ is the same. -/
theorem credential_binds (h : admits hmac key request = some (endpoint, a))
    (h' : admits hmac key request' = some (endpoint', b)) :
    presented request = presented request' ↔
      a = b ∨ a.text ≠ b.text ∧ hmac key a.text = hmac key b.text := by
  obtain ⟨ha, hpresented⟩ := admits_spec h
  obtain ⟨hb, hpresented'⟩ := admits_spec h'
  rw [hpresented, hpresented', Option.some_inj, digestHex_injective.eq_iff]
  constructor
  · intro hdigest
    by_cases htext : a.text = b.text
    · exact .inl (Signed.text_injective ha hb htext)
    · exact .inr ⟨htext, hdigest⟩
  · rintro (rfl | ⟨-, hdigest⟩)
    · rfl
    · exact hdigest

-- ---------------------------------------------------------------------------
-- The client's requests
-- ---------------------------------------------------------------------------

theorem admits_of_lines (hread : readRequest request = some (lines, body))
    (hstart : lines.head? = some endpoint.requestLine) (hsigned : vouched endpoint lines = some a)
    (hcredential : headerValue "X-WireSentinel-Credential" lines =
      some (digestHex (hmac key a.text))) : admits hmac key request = some (endpoint, a) := by
  have hfind : [Endpoint.clientAuth, .register, .ingest].find? (fun endpoint =>
      lines.head? = some endpoint.requestLine) = some endpoint := by
    rw [hstart]
    cases endpoint <;> simp [Endpoint.requestLine, Text.lit_eq]
  simp [admits, presented, hread, hfind, hsigned, hcredential]

variable {c : Settings} {uuid : CString}

/-- The lines of a request without a body. -/
def Settings.greetingLines (c : Settings) (endpoint : Endpoint) (now : Tm)
    (uuid : Option CString) : List CString :=
  [endpoint.requestLine,
    lit "Host: " ++ c.addr ++ lit ":" ++ c.prt,
    lit "X-WireSentinel-Timestamp: " ++ getTime now,
    lit "X-WireSentinel-Credential: " ++ c.greeting now] ++
  uuid.toList.map (lit "X-WireSentinel-UUID: " ++ ·) ++
  [lit "User-Agent: WireSentinel-Agent/1.0"]

/-- The agent of all requests. -/
def agent : CString := lit "WireSentinel-Agent/1.0"

theorem greeting_eq (c : Settings) (now : Tm) :
    c.greeting now = digestHex (c.hmac c.key (Signed.greeting (getTime now) agent).text) := by
  have htext : lit "\x7b\r\n  X-WireSentinel-Timestamp: " ++ getTime now ++
      lit ",\r\n  User-Agent: WireSentinel-Agent/1.0\r\n\x7d" =
      (Signed.greeting (getTime now) agent).text := by
    simp only [Signed.text, Signed.lines, Signed.stamp, Signed.field, agent, Text.lit_eq,
      String.reduceToList]
    simp [crlf, List.intercalate_cons_cons]
  have hlen : (Signed.greeting (getTime now) agent).text.length < 512 := by
    have htime := getTime_length now
    rw [← htext]
    simp only [List.length_append, Text.lit_length, String.reduceToList, List.length_cons,
      List.length_nil]
    omega
  rw [Settings.greeting, htext, snprintf_eq hlen]

theorem credential_eq (c : Settings) (now : Tm) (hn : n < 10 ^ 100) :
    credential (c.sender now) n =
      digestHex (c.hmac c.key (Signed.ingest (getTime now) (decimal n)).text) := by
  have htext : lit "\x7b\r\n  X-WireSentinel-Timestamp: " ++ getTime now ++
      lit ",\r\n  Length: " ++ decimal n ++ lit "\r\n\x7d" =
      (Signed.ingest (getTime now) (decimal n)).text := by
    simp only [Signed.text, Signed.lines, Signed.stamp, Signed.field, Text.lit_eq,
      String.reduceToList]
    simp [crlf, List.intercalate_cons_cons]
  have hlen : (Signed.ingest (getTime now) (decimal n)).text.length < 512 := by
    have htime := getTime_length now
    have hdigits : (decimal n).length ≤ 100 := Text.decimal_length_le (by decide) hn
    rw [← htext]
    simp only [List.length_append, Text.lit_length, String.reduceToList, List.length_cons,
      List.length_nil]
    omega
  rw [credential, signedText, Settings.sender]
  dsimp only
  rw [htext, snprintf_eq hlen]

theorem lit_crlf : lit "\r\n" = crlf := Text.lit_eq _

theorem agent_line : lit "User-Agent: WireSentinel-Agent/1.0\r\n\r\n" =
    lit "User-Agent: WireSentinel-Agent/1.0" ++ blankLine := by
  simp only [Text.lit_eq, String.reduceToList]
  rfl

theorem registerRequest_eq (c : Settings) (now : Tm) :
    c.registerRequest now =
      snprintf 2048 (crlf.intercalate (c.greetingLines .register now none) ++ blankLine) := by
  have hstart : lit "GET /api/register HTTP/1.1\r\n" =
      lit "GET /api/register HTTP/1.1" ++ crlf := by
    simp only [Text.lit_eq, String.reduceToList]
    rfl
  simp only [Settings.registerRequest, Settings.greetingLines, Endpoint.requestLine, hstart,
    lit_crlf, agent_line, Option.toList, List.map_nil, List.append_nil, List.cons_append,
    List.nil_append, List.flatten_cons, List.flatten_nil,
    List.intercalate_cons_cons, List.intercalate_singleton, List.append_assoc]

theorem clientAuthRequest_eq (c : Settings) (now : Tm) (uuid : CString) :
    c.clientAuthRequest now uuid =
      snprintf 2048 (crlf.intercalate (c.greetingLines .clientAuth now (some uuid)) ++
        blankLine) := by
  have hstart : lit "GET /api/client_auth HTTP/1.1\r\n" =
      lit "GET /api/client_auth HTTP/1.1" ++ crlf := by
    simp only [Text.lit_eq, String.reduceToList]
    rfl
  simp only [Settings.clientAuthRequest, Settings.greetingLines, Endpoint.requestLine, hstart,
    lit_crlf, agent_line, Option.toList, List.map_nil, List.map_cons, List.append_nil,
    List.cons_append, List.nil_append, List.flatten_cons, List.flatten_nil,
    List.intercalate_cons_cons, List.intercalate_singleton, List.append_assoc]

theorem greetingLines_oneLine (hc : c.Plain) (endpoint : Endpoint) (now : Tm)
    {uuid : Option CString} (huuid : ∀ u ∈ uuid, OneLine u) :
    ∀ l ∈ c.greetingLines endpoint now uuid, OneLine l ∧ l ≠ [] := by
  have hfield : ∀ {name value : CString}, '\n' ∉ name → name ≠ [] → '\n' ∉ value →
      OneLine (name ++ value) ∧ name ++ value ≠ [] := by
    intro name value hname hne hvalue
    exact ⟨Text.oneLine_of_not_mem (by simp [hname, hvalue]), by simp [hne]⟩
  have hhost : '\n' ∉ c.addr ++ (lit ":" ++ c.prt) := by
    simp [Text.lit_eq, hc.addr.2, hc.prt.2]
  have hnames : OneLine endpoint.requestLine ∧ endpoint.requestLine ≠ [] := by
    cases endpoint with
    | clientAuth | register | ingest =>
      simp only [Endpoint.requestLine, Text.lit_eq, String.reduceToList]
      decide
  have hidentity : ∀ l ∈ uuid.toList.map (lit "X-WireSentinel-UUID: " ++ ·),
      OneLine l ∧ l ≠ [] := by
    refine List.forall_mem_map.mpr fun u hu =>
      ⟨OneLine.append ?_ (huuid u (Option.mem_toList.mp hu)) ?_, ?_⟩
    · simp only [Text.lit_eq, String.reduceToList]
      decide
    · simp only [Text.lit_eq, String.reduceToList]
      decide
    · simp [Text.lit_eq]
  simp only [Settings.greetingLines, List.forall_mem_append, List.forall_mem_cons, List.not_mem_nil,
    IsEmpty.forall_iff, implies_true, and_true, List.append_assoc]
  refine ⟨⟨hnames, hfield ?_ ?_ hhost,
    hfield ?_ ?_ (newline_not_mem_of_unescaped (unescaped_getTime now)),
    hfield ?_ ?_ (newline_not_mem_digestHex _)⟩, hidentity, ?_⟩
  all_goals
    simp only [Text.lit_eq, String.reduceToList]
    decide

theorem greetingLines_length (c : Settings) (endpoint : Endpoint) (now : Tm)
    (uuid : Option CString) :
    (crlf.intercalate (c.greetingLines endpoint now uuid) ++ blankLine).length ≤
      250 + c.addr.length + c.prt.length + (getTime now).length + (uuid.elim 0 List.length) := by
  have hgreeting : (c.greeting now).length = 64 := digestHex_length _
  cases endpoint <;> cases uuid <;>
    simp [Settings.greetingLines, Endpoint.requestLine, crlf, blankLine, hgreeting] <;> omega

theorem readRequest_greeting (hc : c.Plain) (endpoint : Endpoint) (now : Tm)
    {uuid : Option CString} (huuid : ∀ u ∈ uuid, PlainUuid u) :
    readRequest (snprintf 2048
        (crlf.intercalate (c.greetingLines endpoint now uuid) ++ blankLine)) =
      some (c.greetingLines endpoint now uuid, []) := by
  have hne : c.greetingLines endpoint now uuid ≠ [] := by simp [Settings.greetingLines]
  have hlines := greetingLines_oneLine hc endpoint now fun u hu => (huuid u hu).1
  have hfit :
      (crlf.intercalate (c.greetingLines endpoint now uuid) ++ blankLine).length < 2048 := by
    have hlength := greetingLines_length c endpoint now uuid
    have htime := getTime_length now
    have haddr := hc.addr.1
    have hprt := hc.prt.1
    have hle : uuid.elim 0 List.length ≤ 1657 := by
      cases uuid with
      | none => exact Nat.zero_le _
      | some u => exact (huuid u rfl).2
    omega
  have hbreak := Text.breakAt_blankLine hne hlines []
  rw [List.append_nil] at hbreak
  rw [readRequest, snprintf_eq hfit, hbreak, Option.map_some]
  simp only [Text.crlfLines_intercalate hne fun l hl => (hlines l hl).1]

theorem greeting_headers (c : Settings) (endpoint : Endpoint) (now : Tm) (uuid : Option CString) :
    headerValue "X-WireSentinel-Timestamp" (c.greetingLines endpoint now uuid) =
        some (getTime now) ∧
      headerValue "X-WireSentinel-Credential" (c.greetingLines endpoint now uuid) =
        some (c.greeting now) ∧
      headerValue "User-Agent" (c.greetingLines endpoint now uuid) = some agent ∧
      headerValue "X-WireSentinel-UUID" (c.greetingLines endpoint now uuid) = uuid := by
  unfold Settings.greetingLines agent
  generalize getTime now = stamp
  generalize c.greeting now = greeting
  simp only [headerValue, Endpoint.requestLine, Text.lit_eq, String.reduceToList]
  cases endpoint <;> cases uuid <;> simp

theorem admits_greeting (hc : c.Plain) (hendpoint : endpoint ≠ .ingest) (now : Tm)
    {uuid : Option CString} (huuid : ∀ u ∈ uuid, PlainUuid u) :
    admits c.hmac c.key (snprintf 2048
        (crlf.intercalate (c.greetingLines endpoint now uuid) ++ blankLine)) =
      some (endpoint, .greeting (getTime now) agent) := by
  obtain ⟨hstamp, hcredential, hagent, -⟩ := greeting_headers c endpoint now uuid
  refine admits_of_lines (readRequest_greeting hc endpoint now huuid) rfl ?_ ?_
  · cases endpoint with
    | clientAuth | register => simp [vouched, hstamp, hagent]
    | ingest => exact absurd rfl hendpoint
  · rw [hcredential, greeting_eq]

theorem admits_registerRequest (hc : c.Plain) (now : Tm) :
    admits c.hmac c.key (c.registerRequest now) =
      some (.register, .greeting (getTime now) agent) := by
  rw [registerRequest_eq]
  exact admits_greeting hc (by simp) now (by simp)

theorem admits_clientAuthRequest (hc : c.Plain) (now : Tm) (huuid : PlainUuid uuid) :
    admits c.hmac c.key (c.clientAuthRequest now uuid) =
      some (.clientAuth, .greeting (getTime now) agent) := by
  rw [clientAuthRequest_eq]
  exact admits_greeting hc (by simp) now (by simpa using huuid)

theorem request_headers (sender : Sender) (n : Nat) (uuid : CString) :
    headerValue "X-WireSentinel-Timestamp" (requestLines sender n uuid) =
        some (getTime sender.now) ∧
      headerValue "X-WireSentinel-Credential" (requestLines sender n uuid) =
        some (credential sender n) ∧
      headerValue "X-WireSentinel-UUID" (requestLines sender n uuid) = some uuid := by
  unfold requestLines
  generalize getTime sender.now = stamp
  generalize credential sender n = credential
  simp only [headerValue, Text.lit_eq, String.reduceToList]
  simp

theorem admits_generateRequest (hc : c.Plain) {pkts : List FullInternetPacket}
    (hpkts : ∀ pkt ∈ pkts, Produced pkt) (hlen : pkts.length ≤ 1000) (huuid : PlainUuid uuid)
    (now : Tm) :
    admits c.hmac c.key (generateRequest (c.sender now) (payloadText c.services pkts) uuid) =
      some (.ingest, .ingest (getTime now) (decimal (payloadText c.services pkts).length)) := by
  obtain ⟨body, hread, -⟩ := framed_ok hc hpkts hlen huuid now
  obtain ⟨hstamp, hcredential, -⟩ :=
    request_headers (c.sender now) (payloadText c.services pkts).length uuid
  have hfit := payloadText_length_lt c.services (fun pkt h => (hpkts pkt h).sized) hlen
  refine admits_of_lines hread rfl ?_ ?_
  · simp only [vouched, hstamp, headerValue_contentLength]
    rfl
  · rw [hcredential, credential_eq]
    refine lt_of_lt_of_le (lt_of_le_of_lt (Nat.le_add_right _ 2048) hfit) ?_
    decide

/-- What the client puts together for an endpoint, and the values its
credential is over. -/
inductive Composed (c : Settings) : Endpoint → CString → Signed → Prop
  | register (now : Tm) :
    Composed c .register (c.registerRequest now) (.greeting (getTime now) agent)
  | clientAuth (now : Tm) {uuid : CString} (huuid : PlainUuid uuid) :
    Composed c .clientAuth (c.clientAuthRequest now uuid) (.greeting (getTime now) agent)
  | ingest (now : Tm) {pkts : List FullInternetPacket} (hpkts : ∀ pkt ∈ pkts, Produced pkt)
    (hlen : pkts.length ≤ 1000) {uuid : CString} (huuid : PlainUuid uuid) :
    Composed c .ingest (generateRequest (c.sender now) (payloadText c.services pkts) uuid)
      (.ingest (getTime now) (decimal (payloadText c.services pkts).length))

/-- A server that holds the key comes to the same values. -/
theorem Composed.admits (hc : c.Plain) (h : Composed c endpoint request signed) :
    admits c.hmac c.key request = some (endpoint, signed) := by
  cases h with
  | register now => exact admits_registerRequest hc now
  | clientAuth now huuid => exact admits_clientAuthRequest hc now huuid
  | ingest now hpkts hlen huuid => exact admits_generateRequest hc hpkts hlen huuid now

theorem claimed_registerRequest (hc : c.Plain) (now : Tm) :
    claimed (c.registerRequest now) = none := by
  obtain ⟨-, -, -, hidentity⟩ := greeting_headers c .register now none
  rw [registerRequest_eq, claimed, readRequest_greeting hc .register now (by simp)]
  exact hidentity

theorem claimed_clientAuthRequest (hc : c.Plain) (now : Tm) (huuid : PlainUuid uuid) :
    claimed (c.clientAuthRequest now uuid) = some uuid := by
  obtain ⟨-, -, -, hidentity⟩ := greeting_headers c .clientAuth now (some uuid)
  rw [clientAuthRequest_eq, claimed, readRequest_greeting hc .clientAuth now (by simpa using huuid)]
  exact hidentity

theorem claimed_generateRequest (hc : c.Plain) {pkts : List FullInternetPacket}
    (hpkts : ∀ pkt ∈ pkts, Produced pkt) (hlen : pkts.length ≤ 1000) (huuid : PlainUuid uuid)
    (now : Tm) :
    claimed (generateRequest (c.sender now) (payloadText c.services pkts) uuid) = some uuid := by
  obtain ⟨body, hread, -⟩ := framed_ok hc hpkts hlen huuid now
  obtain ⟨-, -, hidentity⟩ :=
    request_headers (c.sender now) (payloadText c.services pkts).length uuid
  rw [claimed, hread]
  exact hidentity

end WireSentinel
