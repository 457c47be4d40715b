import WireSentinel.Client.Identity
import WireSentinel.Client.Response
import WireSentinel.Payload.Decode

/-!
# The framing of the ingest request

What a server makes of the text of `generate_request` that splits it at the
first blank line. The UUID is in the header as it came: `request_framed_iff`
says which ones leave the request whole.
-/

namespace WireSentinel

open Text (lit snprintf snprintf_eq decimal OneLine breakAt blankLine crlf crlfLines)

variable {sender : Sender} {addr prt uuid payload : CString}

/-- The lines above the first blank line, and what is below it. -/
def readRequest (request : CString) : Option (List CString × CString) :=
  (breakAt blankLine request).map fun (head, body) => (crlfLines head, body)

/-- The request line and the seven headers. -/
def requestLines (sender : Sender) (contentLength : Nat) (uuid : CString) : List CString := [
  lit "POST /api/ingest HTTP/1.1",
  lit "Host: " ++ sender.host,
  lit "Content-Type: application/json",
  lit "Content-Length: " ++ decimal contentLength,
  lit "X-WireSentinel-Timestamp: " ++ getTime sender.now,
  lit "X-WireSentinel-Credential: " ++ credential sender contentLength,
  lit "X-WireSentinel-UUID: " ++ uuid,
  lit "User-Agent: WireSentinel-Agent/1.0"]

/-- The server sees these lines, and then `Content-Length` bytes that are the
payload. -/
def Framed (sender : Sender) (payload uuid : CString) : Prop :=
  ∃ body, readRequest (generateRequest sender payload uuid) =
      some (requestLines sender payload.length uuid, body) ∧
    body.take payload.length = payload

-- ---------------------------------------------------------------------------
-- The header's lines
-- ---------------------------------------------------------------------------

theorem headerText_eq (sender : Sender) (n : Nat) (uuid : CString) :
    headerText sender n uuid = crlf.intercalate (requestLines sender n uuid) ++ blankLine := by
  have hend : lit "\r\n" = crlf := by
    rw [Text.lit_eq]
    rfl
  have hstart : lit "POST /api/ingest HTTP/1.1\r\n" = lit "POST /api/ingest HTTP/1.1" ++ crlf := by
    simp only [Text.lit_eq, String.reduceToList]
    rfl
  have htype : lit "Content-Type: application/json\r\n" =
      lit "Content-Type: application/json" ++ crlf := by
    simp only [Text.lit_eq, String.reduceToList]
    rfl
  have hagent : lit "User-Agent: WireSentinel-Agent/1.0\r\n\r\n" =
      lit "User-Agent: WireSentinel-Agent/1.0" ++ blankLine := by
    simp only [Text.lit_eq, String.reduceToList]
    rfl
  simp only [headerText, requestLines, hend, hstart, htype, hagent, List.flatten_cons,
    List.flatten_nil, List.intercalate_cons_cons, List.intercalate_singleton, List.append_assoc,
    List.append_nil]

theorem digestHex_length (digest : Digest) : (digestHex digest).length = 64 := by
  simp [digestHex, List.length_flatMap, digest.length_eq]

theorem headerText_length (sender : Sender) (n : Nat) (uuid : CString) :
    (headerText sender n uuid).length =
      267 + sender.host.length + (decimal n).length + (getTime sender.now).length +
        uuid.length := by
  simp only [headerText, credential, List.flatten_cons, List.flatten_nil, List.append_nil,
    List.length_append, Text.lit_length, digestHex_length, String.reduceToList]
  simp only [List.length_cons, List.length_nil]
  omega

theorem newline_not_mem_of_unescaped {cs : CString} (h : ∀ c ∈ cs, Json.Unescaped c) : '\n' ∉ cs :=
  fun hin => absurd (h _ hin) (by decide)

theorem newline_not_mem_digestHex (digest : Digest) : '\n' ∉ digestHex digest := by
  intro h
  obtain ⟨b, -, hb⟩ := List.mem_flatMap.mp h
  exact absurd (Text.isHexDigit_of_mem_hexByte hb) (by decide)

theorem requestLines_oneLine (hhost : '\n' ∉ sender.host) (huuid : OneLine uuid) (n : Nat) :
    ∀ l ∈ requestLines sender n uuid, OneLine l ∧ l ≠ [] := by
  have hfield : ∀ {name value : CString}, '\n' ∉ name → name ≠ [] → '\n' ∉ value →
      OneLine (name ++ value) ∧ name ++ value ≠ [] := by
    intro name value hname hne hvalue
    exact ⟨Text.oneLine_of_not_mem (by simp [hname, hvalue]), by simp [hne]⟩
  have hdecimal : '\n' ∉ decimal n := fun h => absurd (Text.decimal_isDigit h) (by decide)
  have hcredential : '\n' ∉ credential sender n := newline_not_mem_digestHex _
  simp only [requestLines, List.forall_mem_cons, List.not_mem_nil, IsEmpty.forall_iff,
    implies_true, and_true]
  refine ⟨?_, hfield ?_ ?_ hhost, ?_, hfield ?_ ?_ hdecimal,
    hfield ?_ ?_ (newline_not_mem_of_unescaped (unescaped_getTime sender.now)),
    hfield ?_ ?_ hcredential, ⟨OneLine.append ?_ huuid ?_, by simp [Text.lit_eq]⟩, ?_⟩
  all_goals
    simp only [Text.lit_eq, String.reduceToList]
    decide

theorem urlBuffer_eq (haddr : addr.length ≤ 80) (hprt : prt.length ≤ 10) :
    urlBuffer addr prt = addr ++ lit ":" ++ prt := by
  refine snprintf_eq ?_
  simp
  omega

theorem newline_not_mem_urlBuffer (haddr : '\n' ∉ addr) (hprt : '\n' ∉ prt) :
    '\n' ∉ urlBuffer addr prt := by
  intro h
  have := List.mem_of_mem_take h
  simp [Text.lit_eq, haddr, hprt] at this

-- ---------------------------------------------------------------------------
-- Whole requests
-- ---------------------------------------------------------------------------

theorem Framed.oneLine (h : Framed sender payload uuid) : OneLine uuid := by
  obtain ⟨body, hread, -⟩ := h
  obtain ⟨⟨head, _⟩, -, heq⟩ := Option.map_eq_some_iff.mp hread
  simp only [Prod.mk.injEq] at heq
  have hline : lit "X-WireSentinel-UUID: " ++ uuid ∈ crlfLines head := by
    rw [heq.1]
    simp [requestLines]
  exact (Text.oneLine_of_mem_crlfLines hline).part (List.suffix_append _ _).isInfix

/-- A framed request has the whole header, so that the header was not cut. -/
theorem Framed.headerText_length_le (hfit : payload.length + 2048 < maxJsonSize)
    (h : Framed sender payload uuid) :
    (headerText sender payload.length uuid).length ≤ 2047 := by
  obtain ⟨body, hread, hbody⟩ := h
  obtain ⟨⟨head, _⟩, hbreak, heq⟩ := Option.map_eq_some_iff.mp hread
  simp only [Prod.mk.injEq] at heq
  obtain ⟨hlines, rfl⟩ := heq
  have hrequest := Text.breakAt_sound hbreak
  rw [← Text.intercalate_crlfLines head, hlines, ← headerText_eq,
    generateRequest_eq sender uuid hfit] at hrequest
  have hheader := generateJsonHeader_length_le sender payload.length uuid
  have hlength := congrArg List.length hrequest
  have htake := congrArg List.length hbody
  simp only [List.length_append, List.length_take] at hlength htake
  omega

theorem framed_of_whole (hfit : payload.length + 2048 < maxJsonSize) (hhost : '\n' ∉ sender.host)
    (huuid : OneLine uuid) (hwhole : (headerText sender payload.length uuid).length ≤ 2047) :
    Framed sender payload uuid := by
  have hne : requestLines sender payload.length uuid ≠ [] := List.cons_ne_nil _ _
  have hlines := requestLines_oneLine hhost huuid payload.length
  have hheader : generateJsonHeader sender payload.length uuid =
      crlf.intercalate (requestLines sender payload.length uuid) ++ blankLine := by
    rw [← headerText_eq]
    exact snprintf_eq (by omega)
  refine ⟨payload, ?_, List.take_length⟩
  rw [readRequest, generateRequest_eq sender uuid hfit, hheader,
    Text.breakAt_blankLine hne hlines, Option.map_some]
  simp only [Text.crlfLines_intercalate hne fun l hl => (hlines l hl).1]

/-- A request is framed if and only if no line ends within the UUID, and the
header fits its buffer.

Premises: the payload is that of a queue of the parser thread, and the
address and the port are as `create_security_file` accepts them. -/
theorem request_framed_iff (services : Services) {pkts : List FullInternetPacket}
    (hpkts : ∀ pkt ∈ pkts, Produced pkt) (hlen : pkts.length ≤ 1000)
    (hpayload : generateJsonPayload services pkts = some payload)
    (haddr : addr.length ≤ 80 ∧ '\n' ∉ addr) (hprt : prt.length ≤ 10 ∧ '\n' ∉ prt)
    (hhost : sender.host = urlBuffer addr prt) (uuid : CString) :
    Framed sender payload uuid ↔ OneLine uuid ∧
      uuid.length + addr.length + prt.length + (decimal payload.length).length +
        (getTime sender.now).length ≤ 1779 := by
  have hsized : ∀ pkt ∈ pkts, Sized pkt := fun pkt h => (hpkts pkt h).sized
  have hfit : payload.length + 2048 < maxJsonSize := by
    rw [generateJsonPayload_eq services hsized hlen, Option.some.injEq] at hpayload
    rw [← hpayload]
    exact payloadText_length_lt services hsized hlen
  have hlength : (headerText sender payload.length uuid).length ≤ 2047 ↔
      uuid.length + addr.length + prt.length + (decimal payload.length).length +
        (getTime sender.now).length ≤ 1779 := by
    rw [headerText_length, hhost, urlBuffer_eq haddr.1 hprt.1]
    simp only [List.length_append, Text.lit_length]
    simp only [String.reduceToList, List.length_cons, List.length_nil]
    omega
  constructor
  · intro h
    exact ⟨h.oneLine, hlength.mp (h.headerText_length_le hfit)⟩
  · rintro ⟨huuid, hle⟩
    refine framed_of_whole hfit ?_ huuid (hlength.mpr hle)
    rw [hhost]
    exact newline_not_mem_urlBuffer haddr.2 hprt.2

theorem request_framed_iff_local :
    let sender := localSettings.sender noon
    ∃ payload, generateJsonPayload localSettings.services [synRecord] = some payload ∧
      (Framed sender payload (lit "fecef435") ↔ OneLine (lit "fecef435") ∧
        (lit "fecef435").length + (lit "localhost").length + (lit "8080").length +
          (decimal payload.length).length + (getTime sender.now).length ≤ 1779) := by
  intro sender
  have hpkts : ∀ pkt ∈ [synRecord], Produced pkt := by simpa using produced_synRecord
  refine ⟨_, localSettings_payload,
    request_framed_iff _ hpkts (by decide) localSettings_payload ?_ ?_ rfl _⟩
  all_goals
    simp only [Text.lit_eq, String.reduceToList]
    decide

/-- The client takes a body of two lines for its UUID, and the second line is
one more header of its requests. -/
theorem request_unframed :
    let response := lit "HTTP/1.1 200\r\nContent-Length: 4\r\n\r\na\r\nb"
    extractStatusCode response = some 200 ∧ ∃ uuid, extractUuid response = some uuid ∧
      ∃ payload, generateJsonPayload localSettings.services [synRecord] = some payload ∧
        ¬ Framed (localSettings.sender noon) payload uuid := by
  intro response
  have hresponse : response =
      "HTTP/1.1 200\r\nContent-Length: 4\r\n\r\na\r\nb".toList := Text.lit_eq _
  refine ⟨?_, ['a', '\r', '\n', 'b'], ?_, _, localSettings_payload, ?_⟩
  · rw [hresponse]
    decide
  · rw [hresponse]
    decide
  · intro h
    exact absurd h.oneLine (by decide)

end WireSentinel
