import WireSentinel.Payload.Framing

/-!
# What a server reads from an ingest request

The other end of the wire, for statements about it: `Content-Length` bytes
below the blank line, as JSON, packet by packet. `decodeIngest_ok` puts the
framing and the encoding together.
-/

namespace WireSentinel

open Text (lit snprintf decimal OneLine readDecimal crlf crlfLines blankLine)

variable {sender : Sender} {uuid payload : CString}

/-- The value of the first header with this name. -/
def headerValue (name : String) (lines : List CString) : Option CString :=
  let start := lit name ++ lit ": "
  lines.findSome? fun l => if start.isPrefixOf l then some (l.drop start.length) else none

def decodeIngest (request : CString) : Option (List PacketView) := do
  let (lines, body) ← readRequest request
  let length ← (headerValue "Content-Length" lines).bind readDecimal
  let doc ← Json.decode (body.take length)
  let items ← (doc.lookup "packets".toList).bind Json.asArr
  items.mapM readPacket

/-- The UUID that the text of a request gives, whether or not the rest of its
header is there. -/
def placed (request : CString) : Option CString :=
  headerValue "X-WireSentinel-UUID" (crlfLines request)

theorem headerValue_contentLength (sender : Sender) (n : Nat) (uuid : CString) :
    headerValue "Content-Length" (requestLines sender n uuid) = some (decimal n) := by
  simp only [headerValue, requestLines, Text.lit_eq, String.reduceToList, List.findSome?_cons]
  simp

theorem decodeIngest_framed (h : Framed sender payload uuid)
    (hdoc : Json.decode payload = some doc)
    (hitems : (doc.lookup "packets".toList).bind Json.asArr = some items) :
    decodeIngest (generateRequest sender payload uuid) = items.mapM readPacket := by
  obtain ⟨body, hread, hbody⟩ := h
  simp only [decodeIngest, hread, headerValue_contentLength, Text.readDecimal_decimal, hbody, hdoc,
    hitems, Option.bind_eq_bind, Option.bind_some]

/-- The settings and the UUID leave each request framed: its lines are lines,
and its header fits. -/
structure Settings.Plain (c : Settings) : Prop where
  services : c.services.Unescaped
  addr : c.addr.length ≤ 80 ∧ '\n' ∉ c.addr
  prt : c.prt.length ≤ 10 ∧ '\n' ∉ c.prt

/-- As long as the longest payload and the longest time leave room for. -/
def PlainUuid (uuid : CString) : Prop := OneLine uuid ∧ uuid.length ≤ 1657

instance : DecidablePred PlainUuid := fun _ => inferInstanceAs (Decidable (_ ∧ _))

/-- What the header has in it besides the UUID and the constant parts. -/
theorem variable_length_le {c : Settings} (hc : c.Plain)
    (hfit : payload.length + 2048 < maxJsonSize) (now : Tm) :
    (c.sender now).host.length + (decimal payload.length).length + (getTime now).length ≤ 123 := by
  have hdigits : (decimal payload.length).length ≤ 7 :=
    Text.decimal_length_le (by decide) (by simp only [maxJsonSize] at hfit; omega)
  have htime := getTime_length now
  have := hc.addr.1
  have := hc.prt.1
  simp only [Settings.sender]
  rw [urlBuffer_eq hc.addr.1 hc.prt.1]
  simp only [List.length_append, Text.lit_length]
  simp only [String.reduceToList, List.length_cons, List.length_nil]
  omega

theorem framed_ok {c : Settings} (hc : c.Plain) {pkts : List FullInternetPacket}
    (hpkts : ∀ pkt ∈ pkts, Produced pkt) (hlen : pkts.length ≤ 1000) (huuid : PlainUuid uuid)
    (now : Tm) : Framed (c.sender now) (payloadText c.services pkts) uuid := by
  have hfit := payloadText_length_lt c.services (fun pkt h => (hpkts pkt h).sized) hlen
  have hvariable := variable_length_le hc hfit now
  refine framed_of_whole hfit (newline_not_mem_urlBuffer hc.addr.2 hc.prt.2) huuid.1 ?_
  have := huuid.2
  rw [headerText_length]
  simp only [Settings.sender] at hvariable ⊢
  omega

/-- The server reads from a request the packets of the batch, in order. -/
theorem decodeIngest_ok {c : Settings} (hc : c.Plain) {pkts : List FullInternetPacket}
    (hne : pkts ≠ []) (hpkts : ∀ pkt ∈ pkts, Produced pkt) (hlen : pkts.length ≤ 1000)
    (huuid : PlainUuid uuid) (now : Tm) :
    decodeIngest (generateRequest (c.sender now) (payloadText c.services pkts) uuid) =
      some (pkts.map (FullInternetPacket.view c.services)) := by
  have hdoc := payload_document hc.services hne fun pkt h => (hpkts pkt h).wellFormed
  rw [decodeIngest_framed (framed_ok hc hpkts hlen huuid now) (Json.decode_of_document hdoc) rfl]
  exact Text.mapM_map fun pkt _ => readPacket_object c.services pkt

-- ---------------------------------------------------------------------------
-- The UUID of a request
-- ---------------------------------------------------------------------------

/-- What stands in the header in front of the UUID. -/
def headerStart (sender : Sender) (contentLength : Nat) : CString :=
  ((requestLines sender contentLength []).take 6).flatMap (· ++ crlf) ++
    lit "X-WireSentinel-UUID: "

theorem headerText_start (sender : Sender) (n : Nat) (uuid : CString) :
    headerText sender n uuid = headerStart sender n ++
      (uuid ++ (crlf ++ (lit "User-Agent: WireSentinel-Agent/1.0" ++ blankLine))) := by
  rw [headerText_eq]
  simp [requestLines, headerStart, List.intercalate_cons_cons]

theorem headerStart_length (sender : Sender) (n : Nat) :
    (headerStart sender n).length = 227 + sender.host.length + (decimal n).length +
      (getTime sender.now).length := by
  have hwhole := headerText_length sender n []
  rw [headerText_start] at hwhole
  simp [crlf, blankLine] at hwhole
  omega

/-- The UUID is what follows, up to the end of the line. -/
theorem placed_headerStart (hhost : '\n' ∉ sender.host) (n : Nat) (rest : CString) :
    placed (headerStart sender n ++ rest) = (crlfLines rest).head? := by
  have hlines : ∀ l ∈ (requestLines sender n []).take 6, OneLine l := fun l hl =>
    (requestLines_oneLine hhost (by decide) n l (List.mem_of_mem_take hl)).1
  have hname : '\r' ∉ lit "X-WireSentinel-UUID: " := by
    simp only [Text.lit_eq, String.reduceToList]
    decide
  obtain ⟨first, later, hrest, hline⟩ := Text.crlfLines_prepend hname rest
  rw [placed, headerStart, List.append_assoc, Text.crlfLines_flatMap hlines, hline, hrest]
  unfold requestLines
  generalize getTime sender.now = stamp
  generalize credential sender n = credential
  simp [headerValue, Text.lit_eq]

/-- The host, the length, the time and the UUID are at most this long. -/
def Roomy (sender : Sender) (contentLength : Nat) (uuid : CString) : Prop :=
  sender.host.length + (decimal contentLength).length + (getTime sender.now).length +
    uuid.length ≤ 1818

/-- Then the UUID and the end of its line are in the header. -/
theorem placed_generateRequest (hhost : '\n' ∉ sender.host) (huuid : OneLine uuid)
    (hroom : Roomy sender payload.length uuid) :
    placed (generateRequest sender payload uuid) = some uuid := by
  have hlength : (headerStart sender payload.length ++ uuid ++ crlf).length ≤ 2047 := by
    rw [List.length_append, List.length_append, headerStart_length]
    unfold Roomy at hroom
    simp only [crlf, List.length_cons, List.length_nil]
    omega
  have hheader : ∃ more, generateJsonHeader sender payload.length uuid =
      headerStart sender payload.length ++ uuid ++ crlf ++ more := by
    rw [generateJsonHeader, headerText_start, ← List.append_assoc, ← List.append_assoc,
      Text.snprintf_append (by omega)]
    exact ⟨_, rfl⟩
  obtain ⟨more, hheader⟩ := hheader
  rw [generateRequest, hheader, joinRequest, List.append_assoc,
    Text.snprintf_append (by simp only [maxJsonSize]; omega), List.append_assoc, List.append_assoc,
    placed_headerStart hhost, ← List.append_assoc, Text.crlfLines_append huuid]
  rfl

theorem localSettings_plain : localSettings.Plain := by
  refine ⟨httpTable_unescaped, ?_, ?_⟩
  all_goals
    simp only [localSettings, Text.lit_eq, String.reduceToList]
    decide

end WireSentinel
