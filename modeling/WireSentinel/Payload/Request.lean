import WireSentinel.Payload.Size

/-!
# The ingest request

`generate_json_header` and `generate_request` of `jsonparser.c`. The HMAC is
a parameter: any function to 32 bytes.
-/

namespace WireSentinel

open Json (quoted)
open Text (lit snprintf snprintf_eq signed decimal hexByte)

/-- `unsigned char digest[HMAC_SHA256_SIZE]` -/
structure Digest where
  bytes : List UInt8
  length_eq : bytes.length = 32

/-- What a request is made of, but for the payload: `host` is
`"address:port"`, `key` the shared key of the file, `now` the time of the
call, and `hmac` OpenSSL's `HMAC(EVP_sha256(), key, text)`. -/
structure Sender where
  host : CString
  key : CString
  now : Tm
  hmac : CString → CString → Digest

/-- `urlbuffer` of `routine_payload`. -/
def urlBuffer (addr prt : CString) : CString := snprintf 2048 (addr ++ lit ":" ++ prt)

def digestHex (digest : Digest) : CString := digest.bytes.flatMap hexByte

def signedText (sender : Sender) (contentLength : Nat) : CString :=
  snprintf 512 (lit "\x7b\r\n  X-WireSentinel-Timestamp: " ++ getTime sender.now ++
    lit ",\r\n  Length: " ++ decimal contentLength ++ lit "\r\n\x7d")

def credential (sender : Sender) (contentLength : Nat) : CString :=
  digestHex (sender.hmac sender.key (signedText sender contentLength))

/-- The header as the format says, before it is cut. -/
def headerText (sender : Sender) (contentLength : Nat) (uuid : CString) : CString := List.flatten [
  lit "POST /api/ingest HTTP/1.1\r\n",
  lit "Host: " ++ sender.host ++ lit "\r\n",
  lit "Content-Type: application/json\r\n",
  lit "Content-Length: " ++ decimal contentLength ++ lit "\r\n",
  lit "X-WireSentinel-Timestamp: " ++ getTime sender.now ++ lit "\r\n",
  lit "X-WireSentinel-Credential: " ++ credential sender contentLength ++ lit "\r\n",
  lit "X-WireSentinel-UUID: " ++ uuid ++ lit "\r\n",
  lit "User-Agent: WireSentinel-Agent/1.0\r\n\r\n"]

def generateJsonHeader (sender : Sender) (contentLength : Nat) (uuid : CString) : CString :=
  snprintf 2048 (headerText sender contentLength uuid)

/-- The `snprintf` of `generate_request`. -/
def joinRequest (header payload : CString) : CString := snprintf maxJsonSize (header ++ payload)

def generateRequest (sender : Sender) (payload uuid : CString) : CString :=
  joinRequest (generateJsonHeader sender payload.length uuid) payload

theorem generateJsonHeader_length_le (sender : Sender) (contentLength : Nat) (uuid : CString) :
    (generateJsonHeader sender contentLength uuid).length ≤ 2047 := by
  exact List.length_take_le _ _

/-- A payload that leaves room for a header is put behind it whole. -/
theorem joinRequest_eq (hheader : header.length ≤ 2047)
    (hfit : payload.length + 2048 < maxJsonSize) : joinRequest header payload = header ++ payload :=
  snprintf_eq (by rw [List.length_append]; omega)

theorem generateRequest_eq (sender : Sender) (uuid : CString)
    (hfit : payload.length + 2048 < maxJsonSize) :
    generateRequest sender payload uuid =
      generateJsonHeader sender payload.length uuid ++ payload :=
  joinRequest_eq (generateJsonHeader_length_le _ _ _) hfit

/-- The header announces the length it is made for, unless the host alone has
cut it off. -/
theorem generateJsonHeader_announces {sender : Sender} (hhost : sender.host.length ≤ 1900)
    (hn : n < 10 ^ 7) (uuid : CString) :
    lit "Content-Length: " ++ decimal n ++ lit "\r\n" <:+: generateJsonHeader sender n uuid := by
  let start : CString := List.flatten [lit "POST /api/ingest HTTP/1.1\r\n",
    lit "Host: " ++ sender.host ++ lit "\r\n", lit "Content-Type: application/json\r\n"]
  let announced := lit "Content-Length: " ++ decimal n ++ lit "\r\n"
  have htext : ∃ more, headerText sender n uuid = start ++ announced ++ more :=
    ⟨_, by simp only [headerText, start, announced, List.flatten_cons, List.append_assoc]; rfl⟩
  obtain ⟨more, htext⟩ := htext
  have hdigits : (decimal n).length ≤ 7 := Text.decimal_length_le (by decide) hn
  have hlength : (start ++ announced).length < 2048 := by
    simp only [start, announced, List.flatten_cons, List.flatten_nil, List.length_append,
      Text.lit_length, String.reduceToList, List.length_cons, List.length_nil]
    omega
  rw [generateJsonHeader, htext, Text.snprintf_append hlength]
  exact ⟨start, _, rfl⟩

/-- Serialising a queue of parsed packets overflows no buffer and cuts no
text short, and a request is a header and the whole payload, whose length the
header announces.

Premises: the records come from the parser thread, and the queue respects
its bound. -/
theorem payload_fits (services : Services) (pkts : List FullInternetPacket)
    (hpkts : ∀ pkt ∈ pkts, Produced pkt) (hlen : pkts.length ≤ 1000) :
    (∀ pkt ∈ pkts, ∀ more, packetBuffer services pkt more = some (packetText services pkt more) ∧
        (packetText services pkt more).length + 1 ≤ 2048 ∧
        snprintf 2048 (packetFields pkt) = packetFields pkt ∧
        ∀ table, applicationLine table pkt =
          line "protocolo_aplicacao" (quoted (applicationName table pkt)) ++ lit "\n") ∧
      ∃ payload, generateJsonPayload services pkts = some payload ∧
        payload = payloadText services pkts ∧ payload.length + 1 ≤ maxJsonSize ∧
        (∀ header : CString, header.length ≤ 2047 →
          joinRequest header payload = header ++ payload) ∧
        (∀ sender uuid, generateRequest sender payload uuid =
          generateJsonHeader sender payload.length uuid ++ payload) ∧
        ∀ sender uuid, sender.host.length ≤ 1900 →
          lit "Content-Length: " ++ decimal payload.length ++ lit "\r\n" <:+:
            generateJsonHeader sender payload.length uuid := by
  have hsized : ∀ pkt ∈ pkts, Sized pkt := fun pkt h => (hpkts pkt h).sized
  have hfit := payloadText_length_lt services hsized hlen
  refine ⟨fun pkt hpkt more => ⟨packetBuffer_eq services (hsized pkt hpkt) more,
      packetText_length_lt services (hsized pkt hpkt) more, snprintf_eq ?_,
      fun table => applicationLine_eq table pkt⟩,
    payloadText services pkts, generateJsonPayload_eq services hsized hlen, rfl, by omega,
    fun header hheader => joinRequest_eq hheader hfit,
    fun sender uuid => generateRequest_eq sender uuid hfit,
    fun sender uuid hhost => generateJsonHeader_announces hhost ?_ uuid⟩
  · have := packetFields_length_le (hsized pkt hpkt)
    omega
  · simp only [maxJsonSize] at hfit
    omega

/-- A TCP segment and a UDP datagram. -/
theorem payload_fits_records :
    let services : Services := { tcp := httpTable, udp := httpTable }
    let pkts := [synRecord, datagramRecord]
    (∀ pkt ∈ pkts, ∀ more,
        packetBuffer services pkt more = some (packetText services pkt more) ∧
        (packetText services pkt more).length + 1 ≤ 2048 ∧
        snprintf 2048 (packetFields pkt) = packetFields pkt ∧
        ∀ table, applicationLine table pkt =
          line "protocolo_aplicacao" (quoted (applicationName table pkt)) ++ lit "\n") ∧
      ∃ payload, generateJsonPayload services pkts = some payload ∧
        payload = payloadText services pkts ∧ payload.length + 1 ≤ maxJsonSize ∧
        (∀ header : CString, header.length ≤ 2047 →
          joinRequest header payload = header ++ payload) ∧
        (∀ sender uuid, generateRequest sender payload uuid =
          generateJsonHeader sender payload.length uuid ++ payload) ∧
        ∀ sender uuid, sender.host.length ≤ 1900 →
          lit "Content-Length: " ++ decimal payload.length ++ lit "\r\n" <:+:
            generateJsonHeader sender payload.length uuid :=
  payload_fits _ _ produced_records (by decide)

end WireSentinel
