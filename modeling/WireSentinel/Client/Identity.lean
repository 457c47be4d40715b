import WireSentinel.Lib.Stream
import WireSentinel.Payload.Request

/-!
# The client's identity

The UUID in its file (`security.c`), and the two requests about it: to
register, and to be recognised (`main.c`).
-/

namespace WireSentinel

open Text (lit snprintf cString readLine)

-- ---------------------------------------------------------------------------
-- The file
-- ---------------------------------------------------------------------------

/-- The text the buffer at the start of `memory` holds once `text` has been
written there. -/
def store (text : CString) (memory : List Char) : List Char :=
  text ++ '\x00' :: memory.drop (text.length + 1)

/-- `fgets` at the start of a file: the first line with its line feed, as far
as it fits. At the end of the file the buffer keeps what it held. -/
def fgets (size : Nat) (file : CString) (memory : List Char) : List Char :=
  let line := file.takeWhile (· ≠ '\n') ++ (file.dropWhile (· ≠ '\n')).take 1
  if file = [] then memory else store (line.take (size - 1)) memory

/-- `get_UUID` on the file that exists; `memory` is what `malloc` returned.
`none` is the write in front of a buffer with an empty string. -/
def getUuid (memory : List Char) (file : CString) : Option CString :=
  let buffer := fgets 2048 file memory
  let length := (cString buffer).length
  if length = 0 then none
  else some (cString ((buffer.set (length - 1) '\x00').drop 5))

/-- `set_UUID`: the new text of the file. -/
def setUuid (uuid : CString) : CString := snprintf 2048 (lit "UUID=" ++ uuid ++ lit "\n")

theorem fgets_eq (hne : file ≠ []) (size : Nat) (memory : List Char) :
    fgets size file memory = store (readLine (size - 1) file).1 memory := by
  simp only [fgets, hne, ↓reduceIte, Text.readLine_fst]

/-- The last character of the line is dropped, whatever it is. -/
theorem getUuid_line {pre : List Char} (hread : cString (readLine 2047 file).1 = pre ++ [c])
    (hlen : 5 ≤ pre.length) (memory : List Char) : getUuid memory file = some (pre.drop 5) := by
  have hne : file ≠ [] := by
    rintro rfl
    simp [cString] at hread
  have htext : cString (store (readLine 2047 file).1 memory) = pre ++ [c] :=
    (Text.cString_append_nul _ _).trans hread
  have hnul : '\x00' ∉ pre ++ [c] := htext ▸ Text.not_mem_cString _
  have hpre : '\x00' ∉ pre.drop 5 := fun h =>
    hnul (List.mem_append_left _ (List.mem_of_mem_drop h))
  have hbuffer : ∃ rest, store (readLine 2047 file).1 memory = pre ++ c :: rest := by
    obtain ⟨rest, hrest⟩ : pre ++ [c] <+: store (readLine 2047 file).1 memory :=
      htext ▸ List.takeWhile_prefix _
    exact ⟨rest, by rw [← hrest, List.append_assoc, List.singleton_append]⟩
  obtain ⟨rest, hrest⟩ := hbuffer
  have hcut : (pre ++ c :: rest).set pre.length '\x00' = pre ++ '\x00' :: rest := by simp
  simp only [getUuid, fgets_eq hne, htext, List.length_append, List.length_singleton,
    Nat.add_sub_cancel, Nat.add_one_ne_zero, ↓reduceIte]
  rw [hrest, hcut, List.drop_append_of_le_length hlen, Text.cString_append_nul,
    Text.cString_of_not_mem hpre]

/-- What a restart finds in the file: the first line, as far as it fits, but
for its last character. -/
theorem getUuid_setUuid (hnul : '\x00' ∉ uuid) (memory : List Char) :
    getUuid memory (setUuid uuid) = some (readLine 2042 (uuid ++ ['\n'])).1.dropLast := by
  have hfile : setUuid uuid = lit "UUID=" ++ (uuid ++ ['\n']).take 2042 := by
    simp only [setUuid, snprintf, Text.lit_eq, String.reduceToList]
    simp
  have hlabel : '\n' ∉ lit "UUID=" ∧ '\x00' ∉ lit "UUID=" ∧ (lit "UUID=").length = 5 := by
    simp only [Text.lit_eq, String.reduceToList]
    decide
  obtain ⟨hnl, hlabelnul, hlength⟩ := hlabel
  have hread : (readLine 2047 (setUuid uuid)).1 =
      lit "UUID=" ++ (readLine 2042 (uuid ++ ['\n'])).1 := by
    have happend := Text.readLine_append hnl 2042 ((uuid ++ ['\n']).take 2042)
    rw [hlength] at happend
    rw [hfile, happend, Text.readLine_take]
  have hne : (readLine 2042 (uuid ++ ['\n'])).1 ≠ [] := by
    cases uuid with
    | nil => decide
    | cons c cs =>
      rw [List.cons_append, readLine]
      split <;> simp
  have hnul' : '\x00' ∉ (readLine 2042 (uuid ++ ['\n'])).1 := by
    intro hmem
    have hsplit := Text.readLine_split 2042 (uuid ++ ['\n'])
    have hin := hsplit ▸ List.mem_append_left _ hmem
    simp [hnul] at hin
  generalize (readLine 2042 (uuid ++ ['\n'])).1 = line at hread hne hnul'
  have htext : '\x00' ∉ lit "UUID=" ++ line := fun hmem =>
    (List.mem_append.mp hmem).elim hlabelnul hnul'
  have hline : cString (readLine 2047 (setUuid uuid)).1 =
      lit "UUID=" ++ line.dropLast ++ [line.getLast hne] := by
    rw [hread, Text.cString_of_not_mem htext, List.append_assoc, List.dropLast_append_getLast hne]
  rw [getUuid_line hline (by rw [List.length_append]; omega), List.drop_left' hlength]

theorem getUuid_setUuid_iff (hnul : '\x00' ∉ uuid) (memory : List Char) :
    getUuid memory (setUuid uuid) = some uuid ↔ '\n' ∉ uuid ∧ uuid.length ≤ 2041 := by
  rw [getUuid_setUuid hnul, Option.some_inj]
  constructor
  · intro h
    have hnl := Text.not_mem_dropLast_readLine 2042 (uuid ++ ['\n'])
    have hle := Text.readLine_length_le 2042 (uuid ++ ['\n'])
    rw [h] at hnl
    have hlen := congrArg List.length h
    rw [List.length_dropLast] at hlen
    exact ⟨hnl, by omega⟩
  · rintro ⟨hnl, hle⟩
    rw [Text.readLine_line hnl (by omega), List.dropLast_concat]

-- ---------------------------------------------------------------------------
-- The requests
-- ---------------------------------------------------------------------------

/-- What the files say, OpenSSL's HMAC, and the tables of services. -/
structure Settings where
  addr : CString
  prt : CString
  key : CString
  hmac : CString → CString → Digest
  services : Services

namespace Settings

def sender (c : Settings) (now : Tm) : Sender where
  host := urlBuffer c.addr c.prt
  key := c.key
  now := now
  hmac := c.hmac

/-- `digest_hex` of `routine_payload` and of `case_not_ok`. -/
def greeting (c : Settings) (now : Tm) : CString :=
  digestHex (c.hmac c.key (snprintf 512 (lit "\x7b\r\n  X-WireSentinel-Timestamp: " ++
    getTime now ++ lit ",\r\n  User-Agent: WireSentinel-Agent/1.0\r\n\x7d")))

/-- The request of `case_not_ok`. -/
def registerRequest (c : Settings) (now : Tm) : CString := snprintf 2048 (List.flatten [
  lit "GET /api/register HTTP/1.1\r\n",
  lit "Host: " ++ c.addr ++ lit ":" ++ c.prt ++ lit "\r\n",
  lit "X-WireSentinel-Timestamp: " ++ getTime now ++ lit "\r\n",
  lit "X-WireSentinel-Credential: " ++ c.greeting now ++ lit "\r\n",
  lit "User-Agent: WireSentinel-Agent/1.0\r\n\r\n"])

/-- The first request of a client that has a UUID. -/
def clientAuthRequest (c : Settings) (now : Tm) (uuid : CString) : CString :=
  snprintf 2048 (List.flatten [
    lit "GET /api/client_auth HTTP/1.1\r\n",
    lit "Host: " ++ c.addr ++ lit ":" ++ c.prt ++ lit "\r\n",
    lit "X-WireSentinel-Timestamp: " ++ getTime now ++ lit "\r\n",
    lit "X-WireSentinel-Credential: " ++ c.greeting now ++ lit "\r\n",
    lit "X-WireSentinel-UUID: " ++ uuid ++ lit "\r\n",
    lit "User-Agent: WireSentinel-Agent/1.0\r\n\r\n"])

end Settings

def localSettings : Settings where
  addr := lit "localhost"
  prt := lit "8080"
  key := lit "secret"
  hmac _ _ := ⟨List.replicate 32 0, rfl⟩
  services := { tcp := httpTable, udp := httpTable }

theorem localSettings_payload :
    generateJsonPayload localSettings.services [synRecord] =
      some (payloadText localSettings.services [synRecord]) := by
  refine generateJsonPayload_eq _ ?_ (by decide)
  simpa using produced_synRecord.sized

end WireSentinel
