import WireSentinel.Client.Thread

/-!
# What the response scanners rely on

`extract_status_code` and `extract_uuid` run over the text in a buffer that
`recv` filled in part. They take for granted that the text has a status line
and, with status 200, a blank line; and `recv` puts no terminator behind the
bytes it returns. Both assumptions are stated here as the exact conditions
under which the scanners do what the client needs of them.
-/

namespace WireSentinel

open Text (blankLine breakAt strtok atoi cString IsToken)

-- ---------------------------------------------------------------------------
-- Malformed responses
-- ---------------------------------------------------------------------------

/-- The text behind the first word and its space, up to the end of the
line. -/
def StatusText (response status : CString) : Prop :=
  ∃ version rest after, IsToken ' ' response version rest ∧ IsToken '\n' rest status after

theorem extractStatusCode_ok :
    extractStatusCode response = some code ↔
      ∃ status, StatusText response status ∧ atoi status = code := by
  obtain ⟨tk, rest, h⟩ : ∃ tk rest, strtok ' ' response = (tk, rest) := ⟨_, _, rfl⟩
  obtain ⟨tk', after, h'⟩ : ∃ tk' after, strtok '\n' rest = (tk', after) := ⟨_, _, rfl⟩
  have heval : extractStatusCode response = tk'.map atoi := by
    simp only [extractStatusCode, h, h']
  rw [heval, Option.map_eq_some_iff]
  constructor
  · rintro ⟨status, rfl, hcode⟩
    cases tk with
    | none =>
      obtain rfl := Text.strtok_rest_of_none h
      cases h'
    | some version =>
      exact ⟨status, ⟨version, rest, after, Text.strtok_ok.mp h, Text.strtok_ok.mp h'⟩, hcode⟩
  · rintro ⟨status, ⟨version, rest', after', hv, hs⟩, hcode⟩
    rw [← Text.strtok_ok, h] at hv
    cases hv
    rw [← Text.strtok_ok, h'] at hs
    cases hs
    exact ⟨status, rfl, hcode⟩

theorem extractUuid_none : extractUuid response = none ↔ ¬ blankLine <:+: response := by
  rw [extractUuid, Option.map_eq_none_iff, Text.breakAt_none]

/-- No response makes a scanner meet a null pointer, and what is no response is
not taken for one with status 200. -/
structure Harmless (response : CString) : Prop where
  /-- `atoi` is given a token. -/
  code : extractStatusCode response ≠ none
  /-- Where it reads 200, `strstr` finds the blank line. -/
  uuid : extractStatusCode response = some 200 → extractUuid response ≠ none
  /-- Without a status line or a blank line, it reads something else. -/
  reported : (¬ ∃ code, StatusLine code response) ∨ ¬ blankLine <:+: response →
    extractStatusCode response ≠ some 200

/-- A response is harmless exactly if it has a status text, and a status line
and a blank line if that reads 200. -/
theorem harmless_iff (response : CString) :
    Harmless response ↔ ∃ status, StatusText response status ∧
      (atoi status = 200 → (∃ code, StatusLine code response) ∧ blankLine <:+: response) := by
  constructor
  · rintro ⟨hcode, -, hreported⟩
    obtain ⟨code, hread⟩ := Option.ne_none_iff_exists'.mp hcode
    obtain ⟨status, hstatus, rfl⟩ := extractStatusCode_ok.mp hread
    refine ⟨status, hstatus, fun h200 => ?_⟩
    by_contra hlacks
    rw [h200] at hread
    exact hreported (not_and_or.mp hlacks) hread
  · rintro ⟨status, hstatus, hwhole⟩
    have hread := extractStatusCode_ok.mpr ⟨status, hstatus, rfl⟩
    have hcode : extractStatusCode response = some 200 → atoi status = 200 := fun h200 =>
      Option.some.inj (hread.symm.trans h200)
    refine ⟨by simp [hread], fun h200 hnone => ?_, fun hlacks h200 => ?_⟩
    · exact extractUuid_none.mp hnone (hwhole (hcode h200)).2
    · exact not_and_or.mpr hlacks (hwhole (hcode h200))

/-- The second word of any first line is read as the status, here that of a
header. -/
example : ¬ Harmless "Age: 200\r\n\r\nxyz".toList := by
  intro h
  have hnone : ¬ ∃ code, StatusLine code "Age: 200\r\n\r\nxyz".toList := by
    rintro ⟨code, r, ⟨version, hversion⟩, -, ⟨rest, hline⟩⟩
    rw [Response.statusLine, ← hversion] at hline
    simp at hline
  exact h.reported (.inl hnone) (by decide)

/-- An empty response crashes the client. -/
theorem harmless_counterexample :
    ¬ ∀ response : CString, '\x00' ∉ response → Harmless response := by
  intro h
  exact (h [] (by simp)).code rfl

-- ---------------------------------------------------------------------------
-- Bytes that were not received
-- ---------------------------------------------------------------------------

variable {bytes prior prior' beyond : List Char}

/-- The text in a response buffer after a `recv` of these bytes: its
contents before stand behind them, and the memory behind the buffer after
these. -/
def bufferText (bytes prior beyond : List Char) : CString :=
  cString (bytes ++ prior.drop bytes.length ++ beyond)

/-- The buffer of the first responses lies on the stack. -/
theorem responseText_eq (chunk : Chunk) (h : prior.length = 2048) (beyond : List Char) :
    responseText (.data chunk) (prior ++ beyond) = bufferText chunk.bytes prior beyond := by
  have hfits := chunk.length_le
  rw [responseText, Received.bytes, bufferText, List.drop_append_of_le_length (by omega),
    List.append_assoc]

/-- That of the ingest responses keeps what came before. -/
theorem fill_text (t : Thread) (chunk : Chunk) (i : Input) :
    cString ((t.fill chunk).recvBuffer ++ i.stack) =
      bufferText chunk.bytes t.recvBuffer i.stack := rfl

/-- What is read from the received bytes is a matter of these bytes alone,
and the UUID is a piece of them. -/
def FromReceived (bytes : List Char) : Prop :=
  ∀ prior prior' beyond : List Char, prior.length = 2048 → prior'.length = 2048 →
    extractStatusCode (bufferText bytes prior beyond) =
        extractStatusCode (bufferText bytes prior' beyond) ∧
      extractUuid (bufferText bytes prior beyond) =
        extractUuid (bufferText bytes prior' beyond) ∧
      ∀ uuid ∈ extractUuid (bufferText bytes prior beyond), uuid <:+: bytes

theorem fromReceived_of_terminated (h : '\x00' ∈ bytes) : FromReceived bytes := by
  have htext : ∀ prior beyond, bufferText bytes prior beyond = cString bytes := by
    intro prior beyond
    rw [bufferText, List.append_assoc, Text.cString_terminated h]
  intro prior prior' beyond _ _
  rw [htext, htext]
  refine ⟨rfl, rfl, fun uuid huuid => ?_⟩
  obtain ⟨⟨before, after⟩, hb, rfl⟩ := Option.map_eq_some_iff.mp huuid
  have hpre : cString bytes <+: bytes := List.takeWhile_prefix _
  rw [Text.breakAt_sound hb] at hpre
  exact (List.suffix_append _ after).isInfix.trans hpre.isInfix

/-- A blank line with a tail in one line behind it makes a UUID of at least
that tail. -/
theorem length_le_extractUuid (text : CString) (h : '\n' ∉ tail) :
    ∃ uuid, extractUuid (text ++ (blankLine ++ tail)) = some uuid ∧ tail.length ≤ uuid.length := by
  cases huuid : extractUuid (text ++ (blankLine ++ tail)) with
  | none =>
    refine absurd ?_ (extractUuid_none.mp huuid)
    exact (List.prefix_append blankLine tail).isInfix.trans (List.suffix_append _ _).isInfix
  | some uuid =>
    refine ⟨uuid, rfl, ?_⟩
    obtain ⟨⟨before, after⟩, hb, rfl⟩ := Option.map_eq_some_iff.mp huuid
    by_contra hshort
    have htail : tail <:+ text ++ (blankLine ++ tail) :=
      (List.suffix_append blankLine tail).trans (List.suffix_append _ _)
    have hline : '\n' :: after <:+ text ++ (blankLine ++ tail) := by
      rw [Text.breakAt_sound hb]
      exact ⟨before ++ ['\r', '\n', '\r'], by simp [blankLine]⟩
    have hin : '\n' :: after <:+ tail :=
      List.suffix_of_suffix_length_le hline htail (Nat.lt_of_not_le hshort)
    exact h (hin.mem List.mem_cons_self)

/-- Memory without a terminator, behind bytes without one, can put a blank
line there and behind it a UUID longer than all that was received. -/
theorem not_fromReceived (h : '\x00' ∉ bytes) : ¬ FromReceived bytes := by
  intro hfrom
  have hz : ∀ n, ∃ text : List Char, text.length = n ∧ '\n' ∉ text ∧ '\x00' ∉ text := by
    intro n
    have hall : ∀ c ∈ List.replicate n 'z', c = 'z' := fun c hc => List.eq_of_mem_replicate hc
    exact ⟨List.replicate n 'z', List.length_replicate,
      fun hc => absurd (hall _ hc) (by decide), fun hc => absurd (hall _ hc) (by decide)⟩
  obtain ⟨prior, hprior, -, hpriorNul⟩ := hz 2048
  obtain ⟨tail, htail, hline, htailNul⟩ := hz (bytes.length + 1)
  have hnul : '\x00' ∉ bytes ++ prior.drop bytes.length ++ (blankLine ++ tail) := by
    simp only [List.mem_append, not_or]
    exact ⟨⟨h, fun hc => hpriorNul (List.mem_of_mem_drop hc)⟩, by decide, htailNul⟩
  have htext : bufferText bytes prior (blankLine ++ tail) =
      bytes ++ prior.drop bytes.length ++ (blankLine ++ tail) := by
    have hwhole := Text.cString_append hnul []
    rwa [List.append_nil, show cString [] = [] from rfl, List.append_nil] at hwhole
  obtain ⟨uuid, huuid, hlong⟩ := length_le_extractUuid (bytes ++ prior.drop bytes.length) hline
  obtain ⟨-, -, hpiece⟩ := hfrom prior prior (blankLine ++ tail) hprior hprior
  rw [htext] at hpiece
  have hshort := (hpiece uuid huuid).length_le
  omega

/-- What is read from received bytes is a matter of these alone exactly when
the server put a terminator among them. -/
theorem fromReceived_iff (bytes : List Char) : FromReceived bytes ↔ '\x00' ∈ bytes := by
  constructor
  · intro hfrom
    by_contra h
    exact not_fromReceived h hfrom
  · exact fromReceived_of_terminated

/-- A whole response with a UUID is followed in the UUID file by whatever the
buffer held behind it. -/
theorem fromReceived_counterexample :
    ¬ ∀ bytes : List Char, 1 ≤ bytes.length → bytes.length ≤ 2048 → FromReceived bytes := by
  intro h
  have hnul : '\x00' ∉ (Response.ok ['f', 'e', 'c']).text := by decide
  exact not_fromReceived hnul (h _ (by decide) (by decide))

end WireSentinel
