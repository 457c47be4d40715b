import WireSentinel.Lib.Lines
import WireSentinel.Lib.Tokens

/-!
# HTTP responses

What the client takes from a response, after `misc.c`, and the responses a
server writes.
-/

namespace WireSentinel

open Text (OneLine breakAt blankLine crlf strtok atoi cString)

/-- `extract_status_code`; `none` if there is no second token for `atoi`. -/
def extractStatusCode (response : CString) : Option Int :=
  let (_, rest) := strtok ' ' response
  let (tk, _) := strtok '\n' rest
  tk.map atoi

/-- `extract_uuid`; `none` if `strstr` finds no blank line. -/
def extractUuid (response : CString) : Option CString :=
  (breakAt blankLine response).map Prod.snd

theorem extractStatusCode_digits (hversion : version ≠ []) (hspace : ' ' ∉ version)
    (hdigits : digits ≠ []) (hdigit : ∀ c ∈ digits, c.isDigit = true)
    (hlt : Nat.ofDigitChars 10 digits 0 < 2 ^ 31) (hrest : ∀ c ∈ rest.head?, c.isDigit = false) :
    extractStatusCode (version ++ ' ' :: (digits ++ rest)) =
      some (Nat.ofDigitChars 10 digits 0 : Int) := by
  have hne : ∀ c ∈ digits, decide (c ≠ '\n') = true := by
    intro c hc
    rw [decide_eq_true_eq]
    rintro rfl
    exact absurd (hdigit _ hc) (by decide)
  have htoken : (strtok '\n' (digits ++ rest)).1 =
      some (digits ++ rest.takeWhile (· ≠ '\n')) := by
    obtain ⟨d, ds, rfl⟩ := List.exists_cons_of_ne_nil hdigits
    rw [List.cons_append, Text.strtok_fst (by simpa using hne d List.mem_cons_self),
      ← List.cons_append, List.takeWhile_append_of_pos hne]
  have hstop : ∀ c ∈ (rest.takeWhile (· ≠ '\n')).head?, c.isDigit = false := by
    intro c hc
    cases rest with
    | nil => simp at hc
    | cons d ds =>
      rw [List.takeWhile_cons] at hc
      split at hc
      · exact hrest c hc
      · simp at hc
  simp only [extractStatusCode, Text.strtok_append hversion hspace, htoken, Option.map_some,
    Text.atoi_digits hdigits hdigit hstop hlt]

-- ---------------------------------------------------------------------------
-- What a server writes
-- ---------------------------------------------------------------------------

def LineChar (c : Char) : Prop := c ≠ '\r' ∧ c ≠ '\n' ∧ c ≠ '\x00'

instance : DecidablePred LineChar := fun _ => inferInstanceAs (Decidable (_ ∧ _ ∧ _))

structure Response where
  version : CString
  code : Nat
  reason : Option CString
  headers : List CString
  body : CString
  version_ne : version ≠ []
  version_char : ∀ c ∈ version, LineChar c ∧ c ≠ ' '
  code_lt : code < 1000
  reason_char : ∀ text ∈ reason, ∀ c ∈ text, LineChar c
  headers_line : ∀ h ∈ headers, h ≠ [] ∧ ∀ c ∈ h, LineChar c

namespace Response

def digits (r : Response) : CString :=
  [Nat.digitChar (r.code / 100), Nat.digitChar (r.code / 10 % 10), Nat.digitChar (r.code % 10)]

def phrase (r : Response) : CString := (r.reason.map fun text => ' ' :: text).getD []

def statusLine (r : Response) : CString := r.version ++ ' ' :: (r.digits ++ r.phrase)

def lines (r : Response) : List CString := r.statusLine :: r.headers

def head (r : Response) : CString := crlf.intercalate r.lines

def text (r : Response) : CString := r.head ++ blankLine ++ r.body

/-- Where the code ends. -/
def codeEnd (r : Response) : Nat := r.version.length + 4

variable (r : Response)

theorem digits_ne_nil : r.digits ≠ [] := List.cons_ne_nil _ _

theorem digits_isDigit : ∀ c ∈ r.digits, c.isDigit = true := by
  have hdigit : ∀ d < 10, (Nat.digitChar d).isDigit = true := by decide
  have := r.code_lt
  simp only [digits, List.mem_cons, List.not_mem_nil, or_false]
  rintro c (rfl | rfl | rfl) <;> exact hdigit _ (by omega)

theorem ofDigitChars_digits : Nat.ofDigitChars 10 r.digits 0 = r.code := by
  have := r.code_lt
  rw [digits, Nat.ofDigitChars_cons_digitChar_of_lt_ten (by omega),
    Nat.ofDigitChars_cons_digitChar_of_lt_ten (by omega),
    Nat.ofDigitChars_cons_digitChar_of_lt_ten (by omega), Nat.ofDigitChars_nil]
  omega

theorem statusLine_char : ∀ c ∈ r.statusLine, LineChar c := by
  have hdigit : ∀ c : Char, c.isDigit = true → LineChar c := by
    intro c hc
    refine ⟨?_, ?_, ?_⟩
    all_goals
      rintro rfl
      exact absurd hc (by decide)
  have hspace : LineChar ' ' := by decide
  intro c hc
  simp only [statusLine, List.mem_append, List.mem_cons] at hc
  rcases hc with hc | rfl | hc | hc
  · exact (r.version_char c hc).1
  · exact hspace
  · exact hdigit c (r.digits_isDigit c hc)
  · unfold phrase at hc
    cases hr : r.reason with
    | none => simp [hr] at hc
    | some text =>
      rw [hr] at hc
      rcases List.mem_cons.mp hc with rfl | hc
      · exact hspace
      · exact r.reason_char text hr c hc

theorem lines_line : ∀ l ∈ r.lines, l ≠ [] ∧ ∀ c ∈ l, LineChar c := by
  intro l hl
  rcases List.mem_cons.mp hl with rfl | hl
  · exact ⟨by simp [statusLine], r.statusLine_char⟩
  · exact r.headers_line l hl

theorem lines_ne_nil : r.lines ≠ [] := List.cons_ne_nil _ _

theorem lines_oneLine : ∀ l ∈ r.lines, OneLine l ∧ l ≠ [] := fun l hl =>
  ⟨Text.oneLine_of_not_mem fun h => ((r.lines_line l hl).2 _ h).2.1 rfl, (r.lines_line l hl).1⟩

theorem nul_not_mem_head : '\x00' ∉ r.head ++ blankLine := by
  intro h
  rcases List.mem_append.mp h with h | h
  · rcases Text.mem_intercalate h with h | ⟨l, hl, h⟩
    · exact absurd h (by decide)
    · exact ((r.lines_line l hl).2 _ h).2.2 rfl
  · exact absurd h (by decide)

/-- What stands in front of the code's end, and the character behind it. -/
def codePart (c : Char) : CString := r.version ++ ' ' :: (r.digits ++ [c])

theorem codePart_length (c : Char) : (r.codePart c).length = r.codeEnd + 1 := by
  simp [codePart, digits, codeEnd]

/-- Whatever follows the code, it is read. -/
theorem extractStatusCode_codePart {c : Char} (hc : c.isDigit = false) (rest : CString) :
    extractStatusCode (r.codePart c ++ rest) = some (r.code : Int) := by
  have hspace : ' ' ∉ r.version := fun h => (r.version_char _ h).2 rfl
  have hstop : ∀ d ∈ (c :: rest).head?, d.isDigit = false := by simpa using hc
  have hcode := r.ofDigitChars_digits
  have hlt := r.code_lt
  have hread := extractStatusCode_digits r.version_ne hspace r.digits_ne_nil r.digits_isDigit
    (by omega) hstop
  rw [hcode] at hread
  simpa [codePart, List.append_assoc] using hread

theorem statusLine_prefix : r.statusLine ++ crlf <+: r.head ++ blankLine := by
  unfold head lines
  cases r.headers with
  | nil => exact ⟨crlf, by simp [blankLine, crlf]⟩
  | cons h hs =>
    refine ⟨crlf.intercalate (h :: hs) ++ blankLine, ?_⟩
    simp [List.intercalate_cons_cons, crlf]

/-- Behind the code stands a space or a carriage return. -/
theorem codePart_prefix : ∃ c, c.isDigit = false ∧ r.codePart c <+: r.statusLine ++ crlf := by
  cases hr : r.reason with
  | none => exact ⟨'\r', rfl, ['\n'], by simp [codePart, statusLine, phrase, hr, crlf]⟩
  | some text => exact ⟨' ', rfl, text ++ crlf, by simp [codePart, statusLine, phrase, hr]⟩

theorem extractStatusCode_start {c : Char} {bytes : List Char} (hc : c.isDigit = false)
    (hline : r.codePart c <+: r.statusLine ++ crlf) (hstart : r.codePart c <+: bytes)
    (memory : List Char) :
    extractStatusCode (cString (bytes ++ memory)) = some (r.code : Int) := by
  have hnul : '\x00' ∉ r.codePart c := fun h =>
    r.nul_not_mem_head (r.statusLine_prefix.mem (hline.mem h))
  obtain ⟨more, rfl⟩ := hstart
  rw [List.append_assoc, Text.cString_append hnul]
  exact r.extractStatusCode_codePart hc _

theorem extractUuid_head (rest : CString) :
    extractUuid (r.head ++ blankLine ++ rest) = some rest := by
  unfold extractUuid head
  rw [Text.breakAt_blankLine r.lines_ne_nil r.lines_oneLine]
  rfl

/-- The code is read from bytes that go beyond it, whatever is behind them in
memory. -/
theorem extractStatusCode_bytes {bytes : List Char} (hpre : bytes <+: r.text)
    (hcode : r.codeEnd < bytes.length) (memory : List Char) :
    extractStatusCode (cString (bytes ++ memory)) = some (r.code : Int) := by
  obtain ⟨c, hc, hline⟩ := r.codePart_prefix
  refine r.extractStatusCode_start hc hline ?_ memory
  refine List.prefix_of_prefix_length_le ?_ hpre ?_
  · exact (hline.trans r.statusLine_prefix).trans (List.prefix_append _ _)
  · rw [codePart_length]
    exact hcode

theorem codeEnd_lt : r.codeEnd < r.text.length := by
  obtain ⟨c, -, hline⟩ := r.codePart_prefix
  have htext := (hline.trans r.statusLine_prefix).trans (List.prefix_append _ r.body)
  have hlength := htext.length_le
  rw [codePart_length] at hlength
  exact hlength

/-- The code of a whole response is read from it. -/
theorem extractStatusCode_whole (memory : List Char) :
    extractStatusCode (cString (r.text ++ memory)) = some (r.code : Int) :=
  r.extractStatusCode_bytes (List.prefix_refl _) r.codeEnd_lt memory

/-- The body is read from a response that is there whole, and ends in
memory. -/
theorem extractUuid_bytes (hbody : '\x00' ∉ r.body) (hend : cString memory = []) :
    extractUuid (cString (r.text ++ memory)) = some r.body := by
  have hnul : '\x00' ∉ r.text := by
    intro h
    rcases List.mem_append.mp h with h | h
    · exact r.nul_not_mem_head h
    · exact hbody h
  rw [Text.cString_append hnul, hend, List.append_nil]
  exact r.extractUuid_head _

/-- `HTTP/1.1 200` and a body. -/
def ok (body : CString) : Response where
  version := ['H', 'T', 'T', 'P', '/', '1', '.', '1']
  code := 200
  reason := none
  headers := []
  body := body
  version_ne := List.cons_ne_nil _ _
  version_char := by simp [LineChar]
  code_lt := by decide
  reason_char := by simp
  headers_line := by simp

/-- Both parsers take back what was rendered, whatever stands behind the
terminator in memory.

Premise: the body is a C string. -/
theorem extract_rendered (hbody : '\x00' ∉ r.body) (memory : List Char) :
    extractStatusCode (cString (r.text ++ '\x00' :: memory)) = some (r.code : Int) ∧
      extractUuid (cString (r.text ++ '\x00' :: memory)) = some r.body := by
  constructor
  · exact r.extractStatusCode_whole _
  · exact r.extractUuid_bytes hbody (by simp [cString])

/-- A refusal with a reason phrase and a header, and a body that looks like
a response of its own. -/
def refused : Response where
  version := ['H', 'T', 'T', 'P', '/', '1', '.', '1']
  code := 403
  reason := some ['N', 'o', ' ', '2', '0', '0']
  headers := [['A', ':', ' ', '2', '0', '0']]
  body := [' ', '2', '0', '0', '\r', '\n', '\r', '\n', 'b']
  version_ne := List.cons_ne_nil _ _
  version_char := by simp [LineChar]
  code_lt := by decide
  reason_char := by simp [LineChar]
  headers_line := by simp [LineChar]

theorem extract_rendered_refused :
    '\x00' ∉ refused.body ∧
      extractStatusCode (cString (refused.text ++ ['\x00'])) = some 403 ∧
      extractUuid (cString (refused.text ++ ['\x00'])) = some refused.body :=
  ⟨by decide, refused.extract_rendered (by decide) []⟩

end Response

-- ---------------------------------------------------------------------------
-- Status lines
-- ---------------------------------------------------------------------------

/-- The text begins with a whole status line of HTTP that has this code. -/
def StatusLine (code : Nat) (text : CString) : Prop :=
  ∃ r : Response, ['H', 'T', 'T', 'P', '/'] <+: r.version ∧ r.code = code ∧
    r.statusLine ++ crlf <+: text

theorem StatusLine.extractStatusCode {code : Nat} {text : CString} (h : StatusLine code text)
    (memory : List Char) :
    WireSentinel.extractStatusCode (cString (text ++ memory)) = some (code : Int) := by
  obtain ⟨r, -, rfl, hline⟩ := h
  obtain ⟨c, hc, hcode⟩ := r.codePart_prefix
  exact r.extractStatusCode_start hc hcode (hcode.trans hline) memory

theorem Response.hasStatusLine (r : Response) (h : ['H', 'T', 'T', 'P', '/'] <+: r.version) :
    StatusLine r.code r.text :=
  ⟨r, h, rfl, r.statusLine_prefix.trans (List.prefix_append _ _)⟩

/-- The bytes begin a response with status 200, and go beyond its status
line. -/
def StatusOk (bytes : List Char) : Prop := StatusLine 200 bytes

theorem StatusOk.extractStatusCode (h : StatusOk bytes) (memory : List Char) :
    WireSentinel.extractStatusCode (cString (bytes ++ memory)) = some 200 :=
  StatusLine.extractStatusCode h memory

theorem statusOk_ok (body : CString) : StatusOk (Response.ok body).text :=
  (Response.ok body).hasStatusLine ⟨_, rfl⟩

theorem not_statusOk_nil : ¬ StatusOk [] := by
  rintro ⟨r, -, -, hline⟩
  simp [Text.crlf] at hline

end WireSentinel
