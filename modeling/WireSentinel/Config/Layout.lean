import WireSentinel.Config.Security

/-!
# What is read back from the configuration file

`Layout` is a file with the three lines in their order and empty lines
around them. `Layout.Readable` says which of these files the getters read
right; what `create_security_file` writes is one of them.
-/

namespace WireSentinel

open Text (lit snprintf readLine getLine cString)

def blanks (n : Nat) : CString := List.replicate n '\n'

/-- Text that a line can hold. -/
def LineText (cs : CString) : Prop := '\n' ∉ cs ∧ '\x00' ∉ cs

instance (cs : CString) : Decidable (LineText cs) := inferInstanceAs (Decidable (_ ∧ _))

theorem LineText.append (ha : LineText as) (hb : LineText bs) : LineText (as ++ bs) := by
  refine ⟨fun h => ?_, fun h => ?_⟩
  · exact (List.mem_append.mp h).elim ha.1 hb.1
  · exact (List.mem_append.mp h).elim ha.2 hb.2

-- ---------------------------------------------------------------------------
-- One line
-- ---------------------------------------------------------------------------

theorem readLine_blank (n : Nat) (fl : List Char) :
    readLine (n + 1) ('\n' :: fl) = (['\n'], fl) := by
  rw [readLine, if_pos rfl]

theorem getLine_blank (held : CString) (fl : List Char) :
    getLine 2047 held ('\n' :: fl) = (['\n'], fl) := by
  have hread := readLine_blank 2045 fl
  rw [Text.getLine_of_ne (by rw [hread]; exact List.cons_ne_nil _ _), hread]
  rfl

theorem getLine_text (hread : readLine 2046 fl = (c :: line, rest)) (hnul : '\x00' ∉ c :: line)
    (held : CString) : getLine 2047 held fl = (c :: line, rest) := by
  rw [Text.getLine_of_ne (by rw [hread]; exact List.cons_ne_nil _ _), hread,
    Text.cString_of_not_mem hnul]

/-- An empty line in front of a line is stepped over. -/
theorem nextLine_text (hb : b ≤ 1) (hread : readLine 2046 fl = (c :: line, rest)) (hc : c ≠ '\n')
    (hnul : '\x00' ∉ c :: line) (held : CString) :
    nextLine held (blanks b ++ fl) = (c :: line, rest) := by
  unfold nextLine
  cases b with
  | zero =>
    rw [blanks, List.replicate_zero, List.nil_append, getLine_text hread hnul]
    simp [hc]
  | succ b =>
    obtain rfl : b = 0 := by omega
    rw [blanks, List.replicate_one, List.singleton_append, getLine_blank]
    simp only [List.head?_cons, ↓reduceIte, getLine_text hread hnul]

/-- Of two empty lines the second is taken for a line. -/
theorem nextLine_blanks (hb : 2 ≤ b) (held : CString) (fl : List Char) :
    (nextLine held (blanks b ++ fl)).1 = ['\n'] := by
  obtain ⟨b, rfl⟩ := Nat.exists_eq_add_of_le' hb
  unfold nextLine
  rw [blanks, List.replicate_succ, List.replicate_succ, List.cons_append, List.cons_append,
    getLine_blank]
  simp only [List.head?_cons, ↓reduceIte, getLine_blank]

/-- A label of the file. -/
structure IsLabel (label : CString) : Prop where
  text : LineText label
  two_le : 2 ≤ label.length
  le_ten : label.length ≤ 10

theorem getFileField_line (label value : CString) (c : Char) :
    getFileField label.length (label ++ value ++ [c]) = some value := by
  rw [getFileField, if_neg (by simp), List.append_assoc, List.drop_left, List.dropLast_concat]

theorem getFileField_cut (label value : CString) :
    getFileField label.length (label ++ value) = some value.dropLast := by
  rw [getFileField, if_neg (by simp), List.drop_left]

theorem dropLast_eq_self_iff (cs : List α) : cs.dropLast = cs ↔ cs = [] := by
  constructor
  · intro h
    have hlen := congrArg List.length h
    rw [List.length_dropLast] at hlen
    exact List.length_eq_zero_iff.mp (by omega)
  · rintro rfl
    rfl

section
variable {label value rest : CString}

/-- A line with its label that fits is read, and the next call goes on
behind it. -/
theorem nextLine_fits (hl : IsLabel label) (hv : LineText value) (hb : b ≤ 1)
    (hlt : (label ++ value).length < 2046) (held : CString) (fl : List Char) :
    nextLine held (blanks b ++ (label ++ value ++ '\n' :: fl)) =
      (label ++ value ++ ['\n'], fl) := by
  obtain ⟨c, cs, rfl⟩ := List.exists_cons_of_length_pos (Nat.lt_of_succ_lt hl.two_le)
  have htext := hl.text.append hv
  refine nextLine_text hb (Text.readLine_line htext.1 hlt fl) ?_ ?_ held
  · rintro rfl
    exact hl.text.1 List.mem_cons_self
  · simpa using htext.2

/-- What is read at the end of the file, or where the line fills the
buffer, has no line feed. -/
theorem nextLine_cut (hl : IsLabel label) (hv : LineText value) (hb : b ≤ 1)
    (hread : readLine 2046 (label ++ value ++ rest) = (label ++ value, rest)) (held : CString) :
    nextLine held (blanks b ++ (label ++ value ++ rest)) = (label ++ value, rest) := by
  obtain ⟨c, cs, rfl⟩ := List.exists_cons_of_length_pos (Nat.lt_of_succ_lt hl.two_le)
  refine nextLine_text hb hread ?_ (hl.text.append hv).2 held
  rintro rfl
  exact hl.text.1 List.mem_cons_self

/-- When the value of a line is read right, whatever was read before. -/
theorem getFileField_iff (hl : IsLabel label) (hv : LineText value)
    (hle : (label ++ value).length ≤ 2046) (hrest : rest = [] ∨ ∃ fl, rest = '\n' :: fl)
    (held : CString) :
    getFileField label.length (nextLine held (blanks b ++ (label ++ value ++ rest))).1 =
        some value ↔
      b ≤ 1 ∧ (label ++ value).length < 2046 ∧ (rest ≠ [] ∨ value = []) := by
  have hten := hl.le_ten
  by_cases hb : b ≤ 1
  · by_cases hfull : (label ++ value).length = 2046
    · -- the buffer is full before the line feed
      have hread : readLine 2046 (label ++ value ++ rest) = (label ++ value, rest) := by
        have hlong := Text.readLine_long (hl.text.append hv).1 (Nat.le_of_eq hfull.symm) rest
        rwa [List.take_of_length_le (Nat.le_of_eq hfull),
          List.drop_eq_nil_of_le (Nat.le_of_eq hfull), List.nil_append] at hlong
      have hvalue : value ≠ [] := by
        rintro rfl
        rw [List.append_nil] at hfull
        omega
      rw [nextLine_cut hl hv hb hread, getFileField_cut, Option.some_inj, dropLast_eq_self_iff]
      exact ⟨fun h => absurd h hvalue, fun h => absurd hfull (Nat.ne_of_lt h.2.1)⟩
    · have hlt : (label ++ value).length < 2046 := Nat.lt_of_le_of_ne hle hfull
      rcases hrest with rfl | ⟨fl, rfl⟩
      · -- the file ends with the line
        have hread := Text.readLine_last (hl.text.append hv).1 hle
        rw [nextLine_cut hl hv hb (by rw [List.append_nil]; exact hread), getFileField_cut,
          Option.some_inj, dropLast_eq_self_iff]
        exact ⟨fun h => ⟨hb, hlt, .inr h⟩, fun h => h.2.2.resolve_left fun hne => hne rfl⟩
      · rw [nextLine_fits hl hv hb hlt, getFileField_line]
        exact ⟨fun _ => ⟨hb, hlt, .inl (List.cons_ne_nil _ _)⟩, fun _ => rfl⟩
  · rw [nextLine_blanks (by omega), getFileField,
      if_pos (show ['\n'].length < label.length from hl.two_le)]
    exact ⟨fun h => absurd h.symm (Option.some_ne_none _), fun h => absurd h.1 hb⟩

end

-- ---------------------------------------------------------------------------
-- The file
-- ---------------------------------------------------------------------------

theorem isLabel_key : IsLabel (lit "SHRD_SCRT=") ∧ (lit "SHRD_SCRT=").length = 10 := by
  simp only [Text.lit_eq, String.reduceToList]
  exact ⟨⟨by decide, by decide, by decide⟩, rfl⟩

theorem isLabel_url : IsLabel (lit "URL=") ∧ (lit "URL=").length = 4 := by
  simp only [Text.lit_eq, String.reduceToList]
  exact ⟨⟨by decide, by decide, by decide⟩, rfl⟩

theorem isLabel_port : IsLabel (lit "PORT=") ∧ (lit "PORT=").length = 5 := by
  simp only [Text.lit_eq, String.reduceToList]
  exact ⟨⟨by decide, by decide, by decide⟩, rfl⟩

/-- A file with the three lines in their order, `beforeKey`, `beforeUrl` and
`beforePort` empty lines in front of them, and behind them nothing, or a line
feed and empty lines. -/
structure Layout where
  key : CString
  url : CString
  port : CString
  beforeKey : Nat
  beforeUrl : Nat
  beforePort : Nat
  ending : Option Nat
  key_text : LineText key
  url_text : LineText url
  port_text : LineText port
  key_le : (lit "SHRD_SCRT=" ++ key).length ≤ 2046
  url_le : (lit "URL=" ++ url).length ≤ 2046
  port_le : (lit "PORT=" ++ port).length ≤ 2046

namespace Layout

def closing (l : Layout) : CString := l.ending.elim [] fun n => '\n' :: blanks n

def fromPort (l : Layout) : CString := blanks l.beforePort ++ (lit "PORT=" ++ l.port ++ l.closing)

def fromUrl (l : Layout) : CString :=
  blanks l.beforeUrl ++ (lit "URL=" ++ l.url ++ '\n' :: l.fromPort)

def text (l : Layout) : CString :=
  blanks l.beforeKey ++ (lit "SHRD_SCRT=" ++ l.key ++ '\n' :: l.fromUrl)

/-- At most one empty line in front of a line, no line of 2046 characters,
and a line feed at the end unless there is no port. -/
structure Readable (l : Layout) : Prop where
  key : l.beforeKey ≤ 1 ∧ (lit "SHRD_SCRT=" ++ l.key).length < 2046
  url : l.beforeUrl ≤ 1 ∧ (lit "URL=" ++ l.url).length < 2046
  port : l.beforePort ≤ 1 ∧ (lit "PORT=" ++ l.port).length < 2046
  ending : l.ending ≠ none ∨ l.port = []

variable (l : Layout)

theorem getFileKey_iff : getFileKey l.text = some l.key ↔
    l.beforeKey ≤ 1 ∧ (lit "SHRD_SCRT=" ++ l.key).length < 2046 := by
  obtain ⟨hl, hlen⟩ := isLabel_key
  have hread := getFileField_iff (b := l.beforeKey) hl l.key_text l.key_le
    (.inr ⟨l.fromUrl, rfl⟩) []
  rw [hlen] at hread
  rw [getFileKey, getFileFull, nextLines_succ, nextLines_zero, text, hread]
  simp

theorem getFileUrl_iff (hkey : l.beforeKey ≤ 1 ∧ (lit "SHRD_SCRT=" ++ l.key).length < 2046) :
    getFileUrl l.text = some l.url ↔
      l.beforeUrl ≤ 1 ∧ (lit "URL=" ++ l.url).length < 2046 := by
  obtain ⟨hl, hlen⟩ := isLabel_url
  have hread := getFileField_iff (b := l.beforeUrl) hl l.url_text l.url_le
    (.inr ⟨l.fromPort, rfl⟩) (lit "SHRD_SCRT=" ++ l.key ++ ['\n'])
  rw [hlen] at hread
  rw [getFileUrl, getFileFull, nextLines_succ, text,
    nextLine_fits isLabel_key.1 l.key_text hkey.1 hkey.2, nextLines_succ, nextLines_zero, fromUrl,
    hread]
  simp

theorem getFilePrt_iff (hkey : l.beforeKey ≤ 1 ∧ (lit "SHRD_SCRT=" ++ l.key).length < 2046)
    (hurl : l.beforeUrl ≤ 1 ∧ (lit "URL=" ++ l.url).length < 2046) :
    getFilePrt l.text = some l.port ↔
      l.beforePort ≤ 1 ∧ (lit "PORT=" ++ l.port).length < 2046 ∧
        (l.ending ≠ none ∨ l.port = []) := by
  obtain ⟨hl, hlen⟩ := isLabel_port
  have hclosing : l.closing = [] ∨ ∃ fl, l.closing = '\n' :: fl := by
    unfold closing
    cases l.ending with
    | none => exact .inl rfl
    | some n => exact .inr ⟨blanks n, rfl⟩
  have hending : l.closing ≠ [] ↔ l.ending ≠ none := by
    unfold closing
    cases l.ending <;> simp
  have hread := getFileField_iff (b := l.beforePort) hl l.port_text l.port_le hclosing
    (lit "URL=" ++ l.url ++ ['\n'])
  rw [hlen, hending] at hread
  rw [getFilePrt, getFileFull, nextLines_succ, text,
    nextLine_fits isLabel_key.1 l.key_text hkey.1 hkey.2, nextLines_succ, fromUrl,
    nextLine_fits isLabel_url.1 l.url_text hurl.1 hurl.2, nextLines_succ, nextLines_zero, fromPort,
    hread]

theorem read_iff : (getFileKey l.text = some l.key ∧ getFileUrl l.text = some l.url ∧
    getFilePrt l.text = some l.port) ↔ l.Readable := by
  constructor
  · rintro ⟨hkey, hurl, hport⟩
    rw [l.getFileKey_iff] at hkey
    rw [l.getFileUrl_iff hkey] at hurl
    rw [l.getFilePrt_iff hkey hurl] at hport
    exact ⟨hkey, hurl, ⟨hport.1, hport.2.1⟩, hport.2.2⟩
  · intro h
    refine ⟨l.getFileKey_iff.mpr h.key, (l.getFileUrl_iff h.key).mpr h.url, ?_⟩
    exact (l.getFilePrt_iff h.key h.url).mpr ⟨h.port.1, h.port.2, h.ending⟩

/-- A start of the client that accepts the file leaves it as it is, or
writes the same values. -/
def Kept : Prop :=
  ∀ (fuel : Nat) (c : Console), c.file = some l.text → ¬ c.Declines →
    ∃ c', fileGreeter fuel c = .ok c' ∧
      (c'.file = some l.text ∨ c'.file = some (securityText l.key l.url l.port))

theorem kept_of_read (hkey : getFileKey l.text = some l.key) (hurl : getFileUrl l.text = some l.url)
    (hport : getFilePrt l.text = some l.port) : l.Kept := by
  intro fuel c hfile haccept
  refine ⟨c.answer l.key l.url l.port, ?_, ?_⟩
  · rw [fileGreeter_some hfile hkey hurl hport, if_neg haccept]
  · rw [Console.answer]
    simp only [haccept, ↓reduceIte, hfile]
    rcases createSecurityFile_cases l.key l.url l.port (some l.text) with
      h | h | h | h <;> simp [h.1]

/-- The reader tolerates empty lines and a missing last line feed in exactly
the files that are `Readable`. -/
theorem tolerated_iff :
    (getFileKey l.text = some l.key ∧ getFileUrl l.text = some l.url ∧
        getFilePrt l.text = some l.port ∧ l.Kept) ↔ l.Readable := by
  rw [← l.read_iff]
  constructor
  · rintro ⟨hkey, hurl, hport, -⟩
    exact ⟨hkey, hurl, hport⟩
  · rintro ⟨hkey, hurl, hport⟩
    exact ⟨hkey, hurl, hport, l.kept_of_read hkey hurl hport⟩

/-- Three lines, and no line feed behind the last. -/
def unterminated : Layout where
  key := ['k']
  url := ['u']
  port := ['8', '0', '8', '0']
  beforeKey := 0
  beforeUrl := 0
  beforePort := 0
  ending := none
  key_text := by decide
  url_text := by decide
  port_text := by decide
  key_le := by simp
  url_le := by simp
  port_le := by simp

/-- The last digit of the port is lost. -/
theorem not_tolerated :
    ¬ ∀ l : Layout, getFileKey l.text = some l.key ∧ getFileUrl l.text = some l.url ∧
      getFilePrt l.text = some l.port ∧ l.Kept := by
  intro h
  obtain ⟨hkey, hurl, hport, -⟩ := h unterminated
  have hreadable := unterminated.read_iff.mp ⟨hkey, hurl, hport⟩
  exact absurd hreadable.ending (by decide)

/-- What `create_security_file` writes, as a layout. -/
def written (key url port : CString) (hkey : LineText key) (hurl : LineText url)
    (hport : LineText port) (hlen : key.length ≤ 256 ∧ url.length ≤ 80 ∧ port.length ≤ 10) :
    Layout where
  key := key
  url := url
  port := port
  beforeKey := 0
  beforeUrl := 0
  beforePort := 0
  ending := some 0
  key_text := hkey
  url_text := hurl
  port_text := hport
  key_le := by
    rw [List.length_append, isLabel_key.2]
    omega
  url_le := by
    rw [List.length_append, isLabel_url.2]
    omega
  port_le := by
    rw [List.length_append, isLabel_port.2]
    omega

end Layout

-- ---------------------------------------------------------------------------
-- What is written
-- ---------------------------------------------------------------------------

section
variable {key url port : CString}

theorem securityText_eq (hlen : key.length ≤ 256 ∧ url.length ≤ 80 ∧ port.length ≤ 10) :
    securityText key url port = lit "SHRD_SCRT=" ++ key ++ '\n' :: (lit "URL=" ++ url ++
      '\n' :: (lit "PORT=" ++ port ++ ['\n'])) := by
  have hline : lit "\n" = ['\n'] := by simp only [Text.lit_eq, String.reduceToList]
  have hk := isLabel_key.2
  have hu := isLabel_url.2
  have hp := isLabel_port.2
  rw [securityText, hline, Text.snprintf_eq]
  · simp
  · simp only [List.flatten_cons, List.flatten_nil, List.length_append, List.length_cons,
      List.length_nil, hk, hu, hp]
    omega

/-- What is written is read back. -/
theorem read_securityText (hkey : LineText key) (hurl : LineText url) (hport : LineText port)
    (hlen : key.length ≤ 256 ∧ url.length ≤ 80 ∧ port.length ≤ 10) :
    getFileKey (securityText key url port) = some key ∧
      getFileUrl (securityText key url port) = some url ∧
      getFilePrt (securityText key url port) = some port := by
  let l := Layout.written key url port hkey hurl hport hlen
  have htext : l.text = securityText key url port := securityText_eq hlen ▸ rfl
  have hreadable : l.Readable := by
    refine ⟨⟨Nat.zero_le 1, ?_⟩, ⟨Nat.zero_le 1, ?_⟩, ⟨Nat.zero_le 1, ?_⟩, .inl nofun⟩
    · rw [List.length_append, isLabel_key.2]
      exact Nat.lt_of_le_of_lt (Nat.add_le_add_left hlen.1 10) (by decide)
    · rw [List.length_append, isLabel_url.2]
      exact Nat.lt_of_le_of_lt (Nat.add_le_add_left hlen.2.1 4) (by decide)
    · rw [List.length_append, isLabel_port.2]
      exact Nat.lt_of_le_of_lt (Nat.add_le_add_left hlen.2.2 5) (by decide)
  rw [← htext]
  exact l.read_iff.mpr hreadable

/-- Starts that accept the configuration leave it as it is, one after the
other. -/
theorem restarts_securityText (hkey : LineText key) (hurl : LineText url) (hport : LineText port)
    (hlen : key.length ≤ 256 ∧ url.length ≤ 80 ∧ port.length ≤ 10) (fuel : Nat)
    {consoles : List Console} (haccept : ∀ c ∈ consoles, ¬ c.Declines) :
    restarts fuel consoles (some (securityText key url port)) =
      .ok (some (securityText key url port)) := by
  induction consoles with
  | nil => rfl
  | cons c consoles ih =>
    obtain ⟨hk, hu, hp⟩ := read_securityText hkey hurl hport hlen
    have hstart := fileGreeter_accepts (c := { c with file := some (securityText key url port) })
      rfl hk hu hp (haccept c List.mem_cons_self) fuel
    rw [createSecurityFile_ok hlen.1 hlen.2.1 hlen.2.2] at hstart
    have hrest := ih fun d hd => haccept d (List.mem_cons_of_mem _ hd)
    rw [restarts] at hrest ⊢
    rw [List.foldlM_cons, hstart]
    exact hrest

/-- What is stored is read back, also after any number of starts that accept
it; what is refused leaves the file alone.

Premise: the values are strings without line feeds. -/
theorem configuration_round_trip (hkey : LineText key) (hurl : LineText url)
    (hport : LineText port) (file : Option CString) :
    (∀ file', createSecurityFile key url port file = (0, file') →
        ∃ text, file' = some text ∧ getFileKey text = some key ∧ getFileUrl text = some url ∧
          getFilePrt text = some port ∧
          ∀ (fuel : Nat) (consoles : List Console), (∀ c ∈ consoles, ¬ c.Declines) →
            restarts fuel consoles file' = .ok file') ∧
      ((createSecurityFile key url port file).1 ≠ 0 →
        (createSecurityFile key url port file).2 = file) ∧
      ((createSecurityFile key url port file).1 = 1 ↔ 256 < key.length) ∧
      ((createSecurityFile key url port file).1 = 2 ↔ key.length ≤ 256 ∧ 80 < url.length) ∧
      ((createSecurityFile key url port file).1 = 3 ↔
        key.length ≤ 256 ∧ url.length ≤ 80 ∧ 10 < port.length) := by
  refine ⟨?_, createSecurityFile_snd, createSecurityFile_fst key url port file⟩
  rintro file' hstored
  rcases createSecurityFile_cases key url port file with
    ⟨heq, -⟩ | ⟨heq, -⟩ | ⟨heq, -⟩ | ⟨heq, hlen⟩
  all_goals rw [heq] at hstored
  all_goals cases hstored
  obtain ⟨hk, hu, hp⟩ := read_securityText hkey hurl hport hlen
  exact ⟨_, rfl, hk, hu, hp, fun fuel consoles haccept =>
    restarts_securityText hkey hurl hport hlen fuel haccept⟩

/-- Values that look like labels, an empty one, and two starts. -/
theorem configuration_round_trip_labels :
    let text := securityText ['U', 'R', 'L', '='] [] ['=', '8']
    getFileKey text = some ['U', 'R', 'L', '='] ∧ getFileUrl text = some [] ∧
      getFilePrt text = some ['=', '8'] ∧
      restarts 0 [⟨none, ['\n'], [], [], []⟩, ⟨none, ['s', '\n'], [], [], []⟩] (some text) =
        .ok (some text) := by
  intro text
  obtain ⟨hstored, -⟩ := configuration_round_trip (by decide : LineText ['U', 'R', 'L', '='])
    (by decide : LineText []) (by decide : LineText ['=', '8']) none
  obtain ⟨_, ⟨⟩, hkey, hurl, hport, hstarts⟩ := hstored (some text) rfl
  exact ⟨hkey, hurl, hport, hstarts 0 _ (by decide)⟩

end

end WireSentinel
