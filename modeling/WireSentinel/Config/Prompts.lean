import WireSentinel.Config.Layout
import WireSentinel.Payload.Framing

/-!
# What is typed at the prompts

`Faithful` says what `file_greeter` should do with the lines typed at its
three prompts. The arrays it reads them into are smaller than the limits
`create_security_file` checks, so that the check never refuses anything and
an over-long line is continued at the next prompt.
-/

namespace WireSentinel

open Text (lit readLine getLine cutLine cString typed)

/-- The limits `create_security_file` checks. -/
def Within (key url port : CString) : Prop :=
  key.length ≤ 256 ∧ url.length ≤ 80 ∧ port.length ≤ 10

instance (key url port : CString) : Decidable (Within key url port) :=
  inferInstanceAs (Decidable (_ ∧ _))

/-- What the prompts should do with `lines`: each starts at the beginning of
a line of its own; three lines within the limits are stored, and others are
refused and the next three asked for. Without three lines nothing is
stored. -/
def Faithful : List CString → Console → Prop
  | key :: url :: port :: later, c =>
    c.askKey.stdin = typed (url :: port :: later) ∧
      c.askKey.askUrl.stdin = typed (port :: later) ∧
      if Within key url port then
        ∃ c', c.prompts 1 = .ok c' ∧ c'.file = some (securityText key url port)
      else
        c.round.1 ≠ 0 ∧ c.round.2.file = c.file ∧ c.round.2.stdin = typed later ∧
          Faithful later c.round.2
  | _, c => c.round.1 ≠ 0 ∧ c.round.2.file = c.file

-- ---------------------------------------------------------------------------
-- One prompt
-- ---------------------------------------------------------------------------

namespace Console

variable {line : CString} {size : Nat}

theorem cutLine_cString (cs : List Char) : cutLine (cString cs) = cString (cutLine cs) := by
  unfold cutLine cString
  rw [List.takeWhile_takeWhile, List.takeWhile_takeWhile]
  simp only [and_comm]

/-- The value is the line, as far as the array holds it. -/
theorem prompt_fst (h : '\n' ∉ line) (hsize : 2 ≤ size) (held : CString) (rest : List Char) :
    (prompt size held (line ++ '\n' :: rest)).1 = cString (line.take (size - 1)) := by
  have hline : ∀ c ∈ line, decide (c ≠ '\n') = true := by
    intro c hc
    rw [decide_eq_true_eq]
    rintro rfl
    exact h hc
  have hread : (readLine (size - 1) (line ++ '\n' :: rest)).1 =
      (line ++ ['\n']).take (size - 1) := by
    rw [Text.readLine_fst, List.takeWhile_append_of_pos hline, List.dropWhile_append_of_pos hline]
    simp
  have hne : (readLine (size - 1) (line ++ '\n' :: rest)).1 ≠ [] := by
    rw [hread, ne_eq, List.take_eq_nil_iff]
    rintro (h | h)
    · omega
    · exact absurd h (by simp)
  rw [prompt, Text.getLine_of_ne hne, hread]
  have hcut : cutLine ((line ++ ['\n']).take (size - 1)) = line.take (size - 1) := by
    rw [List.take_append]
    refine Text.takeWhile_stop (fun c hc => hline c (List.mem_of_mem_take hc)) ?_
    intro c hc
    have hmem := List.mem_of_mem_take (List.mem_of_mem_head? hc)
    rw [List.mem_singleton.mp hmem]
    decide
  simp only [cutLine_cString, hcut]

theorem prompt_snd (size : Nat) (held : CString) (stdin : List Char) :
    (prompt size held stdin).2 = (readLine (size - 1) stdin).2 := Text.getLine_snd size held stdin

/-- A line that fits is read whole, and the next prompt starts with the next
line. -/
theorem prompt_line (h : '\n' ∉ line) (hnul : '\x00' ∉ line) (hlt : line.length < size - 1)
    (held : CString) (rest : List Char) :
    prompt size held (line ++ '\n' :: rest) = (line, rest) := by
  rw [prompt, Text.getLine_line h hnul hlt]
  simp only [Text.cutLine_line h]

/-- A prompt reads no more into an empty array than it holds. -/
theorem prompt_length_le (size : Nat) (stdin : List Char) :
    (prompt size [] stdin).1.length ≤ size - 1 :=
  (Text.cutLine_length_le _).trans (Text.getLine_length_le size stdin)

/-- A value of the line's length is the line. -/
theorem length_cString_take (n : Nat) (line : CString)
    (h : line.length ≤ (cString (line.take n)).length) :
    line.length ≤ n ∧ '\x00' ∉ line := by
  have hle := (List.takeWhile_prefix (l := line.take n) (· ≠ '\x00')).length_le
  have hmin : line.length ≤ min n line.length := h.trans (List.length_take ▸ hle)
  have hn : line.length ≤ n := hmin.trans (Nat.min_le_left _ _)
  rw [List.take_of_length_le hn] at h
  refine ⟨hn, fun hmem => ?_⟩
  have hall : cString line = line := (List.takeWhile_prefix _).eq_of_length_le h
  rw [← hall] at hmem
  simpa using List.mem_takeWhile_imp hmem

section
variable {held value : CString} {rest next : List Char} (h : '\n' ∉ line) (hsize : 2 ≤ size)
  (hprompt : prompt size held (line ++ '\n' :: rest) = (value, next))
include h hsize hprompt

theorem prompt_value : value = cString (line.take (size - 1)) := by
  rw [← prompt_fst h hsize held rest, hprompt]

theorem prompt_value_length_le : value.length ≤ line.length := by
  rw [prompt_value h hsize hprompt]
  exact (List.takeWhile_prefix _).length_le.trans (List.length_take_le' _ _)

/-- A line that loses no character is within the array. -/
theorem prompt_whole (hlen : line.length ≤ value.length) :
    line.length ≤ size - 1 ∧ '\x00' ∉ line := by
  rw [prompt_value h hsize hprompt] at hlen
  exact length_cString_take _ _ hlen

end

/-- If the next prompt starts with the next line, there was room for the line
feed. -/
theorem prompt_next (hprompt : prompt size held (line ++ '\n' :: rest) = (value, rest)) :
    line.length < size - 1 := by
  have hsnd := prompt_snd size held (line ++ '\n' :: rest)
  rw [hprompt] at hsnd
  exact Text.length_lt_of_readLine hsnd.symm

-- ---------------------------------------------------------------------------
-- One round
-- ---------------------------------------------------------------------------

variable {c : Console}

/-- A round whose values are within the limits stores them and is the
last. -/
theorem round_stores (h : Within c.askKey.keyStack c.askKey.askUrl.urlStack
      c.askKey.askUrl.askPort.portStack) :
    c.round.1 = 0 ∧ c.round.2.file = some (securityText c.askKey.keyStack
      c.askKey.askUrl.urlStack c.askKey.askUrl.askPort.portStack) := by
  rw [round_eq, createSecurityFile_ok h.1 h.2.1 h.2.2]
  exact ⟨rfl, rfl⟩

/-- The arrays are smaller than the limits: no round is ever refused. -/
theorem within_of_empty (hkey : c.keyStack = []) (hurl : c.urlStack = [])
    (hport : c.portStack = []) :
    Within c.askKey.keyStack c.askKey.askUrl.urlStack c.askKey.askUrl.askPort.portStack := by
  have hk := prompt_length_le 255 c.stdin
  have hu := prompt_length_le 79 c.askKey.stdin
  have hp := prompt_length_le 9 c.askKey.askUrl.stdin
  rw [← hkey] at hk
  rw [← hurl] at hu
  rw [← hport] at hp
  exact ⟨hk.trans (by decide), hu.trans (by decide), hp.trans (by decide)⟩

theorem prompts_last (h : c.round.1 = 0) (fuel : Nat) :
    c.prompts (fuel + 1) = .ok c.round.2 := by
  rw [prompts_succ, if_pos h]

/-- More fuel makes no difference once the prompts have come to their
end. -/
theorem prompts_mono (h : c.prompts n = .ok c') (hle : n ≤ m) : c.prompts m = .ok c' := by
  induction n generalizing m c with
  | zero => cases h
  | succ n ih =>
    obtain ⟨m, rfl⟩ := Nat.exists_eq_add_of_le' (Nat.zero_lt_of_lt hle)
    rw [prompts_succ] at h ⊢
    split at h
    · rename_i hlast
      rw [if_pos hlast]
      exact h
    · rename_i hagain
      rw [if_neg hagain]
      exact ih h (Nat.le_of_succ_le_succ hle)

end Console

-- ---------------------------------------------------------------------------
-- All rounds
-- ---------------------------------------------------------------------------

/-- A line that its prompt takes whole. -/
def Taken (line : CString) (room : Nat) : Prop := line.length ≤ room ∧ '\x00' ∉ line

instance (line : CString) (room : Nat) : Decidable (Taken line room) :=
  inferInstanceAs (Decidable (_ ∧ _))

section
variable {key url port : CString} {later : List CString} {c : Console}

theorem faithful_of_taken (hkey : '\n' ∉ key ∧ Taken key 253) (hurl : '\n' ∉ url ∧ Taken url 77)
    (hport : '\n' ∉ port ∧ Taken port 8) (hc : c.stdin = typed (key :: url :: port :: later)) :
    Faithful (key :: url :: port :: later) c := by
  have hk : Console.prompt 255 c.keyStack c.stdin = (key, typed (url :: port :: later)) := by
    rw [hc, Text.typed_cons]
    exact Console.prompt_line hkey.1 hkey.2.2 (Nat.lt_succ_of_le hkey.2.1) _ _
  have hkstdin : c.askKey.stdin = typed (url :: port :: later) := congrArg Prod.snd hk
  have hu : Console.prompt 79 c.urlStack c.askKey.stdin = (url, typed (port :: later)) := by
    rw [hkstdin, Text.typed_cons]
    exact Console.prompt_line hurl.1 hurl.2.2 (Nat.lt_succ_of_le hurl.2.1) _ _
  have hustdin : c.askKey.askUrl.stdin = typed (port :: later) := congrArg Prod.snd hu
  have hp : (Console.prompt 9 c.portStack c.askKey.askUrl.stdin).1 = port := by
    rw [hustdin, Text.typed_cons, Console.prompt_fst hport.1 (by decide),
      List.take_of_length_le hport.2.1, Text.cString_of_not_mem hport.2.2]
  have hwithin : Within key url port :=
    ⟨hkey.2.1.trans (by decide), hurl.2.1.trans (by decide), hport.2.1.trans (by decide)⟩
  have hvalues : c.askKey.keyStack = key ∧ c.askKey.askUrl.urlStack = url ∧
      c.askKey.askUrl.askPort.portStack = port :=
    ⟨congrArg Prod.fst hk, congrArg Prod.fst hu, hp⟩
  obtain ⟨hround, hfile⟩ := c.round_stores (by rwa [hvalues.1, hvalues.2.1, hvalues.2.2])
  rw [hvalues.1, hvalues.2.1, hvalues.2.2] at hfile
  refine ⟨hkstdin, hustdin, ?_⟩
  rw [if_pos hwithin]
  exact ⟨c.round.2, Console.prompts_last hround 0, hfile⟩

theorem securityText_length (h : Within key url port) :
    (securityText key url port).length = key.length + url.length + port.length + 22 := by
  rw [securityText_eq h]
  simp only [List.length_append, List.length_cons, List.length_nil, isLabel_key.2, isLabel_url.2,
    isLabel_port.2]
  omega

/-- What is right for arrays with nothing in them has taken three whole
lines. -/
theorem taken_of_faithful (hkey : '\n' ∉ key) (hurl : '\n' ∉ url) (hport : '\n' ∉ port)
    (hempty : c.keyStack = [] ∧ c.urlStack = [] ∧ c.portStack = [])
    (hc : c.stdin = typed (key :: url :: port :: later))
    (h : Faithful (key :: url :: port :: later) c) :
    Taken key 253 ∧ Taken url 77 ∧ Taken port 8 := by
  obtain ⟨hkstdin, hustdin, hround⟩ := h
  have hk : Console.prompt 255 c.keyStack (key ++ '\n' :: typed (url :: port :: later)) =
      (c.askKey.keyStack, typed (url :: port :: later)) := by
    rw [← Text.typed_cons, ← hc, ← hkstdin, Console.askKey_eq]
  have hu : Console.prompt 79 c.askKey.urlStack (url ++ '\n' :: typed (port :: later)) =
      (c.askKey.askUrl.urlStack, typed (port :: later)) := by
    rw [← Text.typed_cons, ← hkstdin, ← hustdin, Console.askUrl_eq]
  have hp : Console.prompt 9 c.askKey.askUrl.portStack (port ++ '\n' :: typed later) =
      (c.askKey.askUrl.askPort.portStack, c.askKey.askUrl.askPort.stdin) := by
    rw [← Text.typed_cons, ← hustdin, Console.askPort_eq]
  have hfits := c.within_of_empty hempty.1 hempty.2.1 hempty.2.2
  obtain ⟨hzero, hfile⟩ := c.round_stores hfits
  split at hround
  · rename_i hwithin
    obtain ⟨c', hloop, htext⟩ := hround
    rw [Console.prompts_last hzero] at hloop
    obtain rfl := Except.ok.inj hloop
    rw [hfile] at htext
    have hlen := congrArg List.length (Option.some.inj htext)
    rw [securityText_length hfits, securityText_length hwithin] at hlen
    -- none of the three values is longer than its line, so none is shorter
    have hkle := Console.prompt_value_length_le hkey (by decide) hk
    have hule := Console.prompt_value_length_le hurl (by decide) hu
    have hple := Console.prompt_value_length_le hport (by decide) hp
    have hkwhole := Console.prompt_whole hkey (by decide) hk (by omega)
    have huwhole := Console.prompt_whole hurl (by decide) hu (by omega)
    have hpwhole := Console.prompt_whole hport (by decide) hp (by omega)
    exact ⟨⟨Nat.le_of_lt_succ (Console.prompt_next hk), hkwhole.2⟩,
      ⟨Nat.le_of_lt_succ (Console.prompt_next hu), huwhole.2⟩, hpwhole⟩
  · exact absurd hzero hround.1

end

/-- The prompts are faithful exactly to lines that begin with three the
arrays can hold with their line feeds (the port's array without).

Premise: the lines are lines. -/
theorem faithful_iff {lines : List CString} (hlines : ∀ line ∈ lines, '\n' ∉ line) :
    (∀ c : Console, c.stdin = typed lines → Faithful lines c) ↔
      ∃ key url port later, lines = key :: url :: port :: later ∧
        Taken key 253 ∧ Taken url 77 ∧ Taken port 8 := by
  constructor
  · intro h
    have hfresh : ∃ c : Console, c.stdin = typed lines ∧
        c.keyStack = [] ∧ c.urlStack = [] ∧ c.portStack = [] :=
      ⟨⟨none, typed lines, [], [], []⟩, rfl, rfl, rfl, rfl⟩
    obtain ⟨c, hstdin, hempty⟩ := hfresh
    have hfaithful := h c hstdin
    have hzero := (c.round_stores (c.within_of_empty hempty.1 hempty.2.1 hempty.2.2)).1
    match lines with
    | [] => exact absurd hzero hfaithful.1
    | [key] => exact absurd hzero hfaithful.1
    | [key, url] => exact absurd hzero hfaithful.1
    | key :: url :: port :: later =>
      simp only [List.mem_cons, forall_eq_or_imp] at hlines
      exact ⟨key, url, port, later, rfl,
        taken_of_faithful hlines.1 hlines.2.1 hlines.2.2.1 hempty hstdin hfaithful⟩
  · rintro ⟨key, url, port, later, rfl, hkey, hurl, hport⟩ c hc
    simp only [List.mem_cons, forall_eq_or_imp] at hlines
    exact faithful_of_taken ⟨hlines.1, hkey⟩ ⟨hlines.2.1, hurl⟩ ⟨hlines.2.2.1, hport⟩ hc

theorem faithful_iff_local :
    Faithful [['k', 'e', 'y'], ['u'], ['8', '0', '8', '0'], ['n']]
      ⟨none, typed [['k', 'e', 'y'], ['u'], ['8', '0', '8', '0'], ['n']], [], [], []⟩ :=
  (faithful_iff (by decide)).mpr ⟨_, _, _, _, rfl, by decide, by decide, by decide⟩ _ rfl

/-- A key of 254 characters fills its array, and its line feed is taken for
the URL. -/
theorem not_faithful :
    ¬ ∀ lines : List CString, (∀ line ∈ lines, '\n' ∉ line) →
      ∀ c : Console, c.stdin = typed lines → Faithful lines c := by
  intro h
  have hlong : ∃ key : CString, '\n' ∉ key ∧ key.length = 254 :=
    ⟨List.replicate 254 'a', fun hmem => absurd (List.eq_of_mem_replicate hmem) (by decide),
      List.length_replicate⟩
  obtain ⟨key, hkey, hlength⟩ := hlong
  have hfaithful := h [key, ['u'], ['p']] (by simp [hkey])
    ⟨none, typed [key, ['u'], ['p']], [], [], []⟩ rfl
  have htaken := taken_of_faithful hkey (by decide) (by decide) ⟨rfl, rfl, rfl⟩ rfl hfaithful
  have hroom := htaken.1.1
  rw [hlength] at hroom
  exact absurd hroom (by decide)

-- ---------------------------------------------------------------------------
-- The client's settings
-- ---------------------------------------------------------------------------

/-- What `routine_payload` and `case_not_ok` read from the file. -/
def Settings.read (hmac : CString → CString → Digest) (services : Services) (file : CString) :
    Option Settings := do
  let addr ← getFileUrl file
  let prt ← getFilePrt file
  let key ← getFileKey file
  pure { addr, prt, key, hmac, services }

/-- Three values that `create_security_file` stores as they are. -/
structure Configuration where
  key : CString
  url : CString
  port : CString
  key_text : LineText key
  url_text : LineText url
  port_text : LineText port
  within : Within key url port

namespace Configuration

def text (l : Configuration) : CString := securityText l.key l.url l.port

def settings (l : Configuration) (hmac : CString → CString → Digest) (services : Services) :
    Settings :=
  { addr := l.url, prt := l.port, key := l.key, hmac, services }

variable (l : Configuration)

theorem read : Settings.read hmac services l.text = some (l.settings hmac services) := by
  obtain ⟨hkey, hurl, hport⟩ := read_securityText l.key_text l.url_text l.port_text l.within
  rw [text, Settings.read, hurl, hport, hkey]
  rfl

end Configuration

def localConfiguration : Configuration where
  key := lit "secret"
  url := lit "localhost"
  port := lit "8080"
  key_text := by
    simp only [Text.lit_eq, String.reduceToList]
    decide
  url_text := by
    simp only [Text.lit_eq, String.reduceToList]
    decide
  port_text := by
    simp only [Text.lit_eq, String.reduceToList]
    decide
  within := by
    simp only [Text.lit_eq, String.reduceToList]
    decide

theorem read_localConfiguration :
    Settings.read localSettings.hmac localSettings.services localConfiguration.text =
      some localSettings := localConfiguration.read

namespace Console

/-- The arrays hold strings. -/
def Strings (c : Console) : Prop :=
  '\x00' ∉ c.keyStack ∧ '\x00' ∉ c.urlStack ∧ '\x00' ∉ c.portStack

instance (c : Console) : Decidable c.Strings := inferInstanceAs (Decidable (_ ∧ _))

variable {c : Console}

/-- Whatever is typed, what a prompt leaves in its array is text that a line
can hold. -/
theorem prompt_text {held : CString} (h : '\x00' ∉ held) (size : Nat) (stdin : List Char) :
    LineText (prompt size held stdin).1 := by
  have hline : '\x00' ∉ (getLine size held stdin).1 := by
    unfold getLine
    split
    · exact h
    · exact Text.not_mem_cString _
  refine ⟨fun hmem => ?_, fun hmem => ?_⟩
  · simpa using List.mem_takeWhile_imp hmem
  · exact hline ((List.takeWhile_prefix _).subset hmem)

/-- A round leaves strings in the arrays, and is the last only if it has
stored them. -/
theorem Strings.round (h : c.Strings) :
    c.round.2.Strings ∧ (c.round.1 = 0 → ∃ l : Configuration, c.round.2.file = some l.text) := by
  have hkey := prompt_text h.1 255 c.stdin
  have hurl := prompt_text h.2.1 79 c.askKey.stdin
  have hport := prompt_text h.2.2 9 c.askKey.askUrl.stdin
  refine ⟨⟨hkey.2, hurl.2, hport.2⟩, fun hlast => ?_⟩
  rw [round_eq] at hlast ⊢
  rcases createSecurityFile_cases c.askKey.keyStack c.askKey.askUrl.urlStack
    c.askKey.askUrl.askPort.portStack c.file with ⟨heq, -⟩ | ⟨heq, -⟩ | ⟨heq, -⟩ | ⟨heq, hlen⟩
  all_goals rw [heq] at hlast ⊢
  · cases hlast
  · cases hlast
  · cases hlast
  · exact ⟨⟨_, _, _, hkey, hurl, hport, hlen⟩, rfl⟩

theorem Strings.prompts (h : c.Strings) (rounds : Nat) :
    c.prompts rounds = .error .prompting ∨
      ∃ c' l, c.prompts rounds = .ok c' ∧ c'.file = some (Configuration.text l) := by
  induction rounds generalizing c with
  | zero => exact .inl rfl
  | succ rounds ih =>
    obtain ⟨hnext, hstored⟩ := h.round
    rw [prompts_succ]
    split
    · rename_i hlast
      obtain ⟨l, hfile⟩ := hstored hlast
      exact .inr ⟨_, l, rfl, hfile⟩
    · exact ih hnext

end Console

/-- `file_greeter` reads what it has written, and comes to its end only with a
file it can read the next time; a file that is accepted stays as it is. -/
theorem fileGreeter_sound {c : Console} (hstrings : c.Strings)
    (hfile : ∀ file ∈ c.file, ∃ l : Configuration, file = l.text) (rounds : Nat) :
    fileGreeter rounds c = .error .prompting ∨
      ∃ c' l, fileGreeter rounds c = .ok c' ∧ c'.file = some (Configuration.text l) ∧
        (c.file ≠ none → ¬ c.Declines → c'.file = c.file) := by
  cases hheld : c.file with
  | none =>
    rw [fileGreeter_none hheld]
    rcases hstrings.prompts rounds with hprompting | ⟨c', l, hprompts, hstored⟩
    · exact .inl hprompting
    · exact .inr ⟨c', l, hprompts, hstored, fun hne => absurd rfl hne⟩
  | some file =>
    obtain ⟨l, rfl⟩ := hfile file hheld
    obtain ⟨hkey, hurl, hport⟩ := read_securityText l.key_text l.url_text l.port_text l.within
    rw [fileGreeter_some hheld hkey hurl hport]
    split
    · rename_i hdeclines
      have hanswer : (c.answer l.key l.url l.port).Strings := hstrings
      rcases hanswer.prompts rounds with hprompting | ⟨c', l', hprompts, hstored⟩
      · exact .inl hprompting
      · exact .inr ⟨c', l', hprompts, hstored, fun _ haccept => absurd hdeclines haccept⟩
    · rename_i haccept
      have hkept : (c.answer l.key l.url l.port).file = some l.text := by
        rw [Console.answer, createSecurityFile_ok l.within.1 l.within.2.1 l.within.2.2]
        exact if_neg haccept
      exact .inr ⟨_, l, rfl, hkept, fun _ _ => hkept⟩

end WireSentinel
