import Mathlib.Data.List.TakeDrop
import WireSentinel.Lib.Stream

/-!
# The configuration

`security.c`: the file with the shared key, the URL and the port, the
functions that write and read it, and `file_greeter`, which asks for what is
not there.
-/

namespace WireSentinel

open Text (lit snprintf readLine getLine cutLine)

-- ---------------------------------------------------------------------------
-- The file
-- ---------------------------------------------------------------------------

def securityText (key url port : CString) : CString := snprintf 2048 (List.flatten [
  lit "SHRD_SCRT=" ++ key ++ lit "\n",
  lit "URL=" ++ url ++ lit "\n",
  lit "PORT=" ++ port ++ lit "\n"])

/-- `create_security_file`: what it returns, and the file afterwards. -/
def createSecurityFile (key url port : CString) (file : Option CString) : Int × Option CString :=
  if key.length > 256 then (1, file)
  else if url.length > 80 then (2, file)
  else if port.length > 10 then (3, file)
  else (0, some (securityText key url port))

/-- The body of the loop of `get_file_full`. -/
def nextLine (buffer : CString) (fl : List Char) : CString × List Char :=
  let (buffer, fl) := getLine 2047 buffer fl
  if buffer.head? = some '\n' then getLine 2047 buffer fl else (buffer, fl)

def nextLines : Nat → CString → List Char → CString
  | 0, buffer, _ => buffer
  | n + 1, buffer, fl =>
    let (buffer, fl) := nextLine buffer fl
    nextLines n buffer fl

/-- `get_file_full` on the file that exists. -/
def getFileFull (file : CString) (lineNmbr : Nat) : CString := nextLines (lineNmbr + 1) [] file

/-- The line behind its label, but for its last character. `none` if the
line ends within the label: what is read then lies behind its copy. -/
def getFileField (label : Nat) (line : CString) : Option CString :=
  if line.length < label then none else some (line.drop label).dropLast

def getFileKey (file : CString) : Option CString := getFileField 10 (getFileFull file 0)

def getFileUrl (file : CString) : Option CString := getFileField 4 (getFileFull file 1)

def getFilePrt (file : CString) : Option CString := getFileField 5 (getFileFull file 2)

-- ---------------------------------------------------------------------------
-- The start of the client
-- ---------------------------------------------------------------------------

/-- What `file_greeter` reads and writes. The arrays hold whatever the stack
holds until something is read into them. -/
structure Console where
  file : Option CString
  stdin : List Char
  keyStack : CString
  urlStack : CString
  portStack : CString

/-- How `file_greeter` does not come to its end: it reads behind a string,
or it still asks. -/
inductive Halt where
  | crashed
  | prompting

namespace Console

/-- One prompt: `fgets`, and the line feed removed. -/
def prompt (size : Nat) (held : CString) (stdin : List Char) : CString × List Char :=
  let (held, stdin) := getLine size held stdin
  (cutLine held, stdin)

def askKey (c : Console) : Console :=
  let (keyStack, stdin) := prompt 255 c.keyStack c.stdin
  { c with keyStack, stdin }

def askUrl (c : Console) : Console :=
  let (urlStack, stdin) := prompt 79 c.urlStack c.stdin
  { c with urlStack, stdin }

def askPort (c : Console) : Console :=
  let (portStack, stdin) := prompt 9 c.portStack c.stdin
  { c with portStack, stdin }

/-- One round of the three prompts: `cond_break_loop`, and what is left. -/
def round (c : Console) : Int × Console :=
  let c := c.askKey.askUrl.askPort
  let (condBreakLoop, file) := createSecurityFile c.keyStack c.urlStack c.portStack c.file
  (condBreakLoop, { c with file })

/-- The loop of `file_greeter`. -/
def prompts : Nat → Console → Except Halt Console
  | 0, _ => .error .prompting
  | fuel + 1, c =>
    let (condBreakLoop, c) := c.round
    if condBreakLoop = 0 then .ok c else c.prompts fuel

/-- The question about the file is answered with `n` or `N`. -/
def Declines (c : Console) : Prop := c.stdin.head? = some 'n' ∨ c.stdin.head? = some 'N'

instance (c : Console) : Decidable c.Declines := inferInstanceAs (Decidable (_ ∨ _))

/-- `file_greeter` once it has read the file: the answer's character, and
the one behind it unless that was the line feed. -/
def answer (c : Console) (key url port : CString) : Console :=
  { c with
    stdin := if c.stdin.head? = some '\n' then c.stdin.tail else c.stdin.tail.tail
    file := if c.Declines then c.file else (createSecurityFile key url port c.file).2 }

end Console

def fileGreeter (fuel : Nat) (c : Console) : Except Halt Console :=
  match c.file with
  | none => c.prompts fuel
  | some file =>
    match getFileKey file, getFileUrl file, getFilePrt file with
    | some key, some url, some port =>
      if c.Declines then (c.answer key url port).prompts fuel
      else .ok (c.answer key url port)
    | _, _, _ => .error .crashed

/-- The file after one start of the client for each of `consoles`. -/
def restarts (fuel : Nat) (consoles : List Console) (file : Option CString) :
    Except Halt (Option CString) :=
  consoles.foldlM (fun file c => (fileGreeter fuel { c with file }).map Console.file) file

-- ---------------------------------------------------------------------------
-- Laws
-- ---------------------------------------------------------------------------

@[simp] theorem nextLines_zero (buffer : CString) (fl : List Char) :
    nextLines 0 buffer fl = buffer := rfl

theorem nextLines_succ (n : Nat) (buffer : CString) (fl : List Char) :
    nextLines (n + 1) buffer fl = nextLines n (nextLine buffer fl).1 (nextLine buffer fl).2 := rfl

/-- What it is that `create_security_file` refuses. -/
theorem createSecurityFile_cases (key url port : CString) (file : Option CString) :
    (createSecurityFile key url port file = (1, file) ∧ 256 < key.length) ∨
      (createSecurityFile key url port file = (2, file) ∧ key.length ≤ 256 ∧ 80 < url.length) ∨
      (createSecurityFile key url port file = (3, file) ∧ key.length ≤ 256 ∧ url.length ≤ 80 ∧
        10 < port.length) ∨
      (createSecurityFile key url port file = (0, some (securityText key url port)) ∧
        key.length ≤ 256 ∧ url.length ≤ 80 ∧ port.length ≤ 10) := by
  unfold createSecurityFile
  split
  · exact .inl ⟨rfl, by omega⟩
  · split
    · exact .inr (.inl ⟨rfl, by omega, by omega⟩)
    · split
      · exact .inr (.inr (.inl ⟨rfl, by omega, by omega, by omega⟩))
      · exact .inr (.inr (.inr ⟨rfl, by omega, by omega, by omega⟩))

/-- Its answer names the first value that is too long. -/
theorem createSecurityFile_fst (key url port : CString) (file : Option CString) :
    ((createSecurityFile key url port file).1 = 1 ↔ 256 < key.length) ∧
      ((createSecurityFile key url port file).1 = 2 ↔ key.length ≤ 256 ∧ 80 < url.length) ∧
      ((createSecurityFile key url port file).1 = 3 ↔
        key.length ≤ 256 ∧ url.length ≤ 80 ∧ 10 < port.length) := by
  rcases createSecurityFile_cases key url port file with h | h | h | h
  all_goals
    rw [h.1]
    simp
    omega

/-- What is refused leaves the file alone. -/
theorem createSecurityFile_snd (h : (createSecurityFile key url port file).1 ≠ 0) :
    (createSecurityFile key url port file).2 = file := by
  rcases createSecurityFile_cases key url port file with
    ⟨heq, -⟩ | ⟨heq, -⟩ | ⟨heq, -⟩ | ⟨heq, -⟩
  all_goals rw [heq] at h ⊢
  exact absurd rfl h

theorem createSecurityFile_ok (hkey : key.length ≤ 256) (hurl : url.length ≤ 80)
    (hport : port.length ≤ 10) (file : Option CString) :
    createSecurityFile key url port file = (0, some (securityText key url port)) := by
  unfold createSecurityFile
  rw [if_neg (by omega), if_neg (by omega), if_neg (by omega)]

theorem Console.askKey_eq (c : Console) : c.askKey =
    { c with
      keyStack := (prompt 255 c.keyStack c.stdin).1
      stdin := (prompt 255 c.keyStack c.stdin).2 } := rfl

theorem Console.askUrl_eq (c : Console) : c.askUrl =
    { c with
      urlStack := (prompt 79 c.urlStack c.stdin).1
      stdin := (prompt 79 c.urlStack c.stdin).2 } := rfl

theorem Console.askPort_eq (c : Console) : c.askPort =
    { c with
      portStack := (prompt 9 c.portStack c.stdin).1
      stdin := (prompt 9 c.portStack c.stdin).2 } := rfl

/-- What a round stores: each prompt fills its own array. -/
theorem Console.round_eq (c : Console) : c.round =
    let stored := createSecurityFile c.askKey.keyStack c.askKey.askUrl.urlStack
      c.askKey.askUrl.askPort.portStack c.file
    (stored.1, { c.askKey.askUrl.askPort with file := stored.2 }) := by
  have hkey : c.askKey.askUrl.askPort.keyStack = c.askKey.keyStack := by
    rw [askPort_eq, askUrl_eq]
  have hurl : c.askKey.askUrl.askPort.urlStack = c.askKey.askUrl.urlStack := by
    rw [askPort_eq]
  have hfile : c.askKey.askUrl.askPort.file = c.file := by
    rw [askPort_eq, askUrl_eq, askKey_eq]
  rw [round, ← hkey, ← hurl, ← hfile]

theorem Console.prompts_succ (fuel : Nat) (c : Console) :
    c.prompts (fuel + 1) = if c.round.1 = 0 then .ok c.round.2 else c.round.2.prompts fuel := by
  rw [prompts]

theorem fileGreeter_none (h : c.file = none) (fuel : Nat) :
    fileGreeter fuel c = c.prompts fuel := by
  unfold fileGreeter
  rw [h]

theorem fileGreeter_some (h : c.file = some file) (hkey : getFileKey file = some key)
    (hurl : getFileUrl file = some url) (hport : getFilePrt file = some port) (fuel : Nat) :
    fileGreeter fuel c =
      if c.Declines then (c.answer key url port).prompts fuel
      else .ok (c.answer key url port) := by
  unfold fileGreeter
  rw [h]
  simp only [hkey, hurl, hport]

/-- An accepted configuration is written back, if it is within the limits. -/
theorem fileGreeter_accepts (h : c.file = some file) (hkey : getFileKey file = some key)
    (hurl : getFileUrl file = some url) (hport : getFilePrt file = some port)
    (haccept : ¬ c.Declines) (fuel : Nat) :
    (fileGreeter fuel c).map Console.file =
      .ok (createSecurityFile key url port (some file)).2 := by
  rw [fileGreeter_some h hkey hurl hport, if_neg haccept]
  simp only [Except.map, Console.answer, haccept, ↓reduceIte, h]

end WireSentinel
