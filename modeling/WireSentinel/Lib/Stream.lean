import WireSentinel.Lib.Tokens

/-!
# Reading lines from a stream

`fgets` takes a line if it fits into the buffer, and otherwise a part of it;
the rest of the line is what the next call starts with. `readLine_append` is
the law both cases follow from.
-/

namespace WireSentinel.Text

/-- What `fgets` with room for `n` characters takes from a stream, and what
it leaves there. -/
def readLine : Nat → List Char → List Char × List Char
  | 0, input => ([], input)
  | _ + 1, [] => ([], [])
  | n + 1, c :: input =>
    if c = '\n' then ([c], input)
    else (c :: (readLine n input).1, (readLine n input).2)

/-- `fgets(buffer, size, stream)`: the text the buffer holds afterwards, and
the stream. At its end the buffer keeps what it held. -/
def getLine (size : Nat) (held : CString) (input : List Char) : CString × List Char :=
  match readLine (size - 1) input with
  | ([], rest) => (held, rest)
  | (line, rest) => (cString line, rest)

/-- `buffer[strcspn(buffer, "\n")] = '\0'` -/
def cutLine (held : CString) : CString := held.takeWhile (· ≠ '\n')

/-- Lines as they are typed, each with its line feed. -/
def typed (lines : List CString) : List Char := lines.flatMap (· ++ ['\n'])

@[simp] theorem typed_nil : typed [] = [] := rfl

@[simp] theorem typed_cons (line : CString) (lines : List CString) :
    typed (line :: lines) = line ++ '\n' :: typed lines := by
  simp [typed]

-- ---------------------------------------------------------------------------
-- One call
-- ---------------------------------------------------------------------------

@[simp] theorem readLine_nil (n : Nat) : readLine n [] = ([], []) := by
  cases n <;> rfl

/-- Nothing is lost: what is taken stands in front of what is left. -/
theorem readLine_split (n : Nat) (input : List Char) :
    (readLine n input).1 ++ (readLine n input).2 = input := by
  fun_induction readLine n input with
  | case1 input => rfl
  | case2 n => rfl
  | case3 n input => rfl
  | case4 n c input hc ih => rw [List.cons_append, ih]

theorem readLine_length_le (n : Nat) (input : List Char) : (readLine n input).1.length ≤ n := by
  fun_induction readLine n input with
  | case1 input => exact Nat.zero_le _
  | case2 n => exact Nat.zero_le _
  | case3 n input => exact Nat.succ_le_succ (Nat.zero_le n)
  | case4 n c input hc ih => exact Nat.succ_le_succ ih

/-- Text without a line feed is taken as far as there is room, and the call
goes on behind it. -/
theorem readLine_append (h : '\n' ∉ line) (n : Nat) (input : List Char) :
    readLine (line.length + n) (line ++ input) =
      (line ++ (readLine n input).1, (readLine n input).2) := by
  induction line with
  | nil => simp
  | cons c line ih =>
    rw [List.mem_cons, not_or] at h
    rw [List.length_cons, Nat.add_right_comm, List.cons_append, readLine, if_neg (Ne.symm h.1),
      ih h.2, List.cons_append]

/-- A line that fits is taken with its line feed. -/
theorem readLine_line (h : '\n' ∉ line) (hlt : line.length < n) (rest : List Char) :
    readLine n (line ++ '\n' :: rest) = (line ++ ['\n'], rest) := by
  obtain ⟨k, rfl⟩ := Nat.exists_eq_add_of_lt hlt
  rw [Nat.add_assoc, readLine_append h]
  rfl

/-- A line that does not fit is cut. -/
theorem readLine_long (h : '\n' ∉ line) (hle : n ≤ line.length) (rest : List Char) :
    readLine n (line ++ rest) = (line.take n, line.drop n ++ rest) := by
  have htake : (line.take n).length = n := by rw [List.length_take, Nat.min_eq_left hle]
  have hnl : '\n' ∉ line.take n := fun hmem => h (List.mem_of_mem_take hmem)
  have hread := readLine_append hnl 0 (line.drop n ++ rest)
  rw [htake, Nat.add_zero, ← List.append_assoc, List.take_append_drop] at hread
  rw [hread, readLine, List.append_nil]

/-- The last line of a stream may end without a line feed. -/
theorem readLine_last (h : '\n' ∉ line) (hle : line.length ≤ n) :
    readLine n line = (line, []) := by
  obtain ⟨k, rfl⟩ := Nat.exists_eq_add_of_le hle
  have hread := readLine_append h k []
  rwa [List.append_nil, readLine_nil, List.append_nil] at hread

/-- If a call goes on with the next line, the line has fitted. -/
theorem length_lt_of_readLine (h : (readLine n (line ++ '\n' :: rest)).2 = rest) :
    line.length < n := by
  have hsplit := congrArg List.length (readLine_split n (line ++ '\n' :: rest))
  have hle := readLine_length_le n (line ++ '\n' :: rest)
  rw [h] at hsplit
  simp only [List.length_append, List.length_cons] at hsplit
  omega

/-- A line feed stands at the end of what is taken, or nowhere. -/
theorem not_mem_dropLast_readLine (n : Nat) (input : List Char) :
    '\n' ∉ (readLine n input).1.dropLast := by
  fun_induction readLine n input with
  | case1 input => exact List.not_mem_nil
  | case2 n => exact List.not_mem_nil
  | case3 n input => exact List.not_mem_nil
  | case4 n c input hc ih =>
    cases hline : (readLine n input).1 with
    | nil => exact List.not_mem_nil
    | cons d line =>
      rw [hline] at ih
      rw [List.dropLast_cons_cons, List.mem_cons, not_or]
      exact ⟨Ne.symm hc, ih⟩

/-- What does not fit makes no difference to what is taken. -/
theorem readLine_take (n : Nat) (input : List Char) :
    (readLine n (input.take n)).1 = (readLine n input).1 := by
  fun_induction readLine n input with
  | case1 input => rfl
  | case2 n => rfl
  | case3 n input => rfl
  | case4 n c input hc ih => rw [List.take_succ_cons, readLine, if_neg hc, ih]

theorem readLine_fst (n : Nat) (input : List Char) :
    (readLine n input).1 =
      (input.takeWhile (· ≠ '\n') ++ (input.dropWhile (· ≠ '\n')).take 1).take n := by
  fun_induction readLine n input with
  | case1 input => rfl
  | case2 n => rfl
  | case3 n input => simp
  | case4 n c input hc ih => simp [hc, ih]

-- ---------------------------------------------------------------------------
-- The buffer
-- ---------------------------------------------------------------------------

theorem cString_of_not_mem (h : '\x00' ∉ cs) : cString cs = cs := by
  simpa [cString] using cString_append h []

theorem cString_append_nul (cs memory : List Char) :
    cString (cs ++ '\x00' :: memory) = cString cs := by
  by_cases h : '\x00' ∈ cs
  · exact cString_terminated h _
  · rw [cString_append h, cString_of_not_mem h]
    simp [cString]

theorem not_mem_cString (cs : List Char) : '\x00' ∉ cString cs := fun h => by
  simpa using List.mem_takeWhile_imp h

theorem getLine_snd (size : Nat) (held : CString) (input : List Char) :
    (getLine size held input).2 = (readLine (size - 1) input).2 := by
  unfold getLine
  split <;> rename_i heq <;> rw [heq]

theorem getLine_of_ne (h : (readLine (size - 1) input).1 ≠ []) (held : CString) :
    getLine size held input =
      (cString (readLine (size - 1) input).1, (readLine (size - 1) input).2) := by
  unfold getLine
  split
  · rename_i heq
    exact absurd (by rw [heq]) h
  · rename_i heq
    rw [heq]

theorem getLine_line (h : '\n' ∉ line) (hnul : '\x00' ∉ line) (hlt : line.length < size - 1)
    (held : CString) (rest : List Char) :
    getLine size held (line ++ '\n' :: rest) = (line ++ ['\n'], rest) := by
  have hread := readLine_line h hlt rest
  rw [getLine_of_ne (by rw [hread]; simp), hread, cString_of_not_mem (by simpa using hnul)]

/-- What a call leaves in an empty buffer fits into it. -/
theorem getLine_length_le (size : Nat) (input : List Char) :
    (getLine size [] input).1.length ≤ size - 1 := by
  unfold getLine
  split
  · exact Nat.zero_le _
  · rename_i line rest _ heq
    have hle := readLine_length_le (size - 1) input
    rw [heq] at hle
    exact (List.takeWhile_prefix _).length_le.trans hle

theorem cutLine_line (h : '\n' ∉ line) (rest : List Char) :
    cutLine (line ++ '\n' :: rest) = line :=
  takeWhile_stop (by
    intro c hc
    rw [decide_eq_true_eq]
    rintro rfl
    exact h hc) (by simp)

theorem cutLine_length_le (held : CString) : (cutLine held).length ≤ held.length :=
  (List.takeWhile_prefix _).length_le

end WireSentinel.Text
