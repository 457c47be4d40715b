import WireSentinel.Lib.Text
import Mathlib.Data.List.TakeWhile

/-!
# Tokens and numbers in C strings

`strtok` and `atoi` of the C library.
-/

namespace WireSentinel.Text

/-- The text a C string in memory is: what stands before the first NUL. -/
def cString (memory : List Char) : CString := memory.takeWhile (· ≠ '\x00')

/-- `strtok` with one delimiter: the token, and what the next call goes on
with. -/
def strtok (delim : Char) (cs : CString) : Option CString × CString :=
  match cs.dropWhile (· = delim) with
  | [] => (none, [])
  | rest => (some (rest.takeWhile (· ≠ delim)), (rest.dropWhile (· ≠ delim)).drop 1)

def isSpace (c : Char) : Bool := c = ' ' || ('\t' ≤ c && c ≤ '\r')

/-- The sign `strtol` reads, and what follows it. -/
def readSign : CString → Bool × CString
  | '-' :: cs => (true, cs)
  | '+' :: cs => (false, cs)
  | cs => (false, cs)

/-- `atoi`: `strtol` with its overflow, converted to `int`. -/
def atoi (cs : CString) : Int :=
  let (negative, digits) := readSign (cs.dropWhile isSpace)
  let n : Int := Nat.ofDigitChars 10 (digits.takeWhile Char.isDigit) 0
  let long : Int := if negative then max (-n) (-2 ^ 63) else min n (2 ^ 63 - 1)
  long.bmod (2 ^ 32)

-- ---------------------------------------------------------------------------
-- Laws
-- ---------------------------------------------------------------------------

theorem cString_append (h : '\x00' ∉ cs) (memory : List Char) :
    cString (cs ++ memory) = cs ++ cString memory := by
  refine List.takeWhile_append_of_pos fun c hc => ?_
  simp only [decide_not, Bool.not_eq_eq_eq_not, Bool.not_true, decide_eq_false_iff_not]
  rintro rfl
  exact h hc

/-- Behind a terminator nothing belongs to the text. -/
theorem cString_terminated (h : '\x00' ∈ bytes) (memory : List Char) :
    cString (bytes ++ memory) = cString bytes := by
  rw [cString, cString, List.takeWhile_append, if_neg]
  intro hlength
  have hall : bytes.takeWhile (· ≠ '\x00') = bytes :=
    (List.takeWhile_prefix _).eq_of_length hlength
  rw [← hall] at h
  simpa using List.mem_takeWhile_imp h

theorem strtok_append (hne : token ≠ []) (h : delim ∉ token) (rest : CString) :
    strtok delim (token ++ delim :: rest) = (some token, rest) := by
  obtain ⟨c, cs, rfl⟩ := List.exists_cons_of_ne_nil hne
  simp only [List.mem_cons, not_or] at h
  have hcs : ∀ d ∈ c :: cs, decide (d ≠ delim) = true := by
    simp only [List.mem_cons, decide_eq_true_eq]
    rintro d (rfl | hd) rfl
    · exact h.1 rfl
    · exact h.2 hd
  have hstart : (c :: cs ++ delim :: rest).dropWhile (· = delim) = c :: cs ++ delim :: rest := by
    simp [Ne.symm h.1]
  have htoken : (c :: cs ++ delim :: rest).takeWhile (· ≠ delim) = c :: cs :=
    takeWhile_stop hcs (by simp)
  have hrest : (c :: cs ++ delim :: rest).dropWhile (· ≠ delim) = delim :: rest := by
    rw [List.dropWhile_append_of_pos hcs]
    simp
  rw [List.cons_append] at hstart htoken hrest
  simp only [strtok, List.cons_append, hstart, htoken, hrest]
  simp

theorem strtok_fst (h : c ≠ delim) (cs : CString) :
    (strtok delim (c :: cs)).1 = some ((c :: cs).takeWhile (· ≠ delim)) := by
  have hstart : (c :: cs).dropWhile (· = delim) = c :: cs := by simp [h]
  simp only [strtok, hstart]

/-- A token is what stands between delimiters. The next call goes on behind
the delimiter that ends it. -/
inductive IsToken (delim : Char) : CString → CString → CString → Prop
  | last (pad token : CString) (hpad : ∀ c ∈ pad, c = delim) (hne : token ≠ [])
      (hin : delim ∉ token) : IsToken delim (pad ++ token) token []
  | more (pad token rest : CString) (hpad : ∀ c ∈ pad, c = delim) (hne : token ≠ [])
      (hin : delim ∉ token) : IsToken delim (pad ++ (token ++ delim :: rest)) token rest

theorem strtok_pad {pad : CString} (h : ∀ c ∈ pad, c = delim) (cs : CString) :
    strtok delim (pad ++ cs) = strtok delim cs := by
  unfold strtok
  rw [List.dropWhile_append_of_pos (by simpa using h)]

theorem strtok_last {token : CString} (hne : token ≠ []) (h : delim ∉ token) :
    strtok delim token = (some token, []) := by
  obtain ⟨c, cs, rfl⟩ := List.exists_cons_of_ne_nil hne
  have hall : ∀ d ∈ c :: cs, decide (d ≠ delim) = true := by
    intro d hd
    rw [decide_eq_true_eq]
    rintro rfl
    exact h hd
  have hc : c ≠ delim := of_decide_eq_true (hall c List.mem_cons_self)
  have htoken : (c :: cs).takeWhile (· ≠ delim) = c :: cs := List.takeWhile_eq_self_iff.mpr hall
  have hrest : (c :: cs).dropWhile (· ≠ delim) = [] := List.dropWhile_eq_nil_iff.mpr hall
  have hstart : (c :: cs).dropWhile (· = delim) = c :: cs := by simp [hc]
  simp only [strtok, hstart, htoken, hrest, List.drop_nil]

theorem exists_span (p : α → Bool) (xs : List α) :
    ∃ l r, xs = l ++ r ∧ (∀ x ∈ l, p x = true) ∧ ∀ x ∈ r.head?, p x = false := by
  induction xs with
  | nil => exact ⟨[], [], rfl, by simp, by simp⟩
  | cons x xs ih =>
    cases hx : p x with
    | false => exact ⟨[], x :: xs, rfl, by simp, by simpa using hx⟩
    | true =>
      obtain ⟨l, r, rfl, hl, hr⟩ := ih
      exact ⟨x :: l, r, rfl, by simpa [hx] using hl, hr⟩

theorem strtok_ok : strtok delim cs = (some token, rest) ↔ IsToken delim cs token rest := by
  constructor
  · intro h
    obtain ⟨pad, cs, rfl, hpad, hstart⟩ := exists_span (· = delim) cs
    simp only [decide_eq_true_eq, decide_eq_false_iff_not] at hpad hstart
    rw [strtok_pad hpad] at h
    obtain ⟨tk, tail, rfl, htk, htail⟩ := exists_span (· ≠ delim) cs
    simp only [decide_eq_true_eq, decide_eq_false_iff_not, not_not] at htk htail
    have hin : delim ∉ tk := fun hmem => htk delim hmem rfl
    by_cases hne : tk = []
    · subst hne
      cases tail with
      | nil => simp [strtok] at h
      | cons d tail => exact absurd (htail d rfl) (hstart d rfl)
    · cases tail with
      | nil =>
        rw [List.append_nil, strtok_last hne hin] at h
        cases h
        rw [List.append_nil]
        exact .last pad token hpad hne hin
      | cons d tail =>
        obtain rfl := htail d rfl
        rw [strtok_append hne hin] at h
        cases h
        exact .more pad token rest hpad hne hin
  · intro h
    cases h with
    | last pad token hpad hne hin => rw [strtok_pad hpad, strtok_last hne hin]
    | more pad token rest hpad hne hin => rw [strtok_pad hpad, strtok_append hne hin]

theorem strtok_rest_of_none (h : strtok delim cs = (none, rest)) : rest = [] := by
  unfold strtok at h
  split at h
  · exact (Prod.mk.inj h).2.symm
  · cases h

theorem isSpace_digit (h : c.isDigit = true) : isSpace c = false := by
  rw [Bool.eq_false_iff]
  intro hs
  simp only [isSpace, Bool.or_eq_true, decide_eq_true_eq, Bool.and_eq_true] at hs
  rcases hs with rfl | ⟨-, hs⟩
  · exact absurd h (by decide)
  · have hge : 48 ≤ c.toNat := (Char.isDigit_iff_toNat.mp h).1
    have hle : c.toNat ≤ 13 := hs
    omega

theorem readSign_digit (h : c.isDigit = true) (cs : CString) :
    readSign (c :: cs) = (false, c :: cs) := by
  rw [readSign]
  · rintro _ ⟨⟩
    exact absurd h (by decide)
  · rintro _ ⟨⟩
    exact absurd h (by decide)

theorem atoi_digits (hne : digits ≠ []) (h : ∀ c ∈ digits, c.isDigit = true)
    (hrest : ∀ c ∈ rest.head?, c.isDigit = false)
    (hlt : Nat.ofDigitChars 10 digits 0 < 2 ^ 31) :
    atoi (digits ++ rest) = Nat.ofDigitChars 10 digits 0 := by
  obtain ⟨d, ds, rfl⟩ := List.exists_cons_of_ne_nil hne
  have hd : d.isDigit = true := h d List.mem_cons_self
  have hskip : (d :: ds ++ rest).dropWhile isSpace = d :: ds ++ rest := by
    simp [isSpace_digit hd]
  have hsign : readSign (d :: ds ++ rest) = (false, d :: ds ++ rest) := readSign_digit hd _
  simp only [atoi, hskip, hsign, takeWhile_stop h hrest, Bool.false_eq_true, ↓reduceIte]
  generalize Nat.ofDigitChars 10 (d :: ds) 0 = n at hlt
  rw [Int.min_def, if_pos (by omega), Int.bmod_eq_of_le (by omega) (by omega)]

end WireSentinel.Text
