import WireSentinel.Lib.Text

/-!
# JSON texts

The grammar of RFC 8259, without string escapes and with integers for
numbers, and a recursive-descent decoder. `decode_of_document`: what the
grammar derives, the decoder reads, with the derived value.
-/

namespace WireSentinel

inductive Json where
  | null
  | bool (b : Bool)
  | num (n : Int)
  | str (s : CString)
  | arr (items : List Json)
  | obj (members : List (CString × Json))

namespace Json

def lookup (key : CString) : Json → Option Json
  | .obj members => members.lookup key
  | _ => none

-- ---------------------------------------------------------------------------
-- The grammar
-- ---------------------------------------------------------------------------

def IsWs (c : Char) : Prop := c = ' ' ∨ c = '\n' ∨ c = '\r' ∨ c = '\t'

instance : DecidablePred IsWs := fun _ => inferInstanceAs (Decidable (_ ∨ _))

/-- A character that stands for itself in a string. -/
def Unescaped (c : Char) : Prop := c ≠ '"' ∧ c ≠ '\\' ∧ ' ' ≤ c

instance : DecidablePred Unescaped := fun _ => inferInstanceAs (Decidable (_ ∧ _))

def Blank (ws : CString) : Prop := ∀ c ∈ ws, IsWs c

instance (ws : CString) : Decidable (Blank ws) := List.decidableBAll _ ws

theorem blank_nil : Blank [] := by decide

theorem blank_append (h : Blank w) (h' : Blank w') : Blank (w ++ w') :=
  fun c hc => (List.mem_append.mp hc).elim (h c) (h' c)

/-- What a text can be derived as. -/
inductive Shape where
  | value (v : Json)
  | elements (items : List Json)
  | members (ms : List (CString × Json))

def quoted (s : CString) : CString := '"' :: (s ++ ['"'])

inductive Derives : Shape → CString → Prop
  | null : Derives (.value .null) "null".toList
  | true : Derives (.value (.bool true)) "true".toList
  | false : Derives (.value (.bool false)) "false".toList
  | num (n : Int) : Derives (.value (.num n)) (Text.signed n)
  | str (h : ∀ c ∈ s, Unescaped c) : Derives (.value (.str s)) (quoted s)
  | emptyArr (hw : Blank w) : Derives (.value (.arr [])) ('[' :: (w ++ [']']))
  | arr (hw : Blank w) (h : Derives (.elements vs) t) (hw' : Blank w') :
      Derives (.value (.arr vs)) ('[' :: (w ++ t ++ w' ++ [']']))
  | emptyObj (hw : Blank w) : Derives (.value (.obj [])) ('{' :: (w ++ ['}']))
  | obj (hw : Blank w) (h : Derives (.members ms) t) (hw' : Blank w') :
      Derives (.value (.obj ms)) ('{' :: (w ++ t ++ w' ++ ['}']))
  | one (h : Derives (.value v) t) : Derives (.elements [v]) t
  | more (h : Derives (.value v) t) (hw : Blank w) (hw' : Blank w')
      (h' : Derives (.elements vs) t') :
      Derives (.elements (v :: vs)) (t ++ (w ++ ',' :: (w' ++ t')))
  | oneMember (hk : ∀ c ∈ k, Unescaped c) (hw : Blank w) (hw' : Blank w')
      (h : Derives (.value v) t) :
      Derives (.members [(k, v)]) (quoted k ++ (w ++ ':' :: (w' ++ t)))
  | moreMembers (hk : ∀ c ∈ k, Unescaped c) (hw : Blank w) (hw' : Blank w')
      (h : Derives (.value v) t) (hx : Blank x) (hx' : Blank x') (h' : Derives (.members ms) t') :
      Derives (.members ((k, v) :: ms))
        (quoted k ++ (w ++ ':' :: (w' ++ t)) ++ (x ++ ',' :: (x' ++ t')))

/-- A whole text: one value, with white space around it. -/
def Document (v : Json) (text : CString) : Prop :=
  ∃ w t w', text = w ++ t ++ w' ∧ Blank w ∧ Derives (.value v) t ∧ Blank w'

-- ---------------------------------------------------------------------------
-- The decoder
-- ---------------------------------------------------------------------------

def skipWs (cs : CString) : CString := cs.dropWhile (fun c => decide (IsWs c))

/-- The characters up to the closing quote. -/
def readChars (cs : CString) : Option (CString × CString) :=
  let s := cs.takeWhile (fun c => decide (Unescaped c))
  match cs.drop s.length with
  | '"' :: rest => some (s, rest)
  | _ => none

def readDigits (cs : CString) : Option (Nat × CString) :=
  let ds := cs.takeWhile Char.isDigit
  if ds = [] ∨ (ds.head? = some '0' ∧ ds ≠ ['0']) then none
  else some (Nat.ofDigitChars 10 ds 0, cs.drop ds.length)

def readNumber (cs : CString) : Option (Int × CString) :=
  match cs with
  | '-' :: cs => (readDigits cs).map fun (n, rest) => (-(n : Int), rest)
  | cs => (readDigits cs).map fun (n, rest) => ((n : Int), rest)

mutual

def readValue : Nat → CString → Option (Json × CString)
  | 0, _ => none
  | fuel + 1, cs =>
    match cs with
    | 'n' :: 'u' :: 'l' :: 'l' :: rest => some (.null, rest)
    | 't' :: 'r' :: 'u' :: 'e' :: rest => some (.bool true, rest)
    | 'f' :: 'a' :: 'l' :: 's' :: 'e' :: rest => some (.bool false, rest)
    | '"' :: cs => (readChars cs).map fun (s, rest) => (.str s, rest)
    | '[' :: cs =>
      match skipWs cs with
      | ']' :: rest => some (.arr [], rest)
      | cs => do
        let (vs, cs) ← readElements fuel cs
        match skipWs cs with
        | ']' :: rest => some (.arr vs, rest)
        | _ => none
    | '{' :: cs =>
      match skipWs cs with
      | '}' :: rest => some (.obj [], rest)
      | cs => do
        let (ms, cs) ← readMembers fuel cs
        match skipWs cs with
        | '}' :: rest => some (.obj ms, rest)
        | _ => none
    | cs => (readNumber cs).map fun (n, rest) => (.num n, rest)

def readElements : Nat → CString → Option (List Json × CString)
  | 0, _ => none
  | fuel + 1, cs => do
    let (v, cs) ← readValue fuel cs
    match skipWs cs with
    | ',' :: rest => do
      let (vs, cs) ← readElements fuel (skipWs rest)
      some (v :: vs, cs)
    | _ => some ([v], cs)

def readMembers : Nat → CString → Option (List (CString × Json) × CString)
  | 0, _ => none
  | fuel + 1, cs =>
    match cs with
    | '"' :: cs => do
      let (k, cs) ← readChars cs
      match skipWs cs with
      | ':' :: cs => do
        let (v, cs) ← readValue fuel (skipWs cs)
        match skipWs cs with
        | ',' :: rest => do
          let (ms, cs) ← readMembers fuel (skipWs rest)
          some ((k, v) :: ms, cs)
        | _ => some ([(k, v)], cs)
      | _ => none
    | _ => none

end

/-- Decode a whole text. Every step of the descent takes a character, so the
length is fuel enough. -/
def decode (text : CString) : Option Json :=
  match readValue text.length (skipWs text) with
  | some (v, rest) => if skipWs rest = [] then some v else none
  | none => none

-- ---------------------------------------------------------------------------
-- What the decoder reads
-- ---------------------------------------------------------------------------

variable {w t rest : CString} {s : CString}

theorem skipWs_append (hw : Blank w) (t : CString) : skipWs (w ++ t) = skipWs t :=
  List.dropWhile_append_of_pos fun c hc => by simpa using hw c hc

theorem skipWs_cons (hc : ¬ IsWs c) (t : CString) : skipWs (c :: t) = c :: t := by
  simp [skipWs, hc]

theorem readChars_quoted (hs : ∀ c ∈ s, Unescaped c) (rest : CString) :
    readChars (s ++ '"' :: rest) = some (s, rest) := by
  have htake : (s ++ '"' :: rest).takeWhile (fun c => decide (Unescaped c)) = s :=
    Text.takeWhile_stop (by simpa using hs) (by simp [Unescaped])
  simp [readChars, htake]

def NoDigit (rest : CString) : Prop := ∀ c ∈ rest.head?, c.isDigit = false

theorem decimal_head_zero (h : (Text.decimal n).head? = some '0') : Text.decimal n = ['0'] := by
  unfold Text.decimal at h ⊢
  induction n using Nat.strongRecOn with
  | ind n ih =>
    by_cases hn : n < 10
    · rw [Nat.toDigits_of_lt_base hn] at h ⊢
      simpa using h
    · rw [Nat.toDigits_of_base_le (by decide) (by omega),
        List.head?_append_of_ne_nil _ Nat.toDigits_ne_nil] at h
      -- the leading part is then '0', and `n` was below 10
      have hlead := ih (n / 10) (by omega) h
      have hzero : n / 10 = 0 := by
        rw [← Nat.ofDigitChars_ten_toDigits (n := n / 10), hlead]
        rfl
      omega

theorem readDigits_decimal (n : Nat) (hrest : NoDigit rest) :
    readDigits (Text.decimal n ++ rest) = some (n, rest) := by
  have htake : (Text.decimal n ++ rest).takeWhile Char.isDigit = Text.decimal n :=
    Text.takeWhile_stop (fun c => Text.decimal_isDigit) hrest
  have hzero : ¬ (Text.decimal n = [] ∨
      ((Text.decimal n).head? = some '0' ∧ Text.decimal n ≠ ['0'])) := by
    rintro (h | ⟨h, hne⟩)
    · exact Text.decimal_ne_nil n h
    · exact hne (decimal_head_zero h)
  simp only [readDigits, htake, if_neg hzero, Text.ofDigitChars_decimal, List.drop_left]

theorem decimal_cons (n : Nat) : ∃ d ds, Text.decimal n = d :: ds ∧ d.isDigit = true := by
  obtain ⟨d, ds, hd⟩ := List.exists_cons_of_ne_nil (Text.decimal_ne_nil n)
  exact ⟨d, ds, hd, Text.decimal_isDigit (n := n) (by simp [hd])⟩

theorem digit_ne {d : Char} (hd : d.isDigit = true) (hc : c.isDigit = false) : d ≠ c := by
  rintro rfl
  simp [hd] at hc

theorem readNumber_signed (n : Int) (hrest : NoDigit rest) :
    readNumber (Text.signed n ++ rest) = some (n, rest) := by
  cases n with
  | ofNat n =>
    obtain ⟨d, ds, hds, hd⟩ := decimal_cons n
    have hdigits := readDigits_decimal n hrest
    simp only [Text.signed]
    rw [hds, List.cons_append] at hdigits ⊢
    unfold readNumber
    split
    · rename_i heq
      exact absurd (List.cons.inj heq).1 (digit_ne hd (by decide))
    · rw [hdigits]
      rfl
  | negSucc n =>
    simp only [Text.signed, List.cons_append, readNumber, readDigits_decimal (n + 1) hrest]
    rfl

theorem readValue_signed (n : Int) (hrest : NoDigit rest) (fuel : Nat) :
    readValue (fuel + 1) (Text.signed n ++ rest) = some (.num n, rest) := by
  have hnum := readNumber_signed n hrest
  have hhead : ∃ d ds, Text.signed n ++ rest = d :: ds ∧ d ∉ ['n', 't', 'f', '"', '[', '{'] := by
    cases n with
    | ofNat n =>
      obtain ⟨d, ds, hds, hd⟩ := decimal_cons n
      refine ⟨d, ds ++ rest, by simp [Text.signed, hds], fun hc => ?_⟩
      simp only [List.mem_cons, List.not_mem_nil, or_false] at hc
      rcases hc with rfl | rfl | rfl | rfl | rfl | rfl <;> exact absurd hd (by decide)
    | negSucc n => exact ⟨'-', _, rfl, by decide⟩
  obtain ⟨d, ds, hds, hd⟩ := hhead
  rw [hds] at hnum ⊢
  unfold readValue
  split
  all_goals first
    | rw [hnum]; rfl
    | rename_i heq; exact absurd (by rw [(List.cons.inj heq).1]; decide) hd

theorem derives_head (h : Derives shape t) :
    ∃ c t', t = c :: t' ∧ ¬ IsWs c ∧ c ≠ ']' ∧ c ≠ '}' := by
  induction h with
  | null | true | false => exact ⟨_, _, rfl, by decide⟩
  | num n =>
    cases n with
    | ofNat n =>
      obtain ⟨d, ds, hds, hd⟩ := decimal_cons n
      refine ⟨d, ds, hds, ?_, digit_ne hd (by decide), digit_ne hd (by decide)⟩
      rintro (rfl | rfl | rfl | rfl) <;> simp at hd
    | negSucc n => exact ⟨'-', _, rfl, by decide⟩
  | str | emptyArr | arr | emptyObj | obj => exact ⟨_, _, rfl, by decide⟩
  | one h ih => exact ih
  | more h hw hw' h' ih =>
    obtain ⟨c, t', rfl, hc⟩ := ih
    exact ⟨c, _, rfl, hc⟩
  | oneMember | moreMembers => exact ⟨'"', _, rfl, by decide⟩

theorem skipWs_derives (hw : Blank w) (h : Derives shape t) (rest : CString) :
    skipWs (w ++ (t ++ rest)) = t ++ rest := by
  obtain ⟨c, t', rfl, hc, -⟩ := derives_head h
  rw [skipWs_append hw, List.cons_append, skipWs_cons hc]

theorem isDigit_of_isWs (h : IsWs c) : c.isDigit = false := by
  rcases h with rfl | rfl | rfl | rfl <;> rfl

theorem noDigit_of_blank (hw : Blank w) : NoDigit w :=
  fun c hc => isDigit_of_isWs (hw c (List.mem_of_mem_head? hc))

theorem noDigit_blank (hw : Blank w) (hc : c.isDigit = false) : NoDigit (w ++ c :: rest) := by
  cases w with
  | nil => simpa [NoDigit] using hc
  | cons d w => simpa [NoDigit] using isDigit_of_isWs (hw d (by simp))

/-- What the decoder makes of a text with something behind it. -/
def Reads : Shape → CString → Prop
  | .value v, t => ∀ fuel rest, t.length ≤ fuel → NoDigit rest →
      readValue fuel (t ++ rest) = some (v, rest)
  | .elements vs, t => ∀ fuel rest, t.length < fuel → NoDigit rest →
      (skipWs rest).head? ≠ some ',' → readElements fuel (t ++ rest) = some (vs, rest)
  | .members ms, t => ∀ fuel rest, t.length ≤ fuel → NoDigit rest →
      (skipWs rest).head? ≠ some ',' → readMembers fuel (t ++ rest) = some (ms, rest)

theorem readValue_bracket (fuel : Nat) (h : Reads (.elements vs) t) (ht : Derives (.elements vs) t)
    (hfuel : t.length < fuel) (hw : Blank w) (hw' : Blank w') (rest : CString) :
    readValue (fuel + 1) ('[' :: (w ++ (t ++ (w' ++ ']' :: rest)))) = some (.arr vs, rest) := by
  have hbracket : skipWs (']' :: rest) = ']' :: rest := skipWs_cons (by decide) rest
  have helems := h fuel (w' ++ ']' :: rest) hfuel (noDigit_blank hw' (by decide))
    (by rw [skipWs_append hw', hbracket]; simp)
  obtain ⟨c, t', rfl, -, hc, -⟩ := derives_head ht
  simp only [readValue, skipWs_derives hw ht]
  simp only [List.cons_append] at helems ⊢
  split
  · rename_i heq
    exact absurd (List.cons.inj heq).1 hc
  · rw [helems]
    simp [skipWs_append hw', hbracket]

theorem readValue_brace (fuel : Nat) (h : Reads (.members ms) t) (ht : Derives (.members ms) t)
    (hfuel : t.length ≤ fuel) (hw : Blank w) (hw' : Blank w') (rest : CString) :
    readValue (fuel + 1) ('{' :: (w ++ (t ++ (w' ++ '}' :: rest)))) = some (.obj ms, rest) := by
  have hbrace : skipWs ('}' :: rest) = '}' :: rest := skipWs_cons (by decide) rest
  have hmembers := h fuel (w' ++ '}' :: rest) hfuel (noDigit_blank hw' (by decide))
    (by rw [skipWs_append hw', hbrace]; simp)
  obtain ⟨c, t', rfl, -, -, hc⟩ := derives_head ht
  simp only [readValue, skipWs_derives hw ht]
  simp only [List.cons_append] at hmembers ⊢
  split
  · rename_i heq
    exact absurd (List.cons.inj heq).1 hc
  · rw [hmembers]
    simp [skipWs_append hw', hbrace]

theorem reads_of_derives (h : Derives shape t) : Reads shape t := by
  induction h with
  | null | true | false =>
    intro fuel rest hfuel hrest
    cases fuel with
    | zero => simp at hfuel
    | succ fuel => simp [readValue]
  | num n =>
    intro fuel rest hfuel hrest
    cases fuel with
    | zero =>
      obtain ⟨c, t', hc, -⟩ := derives_head (.num n)
      simp [hc] at hfuel
    | succ fuel => exact readValue_signed n hrest fuel
  | str h =>
    intro fuel rest hfuel hrest
    cases fuel with
    | zero => simp [quoted] at hfuel
    | succ fuel => simp [quoted, readValue, readChars_quoted h]
  | emptyArr hw =>
    intro fuel rest hfuel hrest
    cases fuel with
    | zero => simp at hfuel
    | succ fuel =>
      simp only [List.cons_append, List.append_assoc, List.nil_append, readValue, skipWs_append hw]
      rw [skipWs_cons (by decide)]
      rfl
  | arr hw h hw' ih =>
    intro fuel rest hfuel hrest
    cases fuel with
    | zero => simp at hfuel
    | succ fuel =>
      simpa using readValue_bracket fuel ih h (by simp at hfuel; omega) hw hw' rest
  | emptyObj hw =>
    intro fuel rest hfuel hrest
    cases fuel with
    | zero => simp at hfuel
    | succ fuel =>
      simp only [List.cons_append, List.append_assoc, List.nil_append, readValue, skipWs_append hw]
      rw [skipWs_cons (by decide)]
      rfl
  | obj hw h hw' ih =>
    intro fuel rest hfuel hrest
    cases fuel with
    | zero => simp at hfuel
    | succ fuel =>
      simpa using readValue_brace fuel ih h (by simp at hfuel; omega) hw hw' rest
  | one h ih =>
    intro fuel rest hfuel hrest hcomma
    cases fuel with
    | zero => simp at hfuel
    | succ fuel =>
      simp only [readElements, ih fuel rest (by omega) hrest, Option.bind_eq_bind, Option.bind_some]
      split
      · rename_i heq
        exact absurd (by simp [heq]) hcomma
      · rfl
  | more h hw hw' h' ih ih' =>
    intro fuel rest hfuel hrest hcomma
    cases fuel with
    | zero => simp at hfuel
    | succ fuel =>
      obtain ⟨c, t₁, hc, -⟩ := derives_head h
      simp only [hc, List.length_append, List.length_cons] at hfuel
      rw [List.append_assoc, List.append_assoc, List.cons_append, List.append_assoc]
      have hvalue := fun rest => ih fuel (_ ++ ',' :: rest) (by
        simp only [hc, List.length_cons]
        omega)
        (noDigit_blank hw (by decide))
      have hrest := ih' fuel rest (by omega) hrest hcomma
      simp only [readElements, hvalue, Option.bind_eq_bind, Option.bind_some, skipWs_append hw]
      rw [skipWs_cons (by decide)]
      simp [skipWs_derives hw' h', hrest]
  | oneMember hk hw hw' h ih =>
    intro fuel rest hfuel hrest hcomma
    cases fuel with
    | zero => simp [quoted] at hfuel
    | succ fuel =>
      simp only [quoted, List.length_append, List.length_cons, List.length_nil] at hfuel
      have hvalue := ih fuel rest (by omega) hrest
      simp only [quoted, List.cons_append, List.append_assoc, List.nil_append, readMembers,
        readChars_quoted hk, Option.bind_eq_bind, Option.bind_some, skipWs_append hw]
      rw [skipWs_cons (by decide)]
      simp only [skipWs_derives hw' h, hvalue, Option.bind_some]
      split
      · rename_i heq
        exact absurd (by simp [heq]) hcomma
      · rfl
  | moreMembers hk hw hw' h hx hx' h' ih ih' =>
    intro fuel rest hfuel hrest hcomma
    cases fuel with
    | zero => simp [quoted] at hfuel
    | succ fuel =>
      simp only [quoted, List.length_append, List.length_cons, List.length_nil] at hfuel
      have hvalue := fun rest => ih fuel (_ ++ ',' :: rest) (by omega)
        (noDigit_blank hx (by decide))
      have hmembers := ih' fuel rest (by omega) hrest hcomma
      simp only [quoted, List.cons_append, List.append_assoc, List.nil_append, readMembers,
        readChars_quoted hk, Option.bind_eq_bind, Option.bind_some, skipWs_append hw]
      rw [skipWs_cons (by decide)]
      simp only [skipWs_derives hw' h, hvalue, Option.bind_some, skipWs_append hx]
      rw [skipWs_cons (by decide)]
      simp [skipWs_derives hx' h', hmembers]

/-- The decoder reads what the grammar derives. -/
theorem decode_of_document (h : Document v text) : decode text = some v := by
  obtain ⟨w, t, w', rfl, hw, ht, hw'⟩ := h
  have hread := reads_of_derives ht (w ++ t ++ w').length w'
    (by simp only [List.length_append]; omega) (noDigit_of_blank hw')
  have hend : skipWs w' = [] := by
    rw [← List.append_nil w', skipWs_append hw']
    rfl
  have hstart : skipWs (w ++ t ++ w') = t ++ w' := by
    rw [List.append_assoc, skipWs_derives hw ht]
  simp only [decode, hstart, hread, hend, ↓reduceIte]

end Json

end WireSentinel
