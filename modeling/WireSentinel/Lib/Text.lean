import Mathlib.Algebra.Order.Ring.Int
import Mathlib.Data.List.Basic

/-!
# Numerals in text

Hexadecimal bytes and decimal naturals as `printf` writes them, and the
readers that take them back.
-/

namespace WireSentinel

/-- A C string without its terminator. -/
abbrev CString := List Char

namespace Text

/-- A literal of the source. It is unfolded by `lit_eq` only: left to
itself, Lean decodes literals over and over. -/
@[irreducible] def lit (s : String) : CString := s.toList

theorem lit_eq (s : String) : lit s = s.toList := by
  unfold lit
  rfl

@[simp] theorem lit_length (s : String) : (lit s).length = s.toList.length := by
  rw [lit_eq]

theorem takeWhile_stop {p : α → Bool} {xs ys : List α} (hx : ∀ x ∈ xs, p x)
    (hy : ∀ y ∈ ys.head?, p y = false) : (xs ++ ys).takeWhile p = xs := by
  rw [List.takeWhile_append_of_pos hx]
  cases ys with
  | nil => simp
  | cons y ys => simp [hy y rfl]

/-- `snprintf` into a buffer of `size` bytes: the text, cut so that its
terminator fits. -/
def snprintf (size : Nat) (text : CString) : CString := text.take (size - 1)

theorem snprintf_eq (h : text.length < size) : snprintf size text = text :=
  List.take_of_length_le (by omega)

/-- What comes first is cut last. -/
theorem snprintf_append (h : start.length < size) (text : CString) :
    snprintf size (start ++ text) = start ++ text.take (size - 1 - start.length) := by
  rw [snprintf, List.take_append, List.take_of_length_le (by omega)]

/-- `strcat` onto the text in a buffer of `size` bytes; `none` if it writes
behind the buffer's end. -/
def strcat (size : Nat) (dst src : CString) : Option CString :=
  if dst.length + src.length < size then some (dst ++ src) else none

theorem foldlM_strcat (pieces : List CString) {dst : CString}
    (h : dst.length + pieces.flatten.length < size) :
    pieces.foldlM (strcat size) dst = some (dst ++ pieces.flatten) := by
  induction pieces generalizing dst with
  | nil => simp
  | cons piece pieces ih =>
    simp only [List.flatten_cons, List.length_append] at h
    have hfit : dst.length + piece.length < size := by omega
    rw [List.foldlM_cons, strcat, if_pos hfit, Option.bind_eq_bind, Option.bind_some,
      ih (by rw [List.length_append]; omega), List.flatten_cons, List.append_assoc]

-- ---------------------------------------------------------------------------
-- Hexadecimal
-- ---------------------------------------------------------------------------

/-- `%02x` of a byte. -/
def hexByte (b : UInt8) : CString := [Nat.digitChar (b.toNat / 16), Nat.digitChar (b.toNat % 16)]

def hexVal (c : Char) : Option Nat :=
  if '0' ≤ c ∧ c ≤ '9' then some (c.toNat - '0'.toNat)
  else if 'a' ≤ c ∧ c ≤ 'f' then some (c.toNat - 'a'.toNat + 10)
  else none

def readHex : CString → Option (List UInt8)
  | [] => some []
  | [_] => none
  | a :: b :: rest => do
    let hi ← hexVal a
    let lo ← hexVal b
    let bs ← readHex rest
    pure (UInt8.ofNat (16 * hi + lo) :: bs)

theorem hexVal_digitChar (h : d < 16) : hexVal (Nat.digitChar d) = some d := by
  have all : ∀ d : Fin 16, hexVal (Nat.digitChar d) = some d.val := by decide
  exact all ⟨d, h⟩

@[simp] theorem hexByte_length (b : UInt8) : (hexByte b).length = 2 := rfl

theorem readHex_hexByte (b : UInt8) (rest : CString) :
    readHex (hexByte b ++ rest) = (readHex rest).map (b :: ·) := by
  have hb := b.toNat_lt
  have hval : UInt8.ofNat (16 * (b.toNat / 16) + b.toNat % 16) = b := by
    rw [Nat.div_add_mod, UInt8.ofNat_toNat]
  simp only [hexByte, List.cons_append, List.nil_append, readHex,
    hexVal_digitChar (show b.toNat / 16 < 16 by omega),
    hexVal_digitChar (show b.toNat % 16 < 16 by omega), Option.bind_eq_bind, Option.bind_some, hval]
  cases readHex rest <;> rfl

def IsHexDigit (c : Char) : Prop := c ∈ "0123456789abcdef".toList

instance : DecidablePred IsHexDigit := fun c => inferInstanceAs (Decidable (c ∈ _))

theorem isHexDigit_digitChar (h : d < 16) : IsHexDigit (Nat.digitChar d) := by
  have all : ∀ d : Fin 16, IsHexDigit (Nat.digitChar d) := by decide
  exact all ⟨d, h⟩

theorem isHexDigit_of_mem_hexByte (h : c ∈ hexByte b) : IsHexDigit c := by
  have hb := b.toNat_lt
  simp only [hexByte, List.mem_cons, List.not_mem_nil, or_false] at h
  rcases h with rfl | rfl <;> exact isHexDigit_digitChar (by omega)

-- ---------------------------------------------------------------------------
-- Decimal
-- ---------------------------------------------------------------------------

def decimal (n : Nat) : CString := Nat.toDigits 10 n

def signed : Int → CString
  | .ofNat n => decimal n
  | .negSucc n => '-' :: decimal (n + 1)

/-- The number decimal digits spell, `none` unless all characters are
digits and there is one. -/
def readDecimal (cs : CString) : Option Nat :=
  if cs ≠ [] ∧ cs.all Char.isDigit then some (Nat.ofDigitChars 10 cs 0) else none

theorem decimal_isDigit (h : c ∈ decimal n) : c.isDigit = true :=
  Nat.isDigit_of_mem_toDigits (by decide) (by decide) h

theorem decimal_ne_nil (n : Nat) : decimal n ≠ [] := Nat.toDigits_ne_nil

@[simp] theorem ofDigitChars_decimal (n : Nat) : Nat.ofDigitChars 10 (decimal n) 0 = n :=
  Nat.ofDigitChars_ten_toDigits

theorem readDecimal_decimal (n : Nat) : readDecimal (decimal n) = some n := by
  have hall : (decimal n).all Char.isDigit = true :=
    List.all_eq_true.mpr fun _ hc => decimal_isDigit hc
  simp [readDecimal, decimal_ne_nil, hall]

theorem decimal_length_le (hk : 0 < k) (h : n < 10 ^ k) : (decimal n).length ≤ k :=
  (Nat.length_toDigits_le_iff (by decide) hk).mpr h

-- ---------------------------------------------------------------------------
-- Separated parts
-- ---------------------------------------------------------------------------

def readColonHex (cs : CString) : Option (List UInt8) :=
  ((cs.splitOn ':').mapM readHex).map List.flatten

def readOctet (cs : CString) : Option UInt8 := do
  let n ← readDecimal cs
  if n < 256 then some (UInt8.ofNat n) else none

def readDotted (cs : CString) : Option (List UInt8) := (cs.splitOn '.').mapM readOctet

theorem mem_intercalate {sep : List α} {ls : List (List α)} (h : c ∈ sep.intercalate ls) :
    c ∈ sep ∨ ∃ l ∈ ls, c ∈ l := by
  induction ls with
  | nil => simp at h
  | cons l ls ih =>
    cases ls with
    | nil => exact .inr ⟨l, List.mem_cons_self, by simpa using h⟩
    | cons l' ls =>
      rw [List.intercalate_cons_cons, List.mem_append, List.mem_append] at h
      rcases h with (h | h) | h
      · exact .inr ⟨l, List.mem_cons_self, h⟩
      · exact .inl h
      · obtain h | ⟨m, hm, h⟩ := ih h
        · exact .inl h
        · exact .inr ⟨m, List.mem_cons_of_mem _ hm, h⟩

theorem mapM_map {xs : List α} {f : α → β} {g : β → Option γ} {h : α → γ}
    (hg : ∀ a ∈ xs, g (f a) = some (h a)) :
    (xs.map f).mapM g = some (xs.map h) := by
  induction xs with
  | nil => simp
  | cons x xs ih =>
    simp [List.mapM_cons, hg x (by simp), ih fun a ha => hg a (by simp [ha])]

theorem colon_not_hexDigit : ¬ IsHexDigit ':' := by decide

/-- `count` groups of `width` hexadecimal digits, with colons between them. -/
def HexGroups (count width : Nat) (cs : CString) : Prop :=
  ∃ groups : List CString, groups.length = count ∧
    (∀ g ∈ groups, g.length = width ∧ ∀ c ∈ g, IsHexDigit c) ∧ cs = [':'].intercalate groups

/-- Four decimal numbers below 256, with dots between them. -/
def DottedQuad (cs : CString) : Prop :=
  ∃ octets : List Nat, octets.length = 4 ∧ (∀ n ∈ octets, n < 256) ∧
    cs = ['.'].intercalate (octets.map decimal)

theorem length_intercalate_singleton {sep : α} {ls : List (List α)} (hne : ls ≠ [])
    (h : ∀ l ∈ ls, l.length = width) :
    ([sep].intercalate ls).length + 1 = ls.length * (width + 1) := by
  induction ls with
  | nil => exact absurd rfl hne
  | cons l ls ih =>
    have hl : l.length = width := h l List.mem_cons_self
    cases ls with
    | nil => simp [hl]
    | cons l' ls =>
      have hrest := ih (List.cons_ne_nil _ _) fun m hm => h m (List.mem_cons_of_mem _ hm)
      rw [List.intercalate_cons_cons, List.length_append, List.length_append, hl,
        List.length_singleton, Nat.add_assoc, hrest, List.length_cons (a := l), Nat.succ_mul]
      exact Nat.add_comm _ _

theorem HexGroups.length_eq (h : HexGroups count width cs) (hcount : 0 < count) :
    cs.length + 1 = count * (width + 1) := by
  obtain ⟨groups, rfl, hgroups, rfl⟩ := h
  exact length_intercalate_singleton (List.length_pos_iff.mp hcount) fun g hg => (hgroups g hg).1

theorem readColonHex_intercalate (parts : List CString) {raw : List (List UInt8)}
    (hne : parts ≠ []) (hsep : ∀ p ∈ parts, ':' ∉ p) (h : parts.mapM readHex = some raw) :
    readColonHex ([':'].intercalate parts) = some raw.flatten := by
  rw [readColonHex, List.splitOn_intercalate ':' hsep hne, h]
  rfl

theorem readOctet_decimal (b : UInt8) : readOctet (decimal b.toNat) = some b := by
  have hb : b.toNat < 256 := b.toNat_lt
  simp [readOctet, readDecimal_decimal, hb]

theorem readDotted_intercalate {raw : List UInt8} (hne : raw ≠ []) :
    readDotted (['.'].intercalate (raw.map fun b => decimal b.toNat)) = some raw := by
  rw [readDotted, List.splitOn_intercalate '.' ?_ (by simpa using hne)]
  · simpa using mapM_map (g := readOctet) (h := id) fun b (_ : b ∈ raw) => readOctet_decimal b
  · simp only [List.forall_mem_map]
    intro b _ hdot
    exact absurd (decimal_isDigit hdot) (by decide)

end Text

end WireSentinel
