import Mathlib.Data.List.Basic

/-!
# Programs that read bytes

A `Reader` asks for bytes of a memory by index and answers at the end. It
has no other effect, so what a run computes depends only on the bytes it
asked for: `eval_congr` is the two-run statement.
-/

namespace WireSentinel

inductive Reader (α : Type) where
  | done (a : α)
  | read (i : Nat) (next : UInt8 → Reader α)

/-- The bytes in front of a pointer. -/
abbrev Memory := Nat → UInt8

namespace Reader

def bind : Reader α → (α → Reader β) → Reader β
  | .done a, f => f a
  | .read i next, f => .read i fun b => (next b).bind f

instance : Monad Reader where
  pure := .done
  bind := bind

def byte (i : Nat) : Reader UInt8 := .read i .done

def bytes (i : Nat) : Nat → Reader (List UInt8)
  | 0 => pure []
  | n + 1 => do
    let b ← byte i
    let bs ← bytes (i + 1) n
    pure (b :: bs)

/-- Go on with what a step answered, unless it gave up. -/
def andThen (m : Reader (Option α)) (f : α → Reader (Option β)) : Reader (Option β) :=
  m >>= fun
    | none => pure none
    | some a => f a

def eval (mem : Memory) : Reader α → α
  | .done a => a
  | .read i next => (next (mem i)).eval mem

/-- The indices a run asks for, in order. -/
def reads (mem : Memory) : Reader α → List Nat
  | .done _ => []
  | .read i next => i :: (next (mem i)).reads mem

@[simp] theorem eval_pure (mem : Memory) (a : α) : (pure a : Reader α).eval mem = a := rfl

@[simp] theorem eval_byte (mem : Memory) (i : Nat) : (byte i).eval mem = mem i := rfl

@[simp] theorem eval_bind (mem : Memory) (m : Reader α) (f : α → Reader β) :
    (m >>= f).eval mem = (f (m.eval mem)).eval mem := by
  change (m.bind f).eval mem = _
  induction m with
  | done a => rfl
  | read i next ih => exact ih _

@[simp] theorem reads_pure (mem : Memory) (a : α) : (pure a : Reader α).reads mem = [] := rfl

@[simp] theorem reads_byte (mem : Memory) (i : Nat) : (byte i).reads mem = [i] := rfl

@[simp] theorem reads_bind (mem : Memory) (m : Reader α) (f : α → Reader β) :
    (m >>= f).reads mem = m.reads mem ++ (f (m.eval mem)).reads mem := by
  change (m.bind f).reads mem = _
  induction m with
  | done a => rfl
  | read i next ih => simp [bind, reads, eval, ih]

@[simp] theorem eval_ite (mem : Memory) (c : Prop) [Decidable c] (m n : Reader α) :
    (if c then m else n).eval mem = if c then m.eval mem else n.eval mem := by
  split <;> rfl

@[simp] theorem reads_ite (mem : Memory) (c : Prop) [Decidable c] (m n : Reader α) :
    (if c then m else n).reads mem = if c then m.reads mem else n.reads mem := by
  split <;> rfl

@[simp] theorem eval_andThen (mem : Memory) (m : Reader (Option α)) (f : α → Reader (Option β)) :
    (m.andThen f).eval mem = (m.eval mem).bind fun a => (f a).eval mem := by
  rw [andThen, eval_bind]
  cases m.eval mem <;> rfl

@[simp] theorem reads_andThen (mem : Memory) (m : Reader (Option α)) (f : α → Reader (Option β)) :
    (m.andThen f).reads mem =
      m.reads mem ++ (m.eval mem).elim [] fun a => (f a).reads mem := by
  rw [andThen, reads_bind]
  cases m.eval mem <;> rfl

@[simp] theorem eval_bytes (mem : Memory) (i n : Nat) :
    (bytes i n).eval mem = (List.range' i n).map mem := by
  induction n generalizing i with
  | zero => rfl
  | succ n ih => simp [bytes, List.range'_succ, ih]

@[simp] theorem reads_bytes (mem : Memory) (i n : Nat) :
    (bytes i n).reads mem = List.range' i n := by
  induction n generalizing i with
  | zero => rfl
  | succ n ih => simp [bytes, List.range'_succ, ih]

variable {mem mem' : Memory}

/-- A second memory that agrees on the bytes asked for gives the same
answer. -/
theorem eval_congr (m : Reader α) (h : ∀ i ∈ m.reads mem, mem i = mem' i) :
    m.eval mem = m.eval mem' := by
  induction m with
  | done a => rfl
  | read i next ih =>
    have hi : mem i = mem' i := h i (by simp [reads])
    simp only [eval, ← hi]
    exact ih _ fun j hj => h j (by simp [reads, hj])

end Reader

-- ---------------------------------------------------------------------------
-- Bytes laid out in memory
-- ---------------------------------------------------------------------------

/-- The bytes `bs` lie at index `i`. -/
def Holds (mem : Memory) (i : Nat) (bs : List UInt8) : Prop :=
  (List.range' i bs.length).map mem = bs

variable {mem : Memory} {i : Nat}

@[simp] theorem holds_nil : Holds mem i [] := rfl

@[simp] theorem holds_cons : Holds mem i (b :: bs) ↔ mem i = b ∧ Holds mem (i + 1) bs := by
  simp [Holds, List.range'_succ]

@[simp] theorem holds_append :
    Holds mem i (as ++ bs) ↔ Holds mem i as ∧ Holds mem (i + as.length) bs := by
  induction as generalizing i with
  | nil => simp
  | cons a as ih =>
    have hnext : i + 1 + as.length = i + (a :: as).length := by
      simp only [List.length_cons]
      omega
    simp only [List.cons_append, holds_cons, ih, and_assoc, hnext]

theorem holds_byte : Holds mem i (b :: bs) ↔ b = mem i ∧ Holds mem (i + 1) bs := by
  rw [holds_cons, eq_comm]

/-- The `n` bytes that lie at index `i`. -/
def slice (mem : Memory) (i n : Nat) : List UInt8 := (List.range' i n).map mem

@[simp] theorem slice_length (mem : Memory) (i n : Nat) : (slice mem i n).length = n := by
  simp [slice]

theorem holds_slice (hn : bs.length = n) : Holds mem i bs ↔ bs = slice mem i n := by
  subst hn
  exact eq_comm

theorem Holds.map_range' (h : Holds mem i bs) (hn : bs.length = n) :
    (List.range' i n).map mem = bs := hn ▸ h

end WireSentinel
