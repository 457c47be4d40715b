import Mathlib.Data.Fintype.Basic
import Mathlib.Logic.Function.Basic

/-!
# A mutex with condition variables

What the POSIX calls do to a mutex and to the threads asleep on condition
variables, in steps that other threads can come between, with two rules for
programs over them: `Guards` is mutual exclusion, and `wakeup_inv` is that
no wakeup is lost where one thread waits on a condition.
-/

namespace WireSentinel

/-- `T` are the threads, `C` the condition variables. -/
structure Monitor (T C : Type) where
  owner : Option T := none
  asleep : T → Option C := fun _ => none

namespace Monitor

variable {T C : Type} {m m' : Monitor T C} {t u w : T} {c : C}

/-- `pthread_mutex_lock` returns to `t`. -/
def lock (t : T) (m : Monitor T C) : Option (Monitor T C) :=
  if m.owner = none then some { m with owner := some t } else none

/-- `pthread_mutex_unlock` -/
def unlock [DecidableEq T] (t : T) (m : Monitor T C) : Option (Monitor T C) :=
  if m.owner = some t then some { m with owner := none } else none

/-- `pthread_cond_wait` releases the mutex and puts `t` to sleep, in one
step. -/
def sleep [DecidableEq T] (t : T) (c : C) (m : Monitor T C) : Option (Monitor T C) :=
  if m.owner = some t then some { owner := none, asleep := Function.update m.asleep t (some c) }
  else none

/-- A wakeup, spurious or not. -/
def wake [DecidableEq T] (t : T) (m : Monitor T C) : Monitor T C :=
  { m with asleep := Function.update m.asleep t none }

/-- `pthread_cond_wait` returns to `t`, with the mutex. -/
def resume (t : T) (m : Monitor T C) : Option (Monitor T C) :=
  if m.asleep t = none then m.lock t else none

/-- `pthread_cond_signal`: it wakes a thread asleep on the condition, here
`t`, unless there is none. -/
def signal [Fintype T] [DecidableEq T] [DecidableEq C] (c : C) (t : T) (m : Monitor T C) :
    Option (Monitor T C) :=
  if m.asleep t = some c then some (m.wake t)
  else if ∀ u, m.asleep u ≠ some c then some m
  else none

-- ---------------------------------------------------------------------------
-- What the calls do
-- ---------------------------------------------------------------------------

theorem lock_ok : m.lock t = some m' ↔ m.owner = none ∧ { m with owner := some t } = m' := by
  simp [lock]

theorem unlock_ok [DecidableEq T] :
    m.unlock t = some m' ↔ m.owner = some t ∧ { m with owner := none } = m' := by
  simp [unlock]

theorem sleep_ok [DecidableEq T] : m.sleep t c = some m' ↔ m.owner = some t ∧
    { owner := none, asleep := Function.update m.asleep t (some c) } = m' := by
  simp [sleep]

theorem resume_ok : m.resume t = some m' ↔
    m.asleep t = none ∧ m.owner = none ∧ { m with owner := some t } = m' := by
  simp [resume, lock]

theorem wake_asleep [DecidableEq T] (h : (m.wake t).asleep u = some c) :
    u ≠ t ∧ m.asleep u = some c := by
  by_cases hu : u = t
  · simp [wake, hu] at h
  · exact ⟨hu, by simpa [wake, hu] using h⟩

/-- A signal leaves the mutex alone, and puts nobody to sleep. -/
theorem signal_spec [Fintype T] [DecidableEq T] [DecidableEq C] (h : m.signal c t = some m') :
    m'.owner = m.owner ∧ ∀ u c', m'.asleep u = some c' → m.asleep u = some c' := by
  unfold signal at h
  split at h
  · cases h
    exact ⟨rfl, fun u c' hu => (wake_asleep hu).2⟩
  · split at h <;> cases h
    exact ⟨rfl, fun _ _ hu => hu⟩

/-- The only thread that waits on a condition is not asleep on it behind a
signal. -/
theorem signal_wakes [Fintype T] [DecidableEq T] [DecidableEq C] (h : m.signal c t = some m')
    (hw : ∀ u, m.asleep u = some c → u = w) : m'.asleep w ≠ some c := by
  intro hasleep
  unfold signal at h
  split at h
  · rename_i ht
    cases h
    exact (wake_asleep hasleep).1 (hw t ht).symm
  · split at h <;> cases h
    rename_i hnone
    exact hnone w hasleep

/-- A signal is never refused: it wakes somebody, or nobody is asleep. -/
theorem signal_total [Fintype T] [DecidableEq T] [DecidableEq C] [Inhabited T]
    (m : Monitor T C) (c : C) : ∃ t m', m.signal c t = some m' := by
  by_cases h : ∃ u, m.asleep u = some c
  · obtain ⟨u, hu⟩ := h
    exact ⟨u, m.wake u, by simp [signal, hu]⟩
  · exact ⟨default, m, by simp_all [signal]⟩

-- ---------------------------------------------------------------------------
-- Mutual exclusion
-- ---------------------------------------------------------------------------

/-- Only the owner is inside. -/
def Guards (m : Monitor T C) (inside : T → Prop) : Prop := ∀ t, inside t → m.owner = some t

variable {inside inside' : T → Prop}

theorem Guards.exclusive (h : m.Guards inside) (ht : inside t) (hu : inside u) : t = u :=
  Option.some.inj ((h t ht).symm.trans (h u hu))

theorem Guards.stay (h : m.Guards inside) (howner : m'.owner = m.owner)
    (hin : ∀ u, inside' u → inside u) : m'.Guards inside' :=
  fun u hu => howner.trans (h u (hin u hu))

theorem Guards.enter (h : m.Guards inside) (hfree : m.owner = none) (howner : m'.owner = some t)
    (hothers : ∀ u, u ≠ t → inside' u → inside u) : m'.Guards inside' := by
  intro u hu
  by_cases hut : u = t
  · rw [howner, hut]
  · have := h u (hothers u hut hu)
    rw [hfree] at this
    cases this

theorem Guards.leave (h : m.Guards inside) (howner : m.owner = some t) (hout : ¬ inside' t)
    (hothers : ∀ u, u ≠ t → inside' u → inside u) : m'.Guards inside' := by
  intro u hu
  by_cases hut : u = t
  · exact absurd (hut ▸ hu) hout
  · have := h u (hothers u hut hu)
    rw [howner] at this
    exact absurd (Option.some.inj this).symm hut

/-- The owner is inside. -/
def Held (m : Monitor T C) (inside : T → Prop) : Prop := ∀ t, m.owner = some t → inside t

theorem Held.stay (h : m.Held inside) (howner : m'.owner = m.owner)
    (hin : ∀ u, inside u → inside' u) : m'.Held inside' :=
  fun u hu => hin u (h u (howner ▸ hu))

theorem Held.enter (howner : m'.owner = some t) (hin : inside' t) : m'.Held inside' := by
  intro u hu
  obtain rfl : t = u := Option.some.inj (howner.symm.trans hu)
  exact hin

theorem Held.leave (howner : m'.owner = none) : m'.Held inside' := by
  intro u hu
  rw [howner] at hu
  cases hu

end Monitor

-- ---------------------------------------------------------------------------
-- Wakeups
-- ---------------------------------------------------------------------------

/-- A step keeps that while the thread sleeps and there is work, someone owes
it a signal: the thread goes to sleep when there is no work, whoever makes
work for the sleeping thread owes the signal, and whoever owed it and does
not any more has woken the thread. -/
theorem wakeup_inv {asleep work owed asleep' work' owed' : Prop} (h : asleep → work → owed)
    (hsleeps : asleep' → asleep ∨ ¬ work') (howes : asleep → asleep' → work' → work ∨ owed')
    (hpays : owed → owed' ∨ ¬ asleep') : asleep' → work' → owed' := by
  intro ha' hw'
  rcases hsleeps ha' with ha | hno
  · rcases howes ha ha' hw' with hw | ho
    · rcases hpays (h ha hw) with ho | hno
      · exact ho
      · exact absurd ha' hno
    · exact ho
  · exact absurd hw' hno

end WireSentinel
