import Mathlib.Logic.Basic

/-!
# Runs and their histories

A system that takes a step for each input, or is stuck, and properties of
what happened: a history is a list of events, newest first.
-/

namespace WireSentinel

variable {S I E : Type}

def run (step : S → I → Option S) (s : S) (inputs : List I) : Option S := inputs.foldlM step s

theorem run_append {step : S → I → Option S} {before : List I} (h : run step s before = some s')
    (inputs : List I) : run step s (before ++ inputs) = run step s' inputs := by
  rw [run, List.foldlM_append, ← run, h]
  rfl

theorem run_cons {step : S → I → Option S} (h : step s i = some s') (inputs : List I) :
    run step s (i :: inputs) = run step s' inputs := by
  rw [run, List.foldlM_cons, h]
  rfl

/-- Each step of the run from `s` meets the condition. -/
def Along (step : S → I → Option S) (C : S → I → Prop) : S → List I → Prop
  | _, [] => True
  | s, i :: inputs => C s i ∧ ∀ s' ∈ step s i, Along step C s' inputs

instance Along.decidable {step : S → I → Option S} {C : S → I → Prop}
    [∀ s i, Decidable (C s i)] : ∀ s inputs, Decidable (Along step C s inputs)
  | _, [] => inferInstanceAs (Decidable True)
  | s, i :: inputs =>
    have (s' : S) : Decidable (Along step C s' inputs) := Along.decidable s' inputs
    inferInstanceAs (Decidable (C s i ∧ ∀ s' ∈ step s i, Along step C s' inputs))

theorem Along.cons {step : S → I → Option S} {C : S → I → Prop} {inputs : List I} (hC : C s i)
    (h : step s i = some s') (hC' : Along step C s' inputs) : Along step C s (i :: inputs) := by
  refine ⟨hC, fun t ht => ?_⟩
  obtain rfl : s' = t := Option.some.inj (h.symm.trans ht)
  exact hC'

theorem Along.and {step : S → I → Option S} {C D : S → I → Prop} {inputs : List I}
    (hC : Along step C s inputs) (hD : Along step D s inputs) :
    Along step (fun s i => C s i ∧ D s i) s inputs := by
  induction inputs generalizing s with
  | nil => trivial
  | cons i inputs ih => exact ⟨⟨hC.1, hD.1⟩, fun s' hs' => ih (hC.2 s' hs') (hD.2 s' hs')⟩

theorem Along.append {step : S → I → Option S} {C : S → I → Prop} {before inputs : List I}
    (hC : Along step C s before) (h : run step s before = some s')
    (hC' : Along step C s' inputs) : Along step C s (before ++ inputs) := by
  induction before generalizing s with
  | nil =>
    obtain rfl : s = s' := Option.some.inj h
    exact hC'
  | cons i before ih =>
    refine ⟨hC.1, fun s₁ hs₁ => ih (hC.2 s₁ hs₁) ?_⟩
    rw [run, List.foldlM_cons, Option.bind_eq_bind, Option.mem_def.mp hs₁] at h
    exact h

theorem Along.mono {step : S → I → Option S} {C D : S → I → Prop} {inputs : List I}
    (hCD : ∀ s i, C s i → D s i) (hC : Along step C s inputs) : Along step D s inputs := by
  induction inputs generalizing s with
  | nil => trivial
  | cons i inputs ih => exact ⟨hCD s i hC.1, fun s' hs' => ih (hC.2 s' hs')⟩

theorem along_of_mem {step : S → I → Option S} {C : S → I → Prop} {inputs : List I}
    (h : ∀ i ∈ inputs, ∀ s, C s i) (s : S) : Along step C s inputs := by
  induction inputs generalizing s with
  | nil => trivial
  | cons i inputs ih => exact ⟨h i (by simp) s, fun s' _ => ih (fun j hj => h j (by simp [hj])) s'⟩

/-- What every step under the condition keeps, every run under it keeps. -/
theorem run_inv {step : S → I → Option S} {C : S → I → Prop} {Inv : S → Prop}
    (hstep : ∀ s i s', step s i = some s' → C s i → Inv s → Inv s') {s : S} {inputs : List I}
    (hs : Inv s) (hC : Along step C s inputs) (h : run step s inputs = some s') : Inv s' := by
  induction inputs generalizing s with
  | nil =>
    obtain rfl : s = s' := Option.some.inj h
    exact hs
  | cons i inputs ih =>
    rw [run, List.foldlM_cons, Option.bind_eq_bind, Option.bind_eq_some_iff] at h
    obtain ⟨s₁, hs₁, h⟩ := h
    exact ih (hstep s i s₁ hs₁ hC.1 hs) (hC.2 s₁ hs₁) h

theorem along_of_forall {step : S → I → Option S} {C : S → I → Prop} (h : ∀ s i, C s i)
    (inputs : List I) : Along step C s inputs := by
  induction inputs generalizing s with
  | nil => trivial
  | cons i inputs ih => exact ⟨h s i, fun _ _ => ih⟩

/-- What every step keeps, every run keeps. -/
theorem run_keeps {step : S → I → Option S} {Inv : S → Prop}
    (hstep : ∀ s i s', step s i = some s' → Inv s → Inv s') {s : S} {inputs : List I}
    (hs : Inv s) (h : run step s inputs = some s') : Inv s' :=
  run_inv (C := fun _ _ => True) (fun s i s' hs' _ => hstep s i s' hs') hs
    (along_of_forall (fun _ _ => trivial) inputs) h

/-- What every step keeps exactly when it meets the condition, a run keeps
exactly when all its steps meet it. -/
theorem run_iff {step : S → I → Option S} {C : S → I → Prop} {Inv P : S → Prop}
    (hstep : ∀ s i s', step s i = some s' → Inv s → Inv s' ∧ (P s' ↔ P s ∧ C s i))
    {s : S} {inputs : List I} (hs : Inv s) (h : run step s inputs = some s') :
    P s' ↔ P s ∧ Along step C s inputs := by
  induction inputs generalizing s with
  | nil =>
    obtain rfl : s = s' := Option.some.inj h
    exact (and_iff_left trivial).symm
  | cons i inputs ih =>
    rw [run, List.foldlM_cons, Option.bind_eq_bind, Option.bind_eq_some_iff] at h
    obtain ⟨s₁, hs₁, h⟩ := h
    obtain ⟨hInv, hP⟩ := hstep s i s₁ hs₁ hs
    rw [ih hInv h, hP, Along, and_assoc]
    simp [hs₁]

-- ---------------------------------------------------------------------------
-- Work
-- ---------------------------------------------------------------------------

/-- What the steps of a run cost. -/
def spent (step : S → I → Option S) (cost : S → I → Nat) : S → List I → Nat
  | _, [] => 0
  | s, i :: inputs => cost s i + ((step s i).elim 0 fun s' => spent step cost s' inputs)

/-- Where each step lowers the variant, or pays for what it adds, a run is no
longer than the variant it starts with and what is paid on the way. -/
theorem run_bounded {step : S → I → Option S} {cost : S → I → Nat} {Inv : S → Prop}
    {variant : S → Nat}
    (hstep : ∀ s i s', step s i = some s' → Inv s →
      Inv s' ∧ variant s' + 1 ≤ variant s + cost s i)
    {s : S} {inputs : List I} (hs : Inv s) (h : run step s inputs = some s') :
    inputs.length + variant s' ≤ variant s + spent step cost s inputs := by
  induction inputs generalizing s with
  | nil =>
    obtain rfl : s = s' := Option.some.inj h
    simp [spent]
  | cons i inputs ih =>
    rw [run, List.foldlM_cons, Option.bind_eq_bind, Option.bind_eq_some_iff] at h
    obtain ⟨s₁, hs₁, h⟩ := h
    obtain ⟨hs', hle⟩ := hstep s i s₁ hs₁ hs
    have hrest := ih hs' h
    rw [List.length_cons, spent, hs₁, Option.elim_some]
    omega

-- ---------------------------------------------------------------------------
-- A system inside another
-- ---------------------------------------------------------------------------

section Inside

variable {S' I' : Type} {step : S → I → Option S} {step' : S' → I' → Option S'} {f : S → S'}
  {g : I → I'} {inputs : List I}

/-- Inputs for one part of a system leave the rest as it is. -/
theorem run_map (h : ∀ i ∈ inputs, ∀ s, step' (f s) (g i) = (step s i).map f) (s : S) :
    run step' (f s) (inputs.map g) = (run step s inputs).map f := by
  induction inputs generalizing s with
  | nil => rfl
  | cons i inputs ih =>
    rw [List.map_cons, run, List.foldlM_cons, h i (by simp), run, List.foldlM_cons]
    cases step s i with
    | none => rfl
    | some s' => exact ih (fun j hj => h j (by simp [hj])) s'

/-- Where each step of one system is, seen through `f`, some step of another,
so is each run. -/
theorem run_simulates (h : ∀ s i t, step s i = some t → ∃ j, step' (f s) j = some (f t)) {s t : S}
    (hrun : run step s inputs = some t) :
    ∃ js, js.length = inputs.length ∧ run step' (f s) js = some (f t) := by
  induction inputs generalizing s with
  | nil =>
    obtain rfl : s = t := Option.some.inj hrun
    exact ⟨[], rfl, rfl⟩
  | cons i inputs ih =>
    rw [run, List.foldlM_cons, Option.bind_eq_bind, Option.bind_eq_some_iff] at hrun
    obtain ⟨s₁, hs₁, hrun⟩ := hrun
    obtain ⟨j, hj⟩ := h s i s₁ hs₁
    obtain ⟨js, hlength, hjs⟩ := ih hrun
    exact ⟨j :: js, congrArg (· + 1) hlength, (run_cons hj js).trans hjs⟩

theorem along_map {C : S → I → Prop} {C' : S' → I' → Prop}
    (h : ∀ i ∈ inputs, ∀ s, step' (f s) (g i) = (step s i).map f)
    (hC : ∀ s i, C s i → C' (f s) (g i)) (halong : Along step C s inputs) :
    Along step' C' (f s) (inputs.map g) := by
  induction inputs generalizing s with
  | nil => trivial
  | cons i inputs ih =>
    refine ⟨hC s i halong.1, fun t ht => ?_⟩
    rw [Option.mem_def, h i (by simp), Option.map_eq_some_iff] at ht
    obtain ⟨s', hs', rfl⟩ := ht
    exact ih (fun j hj => h j (by simp [hj])) (halong.2 s' hs')

end Inside

-- ---------------------------------------------------------------------------
-- Histories
-- ---------------------------------------------------------------------------

/-- Each event was in order, given those before it. -/
def Always (P : List E → E → Prop) : List E → Prop
  | [] => True
  | e :: past => P past e ∧ Always P past

/-- `start` was true at some time, and only events of `keep` happened
since. -/
def Since (keep : E → Prop) (start : List E → Prop) : List E → Prop
  | [] => start []
  | e :: past => start (e :: past) ∨ keep e ∧ Since keep start past

theorem Since.now {keep : E → Prop} {start : List E → Prop} (h : start past) :
    Since keep start past := by
  cases past with
  | nil => exact h
  | cons e past => exact .inl h

theorem Since.later {keep : E → Prop} {start : List E → Prop} (h : Since keep start past)
    (he : keep e) : Since keep start (e :: past) := .inr ⟨he, h⟩

theorem Since.mono {keep keep' : E → Prop} {start start' : List E → Prop}
    (hkeep : ∀ e, keep e → keep' e) (hstart : ∀ past, start past → start' past)
    (h : Since keep start past) : Since keep' start' past := by
  induction past with
  | nil => exact hstart _ h
  | cons e past ih =>
    rcases h with h | ⟨he, h⟩
    · exact .inl (hstart _ h)
    · exact .inr ⟨hkeep e he, ih h⟩

/-- What no event of a kind changes, many of them do not change. -/
theorem append_of_skips {α : Type} {f : List E → α} {P : E → Prop}
    (hf : ∀ e past, P e → f (e :: past) = f past) {later : List E} (h : ∀ e ∈ later, P e)
    (past : List E) : f (later ++ past) = f past := by
  induction later with
  | nil => rfl
  | cons e later ih =>
    rw [List.cons_append, hf e _ (h e (by simp))]
    exact ih fun e he => h e (by simp [he])

end WireSentinel
