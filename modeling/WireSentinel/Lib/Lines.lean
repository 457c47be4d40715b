import WireSentinel.Lib.Text

/-!
# Lines that end in CR LF

A text cut at the first occurrence of a separator, as `strstr` cuts it, and
a text as the lines between its line ends. `breakAt_blankLine` is what a
reader of HTTP messages relies on: lines that are not empty, put together,
are followed by the first blank line there is.
-/

namespace WireSentinel.Text

/-- `strstr`: the text before the first `sep`, and the text behind it. -/
def breakAt (sep : CString) : CString → Option (CString × CString)
  | [] => if sep = [] then some ([], []) else none
  | c :: cs =>
    if sep.isPrefixOf (c :: cs) then some ([], (c :: cs).drop sep.length)
    else (breakAt sep cs).map fun (before, after) => (c :: before, after)

def crlf : CString := ['\r', '\n']

def blankLine : CString := ['\r', '\n', '\r', '\n']

/-- No line ends within the text. -/
def OneLine (cs : CString) : Prop := ¬ crlf <:+: cs

instance : DecidablePred OneLine := fun cs => inferInstanceAs (Decidable (¬ crlf <:+: cs))

def crlfLines : CString → List CString
  | [] => [[]]
  | '\r' :: '\n' :: cs => [] :: crlfLines cs
  | c :: cs =>
    match crlfLines cs with
    | [] => [[c]]
    | l :: ls => (c :: l) :: ls

-- ---------------------------------------------------------------------------
-- Cutting
-- ---------------------------------------------------------------------------

theorem breakAt_sound (h : breakAt sep cs = some (before, after)) :
    cs = before ++ sep ++ after := by
  induction cs generalizing before with
  | nil =>
    simp only [breakAt, Option.ite_none_right_eq_some, Option.some.injEq, Prod.mk.injEq] at h
    obtain ⟨rfl, rfl, rfl⟩ := h
    rfl
  | cons c cs ih =>
    rw [breakAt] at h
    split at h
    · rename_i hpre
      obtain ⟨t, ht⟩ := List.isPrefixOf_iff_prefix.mp hpre
      simp only [Option.some.injEq, Prod.mk.injEq] at h
      obtain ⟨rfl, rfl⟩ := h
      rw [← ht, List.drop_left, List.nil_append]
    · obtain ⟨⟨b, a⟩, hba, heq⟩ := Option.map_eq_some_iff.mp h
      simp only [Prod.mk.injEq] at heq
      obtain ⟨rfl, rfl⟩ := heq
      rw [ih hba, List.cons_append, List.cons_append]

/-- `strstr` finds what is there. -/
theorem breakAt_none : breakAt sep cs = none ↔ ¬ sep <:+: cs := by
  constructor
  · intro h hin
    induction cs with
    | nil =>
      obtain rfl := List.infix_nil.mp hin
      simp [breakAt] at h
    | cons c cs ih =>
      rw [breakAt] at h
      split at h
      · cases h
      · rename_i hpre
        rcases List.infix_cons_iff.mp hin with hp | hin
        · exact hpre (List.isPrefixOf_iff_prefix.mpr hp)
        · exact ih (Option.map_eq_none_iff.mp h) hin
  · intro h
    cases hb : breakAt sep cs with
    | none => rfl
    | some p => exact absurd ⟨p.1, p.2, (breakAt_sound hb).symm⟩ h

-- ---------------------------------------------------------------------------
-- One line
-- ---------------------------------------------------------------------------

theorem OneLine.tail (h : OneLine (c :: cs)) : OneLine cs :=
  fun hin => h (hin.trans (List.suffix_cons c cs).isInfix)

theorem OneLine.part (h : OneLine cs) (hin : ds <:+: cs) : OneLine ds :=
  fun hcr => h (hcr.trans hin)

theorem oneLine_of_not_mem (h : '\n' ∉ cs) : OneLine cs :=
  fun hin => h (hin.subset (by simp [crlf]))

/-- No line end starts in a line or right behind it. -/
theorem OneLine.not_prefix (h : OneLine (c :: cs)) (t : CString) :
    ¬ crlf <+: c :: cs ++ '\r' :: t := by
  rintro ⟨s, hs⟩
  simp only [crlf, List.cons_append, List.nil_append, List.cons.injEq] at hs
  obtain ⟨rfl, hs⟩ := hs
  cases cs with
  | nil => simp at hs
  | cons d cs =>
    simp only [List.cons_append, List.cons.injEq] at hs
    obtain ⟨rfl, -⟩ := hs
    exact h (List.prefix_append crlf cs).isInfix

theorem OneLine.append (h : OneLine cs) (h' : OneLine ds) (hend : '\r' ∉ cs) :
    OneLine (cs ++ ds) := by
  induction cs with
  | nil => exact h'
  | cons c cs ih =>
    simp only [List.mem_cons, not_or] at hend
    intro hin
    rcases List.infix_cons_iff.mp hin with hpre | hin
    · obtain ⟨s, hs⟩ := hpre
      simp only [crlf, List.cons_append, List.cons.injEq] at hs
      exact hend.1 hs.1
    · exact ih h.tail hend.2 hin

/-- Nor is there one where a line goes on. -/
theorem OneLine.concat (h : OneLine cs) (hc : c ≠ '\n') : OneLine (cs ++ [c]) := by
  intro hin
  rcases List.infix_concat_iff.mp hin with ⟨s, hs⟩ | hin
  · have hlast := congrArg List.getLast? hs
    simp only [crlf, List.getLast?_append, List.getLast?_cons_cons, List.getLast?_singleton,
      Option.some_or, Option.some_inj] at hlast
    exact hc hlast.symm
  · exact h hin

-- ---------------------------------------------------------------------------
-- Lines
-- ---------------------------------------------------------------------------

theorem crlfLines_ne_nil (cs : CString) : crlfLines cs ≠ [] := by
  fun_induction crlfLines cs <;> simp

/-- Between the line ends there are the lines. -/
theorem intercalate_crlfLines (cs : CString) : crlf.intercalate (crlfLines cs) = cs := by
  fun_induction crlfLines cs with
  | case1 => rfl
  | case2 cs ih =>
    obtain ⟨l, ls, hl⟩ := List.exists_cons_of_ne_nil (crlfLines_ne_nil cs)
    rw [hl] at ih ⊢
    rw [List.intercalate_cons_cons, ih]
    rfl
  | case3 c cs hne hnil => exact absurd hnil (crlfLines_ne_nil cs)
  | case4 c cs hne l ls hl ih =>
    rw [hl] at ih
    cases ls with
    | nil => simpa using ih
    | cons l' ls => simpa [List.intercalate_cons_cons] using ih

theorem oneLine_of_mem_crlfLines (h : l ∈ crlfLines cs) : OneLine l := by
  fun_induction crlfLines cs generalizing l with
  | case1 =>
    obtain rfl := List.mem_singleton.mp h
    decide
  | case2 cs ih =>
    rcases List.mem_cons.mp h with rfl | h
    · decide
    · exact ih h
  | case3 c cs hne hnil => exact absurd hnil (crlfLines_ne_nil cs)
  | case4 c cs hne l' ls hl ih =>
    rw [hl] at ih
    rcases List.mem_cons.mp h with rfl | h
    · have hl' : OneLine l' := ih List.mem_cons_self
      -- The first line is where the text starts, so no line end starts here.
      have hpre : l' <+: cs := by
        have hcs := intercalate_crlfLines cs
        rw [hl] at hcs
        cases ls with
        | nil => exact ⟨[], by simpa using hcs⟩
        | cons l'' ls =>
          exact ⟨_, by simpa [List.intercalate_cons_cons, List.append_assoc] using hcs⟩
      intro hin
      rcases List.infix_cons_iff.mp hin with ⟨s, hs⟩ | hin
      · simp only [crlf, List.cons_append, List.nil_append, List.cons.injEq] at hs
        obtain ⟨t, ht⟩ := hpre
        exact hne (s ++ t) hs.1.symm (by rw [← ht, ← hs.2, List.cons_append])
      · exact hl' hin
    · exact ih (List.mem_cons_of_mem _ h)

theorem crlfLines_oneLine (h : OneLine l) : crlfLines l = [l] := by
  induction l with
  | nil => rfl
  | cons c l ih =>
    rw [crlfLines]
    · rw [ih h.tail]
    · rintro cs rfl rfl
      exact h (List.prefix_append crlf cs).isInfix

theorem crlfLines_append (h : OneLine l) (cs : CString) :
    crlfLines (l ++ crlf ++ cs) = l :: crlfLines cs := by
  induction l with
  | nil => simp [crlf, crlfLines]
  | cons c l ih =>
    rw [List.cons_append, List.cons_append, crlfLines]
    · rw [ih h.tail]
    · rintro ds rfl hds
      refine h.not_prefix ('\n' :: cs) ⟨ds, ?_⟩
      simpa [crlf] using hds.symm

theorem crlfLines_flatMap (h : ∀ l ∈ ls, OneLine l) (cs : CString) :
    crlfLines (ls.flatMap (· ++ crlf) ++ cs) = ls ++ crlfLines cs := by
  induction ls with
  | nil => rfl
  | cons l ls ih =>
    obtain ⟨hl, hls⟩ := List.forall_mem_cons.mp h
    rw [List.flatMap_cons, List.append_assoc, crlfLines_append hl, ih hls, List.cons_append]

/-- What has no carriage return belongs to the line it stands in front of. -/
theorem crlfLines_prepend (h : '\r' ∉ l) (cs : CString) :
    ∃ first later, crlfLines cs = first :: later ∧ crlfLines (l ++ cs) = (l ++ first) :: later := by
  induction l with
  | nil =>
    obtain ⟨first, later, hcs⟩ := List.exists_cons_of_ne_nil (crlfLines_ne_nil cs)
    exact ⟨first, later, hcs, hcs⟩
  | cons c l ih =>
    simp only [List.mem_cons, not_or] at h
    obtain ⟨first, later, hcs, hl⟩ := ih h.2
    refine ⟨first, later, hcs, ?_⟩
    rw [List.cons_append, crlfLines]
    · rw [hl]
      rfl
    · rintro ds rfl
      exact absurd rfl h.1

theorem crlfLines_intercalate (hne : ls ≠ []) (h : ∀ l ∈ ls, OneLine l) :
    crlfLines (crlf.intercalate ls) = ls := by
  induction ls with
  | nil => exact absurd rfl hne
  | cons l ls ih =>
    cases ls with
    | nil => simpa using crlfLines_oneLine (h l List.mem_cons_self)
    | cons l' ls =>
      rw [List.intercalate_cons_cons, crlfLines_append (h l List.mem_cons_self),
        ih (List.cons_ne_nil _ _) fun m hm => h m (List.mem_cons_of_mem _ hm)]

-- ---------------------------------------------------------------------------
-- The first blank line
-- ---------------------------------------------------------------------------

/-- None starts within a line. -/
theorem breakAt_skip (h : OneLine l) (t : CString) :
    breakAt blankLine (l ++ '\r' :: t) =
      (breakAt blankLine ('\r' :: t)).map fun (before, after) => (l ++ before, after) := by
  induction l with
  | nil => simp
  | cons c l ih =>
    have hpre : blankLine.isPrefixOf (c :: (l ++ '\r' :: t)) = false := by
      rw [Bool.eq_false_iff]
      intro hpre
      have hcr : crlf <+: blankLine := ⟨crlf, rfl⟩
      exact h.not_prefix t (hcr.trans (List.isPrefixOf_iff_prefix.mp hpre))
    rw [List.cons_append, breakAt, hpre, ih h.tail]
    simp [Option.map_map, Function.comp_def]

theorem breakAt_line_end (h : OneLine l) (body : CString) :
    breakAt blankLine (l ++ blankLine ++ body) = some (l, body) := by
  have := breakAt_skip h ('\n' :: '\r' :: '\n' :: body)
  simpa [blankLine, breakAt] using this

/-- Nor at the end of one, if the next is not empty. -/
theorem breakAt_next_line (h : OneLine l) (ht : ¬ crlf <+: t) :
    breakAt blankLine (l ++ crlf ++ t) =
      (breakAt blankLine t).map fun (before, after) => (l ++ crlf ++ before, after) := by
  have hpre : blankLine.isPrefixOf ('\r' :: '\n' :: t) = false := by
    rw [Bool.eq_false_iff]
    intro hpre
    obtain ⟨s, hs⟩ := List.isPrefixOf_iff_prefix.mp hpre
    simp only [blankLine, List.cons_append, List.nil_append, List.cons.injEq, true_and] at hs
    exact ht ⟨s, hs⟩
  have hline : breakAt blankLine ('\n' :: t) =
      (breakAt blankLine t).map fun (before, after) => ('\n' :: before, after) := by
    simp [breakAt, blankLine]
  have := breakAt_skip h ('\n' :: t)
  rw [breakAt, hpre, hline] at this
  simpa [crlf, Option.map_map, Function.comp_def] using this

/-- Behind lines that are not empty comes the first blank line. -/
theorem breakAt_blankLine (hne : ls ≠ []) (h : ∀ l ∈ ls, OneLine l ∧ l ≠ []) (body : CString) :
    breakAt blankLine (crlf.intercalate ls ++ blankLine ++ body) =
      some (crlf.intercalate ls, body) := by
  induction ls with
  | nil => exact absurd rfl hne
  | cons l ls ih =>
    have hl := (h l List.mem_cons_self).1
    cases ls with
    | nil => simpa using breakAt_line_end hl body
    | cons l' ls =>
      have hrest := ih (List.cons_ne_nil _ _) fun m hm => h m (List.mem_cons_of_mem _ hm)
      obtain ⟨hl', hne'⟩ := h l' (by simp)
      obtain ⟨c, l', rfl⟩ := List.exists_cons_of_ne_nil hne'
      have hstart : ¬ crlf <+: crlf.intercalate ((c :: l') :: ls) ++ blankLine ++ body := by
        cases ls with
        | nil => simpa [blankLine] using hl'.not_prefix ('\n' :: '\r' :: '\n' :: body)
        | cons l'' ls =>
          rw [List.intercalate_cons_cons]
          simpa [crlf] using
            hl'.not_prefix ('\n' :: (crlf.intercalate (l'' :: ls) ++ blankLine ++ body))
      have := breakAt_next_line hl hstart
      rw [hrest] at this
      rw [List.intercalate_cons_cons]
      simpa [List.append_assoc] using this

end WireSentinel.Text
