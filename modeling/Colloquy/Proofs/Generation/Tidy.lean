import Colloquy.Proofs.Generation.Silence

/-!
# Tidied texts

A tidied text holds no blanks but single spaces between its words, and none before closing
punctuation (`Tidied`).  Tidying a text that is tidied leaves it alone (`tidy_eq_self_iff`), so
doing it twice is doing it once; and the characters that are not blank stay as they are
(`solid_tidy`).

One pass is enough because dropping spaces brings no other two characters together than a character
and the punctuation behind it: where two spaces meet afterwards, two met before, and a space that
stays is followed by what followed it before (`closed_closeUp`).

Generated texts are tidied, and so is every value that is assigned on the way.  A variable that has
another value afterwards either had it before or got it from a macro (`generate_tidied`).
-/

namespace Colloquy.Generation

open Text (Spaced solid isBlank)

/-! ### Closing up -/

theorem pair_infix_cons {α : Type} {a b c : α} {cs : List α} :
    [a, b] <:+: c :: cs ↔ a = c ∧ cs.head? = some b ∨ [a, b] <:+: cs := by
  rw [List.infix_cons_iff, List.cons_prefix_cons]
  refine or_congr_left (and_congr_right fun _ => ?_)
  cases cs with
  | nil => exact iff_of_false (fun h => nomatch List.prefix_nil.mp h) (fun h => nomatch h)
  | cons d ds =>
    rw [List.cons_prefix_cons, List.head?_cons, Option.some_inj, eq_comm]
    exact and_iff_left List.nil_prefix

/-- Closing up only takes away. -/
theorem closeUp_sublist (cs : List Char) : (closeUp cs).Sublist cs := by
  induction cs with
  | nil => exact List.Sublist.refl _
  | cons c cs ih =>
    rw [closeUp_cons]
    split
    · exact ih.cons c
    · exact ih.cons_cons c

/-- Only blanks are dropped. -/
theorem solid_closeUp (cs : List Char) : solid (closeUp cs) = solid cs := by
  induction cs with
  | nil => rfl
  | cons c cs ih =>
    rw [closeUp_cons]
    split
    · rename_i hdropped
      rw [ih, hdropped.1]
      rfl
    · rw [Text.solid_cons, Text.solid_cons, ih]

/-- The last character stays. -/
theorem getLast?_closeUp (cs : List Char) : (closeUp cs).getLast? = cs.getLast? := by
  induction cs with
  | nil => rfl
  | cons c cs ih =>
    rw [closeUp_cons]
    split
    · rename_i hdropped
      cases cs with
      | nil => exact absurd hdropped.2 Bool.false_ne_true
      | cons d ds => rw [ih, List.getLast?_cons_cons]
    · rw [List.getLast?_cons, List.getLast?_cons, ih]

theorem not_isClosing_of_mem_spaces {n : Nat} :
    ∀ c ∈ List.replicate n ' ', isClosing c = false := by
  intro c hc
  rw [List.eq_of_mem_replicate hc]
  decide

/-- Text with single spaces keeps to them. -/
theorem spaced_closeUp {cs : List Char} (h : Spaced cs) : Spaced (closeUp cs) where
  starts hstarts := by
    have hprefix : [' '] <+: closeUp cs := by
      obtain ⟨ds, hds⟩ := List.head?_eq_some_iff.mp hstarts
      exact ⟨ds, hds.symm⟩
    obtain ⟨ds, hds⟩ := prefix_of_prefix_closeUp (@not_isClosing_of_mem_spaces 1) hprefix
    exact h.starts (List.head?_eq_some_iff.mpr ⟨ds, hds.symm⟩)
  ends hends := h.ends (getLast?_closeUp cs ▸ hends)
  single hdouble := h.single (infix_of_infix_closeUp (@not_isClosing_of_mem_spaces 2) hdouble)

/-- A space that stays has something else than closing punctuation behind it, which stays too unless
it is a space. -/
theorem closed_closeUp {cs : List Char} (hsingle : ¬[' ', ' '] <:+: cs) {d : Char}
    (hd : isClosing d = true) : ¬[' ', d] <:+: closeUp cs := by
  induction cs with
  | nil => exact fun h => nomatch List.infix_nil.mp h
  | cons c cs ih =>
    rw [pair_infix_cons, not_or] at hsingle
    rw [closeUp_cons]
    split
    · exact ih hsingle.2
    · rename_i hstays
      rw [pair_infix_cons, not_or]
      refine ⟨?_, ih hsingle.2⟩
      -- A space that stays is followed by what stood behind it, which is no closing punctuation.
      rintro ⟨rfl, hhead⟩
      cases cs with
      | nil => cases hhead
      | cons e es =>
        have he : e ≠ ' ' := fun he => hsingle.1 ⟨rfl, congrArg some he⟩
        rw [closeUp_cons, if_neg fun h => he h.1, List.head?_cons, Option.some_inj] at hhead
        exact hstays ⟨rfl, hhead ▸ hd⟩

/-- Text without a space before closing punctuation stays. -/
theorem closeUp_eq_self {cs : List Char} (h : ∀ d, isClosing d = true → ¬[' ', d] <:+: cs) :
    closeUp cs = cs := by
  induction cs with
  | nil => rfl
  | cons c cs ih =>
    rw [closeUp_cons, if_neg, ih]
    · exact fun d hd hmem => h d hd (pair_infix_cons.mpr (.inr hmem))
    · rintro ⟨rfl, hany⟩
      obtain ⟨d, hhead, hd⟩ := (Option.any_eq_true _ _).mp hany
      exact h d hd (pair_infix_cons.mpr (.inl ⟨rfl, hhead⟩))

/-! ### Tidying -/

/-- No blanks but single spaces stand in the text, none at either end and none before closing
punctuation. -/
structure Tidied (text : String) : Prop where
  spaced : Spaced text.toList
  blanks : ∀ c ∈ text.toList, isBlank c = true → c = ' '
  closed : ∀ c, isClosing c = true → ¬[' ', c] <:+: text.toList

/-- Tidying collapses blanks and then closes up. -/
theorem toList_tidy (text : String) : (tidy text).toList = closeUp (Text.collapse text).toList := by
  rw [tidy, String.toList_ofList]

/-- What has been tidied is tidy. -/
theorem tidied_tidy (text : String) : Tidied (tidy text) where
  spaced := by
    rw [toList_tidy]
    exact spaced_closeUp (Text.spaced_collapse text)
  blanks c hc hblank := by
    rw [toList_tidy] at hc
    exact Text.eq_space_of_mem_collapse ((closeUp_sublist _).subset hc) hblank
  closed c hc := by
    rw [toList_tidy]
    exact closed_closeUp (Text.spaced_collapse text).single hc

/-- What is tidy stays. -/
theorem Tidied.tidy_eq_self {text : String} (h : Tidied text) : tidy text = text := by
  have hcollapse : (Text.collapse text).toList = text.toList := by
    rw [Text.toList_collapse, Text.intercalate_words h.spaced h.blanks]
  rw [tidy, hcollapse, closeUp_eq_self h.closed, String.ofList_toList]

/-- The texts that tidying leaves alone are those that are tidied. -/
theorem tidy_eq_self_iff {text : String} : tidy text = text ↔ Tidied text :=
  ⟨fun h => h ▸ tidied_tidy text, Tidied.tidy_eq_self⟩

/-- Tidying touches only blanks. -/
theorem solid_tidy (text : String) : solid (tidy text).toList = solid text.toList := by
  rw [toList_tidy, solid_closeUp, Text.solid_collapse]

/-! ### Assigned values -/

variable {macros : Macro.Registry}

/-- A call comes to leave the variable with the value, which it did not have before. -/
def CallSets (macros : Macro.Registry) (name text : String) : Prop :=
  ∃ (call : String) (args : List Expr) (vars : Bindings), vars.get? name ≠ some text ∧
    (Macro.evalCall macros .silence call args vars).2.get? name = some text

/-- The values of the variables were there at first, or are tidied, or come from calls. -/
def Accounted (macros : Macro.Registry) (first vars : Bindings) : Prop :=
  ∀ name text, vars.get? name = some text →
    first.get? name = some text ∨ Tidied text ∨ CallSets macros name text

variable {first vars : Bindings}

theorem Accounted.insert_tidy (h : Accounted macros first vars) (name text : String) :
    Accounted macros first (vars.insert name (tidy text)) := by
  intro other value hvalue
  rw [SortedMap.get?_insert] at hvalue
  split at hvalue
  · rw [← Option.some.inj hvalue]
    exact .inr (.inl (tidied_tidy text))
  · exact h other value hvalue

theorem Accounted.evalCall (h : Accounted macros first vars) (call : String) (args : List Expr) :
    Accounted macros first (Macro.evalCall macros .silence call args vars).2 := by
  intro name text htext
  by_cases hbefore : vars.get? name = some text
  · exact h name text hbefore
  · exact .inr (.inr ⟨call, args, vars, hbefore, htext⟩)

mutual

/-- Values stay accounted for while an expression is reduced. -/
theorem Yields.accounted {e : Expr} {vars : Bindings} {r : Option (String × Bindings)}
    (h : Yields macros e vars r) (hvars : Accounted macros first vars) :
    ∀ text after, r = some (text, after) → Accounted macros first after := by
  cases h with
  | literal | bound =>
    rintro _ _ ⟨⟩
    exact hvars
  | rigid all =>
    rintro _ _ ⟨⟩
    exact all.accounted hvars _ _ rfl
  | alternative listed yields => exact yields.accounted hvars
  | assignment yields =>
    intro _ _ heq
    rw [← (Prod.mk.inj (Option.some.inj heq)).2]
    exact (yields.accounted hvars _ _ rfl).insert_tidy _ _
  -- Only a call may leave a value as it likes.
  | @call name args _ after _ _ evaluates =>
    intro text left hleft
    obtain ⟨_, -, heq⟩ := Option.map_eq_some_iff.mp hleft
    obtain rfl : after = left := congrArg Prod.snd heq
    have hafter := hvars.evalCall name args
    rwa [evaluates] at hafter
  | rigidFails | noAlternative | unbound | assignmentFails | notGenerated =>
    exact fun _ _ h => nomatch h

theorem YieldsAll.accounted {es : List Expr} {vars : Bindings} {r : Option (List String × Bindings)}
    (h : YieldsAll macros es vars r) (hvars : Accounted macros first vars) :
    ∀ parts after, r = some (parts, after) → Accounted macros first after := by
  cases h with
  | nil =>
    rintro _ _ ⟨⟩
    exact hvars
  | cons head tail =>
    rintro _ _ ⟨⟩
    exact tail.accounted (head.accounted hvars _ _ rfl) _ _ rfl
  | headFails | tailFails => exact fun _ _ h => nomatch h

end

/-! ### Generated texts -/

/-- What is generated is the reduced text, tidied. -/
theorem reduce_of_generate {e : Expr} {vars : Bindings} {src : Source} {g : Generated}
    (h : (generate macros e vars src).1 = some g) :
    ∃ raw, (reduce macros e vars src).1 = (some raw, g.vars) ∧ g.text = tidy raw := by
  rw [generate_apply] at h
  rcases hreduce : (reduce macros e vars src).1 with ⟨_ | raw, after⟩
  · rw [hreduce] at h
    cases h
  · rw [hreduce, kept, finish] at h
    split at h
    · cases h
    · rw [← Option.some.inj h]
      exact ⟨raw, rfl, rfl⟩

/-- What is generated is tidied, and otherwise the text that the expression was reduced to; what is
assigned is tidied as well.  The variables have the values that they had before, tidied ones, and
what calls leave them with. -/
theorem generate_tidied (macros : Macro.Registry) (e : Expr) (vars : Bindings) (src : Source) :
    (∀ g, (generate macros e vars src).1 = some g → Tidied g.text ∧
      (∃ raw, (reduce macros e vars src).1 = (some raw, g.vars) ∧ g.text = tidy raw ∧
        solid g.text.toList = solid raw.toList) ∧
      Accounted macros vars g.vars) ∧
    (∀ name text, (reduce macros (.assignment name e) vars src).1.1 = some text → Tidied text ∧
      (reduce macros (.assignment name e) vars src).1.2.get? name = some text) ∧
    ∀ text, tidy (tidy text) = tidy text ∧ solid (tidy text).toList = solid text.toList := by
  -- The result, then an assignment's value, then tidying itself.
  refine ⟨fun g hg => ?_, fun name text htext => ?_, fun text => ?_⟩
  · obtain ⟨raw, hreduce, htext⟩ := reduce_of_generate hg
    have hyields : Yields macros e vars (kept (reduce macros e vars src).1) :=
      reduce_yields e vars src
    rw [hreduce] at hyields
    refine ⟨htext ▸ tidied_tidy raw, ⟨raw, hreduce, htext, htext ▸ solid_tidy raw⟩, ?_⟩
    exact hyields.accounted (fun _ _ h => .inl h) _ _ rfl
  · rw [reduce_assignment, Draw.bind_apply] at htext ⊢
    obtain ⟨raw, hraw, rfl⟩ := Option.map_eq_some_iff.mp htext
    refine ⟨tidied_tidy raw, ?_⟩
    show SortedMap.get? ((Option.map _ _).getD _) name = _
    rw [hraw, Option.map_some, Option.getD_some, SortedMap.get?_insert_self]
  · exact ⟨(tidied_tidy text).tidy_eq_self, solid_tidy text⟩

end Colloquy.Generation
