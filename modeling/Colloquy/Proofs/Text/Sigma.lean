import Mathlib
import Colloquy.Proofs.Text.Case

/-!
# Capital sigma

The lower case of a character depends on its neighbours only for the capital sigma, which has one
form at the end of a word and another elsewhere (`isFinal`).  `lowerIn` sends a text to lower case
where each character is shown only a part of its surroundings, such as the piece in which it stands.
Two ways to look at the surroundings give the same lower case exactly if they agree about every
capital sigma (`lowerIn_congr`, `isFinal_eq_of_filter`).
-/

namespace Colloquy.Text

/-- A capital sigma between the reversed text `before` it and the text `after` it has the final
form. -/
def isFinal (before after : List Char) : Bool :=
  meetsCased before && !meetsCased after

theorem lowerOf_sigma (before after : List Char) :
    lowerOf before 'Σ' after = [if isFinal before after then 'ς' else 'σ'] := by
  rw [lowerOf, if_pos rfl, isFinal]
  split_ifs <;> rfl

/-- The surroundings of other characters do not matter. -/
theorem lowerOf_eq {c : Char} (hc : c ≠ 'Σ') (before before' after after' : List Char) :
    lowerOf before c after = lowerOf before' c after' := by
  rw [lowerOf, lowerOf, if_neg hc, if_neg hc]

/-- The lower case of a text between the reversed text `before` it and the text `after` it, where
each character is shown only what `view` leaves of its surroundings. -/
def lowerIn (view : List Char → List Char) (before : List Char) :
    List Char → List Char → List Char
  | [], _ => []
  | c :: cs, after =>
    lowerOf (view before) c (view (cs ++ after)) ++ lowerIn view (c :: before) cs after

variable {view view' : List Char → List Char} {before before' cs after after' : List Char}

theorem lowerIn_id (before cs : List Char) : lowerIn id before cs [] = lowerAfter before cs := by
  induction cs generalizing before with
  | nil => rfl
  | cons c cs ih => rw [lowerIn, lowerAfter, ih, List.append_nil, id, id]

theorem lowerIn_append (us vs : List Char) :
    lowerIn view before (us ++ vs) after =
      lowerIn view before us (vs ++ after) ++ lowerIn view (us.reverse ++ before) vs after := by
  induction us generalizing before with
  | nil => rfl
  | cons u us ih =>
    rw [List.cons_append, lowerIn, lowerIn, ih, List.append_assoc, List.append_assoc,
      List.reverse_cons, List.append_assoc, List.singleton_append]

theorem lowerIn_eq_nil_iff : lowerIn view before cs after = [] ↔ cs = [] := by
  cases cs with
  | nil => exact iff_of_true rfl rfl
  | cons c cs =>
    refine iff_of_false (fun h => ?_) (List.cons_ne_nil c cs)
    have hnil := (List.append_eq_nil_iff.mp h).1
    rw [lowerOf] at hnil
    split_ifs at hnil

theorem exists_of_mem_lowerIn {d : Char} (h : d ∈ lowerIn view before cs after) :
    ∃ c ∈ cs, ∃ us vs, d ∈ lowerOf us c vs := by
  induction cs generalizing before with
  | nil => cases h
  | cons c cs ih =>
    rcases List.mem_append.mp h with h | h
    · exact ⟨c, List.mem_cons_self, _, _, h⟩
    · obtain ⟨c', hc', hd⟩ := ih h
      exact ⟨c', List.mem_cons_of_mem _ hc', hd⟩

/-! ### Views that agree -/

/-- Views that agree about every capital sigma give the same lower case. -/
theorem lowerIn_congr
    (h : ∀ us vs, cs = us ++ 'Σ' :: vs →
      isFinal (view (us.reverse ++ before)) (view (vs ++ after)) =
        isFinal (view' (us.reverse ++ before')) (view' (vs ++ after'))) :
    lowerIn view before cs after = lowerIn view' before' cs after' := by
  induction cs generalizing before before' with
  | nil => rfl
  | cons c cs ih =>
    rw [lowerIn, lowerIn]
    congr 1
    · -- Only a capital sigma looks around.
      by_cases hc : c = 'Σ'
      · subst hc
        rw [lowerOf_sigma, lowerOf_sigma, ← List.nil_append before, ← List.nil_append before']
        exact congrArg (fun final => [if final then 'ς' else 'σ']) (h [] cs rfl)
      · exact lowerOf_eq hc ..
    · refine ih fun us vs hcs => ?_
      have hlater := h (c :: us) vs (by rw [hcs, List.cons_append])
      rwa [List.reverse_cons, List.append_assoc, List.append_assoc] at hlater

/-- The same lower case, or what a class with both forms of sigma keeps of it, comes from views that
agree about every capital sigma. -/
theorem isFinal_eq_of_filter {p : Char → Bool} (hp : p 'σ' = true) (hp' : p 'ς' = true)
    (h : (lowerIn view before cs after).filter p = (lowerIn view' before' cs after').filter p)
    {us vs : List Char} (hcs : cs = us ++ 'Σ' :: vs) :
    isFinal (view (us.reverse ++ before)) (view (vs ++ after)) =
      isFinal (view' (us.reverse ++ before')) (view' (vs ++ after')) := by
  have hkept (final : Bool) :
      [if final then 'ς' else 'σ'].filter p = [if final then 'ς' else 'σ'] := by
    cases final <;> simp [hp, hp']
  induction us generalizing before before' cs with
  | nil =>
    rw [hcs, List.nil_append, lowerIn, lowerIn, List.filter_append, List.filter_append,
      lowerOf_sigma, lowerOf_sigma, hkept, hkept] at h
    -- The sigma itself passes the filter, and its form shows whether it is final.
    have hform := (List.cons_eq_cons.mp h).1
    rw [List.reverse_nil, List.nil_append, List.nil_append]
    revert hform
    cases isFinal (view before) (view (vs ++ after)) <;>
      cases isFinal (view' before') (view' (vs ++ after')) <;> decide
  | cons c us ih =>
    rw [hcs, List.cons_append, lowerIn, lowerIn, List.filter_append, List.filter_append] at h
    -- Whatever the context, a character has as many in lower case that pass, so the texts can be
    -- cut behind it.
    have hlength : ∀ bs as bs' as' : List Char,
        ((lowerOf bs c as).filter p).length = ((lowerOf bs' c as').filter p).length := by
      intro bs as bs' as'
      by_cases hc : c = 'Σ'
      · subst hc
        rw [lowerOf_sigma, lowerOf_sigma, hkept, hkept]
        rfl
      · rw [lowerOf_eq hc]
    have hrest := (List.append_inj h (hlength _ _ _ _)).2
    rw [List.reverse_cons, List.append_assoc, List.append_assoc]
    exact ih hrest rfl

/-! ### Pieces of a text -/

section Pieces

variable {p : Char → Bool} {d : Char}

theorem takeWhile_append_cons_of_neg (hd : ¬p d = true) (us vs : List Char) :
    (us ++ d :: vs).takeWhile p = us.takeWhile p := by
  induction us with
  | nil => exact List.takeWhile_cons_of_neg hd
  | cons u us ih => rw [List.cons_append, List.takeWhile_cons, List.takeWhile_cons, ih]

/-- Who sees only the piece around a character does not see what lies behind its end. -/
theorem lowerIn_takeWhile_after (hd : ¬p d = true) :
    lowerIn (List.takeWhile p) before cs (d :: after) = lowerIn (List.takeWhile p) before cs [] :=
  lowerIn_congr fun us vs _ => by rw [takeWhile_append_cons_of_neg hd, List.append_nil]

theorem lowerIn_takeWhile_before (hd : ¬p d = true) :
    lowerIn (List.takeWhile p) (d :: before) cs after = lowerIn (List.takeWhile p) [] cs after :=
  lowerIn_congr fun us vs _ => by rw [takeWhile_append_cons_of_neg hd, List.append_nil]

/-- A text that is one piece is seen whole. -/
theorem lowerIn_takeWhile_of_forall (h : ∀ c ∈ cs, p c = true) :
    lowerIn (List.takeWhile p) [] cs [] = lowerAfter [] cs := by
  rw [← lowerIn_id]
  refine lowerIn_congr fun us vs hcs => ?_
  rw [hcs, List.forall_mem_append, List.forall_mem_cons] at h
  have hbefore : ∀ c ∈ us.reverse, p c = true := fun c hc => h.1 c (List.mem_reverse.mp hc)
  rw [List.append_nil, List.append_nil, List.takeWhile_eq_self_iff.mpr hbefore,
    List.takeWhile_eq_self_iff.mpr h.2.2, id, id]

end Pieces

end Colloquy.Text
