import Mathlib
import Colloquy.Proofs.Matching.Negation

/-!
# Which expressions can be built

An expression without assignments, macros and raw patterns compiles to the fragment that
`staticFragment` puts together, whatever has been compiled before it (`fragment_eq_static`).  Such a
fragment amounts to something that can be repeated, unless the expression asks for nothing at all,
as a blank literal and a reference to a blank value do (`substance_staticFragment`).

An optional is the one repetition whose body is an expression alone.  So a pattern can be built, at
a depth that is not too great, exactly when no optional in it asks for nothing
(`buildable_compile_iff`).
-/

namespace Colloquy.Regex

/-! ### Substance -/

namespace Substance

/-- Nothing adds nothing. -/
@[simp] theorem beside_nothing (a : Substance) : a.beside nothing = a := by cases a <;> rfl

/-- What can be repeated can be repeated whatever stands behind it. -/
@[simp] theorem repeatable_beside (a : Substance) : repeatable.beside a = repeatable := by
  cases a <;> rfl

/-- What can be repeated can be repeated whatever stands before it. -/
@[simp] theorem beside_repeatable (a : Substance) : a.beside repeatable = repeatable := by
  cases a <;> rfl

end Substance

/-- A sequence has the substance of its first part and of the rest. -/
theorem substance_concat_cons (r : Regex) (rs : List Regex) :
    (concat (r :: rs)).substance = r.substance.beside (concat rs).substance := rfl

/-- A row with something that can be repeated can be repeated. -/
theorem substance_concat_of_mem {r : Regex} {rs : List Regex} (hr : r ∈ rs)
    (h : r.substance = .repeatable) : (concat rs).substance = .repeatable := by
  induction rs with
  | nil => cases hr
  | cons q rs ih =>
    rw [substance_concat_cons]
    rcases List.mem_cons.mp hr with rfl | hr
    · rw [h, Substance.repeatable_beside]
    · rw [ih hr, Substance.beside_repeatable]

/-- A sequence has sound loops if its parts do. -/
theorem loopsSound_concat {rs : List Regex} :
    (concat rs).loopsSound = true ↔ ∀ r ∈ rs, r.loopsSound = true := by
  induction rs with
  | nil => simp [concat, loopsSound]
  | cons r rs ih =>
    rw [List.forall_mem_cons, ← ih, ← Bool.and_eq_true]
    rfl

/-- A choice has sound loops if its alternatives do. -/
theorem loopsSound_oneOf {rs : List Regex} :
    (oneOf rs).loopsSound = true ↔ ∀ r ∈ rs, r.loopsSound = true := by
  match rs with
  | [] => simp [oneOf, loopsSound]
  | [r] => simp [oneOf]
  | r :: r' :: rs =>
    rw [List.forall_mem_cons, ← loopsSound_oneOf, ← Bool.and_eq_true]
    rfl

end Colloquy.Regex

namespace Colloquy.Matching

open Regex

/-! ### Fragments -/

/-- What holds of the gap holds between the members. -/
theorem forall_mem_intersperse (P : Regex → Prop) {gap : Regex} (hgap : P gap) {rs : List Regex} :
    (∀ r ∈ rs.intersperse gap, P r) ↔ ∀ r ∈ rs, P r := by
  match rs with
  | [] => exact Iff.rfl
  | [r] => exact Iff.rfl
  -- Only from the second member on is there a gap before one.
  | r :: r' :: rs =>
    rw [List.intersperse_cons_cons, List.forall_mem_cons, List.forall_mem_cons, and_iff_right hgap,
      forall_mem_intersperse P hgap]
    simp only [List.forall_mem_cons]

section

variable {P : Regex → Prop} (hempty : P .empty) (hseq : ∀ {a b : Regex}, P a → P b → P (.seq a b))

include hempty hseq

/-- What holds of the empty expression and of pairs holds of sequences. -/
theorem concat_of_forall {rs : List Regex} (h : ∀ r ∈ rs, P r) : P (concat rs) := by
  induction rs with
  | nil => exact hempty
  | cons r rs ih =>
    rw [List.forall_mem_cons] at h
    exact hseq h.1 (ih h.2)

/-- What holds of characters, spacing and edges, and is passed on to rows, holds of literals. -/
theorem literal_of_parts (hchar : ∀ c, P (.char c)) (hspacing : P spacing)
    (hedge : P (.anchor .wordEdge)) (text : String) : P (literal text) := by
  -- At either end there is the edge of a word, or nothing.
  have hedges : ∀ c, ∀ r ∈ edgeAt c, P r := by
    intro c r hr
    cases c with
    | none => cases hr
    | some c =>
      rw [edgeAt] at hr
      split at hr
      · rwa [List.mem_singleton.mp hr]
      · cases hr
  rw [literal]
  split
  · exact hempty
  · refine concat_of_forall hempty hseq ?_
    rw [List.forall_mem_append, List.forall_mem_append, forall_mem_intersperse P hspacing,
      List.forall_mem_map]
    refine ⟨⟨hedges _, fun word _ => concat_of_forall hempty hseq ?_⟩, hedges _⟩
    rw [List.forall_mem_map]
    exact fun c _ => hchar c

end

/-- A filler can be repeated. -/
theorem substance_filler : filler.substance = .repeatable := rfl

/-- A gap can be repeated. -/
theorem substance_connective : connective.substance = .repeatable := rfl

/-- A text can be repeated unless it is blank. -/
theorem substance_literal (text : String) : (literal text).substance =
    if (Text.words text.toList).isEmpty then .nothing else .repeatable := by
  rw [literal]
  cases hwords : Text.words text.toList with
  | nil => rfl
  | cons first others =>
    -- The first word has a character.
    obtain ⟨c, cs, rfl⟩ := List.exists_cons_of_ne_nil
      (Text.ne_nil_of_mem_words (hwords ▸ List.mem_cons_self))
    have hchars : (chars (c :: cs)).substance = .repeatable := Substance.repeatable_beside _
    refine substance_concat_of_mem (List.mem_append_left _ (List.mem_append_right _ ?_)) hchars
    cases others with
    | nil => exact List.mem_cons_self
    | cons _ _ => exact List.mem_cons_self

/-- The loops of a text are those of its spacing. -/
theorem loopsSound_literal (text : String) : (literal text).loopsSound = true :=
  literal_of_parts (P := fun r => r.loopsSound = true) rfl
    (fun ha hb => Bool.and_eq_true_iff.mpr ⟨ha, hb⟩) (fun _ => rfl) rfl rfl text

/-- A text is plain. -/
theorem isPlain_literal (text : String) : (literal text).isPlain [] = true :=
  literal_of_parts (P := fun r => r.isPlain [] = true) rfl
    (fun ha hb => Bool.and_eq_true_iff.mpr ⟨ha, hb⟩) (fun _ => rfl) rfl rfl text

/-- A text is flat. -/
theorem depth_literal (text : String) : (literal text).depth = 0 :=
  literal_of_parts (P := fun r => r.depth = 0) rfl
    (fun ha hb => Nat.max_eq_zero_iff.mpr ⟨ha, hb⟩) (fun _ => rfl) rfl rfl text

section

variable {r : Regex} {rs : List Regex}

/-- A flexible sequence can be repeated, for its fillers. -/
theorem substance_flexible : (flexible rs).substance = .repeatable := by
  rw [flexible]
  split
  · rfl
  · exact substance_concat_of_mem List.mem_cons_self substance_filler

/-- Its loops are those of its items. -/
theorem loopsSound_flexible :
    (flexible rs).loopsSound = true ↔ ∀ r ∈ rs, r.loopsSound = true := by
  rw [flexible]
  split
  · -- Without items there is a filler alone.
    rename_i hempty
    rw [List.isEmpty_iff.mp hempty]
    simp [filler, loopsSound, substance]
  · have hfiller : filler.loopsSound = true := rfl
    rw [loopsSound_concat, List.cons_append, List.forall_mem_cons, List.forall_mem_append,
      forall_mem_intersperse _ hfiller, List.forall_mem_singleton, and_iff_right hfiller,
      and_iff_left hfiller]

/-- The loops of a rigid sequence are those of its items. -/
theorem loopsSound_rigid : (rigid rs).loopsSound = true ↔ ∀ r ∈ rs, r.loopsSound = true := by
  have hconnective : connective.loopsSound = true := rfl
  rw [rigid, loopsSound_concat, forall_mem_intersperse _ hconnective]

/-- A conjunction can be repeated, for its filler. -/
theorem substance_conjunction : (conjunction rs).substance = .repeatable :=
  substance_concat_of_mem (List.mem_append_right _ List.mem_cons_self) substance_filler

/-- Its loops are those of its items. -/
theorem loopsSound_conjunction :
    (conjunction rs).loopsSound = true ↔ ∀ r ∈ rs, r.loopsSound = true := by
  have hfiller : filler.loopsSound = true := rfl
  rw [conjunction, loopsSound_concat, List.forall_mem_append, List.forall_mem_singleton,
    and_iff_left hfiller, List.forall_mem_map]
  simp only [loopsSound, hfiller, Bool.true_and]

/-- The loops of a choice are those of its alternatives. -/
theorem loopsSound_disjunction :
    (disjunction rs).loopsSound = true ↔ ∀ r ∈ rs, r.loopsSound = true := by
  rw [disjunction]
  split
  · rename_i hempty
    rw [List.isEmpty_iff.mp hempty]
    simp [unmatchable, loopsSound]
  · exact loopsSound_oneOf

/-- What is optional has to have substance. -/
theorem loopsSound_optional :
    (optional r).loopsSound = true ↔ r.substance = .repeatable ∧ r.loopsSound = true := by
  rw [optional, loopsSound, Bool.and_eq_true, beq_iff_eq]
  rfl

/-- A repetition can be repeated, for its gaps. -/
theorem substance_repeated : (repeated r r).substance = .repeatable :=
  Substance.beside_repeatable _

/-- Its loops are those of its body. -/
theorem loopsSound_repeated : (repeated r r).loopsSound = true ↔ r.loopsSound = true := by
  have hround : (Regex.group (.seq connective r)).substance = .repeatable :=
    Substance.repeatable_beside _
  have hconnective : connective.loopsSound = true := rfl
  simp only [repeated, loopsSound, hround, hconnective, beq_self_eq_true, Bool.true_and,
    Bool.and_self]

/-- The loops of a negation are those of its body. -/
theorem loopsSound_negation : (negation r).loopsSound = true ↔ r.loopsSound = true := by
  have hfiller : filler.loopsSound = true := rfl
  simp only [negation, loopsSound, hfiller, Bool.true_and, Bool.and_true]

end

/-! ### Static fragments -/

section

variable (vars : Bindings)

mutual

/-- What an expression compiles to that sets no variable, is no text of its own and calls no
macro. -/
def staticFragment : Expr → Regex
  | .literal text => literal text
  | .reference name => ofReference name ⟨vars, [], [], 0⟩
  | .flexible items => flexible (staticFragments items)
  | .rigid items => rigid (staticFragments items)
  | .conjunction items => conjunction (staticFragments items)
  | .disjunction items => disjunction (staticFragments items)
  | .optional body => optional (staticFragment body)
  | .star body => optional (repeated (staticFragment body) (staticFragment body))
  | .plus body => .group (repeated (staticFragment body) (staticFragment body))
  | .negation body => negation (staticFragment body)
  | .raw _ | .assignment .. | .call .. => .empty

/-- What several expressions compile to. -/
def staticFragments : List Expr → List Regex
  | [] => []
  | e :: es => staticFragment e :: staticFragments es

end

mutual

/-- The expression asks for nothing: it is a blank text or value, a row of at most one such part, or
a choice of one. -/
def isVoid : Expr → Bool
  | .literal text => (Text.words text.toList).isEmpty
  | .reference name => (vars.get? name).any fun value => (Text.words value.toList).isEmpty
  | .rigid items => items.length ≤ 1 && allVoid items
  | .disjunction items => items.length == 1 && allVoid items
  | .flexible _ | .conjunction _ | .optional _ | .star _ | .plus _ | .negation _ | .raw _
  | .assignment .. | .call .. => false

/-- All of the expressions ask for nothing. -/
def allVoid : List Expr → Bool
  | [] => true
  | e :: es => isVoid e && allVoid es

end

/-- The node is an optional whose body asks for nothing. -/
def isHollow : Expr → Bool
  | .optional body => isVoid vars body
  | _ => false

/-- No optional in the expression asks for nothing. -/
def Solid (e : Expr) : Prop :=
  ∀ n ∈ e.nodes, isHollow vars n = false

instance (e : Expr) : Decidable (Solid vars e) :=
  inferInstanceAs (Decidable (∀ n ∈ e.nodes, _))

variable {vars}

/-- An expression that is no hollow optional is solid when the nodes in it are. -/
theorem solid_iff {e : Expr} {ns : List Expr} (hnodes : e.nodes = e :: ns)
    (he : isHollow vars e = false) : Solid vars e ↔ ∀ n ∈ ns, isHollow vars n = false := by
  rw [Solid, hnodes, List.forall_mem_cons, and_iff_right he]

end

section

variable (macros : Macro.Registry) (u : Utterance)

mutual

/-- A static expression compiles to its fragment and changes nothing. -/
theorem fragment_eq_static [Engine] (e : Expr) (h : Static e) (st : Compiling)
    (hlatest : st.latest = []) :
    fragment macros u e st = (staticFragment st.vars e, st) := by
  match e with
  | .literal _ => rfl
  | .reference name =>
    show (ofReference name st, st) = _
    rw [staticFragment, ofReference, ofReference, hlatest]
  | .flexible items | .rigid items | .conjunction items | .disjunction items =>
    have hitems := fragments_eq_static items (fun n hn => h n (.tail _ hn)) st hlatest
    rw [fragment, bind_run _ hitems]
    rfl
  | .optional body | .negation body =>
    have hbody := fragment_eq_static body (fun n hn => h n (.tail _ hn)) st hlatest
    rw [fragment, bind_run _ hbody]
    rfl
  | .star body | .plus body =>
    have hstatic : Static body := fun n hn => h n (.tail _ hn)
    have hbody := fragment_eq_static body hstatic st hlatest
    obtain ⟨r, hr, hrenders⟩ := fragment_eq macros u body hstatic st hlatest
    obtain rfl : r = staticFragment st.vars body := congrArg Prod.fst (hr.symm.trans hbody)
    rw [fragment, get_bind_run, bind_run _ hbody, bind_run _ (ofRepeated_eq hrenders.written st)]
    rfl
  -- The rest is not static.
  | .raw _ => exact absurd rfl (h _ (.head _)).1
  | .assignment .. => exact absurd rfl (h _ (.head _)).2.1
  | .call .. => exact absurd rfl (h _ (.head _)).2.2

/-- Item by item, what expressions compile to, with the state as it was. -/
theorem fragments_eq_static [Engine] (es : List Expr)
    (h : ∀ n ∈ Expr.nodesOf es, n.kind ≠ .raw ∧ n.kind ≠ .assignment ∧ n.kind ≠ .call)
    (st : Compiling) (hlatest : st.latest = []) :
    fragments macros u es st = (staticFragments st.vars es, st) := by
  match es with
  | [] => rfl
  | e :: es =>
    rw [Expr.nodesOf, List.forall_mem_append] at h
    rw [fragments, bind_run _ (fragment_eq_static e h.1 st hlatest),
      bind_run _ (fragments_eq_static es h.2 st hlatest)]
    rfl

end

end

/-! ### Patterns that can be built -/

section

variable (vars : Bindings)

/-- A reference stands for a text, which is blank or not. -/
theorem substance_ofReference (name : String) :
    (ofReference name ⟨vars, [], [], 0⟩).substance =
      if isVoid vars (.reference name) then .nothing else .repeatable := by
  rw [ofReference, List.lookup_nil, isVoid]
  cases vars.get? name with
  | none => rfl
  | some value => exact substance_literal value

/-- A static fragment can be repeated, unless the expression asks for nothing. -/
theorem substance_staticFragment (e : Expr) (h : Static e) :
    (staticFragment vars e).substance = if isVoid vars e then .nothing else .repeatable := by
  match e with
  | .literal text => exact substance_literal text
  | .reference name => exact substance_ofReference vars name
  | .rigid [] => rfl
  | .rigid [e] =>
    have ih := substance_staticFragment e fun n hn => h n (.tail _ (List.mem_append_left _ hn))
    have hvoid : isVoid vars (.rigid [e]) = isVoid vars e := Bool.and_true _
    rw [hvoid, ← ih]
    exact Substance.beside_nothing _
  | .rigid (e :: e' :: es) => exact substance_concat_of_mem (.tail _ (.head _)) substance_connective
  | .disjunction [] => rfl
  | .disjunction [e] =>
    have ih := substance_staticFragment e fun n hn => h n (.tail _ (List.mem_append_left _ hn))
    have hvoid : isVoid vars (.disjunction [e]) = isVoid vars e := Bool.and_true _
    rw [hvoid, ← ih]
    rfl
  | .disjunction (e :: e' :: es) => rfl
  | .flexible items => exact substance_flexible
  | .conjunction items => exact substance_conjunction
  | .optional body => rfl
  | .star body => rfl
  | .plus body => exact substance_repeated
  | .negation body => rfl
  -- The rest is not static.
  | .raw _ => exact absurd rfl (h _ (.head _)).1
  | .assignment .. => exact absurd rfl (h _ (.head _)).2.1
  | .call .. => exact absurd rfl (h _ (.head _)).2.2

/-- A fragment can be repeated unless the expression asks for nothing. -/
theorem substance_staticFragment_iff {e : Expr} (h : Static e) :
    (staticFragment vars e).substance = .repeatable ↔ isVoid vars e = false := by
  rw [substance_staticFragment vars e h]
  cases isVoid vars e <;> simp

mutual

/-- The repetitions in a static fragment stand behind something when no optional is hollow. -/
theorem loopsSound_staticFragment (e : Expr) (h : Static e) :
    (staticFragment vars e).loopsSound = true ↔ Solid vars e := by
  match e with
  | .literal text => simp [staticFragment, loopsSound_literal, Solid, Expr.nodes, isHollow]
  | .reference name =>
    have hsound : (staticFragment vars (.reference name)).loopsSound = true := by
      rw [staticFragment, ofReference, List.lookup_nil]
      cases vars.get? name with
      | none => rfl
      | some value => exact loopsSound_literal value
    simp [hsound, Solid, Expr.nodes, isHollow]
  | .flexible items =>
    have ih := loopsSound_staticFragments items fun n hn => h n (.tail _ hn)
    rw [staticFragment, loopsSound_flexible, ih, solid_iff (by rw [Expr.nodes]) rfl]
  | .rigid items =>
    have ih := loopsSound_staticFragments items fun n hn => h n (.tail _ hn)
    rw [staticFragment, loopsSound_rigid, ih, solid_iff (by rw [Expr.nodes]) rfl]
  | .conjunction items =>
    have ih := loopsSound_staticFragments items fun n hn => h n (.tail _ hn)
    rw [staticFragment, loopsSound_conjunction, ih, solid_iff (by rw [Expr.nodes]) rfl]
  | .disjunction items =>
    have ih := loopsSound_staticFragments items fun n hn => h n (.tail _ hn)
    rw [staticFragment, loopsSound_disjunction, ih, solid_iff (by rw [Expr.nodes]) rfl]
  | .optional body =>
    have hstatic : Static body := fun n hn => h n (.tail _ hn)
    rw [staticFragment, loopsSound_optional, substance_staticFragment_iff vars hstatic,
      loopsSound_staticFragment body hstatic, Solid, Solid, Expr.nodes, List.forall_mem_cons]
    rfl
  | .star body =>
    have ih := loopsSound_staticFragment body fun n hn => h n (.tail _ hn)
    rw [staticFragment, loopsSound_optional, and_iff_right substance_repeated,
      loopsSound_repeated, ih]
    exact (solid_iff (by rw [Expr.nodes]) rfl).symm
  | .plus body =>
    have ih := loopsSound_staticFragment body fun n hn => h n (.tail _ hn)
    rw [staticFragment, loopsSound, loopsSound_repeated, ih]
    exact (solid_iff (by rw [Expr.nodes]) rfl).symm
  | .negation body =>
    have ih := loopsSound_staticFragment body fun n hn => h n (.tail _ hn)
    rw [staticFragment, loopsSound_negation, ih]
    exact (solid_iff (by rw [Expr.nodes]) rfl).symm
  -- The rest is not static.
  | .raw _ => exact absurd rfl (h _ (.head _)).1
  | .assignment .. => exact absurd rfl (h _ (.head _)).2.1
  | .call .. => exact absurd rfl (h _ (.head _)).2.2

/-- Item by item, the loops are sound unless an optional asks for nothing. -/
theorem loopsSound_staticFragments (es : List Expr)
    (h : ∀ n ∈ Expr.nodesOf es, n.kind ≠ .raw ∧ n.kind ≠ .assignment ∧ n.kind ≠ .call) :
    (∀ r ∈ staticFragments vars es, r.loopsSound = true) ↔
      ∀ n ∈ Expr.nodesOf es, isHollow vars n = false := by
  match es with
  | [] => simp [staticFragments, Expr.nodesOf]
  | e :: es =>
    rw [Expr.nodesOf, List.forall_mem_append] at h
    rw [staticFragments, List.forall_mem_cons, loopsSound_staticFragment e h.1,
      loopsSound_staticFragments es h.2, Expr.nodesOf, List.forall_mem_append, Solid]

end

variable (macros : Macro.Registry) (u : Utterance) {vars}

/-- Compiling a static expression puts its fragment before the mark. -/
theorem compile_eq_static [Engine] {e : Expr} (h : Static e) :
    compile macros u e vars = ⟨anchored (staticFragment vars e), [], vars⟩ := by
  rw [compile, fragment_eq_static macros u e h _ rfl]

/-- A static pattern can be built when it is not too deep and no optional in it asks for nothing. -/
theorem buildable_compile_iff [Engine] {e : Expr} (h : Static e) :
    (compile macros u e vars).regex.buildable = true ↔
      (compile macros u e vars).regex.depth ≤ maxDepth ∧ Solid vars e := by
  obtain ⟨r, hr, hrenders⟩ := fragment_eq macros u e h ⟨vars, [], [], 0⟩ rfl
  obtain rfl : r = staticFragment vars e :=
    congrArg Prod.fst (hr.symm.trans (fragment_eq_static macros u e h ⟨vars, [], [], 0⟩ rfl))
  rw [compile_eq_static macros u h, (written_anchored hrenders.written).buildable_iff, anchored,
    loopsSound_concat, ← loopsSound_staticFragment vars e h]
  have hconnective : connective.loopsSound = true := rfl
  have hmark : (chars endMark).loopsSound = true := rfl
  simp [loopsSound, hconnective, hmark]

end

end Colloquy.Matching
