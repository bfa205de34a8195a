import Mathlib
import Colloquy.Proofs.Matching.Twins
import Colloquy.Proofs.Regex.Names
import Colloquy.Proofs.Regex.Search

/-!
# Patterns without raw parts

An expression without raw patterns is compiled to a fragment that is put together from what can be
written out, from groups of assignments and from references to them (`composed_fragment`).  Nothing
in it commits to one of several ways, and each name refers to the group of its assignment.  So its
pattern matches when there is a way through it (`isSome_run_iff`), provided that it can be built and
that the engine does not give up.
-/

namespace Colloquy.Matching

open Regex

/-! ### Twins of fragments put together -/

section

variable {n : Nat} {r r' again again' : Regex} {rs rs' : List Regex}

/-- Twins in sequence are twins. -/
theorem twin_concat (h : List.Forall₂ (Twin n) rs rs') : Twin n (concat rs) (concat rs') := by
  induction h with
  | nil => exact .same .empty
  | cons h _ ih => exact .seq h ih

/-- Choices between twins are twins. -/
theorem twin_oneOf (h : List.Forall₂ (Twin n) rs rs') : Twin n (oneOf rs) (oneOf rs') := by
  induction h with
  | nil => exact .same .empty
  | cons h hrest ih =>
    cases hrest with
    | nil => exact h
    | cons => exact .alt h ih

/-- What stands between twins is the same. -/
theorem forall₂_intersperse {gap : Regex} (hgap : Written .branch gap)
    (h : List.Forall₂ (Twin n) rs rs') :
    List.Forall₂ (Twin n) (rs.intersperse gap) (rs'.intersperse gap) := by
  induction h with
  | nil => exact .nil
  | cons h hrest ih =>
    cases hrest with
    | nil => exact .cons h .nil
    | cons => exact .cons h (.cons (.same hgap) ih)

/-- Flexible sequences of twins are twins. -/
theorem twin_flexible (h : List.Forall₂ (Twin n) rs rs') :
    Twin n (flexible rs) (flexible rs') := by
  have hfiller : Twin n filler filler := .same written_filler
  cases h with
  | nil => exact hfiller
  | cons h hrest =>
    exact twin_concat (.cons hfiller (List.rel_append
      (forall₂_intersperse written_filler (.cons h hrest)) (.cons hfiller .nil)))

/-- Rigid sequences of twins are twins. -/
theorem twin_rigid (h : List.Forall₂ (Twin n) rs rs') : Twin n (rigid rs) (rigid rs') :=
  twin_concat (forall₂_intersperse written_connective h)

/-- Conjunctions of twins are twins. -/
theorem twin_conjunction (h : List.Forall₂ (Twin n) rs rs') :
    Twin n (conjunction rs) (conjunction rs') := by
  refine twin_concat (List.rel_append ?_ (.cons (.same written_filler) .nil))
  exact List.rel_map (fun _ _ h => .ahead false (.seq (.same written_filler) h)) h

/-- Choices between twins, in parentheses, are twins. -/
theorem twin_disjunction (h : List.Forall₂ (Twin n) rs rs') :
    Twin n (disjunction rs) (disjunction rs') := by
  cases h with
  | nil => exact .same written_unmatchable
  | cons h hrest => exact .group (twin_oneOf (.cons h hrest))

/-- Optional twins are twins. -/
theorem twin_optional (h : Twin n r r') : Twin n (optional r) (optional r') :=
  .loop 0 (some 1) true (.group h)

/-- Negated twins are twins. -/
theorem twin_negation (h : Twin n r r') : Twin n (negation r) (negation r') :=
  .seq (.ahead true (.seq (.same written_filler) h)) (.same written_filler)

/-- Repetitions of twins are twins. -/
theorem twin_repeated (h : Twin n r r') (hagain : Twin n again again') :
    Twin n (repeated r again) (repeated r' again') :=
  .seq h (.loop 0 none true (.group (.seq (.same written_connective) hagain)))

/-- Loops around twins are twins. -/
theorem twin_repeatedCapturing (h : Twin n r r') :
    Twin n (repeatedCapturing r) (repeatedCapturing r') :=
  .loop 1 none true (.group (.seq (.same written_connective) h))

/-- Whole patterns with twins for roots are twins. -/
theorem twin_anchored (h : Twin n r r') : Twin n (anchored r) (anchored r') :=
  twin_concat (.cons (.same (.row (.anchor .start))) (.cons (.same written_connective)
    (.cons (.group h) (.cons (.same written_connective) (.cons (.same (written_chars _))
      (.cons (.same (.row (.anchor .stop))) .nil))))))

end

/-! ### Composed fragments -/

/-- The fragment is put together from what can be written out, from groups of assignments and from
references to them: it is its own twin, with no groups in front. -/
def Composed (r : Regex) : Prop :=
  Twin 0 r r

/-- Neither twin commits to one of several ways. -/
theorem Twin.commits_eq_false {n : Nat} {r r' : Regex} (h : Twin n r r') : r.commits = false := by
  induction h with
  | same h => exact h.commits_eq_false
  | seq _ _ iha ihb | alt _ _ iha ihb => rw [commits, iha, ihb, Bool.or_false]
  | group _ ih | capture _ _ ih | ahead _ _ ih | loop _ _ _ _ ih => exact ih
  | live | dead => rfl

/-- All groups of a twin are those of assignments. -/
theorem Twin.isOwn_eq_false {n : Nat} {r r' : Regex} (h : Twin n r r') :
    ∀ l ∈ r.labels, l.isOwn = false := by
  induction h with
  | same h =>
    rw [h.labels_eq_nil]
    exact fun _ hl => absurd hl List.not_mem_nil
  | seq _ _ iha ihb | alt _ _ iha ihb => exact List.forall_mem_append.mpr ⟨iha, ihb⟩
  | group _ ih | ahead _ _ ih | loop _ _ _ _ ih => exact ih
  | capture i _ ih => exact List.forall_mem_cons.mpr ⟨rfl, ih⟩
  | live | dead => exact fun _ hl => absurd hl List.not_mem_nil

/-- In a composed fragment each name refers to the group of its assignment. -/
theorem Composed.resolve_eq_self {r : Regex} (h : Composed r) : r.resolve [] = r :=
  Regex.resolve_eq_self (fun _ hl => absurd hl List.not_mem_nil) h.isOwn_eq_false

/-- What a macro puts out is written out as text. -/
theorem written_ofOutput (output : Except Macro.Fault Macro.Output) :
    Written .branch (ofOutput output) := by
  rcases output with _ | _ | _ | (_ | _) | _
  case ok.text => exact written_literal _
  case ok.choices => exact written_disjunction (List.forall_mem_map.mpr fun _ _ => written_literal _)
  case ok.flag.true => exact written_filler
  all_goals exact written_unmatchable

/-- A reference is composed, whatever it stands for. -/
theorem composed_ofReference (name : String) (st : Compiling) : Composed (ofReference name st) := by
  rw [ofReference]
  split
  · rename_i i _
    exact .live i
  · split
    · exact .same (written_literal _)
    · exact .same written_unmatchable

/-- A copy of a composed fragment is the fragment itself, as there are no groups to number on. -/
theorem composed_ofRepeated {r : Regex} (h : Composed r) (before : Nat) (st : Compiling) :
    Composed (ofRepeated before r st).1 := by
  rw [ofRepeated, get_bind_run]
  split
  · show Composed (Matching.repeated r (r.shiftOwn _))
    rw [(h.shiftOwn_eq_self _).1]
    exact twin_repeated h h
  · exact twin_repeatedCapturing h

variable [Engine] (macros : Macro.Registry) (u : Utterance)

mutual

/-- Without raw patterns, an expression is compiled to a composed fragment. -/
theorem composed_fragment (e : Expr) (h : ∀ n ∈ e.nodes, n.kind ≠ .raw) (st : Compiling) :
    Composed (fragment macros u e st).1 := by
  match e with
  | .literal text => exact .same (written_literal text)
  | .reference name => exact composed_ofReference name st
  -- Excluded: a raw pattern brings in groups of its own.
  | .raw _ => exact absurd rfl (h _ (.head _))
  | .call .. => exact .same (written_ofOutput _)
  | .flexible items =>
    exact twin_flexible (composed_fragments items (fun n hn => h n (.tail _ hn)) st)
  | .rigid items => exact twin_rigid (composed_fragments items (fun n hn => h n (.tail _ hn)) st)
  | .conjunction items =>
    exact twin_conjunction (composed_fragments items (fun n hn => h n (.tail _ hn)) st)
  | .disjunction items =>
    exact twin_disjunction (composed_fragments items (fun n hn => h n (.tail _ hn)) st)
  | .optional body => exact twin_optional (composed_fragment body (fun n hn => h n (.tail _ hn)) st)
  | .negation body => exact twin_negation (composed_fragment body (fun n hn => h n (.tail _ hn)) st)
  | .star body =>
    have hbody := composed_fragment body (fun n hn => h n (.tail _ hn)) st
    exact twin_optional (composed_ofRepeated hbody _ _)
  | .plus body =>
    have hbody := composed_fragment body (fun n hn => h n (.tail _ hn)) st
    exact .group (composed_ofRepeated hbody _ _)
  | .assignment _ body =>
    exact .capture _ (composed_fragment body (fun n hn => h n (.tail _ hn)) st)

/-- Item by item, what expressions compile to is composed. -/
theorem composed_fragments (es : List Expr) (h : ∀ n ∈ Expr.nodesOf es, n.kind ≠ .raw)
    (st : Compiling) :
    List.Forall₂ (Twin 0) (fragments macros u es st).1 (fragments macros u es st).1 := by
  match es with
  | [] => exact .nil
  | e :: es =>
    rw [Expr.nodesOf, List.forall_mem_append] at h
    exact .cons (composed_fragment e h.1 st) (composed_fragments es h.2 _)

end

/-- Without raw patterns, what compiles is composed. -/
theorem composed_compile {e : Expr} (h : ∀ n ∈ e.nodes, n.kind ≠ .raw) (vars : Bindings) :
    Composed (compile macros u e vars).regex :=
  twin_anchored (composed_fragment macros u e h _)

/-! ### Whole patterns -/

/-- The pattern can be built, and the engine does not give up on the utterance. -/
def Completes (p : Pattern) (u : Utterance) (limit : Nat) : Prop :=
  p.regex.builds = true ∧ ¬GivesUp p.regex (subject u) limit

instance (p : Pattern) (u : Utterance) (limit : Nat) : Decidable (Completes p u limit) :=
  inferInstanceAs (Decidable (_ ∧ ¬(_ ∧ _)))

variable {macros u}

/-- A pattern without raw parts that completes matches when there is a way through it. -/
theorem isSome_run_iff {e : Expr} (h : ∀ n ∈ e.nodes, n.kind ≠ .raw) {vars : Bindings} {limit : Nat}
    (hcompletes : Completes (compile macros u e vars) u limit) :
    (run macros u e vars limit).isSome = true ↔
      ∃ w, Ways (subject u) (compile macros u e vars).regex.references
        (compile macros u e vars).regex .start w := by
  let p := compile macros u e vars
  have hcomposed : Composed p.regex := composed_compile macros u h vars
  let allowance := Engine.allowance p.regex (subject u) limit
  obtain ⟨cost, hcost⟩ := exists_cost_of_ways hcomposed.commits_eq_false (subject u)
  -- The engine does not give up, so it is granted what the search costs.
  have hlasts : cost ≤ allowance :=
    Nat.le_of_not_lt fun hlt => hcompletes.2 ((hcost allowance).1.mpr hlt)
  rw [run, Pattern.run, if_pos hcompletes.1, hcomposed.resolve_eq_self, Option.isSome_map,
    (hcost allowance).2, and_iff_right hlasts]

end Colloquy.Matching
