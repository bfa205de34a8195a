import Mathlib
import Colloquy.Proofs.Matching.Building

/-!
# Optional parts

An optional part can be left out: where the rest of a rigid sequence is accepted, the sequence is
accepted with an optional in front (`accepts_optional`).  So it matches what the rest matches alone,
provided that its pattern can be built, and that is so when no optional in it asks for nothing
(`run_optional_iff`).  A reference to a variable whose value is blank asks for nothing, and an
optional one keeps the whole expression from matching (`optional_blank_misses`).
-/

namespace Colloquy.Matching

open Regex

section

variable {macros : Macro.Registry} {u : Utterance} {vars : Bindings} {e r : Expr}

theorem nodes_optional_rigid : (Expr.rigid [.optional e, r]).nodes =
    .rigid [.optional e, r] :: ((Expr.optional e).nodes ++ r.nodes) := by
  rw [Expr.nodes, Expr.nodesOf, Expr.nodesOf, Expr.nodesOf, List.append_nil]

theorem static_optional_rigid (he : Static e) (hr : Static r) :
    Static (.rigid [.optional e, r]) := by
  rw [Static, nodes_optional_rigid, List.forall_mem_cons, List.forall_mem_append, Expr.nodes,
    List.forall_mem_cons]
  exact ⟨by simp [Expr.kind], ⟨by simp [Expr.kind], he⟩, hr⟩

theorem solid_optional_rigid_iff :
    Solid vars (.rigid [.optional e, r]) ↔ Solid vars (.optional e) ∧ Solid vars r := by
  rw [solid_iff nodes_optional_rigid rfl, List.forall_mem_append, Solid, Solid]

/-- An optional in front is left out where the rest begins. -/
theorem accepts_optional {s : Subject} (h : Accepts s vars r) :
    Accepts s vars (.rigid [.optional e, r]) := by
  obtain ⟨i, j, hi, hij, hj⟩ := h
  exact ⟨i, j, hi, ⟨i, .inl rfl, i, stretch_self _ hi.2.1, hij⟩, hj⟩

/-- Where an expression matches, it matches with an optional in front and binds nothing, as long as
groups are not nested too deep, the pattern is not too large and the engine does not give up, unless
a part of the optional is hollow: then the pattern cannot be built and matches nothing. -/
theorem run_optional_iff [Engine] (he : Static e) (hr : Static r) {budget : Nat}
    (hmatch : (run macros u r vars budget).isSome = true) (budget' : Nat) (after : Bindings) :
    run macros u (.rigid [.optional e, r]) vars budget' = some after ↔
      (compile macros u (.rigid [.optional e, r]) vars).regex.depth ≤ maxDepth ∧
        Solid vars (.optional e) ∧
        Engine.fits (compile macros u (.rigid [.optional e, r]) vars).regex = true ∧
        ¬GivesUp (compile macros u (.rigid [.optional e, r]) vars).regex (subject u) budget' ∧
        after = vars := by
  have hstatic := static_optional_rigid he hr
  -- What the rest matches says that it is accepted, and that its own pattern can be built.
  obtain ⟨before, hbefore⟩ := Option.isSome_iff_exists.mp hmatch
  obtain ⟨_, hrest, _, _, _, hrun⟩ := run_iff hr macros u vars
  obtain ⟨hbuilds, -, haccepts, -⟩ := (hrun budget before).mp hbefore
  have hsolid : Solid vars r := by
    refine ((buildable_compile_iff macros u hr).mp ?_).2
    rw [hrest]
    exact (Bool.and_eq_true_iff.mp hbuilds).1
  have hbuildable_iff :
      (compile macros u (.rigid [.optional e, r]) vars).regex.buildable = true ↔ _ :=
    buildable_compile_iff macros u hstatic
  rw [solid_optional_rigid_iff, and_iff_left hsolid] at hbuildable_iff
  obtain ⟨_, hwhole, _, _, _, hrun⟩ := run_iff hstatic macros u vars
  rw [hrun budget' after, and_iff_right (accepts_optional haccepts), builds, Bool.and_eq_true_iff]
  rw [hwhole] at hbuildable_iff ⊢
  rw [hbuildable_iff, and_assoc, and_assoc]

end

/-- A name or a mood, perhaps with a sigh. -/
def address : Expr :=
  .rigid [.disjunction [.reference "name", .reference "mood"], .star (.literal "oh dear")]

/-- A greeting, perhaps repeated, and perhaps of someone by their name. -/
def hail : Expr :=
  .flexible [.plus (.literal "good day"), .optional (.reference "name")]

/-- An address that the utterance does not have is left out, though a variable in it is not
bound. -/
theorem run_optional_iff_hail :
    let u := Utterance.scan "Good day, good  day!" 4
    Static address ∧ Static hail ∧ (run SortedMap.empty u hail known 1000).isSome = true ∧
      (compile SortedMap.empty u (.rigid [.optional address, hail]) known).regex.depth ≤ maxDepth ∧
      ¬GivesUp (compile SortedMap.empty u (.rigid [.optional address, hail]) known).regex
        (subject u) 1000 ∧ Solid known (.optional address) ∧
      run SortedMap.empty u (.rigid [.optional address, hail]) known 1000 = some known := by
  intro u
  have haddress : Static address := by decide
  have hhail : Static hail := by decide
  have hmatch : (run SortedMap.empty u hail known 1000).isSome = true := by decide +kernel
  have hdepth : (compile SortedMap.empty u (.rigid [.optional address, hail]) known).regex.depth ≤
      maxDepth := by decide +kernel
  have hlasts : ¬GivesUp (compile SortedMap.empty u (.rigid [.optional address, hail]) known).regex
      (subject u) 1000 := by
    rw [GivesUp, Exhausts]
    decide +kernel
  have hsolid : Solid known (.optional address) := by decide +kernel
  refine ⟨haddress, hhail, hmatch, hdepth, hlasts, hsolid, ?_⟩
  exact (run_optional_iff haddress hhail hmatch 1000 known).mpr ⟨hdepth, hsolid, rfl, hlasts, rfl⟩

/-- The value of a variable is blank. -/
def blanked : Bindings :=
  SortedMap.empty.insert "x" ""

/-- An optional reference to a blank value in front of a word that is said: the word matches, and
the sequence does not. -/
theorem optional_blank_misses :
    let u := Utterance.scan "hello" 4
    let e : Expr := .rigid [.optional (.reference "x"), .literal "hello"]
    run SortedMap.empty u (.literal "hello") blanked 1000000 = some blanked ∧
      (compile SortedMap.empty u e blanked).regex.depth ≤ maxDepth ∧
      ¬GivesUp (compile SortedMap.empty u e blanked).regex (subject u) 1000000 ∧
      run SortedMap.empty u e blanked 1000000 = none := by
  refine ⟨by decide +kernel, by decide +kernel, ?_, by decide +kernel⟩
  rw [GivesUp, Exhausts]
  decide +kernel

end Colloquy.Matching
