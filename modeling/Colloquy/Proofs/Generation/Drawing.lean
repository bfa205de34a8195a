import Colloquy.Proofs.Generation.Results

/-!
# What is drawn

A draw moves its source on by some words and does nothing else to it (`Draw.MovesOn`).  This holds
of drawing a word and of drawing nothing, and is kept when draws follow one another, so it holds of
whatever is made from them: of every choice, and of generation (`generate_movesOn`).
-/

namespace Colloquy

theorem Source.skip_zero (src : Source) : src.skip 0 = src := rfl

/-- Whatever it gives, the draw leaves the source some words further on. -/
def Draw.MovesOn {α : Type} (x : Draw α) : Prop :=
  ∀ src, ∃ n, (x src).2 = src.skip n

namespace Draw.MovesOn

variable {α β : Type}

theorem pure (a : α) : Draw.MovesOn (Pure.pure a) :=
  fun _ => ⟨0, rfl⟩

theorem bind {x : Draw α} {f : α → Draw β} (hx : x.MovesOn) (hf : ∀ a, (f a).MovesOn) :
    Draw.MovesOn (x >>= f) := by
  intro src
  obtain ⟨m, hm⟩ := hx src
  obtain ⟨n, hn⟩ := hf (x src).1 (x src).2
  exact ⟨m + n, by rw [Draw.bind_apply, hn, hm, Source.skip_skip]⟩

end Draw.MovesOn

/-! ### Choices -/

namespace Selection

open Draw (MovesOn)

theorem next_movesOn : MovesOn Source.next :=
  fun _ => ⟨1, rfl⟩

theorem indexWithin_movesOn (n rejections : Nat) : MovesOn (Source.indexWithin n rejections) := by
  induction rejections with
  | zero => exact next_movesOn.bind fun _ => .pure _
  | succ rejections ih =>
    refine next_movesOn.bind fun v => ?_
    cases Source.accept? n v with
    | some i => exact .pure i
    | none => exact ih

theorem chooseUniform_movesOn {α : Type} (items : List α) : MovesOn (chooseUniform items) := by
  unfold chooseUniform
  split
  · exact .pure none
  · exact (indexWithin_movesOn _ _).bind fun _ => .pure _

end Selection

/-! ### Generation -/

namespace Generation

open Draw (MovesOn)

variable {macros : Macro.Registry}

theorem ofOutput_movesOn (output : Except Macro.Fault Macro.Output) (vars : Bindings) :
    MovesOn (ofOutput output vars : Draw _) := by
  rcases output with _ | _ | options | (_ | _) | _
  case ok.choices => exact fun src => Selection.chooseUniform_movesOn options.toList src
  all_goals exact .pure _

mutual

theorem reduce_movesOn (e : Expr) (vars : Bindings) :
    MovesOn (reduce macros e vars : Draw _) := by
  cases e with
  | literal text => rw [reduce]; exact .pure _
  | rigid items =>
    rw [reduce_rigid]
    exact (reduceAll_movesOn items vars).bind fun _ => .pure _
  | disjunction items =>
    rw [reduce_disjunction]
    exact (reduceEach_movesOn items vars vars).bind fun _ =>
      (Selection.chooseUniform_movesOn _).bind fun _ => .pure _
  | reference name => rw [reduce]; exact .pure (vars.get? name, vars)
  | assignment name value =>
    rw [reduce_assignment]
    exact (reduce_movesOn value vars).bind fun _ => .pure _
  | call name args => rw [reduce_call]; exact ofOutput_movesOn _ _
  | flexible | conjunction | optional | star | plus | negation | raw =>
    rw [reduce_eq_none (has_allowed_generation _)]
    exact .pure _

theorem reduceAll_movesOn (es : List Expr) (vars : Bindings) :
    MovesOn (reduceAll macros es vars : Draw _) := by
  cases es with
  | nil => rw [reduceAll]; exact .pure _
  | cons e es =>
    rw [reduceAll_cons]
    refine (reduce_movesOn e vars).bind fun r => ?_
    rcases r with ⟨_ | first, after⟩
    · exact .pure _
    · exact (reduceAll_movesOn es after).bind fun _ => .pure _

theorem reduceEach_movesOn (es : List Expr) (saved vars : Bindings) :
    MovesOn (reduceEach macros saved es vars : Draw _) := by
  cases es with
  | nil => rw [reduceEach]; exact .pure _
  | cons e es =>
    rw [reduceEach_cons]
    exact (reduce_movesOn e saved).bind fun r =>
      (reduceEach_movesOn es saved r.2).bind fun _ => .pure _

end

theorem generate_movesOn (e : Expr) (vars : Bindings) : MovesOn (generate macros e vars) := by
  refine (reduce_movesOn e vars).bind fun r => ?_
  rcases r with ⟨_ | raw, after⟩
  · exact .pure _
  · dsimp only
    split <;> exact .pure _

end Generation

end Colloquy
