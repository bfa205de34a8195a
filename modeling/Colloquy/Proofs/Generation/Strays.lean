import Colloquy.Proofs.Expr.Kinds
import Colloquy.Proofs.Generation.Results

/-!
# Nodes that cannot be generated

Reduction gives nothing for a node of a kind that only matching knows.  `reduceOr` hands such nodes
to a reduction of its own choice, and is the same as `reduce` otherwise (`reduceOr_eq`).  A tree
that was read as a generation expression holds no such node, so it does not matter what is done with
them (`kinds_checked`): reduction does not come to one.
-/

namespace Colloquy.Generation

/-! ### Reduction with a way out -/

section

variable (macros : Macro.Registry) (stray : Expr → Reduce (Option String))

mutual

/-- Reduces an expression; `stray` reduces the nodes that cannot be generated. -/
def reduceOr : Expr → Reduce (Option String)
  | .literal text => return some text
  | .rigid items => do
    match ← reduceAllOr items with
    | some parts => return some (String.intercalate " " parts)
    | none => return none
  | .disjunction items => do
    let saved ← get
    let results ← reduceEachOr saved items
    match ← Selection.chooseUniform results with
    | some (text, vars) => do
      set vars
      return some text
    | none => do
      set saved
      return none
  | .reference name => return (← get).get? name
  | .assignment name value => do
    match ← reduceOr value with
    | some text => do
      let text := tidy text
      modify (·.insert name text)
      return some text
    | none => return none
  | .call name args => do
    let (output, vars) := Macro.evalCall macros Utterance.silence name args (← get)
    set vars
    ofOutput output
  | e@(.flexible _) | e@(.conjunction _) | e@(.optional _) | e@(.star _) | e@(.plus _)
  | e@(.negation _) | e@(.raw _) => stray e

/-- Reduces expressions from left to right, up to the first that fails. -/
def reduceAllOr : List Expr → Reduce (Option (List String))
  | [] => return some []
  | e :: es => do
    match ← reduceOr e with
    | none => return none
    | some first =>
      match ← reduceAllOr es with
      | none => return none
      | some others => return some (first :: others)

/-- Reduces each expression from the same bindings. -/
def reduceEachOr (saved : Bindings) : List Expr → Reduce (List (String × Bindings))
  | [] => return []
  | e :: es => do
    set saved
    match ← reduceOr e with
    | none => reduceEachOr saved es
    | some text =>
      let vars ← get
      return (text, vars) :: (← reduceEachOr saved es)

end

end

variable {macros : Macro.Registry} {stray : Expr → Reduce (Option String)}

/-- The node can be generated, or nothing is made of it. -/
def Unstrayed (stray : Expr → Reduce (Option String)) (n : Expr) : Prop :=
  Grammar.generation.allowed.has n.kind = true ∨ stray n = return none

mutual

theorem reduceOr_eq (e : Expr) (h : ∀ n ∈ e.nodes, Unstrayed stray n) :
    reduceOr macros stray e = reduce macros e := by
  have hroot : Unstrayed stray e := h e (by rw [Expr.nodes_eq]; exact List.mem_cons_self)
  cases e with
  | literal | reference => rw [reduceOr, reduce]
  | call => rfl
  | rigid items =>
    rw [Expr.nodes, List.forall_mem_cons] at h
    rw [reduceOr, reduce]
    exact congrArg (· >>= _) (reduceAllOr_eq items h.2)
  | disjunction items =>
    rw [Expr.nodes, List.forall_mem_cons] at h
    rw [reduceOr, reduce]
    refine congrArg (get >>= ·) (funext fun saved => ?_)
    exact congrArg (· >>= _) (reduceEachOr_eq items h.2 saved)
  | assignment name value =>
    rw [Expr.nodes, List.forall_mem_cons] at h
    rw [reduceOr, reduce]
    exact congrArg (· >>= _) (reduceOr_eq value h.2)
  -- These kinds are strays in generation: nothing but the hypothesis keeps them away.
  | flexible | conjunction | optional | star | plus | negation | raw =>
    rw [reduceOr, reduce]
    exact hroot.resolve_left fun hkind => nomatch (has_allowed_generation _).symm.trans hkind

theorem reduceAllOr_eq (es : List Expr) (h : ∀ n ∈ Expr.nodesOf es, Unstrayed stray n) :
    reduceAllOr macros stray es = reduceAll macros es := by
  cases es with
  | nil => rw [reduceAllOr, reduceAll]
  | cons e es =>
    rw [Expr.nodesOf, List.forall_mem_append] at h
    rw [reduceAllOr, reduceAll, reduceOr_eq e h.1]
    refine congrArg (reduce macros e >>= ·) (funext fun r => ?_)
    cases r with
    | none => rfl
    | some first => exact congrArg (· >>= _) (reduceAllOr_eq es h.2)

theorem reduceEachOr_eq (es : List Expr) (h : ∀ n ∈ Expr.nodesOf es, Unstrayed stray n)
    (saved : Bindings) : reduceEachOr macros stray saved es = reduceEach macros saved es := by
  cases es with
  | nil => rw [reduceEachOr, reduceEach]
  | cons e es =>
    rw [Expr.nodesOf, List.forall_mem_append] at h
    rw [reduceEachOr, reduceEach, reduceOr_eq e h.1]
    refine congrArg (set saved >>= ·) (funext fun _ => congrArg (reduce macros e >>= ·)
      (funext fun r => ?_))
    cases r with
    | none => exact reduceEachOr_eq es h.2 saved
    | some text =>
      refine congrArg (get >>= ·) (funext fun vars => ?_)
      exact congrArg (· >>= _) (reduceEachOr_eq es h.2 saved)

end

/-- With nothing made of the nodes that cannot be generated, `reduceOr` is `reduce`. -/
theorem reduceOr_none (e : Expr) : reduceOr macros (fun _ => return none) e = reduce macros e :=
  reduceOr_eq e fun _ _ => .inr rfl

theorem reduceOr_stray {e : Expr} (kind : Grammar.generation.allowed.has e.kind = false) :
    reduceOr macros stray e = stray e := by
  rw [has_allowed_generation] at kind
  cases e with
  | literal | rigid | disjunction | reference | assignment | call => cases kind
  | flexible | conjunction | optional | star | plus | negation | raw => rw [reduceOr]

/-! ### What parsing keeps out -/

/-- The check for kinds is exact.  It finds nothing just if the kinds of all nodes are in the set,
and otherwise the first node, parents before children, that is not.  A tree that was read as a
generation expression has only nodes that can be generated, arguments of calls included; so
reduction does not come to another one, whatever would be made of it. -/
theorem kinds_checked :
    (∀ (e : Expr) (allowed : KindSet),
      (e.firstDisallowed allowed = none ↔ e.kinds &&& allowed = e.kinds) ∧
      e.firstDisallowed allowed = e.nodes.find? (fun n => !allowed.has n.kind)) ∧
    (∀ e : Expr, e.nodes = e :: e.children.flatMap Expr.nodes ∧
      ∀ k, e.kinds.has k = true ↔ ∃ n ∈ e.nodes, n.kind = k) ∧
    (∀ source tree, Expr.parse .generation source = .ok tree →
      (∀ n ∈ tree.nodes,
        n.kind ∈ [.literal, .rigid, .disjunction, .reference, .assignment, .call]) ∧
      ∀ macros stray, reduceOr macros stray tree = reduce macros tree) ∧
    ∀ macros e, reduceOr macros (fun _ => return none) e = reduce macros e ∧
      ∀ stray, Grammar.generation.allowed.has e.kind = false →
        reduceOr macros stray e = stray e := by
  refine ⟨fun e allowed => ⟨e.firstDisallowed_eq_none_iff allowed,
      e.firstDisallowed_eq_find? allowed⟩, fun e => ⟨e.nodes_eq, fun k => e.has_kinds_iff⟩, ?_,
    fun macros e => ⟨reduceOr_none e, fun stray kind => reduceOr_stray kind⟩⟩
  intro source tree hparse
  have hkinds : ∀ n ∈ tree.nodes, Grammar.generation.allowed.has n.kind = true :=
    fun n hn => Expr.has_of_parse hparse hn
  refine ⟨fun n hn => ?_, fun macros stray => reduceOr_eq tree fun n hn => .inl (hkinds n hn)⟩
  have := hkinds n hn
  rwa [has_allowed_generation, List.contains_iff_mem] at this

end Colloquy.Generation
