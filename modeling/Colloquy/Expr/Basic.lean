/-!
# Expressions

One tree serves two grammars: matching expressions, which say what a user may say, and generation
expressions, which say what the system says.  `Expr.kind` names the kind of a node, `Expr.children`
gives the direct subtrees in source order, and the analyses of a whole tree (`kinds`,
`firstDisallowed`, `variableNames`) look at every node, parents before their children.
-/

namespace Colloquy

/-- An expression. -/
inductive Expr
  | literal (text : String)
  | flexible (items : List Expr)
  | rigid (items : List Expr)
  | conjunction (items : List Expr)
  | disjunction (items : List Expr)
  | optional (body : Expr)
  | star (body : Expr)
  | plus (body : Expr)
  | negation (body : Expr)
  | raw (pattern : String)
  | reference (name : String)
  | assignment (name : String) (value : Expr)
  | call (name : String) (args : List Expr)
  deriving Repr, Inhabited

/-- The kinds of nodes. -/
inductive Kind
  | literal
  | flexible
  | rigid
  | conjunction
  | disjunction
  | optional
  | star
  | plus
  | negation
  | raw
  | reference
  | assignment
  | call
  deriving DecidableEq, Repr

/-- A set of kinds: bit `k.ctorIdx` is set when `k` belongs to it. -/
abbrev KindSet := BitVec 13

namespace Kind

/-- The set of one kind. -/
def toSet (k : Kind) : KindSet :=
  1#13 <<< k.ctorIdx

/-- What the kind is called. -/
def describe : Kind → String
  | literal => "literal"
  | flexible => "flexible sequence"
  | rigid => "rigid sequence"
  | conjunction => "conjunction"
  | disjunction => "disjunction"
  | optional => "optional"
  | star => "kleene star"
  | plus => "kleene plus"
  | negation => "negation"
  | raw => "raw pattern"
  | reference => "variable reference"
  | assignment => "variable assignment"
  | call => "macro call"

end Kind

namespace KindSet

/-- The kind belongs to the set. -/
def has (s : KindSet) (k : Kind) : Bool :=
  s.getLsbD k.ctorIdx

/-- The set of the listed kinds. -/
def ofList (ks : List Kind) : KindSet :=
  ks.foldl (fun s k => s ||| k.toSet) 0

end KindSet

/-- The two grammars. -/
inductive Grammar
  | matching
  | generation
  deriving DecidableEq, Repr

namespace Grammar

/-- What the grammar is called. -/
def describe : Grammar → String
  | matching => "matching"
  | generation => "generation"

/-- The kinds of nodes that a tree of the grammar may hold. -/
def allowed : Grammar → KindSet
  | matching => BitVec.allOnes 13
  | generation =>
    KindSet.ofList [.literal, .rigid, .disjunction, .reference, .assignment, .call]

end Grammar

namespace Expr

/-- The kind of the node. -/
def kind : Expr → Kind
  | literal _ => .literal
  | flexible _ => .flexible
  | rigid _ => .rigid
  | conjunction _ => .conjunction
  | disjunction _ => .disjunction
  | optional _ => .optional
  | star _ => .star
  | plus _ => .plus
  | negation _ => .negation
  | raw _ => .raw
  | reference _ => .reference
  | assignment .. => .assignment
  | call .. => .call

/-- The direct subtrees, in source order. -/
def children : Expr → List Expr
  | flexible items | rigid items | conjunction items | disjunction items => items
  | optional e | star e | plus e | negation e | assignment _ e => [e]
  | call _ args => args
  | literal _ | raw _ | reference _ => []

/-! ### Analyses -/

mutual

/-- The kinds of all nodes. -/
def kinds : Expr → KindSet
  | literal _ => Kind.literal.toSet
  | flexible items => Kind.flexible.toSet ||| kindsOf items
  | rigid items => Kind.rigid.toSet ||| kindsOf items
  | conjunction items => Kind.conjunction.toSet ||| kindsOf items
  | disjunction items => Kind.disjunction.toSet ||| kindsOf items
  | optional e => Kind.optional.toSet ||| e.kinds
  | star e => Kind.star.toSet ||| e.kinds
  | plus e => Kind.plus.toSet ||| e.kinds
  | negation e => Kind.negation.toSet ||| e.kinds
  | raw _ => Kind.raw.toSet
  | reference _ => Kind.reference.toSet
  | assignment _ e => Kind.assignment.toSet ||| e.kinds
  | call _ args => Kind.call.toSet ||| kindsOf args

/-- The kinds of all nodes of several trees. -/
def kindsOf : List Expr → KindSet
  | [] => 0
  | e :: es => e.kinds ||| kindsOf es

end

mutual

/-- The nodes of a tree, each before its subtrees. -/
def nodes : Expr → List Expr
  | e@(literal _) | e@(raw _) | e@(reference _) => [e]
  | e@(flexible items) | e@(rigid items) | e@(conjunction items) | e@(disjunction items) =>
    e :: nodesOf items
  | e@(optional b) | e@(star b) | e@(plus b) | e@(negation b) | e@(assignment _ b) => e :: b.nodes
  | e@(call _ args) => e :: nodesOf args

/-- The nodes of several trees. -/
def nodesOf : List Expr → List Expr
  | [] => []
  | e :: es => e.nodes ++ nodesOf es

end

/-- A tree's nodes are among those of any row that it stands in. -/
theorem nodes_subset_nodesOf {e : Expr} {es : List Expr} (h : e ∈ es) : e.nodes ⊆ nodesOf es := by
  induction es with
  | nil => cases h
  | cons d es ih =>
    rw [nodesOf]
    rcases List.mem_cons.mp h with rfl | h
    · exact List.subset_append_left _ _
    · exact List.subset_append_of_subset_right _ (ih h)

mutual

/-- The first node, parents before children, whose kind is not in the set. -/
def firstDisallowed (allowed : KindSet) : Expr → Option Expr
  | e@(literal _) => if allowed.has .literal then none else some e
  | e@(raw _) => if allowed.has .raw then none else some e
  | e@(reference _) => if allowed.has .reference then none else some e
  | e@(flexible items) => if allowed.has .flexible then firstDisallowedOf allowed items else some e
  | e@(rigid items) => if allowed.has .rigid then firstDisallowedOf allowed items else some e
  | e@(conjunction items) =>
    if allowed.has .conjunction then firstDisallowedOf allowed items else some e
  | e@(disjunction items) =>
    if allowed.has .disjunction then firstDisallowedOf allowed items else some e
  | e@(optional b) => if allowed.has .optional then b.firstDisallowed allowed else some e
  | e@(star b) => if allowed.has .star then b.firstDisallowed allowed else some e
  | e@(plus b) => if allowed.has .plus then b.firstDisallowed allowed else some e
  | e@(negation b) => if allowed.has .negation then b.firstDisallowed allowed else some e
  | e@(assignment _ b) => if allowed.has .assignment then b.firstDisallowed allowed else some e
  | e@(call _ args) => if allowed.has .call then firstDisallowedOf allowed args else some e

/-- The first such node of several trees. -/
def firstDisallowedOf (allowed : KindSet) : List Expr → Option Expr
  | [] => none
  | e :: es =>
    match e.firstDisallowed allowed with
    | some node => some node
    | none => firstDisallowedOf allowed es

end

/-- The variable that the node itself reads or writes. -/
def ownVariable : Expr → Option String
  | reference name | assignment name _ => some name
  | _ => none

/-- The names of the variables read or written anywhere in the tree, sorted and without
repetitions. -/
def variableNames (e : Expr) : List String :=
  ((e.nodes.filterMap ownVariable).mergeSort fun a b => decide (a ≤ b)).eraseReps

end Expr

end Colloquy
