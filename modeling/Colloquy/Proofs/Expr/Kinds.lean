import Mathlib.Tactic.IntervalCases
import Colloquy.Expr.Parser

/-!
# Kinds in trees

The analyses of a tree say for each kind of node what they do with its parts.  What they compute is
the same for all kinds (`kinds_eq`, `nodes_eq`, `firstDisallowed_eq`): something about the node
itself, and the same about its children.  So they are compared by one induction over the children
(`children_induction`).

`firstDisallowed` finds the first node outside a set of kinds, parents before their children
(`firstDisallowed_eq_find?`), and finds none just if all kinds of the tree are in the set
(`firstDisallowed_eq_none_iff`).  So parsing keeps all other kinds out of its trees
(`has_of_parse`).
-/

namespace Colloquy

/-! ### Sets of kinds -/

namespace KindSet

variable {s t : KindSet} {k l : Kind}

theorem has_union : has (s ||| t) k = (has s k || has t k) :=
  BitVec.getLsbD_or

theorem has_toSet : has k.toSet l = decide (l = k) := by
  cases k <;> cases l <;> rfl

/-- Every place in a set belongs to a kind. -/
theorem exists_ctorIdx {i : Nat} (h : i < 13) : ∃ k : Kind, k.ctorIdx = i := by
  interval_cases i
  exacts [⟨.literal, rfl⟩, ⟨.flexible, rfl⟩, ⟨.rigid, rfl⟩, ⟨.conjunction, rfl⟩,
    ⟨.disjunction, rfl⟩, ⟨.optional, rfl⟩, ⟨.star, rfl⟩, ⟨.plus, rfl⟩, ⟨.negation, rfl⟩,
    ⟨.raw, rfl⟩, ⟨.reference, rfl⟩, ⟨.assignment, rfl⟩, ⟨.call, rfl⟩]

/-- One set is contained in another if it has no kind that the other has not. -/
theorem and_eq_left_iff : s &&& t = s ↔ ∀ k, has s k = true → has t k = true := by
  constructor
  · intro h k hk
    rw [← h, has, BitVec.getLsbD_and, Bool.and_eq_true] at hk
    exact hk.2
  · intro h
    refine BitVec.eq_of_getLsbD_eq fun i hi => ?_
    obtain ⟨k, rfl⟩ := exists_ctorIdx hi
    rw [BitVec.getLsbD_and]
    cases hk : s.getLsbD k.ctorIdx with
    | false => rfl
    | true => exact h k hk

end KindSet

namespace Expr

/-! ### Rows of trees -/

theorem kindsOf_eq_foldr (es : List Expr) :
    kindsOf es = es.foldr (fun e s => e.kinds ||| s) 0 := by
  induction es with
  | nil => rfl
  | cons e es ih => rw [kindsOf, ih, List.foldr_cons]

theorem nodesOf_eq_flatMap (es : List Expr) : nodesOf es = es.flatMap nodes := by
  induction es with
  | nil => rfl
  | cons e es ih => rw [nodesOf, ih, List.flatMap_cons]

theorem firstDisallowedOf_eq (allowed : KindSet) (es : List Expr) :
    firstDisallowedOf allowed es = es.findSome? (firstDisallowed allowed) := by
  induction es with
  | nil => rfl
  | cons e es ih =>
    rw [firstDisallowedOf, ih, List.findSome?_cons]
    cases e.firstDisallowed allowed <;> rfl

/-! ### Nodes and their children -/

theorem kinds_eq (e : Expr) :
    e.kinds = e.kind.toSet ||| e.children.foldr (fun c s => c.kinds ||| s) 0 := by
  cases e <;> simp [kinds, kind, children, kindsOf_eq_foldr]

theorem nodes_eq (e : Expr) : e.nodes = e :: e.children.flatMap nodes := by
  cases e <;> simp [nodes, children, nodesOf_eq_flatMap]

theorem firstDisallowed_eq (allowed : KindSet) (e : Expr) :
    e.firstDisallowed allowed =
      if allowed.has e.kind then e.children.findSome? (firstDisallowed allowed) else some e := by
  cases e <;> simp only [firstDisallowed, children, firstDisallowedOf_eq, List.findSome?_nil,
    List.findSome?_singleton] <;> rfl

theorem sizeOf_lt_of_mem_children {c e : Expr} (h : c ∈ e.children) : sizeOf c < sizeOf e := by
  cases e with
  | flexible items | rigid items | conjunction items | disjunction items | call name items =>
    have hlt := List.sizeOf_lt_of_mem (show c ∈ items from h)
    simp only [flexible.sizeOf_spec, rigid.sizeOf_spec, conjunction.sizeOf_spec,
      disjunction.sizeOf_spec, call.sizeOf_spec]
    omega
  | optional b | star b | plus b | negation b | assignment name b =>
    rw [List.mem_singleton.mp h]
    simp only [optional.sizeOf_spec, star.sizeOf_spec, plus.sizeOf_spec, negation.sizeOf_spec,
      assignment.sizeOf_spec]
    omega
  | literal | raw | reference => cases h

/-- What holds of a tree if it holds of its children holds of every tree. -/
theorem children_induction {P : Expr → Prop} (h : ∀ e, (∀ c ∈ e.children, P c) → P e)
    (e : Expr) : P e :=
  h e fun c _ => children_induction h c
termination_by sizeOf e
decreasing_by exact sizeOf_lt_of_mem_children ‹_›

/-! ### What the analyses find -/

theorem has_foldr_kinds_iff {k : Kind} (es : List Expr) :
    KindSet.has (es.foldr (fun e s => e.kinds ||| s) 0) k = true ↔
      ∃ e ∈ es, e.kinds.has k = true := by
  induction es with
  | nil => simp [KindSet.has]
  | cons e es ih =>
    rw [List.foldr_cons, KindSet.has_union, Bool.or_eq_true, ih]
    simp only [List.mem_cons, exists_eq_or_imp]

/-- The kinds of the tree are those of its nodes. -/
theorem has_kinds_iff {k : Kind} (e : Expr) :
    e.kinds.has k = true ↔ ∃ n ∈ e.nodes, n.kind = k := by
  induction e using children_induction with
  | h e ih =>
    rw [kinds_eq, KindSet.has_union, Bool.or_eq_true, KindSet.has_toSet, decide_eq_true_iff,
      has_foldr_kinds_iff, nodes_eq]
    simp only [List.mem_cons, exists_eq_or_imp]
    refine or_congr eq_comm ?_
    constructor
    · rintro ⟨c, hc, hk⟩
      obtain ⟨n, hn, hkind⟩ := (ih c hc).mp hk
      exact ⟨n, List.mem_flatMap.mpr ⟨c, hc, hn⟩, hkind⟩
    · rintro ⟨n, hn, hkind⟩
      obtain ⟨c, hc, hn⟩ := List.mem_flatMap.mp hn
      exact ⟨c, hc, (ih c hc).mpr ⟨n, hn, hkind⟩⟩

theorem findSome?_congr {α β : Type} {f g : α → Option β} {xs : List α}
    (h : ∀ x ∈ xs, f x = g x) : xs.findSome? f = xs.findSome? g := by
  induction xs with
  | nil => rfl
  | cons x xs ih =>
    obtain ⟨hx, hxs⟩ := List.forall_mem_cons.mp h
    rw [List.findSome?_cons, List.findSome?_cons, hx, ih hxs]

/-- What is found is the first node outside the set, parents before their children. -/
theorem firstDisallowed_eq_find? (allowed : KindSet) (e : Expr) :
    e.firstDisallowed allowed = e.nodes.find? fun n => !allowed.has n.kind := by
  induction e using children_induction with
  | h e ih =>
    rw [firstDisallowed_eq, nodes_eq, List.find?_cons, List.find?_flatMap]
    cases allowed.has e.kind with
    | false => rfl
    | true => exact findSome?_congr ih

/-- Nothing is found just if the kinds of the tree are all in the set. -/
theorem firstDisallowed_eq_none_iff (allowed : KindSet) (e : Expr) :
    e.firstDisallowed allowed = none ↔ e.kinds &&& allowed = e.kinds := by
  rw [firstDisallowed_eq_find?, List.find?_eq_none, KindSet.and_eq_left_iff]
  constructor
  · intro h k hk
    obtain ⟨n, hn, rfl⟩ := (has_kinds_iff e).mp hk
    simpa using h n hn
  · intro h n hn
    simpa using h n.kind ((has_kinds_iff e).mpr ⟨n, hn, rfl⟩)

/-- A tree that was read holds only nodes of the kinds of its grammar. -/
theorem has_of_parse [Engine] {grammar : Grammar} {source : String} {tree n : Expr}
    (h : parse grammar source = .ok tree) (hn : n ∈ tree.nodes) :
    grammar.allowed.has n.kind = true := by
  rw [parse] at h
  dsimp only at h
  split at h
  · cases h
  split at h
  · cases h
  · rename_i hnone
    cases h
    rw [firstDisallowed_eq_find?, List.find?_eq_none] at hnone
    simpa using hnone n hn

end Expr

end Colloquy
