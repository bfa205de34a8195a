import Colloquy.Proofs.Generation.Results
import Colloquy.Proofs.Matching.Bound

/-!
# Reductions side by side

Two trees without calls that differ in the texts of their literals only are reduced from one source,
under different bindings.  `Relating` says what a relation on texts and a relation on bindings need
for both to be kept by reduction; then the two reductions succeed alike, with related texts and
bindings, and draw alike (`reduce_agrees`).  What one reduction keeps is the case of a relation that
holds of equals only.
-/

namespace Colloquy

/-- From every source, the draws give related results and leave the same source behind. -/
def Draw.Agrees {α β : Type} (R : α → β → Prop) (x : Draw α) (y : Draw β) : Prop :=
  ∀ src, R (x src).1 (y src).1 ∧ (x src).2 = (y src).2

section

variable {α β α' β' : Type} {R : α → β → Prop} {Q : α' → β' → Prop}

namespace Draw.Agrees

theorem pure {a : α} {b : β} (h : R a b) : Draw.Agrees R (Pure.pure a) (Pure.pure b) :=
  fun _ => ⟨h, rfl⟩

theorem bind {x : Draw α} {y : Draw β} {f : α → Draw α'} {g : β → Draw β'} (hx : Agrees R x y)
    (hf : ∀ a b, R a b → Agrees Q (f a) (g b)) : Agrees Q (x >>= f) (y >>= g) := by
  intro src
  obtain ⟨hresult, hsource⟩ := hx src
  rw [Draw.bind_apply, Draw.bind_apply, ← hsource]
  exact hf _ _ hresult _

end Draw.Agrees

theorem isSome_eq_of_rel {a : Option α} {b : Option β} (h : Option.Rel R a b) :
    a.isSome = b.isSome := by
  cases h <;> rfl

theorem rel_getElem? {as : List α} {bs : List β} (h : List.Forall₂ R as bs) (i : Nat) :
    Option.Rel R as[i]? bs[i]? := by
  induction h generalizing i with
  | nil => exact .none
  | cons hab _ ih =>
    cases i with
    | zero => exact .some hab
    | succ i => exact ih i

/-- Of lists that are related item by item, related items are chosen. -/
theorem Selection.chooseUniform_agrees {as : List α} {bs : List β} (h : List.Forall₂ R as bs) :
    Draw.Agrees (Option.Rel R) (chooseUniform as) (chooseUniform bs) := by
  cases h with
  | nil => exact .pure .none
  | cons hab h =>
    have hall := List.Forall₂.cons hab h
    rw [chooseUniform, chooseUniform, if_neg (by simp), if_neg (by simp), hall.length_eq]
    intro src
    exact ⟨rel_getElem? hall _, rfl⟩

end

namespace Generation

open Draw (Agrees)
open Matching (Callless)

variable {T : String → String → Prop} {B : Bindings → Bindings → Prop}
  {P Q : String → Prop}

/-! ### Trees that are alike -/

mutual

/-- The trees are alike, but for what is not generated and for the texts of the literals, which are
related; variables are read and written as far as the sets allow. -/
inductive Parallel (T : String → String → Prop) (P Q : String → Prop) : Expr → Expr → Prop
  | literal {s t : String} (texts : T s t) : Parallel T P Q (.literal s) (.literal t)
  | rigid {es ds : List Expr} (items : ParallelAll T P Q es ds) :
      Parallel T P Q (.rigid es) (.rigid ds)
  | disjunction {es ds : List Expr} (items : ParallelAll T P Q es ds) :
      Parallel T P Q (.disjunction es) (.disjunction ds)
  | reference {name : String} (read : P name) : Parallel T P Q (.reference name) (.reference name)
  | assignment {name : String} {e d : Expr} (written : Q name) (values : Parallel T P Q e d) :
      Parallel T P Q (.assignment name e) (.assignment name d)
  | notGenerated {e d : Expr} (kind : Grammar.generation.allowed.has e.kind = false)
      (kind' : Grammar.generation.allowed.has d.kind = false) : Parallel T P Q e d

/-- The trees are alike one by one. -/
inductive ParallelAll (T : String → String → Prop) (P Q : String → Prop) :
    List Expr → List Expr → Prop
  | nil : ParallelAll T P Q [] []
  | cons {e d : Expr} {es ds : List Expr} (head : Parallel T P Q e d) (tail : ParallelAll T P Q es ds) :
      ParallelAll T P Q (e :: es) (d :: ds)

end

mutual

/-- A tree without calls is like itself. -/
theorem parallel_self (e : Expr) (hcallless : Callless e)
    (htexts : ∀ text, .literal text ∈ e.nodes → T text text)
    (hreads : ∀ name, .reference name ∈ e.nodes → P name)
    (hwrites : ∀ name value, .assignment name value ∈ e.nodes → Q name) : Parallel T P Q e e := by
  cases e with
  | literal text => exact .literal (htexts text (.head _))
  | rigid items =>
    exact .rigid (parallelAll_self items (fun n hn => hcallless n (.tail _ hn))
      (fun text hn => htexts text (.tail _ hn)) (fun name hn => hreads name (.tail _ hn))
      fun name value hn => hwrites name value (.tail _ hn))
  | disjunction items =>
    exact .disjunction (parallelAll_self items (fun n hn => hcallless n (.tail _ hn))
      (fun text hn => htexts text (.tail _ hn)) (fun name hn => hreads name (.tail _ hn))
      fun name value hn => hwrites name value (.tail _ hn))
  | reference name => exact .reference (hreads name (.head _))
  | assignment name value =>
    exact .assignment (hwrites name value (.head _))
      (parallel_self value (fun n hn => hcallless n (.tail _ hn))
        (fun text hn => htexts text (.tail _ hn)) (fun name hn => hreads name (.tail _ hn))
        fun name value hn => hwrites name value (.tail _ hn))
  | call name args => exact absurd rfl (hcallless _ (.head _))
  | flexible | conjunction | optional | star | plus | negation | raw =>
    exact .notGenerated (has_allowed_generation _) (has_allowed_generation _)

theorem parallelAll_self (es : List Expr) (hcallless : ∀ n ∈ Expr.nodesOf es, n.kind ≠ .call)
    (htexts : ∀ text, .literal text ∈ Expr.nodesOf es → T text text)
    (hreads : ∀ name, .reference name ∈ Expr.nodesOf es → P name)
    (hwrites : ∀ name value, .assignment name value ∈ Expr.nodesOf es → Q name) :
    ParallelAll T P Q es es := by
  cases es with
  | nil => exact .nil
  | cons e es =>
    simp only [Expr.nodesOf, List.mem_append] at hcallless htexts hreads hwrites
    exact .cons
      (parallel_self e (fun n hn => hcallless n (.inl hn)) (fun text hn => htexts text (.inl hn))
        (fun name hn => hreads name (.inl hn)) fun name value hn => hwrites name value (.inl hn))
      (parallelAll_self es (fun n hn => hcallless n (.inr hn))
        (fun text hn => htexts text (.inr hn)) (fun name hn => hreads name (.inr hn))
        fun name value hn => hwrites name value (.inr hn))

end

/-! ### What reduction keeps -/

/-- The relations on texts and on bindings hold still after what reduction does to texts and to the
variables that it may read and write. -/
structure Relating (T : String → String → Prop) (B : Bindings → Bindings → Prop)
    (P Q : String → Prop) : Prop where
  join {ss ts : List String} : List.Forall₂ T ss ts →
    T (String.intercalate " " ss) (String.intercalate " " ts)
  tidy {s t : String} : T s t → T (tidy s) (tidy t)
  get? {v w : Bindings} {name : String} : B v w → P name →
    Option.Rel T (v.get? name) (w.get? name)
  insert {v w : Bindings} {name s t : String} : B v w → Q name → T s t →
    B (v.insert name s) (w.insert name t)

/-- Related texts, or both none, and related bindings after them. -/
def Reduced {α : Type} (T : α → α → Prop) (B : Bindings → Bindings → Prop)
    (r r' : Option α × Bindings) : Prop :=
  Option.Rel T r.1 r'.1 ∧ B r.2 r'.2

/-- A text and the bindings after it, related to others. -/
def Offered (T : String → String → Prop) (B : Bindings → Bindings → Prop)
    (r r' : String × Bindings) : Prop :=
  T r.1 r'.1 ∧ B r.2 r'.2

theorem Reduced.kept {r r' : Option String × Bindings} (h : Reduced T B r r') :
    Option.Rel (Offered T B) (kept r) (kept r') := by
  obtain ⟨_ | text, _⟩ := r <;> obtain ⟨_ | text', _⟩ := r'
  · exact .none
  · exact nomatch h.1
  · exact nomatch h.1
  · cases h.1 with
    | some htexts => exact .some ⟨htexts, h.2⟩

theorem forall₂_toList {α β : Type} {R : α → β → Prop} {a : Option α} {b : Option β}
    (h : Option.Rel R a b) : List.Forall₂ R a.toList b.toList := by
  cases h with
  | none => exact .nil
  | some h => exact .cons h .nil

theorem rel_map {α β α' β' : Type} {R : α → β → Prop} {Q : α' → β' → Prop} {f : α → α'}
    {g : β → β'} {a : Option α} {b : Option β} (h : Option.Rel R a b)
    (hf : ∀ a b, R a b → Q (f a) (g b)) : Option.Rel Q (a.map f) (b.map g) := by
  cases h with
  | none => exact .none
  | some h => exact .some (hf _ _ h)

variable (macros : Macro.Registry)

mutual

/-- Trees that are alike reduce alike under related bindings. -/
theorem reduce_agrees (laws : Relating T B P Q) (e d : Expr) (h : Parallel T P Q e d) {v w : Bindings}
    (hvars : B v w) :
    Agrees (Reduced T B) (reduce macros e v : Draw _) (reduce macros d w : Draw _) := by
  cases e with
  | literal s =>
    cases h with
    | literal texts => rw [reduce, reduce]; exact .pure ⟨.some texts, hvars⟩
    | notGenerated kind => exact nomatch (has_allowed_generation _).symm.trans kind
  | rigid es =>
    cases h with
    | @rigid _ ds items =>
      rw [reduce_rigid, reduce_rigid]
      exact (reduceAll_agrees laws es ds items hvars).bind fun r r' hr =>
        .pure ⟨rel_map hr.1 fun _ _ => laws.join, hr.2⟩
    | notGenerated kind => exact nomatch (has_allowed_generation _).symm.trans kind
  | disjunction es =>
    cases h with
    | @disjunction _ ds items =>
      rw [reduce_disjunction, reduce_disjunction]
      -- As many alternatives succeed on both sides, so the draw picks related ones.
      refine (reduceEach_agrees laws es ds items hvars hvars).bind fun r r' hr =>
        (Selection.chooseUniform_agrees hr.1).bind fun chosen chosen' hchosen => .pure ?_
      cases hchosen with
      | none => exact ⟨.none, hvars⟩
      | some hoffered => exact ⟨.some hoffered.1, hoffered.2⟩
    | notGenerated kind => exact nomatch (has_allowed_generation _).symm.trans kind
  | reference name =>
    cases h with
    | reference read =>
      rw [reduce]
      exact fun _ => ⟨⟨laws.get? hvars read, hvars⟩, rfl⟩
    | notGenerated kind => exact nomatch (has_allowed_generation _).symm.trans kind
  | assignment name e =>
    cases h with
    | @assignment _ _ d written values =>
      rw [reduce_assignment, reduce_assignment]
      refine (reduce_agrees laws e d values hvars).bind fun r r' hr => .pure ?_
      obtain ⟨text, after⟩ := r
      obtain ⟨text', after'⟩ := r'
      obtain ⟨htexts, hafter⟩ := hr
      cases htexts with
      | none => exact ⟨.none, hafter⟩
      | some texts => exact ⟨.some (laws.tidy texts), laws.insert hafter written (laws.tidy texts)⟩
    | notGenerated kind => exact nomatch (has_allowed_generation _).symm.trans kind
  | call => cases h with
    | notGenerated kind => exact nomatch (has_allowed_generation _).symm.trans kind
  | flexible | conjunction | optional | star | plus | negation | raw =>
    cases h with
    | notGenerated kind kind' =>
      rw [reduce_eq_none kind, reduce_eq_none kind']
      exact .pure ⟨.none, hvars⟩

theorem reduceAll_agrees (laws : Relating T B P Q) (es ds : List Expr) (h : ParallelAll T P Q es ds)
    {v w : Bindings} (hvars : B v w) :
    Agrees (Reduced (List.Forall₂ T) B) (reduceAll macros es v : Draw _)
      (reduceAll macros ds w : Draw _) := by
  cases es with
  | nil =>
    cases h with
    | nil => rw [reduceAll]; exact .pure ⟨.some .nil, hvars⟩
  | cons e es =>
    cases h with
    | @cons _ d _ ds head tail =>
      rw [reduceAll_cons, reduceAll_cons]
      refine (reduce_agrees laws e d head hvars).bind fun r r' hr => ?_
      obtain ⟨first, after⟩ := r
      obtain ⟨first', after'⟩ := r'
      obtain ⟨hfirst, hafter⟩ := hr
      -- A failure ends both rows at the same place.
      cases hfirst with
      | none => exact .pure ⟨.none, hafter⟩
      | some texts =>
        exact (reduceAll_agrees laws es ds tail hafter).bind fun others others' hothers =>
          .pure ⟨rel_map hothers.1 fun _ _ => .cons texts, hothers.2⟩

theorem reduceEach_agrees (laws : Relating T B P Q) (es ds : List Expr) (h : ParallelAll T P Q es ds)
    {saved saved' v w : Bindings} (hsaved : B saved saved') (hvars : B v w) :
    Agrees (fun r r' => List.Forall₂ (Offered T B) r.1 r'.1 ∧ B r.2 r'.2)
      (reduceEach macros saved es v : Draw _) (reduceEach macros saved' ds w : Draw _) := by
  cases es with
  | nil =>
    cases h with
    | nil => rw [reduceEach, reduceEach]; exact .pure ⟨.nil, hvars⟩
  | cons e es =>
    cases h with
    | @cons _ d _ ds head tail =>
      rw [reduceEach_cons, reduceEach_cons]
      exact (reduce_agrees laws e d head hsaved).bind fun r r' hr =>
        (reduceEach_agrees laws es ds tail hsaved hr.2).bind fun others others' hothers =>
          .pure ⟨List.rel_append (forall₂_toList hr.kept) hothers.1, hothers.2⟩

end

end Generation

end Colloquy
